import Taps.Udp.Lemmas.Loops

/-!
# Shutting down

The socket is closed exactly while the Listener is unused. What the close leaves of the two loops depends
on whether they are waiting at that moment.
-/

namespace Taps.Demux

variable {E : Type} {s t : Demux E} {b : Nat}

theorem unused_release (s : Demux E) (b : Nat) : (s.release b).unused = s.unused := by
  unfold release
  split
  · rfl
  · split <;> rfl

theorem unused_accept (s : Demux E) : s.accept.unused = s.unused := by
  unfold accept
  split
  · rfl
  · split <;> rfl

theorem accepting_trySend (h : s.trySend b = some t) : t.accepting = s.accepting := by
  unfold trySend at h
  split at h
  · cases h
  · split at h
    · cases h
      rfl
    · split at h
      · cases h
        rfl
      · cases h

theorem accepting_release (s : Demux E) (b : Nat) : (s.release b).accepting = s.accepting := by
  unfold release
  split
  · rfl
  · split <;> rfl

theorem unused_iff : s.unused = true ↔ s.accepting = false ∧ s.table.index.keys = [] := by
  simp [unused]

variable [DecidableEq E]

theorem accepting_makeRoom (s : Demux E) : s.makeRoom.accepting = s.accepting := by
  rcases s.makeRoom_evicts with h | ⟨it, h⟩
  · rw [h]
  · rw [h, evict]
    split <;> rfl

theorem accepting_connect (s : Demux E) (now : Int) (address : Addr) (d : Datagram E) :
    (s.connect now address d).accepting = s.accepting := by
  unfold connect
  cases h : (s.add d.source address now).trySend s.peers.length with
  | some t =>
      have hacc := accepting_trySend h
      simp only [h]
      exact hacc
  | none =>
      simp only [h]
      exact accepting_release ..

/-- Serving a datagram never makes the Listener unused. -/
theorem unused_of_serve {now : Int} {address : Addr} {d : Datagram E}
    (h : (s.serve now address d).unused = true) : s.unused = true := by
  unfold serve at h
  split at h
  · split at h
    · exact h
    · exact h
  · split at h
    · rename_i hacc
      rw [unused_iff, accepting_connect, accepting_makeRoom, hacc] at h
      exact absurd h.1 nofun
    · exact h

theorem Move.unused {G : List (Release E) → E → Addr → Prop} (h : Move G s t)
    (hs : s.unused = true) : t.unused = true := by
  rw [unused_iff] at hs ⊢
  obtain ⟨hacc, hidx⟩ := hs
  cases h with
  | channel accepting _ _ h _ => exact ⟨by simpa [hacc] using h, hidx⟩
  | enqueue | act | touch | post | unpost => exact ⟨hacc, hidx⟩
  | @remove n cause hn =>
      refine ⟨hacc, ?_⟩
      rw [show (s.remove n cause).table.index = s.table.index.erase n.key from rfl, AList.keys_erase,
        hidx, List.erase_nil]
  | add now hacc' => exact absurd (hacc.symm.trans hacc') nofun

theorem Moves.unused {G : List (Release E) → E → Addr → Prop} (h : Moves G s t)
    (hs : s.unused = true) : t.unused = true := by
  induction h with
  | refl => exact hs
  | tail _ hm ih => exact hm.unused ih

theorem Serves.unused {G : List (Release E) → E → Addr → Prop} {d : Datagram E}
    (h : Serves G d s t) (hs : s.unused = true) : t.unused = true := by
  cases h with
  | dropped h => exact h.unused hs
  | delivered h => exact h.unused hs

end Taps.Demux

namespace Taps.UDPDemux

variable {E : Type} {s s' t : UDPDemux E} {e : DemuxEvent E}

/-- The socket is closed exactly while the Listener is unused. -/
def Closed (s : UDPDemux E) : Prop := s.demux.unused = true ↔ s.socketOpen = false

theorem closed_shutDownIfUnused (h : t.socketOpen = false → t.demux.unused = true) :
    t.shutDownIfUnused.Closed := by
  unfold Closed shutDownIfUnused
  split
  · rename_i hu
    exact ⟨fun _ => rfl, fun _ => hu⟩
  · rename_i hu
    exact ⟨fun h' => absurd h' hu, h⟩

theorem socketOpen_arrive (s : UDPDemux E) (sink : Bool)
    (outcome : Except ErrorCode (E × List Byte)) :
    (s.arrive sink outcome).socketOpen = s.socketOpen ∧
      (s.arrive sink outcome).sweepLoop = s.sweepLoop := by
  cases outcome <;> exact ⟨rfl, rfl⟩

theorem create_closed (config : DemuxConfig) (atCap : Bool) :
    (create (E := E) config atCap).Closed := ⟨nofun, nofun⟩

/-- Once the socket is closed, no wait is pending, and none has expired that the loop would go on from. -/
def SweepDone (s : UDPDemux E) : Prop :=
  s.socketOpen = false → s.sweepLoop = .cancelled ∨ s.sweepLoop = .returned

theorem sweepDone_shutDownIfUnused (h : t.SweepDone)
    (hwait : t.demux.unused = true → t.socketOpen = true → t.sweepLoop = .pending) :
    t.shutDownIfUnused.SweepDone := by
  unfold SweepDone shutDownIfUnused
  split
  · rename_i hu
    intro _
    cases ho : t.socketOpen with
    | true => exact .inl (by simp [hwait hu ho, SweepLoop.cancel])
    | false =>
        rcases h ho with hl | hl
        · exact .inl (by simp [hl, SweepLoop.cancel])
        · exact .inr (by simp [hl, SweepLoop.cancel])
  · exact h

/-- Once the socket is closed, the loop has returned, or it returns when it is resumed. -/
def ReceiveDone (s : UDPDemux E) : Prop :=
  s.socketOpen = false → s.receiveLoop = .returned ∨
    ∃ sink, s.receiveLoop = .completed sink (.error .operationAborted)

theorem receiveDone_shutDownIfUnused (h : t.ReceiveDone)
    (hwait : t.demux.unused = true → t.socketOpen = true → ∃ sink, t.receiveLoop = .pending sink) :
    t.shutDownIfUnused.ReceiveDone := by
  unfold ReceiveDone shutDownIfUnused
  split
  · rename_i hu
    intro _
    cases ho : t.socketOpen with
    | true =>
        obtain ⟨sink, hl⟩ := hwait hu ho
        exact .inr ⟨sink, by simp [hl, ReceiveLoop.abort]⟩
    | false =>
        rcases h ho with hl | ⟨sink, hl⟩
        · exact .inl (by simp [hl, ReceiveLoop.abort])
        · exact .inr ⟨sink, by simp [hl, ReceiveLoop.abort]⟩
  · exact h

variable [DecidableEq E]

/-! ## Steps -/

theorem socketOpen_resume (s : UDPDemux E) (now : Int) (address : Addr) (atCap sink : Bool)
    (outcome : Except ErrorCode (Datagram E)) :
    (s.resume now address atCap sink outcome).socketOpen = s.socketOpen ∧
      (s.resume now address atCap sink outcome).sweepLoop = s.sweepLoop := by
  cases outcome with
  | error ec =>
      unfold resume
      simp only
      split <;> exact ⟨rfl, rfl⟩
  | ok d => cases sink <;> exact ⟨rfl, rfl⟩

theorem Steps.closed (h : Steps s e s') (hi : s.Inv) (hc : s.Closed) : s'.Closed := by
  have hmono : s.demux.unused = true → s'.demux.unused = true := by
    intro hu
    rcases h.serves (G := fun _ _ _ => True) hi.demux (fun _ _ _ _ _ _ _ _ => trivial) with
      hm | ⟨d, -, -, hs⟩
    · exact hm.unused hu
    · exact hs.unused hu
  cases h with
  | arrive hl ho =>
      rw [Closed, demux_arrive, (s.socketOpen_arrive _ _).1]
      exact hc
  | @resume now address atCap sink outcome hl ha =>
      have hback : (s.resume now address atCap sink outcome).demux.unused = true →
          s.demux.unused = true := by
        intro hu
        rcases resume_demux_cases hl now address atCap with ⟨d, -, hserve⟩ | ⟨-, hsame⟩
        · rw [hserve] at hu
          exact Demux.unused_of_serve hu
        · rwa [hsame] at hu
      rw [Closed, (s.socketOpen_resume ..).1]
      exact ⟨fun hu => hc.mp (hback hu), fun ho => hmono (hc.mpr ho)⟩
  | expire | cancelled => exact hc
  | sweep hl =>
      exact closed_shutDownIfUnused (t := s.sweep _) fun ho => by
        simpa using hmono (hc.mpr ho)
  | stop =>
      exact closed_shutDownIfUnused (t := { s with demux := s.demux.stop }) fun ho => by
        simpa using hmono (hc.mpr ho)
  | @release i x hh =>
      exact closed_shutDownIfUnused (t := { s with demux := (s.demux.unpost i).runRelease x }) fun ho => by
        simpa using hmono (hc.mpr ho)
  | accept =>
      rw [Closed, Demux.unused_accept]
      exact hc
  | receive | wake => exact hc
  | close =>
      rw [Closed, Demux.close, Demux.unused_release]
      exact hc
  | @destroy b p hp ho =>
      have hu : (s.demux.destroy b).unused = s.demux.unused := s.demux.unused_release b
      rw [Closed, hu]
      exact hc

theorem Steps.sweepDone (h : Steps s e s') (hi : s.Inv) (hc : s.Closed) (hwait : s.SweepWaits e)
    (hd : s.SweepDone) : s'.SweepDone := by
  have hc' := h.closed hi hc
  cases h with
  | arrive hl ho =>
      obtain ⟨hopen, hloop⟩ := s.socketOpen_arrive ‹_› ‹_›
      rw [SweepDone, hopen, hloop]
      exact hd
  | resume hl ha =>
      rw [SweepDone, (s.socketOpen_resume ..).1, (s.socketOpen_resume ..).2]
      exact hd
  | expire hl =>
      intro ho
      rcases hd ho with hl' | hl'
      · cases hl.symm.trans hl'
      · cases hl.symm.trans hl'
  | cancelled hl => exact fun _ => .inr rfl
  | @sweep now hl =>
      intro ho
      have hu : (s.sweep now).demux.unused = true := by simpa using hc'.mpr ho
      cases hopen : s.socketOpen with
      | true =>
          have := hwait (s.sweep now) (by simp [atShutDown, hl]) hu hopen
          cases this
      | false =>
          rcases hd hopen with hl' | hl'
          · cases hl.symm.trans hl'
          · cases hl.symm.trans hl'
  | stop => exact sweepDone_shutDownIfUnused hd (hwait _ rfl)
  | release hh => exact sweepDone_shutDownIfUnused hd (hwait _ (by simp [atShutDown, hh]))
  | accept | receive | wake | close | destroy => exact hd

theorem Steps.receiveDone (h : Steps s e s') (hwait : s.ReceiveWaits e) (hd : s.ReceiveDone) :
    s'.ReceiveDone := by
  cases h with
  | arrive hl ho =>
      intro hopen
      rw [(s.socketOpen_arrive _ _).1] at hopen
      rcases hd hopen with hl' | ⟨sink, hl'⟩
      · cases hl.symm.trans hl'
      · cases hl.symm.trans hl'
  | @resume now address atCap sink outcome hl ha =>
      intro hopen
      rw [(s.socketOpen_resume ..).1] at hopen
      rcases hd hopen with hl' | ⟨sink', hl'⟩
      · exact absurd (hl.symm.trans hl') nofun
      · rw [hl] at hl'
        cases hl'
        exact .inl rfl
  | expire | cancelled => exact hd
  | @sweep now hl =>
      exact receiveDone_shutDownIfUnused (t := s.sweep now) hd (hwait _ (by simp [atShutDown, hl]))
  | stop => exact receiveDone_shutDownIfUnused hd (hwait _ rfl)
  | release hh => exact receiveDone_shutDownIfUnused hd (hwait _ (by simp [atShutDown, hh]))
  | accept | receive | wake | close | destroy => exact hd

end Taps.UDPDemux
