import Taps.Listener.Calls
import Taps.Udp.Lemmas.ShutDown

/-!
# What the strand leaves of a Listener

Only the handler of `stop_accepting()` ends the accepting, closes the channel and fails an `accept()` that
waits in it; and until then the socket stays open and a receive loop goes on.
-/

namespace Taps.Demux

variable {E : Type} {s t u : Demux E} {b : Nat}

/-- The Listener accepts as before, and no `accept()` has failed. -/
structure Steady (s t : Demux E) : Prop where
  accepting : t.accepting = s.accepting
  isOpen : t.channel.isOpen = s.channel.isOpen
  refusals : s.channel.isOpen = true → t.accepts.countP invalidState = s.accepts.countP invalidState

theorem Steady.refl (s : Demux E) : Steady s s := ⟨rfl, rfl, fun _ => rfl⟩

theorem Steady.trans (h : Steady s t) (h' : Steady t u) : Steady s u where
  accepting := h'.accepting.trans h.accepting
  isOpen := h'.isOpen.trans h.isOpen
  refusals ho := (h'.refusals (h.isOpen.trans ho)).trans (h.refusals ho)

theorem steady_of_eq (hacc : t.accepting = s.accepting) (hopen : t.channel.isOpen = s.channel.isOpen)
    (haccepts : t.accepts = s.accepts) : Steady s t := ⟨hacc, hopen, fun _ => by rw [haccepts]⟩

theorem steady_update (s : Demux E) (b : Nat) (f : Peer E → Peer E) : Steady s (s.update b f) :=
  steady_of_eq rfl rfl rfl

theorem steady_release (s : Demux E) (b : Nat) : Steady s (s.release b) := by
  unfold release
  split
  · exact steady_of_eq rfl rfl rfl
  · split
    · exact .refl s
    · exact steady_of_eq rfl rfl rfl

theorem steady_close (s : Demux E) (b : Nat) (aborted : Bool) : Steady s (s.close b aborted) :=
  (steady_update s b _).trans (steady_release _ b)

theorem steady_destroy (s : Demux E) (b : Nat) : Steady s (s.destroy b) :=
  (steady_release s b).trans (steady_update _ b _)

theorem steady_handOver (s : Demux E) (channel : AcceptChannel) (h : channel.isOpen = s.channel.isOpen)
    (b : Nat) : Steady s ({ s with channel }.handOver b) :=
  ⟨rfl, h, fun _ => by simp [handOver, update]⟩

theorem steady_accept (s : Demux E) : Steady s s.accept := by
  unfold accept
  split
  · refine steady_handOver s _ ?_ _
    rfl
  · split
    · exact steady_of_eq rfl rfl rfl
    · rename_i hclosed
      exact ⟨rfl, rfl, fun ho => absurd ho hclosed⟩

theorem steady_trySend (h : s.trySend b = some t) : Steady s t := by
  unfold trySend at h
  split at h
  · cases h
  · split at h
    · cases h
      refine steady_handOver s _ ?_ b
      rfl
    · split at h
      · cases h
        exact steady_of_eq rfl rfl rfl
      · cases h

variable [DecidableEq E]

theorem steady_evict (s : Demux E) (it : Nat) (cause : CloseCause) : Steady s (s.evict it cause) := by
  unfold evict
  split
  · exact steady_of_eq rfl rfl rfl
  · exact steady_of_eq rfl rfl rfl

theorem steady_makeRoom (s : Demux E) : Steady s s.makeRoom := by
  rcases s.makeRoom_evicts with h | ⟨it, h⟩
  · rw [h]
    exact .refl s
  · rw [h]
    exact steady_evict s it .displaced

theorem steady_sweepIdle (s : Demux E) (cutoff : Int) (fuel : Nat) : Steady s (s.sweepIdle cutoff fuel) :=
  sweepIdle_preserves (I := Steady s) (fun t n _ h => h.trans (steady_evict t n.id .idle)) (.refl s) cutoff fuel

theorem steady_runRelease (s : Demux E) (h : Release E) : Steady s (s.runRelease h) := by
  rcases s.runRelease_evicts h with he | ⟨it, he⟩
  · rw [he]
    exact .refl s
  · rw [he]
    exact steady_evict s it .owner

theorem steady_connect (s : Demux E) (now : Int) (address : Addr) (d : Datagram E) :
    Steady s (s.connect now address d) := by
  have hadd : Steady s (s.add d.source address now) := steady_of_eq rfl rfl rfl
  unfold connect
  cases hsend : (s.add d.source address now).trySend s.peers.length with
  | some t =>
      simp only [hsend]
      exact (hadd.trans (steady_trySend hsend)).trans (steady_update t _ _)
  | none =>
      simp only [hsend]
      exact hadd.trans (steady_destroy _ _)

theorem steady_serve (s : Demux E) (now : Int) (address : Addr) (d : Datagram E) :
    Steady s (s.serve now address d) := by
  unfold serve
  split
  · split
    · exact steady_of_eq rfl rfl rfl
    · exact steady_of_eq rfl rfl rfl
  · split
    · exact (steady_makeRoom s).trans (steady_connect _ now address d)
    · exact .refl s

/-! ## A new source -/

omit [DecidableEq E] in
theorem trySend_of_room (hopen : s.channel.isOpen = true) (hroom : s.HasRoom) (b : Nat) :
    ∃ t, s.trySend b = some t ∧ t.table = s.table ∧ (b ∈ t.channel.buffer ∨ t.HandedOut b) := by
  unfold trySend
  rw [if_neg (by simp [hopen])]
  by_cases hw : 0 < s.channel.waiting
  · rw [if_pos hw]
    exact ⟨_, rfl, rfl, .inr (List.mem_append_right _ (List.mem_singleton.mpr rfl))⟩
  · rw [if_neg hw, if_pos (hroom.resolve_left hw)]
    exact ⟨_, rfl, rfl, .inl (List.mem_append_right _ (List.mem_singleton.mpr rfl))⟩

theorem welcomes_serve (hacc : s.accepting = true) (hopen : s.channel.isOpen = true) (hroom : s.HasRoom)
    (now : Int) (address : Addr) {d : Datagram E} (hl : s.table.index.lookup d.source = none) :
    (s.serve now address d).Welcomes d.source := by
  have hchannel : ((s.makeRoom).add d.source address now).channel = s.channel := channel_makeRoom s
  obtain ⟨t, hsend, htable, hb⟩ := trySend_of_room (s := s.makeRoom.add d.source address now)
    ((congrArg AcceptChannel.isOpen hchannel).trans hopen) (by rwa [HasRoom, hchannel])
    s.makeRoom.peers.length
  have hserve : s.serve now address d = t.update s.makeRoom.peers.length fun p => p.deliver d := by
    simp [serve, hl, hacc, connect, hsend]
  rw [hserve]
  refine ⟨⟨s.makeRoom.table.nextId, d.source, ⟨s.makeRoom.peers.length, now⟩⟩, ?_, rfl, hb⟩
  rw [show (t.update s.makeRoom.peers.length fun p => p.deliver d).table = t.table from rfl, htable]
  exact Lib.LinkedMap.mem_pushFront.mpr (.inl rfl)

end Taps.Demux

namespace Taps.UDPDemux

variable {E : Type} [DecidableEq E] {s s' : UDPDemux E} {e : DemuxEvent E}

theorem Steps.steady (h : Steps s e s') (he : e ≠ .stop) : Demux.Steady s.demux s'.demux := by
  cases h with
  | arrive hl ho =>
      rw [demux_arrive]
      exact .refl _
  | @resume now address atCap sink outcome hl ha =>
      rw [resume_demux]
      match sink, outcome with
      | false, .ok d => exact Demux.steady_serve ..
      | false, .error _ => exact .refl _
      | true, _ => exact .refl _
  | expire | cancelled => exact .refl _
  | sweep hl =>
      rw [demux_shutDownIfUnused]
      exact Demux.steady_sweepIdle ..
  | accept => exact Demux.steady_accept _
  | stop => exact absurd rfl he
  | @release i x hh =>
      rw [demux_shutDownIfUnused]
      have hunpost : Demux.Steady s.demux (s.demux.unpost i) := Demux.steady_of_eq rfl rfl rfl
      exact hunpost.trans (Demux.steady_runRelease _ x)
  | receive | wake => exact Demux.steady_update ..
  | close => exact Demux.steady_close ..
  | destroy => exact Demux.steady_destroy ..

omit [DecidableEq E] in
theorem shutDownIfUnused_of_accepting (h : s.demux.accepting = true) : s.shutDownIfUnused = s := by
  unfold shutDownIfUnused
  rw [if_neg]
  rw [Demux.unused_iff, h]
  exact fun hu => absurd hu.1 (by simp)

theorem runs_resume {outcome : Except ErrorCode (Datagram E)} (hopen : s.socketOpen = true)
    (ho : outcome ≠ .error .operationAborted) (now : Int) (address : Addr) (atCap sink : Bool) :
    (s.resume now address atCap sink outcome).receiveLoop.Runs := by
  rw [receiveLoop_resume ho, hopen]
  trivial

/-- As long as the Listener accepts, the socket stays as it is, and a loop that runs on an open socket goes
on. -/
theorem Steps.keeps_running (h : Steps s e s') (he : e ≠ .stop) (hacc : s.demux.accepting = true) :
    s'.socketOpen = s.socketOpen ∧
      (s.socketOpen = true → s.receiveLoop.Runs → s'.receiveLoop.Runs) := by
  have hacc' : s'.demux.accepting = true := (h.steady he).accepting.trans hacc
  cases h with
  | @arrive sink outcome hl ho =>
      refine ⟨(s.socketOpen_arrive sink outcome).1, fun _ _ => ?_⟩
      cases outcome with
      | error ec => exact fun hec => ho (by cases hec; rfl)
      | ok q => exact fun hec => by cases hec
  | @resume now address atCap sink outcome hl ha =>
      refine ⟨(s.socketOpen_resume ..).1, fun hopen hruns => ?_⟩
      rw [hl] at hruns
      exact runs_resume hopen hruns now address atCap sink
  | expire | cancelled => exact ⟨rfl, fun _ => id⟩
  | @sweep now hl =>
      rw [demux_shutDownIfUnused] at hacc'
      rw [shutDownIfUnused_of_accepting hacc']
      exact ⟨rfl, fun _ => id⟩
  | stop => exact absurd rfl he
  | @release i x hh =>
      rw [demux_shutDownIfUnused] at hacc'
      rw [shutDownIfUnused_of_accepting hacc']
      exact ⟨rfl, fun _ => id⟩
  | accept | receive | wake | close | destroy => exact ⟨rfl, fun _ => id⟩

/-- A receive is pending on an open socket only. -/
def Waits (s : UDPDemux E) : Prop := ∀ sink, s.receiveLoop = .pending sink → s.socketOpen = true

omit [DecidableEq E] in
theorem waits_shutDownIfUnused (h : s.Waits) :
    s.shutDownIfUnused.Waits ∧ (s.shutDownIfUnused.socketOpen = true → s.socketOpen = true) := by
  unfold shutDownIfUnused
  split
  · refine ⟨fun sink hl => ?_, by simp⟩
    cases hloop : s.receiveLoop <;> rw [hloop] at hl <;> cases hl
  · exact ⟨h, id⟩

theorem Steps.waits (h : Steps s e s') (hw : s.Waits) :
    s'.Waits ∧ (s'.socketOpen = true → s.socketOpen = true) := by
  cases h with
  | @arrive sink outcome hl ho =>
      refine ⟨fun sink' hl' => ?_, (s.socketOpen_arrive sink outcome).1.symm.trans⟩
      cases outcome <;> cases hl'
  | @resume now address atCap sink outcome hl ha =>
      have hopen := (s.socketOpen_resume now address atCap sink outcome).1
      refine ⟨fun sink' hl' => ?_, hopen.symm.trans⟩
      rw [hopen]
      by_cases ho : outcome = .error .operationAborted
      · subst ho
        cases hl'
      · rw [receiveLoop_resume ho] at hl'
        by_contra hclosed
        rw [if_neg hclosed] at hl'
        cases hl'
  | @sweep now hl => exact waits_shutDownIfUnused (s := s.sweep now) hw
  | stop => exact waits_shutDownIfUnused (s := { s with demux := s.demux.stop }) hw
  | release hh =>
      exact waits_shutDownIfUnused (s := { s with demux := (s.demux.unpost _).runRelease _ }) hw
  | expire | cancelled | accept | receive | wake | close | destroy => exact ⟨hw, id⟩

end Taps.UDPDemux
