import Taps.Udp.Alloc
import Taps.Udp.Lemmas.ShutDown

/-!
# Turns of `receive_loop()` that run out of memory

A turn in which nothing throws is one of `Taps.Udp.Loops`, one in which something throws is the last, and once
the socket is closed a turn changes nothing but where the loop is.
-/

namespace Taps

variable {E : Type} {throws : Allocation → Bool}

namespace Demux

variable {s : Demux E} {b : Nat} {d : Datagram E} {now : Int} {address : Addr}

theorem deliverOrThrow_spared (h : ∀ a ∈ s.deliverAllocations b, throws a = false) :
    s.deliverOrThrow throws b d = .ok (s.update b fun p => p.deliver d) := by
  unfold deliverAllocations at h
  unfold deliverOrThrow
  cases hg : s.grows b with
  | false => rfl
  | true =>
      have hring : throws .ring = false := h .ring (by simp [hg])
      simp [hring]

theorem deliverOrThrow_thrown (h : ∃ a ∈ s.deliverAllocations b, throws a = true) :
    ∃ t, s.deliverOrThrow throws b d = .error t := by
  unfold deliverAllocations at h
  unfold deliverOrThrow
  obtain ⟨a, ha, hthrows⟩ := h
  cases hg : s.grows b with
  | false => simp [hg] at ha
  | true =>
      obtain rfl : a = .ring := by simpa [hg] using ha
      exact ⟨s, by simp [hthrows]⟩

variable [DecidableEq E]

theorem connectOrThrow_spared
    (h : ∀ a ∈ [Allocation.mailbox, .entry, .index, .connection], throws a = false)
    (hring : ∀ t, (s.add d.source address now).trySend s.peers.length = some t →
      ∀ a ∈ t.deliverAllocations s.peers.length, throws a = false) :
    s.connectOrThrow throws now address d = .ok (s.connect now address d) := by
  have hmailbox := h .mailbox (by simp)
  have hentry := h .entry (by simp)
  have hindex := h .index (by simp)
  have hconnection := h .connection (by simp)
  simp only [connectOrThrow, connect, hmailbox, hentry, hindex, hconnection, Bool.or_self, Bool.false_eq_true, if_false]
  cases hsend : (s.add d.source address now).trySend s.peers.length with
  | none => rfl
  | some t => exact deliverOrThrow_spared (hring t hsend)

theorem connectOrThrow_thrown
    (h : (∃ a ∈ [Allocation.mailbox, .entry, .index, .connection], throws a = true) ∨
      ∃ t, (s.add d.source address now).trySend s.peers.length = some t ∧
        ∃ a ∈ t.deliverAllocations s.peers.length, throws a = true) :
    ∃ t, s.connectOrThrow throws now address d = .error t := by
  unfold connectOrThrow
  split
  · exact ⟨_, rfl⟩
  · rename_i hfirst
    split
    · exact ⟨_, rfl⟩
    · rename_i hindex
      simp only
      split
      · exact ⟨_, rfl⟩
      · rename_i hconnection
        rcases h with ⟨a, ha, hthrows⟩ | ⟨t, hsend, hring⟩
        · simp only [List.mem_cons, List.not_mem_nil, or_false] at ha
          simp only [Bool.or_eq_true, not_or] at hfirst
          rcases ha with rfl | rfl | rfl | rfl
          · exact absurd hthrows hfirst.1
          · exact absurd hthrows hfirst.2
          · exact absurd hthrows hindex
          · exact absurd hthrows hconnection
        · simp only [hsend]
          exact deliverOrThrow_thrown hring

theorem serveOrThrow_spared (h : ∀ a ∈ s.serveAllocations now address d, throws a = false) :
    s.serveOrThrow throws now address d = .ok (s.serve now address d) := by
  unfold serveAllocations at h
  unfold serveOrThrow serve
  cases hl : s.table.index.lookup d.source with
  | some it =>
      simp only [hl] at h ⊢
      cases hd : s.table.deref it with
      | none => rfl
      | some n =>
          simp only [hd] at h
          exact deliverOrThrow_spared h
  | none =>
      simp only [hl] at h ⊢
      cases hacc : s.accepting with
      | false => rfl
      | true =>
          simp only [hacc, if_true, List.mem_append] at h
          refine connectOrThrow_spared (fun a ha => h a (.inl ha)) fun t ht a ha => h a (.inr ?_)
          rw [ht]
          exact ha

theorem serveOrThrow_thrown (h : ∃ a ∈ s.serveAllocations now address d, throws a = true) :
    ∃ t, s.serveOrThrow throws now address d = .error t := by
  obtain ⟨a, ha, hthrows⟩ := h
  unfold serveAllocations at ha
  unfold serveOrThrow
  cases hl : s.table.index.lookup d.source with
  | some it =>
      simp only [hl] at ha ⊢
      cases hd : s.table.deref it with
      | none => simp [hd] at ha
      | some n =>
          simp only [hd] at ha
          exact deliverOrThrow_thrown ⟨a, ha, hthrows⟩
  | none =>
      simp only [hl] at ha ⊢
      cases hacc : s.accepting with
      | false => simp [hacc] at ha
      | true =>
          simp only [hacc, if_true, List.mem_append] at ha
          refine connectOrThrow_thrown (ha.imp (fun ha => ⟨a, ha, hthrows⟩) fun ha => ?_)
          split at ha
          · rename_i t ht
            exact ⟨t, ht, a, ha, hthrows⟩
          · cases ha

theorem serveOrThrow_unused (h : s.unused = true) : s.serveOrThrow throws now address d = .ok s := by
  obtain ⟨hacc, hkeys⟩ := unused_iff.mp h
  have hnone : s.table.index.lookup d.source = none := by
    rw [AList.lookup_eq_none, AList.mem_keys, hkeys]
    exact List.not_mem_nil
  simp [serveOrThrow, hnone, hacc]

end Demux

namespace UDPDemux

variable {s s' : UDPDemux E} {e : DemuxEvent E} {now : Int} {address : Addr} {atCap sink : Bool}

theorem acquireOrThrow_spared (h : ∀ a ∈ acquireAllocations atCap, throws a = false) (s : UDPDemux E) :
    s.acquireOrThrow throws atCap = s.nextReceive atCap := by
  unfold acquireOrThrow
  cases atCap with
  | true => rfl
  | false =>
      have hstorage := h .storage (by simp [acquireAllocations])
      have hheader := h .header (by simp [acquireAllocations])
      simp [hstorage, hheader]

theorem acquireOrThrow_thrown (h : ∃ a ∈ acquireAllocations atCap, throws a = true) (s : UDPDemux E) :
    s.acquireOrThrow throws atCap = { s with receiveLoop := .returned } := by
  obtain ⟨a, ha, hthrows⟩ := h
  cases atCap with
  | true => simp [acquireAllocations] at ha
  | false =>
      have ha : a = .storage ∨ a = .header := by simpa [acquireAllocations] using ha
      rcases ha with rfl | rfl
      · simp [acquireOrThrow, hthrows]
      · simp [acquireOrThrow, hthrows]

/-- The receive that follows, if there is one, has not completed with a datagram. -/
theorem acquireOrThrow_eq (s : UDPDemux E) (throws : Allocation → Bool) (atCap : Bool) :
    ∃ l, s.acquireOrThrow throws atCap = { s with receiveLoop := l } ∧
      ∀ sink outcome, l = .completed sink outcome → outcome = .error .badDescriptor := by
  unfold acquireOrThrow nextReceive
  split
  · exact ⟨_, rfl, by simp⟩
  · refine ⟨_, rfl, fun sink outcome hl => ?_⟩
    split at hl
    · cases hl
    · cases hl
      rfl

variable [DecidableEq E]

/-! ## Turns -/

theorem resumeOrThrow_spared {outcome : Except ErrorCode (Datagram E)} (hl : s.receiveLoop = .completed sink outcome)
    (h : ∀ a ∈ s.turnAllocations (.resume now address atCap), throws a = false) :
    s.resumeOrThrow throws now address atCap sink outcome = s.resume now address atCap sink outcome := by
  simp only [turnAllocations, hl] at h
  unfold resumeOrThrow resume
  cases outcome with
  | error ec =>
      simp only at h ⊢
      split
      · rfl
      · rename_i hec
        rw [if_neg hec] at h
        exact acquireOrThrow_spared h s
  | ok d =>
      simp only [List.mem_append] at h ⊢
      have hacquire := fun a ha => h a (.inr ha)
      cases sink with
      | true => exact acquireOrThrow_spared hacquire s
      | false =>
          have hchain : throws .chain = false := h .chain (.inl (by simp))
          have hspared : ∀ a ∈ s.demux.serveAllocations now address d, throws a = false :=
            fun a ha => h a (.inl (by simp [ha]))
          have hserve := Demux.serveOrThrow_spared hspared
          simp only [hchain, hserve, Bool.false_eq_true, if_false]
          exact acquireOrThrow_spared hacquire _

theorem resumeOrThrow_thrown {outcome : Except ErrorCode (Datagram E)} (hl : s.receiveLoop = .completed sink outcome)
    (h : ∃ a ∈ s.turnAllocations (.resume now address atCap), throws a = true) :
    (s.resumeOrThrow throws now address atCap sink outcome).receiveLoop = .returned ∧
      (s.resumeOrThrow throws now address atCap sink outcome).socketOpen = s.socketOpen := by
  obtain ⟨a, ha, hthrows⟩ := h
  simp only [turnAllocations, hl] at ha
  unfold resumeOrThrow
  cases outcome with
  | error ec =>
      simp only at ha ⊢
      split
      · exact ⟨rfl, rfl⟩
      · rename_i hec
        rw [if_neg hec] at ha
        rw [acquireOrThrow_thrown ⟨a, ha, hthrows⟩]
        exact ⟨rfl, rfl⟩
  | ok d =>
      simp only [List.mem_append] at ha ⊢
      cases sink with
      | true =>
          have ha : a ∈ acquireAllocations atCap := by simpa using ha
          simp only [if_true]
          rw [acquireOrThrow_thrown ⟨a, ha, hthrows⟩]
          exact ⟨rfl, rfl⟩
      | false =>
          simp only [Bool.false_eq_true, if_false] at ha ⊢
          split
          · exact ⟨rfl, rfl⟩
          · rename_i hchain
            split
            · exact ⟨rfl, rfl⟩
            · rename_i demux hserve
              have ha : a ∈ acquireAllocations atCap := by
                refine ha.resolve_left fun ha => ?_
                rcases List.mem_cons.mp ha with rfl | ha
                · exact hchain hthrows
                · have hthrown : ∃ a ∈ s.demux.serveAllocations now address d, throws a = true :=
                    ⟨a, ha, hthrows⟩
                  obtain ⟨t, ht⟩ := Demux.serveOrThrow_thrown hthrown
                  cases hserve.symm.trans ht
              rw [acquireOrThrow_thrown ⟨a, ha, hthrows⟩]
              exact ⟨rfl, rfl⟩

theorem resumeOrThrow_unused (hu : s.demux.unused = true) (throws : Allocation → Bool) (now : Int)
    (address : Addr) (atCap sink : Bool) (outcome : Except ErrorCode (Datagram E)) :
    ∃ l, s.resumeOrThrow throws now address atCap sink outcome = { s with receiveLoop := l } ∧
      ∀ sink outcome, l = .completed sink outcome → outcome = .error .badDescriptor := by
  unfold resumeOrThrow
  cases outcome with
  | error ec =>
      simp only
      split
      · exact ⟨_, rfl, by simp⟩
      · exact acquireOrThrow_eq ..
  | ok d =>
      simp only [Demux.serveOrThrow_unused hu]
      split
      · exact acquireOrThrow_eq ..
      · split
        · exact ⟨_, rfl, by simp⟩
        · exact acquireOrThrow_eq ..

/-! ## Steps -/

/-- The loop is at its end, or on the way to it, only once the socket is closed. -/
def EndsClosed (s : UDPDemux E) : Prop :=
  (s.receiveLoop = .returned ∨ ∃ sink, s.receiveLoop = .completed sink (.error .operationAborted)) →
    s.socketOpen = false

omit [DecidableEq E] in
theorem endsClosed_shutDownIfUnused (h : s.EndsClosed) : s.shutDownIfUnused.EndsClosed := by
  unfold shutDownIfUnused
  split
  · exact fun _ => rfl
  · exact h

theorem Steps.endsClosed (h : Steps s e s') (hs : s.EndsClosed) : s'.EndsClosed := by
  cases h with
  | @arrive sink outcome hl ho =>
      rintro (hl' | ⟨sink', hl'⟩)
      · cases outcome with
        | error => cases hl'
        | ok => cases hl'
      · cases outcome with
        | error ec =>
            cases hl'
            exact absurd rfl ho
        | ok => cases hl'
  | @resume now address atCap sink outcome hl ha =>
      intro hends
      rw [(s.socketOpen_resume ..).1]
      by_cases ho : outcome = .error .operationAborted
      · subst ho
        exact hs (.inr ⟨sink, hl⟩)
      · rw [receiveLoop_resume ho] at hends
        split at hends
        · rcases hends with hl' | ⟨_, hl'⟩
          · cases hl'
          · cases hl'
        · rename_i hopen
          simpa using hopen
  | @sweep now => exact endsClosed_shutDownIfUnused (s := s.sweep now) hs
  | stop => exact endsClosed_shutDownIfUnused (s := { s with demux := s.demux.stop }) hs
  | @release i x =>
      exact endsClosed_shutDownIfUnused (s := { s with demux := (s.demux.unpost i).runRelease x }) hs
  | expire | cancelled | accept | receive | wake | close | destroy => exact hs

/-- What holds in the runs in which no turn ends the loop. -/
structure Sound (s : UDPDemux E) : Prop where
  inv : s.Inv
  closed : s.Closed
  ends : s.EndsClosed

theorem create_sound (config : DemuxConfig) (atCap : Bool) : (create (E := E) config atCap).Sound where
  inv := create_inv config atCap
  closed := create_closed config atCap
  ends := by simp [EndsClosed, create]

theorem Sound.survives (hs : s.Sound) : s.Survives := ⟨fun hl => hs.ends (.inl hl), hs.inv.demux.agrees⟩

theorem Steps.sound (h : Steps s e s') (hs : s.Sound) : s'.Sound where
  inv := h.inv hs.inv
  closed := h.closed hs.inv hs.closed
  ends := h.endsClosed hs.ends

theorem Sound.receiveLoop (hs : s.Sound) (hclosed : s.socketOpen = false) {l : ReceiveLoop E}
    (hl : ∀ sink outcome, l = .completed sink outcome → outcome = .error .badDescriptor) :
    { s with receiveLoop := l }.Sound := by
  have hnot : ∀ d, ¬ { s with receiveLoop := l }.Received d := by
    intro d hd
    cases hl _ _ hd
  refine { inv := ⟨hs.inv.demux, fun b p hp d hd => ?_, hs.inv.arrived, fun d hd => absurd hd (hnot d)⟩
           closed := hs.closed, ends := fun _ => hclosed }
  rw [served_of_not_received hnot]
  exact Nat.lt_of_lt_of_le (hs.inv.older b p hp d hd) hs.inv.served_le

/-- A turn of the loop, or a step that allocates nothing. -/
theorem stepOrThrow_cases (h : s.stepOrThrow throws e = some s') :
    (∃ now address atCap sink outcome, e = .resume now address atCap ∧
      s.receiveLoop = .completed sink outcome ∧ Steps s e (s.resume now address atCap sink outcome) ∧
      s' = s.resumeOrThrow throws now address atCap sink outcome) ∨
    s.turnAllocations e = [] ∧ Steps s e s' := by
  unfold stepOrThrow at h
  split at h
  · rename_i now address atCap sink outcome hl
    split at h
    · cases h
    · rename_i hok
      cases h
      exact .inl ⟨now, address, atCap, sink, outcome, rfl, hl, .resume hl fun ha => hok (.inr ha), rfl⟩
  · rename_i hne
    refine .inr ⟨?_, step_steps h⟩
    unfold turnAllocations
    split
    · split
      · rename_i hl
        exact absurd hl (hne _ _ _ _ _ rfl)
      · rename_i hl
        exact absurd hl (hne _ _ _ _ _ rfl)
      · rfl
    · rfl

theorem stepOrThrow_sound (hs : s.Sound) (h : s.stepOrThrow throws e = some s') (hspares : s.Spares throws e) :
    s'.Sound := by
  rcases stepOrThrow_cases h with ⟨now, address, atCap, sink, outcome, rfl, hl, hstep, rfl⟩ | ⟨-, hstep⟩
  · cases hopen : s.socketOpen with
    | true =>
        rw [resumeOrThrow_spared hl (hspares hopen)]
        exact hstep.sound hs
    | false =>
        obtain ⟨l, hr, hl'⟩ := resumeOrThrow_unused (hs.closed.mpr hopen) throws now address atCap sink outcome
        rw [hr]
        exact hs.receiveLoop hopen hl'
  · exact hstep.sound hs

/-- A turn in which an allocation throws ends the loop. -/
theorem stepOrThrow_thrown (h : s.stepOrThrow throws e = some s') (hthrown : ¬ s.Spares throws e) :
    ¬ s'.Survives := by
  simp only [Spares, Classical.not_imp, not_forall] at hthrown
  obtain ⟨hopen, a, ha, hthrows⟩ := hthrown
  rcases stepOrThrow_cases h with ⟨now, address, atCap, sink, outcome, rfl, hl, -, rfl⟩ | ⟨hnil, -⟩
  · obtain ⟨hreturned, hsame⟩ := resumeOrThrow_thrown hl ⟨a, ha, by simpa using hthrows⟩
    intro hsurvives
    have hclosed := hsurvives.loop hreturned
    rw [hsame, hopen] at hclosed
    cases hclosed
  · rw [hnil] at ha
    cases ha

theorem stepOrThrow_survives_iff (hs : s.Sound) (h : s.stepOrThrow throws e = some s') :
    s'.Survives ↔ s.Spares throws e :=
  ⟨fun hsurvives => by_contra fun hthrown => stepOrThrow_thrown h hthrown hsurvives,
    fun hspares => (stepOrThrow_sound hs h hspares).survives⟩

theorem createOrThrow_survives_iff (config : DemuxConfig) (throws : Allocation → Bool) (atCap : Bool) :
    (createOrThrow (E := E) config throws atCap).Survives ↔ ∀ a ∈ acquireAllocations atCap, throws a = false := by
  constructor
  · intro hsurvives
    by_contra hthrown
    simp only [Classical.not_imp, not_forall] at hthrown
    obtain ⟨a, ha, hthrows⟩ := hthrown
    have hclosed : (create (E := E) config atCap).socketOpen = false := by
      have := hsurvives.loop
      rw [createOrThrow, acquireOrThrow_thrown ⟨a, ha, by simpa using hthrows⟩] at this
      exact this rfl
    cases hclosed
  · intro hspared
    rw [createOrThrow, acquireOrThrow_spared hspared]
    exact (create_sound config atCap).survives

end UDPDemux

end Taps
