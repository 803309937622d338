import Taps.Udp.Lemmas.Handlers
import Taps.Udp.Loops

/-!
# Runs of the strand

What each step does, and from it the invariant of the states that runs reach.
-/

namespace Taps.UDPDemux

variable {E : Type} {s s' : UDPDemux E}

theorem owned_eq_some_iff {b : Nat} {p : Peer E} :
    s.owned b = some p ↔ s.demux.peers[b]? = some p ∧ p.place = .application := by
  simp [owned, Option.filter_eq_some_iff]

theorem owned_eq_some {b : Nat} {p : Peer E} (h : s.owned b = some p) :
    s.demux.peers[b]? = some p ∧ p.place = .application :=
  owned_eq_some_iff.mp h

@[simp] theorem demux_shutDownIfUnused (s : UDPDemux E) : s.shutDownIfUnused.demux = s.demux := by
  unfold shutDownIfUnused
  split <;> rfl

@[simp] theorem demux_arrive (s : UDPDemux E) (sink : Bool)
    (outcome : Except ErrorCode (E × List Byte)) : (s.arrive sink outcome).demux = s.demux := by
  cases outcome <;> rfl

/-- Closing the socket and cancelling the timer changes the receive loop only as far as it is pending. -/
theorem shutDownIfUnused_receiveLoop (s : UDPDemux E) :
    s.shutDownIfUnused.arrivals = s.arrivals ∧
      (s.shutDownIfUnused.receiveLoop = s.receiveLoop ∨
        s.shutDownIfUnused.receiveLoop = s.receiveLoop.abort) := by
  unfold shutDownIfUnused
  split
  · exact ⟨rfl, .inr rfl⟩
  · exact ⟨rfl, .inl rfl⟩

/-- The number of datagrams that the loop is done with. -/
def served (s : UDPDemux E) : Nat :=
  match s.receiveLoop with
  | .completed false (.ok d) => d.seq
  | _ => s.arrivals.length

theorem served_of_received {d : Datagram E} (h : s.Received d) : s.served = d.seq := by
  rw [served, show s.receiveLoop = _ from h]

theorem served_of_not_received (h : ∀ d, ¬ s.Received d) : s.served = s.arrivals.length := by
  unfold served
  split
  · rename_i d hl
    exact absurd hl (h d)
  · rfl

theorem not_received_abort {d : Datagram E} (h : s'.receiveLoop = s.receiveLoop.abort)
    (hd : s'.Received d) : s.Received d := by
  unfold Received at *
  rw [h] at hd
  cases hl : s.receiveLoop with
  | pending sink =>
      rw [hl] at hd
      cases hd
  | completed => rwa [hl] at hd
  | returned => rwa [hl] at hd

variable [DecidableEq E]

inductive Steps (s : UDPDemux E) : DemuxEvent E → UDPDemux E → Prop
  | arrive {sink outcome} (hl : s.receiveLoop = .pending sink)
      (ho : outcome ≠ .error .operationAborted) : Steps s (.arrive outcome) (s.arrive sink outcome)
  | resume {now address atCap sink outcome} (hl : s.receiveLoop = .completed sink outcome)
      (ha : address ∉ s.demux.makeRoom.live) :
      Steps s (.resume now address atCap) (s.resume now address atCap sink outcome)
  | expire (hl : s.sweepLoop = .pending) : Steps s .expire { s with sweepLoop := .expired }
  | cancelled {now} (hl : s.sweepLoop = .cancelled) :
      Steps s (.sweep now) { s with sweepLoop := .returned }
  | sweep {now} (hl : s.sweepLoop = .expired) :
      Steps s (.sweep now) { (s.sweep now).shutDownIfUnused with sweepLoop := .pending }
  | accept : Steps s .accept { s with demux := s.demux.accept }
  | stop : Steps s .stop { s with demux := s.demux.stop }.shutDownIfUnused
  | release {i h} (hh : s.demux.posted[i]? = some h) :
      Steps s (.release i) { s with demux := (s.demux.unpost i).runRelease h }.shutDownIfUnused
  | receive {b p} (hp : s.demux.peers[b]? = some p) (ho : p.place = .application) :
      Steps s (.receive b) { s with demux := s.demux.update b Peer.receive }
  | wake {b p} (hp : s.demux.peers[b]? = some p) (ho : p.place = .application) :
      Steps s (.wake b) { s with demux := s.demux.update b Peer.wake }
  | close {b p aborted} (hp : s.demux.peers[b]? = some p) (ho : p.place = .application) :
      Steps s (.close b aborted) { s with demux := s.demux.close b aborted }
  | destroy {b p} (hp : s.demux.peers[b]? = some p) (ho : p.place = .application) :
      Steps s (.destroy b) { s with demux := s.demux.destroy b }

variable {e : DemuxEvent E}

theorem step_steps (h : s.step e = some s') : Steps s e s' := by
  unfold step at h
  split at h
  · cases h
  · cases e with
    | arrive outcome =>
        simp only at h
        split at h
        · cases h
        · rename_i hl hne
          cases h
          exact .arrive hl hne
        · cases h
    | resume now address atCap =>
        simp only at h
        split at h
        · rename_i hl
          split at h
          · cases h
          · rename_i ha
            cases h
            exact .resume hl ha
        · cases h
    | expire =>
        simp only at h
        split at h
        · rename_i hl
          cases h
          exact .expire hl
        · cases h
    | sweep now =>
        simp only at h
        split at h
        · rename_i hl
          cases h
          exact .cancelled hl
        · rename_i hl
          simp only [atShutDown, hl, if_true, Option.map_some, Option.some.injEq] at h
          subst h
          exact .sweep hl
        · cases h
    | accept =>
        cases h
        exact .accept
    | stop =>
        cases h
        exact .stop
    | release i =>
        simp only [atShutDown] at h
        split at h
        · rename_i hh
          cases h
          exact .release hh
        · cases h
    | receive b =>
        obtain ⟨p, hp, rfl⟩ := Option.map_eq_some_iff.mp h
        exact .receive (owned_eq_some hp).1 (owned_eq_some hp).2
    | wake b =>
        simp only at h
        split at h
        · rename_i hp
          split at h
          · cases h
          · cases h
            exact .wake (owned_eq_some hp).1 (owned_eq_some hp).2
        · cases h
    | close b aborted =>
        obtain ⟨p, hp, rfl⟩ := Option.map_eq_some_iff.mp h
        exact .close (owned_eq_some hp).1 (owned_eq_some hp).2
    | destroy b =>
        simp only at h
        split at h
        · rename_i hp
          split at h
          · cases h
            exact .destroy (owned_eq_some hp).1 (owned_eq_some hp).2
          · cases h
        · cases h

/-! ## The table and the peers -/

variable {G : List (Release E) → E → Addr → Prop}

theorem resume_demux (s : UDPDemux E) (now : Int) (address : Addr) (atCap sink : Bool)
    (outcome : Except ErrorCode (Datagram E)) :
    (s.resume now address atCap sink outcome).demux =
      match sink, outcome with
      | false, .ok d => s.demux.serve now address d
      | _, _ => s.demux := by
  unfold resume
  cases outcome with
  | error ec => cases sink <;> simp only <;> split <;> rfl
  | ok d => cases sink <;> rfl

/-- A turn of `receive_loop()` serves the datagram that was received, if one was. -/
theorem resume_demux_cases {sink : Bool} {outcome : Except ErrorCode (Datagram E)}
    (hl : s.receiveLoop = .completed sink outcome) (now : Int) (address : Addr) (atCap : Bool) :
    (∃ d, s.Received d ∧ (s.resume now address atCap sink outcome).demux = s.demux.serve now address d) ∨
      (∀ d, ¬ s.Received d) ∧ (s.resume now address atCap sink outcome).demux = s.demux := by
  rw [resume_demux]
  match sink, outcome, hl with
  | false, .ok d, hl => exact .inl ⟨d, hl, rfl⟩
  | false, .error _, hl => exact .inr ⟨fun d hd => (by cases hl.symm.trans hd), rfl⟩
  | true, _, hl => exact .inr ⟨fun d hd => (by cases hl.symm.trans hd), rfl⟩

theorem Steps.resume_cases {now : Int} {address : Addr} {atCap : Bool}
    (h : Steps s (.resume now address atCap) s') :
    (∃ d, s.Received d ∧ s'.demux = s.demux.serve now address d) ∨
      (∀ d, ¬ s.Received d) ∧ s'.demux = s.demux := by
  cases h with
  | resume hl ha => exact resume_demux_cases hl now address atCap

theorem notMem_buffer_of_owned (hi : s.demux.Inv) {b : Nat} {p : Peer E} (hp : s.demux.peers[b]? = some p)
    (ho : p.place = .application) : b ∉ s.demux.channel.buffer := by
  intro hb
  obtain ⟨q, hq, hch⟩ := hi.queued b hb
  rw [hp] at hq
  cases hq
  rw [ho] at hch
  cases hch

/-- A step is moves, or it serves the datagram that was received. -/
theorem Steps.serves (h : Steps s e s') (hi : s.demux.Inv) (hG : Permits G s e) :
    Demux.Moves G s.demux s'.demux ∨
      ∃ d, s.Received d ∧ (∃ now address atCap, e = .resume now address atCap) ∧
        Demux.Serves G d s.demux s'.demux := by
  cases h with
  | arrive hl ho =>
      rw [demux_arrive]
      exact .inl .refl
  | @resume now address atCap sink outcome hl ha =>
      rcases resume_demux_cases hl now address atCap with ⟨d, hd, hserve⟩ | ⟨-, hsame⟩
      · rw [hserve]
        exact .inr ⟨d, hd, ⟨_, _, _, rfl⟩, Demux.serve_serves hi ha (hG _ _ _ d rfl hd)⟩
      · rw [hsame]
        exact .inl .refl
  | expire | cancelled => exact .inl .refl
  | sweep hl =>
      rw [demux_shutDownIfUnused]
      exact .inl (Demux.sweepIdle_moves hi _ _)
  | accept => exact .inl (Demux.accept_moves hi)
  | stop =>
      rw [demux_shutDownIfUnused]
      exact .inl Demux.stop_moves
  | release hh =>
      rw [demux_shutDownIfUnused]
      exact .inl (Demux.release_handler_moves hi _ _)
  | receive hp ho => exact .inl (Demux.update_moves hp (Peer.acts_receive _) rfl)
  | wake hp ho => exact .inl (Demux.update_moves hp (Peer.acts_wake _) rfl)
  | close hp ho => exact .inl (Demux.close_moves hp (by simp [ho]) _)
  | destroy hp ho =>
      exact .inl (Demux.destroy_moves hp (by simp [ho]) (notMem_buffer_of_owned hi hp ho))

/-! ## The invariant -/

structure Inv (s : UDPDemux E) : Prop where
  demux : s.demux.Inv
  older : s.demux.Enqueued fun d => d.seq < s.served
  arrived : s.demux.Enqueued s.Arrived
  received : ∀ d, s.Received d → s.Arrived d

theorem create_inv (config : DemuxConfig) (atCap : Bool) : (create (E := E) config atCap).Inv where
  demux := Demux.create_inv config
  older := by simp [Demux.Enqueued, create, Demux.create]
  arrived := by simp [Demux.Enqueued, create, Demux.create]
  received := by simp [Received, create]

/-- After a turn the loop is at its next receive, or at its end. -/
theorem receiveLoop_resume {outcome : Except ErrorCode (Datagram E)}
    (h : outcome ≠ .error .operationAborted) (s : UDPDemux E) (now : Int) (address : Addr)
    (atCap sink : Bool) :
    (s.resume now address atCap sink outcome).receiveLoop =
      if s.socketOpen then .pending atCap else .completed atCap (.error .badDescriptor) := by
  cases outcome with
  | error ec =>
      have hec : ec ≠ .operationAborted := fun he => h (he ▸ rfl)
      simp [resume, hec, nextReceive]
  | ok d => cases sink <;> rfl

theorem resume_aborted (s : UDPDemux E) (now : Int) (address : Addr) (atCap sink : Bool) :
    s.resume now address atCap sink (.error .operationAborted)
      = { s with receiveLoop := .returned } := rfl

theorem not_received_resume (s : UDPDemux E) (now : Int) (address : Addr) (atCap sink : Bool)
    (outcome : Except ErrorCode (Datagram E)) (d : Datagram E) :
    ¬ (s.resume now address atCap sink outcome).Received d := by
  by_cases h : outcome = .error .operationAborted
  · subst h
    rw [resume_aborted]
    nofun
  · unfold Received
    rw [receiveLoop_resume h]
    split <;> nofun

theorem arrivals_resume (s : UDPDemux E) (now : Int) (address : Addr) (atCap sink : Bool)
    (outcome : Except ErrorCode (Datagram E)) :
    (s.resume now address atCap sink outcome).arrivals = s.arrivals := by
  cases outcome with
  | error ec =>
      unfold resume
      simp only
      split <;> rfl
  | ok d => cases sink <;> rfl

/-- The three things that can happen to the receive loop in a step. -/
theorem Steps.receiveLoop (h : Steps s e s') :
    (∃ sink outcome, s.receiveLoop = .pending sink ∧ outcome ≠ .error .operationAborted ∧
      s' = s.arrive sink outcome) ∨
    (∃ now address atCap sink outcome, s.receiveLoop = .completed sink outcome ∧
      s' = s.resume now address atCap sink outcome) ∨
    s'.arrivals = s.arrivals ∧
      (s'.receiveLoop = s.receiveLoop ∨ s'.receiveLoop = s.receiveLoop.abort) := by
  cases h with
  | arrive hl ho => exact .inl ⟨_, _, hl, ho, rfl⟩
  | resume hl ha => exact .inr (.inl ⟨_, _, _, _, _, hl, rfl⟩)
  | sweep hl => exact .inr (.inr (shutDownIfUnused_receiveLoop _))
  | stop => exact .inr (.inr (shutDownIfUnused_receiveLoop _))
  | release => exact .inr (.inr (shutDownIfUnused_receiveLoop _))
  | expire | cancelled | accept | receive | wake | close | destroy => exact .inr (.inr ⟨rfl, .inl rfl⟩)

theorem Steps.config (h : Steps s e s') (hi : s.demux.Inv) :
    s'.demux.config = s.demux.config := by
  rcases h.serves (G := fun _ _ _ => True) hi (fun _ _ _ _ _ _ _ _ => trivial) with hm | ⟨d, -, -, hs⟩
  · exact hm.config
  · exact hs.config

theorem Steps.arrivals (h : Steps s e s') : ∃ new, s'.arrivals = s.arrivals ++ new := by
  rcases h.receiveLoop with ⟨sink, outcome, -, -, rfl⟩ | ⟨now, address, atCap, sink, outcome, -, rfl⟩ |
    ⟨harr, -⟩
  · cases outcome with
    | error => exact ⟨[], (List.append_nil _).symm⟩
    | ok q => exact ⟨[q], rfl⟩
  · exact ⟨[], by rw [arrivals_resume, List.append_nil]⟩
  · exact ⟨[], by rw [harr, List.append_nil]⟩

theorem Steps.mono_arrived (h : Steps s e s') (hi : s.demux.Inv) {d : Datagram E} (hd : s.Arrived d) :
    s'.Arrived d := by
  obtain ⟨new, harr⟩ := h.arrivals
  obtain ⟨hlt, -⟩ := List.getElem?_eq_some_iff.mp hd.1
  exact ⟨by rw [harr, List.getElem?_append_left hlt, hd.1], by rw [h.config hi, hd.2]⟩

theorem Inv.served_le (hi : s.Inv) : s.served ≤ s.arrivals.length := by
  by_cases h : ∃ d, s.Received d
  · obtain ⟨d, hd⟩ := h
    obtain ⟨hlt, -⟩ := List.getElem?_eq_some_iff.mp (hi.received d hd).1
    rw [served_of_received hd]
    exact Nat.le_of_lt hlt
  · exact Nat.le_of_eq (served_of_not_received (not_exists.mp h))

/-- The loop is done with no fewer datagrams, and the one it has yet to serve has arrived. -/
theorem Steps.served (h : Steps s e s') (hi : s.Inv) :
    s.served ≤ s'.served ∧ ∀ d, s'.Received d → s'.Arrived d := by
  rcases h.receiveLoop with ⟨sink, outcome, hl, ho, rfl⟩ | ⟨now, address, atCap, sink, outcome, hl, rfl⟩ |
    ⟨harr, hl⟩
  · have hs : s.served = s.arrivals.length := by rw [UDPDemux.served, hl]
    rw [hs]
    cases outcome with
    | error ec => cases sink <;> exact ⟨Nat.le_refl _, nofun⟩
    | ok q =>
        cases sink with
        | false =>
            refine ⟨Nat.le_refl _, fun d hd => ?_⟩
            cases hd
            exact ⟨List.getElem?_concat_length, rfl⟩
        | true =>
            have hlen : s.arrivals.length ≤ (s.arrivals ++ [q]).length := by simp
            exact ⟨hlen, nofun⟩
  · have hnot := s.not_received_resume now address atCap sink outcome
    rw [served_of_not_received hnot, arrivals_resume]
    exact ⟨hi.served_le, fun d hd => absurd hd (hnot d)⟩
  · have hrec : ∀ d, s'.Received d → s.Received d := by
      intro d hd
      rcases hl with hl | hl
      · exact hl.symm.trans hd
      · exact not_received_abort hl hd
    refine ⟨?_, fun d hd => h.mono_arrived hi.demux (hi.received d (hrec d hd))⟩
    by_cases hex : ∃ d, s'.Received d
    · obtain ⟨d, hd⟩ := hex
      rw [served_of_received hd, served_of_received (hrec d hd)]
    · rw [served_of_not_received (not_exists.mp hex), harr]
      exact hi.served_le

theorem Steps.inv (h : Steps s e s') (hi : s.Inv) : s'.Inv := by
  obtain ⟨hle, hreceived⟩ := h.served hi
  have harr : s.demux.Enqueued s'.Arrived :=
    fun b p hp x hx => h.mono_arrived hi.demux (hi.arrived b p hp x hx)
  have holder : s.demux.Enqueued fun x => x.seq < s'.served :=
    fun b p hp x hx => Nat.lt_of_lt_of_le (hi.older b p hp x hx) hle
  rcases h.serves (G := fun _ _ _ => True) hi.demux (fun _ _ _ _ _ _ _ _ => trivial) with
    hm | ⟨d, hd, ⟨now, address, atCap, rfl⟩, hs⟩
  · exact ⟨hm.inv hi.demux, hm.enqueued holder, hm.enqueued harr, hreceived⟩
  · have hlt : d.seq < s'.served := by
      obtain ⟨hlt, -⟩ := List.getElem?_eq_some_iff.mp (hi.received d hd).1
      cases h with
      | resume hl ha =>
          rwa [served_of_not_received (s.not_received_resume _ _ _ _ _), arrivals_resume]
    exact ⟨hs.inv hi.demux (served_of_received hd ▸ hi.older), hs.enqueued holder hlt,
      hs.enqueued harr (h.mono_arrived hi.demux (hi.received d hd)), hreceived⟩

theorem inv_of_reachable {config : DemuxConfig} (h : (system config).Reachable s) : s.Inv := by
  refine h.invariant (I := Inv) ?_ fun s e s' hi hst => (step_steps hst).inv hi
  rintro s ⟨atCap, rfl⟩
  exact create_inv config atCap

theorem config_of_reachable {config : DemuxConfig} (h : (system config).Reachable s) :
    s.demux.config = config := by
  have hboth := h.invariant (I := fun s : UDPDemux E => s.Inv ∧ s.demux.config = config) ?_ ?_
  · exact hboth.2
  · rintro s ⟨atCap, rfl⟩
    exact ⟨create_inv config atCap, rfl⟩
  · rintro s e s' ⟨hi, hc⟩ hst
    exact ⟨(step_steps hst).inv hi, ((step_steps hst).config hi.demux).trans hc⟩

/-- What the receives on a Connection return are datagrams of its source that arrived. -/
theorem returned_of_reachable {config : DemuxConfig} (h : (system config).Reachable s) {p : Peer E}
    (hp : p ∈ s.demux.peers) {d : Datagram E} (hd : d ∈ p.returned) : d.source = p.source ∧ s.Arrived d := by
  have hi := inv_of_reachable h
  obtain ⟨b, hp⟩ := List.mem_iff_getElem?.mp hp
  have hacc := hi.demux.accounted b p hp
  have henq := hacc.returned_subset d hd
  exact ⟨hacc.source d henq, hi.arrived b p hp d henq⟩

theorem run_continues {config : DemuxConfig} {es : List (DemuxEvent E)} (hi : s.Inv)
    (hrun : (system config).Run s es s') {b : Nat} {p : Peer E} (hp : s.demux.peers[b]? = some p) :
    ∃ p', s'.demux.peers[b]? = some p' ∧ p.Continues p' := by
  refine hrun.relates (I := Inv)
    (R := fun s s' => ∀ (b : Nat) (p : Peer E), s.demux.peers[b]? = some p →
      ∃ p', s'.demux.peers[b]? = some p' ∧ p.Continues p')
    (fun s e s' hi hst => (step_steps hst).inv hi) (fun s b p hp => ⟨p, hp, .refl p⟩) ?_ ?_ hi b p hp
  · intro s₁ s₂ s₃ h₁₂ h₂₃ b p hp
    obtain ⟨p₂, hp₂, hc⟩ := h₁₂ b p hp
    obtain ⟨p₃, hp₃, hc'⟩ := h₂₃ b p₂ hp₂
    exact ⟨p₃, hp₃, hc.trans hc'⟩
  · intro s e s' hi hst b p hp
    rcases (step_steps hst).serves (G := fun _ _ _ => True) hi.demux
      (fun _ _ _ _ _ _ _ _ => trivial) with hm | ⟨d, -, -, hs⟩
    · obtain ⟨q, hq, hl⟩ := hm.exists_later hp
      exact ⟨q, hq, hl.continues⟩
    · exact hs.exists_continues hp

end Taps.UDPDemux
