import Taps.Tcp.Lemmas.Await
import Taps.Tcp.Lemmas.Delivery
import Taps.Tcp.Theorems

/-!
# Where memory is short

What the block pool and the memory resource can do to the receives of a connection: stop them at the live-block cap,
leave them without room for a read, or throw while a record is delivered.
-/

namespace Taps

/-! ## Every read can make progress -/

namespace Transfer

/-- The buffers that connections of this pool read into have room for a byte, and for a quarter of a block. -/
def RoomyReads (pool : MessageBlockPool) : Prop :=
  ∀ (σ : Type) (s : Session σ) (b : ReadBuffer), (Session.system σ).Reachable s → s.conn.blockPool = pool →
    s.pending = some b → 1 ≤ b.len ∧ pool.blockSize / 4 ≤ b.len

/-- The receives of connections of this pool return, whatever is left of the stream and however it is cut. -/
def ReceivesReturn (pool : MessageBlockPool) : Prop :=
  ∀ (σ : Type) (env : Environment) (t : Transfer σ), (Session.system σ).Reachable t.session →
    t.session.conn.blockPool = pool → t.session.pending = none → ∃ reads, (t.receiveWithin env reads).isSome

/-- Exactly with blocks of four bytes or more. -/
theorem reads_progress_iff (pool : MessageBlockPool) :
    (RoomyReads pool ↔ 4 ≤ pool.blockSize) ∧ (ReceivesReturn pool ↔ 4 ≤ pool.blockSize) := by
  refine ⟨⟨fun hroomy => ?_, fun hsize => ?_⟩, ⟨fun hreturn => ?_, fun hsize => ?_⟩⟩
  · by_contra hsmall
    obtain ⟨s, b, h, hpool, hb, hlen⟩ := Session.exists_full (Nat.lt_of_not_le hsmall)
    have hroom := (hroomy Unit s b h hpool hb).1
    omega
  · rintro σ s b h rfl hb
    have hquarter := Session.reachable_roomy h hb
    exact ⟨by omega, hquarter⟩
  · by_contra hsmall
    obtain ⟨reads, hreads⟩ := hreturn Unit .above
      (create (fun _ _ => 0) (starvingStart pool) [List.replicate pool.blockSize 0])
      (Session.starvingStart_reachable _ pool) rfl rfl
    rw [receive_starves .above (Nat.lt_of_not_le hsmall) _ List.length_replicate reads] at hreads
    cases hreads
  · rintro σ env t h rfl hp
    exact receive_returns env h hsize hp

/-- A block of two bytes is full after the first read, and the receive reads into it forever. -/
theorem full_block_starves :
    let start := starvingStart ⟨2, 0, by decide⟩
    (∃ s b, [.receive ⟨1, fun _ => 0⟩, .readDone (.data [7, 7]) ⟨2, fun _ => 0⟩].foldlM Session.step
      (.create (fun _ _ => 0) start) = some s ∧ s.pending = some b ∧ b.len = 0) ∧
    ∀ reads, (create (fun _ _ => 0) start [[7, 7]]).receiveWithin .above reads = none := by
  refine ⟨⟨_, _, rfl, rfl, by decide⟩, fun reads => ?_⟩
  exact receive_starves .above (by decide) _ rfl reads

end Transfer

/-! ## Backpressure -/

namespace Session

variable {σ : Type} {s : Session σ}

/-- A receive fails for want of a block only where as many are live as there may be and the chain or a Message holds
each of them. With no Message kept and nothing in the chain, the next read finds a block. -/
theorem backpressure (h : (system σ).Reachable s) :
    (∀ e s', s.step e = some s' → s'.history.replies = s.history.replies ++ [.error .receiveError .resourceExhausted] →
      (s'.conn.blockPool.maxLiveBlocks ≠ 0 ∧ liveBlocks s'.handles = s'.conn.blockPool.maxLiveBlocks) ∧
      (∀ a ∈ s'.handles, a ∈ s'.conn.receiveChain.handles ∨ ∃ m ∈ s'.kept, a ∈ m.handles) ∧
      (s'.kept ≠ [] ∨ s'.conn.receiveChain.size ≠ 0)) ∧
    (s.kept = [] → s.conn.receiveChain.size = 0 → ∀ fresh, ∃ buffer,
      (s.conn.startRead s.outside fresh).2 = .ok buffer) := by
  have hb := reachable_backed h
  refine ⟨?_, fun hkept hsize fresh => startRead_of_idle hb hkept hsize fresh⟩
  intro e s' hstep hreply
  rcases step_stretches hb hstep with ⟨c₁, c, p, hs⟩ | ⟨-, -, -, -, hhistory⟩
  · obtain ⟨hcurrent, hne, hlive⟩ := hs.exhausted hb hreply
    have hheld : ∀ a ∈ s'.handles, a ∈ s'.conn.receiveChain.handles ∨ ∃ m ∈ s'.kept, a ∈ m.handles := by
      intro a ha
      rcases List.mem_append.mp ha with ha | ha
      · refine .inl ((TCPConnection.mem_handles.mp ha).resolve_right ?_)
        rintro ⟨r, hr, -⟩
        rw [hcurrent] at hr
        cases hr
      · exact .inr (List.mem_flatMap.mp ha)
    refine ⟨⟨hne, hlive⟩, hheld, ?_⟩
    by_contra hidle
    rw [not_or, not_not, not_not] at hidle
    have hnone : s'.handles = [] := by
      rw [List.eq_nil_iff_forall_not_mem]
      intro a ha
      rcases hheld a ha with ha | ⟨m, hm, -⟩
      · rw [BlockChain.handles_eq_nil hidle.2] at ha
        cases ha
      · rw [hidle.1] at hm
        cases hm
    rw [hnone] at hlive
    exact hne hlive.symm
  · rw [hhistory] at hreply
    simp at hreply

theorem backpressure_capped : ∃ s s' s'', cappedEvents.dropLast.foldlM step cappedStart = some s ∧
    s.step (.receive ⟨2, fun _ => 0⟩) = some s' ∧ s'.step (.drop 0) = some s'' ∧
    liveBlocks s'.handles = s'.conn.blockPool.maxLiveBlocks ∧
    ∃ buffer, (s''.conn.startRead s''.outside 2).2 = .ok buffer := by
  have hsome : (cappedEvents.dropLast.foldlM step cappedStart).isSome := rfl
  obtain ⟨s, hs⟩ := Option.isSome_iff_exists.mp hsome
  have hr : (system Unit).Reachable s :=
    ⟨cappedStart, cappedEvents.dropLast, ⟨_, _, _, _, _, rfl⟩, .of_foldlM (fun _ _ _ _ hst => hst) hs⟩
  have hfails : (s.step (.receive ⟨2, fun _ => 0⟩)).isSome := by
    cases hs
    rfl
  obtain ⟨s', hs'⟩ := Option.isSome_iff_exists.mp hfails
  refine ⟨s, s', _, hs, hs', rfl, ?_, ?_⟩
  · apply ((backpressure hr).1 _ s' hs' ?_).1.2
    cases hs
    cases hs'
    rfl
  · apply (backpressure ((hr.step hs').step (e := .drop 0) rfl)).2
    · cases hs
      cases hs'
      rfl
    · cases hs
      cases hs'
      rfl

end Session

/-! ## Failed deliveries -/

namespace Delivery

variable {σ : Type} {s : Delivery} {c : TCPConnection σ}

/-- Where an allocation throws, the chain and the open Message are as they were exactly if nothing is dropped before
the record and the copy that the framer asked for is not what throws. Then the delivery succeeds the next time. -/
theorem record_survives_iff (h : s.Holds c) (throws : DeliveryAllocation → Nat → Bool) (pr : ParseResult)
    (mem : Memory) :
    (∃ r, s.emitRecord throws pr = some r) ∧
    ∀ a st, s.emitRecord throws pr = some (.error (a, st)) →
      (∃ n, throws a n = true) ∧ (st.Holds c ↔ pr.discardBefore = 0 ∧ a ≠ .gathered) ∧
      (st.Holds c → ∃ st' slice, st.emitRecord (fun _ _ => false) pr = some (.ok (st', some slice)) ∧
        st'.Holds (c.emitRecord mem pr).1 ∧ slice.Refines ((c.afterDiscard pr).first pr.deliver.toNat)) := by
  obtain ⟨s₁, hdiscard, hopen, h₁, hends⟩ := emitRecord_ends throws h pr
  constructor
  · generalize s.emitRecord throws pr = outcome at hends
    cases hends <;> exact ⟨_, rfl⟩
  · intro a st hfails
    obtain ⟨hne, hle⟩ := accepted_of_throws hfails
    rw [h.size_eq] at hle
    obtain ⟨hconsumed, hdropped⟩ := taken_lt hne hle
    refine ⟨?_, ⟨fun hst => ?_, fun ⟨hzero, ha⟩ => ?_⟩, fun hst => ?_⟩
    · rw [hfails] at hends
      cases hends with
      | before _ hthrows => exact hthrows
      | after _ hthrows => exact hthrows
    · have hsize := hst.size_eq
      rw [hfails] at hends
      cases hends with
      | before ha _ =>
          refine ⟨?_, ha⟩
          by_contra hzero
          have hlt := hdropped hzero
          rw [← h₁.size_eq] at hlt
          exact absurd hsize (Nat.ne_of_lt hlt)
      | after hchain _ =>
          rw [← hchain.size_eq] at hconsumed
          exact absurd hsize (Nat.ne_of_lt hconsumed)
    · rw [hfails] at hends
      cases hends with
      | before _ _ =>
          cases (discard_of_zero s hzero).symm.trans hdiscard
          exact ⟨h.receiveChain, h.messageOpen⟩
      | after _ _ => exact absurd rfl ha
    · exact emitRecord_refines hst (fun _ _ => rfl) hne hle mem

/-- The members of `threeBytes`. -/
def threeHeld : Delivery where
  blocks := .create 0
  receiveChain :=
    { inline := [.ofRef TCPConnection.threeWindow, .null], external := none, head := 0, count := 1, size := 3 }
  messageOpen := false

theorem threeHeld_holds (f : MessageFramer Unit) : threeHeld.Holds (TCPConnection.threeBytes f) where
  receiveChain :=
    ⟨⟨⟨[], [.null], rfl, rfl, nofun, by simp [Idle, Handle.null]⟩, rfl, by decide, rfl, fun h => absurd rfl h⟩, rfl⟩
  messageOpen := rfl

theorem record_survives_iff_three : ∃ st,
    threeHeld.emitRecord (fun a _ => a = .chainObject) (.emit 3 true 0) = some (.error (.chainObject, st)) ∧
    st.Holds (TCPConnection.threeBytes (TCPConnection.constantFramer 0 3)) := by
  refine ⟨_, rfl, ?_⟩
  apply ((record_survives_iff (threeHeld_holds _) (fun a _ => a = .chainObject) (.emit 3 true 0) fun _ _ => 0).2
    .chainObject _ rfl).2.1.mpr
  exact ⟨rfl, nofun⟩

/-- A byte is dropped before a record of two, and the object for the slice cannot be allocated: the two bytes are
left without the one before them, and the same record is refused the next time. -/
theorem header_lost : ∃ st,
    threeHeld.Holds (TCPConnection.threeBytes (TCPConnection.constantFramer 1 2)) ∧
    threeHeld.emitRecord (fun a _ => a = .chainObject) (.emit 2 true 1) = some (.error (.chainObject, st)) ∧
    ¬ st.Holds (TCPConnection.threeBytes (TCPConnection.constantFramer 1 2)) ∧ st.receiveChain.size = 2 ∧
    st.emitRecord (fun _ _ => false) (.emit 2 true 1) = some (.ok (st, none)) := by
  refine ⟨_, threeHeld_holds _, rfl, ?_, rfl, rfl⟩
  intro hst
  exact absurd hst.size_eq (by decide)

end Delivery

end Taps
