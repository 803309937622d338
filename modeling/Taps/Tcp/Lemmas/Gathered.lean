import Taps.Message.Calls
import Taps.Tcp.Lemmas.Deframing

/-!
# Records that are gathered

A framer may ask for its records in one piece. The Messages that such a framer delivers have what
`as_bytes()` returns from the start, and have it for as long as the application keeps them.
-/

namespace Taps

/-! ## Messages -/

namespace Message

variable {mem mem' : Memory} {m : Message}

/-- `as_bytes()` has nothing to build: there is no chain, or it has one block at most, or it has been copied. -/
def Settled (m : Message) : Prop :=
  ∀ c, m.chain = some c → c.empty = true ∨ c.blockCount = 1 ∨ m.gathered ≠ none

theorem asBytes_of_settled (h : m.Settled) (mem : Memory) : (m.asBytes mem).2 = m := by
  cases hc : m.chain with
  | none => simp only [asBytes, hc]
  | some c =>
      simp only [asBytes, ensureGathered, hc]
      split
      · rfl
      · rename_i hempty
        split
        · rfl
        · rename_i hone
          split
          · rfl
          · rename_i hgathered
            exact absurd hgathered (((h c hc).resolve_left hempty).resolve_left hone)

theorem settled_asBytes (mem : Memory) (m : Message) : (m.asBytes mem).2.Settled := by
  intro c hc
  rw [asBytes_chain] at hc
  simp only [asBytes, ensureGathered, hc]
  split
  · exact .inl ‹_›
  · split
    · exact .inr (.inl ‹_›)
    · split
      · rename_i hbs
        exact .inr (.inr (by simp [hbs]))
      · exact .inr (.inr (by simp))

theorem Coherent.congr (h : m.Coherent mem) (hsame : ∀ blk off, m.Covers blk off → mem' blk off = mem blk off) :
    m.Coherent mem' := by
  intro bs hbs
  obtain ⟨c, hc, rfl⟩ := h bs hbs
  exact ⟨c, hc, (BlockChain.bytes_congr fun blk off hcov => hsame blk off ⟨c, hc, hcov⟩).symm⟩

end Message

/-! ## Turns -/

/-- The records of the framer are to be gathered. -/
def MessageFramer.Gathers {σ : Type} (f : MessageFramer σ) : Prop :=
  ∀ framerState cursor atEof, (f.parse framerState cursor atEof).1.action = .emit →
    (f.parse framerState cursor atEof).1.gather = true

namespace TCPConnection

variable {σ : Type} {mem : Memory} {outside : List Addr} {fresh : Addr} {c : TCPConnection σ}
  {f : MessageFramer σ} {discardBefore : UInt64} {m : Message}

theorem settled_recordMessage {pr : ParseResult} (h : pr.gather = true) :
    (c.recordMessage mem pr).Settled ∧ (c.recordMessage mem pr).Coherent mem := by
  simp only [recordMessage, h, if_true]
  exact ⟨Message.settled_asBytes _ _, Message.coherent_asBytes (Message.coherent_of_none rfl)⟩

theorem act_delivered {pr : ParseResult} (h : (c.act mem outside fresh pr).2 = .delivered discardBefore m) :
    pr.action = .emit ∧ m = c.recordMessage mem pr := by
  unfold act at h
  split at h
  · rename_i haction
    refine ⟨haction, ?_⟩
    unfold emitRecord at h
    split at h
    · cases h
    · cases h
      rfl
  · split at h
    · unfold endOfStream at h
      split at h <;> cases h
    · unfold issueRead at h
      split at h <;> cases h

theorem framedTurn_settled (hf : f.Gathers) (h : (c.framedTurn f mem outside fresh).2 = .delivered discardBefore m) :
    m.Settled ∧ m.Coherent mem := by
  obtain ⟨haction, rfl⟩ := act_delivered h
  exact settled_recordMessage (hf _ _ _ haction)

theorem receive_settled (mem : Memory) (hframer : c.framer = some f) (hf : f.Gathers)
    (h : (c.receive mem outside fresh).2 = .delivered discardBefore m) : m.Settled ∧ m.Coherent mem := by
  unfold receive at h
  split at h
  · cases h
  · rw [hframer] at h
    exact framedTurn_settled hf h

theorem resume_settled (mem : Memory) {c' : TCPConnection σ} {ec : Option ErrorCode} {n : Nat} (hframer : c.framer = some f)
    (hf : f.Gathers) (h : c.resume mem outside fresh ec n = some (c', .delivered discardBefore m)) :
    m.Settled ∧ m.Coherent mem := by
  unfold resume finishRead at h
  split at h
  · simp only [Option.map_some, hframer, Option.some.injEq, framedChunk] at h
    exact framedTurn_settled hf (congrArg Prod.snd h)
  · split at h <;> cases h
  · split at h
    · cases h
    · simp only [Option.map_some, hframer, Option.some.injEq, framedChunk] at h
      exact framedTurn_settled hf (congrArg Prod.snd h)

end TCPConnection

/-! ## Sessions -/

namespace Session

variable {σ : Type} {s s' : Session σ} {f : MessageFramer σ}

structure KeepsGathered (f : MessageFramer σ) (s : Session σ) : Prop where
  framer : s.conn.framer = some f
  kept : ∀ m ∈ s.kept, m.Settled ∧ m.Coherent s.mem

theorem kept_settle {P : Message → Prop} {u : List Byte} {c : TCPConnection σ} {p : Progress}
    (hkept : ∀ m ∈ s.kept, P m) (hnew : ∀ d m, p = .delivered d m → P m) : ∀ m ∈ (s.settle u c p).kept, P m := by
  intro m hm
  cases p with
  | delivered d m' =>
      rcases List.mem_cons.mp hm with rfl | hm
      · exact hnew d m rfl
      · exact hkept m hm
  | suspended _ | ended _ | incomplete _ _ | failed _ => exact hkept m hm

theorem step_keepsGathered {e : SessionEvent σ} (hf : f.Gathers) (hi : Inv s) (h : KeepsGathered f s)
    (hst : s.step e = some s') (he : e.KeepsFramer) : KeepsGathered f s' := by
  refine ⟨(step_framer hst he).trans h.framer, ?_⟩
  have hold : ∀ m ∈ s.kept, m.Settled ∧ m.Coherent s'.mem := fun m hm =>
    ⟨(h.kept m hm).1, (h.kept m hm).2.congr fun _ _ hcov => step_mem hi hst (.inr ⟨m, hm, hcov⟩)⟩
  cases e with
  | receive fresh =>
      obtain ⟨-, -, c, p, heq, rfl⟩ := step_receive hst
      refine kept_settle hold fun d m hp => ?_
      subst hp
      exact TCPConnection.receive_settled (s.allocated fresh).mem h.framer hf (congrArg Prod.snd heq)
  | readDone outcome fresh =>
      obtain ⟨b, c, p, -, -, -, heq, rfl⟩ := step_readDone hst
      refine kept_settle hold fun d m hp => ?_
      subst hp
      exact TCPConnection.resume_settled (s.completed b outcome fresh).mem h.framer hf heq
  | drop i =>
      cases hst
      exact fun m hm => h.kept m (List.mem_of_mem_eraseIdx hm)
  | others state aborted =>
      cases hst
      exact h.kept
  | setFramer framer framerState => exact he.elim

theorem run_keepsGathered (hf : f.Gathers) {mem : Memory} {state : ConnectionState} {framerState : σ}
    {pool : MessageBlockPool} {es : List (SessionEvent σ)}
    (hrun : (fixedFramer σ).Run (create mem (.create state (some f) framerState pool)) es s) :
    KeepsGathered f s := by
  have h : Inv s ∧ KeepsGathered f s := by
    refine hrun.preserves (I := fun s => Inv s ∧ KeepsGathered f s) ?_ ⟨create_inv .., rfl, by simp [create]⟩
    rintro s e s' ⟨hi, hk⟩ ⟨hst, he⟩
    exact ⟨step_inv hi hst, step_keepsGathered hf hi hk hst he⟩
  exact h.2

end Session

theorem PassthroughFramer.gathers {f : PassthroughFramer} (h : f.gather = true) : f.toFramer.Gathers := by
  intro _ cursor atEof hemit
  simp only [toFramer, parse] at hemit ⊢
  split at hemit
  · cases hemit
  · rename_i hne
    rw [if_neg hne]
    exact h

end Taps
