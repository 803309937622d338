import Mathlib.Data.List.Dedup
import Taps.Tcp.Lemmas.Stream
import Taps.Tcp.Transfer

/-!
# The block that a read goes to

A stretch leaves the current block as it is or goes on to the one that `start_read()` chooses (`Paced`). From that
it follows that the current block always has room for a read, and that the pool is exhausted only where nothing but
the chain and the Messages has a handle (`Backed`).
-/

namespace Taps

/-! ## Live blocks -/

theorem liveBlocks_mono {l l' : List Addr} (h : l ⊆ l') : liveBlocks l ≤ liveBlocks l' := by
  have hsubset : l.dedup ⊆ l'.dedup := by
    intro a ha
    exact List.mem_dedup.mpr (h (List.mem_dedup.mp ha))
  exact (List.subperm_of_subset (List.nodup_dedup l) hsubset).length_le

theorem liveBlocks_cons_le (a : Addr) (l : List Addr) : liveBlocks (a :: l) ≤ liveBlocks l + 1 := by
  rw [liveBlocks]
  by_cases ha : a ∈ l
  · rw [List.dedup_cons_of_mem ha]
    exact Nat.le_succ _
  · rw [List.dedup_cons_of_notMem ha]
    exact Nat.le_refl _

theorem BlockChain.handles_eq_nil {c : BlockChain} (h : c.size = 0) : c.handles = [] := by
  have hentries : c.entries = [] := by
    have hsize := c.size_eq
    have hlive := c.live
    cases he : c.entries with
    | nil => rfl
    | cons r es =>
        rw [he, h, entriesSize, List.map_cons, List.sum_cons, BlockRef.size] at hsize
        have := hlive r (he ▸ List.mem_cons_self)
        omega
  rw [handles, hentries]
  rfl

namespace TCPConnection

variable {σ : Type} {mem : Memory} {outside : List Addr} {fresh : Addr} {c c' : TCPConnection σ} {p : Progress}

/-! ## Stretches -/

/-- `error` says that the block pool is exhausted. -/
def Exhausted (error : TAPSError) : Prop := error.event = .receiveError ∧ error.reason = .resourceExhausted

/-- What a stretch from `c` does with the current block and with the end of the stream. -/
structure Paced (outside : List Addr) (fresh : Addr) (c c' : TCPConnection σ) (p : Progress) : Prop where
  current : c'.currentBlock = c.currentBlock ∨ c'.currentBlock = c.readBlock outside fresh
  suspended : ∀ b, p = .suspended b → ∃ r, c.readBlock outside fresh = some r ∧ b = c.bufferOf r
  exhausted : ∀ e, p = .failed e → Exhausted e →
    c.readBlock outside fresh = none ∧ c'.currentBlock = none ∧ c'.receiveChain = c.receiveChain
  incomplete : ∀ n e, p = .incomplete n e → ¬ Exhausted e
  unended : (∃ b, p = .suspended b) ∨ (∃ d m, p = .delivered d m) → c'.receiveEnded = c.receiveEnded
  ended : ∀ m, p = .ended m → c'.receiveChain.size = 0 ∨ c.framer = none

namespace Paced

variable {e : TAPSError}

theorem of_suspended {r : BlockRef} (hr : c.readBlock outside fresh = some r) :
    Paced outside fresh c { c with currentBlock := some r } (.suspended (c.bufferOf r)) where
  current := .inr hr.symm
  suspended b hb := by
    cases hb
    exact ⟨r, hr, rfl⟩
  exhausted := by simp
  incomplete := by simp
  unended _ := rfl
  ended := by simp

theorem of_delivered {d : UInt64} {m : Message} (hcurrent : c'.currentBlock = c.currentBlock)
    (hended : c'.receiveEnded = c.receiveEnded) : Paced outside fresh c c' (.delivered d m) where
  current := .inl hcurrent
  suspended := by simp
  exhausted := by simp
  incomplete := by simp
  unended _ := hended
  ended := by simp

theorem of_ended {m : Message} (hcurrent : c'.currentBlock = c.currentBlock)
    (hsize : c'.receiveChain.size = 0 ∨ c.framer = none) : Paced outside fresh c c' (.ended m) where
  current := .inl hcurrent
  suspended := by simp
  exhausted := by simp
  incomplete := by simp
  unended := by simp
  ended _ _ := hsize

theorem of_incomplete {n : Nat} (hcurrent : c'.currentBlock = c.currentBlock) (he : ¬ Exhausted e) :
    Paced outside fresh c c' (.incomplete n e) where
  current := .inl hcurrent
  suspended := by simp
  exhausted := by simp
  incomplete _ _ h := by
    cases h
    exact he
  unended := by simp
  ended := by simp

theorem of_failed (hcurrent : c'.currentBlock = c.currentBlock ∨ c'.currentBlock = c.readBlock outside fresh)
    (hexhausted : Exhausted e → c.readBlock outside fresh = none ∧ c'.currentBlock = none ∧
      c'.receiveChain = c.receiveChain) : Paced outside fresh c c' (.failed e) where
  current := hcurrent
  suspended := by simp
  exhausted _ h := by
    cases h
    exact hexhausted
  incomplete := by simp
  unended := by simp
  ended := by simp

end Paced

theorem not_exhausted_reclassify {e : TAPSError} (h : ¬ Exhausted e) : ¬ Exhausted (c.reclassify e) := by
  unfold reclassify
  split
  · rintro ⟨-, hreason⟩
    exact absurd hreason nofun
  · exact h

theorem fail_paced (outside : List Addr) (fresh : Addr) (c : TCPConnection σ) {e : TAPSError} (h : ¬ Exhausted e) :
    Paced outside fresh c (c.fail e).1 (c.fail e).2 := by
  obtain ⟨state, ended, hconn⟩ := c.receiveFailure_fst e
  apply Paced.of_failed
  · exact .inl (by rw [fail, hconn])
  · intro hexhausted
    rw [receiveFailure_snd] at hexhausted
    exact absurd hexhausted (not_exhausted_reclassify h)

theorem issueRead_paced (outside : List Addr) (fresh : Addr) (c : TCPConnection σ) :
    Paced outside fresh c (c.issueRead outside fresh).1 (c.issueRead outside fresh).2 := by
  cases hr : c.readBlock outside fresh with
  | some r =>
      rw [issueRead_of_some hr]
      exact .of_suspended hr
  | none =>
      rw [issueRead_of_none hr]
      obtain ⟨state, ended, hconn⟩ := receiveFailure_fst { c with currentBlock := none }
        ⟨.receiveError, .resourceExhausted, .text "receive block pool exhausted"⟩
      apply Paced.of_failed
      · exact .inr (by rw [fail, hconn, hr])
      · exact fun _ => ⟨hr, by rw [fail, hconn], by rw [fail, hconn]⟩

theorem not_exhausted_of_reason {e : TAPSError} (h : e.reason ≠ .resourceExhausted) : ¬ Exhausted e :=
  fun he => h he.2

theorem endOfStream_paced (outside : List Addr) (fresh : Addr) (c : TCPConnection σ) :
    Paced outside fresh c c.endOfStream.1 c.endOfStream.2 := by
  unfold endOfStream
  split
  · obtain ⟨state, ended, hconn⟩ := c.discardUnparsed.receiveFailure_fst c.incompleteError
    apply Paced.of_incomplete
    · exact (congrArg TCPConnection.currentBlock hconn :)
    · rw [receiveFailure_snd]
      apply not_exhausted_reclassify
      exact not_exhausted_of_reason nofun
  · rename_i hclean
    rw [not_or, Nat.not_lt] at hclean
    exact .of_ended rfl (.inl (Nat.eq_zero_of_le_zero hclean.2))

theorem act_paced (mem : Memory) (outside : List Addr) (fresh : Addr) (c : TCPConnection σ) (pr : ParseResult) :
    Paced outside fresh c (c.act mem outside fresh pr).1 (c.act mem outside fresh pr).2 := by
  unfold act
  split
  · unfold emitRecord
    split
    · exact fail_paced outside fresh c (not_exhausted_of_reason nofun)
    · exact .of_delivered rfl rfl
  · split
    · exact endOfStream_paced outside fresh c
    · exact issueRead_paced outside fresh c

theorem framedTurn_paced (f : MessageFramer σ) (mem : Memory) (outside : List Addr) (fresh : Addr)
    (c : TCPConnection σ) :
    Paced outside fresh c (c.framedTurn f mem outside fresh).1 (c.framedTurn f mem outside fresh).2 := by
  have hp := act_paced mem outside fresh
    { c with framerState := (f.parse c.framerState ⟨mem, c.receiveChain⟩ c.receiveEof).2 }
    (f.parse c.framerState ⟨mem, c.receiveChain⟩ c.receiveEof).1
  exact { hp with }

theorem receive_paced (mem : Memory) (outside : List Addr) (fresh : Addr) (c : TCPConnection σ) :
    Paced outside fresh c (c.receive mem outside fresh).1 (c.receive mem outside fresh).2 := by
  unfold receive
  split
  · rename_i e he
    have hexhausted : ¬ Exhausted e := by
      unfold receiveRefused at he
      split at he
      · cases he
      · cases he
        exact not_exhausted_of_reason nofun
    exact .of_failed (.inl rfl) fun h => absurd h hexhausted
  · split
    · exact framedTurn_paced ..
    · exact issueRead_paced outside fresh c

theorem not_exhausted_readFailure (ec : ErrorCode) : ¬ Exhausted (readFailure ec) := by
  rintro ⟨hevent, hreason⟩
  unfold readFailure at hevent hreason
  split at hevent
  · exact absurd hreason nofun
  · exact absurd hevent nofun

theorem Paced.of_receiveEof {eof : Bool} (h : Paced outside fresh { c with receiveEof := eof } c' p) :
    Paced outside fresh c c' p := { h with }

theorem resume_paced {ec : Option ErrorCode} {n : Nat} (h : c.resume mem outside fresh ec n = some (c', p)) :
    (ec = none ∧ ∃ r, c.currentBlock = some r ∧ Paced outside fresh (c.withChunk r n) c' p) ∨
      (ec ≠ none ∧ Paced outside fresh c c' p) := by
  unfold resume finishRead at h
  split at h
  · right
    refine ⟨by simp, ?_⟩
    cases hf : c.framer with
    | none =>
        simp only [hf, Option.map_some, Option.some.injEq, unframedChunk, Prod.mk.injEq] at h
        obtain ⟨rfl, rfl⟩ := h
        exact .of_ended rfl (.inr hf)
    | some f =>
        simp only [hf, Option.map_some, Option.some.injEq, framedChunk] at h
        have hp := framedTurn_paced f mem outside fresh { c with receiveEof := true }
        rw [hf, h] at hp
        exact .of_receiveEof { hp with ended := fun m hm => (hp.ended m hm).imp_right hf.trans }
  · rename_i code _
    right
    refine ⟨by simp, ?_⟩
    split at h
    · simp only [Option.map_some, Option.some.injEq] at h
      have hp := fail_paced outside fresh { c with receiveEof := true } (not_exhausted_readFailure code)
      rw [h] at hp
      exact hp.of_receiveEof
    · simp only [Option.map_some, Option.some.injEq] at h
      have hp := fail_paced outside fresh c (not_exhausted_readFailure code)
      rwa [h] at hp
  · left
    cases hr : c.currentBlock with
    | none => simp [hr] at h
    | some r =>
        refine ⟨rfl, r, rfl, ?_⟩
        cases hf : c.framer with
        | none =>
            simp only [hr, hf, Option.map_some, Option.some.injEq, unframedChunk, Prod.mk.injEq] at h
            obtain ⟨rfl, rfl⟩ := h
            exact .of_delivered rfl rfl
        | some f =>
            simp only [hr, hf, Option.map_some, Option.some.injEq, framedChunk] at h
            have hp := framedTurn_paced f mem outside fresh (c.withChunk r n)
            have heq : (c.withChunk r n).framedTurn f mem outside fresh = (c', p) := by
              simpa only [withChunk, chunk, hf] using h
            rwa [heq] at hp

/-! ## Room for a read -/

/-- The current block, if there is one, has room for another read. -/
def Spare (c : TCPConnection σ) : Prop := ∀ r, c.currentBlock = some r → c.spent r = false

theorem spare_advance (c : TCPConnection σ) (r : BlockRef) (n : Nat) : (c.withChunk r n).Spare := by
  intro r' hr'
  simp only [withChunk, advance] at hr'
  split at hr'
  · cases hr'
  · rename_i hspent
    cases hr'
    exact Bool.eq_false_iff.mpr hspent

theorem readBlock_of_current {r : BlockRef} (hr : c.currentBlock = some r) (hspent : c.spent r = false) :
    c.readBlock outside fresh = some r := by
  simp [readBlock, hr, hspent]

/-- A current block with room is used again, and else a block is acquired, unless as many as there may be are
live. -/
theorem Spare.readBlock_cases (h : c.Spare) (outside : List Addr) (fresh : Addr) :
    (∃ r, c.currentBlock = some r ∧ c.readBlock outside fresh = some r) ∨
      c.currentBlock = none ∧
        (c.readBlock outside fresh = none ∧ c.blockPool.maxLiveBlocks ≠ 0 ∧
            c.blockPool.maxLiveBlocks ≤ liveBlocks (c.handles ++ outside) ∨
          c.readBlock outside fresh = some (freshWindow fresh) ∧
            (c.blockPool.maxLiveBlocks ≠ 0 → liveBlocks (c.handles ++ outside) < c.blockPool.maxLiveBlocks)) := by
  cases hr : c.currentBlock with
  | some r => exact .inl ⟨r, rfl, readBlock_of_current hr (h r hr)⟩
  | none =>
      refine .inr ⟨rfl, ?_⟩
      by_cases hcap : c.blockPool.maxLiveBlocks ≠ 0 ∧ liveBlocks (c.handles ++ outside) ≥ c.blockPool.maxLiveBlocks
      · exact .inl ⟨by simp only [readBlock, hr, MessageBlockPool.acquire, if_pos hcap], hcap.1, hcap.2⟩
      · refine .inr ⟨by simp only [readBlock, hr, MessageBlockPool.acquire, if_neg hcap]; rfl, fun hne => ?_⟩
        by_contra hge
        exact hcap ⟨hne, Nat.le_of_not_lt hge⟩

theorem Spare.stretch (h : c.Spare) (hpool : c'.blockPool = c.blockPool) (hp : Paced outside fresh c c' p) :
    c'.Spare := by
  have hspent : ∀ r, c'.spent r = c.spent r := by
    intro r
    unfold spent reuseThreshold
    rw [hpool]
  intro r hr
  rw [hspent]
  rcases hp.current with hcurrent | hcurrent
  · exact h r (hcurrent ▸ hr)
  · rw [hcurrent] at hr
    rcases h.readBlock_cases outside fresh with ⟨r', hr', hread⟩ | ⟨-, ⟨hread, -⟩ | ⟨hread, -⟩⟩
    · rw [hread] at hr
      cases hr
      exact h r hr'
    · rw [hread] at hr
      cases hr
    · rw [hread] at hr
      cases hr
      exact spent_freshWindow c fresh

/-! ## Handles -/

theorem mem_handles {a : Addr} : a ∈ c.handles ↔
    a ∈ c.receiveChain.handles ∨ ∃ r, c.currentBlock = some r ∧ r.block = a := by
  simp [handles]

/-- A stretch leaves no handle to a block that there was none to, but for the block that it acquires. -/
theorem handles_of_stretch (ht : Stretch fresh c c' p) {a : Addr} (ha : a ∈ c'.receiveChain.handles) :
    a ∈ c.receiveChain.handles := by
  obtain ⟨off, hcov⟩ := BlockChain.mem_handles_iff.mp ha
  exact BlockChain.mem_handles_iff.mpr ⟨off, ht.covers a off hcov⟩

theorem handles_of_message (ht : Stretch fresh c c' p) {d : UInt64} {m : Message} (hp : p = .delivered d m) {a : Addr}
    (ha : a ∈ m.handles) : a ∈ c.receiveChain.handles := by
  cases hchain : m.chain with
  | none => simp [Message.handles, hchain] at ha
  | some slice =>
      simp only [Message.handles, hchain] at ha
      obtain ⟨off, hcov⟩ := BlockChain.mem_handles_iff.mp ha
      exact BlockChain.mem_handles_iff.mpr ⟨off, ht.message d m hp a off ⟨slice, hchain, hcov⟩⟩

/-- A read adds no handle to a block without one: the window is one of the current block. -/
theorem handles_withChunk {r : BlockRef} (hr : c.currentBlock = some r) (n : Nat) :
    (c.withChunk r n).handles ⊆ c.handles := by
  intro a ha
  rw [mem_handles] at ha ⊢
  have hblock : a = r.block → ∃ r, c.currentBlock = some r ∧ r.block = a := fun he => ⟨r, hr, he.symm⟩
  rcases ha with ha | ⟨r', hr', rfl⟩
  · obtain ⟨off, hcov⟩ := BlockChain.mem_handles_iff.mp ha
    rcases BlockChain.covers_append.mp hcov with hcov | ⟨rfl, -⟩
    · exact .inl (BlockChain.mem_handles_iff.mpr ⟨off, hcov⟩)
    · exact .inr (hblock rfl)
  · simp only [withChunk, advance] at hr'
    split at hr'
    · cases hr'
    · cases hr'
      exact .inr (hblock rfl)

end TCPConnection

namespace Session

variable {σ : Type} {s s' : Session σ} {c c₁ : TCPConnection σ} {p : Progress}

open TCPConnection

/-- The current block has room for a read, and no more blocks are live than may be. -/
structure Backed (s : Session σ) : Prop where
  spare : s.conn.Spare
  capped : s.conn.blockPool.maxLiveBlocks ≠ 0 → liveBlocks s.handles ≤ s.conn.blockPool.maxLiveBlocks

theorem create_backed (mem : Memory) (state : ConnectionState) (framer : Option (MessageFramer σ)) (framerState : σ)
    (pool : MessageBlockPool) : Backed (create mem (.create state framer framerState pool)) where
  spare := nofun
  capped _ := Nat.zero_le _

/-- What has a handle after a stretch had one before it, but for the current block. -/
theorem handles_of_settle {fresh : Addr} {unparsed : List Byte} (ht : Stretch fresh c₁ c p) {a : Addr}
    (ha : a ∈ (s.settle unparsed c p).handles) :
    a ∈ c₁.receiveChain.handles ∨ a ∈ s.outside ∨ ∃ r, c.currentBlock = some r ∧ r.block = a := by
  rcases List.mem_append.mp ha with ha | ha
  · replace ha : a ∈ c.handles := ha
    rcases mem_handles.mp ha with ha | ha
    · exact .inl (handles_of_stretch ht ha)
    · exact .inr (.inr ha)
  · cases p with
    | delivered d m =>
        rcases List.mem_append.mp ha with ha | ha
        · exact .inl (handles_of_message ht rfl ha)
        · exact .inr (.inl ha)
    | suspended _ | ended _ | incomplete _ _ | failed _ => exact .inr (.inl ha)

theorem settle_backed {fresh : Addr} {unparsed : List Byte} (ht : Stretch fresh c₁ c p)
    (hp : Paced s.outside fresh c₁ c p) (hspare : c₁.Spare)
    (hcapped : c₁.blockPool.maxLiveBlocks ≠ 0 →
      liveBlocks (c₁.handles ++ s.outside) ≤ c₁.blockPool.maxLiveBlocks) :
    Backed (s.settle unparsed c p) where
  spare := hspare.stretch ht.pool hp
  capped hne := by
    replace hne : c₁.blockPool.maxLiveBlocks ≠ 0 := by
      rw [← ht.pool]
      exact hne
    have hmax : (s.settle unparsed c p).conn.blockPool.maxLiveBlocks = c₁.blockPool.maxLiveBlocks :=
      congrArg MessageBlockPool.maxLiveBlocks ht.pool
    rw [hmax]
    have hsame : (∀ r, c.currentBlock = some r → r.block ∈ c₁.handles ++ s.outside) →
        liveBlocks (s.settle unparsed c p).handles ≤ c₁.blockPool.maxLiveBlocks := by
      intro hcurrent
      refine Nat.le_trans (liveBlocks_mono fun a ha => ?_) (hcapped hne)
      rcases handles_of_settle ht ha with ha | ha | ⟨r, hr, rfl⟩
      · exact List.mem_append_left _ (List.mem_append_left _ ha)
      · exact List.mem_append_right _ ha
      · exact hcurrent r hr
    have hkept : ∀ r, c₁.currentBlock = some r → r.block ∈ c₁.handles ++ s.outside :=
      fun r hr => List.mem_append_left _ (mem_handles.mpr (.inr ⟨r, hr, rfl⟩))
    rcases hp.current with hcurrent | hcurrent
    · exact hsame fun r hr => hkept r (hcurrent ▸ hr)
    · rcases hspare.readBlock_cases s.outside fresh with ⟨r', hr', hread⟩ | ⟨-, ⟨hread, -⟩ | ⟨hread, hlt⟩⟩
      · exact hsame fun r hr => hkept r (by rw [hcurrent, hread] at hr; rw [hr', hr])
      · exact hsame fun r hr => by rw [hcurrent, hread] at hr; cases hr
      · -- the block that is acquired is the only one that had no handle
        have hsubset : (s.settle unparsed c p).handles ⊆ fresh :: (c₁.handles ++ s.outside) := by
          intro a ha
          rcases handles_of_settle ht ha with ha | ha | ⟨r, hr, rfl⟩
          · exact List.mem_cons_of_mem _ (List.mem_append_left _ (List.mem_append_left _ ha))
          · exact List.mem_cons_of_mem _ (List.mem_append_right _ ha)
          · rw [hcurrent, hread] at hr
            cases hr
            exact List.mem_cons_self
        exact Nat.le_trans (liveBlocks_mono hsubset) (Nat.le_trans (liveBlocks_cons_le ..) (hlt hne))

/-! ## Steps -/

/-- The stretch of a step from `s`: it starts from `c₁` and leaves the connection as `c`. -/
structure Stretches (s s' : Session σ) (c₁ c : TCPConnection σ) (p : Progress) : Prop where
  stretch : ∃ fresh, Stretch fresh c₁ c p ∧ Paced s.outside fresh c₁ c p
  pool : c₁.blockPool = s.conn.blockPool
  spare : c₁.Spare
  handles : c₁.handles ⊆ s.conn.handles
  eq : ∃ s₁ unparsed, s' = settle s₁ unparsed c p ∧ s₁.kept = s.kept ∧ s₁.history.replies = s.history.replies

theorem step_stretches {e : SessionEvent σ} (hb : Backed s) (h : s.step e = some s') :
    (∃ c₁ c p, Stretches s s' c₁ c p) ∨
      s'.conn.currentBlock = s.conn.currentBlock ∧ s'.conn.blockPool = s.conn.blockPool ∧
        s'.handles ⊆ s.handles ∧ s'.pending = s.pending ∧ s'.history = s.history := by
  cases e with
  | receive fresh =>
      obtain ⟨-, -, c, p, heq, rfl⟩ := step_receive h
      have ht := receive_turn (s.allocated fresh).mem s.outside fresh.addr s.conn
      have hp := receive_paced (s.allocated fresh).mem s.outside fresh.addr s.conn
      rw [heq] at ht hp
      exact .inl ⟨s.conn, c, p, ⟨_, ht.toStretch, hp⟩, rfl, hb.spare, fun _ ha => ha, _, _, rfl, rfl, rfl⟩
  | readDone outcome fresh =>
      obtain ⟨b, c, p, hb', hlen, -, heq, rfl⟩ := step_readDone h
      left
      rcases resume_paced heq with ⟨hec, r, hr, hp⟩ | ⟨hec, hp⟩
      · obtain ⟨-, r', hr', ht, -⟩ := (resume_cases heq).resolve_right fun hn => hn.1 hec
        cases hr.symm.trans hr'
        exact ⟨_, c, p, ⟨_, ht, hp⟩, rfl, spare_advance s.conn r _, handles_withChunk hr _, _, _, rfl, rfl, rfl⟩
      · obtain ⟨-, ht⟩ := (resume_cases heq).resolve_left fun hn => hec hn.1
        exact ⟨s.conn, c, p, ⟨_, ht.toStretch, hp⟩, rfl, hb.spare, fun _ ha => ha, _, _, rfl, rfl, rfl⟩
  | drop i =>
      cases h
      refine .inr ⟨rfl, rfl, ?_, rfl, rfl⟩
      intro a ha
      rcases List.mem_append.mp ha with ha | ha
      · exact List.mem_append_left _ ha
      · obtain ⟨m, hm, ha⟩ := List.mem_flatMap.mp ha
        exact List.mem_append_right _ (List.mem_flatMap.mpr ⟨m, List.mem_of_mem_eraseIdx hm, ha⟩)
  | others state aborted =>
      cases h
      exact .inr ⟨rfl, rfl, fun _ ha => ha, rfl, rfl⟩
  | setFramer framer framerState =>
      simp only [step] at h
      split at h
      · cases h
        exact .inr ⟨rfl, rfl, fun _ ha => ha, rfl, rfl⟩
      · cases h

theorem Stretches.capped (h : Stretches s s' c₁ c p) (hb : Backed s) (hne : c₁.blockPool.maxLiveBlocks ≠ 0) :
    liveBlocks (c₁.handles ++ s.outside) ≤ c₁.blockPool.maxLiveBlocks := by
  rw [h.pool] at hne ⊢
  refine Nat.le_trans (liveBlocks_mono ?_) (hb.capped hne)
  exact List.append_subset.mpr
    ⟨fun a ha => List.mem_append_left _ (h.handles ha), fun a ha => List.mem_append_right _ ha⟩

theorem Stretches.backed (h : Stretches s s' c₁ c p) (hb : Backed s) : Backed s' := by
  obtain ⟨fresh, ht, hp⟩ := h.stretch
  obtain ⟨s₁, unparsed, rfl, hkept, -⟩ := h.eq
  have houtside : s₁.outside = s.outside := congrArg (List.flatMap Message.handles) hkept
  have hcapped := h.capped hb
  rw [← houtside] at hp hcapped
  exact settle_backed ht hp h.spare hcapped

theorem step_backed {e : SessionEvent σ} (hb : Backed s) (h : s.step e = some s') : Backed s' := by
  rcases step_stretches hb h with ⟨c₁, c, p, hs⟩ | ⟨hcurrent, hpool, hhandles, -, -⟩
  · exact hs.backed hb
  · refine ⟨fun r hr => ?_, fun hne => ?_⟩
    · have hspare := hb.spare r (hcurrent ▸ hr)
      unfold spent reuseThreshold at hspare ⊢
      rwa [hpool]
    · rw [hpool] at hne ⊢
      exact Nat.le_trans (liveBlocks_mono hhandles) (hb.capped hne)

theorem reachable_backed (h : (system σ).Reachable s) : Backed s := by
  apply h.invariant
  · rintro _ ⟨mem, state, framer, framerState, pool, rfl⟩
    exact create_backed ..
  · exact fun s e s' hb hst => step_backed hb hst

/-! ## The pool is exhausted -/

theorem Stretches.exhausted (h : Stretches s s' c₁ c p) (hb : Backed s)
    (hreply : s'.history.replies = s.history.replies ++ [.error .receiveError .resourceExhausted]) :
    s'.conn.currentBlock = none ∧ s'.conn.blockPool.maxLiveBlocks ≠ 0 ∧
      liveBlocks s'.handles = s'.conn.blockPool.maxLiveBlocks := by
  obtain ⟨fresh, ht, hp⟩ := h.stretch
  obtain ⟨s₁, unparsed, rfl, hkept, hreplies⟩ := h.eq
  have hresult : (p.result.map (Reply.ofResult s₁.mem)).toList = [.error .receiveError .resourceExhausted] := by
    replace hreply : (s₁.history.record s₁.mem unparsed p).replies = _ := hreply
    rw [History.record_replies, hreplies] at hreply
    exact List.append_cancel_left hreply
  have hfailed : ∃ e, p = .failed e ∧ Exhausted e := by
    cases p with
    | failed e =>
        have he : Reply.error e.event e.reason = .error .receiveError .resourceExhausted :=
          List.head_eq_of_cons_eq hresult
        cases e with
        | mk event reason _ =>
            cases he
            exact ⟨_, rfl, rfl, rfl⟩
    | incomplete n e =>
        have he : Reply.error e.event e.reason = .error .receiveError .resourceExhausted :=
          List.head_eq_of_cons_eq hresult
        refine absurd ?_ (hp.incomplete n e rfl)
        cases e with
        | mk event reason _ =>
            cases he
            exact ⟨rfl, rfl⟩
    | suspended _ => exact absurd hresult nofun
    | delivered _ _ | ended _ => exact absurd (List.head_eq_of_cons_eq hresult) nofun
  obtain ⟨e, rfl, he⟩ := hfailed
  obtain ⟨hread, hcurrent, hchain⟩ := hp.exhausted e rfl he
  obtain ⟨hnone, hne, hge⟩ : c₁.currentBlock = none ∧ c₁.blockPool.maxLiveBlocks ≠ 0 ∧
      c₁.blockPool.maxLiveBlocks ≤ liveBlocks (c₁.handles ++ s.outside) := by
    rcases h.spare.readBlock_cases s.outside fresh with ⟨r, -, hr⟩ | ⟨hnone, ⟨-, hne, hge⟩ | ⟨hr, -⟩⟩
    · rw [hread] at hr
      cases hr
    · exact ⟨hnone, hne, hge⟩
    · rw [hread] at hr
      cases hr
  have hhandles : (settle s₁ unparsed c (.failed e)).handles = c₁.handles ++ s.outside := by
    have houtside : s₁.outside = s.outside := congrArg (List.flatMap Message.handles) hkept
    rw [Session.handles, ← houtside]
    refine congrArg (· ++ s₁.outside) ?_
    simp [settle, TCPConnection.handles, hcurrent, hnone, hchain]
  have hpool : (settle s₁ unparsed c (.failed e)).conn.blockPool = c₁.blockPool := ht.pool
  rw [hhandles, hpool]
  exact ⟨hcurrent, hne, Nat.le_antisymm (h.capped hb hne) hge⟩

/-- With no Message kept and nothing in the chain, nothing but the current block is live. -/
theorem startRead_of_idle (hb : Backed s) (hkept : s.kept = []) (hsize : s.conn.receiveChain.size = 0)
    (fresh : Addr) : ∃ buffer, (s.conn.startRead s.outside fresh).2 = .ok buffer := by
  have hread : ∃ r, s.conn.readBlock s.outside fresh = some r := by
    rcases hb.spare.readBlock_cases s.outside fresh with ⟨r, -, hr⟩ | ⟨hnone, ⟨-, hne, hge⟩ | ⟨hr, -⟩⟩
    · exact ⟨r, hr⟩
    · have hlive : s.conn.handles ++ s.outside = [] := by
        simp [TCPConnection.handles, outside, hnone, hkept, BlockChain.handles_eq_nil hsize]
      rw [hlive] at hge
      exact absurd (Nat.eq_zero_of_le_zero hge) hne
    · exact ⟨_, hr⟩
  obtain ⟨r, hr⟩ := hread
  exact ⟨s.conn.bufferOf r, by simp only [startRead, hr]⟩

/-! ## The buffers of reads -/

theorem reachable_roomy (h : (system σ).Reachable s) {b : ReadBuffer} (hb : s.pending = some b) :
    s.conn.blockPool.blockSize / 4 ≤ b.len := by
  obtain ⟨r, hr, rfl⟩ := (reachable_inv h).pending b hb
  have hspare := (reachable_backed h).spare r hr
  rw [spent, decide_eq_false_iff_not] at hspare
  exact Nat.le_of_not_lt hspare

end Session

end Taps
