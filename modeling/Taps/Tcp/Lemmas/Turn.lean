import Taps.Tcp.Session

/-!
# What a stretch of a receive does

One description covers every way a stretch can end (`Turn`): which bytes leave the chain, what the
handles still cover, and where the block for the next read is.
-/

namespace Taps

/-- The bytes that a stretch which found `unparsed` in the chain took out of it. -/
def Progress.taken (mem : Memory) (unparsed : List Byte) : Progress → List Byte
  | .delivered d m => unparsed.take d.toNat ++ m.payload mem
  | .incomplete n _ => unparsed.take n
  | _ => []

namespace TCPConnection

variable {σ : Type} {mem : Memory} {outside : List Addr} {fresh : Addr} {c c' : TCPConnection σ}
  {p : Progress}

/-- The window of a block that has just been allocated. -/
def freshWindow (fresh : Addr) : BlockRef :=
  { block := fresh, beginOffset := 0, endOffset := 0, le := empty_window_le }

theorem spent_freshWindow (c : TCPConnection σ) (fresh : Addr) : c.spent (freshWindow fresh) = false := by
  have hcap : (freshWindow fresh).capacityAfterBegin c.blockPool.blockSize = c.blockPool.blockSize :=
    sizeSub_of_le (Nat.zero_le _)
  have hle : c.blockPool.blockSize / 4 ≤ c.blockPool.blockSize := Nat.div_le_self ..
  simpa [spent, reuseThreshold, hcap] using hle

/-- From `c`, a stretch left the connection as `c'` and ended in `p`: where the next read goes, and
that no handle to a byte appears that the chain did not have. -/
structure Stretch (fresh : Addr) (c c' : TCPConnection σ) (p : Progress) : Prop where
  pool : c'.blockPool = c.blockPool
  framer : c'.framer = c.framer
  current : c'.currentBlock = c.currentBlock ∨ c'.currentBlock = none ∨
    c'.currentBlock = some (freshWindow fresh)
  window : ∀ b, p = .suspended b → ∃ r, c'.currentBlock = some r ∧ b = c'.bufferOf r
  covers : ∀ blk off, c'.receiveChain.Covers blk off → c.receiveChain.Covers blk off
  message : ∀ d m, p = .delivered d m → ∀ blk off, m.Covers blk off → c.receiveChain.Covers blk off

/-- A stretch that takes what it takes from the front of the chain. -/
structure Turn (mem : Memory) (fresh : Addr) (c c' : TCPConnection σ) (p : Progress) : Prop extends
    Stretch fresh c c' p where
  bytes : c.receiveChain.bytes mem
    = p.taken mem (c.receiveChain.bytes mem) ++ c'.receiveChain.bytes mem
  ended : ∀ m, p = .ended m → m.payload mem = []
  incomplete : ∀ n e, p = .incomplete n e →
    n = c.receiveChain.size ∧ c'.receiveEnded = true ∧ e.event = .receiveError ∧
      e.reason = .deframingFailed

theorem payload_endMessage (mem : Memory) :
    (Message.ofChain (some .nil) true).payload mem = [] := by
  rw [Message.payload_of_chain rfl, BlockChain.bytes_nil]

theorem Turn.size_le (ht : Turn mem fresh c c' p) : c'.receiveChain.size ≤ c.receiveChain.size := by
  have h := congrArg List.length ht.bytes
  simp only [List.length_append, BlockChain.length_bytes] at h
  omega

theorem Turn.of_same (hpool : c'.blockPool = c.blockPool) (hframer : c'.framer = c.framer)
    (hcurrent : c'.currentBlock = c.currentBlock) (hchain : c'.receiveChain = c.receiveChain)
    (hp : (∃ e, p = .failed e) ∨ p = .ended (.ofChain (some .nil) true)) :
    Turn mem fresh c c' p := by
  refine
    { pool := hpool
      framer := hframer
      current := Or.inl hcurrent
      window := ?_
      bytes := ?_
      covers := by rw [hchain]; exact fun _ _ h => h
      message := ?_
      ended := ?_
      incomplete := ?_ }
  all_goals rcases hp with ⟨_, rfl⟩ | rfl <;> simp [Progress.taken, hchain, payload_endMessage]

/-! ## Failures -/

theorem receiveFailure_fst (c : TCPConnection σ) (e : TAPSError) :
    ∃ state ended, (c.receiveFailure e).1 = { c with state, receiveEnded := ended } := by
  unfold receiveFailure
  split
  · exact ⟨_, _, rfl⟩
  · split
    · exact ⟨_, _, rfl⟩
    · exact ⟨_, _, rfl⟩

theorem fail_turn (mem : Memory) (fresh : Addr) (c : TCPConnection σ) (e : TAPSError) :
    Turn mem fresh c (c.fail e).1 (c.fail e).2 := by
  obtain ⟨state, ended, h⟩ := receiveFailure_fst c e
  refine Turn.of_same ?_ ?_ ?_ ?_ (Or.inl ⟨_, rfl⟩) <;> simp [fail, h]

/-! ## Records -/

theorem bytes_afterDiscard (mem : Memory) (c : TCPConnection σ) (pr : ParseResult) :
    (c.afterDiscard pr).bytes mem = (c.receiveChain.bytes mem).drop pr.discardBefore.toNat := by
  unfold afterDiscard
  split
  · simp
  · rename_i h
    have h0 : pr.discardBefore.toNat = 0 := by simpa [UInt64.lt_iff_toNat_lt] using h
    rw [h0, List.drop_zero]

theorem covers_of_afterDiscard {pr : ParseResult} {blk : Addr} {off : Nat}
    (h : (c.afterDiscard pr).Covers blk off) : c.receiveChain.Covers blk off := by
  unfold afterDiscard at h
  split at h
  · exact BlockChain.covers_of_consumeFront h
  · exact h

/-- Gathering fills the cache of the Message, not its chain. -/
theorem recordMessage_chain (mem : Memory) (c : TCPConnection σ) (pr : ParseResult) :
    (c.recordMessage mem pr).chain = some ((c.afterDiscard pr).first pr.deliver.toNat) := by
  unfold recordMessage
  split
  · rw [Message.asBytes_chain]; rfl
  · rfl

theorem recordMessage_endOfMessage (mem : Memory) (c : TCPConnection σ) (pr : ParseResult) :
    (c.recordMessage mem pr).endOfMessage = pr.endOfMessage := by
  unfold recordMessage
  split
  · rw [Message.asBytes_endOfMessage]; rfl
  · rfl

theorem payload_recordMessage (mem : Memory) (c : TCPConnection σ) (pr : ParseResult) :
    (c.recordMessage mem pr).payload mem
      = ((c.receiveChain.bytes mem).drop pr.discardBefore.toNat).take pr.deliver.toNat := by
  rw [Message.payload_of_chain (recordMessage_chain mem c pr), BlockChain.bytes_first,
    bytes_afterDiscard]

theorem emitRecord_turn (mem : Memory) (c : TCPConnection σ) (pr : ParseResult) :
    Turn mem fresh c (c.emitRecord mem pr).1 (c.emitRecord mem pr).2 := by
  unfold emitRecord
  split
  · exact fail_turn mem fresh c _
  · refine
      { pool := rfl
        framer := rfl
        current := Or.inl rfl
        window := by simp
        covers := fun _ _ h => covers_of_afterDiscard (BlockChain.covers_of_consumeFront h)
        message := ?_
        bytes := ?_
        ended := by simp
        incomplete := by simp }
    · intro d m hp blk off hm
      cases hp
      obtain ⟨slice, hs, hcov⟩ := hm
      rw [recordMessage_chain] at hs
      cases hs
      exact covers_of_afterDiscard (BlockChain.covers_of_first hcov)
    · rw [Progress.taken, payload_recordMessage, BlockChain.bytes_consumeFront, bytes_afterDiscard,
        List.append_assoc, List.take_append_drop, List.take_append_drop]

theorem receiveFailure_deframing_snd {e : TAPSError} (hreason : e.reason = .deframingFailed) :
    (c.receiveFailure e).2 = e := by
  have hre : c.reclassify e = e := by simp [reclassify, hreason]
  unfold receiveFailure
  split
  · exact hre
  · split
    · exact hre
    · exact hre

theorem fail_takesEmit (mem : Memory) (c : TCPConnection σ) {pr : ParseResult} :
    TakesEmit mem c.receiveChain pr (c.fail (emitError pr)).1 (c.fail (emitError pr)).2 ↔
      pr.total = 0 ∨ c.receiveChain.size < pr.total := by
  obtain ⟨state, ended, hconn⟩ := c.receiveFailure_fst (emitError pr)
  unfold TakesEmit
  split
  · rename_i hout
    refine iff_of_true ⟨by simp [fail, hconn], _, rfl, ?_⟩ hout
    rw [receiveFailure_deframing_snd rfl]
    exact ⟨rfl, rfl⟩
  · rename_i hin
    refine iff_of_false ?_ hin
    rintro ⟨-, m, hm, -⟩
    cases hm

theorem accept_takesEmit (mem : Memory) (c : TCPConnection σ) {pr : ParseResult} :
    TakesEmit mem c.receiveChain pr
        { c with
          receiveChain := (c.afterDiscard pr).consumeFront pr.deliver.toNat
          messageOpen := !pr.endOfMessage }
        (.delivered pr.discardBefore (c.recordMessage mem pr)) ↔
      ¬ (pr.total = 0 ∨ c.receiveChain.size < pr.total) := by
  unfold TakesEmit
  split
  · rename_i hout
    refine iff_of_false ?_ (not_not.mpr hout)
    rintro ⟨-, err, herr, -⟩
    cases herr
  · rename_i hin
    refine iff_of_true ⟨?_, _, rfl, payload_recordMessage mem c pr⟩ hin
    rw [BlockChain.bytes_consumeFront, bytes_afterDiscard, List.drop_drop, ParseResult.total]

/-- The sum wraps unseen if and only if what is left of it is in the range of the chain. -/
theorem emitRecord_takesEmit (mem : Memory) (c : TCPConnection σ) (pr : ParseResult)
    (hsize : c.receiveChain.size < 2 ^ 64) :
    TakesEmit mem c.receiveChain pr (c.emitRecord mem pr).1 (c.emitRecord mem pr).2 ↔
      pr.total ≤ 2 ^ 64 ∨ 2 ^ 64 + c.receiveChain.size < pr.total := by
  have hconsumed : pr.consumed.toNat = pr.total % 2 ^ 64 := UInt64.toNat_add ..
  have hzero : pr.consumed = 0 ↔ pr.consumed.toNat = 0 := by
    rw [← UInt64.toNat_inj]
    rfl
  have hlt : pr.total < 2 ^ 65 := by
    have := pr.discardBefore.toNat_lt
    have := pr.deliver.toNat_lt
    unfold ParseResult.total
    omega
  unfold emitRecord
  split
  · rename_i hreject
    rw [fail_takesEmit]
    rw [hzero, hconsumed] at hreject
    omega
  · rename_i haccept
    rw [accept_takesEmit]
    rw [hzero, hconsumed] at haccept
    omega

/-! ## The end of the stream -/

/-- Once the peer's stream has ended, a `RECEIVE_ERROR` is the last result of a receive. -/
theorem receiveFailure_of_eof {e : TAPSError} (heof : c.receiveEof = true)
    (he : e.event = .receiveError) (hreason : e.reason ≠ .localAbort) :
    c.receiveFailure e = ({ c with receiveEnded := true }, e) := by
  have hre : c.reclassify e = e := by simp [reclassify, hreason]
  simp [receiveFailure, hre, he, heof]

theorem endOfStream_turn (c : TCPConnection σ) (heof : c.receiveEof = true) :
    Turn mem fresh c c.endOfStream.1 c.endOfStream.2 := by
  unfold endOfStream
  split
  · rw [receiveFailure_of_eof (c := c.discardUnparsed) heof rfl (by simp [incompleteError])]
    refine
      { pool := rfl
        framer := rfl
        current := Or.inl rfl
        window := by simp
        covers := fun _ _ h => BlockChain.covers_of_consumeFront h
        message := by simp
        bytes := by simp [Progress.taken, discardUnparsed]
        ended := by simp
        incomplete := ?_ }
    intro n e hp
    cases hp
    exact ⟨rfl, rfl, rfl, rfl⟩
  · exact Turn.of_same rfl rfl rfl rfl (Or.inr rfl)

/-! ## Reads -/

theorem acquire_eq {pool : MessageBlockPool} {live : Nat} {r : BlockRef}
    (h : pool.acquire live fresh = some r) : r = freshWindow fresh := by
  unfold MessageBlockPool.acquire at h
  split at h
  · cases h
  · cases h; rfl

theorem readBlock_cases (outside : List Addr) (fresh : Addr) (c : TCPConnection σ) :
    c.readBlock outside fresh = c.currentBlock ∨ c.readBlock outside fresh = none ∨
      c.readBlock outside fresh = some (freshWindow fresh) := by
  have hacquire : ∀ o, c.blockPool.acquire (liveBlocks (c.handles ++ outside)) fresh = o →
      o = none ∨ o = some (freshWindow fresh) := by
    intro o ho
    cases o with
    | none => exact Or.inl rfl
    | some r => exact Or.inr (congrArg some (acquire_eq ho))
  unfold readBlock
  split
  · rename_i r hr
    split
    · exact Or.inr (hacquire _ rfl)
    · exact Or.inl hr.symm
  · exact Or.inr (hacquire _ rfl)

theorem issueRead_of_some {r : BlockRef} (h : c.readBlock outside fresh = some r) :
    c.issueRead outside fresh = ({ c with currentBlock := some r }, .suspended (c.bufferOf r)) := by
  simp only [issueRead, startRead, h]

theorem issueRead_of_none (h : c.readBlock outside fresh = none) :
    c.issueRead outside fresh = fail { c with currentBlock := none }
      ⟨.receiveError, .resourceExhausted, .text "receive block pool exhausted"⟩ := by
  simp only [issueRead, startRead, h]

theorem issueRead_turn (outside : List Addr) (c : TCPConnection σ) :
    Turn mem fresh c (c.issueRead outside fresh).1 (c.issueRead outside fresh).2 := by
  have hcases := readBlock_cases outside fresh c
  cases hr : c.readBlock outside fresh with
  | some r =>
      rw [issueRead_of_some hr]
      rw [hr] at hcases
      exact
        { pool := rfl
          framer := rfl
          current := hcases
          window := fun b hb => by cases hb; exact ⟨r, rfl, rfl⟩
          bytes := rfl
          covers := fun _ _ h => h
          message := by simp
          ended := by simp
          incomplete := by simp }
  | none =>
      rw [issueRead_of_none hr]
      have ht := fail_turn mem fresh { c with currentBlock := none }
        ⟨.receiveError, .resourceExhausted, .text "receive block pool exhausted"⟩
      refine { ht with current := ?_ }
      rcases ht.current with h | h
      · exact Or.inr (Or.inl h)
      · exact Or.inr h

/-! ## Whole stretches -/

theorem Turn.of_framerState {framerState : σ} (h : Turn mem fresh { c with framerState } c' p) :
    Turn mem fresh c c' p := { h with }

theorem Turn.of_receiveEof {eof : Bool} (h : Turn mem fresh { c with receiveEof := eof } c' p) :
    Turn mem fresh c c' p := { h with }

theorem act_turn (mem : Memory) (outside : List Addr) (c : TCPConnection σ) (pr : ParseResult) :
    Turn mem fresh c (c.act mem outside fresh pr).1 (c.act mem outside fresh pr).2 := by
  unfold act
  split
  · exact emitRecord_turn mem c pr
  · split
    · rename_i heof
      exact endOfStream_turn c heof
    · exact issueRead_turn outside c

theorem framedTurn_turn (f : MessageFramer σ) (mem : Memory) (outside : List Addr) (fresh : Addr)
    (c : TCPConnection σ) :
    Turn mem fresh c (c.framedTurn f mem outside fresh).1 (c.framedTurn f mem outside fresh).2 :=
  (act_turn mem outside { c with framerState := _ } _).of_framerState

theorem receive_of_ended (h : c.receiveEnded = true) :
    ∃ e, c.receive mem outside fresh = (c, .failed e) := by
  simp [receive, receiveRefused, canReceive, h]

theorem receive_turn (mem : Memory) (outside : List Addr) (fresh : Addr) (c : TCPConnection σ) :
    Turn mem fresh c (c.receive mem outside fresh).1 (c.receive mem outside fresh).2 := by
  unfold receive
  split
  · exact Turn.of_same rfl rfl rfl rfl (Or.inl ⟨_, rfl⟩)
  · split
    · exact framedTurn_turn ..
    · exact issueRead_turn outside c

/-- The window that a read of `n` bytes into the block `r` has filled. -/
def chunk (r : BlockRef) (n : Nat) : BlockRef :=
  r.setRange r.beginOffset (r.beginOffset + n) (Nat.le_add_right ..)

/-- The connection once that window is at the end of its chain. -/
def withChunk (c : TCPConnection σ) (r : BlockRef) (n : Nat) : TCPConnection σ :=
  { c with currentBlock := c.advance r n, receiveChain := c.receiveChain.append (chunk r n) }

/-- An unframed chunk is a Message of its own. Where nothing is left unparsed, or the chunk is empty, this is the
same as taking it from the front of the chain. -/
theorem unframedChunk_stretch (r : BlockRef) (n : Nat) :
    Stretch fresh (c.withChunk r n) { c with currentBlock := c.advance r n }
      (.delivered 0 (.ofChain (some (BlockChain.nil.append (chunk r n))) false)) := by
  refine
    { pool := rfl
      framer := rfl
      current := Or.inl rfl
      window := by simp
      covers := fun _ _ h => BlockChain.covers_append.mpr (Or.inl h)
      message := ?_ }
  intro d m hp blk off hm
  cases hp
  obtain ⟨slice, hs, hcov⟩ := hm
  cases hs
  exact BlockChain.covers_append.mpr
    (Or.inr ((BlockChain.covers_append.mp hcov).resolve_left BlockChain.not_covers_nil))

theorem unframedChunk_turn {n : Nat} (h : c.receiveChain.size = 0 ∨ n = 0) (r : BlockRef) :
    Turn mem fresh (c.withChunk r n) { c with currentBlock := c.advance r n }
      (.delivered 0 (.ofChain (some (BlockChain.nil.append (chunk r n))) false)) := by
  refine { unframedChunk_stretch r n with bytes := ?_, ended := by simp, incomplete := by simp }
  have hm : (Message.ofChain (some (BlockChain.nil.append (chunk r n))) false).payload mem
      = (chunk r n).bytes mem := by
    rw [Message.payload_of_chain rfl, BlockChain.bytes_append, BlockChain.bytes_nil, List.nil_append]
  rcases h with hsize | rfl
  · simp [Progress.taken, withChunk, BlockChain.bytes_eq_nil hsize, hm]
  · have hempty : (chunk r 0).bytes mem = [] := by simp [chunk, BlockRef.bytes, BlockRef.size, BlockRef.setRange]
    simp [Progress.taken, withChunk, hm, hempty]

/-- From the completion of a read on: its bytes become the end of the chain, or the read has failed
and the chain is as it was. -/
theorem resume_cases {ec : Option ErrorCode} {n : Nat}
    (h : c.resume mem outside fresh ec n = some (c', p)) :
    (ec = none ∧ ∃ r, c.currentBlock = some r ∧ Stretch fresh (c.withChunk r n) c' p ∧
      (c.framer ≠ none ∨ c.receiveChain.size = 0 ∨ n = 0 → Turn mem fresh (c.withChunk r n) c' p) ∧
      (c.framer = none → c'.receiveChain = c.receiveChain)) ∨
    (ec ≠ none ∧ Turn mem fresh c c' p) := by
  unfold resume finishRead at h
  split at h
  · -- the peer has ended its side
    right
    refine ⟨by simp, ?_⟩
    cases hf : c.framer with
    | none =>
        simp only [hf, Option.map_some, Option.some.injEq, unframedChunk, Prod.mk.injEq] at h
        obtain ⟨rfl, rfl⟩ := h
        exact Turn.of_same rfl hf.symm rfl rfl (Or.inr rfl)
    | some f =>
        simp only [hf, Option.map_some, Option.some.injEq, framedChunk] at h
        have ht := framedTurn_turn f mem outside fresh { c with receiveEof := true }
        rw [hf, h] at ht
        exact Turn.of_receiveEof { ht with framer := ht.framer.trans hf.symm }
  · rename_i code _
    right
    refine ⟨by simp, ?_⟩
    split at h
    · simp only [Option.map_some, Option.some.injEq] at h
      have ht := fail_turn mem fresh { c with receiveEof := true }
        (readFailure code)
      rw [h] at ht
      exact ht.of_receiveEof
    · simp only [Option.map_some, Option.some.injEq] at h
      have ht := fail_turn mem fresh c (readFailure code)
      rw [h] at ht
      exact ht
  · left
    cases hr : c.currentBlock with
    | none => simp [hr] at h
    | some r =>
        refine ⟨rfl, r, rfl, ?_⟩
        cases hf : c.framer with
        | none =>
            simp only [hr, hf, Option.map_some, Option.some.injEq, unframedChunk, Prod.mk.injEq] at h
            obtain ⟨rfl, rfl⟩ := h
            rw [← hf]
            exact ⟨unframedChunk_stretch r n, fun h => unframedChunk_turn (h.resolve_left (not_not.mpr rfl)) r,
              fun _ => rfl⟩
        | some f =>
            simp only [hr, hf, Option.map_some, Option.some.injEq, framedChunk] at h
            have ht := framedTurn_turn f mem outside fresh (c.withChunk r n)
            have heq : (c.withChunk r n).framedTurn f mem outside fresh = (c', p) := by
              simpa only [withChunk, chunk, hf] using h
            rw [heq] at ht
            exact ⟨ht.toStretch, fun _ => ht, by simp⟩

end TCPConnection

end Taps
