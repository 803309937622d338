import Taps.Framer.Lemmas.Cursor
import Taps.Tcp.Lemmas.Scan
import Taps.Tcp.Lemmas.Stream

/-!
# The receive loop with the length-prefixed framer

One stretch of the loop is one turn over the unparsed bytes, whatever blocks they are in.
-/

namespace Taps

variable {native : Endian} {f : LengthPrefixedFramer} {mem mem' : Memory} {outside : List Addr}
  {fresh : Addr} {u : List Byte} {eof o : Bool}

/-! ## Parsing -/

theorem LengthPrefixedFramer.decodeLength_eq (h : f.lengthFieldSize ≤ u.length) :
    decodeLength native (u.take f.lengthFieldSize) f.lengthFieldSize f.byteOrder
      = UInt64.ofNat (f.headerLength u) := by
  have hlen : (u.take f.lengthFieldSize).length = f.lengthFieldSize := by
    rw [List.length_take]
    omega
  refine UInt64.toNat.inj ?_
  rw [toNat_decodeLength hlen f.le, UInt64.toNat_ofNat', Nat.mod_eq_of_lt (f.headerLength_lt u)]
  rfl

theorem LengthPrefixedFramer.toNat_total (f : LengthPrefixedFramer) (u : List Byte) :
    (UInt64.ofNat f.lengthFieldSize + UInt64.ofNat (f.headerLength u)).toNat = f.total u := by
  simp only [UInt64.toNat_add, UInt64.toNat_ofNat', total]
  omega

/-- `parse()` sees the bytes of the chain, not its blocks. -/
theorem LengthPrefixedFramer.parse_eq {cursor : ReceiveCursor}
    (h : cursor.chain.bytes cursor.mem = u) (eof : Bool) :
    f.parse native cursor eof =
      if u.length < f.lengthFieldSize then .needMore (UInt64.ofNat f.lengthFieldSize)
      else if u.length < f.total u then
        if eof ∧ u.length > f.lengthFieldSize then
          .emit (UInt64.ofNat (u.length - f.lengthFieldSize)) false (UInt64.ofNat f.lengthFieldSize)
        else .needMore (UInt64.ofNat f.lengthFieldSize + UInt64.ofNat (f.headerLength u))
      else .emit (UInt64.ofNat (f.headerLength u)) true (UInt64.ofNat f.lengthFieldSize) := by
  have hsize : cursor.size = u.length := by
    rw [← h, BlockChain.length_bytes, ReceiveCursor.size]
  unfold parse
  rw [hsize]
  by_cases hw : u.length < f.lengthFieldSize
  · rw [if_pos hw, if_pos hw]
  · rw [if_neg hw, if_neg hw, ReceiveCursor.copyOut_eq, List.drop_zero, h,
      decodeLength_eq (by omega)]
    simp only [toNat_total]

/-! ## Connections -/

namespace TCPConnection

variable {c c' : TCPConnection Unit} {p : Progress}

/-- A connection that can receive, with an uncapped pool of large enough blocks, in the given state of
its receive path. -/
structure Holds (native : Endian) (f : LengthPrefixedFramer) (mem : Memory) (c : TCPConnection Unit)
    (u : List Byte) (eof messageOpen ended : Bool) : Prop where
  state : c.state = .established
  framer : c.framer = some (f.toFramer native)
  uncapped : c.blockPool.maxLiveBlocks = 0
  large : 4 ≤ c.blockPool.blockSize
  bytes : c.receiveChain.bytes mem = u
  eof : c.receiveEof = eof
  messageOpen : c.messageOpen = messageOpen
  ended : c.receiveEnded = ended

/-- A stretch has the outcome of a turn. -/
def Answers (native : Endian) (f : LengthPrefixedFramer) (mem : Memory) (u : List Byte)
    (eof messageOpen : Bool) (c : TCPConnection Unit) (p : Progress) :
    LengthPrefixedFramer.Outcome → Prop
  | .wait => (∃ b, p = .suspended b ∧ 0 < b.len) ∧ c.Holds native f mem u eof messageOpen false
  | .reply r v o e => p.result.map (Reply.ofResult mem) = some r ∧ c.Holds native f mem v eof o e

theorem issueRead_uncapped (huncapped : c.blockPool.maxLiveBlocks = 0)
    (hlarge : 4 ≤ c.blockPool.blockSize) (outside : List Addr) (fresh : Addr) :
    ∃ r, c.issueRead outside fresh
        = ({ c with currentBlock := some r }, .suspended (c.bufferOf r)) ∧
      0 < (c.bufferOf r).len := by
  have hacquire : ∀ live, c.blockPool.acquire live fresh = some (freshWindow fresh) := by
    intro live
    simp [MessageBlockPool.acquire, huncapped, freshWindow]
  have hfresh : 0 < (c.bufferOf (freshWindow fresh)).len := by
    have hcap : (c.bufferOf (freshWindow fresh)).len = c.blockPool.blockSize :=
      sizeSub_of_le (Nat.zero_le _)
    omega
  cases hcur : c.currentBlock with
  | none => exact ⟨_, issueRead_of_some (by rw [readBlock, hcur]; exact hacquire _), hfresh⟩
  | some r =>
      by_cases hspent : c.spent r = true
      · refine ⟨_, issueRead_of_some ?_, hfresh⟩
        simp only [readBlock, hcur, hspent, if_true, hacquire]
      · refine ⟨r, issueRead_of_some ?_, ?_⟩
        · simp only [readBlock, hcur, hspent, Bool.false_eq_true, if_false]
        · have hroom : c.reuseThreshold ≤ r.capacityAfterBegin c.blockPool.blockSize := by
            simpa [spent] using hspent
          unfold reuseThreshold at hroom
          exact Nat.lt_of_lt_of_le (by omega) hroom

/-- A `DEFRAMING_FAILED` ends the receives once the peer's stream has ended. -/
theorem receiveFailure_deframing {e : TAPSError} (hevent : e.event = .receiveError)
    (hreason : e.reason = .deframingFailed) (hended : c.receiveEnded = false) :
    c.receiveFailure e = ({ c with receiveEnded := c.receiveEof }, e) := by
  have hre : c.reclassify e = e := by simp [reclassify, hreason]
  cases hc : c.receiveEof with
  | true => simp [receiveFailure, hre, hevent, hc]
  | false =>
      obtain ⟨⟩ := c
      simp_all [receiveFailure]

theorem needMore_answers (h : c.Holds native f mem u eof o false) (hint : UInt64) :
    Answers native f mem u eof o (c.act mem outside fresh (.needMore hint)).1
      (c.act mem outside fresh (.needMore hint)).2 (LengthPrefixedFramer.needMore u eof o) := by
  have hsize : c.receiveChain.size = u.length := by rw [← h.bytes, BlockChain.length_bytes]
  simp only [act, ParseResult.needMore, LengthPrefixedFramer.needMore, h.eof]
  cases eof with
  | false =>
      obtain ⟨r, heq, hlen⟩ := issueRead_uncapped h.uncapped h.large outside fresh
      simp only [Bool.false_eq_true, if_false, heq]
      exact ⟨⟨_, rfl, hlen⟩, { h with }⟩
  | true =>
      have hne : c.receiveChain.size > 0 ↔ u ≠ [] := by
        rw [hsize, gt_iff_lt, List.length_pos_iff]
      simp only [if_true, endOfStream, h.messageOpen, hne]
      split
      · have herr := receiveFailure_deframing (c := c.discardUnparsed) (e := c.incompleteError)
          rfl rfl h.ended
        rw [herr]
        refine ⟨rfl, { h with bytes := ?_, messageOpen := rfl, ended := h.eof }⟩
        simp [discardUnparsed]
      · rename_i hopen
        rw [not_or, not_not] at hopen
        obtain ⟨hopen, rfl⟩ := hopen
        refine ⟨?_, { h with messageOpen := ?_, ended := rfl }⟩
        · rw [Progress.result, Option.map_some, Reply.ofResult, payload_endMessage]
          rfl
        · simpa using hopen

theorem emit_answers (h : c.Holds native f mem u eof o false) (outside : List Addr) (fresh : Addr)
    (eom : Bool) {deliver discard : UInt64}
    (hpos : (discard + deliver).toNat ≠ 0) (hle : (discard + deliver).toNat ≤ u.length) :
    Answers native f mem u eof o (c.act mem outside fresh (.emit deliver eom discard)).1
      (c.act mem outside fresh (.emit deliver eom discard)).2
      (.reply (.message ((u.drop discard.toNat).take deliver.toNat) eom)
        (u.drop (discard.toNat + deliver.toNat)) (!eom) false) := by
  have hsize : c.receiveChain.size = u.length := by rw [← h.bytes, BlockChain.length_bytes]
  have haccept : ¬ ((ParseResult.emit deliver eom discard).consumed = 0 ∨
      (ParseResult.emit deliver eom discard).consumed.toNat > c.receiveChain.size) := by
    rw [hsize, not_or]
    refine ⟨fun h0 => hpos ?_, Nat.not_lt.mpr hle⟩
    exact congrArg UInt64.toNat h0
  have hact : c.act mem outside fresh (.emit deliver eom discard)
      = c.emitRecord mem (.emit deliver eom discard) := rfl
  rw [hact, emitRecord, if_neg haccept]
  refine ⟨?_, { h with bytes := ?_, messageOpen := rfl }⟩
  · simp only [Progress.result, Option.map_some, Reply.ofResult, payload_recordMessage,
      recordMessage_endOfMessage, h.bytes, ParseResult.emit]
  · rw [BlockChain.bytes_consumeFront, bytes_afterDiscard, h.bytes, List.drop_drop]
    rfl

/-- An `Emit` whose size wraps to nothing is rejected, and nothing else happens. -/
theorem emit_answers_zero (h : c.Holds native f mem u eof o false) {deliver discard : UInt64}
    {eom : Bool} (h0 : (discard + deliver).toNat = 0) :
    Answers native f mem u eof o (c.act mem outside fresh (.emit deliver eom discard)).1
      (c.act mem outside fresh (.emit deliver eom discard)).2
      (.reply (.error .receiveError .deframingFailed) u o eof) := by
  have hreject : (ParseResult.emit deliver eom discard).consumed = 0 ∨
      (ParseResult.emit deliver eom discard).consumed.toNat > c.receiveChain.size :=
    Or.inl (UInt64.toNat.inj h0)
  have hact : c.act mem outside fresh (.emit deliver eom discard)
      = c.emitRecord mem (.emit deliver eom discard) := rfl
  rw [hact, emitRecord, if_pos hreject, fail, receiveFailure_deframing rfl rfl h.ended]
  exact ⟨rfl, { h with ended := h.eof }⟩

theorem framedTurn_answers (h : c.Holds native f mem u eof o false) :
    Answers native f mem u eof o (c.framedTurn (f.toFramer native) mem outside fresh).1
      (c.framedTurn (f.toFramer native) mem outside fresh).2 (f.turn u eof o) := by
  have hw : (UInt64.ofNat f.lengthFieldSize).toNat = f.lengthFieldSize := by
    have := f.le
    rw [UInt64.toNat_ofNat', Nat.mod_eq_of_lt (by omega)]
  have hL : (UInt64.ofNat (f.headerLength u)).toNat = f.headerLength u := by
    rw [UInt64.toNat_ofNat', Nat.mod_eq_of_lt (f.headerLength_lt u)]
  have hturn : c.framedTurn (f.toFramer native) mem outside fresh
      = c.act mem outside fresh (f.parse native ⟨mem, c.receiveChain⟩ c.receiveEof) := rfl
  rw [hturn, f.parse_eq h.bytes, h.eof]
  unfold LengthPrefixedFramer.turn
  split
  · exact needMore_answers h _
  · rename_i hlen
    split
    · rename_i htotal
      split
      · have hsum : (UInt64.ofNat f.lengthFieldSize
            + UInt64.ofNat (u.length - f.lengthFieldSize)).toNat = u.length := by
          have : f.total u < 2 ^ 64 := Nat.mod_lt _ (by decide)
          rw [UInt64.toNat_add, hw, UInt64.toNat_ofNat']
          omega
        have hrest : (UInt64.ofNat (u.length - f.lengthFieldSize)).toNat
            = u.length - f.lengthFieldSize := by
          have : f.total u < 2 ^ 64 := Nat.mod_lt _ (by decide)
          rw [UInt64.toNat_ofNat', Nat.mod_eq_of_lt (by omega)]
        have hans := emit_answers h outside fresh false (by rw [hsum]; have := f.pos; omega) (by rw [hsum])
        rw [hw, hrest, List.take_of_length_le (by rw [List.length_drop]),
          Nat.add_sub_cancel' (by omega), List.drop_length] at hans
        exact hans
      · exact needMore_answers h _
    · rename_i htotal
      split
      · rename_i h0
        exact emit_answers_zero h (by rw [f.toNat_total, h0])
      · rename_i h0
        have hans := emit_answers h outside fresh true (by rw [f.toNat_total]; exact h0) (by rw [f.toNat_total]; omega)
        rw [hw, hL] at hans
        exact hans

/-! ## Stretches -/

theorem receive_framed (h : c.Holds native f mem u eof o false) :
    c.receive mem outside fresh = c.framedTurn (f.toFramer native) mem outside fresh := by
  simp [receive, receiveRefused, canReceive, h.state, h.ended, h.framer]

theorem resume_data {r : BlockRef} (h : c.Holds native f mem' u eof o false)
    (hr : c.currentBlock = some r) (n : Nat) :
    c.resume mem outside fresh none n
      = some ((c.withChunk r n).framedTurn (f.toFramer native) mem outside fresh) := by
  simp [resume, finishRead, hr, h.framer, framedChunk, withChunk, chunk]

theorem resume_eof (h : c.Holds native f mem' u eof o false) (n : Nat) :
    c.resume mem outside fresh (some .eof) n
      = some ({ c with receiveEof := true }.framedTurn (f.toFramer native) mem outside fresh) := by
  simp [resume, finishRead, h.framer, framedChunk]

end TCPConnection

end Taps
