import Taps.Tcp.Deframing
import Taps.Tcp.Lemmas.Framed
import Taps.Tcp.Lemmas.Stream

/-!
# Receives that follow a rule

One turn of the receive loop does what the rule says of the unparsed bytes (`Obeys`). What the results
have said of the stream so far, and what the rule still has to say of the rest, is then at every step what
it says of the whole stream (`Deframes`).
-/

namespace Taps

open Lib (Deframer Item)

variable {σ : Type} {mem : Memory} {outside : List Addr} {fresh : Addr} {d : Deframer Byte}
  {f : MessageFramer σ} {u : List Byte}

/-! ## The framers of the library -/

theorem LengthPrefixedFramer.follows (native : Endian) {f : LengthPrefixedFramer} (h : f.lengthFieldSize < 8) :
    (f.toFramer native).Follows f.deframer := by
  intro _ cursor atEof hsize
  have hlen : (cursor.chain.bytes cursor.mem).length < 2 ^ 64 := by
    rw [BlockChain.length_bytes]
    exact hsize
  have hheader : f.headerLength (cursor.chain.bytes cursor.mem) < 256 ^ f.lengthFieldSize := by
    refine Nat.lt_of_lt_of_le (fieldValue_lt f.byteOrder _) (Nat.pow_le_pow_right (by decide) ?_)
    exact List.length_take_le ..
  have hpow : 256 ^ f.lengthFieldSize ≤ 256 ^ 7 := Nat.pow_le_pow_right (by decide) (by omega)
  have hfit : f.total (cursor.chain.bytes cursor.mem)
      = f.lengthFieldSize + f.headerLength (cursor.chain.bytes cursor.mem) := total_of_fits (by omega)
  show (f.parse native cursor atEof).verdict = _
  rw [f.parse_eq rfl, hfit]
  simp only [deframer]
  generalize cursor.chain.bytes cursor.mem = u at hlen hheader ⊢
  split
  · rfl
  · split
    · split
      · simp only [ParseResult.verdict, ParseResult.emit, UInt64.toNat_ofNat']
        rw [Nat.mod_eq_of_lt (by omega), Nat.mod_eq_of_lt (by omega)]
      · rfl
    · simp only [ParseResult.verdict, ParseResult.emit, UInt64.toNat_ofNat']
      rw [Nat.mod_eq_of_lt (by omega), Nat.mod_eq_of_lt (by omega)]

theorem PassthroughFramer.follows (f : PassthroughFramer) : f.toFramer.Follows deframer := by
  intro _ cursor atEof hsize
  have hlen : (cursor.chain.bytes cursor.mem).length = cursor.size := BlockChain.length_bytes ..
  show (f.parse cursor atEof).verdict = _
  simp only [parse, deframer, ← List.length_eq_zero_iff, hlen, Bool.not_eq_true]
  split
  · rfl
  · simp only [ParseResult.verdict, ParseResult.emit, UInt64.toNat_ofNat', Nat.mod_eq_of_lt hsize]
    rfl

/-! ## Turns -/

namespace TCPConnection

variable {c c' : TCPConnection σ} {p : Progress} {reply : Option Reply}

/-- How a turn that found `u` in the chain ended, where the rule says `verdict` of it; `reply` is the result that
it returned. -/
def Obeys (mem : Memory) (u : List Byte) (c c' : TCPConnection σ) (reply : Option Reply) : Lib.Verdict → Prop
  | .record skip take closed =>
      c'.receiveChain.bytes mem = u.drop (skip + take) ∧ c'.messageOpen = !closed ∧
        c'.receiveEof = c.receiveEof ∧ c'.receiveEnded = c.receiveEnded ∧
        reply = some (.message ((u.drop skip).take take) closed)
  | .more =>
      if c.receiveEof then
        c'.receiveEnded = true ∧ c'.receiveEof = true ∧
          reply = some (if c.messageOpen ∨ u ≠ [] then .error .receiveError .deframingFailed else .message [] true)
      else
        c'.receiveChain.bytes mem = u ∧ c'.messageOpen = c.messageOpen ∧ c'.receiveEof = false ∧
          c'.receiveEnded = c.receiveEnded ∧ ∀ r ∈ reply, r.ofStream = false

theorem emitRecord_obeys (hu : c.receiveChain.bytes mem = u) {pr : ParseResult}
    (hemit : pr.action = .emit) (hpos : 0 < pr.total) (hle : pr.total ≤ u.length) (hlen : u.length < 2 ^ 64) :
    Obeys mem u c (c.emitRecord mem pr).1 ((c.emitRecord mem pr).2.result.map (Reply.ofResult mem)) pr.verdict := by
  have hsize : c.receiveChain.size = u.length := by rw [← hu, BlockChain.length_bytes]
  have hconsumed : pr.consumed.toNat = pr.total := by
    rw [ParseResult.consumed, UInt64.toNat_add, ← ParseResult.total, Nat.mod_eq_of_lt (by omega)]
  have haccept : ¬ (pr.consumed = 0 ∨ pr.consumed.toNat > c.receiveChain.size) := by
    rw [not_or, hconsumed, hsize, ← UInt64.toNat_inj, hconsumed]
    exact ⟨Nat.ne_of_gt hpos, by omega⟩
  have hrecord : pr.verdict = .record pr.discardBefore.toNat pr.deliver.toNat pr.endOfMessage := by
    rw [ParseResult.verdict, hemit]
  rw [emitRecord, if_neg haccept, hrecord]
  refine ⟨?_, rfl, rfl, rfl, ?_⟩
  · rw [BlockChain.bytes_consumeFront, bytes_afterDiscard, hu, List.drop_drop]
  · simp [Progress.result, Reply.ofResult, payload_recordMessage, recordMessage_endOfMessage, hu]

theorem endOfStream_obeys (hu : c.receiveChain.bytes mem = u) (heof : c.receiveEof = true) :
    Obeys mem u c c.endOfStream.1 (c.endOfStream.2.result.map (Reply.ofResult mem)) .more := by
  have hsize : c.receiveChain.size > 0 ↔ u ≠ [] := by
    rw [← hu, gt_iff_lt, ← BlockChain.length_bytes mem, List.length_pos_iff]
  simp only [Obeys, heof, if_true]
  simp only [endOfStream, hsize]
  by_cases hrest : c.messageOpen = true ∨ u ≠ []
  · rw [if_pos hrest, if_pos hrest,
      receiveFailure_of_eof (c := c.discardUnparsed) heof rfl (by simp [incompleteError])]
    exact ⟨rfl, heof, rfl⟩
  · rw [if_neg hrest, if_neg hrest]
    refine ⟨rfl, heof, ?_⟩
    simp only [Progress.result, Option.map_some, Reply.ofResult, payload_endMessage]
    rfl

theorem issueRead_obeys (hu : c.receiveChain.bytes mem = u) (heof : c.receiveEof = false)
    (hended : c.receiveEnded = false) :
    Obeys mem u c (c.issueRead outside fresh).1
      ((c.issueRead outside fresh).2.result.map (Reply.ofResult mem)) .more := by
  simp only [Obeys, heof, Bool.false_eq_true, if_false]
  cases hr : c.readBlock outside fresh with
  | some r =>
      rw [issueRead_of_some hr]
      exact ⟨hu, rfl, heof, rfl, by simp [Progress.result]⟩
  | none =>
      rw [issueRead_of_none hr]
      refine ⟨?_, ?_, ?_, ?_, ?_⟩
      all_goals simp [fail, receiveFailure, reclassify, Progress.result, Reply.ofResult, Reply.ofStream,
        hu, heof, hended]

theorem act_obeys (outside : List Addr) (fresh : Addr) (hu : c.receiveChain.bytes mem = u) (hlen : u.length < 2 ^ 64)
    (hended : c.receiveEnded = false) {pr : ParseResult} (hpr : pr.verdict = d.decide u c.receiveEof) :
    Obeys mem u c (c.act mem outside fresh pr).1
      ((c.act mem outside fresh pr).2.result.map (Reply.ofResult mem)) pr.verdict := by
  cases haction : pr.action with
  | emit =>
      have hrecord : d.decide u c.receiveEof
          = .record pr.discardBefore.toNat pr.deliver.toNat pr.endOfMessage := by
        rw [← hpr, ParseResult.verdict, haction]
      obtain ⟨hpos, hle⟩ := d.fits hrecord
      simp only [act, haction]
      exact emitRecord_obeys hu haction hpos hle hlen
  | needMore =>
      have hmore : pr.verdict = .more := by rw [ParseResult.verdict, haction]
      rw [hmore]
      cases heof : c.receiveEof with
      | true =>
          simp only [act, haction, heof, if_true]
          exact endOfStream_obeys hu heof
      | false =>
          simp only [act, haction, heof, Bool.false_eq_true, if_false]
          exact issueRead_obeys hu heof hended

theorem framedTurn_obeys (outside : List Addr) (fresh : Addr) (hf : f.Follows d)
    (hu : c.receiveChain.bytes mem = u) (hlen : u.length < 2 ^ 64) (hended : c.receiveEnded = false) :
    Obeys mem u c (c.framedTurn f mem outside fresh).1
      ((c.framedTurn f mem outside fresh).2.result.map (Reply.ofResult mem)) (d.decide u c.receiveEof) := by
  have hsize : c.receiveChain.size = u.length := by rw [← hu, BlockChain.length_bytes]
  have hverdict := hf c.framerState ⟨mem, c.receiveChain⟩ c.receiveEof
    (by rw [ReceiveCursor.size, hsize]; exact hlen)
  simp only [hu] at hverdict
  have h := act_obeys outside fresh
    (c := { c with framerState := (f.parse c.framerState ⟨mem, c.receiveChain⟩ c.receiveEof).2 })
    hu hlen hended hverdict
  rw [hverdict] at h
  exact h

/-! ## Reads that fail -/

theorem fail_of_not_eof (heof : c.receiveEof = false) (e : TAPSError) :
    ∃ state, c.fail e = ({ c with state }, .failed (c.reclassify e)) := by
  unfold fail receiveFailure
  split
  · exact ⟨.closed, rfl⟩
  · rw [if_neg (by simp [heof])]
    exact ⟨c.state, rfl⟩

/-- The end of a read that `close()` cancelled is an error of its own. -/
theorem reclassify_cases (c : TCPConnection σ) (e : TAPSError) :
    c.reclassify e = e ∨ c.reclassify e = ⟨.receiveError, .invalidState, .text "Connection closed locally"⟩ := by
  unfold reclassify
  split
  · exact .inr rfl
  · exact .inl rfl

theorem resume_truncated (n : Nat) :
    c.resume mem outside fresh (some .streamTruncated) n
      = some ({ c with receiveEof := true, receiveEnded := true }, .failed (readFailure .streamTruncated)) := by
  simp [resume, finishRead, readFailure, fail, receiveFailure, reclassify]

/-- A read that fails for any other reason fails with an error of the connection. -/
theorem resume_connectionError (mem : Memory) (outside : List Addr) (fresh : Addr) {ec : ErrorCode} (hec : ec ≠ .eof)
    (htr : ec ≠ .streamTruncated) (c : TCPConnection σ) (n : Nat) :
    c.resume mem outside fresh (some ec) n = some (c.fail (ioError .connectionError ec)) := by
  have hfailure : readFailure ec = ioError .connectionError ec := by
    cases ec <;> first | rfl | exact absurd rfl htr
  rw [resume, finishRead.eq_def]
  split
  · rename_i heq
    cases heq
    exact absurd rfl hec
  · rename_i heq
    cases heq
    simp [hfailure, ioError]
  · rename_i heq
    cases heq

/-- Such a read leaves the stream as it is. -/
theorem resume_failed (mem : Memory) (outside : List Addr) (fresh : Addr) {ec : ErrorCode} (hec : ec ≠ .eof)
    (htr : ec ≠ .streamTruncated) (heof : c.receiveEof = false) (n : Nat) :
    ∃ state error, c.resume mem outside fresh (some ec) n = some ({ c with state }, .failed error) ∧
      (Reply.ofResult mem (.error error)).ofStream = false := by
  have hreason : reasonFrom ec ≠ .deframingFailed := by cases ec <;> simp [reasonFrom]
  obtain ⟨state, hfail⟩ := fail_of_not_eof heof (ioError .connectionError ec)
  refine ⟨state, _, (resume_connectionError mem outside fresh hec htr c n).trans (congrArg some hfail), ?_⟩
  rcases reclassify_cases c (ioError .connectionError ec) with h | h
  · rw [h]
    simp [ioError, Reply.ofResult, Reply.ofStream, hreason]
  · rw [h]
    rfl

theorem resume_ended (hframer : c.framer = some f) (n : Nat) :
    c.resume mem outside fresh (some .eof) n
      = some ({ c with receiveEof := true }.framedTurn f mem outside fresh) := by
  simp [resume, finishRead, hframer, framedChunk]

theorem resume_chunk (hframer : c.framer = some f) {r : BlockRef} (hr : c.currentBlock = some r) (n : Nat) :
    c.resume mem outside fresh none n = some ((c.withChunk r n).framedTurn f mem outside fresh) := by
  simp [resume, finishRead, hr, hframer, framedChunk, withChunk, chunk]

end TCPConnection

/-! ## Sessions -/

namespace Session

variable {s s' s₁ : Session σ} {c c₁ : TCPConnection σ} {p : Progress} {received : List Byte}

/-- The results so far say what the rule says of the stream so far: for every `rest` that may still arrive, what
the rule says of the whole stream is what they say and then what it says of the unparsed bytes and `rest`. After
the last result they say all that there is to say, unless a TLS stream was cut off. -/
structure Deframes (d : Deframer Byte) (s : Session σ) : Prop where
  follows : ∃ f, s.conn.framer = some f ∧ f.Follows d
  waiting : s.pending ≠ none → s.conn.receiveEof = false
  ended : s.conn.receiveEnded = true → s.conn.receiveEof = true
  going : s.conn.receiveEnded = false → ∀ rest, (s.conn.receiveEof = true → rest = []) →
    expectedReplies d false (s.history.read ++ rest)
      = s.history.streamReplies ++ expectedReplies d s.conn.messageOpen (s.unparsed ++ rest)
  done : s.conn.receiveEnded = true →
    s.history.streamReplies = expectedReplies d false s.history.read ∨
      Reply.truncated ∈ s.history.replies ∧
        s.history.streamReplies <+: expectedReplies d false s.history.read

theorem create_deframes (hf : f.Follows d) (mem : Memory) (state : ConnectionState) (framerState : σ)
    (pool : MessageBlockPool) : Deframes d (create mem (.create state (some f) framerState pool)) :=
  { follows := ⟨f, rfl, hf⟩
    waiting := fun h => absurd rfl h
    ended := fun h => by cases h
    going := fun _ rest _ => by
      simp [create, TCPConnection.create, History.streamReplies, unparsed]
    done := fun h => by cases h }

@[simp] theorem settle_conn (s : Session σ) (u : List Byte) (c : TCPConnection σ) (p : Progress) :
    (s.settle u c p).conn = c := rfl

@[simp] theorem settle_history (s : Session σ) (u : List Byte) (c : TCPConnection σ) (p : Progress) :
    (s.settle u c p).history = s.history.record s.mem u p := rfl

@[simp] theorem unparsed_settle (s : Session σ) (u : List Byte) (c : TCPConnection σ) (p : Progress) :
    (s.settle u c p).unparsed = c.receiveChain.bytes s.mem := rfl

theorem expectedReplies_arrived (opened : Bool) {ended closed : Bool} {skip take : Nat} {u : List Byte}
    (h : d.decide u ended = .record skip take closed) (v : List Byte) (hv : ended = true → v = []) :
    expectedReplies d opened (u ++ v)
      = .message ((u.drop skip).take take) closed :: expectedReplies d (!closed) (u.drop (skip + take) ++ v) := by
  rw [expectedReplies, Deframer.scan_arrived h hv]
  rfl

theorem expectedReplies_more {opened : Bool} {u : List Byte} (h : d.decide u true = .more) :
    expectedReplies d opened u
      = [if opened ∨ u ≠ [] then .error .receiveError .deframingFailed else .message [] true] := by
  rw [expectedReplies, Deframer.scan_more h]
  split <;> rfl

theorem streamReplies_record (h : History) (mem : Memory) (u : List Byte) (p : Progress) :
    (h.record mem u p).streamReplies
      = h.streamReplies ++ (p.result.map (Reply.ofResult mem)).toList.filter Reply.ofStream := by
  rw [History.streamReplies, History.record_replies, List.filter_append]
  rfl

/-- A turn of the loop starts from `c₁` in `s₁`, where the bytes `received` have arrived after `s`. -/
structure Arrives (d : Deframer Byte) (s s₁ : Session σ) (c₁ : TCPConnection σ) (received : List Byte) : Prop where
  before : Deframes d s
  going : s.conn.receiveEnded = false
  history : s₁.history = { s.history with read := s.history.read ++ received }
  eof : s.conn.receiveEof = true → c₁.receiveEof = true
  last : c₁.receiveEof = true → received = []
  opened : c₁.messageOpen = s.conn.messageOpen
  ended : c₁.receiveEnded = false
  framer : c₁.framer = s.conn.framer

namespace Arrives

variable {v : List Byte}

theorem read_settle (h : Arrives d s s₁ c₁ received) :
    (s₁.settle v c p).history.read = s.history.read ++ received := by
  rw [settle_history, History.record_read, h.history]

theorem streamReplies_settle (h : Arrives d s s₁ c₁ received) :
    (s₁.settle v c p).history.streamReplies
      = s.history.streamReplies ++ (p.result.map (Reply.ofResult s₁.mem)).toList.filter Reply.ofStream := by
  rw [settle_history, streamReplies_record, h.history]
  rfl

/-- What was still to come is what this turn sees, and what comes behind it. -/
theorem comes (h : Arrives d s s₁ c₁ received) (rest : List Byte) (hrest : c₁.receiveEof = true → rest = []) :
    expectedReplies d false (s.history.read ++ received ++ rest)
      = s.history.streamReplies ++ expectedReplies d c₁.messageOpen (s.unparsed ++ received ++ rest) := by
  rw [List.append_assoc, h.before.going h.going (received ++ rest), h.opened, List.append_assoc]
  intro heof
  rw [h.last (h.eof heof), hrest (h.eof heof), List.append_nil]

theorem pending_settle {r : Reply} (hreply : p.result.map (Reply.ofResult s₁.mem) = some r) :
    (s₁.settle v c p).pending = none := by
  cases p with
  | suspended b => cases hreply
  | delivered _ _ | ended _ | incomplete _ _ | failed _ => rfl

theorem settle_record (h : Arrives d s s₁ c₁ received) {skip take : ℕ} {closed : Bool}
    (hverdict : d.decide (s.unparsed ++ received) c₁.receiveEof = .record skip take closed)
    (hobeys : TCPConnection.Obeys s₁.mem (s.unparsed ++ received) c₁ c
      (p.result.map (Reply.ofResult s₁.mem)) (.record skip take closed))
    (hframer : c.framer = c₁.framer) : Deframes d (s₁.settle v c p) := by
  obtain ⟨hchain, hclosed, heof, hended, hreply⟩ := hobeys
  have hgoing : (s₁.settle v c p).conn.receiveEnded ≠ true := by
    rw [settle_conn, hended, h.ended]
    exact Bool.false_ne_true
  refine
    { follows := (hframer.trans h.framer) ▸ h.before.follows
      waiting := fun hp => absurd (pending_settle hreply) hp
      ended := fun hend => absurd hend hgoing
      going := fun _ rest hrest => ?_
      done := fun hend => absurd hend hgoing }
  have hrest : c₁.receiveEof = true → rest = [] := fun he => hrest (heof ▸ he)
  rw [h.read_settle, h.streamReplies_settle, h.comes _ hrest, expectedReplies_arrived _ hverdict _ hrest, hreply,
    List.append_assoc, unparsed_settle, settle_conn, hchain, hclosed]
  rfl

theorem settle_ended (h : Arrives d s s₁ c₁ received) (heof : c₁.receiveEof = true)
    (hverdict : d.decide (s.unparsed ++ received) true = .more)
    (hobeys : TCPConnection.Obeys s₁.mem (s.unparsed ++ received) c₁ c
      (p.result.map (Reply.ofResult s₁.mem)) .more)
    (hframer : c.framer = c₁.framer) : Deframes d (s₁.settle v c p) := by
  simp only [TCPConnection.Obeys, heof, if_true] at hobeys
  obtain ⟨hended, hend, hreply⟩ := hobeys
  have hdone : (s₁.settle v c p).conn.receiveEnded = true := hended
  refine
    { follows := (hframer.trans h.framer) ▸ h.before.follows
      waiting := fun hp => absurd (pending_settle hreply) hp
      ended := fun _ => hend
      going := fun hgoing => by cases hdone.symm.trans hgoing
      done := fun _ => .inl ?_ }
  have hall := h.comes [] fun _ => rfl
  rw [List.append_nil, List.append_nil, expectedReplies_more hverdict] at hall
  rw [h.read_settle, h.streamReplies_settle, hall, hreply]
  split <;> rfl

theorem settle_waiting (h : Arrives d s s₁ c₁ received) (heof : c₁.receiveEof = false)
    (hobeys : TCPConnection.Obeys s₁.mem (s.unparsed ++ received) c₁ c
      (p.result.map (Reply.ofResult s₁.mem)) .more)
    (hframer : c.framer = c₁.framer) : Deframes d (s₁.settle v c p) := by
  simp only [TCPConnection.Obeys, heof, Bool.false_eq_true, if_false] at hobeys
  obtain ⟨hchain, hopened, hend, hended, hreply⟩ := hobeys
  have hgoing : (s₁.settle v c p).conn.receiveEnded ≠ true := by
    rw [settle_conn, hended, h.ended]
    exact Bool.false_ne_true
  have hsilent : (p.result.map (Reply.ofResult s₁.mem)).toList.filter Reply.ofStream = [] := by
    rw [List.filter_eq_nil_iff]
    intro r hr
    rw [hreply r (Option.mem_toList.mp hr)]
    exact Bool.false_ne_true
  refine
    { follows := (hframer.trans h.framer) ▸ h.before.follows
      waiting := fun _ => hend
      ended := fun hend => absurd hend hgoing
      going := fun _ rest _ => ?_
      done := fun hend => absurd hend hgoing }
  rw [h.read_settle, h.streamReplies_settle, hsilent, List.append_nil, h.comes _ (by simp [heof]),
    unparsed_settle, settle_conn, hchain, hopened]

/-- Whatever the rule says, the turn keeps to it. -/
theorem deframes (h : Arrives d s s₁ c₁ received) {f : MessageFramer σ} (hf : f.Follows d)
    (hu : c₁.receiveChain.bytes s₁.mem = s.unparsed ++ received)
    (hlen : (s.unparsed ++ received).length < 2 ^ 64) (outside : List Addr) (fresh : Addr)
    (hturn : c₁.framedTurn f s₁.mem outside fresh = (c, p)) : Deframes d (s₁.settle v c p) := by
  have hobeys := TCPConnection.framedTurn_obeys outside fresh hf hu hlen h.ended
  have hsame := (TCPConnection.framedTurn_turn f s₁.mem outside fresh c₁).framer
  rw [hturn] at hobeys hsame
  cases hverdict : d.decide (s.unparsed ++ received) c₁.receiveEof with
  | record skip take closed =>
      rw [hverdict] at hobeys
      exact h.settle_record hverdict hobeys hsame
  | more =>
      rw [hverdict] at hobeys
      cases heof : c₁.receiveEof with
      | true => exact h.settle_ended heof (heof ▸ hverdict) hobeys hsame
      | false => exact h.settle_waiting heof hobeys hsame

end Arrives

/-! ## Steps -/

theorem unparsed_length_le (ha : Accounting s) (received : List Byte) :
    (s.unparsed ++ received).length ≤ (s.history.read ++ received).length := by
  rw [ha.bytes]
  simp only [List.length_append]
  omega

/-- Nothing about the stream has changed from `s` to `s'`, and no result says anything new of it. -/
structure SameStream (s s' : Session σ) : Prop where
  pending : s'.pending ≠ none → s.pending ≠ none
  framer : s'.conn.framer = s.conn.framer
  eof : s'.conn.receiveEof = s.conn.receiveEof
  ended : s'.conn.receiveEnded = s.conn.receiveEnded
  opened : s'.conn.messageOpen = s.conn.messageOpen
  unparsed : s'.unparsed = s.unparsed
  read : s'.history.read = s.history.read
  stream : s'.history.streamReplies = s.history.streamReplies
  replies : ∀ r ∈ s.history.replies, r ∈ s'.history.replies

theorem Deframes.of_same (h : Deframes d s) (hs : SameStream s s') : Deframes d s' := by
  refine
    { follows := hs.framer ▸ h.follows
      waiting := fun hp => hs.eof ▸ h.waiting (hs.pending hp)
      ended := fun hend => hs.eof ▸ h.ended (hs.ended ▸ hend)
      going := fun hgoing rest hrest => ?_
      done := fun hend => ?_ }
  · rw [hs.read, hs.stream, hs.opened, hs.unparsed]
    exact h.going (hs.ended ▸ hgoing) rest fun heof => hrest (hs.eof ▸ heof)
  · rw [hs.read, hs.stream]
    exact (h.done (hs.ended ▸ hend)).imp id fun hcut => ⟨hs.replies _ hcut.1, hcut.2⟩

/-- A stretch that returns an error which says nothing of the stream. -/
theorem SameStream.failed {state : ConnectionState} {v : List Byte} {e : TAPSError}
    (hhistory : s₁.history = s.history) (hun : s.conn.receiveChain.bytes s₁.mem = s.unparsed)
    (he : (Reply.ofResult s₁.mem (.error e)).ofStream = false) :
    SameStream s (s₁.settle v { s.conn with state } (.failed e)) := by
  have hreplies : (s₁.settle v { s.conn with state } (.failed e)).history.replies
      = s.history.replies ++ [Reply.ofResult s₁.mem (.error e)] := by
    rw [settle_history, History.record_replies, hhistory]
    rfl
  exact
    { pending := fun hp => absurd rfl hp
      framer := rfl
      eof := rfl
      ended := rfl
      opened := rfl
      unparsed := hun
      read := by rw [settle_history, History.record_read, hhistory]
      stream := by rw [History.streamReplies, hreplies, List.filter_append]; simp [History.streamReplies, he]
      replies := fun r hr => hreplies ▸ List.mem_append_left _ hr }

theorem step_receive_deframes {fresh : Fresh} (h : Deframes d s) (ha : Accounting s)
    (hlen : s.history.read.length < 2 ^ 64) (hst : s.step (.receive fresh) = some s') : Deframes d s' := by
  obtain ⟨-, hfresh, c, p, heq, rfl⟩ := step_receive hst
  obtain ⟨f, hframer, hf⟩ := h.follows
  unfold TCPConnection.receive at heq
  split at heq
  · rename_i e hrefused
    cases heq
    refine h.of_same (.failed rfl (unparsed_allocated hfresh) ?_)
    unfold TCPConnection.receiveRefused at hrefused
    split at hrefused
    · cases hrefused
    · cases hrefused
      rfl
  · rename_i hcan
    have hgoing : s.conn.receiveEnded = false := by
      by_contra hend
      rw [Bool.not_eq_false] at hend
      simp [TCPConnection.receiveRefused, TCPConnection.canReceive, hend] at hcan
    rw [hframer] at heq
    have harrives : Arrives d s (s.allocated fresh) s.conn [] :=
      { before := h
        going := hgoing
        history := by simp [allocated]
        eof := id
        last := fun _ => rfl
        opened := rfl
        ended := hgoing
        framer := rfl }
    have hun : s.conn.receiveChain.bytes (s.allocated fresh).mem = s.unparsed ++ [] :=
      (unparsed_allocated hfresh).trans (List.append_nil _).symm
    have hshort := unparsed_length_le ha []
    rw [List.append_nil s.history.read] at hshort
    exact harrives.deframes hf hun (by omega) _ _ heq

/-- A read that fails, with anything but the end of the stream. -/
theorem failed_deframes {ec : ErrorCode} {b : ReadBuffer} {fresh : Fresh} {v : List Byte} (h : Deframes d s)
    (hec : ec ≠ .eof) (heof : s.conn.receiveEof = false) (hgoing : s.conn.receiveEnded = false)
    (hun : (s.completed b (.failed ec) fresh).unparsed = s.unparsed)
    (heq : s.conn.resume (s.completed b (.failed ec) fresh).mem s.outside fresh.addr (some ec) 0 = some (c, p)) :
    Deframes d ((s.completed b (.failed ec) fresh).settle v c p) := by
  have hhistory : (s.completed b (.failed ec) fresh).history = s.history := by
    simp [completed, afterRead, allocated, ReadOutcome.bytes]
  by_cases htr : ec = .streamTruncated
  · subst htr
    rw [TCPConnection.resume_truncated] at heq
    cases heq
    have hstream : ((s.completed b (.failed .streamTruncated) fresh).settle v
        { s.conn with receiveEof := true, receiveEnded := true }
        (.failed (readFailure .streamTruncated))).history.streamReplies = s.history.streamReplies := by
      rw [settle_history, streamReplies_record, hhistory]
      exact List.append_nil _
    refine
      { follows := h.follows
        waiting := fun hp => absurd rfl hp
        ended := fun _ => rfl
        going := fun hgoing => by cases hgoing
        done := fun _ => .inr ⟨?_, ?_⟩ }
    · rw [settle_history, History.record_replies]
      exact List.mem_append_right _ (List.mem_singleton.mpr rfl)
    · have hall := h.going hgoing [] fun _ => rfl
      rw [List.append_nil] at hall
      rw [hstream, settle_history, History.record_read, hhistory, hall]
      exact List.prefix_append ..
  · obtain ⟨state, error, hresume, hsilent⟩ := TCPConnection.resume_failed
      (s.completed b (.failed ec) fresh).mem s.outside fresh.addr hec htr heof 0
    cases hresume.symm.trans heq
    exact h.of_same (.failed hhistory hun hsilent)

theorem step_readDone_deframes {outcome : ReadOutcome} {fresh : Fresh} (h : Deframes d s) (hi : Inv s)
    (ha : Accounting s) (hlen : (s.history.read ++ outcome.bytes).length < 2 ^ 64)
    (hst : s.step (.readDone outcome fresh) = some s') : Deframes d s' := by
  obtain ⟨b, c, p, hb, hle, hfresh, heq, rfl⟩ := step_readDone hst
  obtain ⟨f, hframer, hf⟩ := h.follows
  have heof : s.conn.receiveEof = false := h.waiting (by simp [hb])
  have hgoing : s.conn.receiveEnded = false := by
    by_contra hend
    rw [Bool.not_eq_false] at hend
    rw [h.ended hend] at heof
    cases heof
  have hun := unparsed_completed hi hb hfresh outcome
  have hshort := unparsed_length_le ha outcome.bytes
  cases outcome with
  | data bs =>
      obtain ⟨r, hr, rfl⟩ := hi.pending b hb
      have harrives : Arrives d s (s.completed (s.conn.bufferOf r) (.data bs) fresh)
          (s.conn.withChunk r bs.length) bs :=
        { before := h
          going := hgoing
          history := rfl
          eof := id
          last := fun he => by cases heof.symm.trans he
          opened := rfl
          ended := hgoing
          framer := rfl }
      have hturn := Option.some.inj ((TCPConnection.resume_chunk hframer hr bs.length).symm.trans heq)
      exact harrives.deframes hf (bytes_withChunk hi hb hfresh (.data bs))
        (Nat.lt_of_le_of_lt hshort hlen) _ _ hturn
  | failed ec =>
      by_cases hec : ec = .eof
      · subst hec
        have harrives : Arrives d s (s.completed b (.failed .eof) fresh) { s.conn with receiveEof := true } [] :=
          { before := h
            going := hgoing
            history := rfl
            eof := fun _ => rfl
            last := fun _ => rfl
            opened := rfl
            ended := hgoing
            framer := rfl }
        have hturn := Option.some.inj ((TCPConnection.resume_ended hframer 0).symm.trans heq)
        exact harrives.deframes hf (hun.trans (List.append_nil _).symm) (Nat.lt_of_le_of_lt hshort hlen) _ _ hturn
      · exact failed_deframes h hec heof hgoing hun heq

theorem read_step {e : SessionEvent σ} (hi : Inv s) (ha : Accounting s) (hst : s.step e = some s')
    (he : e.KeepsFramer) : s'.history.read = s.history.read ++ e.received := by
  rcases step_settles hi ha hst he with ⟨s₁, _, _, _, _, hs⟩ | ⟨hrec, _, _, _, rfl⟩
  · rw [hs.eq, settle_history, History.record_read, hs.history]
  · rw [hrec, List.append_nil]

theorem step_replies {e : SessionEvent σ} (hi : Inv s) (ha : Accounting s) (hst : s.step e = some s')
    (he : e.KeepsFramer) : s.history.replies <+: s'.history.replies := by
  rcases step_settles hi ha hst he with ⟨s₁, _, _, _, _, hs⟩ | ⟨_, _, _, _, rfl⟩
  · rw [hs.eq, settle_history, History.record_replies, hs.history]
    exact List.prefix_append ..
  · exact List.prefix_rfl

theorem step_framer {e : SessionEvent σ} (hst : s.step e = some s') (he : e.KeepsFramer) :
    s'.conn.framer = s.conn.framer := by
  cases e with
  | receive fresh =>
      obtain ⟨-, -, c, p, heq, rfl⟩ := step_receive hst
      have ht := TCPConnection.receive_turn (s.allocated fresh).mem s.outside fresh.addr s.conn
      rw [heq] at ht
      exact ht.framer
  | readDone outcome fresh =>
      obtain ⟨b, c, p, -, -, -, heq, rfl⟩ := step_readDone hst
      rcases TCPConnection.resume_cases heq with ⟨-, r, -, ht, -, -⟩ | ⟨-, ht⟩
      · exact ht.framer
      · exact ht.framer
  | drop i =>
      cases hst
      rfl
  | others state aborted =>
      cases hst
      rfl
  | setFramer framer framerState => exact he.elim

theorem step_deframes {e : SessionEvent σ} (h : Deframes d s) (hi : Inv s) (ha : Accounting s)
    (hst : s.step e = some s') (he : e.KeepsFramer) (hlen : s'.history.read.length < 2 ^ 64) : Deframes d s' := by
  have hread := read_step hi ha hst he
  cases e with
  | receive fresh => exact step_receive_deframes h ha (by simpa [hread, SessionEvent.received] using hlen) hst
  | readDone outcome fresh => exact step_readDone_deframes h hi ha (hread ▸ hlen) hst
  | drop i =>
      cases hst
      exact h.of_same ⟨id, rfl, rfl, rfl, rfl, rfl, rfl, rfl, fun _ => id⟩
  | others state aborted =>
      cases hst
      exact h.of_same ⟨id, rfl, rfl, rfl, rfl, rfl, rfl, rfl, fun _ => id⟩
  | setFramer framer framerState => exact he.elim

/-! ## What the invariant says -/

theorem Deframes.isPrefix (h : Deframes d s) {rest : List Byte} (hrest : s.conn.receiveEof = true → rest = []) :
    s.history.streamReplies <+: expectedReplies d false (s.history.read ++ rest) := by
  cases hend : s.conn.receiveEnded with
  | true =>
      rw [hrest (h.ended hend), List.append_nil]
      rcases h.done hend with hall | ⟨-, hcut⟩
      · exact hall ▸ List.prefix_rfl
      · exact hcut
  | false =>
      rw [h.going hend rest hrest]
      exact List.prefix_append ..

theorem record_of_result {h : History} {mem : Memory} {u : List Byte} {p : Progress} {r : Reply}
    (hp : p.result.map (Reply.ofResult mem) = some r) : (h.record mem u p).replies = h.replies ++ [r] := by
  rw [History.record_replies, hp]
  rfl

/-- Where the rule has its next result in the chain, a receive returns it. -/
theorem step_receive_prompt {fresh : Fresh} (h : Deframes d s) (ha : Accounting s)
    (hlen : s.history.read.length < 2 ^ 64) (hst : s.step (.receive fresh) = some s')
    (hcan : s.conn.canReceive = true) (hhere : s.conn.receiveEof = true ∨ d.decide s.unparsed false ≠ .more) :
    ∃ r, r.ofStream = true ∧ s'.history.replies = s.history.replies ++ [r] ∧ s'.pending = none := by
  obtain ⟨-, hfresh, c, p, heq, rfl⟩ := step_receive hst
  obtain ⟨f, hframer, hf⟩ := h.follows
  have hgoing : s.conn.receiveEnded = false := by
    simp only [TCPConnection.canReceive, Bool.and_eq_true, Bool.not_eq_true'] at hcan
    exact hcan.2
  have hreceive : s.conn.receive (s.allocated fresh).mem s.outside fresh.addr
      = s.conn.framedTurn f (s.allocated fresh).mem s.outside fresh.addr := by
    simp [TCPConnection.receive, TCPConnection.receiveRefused, hcan, hframer]
  have hshort := unparsed_length_le ha []
  rw [List.append_nil, List.append_nil] at hshort
  have hobeys := TCPConnection.framedTurn_obeys (c := s.conn) s.outside fresh.addr hf
    (unparsed_allocated hfresh) (Nat.lt_of_le_of_lt hshort hlen) hgoing
  rw [← hreceive, heq] at hobeys
  cases hverdict : d.decide s.unparsed s.conn.receiveEof with
  | record skip take closed =>
      rw [hverdict] at hobeys
      obtain ⟨-, -, -, -, hreply⟩ := hobeys
      exact ⟨_, rfl, record_of_result hreply, Arrives.pending_settle hreply⟩
  | more =>
      have heof : s.conn.receiveEof = true := by
        by_contra hne
        rw [Bool.not_eq_true] at hne
        rw [hne] at hverdict
        rcases hhere with heof | hdecide
        · exact absurd (hne.symm.trans heof) Bool.false_ne_true
        · exact hdecide hverdict
      rw [hverdict] at hobeys
      simp only [TCPConnection.Obeys, heof, if_true] at hobeys
      obtain ⟨-, -, hreply⟩ := hobeys
      refine ⟨_, ?_, record_of_result hreply, Arrives.pending_settle hreply⟩
      split <;> rfl

end Session

end Taps
