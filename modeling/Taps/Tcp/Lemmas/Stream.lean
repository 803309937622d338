import Taps.Tcp.Lemmas.Session

/-!
# Where the bytes of the stream are

The history of a session accounts for every byte that was read: it went into an accepted record or
chunk, was discarded at the end of the stream, or is still in the chain.
-/

namespace Taps

/-! ## Histories -/

namespace History

variable {h : History} {mem : Memory} {unparsed : List Byte} {p : Progress}

theorem record_read : (h.record mem unparsed p).read = h.read := by
  cases p <;> rfl

theorem record_replies : (h.record mem unparsed p).replies
    = h.replies ++ (p.result.map (Reply.ofResult mem)).toList := by
  cases p <;> rfl

/-- What a stretch takes out of the chain is accepted or discarded. -/
theorem record_bytes (hd : h.discarded = [] ∨ ∃ e, p = .failed e) :
    (h.record mem unparsed p).acceptedBytes ++ (h.record mem unparsed p).discarded
      = h.acceptedBytes ++ h.discarded ++ p.taken mem unparsed := by
  rcases hd with hd | ⟨e, rfl⟩
  · cases p <;> simp [record, acceptedBytes, Progress.taken, hd]
  · simp [record, acceptedBytes, Progress.taken]

theorem record_delivered (hd : h.deliveredBytes = h.accepted.flatMap Prod.snd)
    (hend : ∀ m, p = .ended m → m.payload mem = []) :
    (h.record mem unparsed p).deliveredBytes
      = (h.record mem unparsed p).accepted.flatMap Prod.snd := by
  have hsplit : (h.record mem unparsed p).deliveredBytes = h.deliveredBytes ++
      ({ h with replies := (p.result.map (Reply.ofResult mem)).toList } : History).deliveredBytes := by
    rw [deliveredBytes, record_replies, List.flatMap_append]
    rfl
  rw [hsplit, hd]
  cases p with
  | ended m => simp [record, deliveredBytes, Progress.result, Reply.ofResult, hend m rfl]
  | suspended _ | delivered _ _ | incomplete _ _ | failed _ =>
      simp [record, deliveredBytes, Progress.result, Reply.ofResult]

end History

/-! ## Sessions -/

namespace Session

variable {σ : Type} {s s' : Session σ} {c c₁ : TCPConnection σ} {p : Progress}

structure Accounting (s : Session σ) : Prop where
  bytes : s.history.read = s.history.acceptedBytes ++ s.history.discarded ++ s.unparsed
  delivered : s.history.deliveredBytes = s.history.accepted.flatMap Prod.snd
  unframed : s.conn.framer = none → s.conn.receiveChain.size = 0
  ended : s.history.discarded ≠ [] → s.conn.receiveEnded = true ∧ s.pending = none

theorem create_accounting (mem : Memory) (state : ConnectionState)
    (framer : Option (MessageFramer σ)) (framerState : σ) (pool : MessageBlockPool) :
    Accounting (create mem (.create state framer framerState pool)) :=
  { bytes := rfl
    delivered := rfl
    unframed := fun _ => rfl
    ended := fun h => absurd rfl h }

theorem unparsed_congr {mem : Memory} (h : ∀ blk off, s.Held blk off → mem blk off = s.mem blk off) :
    s.conn.receiveChain.bytes mem = s.unparsed :=
  BlockChain.bytes_congr fun blk off hc => h blk off (Or.inl hc)

theorem unparsed_allocated {fresh : Fresh} (hfresh : fresh.addr ∉ s.handles) :
    (s.allocated fresh).unparsed = s.unparsed :=
  unparsed_congr fun _ _ => allocated_mem hfresh

theorem unparsed_completed (hi : Inv s) {b : ReadBuffer} (hb : s.pending = some b) {fresh : Fresh}
    (hfresh : fresh.addr ∉ s.handles) (outcome : ReadOutcome) :
    (s.completed b outcome fresh).unparsed = s.unparsed :=
  unparsed_congr fun _ _ => completed_mem hi hb hfresh outcome

theorem bytes_withChunk (hi : Inv s) {r : BlockRef} (hb : s.pending = some (s.conn.bufferOf r))
    {fresh : Fresh} (hfresh : fresh.addr ∉ s.handles) (outcome : ReadOutcome) :
    (s.conn.withChunk r outcome.bytes.length).receiveChain.bytes
      (s.completed (s.conn.bufferOf r) outcome fresh).mem = s.unparsed ++ outcome.bytes := by
  rw [TCPConnection.withChunk, BlockChain.bytes_append, bytes_chunk]
  exact congrArg (· ++ outcome.bytes) (unparsed_completed hi hb hfresh outcome)

/-- What one step does to the stream. Either a stretch ran, from a connection whose chain holds the
unparsed bytes and those just received; after the stream has ended it is a refused receive. Or the
receive path was not involved. -/
structure Settles (s s' : Session σ) (received : List Byte) (s₁ : Session σ) (fresh : Addr)
    (c₁ c : TCPConnection σ) (p : Progress) : Prop where
  turn : TCPConnection.Turn s₁.mem fresh c₁ c p
  bytes : c₁.receiveChain.bytes s₁.mem = s.unparsed ++ received
  history : s₁.history = { s.history with read := s.history.read ++ received }
  unframed : c.framer = none → c.receiveChain.size = 0
  ended : s.history.discarded = [] ∨ (∃ e, p = .failed e) ∧ c.receiveEnded = true
  eq : s' = s₁.settle (c₁.receiveChain.bytes s₁.mem) c p

theorem step_receive_settles {fresh : Fresh} (ha : Accounting s) (h : s.step (.receive fresh) = some s') :
    ∃ s₁ a c₁ c p, Settles s s' [] s₁ a c₁ c p := by
  obtain ⟨_, hfresh, c, p, heq, rfl⟩ := step_receive h
  have ht := TCPConnection.receive_turn (s.allocated fresh).mem s.outside fresh.addr s.conn
  rw [heq] at ht
  refine ⟨s.allocated fresh, fresh.addr, s.conn, c, p,
    { turn := ht
      bytes := by
        rw [List.append_nil]
        exact unparsed_allocated hfresh
      history := by simp [allocated]
      unframed := ?_
      ended := ?_
      eq := rfl }⟩
  · intro hf
    have hsize := ha.unframed (ht.framer ▸ hf)
    exact Nat.eq_zero_of_le_zero (hsize ▸ ht.size_le)
  · by_cases hd : s.history.discarded = []
    · exact Or.inl hd
    · obtain ⟨e, hrefused⟩ := TCPConnection.receive_of_ended (ha.ended hd).1
      cases heq.symm.trans hrefused
      exact Or.inr ⟨⟨e, rfl⟩, (ha.ended hd).1⟩

theorem step_readDone_settles {outcome : ReadOutcome} {fresh : Fresh} (hi : Inv s) (ha : Accounting s)
    (h : s.step (.readDone outcome fresh) = some s') : ∃ s₁ a c₁ c p, Settles s s' outcome.bytes s₁ a c₁ c p := by
  obtain ⟨b, c, p, hb, hlen, hfresh, heq, rfl⟩ := step_readDone h
  have hun := unparsed_completed hi hb hfresh outcome
  have hd : s.history.discarded = [] := by
    by_contra hne
    rw [(ha.ended hne).2] at hb
    cases hb
  rcases TCPConnection.resume_cases heq with ⟨_, r, hr, _, ht, hsame⟩ | ⟨hec, ht⟩
  · obtain ⟨r', hr', rfl⟩ := hi.pending b hb
    cases hr.symm.trans hr'
    have hframer : s.conn.framer ≠ none ∨ s.conn.receiveChain.size = 0 ∨ outcome.bytes.length = 0 := by
      by_cases hf : s.conn.framer = none
      · exact Or.inr (Or.inl (ha.unframed hf))
      · exact Or.inl hf
    have ht := ht hframer
    have hbytes := bytes_withChunk hi hb hfresh outcome
    refine ⟨_, _, _, c, p,
      { turn := ht
        bytes := hbytes
        history := rfl
        unframed := ?_
        ended := Or.inl hd
        eq := by rw [hun, hbytes] }⟩
    intro hf
    have hf : s.conn.framer = none := ht.framer ▸ hf
    rw [hsame hf]
    exact ha.unframed hf
  · have hnil : outcome.bytes = [] := by
      cases outcome with
      | data bs => exact absurd rfl hec
      | failed ec => rfl
    have hbytes : s.conn.receiveChain.bytes (s.completed b outcome fresh).mem
        = s.unparsed ++ outcome.bytes := by
      rw [hnil, List.append_nil]
      exact hun
    refine ⟨_, _, _, c, p,
      { turn := ht
        bytes := hbytes
        history := rfl
        unframed := ?_
        ended := Or.inl hd
        eq := by rw [hun, hbytes] }⟩
    intro hf
    have hsize := ha.unframed (ht.framer ▸ hf)
    exact Nat.eq_zero_of_le_zero (hsize ▸ ht.size_le)

theorem step_settles {e : SessionEvent σ} (hi : Inv s) (ha : Accounting s) (h : s.step e = some s')
    (he : e.KeepsFramer) :
    (∃ s₁ fresh c₁ c p, Settles s s' e.received s₁ fresh c₁ c p) ∨
      e.received = [] ∧ ∃ kept state aborted,
        s' = { s with kept, conn := { s.conn with state, aborted } } := by
  cases e with
  | receive fresh => exact Or.inl (step_receive_settles ha h)
  | readDone outcome fresh => exact Or.inl (step_readDone_settles hi ha h)
  | drop i =>
      cases h
      exact Or.inr ⟨rfl, _, _, _, rfl⟩
  | others state aborted =>
      cases h
      exact Or.inr ⟨rfl, _, _, _, rfl⟩
  | setFramer framer framerState => exact he.elim

theorem Settles.accounting {received : List Byte} {s₁ : Session σ} {fresh : Addr} (ha : Accounting s)
    (h : Settles s s' received s₁ fresh c₁ c p) : Accounting s' := by
  have hfailed : s₁.history.discarded = [] ∨ ∃ e, p = .failed e := by
    rw [h.history]
    exact h.ended.imp_right And.left
  rw [h.eq]
  refine
    { bytes := ?_
      delivered := History.record_delivered (by rw [h.history]; exact ha.delivered) h.turn.ended
      unframed := h.unframed
      ended := ?_ }
  · simp only [settle, unparsed, History.record_read, History.record_bytes hfailed, List.append_assoc]
    rw [← h.turn.bytes, h.bytes, h.history, ha.bytes]
    simp [History.acceptedBytes]
  · intro hne
    cases p with
    | incomplete n e => exact ⟨(h.turn.incomplete n e rfl).2.1, rfl⟩
    | failed e =>
        refine ⟨(h.ended.resolve_left fun hd => hne ?_).2, rfl⟩
        simp [settle, History.record, h.history, hd]
    | suspended _ | delivered _ _ | ended _ =>
        refine absurd (h.ended.resolve_right fun ⟨⟨_, he⟩, _⟩ => ?_) fun hd => hne ?_
        · cases he
        · simp [settle, History.record, h.history, hd]

theorem step_accounting {e : SessionEvent σ} (hi : Inv s) (ha : Accounting s)
    (h : s.step e = some s') (he : e.KeepsFramer) : Accounting s' := by
  rcases step_settles hi ha h he with ⟨_, _, _, _, _, hs⟩ | ⟨_, kept, state, aborted, rfl⟩
  · exact hs.accounting ha
  · exact { ha with }

/-! ## Receives that return no Message -/

/-- A stretch that returns no Message leaves the chain as it was, or it is the one that ends the
stream and discards the chain. -/
theorem Settles.of_no_message {received : List Byte} {s₁ : Session σ} {fresh : Addr}
    (h : Settles s s' received s₁ fresh c₁ c p)
    (hno : ∀ bs eom, s'.history.replies ≠ s.history.replies ++ [.message bs eom]) :
    s'.history.accepted = s.history.accepted ∧
      (s'.unparsed = s.unparsed ++ received ∧ s'.history.discarded = s.history.discarded ∨
        s'.unparsed = [] ∧
        s'.history.discarded = s.history.discarded ++ (s.unparsed ++ received) ∧
        s'.history.replies = s.history.replies ++ [.error .receiveError .deframingFailed] ∧
        s'.conn.receiveEnded = true) := by
  have hok (m : Message) : p.result ≠ some (.ok m) := by
    intro hp
    apply hno (m.payload s₁.mem) m.endOfMessage
    simp [h.eq, settle, History.record_replies, hp, Reply.ofResult, h.history]
  have hbytes := h.turn.bytes
  have haccepted := congrArg History.accepted h.history
  have hdiscarded := congrArg History.discarded h.history
  rw [h.bytes] at hbytes
  rw [h.eq, h.bytes]
  cases p with
  | delivered d m => exact absurd rfl (hok m)
  | ended m => exact absurd rfl (hok m)
  | suspended b => exact ⟨haccepted, Or.inl ⟨hbytes.symm, hdiscarded⟩⟩
  | failed e => exact ⟨haccepted, Or.inl ⟨hbytes.symm, hdiscarded⟩⟩
  | incomplete n e =>
      obtain ⟨rfl, hended, hevent, hreason⟩ := h.turn.incomplete n e rfl
      have hall : (s.unparsed ++ received).take c₁.receiveChain.size = s.unparsed ++ received := by
        refine List.take_of_length_le (Nat.le_of_eq ?_)
        rw [← h.bytes, BlockChain.length_bytes]
      simp only [Progress.taken, hall, List.self_eq_append_right] at hbytes
      refine ⟨haccepted, Or.inr ⟨hbytes, ?_, ?_, hended⟩⟩
      · simp only [settle, History.record, hall, hdiscarded]
      · simp [settle, History.record, Progress.result, Reply.ofResult, hevent, hreason, h.history]

theorem step_of_no_message {e : SessionEvent σ} (hi : Inv s) (ha : Accounting s)
    (h : s.step e = some s') (he : e.KeepsFramer)
    (hno : ∀ bs eom, s'.history.replies ≠ s.history.replies ++ [.message bs eom]) :
    s'.history.accepted = s.history.accepted ∧
      (s'.unparsed = s.unparsed ++ e.received ∧ s'.history.discarded = s.history.discarded ∨
        s'.unparsed = [] ∧
        s'.history.discarded = s.history.discarded ++ (s.unparsed ++ e.received) ∧
        s'.history.replies = s.history.replies ++ [.error .receiveError .deframingFailed] ∧
        s'.conn.receiveEnded = true) := by
  rcases step_settles hi ha h he with ⟨_, _, _, _, _, hs⟩ | ⟨hrec, kept, state, aborted, rfl⟩
  · exact hs.of_no_message hno
  · rw [hrec]
    exact ⟨rfl, Or.inl ⟨(List.append_nil _).symm, rfl⟩⟩

end Session

end Taps
