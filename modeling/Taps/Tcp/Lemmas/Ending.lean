import Taps.Tcp.Lemmas.Link
import Taps.Tcp.Lemmas.Turn

/-!
# The end of the stream

What a stretch of a framed receive makes of the flags that tell where the stream and the last Message end,
and what they say of the reads and the Messages of receives that are issued one at a time.
-/

namespace Taps

/-- Whether the Message of the stretch is open after it, or else the one before. -/
def Progress.leavesOpen (p : Progress) (was : Bool) : Bool :=
  match p.message with
  | some m => !m.endOfMessage
  | none => was

namespace TCPConnection

variable {σ : Type} {mem : Memory} {outside : List Addr} {fresh : Addr} {c c₁ c' : TCPConnection σ}
  {p : Progress} {ec : Option ErrorCode}

/-! ## A stretch of a framed receive -/

/-- A stretch from `c` to `c'`, from a read on that has completed with `ec` if it is not the first. -/
structure Ending (ec : Option ErrorCode) (c c' : TCPConnection σ) (p : Progress) : Prop where
  framer : c'.framer = c.framer
  eof : c'.receiveEof = true →
    c.receiveEof = true ∨ ec = some .eof ∨ c'.receiveEnded = true ∧ ∃ e, p = .failed e
  reads : ∀ b, p = .suspended b → c'.receiveEof = false ∧ c'.receiveEnded = c.receiveEnded
  ended : ∀ m, p = .ended m → c'.receiveEof = true ∧ c.messageOpen = false ∧ c'.receiveChain.size = 0
  messageOpen : c'.receiveEnded = true ∨ c'.messageOpen = p.leavesOpen c.messageOpen

theorem Ending.of_eq (h : Ending ec c₁ c' p) (hframer : c₁.framer = c.framer)
    (heof : c₁.receiveEof = c.receiveEof) (hended : c₁.receiveEnded = c.receiveEnded)
    (hopen : c₁.messageOpen = c.messageOpen) : Ending ec c c' p where
  framer := h.framer.trans hframer
  eof := heof ▸ h.eof
  reads b hb := hended ▸ h.reads b hb
  ended := hopen ▸ h.ended
  messageOpen := hopen ▸ h.messageOpen

theorem fail_ending (ec : Option ErrorCode) (c : TCPConnection σ) (e : TAPSError) :
    Ending ec c (c.fail e).1 (c.fail e).2 := by
  obtain ⟨state, ended, h⟩ := receiveFailure_fst c e
  unfold fail
  rw [h]
  exact { framer := rfl, eof := .inl, reads := nofun, ended := nofun, messageOpen := .inr rfl }

theorem emitRecord_ending (mem : Memory) (c : TCPConnection σ) (pr : ParseResult) :
    Ending none c (c.emitRecord mem pr).1 (c.emitRecord mem pr).2 := by
  unfold emitRecord
  split
  · exact fail_ending none c _
  · refine { framer := rfl, eof := .inl, reads := nofun, ended := nofun, messageOpen := .inr ?_ }
    simp [Progress.leavesOpen, Progress.message, recordMessage_endOfMessage]

theorem endOfStream_ending (heof : c.receiveEof = true) :
    Ending none c c.endOfStream.1 c.endOfStream.2 := by
  unfold endOfStream
  split
  · rw [receiveFailure_of_eof (c := c.discardUnparsed) heof rfl (by simp [incompleteError])]
    exact { framer := rfl, eof := .inl, reads := fun _ h => (by cases h), ended := fun _ h => (by cases h)
            messageOpen := .inl rfl }
  · rename_i hnot
    refine { framer := rfl, eof := .inl, reads := fun _ h => (by cases h)
             ended := fun _ _ => ⟨heof, ?_, ?_⟩
             messageOpen := .inl rfl }
    · exact Bool.eq_false_iff.mpr fun h => hnot (.inl h)
    · exact Nat.eq_zero_of_not_pos fun h => hnot (.inr h)

theorem issueRead_ending (outside : List Addr) (fresh : Addr) (heof : c.receiveEof = false) :
    Ending none c (c.issueRead outside fresh).1 (c.issueRead outside fresh).2 := by
  unfold issueRead startRead
  cases hb : c.readBlock outside fresh with
  | some r =>
      exact { framer := rfl, eof := .inl, reads := fun _ _ => ⟨heof, rfl⟩, ended := nofun
              messageOpen := .inr rfl }
  | none => exact (fail_ending none { c with currentBlock := none } _).of_eq rfl rfl rfl rfl

theorem framedTurn_ending (f : MessageFramer σ) (mem : Memory) (outside : List Addr) (fresh : Addr)
    (c : TCPConnection σ) :
    Ending none c (c.framedTurn f mem outside fresh).1 (c.framedTurn f mem outside fresh).2 := by
  unfold framedTurn
  obtain ⟨pr, framerState⟩ := f.parse c.framerState ⟨mem, c.receiveChain⟩ c.receiveEof
  have h : Ending none { c with framerState } ({ c with framerState }.act mem outside fresh pr).1
      ({ c with framerState }.act mem outside fresh pr).2 := by
    unfold act
    split
    · exact emitRecord_ending mem _ pr
    · split
      · rename_i heof
        exact endOfStream_ending heof
      · rename_i heof
        exact issueRead_ending outside fresh (Bool.eq_false_iff.mpr heof)
  exact h.of_eq rfl rfl rfl rfl

/-- A receive is refused, or its first stretch begins before the last result of a receive. -/
theorem receive_ending (hf : c.framer ≠ none) (h : c.receive mem outside fresh = (c', p)) :
    (∃ e, c' = c ∧ p = .failed e) ∨ c.receiveEnded = false ∧ Ending none c c' p := by
  unfold receive at h
  cases hr : c.receiveRefused with
  | some e =>
      rw [hr] at h
      cases h
      exact .inl ⟨e, rfl, rfl⟩
  | none =>
      obtain ⟨f, hfr⟩ := Option.ne_none_iff_exists'.mp hf
      have hcan : c.canReceive = true := by
        by_contra hnot
        simp [receiveRefused, hnot] at hr
      have hended : c.receiveEnded = false := by
        simp only [canReceive, Bool.and_eq_true, Bool.not_eq_true'] at hcan
        exact hcan.2
      have he := framedTurn_ending f mem outside fresh c
      simp only [hr, hfr] at h
      rw [h] at he
      exact .inr ⟨hended, he⟩

theorem framedChunk_ending (f : MessageFramer σ) (mem : Memory) (outside : List Addr) (fresh : Addr)
    (c : TCPConnection σ) (chunk : Option BlockRef) :
    Ending none c (c.framedChunk f mem outside fresh chunk).1 (c.framedChunk f mem outside fresh chunk).2 := by
  cases chunk with
  | none => exact framedTurn_ending f mem outside fresh c
  | some r =>
      exact (framedTurn_ending f mem outside fresh
        { c with receiveChain := c.receiveChain.append r }).of_eq rfl rfl rfl rfl

theorem finishRead_ending {n : Nat} {r : Result (Option BlockRef)}
    (h : c.finishRead ec n = some (c₁, r)) :
    c₁.framer = c.framer ∧ c₁.receiveEnded = c.receiveEnded ∧ c₁.messageOpen = c.messageOpen ∧
      (c₁.receiveEof = true → c.receiveEof = true ∨ ec = some .eof ∨
        ∃ e, r = .error e ∧ e.event = .receiveError ∧ e.reason ≠ .localAbort) := by
  unfold finishRead at h
  split at h
  · cases h
    exact ⟨rfl, rfl, rfl, fun _ => .inr (.inl rfl)⟩
  · rename_i code _
    split at h
    · rename_i hevent
      cases h
      refine ⟨rfl, rfl, rfl, fun _ => .inr (.inr ⟨_, rfl, hevent, ?_⟩)⟩
      cases code with
      | streamTruncated => exact nofun
      | _ => cases hevent
    · cases h
      exact ⟨rfl, rfl, rfl, .inl⟩
  · split at h
    · cases h
    · cases h
      exact ⟨rfl, rfl, rfl, .inl⟩

theorem resume_ending {n : Nat} (hf : c.framer ≠ none)
    (h : c.resume mem outside fresh ec n = some (c', p)) : Ending ec c c' p := by
  obtain ⟨⟨c₁, r⟩, hfin, heq⟩ := Option.map_eq_some_iff.mp h
  obtain ⟨hframer, hended, hopen, heof⟩ := finishRead_ending hfin
  cases r with
  | error e =>
      have he := fail_ending ec c₁ e
      rw [show c₁.fail e = (c', p) from heq] at he
      refine { he with
        framer := he.framer.trans hframer, eof := fun h' => ?_, reads := hended ▸ he.reads
        ended := hopen ▸ he.ended, messageOpen := hopen ▸ he.messageOpen }
      rcases he.eof h' with h₁ | h₁ | h₁
      · rcases heof h₁ with h₂ | h₂ | ⟨e', h₂, hevent, hreason⟩
        · exact .inl h₂
        · exact .inr (.inl h₂)
        · cases h₂
          simp only [fail, receiveFailure_of_eof h₁ hevent hreason] at heq
          cases heq
          exact .inr (.inr ⟨rfl, _, rfl⟩)
      · exact .inr (.inl h₁)
      · exact .inr (.inr h₁)
  | ok chunk =>
      obtain ⟨f, hfr⟩ := Option.ne_none_iff_exists'.mp (hframer ▸ hf)
      have he := framedChunk_ending f mem outside fresh c₁ chunk
      simp only [hfr] at heq
      rw [heq] at he
      refine { framer := he.framer.trans hframer, eof := fun h' => ?_, reads := hended ▸ he.reads
               ended := hopen ▸ he.ended, messageOpen := hopen ▸ he.messageOpen }
      rcases he.eof h' with h₁ | h₁ | h₁
      · rcases heof h₁ with h₂ | h₂ | ⟨e, h₂, -⟩
        · exact .inl h₂
        · exact .inr (.inl h₂)
        · cases h₂
      · cases h₁
      · exact .inr (.inr h₁)

end TCPConnection

namespace Call

theorem not_reads {wait : Wait} {op : Lib.Operation ErrorCode Nat} (h : ∀ buffer, wait ≠ .read buffer) :
    ¬ Reads (suspended wait op) := by
  rintro ⟨buffer, op', he⟩
  exact h buffer (Call.suspended.inj he).1

theorem not_reads_returned {value : Return} : ¬ Reads (returned value) := by
  rintro ⟨buffer, op, he⟩
  cases he

end Call

namespace Link

variable {σ : Type} {s s' t : Link σ} {e : LinkEvent} {i : Nat} {c : Call}

/-! ## Steps of a receive and other steps -/

/-- What the receives have done so far is the same. -/
structure SameStream (s s' : Link σ) : Prop where
  framer : s'.conn.framer = s.conn.framer
  eof : s'.conn.receiveEof = s.conn.receiveEof
  ended : s'.conn.receiveEnded = s.conn.receiveEnded
  messageOpen : s'.conn.messageOpen = s.conn.messageOpen
  outcomes : s'.outcomes = s.outcomes
  messages : s'.messages = s.messages

/-- A step that is about the call `c` is no stretch of a receive, or it is one. -/
inductive Flow (s s' : Link σ) : LinkEvent → Call → Prop
  | quiet {e : LinkEvent} {c : Call} (same : SameStream s s')
      (reads : c.Reads → ∃ c₀, s.calls[s.callOf e]? = some c₀ ∧ c₀.Reads)
      (value : ∀ p, c ≠ .returned (.received p)) : Flow s s' e c
  | begins {around p} (hr : s.conn.receive around.mem around.outside around.fresh = (s'.conn, p))
      (outcomes : s'.outcomes = s.outcomes) (messages : s'.messages = s.messages ++ p.message.toList) :
      Flow s s' (.receive around) (.ofProgress s.socketOpen p)
  | goesOn {i buffer outcome around ec p}
      (hi : s.calls[i]? = some (.suspended (.read buffer) (.completed outcome)))
      (hr : s.conn.resume around.mem around.outside around.fresh (errorOf outcome) (bytesOf outcome)
        = some (s'.conn, p))
      (outcomes : s'.outcomes = s.outcomes ++ [outcome])
      (messages : s'.messages = s.messages ++ p.message.toList) :
      Flow s s' (.resume i around ec) (.ofProgress s.socketOpen p)

theorem sendEnd_fst (conn : TCPConnection σ) (ec : Option ErrorCode) :
    ∃ state, (conn.sendEnd ec).1 = { conn with state } := by
  unfold TCPConnection.sendEnd
  split
  · exact ⟨_, rfl⟩
  · split
    · exact ⟨_, rfl⟩
    · exact ⟨_, rfl⟩

theorem Steps.flow (h : Steps s e s') : ∃ c, s'.calls[s.callOf e]? = some c ∧ Flow s s' e c := by
  cases h with
  | refuse | closeAgain =>
      exact ⟨_, getElem?_push_self _ _,
        .quiet ⟨rfl, rfl, rfl, rfl, rfl, rfl⟩ (absurd · Call.not_reads_returned) (by simp)⟩
  | send =>
      exact ⟨_, getElem?_push_self _ _,
        .quiet ⟨rfl, rfl, rfl, rfl, rfl, rfl⟩ (absurd · (Call.not_reads nofun)) (by simp)⟩
  | receive hr => exact ⟨_, getElem?_push_self _ _, .begins hr rfl rfl⟩
  | close =>
      exact ⟨_, (push_cancelled rfl _).1,
        .quiet ⟨rfl, rfl, rfl, rfl, rfl, rfl⟩ (absurd · (Call.not_reads nofun)) (by simp)⟩
  | abort =>
      exact ⟨_, (push_cancelled rfl _).1,
        .quiet ⟨rfl, rfl, rfl, rfl, rfl, rfl⟩ (absurd · Call.not_reads_returned) (by simp)⟩
  | closeFailed =>
      exact ⟨_, (push_cancelled (map_cancel_cancel s.calls) _).1,
        .quiet ⟨rfl, rfl, rfl, rfl, rfl, rfl⟩ (absurd · Call.not_reads_returned) (by simp)⟩
  | complete hi =>
      refine ⟨_, getElem?_set_self _ (List.getElem?_eq_some_iff.mp hi).1,
        .quiet ⟨rfl, rfl, rfl, rfl, rfl, rfl⟩ ?_ (by simp)⟩
      rintro ⟨buffer, op, he⟩
      cases he
      exact ⟨_, hi, buffer, _, rfl⟩
  | read hi hr => exact ⟨_, getElem?_set_self _ (List.getElem?_eq_some_iff.mp hi).1, .goesOn hi hr rfl rfl⟩
  | @write i outcome around ec hi =>
      obtain ⟨state, hstate⟩ := sendEnd_fst s.conn (errorOf outcome)
      rw [hstate]
      exact ⟨_, getElem?_set_self _ (List.getElem?_eq_some_iff.mp hi).1,
        .quiet ⟨rfl, rfl, rfl, rfl, rfl, rfl⟩ (absurd · Call.not_reads_returned) (by simp)⟩
  | drain hi =>
      exact ⟨_, getElem?_set_self _ (List.getElem?_eq_some_iff.mp hi).1,
        .quiet ⟨rfl, rfl, rfl, rfl, rfl, rfl⟩ (absurd · (Call.not_reads nofun)) (by simp)⟩
  | @closed i on outcome around ec sd hi =>
      have hlt : i < (s.calls.map Call.cancel).length := by
        rw [List.length_map]
        exact (List.getElem?_eq_some_iff.mp hi).1
      exact ⟨_, getElem?_set_self _ hlt,
        .quiet ⟨rfl, rfl, rfl, rfl, rfl, rfl⟩ (absurd · Call.not_reads_returned) (by simp)⟩

theorem Flow.ended (h : Flow s s' e c) (hr : s.conn.receiveEnded = true) : s'.conn.receiveEnded = true := by
  cases h with
  | quiet same => exact same.ended.trans hr
  | @begins around p hr' =>
      have hv := s.conn.receive_verdict around.mem around.outside around.fresh
      rw [hr'] at hv
      exact hv.ended hr
  | goesOn _ hr' => exact (TCPConnection.resume_verdict hr').ended hr

/-! ## The last result of a receive -/

theorem canReceive_eq_false {conn : TCPConnection σ} :
    conn.canReceive = false ↔ conn.state ≠ .established ∨ conn.receiveEnded = true := by
  simp only [TCPConnection.canReceive, Bool.and_eq_false_iff, decide_eq_false_iff_not, Bool.not_eq_false']

theorem Forward.established {st st' : ConnectionState} (h : Forward st st') (hest : st' = .established) :
    st = .established := by
  rcases h with rfl | ⟨rfl, -⟩ | ⟨-, rfl⟩
  · exact hest
  · rfl
  · cases hest

theorem step_canReceive (hi : Inv s) (h : s.step e = some s') (hr : s.conn.canReceive = false) :
    s'.conn.canReceive = false := by
  obtain ⟨c, -, heff⟩ := (step_steps h).effect
  obtain ⟨c', -, hflow⟩ := (step_steps h).flow
  rw [canReceive_eq_false] at hr ⊢
  rcases hr with hst | hended
  · exact .inl fun hest => hst ((heff.forward hi).established hest)
  · exact .inr (hflow.ended hended)

theorem run_canReceive {es : List LinkEvent} (h : (system σ).Run s es t) (hi : Inv s)
    (hr : s.conn.canReceive = false) : t.conn.canReceive = false :=
  (h.preserves (I := fun s => Inv s ∧ s.conn.canReceive = false)
    (fun _ _ _ hs hst => ⟨step_inv hs.1 hst, step_canReceive hs.1 hst hs.2⟩) ⟨hi, hr⟩).2

theorem receive_refused (hr : s.conn.canReceive = false) (around : Surroundings) :
    ∃ err, s.step (.receive around) = some (s.push (.returned (.received (.failed err)))) ∧
      err.event = .receiveError ∧ err.reason = .invalidState := by
  obtain ⟨text, href⟩ : ∃ text, s.conn.receiveRefused = some ⟨.receiveError, .invalidState, text⟩ :=
    ⟨_, if_neg (by simp [hr])⟩
  refine ⟨⟨.receiveError, .invalidState, text⟩, ?_, rfl, rfl⟩
  simp [step, receive, TCPConnection.receive, href, settle, Call.ofProgress, Progress.message]

theorem Flow.peerEnded (h : Flow s s' e c) (hp : s.PeerEnded → s.conn.receiveEof = true) :
    s'.PeerEnded → s'.conn.receiveEof = true := by
  rintro ⟨code, hm, hcode⟩
  cases h with
  | quiet same => exact same.eof.trans (hp ⟨code, same.outcomes ▸ hm, hcode⟩)
  | @begins around p hr outcomes =>
      have hv := s.conn.receive_verdict around.mem around.outside around.fresh
      rw [hr] at hv
      exact hv.eof (hp ⟨code, outcomes ▸ hm, hcode⟩)
  | @goesOn i buffer outcome around ec p hi hr outcomes =>
      rw [outcomes, List.mem_append, List.mem_singleton] at hm
      rcases hm with hm | rfl
      · exact (TCPConnection.resume_verdict hr).eof (hp ⟨code, hm, hcode⟩)
      · exact TCPConnection.resume_peerEnded hcode hr

theorem reachable_peerEnded (h : (system σ).Reachable s) (hp : s.PeerEnded) : s.conn.receiveEof = true := by
  refine h.invariant (I := fun s : Link σ => s.PeerEnded → s.conn.receiveEof = true) ?_ ?_ hp
  · rintro s ⟨framer, framerState, pool, secured, rfl⟩ ⟨code, hm, -⟩
    cases hm
  · intro s e s' hi hst
    obtain ⟨c, -, hflow⟩ := (step_steps hst).flow
    exact hflow.peerEnded hi

theorem Flow.endsStream (h : Flow s s' e c) (heof : s'.PeerEnded → s'.conn.receiveEof = true)
    (hends : s'.EndsStream c) : s'.conn.canReceive = false := by
  have hlast : ∀ p, s.conn.Verdict s'.conn p → c = .ofProgress s.socketOpen p →
      s'.conn.canReceive = false := by
    intro p hv hc
    have hreceived : ∀ q, c = .returned (.received q) → q = p := by
      intro q hq
      rcases Call.ofProgress_cases s.socketOpen p with ⟨buffer, -, he⟩ | he
      · rw [he, hq] at hc
        cases hc
      · rw [he, hq] at hc
        exact Return.received.inj (Call.returned.inj hc)
    rcases hends with ⟨m, hm⟩ | ⟨hpeer, q, err, hq, herr, hevent⟩
    · exact TCPConnection.canReceive_of_ended (hv.last m (hreceived _ hm).symm)
    · cases hreceived q hq
      exact hv.failed err herr hevent (heof hpeer)
  cases h with
  | quiet same reads value =>
      rcases hends with ⟨m, hm⟩ | ⟨-, q, err, hq, -⟩
      · exact absurd hm (value _)
      · exact absurd hq (value q)
  | @begins around p hr =>
      have hv := s.conn.receive_verdict around.mem around.outside around.fresh
      rw [hr] at hv
      exact hlast p hv rfl
  | goesOn _ hr => exact hlast _ (TCPConnection.resume_verdict hr) rfl

/-! ## Receives one at a time -/

/-- A framed connection whose receives are issued one at a time. -/
structure Ordered (s : Link σ) : Prop where
  framed : s.conn.framer ≠ none
  one : ∀ (i j : Nat) (c c' : Call), s.calls[i]? = some c → s.calls[j]? = some c' → c.Reads → c'.Reads → i = j
  reads : ∀ (i : Nat) (c : Call), s.calls[i]? = some c → c.Reads →
    s.conn.receiveEof = false ∧ s.conn.receiveEnded = false
  eof : s.conn.receiveEof = true → s.conn.receiveEnded = true ∨ s.outcomes.getLast? = some (.error .eof)
  last : s.conn.receiveEnded = false → ∀ m, s.messages.getLast? = some m →
    m.endOfMessage = !s.conn.messageOpen

/-- A receive that waits for a read was waiting before, or there was none. -/
theorem Effect.reads {j : Nat} {c' : Call} (h : Effect s s' i c) (hj : j ≠ i) (hc : s'.calls[j]? = some c')
    (hr : c'.Reads) : ∃ c₀, s.calls[j]? = some c₀ ∧ c₀.Reads := by
  have hcancel : s'.calls[j]? = (s.calls[j]?).map Call.cancel → ∃ c₀, s.calls[j]? = some c₀ ∧ c₀.Reads := by
    intro hmap
    obtain ⟨c₀, hc₀, rfl⟩ := Option.map_eq_some_iff.mp (hmap.symm.trans hc)
    obtain ⟨buffer, op, he⟩ := hr
    cases c₀ with
    | suspended wait op₀ =>
        cases he
        exact ⟨_, hc₀, buffer, op₀, rfl⟩
    | returned v => cases he
  cases h with
  | turns others => exact ⟨c', (others j hj).symm.trans hc, hr⟩
  | closes others => exact hcancel (others j hj)
  | ends others => exact hcancel (others j hj)

/-- The Message of a stretch is the last one. -/
theorem last_of_ending {conn conn' : TCPConnection σ} {p : Progress} {ec : Option ErrorCode} {ms : List Message}
    (he : conn.Ending ec conn' p) (hlast : ∀ m, ms.getLast? = some m → m.endOfMessage = !conn.messageOpen)
    (hended : conn'.receiveEnded = false) :
    ∀ m, (ms ++ p.message.toList).getLast? = some m → m.endOfMessage = !conn'.messageOpen := by
  have hopen : conn'.messageOpen = p.leavesOpen conn.messageOpen :=
    he.messageOpen.resolve_left fun h => by rw [hended] at h; cases h
  intro m hm
  rw [hopen]
  unfold Progress.leavesOpen
  cases hp : p.message with
  | none =>
      rw [hp, Option.toList_none, List.append_nil] at hm
      exact hlast m hm
  | some m' =>
      rw [hp, Option.toList_some, List.getLast?_concat] at hm
      cases hm
      simp

theorem reads_ofProgress {isOpen : Bool} {p : Progress} (h : (Call.ofProgress isOpen p).Reads) :
    ∃ buffer, p = .suspended buffer := by
  rcases Call.ofProgress_cases isOpen p with ⟨buffer, hp, -⟩ | hc
  · exact ⟨buffer, hp⟩
  · rw [hc] at h
    exact absurd h Call.not_reads_returned

/-- A stretch of the only receive, which is the `i`-th call. -/
structure Advance (s s' : Link σ) (i : Nat) (ec : Option ErrorCode) (p : Progress) : Prop where
  ended : s.conn.receiveEnded = false
  ending : s.conn.Ending ec s'.conn p
  messages : s'.messages = s.messages ++ p.message.toList
  outcomes : s.conn.receiveEof = true ∨ ec = some .eof → s'.outcomes.getLast? = some (.error .eof)
  only : ∀ (j : Nat) (c : Call), s.calls[j]? = some c → c.Reads → j = i

/-- A receive that is refused counts as no stretch. -/
theorem Flow.ordered (hflow : Flow s s' e c) (h : Ordered s) (hone : OneAtATime s e s') :
    (SameStream s s' ∧ (c.Reads → ∃ c₀, s.calls[s.callOf e]? = some c₀ ∧ c₀.Reads) ∧
      ∀ m, c ≠ .returned (.received (.ended m))) ∨
    ∃ ec p, c = .ofProgress s.socketOpen p ∧ Advance s s' (s.callOf e) ec p := by
  cases hflow with
  | quiet same reads value => exact .inl ⟨same, reads, fun m => value (.ended m)⟩
  | @begins around p hr houtcomes hmessages =>
      rcases TCPConnection.receive_ending h.framed hr with ⟨err, hconn, rfl⟩ | ⟨hended, he⟩
      · have hsame : SameStream s s' := by
          refine ⟨?_, ?_, ?_, ?_, houtcomes, hmessages.trans (List.append_nil _)⟩ <;> rw [hconn]
        exact .inl ⟨hsame, (absurd · Call.not_reads_returned), by simp [Call.ofProgress]⟩
      · refine .inr ⟨none, p, rfl,
          { ended := hended, ending := he, messages := hmessages, outcomes := ?_, only := ?_ }⟩
        · rintro (heof | heof)
          · rw [houtcomes]
            refine (h.eof heof).resolve_left fun h' => ?_
            rw [hended] at h'
            cases h'
          · cases heof
        · exact fun j c hc hr' => absurd hr' (hone around rfl c (List.mem_of_getElem? hc))
  | @goesOn i buffer outcome around ec p hi hr houtcomes hmessages =>
      have hreads : Call.Reads (.suspended (.read buffer) (.completed outcome)) := ⟨buffer, _, rfl⟩
      obtain ⟨heof, hended⟩ := h.reads i _ hi hreads
      refine .inr ⟨errorOf outcome, p, rfl,
        { ended := hended, ending := TCPConnection.resume_ending h.framed hr, messages := hmessages
          outcomes := ?_, only := fun j c hc hr' => h.one j i c _ hc hi hr' hreads }⟩
      rintro (heof' | hcode)
      · rw [heof] at heof'
        cases heof'
      · rw [houtcomes, List.getLast?_concat]
        cases outcome with
        | error code =>
            cases hcode
            rfl
        | ok n => cases hcode

theorem Ordered.same (h : Ordered s) (hs : SameStream s s')
    (hreads : ∀ (j : Nat) (c : Call), s'.calls[j]? = some c → c.Reads → ∃ c₀, s.calls[j]? = some c₀ ∧ c₀.Reads) :
    Ordered s' where
  framed := hs.framer ▸ h.framed
  one i j c c' hc hc' hr hr' := by
    obtain ⟨c₀, hc₀, hr₀⟩ := hreads i c hc hr
    obtain ⟨c₁, hc₁, hr₁⟩ := hreads j c' hc' hr'
    exact h.one i j c₀ c₁ hc₀ hc₁ hr₀ hr₁
  reads i c hc hr := by
    obtain ⟨c₀, hc₀, hr₀⟩ := hreads i c hc hr
    rw [hs.eof, hs.ended]
    exact h.reads i c₀ hc₀ hr₀
  eof := by
    rw [hs.eof, hs.ended, hs.outcomes]
    exact h.eof
  last := by
    rw [hs.ended, hs.messages, hs.messageOpen]
    exact h.last

theorem Ordered.advance {ec : Option ErrorCode} {p : Progress} (h : Ordered s) (ha : Advance s s' i ec p)
    (hreads : ∀ (j : Nat) (c : Call), s'.calls[j]? = some c → c.Reads → j = i ∧ ∃ buffer, p = .suspended buffer) :
    Ordered s' where
  framed := ha.ending.framer ▸ h.framed
  one j k c c' hc hc' hr hr' := (hreads j c hc hr).1.trans (hreads k c' hc' hr').1.symm
  reads j c hc hr := by
    obtain ⟨-, buffer, hp⟩ := hreads j c hc hr
    exact (ha.ending.reads buffer hp).imp_right fun h' => h'.trans ha.ended
  eof heof := by
    rcases ha.ending.eof heof with h' | h' | ⟨h', -⟩
    · exact .inr (ha.outcomes (.inl h'))
    · exact .inr (ha.outcomes (.inr h'))
    · exact .inl h'
  last hended := by
    rw [ha.messages]
    exact last_of_ending ha.ending (h.last ha.ended) hended

theorem step_ordered (h : Ordered s) (hst : s.step e = some s') (hone : OneAtATime s e s') : Ordered s' := by
  obtain ⟨c, hc, heff⟩ := (step_steps hst).effect
  obtain ⟨c₁, hc₁, hflow⟩ := (step_steps hst).flow
  cases hc.symm.trans hc₁
  rcases hflow.ordered h hone with ⟨hsame, hreads, -⟩ | ⟨ec, p, rfl, ha⟩
  · refine h.same hsame fun j c' hc' hr => ?_
    by_cases hj : j = s.callOf e
    · subst hj
      cases hc.symm.trans hc'
      exact hreads hr
    · exact heff.reads hj hc' hr
  · refine h.advance ha fun j c' hc' hr => ?_
    have hj : j = s.callOf e := by
      by_contra hj
      obtain ⟨c₀, hc₀, hr₀⟩ := heff.reads hj hc' hr
      exact hj (ha.only j c₀ hc₀ hr₀)
    subst hj
    cases hc.symm.trans hc'
    exact ⟨rfl, reads_ofProgress hr⟩

/-- The end-of-stream Message comes after `eof`, with nothing left unparsed and no Message open. -/
theorem step_ended {m : Message} (h : Ordered s) (hst : s.step e = some s') (hone : OneAtATime s e s')
    (hc : s'.calls[s.callOf e]? = some (.returned (.received (.ended m)))) :
    s'.outcomes.getLast? = some (.error .eof) ∧ s'.conn.receiveChain.size = 0 ∧
      ∀ m', s'.messages.getLast? = some m' → m'.endOfMessage = true := by
  obtain ⟨c, hc₁, hflow⟩ := (step_steps hst).flow
  cases hc₁.symm.trans hc
  rcases hflow.ordered h hone with ⟨-, -, hne⟩ | ⟨ec, p, hp, ha⟩
  · exact absurd rfl (hne m)
  · have hp : p = .ended m := by
      rcases Call.ofProgress_cases s.socketOpen p with ⟨buffer, -, he⟩ | he
      · cases hp.trans he
      · exact (Return.received.inj (Call.returned.inj (hp.trans he))).symm
    subst hp
    obtain ⟨heof, hopen, hsize⟩ := ha.ending.ended m rfl
    refine ⟨ha.outcomes ?_, hsize, fun m' hm' => ?_⟩
    · rcases ha.ending.eof heof with h' | h' | ⟨-, err, herr⟩
      · exact .inl h'
      · exact .inr h'
      · cases herr
    · rw [ha.messages, show (Progress.ended m).message.toList = [] from rfl, List.append_nil] at hm'
      rw [h.last ha.ended m' hm', hopen, Bool.not_false]

theorem reachable_ordered {s₀ : Link σ} {es : List LinkEvent} (h₀ : (system σ).init s₀)
    (hf : s₀.conn.framer ≠ none) (h : ((system σ).restrict OneAtATime).Run s₀ es s) : Ordered s := by
  refine h.preserves (I := Ordered) ?_ ?_
  · exact fun s e s' hi hst => step_ordered hi hst.1 hst.2
  obtain ⟨framer, framerState, pool, secured, rfl⟩ := h₀
  exact
    { framed := hf, one := by simp [create], reads := by simp [create], eof := nofun
      last := by simp [create] }

end Link

end Taps
