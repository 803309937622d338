import Taps.Tcp.Lemmas.Reads

/-!
# Changes of the receive mode

A framer may be set or removed between two receives. As long as no read of a receive without a framer completes while
bytes are left unparsed, each stretch takes what it takes from the front of them.
-/

namespace Taps

/-! ## The end of the stream without a framer -/

namespace TCPConnection

variable {σ : Type} {mem : Memory} {outside : List Addr} {fresh : Addr} {c c' : TCPConnection σ} {m : Message}

theorem receive_unframed_ended (hf : c.framer = none) : (c.receive mem outside fresh).2 ≠ .ended m := by
  unfold receive
  split
  · simp
  · rw [hf]
    cases hr : c.readBlock outside fresh with
    | none => simp [issueRead_of_none hr, fail]
    | some r => simp [issueRead_of_some hr]

theorem resume_unframed_ended {ec : Option ErrorCode} {n : Nat} (hf : c.framer = none)
    (h : c.resume mem outside fresh ec n = some (c', .ended m)) :
    ec = some .eof ∧ c'.receiveChain = c.receiveChain := by
  unfold resume finishRead at h
  split at h
  · simp only [hf, unframedChunk, Option.map_some, Option.some.injEq, Prod.mk.injEq] at h
    exact ⟨rfl, by rw [← h.1]⟩
  · split at h <;> simp [fail] at h
  · cases hr : c.currentBlock with
    | none => simp [hr] at h
    | some r => simp [hr, hf, unframedChunk] at h

end TCPConnection

/-! ## Runs that change the mode -/

namespace Session

variable {σ : Type} {s s' s₁ : Session σ} {c c₁ : TCPConnection σ} {p : Progress} {received : List Byte}

open TCPConnection

/-- Every byte read is accepted, discarded at the end of the stream, or unparsed. -/
structure Balanced (s : Session σ) : Prop where
  bytes : s.history.read = s.history.acceptedBytes ++ s.history.discarded ++ s.unparsed
  ended : s.history.discarded ≠ [] → s.conn.receiveEnded = true
  flight : s.pending ≠ none → s.conn.receiveEnded = false

/-- A step takes what it accepts or discards from the front of the unparsed bytes and those just received, and the
Message that ends the stream leaves none of them. -/
structure Advances (s s' : Session σ) (received : List Byte) : Prop where
  taken : ∃ bs, s.unparsed ++ received = bs ++ s'.unparsed ∧
    s'.history.acceptedBytes ++ s'.history.discarded = s.history.acceptedBytes ++ s.history.discarded ++ bs
  read : s'.history.read = s.history.read ++ received
  last : ∀ bs eom, s'.history.replies = s.history.replies ++ [.message bs eom] → s'.conn.receiveEnded = true →
    s'.unparsed = []

theorem create_balanced (mem : Memory) (state : ConnectionState) (framer : Option (MessageFramer σ)) (framerState : σ)
    (pool : MessageBlockPool) : Balanced (create mem (.create state framer framerState pool)) where
  bytes := rfl
  ended h := absurd rfl h
  flight h := absurd rfl h

theorem Advances.of_same (hunparsed : s'.unparsed = s.unparsed) (hhistory : s'.history = s.history) :
    Advances s s' [] where
  taken := ⟨[], by simp [hunparsed], by simp [hhistory]⟩
  read := by simp [hhistory]
  last := by simp [hhistory]

theorem Advances.bytes (h : Advances s s' received) (hb : Balanced s) :
    s'.history.read = s'.history.acceptedBytes ++ s'.history.discarded ++ s'.unparsed := by
  obtain ⟨bs, hunparsed, haccepted⟩ := h.taken
  rw [h.read, hb.bytes, haccepted, List.append_assoc _ bs, ← hunparsed, ← List.append_assoc]

/-- What a stretch from `c₁` needs: the chain holds the unparsed bytes and those just received, and the stream has
not ended, or the receive is refused. -/
structure Starts (s s₁ : Session σ) (c₁ c : TCPConnection σ) (p : Progress) (received : List Byte) : Prop where
  turn : ∃ outside fresh, Turn s₁.mem fresh c₁ c p ∧ Paced outside fresh c₁ c p
  bytes : c₁.receiveChain.bytes s₁.mem = s.unparsed ++ received
  history : s₁.history = { s.history with read := s.history.read ++ received }
  opened : s.conn.receiveEnded = false ∧ c₁.receiveEnded = false ∨ (∃ e, p = .failed e) ∧ c.receiveEnded = true
  unframed : ∀ m, p = .ended m → c₁.framer = none → c.receiveChain.size = 0

theorem Starts.discarded (h : Starts s s₁ c₁ c p received) (hb : Balanced s) :
    s.history.discarded = [] ∨ (∃ e, p = .failed e) ∧ c.receiveEnded = true := by
  rcases h.opened with ⟨hopen, -⟩ | hfailed
  · left
    by_contra hne
    rw [hb.ended hne] at hopen
    cases hopen
  · exact .inr hfailed

theorem Starts.advances (h : Starts s s₁ c₁ c p received) (hb : Balanced s) :
    Advances s (s₁.settle (c₁.receiveChain.bytes s₁.mem) c p) received := by
  obtain ⟨outside, fresh, ht, hp⟩ := h.turn
  have hfailed : s₁.history.discarded = [] ∨ ∃ e, p = .failed e := by
    rw [h.history]
    exact (h.discarded hb).imp_right And.left
  refine ⟨⟨p.taken s₁.mem (c₁.receiveChain.bytes s₁.mem), ?_, ?_⟩, ?_, ?_⟩
  · rw [← h.bytes]
    exact ht.bytes
  · refine (History.record_bytes hfailed).trans ?_
    rw [h.history]
    rfl
  · refine History.record_read.trans ?_
    rw [h.history]
  · intro bs eom hreply hended
    replace hreply : (s₁.history.record s₁.mem _ p).replies = _ := hreply
    rw [History.record_replies, h.history] at hreply
    have hresult := List.append_cancel_left hreply
    have hsize : c.receiveChain.size = 0 := by
      cases p with
      | ended m =>
          rcases hp.ended m rfl with hsize | hframer
          · exact hsize
          · exact h.unframed m rfl hframer
      | delivered d m =>
          rcases h.opened with ⟨-, hopen⟩ | ⟨⟨e, he⟩, -⟩
          · rw [← hp.unended (.inr ⟨d, m, rfl⟩)] at hopen
            exact absurd (hopen.symm.trans hended) (by simp)
          · cases he
      | suspended _ | incomplete _ _ | failed _ => simp [Progress.result, Reply.ofResult] at hresult
    exact BlockChain.bytes_eq_nil hsize

theorem Starts.balanced (h : Starts s s₁ c₁ c p received) (hb : Balanced s) :
    Balanced (s₁.settle (c₁.receiveChain.bytes s₁.mem) c p) where
  bytes := (h.advances hb).bytes hb
  ended hne := by
    obtain ⟨outside, fresh, ht, -⟩ := h.turn
    have hdiscarded : s₁.history.discarded = s.history.discarded := by rw [h.history]
    rcases h.discarded hb with hnil | ⟨-, hended⟩
    · cases p with
      | incomplete n e => exact (ht.incomplete n e rfl).2.1
      | suspended _ | delivered _ _ | ended _ | failed _ => exact absurd (hdiscarded.trans hnil) hne
    · exact hended
  flight hpending := by
    obtain ⟨outside, fresh, ht, hp⟩ := h.turn
    cases p with
    | suspended b =>
        rcases h.opened with ⟨-, hopen⟩ | ⟨⟨e, he⟩, -⟩
        · exact (hp.unended (.inl ⟨b, rfl⟩)).trans hopen
        · cases he
    | delivered _ _ | ended _ | incomplete _ _ | failed _ => exact absurd rfl hpending

/-! ## Steps -/

theorem step_receive_starts {fresh : Fresh} (h : s.step (.receive fresh) = some s') :
    ∃ s₁ c₁ c p, Starts s s₁ c₁ c p [] ∧ s' = s₁.settle (c₁.receiveChain.bytes s₁.mem) c p := by
  obtain ⟨-, hfresh, c, p, heq, rfl⟩ := step_receive h
  have ht := receive_turn (s.allocated fresh).mem s.outside fresh.addr s.conn
  have hp := receive_paced (s.allocated fresh).mem s.outside fresh.addr s.conn
  rw [heq] at ht hp
  refine ⟨s.allocated fresh, s.conn, c, p, ⟨⟨_, _, ht, hp⟩, ?_, ?_, ?_, ?_⟩, rfl⟩
  · rw [List.append_nil]
    exact unparsed_allocated hfresh
  · simp [allocated]
  · cases hended : s.conn.receiveEnded with
    | false => exact .inl ⟨rfl, rfl⟩
    | true =>
        obtain ⟨e, hrefused⟩ := receive_of_ended hended
        cases heq.symm.trans hrefused
        exact .inr ⟨⟨e, rfl⟩, hended⟩
  · rintro m rfl hframer
    exact absurd (congrArg Prod.snd heq) (receive_unframed_ended hframer)

theorem step_readDone_starts {outcome : ReadOutcome} {fresh : Fresh} (hi : Inv s) (hb : Balanced s)
    (h : s.step (.readDone outcome fresh) = some s') (hheeds : Heeds s (.readDone outcome fresh)) :
    ∃ s₁ c₁ c p, Starts s s₁ c₁ c p outcome.bytes ∧ s' = s₁.settle (c₁.receiveChain.bytes s₁.mem) c p := by
  obtain ⟨b, c, p, hpending, hlen, hfresh, heq, rfl⟩ := step_readDone h
  have hopen : s.conn.receiveEnded = false := hb.flight (by simp [hpending])
  have hun := unparsed_completed hi hpending hfresh outcome
  rcases resume_paced heq with ⟨hec, r, hr, hp⟩ | ⟨hec, hp⟩
  · obtain ⟨-, r', hr', -, ht, -⟩ := (resume_cases heq).resolve_right fun hn => hn.1 hec
    cases hr.symm.trans hr'
    obtain ⟨r', hr', rfl⟩ := hi.pending b hpending
    cases hr.symm.trans hr'
    have hbytes := bytes_withChunk hi hpending hfresh outcome
    refine ⟨_, _, c, p, ⟨⟨_, _, ht ?_, hp⟩, hbytes, rfl, .inl ⟨hopen, hopen⟩, ?_⟩, by rw [hun, hbytes]⟩
    · by_cases hempty : outcome.bytes = []
      · exact .inr (.inr (List.length_eq_zero_iff.mpr hempty))
      · by_cases hframer : s.conn.framer = none
        · exact .inr (.inl (hheeds hframer (.inl hempty)))
        · exact .inl hframer
    · rintro m rfl hframer
      replace hframer : s.conn.framer = none := hframer
      have heof := (resume_unframed_ended hframer heq).1
      rw [hec] at heof
      cases heof
  · obtain ⟨-, ht⟩ := (resume_cases heq).resolve_left fun hn => hec hn.1
    have hnil : outcome.bytes = [] := by
      cases outcome with
      | data bs => exact absurd rfl hec
      | failed ec => rfl
    have hbytes : s.conn.receiveChain.bytes (s.completed b outcome fresh).mem = s.unparsed ++ outcome.bytes := by
      rw [hnil, List.append_nil]
      exact hun
    refine ⟨_, s.conn, c, p, ⟨⟨_, _, ht, hp⟩, hbytes, rfl, .inl ⟨hopen, hopen⟩, ?_⟩, by rw [hun, hbytes]⟩
    rintro m rfl hframer
    obtain ⟨heof, hchain⟩ := resume_unframed_ended hframer heq
    rw [hchain]
    exact hheeds hframer (.inr heof)

theorem step_advances {e : SessionEvent σ} (hi : Inv s) (hb : Balanced s) (h : s.step e = some s')
    (hheeds : Heeds s e) : Balanced s' ∧ Advances s s' e.received := by
  cases e with
  | receive fresh =>
      obtain ⟨s₁, c₁, c, p, hs, rfl⟩ := step_receive_starts h
      exact ⟨hs.balanced hb, hs.advances hb⟩
  | readDone outcome fresh =>
      obtain ⟨s₁, c₁, c, p, hs, rfl⟩ := step_readDone_starts hi hb h hheeds
      exact ⟨hs.balanced hb, hs.advances hb⟩
  | drop i =>
      cases h
      exact ⟨{ hb with }, .of_same rfl rfl⟩
  | others state aborted =>
      cases h
      exact ⟨{ hb with }, .of_same rfl rfl⟩
  | setFramer framer framerState =>
      simp only [step] at h
      split at h
      · cases h
        exact ⟨{ hb with }, .of_same rfl rfl⟩
      · cases h

theorem reachable_balanced (h : ((system σ).restrict fun s e _ => Heeds s e).Reachable s) : Inv s ∧ Balanced s := by
  apply h.invariant
  · rintro _ ⟨mem, state, framer, framerState, pool, rfl⟩
    exact ⟨create_inv .., create_balanced ..⟩
  · rintro s e s' ⟨hi, hb⟩ ⟨hst, hheeds⟩
    exact ⟨step_inv hi hst, (step_advances hi hb hst hheeds).1⟩

end Session

end Taps
