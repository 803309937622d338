import Taps.Tcp.Lemmas.Framed
import Taps.Tcp.Transfer

/-!
# Receiving a whole stream with the length-prefixed framer

A receive asks the framer for longer and longer prefixes of the stream until it answers. The prefix
that it answers to is a cut of the stream, and that answer is where the scan of the stream starts.
-/

namespace Taps

open LengthPrefixedFramer (Outcome)

variable {native : Endian} {f : LengthPrefixedFramer} {u v bs : List Byte} {r : Reply}
  {eof o e : Bool}

/-! ## Sessions -/

namespace Session

variable {s s' : Session Unit}

structure Ready (native : Endian) (f : LengthPrefixedFramer) (s : Session Unit) (u : List Byte)
    (eof messageOpen ended : Bool) : Prop where
  inv : Inv s
  conn : s.conn.Holds native f s.mem u eof messageOpen ended

/-- A step from `s` to `s'` had the outcome of a turn. -/
def Reaches (native : Endian) (f : LengthPrefixedFramer) (s s' : Session Unit) (u : List Byte)
    (eof messageOpen : Bool) : Outcome → Prop
  | .wait =>
      (∃ b, s'.pending = some b ∧ 0 < b.len) ∧ s'.Ready native f u eof messageOpen false ∧
        s'.history.replies = s.history.replies
  | .reply r v o e =>
      s'.pending = none ∧ s'.Ready native f v eof o e ∧
        s'.history.replies = s.history.replies ++ [r]

theorem settle_reaches {c : TCPConnection Unit} {p : Progress} {unparsed : List Byte} {out : Outcome}
    (h : TCPConnection.Answers native f s.mem u eof o c p out) (hi : Inv (s.settle unparsed c p)) :
    Reaches native f s (s.settle unparsed c p) u eof o out := by
  cases out with
  | wait =>
      obtain ⟨⟨b, rfl, hlen⟩, hc⟩ := h
      refine ⟨⟨b, rfl, hlen⟩, ⟨hi, hc⟩, ?_⟩
      simp [settle, History.record_replies, Progress.result]
  | reply r v o e =>
      obtain ⟨hr, hc⟩ := h
      refine ⟨?_, ⟨hi, hc⟩, ?_⟩
      · cases p with
        | suspended b => cases hr
        | delivered _ _ | ended _ | incomplete _ _ | failed _ => rfl
      · simp [settle, History.record_replies, hr]

theorem step_receive_reaches (h : s.Ready native f u eof o false) (hp : s.pending = none)
    {fresh : Fresh} (hfresh : fresh.addr ∉ s.handles) :
    ∃ s', s.step (.receive fresh) = some s' ∧ Reaches native f s s' u eof o (f.turn u eof o) := by
  have hc : s.conn.Holds native f (s.allocated fresh).mem u eof o false :=
    { h.conn with bytes := (unparsed_allocated hfresh).trans h.conn.bytes }
  have hstep : s.step (.receive fresh) = some ((s.allocated fresh).settle (s.allocated fresh).unparsed
      (s.conn.receive (s.allocated fresh).mem s.outside fresh.addr).1
      (s.conn.receive (s.allocated fresh).mem s.outside fresh.addr).2) :=
    if_pos ⟨hp, hfresh⟩
  have hi := step_inv h.inv hstep
  rw [TCPConnection.receive_framed hc] at hstep hi
  exact ⟨_, hstep, settle_reaches (TCPConnection.framedTurn_answers hc) hi⟩

theorem step_readDone_of_resume {b : ReadBuffer} (outcome : ReadOutcome) {fresh : Fresh}
    {c : TCPConnection Unit} {p : Progress} (hb : s.pending = some b)
    (hlen : outcome.bytes.length ≤ b.len) (hfresh : fresh.addr ∉ s.handles)
    (h : s.conn.resume (s.completed b outcome fresh).mem s.outside fresh.addr outcome.code
      outcome.bytes.length = some (c, p)) :
    s.step (.readDone outcome fresh) = some ((s.completed b outcome fresh).settle
      ((s.completed b outcome fresh).unparsed ++ outcome.bytes) c p) := by
  have hc : outcome.bytes.length ≤ b.len ∧ fresh.addr ∉ s.handles := ⟨hlen, hfresh⟩
  simp only [step, hb, if_pos hc]
  exact congrArg (Option.map _) h

theorem step_data_reaches (h : s.Ready native f u false o false) {b : ReadBuffer}
    (hb : s.pending = some b) (hlen : bs.length ≤ b.len) {fresh : Fresh}
    (hfresh : fresh.addr ∉ s.handles) :
    ∃ s', s.step (.readDone (.data bs) fresh) = some s' ∧
      Reaches native f s s' (u ++ bs) false o (f.turn (u ++ bs) false o) := by
  obtain ⟨r, hr, rfl⟩ := h.inv.pending b hb
  have hc : (s.conn.withChunk r bs.length).Holds native f
      (s.completed (s.conn.bufferOf r) (.data bs) fresh).mem (u ++ bs) false o false := by
    refine { h.conn with bytes := ?_ }
    rw [← h.conn.bytes]
    exact bytes_withChunk h.inv hb hfresh (.data bs)
  have hstep := step_readDone_of_resume (.data bs) hb hlen hfresh
    (TCPConnection.resume_data h.conn hr _)
  exact ⟨_, hstep, settle_reaches (TCPConnection.framedTurn_answers hc) (step_inv h.inv hstep)⟩

theorem step_eof_reaches (h : s.Ready native f u false o false) {b : ReadBuffer}
    (hb : s.pending = some b) {fresh : Fresh} (hfresh : fresh.addr ∉ s.handles) :
    ∃ s', s.step (.readDone (.failed .eof) fresh) = some s' ∧
      Reaches native f s s' u true o (f.turn u true o) := by
  have hc : { s.conn with receiveEof := true }.Holds native f
      (s.completed b (.failed .eof) fresh).mem u true o false :=
    { h.conn with
      bytes := (unparsed_completed h.inv hb hfresh _).trans h.conn.bytes
      eof := rfl }
  have hstep := step_readDone_of_resume (.failed .eof) hb (Nat.zero_le _) hfresh
    (TCPConnection.resume_eof h.conn _)
  exact ⟨_, hstep, settle_reaches (TCPConnection.framedTurn_answers hc) (step_inv h.inv hstep)⟩

theorem step_receive_refused (h : s.Ready native f u eof o true) (hp : s.pending = none)
    {fresh : Fresh} (hfresh : fresh.addr ∉ s.handles) :
    ∃ s', s.step (.receive fresh) = some s' ∧ s'.pending = none ∧ s'.Ready native f u eof o true ∧
      s'.history.replies = s.history.replies ++ [.error .receiveError .invalidState] := by
  have hstep : s.step (.receive fresh) = some ((s.allocated fresh).settle (s.allocated fresh).unparsed
      (s.conn.receive (s.allocated fresh).mem s.outside fresh.addr).1
      (s.conn.receive (s.allocated fresh).mem s.outside fresh.addr).2) :=
    if_pos ⟨hp, hfresh⟩
  have hi := step_inv h.inv hstep
  have hrefused : s.conn.receive (s.allocated fresh).mem s.outside fresh.addr
      = (s.conn, .failed ⟨.receiveError, .invalidState,
        .text "the stream has ended: no more Messages"⟩) := by
    simp [TCPConnection.receive, TCPConnection.receiveRefused, TCPConnection.canReceive, h.conn.ended]
  rw [hrefused] at hstep hi
  refine ⟨_, hstep, rfl, ⟨hi, { h.conn with bytes := ?_ }⟩, rfl⟩
  exact (unparsed_allocated hfresh).trans h.conn.bytes

/-- Dropping Messages changes nothing that a receive depends on. -/
theorem foldlM_drop (native : Endian) (f : LengthPrefixedFramer) (s : Session Unit) (is : List Nat) :
    ∃ s', (is.map .drop).foldlM step s = some s' ∧ s'.pending = s.pending ∧
      ∀ u eof o e, s.Ready native f u eof o e → s'.Ready native f u eof o e := by
  induction is generalizing s with
  | nil => exact ⟨s, rfl, rfl, fun _ _ _ _ h => h⟩
  | cons i is ih =>
      obtain ⟨s', hs, hp, hready⟩ := ih { s with kept := s.kept.eraseIdx i }
      refine ⟨s', hs, hp, fun u eof o e h => hready u eof o e ⟨?_, h.conn⟩⟩
      exact step_inv (e := .drop i) h.inv rfl

end Session

/-! ## Reads -/

/-- A read into a buffer with room takes a byte at least off the stream. -/
theorem nextRead_cons {len : Nat} (hlen : 0 < len) {c : List Byte} {cs : List (List Byte)}
    (hchunks : ∀ x ∈ c :: cs, x ≠ []) :
    ∃ bs rest, nextRead len (c :: cs) = (.data bs, rest) ∧ bs ≠ [] ∧ bs.length ≤ len ∧
      bs ++ rest.flatten = (c :: cs).flatten ∧ ∀ x ∈ rest, x ≠ [] := by
  rw [List.forall_mem_cons] at hchunks
  have hpos := List.length_pos_iff.mpr hchunks.1
  by_cases hc : c.length ≤ len
  · exact ⟨c, cs, if_pos hc, hchunks.1, hc, rfl, hchunks.2⟩
  · refine ⟨c.take len, c.drop len :: cs, if_neg hc, ?_, ?_, ?_, ?_⟩
    · rw [← List.length_pos_iff, List.length_take]
      omega
    · exact List.length_take_le ..
    · rw [List.flatten_cons, List.flatten_cons, ← List.append_assoc, List.take_append_drop]
    · rw [List.forall_mem_cons, ← List.length_pos_iff, List.length_drop]
      exact ⟨by omega, hchunks.2⟩

namespace Transfer

variable {env : Environment} {t t' : Transfer Unit} {u' : List Byte}

theorem fresh_not_mem (env : Environment) (t : Transfer Unit) :
    (t.fresh env).addr ∉ t.session.handles :=
  env.allocate_fresh t.clock t.session.handles

theorem complete_of_pending_none (env : Environment) (fuel : Nat) (h : t.session.pending = none) :
    t.complete env fuel = some t := by
  rw [complete, h]

theorem complete_of_step (fuel : Nat) {b : ReadBuffer} {s : Session Unit} {outcome : ReadOutcome}
    {rest : List (List Byte)} (hb : t.session.pending = some b)
    (hread : nextRead b.len t.rest = (outcome, rest))
    (hstep : t.session.step (.readDone outcome (t.fresh env)) = some s) :
    t.complete env (fuel + 1)
      = complete env fuel { session := s, rest, clock := t.clock + 1 } := by
  rw [complete, hb]
  simp only [hread, hstep, Option.bind_some]

theorem receive_of_step {s : Session Unit} (hstep : t.session.step (.receive (t.fresh env)) = some s)
    (hp : s.pending = none) :
    t.receive env = some { session := s, rest := t.rest, clock := t.clock + 1 } := by
  rw [receive, hstep]
  exact complete_of_pending_none env _ hp

/-- No receive is in flight, and the chunks to come are not empty. -/
structure Idle (t : Transfer Unit) : Prop where
  pending : t.session.pending = none
  chunks : ∀ c ∈ t.rest, c ≠ []

/-- A receive that found `u` unparsed has returned `r`: it is the answer to the bytes `u'` of the
stream. Where the stream had ended, the framer would have waited for more; where it had not, all but
the bytes of the last read were not enough. -/
structure Answered (native : Endian) (f : LengthPrefixedFramer) (t t' : Transfer Unit)
    (u u' : List Byte) (eof : Bool) (r : Reply) (v : List Byte) (o e : Bool) : Prop extends
    Idle t' where
  ready : t'.session.Ready native f v eof o e
  replies : t'.session.history.replies = t.session.history.replies ++ [r]
  turn : f.turn u' eof false = .reply r v o e
  stream : u' ++ t'.rest.flatten = u ++ t.rest.flatten
  wait : eof = true → t'.rest = [] ∧ f.turn u' false false = .wait
  last : eof = false → u' = u ∨
    ∃ u₀ bs, u' = u₀ ++ bs ∧ bs.length < 2 ^ 63 ∧ f.turn u₀ false false = .wait

theorem len_lt (h : t.session.Ready native f u eof o e) {b : ReadBuffer}
    (hb : t.session.pending = some b) : b.len < 2 ^ 63 := by
  obtain ⟨r, hr, rfl⟩ := h.inv.pending b hb
  rw [TCPConnection.capacity_bufferOf h.inv.free hr]
  have := t.session.conn.blockPool.blockSize_lt
  omega

/-- The induction is on the fuel, which bounds the bytes to come. -/
theorem complete_answered (env : Environment) {fuel : Nat} (h : t.session.Ready native f u false false false)
    (hwait : f.turn u false false = .wait) {b : ReadBuffer} (hb : t.session.pending = some b)
    (hlen : 0 < b.len) (hchunks : ∀ c ∈ t.rest, c ≠ []) (hfuel : t.rest.flatten.length + 1 ≤ fuel) :
    ∃ t' u' eof r v o e, t.complete env fuel = some t' ∧ Answered native f t t' u u' eof r v o e := by
  induction fuel generalizing t u b with
  | zero => omega
  | succ fuel ih =>
      have hfresh := fresh_not_mem env t
      cases hrest : t.rest with
      | nil =>
          obtain ⟨s, hstep, hreach⟩ := Session.step_eof_reaches h hb hfresh
          cases hturn : f.turn u true false with
          | wait => exact absurd hturn LengthPrefixedFramer.turn_eof_ne_wait
          | reply r v o e =>
              rw [hturn] at hreach
              obtain ⟨hp, hready, hreplies⟩ := hreach
              have hnext := complete_of_step fuel hb (by rw [hrest]; rfl) hstep
              have hdone := complete_of_pending_none env fuel (t := ⟨s, [], t.clock + 1⟩) hp
              exact ⟨_, u, true, r, v, o, e, hnext.trans hdone,
                { pending := hp
                  chunks := by simp
                  ready := hready
                  replies := hreplies
                  turn := hturn
                  stream := by simp [hrest]
                  wait := fun _ => ⟨rfl, hwait⟩
                  last := by simp }⟩
      | cons c cs =>
          rw [hrest] at hchunks hfuel
          obtain ⟨bs, rest, hread, hne, hle, hflat, hchunks'⟩ := nextRead_cons hlen hchunks
          obtain ⟨s, hstep, hreach⟩ := Session.step_data_reaches h hb hle hfresh
          have hnext := complete_of_step fuel hb (by rw [hrest]; exact hread) hstep
          have hstream : (u ++ bs) ++ rest.flatten = u ++ t.rest.flatten := by
            rw [List.append_assoc, hflat, hrest]
          have hshort : bs.length < 2 ^ 63 := Nat.lt_of_le_of_lt hle (len_lt h hb)
          cases hturn : f.turn (u ++ bs) false false with
          | wait =>
              rw [hturn] at hreach
              obtain ⟨⟨b', hb', hlen'⟩, hready, hreplies⟩ := hreach
              have hfuel' : rest.flatten.length + 1 ≤ fuel := by
                have hpos := List.length_pos_iff.mpr hne
                have hsum := congrArg List.length hflat
                rw [List.length_append] at hsum
                omega
              obtain ⟨t', u', eof, r, v, o, e, hcomplete, ha⟩ :=
                ih (t := ⟨s, rest, t.clock + 1⟩) hready hturn hb' hlen' hchunks' hfuel'
              exact ⟨t', u', eof, r, v, o, e, hnext.trans hcomplete,
                { ha with
                  replies := ha.replies.trans (by rw [hreplies])
                  stream := ha.stream.trans hstream
                  last := fun heof => (ha.last heof).elim
                    (fun heq => Or.inr ⟨u, bs, heq, hshort, hwait⟩) Or.inr }⟩
          | reply r v o e =>
              rw [hturn] at hreach
              obtain ⟨hp, hready, hreplies⟩ := hreach
              have hdone := complete_of_pending_none env fuel (t := ⟨s, rest, t.clock + 1⟩) hp
              exact ⟨_, u ++ bs, false, r, v, o, e, hnext.trans hdone,
                { pending := hp
                  chunks := hchunks'
                  ready := hready
                  replies := hreplies
                  turn := hturn
                  stream := hstream
                  wait := by simp
                  last := fun _ => Or.inr ⟨u, bs, rfl, hshort, hwait⟩ }⟩

theorem receive_answered (env : Environment) (h : t.session.Ready native f u false false false)
    (hidle : Idle t) :
    ∃ t' u' eof r v o e, t.receive env = some t' ∧ Answered native f t t' u u' eof r v o e ∧
      (f.turn u false false = .wait ∨ u' = u ∧ eof = false) := by
  obtain ⟨s, hstep, hreach⟩ := Session.step_receive_reaches h hidle.pending (fresh_not_mem env t)
  have hreceive : t.receive env = complete env (t.rest.flatten.length + 1)
      { t with session := s, clock := t.clock + 1 } := by
    rw [receive, hstep]
    rfl
  cases hturn : f.turn u false false with
  | wait =>
      rw [hturn] at hreach
      obtain ⟨⟨b, hb, hlen⟩, hready, hreplies⟩ := hreach
      obtain ⟨t', u', eof, r, v, o, e, hcomplete, ha⟩ := complete_answered env
        (t := ⟨s, t.rest, t.clock + 1⟩) hready hturn hb hlen hidle.chunks (Nat.le_refl _)
      exact ⟨t', u', eof, r, v, o, e, hreceive.trans hcomplete,
        { ha with
          replies := ha.replies.trans (by rw [hreplies])
          stream := ha.stream }, Or.inl rfl⟩
  | reply r v o e =>
      rw [hturn] at hreach
      obtain ⟨hp, hready, hreplies⟩ := hreach
      exact ⟨_, u, false, r, v, o, e, receive_of_step hstep hp,
        { pending := hp
          chunks := hidle.chunks
          ready := hready
          replies := hreplies
          turn := hturn
          stream := rfl
          wait := by simp
          last := fun _ => Or.inl rfl }, Or.inr ⟨rfl, rfl⟩⟩

/-! ## Successive receives -/

/-- Between the receives the application drops Messages, which changes nothing that matters. -/
theorem results_receive (native : Endian) (f : LengthPrefixedFramer) (env : Environment)
    (h : t.receive env = some t')
    (hr : t'.session.history.replies = t.session.history.replies ++ [r]) (hidle : Idle t') :
    ∃ t₂, Idle t₂ ∧ t₂.rest = t'.rest ∧
      (∀ u eof o e, t'.session.Ready native f u eof o e → t₂.session.Ready native f u eof o e) ∧
      ∀ n, results env (n + 1) t
        = (results env n t₂).map ((r, t'.session.conn.canReceive) :: ·) := by
  obtain ⟨s, hs, hp, hready⟩ := Session.foldlM_drop native f t'.session (env.drops t'.clock)
  have hlast : t'.session.history.replies.getLast? = some r := by simp [hr]
  have hdrop : t'.drop env = some { t' with session := s } := by simp [Transfer.drop, hs]
  refine ⟨{ t' with session := s }, ⟨hp.trans hidle.pending, hidle.chunks⟩, rfl, hready, ?_⟩
  intro n
  simp only [results, h, hlast, hdrop, Option.bind_some]

/-- The results to come are `rs`, and then refusals: within the stream, once the rest of an incomplete
record was delivered, or after the end. -/
inductive Expects (native : Endian) (f : LengthPrefixedFramer) (t : Transfer Unit) :
    List Reply → Prop
  | within {u : List Byte} : t.session.Ready native f u false false false → u.length < 2 ^ 63 →
      (∀ l ∈ f.scanLengths (u ++ t.rest.flatten), f.lengthFieldSize + l < 2 ^ 64) →
      Expects native f t (f.scan (u ++ t.rest.flatten))
  | incomplete : t.rest = [] → t.session.Ready native f [] true true false →
      Expects native f t [.error .receiveError .deframingFailed]
  | drained {u : List Byte} {eof o : Bool} : t.session.Ready native f u eof o true →
      Expects native f t []

variable {rs : List Reply}

theorem Expects.of_ready {t₂ : Transfer Unit} (h : Expects native f t rs) (hrest : t₂.rest = t.rest)
    (hready : ∀ u eof o e, t.session.Ready native f u eof o e → t₂.session.Ready native f u eof o e) :
    Expects native f t₂ rs := by
  cases h with
  | within h hu hfits =>
      rw [← hrest] at hfits ⊢
      exact .within (hready _ _ _ _ h) hu hfits
  | incomplete h₀ h => exact .incomplete (hrest.trans h₀) (hready _ _ _ _ h)
  | drained h => exact .drained (hready _ _ _ _ h)

theorem scan_ne_nil (f : LengthPrefixedFramer) (s : List Byte) : f.scan s ≠ [] := by
  rw [LengthPrefixedFramer.scan]
  repeat' split
  all_goals simp

theorem canReceive_eq (h : t.session.Ready native f u eof o e) :
    t.session.conn.canReceive = !e := by
  simp [TCPConnection.canReceive, h.conn.state, h.conn.ended]

theorem Expects.canReceive (h : Expects native f t rs) :
    t.session.conn.canReceive = !rs.isEmpty := by
  cases h with
  | within hready _ _ =>
      rw [canReceive_eq hready]
      simp [scan_ne_nil f]
  | incomplete _ hready => rw [canReceive_eq hready]; rfl
  | drained hready => rw [canReceive_eq hready]; rfl

/-- The last read of an answered receive brought all that is left unparsed and more. -/
theorem Answered.unparsed_lt (ha : Answered native f t t' u u' false r v o e)
    (hu : u.length < 2 ^ 63) (hfit : f.lengthFieldSize + f.headerLength u' < 2 ^ 64) :
    v.length < 2 ^ 63 := by
  obtain ⟨_, _, hlen⟩ := LengthPrefixedFramer.scan_of_turn_reply ha.turn hfit []
  rcases ha.last rfl with rfl | ⟨u₀, bs, rfl, hbs, hwait⟩
  · omega
  · rw [List.length_append] at hlen
    rcases LengthPrefixedFramer.of_turn_wait hwait with hw | ⟨hw, hlt, _⟩
    · omega
    · rw [LengthPrefixedFramer.headerLength_append hw] at hlen
      omega

theorem receive_expects (env : Environment) (hidle : Idle t) (h : Expects native f t rs) :
    ∃ t', t.receive env = some t' ∧ Idle t' ∧ Expects native f t' rs.tail ∧
      t'.session.history.replies = t.session.history.replies
        ++ [rs.headD (.error .receiveError .invalidState)] := by
  cases h with
  | @within u hready hu hfits =>
      obtain ⟨t', u', eof, r, v, o, e, hreceive, ha, _⟩ := receive_answered env hready hidle
      refine ⟨t', hreceive, ha.toIdle, ?_⟩
      rw [← ha.stream] at hfits ⊢
      cases eof with
      | false =>
          obtain ⟨hw, rfl, rfl, _⟩ := LengthPrefixedFramer.of_turn_reply ha.turn
          have hfit := hfits _ (LengthPrefixedFramer.headerLength_mem hw _)
          obtain ⟨hscan, hlengths, _⟩ :=
            LengthPrefixedFramer.scan_of_turn_reply ha.turn hfit t'.rest.flatten
          rw [hscan]
          refine ⟨.within ha.ready (ha.unparsed_lt hu hfit) fun l hl => hfits l ?_, ha.replies⟩
          rw [hlengths]
          exact List.mem_cons_of_mem _ hl
      | true =>
          obtain ⟨hrest, hwait⟩ := ha.wait rfl
          rw [hrest, List.flatten_nil, List.append_nil]
          rcases LengthPrefixedFramer.scan_of_turn_eof hwait ha.turn with
            ⟨rfl, rfl, hscan⟩ | ⟨rfl, rfl, rfl, hscan⟩
          · rw [hscan]
            exact ⟨.drained ha.ready, ha.replies⟩
          · rw [hscan]
            exact ⟨.incomplete hrest ha.ready, ha.replies⟩
  | incomplete hrest hready =>
      obtain ⟨s, hstep, hreach⟩ :=
        Session.step_receive_reaches hready hidle.pending (fresh_not_mem env t)
      rw [LengthPrefixedFramer.turn_incomplete] at hreach
      obtain ⟨hp, hready', hreplies⟩ := hreach
      exact ⟨_, receive_of_step hstep hp, ⟨hp, hidle.chunks⟩, .drained hready', hreplies⟩
  | drained hready =>
      obtain ⟨s, hstep, hp, hready', hreplies⟩ :=
        Session.step_receive_refused hready hidle.pending (fresh_not_mem env t)
      exact ⟨_, receive_of_step hstep hp, ⟨hp, hidle.chunks⟩, .drained hready', hreplies⟩

theorem results_expects (env : Environment) (n : Nat) (hidle : Idle t) (h : Expects native f t rs) :
    results env n t = some (expected rs n) := by
  induction n generalizing t rs with
  | zero => rfl
  | succ n ih =>
      obtain ⟨t', hreceive, hidle', htail, hreplies⟩ := receive_expects env hidle h
      obtain ⟨t₂, hidle₂, hrest, hready, hresults⟩ :=
        results_receive native f env hreceive hreplies hidle'
      rw [hresults, ih hidle₂ (htail.of_ready hrest hready), htail.canReceive]
      rfl

/-! ## Sizes that wrap -/

theorem expected_fst_succ (rs : List Reply) (n : Nat) :
    (expected rs (n + 1)).map Prod.fst
      = rs.headD (.error .receiveError .invalidState) :: (expected rs.tail n).map Prod.fst := rfl

/-- Where the results are the expected ones, so are the results after the first. -/
theorem results_tail {t₂ : Transfer Unit} {flag : Bool} {n : Nat}
    (hresults : results env (n + 1) t = (results env n t₂).map ((r, flag) :: ·))
    (h : (results env (n + 1) t).map (List.map Prod.fst)
      = some ((expected rs (n + 1)).map Prod.fst)) :
    r = rs.headD (.error .receiveError .invalidState) ∧
      (results env n t₂).map (List.map Prod.fst) = some ((expected rs.tail n).map Prod.fst) := by
  rw [hresults, expected_fst_succ, Option.map_map] at h
  obtain ⟨res, hres, heq⟩ := Option.map_eq_some_iff.mp h
  obtain ⟨hr, htail⟩ := List.cons.inj heq
  exact ⟨hr, by rw [hres]; exact congrArg some htail⟩

/-- A record whose size wraps is answered out of less than the record. -/
theorem Answered.short (ha : Answered native f t t' u u' false r v o e) (hu : u.length < 2 ^ 63)
    (hwrap : 2 ^ 64 ≤ f.lengthFieldSize + f.headerLength u') :
    u'.length < f.lengthFieldSize + f.headerLength u' := by
  have hle := f.le
  rcases ha.last rfl with rfl | ⟨u₀, bs, rfl, hbs, hwait⟩
  · omega
  · rw [List.length_append]
    rcases LengthPrefixedFramer.of_turn_wait hwait with hw | ⟨hw, _, hfit⟩
    · omega
    · rw [LengthPrefixedFramer.headerLength_append hw] at hwrap
      omega

/-- Results that are the expected ones mean that no size wraps. The induction is on the stream; where
the rejected record is all of it, the second receive tells the two apart. -/
theorem fits_of_results (env : Environment) (hidle : Idle t)
    (hready : t.session.Ready native f u false false false) (hu : u.length < 2 ^ 63)
    (h : ∀ n, (results env n t).map (List.map Prod.fst)
      = some ((expected (f.scan (u ++ t.rest.flatten)) n).map Prod.fst)) :
    ∀ l ∈ f.scanLengths (u ++ t.rest.flatten), f.lengthFieldSize + l < 2 ^ 64 := by
  induction hs : (u ++ t.rest.flatten).length using Nat.strongRecOn generalizing t u with
  | _ n ih =>
      obtain ⟨t', u', eof, r, v, o, e, hreceive, ha, _⟩ := receive_answered env hready hidle
      obtain ⟨t₂, hidle₂, hrest₂, hready₂, hresults⟩ :=
        results_receive native f env hreceive ha.replies ha.toIdle
      rw [← ha.stream] at h hs ⊢
      cases eof with
      | true =>
          obtain ⟨hrest, hwait⟩ := ha.wait rfl
          rw [hrest, List.flatten_nil, List.append_nil]
          exact LengthPrefixedFramer.scanLengths_of_wait hwait
      | false =>
          obtain ⟨hw, rfl, rfl, _⟩ := LengthPrefixedFramer.of_turn_reply ha.turn
          by_cases hfit : f.lengthFieldSize + f.headerLength u' < 2 ^ 64
          · obtain ⟨hscan, hlengths, hlen⟩ :=
              LengthPrefixedFramer.scan_of_turn_reply ha.turn hfit t'.rest.flatten
            have hpos := f.pos
            have hshorter : (v ++ t₂.rest.flatten).length < n := by
              rw [List.length_append] at hs
              rw [List.length_append, hrest₂]
              omega
            have htail : ∀ n, (results env n t₂).map (List.map Prod.fst)
                = some ((expected (f.scan (v ++ t₂.rest.flatten)) n).map Prod.fst) := by
              intro n
              have hn := (results_tail (hresults n) (h (n + 1))).2
              rwa [hscan, ← hrest₂] at hn
            have hfits := ih _ hshorter hidle₂ (hready₂ _ _ _ _ ha.ready) (ha.unparsed_lt hu hfit) htail rfl
            rw [hlengths, List.forall_mem_cons, ← hrest₂]
            exact ⟨hfit, hfits⟩
          · exfalso
            have hwrap := Nat.le_of_not_lt hfit
            obtain ⟨hhead, _⟩ := results_tail (hresults 0) (h 1)
            rcases LengthPrefixedFramer.scan_of_turn_wrap ha.turn hwrap (ha.short hu hwrap)
              t'.rest.flatten with hne | ⟨rfl, rfl, hscan⟩
            · obtain ⟨x, xs, hcons⟩ := List.exists_cons_of_ne_nil (scan_ne_nil f (u' ++ t'.rest.flatten))
              rw [hcons] at hne hhead
              exact hne (congrArg some hhead.symm)
            · -- the framer gives the same answer again, where a refusal is expected
              have hready' := hready₂ _ _ _ _ ha.ready
              obtain ⟨t₃, u₂, eof, r, v₂, o, e, hreceive₂, ha₂, hor⟩ :=
                receive_answered env hready' hidle₂
              have hnow : u₂ = v ∧ eof = false := by
                refine hor.resolve_left fun hwait => ?_
                rw [ha.turn] at hwait
                cases hwait
              obtain ⟨rfl, rfl⟩ := hnow
              obtain ⟨t₄, _, _, _, hresults₂⟩ :=
                results_receive native f env hreceive₂ ha₂.replies ha₂.toIdle
              have hsecond := (results_tail (hresults 1) (h 2)).2
              obtain ⟨hr, _⟩ := results_tail (hresults₂ 0) hsecond
              rw [hscan] at hr
              have hturn := ha₂.turn.symm.trans ha.turn
              cases hturn
              cases hr

end Transfer

end Taps
