import Taps.Framer.Lemmas.Length
import Taps.Tcp.Scan

/-!
# Turns over a prefix and the scan of the whole stream

The framer sees the bytes that have arrived. Where it waits, it would wait on every shorter prefix as
well; where it answers, its answer is the first result of the scan, unless the size of the record wraps.
-/

namespace Taps

namespace LengthPrefixedFramer

variable {f : LengthPrefixedFramer} {u v s rest : List Byte} {r : Reply} {o e eof : Bool}

/-! ## Headers -/

theorem headerLength_append (h : f.lengthFieldSize ≤ u.length) (rest : List Byte) :
    f.headerLength (u ++ rest) = f.headerLength u := by
  rw [headerLength, List.take_append_of_le_length h, headerLength]

theorem headerLength_lt (f : LengthPrefixedFramer) (u : List Byte) : f.headerLength u < 2 ^ 64 := by
  have hlen : (u.take f.lengthFieldSize).length ≤ 8 := by
    have := f.le
    simp only [List.length_take]
    omega
  have hpow : 256 ^ (u.take f.lengthFieldSize).length ≤ 256 ^ 8 :=
    Nat.pow_le_pow_right (by decide) hlen
  have := fieldValue_lt f.byteOrder (u.take f.lengthFieldSize)
  unfold headerLength
  omega

theorem total_of_fits (h : f.lengthFieldSize + f.headerLength u < 2 ^ 64) :
    f.total u = f.lengthFieldSize + f.headerLength u :=
  Nat.mod_eq_of_lt h

/-- The size of a record that wraps is smaller than its header. -/
theorem total_of_wrap (h : 2 ^ 64 ≤ f.lengthFieldSize + f.headerLength u) :
    f.total u = f.lengthFieldSize + f.headerLength u - 2 ^ 64 ∧ f.total u < f.lengthFieldSize := by
  have hlt := f.headerLength_lt u
  have := f.le
  have heq : f.total u = f.lengthFieldSize + f.headerLength u - 2 ^ 64 := by
    unfold total
    omega
  exact ⟨heq, by omega⟩

/-! ## Turns -/

theorem needMore_eof_ne_wait : needMore u true o ≠ .wait := by
  rw [needMore, if_pos rfl]
  split <;> simp

theorem turn_eof_ne_wait : f.turn u true o ≠ .wait := by
  unfold turn
  repeat' split
  all_goals first | exact needMore_eof_ne_wait | simp

/-- A framer that waits has not got the whole record at the front, and its size does not wrap. -/
theorem of_turn_wait (h : f.turn u false o = .wait) :
    u.length < f.lengthFieldSize ∨ f.lengthFieldSize ≤ u.length ∧
      u.length < f.lengthFieldSize + f.headerLength u ∧
      f.lengthFieldSize + f.headerLength u < 2 ^ 64 := by
  unfold turn at h
  split at h
  · exact Or.inl ‹_›
  · rename_i hw
    split at h
    · rename_i ht
      rcases Nat.lt_or_ge (f.lengthFieldSize + f.headerLength u) (2 ^ 64) with hfit | hwrap
      · rw [total_of_fits hfit] at ht
        exact Or.inr ⟨by omega, ht, hfit⟩
      · have := (total_of_wrap hwrap).2
        omega
    · split at h <;> cases h

/-- A framer that answers before the end of the stream has a record at the front, or takes it for
one. -/
theorem of_turn_reply (h : f.turn u false false = .reply r v o e) :
    f.lengthFieldSize ≤ u.length ∧ o = false ∧ e = false ∧
      (f.total u ≠ 0 ∧ f.total u ≤ u.length ∧
          r = .message ((u.drop f.lengthFieldSize).take (f.headerLength u)) true ∧
          v = u.drop (f.lengthFieldSize + f.headerLength u) ∨
        f.total u = 0 ∧ r = .error .receiveError .deframingFailed ∧ v = u) := by
  unfold turn at h
  split at h
  · simp [needMore] at h
  · rename_i hw
    split at h
    · simp [needMore] at h
    · rename_i ht
      split at h
      · rename_i h0
        cases h
        exact ⟨by omega, rfl, rfl, Or.inr ⟨h0, rfl, rfl⟩⟩
      · rename_i h0
        cases h
        exact ⟨by omega, rfl, rfl, Or.inl ⟨h0, by omega, rfl, rfl⟩⟩

theorem turn_incomplete (f : LengthPrefixedFramer) :
    f.turn [] true true = .reply (.error .receiveError .deframingFailed) [] false true := by
  have h : ([] : List Byte).length < f.lengthFieldSize := f.pos
  rw [turn, if_pos h]
  rfl

/-! ## Answers before the end of the stream -/

theorem headerLength_mem (h : f.lengthFieldSize ≤ u.length) (rest : List Byte) :
    f.headerLength u ∈ f.scanLengths (u ++ rest) := by
  rw [scanLengths, if_neg (by rw [List.length_append]; omega), headerLength_append h]
  exact List.mem_cons_self

theorem scan_record (h : f.lengthFieldSize + f.headerLength s ≤ s.length) :
    f.scan s = .message ((s.drop f.lengthFieldSize).take (f.headerLength s)) true
      :: f.scan (s.drop (f.lengthFieldSize + f.headerLength s)) := by
  have hpos := f.pos
  have hne : s ≠ [] := by
    rintro rfl
    simp only [List.length_nil] at h
    omega
  rw [scan, if_neg hne, if_neg (by omega), if_neg (by omega)]

theorem scanLengths_record (h : f.lengthFieldSize + f.headerLength s ≤ s.length) :
    f.scanLengths s
      = f.headerLength s :: f.scanLengths (s.drop (f.lengthFieldSize + f.headerLength s)) := by
  rw [scanLengths, if_neg (by omega), if_neg (by omega)]

/-- The answer to a record whose size does not wrap is the first result of the scan, and the rest of
the scan is that of what is left. -/
theorem scan_of_turn_reply (h : f.turn u false false = .reply r v o e)
    (hfit : f.lengthFieldSize + f.headerLength u < 2 ^ 64) (rest : List Byte) :
    f.scan (u ++ rest) = r :: f.scan (v ++ rest) ∧
      f.scanLengths (u ++ rest) = f.headerLength u :: f.scanLengths (v ++ rest) ∧
      v.length + (f.lengthFieldSize + f.headerLength u) = u.length := by
  have hpos := f.pos
  obtain ⟨hw, _, _, ⟨_, hle, rfl, rfl⟩ | ⟨h0, _, _⟩⟩ := of_turn_reply h
  · rw [total_of_fits hfit] at hle
    have hhead := headerLength_append hw rest
    have hrec : f.lengthFieldSize + f.headerLength (u ++ rest) ≤ (u ++ rest).length := by
      rw [hhead, List.length_append]
      omega
    have hbody : ((u ++ rest).drop f.lengthFieldSize).take (f.headerLength u)
        = (u.drop f.lengthFieldSize).take (f.headerLength u) := by
      rw [List.drop_append_of_le_length hw, List.take_append_of_le_length]
      rw [List.length_drop]
      omega
    have hrest : (u ++ rest).drop (f.lengthFieldSize + f.headerLength u)
        = u.drop (f.lengthFieldSize + f.headerLength u) ++ rest :=
      List.drop_append_of_le_length hle
    refine ⟨?_, ?_, ?_⟩
    · rw [scan_record hrec, hhead, hbody, hrest]
    · rw [scanLengths_record hrec, hhead, hrest]
    · rw [List.length_drop]
      omega
  · rw [total_of_fits hfit] at h0
    omega

/-! ## Answers at the end of the stream -/

/-- The end of the stream while the framer waits. -/
theorem scan_of_turn_eof (hwait : f.turn u false false = .wait)
    (h : f.turn u true false = .reply r v o e) :
    o = false ∧ e = true ∧ f.scan u = [r] ∨
      o = true ∧ e = false ∧ v = [] ∧ f.scan u = [r, .error .receiveError .deframingFailed] := by
  have hpos := f.pos
  rcases of_turn_wait hwait with hw | ⟨hw, hlt, hfit⟩
  · simp only [turn, if_pos hw, needMore, if_true] at h
    rw [scan]
    by_cases hu : u = []
    · simp only [hu, Bool.false_eq_true, ne_eq, not_true_eq_false, or_false, if_false,
        Outcome.reply.injEq] at h
      obtain ⟨rfl, _, rfl, rfl⟩ := h
      exact Or.inl ⟨rfl, rfl, by rw [if_pos hu]⟩
    · simp only [hu, ne_eq, not_false_eq_true, or_true, if_true, Outcome.reply.injEq] at h
      obtain ⟨rfl, _, rfl, rfl⟩ := h
      exact Or.inl ⟨rfl, rfl, by rw [if_neg hu, if_pos hw]⟩
  · have hne : u ≠ [] := by
      rintro rfl
      simp only [List.length_nil] at hw
      omega
    rw [scan, if_neg hne, if_neg (by omega), if_pos hlt]
    rw [turn, if_neg (by omega), total_of_fits hfit, if_pos hlt] at h
    by_cases heq : u.length = f.lengthFieldSize
    · simp only [heq, gt_iff_lt, Nat.lt_irrefl, and_false, if_false, needMore, if_true, hne, ne_eq,
        not_false_eq_true, or_true, Outcome.reply.injEq] at h
      obtain ⟨rfl, _, rfl, rfl⟩ := h
      exact Or.inl ⟨rfl, rfl, by rw [if_pos heq]⟩
    · rw [if_pos ⟨rfl, by omega⟩] at h
      cases h
      exact Or.inr ⟨rfl, rfl, rfl, by rw [if_neg heq]⟩

theorem scanLengths_of_wait (h : f.turn u false false = .wait) :
    ∀ l ∈ f.scanLengths u, f.lengthFieldSize + l < 2 ^ 64 := by
  rcases of_turn_wait h with hw | ⟨hw, hlt, hfit⟩
  · rw [scanLengths, if_pos hw]
    simp
  · rw [scanLengths, if_neg (by omega), if_pos hlt]
    simpa using hfit

/-! ## Sizes that wrap -/

/-- The answer to a record whose size wraps, out of less than the record. -/
theorem scan_of_turn_wrap (h : f.turn u false false = .reply r v o e)
    (hwrap : 2 ^ 64 ≤ f.lengthFieldSize + f.headerLength u)
    (hlt : u.length < f.lengthFieldSize + f.headerLength u) (rest : List Byte) :
    (f.scan (u ++ rest)).head? ≠ some r ∨
      v = u ∧ r = .error .receiveError .deframingFailed ∧ f.scan (u ++ rest) = [r] := by
  have hpos := f.pos
  obtain ⟨hw, _, _, hcases⟩ := of_turn_reply h
  have hhead := headerLength_append hw rest
  have hne : u ++ rest ≠ [] := by
    rw [ne_eq, List.append_eq_nil_iff]
    rintro ⟨rfl, _⟩
    simp only [List.length_nil] at hw
    omega
  have hlen : (u ++ rest).length = u.length + rest.length := List.length_append
  rw [scan, if_neg hne, if_neg (by omega), hhead]
  rcases hcases with ⟨_, _, rfl, _⟩ | ⟨_, rfl, rfl⟩
  · left
    split
    · split <;> simp
    · -- a whole record in the stream: the bytes that had arrived are too few to be its body
      simp only [List.head?_cons, ne_eq, Option.some.injEq, Reply.message.injEq, and_true]
      intro heq
      have hsize := congrArg List.length heq
      simp only [List.length_take, List.length_drop] at hsize
      omega
  · split
    · split
      · exact Or.inr ⟨rfl, rfl, rfl⟩
      · simp
    · simp

end LengthPrefixedFramer

end Taps
