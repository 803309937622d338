import Taps.Framer.Framer
import Taps.Buffer.Lemmas.BlockChain

/-!
# The cursor reads the bytes of the chain
-/

namespace Taps

namespace ReceiveCursor

/-- `copy_out` over entries that start at offset `pos`. The induction is on the entries; the ones
before the range only move `pos`. -/
theorem copyOutLoop_eq (mem : Memory) (off : Nat) (es : List BlockRef) :
    ∀ pos remaining, copyOutLoop mem off es pos remaining
      = ((entriesBytes mem es).drop (off - pos)).take remaining := by
  induction es with
  | nil => intro pos remaining; simp [copyOutLoop]
  | cons r es ih =>
      intro pos remaining
      have hlen := BlockRef.length_bytes mem r
      simp only [copyOutLoop, entriesBytes_cons]
      by_cases hbefore : pos + r.size ≤ off
      · rw [if_pos hbefore, ih, List.drop_append, List.drop_of_length_le (l := r.bytes mem) (by omega),
          List.nil_append, hlen]
        congr 2
        omega
      · have hskip : (if off > pos then off - pos else 0) = off - pos := by split <;> omega
        rw [if_neg hbefore, hskip, List.drop_append_of_le_length (by omega), List.take_append,
          List.length_drop, hlen]
        congr 1
        · rcases Nat.le_total remaining (r.size - (off - pos)) with h | h
          · rw [Nat.min_eq_right h]
          · rw [Nat.min_eq_left h, List.take_of_length_le (by simp [hlen]),
              List.take_of_length_le (by simpa [hlen] using h)]
        · split
          · rename_i h
            rw [show remaining - (r.size - (off - pos)) = 0 by omega, List.take_zero]
          · rw [ih, show off - (pos + r.size) = 0 by omega, List.drop_zero]
            congr 1
            omega

theorem copyOut_eq (cursor : ReceiveCursor) (off len : Nat) :
    cursor.copyOut off len = ((cursor.chain.bytes cursor.mem).drop off).take len := by
  rw [copyOut, copyOutLoop_eq, Nat.sub_zero]
  rfl

/-! ## Filling a buffer -/

/-- What the loop writes goes into the buffer in one piece, behind what has been written. -/
theorem fillLoop_eq (mem : Memory) (off : Nat) (es : List BlockRef) :
    ∀ pos out remaining dst, out + remaining ≤ dst.length →
      fillLoop mem off es pos out remaining dst
        = Lib.overwrite dst out (copyOutLoop mem off es pos remaining) := by
  induction es with
  | nil => simp [fillLoop, copyOutLoop]
  | cons r es ih =>
      intro pos out remaining dst hfits
      have hlen := BlockRef.length_bytes mem r
      simp only [fillLoop, copyOutLoop]
      split
      · exact ih _ _ _ _ hfits
      · have hskip : (if off > pos then off - pos else 0) = off - pos := by split <;> omega
        have hhead : (((r.bytes mem).drop (off - pos)).take (min (r.size - (off - pos)) remaining)).length
            = min (r.size - (off - pos)) remaining := by
          rw [List.length_take, List.length_drop, hlen]
          omega
        have htake : min (r.size - (off - pos)) remaining ≤ remaining := Nat.min_le_right ..
        rw [hskip]
        generalize ((r.bytes mem).drop (off - pos)).take (min (r.size - (off - pos)) remaining) = head at hhead ⊢
        generalize min (r.size - (off - pos)) remaining = take at hhead htake ⊢
        subst hhead
        split
        · rw [List.append_nil]
        · rw [ih _ _ _ _ (by rw [Lib.length_overwrite (by omega)]; omega), Lib.overwrite_append (by omega)]

theorem fill_eq (cursor : ReceiveCursor) {off : Nat} {dst : List Byte} (h : off + dst.length ≤ cursor.size) :
    cursor.fill off dst = ((cursor.chain.bytes cursor.mem).drop off).take dst.length := by
  have hlen : (cursor.chain.bytes cursor.mem).length = cursor.size := BlockChain.length_bytes ..
  have hcopy : copyOutLoop cursor.mem off cursor.chain.entries 0 dst.length
      = ((cursor.chain.bytes cursor.mem).drop off).take dst.length := cursor.copyOut_eq off dst.length
  rw [fill, fillLoop_eq _ _ _ _ _ _ _ (by omega), hcopy]
  apply Lib.overwrite_full
  rw [List.length_take, List.length_drop]
  omega

/-! ## Views -/

theorem read_subspan (mem : Memory) (r : BlockRef) {offset count : Nat} (h : offset + count ≤ r.size) :
    (r.span.subspan offset count).read mem = ((r.bytes mem).drop offset).take count := by
  simp only [BlockRef.span, ByteSpan.subspan, ByteSpan.read, Option.map_some, BlockRef.bytes,
    Lib.Memory.drop_read, Lib.Memory.take_read]
  congr 1
  omega

/-- The loop over entries that start at offset `pos`, which is not behind the range. The induction is on the
entries: the one with the first byte of the range decides. -/
theorem contiguousLoop_eq_some_iff {off len : Nat} (hlen : 0 < len) {view : ByteSpan} (es : List BlockRef) :
    ∀ pos ≤ off, contiguousLoop off len es pos = some view ↔
      ∃ before r after, es = before ++ r :: after ∧ pos + entriesSize before ≤ off ∧
        off + len ≤ pos + entriesSize before + r.size ∧
        view = r.span.subspan (off - (pos + entriesSize before)) len := by
  induction es with
  | nil => simp [contiguousLoop]
  | cons r es ih =>
      intro pos hpos
      rw [contiguousLoop]
      constructor
      · intro h
        split at h
        · rename_i hin
          simp only at h
          split at h
          · cases h
            exact ⟨[], r, es, rfl, hpos, by simp only [entriesSize_nil]; omega, rfl⟩
          · cases h
        · rename_i hbehind
          obtain ⟨before, r', after, rfl, hbefore, hfits, hview⟩ := (ih (pos + r.size) (by omega)).mp h
          refine ⟨r :: before, r', after, rfl, ?_, ?_, ?_⟩
          all_goals simp only [entriesSize_cons, ← Nat.add_assoc]
          · exact hbefore
          · exact hfits
          · exact hview
      · rintro ⟨before, r', after, heq, hbefore, hfits, hview⟩
        cases before with
        | nil =>
            obtain ⟨rfl, rfl⟩ := List.cons.inj heq
            simp only [entriesSize_nil, Nat.add_zero] at hfits hview
            rw [if_pos (by omega), if_pos (by omega), hview]
        | cons r₀ before =>
            obtain ⟨rfl, rfl⟩ := List.cons.inj heq
            simp only [entriesSize_cons, ← Nat.add_assoc] at hbefore hfits hview
            rw [if_neg (by omega)]
            apply (ih (pos + r.size) (by omega)).mpr
            exact ⟨before, r', after, rfl, hbefore, hfits, hview⟩

/-- The bytes of a range that lies in one entry are bytes of the entry. -/
theorem slice_within (mem : Memory) {before : List BlockRef} (after : List BlockRef) {r : BlockRef} {off len : Nat}
    (hbefore : entriesSize before ≤ off) (hfits : off + len ≤ entriesSize before + r.size) :
    ((entriesBytes mem (before ++ r :: after)).drop off).take len
      = ((r.bytes mem).drop (off - entriesSize before)).take len := by
  have hlen := BlockChain.length_entriesBytes mem before
  have hr := BlockRef.length_bytes mem r
  rw [entriesBytes_append, entriesBytes_cons, List.drop_append, List.drop_of_length_le (by omega), hlen,
    List.nil_append, List.drop_append_of_le_length (by omega), List.take_append_of_le_length]
  rw [List.length_drop]
  omega

theorem tryContiguous_eq_some_iff (cursor : ReceiveCursor) {off len : Nat} (hlen : 0 < len) {view : ByteSpan} :
    cursor.tryContiguous off len = some view ↔
      ∃ before r after, cursor.chain.entries = before ++ r :: after ∧ entriesSize before ≤ off ∧
        off + len ≤ entriesSize before + r.size ∧ view = r.span.subspan (off - entriesSize before) len := by
  rw [tryContiguous, if_neg (by omega), contiguousLoop_eq_some_iff hlen _ 0 (Nat.zero_le _)]
  simp only [Nat.zero_add]

theorem read_tryContiguous (cursor : ReceiveCursor) {off len : Nat} {view : ByteSpan}
    (h : cursor.tryContiguous off len = some view) :
    view.read cursor.mem = ((cursor.chain.bytes cursor.mem).drop off).take len := by
  rcases Nat.eq_zero_or_pos len with rfl | hlen
  · cases h
    rfl
  · obtain ⟨before, r, after, hentries, hbefore, hfits, rfl⟩ := (cursor.tryContiguous_eq_some_iff hlen).mp h
    rw [read_subspan _ _ (by omega), ← slice_within cursor.mem after hbefore hfits, ← hentries]
    rfl

theorem isSome_tryContiguous (cursor : ReceiveCursor) (off len : Nat) :
    (cursor.tryContiguous off len).isSome = true ↔ len = 0 ∨ cursor.WithinEntry off len := by
  rcases Nat.eq_zero_or_pos len with rfl | hlen
  · simp [tryContiguous]
  · rw [Option.isSome_iff_exists]
    constructor
    · rintro ⟨view, h⟩
      obtain ⟨before, r, after, hentries, hbefore, hfits, -⟩ := (cursor.tryContiguous_eq_some_iff hlen).mp h
      exact .inr ⟨before, r, after, hentries, hbefore, hfits⟩
    · rintro (rfl | ⟨before, r, after, hentries, hbefore, hfits⟩)
      · exact absurd hlen (Nat.lt_irrefl 0)
      · exact ⟨_, (cursor.tryContiguous_eq_some_iff hlen).mpr
          ⟨before, r, after, hentries, hbefore, hfits, rfl⟩⟩

end ReceiveCursor

end Taps
