import Taps.Framer.Lemmas.Cursor
import Taps.Framer.Lemmas.Length

/-!
# The length field and the cursor

What the length-prefixed framer relies on: the length that it reads is the one that was written, and the
cursor gives it the bytes of the chain.
-/

namespace Taps

/-! ## The length field -/

/-- For any width up to 8, either byte order and any two hosts: decoding is the inverse of encoding, up to
what the field has no room for, encoding is the inverse of decoding, and the fields that are as wide as an
integer are read and written as the loops over the bytes would. -/
theorem length_codec (native native' order : Endian) {w : Nat} (hw : w ≤ 8) :
    (∀ n : UInt64, (encodeLength native n w order).length = w) ∧
    (∀ n : UInt64, (decodeLength native' (encodeLength native n w order) w order).toNat = n.toNat % 256 ^ w) ∧
    (∀ n : UInt64, n.toNat < 256 ^ w → decodeLength native' (encodeLength native n w order) w order = n) ∧
    (∀ bs : List UInt8, bs.length = w → encodeLength native (decodeLength native' bs w order) w order = bs) ∧
    (∀ bs : List UInt8, bs.length = w → decodeLength native bs w order = decodeLoop bs w order) ∧
    ∀ n : UInt64, encodeLength native n w order = encodeLoop n w order := by
  refine ⟨fun n => length_encodeLength hw, fun n => toNat_decode_encode native native' hw, fun n hn => ?_,
    fun bs hlen => encode_decode native native' hlen hw, fun bs hlen => decodeLength_eq_loop hlen hw, fun n => ?_⟩
  · apply UInt64.toNat.inj
    rw [toNat_decode_encode native native' hw, Nat.mod_eq_of_lt hn]
  · rw [encodeLength_eq hw, encodeLoop_eq hw]

theorem length_codec_four :
    decodeLength .little (encodeLength .big 0x01020304 4 .big) 4 .big = 0x01020304 ∧
      encodeLength .little 0x01020304 4 .big = [1, 2, 3, 4] ∧
      decodeLength .little [1, 2, 3, 4] 4 .big = decodeLoop [1, 2, 3, 4] 4 .big := by
  obtain ⟨-, -, hdecode, -⟩ := length_codec .big .little .big (w := 4) (by decide)
  obtain ⟨-, -, -, -, hloop, -⟩ := length_codec .little .little .big (w := 4) (by decide)
  exact ⟨hdecode 0x01020304 (by decide), by decide, hloop [1, 2, 3, 4] rfl⟩

/-! ## The cursor -/

/-- `copy_out` fills its buffer with the bytes of the range. `try_contiguous` gives a view exactly when the
range is empty or lies in one entry, and the view holds what `copy_out` would have written. -/
theorem cursor_reads_chain (cursor : ReceiveCursor) (off : Nat) :
    (∀ dst : List Byte, off + dst.length ≤ cursor.size →
      cursor.fill off dst = ((cursor.chain.bytes cursor.mem).drop off).take dst.length) ∧
    ∀ len, off + len ≤ cursor.size →
      ((cursor.tryContiguous off len).isSome = true ↔ len = 0 ∨ cursor.WithinEntry off len) ∧
      ∀ view, cursor.tryContiguous off len = some view →
        ∀ dst : List Byte, dst.length = len → view.read cursor.mem = cursor.fill off dst := by
  refine ⟨fun dst hdst => cursor.fill_eq hdst, fun len hlen => ⟨cursor.isSome_tryContiguous off len, ?_⟩⟩
  intro view hview dst hdst
  subst hdst
  rw [cursor.fill_eq hlen]
  exact cursor.read_tryContiguous hview

/-- Windows of two and of three bytes: a range across both is copied, and a range in the second is viewed. -/
def twoWindows : ReceiveCursor :=
  { mem := fun blk off => UInt8.ofNat (40 * blk + off)
    chain := (BlockChain.nil.append { block := 1, beginOffset := 4, endOffset := 6, le := by decide }).append
      { block := 2, beginOffset := 1, endOffset := 4, le := by decide } }

theorem cursor_reads_chain_two :
    twoWindows.fill 1 [0, 0, 0] = [45, 81, 82] ∧ twoWindows.tryContiguous 1 3 = none ∧
      (twoWindows.tryContiguous 3 2).map (ByteSpan.read twoWindows.mem) = some (twoWindows.fill 3 [0, 0]) := by
  obtain ⟨hfill, hview⟩ := cursor_reads_chain twoWindows 1
  obtain ⟨-, hview'⟩ := cursor_reads_chain twoWindows 3
  refine ⟨hfill [0, 0, 0] (by decide), ?_, ?_⟩
  · rfl
  · exact congrArg some ((hview' 2 (by decide)).2 _ rfl [0, 0] rfl)

end Taps
