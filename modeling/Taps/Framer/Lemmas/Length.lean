import Taps.Framer.Length

/-!
# The length field is a positional number

Every path of `decode_length` gives the value of the field in its byte order, and every path of
`encode_length` gives the bytes of the number, whatever the byte order of the host.
-/

namespace Taps

open Lib

@[simp] theorem length_fieldBytes (order : Endian) (w n : Nat) :
    (fieldBytes order w n).length = w := by
  cases order <;> simp [fieldBytes, storeInt]

theorem fieldValue_lt (order : Endian) (bs : List UInt8) :
    fieldValue order bs < 256 ^ bs.length := by
  cases order with
  | little => exact leValue_lt bs
  | big => simpa [fieldValue, loadInt] using leValue_lt bs.reverse

theorem fieldValue_fieldBytes (order : Endian) (w n : Nat) :
    fieldValue order (fieldBytes order w n) = n % 256 ^ w := by
  cases order <;> simp [fieldValue, fieldBytes, loadInt, storeInt, leValue_leBytes]

theorem fieldBytes_fieldValue (order : Endian) (bs : List UInt8) :
    fieldBytes order bs.length (fieldValue order bs) = bs := by
  cases order with
  | little => exact leBytes_leValue bs
  | big =>
      have hval := leBytes_leValue bs.reverse
      rw [List.length_reverse] at hval
      simp only [fieldBytes, fieldValue, loadInt, storeInt, hval, List.reverse_reverse]

/-! ## Through an integer of the host -/

theorem byteswap_leValue (bs : List UInt8) :
    byteswap bs.length (leValue bs) = leValue bs.reverse := by
  rw [byteswap, leBytes_leValue]

theorem byteswap_loadInt {native order : Endian} (bs : List UInt8) (h : order ≠ native) :
    byteswap bs.length (loadInt native bs) = fieldValue order bs := by
  cases native <;> cases order
  · exact absurd rfl h
  · exact byteswap_leValue bs
  · have hswap := byteswap_leValue bs.reverse
    rwa [List.length_reverse, List.reverse_reverse] at hswap
  · exact absurd rfl h

theorem toNat_decodeInt {native order : Endian} {hdr : List UInt8} {w : Nat}
    (hlen : hdr.length = w) (hw : w ≤ 8) :
    (decodeInt native order hdr w).toNat = fieldValue order hdr := by
  have hval : (if order ≠ native then byteswap w (loadInt native hdr) else loadInt native hdr)
      = fieldValue order hdr := by
    subst hlen
    by_cases ho : order = native
    · simp [ho, fieldValue]
    · rw [if_pos ho, byteswap_loadInt hdr ho]
  have hlt : fieldValue order hdr < 2 ^ 64 := by
    have hpow : 256 ^ hdr.length ≤ 256 ^ 8 := Nat.pow_le_pow_right (by omega) (by omega)
    have := fieldValue_lt order hdr
    omega
  rw [decodeInt, List.take_of_length_le (by omega), hval, UInt64.toNat_ofNat']
  exact Nat.mod_eq_of_lt hlt

theorem encodeInt_eq (native order : Endian) (length : UInt64) (w : Nat) :
    encodeInt native order length w = fieldBytes order w length.toNat := by
  have hmod : leBytes w (length.toNat % 256 ^ w) = leBytes w length.toNat := by
    have hval := leBytes_leValue (leBytes w length.toNat)
    rwa [leValue_leBytes, length_leBytes] at hval
  have hswap : leBytes w (byteswap w (length.toNat % 256 ^ w)) = (leBytes w length.toNat).reverse := by
    have hval := leBytes_leValue (leBytes w length.toNat).reverse
    rw [byteswap, hmod]
    rwa [List.length_reverse, length_leBytes] at hval
  cases native <;> cases order <;>
    simp [encodeInt, storeInt, fieldBytes, hmod, hswap]

/-! ## Byte by byte -/

theorem toNat_shiftLeft_or {acc : UInt64} {b : UInt8} (h : acc.toNat < 2 ^ 56) :
    ((acc <<< 8) ||| b.toUInt64).toNat = acc.toNat * 256 + b.toNat := by
  have hb := b.toNat_lt
  have h8 : (8 : UInt64).toNat % 64 = 8 := rfl
  rw [UInt64.toNat_or, UInt64.toNat_shiftLeft, UInt8.toNat_toUInt64, h8,
    Nat.mod_eq_of_lt (by rw [Nat.shiftLeft_eq]; omega), ← Nat.shiftLeft_add_eq_or_of_lt hb,
    Nat.shiftLeft_eq]

theorem toNat_decodeBig (bs : List UInt8) :
    ∀ (k : Nat) (acc : UInt64), acc.toNat < 256 ^ k → k + bs.length ≤ 8 →
      (decodeBig acc bs).toNat = acc.toNat * 256 ^ bs.length + fieldValue .big bs := by
  induction bs with
  | nil => intro k acc _ _; simp [decodeBig, fieldValue, loadInt]
  | cons b bs ih =>
      intro k acc hacc hk
      rw [List.length_cons] at hk
      have h56 : acc.toNat < 2 ^ 56 := by
        have hpow : 256 ^ k ≤ 256 ^ 7 := Nat.pow_le_pow_right (by omega) (by omega)
        omega
      have hb := b.toNat_lt
      have hstep := toNat_shiftLeft_or (b := b) h56
      rw [decodeBig, ih (k + 1) _ (by rw [hstep, pow_succ]; omega) (by omega), hstep,
        List.length_cons]
      simp only [fieldValue, loadInt, List.reverse_cons, leValue_append, List.length_reverse,
        leValue_cons, leValue_nil]
      ring

theorem toNat_or_shiftLeft {acc : UInt64} {b : UInt8} {i : Nat} (hi : i < 8)
    (h : acc.toNat < 256 ^ i) :
    (acc ||| (b.toUInt64 <<< UInt64.ofNat (i * 8))).toNat = acc.toNat + 256 ^ i * b.toNat := by
  have hb := b.toNat_lt
  have hpow : (256 : Nat) ^ i = 2 ^ (i * 8) := by rw [mul_comm i, pow_mul]; rfl
  have hsmall : 2 ^ (i * 8) * b.toNat < 2 ^ 64 := by
    have h56 : 2 ^ (i * 8) ≤ 2 ^ 56 := Nat.pow_le_pow_right (by omega) (by omega)
    calc 2 ^ (i * 8) * b.toNat ≤ 2 ^ 56 * 255 := Nat.mul_le_mul h56 (by omega)
      _ < 2 ^ 64 := by decide
  have hshift : (UInt64.ofNat (i * 8)).toNat % 64 = i * 8 := by
    rw [UInt64.toNat_ofNat', Nat.mod_eq_of_lt (by omega), Nat.mod_eq_of_lt (by omega)]
  rw [UInt64.toNat_or, UInt64.toNat_shiftLeft, UInt8.toNat_toUInt64, hshift, Nat.shiftLeft_eq,
    mul_comm b.toNat, Nat.mod_eq_of_lt hsmall, Nat.or_comm,
    ← Nat.two_pow_add_eq_or_of_lt (by omega), hpow, Nat.add_comm]

theorem toNat_decodeLittle (bs : List UInt8) :
    ∀ (i : Nat) (acc : UInt64), acc.toNat < 256 ^ i → i + bs.length ≤ 8 →
      (decodeLittle acc i bs).toNat = acc.toNat + 256 ^ i * fieldValue .little bs := by
  induction bs with
  | nil => intro i acc _ _; simp [decodeLittle, fieldValue, loadInt]
  | cons b bs ih =>
      intro i acc hacc hi
      rw [List.length_cons] at hi
      have hstep := toNat_or_shiftLeft (b := b) (show i < 8 by omega) hacc
      have hlt : acc.toNat + 256 ^ i * b.toNat < 256 ^ (i + 1) := by
        have hb := b.toNat_lt
        have hmul : 256 ^ i * b.toNat ≤ 256 ^ i * 255 := Nat.mul_le_mul_left _ (by omega)
        rw [pow_succ]
        omega
      rw [decodeLittle, ih (i + 1) _ (by rwa [hstep]) (by omega), hstep]
      simp only [fieldValue, loadInt, leValue_cons]
      ring

theorem lengthByte_eq {length : UInt64} {i : Nat} (hi : i < 8) :
    lengthByte length (i * 8) = UInt8.ofNat (length.toNat / 256 ^ i) := by
  have hshift : (UInt64.ofNat (i * 8)).toNat % 64 = i * 8 := by
    rw [UInt64.toNat_ofNat', Nat.mod_eq_of_lt (by omega), Nat.mod_eq_of_lt (by omega)]
  have hpow : (256 : Nat) ^ i = 2 ^ (i * 8) := by rw [mul_comm i, pow_mul]; rfl
  have hff : (0xFF : UInt64).toNat = 2 ^ 8 - 1 := rfl
  refine UInt8.toNat.inj ?_
  rw [lengthByte, UInt64.toNat_toUInt8, UInt64.toNat_and, hff, Nat.and_two_pow_sub_one_eq_mod,
    UInt64.toNat_shiftRight, hshift, Nat.shiftRight_eq_div_pow, ← hpow, UInt8.toNat_ofNat',
    Nat.mod_mod]

theorem map_lengthByte_little {length : UInt64} {w : Nat} (hw : w ≤ 8) :
    ((List.range w).map fun i => lengthByte length (i * 8)) = fieldBytes .little w length.toNat := by
  refine List.map_congr_left fun i hi => ?_
  rw [List.mem_range] at hi
  exact lengthByte_eq (by omega)

theorem map_lengthByte_big {length : UInt64} {w : Nat} (hw : w ≤ 8) :
    ((List.range w).map fun i => lengthByte length ((w - 1 - i) * 8))
      = fieldBytes .big w length.toNat := by
  refine List.ext_getElem (by simp) fun i h₁ _ => ?_
  simp only [List.length_map, List.length_range] at h₁
  simp only [fieldBytes, storeInt, leBytes, List.getElem_map, List.getElem_range,
    List.getElem_reverse, List.length_map, List.length_range]
  exact lengthByte_eq (by omega)

/-! ## All widths -/

theorem toNat_decodeLoop {order : Endian} {hdr : List UInt8} {w : Nat} (hlen : hdr.length = w) (hw : w ≤ 8) :
    (decodeLoop hdr w order).toNat = fieldValue order hdr := by
  have htake : hdr.take w = hdr := List.take_of_length_le (by omega)
  unfold decodeLoop
  rw [htake]
  cases order with
  | big => rw [toNat_decodeBig hdr 0 0 (by decide) (by omega)]; simp
  | little => rw [toNat_decodeLittle hdr 0 0 (by decide) (by omega)]; simp

theorem encodeLoop_eq {order : Endian} {length : UInt64} {w : Nat} (hw : w ≤ 8) :
    encodeLoop length w order = fieldBytes order w length.toNat := by
  cases order with
  | big => exact map_lengthByte_big hw
  | little => exact map_lengthByte_little hw

theorem toNat_decodeLength {native order : Endian} {hdr : List UInt8} {w : Nat}
    (hlen : hdr.length = w) (hw : w ≤ 8) :
    (decodeLength native hdr w order).toNat = fieldValue order hdr := by
  unfold decodeLength
  split
  · exact toNat_decodeInt hlen hw
  · exact toNat_decodeInt hlen hw
  · exact toNat_decodeInt hlen hw
  · exact toNat_decodeLoop hlen hw

theorem encodeLength_eq {native order : Endian} {length : UInt64} {w : Nat} (hw : w ≤ 8) :
    encodeLength native length w order = fieldBytes order w length.toNat := by
  unfold encodeLength
  split
  · exact encodeInt_eq ..
  · exact encodeInt_eq ..
  · exact encodeInt_eq ..
  · exact encodeLoop_eq hw

theorem length_encodeLength {native order : Endian} {length : UInt64} {w : Nat} (hw : w ≤ 8) :
    (encodeLength native length w order).length = w := by
  rw [encodeLength_eq hw, length_fieldBytes]

theorem decodeLength_eq_loop {native order : Endian} {hdr : List UInt8} {w : Nat} (hlen : hdr.length = w)
    (hw : w ≤ 8) : decodeLength native hdr w order = decodeLoop hdr w order := by
  apply UInt64.toNat.inj
  rw [toNat_decodeLength hlen hw, toNat_decodeLoop hlen hw]

theorem toNat_decode_encode (native native' : Endian) {order : Endian} {length : UInt64} {w : Nat}
    (hw : w ≤ 8) : (decodeLength native' (encodeLength native length w order) w order).toNat =
      length.toNat % 256 ^ w := by
  rw [toNat_decodeLength (length_encodeLength hw) hw, encodeLength_eq hw, fieldValue_fieldBytes]

theorem encode_decode (native native' : Endian) {order : Endian} {hdr : List UInt8} {w : Nat}
    (hlen : hdr.length = w) (hw : w ≤ 8) :
    encodeLength native (decodeLength native' hdr w order) w order = hdr := by
  rw [encodeLength_eq hw, toNat_decodeLength hlen hw, ← hlen, fieldBytes_fieldValue]

end Taps
