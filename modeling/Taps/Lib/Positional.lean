import Mathlib.Data.Nat.Digits.Defs
import Mathlib.Tactic.Ring

/-!
# Numbers as byte strings of a fixed width

The little-endian value of a string of bytes and the little-endian string of a number. The big-endian
ones are those of the reversed string.
-/

namespace Taps.Lib

/-- The number whose base-256 digits are `bs`, the least significant one first. -/
def leValue (bs : List UInt8) : Nat := Nat.ofDigits 256 (bs.map UInt8.toNat)

/-- The `w` lowest base-256 digits of `n`, the least significant one first. -/
def leBytes (w n : Nat) : List UInt8 := (List.range w).map fun i => UInt8.ofNat (n / 256 ^ i)

@[simp] theorem leValue_nil : leValue [] = 0 := rfl

@[simp] theorem leValue_cons (b : UInt8) (bs : List UInt8) :
    leValue (b :: bs) = b.toNat + 256 * leValue bs := by
  simp [leValue, Nat.ofDigits_cons]

theorem leValue_append (bs cs : List UInt8) :
    leValue (bs ++ cs) = leValue bs + 256 ^ bs.length * leValue cs := by
  simp [leValue, Nat.ofDigits_append]

theorem leValue_lt (bs : List UInt8) : leValue bs < 256 ^ bs.length := by
  induction bs with
  | nil => simp
  | cons b bs ih =>
      have hb := b.toNat_lt
      rw [leValue_cons, List.length_cons, pow_succ]
      omega

@[simp] theorem length_leBytes (w n : Nat) : (leBytes w n).length = w := by simp [leBytes]

theorem leBytes_succ (w n : Nat) : leBytes (w + 1) n = UInt8.ofNat n :: leBytes w (n / 256) := by
  simp only [leBytes, List.range_succ_eq_map, List.map_cons, List.map_map, pow_zero, Nat.div_one]
  congr 1
  refine List.map_congr_left fun i _ => ?_
  simp [pow_succ', Nat.div_div_eq_div_mul]

theorem leValue_leBytes (w n : Nat) : leValue (leBytes w n) = n % 256 ^ w := by
  induction w generalizing n with
  | zero => simp [leBytes, Nat.mod_one]
  | succ w ih =>
      rw [leBytes_succ, leValue_cons, ih, pow_succ', Nat.mod_mul]
      simp

theorem leBytes_leValue (bs : List UInt8) : leBytes bs.length (leValue bs) = bs := by
  induction bs with
  | nil => rfl
  | cons b bs ih =>
      have hb := b.toNat_lt
      have hdiv : (b.toNat + 256 * leValue bs) / 256 = leValue bs := by omega
      rw [List.length_cons, leBytes_succ, leValue_cons, hdiv, ih]
      congr 1
      refine UInt8.toNat.inj ?_
      simp

end Taps.Lib
