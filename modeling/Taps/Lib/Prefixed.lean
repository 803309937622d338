import Mathlib.Data.List.Basic

/-!
# Byte strings behind their lengths

A list of byte strings written as one: each string behind a byte with its length. No string of it is empty or
longer than a byte can say.
-/

namespace Taps.Lib.Prefixed

/-- A string that can be an element. -/
def Fits (s : List UInt8) : Prop := s ≠ [] ∧ s.length ≤ 255

instance (s : List UInt8) : Decidable (Fits s) := inferInstanceAs (Decidable (_ ∧ _))

def encode (ss : List (List UInt8)) : List UInt8 := ss.flatMap fun s => UInt8.ofNat s.length :: s

/-- `none` if the bytes are not a list of strings. -/
def decode : List UInt8 → Option (List (List UInt8))
  | [] => some []
  | n :: rest =>
      if 0 < n.toNat ∧ n.toNat ≤ rest.length then
        (decode (rest.drop n.toNat)).map (rest.take n.toNat :: ·)
      else none
termination_by bs => bs.length
decreasing_by
  rw [List.length_drop, List.length_cons]
  exact Nat.lt_succ_of_le (Nat.sub_le ..)

@[simp] theorem encode_nil : encode [] = [] := rfl

@[simp] theorem encode_cons (s : List UInt8) (ss : List (List UInt8)) :
    encode (s :: ss) = UInt8.ofNat s.length :: (s ++ encode ss) := by simp [encode]

theorem toNat_length {s : List UInt8} (h : Fits s) : (UInt8.ofNat s.length).toNat = s.length := by
  rw [UInt8.toNat_ofNat']
  exact Nat.mod_eq_of_lt (by have := h.2; omega)

/-- What was written is read back. -/
theorem decode_encode {ss : List (List UInt8)} (h : ∀ s ∈ ss, Fits s) : decode (encode ss) = some ss := by
  induction ss with
  | nil => simp [decode]
  | cons s ss ih =>
      have hs : Fits s := h s (by simp)
      have hpos : 0 < s.length := List.length_pos_iff.mpr hs.1
      rw [encode_cons, decode, toNat_length hs, if_pos ⟨hpos, by simp⟩]
      simp [ih fun t ht => h t (by simp [ht])]

theorem decode_eq_nil {bs : List UInt8} (h : decode bs = some []) : bs = [] := by
  cases bs with
  | nil => rfl
  | cons n rest =>
      rw [decode] at h
      split at h <;> simp at h

end Taps.Lib.Prefixed
