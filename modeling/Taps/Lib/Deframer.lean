import Mathlib.Data.List.Basic

/-!
# Deframing a stream

A rule that cuts a stream into records. It looks at the items that have arrived and not been taken yet
and says whether the next record is among them. A rule that does not change its mind when more items
arrive cuts a stream the same way however the stream arrives.
-/

namespace Taps.Lib

/-- The next record has a header of `skip` items and a body of `take` items; `closed` is whether it
ends its Message. Or more items are needed to tell. -/
inductive Verdict
  | more
  | record (skip take : Nat) (closed : Bool)
  deriving DecidableEq, Repr

/-- `decide u ended` for the items `u` at the front and for whether the stream ends behind them. -/
structure Deframer (α : Type*) where
  decide : List α → Bool → Verdict
  fits : ∀ {u ended skip take closed}, decide u ended = .record skip take closed →
    0 < skip + take ∧ skip + take ≤ u.length
  stable : ∀ {u skip take closed}, decide u false = .record skip take closed →
    ∀ v ended, decide (u ++ v) ended = .record skip take closed

/-- What a stream is cut into: records, and what is behind the last one. -/
inductive Item (α : Type*)
  | record (header body : List α) (closed : Bool)
  | finished
  | cut (rest : List α)

namespace Deframer

variable {α : Type*} {d : Deframer α} {u v s : List α} {skip take : Nat} {closed opened ended : Bool}

/-- The items of the whole stream `s`, where `opened` is whether a Message is open in front of it. -/
def scan (d : Deframer α) (opened : Bool) (s : List α) : List (Item α) :=
  match _ : d.decide s true with
  | .record skip take closed =>
      .record (s.take skip) ((s.drop skip).take take) closed :: d.scan (!closed) (s.drop (skip + take))
  | .more => if opened ∨ s ≠ [] then [.cut s] else [.finished]
termination_by s.length
decreasing_by
  have := d.fits ‹_›
  simp only [List.length_drop]
  omega

theorem scan_record (h : d.decide s true = .record skip take closed) :
    d.scan opened s
      = .record (s.take skip) ((s.drop skip).take take) closed :: d.scan (!closed) (s.drop (skip + take)) := by
  rw [scan]
  split
  · rename_i h'
    cases h.symm.trans h'
    rfl
  · rename_i h'
    cases h.symm.trans h'

theorem scan_more (h : d.decide s true = .more) :
    d.scan opened s = if opened ∨ s ≠ [] then [.cut s] else [.finished] := by
  rw [scan]
  split
  · rename_i h'
    cases h.symm.trans h'
  · rfl

/-! ## Streams that arrive bit by bit -/

/-- A record found among the items that have arrived is the first one of the stream, whatever comes
behind them. -/
theorem scan_arrived (h : d.decide u ended = .record skip take closed) (hv : ended = true → v = []) :
    d.scan opened (u ++ v)
      = .record (u.take skip) ((u.drop skip).take take) closed :: d.scan (!closed) (u.drop (skip + take) ++ v) := by
  obtain ⟨-, hle⟩ := d.fits h
  have hdecide : d.decide (u ++ v) true = .record skip take closed := by
    cases ended with
    | false => exact d.stable h v true
    | true => rw [hv rfl, List.append_nil, h]
  have hskip : skip ≤ u.length := by omega
  have hbody : take ≤ (u.drop skip).length := by
    rw [List.length_drop]
    omega
  rw [scan_record hdecide, List.take_append_of_le_length hskip, List.drop_append_of_le_length hskip,
    List.take_append_of_le_length hbody, List.drop_append_of_le_length hle]

end Deframer

end Taps.Lib
