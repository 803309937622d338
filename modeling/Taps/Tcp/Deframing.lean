import Taps.Lib.Deframer
import Taps.Tcp.Scan

/-!
# Framers that follow a rule

A framer that decides by the bytes in the chain and by whether the stream has ended cuts the stream as a
rule for deframing does. This is such a rule for each framer of the library, and what the results of
receives have to be where one is followed.
-/

namespace Taps

open Lib (Deframer Verdict Item)

/-! ## What a framer decides -/

def ParseResult.verdict (pr : ParseResult) : Verdict :=
  match pr.action with
  | .needMore => .more
  | .emit => .record pr.discardBefore.toNat pr.deliver.toNat pr.endOfMessage

/-- `parse()` says of any chain that fits `std::size_t` what the rule says of the bytes in it. -/
def MessageFramer.Follows {σ : Type} (f : MessageFramer σ) (d : Deframer Byte) : Prop :=
  ∀ framerState cursor atEof, cursor.size < 2 ^ 64 →
    (f.parse framerState cursor atEof).1.verdict = d.decide (cursor.chain.bytes cursor.mem) atEof

/-- All that has arrived, once the stream has ended. -/
def PassthroughFramer.deframer : Deframer Byte where
  decide u ended := if ended = false ∨ u = [] then .more else .record 0 u.length true
  fits := by
    intro u ended skip take closed h
    split at h
    · cases h
    · rename_i hne
      cases h
      rw [not_or] at hne
      have := List.length_pos_iff.mpr hne.2
      omega
  stable := by
    intro u skip take closed h
    rw [if_pos (.inl rfl)] at h
    cases h

/-- The record at the front, or what there is of its body at the end of the stream. -/
def LengthPrefixedFramer.deframer (f : LengthPrefixedFramer) : Deframer Byte where
  decide u ended :=
    if u.length < f.lengthFieldSize then .more
    else if u.length < f.lengthFieldSize + f.headerLength u then
      if ended ∧ u.length > f.lengthFieldSize then
        .record f.lengthFieldSize (u.length - f.lengthFieldSize) false
      else .more
    else .record f.lengthFieldSize (f.headerLength u) true
  fits := by
    intro u ended skip take closed h
    have hpos := f.pos
    split at h
    · cases h
    · split at h
      · split at h
        · cases h
          omega
        · cases h
      · cases h
        omega
  stable := by
    intro u skip take closed h v ended
    split at h
    · cases h
    · rename_i hw
      split at h
      · simp at h
      · rename_i hrec
        cases h
        have hhead : f.headerLength (u ++ v) = f.headerLength u := by
          rw [headerLength, List.take_append_of_le_length (by omega), headerLength]
        rw [hhead, List.length_append, if_neg (by omega), if_neg (by omega)]

/-! ## What the results say of the stream -/

def Reply.ofItem : Item Byte → Reply
  | .record _ body closed => .message body closed
  | .finished => .message [] true
  | .cut _ => .error .receiveError .deframingFailed

/-- A Message, or the error of a stream that does not end as the framer has it. -/
def Reply.ofStream : Reply → Bool
  | .message _ _ => true
  | .error _ reason => reason = .deframingFailed

/-- A receive has failed for a TLS stream that was cut off. -/
def Reply.truncated : Reply := .error .receiveError .protocolFailed

/-- The results of receives that say what is in the stream. -/
def History.streamReplies (h : History) : List Reply := h.replies.filter Reply.ofStream

/-- What the results of receives have to be for the stream `s`. -/
def expectedReplies (d : Deframer Byte) (opened : Bool) (s : List Byte) : List Reply :=
  (d.scan opened s).map Reply.ofItem

end Taps
