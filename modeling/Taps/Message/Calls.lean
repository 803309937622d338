import Taps.Lib.Machine
import Taps.Message

/-!
# Calls on Messages

A program builds Messages, copies them and asks each for its bytes, in any order. `as_bytes()` is the one call that
changes a Message.
-/

namespace Taps

/-- What a program does with its Messages, which are numbered in the order it got them. -/
inductive MessageCall
  | ofVector (data : List Byte)
  | ofSpan (data : List Byte)
  | ofChain (chain : Option BlockChain) (endOfMessage : Bool)
  | copy (i : Nat)
  | asBytes (i : Nat)
  | blocks (i : Nat)
  | gather (i : Nat) (out : List Byte)
  | size (i : Nat)

/-- What a call gives; `gather` also leaves bytes in the buffer of its caller. -/
inductive MessageAnswer
  | bytes (bs : List Byte)
  | spans (spans : List (List Byte))
  | gathered (out : List Byte) (n : Nat)
  | size (n : Nat)
  deriving DecidableEq, Repr

namespace MessageCall

/-- The Messages that the program has. It calls `gather` only with a buffer that is large enough. -/
def messages (mem : Memory) : Lib.Machine (List Message) MessageCall MessageAnswer where
  step ms
    | ofVector data => (ms ++ [.ofVector data], [])
    | ofSpan data => (ms ++ [.ofSpan data], [])
    | ofChain chain endOfMessage => (ms ++ [.ofChain chain endOfMessage], [])
    | copy i => (ms ++ ms[i]?.toList, [])
    | asBytes i => (ms.modify i fun m => (m.asBytes mem).2, (ms[i]?.map fun m => .bytes (m.asBytes mem).1).toList)
    | blocks i => (ms, (ms[i]?.map fun m => .spans (m.blocks mem)).toList)
    | gather i out =>
        (ms, ms[i]?.toList.flatMap fun m =>
          if m.size ≤ out.length then [.gathered (m.gather mem out).1 (m.gather mem out).2] else [])
    | size i => (ms, (ms[i]?.map fun m => .size m.size).toList)

/-! ## What a Message is for -/

/-- The spans of a Message built from a chain; from a null pointer it has one, which is empty. -/
def chainSpans (mem : Memory) : Option BlockChain → List (List Byte)
  | some c => c.entries.map (BlockRef.bytes mem)
  | none => [[]]

/-- A Message is the list of its spans, from when it was built on. Every call is answered from them, and none
changes them. -/
def contents (mem : Memory) : Lib.Machine (List (List (List Byte))) MessageCall MessageAnswer where
  step ps
    | ofVector data => (ps ++ [[data]], [])
    | ofSpan data => (ps ++ [[data]], [])
    | ofChain chain _ => (ps ++ [chainSpans mem chain], [])
    | copy i => (ps ++ ps[i]?.toList, [])
    | asBytes i => (ps, (ps[i]?.map fun spans => .bytes spans.flatten).toList)
    | blocks i => (ps, (ps[i]?.map .spans).toList)
    | gather i out =>
        (ps, ps[i]?.toList.flatMap fun spans =>
          if spans.flatten.length ≤ out.length then
            [.gathered (spans.flatten ++ out.drop spans.flatten.length) spans.flatten.length]
          else [])
    | size i => (ps, (ps[i]?.map fun spans => .size spans.flatten.length).toList)

end MessageCall

/-! ## The cached copy -/

namespace Message

variable {mem : Memory} {m : Message}

/-- A copy that the Message keeps is one of its chain. -/
def Coherent (mem : Memory) (m : Message) : Prop :=
  ∀ bs, m.gathered = some bs → ∃ c, m.chain = some c ∧ bs = c.bytes mem

theorem coherent_of_none (h : m.gathered = none) : m.Coherent mem := by
  intro bs hbs
  rw [h] at hbs
  cases hbs

/-- `as_bytes()` changes nothing that `blocks()` reads. -/
@[simp] theorem blocks_asBytes (mem : Memory) (m : Message) : (m.asBytes mem).2.blocks mem = m.blocks mem := by
  unfold asBytes ensureGathered
  repeat' split
  all_goals rfl

theorem asBytes_of_coherent (h : m.Coherent mem) : (m.asBytes mem).1 = m.payload mem := by
  cases hc : m.chain with
  | none => simp only [asBytes, hc, payload_of_contiguous hc]
  | some c =>
      rw [payload_of_chain hc]
      simp only [asBytes, ensureGathered, hc]
      split
      · rename_i hempty
        exact (BlockChain.bytes_eq_nil (by simpa [BlockChain.empty] using hempty)).symm
      · split
        · rename_i hone
          -- A chain of one block is viewed in place.
          obtain ⟨r, hr⟩ := List.length_eq_one_iff.mp hone
          simp [segment, hc, BlockChain.bytes, hr]
        · split
          · rename_i bs hbs
            obtain ⟨c', hc', rfl⟩ := h bs hbs
            rw [hc] at hc'
            cases hc'
            rfl
          · rfl

theorem coherent_asBytes (h : m.Coherent mem) : (m.asBytes mem).2.Coherent mem := by
  cases hc : m.chain with
  | none => simpa only [asBytes, hc] using h
  | some c =>
      simp only [asBytes, ensureGathered, hc]
      split
      · exact h
      · split
        · exact h
        · split
          · exact h
          · intro bs hbs
            cases hbs
            exact ⟨c, rfl, rfl⟩

end Message

end Taps
