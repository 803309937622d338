import Taps.Message
import Taps.Buffer.Lemmas.BlockChain
import Taps.Lib.Iterators

/-!
# `ConstBufferSequence`

What one `send()` hands to the socket: the header, then the body or the blocks of the chain. A write
walks it with the iterator, which skips the empty parts.
-/

namespace Taps

structure ConstBufferSequence where
  header : List Byte
  body : List Byte
  chain : Option BlockChain

namespace ConstBufferSequence

/-- `ConstBufferSequence(header, body)`. -/
def ofBody (header body : List Byte) : ConstBufferSequence := { header, body, chain := none }

/-- `ConstBufferSequence(header, chain)`. -/
def ofChain (header : List Byte) (chain : BlockChain) : ConstBufferSequence :=
  { header, body := [], chain := some chain }

/-- `ConstBufferSequence(header, message)`: the blocks of the Message if it has a chain, its one
segment otherwise. -/
def ofMessage (mem : Memory) (header : List Byte) (message : Message) : ConstBufferSequence :=
  match message.chain with
  | some c => { header, body := [], chain := some c }
  | none => { header, body := message.segment mem 0, chain := none }

inductive Stage
  | header
  | body
  | chain
  | «end»
  deriving DecidableEq, Repr

/-- `const_iterator`. `ref` counts the chain's entries before the one it points to. -/
structure ConstIterator where
  stage : Stage
  ref : Nat
  deriving DecidableEq, Repr

/-- `operator==`: the entry counts only where the iterators walk over entries. -/
def ConstIterator.equal (a b : ConstIterator) : Bool :=
  a.stage == b.stage && (a.stage != .chain || a.ref == b.ref)

/-- The number of entries that the iterator's last stage walks over. -/
def chainCount (seq : ConstBufferSequence) : Nat :=
  match seq.chain with
  | some c => c.blockCount
  | none => 0

def skipHeader (seq : ConstBufferSequence) (it : ConstIterator) : ConstIterator :=
  if it.stage = .header ∧ seq.header = [] then { it with stage := .body } else it

def skipBody (seq : ConstBufferSequence) (it : ConstIterator) : ConstIterator :=
  if it.stage = .body ∧ (seq.chain.isSome ∨ seq.body = []) then { stage := .chain, ref := 0 } else it

def skipChain (seq : ConstBufferSequence) (it : ConstIterator) : ConstIterator :=
  if it.stage = .chain ∧ (seq.chain = none ∨ it.ref = seq.chainCount) then { it with stage := .end }
  else it

/-- `skip_empty()`: its three tests, in order. -/
def skipEmpty (seq : ConstBufferSequence) (it : ConstIterator) : ConstIterator :=
  seq.skipChain (seq.skipBody (seq.skipHeader it))

def begin' (seq : ConstBufferSequence) : ConstIterator := seq.skipEmpty { stage := .header, ref := 0 }

def end' (seq : ConstBufferSequence) : ConstIterator := seq.skipEmpty { stage := .end, ref := 0 }

/-- `operator*`. -/
def deref (mem : Memory) (seq : ConstBufferSequence) (it : ConstIterator) : List Byte :=
  match it.stage with
  | .header => seq.header
  | .body => seq.body
  | _ => ((seq.chain.bind fun c => c.entries[it.ref]?).map (BlockRef.bytes mem)).getD []

/-- `operator++`. -/
def next (seq : ConstBufferSequence) (it : ConstIterator) : ConstIterator :=
  match it.stage with
  | .header => seq.skipEmpty { it with stage := .body }
  | .body => seq.skipEmpty { it with stage := .chain }
  | .chain => seq.skipEmpty { it with ref := it.ref + 1 }
  | .end => it

/-- The buffers from `it` on to `end()`, in at most `n` increments. -/
def buffersFrom (mem : Memory) (seq : ConstBufferSequence) : Nat → ConstIterator → List (List Byte)
  | 0, _ => []
  | n + 1, it => if it.stage = .end then [] else seq.deref mem it :: buffersFrom mem seq n (seq.next it)

/-- The buffers that a write walks over: a header, a body and the entries of a chain at most. -/
def buffers (mem : Memory) (seq : ConstBufferSequence) : List (List Byte) :=
  seq.buffersFrom mem (seq.chainCount + 2) seq.begin'

/-- The range from `begin()` to `end()`. At the end there is nothing to read. -/
def iterators (mem : Memory) (seq : ConstBufferSequence) : Lib.Iterators ConstIterator (List Byte) where
  first := seq.begin'
  last := seq.end'
  next := seq.next
  read it := if it.stage = .end then none else some (seq.deref mem it)
  equal := ConstIterator.equal

/-! ## The parts of a sequence -/

/-- What follows the header. -/
def payload (mem : Memory) (seq : ConstBufferSequence) : List Byte :=
  match seq.chain with
  | some c => c.bytes mem
  | none => seq.body

def headerParts (seq : ConstBufferSequence) : List (List Byte) := if seq.header = [] then [] else [seq.header]

def payloadParts (mem : Memory) (seq : ConstBufferSequence) : List (List Byte) :=
  match seq.chain with
  | some c => c.entries.map (BlockRef.bytes mem)
  | none => if seq.body = [] then [] else [seq.body]

/-- The parts that are not empty, in the order they are sent. -/
def parts (mem : Memory) (seq : ConstBufferSequence) : List (List Byte) := seq.headerParts ++ seq.payloadParts mem

/-- The iterator is where `skip_empty()` leaves one: at a part that is not empty or at the end. -/
def Placed (seq : ConstBufferSequence) (it : ConstIterator) : Prop :=
  match it.stage with
  | .header => seq.header ≠ []
  | .body => seq.chain = none ∧ seq.body ≠ []
  | .chain => it.ref < seq.chainCount
  | .end => True

/-- The number of parts before the iterator. -/
def position (mem : Memory) (seq : ConstBufferSequence) (it : ConstIterator) : Nat :=
  match it.stage with
  | .header => 0
  | .body => seq.headerParts.length
  | .chain => seq.headerParts.length + it.ref
  | .end => (seq.parts mem).length

variable {mem : Memory} {seq : ConstBufferSequence}

@[simp] theorem header_ofMessage (mem : Memory) (header : List Byte) (m : Message) :
    (ofMessage mem header m).header = header := by
  unfold ofMessage
  split <;> rfl

theorem payload_ofMessage (mem : Memory) (header : List Byte) (m : Message) :
    (ofMessage mem header m).payload mem = m.payload mem := by
  cases hc : m.chain with
  | some c => simp only [ofMessage, hc, payload, Message.payload_of_chain hc]
  | none => simp only [ofMessage, hc, payload, Message.segment, Message.payload_of_contiguous hc]

theorem flatten_parts (mem : Memory) (seq : ConstBufferSequence) :
    (seq.parts mem).flatten = seq.header ++ seq.payload mem := by
  have hheader : seq.headerParts.flatten = seq.header := by
    unfold headerParts
    split <;> simp_all
  have hpayload : (seq.payloadParts mem).flatten = seq.payload mem := by
    unfold payloadParts payload
    split
    · rw [BlockChain.bytes, List.flatMap_def]
    · split <;> simp_all
  rw [parts, List.flatten_append, hheader, hpayload]

theorem ne_nil_of_mem_parts {part : List Byte} (h : part ∈ seq.parts mem) : part ≠ [] := by
  rcases List.mem_append.mp h with h | h
  · unfold headerParts at h
    split at h <;> simp_all
  · unfold payloadParts at h
    split at h
    · rename_i c _
      obtain ⟨r, hr, rfl⟩ := List.mem_map.mp h
      have hlen := BlockRef.length_bytes mem r
      have hlive := c.live r hr
      intro hnil
      rw [hnil, BlockRef.size, List.length_nil] at hlen
      omega
    · split at h <;> simp_all

/-! ## The iterators are positions in the list of parts -/

theorem length_parts_of_chain {c : BlockChain} (hc : seq.chain = some c) :
    (seq.parts mem).length = seq.headerParts.length + seq.chainCount := by
  simp only [parts, payloadParts, hc, List.length_append, List.length_map, chainCount, BlockChain.blockCount]

theorem length_parts_of_body (hc : seq.chain = none) (hb : seq.body ≠ []) :
    (seq.parts mem).length = seq.headerParts.length + 1 := by
  simp [parts, payloadParts, hc, hb]

theorem skipEmpty_chain (seq : ConstBufferSequence) (i : Nat) :
    seq.skipEmpty ⟨.chain, i⟩ = seq.skipChain ⟨.chain, i⟩ := by
  simp [skipEmpty, skipHeader, skipBody]

/-- Before the entry `i` of a chain, or behind the last one. -/
theorem skipEmpty_chain_spec (mem : Memory) {c : BlockChain} (hc : seq.chain = some c) {i : Nat}
    (hi : i ≤ seq.chainCount) :
    seq.Placed (seq.skipEmpty ⟨.chain, i⟩) ∧
      seq.position mem (seq.skipEmpty ⟨.chain, i⟩) = seq.headerParts.length + i := by
  rw [skipEmpty_chain]
  rcases Nat.eq_or_lt_of_le hi with rfl | hlt
  · simp [skipChain, Placed, position, length_parts_of_chain hc]
  · have hne : i ≠ seq.chainCount := by omega
    simp [skipChain, hc, hne, Placed, position, hlt]

/-- Behind the header. -/
theorem skipEmpty_body_spec (mem : Memory) (seq : ConstBufferSequence) (i : Nat) :
    seq.Placed (seq.skipEmpty ⟨.body, i⟩) ∧
      seq.position mem (seq.skipEmpty ⟨.body, i⟩) = seq.headerParts.length := by
  cases hc : seq.chain with
  | some c =>
      have hskip : seq.skipEmpty ⟨.body, i⟩ = seq.skipEmpty ⟨.chain, 0⟩ := by
        simp [skipEmpty, skipHeader, skipBody, hc]
      rw [hskip]
      exact skipEmpty_chain_spec mem hc (Nat.zero_le _)
  | none =>
      by_cases hb : seq.body = []
      · simp [skipEmpty, skipHeader, skipBody, skipChain, hc, hb, Placed, position, parts, payloadParts]
      · simp [skipEmpty, skipHeader, skipBody, skipChain, hc, hb, Placed, position]

theorem begin_spec (mem : Memory) (seq : ConstBufferSequence) :
    seq.Placed seq.begin' ∧ seq.position mem seq.begin' = 0 := by
  by_cases hh : seq.header = []
  · have hskip : seq.begin' = seq.skipEmpty ⟨.body, 0⟩ := by
      simp [begin', skipEmpty, skipHeader, hh]
    have hparts : seq.headerParts.length = 0 := by simp [headerParts, hh]
    have hbody := skipEmpty_body_spec mem seq 0
    rwa [← hskip, hparts] at hbody
  · simp [begin', skipEmpty, skipHeader, skipBody, skipChain, hh, Placed, position]

theorem next_spec {it : ConstIterator} (hit : seq.Placed it) (hlt : seq.position mem it < (seq.parts mem).length) :
    seq.Placed (seq.next it) ∧ seq.position mem (seq.next it) = seq.position mem it + 1 := by
  obtain ⟨stage, i⟩ := it
  cases stage with
  | header =>
      have hparts : seq.headerParts.length = 1 := by simp [headerParts, show seq.header ≠ [] from hit]
      rw [show seq.position mem ⟨.header, i⟩ + 1 = 1 from rfl, ← hparts]
      exact skipEmpty_body_spec mem seq i
  | body =>
      have hnext : seq.next ⟨.body, i⟩ = ⟨.end, i⟩ := by
        simp [next, skipEmpty_chain, skipChain, hit.1]
      rw [hnext]
      exact ⟨trivial, length_parts_of_body hit.1 hit.2⟩
  | chain =>
      cases hc : seq.chain with
      | some c => exact skipEmpty_chain_spec mem hc (show i + 1 ≤ seq.chainCount from hit)
      | none =>
          have hcount : i < seq.chainCount := hit
          simp [chainCount, hc] at hcount
  | «end» => exact absurd hlt (Nat.lt_irrefl _)

theorem read_spec (mem : Memory) {it : ConstIterator} (hit : seq.Placed it) :
    (seq.iterators mem).read it = (seq.parts mem)[seq.position mem it]? := by
  obtain ⟨stage, i⟩ := it
  cases stage with
  | header =>
      have hh : seq.header ≠ [] := hit
      simp [iterators, position, deref, parts, headerParts, hh]
  | body =>
      obtain ⟨hc, hb⟩ := hit
      simp [iterators, position, deref, parts, payloadParts, hc, hb]
  | chain =>
      have hi : i < seq.chainCount := hit
      cases hc : seq.chain with
      | some c =>
          have hlt : i < c.entries.length := by simpa [chainCount, hc, BlockChain.blockCount] using hi
          simp [iterators, position, deref, parts, payloadParts, hc, hlt]
      | none => simp [chainCount, hc] at hi
  | «end» => simp [iterators, position]

theorem position_lt (mem : Memory) {it : ConstIterator} (hit : seq.Placed it) (hend : it.stage ≠ .end) :
    seq.position mem it < (seq.parts mem).length := by
  have hread := read_spec mem hit
  simp only [iterators, if_neg hend] at hread
  exact (List.getElem?_eq_some_iff.mp hread.symm).1

/-- The stages are in the order of the positions, and only a chain has several positions in one. -/
theorem equal_spec {a b : ConstIterator} (ha : seq.Placed a) (hb : seq.Placed b) :
    a.equal b = (seq.position mem a == seq.position mem b) := by
  have hlta := position_lt mem ha
  have hltb := position_lt mem hb
  have hheader : seq.header ≠ [] → seq.headerParts.length = 1 := fun hh => by simp [headerParts, hh]
  have hbody : seq.chain = none → seq.chainCount = 0 := fun hc => by simp [chainCount, hc]
  apply Bool.eq_iff_iff.mpr
  obtain ⟨stage, i⟩ := a
  obtain ⟨stage', j⟩ := b
  -- An iterator in the body has no chain to walk over, so the two are never at the same position.
  cases stage <;> cases stage' <;> simp [ConstIterator.equal, Placed, position] at ha hb hlta hltb ⊢
  all_goals grind

theorem represents_parts (mem : Memory) (seq : ConstBufferSequence) :
    (seq.iterators mem).Represents (seq.parts mem) seq.Placed (seq.position mem) where
  first := begin_spec mem seq
  last := by simp [iterators, end', skipEmpty, skipHeader, skipBody, skipChain, Placed, position]
  next _ hit hlt := next_spec hit hlt
  read _ hit := read_spec mem hit
  equal _ _ ha hb := equal_spec ha hb

/-! ## What a write sends -/

/-- The induction is on the increments left, which the parts left bound. -/
theorem buffersFrom_eq (n : Nat) : ∀ it, seq.Placed it → (seq.parts mem).length ≤ seq.position mem it + n →
    seq.buffersFrom mem n it = (seq.parts mem).drop (seq.position mem it) := by
  induction n with
  | zero =>
      intro it _ hn
      rw [List.drop_of_length_le (by omega)]
      rfl
  | succ n ih =>
      intro it hit hn
      have hread := read_spec mem hit
      rw [buffersFrom]
      split
      · rename_i hend
        rw [List.drop_of_length_le (by simp only [position, hend, Nat.le_refl])]
      · rename_i hend
        simp only [iterators, if_neg hend] at hread
        obtain ⟨hlt, hget⟩ := List.getElem?_eq_some_iff.mp hread.symm
        obtain ⟨hplaced, hposition⟩ := next_spec hit hlt
        rw [ih _ hplaced (by omega), hposition, List.drop_eq_getElem_cons hlt, hget]

theorem buffers_eq_parts (mem : Memory) (seq : ConstBufferSequence) : seq.buffers mem = seq.parts mem := by
  obtain ⟨hplaced, hposition⟩ := begin_spec mem seq
  have hheader : seq.headerParts.length ≤ 1 := by
    unfold headerParts
    split <;> simp
  have hpayload : (seq.payloadParts mem).length ≤ seq.chainCount + 1 := by
    unfold payloadParts chainCount
    split
    · simp [BlockChain.blockCount]
    · split <;> simp
  have hlen : (seq.parts mem).length ≤ seq.chainCount + 2 := by
    rw [parts, List.length_append]
    omega
  rw [buffers, buffersFrom_eq _ _ hplaced (by omega), hposition, List.drop_zero]

/-- A Message is written as its header followed by its payload. -/
theorem flatten_buffers_ofMessage (mem : Memory) (header : List Byte) (m : Message) :
    ((ofMessage mem header m).buffers mem).flatten = header ++ m.payload mem := by
  rw [buffers_eq_parts, flatten_parts, header_ofMessage, payload_ofMessage]

end ConstBufferSequence

end Taps
