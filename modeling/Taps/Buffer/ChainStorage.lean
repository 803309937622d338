import Taps.Buffer.BlockChain
import Taps.Buffer.DataBlock

/-!
# The storage of a `BlockChain`

The members of a `BlockChain` and its operations on them, entry by entry, with what each does to the reference
counts. `none` is an index outside the storage, or a null `block()` that is dereferenced. Sizes and indices are
natural numbers, but for `count_`, which the loop of `consume_front()` lowers as a `std::size_t`. This is exact for
chains of less than `2 ^ 64` bytes; as windows may share a block, that is no bound on the blocks.

`throws n` says whether an allocation of storage for `n` entries throws, and `.error` is what an exception leaves.
-/

namespace Taps

/-- `external` is the storage at `data_` if that is not `inline_`. -/
structure ChainStorage where
  inline : List Handle
  external : Option (List Handle)
  head : Nat
  count : Nat
  size : Nat
  deriving DecidableEq, Repr

/-! ## Loops over entries -/

namespace DataBlocks

/-- `data[i].reset()`, for `n` entries. -/
def resetCells (s : DataBlocks) (data : List Handle) (i : Nat) : Nat → Option (DataBlocks × List Handle)
  | 0 => some (s, data)
  | n + 1 =>
      match data[i]? with
      | none => none
      | some r => (s.reset r).resetCells (data.set i .null) (i + 1) n

/-- `data[j] = std::move(data[i])`, for `n` entries of one storage. -/
def moveDown (s : DataBlocks) (data : List Handle) (i j : Nat) : Nat → Option (DataBlocks × List Handle)
  | 0 => some (s, data)
  | n + 1 =>
      match data[i]?, data[j]? with
      | some r, some old => (s.reset old).moveDown ((data.set j r).set i r.moved) (i + 1) (j + 1) n
      | _, _ => none

/-- `to[j] = std::move(from[i])`, for `n` entries. -/
def moveCells (s : DataBlocks) (source target : List Handle) (i j : Nat) :
    Nat → Option (DataBlocks × List Handle × List Handle)
  | 0 => some (s, source, target)
  | n + 1 =>
      match source[i]?, target[j]? with
      | some r, some old => (s.reset old).moveCells (source.set i r.moved) (target.set j r) (i + 1) (j + 1) n
      | _, _ => none

/-- The loop of `consume_front()`: `n` bytes are left to consume, and `k` entries of the storage are left from
`head` on. -/
def consumeCells (s : DataBlocks) (data : List Handle) (head count n : Nat) :
    Nat → Option (DataBlocks × List Handle × Nat × Nat)
  | 0 => if n = 0 then some (s, data, head, count) else none
  | k + 1 =>
      if n = 0 then some (s, data, head, count)
      else
        match data[head]? with
        | none => none
        | some front =>
            if h : n < front.size then
              let front := front.setRange (front.beginOffset + n) front.endOffset
                (by unfold Handle.size at h; omega)
              some (s, data.set head front, head, count)
            else (s.reset front).consumeCells (data.set head .null) (head + 1) (sizeSub count 1) (n - front.size) k

end DataBlocks

namespace ChainStorage

/-- What an operation that allocates leaves, or an exception in it. -/
abbrev Outcome := Option (Except (DataBlocks × ChainStorage) (DataBlocks × ChainStorage))

def kInline : Nat := 2

def create : ChainStorage :=
  { inline := List.replicate kInline .null, external := none, head := 0, count := 0, size := 0 }

/-- The storage at `data_`. -/
def data (c : ChainStorage) : List Handle := c.external.getD c.inline

def capacity (c : ChainStorage) : Nat := c.data.length

/-- The storage at `data_` has these entries now. -/
def withData (c : ChainStorage) (data : List Handle) : ChainStorage :=
  match c.external with
  | some _ => { c with external := some data }
  | none => { c with inline := data }

/-- The entries from `begin()` to `end()`. -/
def entries (c : ChainStorage) : Option (List Handle) :=
  if c.head + c.count ≤ c.capacity then some ((c.data.drop c.head).take c.count) else none

def clear (s : DataBlocks) (c : ChainStorage) : Option (DataBlocks × ChainStorage) :=
  (s.resetCells c.data c.head c.count).map fun (s, data) =>
    (s, { c.withData data with head := 0, count := 0, size := 0 })

def releaseStorage (s : DataBlocks) (c : ChainStorage) : Option (DataBlocks × ChainStorage) :=
  match c.external with
  | none => some (s, c)
  | some data => (s.resetCells data 0 data.length).map fun (s, _) => (s, { c with external := none })

/-- The destructor, and those of the entries of `inline_`. -/
def destroy (s : DataBlocks) (c : ChainStorage) : Option DataBlocks := do
  let (s, c) ← c.clear s
  let (s, c) ← c.releaseStorage s
  let (s, _) ← s.resetCells c.inline 0 c.inline.length
  return s

def grow (throws : Nat → Bool) (s : DataBlocks) (c : ChainStorage) : Outcome :=
  if c.head > 0 then
    (s.moveDown c.data c.head 0 c.count).map fun (s, data) => .ok (s, { c.withData data with head := 0 })
  else
    match (c.data[0]?).bind Handle.block with
    | none => none
    | some _ =>
        if throws (c.capacity * 2) then some (.error (s, c))
        else do
          let (s, data, fresh) ← s.moveCells c.data (List.replicate (c.capacity * 2) .null) 0 0 c.count
          let (s, data) ← s.resetCells data 0 c.count
          let (s, c) ← (c.withData data).releaseStorage s
          return .ok (s, { c with external := some fresh })

/-- There is room for an entry behind the last one, if need be after a `grow()`. -/
def room (throws : Nat → Bool) (s : DataBlocks) (c : ChainStorage) : Outcome :=
  if c.head + c.count = c.capacity then c.grow throws s else some (.ok (s, c))

def pushBack (throws : Nat → Bool) (s : DataBlocks) (c : ChainStorage) (ref : Handle) : Outcome :=
  match c.room throws s with
  | none => none
  | some (.error (s, c)) => some (.error (s.reset ref, c))
  | some (.ok (s, c)) =>
      match c.data[c.head + c.count]? with
      | none => none
      | some old =>
          some (.ok (s.reset old, { c.withData (c.data.set (c.head + c.count) ref) with count := c.count + 1 }))

def append (throws : Nat → Bool) (s : DataBlocks) (c : ChainStorage) (ref : Handle) : Outcome :=
  if ref.block = none ∨ ref.empty then some (.ok (s.reset ref, c))
  else
    let c := { c with size := c.size + ref.size }
    if c.count > 0 then
      match c.data[c.head + c.count - 1]? with
      | none => none
      | some last =>
          if h : last.block = ref.block ∧ last.endOffset = ref.beginOffset then
            let last := last.setRange last.beginOffset ref.endOffset (by have := last.le; have := ref.le; omega)
            some (.ok (s.reset ref, c.withData (c.data.set (c.head + c.count - 1) last)))
          else c.pushBack throws s ref
    else c.pushBack throws s ref

def consumeFront (s : DataBlocks) (c : ChainStorage) (n : Nat) : Option (DataBlocks × ChainStorage) :=
  let n := min n c.size
  (s.consumeCells c.data c.head c.count n (c.capacity - c.head)).map fun (s, data, head, count) =>
    (s, { c.withData data with head := if count = 0 then 0 else head, count, size := c.size - n })

/-- The loop of `first()`, over the entries that are left. -/
def firstLoop (throws : Nat → Bool) (s : DataBlocks) (out : ChainStorage) : List Handle → Nat → Outcome
  | [], _ => some (.ok (s, out))
  | r :: rs, len =>
      if len = 0 then some (.ok (s, out))
      else
        let take := min r.size len
        let piece := r.setRange r.beginOffset (r.beginOffset + take) (Nat.le_add_right ..)
        match out.append throws (s.copy r) piece with
        | none => none
        | some (.error e) => some (.error e)
        | some (.ok (s, out)) => firstLoop throws s out rs (len - take)

/-- `first()`; an exception destroys `out`. -/
def first (throws : Nat → Bool) (s : DataBlocks) (c : ChainStorage) (len : Nat) :
    Option (Except DataBlocks (DataBlocks × ChainStorage)) := do
  let rs ← c.entries
  match ← firstLoop throws s create rs (min len c.size) with
  | .error (s, out) => return .error (← out.destroy s)
  | .ok (s, out) => return .ok (s, out)

/-- The loop of the copy constructor, over the entries of the other chain that are left. -/
def copyLoop (throws : Nat → Bool) (s : DataBlocks) (c : ChainStorage) : List Handle → Outcome
  | [] => some (.ok (s, c))
  | r :: rs =>
      match c.pushBack throws (s.copy r) r with
      | none => none
      | some (.error e) => some (.error e)
      | some (.ok (s, c)) => copyLoop throws s c rs

/-- `BlockChain(const BlockChain& other)`. An exception destroys the entries of `inline_`, but no destructor runs
that releases other storage: its entries, the second component of `.error`, are lost. -/
def copy (throws : Nat → Bool) (s : DataBlocks) (other : ChainStorage) :
    Option (Except (DataBlocks × List Handle) (DataBlocks × ChainStorage)) := do
  let rs ← other.entries
  match ← copyLoop throws s create rs with
  | .error (s, c) =>
      let (s, _) ← s.resetCells c.inline 0 c.inline.length
      return .error (s, c.external.getD [])
  | .ok (s, c) => return .ok (s, { c with size := other.size })

/-- `operator=(BlockChain&& other)`, from another chain: this one and the other after it. -/
def moveAssign (s : DataBlocks) (c other : ChainStorage) : Option (DataBlocks × ChainStorage × ChainStorage) := do
  let (s, c) ← c.clear s
  let (s, c) ← c.releaseStorage s
  let size := other.size
  let other := { other with size := 0 }
  match other.external with
  | none =>
      let (s, source, inline) ← s.moveCells other.inline c.inline other.head 0 other.count
      let c := { c with inline, count := other.count }
      let (s, other) ← { other with inline := source }.clear s
      return (s, { c with size }, other)
  | some data =>
      let c := { c with external := some data, head := other.head, count := other.count }
      return (s, { c with size }, { other with external := none, head := 0, count := 0 })

/-- `operator=(const BlockChain& other)`, from another chain. -/
def copyAssign (throws : Nat → Bool) (s : DataBlocks) (c other : ChainStorage) :
    Option (Except (DataBlocks × List Handle) (DataBlocks × ChainStorage)) := do
  match ← other.copy throws s with
  | .error e => return .error e
  | .ok (s, copy) =>
      let (s, c, copy) ← c.moveAssign s copy
      return .ok (← copy.destroy s, c)

/-- What `copy_to` writes. -/
def bytes (mem : Memory) (c : ChainStorage) : List Byte :=
  ((c.data.drop c.head).take c.count).flatMap (Handle.bytes mem)

end ChainStorage

/-! ## What the results say of the storage -/

/-- None of the objects refers to a block. -/
def Idle (l : List Handle) : Prop := ∀ r ∈ l, r.block = none

/-- The window continues the last entry. -/
def Continues (es : List BlockRef) (r : BlockRef) : Prop :=
  ∃ last ∈ es.getLast?, last.block = r.block ∧ last.endOffset = r.beginOffset

namespace ChainStorage

/-- The entries are `cells`, and no other object in the storage refers to a block. -/
structure Layout (c : ChainStorage) (cells : List Handle) : Prop where
  around : ∃ pre post, c.data = pre ++ cells ++ post ∧ pre.length = c.head ∧ Idle pre ∧ Idle post
  count_eq : c.count = cells.length
  capacity_pos : 0 < c.capacity
  inline_length : c.inline.length = kInline
  inline_idle : c.external ≠ none → Idle c.inline

/-- The storage of `c` holds the entries of `bc`. -/
structure Refines (c : ChainStorage) (bc : BlockChain) : Prop where
  layout : c.Layout (bc.entries.map .ofRef)
  size_eq : c.size = bc.size

/-- The storage is full, and there is no larger one. -/
def GrowthThrows (c : ChainStorage) (throws : Nat → Bool) : Prop :=
  c.head = 0 ∧ c.count = c.capacity ∧ throws (c.capacity * 2) = true

/-- Where `append()` comes to an allocation that throws. -/
def AppendThrows (c : ChainStorage) (throws : Nat → Bool) (es : List BlockRef) (r : BlockRef) : Prop :=
  r.beginOffset ≠ r.endOffset ∧ ¬ Continues es r ∧ c.GrowthThrows throws

end ChainStorage

end Taps
