import Taps.Buffer.Block
import Taps.Lib.RefCounts

/-!
# `DataBlock` and the objects of class `BlockRef`

The blocks of one pool with their reference counts, and what constructors, assignments and destructors of a
`BlockRef` do to them.
-/

namespace Taps

/-! ## `BlockRef` objects -/

/-- A `BlockRef`, valid or not. One that was moved from keeps its offsets. -/
@[ext]
structure Handle where
  block : Option Addr
  beginOffset : Nat
  endOffset : Nat
  le : beginOffset ≤ endOffset
  deriving Repr

instance : DecidableEq Handle := fun _ _ => decidable_of_iff' _ Handle.ext_iff

namespace Handle

/-- `BlockRef{}`, and what `reset()` leaves. -/
def null : Handle := { block := none, beginOffset := 0, endOffset := 0, le := empty_window_le }

def ofRef (r : BlockRef) : Handle :=
  { block := some r.block, beginOffset := r.beginOffset, endOffset := r.endOffset, le := r.le }

/-- The valid handle that it is, if it is one. -/
def ref (r : Handle) : Option BlockRef :=
  r.block.map fun block => { block, beginOffset := r.beginOffset, endOffset := r.endOffset, le := r.le }

def size (r : Handle) : Nat := r.endOffset - r.beginOffset

def empty (r : Handle) : Bool := r.beginOffset == r.endOffset

/-- What a move leaves of `r`. -/
def moved (r : Handle) : Handle := { r with block := none }

def setRange (r : Handle) (beginOffset endOffset : Nat) (le : beginOffset ≤ endOffset) : Handle :=
  { block := r.block, beginOffset, endOffset, le }

def bytes (mem : Memory) (r : Handle) : List Byte := ((r.ref).map (BlockRef.bytes mem)).getD []

@[simp] theorem block_ofRef (r : BlockRef) : (ofRef r).block = some r.block := rfl

@[simp] theorem size_ofRef (r : BlockRef) : (ofRef r).size = r.size := rfl

theorem eq_ofRef {r : Handle} {a : Addr} (h : r.block = some a) : ∃ b : BlockRef, r = ofRef b := by
  obtain ⟨block, beginOffset, endOffset, le⟩ := r
  cases h
  exact ⟨⟨a, beginOffset, endOffset, le⟩, rfl⟩

end Handle

/-! ## The blocks of a pool -/

/-- A block is two allocations, each at an address of its own. -/
inductive Piece
  | storage (block : Addr)
  | header (block : Addr)
  deriving DecidableEq, Repr

def Piece.block : Piece → Addr
  | .storage a | .header a => a

/-- `live` is the shared counter, if there is a cap. `allocated` and `deallocated` are what the resource has
given out for blocks and got back. -/
structure DataBlocks where
  maxLiveBlocks : Nat
  live : Nat
  counts : Lib.RefCounts Addr 32
  allocated : List Piece
  deallocated : List Piece

/-- What the resource does for a block: it has both pieces at `block`, or it throws at the first or at the
second one. -/
inductive BlockAllocation
  | block (block : Addr)
  | storageThrows
  | headerThrows (storage : Addr)
  deriving DecidableEq, Repr

namespace DataBlocks

def create (maxLiveBlocks : Nat) : DataBlocks :=
  { maxLiveBlocks, live := 0, counts := ⟨fun _ => 0, false⟩, allocated := [], deallocated := [] }

def addRef (s : DataBlocks) (a : Addr) : DataBlocks := { s with counts := s.counts.addRef a }

/-- `live_->fetch_sub(1)`, if there is a counter. -/
def uncount (s : DataBlocks) : DataBlocks := if s.maxLiveBlocks = 0 then s else { s with live := s.live - 1 }

def destroy (s : DataBlocks) (a : Addr) : DataBlocks :=
  { s.uncount with deallocated := s.deallocated ++ [.storage a, .header a] }

def release (s : DataBlocks) (a : Addr) : DataBlocks :=
  let (counts, last) := s.counts.release a
  if last then { s with counts }.destroy a else { s with counts }

/-- `DataBlock::create()`; `none` where the resource throws. -/
def allocate (s : DataBlocks) : BlockAllocation → DataBlocks × Option Addr
  | .block a =>
      ({ s with counts := s.counts.create a, allocated := s.allocated ++ [.storage a, .header a] }, some a)
  | .storageThrows => (s, none)
  | .headerThrows a =>
      ({ s with allocated := s.allocated ++ [.storage a], deallocated := s.deallocated ++ [.storage a] }, none)

/-- The slot that `acquire()` reserves in the counter. -/
def count (s : DataBlocks) : DataBlocks := if s.maxLiveBlocks = 0 then s else { s with live := s.live + 1 }

/-- `MessageBlockPool::acquire()`; `none` where the resource throws. -/
def acquire (s : DataBlocks) (outcome : BlockAllocation) : DataBlocks × Option Handle :=
  if s.maxLiveBlocks ≠ 0 ∧ s.live ≥ s.maxLiveBlocks then (s.count.uncount, some .null)
  else
    match s.count.allocate outcome with
    | (s, some a) => (s.addRef a, some { block := some a, beginOffset := 0, endOffset := 0, le := empty_window_le })
    | (s, none) => (s.uncount, none)

/-! ## What happens to a `BlockRef` -/

/-- `r.reset()`, or its destructor. -/
def reset (s : DataBlocks) (r : Handle) : DataBlocks :=
  match r.block with
  | some a => s.release a
  | none => s

/-- A copy of `r`. -/
def copy (s : DataBlocks) (r : Handle) : DataBlocks :=
  match r.block with
  | some a => s.addRef a
  | none => s

end DataBlocks

end Taps
