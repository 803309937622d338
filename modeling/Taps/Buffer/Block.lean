import Mathlib.Algebra.Ring.Nat
import Taps.Lib.Memory

/-!
# Receive blocks and the handles to them

A block is storage of a fixed size for received bytes, and a `BlockRef` is a counted handle to a
window of one. The memory resource gives out an address again once no handle refers to the block
there, so whether an address is in use is a question about the handles (`liveBlocks`).
-/

namespace Taps

abbrev Byte := UInt8

abbrev Addr := Nat

/-- The storage of the blocks. -/
abbrev Memory := Lib.Memory Addr Byte

/-- `a - b` in `std::size_t`. -/
def sizeSub (a b : Nat) : Nat := if b ≤ a then a - b else a + 2 ^ 64 - b

theorem sizeSub_of_le {a b : Nat} (h : b ≤ a) : sizeSub a b = a - b := by simp [sizeSub, h]

/-! ## `BlockRef` -/

/-- A valid `BlockRef`: the block it refers to and its window of it. An invalid one is `none` where
a handle may be invalid. -/
structure BlockRef where
  block : Addr
  beginOffset : Nat
  endOffset : Nat
  le : beginOffset ≤ endOffset
  deriving DecidableEq, Repr

namespace BlockRef

def size (r : BlockRef) : Nat := r.endOffset - r.beginOffset

def empty (r : BlockRef) : Bool := r.beginOffset == r.endOffset

def bytes (mem : Memory) (r : BlockRef) : List Byte := mem.read r.block r.beginOffset r.size

/-- `capacity_after_begin()`, for a block of `capacity` bytes. -/
def capacityAfterBegin (capacity : Nat) (r : BlockRef) : Nat := sizeSub capacity r.beginOffset

def setRange (r : BlockRef) (beginOffset endOffset : Nat)
    (le : beginOffset ≤ endOffset := by omega) : BlockRef :=
  { block := r.block, beginOffset, endOffset, le }

/-- The window of `r` holds the byte at `off` of the block `blk`. -/
def Covers (r : BlockRef) (blk : Addr) (off : Nat) : Prop :=
  r.block = blk ∧ r.beginOffset ≤ off ∧ off < r.endOffset

end BlockRef

/-! ## `MessageBlockPool` -/

def liveBlocks (handles : List Addr) : Nat := handles.dedup.length

/-- A pool's configuration. A block is one allocation, and none is larger than `PTRDIFF_MAX` bytes. -/
structure MessageBlockPool where
  blockSize : Nat
  maxLiveBlocks : Nat
  blockSize_lt : blockSize < 2 ^ 63

/-- The window of a block that holds no byte yet. -/
theorem empty_window_le : 0 ≤ 0 := Nat.le_refl 0

/-- `MessageBlockPool::acquire`: an empty window of the block that the resource allocates at `fresh`,
or an invalid handle at the live-block cap. `live` is the shared counter, the number of blocks with a
handle. -/
def MessageBlockPool.acquire (pool : MessageBlockPool) (live : Nat) (fresh : Addr) :
    Option BlockRef :=
  if pool.maxLiveBlocks ≠ 0 ∧ live ≥ pool.maxLiveBlocks then none
  else some { block := fresh, beginOffset := 0, endOffset := 0, le := empty_window_le }

def tinyPool : MessageBlockPool := { blockSize := 8, maxLiveBlocks := 0, blockSize_lt := by decide }

def smallPool : MessageBlockPool := { blockSize := 16, maxLiveBlocks := 0, blockSize_lt := by decide }

end Taps
