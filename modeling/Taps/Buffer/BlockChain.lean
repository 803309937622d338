import Taps.Buffer.Block

/-!
# `BlockChain`

The sequence of windows that forms one run of bytes. The entries here are the live ones, front to
back; no entry is empty and `size` is the sum of their sizes.
-/

namespace Taps

def entriesSize (es : List BlockRef) : Nat := (es.map BlockRef.size).sum

/-! ## The operations on the entries -/

/-- The end of `BlockChain::append`: a window that continues the last one inside the same block
extends it. -/
def appendEntry : List BlockRef → BlockRef → List BlockRef
  | [], ref => [ref]
  | [last], ref =>
      if h : last.block = ref.block ∧ last.endOffset = ref.beginOffset then
        [last.setRange last.beginOffset ref.endOffset (by have := last.le; have := ref.le; omega)]
      else [last, ref]
  | r :: r' :: es, ref => r :: appendEntry (r' :: es) ref

/-- The loop of `BlockChain::consume_front`: the number left to consume counts down to 0. -/
def consumeEntries : List BlockRef → Nat → List BlockRef
  | [], _ => []
  | front :: es, n =>
      if n = 0 then front :: es
      else if h : n < front.size then
        front.setRange (front.beginOffset + n) front.endOffset (by unfold BlockRef.size at h; omega)
          :: es
      else consumeEntries es (n - front.size)

theorem entriesSize_appendEntry (es : List BlockRef) (ref : BlockRef) :
    entriesSize (appendEntry es ref) = entriesSize es + ref.size := by
  induction es with
  | nil => simp [appendEntry, entriesSize]
  | cons r es ih =>
      cases es with
      | nil =>
          simp only [appendEntry]
          split
          · rename_i h
            have := r.le; have := ref.le
            simp only [entriesSize, List.map_cons, List.map_nil, List.sum_cons, List.sum_nil,
              BlockRef.setRange, BlockRef.size]
            omega
          · simp [entriesSize]
      | cons r' es =>
          simp only [entriesSize, appendEntry, List.map_cons, List.sum_cons] at ih ⊢
          omega

theorem appendEntry_live {es : List BlockRef} {ref : BlockRef}
    (h : ∀ r ∈ es, r.beginOffset < r.endOffset) (href : ref.beginOffset < ref.endOffset) :
    ∀ r ∈ appendEntry es ref, r.beginOffset < r.endOffset := by
  induction es with
  | nil => simpa [appendEntry] using href
  | cons r es ih =>
      cases es with
      | nil =>
          simp only [appendEntry]
          split
          · rename_i hc
            have := h r (by simp)
            simp only [List.mem_singleton, forall_eq, BlockRef.setRange]
            omega
          · simpa [href] using h
      | cons r' es =>
          simp only [appendEntry, List.mem_cons, forall_eq_or_imp] at h ⊢
          exact ⟨h.1, ih (by simpa using h.2)⟩

theorem entriesSize_consumeEntries (es : List BlockRef) (n : Nat) :
    entriesSize (consumeEntries es n) = entriesSize es - n := by
  induction es generalizing n with
  | nil => simp [consumeEntries, entriesSize]
  | cons r es ih =>
      simp only [consumeEntries]
      split
      · omega
      · split
        · rename_i h
          simp only [entriesSize, List.map_cons, List.sum_cons, BlockRef.setRange, BlockRef.size] at h ⊢
          omega
        · rw [ih]
          simp only [entriesSize, List.map_cons, List.sum_cons]
          omega

theorem consumeEntries_live {es : List BlockRef} (h : ∀ r ∈ es, r.beginOffset < r.endOffset)
    (n : Nat) : ∀ r ∈ consumeEntries es n, r.beginOffset < r.endOffset := by
  induction es generalizing n with
  | nil => simp [consumeEntries]
  | cons r es ih =>
      simp only [consumeEntries]
      split
      · exact h
      · split
        · rename_i hn
          simp only [BlockRef.size] at hn
          simp only [List.mem_cons, forall_eq_or_imp, BlockRef.setRange] at h ⊢
          exact ⟨by omega, h.2⟩
        · exact ih (fun x hx => h x (by simp [hx])) _

/-! ## The chain -/

structure BlockChain where
  entries : List BlockRef
  size : Nat
  size_eq : size = entriesSize entries
  live : ∀ r ∈ entries, r.beginOffset < r.endOffset

namespace BlockChain

def nil : BlockChain := { entries := [], size := 0, size_eq := rfl, live := by simp }

def blockCount (c : BlockChain) : Nat := c.entries.length

def empty (c : BlockChain) : Bool := c.size == 0

def append (c : BlockChain) (ref : BlockRef) : BlockChain :=
  if h : ref.beginOffset = ref.endOffset then c
  else
    { entries := appendEntry c.entries ref
      size := c.size + ref.size
      size_eq := by rw [entriesSize_appendEntry, c.size_eq]
      live := appendEntry_live c.live (by have := ref.le; omega) }

def consumeFront (c : BlockChain) (n : Nat) : BlockChain :=
  { entries := consumeEntries c.entries (min n c.size)
    size := c.size - min n c.size
    size_eq := by rw [entriesSize_consumeEntries, c.size_eq]
    live := consumeEntries_live c.live _ }

/-- The loop of `BlockChain::first`: appends to `out` the windows of the first `len` bytes. -/
def firstLoop (out : BlockChain) : List BlockRef → Nat → BlockChain
  | [], _ => out
  | r :: es, len =>
      if len = 0 then out
      else
        let take := min r.size len
        firstLoop (out.append (r.setRange r.beginOffset (r.beginOffset + take))) es (len - take)

def first (c : BlockChain) (len : Nat) : BlockChain := firstLoop nil c.entries (min len c.size)

/-- The bytes of the chain, as `copy_to` writes them. -/
def bytes (mem : Memory) (c : BlockChain) : List Byte := c.entries.flatMap (BlockRef.bytes mem)

/-- `copy_to(out)`: what it leaves in `out`, and what it returns. -/
def copyTo (mem : Memory) (c : BlockChain) (out : List Byte) : List Byte × Nat :=
  Lib.copyAll (c.entries.map (BlockRef.bytes mem)) out 0

/-- Some window of the chain holds the byte at `off` of the block `blk`. -/
def Covers (c : BlockChain) (blk : Addr) (off : Nat) : Prop := ∃ r ∈ c.entries, r.Covers blk off

def handles (c : BlockChain) : List Addr := c.entries.map BlockRef.block

end BlockChain

end Taps
