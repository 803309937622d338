import Taps.Buffer.BlockChain

/-!
# The bytes of a chain, and which bytes it covers

Each operation is described twice: by the list of bytes it yields and by the bytes of the blocks that
its windows cover. The first says what the chain is for, the second is what the memory has to leave
alone for the first to stay true.
-/

namespace Taps

/-- Some window among `es` holds the byte at `off` of the block `blk`. -/
def EntriesCover (es : List BlockRef) (blk : Addr) (off : Nat) : Prop :=
  ∃ r ∈ es, r.Covers blk off

def entriesBytes (mem : Memory) (es : List BlockRef) : List Byte := es.flatMap (BlockRef.bytes mem)

@[simp] theorem entriesBytes_nil (mem : Memory) : entriesBytes mem [] = [] := rfl

@[simp] theorem entriesBytes_cons (mem : Memory) (r : BlockRef) (es : List BlockRef) :
    entriesBytes mem (r :: es) = r.bytes mem ++ entriesBytes mem es := rfl

theorem entriesBytes_append (mem : Memory) (es es' : List BlockRef) :
    entriesBytes mem (es ++ es') = entriesBytes mem es ++ entriesBytes mem es' := List.flatMap_append

theorem entriesSize_nil : entriesSize [] = 0 := rfl

theorem entriesSize_cons (r : BlockRef) (es : List BlockRef) :
    entriesSize (r :: es) = r.size + entriesSize es := by
  simp [entriesSize]

@[simp] theorem not_entriesCover_nil {blk : Addr} {off : Nat} : ¬ EntriesCover [] blk off := by
  simp [EntriesCover]

@[simp] theorem entriesCover_cons {r : BlockRef} {es : List BlockRef} {blk : Addr} {off : Nat} :
    EntriesCover (r :: es) blk off ↔ r.Covers blk off ∨ EntriesCover es blk off := by
  simp [EntriesCover]

/-! ## Windows -/

namespace BlockRef

variable {mem mem' : Memory} {r : BlockRef} {blk : Addr} {off : Nat}

@[simp] theorem length_bytes (mem : Memory) (r : BlockRef) : (r.bytes mem).length = r.size :=
  Lib.Memory.length_read ..

theorem bytes_congr (h : ∀ blk off, r.Covers blk off → mem' blk off = mem blk off) :
    r.bytes mem' = r.bytes mem :=
  Lib.Memory.read_congr fun i h₁ h₂ =>
    h _ _ ⟨rfl, h₁, by have := r.le; unfold size at h₂; omega⟩

theorem bytes_append_bytes {ref : BlockRef} (hb : r.block = ref.block)
    (ho : r.endOffset = ref.beginOffset) (h : r.beginOffset ≤ ref.endOffset) :
    (r.setRange r.beginOffset ref.endOffset h).bytes mem = r.bytes mem ++ ref.bytes mem := by
  have := r.le
  have := ref.le
  simp only [bytes, size, setRange, ← hb, ← ho]
  rw [show r.endOffset = r.beginOffset + (r.endOffset - r.beginOffset) by omega,
    show r.beginOffset + (r.endOffset - r.beginOffset) - r.beginOffset
      = r.endOffset - r.beginOffset by omega, Lib.Memory.read_append]
  congr 1
  omega

theorem covers_merge {ref : BlockRef} (hb : r.block = ref.block)
    (ho : r.endOffset = ref.beginOffset) (h : r.beginOffset ≤ ref.endOffset) :
    (r.setRange r.beginOffset ref.endOffset h).Covers blk off ↔
      r.Covers blk off ∨ ref.Covers blk off := by
  have := r.le
  have := ref.le
  simp only [Covers, setRange, ← hb, ← ho, ← and_or_left]
  refine and_congr_right fun _ => ?_
  omega

theorem bytes_dropWindow {n : Nat} (h : r.beginOffset + n ≤ r.endOffset) :
    (r.setRange (r.beginOffset + n) r.endOffset h).bytes mem = (r.bytes mem).drop n := by
  simp only [bytes, size, setRange, Lib.Memory.drop_read]
  congr 1
  omega

theorem bytes_takeWindow {n : Nat} (h : n ≤ r.size) :
    (r.setRange r.beginOffset (r.beginOffset + n)).bytes mem = (r.bytes mem).take n := by
  simp only [bytes, size, setRange, Lib.Memory.take_read] at h ⊢
  congr 1
  omega

end BlockRef

/-! ## Appending -/

theorem entriesBytes_appendEntry (mem : Memory) (es : List BlockRef) (ref : BlockRef) :
    entriesBytes mem (appendEntry es ref) = entriesBytes mem es ++ ref.bytes mem := by
  induction es with
  | nil => simp [appendEntry]
  | cons r es ih =>
      cases es with
      | nil =>
          simp only [appendEntry]
          split
          · rename_i h
            simp [BlockRef.bytes_append_bytes h.1 h.2]
          · simp
      | cons r' es => simp only [appendEntry, entriesBytes_cons, ih, List.append_assoc]

theorem entriesCover_appendEntry {es : List BlockRef} {ref : BlockRef} {blk : Addr} {off : Nat} :
    EntriesCover (appendEntry es ref) blk off ↔ EntriesCover es blk off ∨ ref.Covers blk off := by
  induction es with
  | nil => simp [appendEntry]
  | cons r es ih =>
      cases es with
      | nil =>
          simp only [appendEntry]
          split
          · rename_i h
            simp [BlockRef.covers_merge h.1 h.2]
          · simp
      | cons r' es => simp only [appendEntry, entriesCover_cons, ih, or_assoc]

/-! ## Consuming -/

theorem entriesBytes_consumeEntries (mem : Memory) (es : List BlockRef) (n : Nat) :
    entriesBytes mem (consumeEntries es n) = (entriesBytes mem es).drop n := by
  induction es generalizing n with
  | nil => simp [consumeEntries]
  | cons r es ih =>
      simp only [consumeEntries]
      split
      · simp_all
      · split
        · rename_i h
          rw [entriesBytes_cons, entriesBytes_cons, BlockRef.bytes_dropWindow,
            List.drop_append_of_le_length]
          simp only [BlockRef.length_bytes]
          omega
        · rename_i h
          rw [ih, entriesBytes_cons, List.drop_append, List.drop_of_length_le (l := r.bytes mem)]
          · simp
          · simp only [BlockRef.length_bytes]
            omega

theorem entriesCover_of_consumeEntries {es : List BlockRef} {n : Nat} {blk : Addr} {off : Nat}
    (h : EntriesCover (consumeEntries es n) blk off) : EntriesCover es blk off := by
  induction es generalizing n with
  | nil => simp [consumeEntries] at h
  | cons r es ih =>
      simp only [consumeEntries] at h
      split at h
      · exact h
      · split at h
        · rw [entriesCover_cons] at h ⊢
          rcases h with ⟨hb, h₁, h₂⟩ | h
          · simp only [BlockRef.setRange] at h₁
            exact .inl ⟨hb, by omega, h₂⟩
          · exact .inr h
        · exact entriesCover_cons.mpr (Or.inr (ih h))

/-! ## The operations of the chain -/

namespace BlockChain

variable {mem mem' : Memory} {c : BlockChain} {ref : BlockRef} {blk : Addr} {off n : Nat}

theorem length_entriesBytes (mem : Memory) (es : List BlockRef) :
    (entriesBytes mem es).length = entriesSize es := by
  induction es with
  | nil => rfl
  | cons r es ih => simp [entriesSize, ih]

@[simp] theorem length_bytes (mem : Memory) (c : BlockChain) : (c.bytes mem).length = c.size := by
  rw [c.size_eq]
  exact length_entriesBytes mem c.entries

theorem bytes_eq_nil (h : c.size = 0) : c.bytes mem = [] :=
  List.eq_nil_of_length_eq_zero (by rw [length_bytes, h])

/-- A buffer of the size of the chain is filled as a whole, whatever was in it. -/
theorem copyTo_eq (c : BlockChain) {out : List Byte} (h : out.length = c.size) :
    c.copyTo mem out = (c.bytes mem, c.size) := by
  have hflatten : (c.entries.map (BlockRef.bytes mem)).flatten = c.bytes mem := by
    rw [bytes, List.flatMap_def]
  have hlen := c.length_bytes mem
  rw [copyTo, Lib.copyAll_eq _ _ _ (by rw [hflatten]; omega), hflatten, Lib.overwrite_full (by omega),
    Nat.zero_add, hlen]

/-- Memory that agrees on the bytes a chain covers gives it the same bytes. -/
theorem bytes_congr (h : ∀ blk off, c.Covers blk off → mem' blk off = mem blk off) :
    c.bytes mem' = c.bytes mem := by
  simp only [bytes, List.flatMap_def]
  congr 1
  refine List.map_congr_left fun r hr => ?_
  exact BlockRef.bytes_congr fun b o hc => h b o ⟨r, hr, hc⟩

@[simp] theorem bytes_nil (mem : Memory) : nil.bytes mem = [] := rfl

@[simp] theorem not_covers_nil : ¬ nil.Covers blk off := by simp [Covers, nil]

@[simp] theorem bytes_append (mem : Memory) (c : BlockChain) (ref : BlockRef) :
    (c.append ref).bytes mem = c.bytes mem ++ ref.bytes mem := by
  unfold append
  split
  · rename_i h
    simp [BlockRef.bytes, BlockRef.size, h]
  · exact entriesBytes_appendEntry mem c.entries ref

theorem covers_append : (c.append ref).Covers blk off ↔ c.Covers blk off ∨ ref.Covers blk off := by
  unfold append
  split
  · rename_i h
    simp only [iff_self_or, BlockRef.Covers]
    omega
  · exact entriesCover_appendEntry

@[simp] theorem bytes_consumeFront (mem : Memory) (c : BlockChain) (n : Nat) :
    (c.consumeFront n).bytes mem = (c.bytes mem).drop n := by
  have h : (c.consumeFront n).bytes mem = (c.bytes mem).drop (min n c.size) :=
    entriesBytes_consumeEntries mem c.entries _
  rw [h]
  rcases Nat.le_total n c.size with hn | hn
  · rw [Nat.min_eq_left hn]
  · rw [Nat.min_eq_right hn, List.drop_of_length_le (by simp),
      List.drop_of_length_le (by simpa using hn)]

theorem covers_of_consumeFront (h : (c.consumeFront n).Covers blk off) : c.Covers blk off :=
  entriesCover_of_consumeEntries h

theorem bytes_firstLoop (mem : Memory) (out : BlockChain) (es : List BlockRef) (len : Nat) :
    (firstLoop out es len).bytes mem = out.bytes mem ++ (entriesBytes mem es).take len := by
  induction es generalizing out len with
  | nil => simp [firstLoop]
  | cons r es ih =>
      simp only [firstLoop]
      split
      · simp_all
      · rw [ih, bytes_append, BlockRef.bytes_takeWindow (Nat.min_le_left ..), entriesBytes_cons,
          List.take_append, List.append_assoc, BlockRef.length_bytes]
        congr 2
        · rcases Nat.le_total len r.size with h | h
          · rw [Nat.min_eq_right h]
          · rw [Nat.min_eq_left h, List.take_of_length_le (by simp),
              List.take_of_length_le (by simpa using h)]
        · congr 1
          omega

@[simp] theorem bytes_first (mem : Memory) (c : BlockChain) (n : Nat) :
    (c.first n).bytes mem = (c.bytes mem).take n := by
  have h : (c.first n).bytes mem = (c.bytes mem).take (min n c.size) :=
    (bytes_firstLoop mem nil c.entries _).trans (List.nil_append _)
  rw [h]
  rcases Nat.le_total n c.size with hn | hn
  · rw [Nat.min_eq_left hn]
  · rw [Nat.min_eq_right hn, List.take_of_length_le (by simp),
      List.take_of_length_le (by simpa using hn)]

theorem covers_of_firstLoop {out : BlockChain} {es : List BlockRef} {len : Nat}
    (h : (firstLoop out es len).Covers blk off) : out.Covers blk off ∨ EntriesCover es blk off := by
  induction es generalizing out len with
  | nil => exact Or.inl h
  | cons r es ih =>
      simp only [firstLoop] at h
      split at h
      · exact Or.inl h
      · rw [entriesCover_cons]
        rcases ih h with h | h
        · rcases covers_append.mp h with h | h
          · exact Or.inl h
          · obtain ⟨hb, h₁, h₂⟩ := h
            simp only [BlockRef.setRange, BlockRef.size] at hb h₁ h₂
            exact Or.inr (Or.inl ⟨hb, h₁, by omega⟩)
        · exact Or.inr (Or.inr h)

theorem covers_of_first (h : (c.first n).Covers blk off) : c.Covers blk off :=
  (covers_of_firstLoop h).resolve_left not_covers_nil

/-- A block a chain has a handle to is one it covers a byte of: its windows are not empty. -/
theorem mem_handles_iff : blk ∈ c.handles ↔ ∃ off, c.Covers blk off := by
  simp only [handles, List.mem_map, Covers, BlockRef.Covers]
  constructor
  · rintro ⟨r, hr, rfl⟩
    exact ⟨r.beginOffset, r, hr, rfl, Nat.le_refl _, c.live r hr⟩
  · rintro ⟨off, r, hr, hb, _⟩
    exact ⟨r, hr, hb⟩

end BlockChain

end Taps
