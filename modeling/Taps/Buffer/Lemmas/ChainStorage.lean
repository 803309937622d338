import Taps.Buffer.ChainStorage

/-!
# What the storage of a chain holds

The entries of a chain lie in its storage one after the other, and the storage around them refers to no block
(`Layout`). The loops over entries find them there, and what makes room or makes the storage empty leaves them so.
-/

namespace Taps

theorem idle_append {l l' : List Handle} : Idle (l ++ l') ↔ Idle l ∧ Idle l' := by
  simp only [Idle, List.mem_append, or_imp, forall_and]

theorem idle_replicate (n : Nat) : Idle (List.replicate n .null) := by
  intro r hr
  rw [List.eq_of_mem_replicate hr]
  rfl

theorem idle_moved (l : List Handle) : Idle (l.map Handle.moved) := by
  intro r hr
  obtain ⟨r', -, rfl⟩ := List.mem_map.mp hr
  rfl

/-! ## Loops over entries -/

namespace DataBlocks

theorem reset_of_idle {r : Handle} (s : DataBlocks) (h : r.block = none) : s.reset r = s := by
  rw [reset, h]

theorem resetCells_eq (s : DataBlocks) (pre mid post : List Handle) :
    s.resetCells (pre ++ mid ++ post) pre.length mid.length =
      some (mid.foldl reset s, pre ++ List.replicate mid.length .null ++ post) := by
  induction mid generalizing s pre with
  | nil => simp [resetCells]
  | cons r mid ih =>
      have hget : (pre ++ r :: mid ++ post)[pre.length]? = some r := by simp
      have hset : (pre ++ r :: mid ++ post).set pre.length .null = (pre ++ [.null]) ++ mid ++ post := by simp
      have hnext := ih (s.reset r) (pre ++ [.null])
      rw [List.length_append, List.length_singleton] at hnext
      simp only [List.length_cons, resetCells, hget, hset, hnext]
      simp [List.replicate_succ]

theorem foldl_reset_of_idle {l : List Handle} (h : Idle l) (s : DataBlocks) : l.foldl reset s = s := by
  induction l with
  | nil => rfl
  | cons r l ih =>
      rw [List.foldl_cons, reset_of_idle s (h r List.mem_cons_self)]
      exact ih fun r hr => h r (List.mem_cons_of_mem _ hr)

theorem resetCells_idle (s : DataBlocks) {data : List Handle} (h : Idle data) :
    s.resetCells data 0 data.length = some (s, List.replicate data.length .null) := by
  have heq := resetCells_eq s [] data []
  rwa [List.nil_append, List.append_nil, List.length_nil, foldl_reset_of_idle h, List.nil_append,
    List.append_nil] at heq

/-- The entries move down over an idle gap, which moves up behind them. -/
theorem moveDown_eq (s : DataBlocks) (done : List Handle) {gap : List Handle} (hgap : Idle gap) (hne : gap ≠ [])
    (mid post : List Handle) :
    ∃ gap', Idle gap' ∧ gap'.length = gap.length ∧
      s.moveDown (done ++ gap ++ mid ++ post) (done.length + gap.length) done.length mid.length =
        some (s, done ++ mid ++ gap' ++ post) := by
  induction mid generalizing done gap with
  | nil => exact ⟨gap, hgap, rfl, by simp [moveDown]⟩
  | cons r mid ih =>
      obtain ⟨g, gap, rfl⟩ := List.exists_cons_of_ne_nil hne
      obtain ⟨hg, hgap⟩ := List.forall_mem_cons.mp hgap
      have hgap_next : Idle (gap ++ [r.moved]) := idle_append.mpr ⟨hgap, idle_moved [r]⟩
      obtain ⟨gap', hgap', hlen, heq⟩ := ih (done ++ [r]) hgap_next (by simp)
      refine ⟨gap', hgap', by simpa using hlen, ?_⟩
      have hi : (done ++ g :: gap ++ r :: mid ++ post)[done.length + (g :: gap).length]? = some r := by
        simp
      have hj : (done ++ g :: gap ++ r :: mid ++ post)[done.length]? = some g := by simp
      have hset : ((done ++ g :: gap ++ r :: mid ++ post).set done.length r).set
          (done.length + (g :: gap).length) r.moved = (done ++ [r]) ++ (gap ++ [r.moved]) ++ mid ++ post := by
        simp
      rw [List.length_append, List.length_append, List.length_singleton, List.length_singleton,
        show done.length + 1 + (gap.length + 1) = done.length + (g :: gap).length + 1 by
          rw [List.length_cons]; omega] at heq
      simp only [List.length_cons (a := r), moveDown, hi, hj, hset, reset_of_idle s hg, heq]
      simp

/-- The entries move into an idle gap of another storage. -/
theorem moveCells_eq (s : DataBlocks) (source source' target target' mid : List Handle) {gap : List Handle}
    (hgap : Idle gap) (hlen : gap.length = mid.length) :
    s.moveCells (source ++ mid ++ source') (target ++ gap ++ target') source.length target.length mid.length =
      some (s, source ++ mid.map Handle.moved ++ source', target ++ mid ++ target') := by
  induction mid generalizing source target gap with
  | nil =>
      rw [List.length_nil, List.length_eq_zero_iff] at hlen
      simp [moveCells, hlen]
  | cons r mid ih =>
      obtain ⟨g, gap, rfl⟩ := List.exists_cons_of_length_eq_add_one hlen
      obtain ⟨hg, hgap⟩ := List.forall_mem_cons.mp hgap
      have hi : (source ++ r :: mid ++ source')[source.length]? = some r := by simp
      have hj : (target ++ g :: gap ++ target')[target.length]? = some g := by simp
      have hsource : (source ++ r :: mid ++ source').set source.length r.moved =
          (source ++ [r.moved]) ++ mid ++ source' := by simp
      have htarget : (target ++ g :: gap ++ target').set target.length r = (target ++ [r]) ++ gap ++ target' := by
        simp
      have heq := ih (source ++ [r.moved]) (target ++ [r]) hgap (by simpa using hlen)
      rw [List.length_append, List.length_append, List.length_singleton, List.length_singleton] at heq
      simp only [List.length_cons (a := r), moveCells, hi, hj, hsource, htarget, reset_of_idle s hg, heq]
      simp

/-- The entries that are consumed make the front of the storage longer. -/
theorem consumeCells_eq (s : DataBlocks) {pre : List Handle} (hpre : Idle pre) (es : List BlockRef)
    (post : List Handle) {n k : Nat} (hn : n ≤ entriesSize es) (hk : es.length ≤ k) :
    ∃ s' pre', Idle pre' ∧ pre'.length + (consumeEntries es n).length = pre.length + es.length ∧
      s.consumeCells (pre ++ es.map .ofRef ++ post) pre.length es.length n k =
        some (s', pre' ++ (consumeEntries es n).map .ofRef ++ post, pre'.length, (consumeEntries es n).length) := by
  induction es generalizing s pre n k with
  | nil =>
      obtain rfl : n = 0 := by simpa [entriesSize] using hn
      refine ⟨s, pre, hpre, rfl, ?_⟩
      cases k <;> simp [consumeCells, consumeEntries]
  | cons r es ih =>
      obtain ⟨k, rfl⟩ : ∃ k', k = k' + 1 := ⟨k - 1, by rw [List.length_cons] at hk; omega⟩
      have hget : (pre ++ (r :: es).map .ofRef ++ post)[pre.length]? = some (.ofRef r) := by simp
      by_cases hzero : n = 0
      · exact ⟨s, pre, hpre, by simp [consumeEntries, hzero], by simp [consumeCells, consumeEntries, hzero]⟩
      · by_cases hlt : n < r.size
        · refine ⟨s, pre, hpre, by simp [consumeEntries, hzero, hlt], ?_⟩
          have hlt' : n < (Handle.ofRef r).size := hlt
          simp only [consumeCells, hget, if_neg hzero, dif_pos hlt', consumeEntries, dif_pos hlt]
          simp [Handle.ofRef, Handle.setRange, BlockRef.setRange]
        · have hlt' : ¬ n < (Handle.ofRef r).size := hlt
          have hn' : n - r.size ≤ entriesSize es := by
            simp only [entriesSize, List.map_cons, List.sum_cons] at hn ⊢
            omega
          have hpre_next : Idle (pre ++ [.null]) := idle_append.mpr ⟨hpre, idle_replicate 1⟩
          obtain ⟨s', pre', hpre', hlen, heq⟩ := ih (s.reset (.ofRef r)) hpre_next hn' (by simpa using hk)
          have hrest : consumeEntries (r :: es) n = consumeEntries es (n - r.size) := by
            rw [consumeEntries, if_neg hzero, dif_neg hlt]
          refine ⟨s', pre', hpre', ?_, ?_⟩
          · rw [hrest, hlen, List.length_append, List.length_singleton, List.length_cons]
            omega
          have hset : (pre ++ (r :: es).map Handle.ofRef ++ post).set pre.length .null =
              (pre ++ [.null]) ++ es.map Handle.ofRef ++ post := by simp
          have hcount : sizeSub (r :: es).length 1 = es.length := by simp [sizeSub]
          rw [List.length_append, List.length_singleton] at heq
          simp only [consumeCells, hget, if_neg hzero, dif_neg hlt', hset, hcount, hrest]
          exact heq

end DataBlocks

/-! ## The entries in the storage -/

namespace ChainStorage

variable {s : DataBlocks} {c : ChainStorage} {cells : List Handle} {es : List BlockRef} {throws : Nat → Bool}
  {r : BlockRef}

@[simp] theorem data_withData (c : ChainStorage) (data : List Handle) : (c.withData data).data = data := by
  unfold withData
  split <;> rename_i h <;> simp [ChainStorage.data, h]

@[simp] theorem count_withData (c : ChainStorage) (data : List Handle) : (c.withData data).count = c.count := by
  unfold withData
  split <;> rfl

@[simp] theorem head_withData (c : ChainStorage) (data : List Handle) : (c.withData data).head = c.head := by
  unfold withData
  split <;> rfl

@[simp] theorem size_withData (c : ChainStorage) (data : List Handle) : (c.withData data).size = c.size := by
  unfold withData
  split <;> rfl

theorem withData_eta (c : ChainStorage) (data : List Handle) :
    { c.withData data with head := c.head, count := c.count, size := c.size } = c.withData data := by
  unfold withData
  split <;> rfl

theorem withData_of_inline (h : c.external = none) (data : List Handle) :
    c.withData data = { c with inline := data } := by
  unfold withData
  rw [h]

theorem withData_of_external {old : List Handle} (h : c.external = some old) (data : List Handle) :
    c.withData data = { c with external := some data } := by
  unfold withData
  rw [h]

theorem data_of_inline (h : c.external = none) : c.data = c.inline := by simp [ChainStorage.data, h]

theorem Layout.of_inline (pre post : List Handle) (hext : c.external = none) (hinline : c.inline = pre ++ cells ++ post)
    (hlen : c.inline.length = kInline) (hhead : pre.length = c.head) (hcount : c.count = cells.length)
    (hpre : Idle pre) (hpost : Idle post) : c.Layout cells where
  around := ⟨pre, post, (data_of_inline hext).trans hinline, hhead, hpre, hpost⟩
  count_eq := hcount
  capacity_pos := by
    rw [capacity, data_of_inline hext, hlen]
    exact Nat.two_pos
  inline_length := hlen
  inline_idle hne := absurd hext hne

/-- The chain with these entries in storage of the same kind and the same number of objects. -/
theorem Layout.withData (h : c.Layout cells) (cells' : List Handle) {pre post : List Handle} (hpre : Idle pre)
    (hpost : Idle post) (hlen : (pre ++ cells' ++ post).length = c.capacity) (size : Nat) :
    Layout { c.withData (pre ++ cells' ++ post) with head := pre.length, count := cells'.length, size } cells' := by
  cases hext : c.external with
  | none =>
      rw [withData_of_inline hext]
      rw [capacity, data_of_inline hext, h.inline_length] at hlen
      exact .of_inline pre post hext rfl hlen rfl rfl hpre hpost
  | some old =>
      rw [withData_of_external hext]
      exact
        { around := ⟨pre, post, rfl, rfl, hpre, hpost⟩
          count_eq := rfl
          capacity_pos := Nat.lt_of_lt_of_eq h.capacity_pos hlen.symm
          inline_length := h.inline_length
          inline_idle := fun _ => h.inline_idle (by simp [hext]) }

theorem Layout.setSize (h : c.Layout cells) (size : Nat) : Layout { c with size } cells :=
  ⟨h.around, h.count_eq, h.capacity_pos, h.inline_length, h.inline_idle⟩

theorem create_layout : create.Layout [] :=
  .of_inline [] (List.replicate kInline .null) rfl rfl rfl rfl rfl (idle_replicate 0) (idle_replicate _)

/-- The indices of the entries are within the storage. -/
theorem Layout.bound (h : c.Layout cells) : c.head + c.count ≤ c.capacity := by
  obtain ⟨pre, post, hdata, hhead, -⟩ := h.around
  rw [capacity, hdata, ← hhead, h.count_eq]
  simp

theorem Layout.entries (h : c.Layout cells) : c.entries = some cells := by
  obtain ⟨pre, post, hdata, hhead, -⟩ := h.around
  rw [ChainStorage.entries, if_pos h.bound, hdata, ← hhead, h.count_eq]
  simp

theorem Layout.idle (h : c.Layout []) : Idle c.data := by
  obtain ⟨pre, post, hdata, -, hpre, hpost⟩ := h.around
  rw [hdata, List.append_nil]
  exact idle_append.mpr ⟨hpre, hpost⟩

theorem Layout.idle_inline (h : c.Layout []) : Idle c.inline := by
  cases hext : c.external with
  | none =>
      rw [← data_of_inline hext]
      exact h.idle
  | some data => exact h.inline_idle (by simp [hext])

/-- The last entry is the object before `end()`, and another one can take its place. -/
theorem Layout.last {last : Handle} (h : c.Layout (cells ++ [last])) :
    0 < c.count ∧ c.data[c.head + c.count - 1]? = some last ∧
      ∀ r, (c.withData (c.data.set (c.head + c.count - 1) r)).Layout (cells ++ [r]) := by
  obtain ⟨pre, post, hdata, hpre_length, hpre, hpost⟩ := h.around
  have hcount : c.count = cells.length + 1 := by
    rw [h.count_eq]
    simp
  have hindex : c.head + c.count - 1 = pre.length + cells.length := by omega
  refine ⟨by omega, by rw [hindex, hdata]; simp, ?_⟩
  intro r
  have hset : c.data.set (c.head + c.count - 1) r = pre ++ (cells ++ [r]) ++ post := by
    rw [hindex, hdata]
    simp
  have hlen : (pre ++ (cells ++ [r]) ++ post).length = c.capacity := by rw [← hset, List.length_set, capacity]
  have hlayout := h.withData (cells ++ [r]) hpre hpost hlen c.size
  rw [← hset, hpre_length, List.length_append, List.length_singleton, ← hcount] at hlayout
  rwa [withData_eta] at hlayout

/-! ## Making the storage empty -/

theorem clear_spec (s : DataBlocks) (h : c.Layout cells) :
    ∃ s' c', c.clear s = some (s', c') ∧ c'.Layout [] ∧ c'.head = 0 ∧ c'.size = 0 := by
  obtain ⟨pre, post, hdata, hhead, hpre, hpost⟩ := h.around
  have hreset := s.resetCells_eq pre cells post
  rw [← hdata, hhead, ← h.count_eq] at hreset
  have hidle : Idle (pre ++ List.replicate c.count .null ++ post) :=
    idle_append.mpr ⟨idle_append.mpr ⟨hpre, idle_replicate _⟩, hpost⟩
  have hlen : ([] ++ [] ++ (pre ++ List.replicate c.count Handle.null ++ post)).length = c.capacity := by
    rw [capacity, hdata, h.count_eq]
    simp
  refine ⟨_, _, by rw [clear, hreset]; rfl, ?_, rfl, rfl⟩
  exact h.withData [] (idle_replicate 0) hidle hlen 0

theorem releaseStorage_eq (s : DataBlocks) (h : Idle c.data) :
    c.releaseStorage s = some (s, { c with external := none }) := by
  cases hext : c.external with
  | none =>
      simp only [releaseStorage, hext]
      rw [← hext]
  | some data =>
      have hdata : c.data = data := by simp [ChainStorage.data, hext]
      rw [hdata] at h
      simp only [releaseStorage, hext, s.resetCells_idle h]
      rfl

/-- What `clear()` and then `release_storage()` leave. -/
theorem released_spec (s : DataBlocks) (h : c.Layout cells) :
    ∃ s' c₁ c₂, c.clear s = some (s', c₁) ∧ c₁.releaseStorage s' = some (s', c₂) ∧ c₂.Layout [] ∧
      c₂.external = none ∧ c₂.head = 0 := by
  obtain ⟨s', c₁, hclear, h₁, hhead, hsize⟩ := clear_spec s h
  refine ⟨s', c₁, { c₁ with external := none }, hclear, releaseStorage_eq s' h₁.idle, ?_, rfl, hhead⟩
  exact .of_inline [] c₁.inline rfl rfl h₁.inline_length hhead.symm h₁.count_eq (idle_replicate 0) h₁.idle_inline

theorem destroy_spec (s : DataBlocks) (h : c.Layout cells) : ∃ s', c.destroy s = some s' := by
  obtain ⟨s', c₁, c₂, hclear, hrelease, h₂, -, -⟩ := released_spec s h
  refine ⟨s', ?_⟩
  simp [destroy, hclear, hrelease, s'.resetCells_idle h₂.idle_inline]

/-! ## Making room -/

theorem grow_of_head (s : DataBlocks) (throws : Nat → Bool) (h : c.Layout cells) (hhead : 0 < c.head) :
    ∃ c', c.grow throws s = some (.ok (s, c')) ∧ c'.Layout cells ∧ c'.size = c.size ∧ c'.head = 0 ∧
      c'.capacity = c.capacity := by
  obtain ⟨pre, post, hdata, hpre_length, hpre, hpost⟩ := h.around
  have hne : pre ≠ [] := by
    intro he
    rw [he, List.length_nil] at hpre_length
    omega
  obtain ⟨gap, hgap, hgap_length, hmove⟩ := s.moveDown_eq [] hpre hne cells post
  rw [List.nil_append, List.length_nil, Nat.zero_add, ← hdata, hpre_length, ← h.count_eq, List.nil_append,
    List.append_assoc] at hmove
  have hlen : (cells ++ (gap ++ post)).length = c.capacity := by
    rw [capacity, hdata]
    simp only [List.length_append]
    omega
  refine ⟨_, by rw [grow, if_pos hhead, hmove]; rfl, ?_, ?_, rfl, ?_⟩
  · have hlayout := h.withData cells (idle_replicate 0) (idle_append.mpr ⟨hgap, hpost⟩) hlen c.size
    rw [← h.count_eq] at hlayout
    simpa using hlayout
  · exact size_withData ..
  · rw [← hlen]
    exact congrArg List.length (data_withData c (cells ++ (gap ++ post)))

/-- Full storage holds the entries and nothing else. -/
theorem Layout.data_of_full (h : c.Layout cells) (hhead : c.head = 0) (hfull : c.count = c.capacity) :
    c.data = cells := by
  obtain ⟨pre, post, hdata, hpre_length, -, -⟩ := h.around
  have hlen := hfull.symm
  rw [capacity, hdata, h.count_eq] at hlen
  rw [hhead, List.length_eq_zero_iff] at hpre_length
  have hpost : post = [] := by simpa [hpre_length] using hlen
  rw [hdata, hpre_length, hpost, List.nil_append, List.append_nil]

theorem first_valid_of_full (h : c.Layout (es.map .ofRef)) (hhead : c.head = 0) (hfull : c.count = c.capacity) :
    ∃ a, (c.data[0]?).bind Handle.block = some a := by
  have hpos := h.capacity_pos
  have hdata := h.data_of_full hhead hfull
  rw [capacity, hdata] at hpos
  cases es with
  | nil => simp at hpos
  | cons r es => exact ⟨r.block, by simp [hdata]⟩

theorem grow_of_throws (s : DataBlocks) (h : c.Layout (es.map .ofRef)) (ht : c.GrowthThrows throws) :
    c.grow throws s = some (.error (s, c)) := by
  obtain ⟨hhead, hfull, hthrows⟩ := ht
  obtain ⟨a, ha⟩ := first_valid_of_full h hhead hfull
  simp [grow, hhead, ha, hthrows]

theorem grow_of_full (s : DataBlocks) (h : c.Layout (es.map .ofRef)) (hhead : c.head = 0)
    (hfull : c.count = c.capacity) (ht : throws (c.capacity * 2) = false) :
    ∃ c', c.grow throws s = some (.ok (s, c')) ∧ c'.Layout (es.map .ofRef) ∧ c'.size = c.size ∧ c'.head = 0 ∧
      c'.capacity = c.capacity * 2 := by
  obtain ⟨a, ha⟩ := first_valid_of_full h hhead hfull
  have hdata := h.data_of_full hhead hfull
  have hcount : (es.map Handle.ofRef).length = c.count := h.count_eq.symm
  have hmove := s.moveCells_eq [] [] [] (List.replicate c.capacity .null) (es.map .ofRef)
    (idle_replicate c.count) (by rw [List.length_replicate, hcount])
  have hfresh : [] ++ List.replicate c.count Handle.null ++ List.replicate c.capacity .null =
      List.replicate (c.capacity * 2) .null := by
    rw [List.nil_append, List.replicate_append_replicate, hfull, Nat.mul_two]
  rw [hfresh, hcount, List.length_nil, List.nil_append, List.nil_append, List.append_nil, List.append_nil,
    ← hdata] at hmove
  have hreset := s.resetCells_idle (idle_moved c.data)
  rw [List.length_map, ← capacity, ← hfull] at hreset
  have hidle : Idle (c.withData (List.replicate c.count .null)).data := by
    rw [data_withData]
    exact idle_replicate _
  have hinline : (c.withData (List.replicate c.count .null)).inline.length = kInline ∧
      Idle (c.withData (List.replicate c.count .null)).inline := by
    cases hext : c.external with
    | none =>
        rw [withData_of_inline hext, ← h.inline_length, ← data_of_inline hext, hfull]
        exact ⟨List.length_replicate, idle_replicate _⟩
    | some old =>
        rw [withData_of_external hext]
        exact ⟨h.inline_length, h.inline_idle (by simp [hext])⟩
  refine ⟨{ c.withData (List.replicate c.count .null) with
    external := some (c.data ++ List.replicate c.capacity .null) }, ?_, ?_, size_withData .., ?_, ?_⟩
  · rw [grow, if_neg (by omega), ha]
    simp only [ht, hmove, hreset, Option.bind_eq_bind, Option.bind_some, releaseStorage_eq s hidle]
    rfl
  · exact
      { around := ⟨[], List.replicate c.capacity .null, by rw [← hdata]; rfl,
          ((head_withData ..).trans hhead).symm, nofun, idle_replicate _⟩
        count_eq := (count_withData ..).trans h.count_eq
        capacity_pos := by
          have hpos := h.capacity_pos
          rw [capacity] at hpos ⊢
          exact Nat.lt_of_lt_of_le hpos (by simp [ChainStorage.data])
        inline_length := hinline.1
        inline_idle := fun _ => hinline.2 }
  · exact (head_withData ..).trans hhead
  · simp [capacity, ChainStorage.data, Nat.mul_two]

theorem room_of_throws (s : DataBlocks) (h : c.Layout (es.map .ofRef)) (ht : c.GrowthThrows throws) :
    c.room throws s = some (.error (s, c)) := by
  rw [room, if_pos (by have := ht.1; have := ht.2.1; omega)]
  exact grow_of_throws s h ht

theorem room_spec (s : DataBlocks) (h : c.Layout (es.map .ofRef)) (ht : ¬ c.GrowthThrows throws) :
    ∃ c', c.room throws s = some (.ok (s, c')) ∧ c'.Layout (es.map .ofRef) ∧ c'.size = c.size ∧
      c'.head + c'.count < c'.capacity := by
  have hpos := h.capacity_pos
  have hbound := h.bound
  by_cases hfull : c.head + c.count = c.capacity
  · rw [room, if_pos hfull]
    by_cases hhead : c.head = 0
    · have hthrows : throws (c.capacity * 2) = false := by
        rw [← Bool.not_eq_true]
        exact fun hthrows => ht ⟨hhead, by omega, hthrows⟩
      obtain ⟨c', hgrow, h', hsize, hhead', hcapacity⟩ := grow_of_full s h hhead (by omega) hthrows
      have hcount := h'.count_eq.trans h.count_eq.symm
      exact ⟨c', hgrow, h', hsize, by omega⟩
    · obtain ⟨c', hgrow, h', hsize, hhead', hcapacity⟩ := grow_of_head s throws h (by omega)
      have hcount := h'.count_eq.trans h.count_eq.symm
      exact ⟨c', hgrow, h', hsize, by omega⟩
  · exact ⟨c, by rw [room, if_neg hfull], h, rfl, by omega⟩

theorem pushBack_of_throws (s : DataBlocks) (h : c.Layout (es.map .ofRef)) (ht : c.GrowthThrows throws) (ref : Handle) :
    c.pushBack throws s ref = some (.error (s.reset ref, c)) := by
  simp only [pushBack, room_of_throws s h ht]

/-- The object behind the last entry is part of the storage. -/
theorem Layout.getElem?_end (h : c.Layout cells) (hroom : c.head + c.count < c.capacity) :
    ∃ pre old post, c.data = pre ++ cells ++ old :: post ∧ pre.length = c.head ∧ Idle pre ∧ Idle post ∧
      c.data[c.head + c.count]? = some old := by
  obtain ⟨pre, post, hdata, hpre_length, hpre, hpost⟩ := h.around
  rw [capacity, hdata, ← hpre_length, h.count_eq] at hroom
  cases post with
  | nil => simp at hroom
  | cons old post =>
      refine ⟨pre, old, post, hdata, hpre_length, hpre, fun r hr => hpost r (List.mem_cons_of_mem _ hr), ?_⟩
      rw [hdata, ← hpre_length, h.count_eq]
      simp

theorem pushBack_spec (s : DataBlocks) (h : c.Layout (es.map .ofRef)) (ht : ¬ c.GrowthThrows throws) :
    ∃ s' c', c.pushBack throws s (.ofRef r) = some (.ok (s', c')) ∧ c'.Layout ((es ++ [r]).map .ofRef) ∧
      c'.size = c.size := by
  obtain ⟨c₁, hroom, h₁, hsize, hlt⟩ := room_spec s h ht
  obtain ⟨pre, old, post, hdata, hpre_length, hpre, hpost, hget⟩ := h₁.getElem?_end hlt
  have hset : c₁.data.set (c₁.head + c₁.count) (.ofRef r) = pre ++ (es ++ [r]).map Handle.ofRef ++ post := by
    rw [hdata, ← hpre_length, h₁.count_eq, List.map_append]
    simp
  have hlen : (pre ++ (es ++ [r]).map Handle.ofRef ++ post).length = c₁.capacity := by
    rw [← hset, List.length_set, capacity]
  have hlayout := h₁.withData ((es ++ [r]).map Handle.ofRef) hpre hpost hlen c₁.size
  have hcount : ((es ++ [r]).map Handle.ofRef).length = c₁.count + 1 := by
    rw [h₁.count_eq]
    simp
  rw [← hset, hpre_length, hcount] at hlayout
  refine ⟨s.reset old, { c₁.withData (c₁.data.set (c₁.head + c₁.count) (.ofRef r)) with count := c₁.count + 1 },
    by simp only [pushBack, hroom, hget], ?_, (size_withData ..).trans hsize⟩
  simpa only [head_withData, size_withData] using hlayout

end ChainStorage

end Taps
