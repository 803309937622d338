import Mathlib.Data.List.Chain
import Taps.Buffer.Lemmas.ChainStorage
import Taps.Buffer.Lemmas.BlockChain

/-!
# The storage of a chain refines its entries

An operation does to the entries in the storage what the operation of the same name of `BlockChain` does to its
entries (`Refines`). It fails only where larger storage cannot be had.
-/

namespace Taps

/-! ## Where a window continues the last one -/

theorem continues_concat {es : List BlockRef} {last r : BlockRef} :
    Continues (es ++ [last]) r ↔ last.block = r.block ∧ last.endOffset = r.beginOffset := by
  simp [Continues]

theorem appendEntry_concat (es : List BlockRef) (last r : BlockRef) :
    appendEntry (es ++ [last]) r = es ++ appendEntry [last] r := by
  induction es with
  | nil => rfl
  | cons e es ih =>
      rw [List.cons_append, List.cons_append, ← ih]
      cases es <;> rfl

theorem appendEntry_of_not_continues {es : List BlockRef} {r : BlockRef} (h : ¬ Continues es r) :
    appendEntry es r = es ++ [r] := by
  rcases List.eq_nil_or_concat es with rfl | ⟨es, last, rfl⟩
  · rfl
  · rw [List.concat_eq_append, continues_concat] at h
    rw [List.concat_eq_append, appendEntry_concat, appendEntry, dif_neg h, List.append_assoc]
    rfl

/-- No window continues the one before it. -/
def Apart (es : List BlockRef) : Prop := es.IsChain fun r r' => ¬ (r.block = r'.block ∧ r.endOffset = r'.beginOffset)

theorem apart_concat {es : List BlockRef} {r : BlockRef} : Apart (es ++ [r]) ↔ Apart es ∧ ¬ Continues es r := by
  simp [Apart, Continues, List.isChain_append]

theorem Apart.appendEntry {es : List BlockRef} (h : Apart es) (r : BlockRef) : Apart (appendEntry es r) := by
  by_cases hc : Continues es r
  · rcases List.eq_nil_or_concat es with rfl | ⟨es, last, rfl⟩
    · simp [Continues] at hc
    · rw [List.concat_eq_append] at h hc ⊢
      rw [apart_concat] at h
      rw [appendEntry_concat, Taps.appendEntry, dif_pos (continues_concat.mp hc), apart_concat]
      exact h
  · rw [appendEntry_of_not_continues hc, apart_concat]
    exact ⟨h, hc⟩

theorem Apart.consumeEntries {es : List BlockRef} (h : Apart es) (n : Nat) : Apart (consumeEntries es n) := by
  induction es generalizing n with
  | nil => exact .nil
  | cons r es ih =>
      rw [Taps.consumeEntries]
      split
      · exact h
      · split
        · rw [Apart, List.isChain_cons] at h ⊢
          exact h
        · exact ih h.tail _

namespace BlockChain

theorem append_apart {c : BlockChain} (h : Apart c.entries) (r : BlockRef) : Apart (c.append r).entries := by
  unfold append
  split
  · exact h
  · exact h.appendEntry r

theorem firstLoop_apart {out : BlockChain} (h : Apart out.entries) (es : List BlockRef) (len : Nat) :
    Apart (out.firstLoop es len).entries := by
  induction es generalizing out len with
  | nil => exact h
  | cons r es ih =>
      rw [firstLoop]
      split
      · exact h
      · exact ih (append_apart h _) _

theorem first_apart (c : BlockChain) (len : Nat) : Apart (c.first len).entries := by
  have hnil : Apart nil.entries := .nil
  exact firstLoop_apart hnil c.entries _

end BlockChain

namespace ChainStorage

variable {s : DataBlocks} {c : ChainStorage} {bc : BlockChain} {es : List BlockRef} {throws : Nat → Bool}
  {r : BlockRef}

theorem create_refines : create.Refines .nil := ⟨create_layout, rfl⟩

/-! ## Appending -/

theorem append_of_invalid (s : DataBlocks) (c : ChainStorage) {ref : Handle} (h : ref.block = none ∨ ref.empty) :
    c.append throws s ref = some (.ok (s.reset ref, c)) := by
  rw [append, if_pos h]

/-- A window that continues the last entry changes only that one. -/
theorem append_of_continues (s : DataBlocks) (throws : Nat → Bool) (h : c.Layout (es.map .ofRef))
    (hne : r.beginOffset ≠ r.endOffset) (hc : Continues es r) :
    ∃ c', c.append throws s (.ofRef r) = some (.ok (s.reset (.ofRef r), c')) ∧
      c'.Layout ((appendEntry es r).map .ofRef) ∧ c'.size = c.size + r.size := by
  rcases List.eq_nil_or_concat es with rfl | ⟨es, last, rfl⟩
  · simp [Continues] at hc
  · rw [List.concat_eq_append] at h hc ⊢
    rw [continues_concat] at hc
    rw [List.map_append, List.map_singleton] at h
    obtain ⟨hcount, hget, hset⟩ := (h.setSize (c.size + r.size)).last
    have hmerged : appendEntry (es ++ [last]) r =
        es ++ [last.setRange last.beginOffset r.endOffset (by have := last.le; have := r.le; omega)] := by
      rw [appendEntry_concat, appendEntry, dif_pos hc]
    have hblock : (Handle.ofRef last).block = (Handle.ofRef r).block ∧
        (Handle.ofRef last).endOffset = (Handle.ofRef r).beginOffset := ⟨congrArg some hc.1, hc.2⟩
    have hvalid : ¬ ((Handle.ofRef r).block = none ∨ (Handle.ofRef r).empty = true) := by
      simpa [Handle.empty, Handle.ofRef] using hne
    dsimp only at hcount hget hset
    refine ⟨_, by
      rw [append, if_neg hvalid, if_pos hcount, Handle.size_ofRef]
      simp only [hget, dif_pos hblock]
      rfl, ?_, size_withData ..⟩
    rw [hmerged, List.map_append, List.map_singleton]
    exact hset _

/-- Any other one becomes an entry of its own. -/
theorem append_of_not_continues (s : DataBlocks) (throws : Nat → Bool) (h : c.Layout (es.map .ofRef))
    (hne : r.beginOffset ≠ r.endOffset) (hc : ¬ Continues es r) :
    c.append throws s (.ofRef r) = pushBack throws s { c with size := c.size + r.size } (.ofRef r) := by
  have hvalid : ¬ ((Handle.ofRef r).block = none ∨ (Handle.ofRef r).empty = true) := by
    simpa [Handle.empty, Handle.ofRef] using hne
  rw [append, if_neg hvalid]
  rcases List.eq_nil_or_concat es with rfl | ⟨es, last, rfl⟩
  · exact if_neg (by simp [h.count_eq])
  · rw [List.concat_eq_append] at h hc
    rw [continues_concat] at hc
    rw [List.map_append, List.map_singleton] at h
    obtain ⟨hcount, hget, -⟩ := (h.setSize (c.size + r.size)).last
    have hblock : ¬ ((Handle.ofRef last).block = (Handle.ofRef r).block ∧
        (Handle.ofRef last).endOffset = (Handle.ofRef r).beginOffset) := by
      rintro ⟨hb, he⟩
      exact hc ⟨Option.some.inj hb, he⟩
    dsimp only at hcount hget
    rw [if_pos hcount, Handle.size_ofRef]
    simp only [hget, dif_neg hblock]

theorem append_of_throws (s : DataBlocks) (h : c.Layout (es.map .ofRef)) (ht : c.AppendThrows throws es r) :
    c.append throws s (.ofRef r) = some (.error (s.reset (.ofRef r), { c with size := c.size + r.size })) := by
  obtain ⟨hne, hc, hthrows⟩ := ht
  rw [append_of_not_continues s throws h hne hc]
  exact pushBack_of_throws s (h.setSize (c.size + r.size)) hthrows _

theorem append_spec (s : DataBlocks) (h : c.Refines bc) (ht : ¬ c.AppendThrows throws bc.entries r) :
    ∃ s' c', c.append throws s (.ofRef r) = some (.ok (s', c')) ∧ c'.Refines (bc.append r) := by
  by_cases hne : r.beginOffset = r.endOffset
  · refine ⟨_, c, append_of_invalid s c (.inr (by simpa [Handle.empty, Handle.ofRef] using hne)), ?_⟩
    rwa [BlockChain.append, dif_pos hne]
  · rw [BlockChain.append, dif_neg hne]
    by_cases hc : Continues bc.entries r
    · obtain ⟨c', happend, h', hsize⟩ := append_of_continues s throws h.layout hne hc
      exact ⟨_, c', happend, h', by rw [hsize, h.size_eq]⟩
    · have hgrowth : ¬ GrowthThrows { c with size := c.size + r.size } throws := fun hg => ht ⟨hne, hc, hg⟩
      obtain ⟨s', c', hpush, h', hsize⟩ := pushBack_spec (r := r) s (h.layout.setSize (c.size + r.size)) hgrowth
      refine ⟨s', c', (append_of_not_continues s throws h.layout hne hc).trans hpush, ?_, ?_⟩
      · rwa [← appendEntry_of_not_continues hc] at h'
      · rw [hsize, h.size_eq]

/-! ## Consuming -/

theorem consumeFront_spec (s : DataBlocks) (h : c.Refines bc) (n : Nat) :
    ∃ s' c', c.consumeFront s n = some (s', c') ∧ c'.Refines (bc.consumeFront n) := by
  obtain ⟨pre, post, hdata, hpre_length, hpre, hpost⟩ := h.layout.around
  have hn : min n c.size ≤ entriesSize bc.entries := by
    rw [h.size_eq, bc.size_eq]
    exact Nat.min_le_right ..
  have hk : bc.entries.length ≤ c.capacity - c.head := by
    have hbound := h.layout.bound
    rw [h.layout.count_eq, List.length_map] at hbound
    omega
  obtain ⟨s', pre', hpre', hlen, hcells⟩ := s.consumeCells_eq hpre bc.entries post hn hk
  rw [hpre_length, ← hdata, ← List.length_map Handle.ofRef, ← h.layout.count_eq] at hcells
  have hsize : c.size - min n c.size = (bc.consumeFront n).size := by
    rw [h.size_eq]
    rfl
  have hentries : consumeEntries bc.entries (min n c.size) = (bc.consumeFront n).entries := by
    rw [h.size_eq]
    rfl
  rw [hentries] at hlen hcells
  refine ⟨s', _, by rw [consumeFront, hcells]; rfl, ?_, hsize⟩
  by_cases hempty : (bc.consumeFront n).entries.length = 0
  · have hcapacity : ([] ++ [] ++ (pre' ++ [] ++ post)).length = c.capacity := by
      rw [capacity, hdata]
      simp only [List.length_append, List.length_nil, List.length_map]
      omega
    have hpost' : Idle (pre' ++ [] ++ post) := by
      rw [List.append_nil]
      exact idle_append.mpr ⟨hpre', hpost⟩
    have hlayout := h.layout.withData [] (idle_replicate 0) hpost' hcapacity (c.size - min n c.size)
    rw [List.length_eq_zero_iff] at hempty
    rw [hempty]
    exact hlayout
  · have hcapacity : (pre' ++ (bc.consumeFront n).entries.map Handle.ofRef ++ post).length = c.capacity := by
      rw [capacity, hdata]
      simp only [List.length_append, List.length_map]
      omega
    have hlayout := h.layout.withData _ hpre' hpost hcapacity (c.size - min n c.size)
    rw [List.length_map] at hlayout
    rw [if_neg hempty]
    exact hlayout

/-! ## Slices -/

/-- The windows are appended one by one, up to an allocation that throws. -/
theorem firstLoop_spec (s : DataBlocks) {out : ChainStorage} {bout : BlockChain} (throws : Nat → Bool)
    (h : out.Refines bout) (es : List BlockRef) (len : Nat) :
    (∃ s' out', out.firstLoop throws s (es.map .ofRef) len = some (.ok (s', out')) ∧
      out'.Refines (bout.firstLoop es len)) ∨
    (∃ s' out' cells, out.firstLoop throws s (es.map .ofRef) len = some (.error (s', out')) ∧
      out'.Layout cells) ∧ ∃ n, throws n = true := by
  induction es generalizing s out bout len with
  | nil => exact .inl ⟨s, out, rfl, h⟩
  | cons r es ih =>
      rw [List.map_cons, firstLoop, BlockChain.firstLoop]
      by_cases hlen : len = 0
      · rw [if_pos hlen, if_pos hlen]
        exact .inl ⟨s, out, rfl, h⟩
      · rw [if_neg hlen, if_neg hlen]
        have hpiece : (Handle.ofRef r).setRange (Handle.ofRef r).beginOffset
            ((Handle.ofRef r).beginOffset + min (Handle.ofRef r).size len) (Nat.le_add_right ..) =
            .ofRef (r.setRange r.beginOffset (r.beginOffset + min r.size len)) := rfl
        simp only [hpiece]
        by_cases ht : out.AppendThrows throws bout.entries
            (r.setRange r.beginOffset (r.beginOffset + min r.size len))
        · rw [append_of_throws (s.copy (.ofRef r)) h.layout ht]
          exact .inr ⟨⟨_, _, _, rfl, h.layout.setSize _⟩, _, ht.2.2.2.2⟩
        · obtain ⟨s₁, out₁, happend, h₁⟩ := append_spec (s.copy (.ofRef r)) h ht
          rw [happend]
          exact ih s₁ h₁ (len - min r.size len)

theorem first_spec (s : DataBlocks) (throws : Nat → Bool) (h : c.Refines bc) (len : Nat) :
    (∃ s' out, c.first throws s len = some (.ok (s', out)) ∧ out.Refines (bc.first len)) ∨
    (∃ s', c.first throws s len = some (.error s')) ∧ ∃ n, throws n = true := by
  have hloop := firstLoop_spec s throws create_refines bc.entries (min len bc.size)
  rw [← h.size_eq] at hloop
  rcases hloop with ⟨s', out, hloop, hout⟩ | ⟨⟨s', out, cells, hloop, hout⟩, hthrows⟩
  · rw [h.size_eq] at hout
    exact .inl ⟨s', out, by simp [first, h.layout.entries, hloop], hout⟩
  · obtain ⟨s'', hdestroy⟩ := destroy_spec s' hout
    exact .inr ⟨⟨s'', by simp [first, h.layout.entries, hloop, hdestroy]⟩, hthrows⟩

/-- Where no allocation throws. -/
theorem first_of_allocates (s : DataBlocks) (h : c.Refines bc) (hn : ∀ n, throws n = false) (len : Nat) :
    ∃ s' out, c.first throws s len = some (.ok (s', out)) ∧ out.Refines (bc.first len) := by
  apply (first_spec s throws h len).resolve_right
  rintro ⟨-, n, hthrows⟩
  exact absurd hthrows (by simp [hn])

/-! ## Copies and moves -/

theorem copyLoop_spec (s : DataBlocks) (h : c.Layout (es.map .ofRef)) (hn : ∀ n, throws n = false)
    (rs : List BlockRef) :
    ∃ s' c', c.copyLoop throws s (rs.map .ofRef) = some (.ok (s', c')) ∧ c'.Layout ((es ++ rs).map .ofRef) := by
  induction rs generalizing s c es with
  | nil => exact ⟨s, c, rfl, by rwa [List.append_nil]⟩
  | cons r rs ih =>
      have ht : ¬ c.GrowthThrows throws := by
        rintro ⟨-, -, hthrows⟩
        exact absurd hthrows (by simp [hn])
      obtain ⟨s₁, c₁, hpush, h₁, -⟩ := pushBack_spec (r := r) (s.copy (.ofRef r)) h ht
      obtain ⟨s₂, c₂, hloop, h₂⟩ := ih s₁ h₁
      refine ⟨s₂, c₂, ?_, by rwa [List.append_assoc] at h₂⟩
      rw [List.map_cons, copyLoop, hpush]
      exact hloop

theorem copy_spec (s : DataBlocks) (h : c.Refines bc) (hn : ∀ n, throws n = false) :
    ∃ s' c', c.copy throws s = some (.ok (s', c')) ∧ c'.Refines bc := by
  have hcreate : create.Layout (([] : List BlockRef).map .ofRef) := create_layout
  obtain ⟨s', c', hloop, h'⟩ := copyLoop_spec s hcreate hn bc.entries
  refine ⟨s', { c' with size := c.size }, by simp [copy, h.layout.entries, hloop], h'.setSize _, h.size_eq⟩

theorem moveAssign_spec (s : DataBlocks) {other : ChainStorage} {cells : List Handle} (h : c.Layout cells)
    (hother : other.Refines bc) :
    ∃ s' c' other', c.moveAssign s other = some (s', c', other') ∧ c'.Refines bc ∧ other'.Refines .nil := by
  obtain ⟨s', c₁, c₂, hclear, hrelease, h₂, hinline, hhead⟩ := released_spec s h
  have hlayout := hother.layout
  cases hext : other.external with
  | none =>
      obtain ⟨pre, post, hdata, hpre_length, hpre, hpost⟩ := hlayout.around
      rw [data_of_inline hext] at hdata
      have hcount : other.count ≤ c₂.inline.length := by
        have hbound := hlayout.bound
        rw [capacity, data_of_inline hext, hlayout.inline_length] at hbound
        rw [h₂.inline_length]
        omega
      have hgap : Idle (c₂.inline.take other.count) := fun r hr => h₂.idle_inline r (List.mem_of_mem_take hr)
      have hrest : Idle (c₂.inline.drop other.count) := fun r hr => h₂.idle_inline r (List.mem_of_mem_drop hr)
      have hmove := s'.moveCells_eq pre post [] (c₂.inline.drop other.count) (bc.entries.map .ofRef) hgap (by
        rw [List.length_take, Nat.min_eq_left hcount, hlayout.count_eq])
      rw [← hdata, hpre_length, ← hlayout.count_eq, List.nil_append, List.nil_append, List.take_append_drop,
        List.length_nil] at hmove
      have hmoved : Layout
          { other with inline := pre ++ (bc.entries.map Handle.ofRef).map .moved ++ post, size := 0 }
          ((bc.entries.map Handle.ofRef).map .moved) := by
        refine .of_inline pre post hext rfl ?_ hpre_length (by simpa using hlayout.count_eq) hpre hpost
        rw [← hlayout.inline_length, hdata]
        simp
      obtain ⟨s₃, other', hclear', hother', -, hsize⟩ := clear_spec s' hmoved
      refine ⟨s₃, { c₂ with
        inline := bc.entries.map .ofRef ++ c₂.inline.drop other.count
        count := other.count
        size := other.size }, other', ?_, ⟨?_, hother.size_eq⟩, hother', hsize⟩
      · rw [hext] at hclear'
        simp only [moveAssign, hclear, hrelease, hext, hmove, hclear', Option.bind_eq_bind, Option.bind_some]
        rfl
      · refine .of_inline [] (c₂.inline.drop other.count) hinline rfl ?_ hhead.symm hlayout.count_eq
          (idle_replicate 0) hrest
        rw [List.length_append, ← hlayout.count_eq, List.length_drop, ← h₂.inline_length]
        omega
  | some data =>
      have hdata : other.data = data := by simp [ChainStorage.data, hext]
      have hpos := hlayout.capacity_pos
      rw [capacity, hdata] at hpos
      obtain ⟨pre, post, haround, hpre_length, hidle⟩ := hlayout.around
      rw [hdata] at haround
      refine ⟨s', { c₂ with external := some data, head := other.head, count := other.count, size := other.size },
        { other with external := none, head := 0, count := 0, size := 0 }, ?_, ⟨?_, hother.size_eq⟩, ?_, rfl⟩
      · simp [moveAssign, hclear, hrelease, hext]
      · exact
          { around := ⟨pre, post, haround, hpre_length, hidle⟩
            count_eq := hlayout.count_eq
            capacity_pos := hpos
            inline_length := h₂.inline_length
            inline_idle := fun _ => h₂.idle_inline }
      · exact .of_inline [] other.inline rfl rfl hlayout.inline_length rfl rfl (idle_replicate 0)
          (hlayout.inline_idle (by simp [hext]))

theorem copyAssign_spec (s : DataBlocks) {other : ChainStorage} {cells : List Handle} (h : c.Layout cells)
    (hother : other.Refines bc) (hn : ∀ n, throws n = false) :
    ∃ s' c', c.copyAssign throws s other = some (.ok (s', c')) ∧ c'.Refines bc := by
  obtain ⟨s₁, copy, hcopy, hrefines⟩ := copy_spec s hother hn
  obtain ⟨s₂, c', copy', hmove, hc', hempty⟩ := moveAssign_spec s₁ h hrefines
  obtain ⟨s₃, hdestroy⟩ := destroy_spec s₂ hempty.layout
  exact ⟨s₃, c', by simp [copyAssign, hcopy, hmove, hdestroy], hc'⟩

end ChainStorage

end Taps
