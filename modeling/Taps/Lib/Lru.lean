import Mathlib.Data.Finset.Card
import Mathlib.Data.List.Basic

/-!
# A bounded table that displaces its least recently used entry

The entries are in the order of their last use, the latest first. A new key takes the place of the last entry of a
table that is full.
-/

namespace Taps.Lib

structure Lru (K V : Type*) where
  entries : List (K × V)
  bound : Nat
  bound_pos : 0 < bound
  keys_nodup : (entries.map Prod.fst).Nodup
  length_le : entries.length ≤ bound

namespace Lru

variable {K V : Type*}

def empty (bound : Nat) (bound_pos : 0 < bound) : Lru K V :=
  { entries := [], bound, bound_pos, keys_nodup := List.nodup_nil, length_le := Nat.zero_le _ }

variable [DecidableEq K]

def find? (t : Lru K V) (k : K) : Option V := (t.entries.find? fun x => x.1 = k).map Prod.snd

def erase (t : Lru K V) (k : K) : Lru K V :=
  { t with
    entries := t.entries.filter fun x => x.1 ≠ k
    keys_nodup := t.keys_nodup.sublist (List.filter_sublist.map _)
    length_le := Nat.le_trans (List.length_filter_le ..) t.length_le }

/-- The entry that the key displaces. -/
def victim (t : Lru K V) (k : K) : Option (K × V) :=
  if (t.find? k).isSome ∨ t.entries.length < t.bound then none else t.entries.getLast?

/-- What stays of the table when the key is used. -/
def others (t : Lru K V) (k : K) : Lru K V :=
  match t.victim k with
  | some x => (t.erase x.1).erase k
  | none => t.erase k

variable {t : Lru K V} {j k : K} {v w : V} {x : K × V}

theorem find?_eq_none : t.find? k = none ↔ ∀ x ∈ t.entries, x.1 ≠ k := by
  simp [find?]

theorem find?_eq_some (h : x ∈ t.entries) : t.find? x.1 = some x.2 := by
  cases hf : t.entries.find? fun y => y.1 = x.1 with
  | none => simpa using List.find?_eq_none.mp hf x h
  | some y =>
      have hkey : y.1 = x.1 := by simpa using List.find?_some hf
      rw [find?, hf, List.inj_on_of_nodup_map t.keys_nodup (List.mem_of_find?_eq_some hf) h hkey]
      rfl

theorem mem_of_find? (h : t.find? k = some v) : (k, v) ∈ t.entries := by
  obtain ⟨x, hx, rfl⟩ := Option.map_eq_some_iff.mp h
  have hkey : x.1 = k := by simpa using List.find?_some hx
  exact hkey ▸ List.mem_of_find?_eq_some hx

theorem erase_of_find?_none (h : t.find? k = none) : (t.erase k).entries = t.entries :=
  List.filter_eq_self.mpr fun x hx => decide_eq_true (find?_eq_none.mp h x hx)

theorem length_erase_lt (h : x ∈ t.entries) : (t.erase x.1).entries.length < t.entries.length :=
  List.length_filter_lt_length_iff_exists.mpr ⟨x, h, by simp⟩

theorem victim_eq_some (h : t.victim k = some x) :
    t.find? k = none ∧ t.entries.length = t.bound ∧ ∃ rest, t.entries = rest ++ [x] := by
  unfold victim at h
  split at h
  · cases h
  · rename_i hfull
    obtain ⟨hnone, hlen⟩ := not_or.mp hfull
    refine ⟨by simpa using hnone, Nat.le_antisymm t.length_le (Nat.le_of_not_lt hlen), ?_⟩
    obtain ⟨rest, hrest⟩ := List.getLast?_eq_some_iff.mp h
    exact ⟨rest, hrest⟩

theorem victim_eq_none (h : t.victim k = none) : (t.find? k).isSome = true ∨ t.entries.length < t.bound := by
  unfold victim at h
  split at h
  · assumption
  · rename_i hfull
    have hlen := Nat.le_of_not_lt (not_or.mp hfull).2
    rw [List.getLast?_eq_none_iff.mp h] at hlen
    exact absurd t.bound_pos (Nat.not_lt.mpr hlen)

theorem length_others_lt (t : Lru K V) (k : K) : (t.others k).entries.length < t.bound := by
  unfold others
  cases hv : t.victim k with
  | some x =>
      obtain ⟨-, hlen, rest, hrest⟩ := victim_eq_some hv
      have hlt : (t.erase x.1).entries.length < t.entries.length := length_erase_lt (by simp [hrest])
      exact Nat.lt_of_le_of_lt (List.length_filter_le ..) (hlen ▸ hlt)
  | none =>
      rcases victim_eq_none hv with hsome | hlen
      · obtain ⟨v, hv⟩ := Option.isSome_iff_exists.mp hsome
        exact Nat.lt_of_lt_of_le (length_erase_lt (mem_of_find? hv)) t.length_le
      · exact Nat.lt_of_le_of_lt (List.length_filter_le ..) hlen

theorem notMem_others (t : Lru K V) (k : K) : k ∉ (t.others k).entries.map Prod.fst := by
  have herase : ∀ u : Lru K V, k ∉ (u.erase k).entries.map Prod.fst := by
    intro u hk
    obtain ⟨x, hx, rfl⟩ := List.mem_map.mp hk
    simpa using (List.mem_filter.mp hx).2
  unfold others
  split
  · exact herase _
  · exact herase _

/-- Uses the key, with a value for it: its entry is the first one. -/
def put (t : Lru K V) (k : K) (v : V) : Lru K V :=
  { t with
    entries := (k, v) :: (t.others k).entries
    keys_nodup := List.nodup_cons.mpr ⟨t.notMem_others k, (t.others k).keys_nodup⟩
    length_le := t.length_others_lt k }

/-! ## Who is displaced -/

/-- The key has an entry with this value, and every entry that was used later has one of the keys `D`. -/
def Recent (t : Lru K V) (k : K) (v : V) (D : Finset K) : Prop :=
  ∃ front back, t.entries = front ++ (k, v) :: back ∧ ∀ x ∈ front, x.1 ∈ D

variable {D : Finset K}

theorem recent_put (t : Lru K V) (k : K) (v : V) : (t.put k v).Recent k v ∅ := ⟨[], _, rfl, nofun⟩

omit [DecidableEq K] in
theorem Recent.mem (h : t.Recent k v D) : (k, v) ∈ t.entries := by
  obtain ⟨front, back, he, -⟩ := h
  simp [he]

theorem Recent.erase (h : t.Recent k v D) (hne : j ≠ k) : (t.erase j).Recent k v D := by
  obtain ⟨front, back, he, hfront⟩ := h
  refine ⟨front.filter fun x => x.1 ≠ j, back.filter fun x => x.1 ≠ j, ?_,
    fun x hx => hfront x (List.mem_of_mem_filter hx)⟩
  show t.entries.filter _ = _
  rw [he, List.filter_append, List.filter_cons_of_pos (by simpa using hne.symm)]

/-- A new key displaces an entry only if as many keys as the table holds were used since. -/
theorem Recent.victim_ne (h : t.Recent k v D) (hD : (insert j D).card < t.bound) (hx : t.victim j = some x) :
    x.1 ≠ k := by
  obtain ⟨front, back, he, hfront⟩ := h
  obtain ⟨hnone, hlen, rest, hrest⟩ := victim_eq_some hx
  rintro rfl
  have hnodup := t.keys_nodup
  rw [he, List.map_append, List.map_cons] at hnodup
  have hback : back = [] := by
    -- The victim is the last entry, and no other one has its key.
    have hlast : x.1 ∈ ((x.1, v) :: back).getLast?.map Prod.fst := by
      have hsame := congrArg List.getLast? (he.symm.trans hrest)
      rw [List.getLast?_append_cons, List.getLast?_concat] at hsame
      rw [hsame]
      rfl
    by_contra hne
    rw [List.getLast?_cons_of_ne_nil hne] at hlast
    obtain ⟨y, hy, hkey⟩ := Option.map_eq_some_iff.mp hlast
    have hmem : x.1 ∈ back.map Prod.fst := hkey ▸ List.mem_map_of_mem (List.mem_of_getLast? hy)
    exact (List.nodup_cons.mp (List.nodup_append.mp hnodup).2.1).1 hmem
  have hj : j ∉ front.map Prod.fst := by
    intro hj
    obtain ⟨y, hy, hkey⟩ := List.mem_map.mp hj
    exact find?_eq_none.mp hnone y (by simp [he, hy]) hkey
  have hsub : (j :: front.map Prod.fst).toFinset ⊆ insert j D := by
    intro y hy
    rcases List.mem_cons.mp (List.mem_toFinset.mp hy) with rfl | hy
    · exact Finset.mem_insert_self ..
    · obtain ⟨z, hz, rfl⟩ := List.mem_map.mp hy
      exact Finset.mem_insert_of_mem (hfront z hz)
  have hcard := Finset.card_le_card hsub
  rw [List.toFinset_card_of_nodup (List.nodup_cons.mpr ⟨hj, (List.nodup_append.mp hnodup).1⟩), List.length_cons,
    List.length_map] at hcard
  rw [he, hback, List.length_append, List.length_singleton] at hlen
  omega

theorem Recent.put (h : t.Recent k v D) (hne : j ≠ k) (hD : (insert j D).card < t.bound) (w : V) :
    (t.put j w).Recent k v (insert j D) := by
  have hothers : (t.others j).Recent k v D := by
    unfold others
    cases hv : t.victim j with
    | some x => exact (h.erase (h.victim_ne hD hv)).erase hne
    | none => exact h.erase hne
  obtain ⟨front, back, he, hfront⟩ := hothers
  refine ⟨(j, w) :: front, back, congrArg (List.cons (j, w)) he, fun x hx => ?_⟩
  rcases List.mem_cons.mp hx with rfl | hx
  · exact Finset.mem_insert_self ..
  · exact Finset.mem_insert_of_mem (hfront x hx)

end Lru

end Taps.Lib
