import Mathlib.Data.List.AList
import Mathlib.Data.List.DropRight
import Mathlib.Data.List.Nodup

/-!
# A list of keyed nodes with an index

Two structures that have to agree: a linked list of nodes, each with a key, and a map from the keys to
nodes of the list. A node is known by its `id`, which stays with it as it moves in the list and which no
later node gets; a reference to a node that has been erased is found to be one (`deref` gives nothing).
-/

namespace Taps.Lib

structure Node (K V : Type*) where
  id : Nat
  key : K
  value : V
  deriving DecidableEq

/-- `nextId` is the `id` of the next node. -/
structure LinkedMap (K V : Type*) where
  nodes : List (Node K V)
  index : AList fun _ : K => Nat
  nextId : Nat

namespace LinkedMap

variable {K V : Type*}

def empty : LinkedMap K V := { nodes := [], index := ∅, nextId := 0 }

/-- The node that a reference is to, as long as it is in the list. -/
def deref (m : LinkedMap K V) (id : Nat) : Option (Node K V) := m.nodes.find? fun n => n.id = id

/-- Replaces the value of a node and moves it to the front. -/
def touch (m : LinkedMap K V) (n : Node K V) (v : V) : LinkedMap K V :=
  { m with nodes := { n with value := v } :: m.nodes.filter fun x => x.id ≠ n.id }

variable [DecidableEq K]

/-- Puts a new node at the front and indexes it, unless its key has an index already. -/
def pushFront (m : LinkedMap K V) (k : K) (v : V) : LinkedMap K V where
  nodes := ⟨m.nextId, k, v⟩ :: m.nodes
  index := if (m.index.lookup k).isSome then m.index else m.index.insert k m.nextId
  nextId := m.nextId + 1

/-- Puts a new node at the front, without an index. -/
def pushNode (m : LinkedMap K V) (k : K) (v : V) : LinkedMap K V :=
  { m with nodes := ⟨m.nextId, k, v⟩ :: m.nodes, nextId := m.nextId + 1 }

/-- Removes the key of a node from the index and the node from the list. -/
def erase (m : LinkedMap K V) (n : Node K V) : LinkedMap K V :=
  { m with index := m.index.erase n.key, nodes := m.nodes.filter fun x => x.id ≠ n.id }

/-- The list is in the order of a value of the nodes, the greatest first. -/
def Descending {T : Type*} [LE T] (f : V → T) (m : LinkedMap K V) : Prop :=
  m.nodes.Pairwise fun a b => f b.value ≤ f a.value

/-- The list and the index hold the same entries. -/
structure Agrees (m : LinkedMap K V) : Prop where
  keys : (m.nodes.map Node.key).Nodup
  ids : (m.nodes.map Node.id).Nodup
  fresh : ∀ n ∈ m.nodes, n.id < m.nextId
  index : ∀ k id, m.index.lookup k = some id ↔ ∃ n ∈ m.nodes, n.key = k ∧ n.id = id

/-! ## Lists and indices that agree -/

section

variable {m : LinkedMap K V} {n x : Node K V}

theorem Agrees.eq_of_key (h : m.Agrees) (hn : n ∈ m.nodes) (hx : x ∈ m.nodes)
    (hk : n.key = x.key) : n = x := List.inj_on_of_nodup_map h.keys hn hx hk

theorem Agrees.eq_of_id (h : m.Agrees) (hn : n ∈ m.nodes) (hx : x ∈ m.nodes) (hid : n.id = x.id) :
    n = x := List.inj_on_of_nodup_map h.ids hn hx hid

theorem Agrees.deref (h : m.Agrees) (hn : n ∈ m.nodes) : m.deref n.id = some n := by
  unfold LinkedMap.deref
  cases hf : m.nodes.find? fun x => x.id = n.id with
  | none => simpa using List.find?_eq_none.mp hf n hn
  | some x =>
      have hid : x.id = n.id := by simpa using List.find?_some hf
      rw [h.eq_of_id (List.mem_of_find?_eq_some hf) hn hid]

theorem Agrees.deref_lookup (h : m.Agrees) {k : K} {id : Nat} (hl : m.index.lookup k = some id) :
    ∃ n ∈ m.nodes, n.key = k ∧ m.deref id = some n := by
  obtain ⟨n, hn, hk, rfl⟩ := (h.index k id).mp hl
  exact ⟨n, hn, hk, h.deref hn⟩

theorem Agrees.lookup_eq_none (h : m.Agrees) {k : K} (hl : m.index.lookup k = none) :
    ∀ n ∈ m.nodes, n.key ≠ k := by
  intro n hn hk
  have := (h.index k n.id).mpr ⟨n, hn, hk, rfl⟩
  rw [hl] at this
  cases this

theorem Agrees.mem_keys (h : m.Agrees) (k : K) :
    k ∈ m.index.keys ↔ k ∈ m.nodes.map Node.key := by
  rw [← AList.mem_keys, ← AList.lookup_isSome, Option.isSome_iff_exists, List.mem_map]
  refine ⟨?_, ?_⟩
  · rintro ⟨id, hl⟩
    obtain ⟨n, hn, hk, -⟩ := (h.index k id).mp hl
    exact ⟨n, hn, hk⟩
  · rintro ⟨n, hn, hk⟩
    exact ⟨n.id, (h.index k n.id).mpr ⟨n, hn, hk, rfl⟩⟩

theorem Agrees.length_keys (h : m.Agrees) : m.index.keys.length = m.nodes.length := by
  have hperm : m.index.keys.Perm (m.nodes.map Node.key) :=
    (List.perm_ext_iff_of_nodup m.index.keys_nodup h.keys).mpr h.mem_keys
  rw [hperm.length_eq, List.length_map]

theorem agrees_empty : (empty : LinkedMap K V).Agrees where
  keys := List.nodup_nil
  ids := List.nodup_nil
  fresh := nofun
  index := by simp [empty]

/-! ## Erasing -/

theorem mem_erase : x ∈ (m.erase n).nodes ↔ x ∈ m.nodes ∧ x.id ≠ n.id := by
  simp [erase]

theorem Agrees.mem_erase (h : m.Agrees) (hn : n ∈ m.nodes) :
    x ∈ (m.erase n).nodes ↔ x ∈ m.nodes ∧ x ≠ n := by
  rw [LinkedMap.mem_erase]
  refine and_congr_right fun hx => not_congr ⟨h.eq_of_id hx hn, ?_⟩
  rintro rfl
  rfl

theorem lookup_erase_of_none {k : K} (h : m.index.lookup k = none) :
    (m.erase n).index.lookup k = none := by
  by_cases hk : k = n.key
  · rw [hk]
    exact AList.lookup_erase n.key m.index
  · exact (AList.lookup_erase_ne hk).trans h

theorem length_erase_lt (hn : n ∈ m.nodes) : (m.erase n).nodes.length < m.nodes.length :=
  List.length_filter_lt_length_iff_exists.mpr ⟨n, hn, by simp⟩

theorem Agrees.erase (h : m.Agrees) (hn : n ∈ m.nodes) : (m.erase n).Agrees where
  keys := h.keys.sublist (List.filter_sublist.map _)
  ids := h.ids.sublist (List.filter_sublist.map _)
  fresh x hx := h.fresh x (LinkedMap.mem_erase.mp hx).1
  index k id := by
    by_cases hk : k = n.key
    · subst hk
      rw [show (m.erase n).index = m.index.erase n.key from rfl, AList.lookup_erase]
      refine ⟨nofun, ?_⟩
      rintro ⟨x, hx, hkey, -⟩
      rw [h.mem_erase hn] at hx
      exact absurd (h.eq_of_key hx.1 hn hkey) hx.2
    · rw [show (m.erase n).index = m.index.erase n.key from rfl, AList.lookup_erase_ne hk, h.index]
      refine ⟨?_, ?_⟩
      · rintro ⟨x, hx, rfl, rfl⟩
        exact ⟨x, (h.mem_erase hn).mpr ⟨hx, fun he => hk (by rw [he])⟩, rfl, rfl⟩
      · rintro ⟨x, hx, rfl, rfl⟩
        exact ⟨x, ((h.mem_erase hn).mp hx).1, rfl, rfl⟩

/-! ## Pushing -/

theorem mem_pushFront {k : K} {v : V} :
    x ∈ (m.pushFront k v).nodes ↔ x = ⟨m.nextId, k, v⟩ ∨ x ∈ m.nodes := List.mem_cons

theorem index_pushFront {k : K} (hk : m.index.lookup k = none) (v : V) :
    (m.pushFront k v).index = m.index.insert k m.nextId := by
  simp [pushFront, hk]

theorem Agrees.pushFront (h : m.Agrees) {k : K} (hk : m.index.lookup k = none) (v : V) :
    (m.pushFront k v).Agrees where
  keys := by
    refine List.nodup_cons.mpr ⟨fun hm => ?_, h.keys⟩
    obtain ⟨n, hn, he⟩ := List.mem_map.mp hm
    exact h.lookup_eq_none hk n hn he
  ids := by
    refine List.nodup_cons.mpr ⟨fun hm => ?_, h.ids⟩
    obtain ⟨n, hn, he⟩ := List.mem_map.mp hm
    exact Nat.ne_of_lt (h.fresh n hn) he
  fresh x hx := by
    rcases mem_pushFront.mp hx with rfl | hx
    · exact Nat.lt_succ_self _
    · exact Nat.lt_succ_of_lt (h.fresh x hx)
  index k' id := by
    rw [index_pushFront hk]
    by_cases he : k' = k
    · subst he
      rw [AList.lookup_insert]
      refine ⟨?_, ?_⟩
      · rintro ⟨rfl⟩
        exact ⟨_, mem_pushFront.mpr (.inl rfl), rfl, rfl⟩
      · rintro ⟨x, hx, hkey, rfl⟩
        rcases mem_pushFront.mp hx with rfl | hx
        · rfl
        · exact absurd hkey (h.lookup_eq_none hk x hx)
    · rw [AList.lookup_insert_ne he, h.index]
      refine ⟨?_, ?_⟩
      · rintro ⟨x, hx, hkey, hid⟩
        exact ⟨x, mem_pushFront.mpr (.inr hx), hkey, hid⟩
      · rintro ⟨x, hx, rfl, rfl⟩
        rcases mem_pushFront.mp hx with rfl | hx
        · exact absurd rfl he
        · exact ⟨x, hx, rfl, rfl⟩

theorem Agrees.erase_pushFront (h : m.Agrees) {k : K} (hk : m.index.lookup k = none) (v : V) :
    ((m.pushFront k v).erase ⟨m.nextId, k, v⟩).nodes = m.nodes ∧
      ∀ k', ((m.pushFront k v).erase ⟨m.nextId, k, v⟩).index.lookup k' = m.index.lookup k' := by
  refine ⟨?_, fun k' => ?_⟩
  · have hkeep : m.nodes.filter (fun x => x.id ≠ m.nextId) = m.nodes :=
      List.filter_eq_self.mpr fun x hx => decide_eq_true (Nat.ne_of_lt (h.fresh x hx))
    simpa [LinkedMap.erase, LinkedMap.pushFront] using hkeep
  · rw [show ((m.pushFront k v).erase ⟨m.nextId, k, v⟩).index = (m.pushFront k v).index.erase k from rfl,
      index_pushFront hk]
    by_cases he : k' = k
    · rw [he, AList.lookup_erase, hk]
    · rw [AList.lookup_erase_ne he, AList.lookup_insert_ne he]

/-! ## Touching -/

theorem Agrees.mem_touch (h : m.Agrees) (hn : n ∈ m.nodes) {v : V} :
    x ∈ (m.touch n v).nodes ↔ x = { n with value := v } ∨ x ∈ m.nodes ∧ x ≠ n := by
  rw [← h.mem_erase hn]
  exact List.mem_cons

theorem length_touch_le (hn : n ∈ m.nodes) (v : V) :
    (m.touch n v).nodes.length ≤ m.nodes.length := length_erase_lt hn

theorem Agrees.touch (h : m.Agrees) (hn : n ∈ m.nodes) (v : V) : (m.touch n v).Agrees where
  keys := by
    refine List.nodup_cons.mpr ⟨fun hm => ?_, (h.erase hn).keys⟩
    obtain ⟨x, hx, he⟩ := List.mem_map.mp hm
    obtain ⟨hx, hne⟩ := (h.mem_erase hn).mp hx
    exact hne (h.eq_of_key hx hn he)
  ids := by
    refine List.nodup_cons.mpr ⟨fun hm => ?_, (h.erase hn).ids⟩
    obtain ⟨x, hx, he⟩ := List.mem_map.mp hm
    exact (LinkedMap.mem_erase.mp hx).2 he
  fresh x hx := by
    rcases (h.mem_touch hn).mp hx with rfl | ⟨hx, -⟩
    · exact h.fresh n hn
    · exact h.fresh x hx
  index k id := by
    rw [show (m.touch n v).index = m.index from rfl, h.index]
    refine ⟨?_, ?_⟩
    · rintro ⟨x, hx, rfl, rfl⟩
      by_cases he : x = n
      · exact ⟨_, (h.mem_touch hn).mpr (.inl rfl), by rw [he], by rw [he]⟩
      · exact ⟨x, (h.mem_touch hn).mpr (.inr ⟨hx, he⟩), rfl, rfl⟩
    · rintro ⟨x, hx, rfl, rfl⟩
      rcases (h.mem_touch hn).mp hx with rfl | ⟨hx, -⟩
      · exact ⟨n, hn, rfl, rfl⟩
      · exact ⟨x, hx, rfl, rfl⟩

/-! ## The order of the list -/

theorem Agrees.nodes_erase_concat (h : m.Agrees) {ns : List (Node K V)} (hm : m.nodes = ns ++ [n]) :
    (m.erase n).nodes = ns := by
  have hne : ∀ x ∈ ns, x.id ≠ n.id := by
    have hids := h.ids
    rw [hm, List.map_append, List.map_singleton] at hids
    intro x hx he
    have hx' : n.id ∈ ns.map Node.id := he ▸ List.mem_map_of_mem hx
    exact (List.disjoint_of_nodup_append hids) hx' (List.mem_singleton.mpr rfl)
  rw [LinkedMap.erase, hm, List.filter_append, List.filter_eq_self.mpr fun x hx => decide_eq_true (hne x hx)]
  simp

theorem rdropWhile_eq_filter {α : Type*} {p : α → Bool} {l : List α}
    (h : l.Pairwise fun a b => p a = true → p b = true) : l.rdropWhile p = l.filter fun a => !p a := by
  induction l using List.reverseRecOn with
  | nil => rfl
  | append_singleton l x ih =>
      obtain ⟨hl, -, hx⟩ := List.pairwise_append.mp h
      by_cases hp : p x = true
      · rw [List.rdropWhile_concat_pos p l x hp, ih hl]
        simp [hp]
      · have hall : ∀ a ∈ l, (!p a) = true := by
          intro a ha
          simpa using fun hpa => hp (hx a ha x (List.mem_singleton.mpr rfl) hpa)
        rw [List.rdropWhile_concat_neg p l x hp, List.filter_append, List.filter_eq_self.mpr hall]
        simp [hp]

theorem rtakeWhile_eq_filter {α : Type*} {p : α → Bool} {l : List α}
    (h : l.Pairwise fun a b => p a = true → p b = true) : l.rtakeWhile p = l.filter p := by
  have hdrop : (l.rdropWhile p).filter p = [] := by
    rw [rdropWhile_eq_filter h]
    simp
  have htake : (l.rtakeWhile p).filter p = l.rtakeWhile p :=
    List.filter_eq_self.mpr fun a ha => List.mem_rtakeWhile_imp ha
  calc l.rtakeWhile p = (l.rdropWhile p).filter p ++ (l.rtakeWhile p).filter p := by rw [hdrop, htake]; rfl
    _ = l.filter p := by rw [← List.filter_append, List.rdropWhile_append_rtakeWhile]

namespace Descending

variable {T : Type*} [Preorder T] {f : V → T} {m' : LinkedMap K V}

omit [DecidableEq K]

theorem sublist (h : m.Descending f) (hs : m'.nodes.Sublist m.nodes) : m'.Descending f :=
  List.Pairwise.sublist hs h

theorem cons (h : m.Descending f) {ns : List (Node K V)} (hs : ns.Sublist m.nodes)
    (hn : ∀ x ∈ m.nodes, f x.value ≤ f n.value) (hm : m'.nodes = n :: ns) : m'.Descending f := by
  rw [Descending, hm]
  exact List.pairwise_cons.mpr ⟨fun x hx => hn x (hs.subset hx), List.Pairwise.sublist hs h⟩

theorem touch (h : m.Descending f) (n : Node K V) {v : V} (hv : ∀ x ∈ m.nodes, f x.value ≤ f v) :
    (m.touch n v).Descending f := h.cons List.filter_sublist hv rfl

theorem last_le (h : m.Descending f) {ns : List (Node K V)} (hm : m.nodes = ns ++ [n]) :
    ∀ x ∈ m.nodes, f n.value ≤ f x.value := by
  rw [Descending, hm] at h
  intro x hx
  rw [hm] at hx
  rcases List.mem_append.mp hx with hx | hx
  · exact (List.pairwise_append.mp h).2.2 x hx n (List.mem_singleton.mpr rfl)
  · rw [List.mem_singleton.mp hx]

/-- What is below a bound is at the back. -/
theorem below_at_back [DecidableLT T] (h : m.Descending f) (c : T) :
    m.nodes.Pairwise fun a b => decide (f a.value < c) = true → decide (f b.value < c) = true := by
  apply List.Pairwise.imp _ h
  intro a b hle hlt
  exact decide_eq_true (lt_of_le_of_lt hle (of_decide_eq_true hlt))

end Descending

end

end LinkedMap

end Taps.Lib
