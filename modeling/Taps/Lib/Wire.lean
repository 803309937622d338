import Mathlib.Data.List.Basic
import Mathlib.Data.List.Nodup
import Mathlib.Data.List.Perm.Basic

/-!
# A network that loses, duplicates and reorders packets

A packet is known by its number in the order in which they were put on the network. Those in flight are delivered in
any order, if at all.
-/

namespace Taps.Lib

structure Packet (N M : Type*) where
  source : N
  dest : N
  content : M

/-- `sent` are all packets so far, `flight` those that may still be delivered and `delivered` those that were, with
their numbers. -/
structure Wire (N M : Type*) where
  sent : List (Packet N M)
  flight : List (Nat × Packet N M)
  delivered : List (Nat × Packet N M)
  genuine : ∀ x ∈ flight ++ delivered, sent[x.1]? = some x.2

namespace Wire

variable {N M : Type*}

def empty : Wire N M := { sent := [], flight := [], delivered := [], genuine := by simp }

def send (w : Wire N M) (p : Packet N M) : Wire N M :=
  { sent := w.sent ++ [p], flight := (w.sent.length, p) :: w.flight, delivered := w.delivered
    genuine := by
      intro x hx
      rcases List.mem_cons.mp hx with rfl | hx
      · exact List.getElem?_concat_length
      · have hlt := (List.getElem?_eq_some_iff.mp (w.genuine x hx)).1
        rw [List.getElem?_append_left hlt, w.genuine x hx] }

/-- The `k`-th packet in flight. -/
def lose (w : Wire N M) (k : Nat) : Wire N M :=
  { w with
    flight := w.flight.eraseIdx k
    genuine := fun x hx => w.genuine x (((List.eraseIdx_sublist _ _).append_right _).subset hx) }

def duplicate (w : Wire N M) (k : Nat) : Wire N M :=
  { w with
    flight := w.flight[k]?.toList ++ w.flight
    genuine := by
      intro x hx
      rw [List.append_assoc] at hx
      rcases List.mem_append.mp hx with hx | hx
      · exact w.genuine x (List.mem_append_left _ (List.mem_of_getElem? (Option.mem_toList.mp hx)))
      · exact w.genuine x hx }

def deliver (w : Wire N M) (k : Nat) : Wire N M :=
  { w with
    flight := w.flight.eraseIdx k
    delivered := w.delivered ++ w.flight[k]?.toList
    genuine := by
      intro x hx
      rw [← List.append_assoc] at hx
      rcases List.mem_append.mp hx with hx | hx
      · exact w.genuine x (((List.eraseIdx_sublist _ _).append_right _).subset hx)
      · exact w.genuine x (List.mem_append_left _ (List.mem_of_getElem? (Option.mem_toList.mp hx))) }

variable {w : Wire N M} {x : Nat × Packet N M} {k : Nat}

/-! ## What an endpoint receives -/

variable [DecidableEq N]

/-- What was delivered to an endpoint, in order. -/
def received (w : Wire N M) (n : N) : List (Nat × Packet N M) := w.delivered.filter fun x => x.2.dest = n

theorem mem_received {n : N} (h : x ∈ w.received n) : w.sent[x.1]? = some x.2 ∧ x.2.dest = n := by
  obtain ⟨hx, hdest⟩ := List.mem_filter.mp h
  exact ⟨w.genuine x (List.mem_append_right _ hx), of_decide_eq_true hdest⟩

theorem received_deliver (h : w.flight[k]? = some x) (n : N) :
    (w.deliver k).received n = w.received n ++ if x.2.dest = n then [x] else [] := by
  by_cases hn : x.2.dest = n <;> simp [received, deliver, h, hn]

/-! ## Without duplicates -/

omit [DecidableEq N]

/-- No number is twice on the network. -/
def Faithful (w : Wire N M) : Prop := ((w.flight ++ w.delivered).map Prod.fst).Nodup

theorem Faithful.send (h : w.Faithful) (p : Packet N M) : (w.send p).Faithful := by
  refine List.nodup_cons.mpr ⟨fun hmem => ?_, h⟩
  obtain ⟨x, hx, he⟩ := List.mem_map.mp hmem
  exact Nat.lt_irrefl _ (he ▸ (List.getElem?_eq_some_iff.mp (w.genuine x hx)).1)

theorem Faithful.lose (h : w.Faithful) (k : Nat) : (w.lose k).Faithful :=
  h.sublist (((List.eraseIdx_sublist _ _).append_right _).map _)

theorem Faithful.deliver (h : w.Faithful) (k : Nat) : (w.deliver k).Faithful := by
  have hperm : (w.flight.eraseIdx k ++ (w.delivered ++ w.flight[k]?.toList)).Perm (w.flight ++ w.delivered) := by
    rw [← List.append_assoc]
    refine List.perm_append_comm.trans ?_
    rw [← List.append_assoc]
    refine .append_right _ ?_
    by_cases hk : k < w.flight.length
    · rw [List.getElem?_eq_getElem hk]
      exact List.getElem_cons_eraseIdx_perm hk
    · rw [List.getElem?_eq_none (Nat.le_of_not_lt hk), List.eraseIdx_of_length_le (Nat.le_of_not_lt hk)]
      exact .refl _
  exact (hperm.map Prod.fst).nodup_iff.mpr h

/-- No endpoint receives a packet twice. -/
theorem Faithful.index_eq [DecidableEq N] (h : w.Faithful) {n : N} {i j number : Nat} {p q : Packet N M}
    (hi : (w.received n)[i]? = some (number, p)) (hj : (w.received n)[j]? = some (number, q)) : i = j := by
  have hsub : ((w.received n).map Prod.fst).Sublist ((w.flight ++ w.delivered).map Prod.fst) :=
    (List.filter_sublist.trans (List.sublist_append_right ..)).map _
  have hlt : i < ((w.received n).map Prod.fst).length := by
    simpa using (List.getElem?_eq_some_iff.mp hi).1
  exact (List.getElem?_inj hlt (h.sublist hsub)).mp (by simp [hi, hj])

end Wire

end Taps.Lib
