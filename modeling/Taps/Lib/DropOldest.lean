import Taps.Lib.Machine

/-!
# A bounded queue that drops its oldest element

What a queue in front of a slow consumer is for: it keeps the order, never holds more than its bound, and what is
pushed into a full one displaces the oldest element.
-/

namespace Taps.Lib

@[ext]
structure DropOldest (α : Type*) where
  queue : List α
  bound : Nat
  dropped : Nat
  closed : Bool
  bound_pos : 0 < bound
  length_le : queue.length ≤ bound

inductive QueueEvent (α : Type*)
  | push (a : α)
  | pop
  | close

/-- What a run shows of its events: the elements accepted, and the results of the pops. -/
inductive QueueLog (α : Type*)
  | accepted (a : α)
  | returned (result : Option α)
  deriving DecidableEq

/-- How an element has left the queue. -/
inductive Fate
  | popped
  | dropped
  deriving DecidableEq

namespace QueueLog

variable {α : Type*}

def accepts : List (QueueLog α) → List α :=
  List.filterMap fun
    | .accepted a => some a
    | .returned _ => none

def pops : List (QueueLog α) → List α :=
  List.filterMap fun
    | .accepted _ => none
    | .returned result => result

end QueueLog

namespace DropOldest

variable {α : Type*} {q q' : DropOldest α}

def create (bound : Nat) (bound_pos : 0 < bound) : DropOldest α :=
  { queue := [], bound, dropped := 0, closed := false, bound_pos, length_le := Nat.zero_le _ }

def push (q : DropOldest α) (a : α) : DropOldest α :=
  if q.closed then q
  else if h : q.queue.length = q.bound then
    { q with
      queue := q.queue.tail ++ [a]
      dropped := q.dropped + 1
      length_le := by
        have := q.bound_pos
        simp only [List.length_append, List.length_tail, List.length_singleton]
        omega }
  else
    { q with
      queue := q.queue ++ [a]
      length_le := by
        have := q.length_le
        simp only [List.length_append, List.length_singleton]
        omega }

def pop (q : DropOldest α) : DropOldest α :=
  { q with
    queue := q.queue.tail
    length_le := by
      rw [List.length_tail]
      exact Nat.le_trans (Nat.sub_le _ _) q.length_le }

def machine (α : Type*) : Machine (DropOldest α) (QueueEvent α) (QueueLog α) where
  step q
    | .push a => (q.push a, if q.closed then [] else [.accepted a])
    | .pop => (q.pop, [.returned q.queue.head?])
    | .close => ({ q with closed := true }, [])

/-! ## Pushing -/

theorem push_of_closed (h : q.closed = true) (a : α) : q.push a = q := by
  simp [push, h]

theorem queue_push (h : q.closed = false) (a : α) :
    (q.push a).queue = (if q.queue.length = q.bound then q.queue.tail else q.queue) ++ [a] := by
  unfold push
  split
  · simp_all
  · split <;> rfl

theorem dropped_push (h : q.closed = false) (a : α) :
    (q.push a).dropped = if q.queue.length = q.bound then q.dropped + 1 else q.dropped := by
  unfold push
  split
  · simp_all
  · split <;> rfl

@[simp] theorem bound_push (q : DropOldest α) (a : α) : (q.push a).bound = q.bound := by
  unfold push
  split
  · rfl
  · split <;> rfl

@[simp] theorem closed_push (q : DropOldest α) (a : α) : (q.push a).closed = q.closed := by
  unfold push
  split
  · rfl
  · split <;> rfl

/-! ## The accounts of a run -/

/-- `left` are the elements that leave the queue from `q` to `q'`, in their order. -/
structure Accounts (q : DropOldest α) (log : List (QueueLog α)) (q' : DropOldest α) (left : List (α × Fate)) :
    Prop where
  order : q.queue ++ QueueLog.accepts log = left.map Prod.fst ++ q'.queue
  popped : QueueLog.pops log = (left.filter fun x => x.2 = .popped).map Prod.fst
  dropped : q'.dropped = q.dropped + left.countP fun x => x.2 = .dropped

variable {log log' : List (QueueLog α)} {left left' : List (α × Fate)}

theorem Accounts.refl (q : DropOldest α) : Accounts q [] q [] where
  order := List.append_nil _
  popped := rfl
  dropped := rfl

theorem Accounts.trans {q'' : DropOldest α} (h : Accounts q log q' left) (h' : Accounts q' log' q'' left') :
    Accounts q (log ++ log') q'' (left ++ left') where
  order := by
    have happend : QueueLog.accepts (log ++ log') = QueueLog.accepts log ++ QueueLog.accepts log' :=
      List.filterMap_append
    rw [happend, ← List.append_assoc, h.order, List.append_assoc, h'.order, List.map_append, List.append_assoc]
  popped := by
    have happend : QueueLog.pops (log ++ log') = QueueLog.pops log ++ QueueLog.pops log' := List.filterMap_append
    rw [happend, h.popped, h'.popped, List.filter_append, List.map_append]
  dropped := by
    rw [h'.dropped, h.dropped, List.countP_append, Nat.add_assoc]

/-- An accepted element is queued last, and the oldest one leaves a full queue. -/
theorem push_accounts (h : q.closed = false) (a : α) : ∃ left, Accounts q [.accepted a] (q.push a) left := by
  have hqueue := queue_push h a
  have hdropped := dropped_push h a
  by_cases hfull : q.queue.length = q.bound
  · obtain ⟨b, rest, hrest⟩ : ∃ b rest, q.queue = b :: rest := by
      apply List.exists_cons_of_length_pos
      rw [hfull]
      exact q.bound_pos
    rw [if_pos hfull] at hqueue hdropped
    refine ⟨[(b, .dropped)], ?_, rfl, hdropped⟩
    simp [hqueue, hrest, QueueLog.accepts]
  · rw [if_neg hfull] at hqueue hdropped
    exact ⟨[], hqueue.symm, rfl, hdropped⟩

theorem pop_accounts (q : DropOldest α) : ∃ left, Accounts q [.returned q.queue.head?] q.pop left := by
  cases hqueue : q.queue with
  | nil => exact ⟨[], by simp [pop, hqueue, QueueLog.accepts], rfl, rfl⟩
  | cons a rest => exact ⟨[(a, .popped)], by simp [pop, hqueue, QueueLog.accepts], rfl, rfl⟩

theorem step_accounts (q : DropOldest α) (e : QueueEvent α) :
    ∃ left, Accounts q ((machine α).step q e).2 ((machine α).step q e).1 left := by
  cases e with
  | push a =>
      cases hclosed : q.closed with
      | true => exact ⟨[], by simpa [machine, hclosed, push_of_closed hclosed] using Accounts.refl q⟩
      | false => simpa [machine, hclosed] using push_accounts hclosed a
  | pop => exact pop_accounts q
  | close => exact ⟨[], List.append_nil _, rfl, rfl⟩

/-- What was queued and accepted has left, popped or dropped, or is still queued. -/
theorem run_accounts (q : DropOldest α) (es : List (QueueEvent α)) :
    ∃ left, Accounts q ((machine α).run q es).2 ((machine α).run q es).1 left := by
  apply Machine.run_relates (R := fun q log q' => ∃ left, Accounts q log q' left)
  · exact fun q => ⟨[], .refl q⟩
  · intro q e log q' ⟨left', h'⟩
    obtain ⟨left, h⟩ := step_accounts q e
    exact ⟨left ++ left', h.trans h'⟩

theorem length_eq_fates (left : List (α × Fate)) :
    left.length = (left.filter fun x => x.2 = .popped).length + left.countP fun x => x.2 = .dropped := by
  induction left with
  | nil => rfl
  | cons x left ih =>
      cases hx : x.2 with
      | popped => simp [hx, ih, Nat.add_right_comm]
      | dropped => simp [hx, ih, Nat.add_assoc]

theorem Accounts.length_eq (h : Accounts q log q' left) :
    q.queue.length + (QueueLog.accepts log).length + q.dropped
      = (QueueLog.pops log).length + q'.dropped + q'.queue.length := by
  have horder := congrArg List.length h.order
  have hpopped := congrArg List.length h.popped
  have hfates := length_eq_fates left
  rw [List.length_append, List.length_append, List.length_map] at horder
  rw [List.length_map] at hpopped
  have hdropped := h.dropped
  omega

end DropOldest

end Taps.Lib
