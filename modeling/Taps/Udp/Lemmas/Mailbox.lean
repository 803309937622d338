import Taps.Udp.Mailbox

/-!
# What a Mailbox does to its queue
-/

namespace Taps.Mailbox

variable {α : Type} {m : Mailbox α} {a : α} {cause : CloseCause}

@[simp] theorem length_contents (m : Mailbox α) : m.contents.length = m.ring.count :=
  m.ring.length_contents

/-! ## Delivering -/

theorem contents_ne_nil_of_full (h : m.Full) : m.contents ≠ [] := by
  intro he
  have hlen := m.length_contents
  rw [he, List.length_nil, show m.ring.count = m.capacity from h] at hlen
  exact absurd m.capacity_pos (by omega)

theorem contents_room (m : Mailbox α) :
    m.room.1.contents = if m.Full then m.contents.tail else m.contents := by
  unfold room
  by_cases hfull : m.Full
  · rw [dif_pos hfull, if_pos hfull]
    simp only [contents]
    rw [m.ring.contents_pop (hfull.symm ▸ m.capacity_pos), List.tail_cons]
  · rw [dif_neg hfull, if_neg hfull]
    split
    · exact m.ring.contents_resize _ m.count_le_grown
    · rfl

theorem deliver_of_closed (h : m.closed = true) (a : α) : m.deliver a = m := by
  simp [deliver, h]

theorem contents_deliver (h : m.closed = false) (a : α) :
    (m.deliver a).contents = (if m.Full then m.contents.tail else m.contents) ++ [a] := by
  rw [← contents_room]
  simp [deliver, h, contents]

theorem dropped_deliver (h : m.closed = false) (a : α) :
    (m.deliver a).dropped = if m.Full then m.dropped + 1 else m.dropped := by
  simp [deliver, h]

@[simp] theorem closed_deliver (m : Mailbox α) (a : α) : (m.deliver a).closed = m.closed := by
  unfold deliver
  split <;> rfl

theorem waiting_deliver (h : m.closed = false) (a : α) : (m.deliver a).waiting = m.waiting - 1 := by
  simp [deliver, h]

theorem woken_deliver (h : m.closed = false) (a : α) : (m.deliver a).woken = m.woken + min 1 m.waiting := by
  simp [deliver, h]

theorem length_deliver_le (m : Mailbox α) (a : α) : (m.deliver a).contents.length ≤ m.contents.length + 1 := by
  cases hclosed : m.closed with
  | true =>
      rw [deliver_of_closed hclosed]
      exact Nat.le_succ _
  | false =>
      rw [contents_deliver hclosed, List.length_append, List.length_singleton]
      split
      · rw [List.length_tail]
        omega
      · exact Nat.le_refl _

/-! ## Taking the oldest datagram -/

theorem tryPop_eq_none : m.tryPop = none ↔ m.contents = [] := by
  rw [← List.length_eq_zero_iff, length_contents]
  unfold tryPop
  split <;> simp [*]

theorem tryPop_eq_some {m' : Mailbox α} (h : m.tryPop = some (a, m')) :
    m.contents = a :: m'.contents ∧ m'.dropped = m.dropped ∧ m'.closed = m.closed ∧
      m'.cause = m.cause ∧ m'.waiting = m.waiting := by
  unfold tryPop at h
  split at h
  · cases h
  · rename_i hcount
    cases h
    exact ⟨m.ring.contents_pop (Nat.pos_of_ne_zero hcount), rfl, rfl, rfl, rfl⟩

/-! ## The queue that a Mailbox is for -/

theorem full_iff (m : Mailbox α) : m.Full ↔ m.toQueue.queue.length = m.toQueue.bound := by
  rw [Full, ← length_contents]
  rfl

theorem toQueue_deliver (m : Mailbox α) (a : α) : (m.deliver a).toQueue = m.toQueue.push a := by
  cases hclosed : m.closed with
  | true => rw [deliver_of_closed hclosed, Lib.DropOldest.push_of_closed hclosed]
  | false =>
      ext : 1
      · rw [Lib.DropOldest.queue_push hclosed]
        refine (contents_deliver hclosed a).trans ?_
        exact congrArg (· ++ [a]) (if_congr m.full_iff rfl rfl)
      · rw [Lib.DropOldest.bound_push]
        simp [toQueue, deliver, hclosed]
      · rw [Lib.DropOldest.dropped_push hclosed]
        exact (dropped_deliver hclosed a).trans (if_congr m.full_iff rfl rfl)
      · rw [Lib.DropOldest.closed_push]
        exact closed_deliver m a

theorem toQueue_of_tryPop {m' : Mailbox α} (h : m.tryPop = some (a, m')) :
    m'.toQueue = m.toQueue.pop ∧ m.toQueue.queue.head? = some a := by
  obtain ⟨hcontents, hdropped, hclosed, -⟩ := tryPop_eq_some h
  have hcapacity : m'.capacity = m.capacity := by
    unfold tryPop at h
    split at h <;> cases h
    rfl
  constructor
  · ext : 1 <;> simp [toQueue, Lib.DropOldest.pop, hcontents, hdropped, hclosed, hcapacity]
  · simp [toQueue, hcontents]

/-- Event by event, a Mailbox does what the queue does. -/
theorem step_refines (m : Mailbox α) (e : MailboxEvent α) :
    (Lib.DropOldest.machine α).step m.toQueue e.toQueue
      = (((machine α).step m e).1.toQueue, ((machine α).step m e).2) := by
  cases e with
  | deliver a => exact Prod.ext (toQueue_deliver m a).symm rfl
  | tryPop =>
      cases hpop : m.tryPop with
      | none =>
          have hnil : m.toQueue.queue = [] := tryPop_eq_none.mp hpop
          have hsame : m.toQueue.pop = m.toQueue := by
            ext : 1 <;> simp [Lib.DropOldest.pop, hnil]
          simp [machine, Lib.DropOldest.machine, MailboxEvent.toQueue, hpop, hsame, hnil]
      | some p =>
          obtain ⟨hpopped, hhead⟩ := toQueue_of_tryPop hpop
          simp [machine, Lib.DropOldest.machine, MailboxEvent.toQueue, hpop, hpopped, hhead]
  | close cause => rfl

theorem create_toQueue (capacity : Nat) :
    (create capacity : Mailbox α).toQueue
      = .create (if capacity = 0 then 1 else capacity) (create (α := α) capacity).capacity_pos := rfl

end Taps.Mailbox
