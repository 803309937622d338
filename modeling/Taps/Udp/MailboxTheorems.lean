import Taps.Udp.Lemmas.Receivers

/-!
# One Mailbox

What a Mailbox is to those who deliver to it and receive from it: a bounded queue that drops its oldest datagram, and
a wake-up for each datagram that a receiver waits for.
-/

namespace Taps

/-! ## The ring is a bounded queue -/

namespace Mailbox

variable {α : Type}

/-- Over every run, a Mailbox shows what the queue shows and ends as the queue does. The datagrams accepted are those
that left it, popped or dropped, and then those queued, in one order. Every slot that the ring uses is in its storage,
and the storage within the bound. -/
theorem ring_is_drop_oldest (capacity : Nat) (es : List (MailboxEvent α)) :
    let m := ((machine α).run (create capacity) es).1
    let log := ((machine α).run (create capacity) es).2
    (Lib.DropOldest.machine α).run
        (.create (if capacity = 0 then 1 else capacity) (create (α := α) capacity).capacity_pos)
        (es.map MailboxEvent.toQueue) = (m.toQueue, log) ∧
    (∃ left : List (α × Lib.Fate), Lib.QueueLog.accepts log = left.map Prod.fst ++ m.contents ∧
      Lib.QueueLog.pops log = (left.filter fun x => x.2 = .popped).map Prod.fst ∧
      m.dropped = left.countP fun x => x.2 = .dropped) ∧
    (Lib.QueueLog.accepts log).length = (Lib.QueueLog.pops log).length + m.dropped + m.contents.length ∧
    m.ring.slots.length ≤ m.capacity ∧
    (∀ i < m.ring.count, m.ring.head < m.ring.slots.length ∧
      Lib.wrap m.ring.slots.length m.ring.head i < m.ring.slots.length) ∧
    (m.room.1.slots.length ≤ m.capacity ∧
      Lib.wrap m.room.1.slots.length m.room.1.head m.room.1.count < m.room.1.slots.length) := by
  intro m log
  have hrun := Lib.Machine.run_simulates step_refines (create capacity) es
  rw [create_toQueue] at hrun
  obtain ⟨left, haccounts⟩ := Lib.DropOldest.run_accounts
    (.create (if capacity = 0 then 1 else capacity) (create (α := α) capacity).capacity_pos)
    (es.map MailboxEvent.toQueue)
  rw [hrun] at haccounts
  have hlength := haccounts.length_eq
  refine ⟨hrun, ⟨left, haccounts.order, haccounts.popped, ?_⟩, ?_, m.size_le, ?_, m.room.2.2, ?_⟩
  · exact haccounts.dropped.trans (Nat.zero_add _)
  · exact (Nat.zero_add _).symm.trans hlength
  · intro i hi
    have hpos := Lib.Ring.size_pos (Nat.zero_lt_of_lt hi)
    exact ⟨m.ring.head_lt hpos, Lib.wrap_lt hpos ..⟩
  · exact Lib.wrap_lt (Nat.zero_lt_of_lt m.room.2.1) ..

end Mailbox

/-! ## No wake-up is lost -/

namespace Receivers

variable {α : Type} {s : Receivers α}

/-- While a receiver waits, the Mailbox is open, and each datagram queued is one that a signalled receiver is about to
take. -/
theorem no_lost_wakeup (h : (system α).Reachable s) {i : Nat} (hi : s.receivers[i]? = some .waiting) :
    s.mailbox.closed = false ∧ s.mailbox.contents.length ≤ s.signalled := by
  have hserved := served_of_reachable h
  exact ⟨hserved.opened (waiting_pos hi), hserved.wake (waiting_pos hi)⟩

/-- Two receivers wait, and one is signalled for the one datagram. -/
def waitingEvents : List (ReceiversEvent Nat) := [.arrive, .look 0, .arrive, .look 1, .deliver 7 0]

theorem no_lost_wakeup_two : ∃ s : Receivers Nat, waitingEvents.foldlM step (create 2) = some s ∧
    s.signalled = 1 ∧ s.mailbox.closed = false ∧ s.mailbox.contents.length ≤ s.signalled := by
  have hsome : (waitingEvents.foldlM step (create 2)).isSome := rfl
  obtain ⟨s, hs⟩ := Option.isSome_iff_exists.mp hsome
  have hr : (system Nat).Reachable s := ⟨create 2, waitingEvents, ⟨2, rfl⟩, .of_foldlM (fun _ _ _ _ hst => hst) hs⟩
  refine ⟨s, hs, ?_, no_lost_wakeup (i := 1) hr ?_⟩
  · cases hs
    rfl
  · cases hs
    rfl

end Receivers

end Taps
