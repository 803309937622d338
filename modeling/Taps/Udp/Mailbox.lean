import Taps.Lib.DropOldest
import Taps.Lib.Ring

/-!
# `Mailbox`

The queue of datagrams received for one passive UDP connection, and the receivers that wait on its
timer.
-/

namespace Taps

inductive CloseCause
  | owner
  | idle
  | displaced
  deriving DecidableEq, Repr

/-- `waiting` are the waits pending on the timer; `woken` are those that it has completed and whose
receivers have not looked again yet. -/
structure Mailbox (α : Type) where
  ring : Lib.Ring α
  capacity : Nat
  dropped : Nat
  closed : Bool
  cause : CloseCause
  waiting : Nat
  woken : Nat
  capacity_pos : 0 < capacity
  size_le : ring.slots.length ≤ capacity

namespace Mailbox

variable {α : Type}

/-- `Mailbox(exec, resource, capacity)`. -/
def create (capacity : Nat) : Mailbox α where
  ring := .empty
  capacity := if capacity = 0 then 1 else capacity
  dropped := 0
  closed := false
  cause := .owner
  waiting := 0
  woken := 0
  capacity_pos := by split <;> omega
  size_le := Nat.zero_le _

/-- The bound where the constructor is not given one. -/
def defaultCapacity : Nat := 256

def contents (m : Mailbox α) : List α := m.ring.contents

/-- The bound is reached, so the next `deliver()` drops the oldest datagram. -/
def Full (m : Mailbox α) : Prop := m.ring.count = m.capacity

instance (m : Mailbox α) : Decidable m.Full := inferInstanceAs (Decidable (_ = _))

/-- The number of slots after `grow()`. -/
def grown (m : Mailbox α) : Nat := min m.capacity (max 4 (m.ring.slots.length * 2))

theorem count_le_grown (m : Mailbox α) : m.ring.count ≤ m.grown := by
  have := m.ring.count_le
  have := m.size_le
  unfold grown
  omega

theorem room_of_full (m : Mailbox α) (h : m.Full) :
    (m.ring.pop (h.symm ▸ m.capacity_pos)).2.count < (m.ring.pop (h.symm ▸ m.capacity_pos)).2.slots.length ∧
      (m.ring.pop (h.symm ▸ m.capacity_pos)).2.slots.length ≤ m.capacity := by
  have hcap := m.capacity_pos
  have hcount := m.ring.count_le
  have hsize := m.size_le
  unfold Full at h
  simp only [Lib.Ring.pop, List.length_set]
  omega

theorem room_of_resize (m : Mailbox α) (h : ¬ m.Full) (h' : m.ring.count = m.ring.slots.length) :
    (m.ring.resize m.grown m.count_le_grown).count < (m.ring.resize m.grown m.count_le_grown).slots.length ∧
      (m.ring.resize m.grown m.count_le_grown).slots.length ≤ m.capacity := by
  have hsize := m.size_le
  unfold Full at h
  simp only [Lib.Ring.resize, List.length_map, List.length_range, grown]
  omega

theorem room_of_slot (m : Mailbox α) (h' : ¬ m.ring.count = m.ring.slots.length) :
    m.ring.count < m.ring.slots.length ∧ m.ring.slots.length ≤ m.capacity := by
  have hcount := m.ring.count_le
  exact ⟨by omega, m.size_le⟩

/-- The ring that `deliver()` has a free slot in: without the oldest datagram where the bound is
reached, else grown where the storage is full. -/
def room (m : Mailbox α) :
    { r : Lib.Ring α // r.count < r.slots.length ∧ r.slots.length ≤ m.capacity } :=
  if h : m.Full then
    ⟨(m.ring.pop (h.symm ▸ m.capacity_pos)).2, m.room_of_full h⟩
  else if h' : m.ring.count = m.ring.slots.length then
    ⟨m.ring.resize m.grown m.count_le_grown, m.room_of_resize h h'⟩
  else ⟨m.ring, m.room_of_slot h'⟩

def deliver (m : Mailbox α) (datagram : α) : Mailbox α :=
  if m.closed then m
  else
    { m with
      ring := m.room.1.push datagram m.room.2.1
      dropped := if m.Full then m.dropped + 1 else m.dropped
      waiting := m.waiting - 1
      woken := m.woken + min 1 m.waiting
      size_le := by simpa [Lib.Ring.push] using m.room.2.2 }

def tryPop (m : Mailbox α) : Option (α × Mailbox α) :=
  if h : m.ring.count = 0 then none
  else
    let p := m.ring.pop (Nat.pos_of_ne_zero h)
    some (p.1, { m with ring := p.2, size_le := by simpa [p, Lib.Ring.pop] using m.size_le })

def wait (m : Mailbox α) : Mailbox α := { m with waiting := m.waiting + 1 }

/-- The receiver of a completed wait goes on. -/
def resume (m : Mailbox α) : Mailbox α := { m with woken := m.woken - 1 }

def close (m : Mailbox α) (cause : CloseCause) : Mailbox α :=
  { m with
    cause := if m.closed then m.cause else cause
    closed := true
    waiting := 0
    woken := m.woken + m.waiting }

end Mailbox

/-! ## Runs of one Mailbox -/

inductive MailboxEvent (α : Type)
  | deliver (datagram : α)
  | tryPop
  | close (cause : CloseCause)

def MailboxEvent.toQueue {α : Type} : MailboxEvent α → Lib.QueueEvent α
  | .deliver datagram => .push datagram
  | .tryPop => .pop
  | .close _ => .close

namespace Mailbox

variable {α : Type}

def machine (α : Type) : Lib.Machine (Mailbox α) (MailboxEvent α) (Lib.QueueLog α) where
  step m
    | .deliver datagram => (m.deliver datagram, if m.closed then [] else [.accepted datagram])
    | .tryPop =>
        match m.tryPop with
        | none => (m, [.returned none])
        | some (datagram, m) => (m, [.returned (some datagram)])
    | .close cause => (m.close cause, [])

/-- What a Mailbox is for. -/
def toQueue (m : Mailbox α) : Lib.DropOldest α where
  queue := m.contents
  bound := m.capacity
  dropped := m.dropped
  closed := m.closed
  bound_pos := m.capacity_pos
  length_le := by
    rw [contents, Lib.Ring.length_contents]
    exact Nat.le_trans m.ring.count_le m.size_le

end Mailbox

end Taps
