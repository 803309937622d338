import Taps.Lib.System
import Taps.Udp.Peer

/-!
# The receivers of one Mailbox

Any number of `receive()`s of one passive connection, next to what delivers to its Mailbox and closes it, all of them
step by step on the executor of the Mailbox. Of the timer it is assumed that `cancel_one()` signals one of the
pending waits, if there is one, and `cancel()` all of them.
-/

namespace Taps

/-- A receive is about to look at the Mailbox for the first time, waits, is signalled and about to look again, or
has returned. -/
inductive Receiver (α : Type)
  | arrived
  | waiting
  | signalled
  | returned (result : Result α)

namespace Receiver

variable {α : Type}

def isWaiting : Receiver α → Bool
  | .waiting => true
  | _ => false

def isSignalled : Receiver α → Bool
  | .signalled => true
  | _ => false

/-- `cancel()`, for one receiver. -/
def signal : Receiver α → Receiver α
  | .waiting => .signalled
  | r => r

end Receiver

structure Receivers (α : Type) where
  conn : PassiveUDPConnection
  mailbox : Mailbox α
  receivers : List (Receiver α)

/-- `deliver` says which receiver `cancel_one()` signals, if one waits. `shut` is what `close()` and `abort()` on the
connection do at once; they have the Mailbox closed later. -/
inductive ReceiversEvent (α : Type)
  | deliver (datagram : α) (signalled : Nat)
  | close (cause : CloseCause)
  | shut (aborted : Bool)
  | arrive
  | look (i : Nat)

namespace Receivers

variable {α : Type}

def create (capacity : Nat) : Receivers α :=
  { conn := .create, mailbox := .create capacity, receivers := [] }

def waiting (s : Receivers α) : Nat := s.receivers.countP Receiver.isWaiting

/-- The receivers that are signalled and have not run yet. -/
def signalled (s : Receivers α) : Nat := s.receivers.countP Receiver.isSignalled

/-- The receiver `i` looks at the Mailbox, from the state `mailbox` of it. -/
def turn (s : Receivers α) (mailbox : Mailbox α) (i : Nat) : Receivers α :=
  let (conn, mailbox, result) := s.conn.receive mailbox
  { conn, mailbox
    receivers := s.receivers.set i (match result with
      | none => .waiting
      | some result => .returned result) }

def step (s : Receivers α) : ReceiversEvent α → Option (Receivers α)
  | .deliver datagram i =>
      let t := { s with mailbox := s.mailbox.deliver datagram }
      if s.mailbox.closed ∨ s.waiting = 0 then some t
      else
        match s.receivers[i]? with
        | some .waiting => some { t with receivers := s.receivers.set i .signalled }
        | _ => none
  | .close cause => some { s with mailbox := s.mailbox.close cause, receivers := s.receivers.map Receiver.signal }
  | .shut aborted =>
      some { s with conn := { s.conn with state := .closed, aborted := s.conn.aborted || aborted } }
  | .arrive => some { s with receivers := s.receivers ++ [.arrived] }
  | .look i =>
      match s.receivers[i]? with
      | some .arrived => some (s.turn s.mailbox i)
      | some .signalled => some (s.turn s.mailbox.resume i)
      | _ => none

/-- The runs for a Mailbox of some capacity. -/
def system (α : Type) : Lib.System (Receivers α) (ReceiversEvent α) where
  init s := ∃ capacity, s = create capacity
  step s e s' := s.step e = some s'

end Receivers

end Taps
