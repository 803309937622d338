import Taps.Error
import Taps.Lib.Channel
import Taps.Lib.Operation
import Taps.Lib.System

/-!
# `SecureAcceptor`

The accept loop of a TCP Listener with security, the handshakes that it starts and the channel through
which their Connections go to `accept()`. Closing the acceptor completes an accept that is pending; one
that has completed, and whose result `accept_loop()` has yet to look at, stays as it is. An accept
started on the closed acceptor completes with `bad_descriptor`, and a send to the closed channel
completes at once.

A Connection is known by its number in the order in which the sockets were accepted.
-/

namespace Taps

/-- Where `accept_loop()` is: at its accept; at the send of an error, which waits in the channel or has
completed; or at its end. -/
inductive AcceptLoop
  | accepting (op : Lib.Operation ErrorCode Unit)
  | sending
  | sent
  | returned
  deriving DecidableEq

/-- The loop goes on to another accept. -/
def AcceptLoop.Runs : AcceptLoop → Prop
  | .accepting op => op ≠ .completed (.error .operationAborted)
  | .sending => True
  | .sent => True
  | .returned => False

/-- Who sends into the channel. -/
inductive Sender
  | loop
  | handshake (connection : Nat)
  deriving DecidableEq, Repr

/-- `handshakes` are the Connections that `secure()` has at its handshake, `connections` is the number of
sockets accepted, and `accepts` are the results of `accept()`. -/
structure SecureAcceptor where
  acceptorOpen : Bool
  loop : AcceptLoop
  ready : Lib.Channel Sender (Except ErrorCode Nat)
  handshakes : List Nat
  connections : Nat
  accepts : List (Result Nat)

def listenerStopped : TAPSError := ⟨.establishmentError, .invalidState, .text "Listener stopped"⟩

/-- `complete` completes the pending accept and `resume` resumes `accept_loop()`. `secured` is the end of
a handshake, `accept` the call, and `stop` the handler that `stop()` posts. -/
inductive AcceptorEvent
  | complete (outcome : Except ErrorCode Unit)
  | resume
  | secured (connection : Nat) (success : Bool)
  | accept
  | stop

namespace SecureAcceptor

/-- After `start()`, with the loop at its first accept. -/
def create : SecureAcceptor :=
  { acceptorOpen := true, loop := .accepting .pending, ready := .empty 100, handshakes := []
    connections := 0, accepts := [] }

/-- What `accept()` returns for an element of the channel. -/
def accepted : Except ErrorCode Nat → Result Nat
  | .ok connection => .ok connection
  | .error ec => .error (ioError .establishmentError ec)

/-- `async_send` on the channel. -/
def send (s : SecureAcceptor) (sender : Sender) (x : Except ErrorCode Nat) : SecureAcceptor :=
  { s with
    ready := (s.ready.send sender x).1
    accepts := if (s.ready.send sender x).2 = .handed then s.accepts ++ [accepted x] else s.accepts }

/-- The next `async_accept` of `accept_loop()`. -/
def nextAccept (s : SecureAcceptor) : SecureAcceptor :=
  { s with loop := .accepting (.start s.acceptorOpen .badDescriptor) }

/-- The send of an error to `accept()`, and the suspension on it. -/
def report (s : SecureAcceptor) (ec : ErrorCode) : SecureAcceptor :=
  { s.send .loop (.error ec) with
    loop := if (s.ready.send .loop (.error ec)).2 = .waits then .sending else .sent }

/-- `accept_loop()` from the completion of its accept on. -/
def resumeAccept (s : SecureAcceptor) : Except ErrorCode Unit → SecureAcceptor
  | .error .operationAborted => { s with loop := .returned }
  | .error .connectionAborted => s.nextAccept
  | .error ec => s.report ec
  | .ok () =>
      { s with handshakes := s.handshakes ++ [s.connections]
               connections := s.connections + 1 }.nextAccept

/-- `secure()` from the end of its handshake on; a Connection whose handshake failed is aborted. -/
def secured (s : SecureAcceptor) (connection : Nat) (success : Bool) : SecureAcceptor :=
  let s := { s with handshakes := s.handshakes.erase connection }
  if success then s.send (.handshake connection) (.ok connection) else s

/-- `accept()` on the strand. A send that it completes is that of a handshake, which ends with it, or
that of the loop. -/
def accept (s : SecureAcceptor) : SecureAcceptor :=
  let s' := { s with ready := s.ready.receive.1 }
  match s.ready.receive.2 with
  | .taken x sender =>
      { s' with
        accepts := s.accepts ++ [accepted x]
        loop := if sender = some .loop then .sent else s.loop }
  | .closed => { s' with accepts := s.accepts ++ [.error listenerStopped] }
  | .waits => s'

/-- The handler that `stop()` posts. -/
def stop (s : SecureAcceptor) : SecureAcceptor :=
  { s with
    acceptorOpen := false
    loop := match s.loop with
      | .accepting op => .accepting (op.cancel .operationAborted)
      | l => l
    ready := s.ready.close
    accepts := s.accepts ++ List.replicate s.ready.receivers (.error listenerStopped) }

/-- One step; `none` where the event cannot happen. -/
def step (s : SecureAcceptor) : AcceptorEvent → Option SecureAcceptor
  | .complete outcome =>
      if s.loop = .accepting .pending ∧ outcome ≠ .error .operationAborted then
        some { s with loop := .accepting (.completed outcome) }
      else none
  | .resume =>
      match s.loop with
      | .accepting (.completed outcome) => some (s.resumeAccept outcome)
      | .sent => some s.nextAccept
      | _ => none
  | .secured connection success =>
      if connection ∈ s.handshakes then some (s.secured connection success) else none
  | .accept => some s.accept
  | .stop => some s.stop

def system : Lib.System SecureAcceptor AcceptorEvent where
  init s := s = create
  step s e s' := s.step e = some s'

/-! ## What the results say of a state and a step -/

/-- If the step is the first run of the handler of `stop()`, the accept of `accept_loop()` is pending. -/
def AcceptWaits (s : SecureAcceptor) (e : AcceptorEvent) : Prop :=
  e = .stop → s.acceptorOpen = true → s.loop = .accepting .pending

/-- Once the handler of `stop()` has run, `accept_loop()` has no accept but the one that closing the
acceptor completed, and when it is resumed it returns. -/
def AcceptEnds (s : SecureAcceptor) : Prop :=
  s.acceptorOpen = false →
    (s.loop = .returned ∨ s.loop = .accepting (.completed (.error .operationAborted))) ∧
    ∀ s', s.step .resume = some s' → s'.loop = .returned

/-- A socket is accepted by the loop, and once it is secured its Connection goes to `accept()` through the
open channel. -/
structure Admits (s : SecureAcceptor) : Prop where
  acceptorOpen : s.acceptorOpen = true
  loop : s.loop.Runs
  ready : s.ready.isOpen = true

end SecureAcceptor

end Taps
