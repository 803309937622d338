import Taps.Listener.SecureAcceptor

/-!
# What becomes of the sockets that a `SecureAcceptor` accepts

A SecureAcceptor with what its handshakes and its accept loop have sent to `accept()` so far, and the Connections
that were not sent.
-/

namespace Taps

/-- `ready` is what was sent while the channel was open, in order. `failed` are the Connections whose handshake has
failed, and `dropped` those whose handshake ended after the channel was closed. -/
structure AcceptorHistory where
  acceptor : SecureAcceptor
  ready : List (Except ErrorCode Nat)
  failed : List Nat
  dropped : List Nat

/-- What resuming `accept_loop()` sends. -/
def AcceptLoop.reports : AcceptLoop → List ErrorCode
  | .accepting (.completed (.error .operationAborted)) => []
  | .accepting (.completed (.error .connectionAborted)) => []
  | .accepting (.completed (.error ec)) => [ec]
  | _ => []

namespace AcceptorHistory

def create : AcceptorHistory := { acceptor := .create, ready := [], failed := [], dropped := [] }

/-- What a step adds to the history. -/
def log (h : AcceptorHistory) : AcceptorEvent → AcceptorHistory
  | .secured c true =>
      if h.acceptor.ready.isOpen then { h with ready := h.ready ++ [.ok c] }
      else { h with dropped := h.dropped ++ [c] }
  | .secured c false => { h with failed := h.failed ++ [c] }
  | .resume =>
      if h.acceptor.ready.isOpen then { h with ready := h.ready ++ h.acceptor.loop.reports.map .error } else h
  | _ => h

def step (h : AcceptorHistory) (e : AcceptorEvent) : Option AcceptorHistory :=
  (h.acceptor.step e).map fun acceptor => { h.log e with acceptor }

def system : Lib.System AcceptorHistory AcceptorEvent where
  init h := h = create
  step h e h' := h.step e = some h'

/-! ## What the results say of a state -/

/-- The Connections that were sent. -/
def sent (h : AcceptorHistory) : List Nat := h.ready.filterMap Except.toOption

/-- What `accept()` has returned, but that the Listener has stopped. -/
def returned (h : AcceptorHistory) : List (Result Nat) :=
  h.acceptor.accepts.filter fun r => r ≠ .error listenerStopped

/-- What was sent was returned, in order, or it is still to be; an `accept()` waits only for want of it. Each socket
that was accepted is in one place: its handshake goes on or has failed, or its Connection was sent or, once the channel
was closed, dropped. -/
structure Conserves (h : AcceptorHistory) : Prop where
  order : h.returned ++ h.acceptor.ready.queue.map SecureAcceptor.accepted = h.ready.map SecureAcceptor.accepted
  waiting : 0 < h.acceptor.ready.receivers → h.acceptor.ready.queue = []
  places : (h.acceptor.handshakes ++ h.sent ++ h.failed ++ h.dropped).Perm (List.range h.acceptor.connections)
  dropped : h.acceptor.ready.isOpen = true → h.dropped = []

end AcceptorHistory

end Taps
