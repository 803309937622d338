import Taps.Listener.Calls
import Taps.Udp.Loops

/-!
# `UDPListener`

A Listener and its demultiplexer from before the first `listen()` on, with any number of calls of it: each
runs up to `resolve()` and, once that has returned, to its end. `start()` leaves a coroutine of each loop
behind, so that there is one of each for every call that has succeeded; they share the socket and the timer.
-/

namespace Taps

/-- What the functions of the socket set for an endpoint: the error of opening or binding it, that of
`local_endpoint()`, or where it is bound. -/
inductive Binding (E : Type)
  | failed (ec : ErrorCode)
  | unnamed (ec : ErrorCode)
  | bound (endpoint : E)

/-- `resolving` are the calls of `listen()` that wait for `resolve()`, `entering` those of `accept()` that
have yet to run on the strand, and `stopping` the handlers of `stop_accepting()` that are posted. `calls` and
`refused` are what was returned, by `listen()` and `stop()` and by an `accept()` that was not let through. -/
structure UDPListener (E : Type) where
  securityEnabled : Bool
  isListening : Bool
  demux : Demux E
  localEndpoint : Option E
  socketOpen : Bool
  receiveLoops : List (ReceiveLoop E)
  sweepLoops : List SweepLoop
  arrivals : List (E × List Byte)
  resolving : Nat
  entering : Nat
  stopping : Nat
  calls : List ListenerCall
  refused : List TAPSError

/-- `resolved` is the end of a `resolve()`, with the endpoints it returned. `strand` is a step of the strand
or of a Connection, that of the `i`-th receive loop or the `j`-th sweep loop where it is one of a loop's. -/
inductive UDPListenerEvent (E : Type)
  | listen
  | resolved (endpoints : List (Binding E)) (atCap : Bool)
  | accept
  | stop
  | strand (i j : Nat) (e : DemuxEvent E)

def securityUnavailable : TAPSError := ⟨.establishmentError, .noCandidates,
  .text "security was requested, but no available protocol secures an unreliable transport"⟩

namespace UDPListener

variable {E : Type}

/-- `UDPListener(ctx, local, properties, security, memory)`. -/
def create (config : DemuxConfig) (securityEnabled : Bool) : UDPListener E :=
  { securityEnabled, isListening := false, demux := .create config, localEndpoint := none
    socketOpen := false, receiveLoops := [], sweepLoops := [], arrivals := [], resolving := 0
    entering := 0, stopping := 0, calls := [], refused := [] }

/-! ## `UDPDemux::start()` -/

/-- `socket_.close()`. -/
def closeSocket (s : UDPListener E) : UDPListener E :=
  { s with socketOpen := false, receiveLoops := s.receiveLoops.map ReceiveLoop.abort }

/-- `start()`, with both coroutines at their first suspension: the second of them sets the timer. -/
def start (s : UDPListener E) (atCap : Bool) (endpoint : Binding E) : UDPListener E × Result Unit :=
  if s.socketOpen then (s.closeSocket, .error (ioError .establishmentError .alreadyOpen))
  else
    match endpoint with
    | .failed ec => (s.closeSocket, .error (ioError .establishmentError ec))
    | .unnamed ec =>
        ({ s with localEndpoint := none }.closeSocket, .error (ioError .establishmentError ec))
    | .bound endpoint =>
        ({ s with
            localEndpoint := some endpoint
            socketOpen := true
            receiveLoops := s.receiveLoops ++ [.pending atCap]
            sweepLoops := s.sweepLoops.map SweepLoop.cancel ++ [.pending] }, .ok ())

/-! ## The calls -/

def listened (s : UDPListener E) (result : Result Unit) : UDPListener E :=
  { s with calls := s.calls ++ [.listened result] }

/-- `listen()` up to its `resolve()`. -/
def listen (s : UDPListener E) : UDPListener E :=
  if s.securityEnabled then s.listened (.error securityUnavailable)
  else { s with resolving := s.resolving + 1 }

/-- `listen()` from the end of its `resolve()` on. -/
def resolved (s : UDPListener E) (endpoints : List (Binding E)) (atCap : Bool) : UDPListener E :=
  let s := { s with resolving := s.resolving - 1 }
  match endpoints with
  | [] => s.listened (.error resolutionFailed)
  | endpoint :: _ =>
      match s.start atCap endpoint with
      | (s, .error e) => s.listened (.error e)
      | (s, .ok ()) => { s with isListening := true }.listened (.ok ())

/-- `accept()` up to the strand. -/
def accept (s : UDPListener E) : UDPListener E :=
  if s.isListening then { s with entering := s.entering + 1 }
  else { s with refused := s.refused ++ [notListening] }

def stop (s : UDPListener E) : UDPListener E :=
  { s with
    isListening := false
    stopping := if s.isListening then s.stopping + 1 else s.stopping
    calls := s.calls ++ [.stopped (.ok ())] }

/-! ## The strand -/

/-- The demultiplexer with one receive loop and one sweep loop. -/
def focus (s : UDPListener E) (l : ReceiveLoop E) (w : SweepLoop) : UDPDemux E :=
  { demux := s.demux, socketOpen := s.socketOpen, receiveLoop := l, sweepLoop := w, arrivals := s.arrivals }

variable [DecidableEq E]

/-- The step sets or cancels the timer, on which every sweep loop waits. -/
def resetsTimer (t : UDPDemux E) (e : DemuxEvent E) : Bool :=
  match e, t.atShutDown e with
  | .sweep _, some _ => true
  | _, some u => u.demux.unused
  | _, none => false

def run (s : UDPListener E) (i j : Nat) (e : DemuxEvent E) : Option (UDPListener E) :=
  let t := s.focus (s.receiveLoops.getD i .returned) (s.sweepLoops.getD j .returned)
  (t.step e).map fun t' =>
    { s with
      demux := t'.demux
      socketOpen := t'.socketOpen
      receiveLoops :=
        (if t'.socketOpen then s.receiveLoops else s.receiveLoops.map ReceiveLoop.abort).set i t'.receiveLoop
      sweepLoops :=
        (if resetsTimer t e then s.sweepLoops.map SweepLoop.cancel else s.sweepLoops).set j t'.sweepLoop
      arrivals := t'.arrivals }

/-- An `accept()` runs that was let through, or a handler of `stop_accepting()` that is posted. -/
def strand (s : UDPListener E) (i j : Nat) (e : DemuxEvent E) : Option (UDPListener E) :=
  match e with
  | .accept => if s.entering = 0 then none else { s with entering := s.entering - 1 }.run i j e
  | .stop => if s.stopping = 0 then none else { s with stopping := s.stopping - 1 }.run i j e
  | e => s.run i j e

/-- One step; `none` where the event cannot happen. -/
def step (s : UDPListener E) : UDPListenerEvent E → Option (UDPListener E)
  | .listen => some s.listen
  | .resolved endpoints atCap => if s.resolving = 0 then none else some (s.resolved endpoints atCap)
  | .accept => some s.accept
  | .stop => some s.stop
  | .strand i j e => s.strand i j e

def system (config : DemuxConfig) : Lib.System (UDPListener E) (UDPListenerEvent E) where
  init s := ∃ securityEnabled, s = create config securityEnabled
  step s e s' := s.step e = some s'

/-! ## What the results say of a state and a step -/

/-- But for the call itself and what it returned, everything is as it was. -/
def Unchanged (s s' : UDPListener E) : Prop := s' = { s with resolving := s'.resolving, calls := s'.calls }

/-- If the step is one in which a `listen()` comes to open the socket, the socket is closed, and it is not
`local_endpoint()` that fails, unless no socket was bound before. -/
def OpensClosed (s : UDPListener E) (e : UDPListenerEvent E) : Prop :=
  ∀ endpoint rest atCap, e = .resolved (endpoint :: rest) atCap →
    s.socketOpen = false ∧ ((∃ ec, endpoint = .unnamed ec) → s.localEndpoint = none)

/-- What `accept()` returned with `INVALID_STATE`, in all. -/
def refusals (s : UDPListener E) : Nat := s.refused.length + s.demux.accepts.countP invalidState

/-- A datagram of a new source reaches a loop that makes a Connection of it, for which the channel is open. -/
structure Admits (s : UDPListener E) : Prop where
  socketOpen : s.socketOpen = true
  loop : ∃ l ∈ s.receiveLoops, l.Runs
  accepting : s.demux.accepting = true
  channel : s.demux.channel.isOpen = true

/-- If the step is one in which a `listen()` comes to open the socket, the Listener is not listening, and it
has not stopped if the socket is opened; and if it is the handler of a `stop()`, the Listener is not
listening again. -/
def StartsOnce (s : UDPListener E) (e : UDPListenerEvent E) : Prop :=
  (∀ endpoint rest atCap, e = .resolved (endpoint :: rest) atCap → s.isListening = false ∧
    ((∃ address, endpoint = .bound address) → s.socketOpen = false → s.demux.accepting = true)) ∧
  ∀ i j, e = .strand i j .stop → s.isListening = false

end UDPListener

end Taps
