import Mathlib.Algebra.Ring.Nat
import Taps.Listener.Calls
import Taps.Listener.SecureAcceptor

/-!
# `TCPListener`

A Listener from before the first `listen()` on, with any number of calls of it: each runs up to `resolve()`
and, once that has returned, to its end. With security it gives its acceptor to a `SecureAcceptor`, which
goes on after a `stop()` until the handler that this posts has run. Closing the acceptor completes the
accepts that are pending.
-/

namespace Taps

/-- What the functions of the acceptor throw for one endpoint: `open()`, the three that follow it, and the
`close()` after one of them has thrown. -/
structure BindAttempt where
  opened : Option ErrorCode
  bound : Option ErrorCode
  closed : Option ErrorCode

/-- An `accept()` without security: at its accept, or what it has returned. A Connection is known by its
number in the order in which they were accepted. -/
inductive AcceptCall
  | accepting (op : Lib.Operation ErrorCode Unit)
  | returned (result : Result Nat)

def AcceptCall.cancel : AcceptCall → AcceptCall
  | accepting op => accepting (op.cancel .operationAborted)
  | c => c

def AcceptCall.refused : AcceptCall → Bool
  | accepting _ => false
  | returned r => invalidState r

/-- `secures` are the SecureAcceptors that were started, of which `secure_` is the last. `resolving` are the
calls of `listen()` that wait for `resolve()`; `entering` and `stopping` say of which SecureAcceptor an
`accept()` has yet to run on the strand, and a handler of `stop()` is posted. `calls` is what `listen()` and
`stop()` returned. -/
structure TCPListener where
  securityEnabled : Bool
  withTls : Bool
  isListening : Bool
  acceptorOpen : Bool
  accepts : List AcceptCall
  connections : Nat
  secures : List SecureAcceptor
  resolving : Nat
  entering : List Nat
  stopping : List Nat
  calls : List ListenerCall

/-- `resolved` is the end of a `resolve()`, with an attempt for each endpoint, what `TlsProvider::create()`
returns, and what closing the acceptor after that throws; `ec` of `stop` is the same. `complete` and `resume`
are of the `i`-th `accept()` without security, and `secure` is a step of the `j`-th SecureAcceptor. -/
inductive TCPListenerEvent
  | listen
  | resolved (attempts : List BindAttempt) (provider : Result Unit) (ec : Option ErrorCode)
  | accept
  | stop (ec : Option ErrorCode)
  | complete (i : Nat) (outcome : Except ErrorCode Unit)
  | resume (i : Nat)
  | secure (j : Nat) (e : AcceptorEvent)

def alreadyListening : TAPSError := ⟨.establishmentError, .invalidState, .text "Already listening"⟩

def bindFailed (last : ErrorCode) : TAPSError :=
  ⟨.establishmentError, reasonFrom last, .textCode "Failed to bind to any endpoint: " last⟩

def tlsUnavailable : TAPSError := ⟨.establishmentError, .noCandidates,
  .text "SecurityParameters request TLS but this build has TAPS_WITH_TLS=OFF"⟩

namespace TCPListener

/-- `TCPListener(ctx, local, properties, security, memory)`. -/
def create (securityEnabled withTls : Bool) : TCPListener :=
  { securityEnabled, withTls, isListening := false, acceptorOpen := false, accepts := [], connections := 0
    secures := [], resolving := 0, entering := [], stopping := [], calls := [] }

/-- `acceptor_.close()`. -/
def closeAcceptor (s : TCPListener) : TCPListener :=
  { s with acceptorOpen := false, accepts := s.accepts.map AcceptCall.cancel }

/-! ## `listen()` -/

inductive BindResult
  | bound
  | failed (last : ErrorCode)
  | threw (ec : ErrorCode)

/-- `open()` to `listen()` on the acceptor, up to the one that throws. -/
def tryBind (s : TCPListener) (a : BindAttempt) : TCPListener × Option ErrorCode :=
  if s.acceptorOpen then (s, some .alreadyOpen)
  else
    match a.opened with
    | some ec => (s, some ec)
    | none => ({ s with acceptorOpen := true }, a.bound)

/-- The loop over the endpoints; a `close()` that throws ends it. -/
def bindLoop (s : TCPListener) (last : ErrorCode) : List BindAttempt → TCPListener × BindResult
  | [] => (s, .failed last)
  | a :: rest =>
      match s.tryBind a with
      | (s, none) => (s, .bound)
      | (s, some ec) =>
          if s.acceptorOpen then
            match a.closed with
            | some ec => (s.closeAcceptor, .threw ec)
            | none => s.closeAcceptor.bindLoop ec rest
          else s.bindLoop ec rest

/-- `listen()` once the acceptor is bound and listens: with security, a SecureAcceptor takes it over. -/
def begin (s : TCPListener) (provider : Result Unit) (ec : Option ErrorCode) : TCPListener × Result Unit :=
  if s.securityEnabled = false then ({ s with isListening := true }, .ok ())
  else
    match (if s.withTls then provider else .error tlsUnavailable), ec with
    | .ok (), _ =>
        ({ s with secures := s.secures ++ [.create], acceptorOpen := false, isListening := true }, .ok ())
    | .error e, none => (s.closeAcceptor, .error e)
    | .error _, some ec => (s.closeAcceptor, .error (ioError .establishmentError ec))

def listened (s : TCPListener) (result : Result Unit) : TCPListener :=
  { s with calls := s.calls ++ [.listened result] }

/-- `listen()` up to its `resolve()`. -/
def listen (s : TCPListener) : TCPListener :=
  if s.isListening then s.listened (.error alreadyListening) else { s with resolving := s.resolving + 1 }

/-- `listen()` from the end of its `resolve()` on. -/
def resolved (s : TCPListener) (attempts : List BindAttempt) (provider : Result Unit)
    (ec : Option ErrorCode) : TCPListener :=
  let s := { s with resolving := s.resolving - 1 }
  match attempts with
  | [] => s.listened (.error resolutionFailed)
  | a :: rest =>
      match s.bindLoop (.other 0) (a :: rest) with
      | (s, .threw ec) => s.listened (.error (ioError .establishmentError ec))
      | (s, .failed last) => s.listened (.error (bindFailed last))
      | (s, .bound) =>
          let (s, r) := s.begin provider ec
          s.listened r

/-! ## `accept()` and `stop()` -/

/-- The `async_accept()` of an `accept()`. -/
def nextAccept (s : TCPListener) : AcceptCall := .accepting (.start s.acceptorOpen .badDescriptor)

def accept (s : TCPListener) : TCPListener :=
  if s.isListening = false then { s with accepts := s.accepts ++ [.returned (.error notListening)] }
  else if s.secures = [] then { s with accepts := s.accepts ++ [s.nextAccept] }
  else { s with entering := s.entering ++ [s.secures.length - 1] }

/-- An `accept()` from the completion of its accept on. -/
def resumeAccept (s : TCPListener) (i : Nat) : Except ErrorCode Unit → TCPListener
  | .error .connectionAborted => { s with accepts := s.accepts.set i s.nextAccept }
  | .error .operationAborted => { s with accepts := s.accepts.set i (.returned (.error listenerStopped)) }
  | .error ec => { s with accepts := s.accepts.set i (.returned (.error (ioError .establishmentError ec))) }
  | .ok () =>
      { s with accepts := s.accepts.set i (.returned (.ok s.connections)), connections := s.connections + 1 }

/-- `ec` is what closing the acceptor throws, if it is open. -/
def stop (s : TCPListener) (ec : Option ErrorCode) : TCPListener :=
  if s.isListening = false then { s with calls := s.calls ++ [.stopped (.ok ())] }
  else if s.secures = [] then
    match (if s.acceptorOpen then ec else none) with
    | some ec =>
        { s.closeAcceptor with
          calls := s.calls ++ [.stopped (.error ⟨.establishmentError, .internalError, .code ec⟩)] }
    | none => { s.closeAcceptor with isListening := false, calls := s.calls ++ [.stopped (.ok ())] }
  else
    { s with
      isListening := false
      stopping := s.stopping ++ [s.secures.length - 1]
      calls := s.calls ++ [.stopped (.ok ())] }

/-! ## Steps -/

/-- A step of the `j`-th SecureAcceptor; its `accept()` runs where one was let through, and the handler of
`stop()` where it is posted. -/
def secure (s : TCPListener) (j : Nat) (e : AcceptorEvent) : Option TCPListener :=
  match s.secures[j]? with
  | none => none
  | some a =>
      (a.step e).bind fun a' =>
        match e with
        | .accept =>
            if j ∈ s.entering then
              some { s with secures := s.secures.set j a', entering := s.entering.erase j }
            else none
        | .stop =>
            if j ∈ s.stopping then
              some { s with secures := s.secures.set j a', stopping := s.stopping.erase j }
            else none
        | _ => some { s with secures := s.secures.set j a' }

/-- One step; `none` where the event cannot happen. -/
def step (s : TCPListener) : TCPListenerEvent → Option TCPListener
  | .listen => some s.listen
  | .resolved attempts provider ec =>
      if s.resolving = 0 then none else some (s.resolved attempts provider ec)
  | .accept => some s.accept
  | .stop ec => some (s.stop ec)
  | .complete i outcome =>
      match s.accepts[i]?, outcome with
      | some (.accepting .pending), .error .operationAborted => none
      | some (.accepting .pending), outcome =>
          some { s with accepts := s.accepts.set i (.accepting (.completed outcome)) }
      | _, _ => none
  | .resume i =>
      match s.accepts[i]? with
      | some (.accepting (.completed outcome)) => some (s.resumeAccept i outcome)
      | _ => none
  | .secure j e => s.secure j e

def system : Lib.System TCPListener TCPListenerEvent where
  init s := ∃ securityEnabled withTls, s = create securityEnabled withTls
  step s e s' := s.step e = some s'

/-! ## What the results say of a state and a step -/

/-- But for the call itself and what it returned, everything is as it was. -/
def Unchanged (s s' : TCPListener) : Prop := s' = { s with resolving := s'.resolving, calls := s'.calls }

/-- If the step is one in which a `listen()` comes to open the acceptor, the acceptor is closed. -/
def OpensClosed (s : TCPListener) (e : TCPListenerEvent) : Prop :=
  ∀ a rest provider ec, e = .resolved (a :: rest) provider ec → s.acceptorOpen = false

/-- No `accept()` has yet to return. -/
structure NoAccept (s : TCPListener) : Prop where
  accepts : ∀ op, .accepting op ∉ s.accepts
  entering : s.entering = []
  receivers : ∀ a ∈ s.secures, a.ready.receivers = 0

/-- Each call of `listen()`, `accept()` or `stop()` has completed before the next. -/
def OneAtATime (s : TCPListener) (e : TCPListenerEvent) : Prop :=
  (e = .listen ∨ e = .accept ∨ ∃ ec, e = .stop ec) → s.resolving = 0 ∧ s.NoAccept

/-- What `accept()` returned with `INVALID_STATE`, in all. -/
def refusals (s : TCPListener) : Nat :=
  s.accepts.countP AcceptCall.refused + (s.secures.map fun a => a.accepts.countP invalidState).sum

/-- A peer's connection reaches the acceptor, from which an `accept()` takes it; with security, the accept
loop of the SecureAcceptor that `accept()` waits for, whose channel is open. -/
def Admits (s : TCPListener) : Prop :=
  if s.securityEnabled then ∃ a, s.secures.getLast? = some a ∧ a.Admits
  else s.secures = [] ∧ s.acceptorOpen = true

/-- From here on, a peer can connect and an `accept()` return its Connection, with no further `listen()` or
`stop()`. -/
def Serves (s : TCPListener) : Prop :=
  ∃ es s', system.Run s es s' ∧ s'.calls = s.calls ∧
    (.returned (.ok s.connections) ∈ s'.accepts ∨
      ∃ (j : Nat) (a a' : SecureAcceptor) (c : Nat), s.secures[j]? = some a ∧ s'.secures[j]? = some a' ∧
        a.connections ≤ c ∧ .ok c ∈ a'.accepts)

end TCPListener

end Taps
