import Taps.Listener.TCPListener
import Taps.Tcp.Establishment

/-!
# The TCPConnections of a TCP Listener

A `TCPListener` with the TCPConnections that its SecureAcceptors have made of the sockets they accepted:
`secure()` constructs one, applies the security to it and, where that fails, aborts it. Nothing that the
Listener does depends on them.
-/

namespace Taps

/-- What the end of a handshake brings: what the provider's `secure()` returns, and what closing the socket
sets if the TCPConnection is aborted. -/
structure Handshake where
  result : Result Unit
  closed : Option ErrorCode

/-- The handshake that the event ends, if it does, ends in this way. -/
def Handshake.answers (h : Handshake) : TCPListenerEvent → Bool
  | .secure _ (.secured _ success) => success == h.result.isOk
  | _ => true

/-- `connections j` are the TCPConnections of the `j`-th SecureAcceptor, each under its number. -/
structure SecuredListener where
  listener : TCPListener
  memory : MessageBlockPool
  connections : Nat → List (TCPAttempt Unit)

/-- `secure()` from `apply_security()` on. -/
def TCPAttempt.finishHandshake (t : TCPAttempt Unit) (h : Handshake) : TCPAttempt Unit :=
  match t.applySecurity "" h.result with
  | (t, .ok ()) => t
  | (t, .error _) => t.abort h.closed

/-- The TCPConnections of a SecureAcceptor after one of its steps. -/
def SecureAcceptor.connectionsAfter (a : SecureAcceptor) (memory : MessageBlockPool) (h : Handshake)
    (connections : List (TCPAttempt Unit)) : AcceptorEvent → List (TCPAttempt Unit)
  | .resume =>
      if a.loop = .accepting (.completed (.ok ())) then connections ++ [.ofSocket memory] else connections
  | .secured connection _ => connections.modify connection fun t => t.finishHandshake h
  | _ => connections

namespace SecuredListener

def create (securityEnabled withTls : Bool) (memory : MessageBlockPool) : SecuredListener :=
  { listener := .create securityEnabled withTls, memory, connections := fun _ => [] }

def connectionsAfter (s : SecuredListener) (h : Handshake) : TCPListenerEvent → Nat → List (TCPAttempt Unit)
  | .secure j e =>
      match s.listener.secures[j]? with
      | some a => Function.update s.connections j (a.connectionsAfter s.memory h (s.connections j) e)
      | none => s.connections
  | _ => s.connections

/-- One step of the Listener; `none` where the event cannot happen. -/
def step (s : SecuredListener) (e : TCPListenerEvent) (h : Handshake) : Option SecuredListener :=
  if h.answers e then
    (s.listener.step e).map fun listener => { s with listener, connections := s.connectionsAfter h e }
  else none

def system : Lib.System SecuredListener (TCPListenerEvent × Handshake) where
  init s := ∃ securityEnabled withTls memory, s = create securityEnabled withTls memory
  step s e s' := s.step e.1 e.2 = some s'

/-! ## What the results say of a state -/

/-- What `accept()` has returned are TCPConnections on which `apply_security()` has succeeded. -/
structure KeepsSecurity (s : SecuredListener) : Prop where
  plain : ∀ n, .returned (.ok n) ∉ s.listener.accepts
  accepted : ∀ (j : Nat) (a : SecureAcceptor) (c : Nat), s.listener.secures[j]? = some a → .ok c ∈ a.accepts →
    ∃ t, (s.connections j)[c]? = some t ∧ t.secured = true ∧ t.Established

/-- The `c`-th TCPConnection of the `j`-th SecureAcceptor is aborted, and no `accept()` has returned it. -/
def Dropped (s : SecuredListener) (j c : Nat) : Prop :=
  (∃ t, (s.connections j)[c]? = some t ∧ t.Aborted) ∧
    ∀ a, s.listener.secures[j]? = some a → .ok c ∉ a.accepts

end SecuredListener

end Taps
