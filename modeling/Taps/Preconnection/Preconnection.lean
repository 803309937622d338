import Taps.Listener.TCPListener
import Taps.Listener.UDPListener
import Taps.Preconnection.Parameters
import Taps.Tcp.Establishment
import Taps.Udp.Active

/-!
# `Preconnection`

`initiate()`, with each of its ways to a Connection. What it meets is given in advance: what the remote
endpoints resolve to and how each address answers. The pauses between the attempts of a race have no
effect here.

A TCPConnection is known by its number in the order in which the call created them.
-/

namespace Taps

/-- An address that `resolve()` has returned, and what a TCPConnection to it meets: `connected` is what
connecting throws, `secured` what the provider's `secure()` returns for a server name, and `closed` what
closing the socket sets. -/
structure Candidate (A : Type) where
  address : A
  connected : Option ErrorCode
  secured : String → Result Unit
  closed : Option ErrorCode

/-- The address takes the connection. -/
def Candidate.accepts {A : Type} (c : Candidate A) : Bool := c.connected.isNone

/-- What one `initiate()` meets: the addresses of the `i`-th remote endpoint, what `TlsProvider::create()`
returns, and what opening the socket of an ActiveUDPConnection sets. -/
structure Network (A : Type) where
  resolve : Nat → List (Candidate A)
  provider : Result Unit
  opened : Option ErrorCode

/-- `withTls` is `TAPS_WITH_TLS`, and `securityProvider` says that `security_provider_` is set. -/
structure Preconnection where
  remoteEndpoints : List RemoteEndpoint
  transportProperties : TransportProperties
  securityParameters : SecurityParameters
  memory : MessageBlockPool
  withTls : Bool
  securityProvider : Bool
  remoteEndpoints_ne : remoteEndpoints ≠ []

/-- The Connection that `initiate()` returns: the TCPConnection with this number, or one over UDP. -/
inductive InitiatedConnection (A : Type)
  | tcp (number : Nat)
  | udp (conn : ActiveUDPConnection Unit A)

/-- An `initiate()`: the Preconnection and the TCPConnections that it has created and is done with, each as
it has left it. -/
structure Initiation (A : Type) where
  preconnection : Preconnection
  connections : List (TCPAttempt A)

namespace Preconnection

/-- `Preconnection(ctx, local, remote, props, security, memory)`. -/
def create (remote : RemoteEndpoint) (props : TransportProperties) (security : SecurityParameters)
    (memory : MessageBlockPool) (withTls : Bool) : Preconnection :=
  { remoteEndpoints := [remote], transportProperties := props, securityParameters := security, memory
    withTls, securityProvider := false, remoteEndpoints_ne := by simp }

def addRemoteEndpoint (p : Preconnection) (remote : RemoteEndpoint) : Preconnection :=
  { p with remoteEndpoints := p.remoteEndpoints ++ [remote], remoteEndpoints_ne := by simp }

def setTransportProperty (p : Preconnection) (key : PropertyKey) (value : SelectionProperty) :
    Preconnection :=
  { p with transportProperties := p.transportProperties.set key value }

def primary (p : Preconnection) : RemoteEndpoint := p.remoteEndpoints.head p.remoteEndpoints_ne

/-- The name that the peer is validated against. -/
def identity (p : Preconnection) : String :=
  if p.securityParameters.serverName.isEmpty then p.primary.hostname else p.securityParameters.serverName

end Preconnection

namespace Initiation

variable {A : Type}

/-- The call is done with a TCPConnection. -/
def leave (s : Initiation A) (t : TCPAttempt A) : Initiation A :=
  { s with connections := s.connections ++ [t] }

/-- The return of a TCPConnection to the application. -/
def hand (s : Initiation A) (t : TCPAttempt A) : Initiation A × Result (InitiatedConnection A) :=
  (s.leave t, .ok (.tcp s.connections.length))

/-- `co_await conn->abort()` and the return of an error. -/
def giveUp (s : Initiation A) (c : Candidate A) (t : TCPAttempt A) (e : TAPSError) :
    Initiation A × Result (InitiatedConnection A) :=
  (s.leave (t.abort c.closed), .error e)

/-- What `security_provider_` is after it was built where it was not. -/
def provider (s : Initiation A) (net : Network A) : Result Unit :=
  if s.preconnection.securityProvider then .ok () else net.provider

def setProvider (s : Initiation A) : Initiation A :=
  { s with preconnection := { s.preconnection with securityProvider := true } }

def establishConnection (s : Initiation A) (net : Network A) (c : Candidate A) (t : TCPAttempt A) :
    Initiation A × Result (InitiatedConnection A) :=
  if s.preconnection.securityParameters.isEnabled = false then s.hand t
  else if s.preconnection.withTls then
    match s.provider net with
    | .error e => s.giveUp c t e
    | .ok () =>
        let s := s.setProvider
        match t.applySecurity s.preconnection.identity (c.secured s.preconnection.identity) with
        | (t, .error e) => s.giveUp c t e
        | (t, .ok ()) => s.hand t
  else s.giveUp c t tlsUnavailable

/-- A TCPConnection to an address, and `connect()` on it. -/
def attempt (s : Initiation A) (c : Candidate A) : TCPAttempt A × Result Unit :=
  (TCPAttempt.create s.preconnection.memory c.address).connect c.connected

def resolutionFailed (text : String) : TAPSError := ⟨.establishmentError, .resolutionFailed, .text text⟩

def initiateWithSingleEndpoint (s : Initiation A) (net : Network A) :
    Initiation A × Result (InitiatedConnection A) :=
  match net.resolve 0 with
  | [] => (s, .error (resolutionFailed "Failed to resolve remote endpoint"))
  | c :: _ =>
      match s.attempt c with
      | (t, .error e) => s.giveUp c t e
      | (t, .ok ()) => s.establishConnection net c t

/-! ## Racing -/

def allFailed (n : Nat) (last : TAPSError) : TAPSError :=
  ⟨.establishmentError, .establishmentFailed,
    last.message.prepend ("All " ++ toString n ++ " connection attempts failed: ")⟩

/-- The loop of `race_connections()` over the endpoints, of which there are `n`. -/
def raceLoop (s : Initiation A) (net : Network A) (n : Nat) (last : TAPSError) :
    List (Candidate A) → Initiation A × Result (InitiatedConnection A)
  | [] => (s, .error (allFailed n last))
  | c :: rest =>
      match s.attempt c with
      | (t, .ok ()) => s.establishConnection net c t
      | (t, .error e) => (s.leave (t.abort c.closed)).raceLoop net n e rest

def raceConnections (s : Initiation A) (net : Network A) (endpoints : List (Candidate A)) :
    Initiation A × Result (InitiatedConnection A) :=
  if endpoints.isEmpty then (s, .error (resolutionFailed "No endpoints to connect to"))
  else s.raceLoop net endpoints.length
    ⟨.establishmentError, .establishmentFailed, .text "No endpoints attempted"⟩ endpoints

def happyEyeballsRacing (s : Initiation A) (net : Network A) :
    Initiation A × Result (InitiatedConnection A) :=
  let endpoints := net.resolve 0 ++
    (List.range' 1 (s.preconnection.remoteEndpoints.length - 1)).flatMap net.resolve
  if endpoints.isEmpty then (s, .error (resolutionFailed "No addresses resolved"))
  else s.raceConnections net endpoints

/-! ## UDP -/

/-- The loop of `initiate_udp()` over the numbers of the remote endpoints. -/
def udpLoop (s : Initiation A) (net : Network A) : List Nat → Initiation A × Result (InitiatedConnection A)
  | [] => (s, .error (resolutionFailed "Failed to resolve any remote endpoint"))
  | i :: rest =>
      match net.resolve i with
      | [] => s.udpLoop net rest
      | c :: _ =>
          match (ActiveUDPConnection.create none () c.address s.preconnection.memory).openSocket net.opened with
          | (_, .error e) => (s, .error e)
          | (conn, .ok ()) => (s, .ok (.udp conn))

def initiateUdp (s : Initiation A) (net : Network A) : Initiation A × Result (InitiatedConnection A) :=
  if s.preconnection.securityParameters.isEnabled then (s, .error securityUnavailable)
  else s.udpLoop net (List.range s.preconnection.remoteEndpoints.length)

end Initiation

namespace Preconnection

variable {A : Type}

def initiate (p : Preconnection) (net : Network A) : Initiation A × Result (InitiatedConnection A) :=
  let s : Initiation A := { preconnection := p, connections := [] }
  if p.transportProperties.requiresReliableTransport = false then s.initiateUdp net
  else if p.remoteEndpoints.length = 1 then s.initiateWithSingleEndpoint net
  else s.happyEyeballsRacing net

/-! ## What the results say of an establishment -/

/-- The addresses of every remote endpoint, in order. -/
def candidates (p : Preconnection) (net : Network A) : List (Candidate A) :=
  (List.range p.remoteEndpoints.length).flatMap net.resolve

/-- The remote endpoint of each of these addresses. -/
def origins (p : Preconnection) (net : Network A) : List RemoteEndpoint :=
  p.remoteEndpoints.zipIdx.flatMap fun r => (net.resolve r.2).map fun _ => r.1

/-- If there is one remote endpoint, the first of its addresses accepts, or none of them does. -/
def FirstDecides (p : Preconnection) (net : Network A) : Prop :=
  p.remoteEndpoints.length = 1 → ∀ c, (net.resolve 0).head? = some c → c.accepts = false →
    ∀ x ∈ net.resolve 0, x.accepts = false

/-- There is a provider for a TCPConnection that is connected: it is there, or `TlsProvider::create()` succeeds. -/
def HasProvider (p : Preconnection) (net : Network A) : Prop :=
  p.withTls = true ∧ (p.securityProvider = true ∨ net.provider = .ok ())

/-- The remote endpoint of the first address that accepts, and the address. -/
def winner (p : Preconnection) (net : Network A) : Option (RemoteEndpoint × Candidate A) :=
  ((p.origins net).zip (p.candidates net)).find? fun w => w.2.accepts

/-- If TLS is applied to a TCPConnection that is connected, the first address that accepts is one of a remote
endpoint with the hostname of the first one. -/
def NamesWinner (p : Preconnection) (net : Network A) : Prop :=
  p.transportProperties.requiresReliableTransport = true → p.HasProvider net → ∀ w, p.winner net = some w →
    w.1.hostname = p.primary.hostname

/-- Nothing fails on the way to a secured Connection to this address. -/
def CanSecure (p : Preconnection) (net : Network A) (c : Candidate A) : Prop :=
  c.connected = none ∧ p.HasProvider net ∧ c.secured p.identity = .ok ()

end Preconnection

namespace Initiation

variable {A : Type}

/-- How a search through the addresses ends: with a Connection to the first one that accepts, or with the
error that says whether there was one to try; and every other TCPConnection is aborted. -/
def Selects (s : Initiation A) (r : Result (InitiatedConnection A)) (candidates : List (Candidate A)) :
    Prop :=
  (match candidates.find? Candidate.accepts with
    | some c => ∃ n t, r = .ok (.tcp n) ∧ s.connections[n]? = some t ∧ t.remoteEndpoint = some c.address ∧
        t.Established
    | none => ∃ e, r = .error e ∧ e.event = .establishmentError ∧
        e.reason = if candidates.isEmpty then .resolutionFailed else .establishmentFailed) ∧
  ∀ (n : Nat) (t : TCPAttempt A), s.connections[n]? = some t → r ≠ .ok (.tcp n) → t.Aborted

/-- Every name that a peer was validated against is that of the remote endpoint whose address the Connection
is to. -/
def Identifies (s : Initiation A) (origins : List RemoteEndpoint) : Prop :=
  ∀ (n : Nat) (t : TCPAttempt A) (name : String), s.connections[n]? = some t → t.serverName = some name →
    ∃ r, origins[n]? = some r ∧ name = r.hostname

/-- The call returns a TCPConnection on which `apply_security()` has succeeded, or none; and each one that it
has created, to the address with its number, is that one, or it is aborted and not returned, where connecting,
`TlsProvider::create()` or the handshake has failed. -/
structure KeepsSecurity (s : Initiation A) (r : Result (InitiatedConnection A)) (p : Preconnection)
    (net : Network A) : Prop where
  returned : ∀ conn, r = .ok conn → ∃ n t, conn = .tcp n ∧ s.connections[n]? = some t ∧ t.secured = true ∧
    t.Established
  failed : ∀ (n : Nat) (t : TCPAttempt A), s.connections[n]? = some t →
    ∃ c, (p.candidates net)[n]? = some c ∧ t.remoteEndpoint = some c.address ∧
      (p.CanSecure net c ∧ r = .ok (.tcp n) ∨ ¬ p.CanSecure net c ∧ r ≠ .ok (.tcp n) ∧ t.Aborted)

end Initiation

end Taps
