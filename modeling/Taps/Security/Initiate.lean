import Taps.Lib.System
import Taps.Preconnection.Preconnection
import Taps.Security.TlsProvider

/-!
# A Preconnection with its `TlsProvider`

The calls of a Preconnection in a build with TLS, one after the other. The provider is made by the first
`initiate()` that needs it, and it stays. What the libraries do may differ from one call to the next.
-/

namespace Taps

/-- An address and what a connection to it meets: `peer` is how a handshake with it ends, given its start. -/
structure TlsCandidate (A : Type) where
  address : A
  connected : Option ErrorCode
  closed : Option ErrorCode
  peer : TlsSession → Except ErrorCode (List Byte)

structure TlsNetwork (A : Type) where
  lib : TlsLibrary
  resolve : Nat → List (TlsCandidate A)
  opened : Option ErrorCode

/-- `provider` is `security_provider_`. -/
structure TlsPreconnection where
  remoteEndpoints : List RemoteEndpoint
  transportProperties : TransportProperties
  parameters : TlsParameters
  memory : MessageBlockPool
  provider : Option TlsProvider
  remoteEndpoints_ne : remoteEndpoints ≠ []

inductive TlsPreconnectionEvent (A : Type)
  | addRemoteEndpoint (remote : RemoteEndpoint)
  | setTransportProperty (key : PropertyKey) (value : SelectionProperty)
  | initiate (net : TlsNetwork A)

namespace TlsPreconnection

variable {A : Type}

theorem singleton_ne_nil (remote : RemoteEndpoint) : [remote] ≠ [] := List.cons_ne_nil _ _

def create (remote : RemoteEndpoint) (props : TransportProperties) (parameters : TlsParameters)
    (memory : MessageBlockPool) : TlsPreconnection :=
  { remoteEndpoints := [remote], transportProperties := props, parameters, memory, provider := none
    remoteEndpoints_ne := singleton_ne_nil remote }

/-- The Preconnection without what only the provider reads. -/
def plain (s : TlsPreconnection) : Preconnection :=
  { remoteEndpoints := s.remoteEndpoints, transportProperties := s.transportProperties
    securityParameters := s.parameters.toSecurityParameters, memory := s.memory, withTls := true
    securityProvider := s.provider.isSome, remoteEndpoints_ne := s.remoteEndpoints_ne }

/-- The provider that `establish_connection()` goes on with. -/
def getProvider (s : TlsPreconnection) (lib : TlsLibrary) : Result TlsProvider :=
  match s.provider with
  | some p => .ok p
  | none => TlsProvider.create lib s.parameters .client

/-- What an `initiate()` meets, with what the provider makes of it. -/
def network (s : TlsPreconnection) (net : TlsNetwork A) : Network A where
  resolve i := (net.resolve i).map fun c =>
    { address := c.address, connected := c.connected, closed := c.closed
      secured := fun name => s.getProvider net.lib >>= fun p => p.secureClient net.lib c.peer name }
  provider := (s.getProvider net.lib).map fun _ => ()
  opened := net.opened

def initiate (s : TlsPreconnection) (net : TlsNetwork A) :
    TlsPreconnection × Initiation A × Result (InitiatedConnection A) :=
  let r := s.plain.initiate (s.network net)
  ({ s with provider := if r.1.preconnection.securityProvider then (s.getProvider net.lib).toOption else none }, r)

def step (s : TlsPreconnection) : TlsPreconnectionEvent A → TlsPreconnection
  | .addRemoteEndpoint remote =>
      { s with remoteEndpoints := s.remoteEndpoints ++ [remote], remoteEndpoints_ne := by simp }
  | .setTransportProperty key value => { s with transportProperties := s.transportProperties.set key value }
  | .initiate net => (s.initiate net).1

def system (A : Type) (parameters : TlsParameters) :
    Lib.System TlsPreconnection (TlsPreconnectionEvent A) where
  init s := ∃ remote props memory, s = create remote props parameters memory
  step s e s' := s' = s.step e

/-! ## What the results say of a call -/

/-- The libraries that the calls meet. -/
def libraries (es : List (TlsPreconnectionEvent A)) : List TlsLibrary :=
  es.filterMap fun
    | .initiate net => some net.lib
    | _ => none

/-- The TCPConnection is established, and secured: the handshake with the address that it is to has succeeded, as a
client of a provider that enforces the parameters with one of the libraries, for the identity, with one of the ids
of the parameters. -/
structure Secures (s : TlsPreconnection) (libs : List TlsLibrary) (net : TlsNetwork A) (t : TCPAttempt A) :
    Prop where
  established : t.Established
  secured : t.secured = true
  handshake : ∃ (i : Nat) (c : TlsCandidate A) (p : TlsProvider) (session : TlsSession) (negotiated : List Byte),
    c ∈ net.resolve i ∧ t.remoteEndpoint = some c.address ∧
    (∃ lib ∈ libs, p.EnforcesClient lib s.parameters) ∧ session.context = p.context ∧
    session.verifyName = (if s.plain.identity = "" then none else some s.plain.identity) ∧
    session.sni = session.verifyName ∧ c.peer session = .ok negotiated ∧
    (s.parameters.alpnProtocols ≠ [] → negotiated ∈ s.parameters.alpnProtocols)

end TlsPreconnection

end Taps
