import Mathlib.Logic.Function.Basic

/-!
# What a Preconnection is given

The Selection Properties that the protocol is chosen by, the Security Parameters that the Connection is
established with, and the remote endpoints. Of the Security Parameters, those that only
`TlsProvider::create()` reads are not here: what it returns is an outcome of the establishment.
-/

namespace Taps

/-! ## Selection Properties -/

inductive SelectionProperty
  | require
  | prefer
  | ignore
  | avoid
  | prohibit
  deriving DecidableEq, Repr

inductive PropertyKey
  | reliability
  | preserveOrder
  | preserveMsgBoundaries
  | perMsgReliability
  | preserveData
  | congestionControl
  | keepAlive
  | interfaceInstance
  | direction
  | multipath
  | checksumCoverageSend
  | checksumCoverageReceive
  deriving DecidableEq, Repr

/-- `properties` is the map, with `none` where it has no value. -/
structure TransportProperties where
  properties : PropertyKey → Option SelectionProperty

namespace TransportProperties

def create : TransportProperties := { properties := fun _ => none }

def set (t : TransportProperties) (key : PropertyKey) (value : SelectionProperty) : TransportProperties :=
  { properties := Function.update t.properties key (some value) }

def get (t : TransportProperties) (key : PropertyKey) : SelectionProperty :=
  (t.properties key).getD .ignore

def requiresReliableTransport (t : TransportProperties) : Bool :=
  t.get .reliability = .require || t.get .reliability = .prefer

end TransportProperties

/-! ## Security Parameters -/

inductive SecurityProtocol
  | tls
  deriving DecidableEq, Repr

structure SecurityParameters where
  allowedProtocols : List SecurityProtocol
  serverName : String

namespace SecurityParameters

def create : SecurityParameters := { allowedProtocols := [], serverName := "" }

def requireTls (s : SecurityParameters) : SecurityParameters := { s with allowedProtocols := [.tls] }

def setServerName (s : SecurityParameters) (name : String) : SecurityParameters := { s with serverName := name }

def isEnabled (s : SecurityParameters) : Bool := !s.allowedProtocols.isEmpty

end SecurityParameters

/-! ## Endpoints -/

structure RemoteEndpoint where
  hostname : String
  port : UInt16
  deriving DecidableEq, Repr

end Taps
