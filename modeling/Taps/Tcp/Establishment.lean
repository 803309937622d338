import Taps.Tcp.Connection

/-!
# Establishing a `TCPConnection`

From its constructor to where it is handed to the application: connecting, the security that is applied
to it, and `abort()` where one of them has failed.
-/

namespace Taps

/-- `secured` says that `stream_` is a TLS stream, and `serverName` is the name that the last
`apply_security()` was called with. An accepted socket has no `remoteEndpoint`. -/
structure TCPAttempt (A : Type) where
  remoteEndpoint : Option A
  conn : TCPConnection Unit
  secured : Bool
  serverName : Option String

namespace TCPAttempt

variable {A : Type}

/-- `TCPConnection(ctx, endpoint, memory)`. -/
def create (pool : MessageBlockPool) (endpoint : A) : TCPAttempt A :=
  { remoteEndpoint := some endpoint, conn := .create .establishing none () pool, secured := false
    serverName := none }

/-- `TCPConnection(socket, memory)`. -/
def ofSocket (pool : MessageBlockPool) : TCPAttempt A :=
  { remoteEndpoint := none, conn := .create .established none () pool, secured := false, serverName := none }

/-- `connect()`, where connecting, or asking the socket for its endpoints after that, throws `ec`. -/
def connect (t : TCPAttempt A) (ec : Option ErrorCode) : TCPAttempt A × Result Unit :=
  if t.conn.state ≠ .establishing then
    (t, .error ⟨.establishmentError, .invalidState, .text "Connection not in establishing state"⟩)
  else
    match ec with
    | none => ({ t with conn := { t.conn with state := .established } }, .ok ())
    | some ec =>
        ({ t with conn := { t.conn with state := .closed } },
          .error ⟨.establishmentError, .establishmentFailed, .code ec⟩)

/-- `apply_security()`, where the provider's `secure()` returns `secured`. -/
def applySecurity (t : TCPAttempt A) (serverName : String) (secured : Result Unit) :
    TCPAttempt A × Result Unit :=
  let t := { t with serverName := some serverName }
  match secured with
  | .error e => ({ t with conn := { t.conn with state := .closed } }, .error e)
  | .ok () => ({ t with secured := true }, .ok ())

/-- `abort()`, where `socket_.close()` sets `ec`. -/
def abort (t : TCPAttempt A) (ec : Option ErrorCode) : TCPAttempt A :=
  { t with conn := (t.conn.abort ec).1 }

/-! ## What the results say of a Connection -/

/-- It can be handed to the application. -/
structure Established (t : TCPAttempt A) : Prop where
  state : t.conn.state = .established
  aborted : t.conn.aborted = false

/-- It was aborted. -/
structure Aborted (t : TCPAttempt A) : Prop where
  state : t.conn.state = .closed
  aborted : t.conn.aborted = true

theorem abort_aborted (t : TCPAttempt A) (ec : Option ErrorCode) : (t.abort ec).Aborted := ⟨rfl, rfl⟩

end TCPAttempt

end Taps
