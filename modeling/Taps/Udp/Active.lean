import Taps.Framer.Framer
import Taps.Lib.Operation
import Taps.Lib.System
import Taps.Transport.ConstBufferSequence
import Taps.Udp.Peer

/-!
# `ActiveUDPConnection`

A connection with a socket of its own, which it sends datagrams to one endpoint from, and the calls that
were made on it: each from one suspension to the next, as for a TCP connection. A received datagram is
returned as a complete Message.
-/

namespace Taps

/-- A socket failure during send or receive. -/
def udpFailure (event : ErrorEvent) (ec : ErrorCode) (aborted : Bool) : TAPSError :=
  if ec = .operationAborted then cancelled event aborted else ioError event ec

/-- What `send()` of either UDP connection hands to its socket: the header, then the Message as it is. -/
def udpBuffers {σ : Type} (framer : Option (MessageFramer σ)) (framerState : σ) (mem : Memory)
    (message : Message) : ConstBufferSequence × σ :=
  match framer with
  | none => (.ofMessage mem [] message, framerState)
  | some f =>
      let (header, framerState) := f.writeHeader framerState mem message
      (.ofMessage mem header message, framerState)

/-- `PassiveUDPConnection::send()` up to its `send_to()`, with the framer of the connection. -/
def PassiveUDPConnection.sendBegin {σ : Type} (c : PassiveUDPConnection)
    (framer : Option (MessageFramer σ)) (framerState : σ) (mem : Memory) (message : Message) :
    Result (ConstBufferSequence × σ) :=
  if c.state = .closed then .error ⟨.sendError, .invalidState, .text "Connection is closed"⟩
  else .ok (udpBuffers framer framerState mem message)

/-- `PassiveUDPConnection::send()` after its `send_to()`, which does not look at the number of bytes sent. -/
def PassiveUDPConnection.sendEnd (c : PassiveUDPConnection) : Except ErrorCode Nat → Result Unit
  | .error ec => .error (udpFailure .sendError ec c.aborted)
  | .ok _ => .ok ()

structure ActiveUDPConnection (σ E : Type) where
  state : ConnectionState
  framer : Option (MessageFramer σ)
  framerState : σ
  remoteEndpoint : E
  blockPool : MessageBlockPool
  aborted : Bool

namespace ActiveUDPConnection

variable {σ E : Type}

def create (framer : Option (MessageFramer σ)) (framerState : σ) (remoteEndpoint : E)
    (blockPool : MessageBlockPool) : ActiveUDPConnection σ E :=
  { state := .establishing, framer, framerState, remoteEndpoint, blockPool, aborted := false }

/-- `open()`, where opening or binding the socket sets `ec`. -/
def openSocket (c : ActiveUDPConnection σ E) (ec : Option ErrorCode) :
    ActiveUDPConnection σ E × Result Unit :=
  match ec with
  | some ec => (c, .error (ioError .establishmentError ec))
  | none => ({ c with state := .established }, .ok ())

def sendBegin (mem : Memory) (c : ActiveUDPConnection σ E) (message : Message) :
    ActiveUDPConnection σ E × Result ConstBufferSequence :=
  if c.state ≠ .established then
    (c, .error ⟨.sendError, .invalidState, .text "Connection not established"⟩)
  else
    let (buffers, framerState) := udpBuffers c.framer c.framerState mem message
    ({ c with framerState }, .ok buffers)

/-- `send()` after the socket has sent, of `size` bytes in all. -/
def sendEnd (c : ActiveUDPConnection σ E) (size : Nat) : Except ErrorCode Nat → Result Unit
  | .error ec => .error (udpFailure .sendError ec c.aborted)
  | .ok n =>
      if n ≠ size then .error ⟨.sendError, .protocolFailed, .text "Partial send occurred"⟩ else .ok ()

/-- `receive()` up to its `async_receive_from()`: the block that the datagram goes to. `live` is the number
of blocks in use, and `fresh` is where the resource allocates. -/
def receiveBegin (c : ActiveUDPConnection σ E) (live : Nat) (fresh : Addr) : Result BlockRef :=
  if c.state ≠ .established then
    .error ⟨.receiveError, .invalidState, .text "Connection not established"⟩
  else
    match c.blockPool.acquire live fresh with
    | none => .error ⟨.receiveError, .resourceExhausted, .text "receive block pool exhausted"⟩
    | some block => .ok block

/-- `receive()` after the socket has received. -/
def receiveEnd (c : ActiveUDPConnection σ E) : Except ErrorCode (Datagram E) → Result (Datagram E)
  | .error ec => .error (udpFailure .receiveError ec c.aborted)
  | .ok d => .ok d

/-- `close()`, where `socket_.close()` sets `ec`. -/
def close (c : ActiveUDPConnection σ E) (ec : Option ErrorCode) : ActiveUDPConnection σ E × Result Unit :=
  ({ c with state := .closed },
    match ec with
    | some ec => .error ⟨.connectionError, .internalError, .code ec⟩
    | none => .ok ())

def abort (c : ActiveUDPConnection σ E) (ec : Option ErrorCode) : ActiveUDPConnection σ E × Result Unit :=
  close { c with aborted := true } ec

end ActiveUDPConnection

/-! ## The calls on one connection -/

/-- A `send()` or a `receive()` that waits for the socket, or how a call has returned. -/
inductive ActiveCall (E : Type)
  | sending (size : Nat) (op : Lib.Operation ErrorCode Nat)
  | receiving (block : BlockRef) (op : Lib.Operation ErrorCode (Datagram E))
  | sent (result : Result Unit)
  | received (result : Result (Datagram E))
  | closed (result : Result Unit)
  | aborted (result : Result Unit)

/-- What closing the socket does to a call. -/
def ActiveCall.cancel {E : Type} : ActiveCall E → ActiveCall E
  | sending size op => sending size (op.cancel .operationAborted)
  | receiving block op => receiving block (op.cancel .operationAborted)
  | c => c

/-- A call is known by its number. `arrivals` are the datagrams that the socket has received, in order. -/
structure ActiveUDP (σ E : Type) where
  conn : ActiveUDPConnection σ E
  socketOpen : Bool
  calls : List (ActiveCall E)
  arrivals : List (E × List Byte)

/-- `transmit` and `arrive` complete the operation that the `i`-th call waits for, and `resume` resumes the
call. `ec` is the error of `socket_.close()`. -/
inductive ActiveEvent (E : Type)
  | send (mem : Memory) (message : Message)
  | receive (live : Nat) (fresh : Addr)
  | close (ec : Option ErrorCode)
  | abort (ec : Option ErrorCode)
  | transmit (i : Nat) (outcome : Except ErrorCode Nat)
  | arrive (i : Nat) (outcome : Except ErrorCode (E × List Byte))
  | resume (i : Nat)

namespace ActiveUDP

variable {σ E : Type}

def push (s : ActiveUDP σ E) (c : ActiveCall E) : ActiveUDP σ E := { s with calls := s.calls ++ [c] }

def set (s : ActiveUDP σ E) (i : Nat) (c : ActiveCall E) : ActiveUDP σ E :=
  { s with calls := s.calls.set i c }

/-- `socket_.close()`, if the socket is open. -/
def closeSocket (s : ActiveUDP σ E) : ActiveUDP σ E :=
  { s with socketOpen := false, calls := s.calls.map ActiveCall.cancel }

def closeError (s : ActiveUDP σ E) (ec : Option ErrorCode) : Option ErrorCode :=
  if s.socketOpen then ec else none

def send (s : ActiveUDP σ E) (mem : Memory) (message : Message) : ActiveUDP σ E :=
  let (conn, r) := s.conn.sendBegin mem message
  { s with conn }.push
    (match r with
    | .ok buffers =>
        .sending (buffers.header.length + message.size) (.start s.socketOpen .badDescriptor)
    | .error e => .sent (.error e))

def receive (s : ActiveUDP σ E) (live : Nat) (fresh : Addr) : ActiveUDP σ E :=
  s.push
    (match s.conn.receiveBegin live fresh with
    | .ok block => .receiving block (.start s.socketOpen .badDescriptor)
    | .error e => .received (.error e))

def close (s : ActiveUDP σ E) (ec : Option ErrorCode) : ActiveUDP σ E :=
  let (conn, r) := s.conn.close (s.closeError ec)
  { s with conn }.closeSocket.push (.closed r)

def abort (s : ActiveUDP σ E) (ec : Option ErrorCode) : ActiveUDP σ E :=
  let (conn, r) := s.conn.abort (s.closeError ec)
  { s with conn }.closeSocket.push (.aborted r)

/-- The datagram that a receive into the block brings. -/
def datagram (s : ActiveUDP σ E) (block : BlockRef) (source : E) (bytes : List Byte) : Datagram E :=
  { source, seq := s.arrivals.length, bytes
    payload := bytes.take (block.capacityAfterBegin s.conn.blockPool.blockSize) }

def arrive (s : ActiveUDP σ E) (i : Nat) (block : BlockRef) :
    Except ErrorCode (E × List Byte) → ActiveUDP σ E
  | .error ec => s.set i (.receiving block (.completed (.error ec)))
  | .ok (source, bytes) =>
      { s with arrivals := s.arrivals ++ [(source, bytes)] }.set i
        (.receiving block (.completed (.ok (s.datagram block source bytes))))

/-- One step; `none` where the event cannot happen. Only this side cancels. -/
def step (s : ActiveUDP σ E) : ActiveEvent E → Option (ActiveUDP σ E)
  | .send mem message => some (s.send mem message)
  | .receive live fresh => some (s.receive live fresh)
  | .close ec => some (s.close ec)
  | .abort ec => some (s.abort ec)
  | .transmit i outcome =>
      match s.calls[i]?, outcome with
      | some (.sending _ .pending), .error .operationAborted => none
      | some (.sending size .pending), outcome => some (s.set i (.sending size (.completed outcome)))
      | _, _ => none
  | .arrive i outcome =>
      match s.calls[i]?, outcome with
      | some (.receiving _ .pending), .error .operationAborted => none
      | some (.receiving block .pending), outcome => some (s.arrive i block outcome)
      | _, _ => none
  | .resume i =>
      match s.calls[i]? with
      | some (.sending size (.completed outcome)) => some (s.set i (.sent (s.conn.sendEnd size outcome)))
      | some (.receiving _ (.completed outcome)) => some (s.set i (.received (s.conn.receiveEnd outcome)))
      | _ => none

/-- A connection that `initiate()` has opened, before the first call. -/
def create (conn : ActiveUDPConnection σ E) : ActiveUDP σ E :=
  { conn := (conn.openSocket none).1, socketOpen := true, calls := [], arrivals := [] }

def system (σ E : Type) : Lib.System (ActiveUDP σ E) (ActiveEvent E) where
  init s := ∃ framer framerState remoteEndpoint blockPool,
    s = create (.create framer framerState remoteEndpoint blockPool)
  step s e s' := s.step e = some s'

/-! ## What the results say of a state -/

/-- The socket received the datagram as far as the block of its receive had room. -/
def Arrived (s : ActiveUDP σ E) (d : Datagram E) : Prop :=
  s.arrivals[d.seq]? = some (d.source, d.bytes) ∧
    d.payload = d.bytes.take s.conn.blockPool.blockSize

/-- Every Message that was returned is of a datagram of the remote endpoint. -/
def OnlyPeer (s : ActiveUDP σ E) : Prop :=
  ∀ d, .received (.ok d) ∈ s.calls → d.source = s.conn.remoteEndpoint

/-- If the step resumes a receive whose datagram has arrived, the remote endpoint has sent it. -/
def FromPeer (s : ActiveUDP σ E) (e : ActiveEvent E) : Prop :=
  ∀ i block d, e = .resume i → s.calls[i]? = some (.receiving block (.completed (.ok d))) →
    d.source = s.conn.remoteEndpoint

/-- A `close()` or an `abort()` has completed. -/
def Closed (s : ActiveUDP σ E) : Prop := ∃ c ∈ s.calls, ∃ r, c = .closed r ∨ c = .aborted r

end ActiveUDP

end Taps
