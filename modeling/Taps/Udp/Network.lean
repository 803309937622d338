import Taps.Lib.Wire
import Taps.Udp.Active
import Taps.Udp.Loops

/-!
# Active connections and a Listener on a network

What the four functions that carry a Message make of a datagram: the `send()` of an active or a passive connection
with a framer, and the `receive()` of an active or a passive one. And any number of active connections to one UDP
Listener, the passive connections of which answer, over a network that loses, duplicates and reorders their
datagrams; nobody else sends any.
-/

namespace Taps

/-! ## The Message of a datagram -/

/-- The Message that both `receive()` functions return for a datagram of `n` bytes in the block that it was
received to. The block of an empty datagram is not in it. -/
def datagramMessage (block : BlockRef) (n : Nat) : Message :=
  .ofChain (some (if n > 0 then BlockChain.nil.append (block.setRange 0 n) else .nil)) true

/-- As long as the block has what the socket wrote to it, the Message, if it is a complete one, has every
byte of the datagram. -/
def Datagram.Whole {E : Type} (d : Datagram E) : Prop :=
  ∀ (mem : Memory) (block : BlockRef), mem.read block.block 0 d.payload.length = d.payload →
    (datagramMessage block d.payload.length).endOfMessage = true →
    (datagramMessage block d.payload.length).payload mem = d.bytes

/-! ## From one connection to another -/

/-- `send()` gives the datagram to its socket. -/
inductive UdpSends {σ : Type} (framer : MessageFramer σ) (mem : Memory) (message : Message) : List Byte → Prop
  | active {E : Type} {c c' : ActiveUDPConnection σ E} {seq : ConstBufferSequence}
      (hf : c.framer = some framer) (h : c.sendBegin mem message = (c', .ok seq)) :
      UdpSends framer mem message (seq.buffers mem).flatten
  | passive {c : PassiveUDPConnection} {framerState framerState' : σ} {seq : ConstBufferSequence}
      (h : c.sendBegin (some framer) framerState mem message = .ok (seq, framerState')) :
      UdpSends framer mem message (seq.buffers mem).flatten

/-- `receive()` returns a Message with this payload for the datagram, in some run of a connection, or of a
Listener, with blocks of this size. The one of a passive connection looks at no framer. -/
inductive UdpReceives {σ : Type} (framer : MessageFramer σ) (blockSize : Nat) : List Byte → List Byte → Prop
  | active {E : Type} {s : ActiveUDP σ E} {d : Datagram E} (hr : (ActiveUDP.system σ E).Reachable s)
      (hf : s.conn.framer = some framer) (hb : s.conn.blockPool.blockSize = blockSize)
      (hd : .received (.ok d) ∈ s.calls) : UdpReceives framer blockSize d.bytes d.payload
  | passive {E : Type} [DecidableEq E] {config : DemuxConfig} {s : UDPDemux E} {p : Peer E}
      {d : Datagram E} (hr : (UDPDemux.system config).Reachable s) (hb : config.blockSize = blockSize)
      (hp : p ∈ s.demux.peers) (hd : d ∈ p.returned) : UdpReceives framer blockSize d.bytes d.payload

/-! ## Clients of a Listener -/

variable {σ E : Type}

/-- `endpoint` is what the socket is bound to. `written` is what each `send()`, by its number among the calls, gives to
the socket. -/
structure UdpClient (σ E : Type) where
  endpoint : E
  udp : ActiveUDP σ E
  written : List (Nat × List Byte)

namespace UdpClient

/-- An active connection to the Listener at `server`. -/
def create (endpoint server : E) (framer : Option (MessageFramer σ)) (framerState : σ) (pool : MessageBlockPool) :
    UdpClient σ E :=
  { endpoint, udp := .create (.create framer framerState server pool), written := [] }

def writes (x : UdpClient σ E) : ActiveEvent E → List (Nat × List Byte)
  | .send mem message =>
      match (x.udp.conn.sendBegin mem message).2 with
      | .ok seq => [(x.udp.calls.length, (seq.buffers mem).flatten)]
      | .error _ => []
  | _ => []

/-- The datagram that a step sends. -/
def emits (x : UdpClient σ E) : ActiveEvent E → Option (Lib.Packet E (List Byte))
  | .transmit i (.ok _) =>
      (x.written.lookup i).map fun bytes => ⟨x.endpoint, x.udp.conn.remoteEndpoint, bytes⟩
  | _ => none

def step (x : UdpClient σ E) (e : ActiveEvent E) : Option (UdpClient σ E) :=
  (x.udp.step e).map fun udp => { x with udp, written := x.written ++ x.writes e }

end UdpClient

/-- `server` is what the socket of the Listener is bound to. `replies` are what the `send()`s of its Connections give to
`send_to()`, with the endpoint, and `sending` the numbers of those that wait for it. -/
structure UdpNetwork (σ E : Type) where
  server : E
  listener : UDPDemux E
  clients : List (UdpClient σ E)
  replies : List (E × List Byte)
  sending : List Nat
  wire : Lib.Wire E (List Byte)

/-- `client` and `listener` are the steps of the two sides in which no datagram arrives. `reply` is a `send()` on the
Connection `b`, with the framer of the Connection, and `replied` the end of the `k`-th of them. `toListener` and
`toClient` deliver the `k`-th datagram in flight, the latter to the `i`-th call of the client. -/
inductive UdpNetworkEvent (σ E : Type)
  | client (c : Nat) (e : ActiveEvent E)
  | listener (e : DemuxEvent E)
  | reply (b : Nat) (framer : Option (MessageFramer σ)) (framerState : σ) (mem : Memory) (message : Message)
  | replied (k : Nat) (sent : Bool)
  | toListener (k : Nat)
  | toClient (k c i : Nat)
  | lose (k : Nat)
  | duplicate (k : Nat)

/-- The datagram that a step brings to the socket. -/
def ActiveEvent.arrival : ActiveEvent E → Option (E × List Byte)
  | .arrive _ (.ok q) => some q
  | _ => none

def DemuxEvent.arrival : DemuxEvent E → Option (E × List Byte)
  | .arrive (.ok q) => some q
  | _ => none

namespace UdpNetwork

def setClient (s : UdpNetwork σ E) (c : Nat) (x : UdpClient σ E) : UdpNetwork σ E :=
  { s with clients := s.clients.set c x }

def send (s : UdpNetwork σ E) : Option (Lib.Packet E (List Byte)) → UdpNetwork σ E
  | some p => { s with wire := s.wire.send p }
  | none => s

/-- The end of a `send_to()`, which sends nothing once the socket is closed. -/
def replied (s : UdpNetwork σ E) (k : Nat) (sent : Bool) : UdpNetwork σ E :=
  { s with sending := s.sending.erase k }.send
    (if sent && s.listener.socketOpen then (s.replies[k]?).map fun (dest, bytes) => ⟨s.server, dest, bytes⟩
    else none)

variable [DecidableEq E]

/-- One step; `none` where the event cannot happen. -/
def step (s : UdpNetwork σ E) : UdpNetworkEvent σ E → Option (UdpNetwork σ E)
  | .client c e =>
      match s.clients[c]? with
      | some x => if e.arrival.isSome then none else (x.step e).map fun x' => (s.setClient c x').send (x.emits e)
      | none => none
  | .listener e =>
      if e.arrival.isSome then none else (s.listener.step e).map fun listener => { s with listener }
  | .reply b framer framerState mem message =>
      (s.listener.owned b).map fun p =>
        match p.conn.sendBegin framer framerState mem message with
        | .ok (seq, _) =>
            { s with
              replies := s.replies ++ [(p.source, (seq.buffers mem).flatten)]
              sending := s.sending ++ [s.replies.length] }
        | .error _ => s
  | .replied k sent => if k ∈ s.sending then some (s.replied k sent) else none
  | .toListener k =>
      match s.wire.flight[k]? with
      | some (_, p) =>
          if p.dest = s.server then
            (s.listener.step (.arrive (.ok (p.source, p.content)))).map fun listener =>
              { s with listener, wire := s.wire.deliver k }
          else none
      | none => none
  | .toClient k c i =>
      match s.wire.flight[k]?, s.clients[c]? with
      | some (_, p), some x =>
          if p.dest = x.endpoint then
            (x.step (.arrive i (.ok (p.source, p.content)))).map fun x' =>
              { s.setClient c x' with wire := s.wire.deliver k }
          else none
      | _, _ => none
  | .lose k => some { s with wire := s.wire.lose k }
  | .duplicate k => some { s with wire := s.wire.duplicate k }

/-- Every socket is bound to an endpoint of its own. -/
def system (σ E : Type) [DecidableEq E] (config : DemuxConfig) : Lib.System (UdpNetwork σ E) (UdpNetworkEvent σ E) where
  init s := ∃ server atCap clients,
    s = { server, listener := .create config atCap, clients, replies := [], sending := [], wire := .empty } ∧
    (server :: clients.map UdpClient.endpoint).Nodup ∧
    ∀ x ∈ clients, ∃ framer framerState pool, x = .create x.endpoint server framer framerState pool
  step s e s' := s.step e = some s'

/-! ## What the results say of a state and a step -/

/-- What a Connection of the Listener returns, its peer has sent, and what an active connection returns, the Connection
of the Listener to it has; each as far as the block of its receive had room. -/
structure Isolated (s : UdpNetwork σ E) : Prop where
  listener : ∀ p ∈ s.listener.demux.peers, ∀ d ∈ p.returned, d.payload = d.bytes.take s.listener.demux.config.blockSize ∧
    ∃ x ∈ s.clients, x.endpoint = p.source ∧ ∃ i, (i, d.bytes) ∈ x.written
  client : ∀ x ∈ s.clients, ∀ d, .received (.ok d) ∈ x.udp.calls →
    d.payload = d.bytes.take x.udp.conn.blockPool.blockSize ∧ d.source = s.server ∧ (x.endpoint, d.bytes) ∈ s.replies

/-- The datagram is the packet with this number. -/
def Carried (s : UdpNetwork σ E) (n : E) (d : Datagram E) (number : Nat) : Prop :=
  (s.wire.received n)[d.seq]? = some (number, ⟨d.source, n, d.bytes⟩)

/-- No two receives return the same packet. -/
structure Once (s : UdpNetwork σ E) : Prop where
  listener : ∀ p ∈ s.listener.demux.peers, ∀ d ∈ p.returned, ∃ number, s.Carried s.server d number
  listener_distinct : (s.listener.demux.peers.flatMap Peer.returned).Pairwise fun d d' =>
    ∀ number, s.Carried s.server d number → ¬ s.Carried s.server d' number
  client : ∀ x ∈ s.clients, ∀ d, .received (.ok d) ∈ x.udp.calls → ∃ number, s.Carried x.endpoint d number
  client_distinct : ∀ x ∈ s.clients, ∀ (i j : Nat) (d d' : Datagram E) (number : Nat),
    x.udp.calls[i]? = some (.received (.ok d)) → x.udp.calls[j]? = some (.received (.ok d')) →
    s.Carried x.endpoint d number → s.Carried x.endpoint d' number → i = j

/-- The network duplicates nothing. -/
def DuplicatesNone (_ : UdpNetwork σ E) (e : UdpNetworkEvent σ E) (_ : UdpNetwork σ E) : Prop := ∀ k, e ≠ .duplicate k

end UdpNetwork

end Taps
