import Mathlib.Algebra.Ring.Int.Defs
import Taps.Lib.LinkedMap
import Taps.Udp.Peer

/-!
# The demultiplexing table

The part of `UDPDemux` that its strand handlers read and change: the table, the Mailboxes and
Connections, the accept channel and the release handlers that have been posted. The socket, the timer
and the two loops are in `Taps.Udp.Loops`.

A Connection and its Mailbox are known by their place in `peers`, the order in which they were created.
-/

namespace Taps

/-! ## The clock -/

/-- So many seconds, in the nanoseconds of the steady clock. -/
def seconds (n : Int) : Int := n * 1000000000

/-- The number is one of a signed integer with 64 bits. -/
def FitsInt64 (n : Int) : Prop := -2 ^ 63 ≤ n ∧ n < 2 ^ 63

instance (n : Int) : Decidable (FitsInt64 n) := inferInstanceAs (Decidable (_ ∧ _))

/-- A signed integer with 64 bits that is to be `n`. What does not fit wraps around, as the processor has it; to C++
it is undefined. -/
def int64 (n : Int) : Int := n.bmod (2 ^ 64)

theorem int64_of_fits {n : Int} (h : FitsInt64 n) : int64 n = n := by
  obtain ⟨hlo, hhi⟩ := h
  refine Int.bmod_eq_of_le_mul_two ?_ ?_ <;> omega

/-! ## The state -/

/-- `max_connections()`, the number of seconds that `idle_timeout()` is made of, and the size of the pool's blocks. -/
structure DemuxConfig where
  maxConnections : Nat
  idleTimeout : Nat
  blockSize : Nat
  maxConnections_pos : 0 < maxConnections

/-- `idle_timeout()`, whose seconds are signed, as nanoseconds. -/
def DemuxConfig.idleTime (config : DemuxConfig) : Int := int64 (seconds (int64 config.idleTimeout))

/-- What the node of a source in `lru_` has besides the source. -/
structure Entry where
  mailbox : Nat
  lastActive : Int
  deriving DecidableEq, Repr

/-- The accept channel: the Connections in its buffer and the number of `accept()` calls that wait. -/
structure AcceptChannel where
  isOpen : Bool
  buffer : List Nat
  waiting : Nat
  deriving DecidableEq, Repr

/-- A posted release handler: what it has captured, and the Connection that posted it. -/
structure Release (E : Type) where
  source : E
  mailbox : Addr
  poster : Nat
  deriving DecidableEq, Repr

/-- `accepts` are the results of `accept()`. `crashed` says that an iterator or a pointer was used that is
not valid. -/
structure Demux (E : Type) where
  config : DemuxConfig
  accepting : Bool
  table : Lib.LinkedMap E Entry
  peers : List (Peer E)
  channel : AcceptChannel
  posted : List (Release E)
  accepts : List (Result Nat)
  crashed : Bool

namespace Demux

variable {E : Type}

def create (config : DemuxConfig) : Demux E :=
  { config, accepting := true, table := .empty, peers := []
    channel := { isOpen := true, buffer := [], waiting := 0 }, posted := [], accepts := []
    crashed := false }

def channelCapacity : Nat := 100

def update (s : Demux E) (b : Nat) (f : Peer E → Peer E) : Demux E :=
  { s with peers := s.peers.modify b f }

/-- An entry of the table has the `b`-th Mailbox. -/
def InTable (s : Demux E) (b : Nat) : Prop := ∃ n ∈ s.table.nodes, n.value.mailbox = b

instance (s : Demux E) (b : Nat) : Decidable (s.InTable b) := inferInstanceAs (Decidable (∃ _ ∈ _, _))

/-- Where the Mailboxes are that somebody shares: an entry of the table, or a Connection. -/
def live (s : Demux E) : List Addr :=
  (s.peers.zipIdx.filter fun p => p.1.place ≠ .destroyed ∨ s.InTable p.2).map fun p => p.1.address

/-- `index_.empty()` while `accepting_` is false. -/
def unused (s : Demux E) : Bool := !s.accepting && s.table.index.keys.isEmpty

/-- `PassiveUDPConnection::release()`: posts the release handler, once. -/
def release (s : Demux E) (b : Nat) : Demux E :=
  match s.peers[b]? with
  | none => { s with crashed := true }
  | some p =>
      if p.conn.released then s
      else
        { s.update b Peer.setReleased with
          posted := s.posted ++ [{ source := p.source, mailbox := p.address, poster := b }] }

def unpost (s : Demux E) (i : Nat) : Demux E := { s with posted := s.posted.eraseIdx i }

def handOver (s : Demux E) (b : Nat) : Demux E :=
  { s.update b Peer.accept with accepts := s.accepts ++ [.ok b] }

/-- `accept_channel_.try_send()`: `none` where the channel does not take the Connection. -/
def trySend (s : Demux E) (b : Nat) : Option (Demux E) :=
  if s.channel.isOpen = false then none
  else if 0 < s.channel.waiting then
    some ({ s with channel := { s.channel with waiting := s.channel.waiting - 1 } }.handOver b)
  else if s.channel.buffer.length < channelCapacity then
    some { s with channel := { s.channel with buffer := s.channel.buffer ++ [b] } }
  else none

def listenerStopped : TAPSError := ⟨.establishmentError, .invalidState, .text "Listener stopped"⟩

def accept (s : Demux E) : Demux E :=
  match s.channel.buffer with
  | b :: buffer => { s with channel := { s.channel with buffer } }.handOver b
  | [] =>
      if s.channel.isOpen then
        { s with channel := { s.channel with waiting := s.channel.waiting + 1 } }
      else { s with accepts := s.accepts ++ [.error listenerStopped] }

/-- The handler of `stop_accepting()`, up to `shut_down_if_unused()`. -/
def stop (s : Demux E) : Demux E :=
  { s with
    accepting := false
    channel := { s.channel with isOpen := false, waiting := 0 }
    accepts := s.accepts ++ List.replicate s.channel.waiting (.error listenerStopped) }

/-- `close()` and `abort()` on a Connection. -/
def close (s : Demux E) (b : Nat) (aborted : Bool) : Demux E :=
  (s.update b fun p => p.shut aborted).release b

/-- `~PassiveUDPConnection`. -/
def destroy (s : Demux E) (b : Nat) : Demux E := (s.release b).update b Peer.destroy

/-- The time from which on a source is active, for the sweep at `now`. -/
def cutoff (s : Demux E) (now : Int) : Int := int64 (now - s.config.idleTime)

/-- Nothing overflows on the way to the cutoff. -/
def CutoffFits (s : Demux E) (now : Int) : Prop :=
  FitsInt64 (seconds s.config.idleTimeout) ∧ FitsInt64 (now - seconds s.config.idleTimeout)

theorem cutoff_eq {s : Demux E} {now : Int} (h : s.CutoffFits now) :
    s.cutoff now = now - seconds s.config.idleTimeout := by
  obtain ⟨htime, hcutoff⟩ := h
  have hseconds : int64 s.config.idleTimeout = s.config.idleTimeout := by
    refine int64_of_fits ⟨by omega, ?_⟩
    have hmax := htime.2
    unfold seconds at hmax
    omega
  rw [cutoff, DemuxConfig.idleTime, hseconds, int64_of_fits htime, int64_of_fits hcutoff]

variable [DecidableEq E]

/-- Removes an entry of the table, after its Mailbox was closed. -/
def remove (s : Demux E) (n : Lib.Node E Entry) (cause : CloseCause) : Demux E :=
  { s.update n.value.mailbox fun p => p.closeMailbox cause with table := s.table.erase n }

def evict (s : Demux E) (it : Nat) (cause : CloseCause) : Demux E :=
  match s.table.deref it with
  | none => { s with crashed := true }
  | some n => s.remove n cause

/-! ## Datagrams -/

/-- Displaces the least recently active source where the table is full. -/
def makeRoom (s : Demux E) : Demux E :=
  if s.config.maxConnections ≤ s.table.index.keys.length then
    match s.table.nodes.getLast? with
    | none => s
    | some n => s.evict n.id .displaced
  else s

/-- A Mailbox, an entry and a Connection for a new source. -/
def add (s : Demux E) (source : E) (address : Addr) (now : Int) : Demux E :=
  { s with
    peers := s.peers ++ [.create source address]
    table := s.table.pushFront source { mailbox := s.peers.length, lastActive := now } }

/-- A datagram of a new source: dropped with the Connection where the channel does not take it. -/
def connect (s : Demux E) (now : Int) (address : Addr) (d : Datagram E) : Demux E :=
  let b := s.peers.length
  let s := s.add d.source address now
  match s.trySend b with
  | some s => s.update b fun p => p.deliver d
  | none => s.destroy b

/-- `receive_loop()` from a received datagram to the end of its turn. -/
def serve (s : Demux E) (now : Int) (address : Addr) (d : Datagram E) : Demux E :=
  match s.table.index.lookup d.source with
  | some it =>
      match s.table.deref it with
      | none => { s with crashed := true }
      | some n =>
          { s with table := s.table.touch n { n.value with lastActive := now } }.update
            n.value.mailbox fun p => p.deliver d
  | none => if s.accepting then s.makeRoom.connect now address d else s

/-! ## Sweeps and releases -/

/-- The loop of `sweep_loop()` over the back of `lru_`, for at most `fuel` entries. -/
def sweepIdle (cutoff : Int) : Nat → Demux E → Demux E
  | 0, s => s
  | fuel + 1, s =>
      match s.table.nodes.getLast? with
      | none => s
      | some n => if n.value.lastActive < cutoff then sweepIdle cutoff fuel (s.evict n.id .idle) else s

/-- One turn of `sweep_loop()`, up to `shut_down_if_unused()`. -/
def sweep (s : Demux E) (now : Int) : Demux E := s.sweepIdle (s.cutoff now) s.table.nodes.length

/-- A release handler that is no longer posted, up to `shut_down_if_unused()`. -/
def runRelease (s : Demux E) (h : Release E) : Demux E :=
  match s.table.index.lookup h.source with
  | none => s
  | some it =>
      match s.table.deref it with
      | none => { s with crashed := true }
      | some n =>
          if (s.peers[n.value.mailbox]?).map Peer.address = some h.mailbox then s.evict it .owner
          else s

/-! ## What the table is for -/

/-- The index and the list hold the same entries, at most `maxConnections` of them, and the open Mailboxes
are those of the entries; the receives that waited on any other one go on and return. -/
structure Consistent (maxConnections : Nat) (s : Demux E) : Prop where
  running : s.crashed = false
  index : ∀ source it,
    s.table.index.lookup source = some it ↔ ∃ n ∈ s.table.nodes, n.key = source ∧ n.id = it
  nodes : ∀ n ∈ s.table.nodes, s.table.deref n.id = some n
  sources : (s.table.nodes.map Lib.Node.key).Nodup
  size : s.table.index.keys.length = s.table.nodes.length
  bound : s.table.nodes.length ≤ maxConnections
  entries : ∀ n ∈ s.table.nodes, ∃ p : Peer E,
    s.peers[n.value.mailbox]? = some p ∧ p.source = n.key
  isOpen : ∀ (b : Nat) (p : Peer E), s.peers[b]? = some p →
    (p.mailbox.closed = false ↔ s.InTable b)
  woken : ∀ (b : Nat) (p : Peer E), s.peers[b]? = some p → ¬ s.InTable b →
    p.mailbox.waiting = 0 ∧ ∃ r, p.receive.results = p.results ++ [r]

/-- The accept channel does not take the Connection of a new source. -/
def Refuses (s : Demux E) (source : E) (address : Addr) (now : Int) : Prop :=
  (s.makeRoom.add source address now).trySend s.makeRoom.peers.length = none

/-- The second state has the entries, the index and the Mailboxes of the first one. -/
structure SameTable (s t : Demux E) : Prop where
  nodes : t.table.nodes = s.table.nodes
  index : ∀ source, t.table.index.lookup source = s.table.index.lookup source
  mailboxes : ∀ (b : Nat) (p : Peer E), s.peers[b]? = some p →
    ∃ q : Peer E, t.peers[b]? = some q ∧ q.mailbox = p.mailbox

/-- `accept()` returned the `b`-th Connection. -/
def HandedOut (s : Demux E) (b : Nat) : Prop := .ok b ∈ s.accepts

instance (s : Demux E) (b : Nat) : Decidable (s.HandedOut b) := inferInstanceAs (Decidable (_ ∈ _))

/-- The source has an entry, whose Connection waits in the channel or was handed over. -/
def Welcomes (s : Demux E) (source : E) : Prop :=
  ∃ n ∈ s.table.nodes, n.key = source ∧
    (n.value.mailbox ∈ s.channel.buffer ∨ s.HandedOut n.value.mailbox)

/-- The channel takes another Connection. -/
def HasRoom (s : Demux E) : Prop :=
  0 < s.channel.waiting ∨ s.channel.buffer.length < channelCapacity

/-- Every Connection that `accept()` returned was closed or destroyed, and its release handler has run. -/
def AllReleased (s : Demux E) : Prop :=
  ∀ b, s.HandedOut b → (∃ p, s.peers[b]? = some p ∧ p.conn.released = true) ∧
    ∀ h ∈ s.posted, h.poster ≠ b

/-- No release handler that is posted takes a Mailbox of this source at this address for its own. -/
def NotCaptured (posted : List (Release E)) (source : E) (address : Addr) : Prop :=
  ∀ h ∈ posted, h.source = source → h.mailbox ≠ address

end Demux

end Taps
