import Taps.Lib.Lru
import Taps.Lib.System
import Taps.Udp.Loops

/-!
# What the demultiplexer is for

A flow for each source that has been heard, with a queue of its datagrams that drops the oldest one, and a table of
the sources that keeps those that were heard last. A flow is known by its number in the order in which they began.
-/

namespace Taps

/-- `returned` is what the application has taken from the queue, and `cause` why the flow has left the table. -/
structure Flow (E : Type) where
  queue : Lib.DropOldest (Datagram E)
  returned : List (Datagram E)
  cause : Option CloseCause

namespace Flow

variable {E : Type}

def create : Flow E :=
  { queue := .create Mailbox.defaultCapacity (by decide), returned := [], cause := none }

def push (x : Flow E) (d : Datagram E) : Flow E := { x with queue := x.queue.push d }

def take (x : Flow E) : Flow E :=
  { x with queue := x.queue.pop, returned := x.returned ++ x.queue.queue.head?.toList }

/-- The first cause is kept. -/
def close (x : Flow E) (cause : CloseCause) : Flow E :=
  { x with queue := { x.queue with closed := true }, cause := some (x.cause.getD cause) }

end Flow

structure Flows (E : Type) where
  accepting : Bool
  table : Lib.Lru E Entry
  flows : List (Flow E)

/-- `taken` says whether a new flow is taken for `accept()`, so that its first datagram is queued. `release` is of a
source, `sweep` of those that were last heard before the cutoff, and `take` of a flow. -/
inductive FlowEvent (E : Type)
  | datagram (now : Int) (d : Datagram E) (taken : Bool)
  | sweep (cutoff : Int)
  | release (source : E)
  | stop
  | take (b : Nat)

namespace Flows

variable {E : Type}

def create (bound : Nat) (bound_pos : 0 < bound) : Flows E :=
  { accepting := true, table := .empty bound bound_pos, flows := [] }

def modify (t : Flows E) (b : Nat) (f : Flow E → Flow E) : Flows E :=
  { t with flows := t.flows.modify b f }

variable [DecidableEq E]

/-- The entry leaves the table, and its flow is closed. -/
def evict (cause : CloseCause) (t : Flows E) (x : E × Entry) : Flows E :=
  { t.modify x.2.mailbox (Flow.close · cause) with table := t.table.erase x.1 }

def makeRoom (t : Flows E) (source : E) : Flows E :=
  match t.table.victim source with
  | some x => t.evict .displaced x
  | none => t

/-- The first datagram of a new flow. -/
def begin (t : Flows E) (now : Int) (d : Datagram E) (taken : Bool) : Flows E :=
  { t with
    table := t.table.put d.source { mailbox := t.flows.length, lastActive := now }
    flows := t.flows ++ [if taken then Flow.create.push d else .create] }

def datagram (t : Flows E) (now : Int) (d : Datagram E) (taken : Bool) : Flows E :=
  match t.table.find? d.source with
  | some x =>
      { t with table := t.table.put d.source { x with lastActive := now } }.modify x.mailbox (Flow.push · d)
  | none => if t.accepting then (t.makeRoom d.source).begin now d taken else t

/-- From the back of the table on. -/
def sweep (t : Flows E) (cutoff : Int) : Flows E :=
  (t.table.entries.rtakeWhile fun x => x.2.lastActive < cutoff).reverse.foldl (evict .idle) t

def release (t : Flows E) (source : E) : Flows E :=
  match t.table.find? source with
  | some x => t.evict .owner (source, x)
  | none => t

def next (t : Flows E) : FlowEvent E → Flows E
  | .datagram now d taken => t.datagram now d taken
  | .sweep cutoff => t.sweep cutoff
  | .release source => t.release source
  | .stop => { t with accepting := false }
  | .take b => t.modify b Flow.take

def system (bound : Nat) (bound_pos : 0 < bound) : Lib.System (Flows E) (FlowEvent E) where
  init t := t = create bound bound_pos
  step t e t' := t' = t.next e

/-- The datagrams are of these sources. -/
def Hears (sources : Finset E) (_ : Flows E) (e : FlowEvent E) (_ : Flows E) : Prop :=
  ∀ now d taken, e = .datagram now d taken → d.source ∈ sources

end Flows

/-! ## What the code's state stands for -/

/-- What a Mailbox and its Connection stand for. -/
def Peer.toFlow {E : Type} (p : Peer E) : Flow E :=
  { queue := p.mailbox.toQueue, returned := p.returned
    cause := if p.mailbox.closed then some p.mailbox.cause else none }

structure Demux.Represents {E : Type} (s : Demux E) (t : Flows E) : Prop where
  accepting : t.accepting = s.accepting
  entries : t.table.entries = s.table.nodes.map fun n => (n.key, n.value)
  bound : t.table.bound = s.config.maxConnections
  flows : t.flows = s.peers.map Peer.toFlow

/-- The datagrams that a step serves are of these sources. -/
def UDPDemux.ServesOnly {E : Type} (sources : Finset E) (s : UDPDemux E) (e : DemuxEvent E) (_ : UDPDemux E) : Prop :=
  ∀ now address atCap d, e = .resume now address atCap → s.Received d → d.source ∈ sources

end Taps
