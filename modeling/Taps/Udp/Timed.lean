import Taps.Udp.Loops

/-!
# A UDP Listener with a clock

The demultiplexer next to the steady clock that its loops read, and to what was read from its socket and
when.
-/

namespace Taps

/-- `clock` is the time of the last step, and `reads` are the sources of the datagrams that the socket has
given to a receive, each with the time. -/
structure TimedDemux (E : Type) where
  udp : UDPDemux E
  clock : Int
  reads : List (E × Int)

/-- A loop that is resumed reads the clock. -/
def DemuxEvent.atTime {E : Type} (t : Int) : DemuxEvent E → Bool
  | .resume now _ _ | .sweep now => now = t
  | _ => true

/-- The source of the datagram that a step reads from the socket. -/
def DemuxEvent.read {E : Type} : DemuxEvent E → List E
  | .arrive (.ok (source, _)) => [source]
  | _ => []

namespace TimedDemux

variable {E : Type} [DecidableEq E]

def create (config : DemuxConfig) (atCap : Bool) (clock : Int) : TimedDemux E :=
  { udp := .create config atCap, clock, reads := [] }

/-- A step at a time that is no earlier than that of the step before. -/
def step (s : TimedDemux E) (e : Int × DemuxEvent E) : Option (TimedDemux E) :=
  if s.clock ≤ e.1 ∧ e.2.atTime e.1 then
    (s.udp.step e.2).map fun udp =>
      { udp, clock := e.1, reads := s.reads ++ e.2.read.map fun source => (source, e.1) }
  else none

def system (config : DemuxConfig) : Lib.System (TimedDemux E) (Int × DemuxEvent E) where
  init s := ∃ atCap clock, s = create config atCap clock
  step s e s' := s.step e = some s'

/-! ## What the results say of a step -/

/-- A Connection that the step evicts for idleness is one from whose source nothing was read within the idle
timeout. -/
def IdleIsSilent (s : TimedDemux E) (t : Int) (s' : TimedDemux E) : Prop :=
  ∀ (b : Nat) (p p' : Peer E), s.udp.demux.peers[b]? = some p → p.mailbox.closed = false →
    s'.udp.demux.peers[b]? = some p' → p'.mailbox.closed = true → p'.mailbox.cause = .idle →
    ∀ r, (p.source, r) ∈ s.reads → r < t - seconds s.udp.demux.config.idleTimeout

/-- A source that has an entry sends nothing that is read at the cap of the pool, and nothing that waits for
`receive_loop()` to be resumed while a sweep runs; and the cutoff of the sweep does not overflow. -/
structure Heeds (s : TimedDemux E) (e : DemuxEvent E) : Prop where
  sources : ∀ sink d, s.udp.receiveLoop = .completed sink (.ok d) →
    (sink = true ∧ ∃ now address atCap, e = .resume now address atCap) ∨ (∃ now, e = .sweep now) →
    s.udp.demux.table.index.lookup d.source = none
  cutoff : ∀ now, e = .sweep now → s.udp.demux.CutoffFits now

end TimedDemux

/-! ## What the results say of an eviction -/

namespace Demux

variable {E : Type}

/-- `lru_` is in the order in which the entries were last active, the newest first. -/
def NewestFirst (s : Demux E) : Prop := s.table.Descending Entry.lastActive

variable [DecidableEq E]

/-- The entries that were last active before the cutoff are evicted, the oldest first, and the others stay as
they are. -/
structure EvictsIdle (cutoff : Int) (s t : Demux E) : Prop where
  evicted : t = (s.table.nodes.filter fun n => n.value.lastActive < cutoff).reverse.foldl
    (fun u n => u.remove n .idle) s
  kept : t.table.nodes = s.table.nodes.filter fun n => ¬ n.value.lastActive < cutoff

/-- The source of the datagram displaces an entry that was active no later than any other one, and the others
stay as they are behind its own entry. -/
def DisplacesOldest (now : Int) (address : Addr) (d : Datagram E) (s t : Demux E) : Prop :=
  ∃ (n : Lib.Node E Entry) (others : List (Lib.Node E Entry)),
    s.table.nodes = others ++ [n] ∧ (∀ x ∈ others, n.value.lastActive ≤ x.value.lastActive) ∧
    t = (s.remove n .displaced).connect now address d ∧
    t.table.nodes =
      ⟨s.table.nextId, d.source, { mailbox := s.peers.length, lastActive := now }⟩ :: others

end Demux

namespace UDPDemux

variable {E : Type} [DecidableEq E]

/-- `receive_loop()` has a datagram of a new source, and the table is full. -/
structure Full (s : UDPDemux E) (d : Datagram E) : Prop where
  received : s.Received d
  accepting : s.demux.accepting = true
  source : s.demux.table.index.lookup d.source = none
  size : s.demux.config.maxConnections ≤ s.demux.table.index.keys.length

/-- A sweep evicts what is idle and a turn of `receive_loop()` displaces the oldest entry. But for a release
handler, an entry that a step takes out of the list is one of these. -/
structure EvictsRight (s : UDPDemux E) (e : DemuxEvent E) (s' : UDPDemux E) : Prop where
  sweep : ∀ now, e = .sweep now → s.sweepLoop = .expired →
    Demux.EvictsIdle (s.demux.cutoff now) s.demux s'.demux
  displace : ∀ now address atCap d, e = .resume now address atCap → s.Full d →
    Demux.DisplacesOldest now address d s.demux s'.demux
  others : ∀ n ∈ s.demux.table.nodes, n.id ∉ s'.demux.table.nodes.map Lib.Node.id →
    (∃ now, e = .sweep now ∧ s.sweepLoop = .expired) ∨
    (∃ now address atCap d, e = .resume now address atCap ∧ s.Full d) ∨ ∃ i, e = .release i

end UDPDemux

end Taps
