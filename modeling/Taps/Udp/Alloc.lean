import Taps.Udp.Loops

/-!
# A UDP Listener that runs out of memory

`receive_loop()` with the allocations that it makes, each of which may throw. Nothing in it catches, and it
is spawned detached: what throws ends the loop, and leaves the rest as it is at that moment.
-/

namespace Taps

/-- What `receive_loop()` allocates, in the order in which a turn comes to it after a datagram: the BlockChain,
for a new source the Mailbox, its entry in `lru_` and in `index_` and the Connection, the slots of a ring that
grows, and the storage and the header of the next block. -/
inductive Allocation
  | chain
  | mailbox
  | entry
  | index
  | connection
  | ring
  | storage
  | header
  deriving DecidableEq, Repr

/-- `deliver()` comes to `grow()`. -/
def Mailbox.Grows {α : Type} (m : Mailbox α) : Prop :=
  m.closed = false ∧ ¬ m.Full ∧ m.ring.count = m.ring.slots.length

instance {α : Type} (m : Mailbox α) : Decidable m.Grows := inferInstanceAs (Decidable (_ ∧ _))

namespace Demux

variable {E : Type}

/-! ## Datagrams

`throws` says which of the allocations of the turn throw, and `.error` is the state that an exception
leaves. -/

def grows (s : Demux E) (b : Nat) : Bool := (s.peers[b]?).any fun p => p.mailbox.Grows

/-- `mailbox->deliver()`, on the `b`-th Mailbox. -/
def deliverOrThrow (s : Demux E) (throws : Allocation → Bool) (b : Nat) (d : Datagram E) :
    Except (Demux E) (Demux E) :=
  if s.grows b && throws .ring then .error s else .ok (s.update b fun p => p.deliver d)

/-- A Mailbox for a new source in `lru_` that `index_` has no entry for, and no Connection. -/
def addUnindexed (s : Demux E) (source : E) (address : Addr) (now : Int) : Demux E :=
  { s with
    peers := s.peers ++ [(Peer.create source address).destroy]
    table := s.table.pushNode source { mailbox := s.peers.length, lastActive := now } }

variable [DecidableEq E]

def connectOrThrow (s : Demux E) (throws : Allocation → Bool) (now : Int) (address : Addr) (d : Datagram E) :
    Except (Demux E) (Demux E) :=
  if throws .mailbox || throws .entry then .error s
  else if throws .index then .error (s.addUnindexed d.source address now)
  else
    let b := s.peers.length
    let s := s.add d.source address now
    if throws .connection then .error (s.update b Peer.destroy)
    else
      match s.trySend b with
      | some s => s.deliverOrThrow throws b d
      | none => .ok (s.destroy b)

/-- `receive_loop()` from the BlockChain of a received datagram on, to the end of its turn. -/
def serveOrThrow (s : Demux E) (throws : Allocation → Bool) (now : Int) (address : Addr) (d : Datagram E) :
    Except (Demux E) (Demux E) :=
  match s.table.index.lookup d.source with
  | some it =>
      match s.table.deref it with
      | none => .ok { s with crashed := true }
      | some n =>
          { s with table := s.table.touch n { n.value with lastActive := now } }.deliverOrThrow throws
            n.value.mailbox d
  | none => if s.accepting then s.makeRoom.connectOrThrow throws now address d else .ok s

/-! ## What a turn allocates -/

def deliverAllocations (s : Demux E) (b : Nat) : List Allocation := if s.grows b then [.ring] else []

/-- The allocations of a turn with a datagram, after that of its BlockChain. -/
def serveAllocations (s : Demux E) (now : Int) (address : Addr) (d : Datagram E) : List Allocation :=
  match s.table.index.lookup d.source with
  | some it =>
      match s.table.deref it with
      | none => []
      | some n => s.deliverAllocations n.value.mailbox
  | none =>
      if s.accepting then
        [.mailbox, .entry, .index, .connection] ++
          match (s.makeRoom.add d.source address now).trySend s.makeRoom.peers.length with
          | some t => t.deliverAllocations s.makeRoom.peers.length
          | none => []
      else []

end Demux

namespace UDPDemux

variable {E : Type}

/-- `pool_->acquire()`, which allocates nothing at the cap, and the receive that follows it. -/
def acquireOrThrow (s : UDPDemux E) (throws : Allocation → Bool) (atCap : Bool) : UDPDemux E :=
  if !atCap && (throws .storage || throws .header) then { s with receiveLoop := .returned }
  else s.nextReceive atCap

def acquireAllocations (atCap : Bool) : List Allocation := if atCap then [] else [.storage, .header]

/-- After `start()`, with both loops at their first suspension or the receive loop ended before it. -/
def createOrThrow (config : DemuxConfig) (throws : Allocation → Bool) (atCap : Bool) : UDPDemux E :=
  (create config atCap).acquireOrThrow throws atCap

variable [DecidableEq E]

/-- `receive_loop()` from the completion of its receive to the start of the next one, or to its end. -/
def resumeOrThrow (s : UDPDemux E) (throws : Allocation → Bool) (now : Int) (address : Addr) (atCap sink : Bool) :
    Except ErrorCode (Datagram E) → UDPDemux E
  | .error ec =>
      if ec = .operationAborted then { s with receiveLoop := .returned } else s.acquireOrThrow throws atCap
  | .ok d =>
      if sink then s.acquireOrThrow throws atCap
      else if throws .chain then { s with receiveLoop := .returned }
      else
        match s.demux.serveOrThrow throws now address d with
        | .error demux => { s with demux, receiveLoop := .returned }
        | .ok demux => { s with demux }.acquireOrThrow throws atCap

/-- One step, with the allocations that throw in a turn of `receive_loop()` if it is one; `none` where the
event cannot happen. -/
def stepOrThrow (s : UDPDemux E) (throws : Allocation → Bool) (e : DemuxEvent E) : Option (UDPDemux E) :=
  match e, s.receiveLoop with
  | .resume now address atCap, .completed sink outcome =>
      if s.demux.crashed ∨ address ∈ s.demux.makeRoom.live then none
      else some (s.resumeOrThrow throws now address atCap sink outcome)
  | e, _ => s.step e

/-- The allocations that a turn of `receive_loop()` makes. -/
def turnAllocations (s : UDPDemux E) : DemuxEvent E → List Allocation
  | .resume now address atCap =>
      match s.receiveLoop with
      | .completed _ (.error ec) => if ec = .operationAborted then [] else acquireAllocations atCap
      | .completed sink (.ok d) =>
          (if sink then [] else .chain :: s.demux.serveAllocations now address d) ++ acquireAllocations atCap
      | _ => []
  | _ => []

/-- A step with the allocations that throw in it. -/
def allocating (config : DemuxConfig) : Lib.System (UDPDemux E) (DemuxEvent E × (Allocation → Bool)) where
  init s := ∃ throws atCap, s = createOrThrow config throws atCap
  step s e s' := s.stepOrThrow e.2 e.1 = some s'

/-! ## What the results say of a state and a step -/

/-- `receive_loop()` has not ended while the socket is open, and `index_` and `lru_` hold the same entries. -/
structure Survives (s : UDPDemux E) : Prop where
  loop : s.receiveLoop = .returned → s.socketOpen = false
  table : s.demux.table.Agrees

/-- While the socket is open, no allocation of the turn that the step is throws. -/
def Spares (s : UDPDemux E) (throws : Allocation → Bool) (e : DemuxEvent E) : Prop :=
  s.socketOpen = true → ∀ a ∈ s.turnAllocations e, throws a = false

end UDPDemux

end Taps
