import Taps.Lib.System
import Taps.Tcp.Connection

/-!
# Runs of one TCP connection

A connection together with the memory its blocks are in, the Messages that the application keeps and
the receive in flight, of which there is at most one. The environment decides how much each read
brings and whether it fails, where the resource allocates a block and what is in it, and when the
application drops a Message. `send()`, `close()` and `abort()` touch neither blocks nor chain: they
appear as arbitrary writes to the two members that they share with the receive.
-/

namespace Taps

inductive Reply
  | message (payload : List Byte) (endOfMessage : Bool)
  | error (event : ErrorEvent) (reason : ErrorReason)
  deriving DecidableEq, Repr

/-- What a result shows of itself where the memory is `mem`. -/
def Reply.ofResult (mem : Memory) : Result Message → Reply
  | .ok m => .message (m.payload mem) m.endOfMessage
  | .error e => .error e.event e.reason

/-- What has happened to the bytes of the stream, for the statements about it: the bytes read, for
each record or chunk delivered the bytes dropped before it and its own, and the bytes discarded at the
end of the stream. `replies` are the results of the receives that have returned. -/
structure History where
  read : List Byte
  accepted : List (List Byte × List Byte)
  discarded : List Byte
  replies : List Reply

namespace History

/-- The bytes that the accepted records and the delivered chunks account for. -/
def acceptedBytes (h : History) : List Byte := h.accepted.flatMap fun a => a.1 ++ a.2

def deliveredBytes (h : History) : List Byte :=
  h.replies.flatMap fun
    | .message payload _ => payload
    | .error _ _ => []

/-- The history once a stretch that found the bytes `unparsed` in the chain has ended in `p`. -/
def record (h : History) (mem : Memory) (unparsed : List Byte) (p : Progress) : History :=
  let h := { h with replies := h.replies ++ (p.result.map (Reply.ofResult mem)).toList }
  match p with
  | .delivered d m =>
      { h with accepted := h.accepted ++ [(unparsed.take d.toNat, m.payload mem)] }
  | .incomplete n _ => { h with discarded := h.discarded ++ unparsed.take n }
  | _ => h

end History

structure Session (σ : Type) where
  mem : Memory
  conn : TCPConnection σ
  pending : Option ReadBuffer
  kept : List Message
  history : History

inductive ReadOutcome
  | data (bytes : List Byte)
  | failed (ec : ErrorCode)

namespace ReadOutcome

def bytes : ReadOutcome → List Byte
  | .data bs => bs
  | .failed _ => []

def code : ReadOutcome → Option ErrorCode
  | .data _ => none
  | .failed ec => some ec

end ReadOutcome

/-- Where the resource allocates the next block, and what that block holds at first. -/
structure Fresh where
  addr : Addr
  cells : Nat → Byte

inductive SessionEvent (σ : Type)
  | receive (fresh : Fresh)
  | readDone (outcome : ReadOutcome) (fresh : Fresh)
  | drop (i : Nat)
  | others (state : ConnectionState) (aborted : Bool)
  | setFramer (framer : Option (MessageFramer σ)) (framerState : σ)

namespace SessionEvent

variable {σ : Type}

def received : SessionEvent σ → List Byte
  | .readDone outcome _ => outcome.bytes
  | .receive _ | .drop _ | .others _ _ | .setFramer _ _ => []

def KeepsFramer : SessionEvent σ → Prop
  | .setFramer _ _ => False
  | .receive _ | .readDone _ _ | .drop _ | .others _ _ => True

end SessionEvent

namespace Session

variable {σ : Type}

def outside (s : Session σ) : List Addr := s.kept.flatMap Message.handles

/-- The blocks that somebody has a handle to. -/
def handles (s : Session σ) : List Addr := s.conn.handles ++ s.outside

/-- The byte at `off` of the block `blk` was received, and the chain or a Message has a handle to it. -/
def Held (s : Session σ) (blk : Addr) (off : Nat) : Prop :=
  s.conn.receiveChain.Covers blk off ∨ ∃ m ∈ s.kept, m.Covers blk off

def unparsed (s : Session σ) : List Byte := s.conn.receiveChain.bytes s.mem

/-- The session once a stretch has left the connection as `c` and ended in `p`. -/
def settle (s : Session σ) (unparsed : List Byte) (c : TCPConnection σ) (p : Progress) : Session σ :=
  { s with
    conn := c
    pending := match p with
      | .suspended b => some b
      | _ => none
    kept := match p with
      | .delivered _ m => m :: s.kept
      | _ => s.kept
    history := s.history.record s.mem unparsed p }

/-- The session once the resource has a block ready at `fresh`. -/
def allocated (s : Session σ) (fresh : Fresh) : Session σ :=
  { s with mem := s.mem.fill fresh.addr fresh.cells }

/-- The session once a read has brought `bs` into the buffer `b`. -/
def afterRead (s : Session σ) (b : ReadBuffer) (bs : List Byte) : Session σ :=
  { s with
    mem := s.mem.write b.block b.offset bs
    history := { s.history with read := s.history.read ++ bs } }

@[simp] theorem allocated_conn (s : Session σ) (fresh : Fresh) :
    (s.allocated fresh).conn = s.conn := rfl

@[simp] theorem afterRead_conn (s : Session σ) (b : ReadBuffer) (bs : List Byte) :
    (s.afterRead b bs).conn = s.conn := rfl

/-- One step; `none` where the event cannot happen. A receive is called only when none is in flight,
a read brings no more than its buffer holds, and the resource allocates only where no handle refers
to. -/
def step (s : Session σ) : SessionEvent σ → Option (Session σ)
  | .receive fresh =>
      if s.pending = none ∧ fresh.addr ∉ s.handles then
        let s := s.allocated fresh
        let (c, p) := s.conn.receive s.mem s.outside fresh.addr
        some (s.settle s.unparsed c p)
      else none
  | .readDone outcome fresh =>
      match s.pending with
      | none => none
      | some b =>
          if outcome.bytes.length ≤ b.len ∧ fresh.addr ∉ s.handles then
            let s := (s.allocated fresh).afterRead b outcome.bytes
            (s.conn.resume s.mem s.outside fresh.addr outcome.code outcome.bytes.length).map
              fun (c, p) => s.settle (s.unparsed ++ outcome.bytes) c p
          else none
  | .drop i => some { s with kept := s.kept.eraseIdx i }
  | .others state aborted => some { s with conn := { s.conn with state, aborted } }
  | .setFramer framer framerState =>
      if s.pending = none then some { s with conn := { s.conn with framer, framerState } } else none

/-- A session at the start: a connection with nothing received yet. -/
def create (mem : Memory) (conn : TCPConnection σ) : Session σ :=
  { mem, conn, pending := none, kept := []
    history := { read := [], accepted := [], discarded := [], replies := [] } }

/-- The runs of a connection that starts in some state, with some framer or none, and some pool. -/
def system (σ : Type) : Lib.System (Session σ) (SessionEvent σ) where
  init s := ∃ mem state framer framerState pool,
    s = create mem (.create state framer framerState pool)
  step s e s' := s.step e = some s'

/-- The runs in which the framer is set before the first receive, if at all. -/
def fixedFramer (σ : Type) : Lib.System (Session σ) (SessionEvent σ) :=
  (system σ).restrict fun _ e _ => e.KeepsFramer

/-! ## What the results say of a step -/

/-- A read without a framer that brings bytes, or the end of the stream, finds nothing left in the chain. -/
def Heeds (s : Session σ) : SessionEvent σ → Prop
  | .readDone outcome _ => s.conn.framer = none → outcome.bytes ≠ [] ∨ outcome.code = some .eof →
      s.conn.receiveChain.size = 0
  | .receive _ | .drop _ | .others _ _ | .setFramer _ _ => True

end Session

end Taps
