import Taps.Tcp.Session

/-!
# Overlapping receives on one unframed connection

Any number of receives may be pending, each with its read. The socket completes the reads in the order
they were started, each into the buffer it was given then; the executor resumes the coroutine of a
completed read at any later time, in any order.
-/

namespace Taps

/-- A read that has completed, and what its receive returned once it was resumed. -/
structure Completion where
  outcome : ReadOutcome
  reply : Option Reply

/-- What the receive of a completed read gives the application, or has yet to give it. -/
def Completion.payload (c : Completion) : List Byte :=
  match c.reply with
  | none => c.outcome.bytes
  | some (.message payload _) => payload
  | some (.error _ _) => []

/-- `started` are the buffers of the reads in flight and `completions` the completed reads, both in
order; `kept` are the Messages that the application holds, each with the payload it was delivered with;
`stream` are the bytes that the socket has delivered. -/
structure Overlap where
  mem : Memory
  conn : TCPConnection Unit
  started : List ReadBuffer
  completions : List Completion
  kept : List (List Byte × Message)
  stream : List Byte
  crashed : Bool

inductive OverlapEvent
  | start (fresh : Fresh)
  | complete (outcome : ReadOutcome)
  | resume (i : Nat)
  | drop (i : Nat)
  | others (state : ConnectionState) (aborted : Bool)

namespace Overlap

def outside (s : Overlap) : List Addr := s.kept.flatMap fun p => p.2.handles

/-- The blocks that somebody has a handle to. A read in flight has none. -/
def handles (s : Overlap) : List Addr := s.conn.handles ++ s.outside

/-- A `receive()` up to its read, or up to its error. -/
def start (s : Overlap) (fresh : Fresh) : Overlap :=
  let mem := s.mem.fill fresh.addr fresh.cells
  let (conn, p) := s.conn.receive mem s.outside fresh.addr
  { s with
    mem, conn
    started := match p with
      | .suspended b => s.started ++ [b]
      | _ => s.started }

/-- The oldest read in flight completes. -/
def complete (s : Overlap) (outcome : ReadOutcome) (b : ReadBuffer) (started : List ReadBuffer) :
    Overlap :=
  { s with
    mem := s.mem.write b.block b.offset outcome.bytes
    started
    completions := s.completions ++ [{ outcome, reply := none }]
    stream := s.stream ++ outcome.bytes }

/-- The coroutine of the `i`-th completed read has returned. -/
def finish (s : Overlap) (i : Nat) (outcome : ReadOutcome) (conn : TCPConnection Unit)
    (p : Progress) : Overlap :=
  { s with
    conn
    completions :=
      s.completions.set i { outcome, reply := p.result.map (Reply.ofResult s.mem) }
    kept := match p with
      | .delivered _ m => (m.payload s.mem, m) :: s.kept
      | _ => s.kept }

/-- One step; `none` where the event cannot happen. After the use of an invalid `current_block_` there
is no next step. -/
def step (s : Overlap) (e : OverlapEvent) : Option Overlap :=
  if s.crashed then none
  else
    match e with
    | .start fresh => if fresh.addr ∈ s.handles then none else some (s.start fresh)
    | .complete outcome =>
        match s.started with
        | [] => none
        | b :: started =>
            if outcome.bytes.length ≤ b.len then some (s.complete outcome b started) else none
    | .resume i =>
        match s.completions[i]? with
        | some { outcome, reply := none } =>
            match s.conn.resumeUnframed outcome.code outcome.bytes.length with
            | some (conn, p) => some (s.finish i outcome conn p)
            | none => some { s with crashed := true }
        | _ => none
    | .drop i => some { s with kept := s.kept.eraseIdx i }
    | .others state aborted => some { s with conn := { s.conn with state, aborted } }

def create (mem : Memory) (state : ConnectionState) (pool : MessageBlockPool) : Overlap :=
  { mem, conn := .create state none () pool, started := [], completions := [], kept := []
    stream := [], crashed := false }

def system : Lib.System Overlap OverlapEvent where
  init s := ∃ mem state pool, s = create mem state pool
  step s e s' := s.step e = some s'

/-- No byte is lost, overwritten, duplicated or made up, no bytes are taken for the end of the stream,
and no invalid `current_block_` is used: the payloads, in the order of the reads, are the stream, and
the Messages held still have them. -/
structure Intact (s : Overlap) : Prop where
  running : s.crashed = false
  stream : s.completions.flatMap Completion.payload = s.stream
  returned : ∀ c ∈ s.completions, ∀ bs r, c.outcome = .data bs → c.reply = some r →
    r = .message bs false
  kept : ∀ p ∈ s.kept, p.2.payload s.mem = p.1

/-- A read that succeeds does so into the window of `current_block_`, and no other read that succeeded
waits for its coroutine to be resumed. -/
def InTurn (s : Overlap) : OverlapEvent → Prop
  | .complete (.data _) =>
      (∃ r, s.conn.currentBlock = some r ∧ s.started.head? = some (s.conn.bufferOf r)) ∧
        ∀ c ∈ s.completions, c.reply = none → c.outcome.code ≠ none
  | _ => True

end Overlap

end Taps
