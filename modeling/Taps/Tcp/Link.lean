import Taps.Lib.Operation
import Taps.Lib.System
import Taps.Tcp.Connection

/-!
# Calls on one TCP connection

An established connection together with its socket and the calls that were made on it: `send()`,
`receive()`, `close()` and `abort()` of any number of coroutines on one executor, each from one suspension
to the next. Cancelling the operations of the socket, or closing it, completes those that are pending; one
that has completed, and whose coroutine has yet to be resumed, stays as it is. An operation started on the
closed socket completes with `bad_descriptor`.

A call is known by its number in the order in which the calls were made.
-/

namespace Taps

/-! ## `ByteStream::shutdown`

The graceful end of a stream, from one suspension to the next. A plain stream ends its side at once and
reads until the peer has ended its own; a TLS stream sends its close_notify and waits for the peer's, and
reads like a plain one where the peer still sends.
-/

/-- What `shutdown()` is suspended on: `async_shutdown()` of a TLS stream, or a read of
`drain_until_eof()`. -/
inductive ShutdownOperation
  | notify
  | drain
  deriving DecidableEq, Repr

inductive Shutdown
  | suspended (on : ShutdownOperation) (op : Lib.Operation ErrorCode Nat)
  | done (result : Result Unit)

/-- The next read of `drain_until_eof()`. -/
def drainUntilEof (isOpen : Bool) : Shutdown := .suspended .drain (.start isOpen .badDescriptor)

/-- `PlainStream::shutdown()`, where the shutdown of the send direction sets `ec`. -/
def PlainStream.shutdown (isOpen : Bool) : Option ErrorCode → Shutdown
  | some ec => .done (.error (ioError .connectionError ec))
  | none => drainUntilEof isOpen

def TlsStream.shutdown (isOpen : Bool) : Shutdown := .suspended .notify (.start isOpen .badDescriptor)

/-- `shutdown()` from the completion of the operation on. -/
def Shutdown.resume (isOpen : Bool) : ShutdownOperation → Except ErrorCode Nat → Shutdown
  | .notify, .ok _ | .notify, .error .eof | .notify, .error .streamTruncated => .done (.ok ())
  | .notify, .error .applicationDataAfterCloseNotify => drainUntilEof isOpen
  | .drain, .ok _ => drainUntilEof isOpen
  | .drain, .error .eof => .done (.ok ())
  | _, .error ec => .done (.error (ioError .connectionError ec))

/-! ## The calls -/

def errorOf {ε α : Type} : Except ε α → Option ε
  | .error e => some e
  | .ok _ => none

/-- The bytes that a read has brought. -/
def bytesOf : Except ErrorCode Nat → Nat
  | .ok n => n
  | .error _ => 0

/-- What a call is suspended on. -/
inductive Wait
  | read (buffer : ReadBuffer)
  | write
  | shutdown (on : ShutdownOperation)
  deriving DecidableEq

/-- A read brings no more than its buffer holds. -/
def Wait.holds : Wait → Nat → Bool
  | read buffer, n => n ≤ buffer.len
  | _, _ => true

/-- What the environment can complete the operation with: only this side cancels. -/
def Wait.Admits (wait : Wait) (outcome : Except ErrorCode Nat) : Prop :=
  outcome ≠ .error .operationAborted ∧ wait.holds (bytesOf outcome) = true

instance (wait : Wait) (outcome : Except ErrorCode Nat) : Decidable (wait.Admits outcome) :=
  inferInstanceAs (Decidable (_ ∧ _))

/-- How a call has returned; of a receive it is the end of its last stretch. -/
inductive Return
  | received (progress : Progress)
  | sent (result : Result Unit)
  | closed (result : Result Unit)
  | aborted (result : Result Unit)

inductive Call
  | suspended (wait : Wait) (op : Lib.Operation ErrorCode Nat)
  | returned (value : Return)

/-- `secured` says that the stream is a TLS stream. `outcomes` are those of the reads that receives went on
from and `messages` those that receives returned before the end of the stream, each in order. -/
structure Link (σ : Type) where
  conn : TCPConnection σ
  secured : Bool
  socketOpen : Bool
  calls : List Call
  outcomes : List (Except ErrorCode Nat)
  messages : List Message

/-- What a stretch finds around the connection: the memory, the blocks that Messages have handles to, and
where the resource allocates. -/
structure Surroundings where
  mem : Memory
  outside : List Addr
  fresh : Addr

/-- `complete` completes the operation that the `i`-th call is suspended on, and `resume` resumes the call.
`shutdown` is the error of the shutdown of the send direction, and `ec` that of `socket_.close()`. -/
inductive LinkEvent
  | send (around : Surroundings) (message : Message)
  | receive (around : Surroundings)
  | close (shutdown ec : Option ErrorCode)
  | abort (ec : Option ErrorCode)
  | complete (i : Nat) (outcome : Except ErrorCode Nat)
  | resume (i : Nat) (around : Surroundings) (ec : Option ErrorCode)

namespace Call

/-- What cancelling the operations of the socket does to a call. -/
def cancel : Call → Call
  | suspended wait op => suspended wait (op.cancel .operationAborted)
  | c => c

/-- The call still has an operation of the socket to wait for. -/
def Pending (c : Call) : Prop := ∃ wait, c = suspended wait .pending

/-- A receive that waits for a read or for the resumption after it. -/
def Reads (c : Call) : Prop := ∃ buffer op, c = suspended (.read buffer) op

/-- A receive at the end of a stretch. -/
def ofProgress (isOpen : Bool) : Progress → Call
  | .suspended buffer => suspended (.read buffer) (.start isOpen .badDescriptor)
  | p => returned (.received p)

end Call

def Progress.error (p : Progress) : Option TAPSError := p.result.bind errorOf

def Progress.message : Progress → Option Message
  | .delivered _ m => some m
  | _ => none

def Return.error : Return → Option TAPSError
  | received p => p.error
  | sent r | closed r | aborted r => errorOf r

/-- The error that a call has returned, if any. -/
def Call.error : Call → Option TAPSError
  | returned value => value.error
  | suspended _ _ => none

namespace Link

variable {σ : Type}

def push (s : Link σ) (c : Call) : Link σ := { s with calls := s.calls ++ [c] }

def set (s : Link σ) (i : Nat) (c : Call) : Link σ := { s with calls := s.calls.set i c }

/-- `socket_.cancel()`. -/
def cancel (s : Link σ) : Link σ := { s with calls := s.calls.map Call.cancel }

/-- `socket_.close()`. -/
def closeSocket (s : Link σ) : Link σ := { s.cancel with socketOpen := false }

/-- The error of `socket_.close()`: none where the socket is closed already. -/
def closeError (s : Link σ) (ec : Option ErrorCode) : Option ErrorCode :=
  if s.socketOpen then ec else none

def send (s : Link σ) (around : Surroundings) (message : Message) : Link σ :=
  let (conn, r) := s.conn.sendBegin around.mem message
  { s with conn }.push
    (match r with
    | .ok _ => .suspended .write (.start s.socketOpen .badDescriptor)
    | .error e => .returned (.sent (.error e)))

/-- The link once a stretch of a receive has left the connection as `conn` and ended in `p`. -/
def settle (s : Link σ) (conn : TCPConnection σ) (p : Progress) : Link σ :=
  { s with conn, messages := s.messages ++ p.message.toList }

def receive (s : Link σ) (around : Surroundings) : Link σ :=
  let (conn, p) := s.conn.receive around.mem around.outside around.fresh
  (s.settle conn p).push (.ofProgress s.socketOpen p)

/-- `stream_->shutdown()`. -/
def shutdown (s : Link σ) (ec : Option ErrorCode) : Shutdown :=
  if s.secured then TlsStream.shutdown s.socketOpen else PlainStream.shutdown s.socketOpen ec

/-- `close()` where `stream_->shutdown()` has suspended or returned. -/
def closing (s : Link σ) (sd : Shutdown) (ec : Option ErrorCode) : Link σ × Call :=
  match sd with
  | .suspended on op => (s, .suspended (.shutdown on) op)
  | .done result =>
      let (conn, r) := s.conn.closeEnd result (s.closeError ec)
      ({ s with conn }.closeSocket, .returned (.closed r))

def close (s : Link σ) (shutdown ec : Option ErrorCode) : Link σ :=
  match s.conn.closeBegin with
  | none => s.push (.returned (.closed (.ok ())))
  | some conn =>
      let s := { s with conn }.cancel
      let (s, c) := s.closing (s.shutdown shutdown) ec
      s.push c

def abort (s : Link σ) (ec : Option ErrorCode) : Link σ :=
  let (conn, r) := s.conn.abort (s.closeError ec)
  { s with conn }.closeSocket.push (.returned (.aborted r))

/-- The `i`-th call from the completion of its operation on. -/
def resume (s : Link σ) (i : Nat) (wait : Wait) (outcome : Except ErrorCode Nat)
    (around : Surroundings) (ec : Option ErrorCode) : Option (Link σ) :=
  match wait with
  | .read _ =>
      (s.conn.resume around.mem around.outside around.fresh (errorOf outcome) (bytesOf outcome)).map
        fun (conn, p) =>
          ({ s with outcomes := s.outcomes ++ [outcome] }.settle conn p).set i (.ofProgress s.socketOpen p)
  | .write =>
      let (conn, r) := s.conn.sendEnd (errorOf outcome)
      some ({ s with conn }.set i (.returned (.sent r)))
  | .shutdown on =>
      let (t, c) := s.closing (.resume s.socketOpen on outcome) ec
      some (t.set i c)

/-- One step; `none` where the event cannot happen. -/
def step (s : Link σ) : LinkEvent → Option (Link σ)
  | .send around message => some (s.send around message)
  | .receive around => some (s.receive around)
  | .close shutdown ec => if shutdown = some .operationAborted then none else some (s.close shutdown ec)
  | .abort ec => some (s.abort ec)
  | .complete i outcome =>
      match s.calls[i]? with
      | some (.suspended wait .pending) =>
          if wait.Admits outcome then some (s.set i (.suspended wait (.completed outcome))) else none
      | _ => none
  | .resume i around ec =>
      match s.calls[i]? with
      | some (.suspended wait (.completed outcome)) => s.resume i wait outcome around ec
      | _ => none

/-- An established connection before the first call. -/
def create (conn : TCPConnection σ) (secured : Bool) : Link σ :=
  { conn, secured, socketOpen := true, calls := [], outcomes := [], messages := [] }

def system (σ : Type) : Lib.System (Link σ) LinkEvent where
  init s := ∃ framer framerState pool secured,
    s = create (.create .established framer framerState pool) secured
  step s e s' := s.step e = some s'

/-! ## What the results say of a state and a step -/

/-- The call that a step is about. -/
def callOf (s : Link σ) : LinkEvent → Nat
  | .complete i _ | .resume i _ _ => i
  | .send _ _ | .receive _ | .close _ _ | .abort _ => s.calls.length

/-- A `close()` or an `abort()` is called. -/
def Ends (e : LinkEvent) : Prop := (∃ shutdown ec, e = .close shutdown ec) ∨ ∃ ec, e = .abort ec

def Aborts (es : List LinkEvent) : Prop := ∃ ec, .abort ec ∈ es

/-- The call is a receive that has returned, without another read, the error of one that `abort()` has
ended, if that is among the events, or of one that `close()` has. -/
def EndsReceive (es : List LinkEvent) (c : Call) : Prop :=
  ∃ err, c = .returned (.received (.failed err)) ∧
    (Aborts es → err.event = .connectionError ∧ err.reason = .localAbort) ∧
    (¬ Aborts es → err.event = .receiveError ∧ err.reason = .invalidState)

/-- The connection is closed, its socket too, and no receive waits for a read. -/
def Over (s : Link σ) : Prop :=
  s.conn.state = .closed ∧ s.socketOpen = false ∧
    ∀ c ∈ s.calls, ∀ buffer, c ≠ .suspended (.read buffer) .pending

/-- The state does not go back. -/
def Forward (s t : ConnectionState) : Prop :=
  s = t ∨ s = .established ∧ (t = .closing ∨ t = .closed) ∨ s = .closing ∧ t = .closed

/-- The receives are issued one at a time. -/
def OneAtATime (s : Link σ) (e : LinkEvent) (_ : Link σ) : Prop :=
  ∀ around, e = .receive around → ∀ c ∈ s.calls, ¬ c.Reads

/-- A read of a receive has told that the peer's stream has ended, cleanly or not. -/
def PeerEnded (s : Link σ) : Prop :=
  ∃ code, .error code ∈ s.outcomes ∧ (code = .eof ∨ code = .streamTruncated)

/-- The call is a receive that has returned the end-of-stream Message, or a `RECEIVE_ERROR` after the end of
the peer's stream. -/
def EndsStream (s : Link σ) (c : Call) : Prop :=
  (∃ m, c = .returned (.received (.ended m))) ∨
    s.PeerEnded ∧ ∃ p err, c = .returned (.received p) ∧ p.error = some err ∧ err.event = .receiveError

/-- A `close()` or an `abort()` has completed. -/
def Closed (s : Link σ) : Prop :=
  ∃ c ∈ s.calls, ∃ r, c = .returned (.closed r) ∨ c = .returned (.aborted r)

end Link

end Taps
