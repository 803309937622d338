import Mathlib.Algebra.Order.BigOperators.Group.List
import Taps.Tcp.Session

/-!
# Receiving a whole stream

One receive after the other on a connection whose transport has a stream of bytes to deliver and then
the end of the stream. The transport cuts the stream as it likes, the resource allocates where it
likes, and between two receives the application drops the Messages it likes.
-/

namespace Taps

/-- Where the resource allocates, at its n-th use and with the given handles in use, and which of the
Messages kept are dropped after the n-th receive. -/
structure Environment where
  allocate : Nat → List Addr → Fresh
  allocate_fresh : ∀ n handles, (allocate n handles).addr ∉ handles
  drops : Nat → List Nat

/-- Allocates above all the blocks in use, and keeps all Messages. -/
def Environment.above : Environment where
  allocate _ handles := ⟨handles.sum + 1, fun _ => 0⟩
  allocate_fresh _ handles h := absurd (List.le_sum_of_mem h) (by simp)
  drops _ := []

/-- `rest` are the chunks that the transport has yet to deliver. -/
structure Transfer (σ : Type) where
  session : Session σ
  rest : List (List Byte)
  clock : Nat

/-- What a read into `len` bytes brings: the next chunk, as far as it fits. -/
def nextRead (len : Nat) : List (List Byte) → ReadOutcome × List (List Byte)
  | [] => (.failed .eof, [])
  | c :: cs => if c.length ≤ len then (.data c, cs) else (.data (c.take len), c.drop len :: cs)

namespace Transfer

variable {σ : Type}

def create (mem : Memory) (conn : TCPConnection σ) (chunks : List (List Byte)) : Transfer σ :=
  { session := .create mem conn, rest := chunks, clock := 0 }

def fresh (env : Environment) (t : Transfer σ) : Fresh := env.allocate t.clock t.session.handles

/-- Completes reads until the receive in flight has returned. -/
def complete (env : Environment) : Nat → Transfer σ → Option (Transfer σ)
  | fuel, t =>
      match t.session.pending with
      | none => some t
      | some b =>
          match fuel with
          | 0 => none
          | fuel + 1 =>
              (t.session.step (.readDone (nextRead b.len t.rest).1 (t.fresh env))).bind fun s =>
                complete env fuel
                  { session := s, rest := (nextRead b.len t.rest).2, clock := t.clock + 1 }

/-- One `receive()`, from its call to its result. Each of its reads brings a byte or the end of the
stream. -/
def receive (env : Environment) (t : Transfer σ) : Option (Transfer σ) :=
  (t.session.step (.receive (t.fresh env))).bind fun s =>
    complete env (t.rest.flatten.length + 1) { t with session := s, clock := t.clock + 1 }

def drop (env : Environment) (t : Transfer σ) : Option (Transfer σ) :=
  (((env.drops t.clock).map .drop).foldlM Session.step t.session).map fun s =>
    { t with session := s }

/-- The results of `n` receives in a row, each with `can_receive()` after it. -/
def results (env : Environment) : Nat → Transfer σ → Option (List (Reply × Bool))
  | 0, _ => some []
  | n + 1, t =>
      (t.receive env).bind fun t' =>
        (t'.session.history.replies.getLast?).bind fun r =>
          (t'.drop env).bind fun t'' =>
            (results env n t'').map ((r, t'.session.conn.canReceive) :: ·)

/-- The results of `n` receives in a row, where the receives until the end of the stream return `rs`. -/
def expected : List Reply → Nat → List (Reply × Bool)
  | _, 0 => []
  | rs, n + 1 =>
      (rs.headD (.error .receiveError .invalidState), !rs.tail.isEmpty) :: expected rs.tail n

end Transfer

/-! ## Reads into whatever room there is

A read into a buffer without room for a byte completes at once, with no byte and no error, whatever the stream has
left. `Transfer.complete` leaves that out: here it counts as a read.
-/

/-- What a read into `len` bytes brings. -/
def readSome (len : Nat) (rest : List (List Byte)) : ReadOutcome × List (List Byte) :=
  if len = 0 then (.data [], rest) else nextRead len rest

namespace Transfer

variable {σ : Type}

/-- Completes reads until the receive in flight has returned; `none` if `reads` of them are not enough. -/
def await (env : Environment) : Nat → Transfer σ → Option (Transfer σ)
  | reads, t =>
      match t.session.pending with
      | none => some t
      | some b =>
          match reads with
          | 0 => none
          | reads + 1 =>
              (t.session.step (.readDone (readSome b.len t.rest).1 (t.fresh env))).bind fun s =>
                await env reads { session := s, rest := (readSome b.len t.rest).2, clock := t.clock + 1 }

/-- One `receive()`, with at most `reads` reads. -/
def receiveWithin (env : Environment) (reads : Nat) (t : Transfer σ) : Option (Transfer σ) :=
  (t.session.step (.receive (t.fresh env))).bind fun s => await env reads { t with session := s, clock := t.clock + 1 }

end Transfer

/-- A framer that waits for more whatever was received. -/
def starving : MessageFramer Unit where
  parse _ _ _ := (.needMore 1, ())
  writeHeader _ _ _ := ([], ())

/-- A connection that has received nothing yet, with the framer `starving`. -/
def starvingStart (pool : MessageBlockPool) : TCPConnection Unit := .create .established (some starving) () pool

/-! ## Sending -/

/-- The bytes that successive `send()`s write to the stream, if all succeed. -/
def TCPConnection.sendAll {σ : Type} (mem : Memory) : TCPConnection σ → List Message →
    Option (List Byte)
  | _, [] => some []
  | c, m :: ms =>
      match c.sendBegin mem m with
      | (_, .error _) => none
      | (c, .ok buffers) =>
          match c.sendEnd none with
          | (_, .error _) => none
          | (c, .ok ()) => (sendAll mem c ms).map ((buffers.buffers mem).flatten ++ ·)

end Taps
