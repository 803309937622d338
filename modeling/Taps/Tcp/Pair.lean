import Mathlib.Logic.Function.Basic
import Taps.Tcp.Link

/-!
# The two ends of a TCP connection

Two connected `TCPConnection`s without TLS, and what their kernels hold of each direction. The kernel resets the
connection, instead of finishing it, when a socket is closed with unread data or has its linger time set to zero, as
`abort()` sets it, and when data is sent to a closed socket.
-/

namespace Taps

inductive Side
  | first
  | second
  deriving DecidableEq, Repr

def Side.other : Side → Side
  | first => second
  | second => first

/-- One direction: the bytes that were sent and not read yet, and whether the sender has ended its side. -/
structure Pipe where
  unread : Nat
  finished : Bool
  deriving DecidableEq, Repr

/-- A read finds the end of the sender's stream. -/
def Pipe.AtEnd (d : Pipe) : Prop := d.finished = true ∧ d.unread = 0

/-- `pipe p` is the direction in which `p` sends. -/
structure Pair (σ : Type) where
  link : Side → Link σ
  pipe : Side → Pipe
  reset : Bool

/-- `transmit` sends some bytes of a write that is pending, and `cut` is a failure of the network. -/
inductive PairEvent
  | call (p : Side) (e : LinkEvent)
  | transmit (p : Side) (n : Nat)
  | cut

/-- A send whose write is pending. -/
def Call.writes : Call → Bool
  | .suspended .write .pending => true
  | _ => false

namespace Pair

variable {σ : Type}

/-- What an operation of `p` can complete with; a read of `drain_until_eof()` has a buffer of 4096 bytes. -/
def brings (s : Pair σ) (p : Side) (wait : Wait) : Except ErrorCode Nat → Bool
  | .ok n =>
      match wait with
      | .write => true
      | .read buffer => n ≤ (s.pipe p.other).unread && (0 < n || buffer.len = 0)
      | .shutdown _ => n ≤ (s.pipe p.other).unread && 0 < n && n ≤ 4096
  | .error .eof => wait ≠ .write && (s.pipe p.other).finished && (s.pipe p.other).unread = 0
  | .error _ => s.reset

/-- What the kernel allows: the send direction can be shut down unless the connection was reset. -/
def allows (s : Pair σ) (p : Side) : LinkEvent → Bool
  | .close shutdown _ => shutdown.isNone || s.reset
  | .complete i outcome =>
      match (s.link p).calls[i]? with
      | some (.suspended wait .pending) => s.brings p wait outcome
      | _ => false
  | _ => true

/-- The bytes that a step of `p` reads. -/
def taken (s : Pair σ) (p : Side) : LinkEvent → Nat
  | .complete i (.ok n) =>
      match (s.link p).calls[i]? with
      | some (.suspended .write _) => 0
      | _ => n
  | _ => 0

/-- A step of `p` that shuts the send direction down. -/
def shutsDown (s : Pair σ) (p : Side) : LinkEvent → Bool
  | .close none _ => (s.link p).conn.closeBegin.isSome
  | _ => false

/-- The pair once a step of `p` has led to `l`. -/
def after (s : Pair σ) (p : Side) (e : LinkEvent) (l : Link σ) : Pair σ :=
  let released := (s.link p).socketOpen && !l.socketOpen
  let sent := s.pipe p
  let received := s.pipe p.other
  { link := Function.update s.link p l
    pipe := Function.update
      (Function.update s.pipe p.other { received with unread := received.unread - s.taken p e })
      p { sent with finished := sent.finished || s.shutsDown p e || released }
    reset := s.reset || released && (l.conn.aborted || 0 < received.unread) }

/-- One step; `none` where the event cannot happen. -/
def step (s : Pair σ) : PairEvent → Option (Pair σ)
  | .call p e => if s.allows p e then ((s.link p).step e).map (s.after p e) else none
  | .transmit p n =>
      if (s.link p).calls.any Call.writes ∧ (s.pipe p).finished = false then
        some { s with
          pipe := Function.update s.pipe p { s.pipe p with unread := (s.pipe p).unread + n }
          reset := s.reset || !(s.link p.other).socketOpen }
      else none
  | .cut => some { s with reset := true }

/-- Two ends that are just connected. -/
def create (conn : Side → TCPConnection σ) : Pair σ :=
  { link := fun p => .create (conn p) false, pipe := fun _ => ⟨0, false⟩, reset := false }

def system (σ : Type) : Lib.System (Pair σ) PairEvent where
  init s := ∃ (framer : Side → Option (MessageFramer σ)) (framerState : Side → σ) (pool : Side → MessageBlockPool),
    s = create fun p => .create .established (framer p) (framerState p) (pool p)
  step s e s' := s.step e = some s'

/-- The connection does not fail, and neither end aborts it. -/
def Peaceful (_ : Pair σ) (e : PairEvent) (_ : Pair σ) : Prop :=
  e ≠ .cut ∧ ∀ p ec, e ≠ .call p (.abort ec)

def peaceful (σ : Type) : Lib.System (Pair σ) PairEvent := (system σ).restrict Peaceful

/-! ## What the results say of a state -/

/-- The connection was not reset. An end whose socket is closed has ended its side, and it has read everything that
the other has sent, to the end. A `close()` fails only where `socket_.close()` does. -/
structure Finishes (s : Pair σ) : Prop where
  reset : s.reset = false
  ended : ∀ p, (s.link p).socketOpen = false → (s.pipe p).finished = true
  read : ∀ p, (s.link p).socketOpen = false → (s.pipe p.other).AtEnd
  close : ∀ p c r, c ∈ (s.link p).calls → c = .returned (.closed r) →
    r = .ok () ∨ ∃ ec, r = .error (TCPConnection.closeFailure ec)

/-- A step of the `i`-th call of `p`, after the one that makes it. -/
def drives (p : Side) (i : Nat) : PairEvent → Bool
  | .call q (.complete j _) => q = p && j = i
  | .call q (.resume j _ _) => q = p && j = i
  | _ => false

/-- The `i`-th call of `p` is a `close()` that has returned, and the socket is closed. -/
def ClosedBy (s : Pair σ) (p : Side) (i : Nat) : Prop :=
  (s.link p).socketOpen = false ∧ ∃ r, (s.link p).calls[i]? = some (.returned (.closed r))

/-- The `i`-th call of `p` goes on to the return of its `close()` in at most `n` steps of its own, whatever the other
calls of both ends do meanwhile, and it can always take the next one. -/
def Completes (s : Pair σ) (p : Side) (i n : Nat) : Prop :=
  ∀ es t, (peaceful σ).Run s es t →
    es.countP (drives p i) ≤ n ∧ (t.ClosedBy p i ∨ ∃ e t', drives p i e = true ∧ (peaceful σ).step t e t')

end Pair

end Taps
