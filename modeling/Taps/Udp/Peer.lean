import Taps.Buffer.Block
import Taps.Error
import Taps.Udp.Mailbox

/-!
# One source's Mailbox and Connection

What `receive_loop()` creates for the first datagram of a source, from then on to the end: the Mailbox,
the Connection that goes through the accept channel to the application, and the history that the results
are about.
-/

namespace Taps

/-! ## `PassiveUDPConnection`

How the receives of a connection look into its Mailbox, and what they return. The rest of a connection is its place
in the demultiplexer.
-/

def cancelled (event : ErrorEvent) (aborted : Bool) : TAPSError :=
  if aborted then ⟨.connectionError, .localAbort, .text "Connection aborted"⟩
  else ⟨event, .invalidState, .text "Connection closed locally"⟩

structure PassiveUDPConnection where
  state : ConnectionState
  aborted : Bool
  released : Bool
  deriving DecidableEq, Repr

namespace PassiveUDPConnection

variable {α : Type}

def create : PassiveUDPConnection := { state := .establishing, aborted := false, released := false }

/-- The error of a receive that finds the Mailbox closed and empty. -/
def closedError (c : PassiveUDPConnection) : CloseCause → TAPSError
  | .idle => ⟨.connectionError, .idleTimeout,
      .text "no traffic from the peer within the idle timeout"⟩
  | .displaced => ⟨.connectionError, .resourceExhausted,
      .text "evicted: the listener's connection table is full"⟩
  | .owner => cancelled .receiveError c.aborted

/-- One turn of the loop of `receive()`: it returns the oldest datagram, as a complete Message, or the
error of a closed Mailbox, or else waits. -/
def receive (c : PassiveUDPConnection) (m : Mailbox α) :
    PassiveUDPConnection × Mailbox α × Option (Result α) :=
  match m.tryPop with
  | some (datagram, m) => (c, m, some (.ok datagram))
  | none =>
      if m.closed then ({ c with state := .closed }, m, some (.error (c.closedError m.cause)))
      else (c, m.wait, none)

end PassiveUDPConnection

/-! ## Connections with their Mailboxes -/

/-- The `seq`-th datagram that the socket received. `payload` are those of its `bytes` that the buffer of
the receive had room for. -/
structure Datagram (E : Type) where
  source : E
  seq : Nat
  bytes : List Byte
  payload : List Byte
  deriving DecidableEq, Repr

/-- Who has the `unique_ptr` of a Connection: the accept channel, the application, or nobody. -/
inductive Place
  | channel
  | application
  | destroyed
  deriving DecidableEq, Repr

/-- `address` is where the Mailbox is. `enqueued` are the datagrams that `deliver()` put into the Mailbox,
`removed` those that left it, with whether they were dropped, and `results` what the receives on the
Connection returned, each in order. -/
structure Peer (E : Type) where
  source : E
  address : Addr
  mailbox : Mailbox (Datagram E)
  conn : PassiveUDPConnection
  place : Place
  enqueued : List (Datagram E)
  removed : List (Datagram E × Bool)
  results : List (Result (Datagram E))

namespace Peer

variable {E : Type}

def create (source : E) (address : Addr) : Peer E :=
  { source, address, mailbox := .create Mailbox.defaultCapacity, conn := .create, place := .channel
    enqueued := [], removed := [], results := [] }

def deliver (p : Peer E) (d : Datagram E) : Peer E :=
  { p with
    mailbox := p.mailbox.deliver d
    enqueued := if p.mailbox.closed then p.enqueued else p.enqueued ++ [d]
    removed :=
      if p.mailbox.closed = false ∧ p.mailbox.Full then
        p.removed ++ (p.mailbox.contents.take 1).map fun d => (d, true)
      else p.removed }

def closeMailbox (p : Peer E) (cause : CloseCause) : Peer E :=
  { p with mailbox := p.mailbox.close cause }

/-- A receive on the Connection looks into the Mailbox. -/
def receive (p : Peer E) : Peer E :=
  let (conn, mailbox, reply) := p.conn.receive p.mailbox
  { p with
    conn, mailbox
    removed := match reply with
      | some (.ok d) => p.removed ++ [(d, false)]
      | _ => p.removed
    results := p.results ++ reply.toList }

/-- A receive whose wait has completed looks again. -/
def wake (p : Peer E) : Peer E := { p with mailbox := p.mailbox.resume }.receive

/-- `try_send()` or `accept()` hands the Connection to the application. -/
def accept (p : Peer E) : Peer E :=
  { p with conn := { p.conn with state := .established }, place := .application }

/-- `close()` and `abort()` on the Connection, up to `release()`. -/
def shut (p : Peer E) (aborted : Bool) : Peer E :=
  { p with conn := { p.conn with state := .closed, aborted := p.conn.aborted || aborted } }

def setReleased (p : Peer E) : Peer E := { p with conn := { p.conn with released := true } }

def destroy (p : Peer E) : Peer E := { p with place := .destroyed }

/-- The datagrams of the Messages that the receives returned. -/
def returned (p : Peer E) : List (Datagram E) := p.results.filterMap Except.toOption

/-- No datagram is left in the Mailbox, and no eviction has closed it. -/
def Emptied (p : Peer E) : Prop :=
  p.mailbox.contents = [] ∧ (p.mailbox.closed = true → p.mailbox.cause = .owner)

/-- No receive on the Connection is pending. -/
def Quiet (p : Peer E) : Prop := p.mailbox.waiting = 0 ∧ p.mailbox.woken = 0

instance (p : Peer E) : Decidable p.Quiet := inferInstanceAs (Decidable (_ ∧ _))

/-! ## The accounting of the datagrams -/

/-- What left the Mailbox and what is still in it are what was enqueued, in order; what left it was
returned or was counted as dropped; and errors come after the last Message. -/
structure Accounted (p : Peer E) : Prop where
  history : p.removed.map Prod.fst ++ p.mailbox.contents = p.enqueued
  returned : (p.removed.filter fun r => !r.2).map Prod.fst = p.returned
  dropped : (p.removed.filter fun r => r.2).length = p.mailbox.dropped
  source : ∀ d ∈ p.enqueued, d.source = p.source
  order : p.enqueued.Pairwise fun d d' => d.seq < d'.seq
  waiting : p.mailbox.closed = true → p.mailbox.waiting = 0
  results : ∃ errors : List TAPSError,
    p.results = p.returned.map .ok ++ errors.map .error ∧
    (errors ≠ [] → p.mailbox.closed = true ∧ p.mailbox.contents = []) ∧
    ∀ e ∈ errors, ∃ c : PassiveUDPConnection, e = c.closedError p.mailbox.cause

/-- What left the Mailbox since are the oldest of the datagrams that were in it or were enqueued since,
the rest still is in it; and a closed Mailbox neither enqueues nor drops. -/
def Continues (p p' : Peer E) : Prop :=
  ∃ r q, p'.removed = p.removed ++ r ∧ p'.enqueued = p.enqueued ++ q ∧
    r.map Prod.fst ++ p'.mailbox.contents = p.mailbox.contents ++ q ∧
    (p.mailbox.closed = true → p'.mailbox.closed = true ∧ q = [] ∧ ∀ x ∈ r, x.2 = false)

end Peer

end Taps
