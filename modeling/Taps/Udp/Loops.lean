import Taps.Lib.System
import Taps.Udp.Demux

/-!
# The receive loop, the idle sweep and the strand

`receive_loop()` and `sweep_loop()` run from one suspension to the next, and between them any other
handler of the strand and any call of the application. Closing the socket completes a receive that is
pending, and cancelling the timer a wait that is pending; one that has completed already, and whose
coroutine has yet to be resumed, stays as it is. A receive started on the closed socket completes with
`bad_descriptor`.
-/

namespace Taps

/-- `sink` says that the receive is the one at the cap of the pool, whose datagram is dropped. -/
inductive ReceiveLoop (E : Type)
  | pending (sink : Bool)
  | completed (sink : Bool) (outcome : Except ErrorCode (Datagram E))
  | returned
  deriving DecidableEq

/-- Where `sweep_loop()` is: at a wait that is pending, has expired or has been cancelled, in its body,
or at its end. -/
inductive SweepLoop
  | pending
  | expired
  | cancelled
  | running
  | returned
  deriving DecidableEq, Repr

/-- `arrivals` are the datagrams that the socket has received, in order. -/
structure UDPDemux (E : Type) where
  demux : Demux E
  socketOpen : Bool
  receiveLoop : ReceiveLoop E
  sweepLoop : SweepLoop
  arrivals : List (E × List Byte)

/-- `arrive` completes the pending receive and `resume` resumes `receive_loop()`; `expire` and `sweep` do
so with `sweep_loop()`. `now` is the clock, `address` where the allocator puts a new Mailbox, and `atCap`
says that the pool has no block for the next receive. The last four are of the application, on the
Connection `b`, where `wake` resumes a receive. -/
inductive DemuxEvent (E : Type)
  | arrive (outcome : Except ErrorCode (E × List Byte))
  | resume (now : Int) (address : Addr) (atCap : Bool)
  | expire
  | sweep (now : Int)
  | accept
  | stop
  | release (i : Nat)
  | receive (b : Nat)
  | wake (b : Nat)
  | close (b : Nat) (aborted : Bool)
  | destroy (b : Nat)

/-- `socket_.close()`. -/
def ReceiveLoop.abort {E : Type} : ReceiveLoop E → ReceiveLoop E
  | .pending sink => .completed sink (.error .operationAborted)
  | l => l

/-- The loop goes on to another receive. -/
def ReceiveLoop.Runs {E : Type} : ReceiveLoop E → Prop
  | .pending _ => True
  | .completed _ outcome => outcome ≠ .error .operationAborted
  | .returned => False

/-- `sweep_timer_.cancel()`. -/
def SweepLoop.cancel : SweepLoop → SweepLoop
  | .pending => .cancelled
  | l => l

namespace UDPDemux

variable {E : Type}

/-- After `start()`, with both loops at their first suspension. -/
def create (config : DemuxConfig) (atCap : Bool) : UDPDemux E :=
  { demux := .create config, socketOpen := true, receiveLoop := .pending atCap, sweepLoop := .pending
    arrivals := [] }

def shutDownIfUnused (s : UDPDemux E) : UDPDemux E :=
  if s.demux.unused then
    { s with
      socketOpen := false
      receiveLoop := s.receiveLoop.abort
      sweepLoop := s.sweepLoop.cancel }
  else s

/-- The next `async_receive_from()` of `receive_loop()`. -/
def nextReceive (s : UDPDemux E) (atCap : Bool) : UDPDemux E :=
  { s with
    receiveLoop :=
      if s.socketOpen then .pending atCap else .completed atCap (.error .badDescriptor) }

/-- The datagram that a receive into the buffer of a block, or into the sink, brings. -/
def datagram (s : UDPDemux E) (sink : Bool) (source : E) (bytes : List Byte) : Datagram E :=
  { source, seq := s.arrivals.length, bytes
    payload := bytes.take (if sink then 1 else s.demux.config.blockSize) }

def arrive (s : UDPDemux E) (sink : Bool) : Except ErrorCode (E × List Byte) → UDPDemux E
  | .error ec => { s with receiveLoop := .completed sink (.error ec) }
  | .ok (source, bytes) =>
      { s with
        receiveLoop := .completed sink (.ok (s.datagram sink source bytes))
        arrivals := s.arrivals ++ [(source, bytes)] }

variable [DecidableEq E]

/-- `receive_loop()` from the completion of its receive to the start of the next one, or to its end. -/
def resume (s : UDPDemux E) (now : Int) (address : Addr) (atCap sink : Bool) :
    Except ErrorCode (Datagram E) → UDPDemux E
  | .error ec => if ec = .operationAborted then { s with receiveLoop := .returned } else s.nextReceive atCap
  | .ok d =>
      if sink then s.nextReceive atCap
      else { s with demux := s.demux.serve now address d }.nextReceive atCap

/-- A turn of `sweep_loop()` after a wait that expired, up to `shut_down_if_unused()`. -/
def sweep (s : UDPDemux E) (now : Int) : UDPDemux E :=
  { s with demux := s.demux.sweep now, sweepLoop := .running }

/-- The state in which a step calls `shut_down_if_unused()`, if it does. -/
def atShutDown (s : UDPDemux E) : DemuxEvent E → Option (UDPDemux E)
  | .stop => some { s with demux := s.demux.stop }
  | .release i =>
      match s.demux.posted[i]? with
      | some h => some { s with demux := (s.demux.unpost i).runRelease h }
      | none => none
  | .sweep now => if s.sweepLoop = .expired then some (s.sweep now) else none
  | _ => none

def owned (s : UDPDemux E) (b : Nat) : Option (Peer E) :=
  (s.demux.peers[b]?).filter fun p => p.place = .application

/-- One step; `none` where the event cannot happen. A new Mailbox is put where no other one is, and a
Connection is not destroyed under a pending receive. -/
def step (s : UDPDemux E) (e : DemuxEvent E) : Option (UDPDemux E) :=
  if s.demux.crashed then none
  else
    match e with
    | .arrive outcome =>
        match s.receiveLoop, outcome with
        | .pending _, .error .operationAborted => none
        | .pending sink, outcome => some (s.arrive sink outcome)
        | _, _ => none
    | .resume now address atCap =>
        match s.receiveLoop with
        | .completed sink outcome =>
            if address ∈ s.demux.makeRoom.live then none
            else some (s.resume now address atCap sink outcome)
        | _ => none
    | .expire => if s.sweepLoop = .pending then some { s with sweepLoop := .expired } else none
    | .sweep _ =>
        match s.sweepLoop with
        | .cancelled => some { s with sweepLoop := .returned }
        | .expired => (s.atShutDown e).map fun t => { t.shutDownIfUnused with sweepLoop := .pending }
        | _ => none
    | .accept => some { s with demux := s.demux.accept }
    | .stop | .release _ => (s.atShutDown e).map shutDownIfUnused
    | .receive b => (s.owned b).map fun _ => { s with demux := s.demux.update b Peer.receive }
    | .wake b =>
        match s.owned b with
        | some p =>
            if p.mailbox.woken = 0 then none else some { s with demux := s.demux.update b Peer.wake }
        | none => none
    | .close b aborted => (s.owned b).map fun _ => { s with demux := s.demux.close b aborted }
    | .destroy b =>
        match s.owned b with
        | some p => if p.Quiet then some { s with demux := s.demux.destroy b } else none
        | none => none

def system (config : DemuxConfig) : Lib.System (UDPDemux E) (DemuxEvent E) where
  init s := ∃ atCap, s = create config atCap
  step s e s' := s.step e = some s'

/-! ## What the results say of a state and a step -/

def Arrived (s : UDPDemux E) (d : Datagram E) : Prop :=
  s.arrivals[d.seq]? = some (d.source, d.bytes) ∧
    d.payload = d.bytes.take s.demux.config.blockSize

/-- The loop has yet to be resumed with the datagram it received. -/
def Received (s : UDPDemux E) (d : Datagram E) : Prop := s.receiveLoop = .completed false (.ok d)

/-- Where the step puts a Mailbox for a new source, if it creates one, is where `G` says, given the
handlers that are posted. -/
def Permits (G : List (Release E) → E → Addr → Prop) (s : UDPDemux E) (e : DemuxEvent E) : Prop :=
  ∀ now address atCap d, e = .resume now address atCap → s.Received d → s.demux.accepting = true →
    s.demux.table.index.lookup d.source = none → G s.demux.posted d.source address

/-- A release handler that runs next neither evicts nor changes any Connection but that of its poster. -/
def ReleasesOwn (s : UDPDemux E) : Prop :=
  ∀ i h s', s.demux.posted[i]? = some h → s.step (.release i) = some s' → ∀ b, b ≠ h.poster →
    s'.demux.peers[b]? = s.demux.peers[b]? ∧ (s.demux.InTable b → s'.demux.InTable b)

/-- If the step is the one that finds the Listener unused while the socket is open, the wait of
`sweep_loop()` is pending at that moment. -/
def SweepWaits (s : UDPDemux E) (e : DemuxEvent E) : Prop :=
  ∀ t, s.atShutDown e = some t → t.demux.unused = true → t.socketOpen = true → t.sweepLoop = .pending

/-- The same of the receive of `receive_loop()`. -/
def ReceiveWaits (s : UDPDemux E) (e : DemuxEvent E) : Prop :=
  ∀ t, s.atShutDown e = some t → t.demux.unused = true → t.socketOpen = true →
    ∃ sink, t.receiveLoop = .pending sink

/-- Once the Listener is unused, no wait of `sweep_loop()` is pending, and when it is resumed it
returns. -/
def SweepEnds (s : UDPDemux E) : Prop :=
  s.demux.unused = true → (s.sweepLoop = .cancelled ∨ s.sweepLoop = .returned) ∧
    ∀ now s', s.step (.sweep now) = some s' → s'.sweepLoop = .returned

/-- Once the socket is closed, `receive_loop()` has no receive but the one that the close completed, and
when it is resumed it returns. -/
def ReceiveEnds (s : UDPDemux E) : Prop :=
  s.socketOpen = false →
    (s.receiveLoop = .returned ∨
      ∃ sink, s.receiveLoop = .completed sink (.error .operationAborted)) ∧
    ∀ now address atCap s', s.step (.resume now address atCap) = some s' → s'.receiveLoop = .returned

/-- The strand runs the release handlers in the order in which they were posted. -/
def InOrder : DemuxEvent E → Prop
  | .release i => i = 0
  | _ => True

/-- If the step is the first run of the handler of `stop_accepting()`, every Connection that went into the
accept channel was taken by `accept()`. -/
def StopsAccepted (s : UDPDemux E) (e : DemuxEvent E) : Prop :=
  e = .stop → s.demux.accepting = true → s.demux.channel.buffer = []

/-- Once the Listener has stopped and what `accept()` returned is released, nothing is left: no entry, no
open socket and no Connection in the accept channel. -/
def LetsGo (s : UDPDemux E) : Prop :=
  s.demux.accepting = false → s.demux.AllReleased →
    s.demux.table.nodes = [] ∧ s.demux.table.index.keys = [] ∧ s.socketOpen = false ∧
      s.demux.channel.buffer = []

/-- A receive on a closed Connection, whether it is called now or woken now, returns no Message: it fails
with the error of the `close()` or the `abort()`, or it waits and the release handler of the Connection is
still posted. -/
def Silent (s : UDPDemux E) : Prop :=
  ∀ b p, s.owned b = some p → p.conn.released = true → ∀ q, q = p.receive ∨ q = p.wake →
    q.results = p.results ++ [.error (cancelled .receiveError p.conn.aborted)] ∨
      q.results = p.results ∧ ∃ h ∈ s.demux.posted, h.poster = b

/-- If the step is the first `close()` or `abort()` of a Connection, its Mailbox is empty and was not closed
by an eviction; and the entry of a closed Connection, which it has until its release handler runs, is
neither served a datagram nor displaced nor swept. -/
def SparesClosed (s : UDPDemux E) (e : DemuxEvent E) : Prop :=
  (∀ b aborted p, e = .close b aborted → s.owned b = some p → p.conn.released = false → p.Emptied) ∧
  ∀ b p, s.owned b = some p → p.conn.released = true → s.demux.InTable b →
    (∀ now address atCap d, e = .resume now address atCap → s.Received d →
      d.source ≠ p.source ∧
        (s.demux.accepting = true → s.demux.table.index.lookup d.source = none →
          s.demux.makeRoom.InTable b)) ∧
    ∀ now, e = .sweep now → s.sweepLoop = .expired → (s.demux.sweep now).InTable b

end UDPDemux

end Taps
