import Mathlib.Algebra.BigOperators.Group.Finset.Basic
import Taps.Udp.Config
import Taps.Udp.Loops

/-!
# What a UDP Listener keeps

The Mailboxes that it keeps for sources whose Connections the application does not have, and the blocks of its
pool: one for each datagram that is not empty, in a Mailbox or in a Message that the application has, and the one
that `receive_loop()` receives into.
-/

namespace Taps

/-- The number of datagrams in the Mailbox that are in a block. -/
def Peer.blocks {E : Type} (p : Peer E) : Nat := (p.mailbox.contents.filter fun d => d.payload ≠ []).length

/-- The number of the oldest datagram in the Mailbox, if it is in a block. -/
def Peer.taken {E : Type} (p : Peer E) : List Nat :=
  (p.mailbox.contents.take 1).filterMap fun d => if d.payload = [] then none else some d.seq

namespace Demux

variable {E : Type}

/-- The `b`-th Mailbox is shared by an entry or by the accept channel, and the application does not have its
Connection. -/
def Unowned (s : Demux E) (b : Nat) : Prop :=
  ∃ p ∈ s.peers[b]?, p.place ≠ .application ∧ (p.place = .channel ∨ s.InTable b)

instance (s : Demux E) (b : Nat) : Decidable (s.Unowned b) := inferInstanceAs (Decidable (∃ _ ∈ _, _))

def unowned (s : Demux E) : Finset Nat := (Finset.range s.peers.length).filter s.Unowned

/-- The number of datagrams that are queued in the `b`-th Mailbox. -/
def queued (s : Demux E) (b : Nat) : Nat := (s.peers[b]?).elim 0 fun p => p.mailbox.contents.length

/-- The number of datagrams that are queued in the Mailboxes of sources whose Connections the application does not
have. -/
def backlog (s : Demux E) : Nat := ∑ b ∈ s.unowned, s.queued b

/-- The number of blocks in the `b`-th Mailbox, which is gone once nobody shares it. -/
def blocks (s : Demux E) (b : Nat) : Nat :=
  (s.peers[b]?).elim 0 fun p => if p.place ≠ .destroyed ∨ s.InTable b then p.blocks else 0

def queuedBlocks (s : Demux E) : Nat := ∑ b ∈ Finset.range s.peers.length, s.blocks b

end Demux

/-- The block that `receive_loop()` has. -/
def ReceiveLoop.blocks {E : Type} : ReceiveLoop E → Nat
  | .pending false | .completed false _ => 1
  | _ => 0

/-- `cap` is `max_live_blocks`, where `0` is none. `held` are the numbers of the datagrams in blocks whose Messages
the application has. -/
structure PooledDemux (E : Type) where
  udp : UDPDemux E
  cap : Nat
  held : List Nat

/-- `drop` is the end of the `i`-th of the Messages that the application has. -/
inductive PooledEvent (E : Type)
  | strand (e : DemuxEvent E)
  | drop (i : Nat)

namespace PooledDemux

variable {E : Type}

/-- The blocks that datagrams are in. -/
def datagramBlocks (s : PooledDemux E) : Nat := s.udp.demux.queuedBlocks + s.held.length

def liveBlocks (s : PooledDemux E) : Nat := s.datagramBlocks + s.udp.receiveLoop.blocks

/-- `acquire()` returns no block while these are live. -/
def full (cap live : Nat) : Bool := cap ≠ 0 && cap ≤ live

def create (config : DemuxConfig) (cap : Nat) : PooledDemux E :=
  { udp := .create config (full cap 0), cap, held := [] }

/-- What the application has received in a step. -/
def received (s : UDPDemux E) : DemuxEvent E → List Nat
  | .receive b | .wake b => (s.demux.peers[b]?).elim [] Peer.taken
  | _ => []

/-- What the pool says to the next `acquire()` of `receive_loop()`, which has no block then. -/
def decides (s : PooledDemux E) : DemuxEvent E → Bool
  | .resume _ _ atCap => atCap = full s.cap s.datagramBlocks
  | _ => true

variable [DecidableEq E]

def step (s : PooledDemux E) : PooledEvent E → Option (PooledDemux E)
  | .strand e =>
      match s.udp.step e with
      | some udp =>
          let t := { s with udp, held := s.held ++ received s.udp e }
          if t.decides e then some t else none
      | none => none
  | .drop i => if i < s.held.length then some { s with held := s.held.eraseIdx i } else none

def system (config : DemuxConfig) (cap : Nat) : Lib.System (PooledDemux E) (PooledEvent E) where
  init s := s = create config cap
  step s e s' := s.step e = some s'

end PooledDemux

end Taps
