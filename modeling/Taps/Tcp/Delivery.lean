import Taps.Buffer.ChainStorage
import Taps.Tcp.Connection

/-!
# Delivering a record where memory can run out

The `Emit` branch of `receive_framed()` down to the storage of `receive_chain_`, with its allocations in the order
in which the code comes to them. The resource decides which of them throw.
-/

namespace Taps

/-- What a delivery allocates: larger storage for the entries of the slice, the object that holds the slice for
the Message, and the contiguous copy that a framer asks for. -/
inductive DeliveryAllocation
  | entries
  | chainObject
  | gathered
  deriving DecidableEq, Repr

/-- The members of a connection that the branch changes, with the blocks of its pool. -/
structure Delivery where
  blocks : DataBlocks
  receiveChain : ChainStorage
  messageOpen : Bool

namespace Delivery

/-- `.error` is the allocation that throws and what it leaves, `.ok` the slice of the Message returned, or none if
the sizes of the record are out of range. -/
abbrev Outcome := Option (Except (DeliveryAllocation × Delivery) (Delivery × Option ChainStorage))

def consumeFront (s : Delivery) (n : Nat) : Option Delivery :=
  (s.receiveChain.consumeFront s.blocks n).map fun (blocks, receiveChain) => { s with blocks, receiveChain }

def discard (s : Delivery) (pr : ParseResult) : Option Delivery :=
  if pr.discardBefore > 0 then s.consumeFront pr.discardBefore.toNat else some s

/-- `make_chain(resource, receive_chain_->first(len))`, where `throws a n` is whether the allocation `a` of `n`
entries, objects or bytes throws. -/
def slice (throws : DeliveryAllocation → Nat → Bool) (s : Delivery) (len : Nat) :
    Option (Except (DeliveryAllocation × Delivery) (Delivery × ChainStorage)) := do
  match ← s.receiveChain.first (throws .entries) s.blocks len with
  | .error blocks => return .error (.entries, { s with blocks })
  | .ok (blocks, out) =>
      if throws .chainObject 1 then return .error (.chainObject, { s with blocks := ← out.destroy blocks })
      else
        let (blocks, slice, out) ← ChainStorage.create.moveAssign blocks out
        return .ok ({ s with blocks := ← out.destroy blocks }, slice)

/-- `m.as_bytes()` if the framer asks for it; an exception destroys the Message. -/
def gather (throws : DeliveryAllocation → Nat → Bool) (s : Delivery) (pr : ParseResult) (slice : ChainStorage) :
    Outcome :=
  if pr.gather ∧ slice.size ≠ 0 ∧ slice.count ≠ 1 ∧ throws .gathered slice.size then
    (slice.destroy s.blocks).map fun blocks => .error (.gathered, { s with blocks })
  else some (.ok (s, some slice))

def emitRecord (throws : DeliveryAllocation → Nat → Bool) (s : Delivery) (pr : ParseResult) : Outcome :=
  if pr.consumed = 0 ∨ pr.consumed.toNat > s.receiveChain.size then some (.ok (s, none))
  else do
    match ← (← s.discard pr).slice throws pr.deliver.toNat with
    | .error e => return .error e
    | .ok (s, slice) =>
        gather throws { ← s.consumeFront pr.deliver.toNat with messageOpen := !pr.endOfMessage } pr slice

/-! ## What the results say of a delivery -/

/-- The members are those of the connection `c`. -/
structure Holds {σ : Type} (s : Delivery) (c : TCPConnection σ) : Prop where
  receiveChain : s.receiveChain.Refines c.receiveChain
  messageOpen : s.messageOpen = c.messageOpen

end Delivery

end Taps
