import Taps.Buffer.Buffers
import Taps.Buffer.BlockChain

/-!
# What chains are for

A chain is a list of bytes to its user, and only that: no sharing of blocks and no storage is seen from it.
-/

namespace Taps

/-- The bytes of each chain variable that has a chain. -/
abbrev ByteLists := List (Option (List Byte))

namespace ByteLists

def get (l : ByteLists) (c : Nat) : Option (List Byte) := (l[c]?).join

/-- `window i` are the bytes of the `i`-th `BlockRef` variable. -/
def step (l : ByteLists) (window : Nat → List Byte) : BufferEvent → ByteLists
  | .newChain => l ++ [some []]
  | .append c i _ _ => l.set c ((l.get c).map (· ++ window i))
  | .consumeFront c n => l.set c ((l.get c).map (List.drop n))
  | .first c len _ => l ++ [(l.get c).map (List.take len)]
  | .copyChain c _ => l ++ [l.get c]
  | .moveChain c => l.set c (some []) ++ [l.get c]
  | .assignChain c d _ => l.set c (l.get d)
  | .moveAssignChain c d => if c = d then l else (l.set c (l.get d)).set d (some [])
  | .destroyChain c => l.set c none
  | _ => l

end ByteLists

namespace BufferEvent

/-- No allocation of the event fails. -/
def Allocates : BufferEvent → Prop
  | .acquire outcome => ∃ a, outcome = .block a
  | .append _ _ _ throws | .first _ _ throws | .copyChain _ throws | .assignChain _ _ throws =>
      ∀ n, throws n = false
  | _ => True

/-- The `BlockRef` variables that the event is about. -/
def refs : BufferEvent → List Nat
  | .copyRef i | .moveRef i | .resetRef i | .destroyRef i | .setRange i .. | .append _ i .. => [i]
  | .assignRef i j | .moveAssignRef i j => [i, j]
  | _ => []

def chains : BufferEvent → List Nat
  | .append c .. | .consumeFront c _ | .first c .. | .copyChain c _ | .moveChain c | .destroyChain c => [c]
  | .assignChain c d _ | .moveAssignChain c d => [c, d]
  | _ => []

end BufferEvent

namespace Buffers

def lists (mem : Memory) (s : Buffers) : ByteLists := s.chains.map (Option.map (ChainStorage.bytes mem))

def window (mem : Memory) (s : Buffers) (i : Nat) : List Byte := ((s.ref i).map (Handle.bytes mem)).getD []

/-- The variables of the event have a value, a block that a handle is constructed for has one already, and the
resource allocates where no handle refers to. -/
structure Has (s : Buffers) (e : BufferEvent) : Prop where
  refs : ∀ i ∈ e.refs, ∃ r, s.ref i = some r
  chains : ∀ c ∈ e.chains, ∃ chain, s.chain c = some chain
  fresh : ∀ outcome, e = .acquire outcome → ∀ a ∈ outcome.addrs, a ∉ s.held
  held : ∀ r, e = .construct r → r.block ∈ s.held

end Buffers

/-- What the loops over the entries of a chain rely on. -/
structure ChainStorage.Sound (c : ChainStorage) (es : List BlockRef) : Prop where
  bound : c.head + c.count ≤ c.capacity
  entries_eq : c.entries = some (es.map .ofRef)
  size_eq : c.size = entriesSize es
  live : ∀ r ∈ es, r.beginOffset < r.endOffset
  apart : es.IsChain fun r r' => ¬ (r.block = r'.block ∧ r.endOffset = r'.beginOffset)

end Taps
