import Taps.Buffer.ChainStorage
import Taps.Lib.System

/-!
# Runs over blocks, handles and chains

The blocks of one pool, with every `BlockRef` variable and every chain that a program has, and their
constructors, assignments and destructors in any order. The resource decides where it allocates and which of
its calls throw.
-/

namespace Taps

/-- A variable is `none` before its constructor has returned and after its destructor. `lost` are the entries of
storage that nothing releases any more. -/
structure Buffers where
  blocks : DataBlocks
  refs : List (Option Handle)
  chains : List (Option ChainStorage)
  lost : List Handle

/-- Variables are meant by their index, and a constructor makes a new one. `moves` is whether the argument of
`append()` is moved or copied to its parameter. -/
inductive BufferEvent
  | acquire (outcome : BlockAllocation)
  | construct (r : BlockRef)
  | copyRef (i : Nat)
  | moveRef (i : Nat)
  | assignRef (i j : Nat)
  | moveAssignRef (i j : Nat)
  | resetRef (i : Nat)
  | destroyRef (i : Nat)
  | setRange (i beginOffset endOffset : Nat) (le : beginOffset ≤ endOffset)
  | newChain
  | append (c i : Nat) (moves : Bool) (throws : Nat → Bool)
  | consumeFront (c n : Nat)
  | first (c len : Nat) (throws : Nat → Bool)
  | copyChain (c : Nat) (throws : Nat → Bool)
  | moveChain (c : Nat)
  | assignChain (c d : Nat) (throws : Nat → Bool)
  | moveAssignChain (c d : Nat)
  | destroyChain (c : Nat)

def BlockAllocation.addrs : BlockAllocation → List Addr
  | .block a | .headerThrows a => [a]
  | .storageThrows => []

/-- Every `BlockRef` object of a chain. -/
def ChainStorage.cells (c : ChainStorage) : List Handle := c.inline ++ c.external.getD []

namespace Buffers

def create (maxLiveBlocks : Nat) : Buffers := { blocks := .create maxLiveBlocks, refs := [], chains := [], lost := [] }

/-- Every `BlockRef` object. -/
def handles (s : Buffers) : List Handle :=
  s.refs.flatMap Option.toList ++ s.chains.flatMap (fun c => (c.map ChainStorage.cells).getD []) ++ s.lost

/-- The blocks of the valid ones, each as often as there is one. -/
def held (s : Buffers) : List Addr := s.handles.filterMap Handle.block

def ref (s : Buffers) (i : Nat) : Option Handle := (s.refs[i]?).join

def chain (s : Buffers) (c : Nat) : Option ChainStorage := (s.chains[c]?).join

def setRef (s : Buffers) (i : Nat) (r : Option Handle) : Buffers := { s with refs := s.refs.set i r }

def addRef (s : Buffers) (r : Option Handle) : Buffers := { s with refs := s.refs ++ [r] }

def setChain (s : Buffers) (c : Nat) (chain : Option ChainStorage) : Buffers :=
  { s with chains := s.chains.set c chain }

def addChain (s : Buffers) (chain : Option ChainStorage) : Buffers := { s with chains := s.chains ++ [chain] }

/-- The parameter of `append()` made from the `i`-th variable. -/
def argument (s : Buffers) (i : Nat) (moves : Bool) (r : Handle) : Buffers :=
  if moves then s.setRef i (some r.moved) else { s with blocks := s.blocks.copy r }

/-- One step; `none` where a variable does not exist or an operation is undefined. The resource allocates only
where no handle refers to. -/
def step (s : Buffers) : BufferEvent → Option Buffers
  | .acquire outcome =>
      if ∃ a ∈ outcome.addrs, a ∈ s.held then none
      else
        let (blocks, r) := s.blocks.acquire outcome
        some { s.addRef r with blocks }
  | .construct r =>
      if r.block ∈ s.held then some { s.addRef (some (.ofRef r)) with blocks := s.blocks.addRef r.block } else none
  | .copyRef i => (s.ref i).map fun r => { s.addRef (some r) with blocks := s.blocks.copy r }
  | .moveRef i => (s.ref i).map fun r => (s.setRef i (some r.moved)).addRef (some r)
  | .assignRef i j => do
      let r ← s.ref i
      let o ← s.ref j
      return if i = j then s else { s.setRef i (some o) with blocks := (s.blocks.copy o).reset r }
  | .moveAssignRef i j => do
      let r ← s.ref i
      let o ← s.ref j
      return if i = j then s
        else { (s.setRef i (some o)).setRef j (some o.moved) with blocks := s.blocks.reset r }
  | .resetRef i => (s.ref i).map fun r => { s.setRef i (some .null) with blocks := s.blocks.reset r }
  | .destroyRef i => (s.ref i).map fun r => { s.setRef i none with blocks := s.blocks.reset r }
  | .setRange i beginOffset endOffset le =>
      (s.ref i).map fun r => s.setRef i (some (r.setRange beginOffset endOffset le))
  | .newChain => some (s.addChain (some .create))
  | .append c i moves throws => do
      let chain ← s.chain c
      let r ← s.ref i
      let s := s.argument i moves r
      match ← chain.append throws s.blocks r with
      | .ok (blocks, chain) | .error (blocks, chain) => return { s.setChain c (some chain) with blocks }
  | .consumeFront c n => do
      let chain ← s.chain c
      let (blocks, chain) ← chain.consumeFront s.blocks n
      return { s.setChain c (some chain) with blocks }
  | .first c len throws => do
      let chain ← s.chain c
      match ← chain.first throws s.blocks len with
      | .ok (blocks, out) => return { s.addChain (some out) with blocks }
      | .error blocks => return { s.addChain none with blocks }
  | .copyChain c throws => do
      let chain ← s.chain c
      match ← chain.copy throws s.blocks with
      | .ok (blocks, copy) => return { s.addChain (some copy) with blocks }
      | .error (blocks, lost) => return { s.addChain none with blocks, lost := s.lost ++ lost }
  | .moveChain c => do
      let other ← s.chain c
      let (blocks, chain, other) ← ChainStorage.create.moveAssign s.blocks other
      return { (s.setChain c (some other)).addChain (some chain) with blocks }
  | .assignChain c d throws => do
      let chain ← s.chain c
      let other ← s.chain d
      if c = d then return s
      match ← chain.copyAssign throws s.blocks other with
      | .ok (blocks, chain) => return { s.setChain c (some chain) with blocks }
      | .error (blocks, lost) => return { s with blocks, lost := s.lost ++ lost }
  | .moveAssignChain c d => do
      let chain ← s.chain c
      let other ← s.chain d
      if c = d then return s
      let (blocks, chain, other) ← chain.moveAssign s.blocks other
      return { (s.setChain c (some chain)).setChain d (some other) with blocks }
  | .destroyChain c => do
      let chain ← s.chain c
      let blocks ← chain.destroy s.blocks
      return { s.setChain c none with blocks }

def system (maxLiveBlocks : Nat) : Lib.System Buffers BufferEvent where
  init s := s = create maxLiveBlocks
  step s e s' := s.step e = some s'

end Buffers

end Taps
