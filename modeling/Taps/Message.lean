import Taps.Buffer.Lemmas.BlockChain

/-!
# `Message`

A Message owns its bytes, views bytes of the application, or holds the chain of blocks it was received
in. What is on the data path is here: the context that goes with a Message is not.
-/

namespace Taps

/-- `gathered` is the contiguous copy that `as_bytes()` builds and keeps, once it is valid. -/
structure Message where
  ownedData : List Byte
  spanView : List Byte
  chain : Option BlockChain
  gathered : Option (List Byte)
  owning : Bool
  endOfMessage : Bool

namespace Message

/-- `Message(std::vector<std::uint8_t>)`. -/
def ofVector (data : List Byte) : Message :=
  { ownedData := data, spanView := [], chain := none, gathered := none, owning := true
    endOfMessage := true }

/-- `Message(std::span<const std::uint8_t>)`. -/
def ofSpan (data : List Byte) : Message :=
  { ownedData := [], spanView := data, chain := none, gathered := none, owning := false
    endOfMessage := true }

/-- `Message(std::shared_ptr<const BlockChain>, MessageContext, bool)`; a null pointer is `none`. -/
def ofChain (chain : Option BlockChain) (endOfMessage : Bool) : Message :=
  { ownedData := [], spanView := [], chain, gathered := none, owning := false, endOfMessage }

def size (m : Message) : Nat :=
  match m.chain with
  | some c => c.size
  | none => if m.owning then m.ownedData.length else m.spanView.length

def segmentCount (m : Message) : Nat :=
  match m.chain with
  | some c => c.blockCount
  | none => 1

def segment (mem : Memory) (m : Message) (i : Nat) : List Byte :=
  match m.chain with
  | some c => ((c.entries[i]?).map (BlockRef.bytes mem)).getD []
  | none => if m.owning then m.ownedData else m.spanView

/-- The spans that `blocks()` ranges over. -/
def blocks (mem : Memory) (m : Message) : List (List Byte) :=
  (List.range m.segmentCount).map (m.segment mem)

def payload (mem : Memory) (m : Message) : List Byte := (m.blocks mem).flatten

/-- `ensure_gathered()`: the contiguous bytes, and the Message with the copy it keeps. -/
def ensureGathered (mem : Memory) (m : Message) : List Byte × Message :=
  match m.chain with
  | none => ([], m)
  | some c =>
      if c.empty then ([], m)
      else if c.blockCount = 1 then (m.segment mem 0, m)
      else
        match m.gathered with
        | some bs => (bs, m)
        | none => (c.bytes mem, { m with gathered := some (c.bytes mem) })

def asBytes (mem : Memory) (m : Message) : List Byte × Message :=
  match m.chain with
  | some _ => m.ensureGathered mem
  | none => (if m.owning then m.ownedData else m.spanView, m)

/-- `gather(out, msg)`: what it leaves in `out`, and what it returns. -/
def gather (mem : Memory) (out : List Byte) (m : Message) : List Byte × Nat := Lib.copyAll (m.blocks mem) out 0

def handles (m : Message) : List Addr :=
  match m.chain with
  | some c => c.handles
  | none => []

/-- The Message holds the byte at `off` of the block `blk`. -/
def Covers (m : Message) (blk : Addr) (off : Nat) : Prop := ∃ c, m.chain = some c ∧ c.Covers blk off

/-! ## The bytes of a Message -/

variable {mem : Memory} {m : Message}

theorem blocks_of_chain {c : BlockChain} (h : m.chain = some c) :
    m.blocks mem = c.entries.map (BlockRef.bytes mem) := by
  refine List.ext_getElem (by simp [blocks, segmentCount, h, BlockChain.blockCount]) ?_
  intro i h₁ h₂
  simp only [List.length_map] at h₂
  simp [blocks, segment, h, h₂]

theorem payload_of_chain {c : BlockChain} (h : m.chain = some c) :
    m.payload mem = c.bytes mem := by
  rw [payload, blocks_of_chain h, BlockChain.bytes, List.flatMap_def]

theorem payload_of_contiguous (h : m.chain = none) :
    m.payload mem = if m.owning then m.ownedData else m.spanView := by
  simp [payload, blocks, segmentCount, segment, h, List.range_succ]

theorem length_payload (mem : Memory) (m : Message) : (m.payload mem).length = m.size := by
  cases hc : m.chain with
  | some c => rw [payload_of_chain hc, BlockChain.length_bytes, size, hc]
  | none =>
      rw [payload_of_contiguous hc, size, hc]
      split <;> rfl

theorem gather_eq {out : List Byte} (h : m.size ≤ out.length) :
    m.gather mem out = (m.payload mem ++ out.drop m.size, m.size) := by
  have hlen := length_payload mem m
  rw [gather, Lib.copyAll_eq _ _ _ (by rw [← payload]; omega), ← payload, Lib.overwrite_zero, hlen, Nat.zero_add]

/-- `as_bytes()` caches at most a copy: the chain, and so `blocks()`, stays. -/
@[simp] theorem asBytes_chain (mem : Memory) (m : Message) :
    (m.asBytes mem).2.chain = m.chain := by
  unfold asBytes ensureGathered
  repeat' split
  all_goals simp_all

@[simp] theorem asBytes_endOfMessage (mem : Memory) (m : Message) :
    (m.asBytes mem).2.endOfMessage = m.endOfMessage := by
  unfold asBytes ensureGathered
  repeat' split
  all_goals rfl

end Message

end Taps
