import Taps.Message
import Taps.Framer.Length

/-!
# Message framers

A framer reads the received bytes through a cursor and says which of them are the next record, and
writes the header of a Message to send.
-/

namespace Taps

/-! ## `ReceiveCursor` -/

/-- A `std::span<const std::byte>`: the block and the offset in it where the bytes begin, and how many they are.
A default one has no block. -/
structure ByteSpan where
  data : Option (Addr × Nat)
  size : Nat
  deriving DecidableEq, Repr

namespace ByteSpan

def empty : ByteSpan := { data := none, size := 0 }

def subspan (s : ByteSpan) (offset count : Nat) : ByteSpan :=
  { data := s.data.map fun p => (p.1, p.2 + offset), size := count }

def read (mem : Memory) (s : ByteSpan) : List Byte :=
  match s.data with
  | some (block, offset) => mem.read block offset s.size
  | none => []

end ByteSpan

/-- The span that `bytes()` returns. -/
def BlockRef.span (r : BlockRef) : ByteSpan := { data := some (r.block, r.beginOffset), size := r.size }

structure ReceiveCursor where
  mem : Memory
  chain : BlockChain

namespace ReceiveCursor

def size (cursor : ReceiveCursor) : Nat := cursor.chain.size

/-- The loop of `copy_out`: what it writes to `dst` from the entries left. `pos` is the offset of the
first of them. -/
def copyOutLoop (mem : Memory) (off : Nat) : List BlockRef → Nat → Nat → List Byte
  | [], _, _ => []
  | r :: es, pos, remaining =>
      if pos + r.size ≤ off then copyOutLoop mem off es (pos + r.size) remaining
      else
        let skip := if off > pos then off - pos else 0
        let take := min (r.size - skip) remaining
        ((r.bytes mem).drop skip).take take ++
          if remaining - take = 0 then []
          else copyOutLoop mem off es (pos + r.size) (remaining - take)

/-- `copy_out(off, dst)`, for a `dst` of `len` bytes. -/
def copyOut (cursor : ReceiveCursor) (off len : Nat) : List Byte :=
  copyOutLoop cursor.mem off cursor.chain.entries 0 len

/-- The same loop, with the buffer that it writes to: `out` of its bytes have been written. -/
def fillLoop (mem : Memory) (off : Nat) : List BlockRef → Nat → Nat → Nat → List Byte → List Byte
  | [], _, _, _, dst => dst
  | r :: es, pos, out, remaining, dst =>
      if pos + r.size ≤ off then fillLoop mem off es (pos + r.size) out remaining dst
      else
        let skip := if off > pos then off - pos else 0
        let take := min (r.size - skip) remaining
        let dst := Lib.overwrite dst out (((r.bytes mem).drop skip).take take)
        if remaining - take = 0 then dst
        else fillLoop mem off es (pos + r.size) (out + take) (remaining - take) dst

/-- What `copy_out(off, dst)` leaves in `dst`. -/
def fill (cursor : ReceiveCursor) (off : Nat) (dst : List Byte) : List Byte :=
  fillLoop cursor.mem off cursor.chain.entries 0 0 dst.length dst

/-- The loop of `try_contiguous`: `pos` is the offset of the first of the entries left. -/
def contiguousLoop (off len : Nat) : List BlockRef → Nat → Option ByteSpan
  | [], _ => none
  | r :: es, pos =>
      if off < pos + r.size then
        let skip := off - pos
        if skip + len ≤ r.size then some (r.span.subspan skip len) else none
      else contiguousLoop off len es (pos + r.size)

def tryContiguous (cursor : ReceiveCursor) (off len : Nat) : Option ByteSpan :=
  if len = 0 then some .empty else contiguousLoop off len cursor.chain.entries 0

/-- The range lies within a single entry of the chain. -/
def WithinEntry (cursor : ReceiveCursor) (off len : Nat) : Prop :=
  ∃ before r after, cursor.chain.entries = before ++ r :: after ∧ entriesSize before ≤ off ∧
    off + len ≤ entriesSize before + r.size

end ReceiveCursor

/-! ## `ParseResult` -/

inductive Action
  | needMore
  | emit
  deriving DecidableEq, Repr

structure ParseResult where
  action : Action
  discardBefore : UInt64
  deliver : UInt64
  endOfMessage : Bool
  gather : Bool
  minBytesNeeded : UInt64
  deriving DecidableEq, Repr

namespace ParseResult

def needMore (hint : UInt64) : ParseResult :=
  { action := .needMore, discardBefore := 0, deliver := 0, endOfMessage := true, gather := false
    minBytesNeeded := hint }

def emit (deliver : UInt64) (eom : Bool) (discardBefore : UInt64) : ParseResult :=
  { action := .emit, discardBefore, deliver, endOfMessage := eom, gather := false
    minBytesNeeded := 0 }

/-- `discard_before + deliver`, in `std::size_t`. -/
def consumed (pr : ParseResult) : UInt64 := pr.discardBefore + pr.deliver

/-- The same, as a natural number. -/
def total (pr : ParseResult) : Nat := pr.discardBefore.toNat + pr.deliver.toNat

end ParseResult

/-! ## `MessageFramer` -/

/-- A framer with internal state in `σ`. -/
structure MessageFramer (σ : Type) where
  parse : σ → ReceiveCursor → Bool → ParseResult × σ
  writeHeader : σ → Memory → Message → List Byte × σ

/-! ## `LengthPrefixedFramer` -/

structure LengthPrefixedFramer where
  lengthFieldSize : Nat
  byteOrder : Endian
  pos : 1 ≤ lengthFieldSize
  le : lengthFieldSize ≤ 8

namespace LengthPrefixedFramer

/-- The constructor: the width is clamped to 1..8. -/
def create (lengthFieldSize : Nat) (byteOrder : Endian) : LengthPrefixedFramer :=
  { lengthFieldSize := max 1 (min lengthFieldSize 8), byteOrder, pos := by omega, le := by omega }

/-- `parse` on a host of byte order `native`. The sum of the width and the length is taken in
`std::size_t`. -/
def parse (native : Endian) (f : LengthPrefixedFramer) (cursor : ReceiveCursor) (atEof : Bool) :
    ParseResult :=
  let avail := cursor.size
  if avail < f.lengthFieldSize then .needMore (UInt64.ofNat f.lengthFieldSize)
  else
    let length :=
      decodeLength native (cursor.copyOut 0 f.lengthFieldSize) f.lengthFieldSize f.byteOrder
    let total := UInt64.ofNat f.lengthFieldSize + length
    if avail < total.toNat then
      if atEof ∧ avail > f.lengthFieldSize then
        .emit (UInt64.ofNat (avail - f.lengthFieldSize)) false (UInt64.ofNat f.lengthFieldSize)
      else .needMore total
    else .emit length true (UInt64.ofNat f.lengthFieldSize)

def writeHeader (native : Endian) (f : LengthPrefixedFramer) (msg : Message) : List Byte :=
  encodeLength native (UInt64.ofNat msg.size) f.lengthFieldSize f.byteOrder

/-- The framer as the receive loop and `send()` use it. -/
def toFramer (native : Endian) (f : LengthPrefixedFramer) : MessageFramer Unit where
  parse _ cursor atEof := (f.parse native cursor atEof, ())
  writeHeader _ _ msg := (f.writeHeader native msg, ())

end LengthPrefixedFramer

/-! ## `PassthroughFramer` -/

structure PassthroughFramer where
  gather : Bool := true
  deriving DecidableEq, Repr

namespace PassthroughFramer

/-- `parse`: the whole stream is one record, once it has ended. -/
def parse (f : PassthroughFramer) (cursor : ReceiveCursor) (atEof : Bool) : ParseResult :=
  if ¬ atEof ∨ cursor.size = 0 then .needMore 0
  else { ParseResult.emit (UInt64.ofNat cursor.size) true 0 with gather := f.gather }

/-- `write_header` writes nothing. -/
def writeHeader (_ : PassthroughFramer) (_ : Message) : List Byte := []

def toFramer (f : PassthroughFramer) : MessageFramer Unit where
  parse _ cursor atEof := (f.parse cursor atEof, ())
  writeHeader _ _ msg := (f.writeHeader msg, ())

end PassthroughFramer

end Taps
