import Taps.Tcp.Session

/-!
# The length-prefixed grammar

What a receiver of length-prefixed records has to return for a stream of bytes, by a scan over the
whole stream (`scan`), and what the framer and the receive loop make of the bytes that have arrived so
far (`turn`), in `std::size_t` arithmetic.
-/

namespace Taps

namespace LengthPrefixedFramer

/-- The record of a Message: its size and its bytes. -/
def record (f : LengthPrefixedFramer) (mem : Memory) (m : Message) : List Byte :=
  fieldBytes f.byteOrder f.lengthFieldSize m.size ++ m.payload mem

/-- The size of the Message fits the field, and that of the record fits `std::size_t`. -/
def Encodes (f : LengthPrefixedFramer) (m : Message) : Prop :=
  m.size < 256 ^ f.lengthFieldSize ∧ f.lengthFieldSize + m.size < 2 ^ 64

def headerLength (f : LengthPrefixedFramer) (s : List Byte) : Nat :=
  fieldValue f.byteOrder (s.take f.lengthFieldSize)

/-- The results of the successive receives for the stream `s`. -/
def scan (f : LengthPrefixedFramer) (s : List Byte) : List Reply :=
  if s = [] then [.message [] true]
  else if s.length < f.lengthFieldSize then [.error .receiveError .deframingFailed]
  else if s.length < f.lengthFieldSize + f.headerLength s then
    if s.length = f.lengthFieldSize then [.error .receiveError .deframingFailed]
    else [.message (s.drop f.lengthFieldSize) false, .error .receiveError .deframingFailed]
  else
    .message ((s.drop f.lengthFieldSize).take (f.headerLength s)) true
      :: f.scan (s.drop (f.lengthFieldSize + f.headerLength s))
termination_by s.length
decreasing_by
  have := f.pos
  simp only [List.length_drop]
  omega

/-- The lengths in the headers that `scan` reads. -/
def scanLengths (f : LengthPrefixedFramer) (s : List Byte) : List Nat :=
  if s.length < f.lengthFieldSize then []
  else
    f.headerLength s ::
      if s.length < f.lengthFieldSize + f.headerLength s then []
      else f.scanLengths (s.drop (f.lengthFieldSize + f.headerLength s))
termination_by s.length
decreasing_by
  have := f.pos
  simp only [List.length_drop]
  omega

/-- What a receive does once the framer has been asked. -/
inductive Outcome
  | wait
  | reply (r : Reply) (unparsed : List Byte) (messageOpen ended : Bool)
  deriving DecidableEq, Repr

/-- The size of the record at the front of `u`, in `std::size_t`. -/
def total (f : LengthPrefixedFramer) (u : List Byte) : Nat :=
  (f.lengthFieldSize + f.headerLength u) % 2 ^ 64

/-- The receive loop at `NeedMore`. -/
def needMore (u : List Byte) (eof messageOpen : Bool) : Outcome :=
  if eof then
    if messageOpen ∨ u ≠ [] then .reply (.error .receiveError .deframingFailed) [] false true
    else .reply (.message [] true) [] false true
  else .wait

/-- One turn of the receive loop with the unparsed bytes `u`. -/
def turn (f : LengthPrefixedFramer) (u : List Byte) (eof messageOpen : Bool) : Outcome :=
  if u.length < f.lengthFieldSize then needMore u eof messageOpen
  else if u.length < f.total u then
    if eof ∧ u.length > f.lengthFieldSize then
      .reply (.message (u.drop f.lengthFieldSize) false) [] true false
    else needMore u eof messageOpen
  else if f.total u = 0 then .reply (.error .receiveError .deframingFailed) u messageOpen eof
  else
    .reply (.message ((u.drop f.lengthFieldSize).take (f.headerLength u)) true)
      (u.drop (f.lengthFieldSize + f.headerLength u)) false false

end LengthPrefixedFramer

end Taps
