import Taps.Lib.Positional

/-!
# The length field

`decode_length` and `encode_length` of the length-prefixed framer. Fields of 2, 4 and 8 bytes go
through an integer of the host's byte order, the other widths through a loop over the bytes.
-/

namespace Taps

inductive Endian
  | little
  | big
  deriving DecidableEq, Repr

/-! ## Integers of the host -/

/-- `std::memcpy` of `bs` into an integer of as many bytes. -/
def loadInt (native : Endian) (bs : List UInt8) : Nat :=
  match native with
  | .little => Lib.leValue bs
  | .big => Lib.leValue bs.reverse

/-- `std::memcpy` of an integer of `w` bytes into memory. -/
def storeInt (native : Endian) (w v : Nat) : List UInt8 :=
  match native with
  | .little => Lib.leBytes w v
  | .big => (Lib.leBytes w v).reverse

/-- `std::byteswap` of an integer of `w` bytes. -/
def byteswap (w v : Nat) : Nat := Lib.leValue (Lib.leBytes w v).reverse

/-! ## Fields -/

def fieldValue (order : Endian) (bs : List UInt8) : Nat := loadInt order bs

/-- The field of `w` bytes that holds `n`. -/
def fieldBytes (order : Endian) (w n : Nat) : List UInt8 := storeInt order w n

/-! ## `decode_length` -/

/-- The branch of a field that has the width of an integer. -/
def decodeInt (native order : Endian) (hdr : List UInt8) (w : Nat) : UInt64 :=
  let v := loadInt native (hdr.take w)
  UInt64.ofNat (if order ≠ native then byteswap w v else v)

/-- `length = (length << 8) | hdr[i]`, for each `i`. -/
def decodeBig (length : UInt64) : List UInt8 → UInt64
  | [] => length
  | b :: bs => decodeBig ((length <<< 8) ||| b.toUInt64) bs

/-- `length |= hdr[i] << (i * 8)`, for each `i`. -/
def decodeLittle (length : UInt64) (i : Nat) : List UInt8 → UInt64
  | [] => length
  | b :: bs => decodeLittle (length ||| (b.toUInt64 <<< UInt64.ofNat (i * 8))) (i + 1) bs

/-- The loops over the bytes, for a field of any width. -/
def decodeLoop (hdr : List UInt8) (fieldSize : Nat) (order : Endian) : UInt64 :=
  match order with
  | .big => decodeBig 0 (hdr.take fieldSize)
  | .little => decodeLittle 0 0 (hdr.take fieldSize)

def decodeLength (native : Endian) (hdr : List UInt8) (fieldSize : Nat) (order : Endian) : UInt64 :=
  match fieldSize with
  | 2 => decodeInt native order hdr 2
  | 4 => decodeInt native order hdr 4
  | 8 => decodeInt native order hdr 8
  | w =>
      match order with
      | .big => decodeBig 0 (hdr.take w)
      | .little => decodeLittle 0 0 (hdr.take w)

/-! ## `encode_length` -/

/-- The branch of a field that has the width of an integer. -/
def encodeInt (native order : Endian) (length : UInt64) (w : Nat) : List UInt8 :=
  let v := length.toNat % 256 ^ w
  storeInt native w (if order ≠ native then byteswap w v else v)

/-- `(length >> shift) & 0xFF`. -/
def lengthByte (length : UInt64) (shift : Nat) : UInt8 :=
  ((length >>> UInt64.ofNat shift) &&& 0xFF).toUInt8

/-- The loops over the bytes, for a field of any width. -/
def encodeLoop (length : UInt64) (fieldSize : Nat) (order : Endian) : List UInt8 :=
  match order with
  | .big => (List.range fieldSize).map fun i => lengthByte length ((fieldSize - 1 - i) * 8)
  | .little => (List.range fieldSize).map fun i => lengthByte length (i * 8)

def encodeLength (native : Endian) (length : UInt64) (fieldSize : Nat) (order : Endian) :
    List UInt8 :=
  match fieldSize with
  | 2 => encodeInt native order length 2
  | 4 => encodeInt native order length 4
  | 8 => encodeInt native order length 8
  | w =>
      match order with
      | .big => (List.range w).map fun i => lengthByte length ((w - 1 - i) * 8)
      | .little => (List.range w).map fun i => lengthByte length (i * 8)

end Taps
