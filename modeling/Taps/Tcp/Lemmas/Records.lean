import Taps.Framer.Lemmas.Length
import Taps.Tcp.Lemmas.Scan
import Taps.Tcp.Transfer

/-!
# Records on the wire

What `send()` writes with the length-prefixed framer, and what the scan makes of it.
-/

namespace Taps

variable {native : Endian} {f : LengthPrefixedFramer} {mem : Memory} {m : Message}
  {ms : List Message}

namespace LengthPrefixedFramer

theorem writeHeader_eq (h : f.Encodes m) :
    f.writeHeader native m = fieldBytes f.byteOrder f.lengthFieldSize m.size := by
  have hsize : m.size < 2 ^ 64 := Nat.lt_of_le_of_lt (Nat.le_add_left ..) h.2
  rw [writeHeader, encodeLength_eq f.le, UInt64.toNat_ofNat', Nat.mod_eq_of_lt hsize]

theorem headerLength_record (mem : Memory) (h : f.Encodes m) (rest : List Byte) :
    f.headerLength (f.record mem m ++ rest) = m.size := by
  rw [record, List.append_assoc, headerLength, List.take_append_of_le_length (by simp),
    List.take_of_length_le (by simp), fieldValue_fieldBytes, Nat.mod_eq_of_lt h.1]

theorem length_record (f : LengthPrefixedFramer) (mem : Memory) (m : Message) :
    (f.record mem m).length = f.lengthFieldSize + m.size := by
  rw [record, List.length_append, length_fieldBytes, Message.length_payload]

theorem scan_record_append (h : f.Encodes m) (rest : List Byte) :
    f.scan (f.record mem m ++ rest) = .message (m.payload mem) true :: f.scan rest ∧
      f.scanLengths (f.record mem m ++ rest) = m.size :: f.scanLengths rest := by
  have hhead := headerLength_record mem h rest
  have hlen := length_record f mem m
  have hrec : f.lengthFieldSize + f.headerLength (f.record mem m ++ rest)
      ≤ (f.record mem m ++ rest).length := by
    rw [hhead, List.length_append]
    omega
  have hbody : ((f.record mem m ++ rest).drop f.lengthFieldSize).take m.size = m.payload mem := by
    rw [record, List.append_assoc, List.drop_left' (length_fieldBytes ..),
      List.take_left' (Message.length_payload mem m)]
  have hrest : (f.record mem m ++ rest).drop (f.lengthFieldSize + m.size) = rest :=
    List.drop_left' hlen
  rw [scan_record hrec, scanLengths_record hrec, hhead, hbody, hrest]
  exact ⟨rfl, rfl⟩

theorem scan_records (h : ∀ m ∈ ms, f.Encodes m) :
    f.scan (ms.flatMap (f.record mem))
      = ms.map (fun m => .message (m.payload mem) true) ++ [.message [] true] := by
  induction ms with
  | nil => rw [List.flatMap_nil, scan, if_pos rfl]; rfl
  | cons m ms ih =>
      rw [List.forall_mem_cons] at h
      rw [List.flatMap_cons, (scan_record_append h.1 _).1, ih h.2]
      rfl

theorem scanLengths_records (h : ∀ m ∈ ms, f.Encodes m) :
    f.scanLengths (ms.flatMap (f.record mem)) = ms.map Message.size := by
  induction ms with
  | nil =>
      have hshort : ([] : List Byte).length < f.lengthFieldSize := f.pos
      rw [List.flatMap_nil, scanLengths, if_pos hshort]
      rfl
  | cons m ms ih =>
      rw [List.forall_mem_cons] at h
      rw [List.flatMap_cons, (scan_record_append h.1 _).2, ih h.2]
      rfl

end LengthPrefixedFramer

theorem TCPConnection.sendAll_eq {c : TCPConnection Unit} (hstate : c.state = .established)
    (hframer : c.framer = some (f.toFramer native)) (h : ∀ m ∈ ms, f.Encodes m) :
    c.sendAll mem ms = some (ms.flatMap (f.record mem)) := by
  induction ms with
  | nil => rfl
  | cons m ms ih =>
      rw [List.forall_mem_cons] at h
      have hbegin : c.sendBegin mem m = (c, .ok (.ofMessage mem (f.writeHeader native m) m)) := by
        rw [sendBegin, if_neg (not_not.mpr hstate)]
        split
        · rename_i hf
          cases hframer.symm.trans hf
        · rename_i f' hf
          cases hframer.symm.trans hf
          rfl
      rw [sendAll, hbegin]
      simp only [sendEnd, ih h.2, Option.map_some, ConstBufferSequence.flatten_buffers_ofMessage,
        LengthPrefixedFramer.writeHeader_eq h.1, List.flatMap_cons]
      rfl

/-- All receives but the last of those until the end of the stream leave it possible to receive. -/
theorem Transfer.expected_append_last (rs : List Reply) (r : Reply) :
    expected (rs ++ [r]) (rs.length + 1) = rs.map (·, true) ++ [(r, false)] := by
  induction rs with
  | nil => rfl
  | cons x rs ih =>
      rw [List.length_cons, expected, List.cons_append, List.tail_cons, ih]
      simp

end Taps
