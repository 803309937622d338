import Taps.Tcp.Lemmas.Records
import Taps.Udp.Lemmas.Active
import Taps.Udp.Lemmas.Loops
import Taps.Udp.Network

/-!
# What a datagram carries

A sender puts the header in front of the payload, and a receiver cuts the datagram to the size of its block.
-/

namespace Taps

variable {σ : Type} {framer : MessageFramer σ} {mem : Memory} {m : Message} {bytes payload : List Byte}
  {blockSize : Nat}

/-! ## The Message of a datagram -/

theorem payload_datagramMessage (mem : Memory) (block : BlockRef) (n : Nat) :
    (datagramMessage block n).payload mem = mem.read block.block 0 n := by
  unfold datagramMessage
  rw [Message.payload_of_chain rfl]
  split
  · rw [BlockChain.bytes_append, BlockChain.bytes_nil, List.nil_append]
    rfl
  · rename_i hn
    rw [Nat.eq_zero_of_not_pos hn, BlockChain.bytes_nil, Lib.Memory.read_zero]

theorem whole_iff {E : Type} {d : Datagram E} (h : d.payload = d.bytes.take blockSize) :
    d.Whole ↔ d.bytes.length ≤ blockSize := by
  rw [← List.take_eq_self_iff, ← h]
  constructor
  · intro hw
    have hmem := Lib.Memory.read_write_self (fun _ _ => 0 : Memory) 0 0 d.payload
    have hbytes := hw _ ⟨0, 0, 0, Nat.le_refl 0⟩ hmem rfl
    rwa [payload_datagramMessage, hmem] at hbytes
  · intro he mem block hmem _
    rw [payload_datagramMessage, hmem, he]

/-! ## From one connection to another -/

theorem flatten_udpBuffers (framerState : σ) :
    ((udpBuffers (some framer) framerState mem m).1.buffers mem).flatten
      = (framer.writeHeader framerState mem m).1 ++ m.payload mem :=
  ConstBufferSequence.flatten_buffers_ofMessage ..

theorem UdpSends.eq (h : UdpSends framer mem m bytes) :
    ∃ framerState, bytes = (framer.writeHeader framerState mem m).1 ++ m.payload mem := by
  cases h with
  | @active E c c' seq hf hb =>
      unfold ActiveUDPConnection.sendBegin at hb
      split at hb
      · cases hb
      · rw [hf] at hb
        cases hb
        exact ⟨_, flatten_udpBuffers c.framerState⟩
  | @passive c framerState framerState' seq hb =>
      unfold PassiveUDPConnection.sendBegin at hb
      split at hb
      · cases hb
      · cases hb
        exact ⟨_, flatten_udpBuffers framerState⟩

theorem UdpReceives.eq (h : UdpReceives framer blockSize bytes payload) :
    payload = bytes.take blockSize := by
  cases h with
  | active hr hf hb hd => exact hb ▸ ((ActiveUDP.inv_of_reachable hr _ hd).received _ rfl).2
  | @passive E _ config s p d hr hb hp hd =>
      rw [(UDPDemux.returned_of_reachable hr hp hd).2.2, UDPDemux.config_of_reachable hr, hb]

/-- A list comes back from behind another one only as a prefix of the whole. -/
theorem take_append_eq_right {α : Type} {hdr xs : List α} (h : 0 < hdr.length) (n : Nat) :
    (hdr ++ xs).take n = xs ↔ n = xs.length ∧ xs <+: hdr ++ xs := by
  refine ⟨fun he => ?_, fun ⟨hn, hpre⟩ => ?_⟩
  · have hlen := congrArg List.length he
    rw [List.length_take, List.length_append] at hlen
    have hpre := List.take_prefix n (hdr ++ xs)
    rw [he] at hpre
    exact ⟨by omega, hpre⟩
  · rw [hn]
    exact (List.prefix_iff_eq_take.mp hpre).symm

end Taps
