import Taps.Message.Calls
import Taps.Transport.ConstBufferSequence

/-!
# The views of a Message agree

And what a send hands to the socket is the header and the payload, whatever a write does with the iterators: it
copies, compares and moves on them as it likes.
-/

namespace Taps

namespace MessageCall

variable {mem : Memory} {ms : List Message}

@[simp] theorem blocks_ofVector (mem : Memory) (data : List Byte) : (Message.ofVector data).blocks mem = [data] := rfl

@[simp] theorem blocks_ofSpan (mem : Memory) (data : List Byte) : (Message.ofSpan data).blocks mem = [data] := rfl

@[simp] theorem blocks_ofChain (mem : Memory) (chain : Option BlockChain) (endOfMessage : Bool) :
    (Message.ofChain chain endOfMessage).blocks mem = chainSpans mem chain := by
  cases chain with
  | none => rfl
  | some c => exact Message.blocks_of_chain rfl

/-- Every cached copy stays one of its chain. -/
theorem step_coherent (ms : List Message) (call : MessageCall) (hms : ∀ m ∈ ms, m.Coherent mem) :
    ∀ m ∈ ((messages mem).step ms call).1, m.Coherent mem := by
  cases call with
  | ofVector data => exact Lib.forall_mem_concat hms (Message.coherent_of_none rfl)
  | ofSpan data => exact Lib.forall_mem_concat hms (Message.coherent_of_none rfl)
  | ofChain chain endOfMessage => exact Lib.forall_mem_concat hms (Message.coherent_of_none rfl)
  | copy i => exact Lib.forall_mem_copy hms i
  | asBytes i => exact Lib.forall_mem_modify hms (fun m hm => Message.coherent_asBytes (hms m hm)) i
  | blocks i => exact hms
  | gather i out => exact hms
  | size i => exact hms

/-- One call is answered from the spans of the Message. -/
theorem step_contents (ms : List Message) (call : MessageCall) (hms : ∀ m ∈ ms, m.Coherent mem) :
    (contents mem).step (ms.map (Message.blocks mem)) call
      = (((messages mem).step ms call).1.map (Message.blocks mem), ((messages mem).step ms call).2) := by
  cases call with
  | ofVector data => simp [messages, contents]
  | ofSpan data => simp [messages, contents]
  | ofChain chain endOfMessage => simp [messages, contents]
  | copy i => cases hi : ms[i]? <;> simp [messages, contents, hi]
  | asBytes i =>
      have hkept : (ms.modify i fun m => (m.asBytes mem).2).map (Message.blocks mem) = ms.map (Message.blocks mem) := by
        rw [Lib.map_modify (k := id) (fun m _ => Message.blocks_asBytes mem m), List.modify_id]
      refine Prod.ext hkept.symm ?_
      cases hi : ms[i]? with
      | none => simp [messages, contents, hi]
      | some m =>
          have hbytes := Message.asBytes_of_coherent (hms m (List.mem_of_getElem? hi))
          simp [messages, contents, hi, hbytes, Message.payload]
  | blocks i => cases hi : ms[i]? <;> simp [messages, contents, hi]
  | gather i out =>
      cases hi : ms[i]? with
      | none => simp [messages, contents, hi]
      | some m =>
          have hlen := Message.length_payload mem m
          rw [Message.payload] at hlen
          by_cases hfits : m.size ≤ out.length
          · simp [messages, contents, hi, hlen, hfits, Message.gather_eq hfits, Message.payload, -List.length_flatten]
          · simp [messages, contents, hi, hlen, hfits, -List.length_flatten]
  | size i =>
      cases hi : ms[i]? with
      | none => simp [messages, contents, hi]
      | some m =>
          have hlen := Message.length_payload mem m
          rw [Message.payload] at hlen
          simp [messages, contents, hi, hlen, -List.length_flatten]

/-- Whatever Messages a program builds and copies and whatever it asks them, it is answered as if each Message were
the list of spans that it was built with. The copy that `as_bytes()` makes is a copy of the bytes of the chain. -/
theorem views_agree (mem : Memory) :
    (∀ calls, (contents mem).run [] calls
      = (((messages mem).run [] calls).1.map (Message.blocks mem), ((messages mem).run [] calls).2)) ∧
    ∀ (c : BlockChain) (fresh : List Byte), fresh.length = c.size →
      c.copyTo mem fresh = ((chainSpans mem (some c)).flatten, c.size) := by
  constructor
  · intro calls
    have hrun := Lib.Machine.run_simulates_of (g := id) (I := fun ms => ∀ m ∈ ms, Message.Coherent mem m)
      step_coherent step_contents (s := []) (by simp) calls
    rwa [List.map_id] at hrun
  · intro c fresh hfresh
    rw [BlockChain.copyTo_eq c hfresh, BlockChain.bytes, List.flatMap_def]
    rfl

end MessageCall

/-! ## What a send hands to the socket -/

namespace ConstBufferSequence

/-- From `begin()` the iterator comes to `end()` behind the last buffer, no buffer is empty, and together they are
the header and the payload. No program can tell the iterators, with the copies it makes of them, from positions in
the list of the buffers. -/
theorem iterators_walk_buffers (mem : Memory) (seq : ConstBufferSequence) :
    (∀ j k, j ≤ (seq.buffers mem).length → k ≤ (seq.buffers mem).length →
      (seq.next^[j] seq.begin').equal (seq.next^[k] seq.begin') = decide (j = k)) ∧
    (∀ k, k ≤ (seq.buffers mem).length →
      (seq.next^[k] seq.begin').equal seq.end' = decide (k = (seq.buffers mem).length)) ∧
    (∀ buffer ∈ seq.buffers mem, buffer ≠ []) ∧
    (seq.buffers mem).flatten = seq.header ++ seq.payload mem ∧
    (∀ ops, (Lib.Iterators.positions (seq.buffers mem)).machine.run [] ops
      = (((seq.iterators mem).machine.run [] ops).1.map (seq.position mem),
          ((seq.iterators mem).machine.run [] ops).2)) ∧
    ∀ header,
      (∀ body, (ofBody header body).header = header ∧ (ofBody header body).payload mem = body) ∧
      (∀ chain, (ofChain header chain).header = header ∧ (ofChain header chain).payload mem = chain.bytes mem) ∧
      ∀ message, (ofMessage mem header message).header = header ∧
        (ofMessage mem header message).payload mem = (message.blocks mem).flatten := by
  have hparts := represents_parts mem seq
  rw [buffers_eq_parts]
  refine ⟨?_, ?_, ?_, ?_, ?_, ?_⟩
  · intro j k hj hk
    exact hparts.equal_iterate_next hj hk
  · intro k hk
    exact hparts.equal_last hk
  · intro buffer hbuffer
    exact ne_nil_of_mem_parts hbuffer
  · exact flatten_parts mem seq
  · intro ops
    exact hparts.run ops
  · intro header
    refine ⟨fun body => ⟨rfl, rfl⟩, fun chain => ⟨rfl, rfl⟩, fun message => ?_⟩
    exact ⟨header_ofMessage mem header message, payload_ofMessage mem header message⟩

end ConstBufferSequence

end Taps
