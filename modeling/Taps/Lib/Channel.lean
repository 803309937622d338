import Mathlib.Data.List.Basic

/-!
# Bounded channels

A channel has a buffer of at most `capacity` elements. A send to a full channel and a receive from an
empty one wait. A closed channel takes nothing more: the receives that wait on it fail, what is in its
buffer can still be received, and a send that waits goes on waiting for room.
-/

namespace Taps.Lib

/-- `senders` are the sends that wait, each with its element, and `receivers` the number of receives that
wait. -/
structure Channel (S α : Type*) where
  capacity : Nat
  isOpen : Bool
  buffer : List α
  senders : List (S × α)
  receivers : Nat

namespace Channel

variable {S α : Type*}

def empty (capacity : Nat) : Channel S α :=
  { capacity, isOpen := true, buffer := [], senders := [], receivers := 0 }

/-- How a send begins: it fails, its element goes to a receive that waits or into the buffer, or it
waits. -/
inductive Sent
  | refused
  | handed
  | buffered
  | waits
  deriving DecidableEq, Repr

def send (c : Channel S α) (sender : S) (a : α) : Channel S α × Sent :=
  if c.isOpen = false then (c, .refused)
  else if 0 < c.receivers then ({ c with receivers := c.receivers - 1 }, .handed)
  else if c.buffer.length < c.capacity then ({ c with buffer := c.buffer ++ [a] }, .buffered)
  else ({ c with senders := c.senders ++ [(sender, a)] }, .waits)

/-- How a receive begins: it takes the oldest element, which completes the send that has waited longest,
if any; or it fails; or it waits. -/
inductive Received (S α : Type*)
  | taken (a : α) (sender : Option S)
  | closed
  | waits

def receive (c : Channel S α) : Channel S α × Received S α :=
  match c.buffer, c.senders with
  | a :: buffer, [] => ({ c with buffer }, .taken a none)
  | a :: buffer, (sender, b) :: senders =>
      ({ c with buffer := buffer ++ [b], senders }, .taken a (some sender))
  | [], _ => if c.isOpen then ({ c with receivers := c.receivers + 1 }, .waits) else (c, .closed)

/-- The number of receives that closing fails is `receivers`. -/
def close (c : Channel S α) : Channel S α := { c with isOpen := false, receivers := 0 }

@[simp] theorem isOpen_send (c : Channel S α) (sender : S) (a : α) :
    (c.send sender a).1.isOpen = c.isOpen := by
  unfold send
  split
  · rfl
  · split
    · rfl
    · split <;> rfl

@[simp] theorem isOpen_receive (c : Channel S α) : c.receive.1.isOpen = c.isOpen := by
  unfold receive
  split
  · rfl
  · rfl
  · split <;> rfl

theorem receivers_send_le (c : Channel S α) (sender : S) (a : α) :
    (c.send sender a).1.receivers ≤ c.receivers := by
  unfold send
  split
  · exact Nat.le_refl _
  · split
    · exact Nat.sub_le ..
    · split <;> exact Nat.le_refl _

theorem senders_send (c : Channel S α) (sender : S) (a : α) :
    (c.send sender a).1.senders
      = if (c.send sender a).2 = .waits then c.senders ++ [(sender, a)] else c.senders := by
  unfold send
  split
  · rfl
  · split
    · rfl
    · split <;> rfl

theorem senders_receive (c : Channel S α) :
    (∃ a sender b, c.receive.2 = .taken a (some sender) ∧
      c.senders = (sender, b) :: c.receive.1.senders) ∨
    ((∀ a sender, c.receive.2 ≠ .taken a (some sender)) ∧ c.receive.1.senders = c.senders) := by
  unfold receive
  split
  · exact .inr ⟨nofun, rfl⟩
  · rename_i a buffer sender b senders hb hs
    exact .inl ⟨a, sender, b, rfl, hs⟩
  · split
    · exact .inr ⟨nofun, rfl⟩
    · exact .inr ⟨nofun, rfl⟩

theorem receive_ne_closed {c : Channel S α} (h : c.isOpen = true) : c.receive.2 ≠ .closed := by
  unfold receive
  split
  · exact nofun
  · exact nofun
  · rw [if_pos h]
    exact nofun

/-! ## What is to be received -/

/-- The elements that are to be received, in order. -/
def queue (c : Channel S α) : List α := c.buffer ++ c.senders.map Prod.snd

theorem mem_queue_send {c : Channel S α} {sender : S} {a x : α} (h : x ∈ (c.send sender a).1.queue) :
    x ∈ c.queue ∨ x = a := by
  unfold send at h
  split at h
  · exact .inl h
  · split at h
    · exact .inl h
    · split at h
      · simp only [queue, List.mem_append, List.mem_singleton] at h ⊢
        tauto
      · simp only [queue, List.mem_append, List.map_append, List.map_cons, List.map_nil,
          List.mem_singleton] at h ⊢
        tauto

theorem mem_queue_receive {c : Channel S α} {x : α} (h : x ∈ c.receive.1.queue) : x ∈ c.queue := by
  unfold receive at h
  split at h
  · rename_i hb hs
    simp only [queue, hb, hs] at h ⊢
    exact List.mem_cons_of_mem _ h
  · rename_i hb hs
    simp only [queue, hb, hs, List.map_cons, List.append_assoc, List.cons_append, List.nil_append] at h ⊢
    exact List.mem_cons_of_mem _ h
  · split at h
    · exact h
    · exact h

theorem mem_queue_of_taken {c : Channel S α} {a : α} {sender : Option S} (h : c.receive.2 = .taken a sender) :
    a ∈ c.queue := by
  unfold receive at h
  split at h
  · rename_i hb hs
    cases h
    simp [queue, hb]
  · rename_i hb hs
    cases h
    simp [queue, hb]
  · split at h
    · cases h
    · cases h

/-- A send waits on a full buffer only, which has some room. -/
structure Bounded (c : Channel S α) : Prop where
  room : 0 < c.capacity
  full : c.senders ≠ [] → c.capacity ≤ c.buffer.length

theorem bounded_empty {capacity : Nat} (h : 0 < capacity) : (empty (S := S) (α := α) capacity).Bounded :=
  ⟨h, nofun⟩

theorem Bounded.send {c : Channel S α} (h : c.Bounded) (sender : S) (a : α) :
    (c.send sender a).1.Bounded := by
  unfold Channel.send
  split
  · exact h
  · split
    · exact { h with }
    · split
      · refine { h with full := fun hs => Nat.le_trans (h.full hs) ?_ }
        simp
      · rename_i hfull
        exact ⟨h.room, fun _ => Nat.le_of_not_lt hfull⟩

theorem Bounded.receive {c : Channel S α} (h : c.Bounded) : c.receive.1.Bounded := by
  unfold Channel.receive
  split
  · rename_i hs
    exact ⟨h.room, fun hne => absurd hs hne⟩
  · rename_i a buffer sender b senders hb hs
    refine { h with full := fun _ => ?_ }
    have hfull := h.full (by simp [hs])
    simpa [hb] using hfull
  · split
    · exact { h with }
    · exact h

theorem Bounded.receive_cons {c : Channel S α} (h : c.Bounded) {a : α} {rest : List α}
    (hq : c.queue = a :: rest) : (∃ sender, c.receive.2 = .taken a sender) ∧ c.receive.1.queue = rest := by
  unfold queue at hq
  unfold Channel.receive
  split
  · rename_i hb hs
    rw [hb, hs] at hq
    cases hq
    exact ⟨⟨_, rfl⟩, by simp [queue, hs]⟩
  · rename_i hb hs
    rw [hb, hs] at hq
    cases hq
    exact ⟨⟨_, rfl⟩, by simp [queue]⟩
  · rename_i hb
    rw [hb] at hq
    have hs : c.senders ≠ [] := by
      intro hs
      rw [hs] at hq
      cases hq
    have hfull := h.full hs
    rw [hb] at hfull
    exact absurd h.room (Nat.not_lt.mpr hfull)

theorem send_open {c : Channel S α} (h : c.isOpen = true) (sender : S) (a : α) :
    (c.send sender a).2 = .handed ∨ a ∈ (c.send sender a).1.queue := by
  unfold send
  rw [if_neg (by simp [h])]
  split
  · exact .inl rfl
  · split
    · exact .inr (by simp [queue])
    · exact .inr (by simp [queue])

theorem Bounded.send_ne_waits {c : Channel S α} (h : c.Bounded) (hq : c.queue = []) (sender : S) (a : α) :
    (c.send sender a).2 ≠ .waits := by
  have hb : c.buffer = [] := (List.append_eq_nil_iff.mp hq).1
  unfold Channel.send
  split
  · simp
  · split
    · simp
    · rw [if_pos (by rw [hb]; exact h.room)]
      simp

/-! ## First in, first out -/

/-- What a send does to what is to be received. -/
theorem Bounded.queue_send {c : Channel S α} (h : c.Bounded) (hopen : c.isOpen = true) (sender : S) (a : α) :
    (c.send sender a).2 = .handed ∧ (c.send sender a).1.queue = c.queue ∨
      (c.send sender a).2 ≠ .handed ∧ (c.send sender a).1.queue = c.queue ++ [a] := by
  unfold Channel.send
  rw [if_neg (by simp [hopen])]
  split
  · exact .inl ⟨rfl, rfl⟩
  · split
    · rename_i hroom
      have hs : c.senders = [] := by
        by_contra hs
        exact absurd hroom (Nat.not_lt.mpr (h.full hs))
      exact .inr ⟨nofun, by simp [queue, hs]⟩
    · exact .inr ⟨nofun, by simp [queue]⟩

theorem send_closed {c : Channel S α} (h : c.isOpen = false) (sender : S) (a : α) :
    c.send sender a = (c, .refused) := if_pos h

theorem queue_receive_of_taken {c : Channel S α} {a : α} {sender : Option S} (h : c.receive.2 = .taken a sender) :
    c.queue = a :: c.receive.1.queue := by
  unfold receive at h ⊢
  split at h
  · rename_i hb hs
    cases h
    simp [queue, hb, hs]
  · rename_i hb hs
    cases h
    simp [queue, hb, hs]
  · split at h <;> cases h

/-- A receive that takes nothing leaves what is to be received, which is nothing. -/
theorem Bounded.queue_receive {c : Channel S α} (h : c.Bounded) (hr : ∀ a sender, c.receive.2 ≠ .taken a sender) :
    c.queue = [] ∧ c.receive.1.queue = [] := by
  cases hq : c.queue with
  | nil =>
      refine ⟨rfl, ?_⟩
      have hb : c.buffer = [] := (List.append_eq_nil_iff.mp hq).1
      unfold Channel.receive
      rw [hb]
      simp only
      split
      · simpa [queue, hb] using hq
      · exact hq
  | cons a rest =>
      obtain ⟨⟨sender, ht⟩, -⟩ := h.receive_cons hq
      exact absurd ht (hr a sender)

/-- A receive waits only while there is nothing to be received. -/
def Matched (c : Channel S α) : Prop := 0 < c.receivers → c.queue = []

theorem Bounded.matched_send {c : Channel S α} (h : c.Bounded) (hm : c.Matched) (sender : S) (a : α) :
    (c.send sender a).1.Matched := by
  intro hr
  have hle := c.receivers_send_le sender a
  have hq := hm (Nat.lt_of_lt_of_le hr hle)
  cases hopen : c.isOpen with
  | false => rw [send_closed hopen, hq]
  | true =>
      rcases h.queue_send hopen sender a with ⟨-, hsame⟩ | ⟨hne, -⟩
      · rw [hsame, hq]
      · -- A receive that waits is handed the element.
        have hhanded : (c.send sender a).2 = .handed := by
          unfold Channel.send
          rw [if_neg (by simp [hopen]), if_pos (Nat.lt_of_lt_of_le hr hle)]
        exact absurd hhanded hne

theorem Bounded.matched_receive {c : Channel S α} (h : c.Bounded) (hm : c.Matched) : c.receive.1.Matched := by
  intro hr
  by_cases ht : ∀ a sender, c.receive.2 ≠ .taken a sender
  · exact (h.queue_receive ht).2
  · obtain ⟨a, ht⟩ := not_forall.mp ht
    obtain ⟨sender, ht⟩ := not_forall.mp ht
    have hreceivers : c.receive.1.receivers = c.receivers := by
      have ht := not_not.mp ht
      unfold Channel.receive at ht ⊢
      split at ht
      · rfl
      · rfl
      · split at ht <;> cases ht
    have hq := hm (hreceivers ▸ hr)
    rw [queue_receive_of_taken (not_not.mp ht)] at hq
    cases hq

end Channel

end Taps.Lib
