import Taps.Udp.Lemmas.Mailbox
import Taps.Udp.Receivers

/-!
# Who is signalled

The invariant is that as long as a receiver waits, no more datagrams are queued than there are receivers that are
signalled: each delivery signals one more, and each receiver that runs takes one.
-/

namespace Taps

namespace Receivers

variable {α : Type} {s s' : Receivers α} {m : Mailbox α} {i : Nat} {r : Receiver α}

structure Served (s : Receivers α) : Prop where
  opened : 0 < s.waiting → s.mailbox.closed = false
  wake : 0 < s.waiting → s.mailbox.contents.length ≤ s.signalled
  waiting : s.mailbox.waiting = s.waiting
  woken : s.mailbox.woken = s.signalled

theorem create_served (capacity : Nat) : (create capacity : Receivers α).Served where
  opened h := absurd h (Nat.lt_irrefl 0)
  wake h := absurd h (Nat.lt_irrefl 0)
  waiting := rfl
  woken := rfl

/-! ## Counting receivers -/

/-- The receivers, where the one that was `r` becomes `r'`. -/
theorem countP_set (p : Receiver α → Bool) (hi : s.receivers[i]? = some r) (r' : Receiver α) :
    (s.receivers.set i r').countP p + (if p r then 1 else 0) = s.receivers.countP p + if p r' then 1 else 0 := by
  obtain ⟨hlt, rfl⟩ := List.getElem?_eq_some_iff.mp hi
  rw [List.countP_set hlt]
  have hpos : p s.receivers[i] = true → 0 < s.receivers.countP p :=
    fun hp => List.countP_pos_iff.mpr ⟨_, List.getElem_mem hlt, hp⟩
  by_cases hp : p s.receivers[i] = true
  · have := hpos hp
    rw [if_pos hp]
    omega
  · rw [if_neg hp]
    omega

theorem waiting_pos (hi : s.receivers[i]? = some .waiting) : 0 < s.waiting :=
  List.countP_pos_iff.mpr ⟨_, List.mem_of_getElem? hi, rfl⟩

theorem signalled_pos (hi : s.receivers[i]? = some .signalled) : 0 < s.signalled :=
  List.countP_pos_iff.mpr ⟨_, List.mem_of_getElem? hi, rfl⟩

theorem waiting_signal (l : List (Receiver α)) : (l.map Receiver.signal).countP Receiver.isWaiting = 0 := by
  rw [List.countP_eq_zero]
  intro r hr
  obtain ⟨r', -, rfl⟩ := List.mem_map.mp hr
  cases r' <;> simp [Receiver.signal, Receiver.isWaiting]

theorem signalled_signal (l : List (Receiver α)) : (l.map Receiver.signal).countP Receiver.isSignalled
    = l.countP Receiver.isSignalled + l.countP Receiver.isWaiting := by
  induction l with
  | nil => rfl
  | cons r l ih =>
      cases r <;> simp [List.countP_cons, Receiver.signal, Receiver.isSignalled, Receiver.isWaiting, ih] <;> omega

/-! ## One look at the Mailbox -/

/-- What a look leaves: the oldest datagram is taken, or there is none, and the receiver waits if the Mailbox is
open. -/
theorem turn_cases (s : Receivers α) (m : Mailbox α) (i : Nat) :
    ∃ r m', (s.turn m i).receivers = s.receivers.set i r ∧ (s.turn m i).mailbox = m' ∧ m'.closed = m.closed ∧
      m'.woken = m.woken ∧ r.isSignalled = false ∧
      (r.isWaiting = false ∧ m'.waiting = m.waiting ∧ (m.contents = [] ∧ m'.contents = [] ∨
          m.contents.length = m'.contents.length + 1) ∨
        r.isWaiting = true ∧ m.closed = false ∧ m'.contents = [] ∧ m'.waiting = m.waiting + 1) := by
  unfold turn PassiveUDPConnection.receive
  cases hpop : m.tryPop with
  | some p =>
      obtain ⟨a, m'⟩ := p
      obtain ⟨hcontents, -, hclosed, -, hwaiting⟩ := Mailbox.tryPop_eq_some hpop
      have hwoken : m'.woken = m.woken := by
        unfold Mailbox.tryPop at hpop
        split at hpop <;> cases hpop
        rfl
      refine ⟨_, m', rfl, rfl, hclosed, hwoken, rfl, .inl ⟨rfl, hwaiting, .inr ?_⟩⟩
      rw [hcontents, List.length_cons]
  | none =>
      have hnil := Mailbox.tryPop_eq_none.mp hpop
      cases hclosed : m.closed with
      | true =>
          simp only [if_true]
          exact ⟨_, m, rfl, rfl, hclosed, rfl, rfl, .inl ⟨rfl, rfl, .inl ⟨hnil, hnil⟩⟩⟩
      | false =>
          simp only [Bool.false_eq_true, if_false]
          exact ⟨_, m.wait, rfl, rfl, hclosed, rfl, rfl, .inr ⟨rfl, trivial, hnil, rfl⟩⟩

/-- The receiver that looks was signalled, or did not count. -/
theorem turn_served (h : s.Served) (hi : s.receivers[i]? = some r) (hr : r.isWaiting = false)
    (hcontents : m.contents = s.mailbox.contents) (hclosed : m.closed = s.mailbox.closed)
    (hwaiting : m.waiting = s.mailbox.waiting)
    (hwoken : m.woken + (if r.isSignalled then 1 else 0) = s.mailbox.woken) : (s.turn m i).Served := by
  obtain ⟨r', m', hreceivers, hmailbox, hclosed', hwoken', hr', hcases⟩ := turn_cases s m i
  have hw : (s.turn m i).waiting = s.waiting + if r'.isWaiting then 1 else 0 := by
    have hset := countP_set Receiver.isWaiting hi r'
    rwa [← hreceivers, if_neg (by simp [hr])] at hset
  have hs : (s.turn m i).signalled + (if r.isSignalled then 1 else 0) = s.signalled := by
    have hset := countP_set Receiver.isSignalled hi r'
    rwa [← hreceivers, if_neg (c := r'.isSignalled = true) (by simp [hr'])] at hset
  have hsignalled := h.woken
  rcases hcases with ⟨hret, hwaiting', hlen⟩ | ⟨hwaits, hopen, hnil, hwaiting'⟩
  · rw [if_neg (by simp [hret]), Nat.add_zero] at hw
    refine ⟨fun hpos => ?_, fun hpos => ?_, ?_, ?_⟩
    · rw [hmailbox, hclosed', hclosed]
      exact h.opened (hw ▸ hpos)
    · have hwake := h.wake (hw ▸ hpos)
      rw [← hcontents] at hwake
      rw [hmailbox]
      rcases hlen with ⟨-, hnil⟩ | hlen
      · simp [hnil]
      · split at hs <;> omega
    · rw [hmailbox, hwaiting', hwaiting, h.waiting, hw]
    · rw [hmailbox, hwoken']
      omega
  · rw [if_pos hwaits] at hw
    refine ⟨fun _ => ?_, fun _ => ?_, ?_, ?_⟩
    · rw [hmailbox, hclosed', hopen]
    · simp [hmailbox, hnil]
    · rw [hmailbox, hwaiting', hwaiting, h.waiting, hw]
    · rw [hmailbox, hwoken']
      omega

/-! ## Steps -/

/-- The delivery that queues one more datagram signals one more receiver. -/
theorem deliver_served {a : α} (h : s.Served) (hs : s.step (.deliver a i) = some s') : s'.Served := by
  simp only [step] at hs
  split at hs
  · rename_i hidle
    cases hs
    by_cases hclosed : s.mailbox.closed = true
    · rw [Mailbox.deliver_of_closed hclosed]
      exact h
    · have hnone := hidle.resolve_left hclosed
      rw [Bool.not_eq_true] at hclosed
      have hwaiting := h.waiting
      refine ⟨fun hpos => ?_, fun hpos => ?_, ?_, ?_⟩
      · exact absurd hnone (Nat.pos_iff_ne_zero.mp hpos)
      · exact absurd hnone (Nat.pos_iff_ne_zero.mp hpos)
      · refine (Mailbox.waiting_deliver hclosed a).trans (Eq.trans ?_ hnone.symm)
        omega
      · refine (Mailbox.woken_deliver hclosed a).trans (Eq.trans ?_ h.woken)
        omega
  · rename_i hwaits
    rw [not_or, Bool.not_eq_true] at hwaits
    split at hs
    · rename_i hi
      cases hs
      have hw : waiting ⟨s.conn, s.mailbox.deliver a, s.receivers.set i .signalled⟩ + 1 = s.waiting :=
        countP_set Receiver.isWaiting hi .signalled
      have hs : signalled ⟨s.conn, s.mailbox.deliver a, s.receivers.set i .signalled⟩ = s.signalled + 1 :=
        countP_set Receiver.isSignalled hi .signalled
      have hlen := Mailbox.length_deliver_le s.mailbox a
      have hwake := h.wake (waiting_pos hi)
      have hwaiting := h.waiting
      have hwoken := h.woken
      refine ⟨fun _ => ?_, fun _ => ?_, ?_, ?_⟩
      · exact (Mailbox.closed_deliver ..).trans hwaits.1
      · rw [hs]
        exact Nat.le_trans hlen (Nat.succ_le_succ hwake)
      · refine (Mailbox.waiting_deliver hwaits.1 a).trans ?_
        omega
      · refine (Mailbox.woken_deliver hwaits.1 a).trans ?_
        omega
    · cases hs

theorem step_served {e : ReceiversEvent α} (h : s.Served) (hs : s.step e = some s') : s'.Served := by
  cases e with
  | deliver a i => exact deliver_served h hs
  | close cause =>
      cases hs
      have hnone : waiting ⟨s.conn, s.mailbox.close cause, s.receivers.map Receiver.signal⟩ = 0 :=
        waiting_signal s.receivers
      refine ⟨fun hpos => ?_, fun hpos => ?_, hnone.symm, ?_⟩
      · omega
      · omega
      · have hw := h.waiting
        have hs := h.woken
        refine Eq.trans ?_ (signalled_signal s.receivers).symm
        simp only [Mailbox.close]
        rw [hw, hs]
        rfl
  | shut aborted =>
      cases hs
      exact { h with }
  | arrive =>
      cases hs
      have hw : Receivers.waiting { s with receivers := s.receivers ++ [.arrived] } = s.waiting := by
        simp [waiting, Receiver.isWaiting]
      have hs : Receivers.signalled { s with receivers := s.receivers ++ [.arrived] } = s.signalled := by
        simp [signalled, Receiver.isSignalled]
      exact ⟨fun hpos => h.opened (hw ▸ hpos), fun hpos => hs ▸ h.wake (hw ▸ hpos), hw ▸ h.waiting, hs ▸ h.woken⟩
  | look i =>
      simp only [step] at hs
      split at hs
      · rename_i hi
        cases hs
        exact turn_served h hi rfl rfl rfl rfl rfl
      · rename_i hi
        cases hs
        apply turn_served h hi rfl
        · rfl
        · rfl
        · rfl
        · have hpos := signalled_pos hi
          rw [← h.woken] at hpos
          exact Nat.sub_add_cancel hpos
      · cases hs

theorem served_of_reachable (h : (system α).Reachable s) : s.Served := by
  apply h.invariant
  · rintro _ ⟨capacity, rfl⟩
    exact create_served capacity
  · exact fun s e s' h hs => step_served h hs

end Receivers

end Taps
