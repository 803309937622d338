import Taps.Buffer.Lemmas.ChainRefinement
import Taps.Tcp.Delivery

/-!
# What a failed delivery leaves

A delivery ends in one of four ways (`emitRecord_cases`). Where nothing throws it does what the branch of
`TCPConnection` does.
-/

namespace Taps

namespace Delivery

variable {σ : Type} {s s' : Delivery} {c : TCPConnection σ} {bc : BlockChain} {pr : ParseResult}
  {throws : DeliveryAllocation → Nat → Bool} {slice : ChainStorage}

theorem consumeFront_spec (h : s.receiveChain.Refines bc) (n : Nat) :
    ∃ s', s.consumeFront n = some s' ∧ s'.receiveChain.Refines (bc.consumeFront n) ∧
      s'.messageOpen = s.messageOpen := by
  obtain ⟨blocks, chain, hconsume, h'⟩ := ChainStorage.consumeFront_spec s.blocks h n
  exact ⟨{ s with blocks, receiveChain := chain }, by simp [consumeFront, hconsume], h', rfl⟩

theorem discard_of_zero (s : Delivery) (h : pr.discardBefore = 0) : s.discard pr = some s := by
  rw [discard, if_neg (by simp [h])]

theorem discard_spec (h : s.Holds c) (pr : ParseResult) :
    ∃ s', s.discard pr = some s' ∧ s'.receiveChain.Refines (c.afterDiscard pr) ∧ s'.messageOpen = s.messageOpen := by
  rw [discard, TCPConnection.afterDiscard]
  split
  · exact consumeFront_spec h.receiveChain _
  · exact ⟨s, rfl, h.receiveChain, rfl⟩

theorem slice_spec (throws : DeliveryAllocation → Nat → Bool) (h : s.receiveChain.Refines bc) (len : Nat) :
    (∃ blocks slice, s.slice throws len = some (.ok ({ s with blocks }, slice)) ∧ slice.Refines (bc.first len)) ∨
    ∃ a blocks, s.slice throws len = some (.error (a, { s with blocks })) ∧ a ≠ .gathered ∧
      ∃ n, throws a n = true := by
  rcases ChainStorage.first_spec s.blocks (throws .entries) h len with
    ⟨blocks, out, hfirst, hout⟩ | ⟨⟨blocks, hfirst⟩, n, hthrows⟩
  · by_cases hobject : throws .chainObject 1 = true
    · obtain ⟨blocks', hdestroy⟩ := ChainStorage.destroy_spec blocks hout.layout
      right
      refine ⟨.chainObject, blocks', ?_, nofun, _, hobject⟩
      simp [Delivery.slice, hfirst, hobject, hdestroy]
    · obtain ⟨blocks₁, slice, out', hmove, hslice, hout'⟩ :=
        ChainStorage.moveAssign_spec blocks ChainStorage.create_layout hout
      obtain ⟨blocks₂, hdestroy⟩ := ChainStorage.destroy_spec blocks₁ hout'.layout
      left
      refine ⟨blocks₂, slice, ?_, hslice⟩
      simp [Delivery.slice, hfirst, hobject, hmove, hdestroy]
  · right
    refine ⟨.entries, blocks, ?_, nofun, n, hthrows⟩
    simp [Delivery.slice, hfirst]

theorem gather_spec (throws : DeliveryAllocation → Nat → Bool) (s : Delivery) (pr : ParseResult)
    (h : slice.Refines bc) :
    s.gather throws pr slice = some (.ok (s, some slice)) ∨
    ∃ blocks, s.gather throws pr slice = some (.error (.gathered, { s with blocks })) ∧
      ∃ n, throws .gathered n = true := by
  rw [gather]
  split
  · rename_i hthrows
    obtain ⟨blocks, hdestroy⟩ := ChainStorage.destroy_spec s.blocks h.layout
    exact .inr ⟨blocks, by rw [hdestroy]; rfl, _, hthrows.2.2.2⟩
  · exact .inl rfl

/-- Refused, out of memory before the record is consumed, out of memory after it, or delivered; `s₁` is what drops
the bytes before the record. -/
inductive Ends (throws : DeliveryAllocation → Nat → Bool) (c : TCPConnection σ) (pr : ParseResult)
    (s s₁ : Delivery) : Outcome → Prop
  | refused (h : pr.consumed = 0 ∨ pr.consumed.toNat > s.receiveChain.size) :
      Ends throws c pr s s₁ (some (.ok (s, none)))
  | before {a blocks} (h : a ≠ .gathered) (hthrows : ∃ n, throws a n = true) :
      Ends throws c pr s s₁ (some (.error (a, { s₁ with blocks })))
  | after {st} (h : st.receiveChain.Refines ((c.afterDiscard pr).consumeFront pr.deliver.toNat))
      (hthrows : ∃ n, throws .gathered n = true) : Ends throws c pr s s₁ (some (.error (.gathered, st)))
  | delivered {st slice} (h : st.receiveChain.Refines ((c.afterDiscard pr).consumeFront pr.deliver.toNat))
      (hopen : st.messageOpen = !pr.endOfMessage)
      (hslice : slice.Refines ((c.afterDiscard pr).first pr.deliver.toNat)) :
      Ends throws c pr s s₁ (some (.ok (st, some slice)))

theorem emitRecord_ends (throws : DeliveryAllocation → Nat → Bool) (h : s.Holds c) (pr : ParseResult) :
    ∃ s₁, s.discard pr = some s₁ ∧ s₁.messageOpen = s.messageOpen ∧ s₁.receiveChain.Refines (c.afterDiscard pr) ∧
      Ends throws c pr s s₁ (s.emitRecord throws pr) := by
  obtain ⟨s₁, hdiscard, h₁, hopen⟩ := discard_spec h pr
  refine ⟨s₁, hdiscard, hopen, h₁, ?_⟩
  by_cases hrefused : pr.consumed = 0 ∨ pr.consumed.toNat > s.receiveChain.size
  · rw [emitRecord, if_pos hrefused]
    exact .refused hrefused
  · rw [emitRecord, if_neg hrefused, hdiscard]
    rcases slice_spec throws h₁ pr.deliver.toNat with
      ⟨blocks, slice, hslice, hrefines⟩ | ⟨a, blocks, hslice, ha, hthrows⟩
    · obtain ⟨s₂, hconsume, h₂, -⟩ := consumeFront_spec (s := { s₁ with blocks }) h₁ pr.deliver.toNat
      simp only [Option.bind_eq_bind, Option.bind_some, hslice, hconsume]
      rcases gather_spec throws { s₂ with messageOpen := !pr.endOfMessage } pr hrefines with
        hgather | ⟨blocks', hgather, hthrows⟩
      · rw [hgather]
        exact .delivered h₂ rfl hrefines
      · rw [hgather]
        exact .after h₂ hthrows
    · simp only [Option.bind_eq_bind, Option.bind_some, hslice]
      exact .before ha hthrows

/-- What throws has not been refused. -/
theorem accepted_of_throws {e : DeliveryAllocation × Delivery} (h : s.emitRecord throws pr = some (.error e)) :
    pr.consumed ≠ 0 ∧ pr.consumed.toNat ≤ s.receiveChain.size := by
  by_contra hrefused
  rw [emitRecord, if_pos (by by_contra hn; exact hrefused (by simpa using hn))] at h
  cases h

/-- A record takes bytes out of the chain, from its front or after that. -/
theorem taken_lt (hne : pr.consumed ≠ 0) (hle : pr.consumed.toNat ≤ c.receiveChain.size) :
    ((c.afterDiscard pr).consumeFront pr.deliver.toNat).size < c.receiveChain.size ∧
      (pr.discardBefore ≠ 0 → (c.afterDiscard pr).size < c.receiveChain.size) := by
  have hconsumed : 0 < pr.consumed.toNat := by
    rw [Nat.pos_iff_ne_zero]
    exact fun hz => hne (UInt64.toNat_inj.mp hz)
  have hdrop : ∀ (bc : BlockChain) (n : Nat), (bc.consumeFront n).size = bc.size - min n bc.size := fun _ _ => rfl
  by_cases hd : pr.discardBefore = 0
  · have hdeliver : pr.deliver.toNat = pr.consumed.toNat := by simp [ParseResult.consumed, hd]
    refine ⟨?_, fun h => absurd hd h⟩
    rw [TCPConnection.afterDiscard, if_neg (by simp [hd]), hdrop]
    omega
  · have hpos : 0 < pr.discardBefore.toNat := by
      rw [Nat.pos_iff_ne_zero]
      exact fun hz => hd (UInt64.toNat_inj.mp hz)
    have hlt : pr.discardBefore > 0 := UInt64.lt_iff_toNat_lt.mpr hpos
    rw [TCPConnection.afterDiscard, if_pos hlt, hdrop, hdrop]
    exact ⟨by omega, fun _ => by omega⟩

theorem Holds.size_eq (h : s.Holds c) : s.receiveChain.size = c.receiveChain.size := h.receiveChain.size_eq

/-- Where nothing throws, the members end up as those of the connection do. -/
theorem emitRecord_refines (h : s.Holds c) (hthrows : ∀ a n, throws a n = false) (hne : pr.consumed ≠ 0)
    (hle : pr.consumed.toNat ≤ c.receiveChain.size) (mem : Memory) :
    ∃ st slice, s.emitRecord throws pr = some (.ok (st, some slice)) ∧ st.Holds (c.emitRecord mem pr).1 ∧
      slice.Refines ((c.afterDiscard pr).first pr.deliver.toNat) := by
  have haccepted : ¬ (pr.consumed = 0 ∨ pr.consumed.toNat > c.receiveChain.size) := by
    rintro (hz | hgt)
    · exact hne hz
    · exact Nat.not_lt_of_le hle hgt
  obtain ⟨s₁, -, -, -, hends⟩ := emitRecord_ends throws h pr
  generalize s.emitRecord throws pr = outcome at hends
  cases hends with
  | refused hrefused =>
      rw [h.size_eq] at hrefused
      exact absurd hrefused haccepted
  | before _ hfails =>
      obtain ⟨n, hfails⟩ := hfails
      exact absurd hfails (by simp [hthrows])
  | after _ hfails =>
      obtain ⟨n, hfails⟩ := hfails
      exact absurd hfails (by simp [hthrows])
  | delivered hchain hopen hslice =>
      refine ⟨_, _, rfl, ?_, hslice⟩
      rw [TCPConnection.emitRecord, if_neg haccepted]
      exact ⟨hchain, hopen⟩

end Delivery

end Taps
