import Taps.Udp.Lemmas.Mailbox
import Taps.Udp.Peer

/-!
# What happens to the datagrams of one Connection
-/

namespace Taps.Peer

variable {E : Type} {p p' p'' : Peer E} {d : Datagram E}

/-! ## One look of a receive -/

/-- A receive returns the oldest datagram, or the error of a closed Mailbox that is empty, or waits for an
open one. -/
theorem receive_cases (p : Peer E) :
    (∃ d m, p.mailbox.tryPop = some (d, m) ∧
      p.receive = { p with
        mailbox := m, removed := p.removed ++ [(d, false)], results := p.results ++ [.ok d] }) ∨
    (p.mailbox.contents = [] ∧ p.mailbox.closed = true ∧
      p.receive = { p with
        conn := { p.conn with state := .closed }
        results := p.results ++ [.error (p.conn.closedError p.mailbox.cause)] }) ∨
    (p.mailbox.contents = [] ∧ p.mailbox.closed = false ∧
      p.receive = { p with mailbox := p.mailbox.wait }) := by
  unfold receive PassiveUDPConnection.receive
  cases hpop : p.mailbox.tryPop with
  | some q =>
      obtain ⟨d, m⟩ := q
      exact .inl ⟨d, m, rfl, rfl⟩
  | none =>
      have hnil := Mailbox.tryPop_eq_none.mp hpop
      cases hclosed : p.mailbox.closed with
      | true => exact .inr (.inl ⟨hnil, rfl, by simp⟩)
      | false => exact .inr (.inr ⟨hnil, rfl, by simp⟩)

@[simp] theorem closed_receive (p : Peer E) :
    p.receive.mailbox.closed = p.mailbox.closed := by
  rcases p.receive_cases with ⟨d, m, hpop, h⟩ | ⟨-, -, h⟩ | ⟨-, -, h⟩
  · rw [h]
    exact (Mailbox.tryPop_eq_some hpop).2.2.1
  · rw [h]
  · rw [h]
    rfl

/-! ## One delivery -/

/-- A delivery to an open Mailbox drops the oldest `r`, none or one, and enqueues the datagram. -/
theorem deliver_cases (p : Peer E) (d : Datagram E) :
    (p.mailbox.closed = true ∧ p.deliver d = p) ∨
    (p.mailbox.closed = false ∧ ∃ r q,
      p.mailbox.contents = r ++ q ∧ (p.mailbox.deliver d).contents = q ++ [d] ∧
      (p.mailbox.deliver d).dropped = p.mailbox.dropped + r.length ∧
      p.deliver d = { p with
        mailbox := p.mailbox.deliver d
        enqueued := p.enqueued ++ [d]
        removed := p.removed ++ r.map fun d => (d, true) }) := by
  cases hclosed : p.mailbox.closed with
  | true => exact .inl ⟨rfl, by simp [deliver, hclosed, Mailbox.deliver_of_closed hclosed]⟩
  | false =>
      refine .inr ⟨rfl, ?_⟩
      rw [Mailbox.contents_deliver hclosed, Mailbox.dropped_deliver hclosed]
      by_cases hfull : p.mailbox.Full
      · obtain ⟨a, q, hq⟩ := List.exists_cons_of_ne_nil (Mailbox.contents_ne_nil_of_full hfull)
        exact ⟨[a], q, hq, by simp [hfull, hq], by simp [hfull],
          by simp [deliver, hclosed, hfull, hq]⟩
      · exact ⟨[], p.mailbox.contents, rfl, by simp [hfull], by simp [hfull],
          by simp [deliver, hclosed, hfull]⟩

theorem closed_deliver (p : Peer E) (d : Datagram E) :
    (p.deliver d).mailbox.closed = p.mailbox.closed := Mailbox.closed_deliver ..

/-! ## Accounting -/

theorem accounted_create (source : E) (address : Addr) : (create source address).Accounted where
  history := rfl
  returned := rfl
  dropped := rfl
  source := nofun
  order := .nil
  waiting := nofun
  results := ⟨[], rfl, fun h => absurd rfl h, by simp⟩

theorem Accounted.returned_subset (h : p.Accounted) : ∀ d ∈ p.returned, d ∈ p.enqueued := by
  intro d hd
  rw [← h.returned, List.mem_map] at hd
  obtain ⟨r, hr, rfl⟩ := hd
  rw [← h.history]
  exact List.mem_append_left _ (List.mem_map_of_mem (List.mem_of_mem_filter hr))

theorem Accounted.returned_order (h : p.Accounted) :
    p.returned.Pairwise fun d d' => d.seq < d'.seq := by
  have hsub : (p.removed.map Prod.fst).Pairwise fun d d' => d.seq < d'.seq := by
    refine h.order.sublist ?_
    rw [← h.history]
    exact List.sublist_append_left ..
  rw [← h.returned]
  exact hsub.sublist (List.filter_sublist.map _)

theorem Accounted.own (h : p.Accounted) (conn : PassiveUDPConnection) (place : Place) :
    { p with conn, place }.Accounted :=
  ⟨h.history, h.returned, h.dropped, h.source, h.order, h.waiting, h.results⟩

theorem Accounted.closeMailbox (h : p.Accounted) (cause : CloseCause) :
    (p.closeMailbox cause).Accounted where
  history := h.history
  returned := h.returned
  dropped := h.dropped
  source := h.source
  order := h.order
  waiting _ := rfl
  results := by
    obtain ⟨errors, hres, hempty, hcause⟩ := h.results
    refine ⟨errors, hres, fun hne => ⟨rfl, (hempty hne).2⟩, fun e he => ?_⟩
    have hclosed := (hempty (List.ne_nil_of_mem he)).1
    obtain ⟨c, hc⟩ := hcause e he
    exact ⟨c, by simpa [Peer.closeMailbox, Mailbox.close, hclosed] using hc⟩

/-- A datagram of the source that arrived after all that are enqueued. -/
theorem Accounted.deliver (h : p.Accounted) (hs : d.source = p.source) (hd : ∀ d' ∈ p.enqueued, d'.seq < d.seq) :
    (p.deliver d).Accounted := by
  rcases p.deliver_cases d with ⟨-, hp⟩ | ⟨hclosed, r, q, hcont, hcont', hdrop, hp⟩
  · rwa [hp]
  · obtain ⟨errors, hres, hempty, -⟩ := h.results
    have hno : errors = [] := by
      by_contra hne
      simpa [hclosed] using (hempty hne).1
    subst hno
    rw [hp]
    refine
      { history := ?_
        returned := ?_
        dropped := ?_
        source := ?_
        order := ?_
        waiting := fun hc => ?_
        results := ⟨[], hres, fun h => absurd rfl h, by simp⟩ }
    · simp [← h.history, hcont, hcont', List.map_append, Function.comp_def]
    · rw [List.filter_append, List.map_append, h.returned]
      simp [Peer.returned, List.filter_map, Function.comp_def]
    · rw [List.filter_append, List.length_append, h.dropped, hdrop]
      simp [List.filter_map, Function.comp_def]
    · intro d' hd'
      rcases List.mem_append.mp hd' with hd' | hd'
      · exact h.source d' hd'
      · rw [List.mem_singleton.mp hd']
        exact hs
    · refine List.pairwise_append.mpr ⟨h.order, List.pairwise_singleton .., fun d' hd' x hx => ?_⟩
      rw [List.mem_singleton.mp hx]
      exact hd d' hd'
    · rw [Mailbox.closed_deliver, hclosed] at hc
      cases hc

theorem Accounted.receive (h : p.Accounted) : p.receive.Accounted := by
  obtain ⟨errors, hres, hempty, hcause⟩ := h.results
  rcases p.receive_cases with ⟨d, m, hpop, hp⟩ | ⟨hnil, hclosed, hp⟩ | ⟨hnil, hclosed, hp⟩
  · obtain ⟨hcont, hdrop, hcl, hca, hwait⟩ := Mailbox.tryPop_eq_some hpop
    have hno : errors = [] := by
      by_contra hne
      rw [(hempty hne).2] at hcont
      cases hcont
    subst hno
    have hret : p.receive.returned = p.returned ++ [d] := by
      simp [hp, Peer.returned, List.filterMap_append, Except.toOption]
    rw [hp] at hret ⊢
    exact
      { history := by simp [← h.history, hcont]
        returned := by
          rw [hret, ← h.returned]
          simp [List.filter_append]
        dropped := by simpa [List.filter_append, hdrop] using h.dropped
        source := h.source
        order := h.order
        waiting := by simpa [hcl, hwait] using h.waiting
        results := ⟨[], by rw [hret]; simpa using hres, fun h => absurd rfl h, by simp⟩ }
  · have hret : p.receive.returned = p.returned := by
      simp [hp, Peer.returned, List.filterMap_append, Except.toOption]
    rw [hp] at hret ⊢
    refine
      { history := h.history
        returned := h.returned.trans hret.symm
        dropped := h.dropped
        source := h.source
        order := h.order
        waiting := h.waiting
        results := ⟨errors ++ [p.conn.closedError p.mailbox.cause], ?_, fun _ => ⟨hclosed, hnil⟩, ?_⟩ }
    · rw [hret]
      simp [hres]
    · intro e he
      rw [List.mem_append, List.mem_singleton] at he
      rcases he with he | rfl
      · exact hcause e he
      · exact ⟨p.conn, rfl⟩
  · rw [hp]
    exact
      { history := h.history
        returned := h.returned
        dropped := h.dropped
        source := h.source
        order := h.order
        waiting := fun hc => absurd (show p.mailbox.closed = true from hc) (by simp [hclosed])
        results := ⟨errors, hres, hempty, hcause⟩ }

theorem Accounted.resume (h : p.Accounted) :
    { p with mailbox := p.mailbox.resume }.Accounted :=
  ⟨h.history, h.returned, h.dropped, h.source, h.order, h.waiting, h.results⟩

/-! ## From one state of a Connection to a later one -/

theorem Continues.of_same (hr : p'.removed = p.removed) (he : p'.enqueued = p.enqueued)
    (hc : p'.mailbox.contents = p.mailbox.contents)
    (hcl : p.mailbox.closed = true → p'.mailbox.closed = true) : p.Continues p' :=
  ⟨[], [], by simp [hr], by simp [he], by simp [hc], fun h => ⟨hcl h, rfl, nofun⟩⟩

theorem Continues.refl (p : Peer E) : p.Continues p := .of_same rfl rfl rfl id

theorem Continues.trans (h : p.Continues p') (h' : p'.Continues p'') : p.Continues p'' := by
  obtain ⟨r, q, hr, hq, hc, hcl⟩ := h
  obtain ⟨r', q', hr', hq', hc', hcl'⟩ := h'
  refine ⟨r ++ r', q ++ q', by rw [hr', hr, List.append_assoc], by rw [hq', hq, List.append_assoc], ?_,
    fun h => ?_⟩
  · calc
      (r ++ r').map Prod.fst ++ p''.mailbox.contents
          = r.map Prod.fst ++ (r'.map Prod.fst ++ p''.mailbox.contents) := by simp
      _ = r.map Prod.fst ++ p'.mailbox.contents ++ q' := by rw [hc', List.append_assoc]
      _ = p.mailbox.contents ++ (q ++ q') := by rw [hc, List.append_assoc]
  · obtain ⟨h₁, rfl, hkeep⟩ := hcl h
    obtain ⟨h₂, rfl, hkeep'⟩ := hcl' h₁
    refine ⟨h₂, rfl, fun x hx => ?_⟩
    rcases List.mem_append.mp hx with hx | hx
    · exact hkeep x hx
    · exact hkeep' x hx

/-- What a closed Mailbox still has is returned, oldest first. -/
theorem Continues.returned (h : p.Continues p') (hp : p.Accounted) (hp' : p'.Accounted)
    (hclosed : p.mailbox.closed = true) :
    p'.returned ++ p'.mailbox.contents = p.returned ++ p.mailbox.contents := by
  obtain ⟨r, q, hr, -, hc, hcl⟩ := h
  obtain ⟨-, rfl, hkeep⟩ := hcl hclosed
  have hfilter : r.filter (fun x => !x.2) = r :=
    List.filter_eq_self.mpr fun x hx => by simp [hkeep x hx]
  rw [← hp'.returned, hr, List.filter_append, List.map_append, hp.returned, hfilter,
    List.append_assoc, hc, List.append_nil]

theorem continues_deliver (p : Peer E) (d : Datagram E) : p.Continues (p.deliver d) := by
  rcases p.deliver_cases d with ⟨-, hp⟩ | ⟨hclosed, r, q, hcont, hcont', -, hp⟩
  · rw [hp]
    exact .refl p
  · rw [hp]
    refine ⟨r.map fun d => (d, true), [d], rfl, rfl, ?_, fun h => ?_⟩
    · simp [hcont, hcont', Function.comp_def]
    · rw [hclosed] at h
      cases h

theorem continues_receive (p : Peer E) : p.Continues p.receive := by
  rcases p.receive_cases with ⟨d, m, hpop, hp⟩ | ⟨-, -, hp⟩ | ⟨-, -, hp⟩
  · obtain ⟨hcont, -, hcl, -, -⟩ := Mailbox.tryPop_eq_some hpop
    rw [hp]
    exact ⟨[(d, false)], [], rfl, by simp, by simp [hcont], fun h => ⟨hcl.trans h, rfl, by simp⟩⟩
  · rw [hp]
    exact .of_same rfl rfl rfl id
  · rw [hp]
    exact .of_same rfl rfl rfl id

/-! ## What happens to a Connection between deliveries -/

/-- Nothing is enqueued between `p` and `p'`. -/
structure Later (p p' : Peer E) : Prop where
  continues : p.Continues p'
  enqueued : p'.enqueued = p.enqueued
  source : p'.source = p.source
  address : p'.address = p.address
  destroyed : p.place = .destroyed → p'.place = .destroyed

/-- What an `accept()` or a call on the Connection may do to it: the Mailbox is neither closed nor
reopened. -/
structure Acts (p p' : Peer E) : Prop extends Later p p' where
  accounted : p.Accounted → p'.Accounted
  closed : p'.mailbox.closed = p.mailbox.closed

theorem Later.refl (p : Peer E) : p.Later p := ⟨.refl p, rfl, rfl, rfl, id⟩

theorem Later.trans (h : p.Later p') (h' : p'.Later p'') : p.Later p'' where
  continues := h.continues.trans h'.continues
  enqueued := h'.enqueued.trans h.enqueued
  source := h'.source.trans h.source
  address := h'.address.trans h.address
  destroyed hp := h'.destroyed (h.destroyed hp)

theorem later_closeMailbox (p : Peer E) (cause : CloseCause) : p.Later (p.closeMailbox cause) :=
  ⟨.of_same rfl rfl rfl fun _ => rfl, rfl, rfl, rfl, id⟩

theorem acts_receive (p : Peer E) : p.Acts p.receive where
  continues := p.continues_receive
  enqueued := rfl
  source := rfl
  address := rfl
  destroyed h := h
  accounted h := h.receive
  closed := p.closed_receive

theorem acts_wake (p : Peer E) : p.Acts p.wake where
  continues := continues_receive { p with mailbox := p.mailbox.resume }
  enqueued := rfl
  source := rfl
  address := rfl
  destroyed h := h
  accounted h := h.resume.receive
  closed := closed_receive { p with mailbox := p.mailbox.resume }

theorem acts_own (p : Peer E) (conn : PassiveUDPConnection) {place : Place}
    (h : p.place = .destroyed → place = .destroyed) : p.Acts { p with conn, place } where
  continues := .of_same rfl rfl rfl id
  enqueued := rfl
  source := rfl
  address := rfl
  destroyed := h
  accounted hp := hp.own conn place
  closed := rfl

end Taps.Peer
