import Taps.Udp.Lemmas.Posted

/-!
# Closed Connections

When a receive on a closed Connection finds nothing: its Mailbox is empty, and it was closed by nobody but
the release handler. Each step keeps this unless it delivers to such a Connection or evicts it.
-/

namespace Taps.Peer

variable {E : Type} {p : Peer E}

theorem cancelled_eq_closedError {c : PassiveUDPConnection} {cause : CloseCause}
    (h : c.closedError cause = cancelled .receiveError c.aborted) : cause = .owner := by
  cases cause with
  | owner => rfl
  | idle | displaced =>
      cases hab : c.aborted with
      | true => simp [PassiveUDPConnection.closedError, cancelled, hab] at h
      | false => simp [PassiveUDPConnection.closedError, cancelled, hab] at h

/-- A receive that returns no Message and no error of an eviction. -/
theorem emptied_of_results (h : p.receive.results = p.results ++ [.error (cancelled .receiveError p.conn.aborted)] ∨
    p.receive.results = p.results) : p.Emptied := by
  rcases p.receive_cases with ⟨d, m, -, he⟩ | ⟨hnil, -, he⟩ | ⟨hnil, hopen, -⟩
  · rw [he] at h
    simp at h
  · rw [he] at h
    refine ⟨hnil, fun _ => cancelled_eq_closedError (c := p.conn) ?_⟩
    simpa using h
  · exact ⟨hnil, fun hc => absurd (hopen.symm.trans hc) nofun⟩

theorem Emptied.results (h : p.Emptied) :
    p.receive.results = p.results ++ [.error (cancelled .receiveError p.conn.aborted)] ∨
      p.receive.results = p.results ∧ p.mailbox.closed = false := by
  rcases p.receive_cases with ⟨d, m, hpop, -⟩ | ⟨-, hcl, he⟩ | ⟨-, hopen, he⟩
  · have hnone := Mailbox.tryPop_eq_none.mpr h.1
    rw [hpop] at hnone
    cases hnone
  · rw [he, h.2 hcl]
    exact .inl rfl
  · rw [he]
    exact .inr ⟨rfl, hopen⟩

theorem Emptied.receive (h : p.Emptied) : p.receive.Emptied := by
  rcases p.receive_cases with ⟨d, m, hpop, -⟩ | ⟨-, -, he⟩ | ⟨-, -, he⟩
  · have hnone := Mailbox.tryPop_eq_none.mpr h.1
    rw [hpop] at hnone
    cases hnone
  · rw [he]
    exact h
  · rw [he]
    exact h

theorem Emptied.wake (h : p.Emptied) : p.wake.Emptied :=
  Emptied.receive (p := { p with mailbox := p.mailbox.resume }) h

end Taps.Peer

namespace Taps.Demux

variable {E : Type} {s t u : Demux E} {b : Nat} {p q : Peer E} {cause : CloseCause}

/-- Every Connection of the application that was closed. -/
def Hushed (s : Demux E) : Prop :=
  ∀ (b : Nat) (p : Peer E), s.peers[b]? = some p → p.place = .application → p.conn.released = true →
    p.Emptied

/-- A closed Connection of the application that the table still has. -/
def Lingers (s : Demux E) (b : Nat) (p : Peer E) : Prop :=
  s.peers[b]? = some p ∧ p.place = .application ∧ p.conn.released = true ∧ s.InTable b

/-- `t` is `s` without some entries, whose Mailboxes were closed for the cause. -/
structure Evicts (cause : CloseCause) (s t : Demux E) : Prop where
  table : ∀ b, t.InTable b → s.InTable b
  peers : ∀ b : Nat, t.peers[b]? =
    (s.peers[b]?).map fun p => if s.InTable b ∧ ¬ t.InTable b then p.closeMailbox cause else p

theorem Evicts.refl (cause : CloseCause) (s : Demux E) : Evicts cause s s where
  table _ := id
  peers b := by simp

theorem Evicts.trans (h : Evicts cause s t) (h' : Evicts cause t u) : Evicts cause s u where
  table b := h.table b ∘ h'.table b
  peers b := by
    rw [h'.peers, h.peers, Option.map_map]
    congr 1
    funext p
    simp only [Function.comp_apply]
    by_cases ht : t.InTable b
    · simp [ht, h.table b ht]
    · simp [ht, mt (h'.table b) ht]

theorem create_hushed (config : DemuxConfig) : (create (E := E) config).Hushed := by
  simp [Hushed, create]

/-! ## Updates of one Connection -/

theorem Hushed.update {f : Peer E → Peer E} (hs : s.Hushed)
    (hf : ∀ p, s.peers[b]? = some p → (f p).place = .application → (f p).conn.released = true →
      (f p).Emptied) : (s.update b f).Hushed := by
  intro b' q hq hplace hrel
  obtain ⟨p, hp, ⟨rfl, rfl⟩ | ⟨-, rfl⟩⟩ := eq_of_getElem?_update hq
  · exact hf p hp hplace hrel
  · exact hs b' q hp hplace hrel

theorem setReleased_eq_self (h : p.conn.released = true) : p.setReleased = p := by
  cases p
  simp only [Peer.setReleased] at h ⊢
  rw [← h]

theorem getElem?_release (hp : s.peers[b]? = some p) (b' : Nat) :
    (s.release b).peers[b']? = (s.update b Peer.setReleased).peers[b']? := by
  unfold release
  rw [hp]
  cases hrel : p.conn.released with
  | true =>
      simp only [hrel, if_true]
      rw [getElem?_update]
      by_cases hb : b = b'
      · subst hb
        rw [hp, Option.map_some, if_pos rfl, setReleased_eq_self hrel]
      · simp [hb]
  | false => simp only [hrel, Bool.false_eq_true, if_false]

theorem peers_release (hp : s.peers[b]? = some p) : (s.release b).peers = (s.update b Peer.setReleased).peers :=
  List.ext_getElem? (getElem?_release hp)

theorem hushed_close (hs : s.Hushed) (hp : s.peers[b]? = some p) (hplace : p.place = .application)
    (aborted : Bool) : (s.close b aborted).Hushed ↔ (p.conn.released = false → p.Emptied) := by
  have hshut : (s.update b fun p => p.shut aborted).peers[b]? = some (p.shut aborted) := getElem?_update_self hp
  have hpeer : (s.close b aborted).peers[b]? = some (p.shut aborted).setReleased := by
    rw [close, getElem?_release hshut, getElem?_update_self hshut]
  refine ⟨fun h _ => ?_, fun h => ?_⟩
  · have hself := h b _ hpeer hplace rfl
    exact hself
  have hself : p.Emptied := by
    cases hrel : p.conn.released with
    | true => exact hs b p hp hplace hrel
    | false => exact h hrel
  intro b' q hq hplace' hrel
  rw [close, peers_release hshut] at hq
  have hupd : ((s.update b fun p => p.shut aborted).update b Peer.setReleased).peers[b']? = some q := hq
  obtain ⟨q₁, hq₁, ⟨rfl, rfl⟩ | ⟨hne, rfl⟩⟩ := eq_of_getElem?_update hupd
  · cases hshut.symm.trans hq₁
    exact hself
  · rw [getElem?_update_ne hne] at hq₁
    exact hs b' q hq₁ hplace' hrel

theorem hushed_destroy (hs : s.Hushed) (hp : s.peers[b]? = some p) : (s.destroy b).Hushed := by
  intro b' q hq hplace hrel
  obtain ⟨q₁, hq₁, ⟨-, rfl⟩ | ⟨hne, rfl⟩⟩ := eq_of_getElem?_update hq
  · cases hplace
  · rw [getElem?_release hp, getElem?_update_ne hne] at hq₁
    exact hs b' q hq₁ hplace hrel

theorem hushed_handOver (hs : s.Hushed) (hp : s.peers[b]? = some p) (hrel : p.conn.released = false) :
    (s.handOver b).Hushed := by
  refine Hushed.update (f := Peer.accept) hs fun p' hp' _ hrel' => ?_
  cases hp.symm.trans hp'
  rw [show p.accept.conn.released = p.conn.released from rfl, hrel] at hrel'
  cases hrel'

theorem hushed_accept (hs : s.Hushed) (h : s.Pending none) : s.accept.Hushed := by
  unfold accept
  cases hbuf : s.channel.buffer with
  | nil =>
      simp only
      split <;> exact hs
  | cons b buffer =>
      obtain ⟨p, hp, hrel⟩ := h.queued b (.inl (hbuf ▸ List.mem_cons_self))
      exact hushed_handOver (s := { s with channel := { s.channel with buffer } }) hs hp hrel

theorem hushed_trySend (hs : s.Hushed) (hp : s.peers[b]? = some p) (hrel : p.conn.released = false)
    (h : s.trySend b = some t) : t.Hushed ∧ ∃ q, t.peers[b]? = some q ∧ q.conn.released = false := by
  unfold trySend at h
  split at h
  · cases h
  · split at h
    · cases h
      exact ⟨hushed_handOver (s := { s with channel := { s.channel with waiting := s.channel.waiting - 1 } })
        hs hp hrel, _, getElem?_update_self hp, hrel⟩
    · split at h
      · cases h
        exact ⟨hs, p, hp, hrel⟩
      · cases h

section

variable [DecidableEq E]

theorem evicts_remove (hi : s.Inv) {n : Lib.Node E Entry} (hn : n ∈ s.table.nodes) (cause : CloseCause) :
    Evicts cause s (s.remove n cause) where
  table b hb := ((hi.inTable_remove hn cause).mp hb).1
  peers b := by
    have hin : s.InTable b ∧ ¬ (s.remove n cause).InTable b ↔ n.value.mailbox = b := by
      rw [hi.inTable_remove hn]
      refine ⟨fun h => ?_, fun h => ⟨⟨n, hn, h⟩, fun h' => h'.2 h.symm⟩⟩
      by_contra hne
      exact h.2 ⟨h.1, Ne.symm hne⟩
    simp only [hin]
    exact getElem?_update s n.value.mailbox _ b

theorem evicts_makeRoom (hi : s.Inv) : Evicts .displaced s s.makeRoom := by
  rcases makeRoom_cases hi with ⟨h, -⟩ | ⟨n, hn, h⟩
  · rw [h]
    exact .refl _ s
  · rw [h]
    exact evicts_remove hi hn _

theorem evicts_sweepIdle (hi : s.Inv) (cutoff : Int) (fuel : Nat) :
    Evicts .idle s (s.sweepIdle cutoff fuel) := by
  have hkeeps : ∀ t n, n ∈ t.table.nodes → t.Inv ∧ Evicts .idle s t →
      (t.evict n.id .idle).Inv ∧ Evicts .idle s (t.evict n.id .idle) := by
    rintro t n hn ⟨hi, hev⟩
    rw [hi.evict_eq hn]
    exact ⟨hi.remove hn .idle, hev.trans (evicts_remove hi hn .idle)⟩
  exact (sweepIdle_preserves hkeeps ⟨hi, .refl _ s⟩ cutoff fuel).2

theorem evicts_runRelease (hi : s.Inv) (h : Release E) : Evicts .owner s (s.runRelease h) := by
  rcases runRelease_cases hi h with he | ⟨n, hn, p, -, -, -, he⟩
  · rw [he]
    exact .refl _ s
  · rw [he]
    exact evicts_remove hi hn _

/-- An eviction for another cause than the owner's is heard on a closed Connection. -/
theorem Evicts.hushed (h : Evicts cause s t) (hi : s.Inv) (hs : s.Hushed) :
    t.Hushed ↔ cause = .owner ∨ ∀ b p, s.Lingers b p → t.InTable b := by
  refine ⟨fun ht => ?_, fun hc b q hq hplace hrel => ?_⟩
  · by_cases hc : cause = .owner
    · exact .inl hc
    · refine .inr fun b p ⟨hp, hplace, hrel, hin⟩ => ?_
      by_contra hout
      have hq := h.peers b
      rw [hp, Option.map_some, if_pos ⟨hin, hout⟩] at hq
      have hopen := (hi.isOpen b p hp).mpr hin
      apply hc
      simpa [Peer.closeMailbox, Mailbox.close, hopen] using (ht b _ hq hplace hrel).2
  · have hq' := h.peers b
    rw [hq] at hq'
    obtain ⟨p, hp, he⟩ := Option.map_eq_some_iff.mp hq'.symm
    split at he
    · rename_i hout
      subst he
      have hp' := hs b p hp hplace hrel
      refine ⟨hp'.1, fun _ => ?_⟩
      rcases hc with rfl | hc
      · have hopen := (hi.isOpen b p hp).mpr hout.1
        simp [Peer.closeMailbox, Mailbox.close, hopen]
      · exact absurd (hc b p ⟨hp, hplace, hrel, hout.1⟩) hout.2
    · subst he
      exact hs b p hp hplace hrel

/-! ## Datagrams -/

theorem hushed_connect (hs : s.Hushed) (now : Int) (address : Addr) (d : Datagram E) :
    (s.connect now address d).Hushed := by
  have hnew : (s.add d.source address now).peers[s.peers.length]? = some (.create d.source address) :=
    List.getElem?_concat_length
  have hadd : (s.add d.source address now).Hushed := by
    intro b q hq hplace hrel
    rcases eq_of_getElem?_add hq with ⟨-, hq⟩ | ⟨-, rfl⟩
    · exact hs b q hq hplace hrel
    · cases hrel
  unfold connect
  cases hsend : (s.add d.source address now).trySend s.peers.length with
  | some t =>
      obtain ⟨ht, q, hq, hrel⟩ := hushed_trySend hadd hnew rfl hsend
      simp only [hsend]
      refine Hushed.update (f := fun p => p.deliver d) ht fun q' hq' _ hrel' => ?_
      cases hq.symm.trans hq'
      rw [show (q.deliver d).conn.released = q.conn.released from rfl, hrel] at hrel'
      cases hrel'
  | none =>
      simp only [hsend]
      exact hushed_destroy hadd hnew

omit [DecidableEq E] in
theorem getElem?_trySend_ne (hb : b ≠ b') (h : s.trySend b = some t) : t.peers[b']? = s.peers[b']? := by
  unfold trySend at h
  split at h
  · cases h
  · split at h
    · cases h
      exact getElem?_update_ne (s := { s with channel := _ }) hb
    · split at h
      · cases h
        rfl
      · cases h

theorem getElem?_connect (hp : s.peers[b]? = some p) (now : Int) (address : Addr) (d : Datagram E) :
    (s.connect now address d).peers[b]? = some p := by
  have hb : s.peers.length ≠ b := (Nat.ne_of_lt (List.getElem?_eq_some_iff.mp hp).1).symm
  have hadd : (s.add d.source address now).peers[b]? = some p := getElem?_add_of_some hp
  have hnew : (s.add d.source address now).peers[s.peers.length]? = some (.create d.source address) :=
    List.getElem?_concat_length
  unfold connect
  cases hsend : (s.add d.source address now).trySend s.peers.length with
  | some t =>
      simp only [hsend]
      rw [getElem?_update_ne hb, getElem?_trySend_ne hb hsend, hadd]
  | none =>
      simp only [hsend]
      rw [destroy, getElem?_update_ne hb, getElem?_release hnew, getElem?_update_ne hb, hadd]

theorem hushed_of_connect {now : Int} {address : Addr} {d : Datagram E}
    (h : (s.connect now address d).Hushed) : s.Hushed :=
  fun b p hp => h b p (getElem?_connect hp now address d)

/-- A datagram is heard on a closed Connection that it is delivered to or that is displaced for it. -/
theorem hushed_serve (hi : s.Inv) (hs : s.Hushed) (now : Int) (address : Addr) (d : Datagram E) :
    (s.serve now address d).Hushed ↔ ∀ b p, s.Lingers b p → d.source ≠ p.source ∧
      (s.accepting = true → s.table.index.lookup d.source = none → s.makeRoom.InTable b) := by
  have hkey : ∀ b p, s.Lingers b p → d.source = p.source →
      ∃ n ∈ s.table.nodes, n.key = d.source ∧ n.value.mailbox = b := by
    rintro b p ⟨hp, -, -, n, hn, rfl⟩ hsrc
    obtain ⟨q, hq, hqs⟩ := hi.source n hn
    cases hp.symm.trans hq
    exact ⟨n, hn, hqs.symm.trans hsrc.symm, rfl⟩
  unfold serve
  cases hl : s.table.index.lookup d.source with
  | some it =>
      obtain ⟨n, hn, hnkey, hderef⟩ := hi.agrees.deref_lookup hl
      obtain ⟨p, hp, hps⟩ := hi.source n hn
      have hopen := (hi.isOpen _ p hp).mpr ⟨n, hn, rfl⟩
      have hcont : (p.deliver d).mailbox.contents ≠ [] := by
        rw [show (p.deliver d).mailbox = p.mailbox.deliver d from rfl, Mailbox.contents_deliver hopen]
        exact List.append_ne_nil_of_right_ne_nil _ nofun
      simp only [hderef]
      refine ⟨fun h b q hq => ⟨fun hsrc => ?_, nofun⟩, fun h => ?_⟩
      · obtain ⟨n', hn', hk, rfl⟩ := hkey b q hq hsrc
        rw [hi.agrees.eq_of_key hn' hn (hk.trans hnkey.symm)] at hq
        obtain ⟨hq, hplace, hrel, -⟩ := hq
        cases hp.symm.trans hq
        exact hcont (h _ _ (getElem?_update_self (s := { s with table := _ }) hp) hplace hrel).1
      · refine Hushed.update (s := { s with table := _ }) (f := fun p => p.deliver d) hs fun q hq hplace hrel => ?_
        cases hp.symm.trans hq
        exact absurd (hnkey.symm.trans hps.symm) (h _ p ⟨hp, hplace, hrel, n, hn, rfl⟩).1
  | none =>
      have hne : ∀ b p, s.Lingers b p → d.source ≠ p.source := by
        intro b p hq hsrc
        obtain ⟨n, hn, hk, -⟩ := hkey b p hq hsrc
        rw [(hi.agrees.index _ _).mpr ⟨n, hn, hk, rfl⟩] at hl
        cases hl
      simp only
      split
      · rename_i hacc
        have hroom := (evicts_makeRoom hi).hushed hi hs
        refine ⟨fun h b p hq => ⟨hne b p hq, fun _ _ => ?_⟩, fun h => hushed_connect ?_ now address d⟩
        · exact (hroom.mp (hushed_of_connect h)).resolve_left nofun b p hq
        · exact hroom.mpr (.inr fun b p hq => (h b p hq).2 hacc trivial)
      · rename_i hacc
        exact ⟨fun _ b p hq => ⟨hne b p hq, fun h => absurd h hacc⟩, fun _ => hs⟩

end

end Taps.Demux

namespace Taps.UDPDemux

variable {E : Type} [DecidableEq E] {s s' : UDPDemux E} {e : DemuxEvent E}

omit [DecidableEq E] in
theorem lingers_iff {b : Nat} {p : Peer E} :
    s.demux.Lingers b p ↔ s.owned b = some p ∧ p.conn.released = true ∧ s.demux.InTable b := by
  simp [Demux.Lingers, owned, Option.filter_eq_some_iff, and_assoc]

/-- A receive on a closed Connection says whether its Mailbox is empty. -/
theorem silent_iff (hi : s.demux.Inv) (hp : s.demux.Pending none) : s.Silent ↔ s.demux.Hushed := by
  refine ⟨fun h b p hb hplace hrel => ?_, fun h b p hb hrel q hq => ?_⟩
  · apply Peer.emptied_of_results
    exact (h b p (owned_eq_some_iff.mpr ⟨hb, hplace⟩) hrel _ (.inl rfl)).imp id And.left
  obtain ⟨hb, hplace⟩ := owned_eq_some hb
  have hemptied := h b p hb hplace hrel
  have hopen : p.mailbox.closed = false → ∃ x ∈ s.demux.posted, x.poster = b :=
    fun hopen => hp.pending b p hb hrel ((hi.isOpen b p hb).mp hopen)
  rcases hq with rfl | rfl
  · exact hemptied.results.imp id fun ⟨hres, hop⟩ => ⟨hres, hopen hop⟩
  · have hresults := Peer.Emptied.results (p := { p with mailbox := p.mailbox.resume }) hemptied
    exact hresults.imp id fun ⟨hres, hop⟩ => ⟨hres, hopen hop⟩

theorem sparesClosed_of_ne (hclose : ∀ b aborted, e ≠ .close b aborted)
    (hresume : ∀ now address atCap, e ≠ .resume now address atCap) (hsweep : ∀ now, e ≠ .sweep now) :
    s.SparesClosed e :=
  ⟨fun b aborted _ he => absurd he (hclose b aborted), fun _ _ _ _ _ =>
    ⟨fun now address atCap _ he => absurd he (hresume now address atCap),
      fun now he => absurd he (hsweep now)⟩⟩

theorem Steps.hushed (h : Steps s e s') (hi : s.demux.Inv) (hp : s.demux.Pending none)
    (hs : s.demux.Hushed) : s'.demux.Hushed ↔ s.SparesClosed e := by
  have hquiet : ∀ t : UDPDemux E, t.demux.Hushed → (∀ b aborted, e ≠ .close b aborted) →
      (∀ now address atCap, e ≠ .resume now address atCap) → (∀ now, e ≠ .sweep now) →
      (t.demux.Hushed ↔ s.SparesClosed e) :=
    fun t ht hclose hresume hsweep => iff_of_true ht (sparesClosed_of_ne hclose hresume hsweep)
  cases h with
  | arrive hl ho =>
      refine hquiet _ ?_ (by simp) (by simp) (by simp)
      rwa [demux_arrive]
  | expire => exact hquiet _ hs (by simp) (by simp) (by simp)
  | accept => exact hquiet _ (Demux.hushed_accept hs hp) (by simp) (by simp) (by simp)
  | stop =>
      refine hquiet _ ?_ (by simp) (by simp) (by simp)
      rw [demux_shutDownIfUnused]
      exact hs
  | @release i x hh =>
      refine hquiet _ ?_ (by simp) (by simp) (by simp)
      rw [demux_shutDownIfUnused]
      have hi' : (s.demux.unpost i).Inv := (Demux.Move.unpost (G := fun _ _ _ => True) s.demux i).inv hi
      exact ((Demux.evicts_runRelease hi' x).hushed hi' hs).mpr (.inl rfl)
  | receive hb ho =>
      refine hquiet _ ?_ (by simp) (by simp) (by simp)
      refine hs.update fun p hb' hplace hrel => (hs _ p hb' hplace ?_).receive
      exact (congrArg (·.2.2) (Demux.claim_receive p)).symm.trans hrel
  | wake hb ho =>
      refine hquiet _ ?_ (by simp) (by simp) (by simp)
      refine hs.update (f := Peer.wake) fun p hb' hplace hrel => (hs _ p hb' hplace ?_).wake
      exact (congrArg (·.2.2) (Demux.claim_receive { p with mailbox := p.mailbox.resume })).symm.trans hrel
  | destroy hb ho => exact hquiet _ (Demux.hushed_destroy hs hb) (by simp) (by simp) (by simp)
  | @close b p aborted hb ho =>
      rw [Demux.hushed_close hs hb ho aborted]
      refine ⟨fun hself => ⟨fun b' aborted' q he hq hrel => ?_, fun _ _ _ _ _ => ⟨by simp, by simp⟩⟩,
        fun hc hrel => hc.1 b aborted p rfl (owned_eq_some_iff.mpr ⟨hb, ho⟩) hrel⟩
      cases he
      cases hb.symm.trans (owned_eq_some hq).1
      exact hself hrel
  | @resume now address atCap sink outcome hl ha =>
      have hserved : s.SparesClosed (.resume now address atCap) ↔ ∀ d, s.Received d → ∀ b p,
          s.demux.Lingers b p → d.source ≠ p.source ∧ (s.demux.accepting = true →
            s.demux.table.index.lookup d.source = none → s.demux.makeRoom.InTable b) := by
        refine ⟨fun hc d hd b p hq => ?_, fun hd => ⟨by simp, fun b p hq hrel hin => ⟨?_, by simp⟩⟩⟩
        · obtain ⟨hq, hrel, hin⟩ := lingers_iff.mp hq
          exact (hc.2 b p hq hrel hin).1 now address atCap d rfl hd
        · intro now' address' atCap' d he hrec
          exact hd d hrec b p (lingers_iff.mpr ⟨hq, hrel, hin⟩)
      rw [hserved]
      rcases resume_demux_cases hl now address atCap with ⟨d, hrec, hserve⟩ | ⟨hnone, hsame⟩
      · rw [hserve, Demux.hushed_serve hi hs]
        refine ⟨fun hd d' hd' => ?_, fun hd => hd d hrec⟩
        cases hrec.symm.trans hd'
        exact hd
      · rw [hsame]
        exact iff_of_true hs fun d hd => absurd hd (hnone d)
  | cancelled hl =>
      refine iff_of_true hs ⟨by simp, fun b p _ _ _ => ⟨by simp, fun _ _ hexp => ?_⟩⟩
      cases hl.symm.trans hexp
  | @sweep now hl =>
      rw [demux_shutDownIfUnused]
      have hev := Demux.evicts_sweepIdle hi (s.demux.cutoff now) s.demux.table.nodes.length
      refine (hev.hushed hi hs).trans
        ⟨fun hc => ⟨by simp, fun b p hq hrel hin => ⟨by simp, fun now' he _ => ?_⟩⟩, fun hc => ?_⟩
      · cases he
        exact hc.resolve_left (by simp) b p (lingers_iff.mpr ⟨hq, hrel, hin⟩)
      · refine .inr fun b p hq => ?_
        obtain ⟨hq, hrel, hin⟩ := lingers_iff.mp hq
        exact (hc.2 b p hq hrel hin).2 now rfl hl

end Taps.UDPDemux
