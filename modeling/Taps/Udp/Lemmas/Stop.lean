import Taps.Udp.Lemmas.Posted

/-!
# Whose Connections the table still has

A Connection is in the accept channel, or it was handed out, or it was released. Where the release
handlers run in the order in which they were posted, a handler of a Connection that the channel refused
runs before all those that were full in the channel at that time are released: this is what the invariant
says of the posted handlers.
-/

namespace Taps.Demux

variable {E : Type}

/-- A Connection waits in the channel, or it was handed out and its handler does not run before the
`i`-th of those that are posted. -/
def Awaited (s : Demux E) (i : Nat) : Prop :=
  ∃ b, b ∈ s.channel.buffer ∨
    s.HandedOut b ∧ ((∃ p, s.peers[b]? = some p ∧ p.conn.released = false) ∨
      ∃ j h, i < j ∧ s.posted[j]? = some h ∧ h.poster = b)

/-- `limbo` is the Connection that `receive_loop()` is about to put somewhere, if any. -/
structure Tracked (limbo : Option Nat) (s : Demux E) : Prop where
  place : ∀ (b : Nat) (p : Peer E), s.peers[b]? = some p → limbo ≠ some b →
    b ∈ s.channel.buffer ∨ s.HandedOut b ∨ p.conn.released = true
  queued : ∀ b, b ∈ s.channel.buffer ∨ limbo = some b →
    ∃ p, s.peers[b]? = some p ∧ p.conn.released = false
  posted : ∀ h ∈ s.posted, ∃ p, s.peers[h.poster]? = some p ∧ p.source = h.source ∧
    p.address = h.mailbox
  pending : ∀ (b : Nat) (p : Peer E), s.peers[b]? = some p → p.conn.released = true → s.InTable b →
    ∃ h ∈ s.posted, h.poster = b
  order : ∀ i h, s.posted[i]? = some h → ¬ s.HandedOut h.poster → s.Awaited i
  isOpen : s.accepting = true → s.channel.isOpen = true
  drained : s.accepting = false → s.channel.buffer = []

variable {s t : Demux E} {b : Nat} {p q : Peer E} {limbo : Option Nat}

theorem Tracked.toPending (h : s.Tracked limbo) : s.Pending limbo := ⟨h.queued, h.posted, h.pending⟩

theorem Frame.awaited (h : Frame s t) {i : Nat} (ha : s.Awaited i) : t.Awaited i := by
  obtain ⟨b, hb | ⟨hb, hrel | hj⟩⟩ := ha
  · exact ⟨b, .inl (h.buffer ▸ hb)⟩
  · obtain ⟨p, hp, hrel⟩ := hrel
    obtain ⟨q, hq, he⟩ := h.exists_peer' hp
    exact ⟨b, .inr ⟨(h.handed b).mpr hb, .inl ⟨q, hq, (congrArg (·.2.2) he).trans hrel⟩⟩⟩
  · exact ⟨b, .inr ⟨(h.handed b).mpr hb, .inr (h.posted ▸ hj)⟩⟩

theorem Tracked.frame (h : s.Tracked limbo) (hf : Frame s t) : t.Tracked limbo where
  place b q hq hl := by
    obtain ⟨p, hp, he⟩ := hf.exists_peer hq
    rw [hf.buffer, hf.handed]
    have hrel : q.conn.released = p.conn.released := congrArg (·.2.2) he
    exact hrel ▸ h.place b p hp hl
  queued := (h.toPending.frame hf).queued
  posted := (h.toPending.frame hf).posted
  pending := (h.toPending.frame hf).pending
  order i x hx hn := by
    rw [hf.posted] at hx
    rw [hf.handed] at hn
    exact hf.awaited (h.order i x hx hn)
  isOpen hacc := hf.isOpen.trans (h.isOpen (hf.accepting.symm.trans hacc))
  drained hacc := hf.buffer.trans (h.drained (hf.accepting.symm.trans hacc))

/-! ## Connections that change hands -/

variable [DecidableEq E]

omit [DecidableEq E] in
theorem Awaited.mono {i : Nat} (h : s.Awaited i)
    (hbuf : ∀ b ∈ s.channel.buffer, t.Awaited i)
    (hhanded : ∀ b, s.HandedOut b → t.HandedOut b)
    (hrel : ∀ (b : Nat) (p : Peer E), s.HandedOut b → s.peers[b]? = some p → p.conn.released = false →
      t.Awaited i)
    (hposted : ∀ j h, i < j → s.posted[j]? = some h → t.posted[j]? = some h) : t.Awaited i := by
  obtain ⟨b, hb | ⟨hb, ⟨p, hp, hr⟩ | ⟨j, x, hj, hx, he⟩⟩⟩ := h
  · exact hbuf b hb
  · exact hrel b p hb hp hr
  · exact ⟨b, .inr ⟨hhanded b hb, .inr ⟨j, x, hj, hposted j x hj hx, he⟩⟩⟩

theorem Tracked.add (h : s.Tracked none) (source : E) (address : Addr) (now : Int) :
    (s.add source address now).Tracked (some s.peers.length) where
  place b q hq hl := by
    rcases eq_of_getElem?_add hq with ⟨-, hq⟩ | ⟨rfl, -⟩
    · exact h.place b q hq nofun
    · exact absurd rfl hl
  queued := (h.toPending.add source address now).queued
  posted := (h.toPending.add source address now).posted
  pending := (h.toPending.add source address now).pending
  order i x hx hn :=
    (h.order i x hx hn).mono (fun b hb => ⟨b, .inl hb⟩) (fun _ => id)
      (fun b p hb hp hr => ⟨b, .inr ⟨hb, .inl ⟨p, getElem?_add_of_some hp, hr⟩⟩⟩) fun _ _ _ => id
  isOpen := h.isOpen
  drained := h.drained

omit [DecidableEq E] in
theorem Tracked.enqueue (h : s.Tracked (some b)) (hacc : s.accepting = true) :
    Tracked none { s with channel := { s.channel with buffer := s.channel.buffer ++ [b] } } where
  place b' q hq _ := by
    by_cases hb : b' = b
    · exact .inl (List.mem_append_right _ (List.mem_singleton.mpr hb))
    · exact (h.place b' q hq fun he => hb (Option.some.inj he).symm).imp_left
        (List.mem_append_left _)
  queued := h.toPending.enqueue.queued
  posted := h.posted
  pending := h.pending
  order i x hx hn :=
    (h.order i x hx hn).mono (fun b hb => ⟨b, .inl (List.mem_append_left _ hb)⟩) (fun _ => id)
      (fun b p hb hp hr => ⟨b, .inr ⟨hb, .inl ⟨p, hp, hr⟩⟩⟩) fun _ _ _ => id
  isOpen := h.isOpen
  drained hacc' := absurd (hacc.symm.trans hacc') nofun

omit [DecidableEq E] in
theorem Tracked.handOver (h : s.Tracked limbo) (hl : ∀ b', limbo = some b' → b' = b)
    (channel : AcceptChannel)
    (hbuf : ∀ b' ∈ channel.buffer, b' ∈ s.channel.buffer)
    (hrest : ∀ b' ∈ s.channel.buffer, b' ∈ channel.buffer ∨ b' = b)
    (hopen : channel.isOpen = s.channel.isOpen) :
    Tracked none ({ s with channel }.handOver b) := by
  have hpending := h.toPending.handOver (b := b) channel hbuf
  have hhanded : ∀ b', ({ s with channel }.handOver b).HandedOut b' ↔ s.HandedOut b' ∨ b' = b := by
    intro b'
    simp [HandedOut, Demux.handOver, eq_comm]
  have hpeer : ∀ (b' : Nat) (p : Peer E), s.peers[b']? = some p →
      ∃ q, ({ s with channel }.handOver b).peers[b']? = some q ∧ claim q = claim p := by
    intro b' p hp
    have hq := handOver_claims s channel b b'
    rw [hp, Option.map_some] at hq
    exact Option.map_eq_some_iff.mp hq
  have hpeer' : ∀ (b' : Nat) (q : Peer E), ({ s with channel }.handOver b).peers[b']? = some q →
      ∃ p, s.peers[b']? = some p ∧ claim q = claim p := by
    intro b' q hq
    have hp := handOver_claims s channel b b'
    rw [hq, Option.map_some] at hp
    obtain ⟨p, hp, he⟩ := Option.map_eq_some_iff.mp hp.symm
    exact ⟨p, hp, he.symm⟩
  refine
    { place := ?_, queued := hpending.queued, posted := hpending.posted, pending := hpending.pending
      order := ?_, isOpen := ?_, drained := ?_ }
  · intro b' q hq _
    obtain ⟨p, hp, he⟩ := hpeer' b' q hq
    by_cases hbb : b' = b
    · exact .inr (.inl ((hhanded b').mpr (.inr hbb)))
    · rcases h.place b' p hp fun hl' => hbb (hl b' hl') with hb' | hb' | hb'
      · exact .inl ((hrest b' hb').resolve_right hbb)
      · exact .inr (.inl ((hhanded b').mpr (.inl hb')))
      · exact .inr (.inr ((congrArg (·.2.2) he).trans hb'))
  · intro i x hx hn
    have hkeep : ∀ (b' : Nat) (p : Peer E), s.HandedOut b' ∨ b' = b → s.peers[b']? = some p →
        p.conn.released = false → ({ s with channel }.handOver b).Awaited i := by
      intro b' p hb' hp hrel
      obtain ⟨q, hq, he⟩ := hpeer b' p hp
      exact ⟨b', .inr ⟨(hhanded b').mpr hb', .inl ⟨q, hq, (congrArg (·.2.2) he).trans hrel⟩⟩⟩
    refine (h.order i x hx fun hn' => hn ((hhanded _).mpr (.inl hn'))).mono ?_
      (fun b' hb' => (hhanded b').mpr (.inl hb')) (fun b' p hb' => hkeep b' p (.inl hb')) fun _ _ _ => id
    intro b' hb'
    rcases hrest b' hb' with hb'' | hbb
    · exact ⟨b', .inl hb''⟩
    · obtain ⟨p, hp, hrel⟩ := h.queued b' (.inl hb')
      exact hkeep b' p (.inr hbb) hp hrel
  · intro hacc
    exact hopen.trans (h.isOpen hacc)
  · intro hacc
    refine List.eq_nil_iff_forall_not_mem.mpr fun b' hb' => ?_
    have hmem := hbuf b' hb'
    rw [h.drained hacc] at hmem
    cases hmem

omit [DecidableEq E] in
/-- A Connection is released that was handed out, or that a full channel has refused. -/
theorem Tracked.release (h : s.Tracked limbo) (hp : s.peers[b]? = some p) (hbuf : b ∉ s.channel.buffer)
    (hl : ∀ b', limbo = some b' → b' = b)
    (hb : p.conn.released = false → s.HandedOut b ∨ s.channel.buffer ≠ []) :
    (s.release b).Tracked none := by
  have hpending := h.toPending.release hp hbuf
  unfold Demux.release at hpending ⊢
  rw [hp] at hpending ⊢
  cases hrel : p.conn.released with
  | true =>
      have hnone : limbo = none := by
        cases hlimbo : limbo with
        | none => rfl
        | some b' =>
            obtain ⟨q, hq, hqr⟩ := h.queued b' (.inr hlimbo)
            rw [hl b' hlimbo, hp] at hq
            cases hq
            rw [hrel] at hqr
            cases hqr
      simp only [hrel, if_true]
      exact hnone ▸ h
  | false =>
      simp only [hrel, Bool.false_eq_true, if_false] at hpending ⊢
      have hother : ∀ (b' : Nat) (q : Peer E), (s.update b Peer.setReleased).peers[b']? = some q →
          b' ≠ b → s.peers[b']? = some q :=
        fun b' q hq hne => (getElem?_update_ne hne.symm).symm.trans hq
      have hself : (s.update b Peer.setReleased).peers[b]? = some p.setReleased := getElem?_update_self hp
      refine
        { place := ?_, queued := hpending.queued, posted := hpending.posted, pending := hpending.pending
          order := ?_, isOpen := h.isOpen, drained := h.drained }
      · intro b' q hq _
        by_cases hne : b' = b
        · subst hne
          rw [hself] at hq
          cases hq
          exact .inr (.inr rfl)
        · exact h.place b' q (hother b' q hq hne) fun hl' => hne (hl b' hl')
      · intro i x hx hn
        rcases Nat.lt_trichotomy i s.posted.length with hi | rfl | hi
        · rw [List.getElem?_append_left hi] at hx
          refine (h.order i x hx hn).mono (fun b' hb' => ⟨b', .inl hb'⟩) (fun _ => id) ?_ ?_
          · intro b' q hb' hq hqr
            refine ⟨b', .inr ⟨hb', ?_⟩⟩
            by_cases hne : b' = b
            · exact .inr ⟨s.posted.length, _, hi, List.getElem?_concat_length, hne.symm⟩
            · exact .inl ⟨q, (getElem?_update_ne (Ne.symm hne)).trans hq, hqr⟩
          · intro j y hj hy
            exact (List.getElem?_append_left (List.getElem?_eq_some_iff.mp hy).1).trans hy
        · rw [List.getElem?_concat_length] at hx
          cases hx
          -- the handler of a refused Connection stands behind nothing: those in the channel are awaited
          obtain ⟨b', hb'⟩ := List.exists_mem_of_ne_nil _ ((hb hrel).resolve_left hn)
          exact ⟨b', .inl hb'⟩
        · have hlen : (s.posted ++ [(⟨p.source, p.address, b⟩ : Release E)]).length ≤ i := by
            rw [List.length_append, List.length_singleton]
            exact hi
          rw [List.getElem?_eq_none hlen] at hx
          cases hx

/-! ## The release handlers -/

theorem Tracked.runRelease (h : s.Tracked none) (hi : s.Inv) {x : Release E}
    (hx : s.posted[0]? = some x) : ((s.unpost 0).runRelease x).Tracked none := by
  have hpending := h.toPending.runRelease hi hx
  have hf := frame_runRelease (s.unpost 0) x
  obtain ⟨xs, hxs⟩ : ∃ xs, s.posted = x :: xs := by
    cases hpost : s.posted with
    | nil =>
        rw [hpost] at hx
        cases hx
    | cons y ys =>
        rw [hpost] at hx
        cases hx
        exact ⟨ys, rfl⟩
  have hposted : ((s.unpost 0).runRelease x).posted = xs := by
    rw [hf.posted, unpost, hxs]
    rfl
  refine
    { place := ?_, queued := hpending.queued, posted := hpending.posted, pending := hpending.pending
      order := ?_, isOpen := fun hacc => hf.isOpen.trans (h.isOpen (hf.accepting.symm.trans hacc))
      drained := fun hacc => hf.buffer.trans (h.drained (hf.accepting.symm.trans hacc)) }
  · intro b q hq _
    obtain ⟨p, hp, he⟩ := hf.exists_peer hq
    rw [hf.buffer, hf.handed]
    have hrel : q.conn.released = p.conn.released := congrArg (·.2.2) he
    exact hrel ▸ h.place b p hp nofun
  · intro i y hy hn
    rw [hposted] at hy
    rw [hf.handed] at hn
    have hy' : s.posted[i + 1]? = some y := by
      rw [hxs]
      exact hy
    obtain ⟨b, hb⟩ := h.order (i + 1) y hy' hn
    refine hf.awaited ⟨b, hb.imp_right fun hb => ⟨hb.1, hb.2.imp_right ?_⟩⟩
    rintro ⟨j, z, hj, hz, he⟩
    obtain ⟨j, rfl⟩ := Nat.exists_eq_succ_of_ne_zero (Nat.ne_of_gt (Nat.zero_lt_of_lt hj))
    refine ⟨j, z, Nat.lt_of_succ_lt_succ hj, ?_, he⟩
    rw [hxs] at hz
    rw [unpost, hxs]
    exact hz

/-! ## The handlers -/

omit [DecidableEq E] in
theorem create_tracked (config : DemuxConfig) : (create (E := E) config).Tracked none where
  place := by simp [create]
  queued := by simp [create]
  posted := by simp [create]
  pending := by simp [create]
  order := by simp [create]
  isOpen _ := rfl
  drained _ := rfl

omit [DecidableEq E] in
theorem Tracked.accept (h : s.Tracked none) : s.accept.Tracked none := by
  unfold Demux.accept
  cases hbuf : s.channel.buffer with
  | cons b buffer =>
      refine h.handOver nofun _ ?_ ?_ rfl
      · intro b' hb'
        exact hbuf ▸ List.mem_cons_of_mem b hb'
      · intro b' hb'
        rw [hbuf] at hb'
        exact (List.mem_cons.mp hb').symm
  | nil =>
      simp only
      split
      · have hf := frame_accepts s (s.channel.waiting + 1) 0 listenerStopped
        rw [List.replicate_zero, List.append_nil] at hf
        exact h.frame hf
      · exact h.frame (frame_accepts s s.channel.waiting 1 listenerStopped)

omit [DecidableEq E] in
theorem Tracked.stop (h : s.Tracked none) (hbuf : s.accepting = true → s.channel.buffer = []) :
    s.stop.Tracked none := by
  have hf := h.frame (frame_accepts s 0 s.channel.waiting listenerStopped)
  refine { hf with order := hf.order, isOpen := nofun, drained := fun _ => ?_ }
  cases hacc : s.accepting with
  | true => exact hbuf hacc
  | false => exact h.drained hacc

omit [DecidableEq E] in
theorem Tracked.trySend (h : s.Tracked (some b)) (hacc : s.accepting = true)
    (ht : s.trySend b = some t) : t.Tracked none := by
  unfold Demux.trySend at ht
  split at ht
  · cases ht
  · split at ht
    · cases ht
      refine h.handOver ?_ _ (fun _ => id) (fun _ => .inl) rfl
      intro b' hb'
      exact (Option.some.inj hb').symm
    · split at ht
      · cases ht
        exact h.enqueue hacc
      · cases ht

omit [DecidableEq E] in
/-- The channel of an accepting Listener refuses a Connection only where it is full. -/
theorem buffer_ne_nil_of_trySend (h : s.Tracked limbo) (hacc : s.accepting = true)
    (ht : s.trySend b = none) : s.channel.buffer ≠ [] := by
  unfold Demux.trySend at ht
  rw [if_neg (by simp [h.isOpen hacc])] at ht
  split at ht
  · cases ht
  · split at ht
    · cases ht
    · rename_i hfull
      intro hbuf
      rw [hbuf] at hfull
      exact hfull (by decide)

theorem Tracked.connect (h : s.Tracked none) (hi : s.Inv) (hacc : s.accepting = true) (now : Int)
    (address : Addr) (d : Datagram E) : (s.connect now address d).Tracked none := by
  have hadd := h.add d.source address now
  have hnew : (s.add d.source address now).peers[s.peers.length]? = some (.create d.source address) :=
    List.getElem?_concat_length
  have hb : s.peers.length ∉ s.channel.buffer := by
    intro hb
    obtain ⟨p, hp, -⟩ := hi.queued _ hb
    simp at hp
  unfold Demux.connect
  cases hsend : (s.add d.source address now).trySend s.peers.length with
  | some t =>
      simp only [hsend]
      exact (hadd.trySend hacc hsend).frame (frame_update (f := fun p => p.deliver d) (fun _ => rfl) _)
  | none =>
      simp only [hsend]
      refine (hadd.release hnew hb (fun b' hb' => (Option.some.inj hb').symm) fun _ => ?_).frame
        (frame_update (f := Peer.destroy) (fun _ => rfl) _)
      exact .inr (buffer_ne_nil_of_trySend hadd hacc hsend)

theorem Tracked.serve (h : s.Tracked none) (hi : s.Inv) (now : Int) (address : Addr) (d : Datagram E) :
    (s.serve now address d).Tracked none := by
  unfold Demux.serve
  cases hl : s.table.index.lookup d.source with
  | some it =>
      obtain ⟨n, hn, -, hderef⟩ := hi.agrees.deref_lookup hl
      simp only [hderef]
      exact h.frame ((frame_touch s hn now).trans
        (frame_update (f := fun p => p.deliver d) (fun _ => rfl) _))
  | none =>
      simp only
      split
      · rename_i hacc
        have hroom := frame_makeRoom s
        have hi' := (makeRoom_moves (G := fun _ _ _ => True) hi).inv hi
        exact (h.frame hroom).connect hi' (hroom.accepting.trans hacc) now address d
      · exact h

omit [DecidableEq E] in
theorem Tracked.release_owned (h : s.Tracked none) (hp : s.peers[b]? = some p)
    (hbuf : b ∉ s.channel.buffer) : (s.release b).Tracked none := by
  refine h.release hp hbuf nofun fun hrel => .inl ?_
  rcases h.place b p hp nofun with hb | hb | hb
  · exact absurd hb hbuf
  · exact hb
  · rw [hrel] at hb
    cases hb

end Taps.Demux

namespace Taps.UDPDemux

variable {E : Type} [DecidableEq E] {s s' : UDPDemux E} {e : DemuxEvent E}

theorem Steps.tracked (h : Steps s e s') (hi : s.demux.Inv) (ht : s.demux.Tracked none)
    (hord : InOrder e) (hstop : StopsAccepted s e) : s'.demux.Tracked none := by
  cases h with
  | arrive hl ho => rwa [demux_arrive]
  | @resume now address atCap sink outcome hl ha =>
      rcases resume_demux_cases hl now address atCap with ⟨d, -, hserve⟩ | ⟨-, hsame⟩
      · rw [hserve]
        exact ht.serve hi now address d
      · rwa [hsame]
  | expire | cancelled => exact ht
  | sweep hl =>
      rw [demux_shutDownIfUnused]
      exact ht.frame (Demux.frame_sweepIdle ..)
  | accept => exact ht.accept
  | stop =>
      rw [demux_shutDownIfUnused]
      exact ht.stop (hstop rfl)
  | release hh =>
      cases hord
      rw [demux_shutDownIfUnused]
      exact ht.runRelease hi hh
  | receive hp ho => exact ht.frame (Demux.frame_update Demux.claim_receive _)
  | wake hp ho => exact ht.frame (Demux.frame_update (f := Peer.wake) (fun _ => Demux.claim_receive _) _)
  | @close b p aborted hp ho =>
      have hf := Demux.frame_update (s := s.demux) (f := fun p => p.shut aborted) (fun _ => rfl) b
      exact (ht.frame hf).release_owned (Demux.getElem?_update_self hp) (notMem_buffer_of_owned hi hp ho)
  | destroy hp ho =>
      exact (ht.release_owned hp (notMem_buffer_of_owned hi hp ho)).frame
        (Demux.frame_update (f := Peer.destroy) (fun _ => rfl) _)

omit [DecidableEq E] in
/-- A posted handler would be of a Connection that was handed out, or wait for one. -/
theorem posted_eq_nil (ht : s.demux.Tracked none) (hbuf : s.demux.channel.buffer = [])
    (hall : s.demux.AllReleased) : s.demux.posted = [] := by
  refine List.eq_nil_iff_forall_not_mem.mpr fun x hx => ?_
  obtain ⟨i, hi⟩ := List.mem_iff_getElem?.mp hx
  by_cases hh : s.demux.HandedOut x.poster
  · exact (hall _ hh).2 x hx rfl
  · obtain ⟨b, hb | ⟨hb, ⟨p, hp, hrel⟩ | ⟨j, y, -, hy, he⟩⟩⟩ := ht.order i x hi hh
    · rw [hbuf] at hb
      cases hb
    · obtain ⟨⟨q, hq, hqr⟩, -⟩ := hall b hb
      rw [hp] at hq
      cases hq
      rw [hrel] at hqr
      cases hqr
    · exact (hall b hb).2 y (List.mem_of_getElem? hy) he

theorem nodes_eq_nil (hi : s.demux.Inv) (ht : s.demux.Tracked none)
    (hbuf : s.demux.channel.buffer = []) (hall : s.demux.AllReleased) : s.demux.table.nodes = [] := by
  have hposted := posted_eq_nil ht hbuf hall
  refine List.eq_nil_iff_forall_not_mem.mpr fun n hn => ?_
  obtain ⟨p, hp, -⟩ := hi.source n hn
  have hrel : p.conn.released = true := by
    rcases ht.place _ p hp nofun with hb | hb | hb
    · rw [hbuf] at hb
      cases hb
    · obtain ⟨⟨q, hq, hqr⟩, -⟩ := hall _ hb
      rw [hp] at hq
      cases hq
      exact hqr
    · exact hb
  obtain ⟨x, hx, -⟩ := ht.pending _ p hp hrel ⟨n, hn, rfl⟩
  rw [hposted] at hx
  cases hx

end Taps.UDPDemux
