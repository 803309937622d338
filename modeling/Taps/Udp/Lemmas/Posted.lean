import Taps.Udp.Lemmas.ShutDown

/-!
# Posted release handlers

What a step of the strand leaves of the accept channel, the owners of the Connections and the handlers that
are posted, and that a Connection which was closed has a handler posted as long as the table has it.
-/

namespace Taps.Demux

variable {E : Type}

/-- What a release handler has to do with of a peer. -/
def claim (p : Peer E) : E × Addr × Bool := (p.source, p.address, p.conn.released)

/-- What a Connection that is not released has to do with the table and the handlers. `limbo` is the one that
`receive_loop()` is about to put somewhere, if any. -/
structure Pending (limbo : Option Nat) (s : Demux E) : Prop where
  queued : ∀ b, b ∈ s.channel.buffer ∨ limbo = some b →
    ∃ p, s.peers[b]? = some p ∧ p.conn.released = false
  posted : ∀ h ∈ s.posted, ∃ p, s.peers[h.poster]? = some p ∧ p.source = h.source ∧
    p.address = h.mailbox
  pending : ∀ (b : Nat) (p : Peer E), s.peers[b]? = some p → p.conn.released = true → s.InTable b →
    ∃ h ∈ s.posted, h.poster = b

/-- Nothing changes for the owners and the handlers but that entries leave the table. -/
structure Frame (s t : Demux E) : Prop where
  buffer : t.channel.buffer = s.channel.buffer
  posted : t.posted = s.posted
  handed : ∀ b, t.HandedOut b ↔ s.HandedOut b
  peers : ∀ b : Nat, (t.peers[b]?).map claim = (s.peers[b]?).map claim
  table : ∀ b, t.InTable b → s.InTable b
  accepting : t.accepting = s.accepting
  isOpen : t.channel.isOpen = s.channel.isOpen

variable {s t u : Demux E} {b : Nat} {p q : Peer E} {limbo : Option Nat}

theorem Frame.refl (s : Demux E) : Frame s s := ⟨rfl, rfl, fun _ => .rfl, fun _ => rfl, fun _ => id, rfl, rfl⟩

theorem Frame.trans (h : Frame s t) (h' : Frame t u) : Frame s u where
  buffer := h'.buffer.trans h.buffer
  posted := h'.posted.trans h.posted
  handed b := (h'.handed b).trans (h.handed b)
  peers b := (h'.peers b).trans (h.peers b)
  table b := h.table b ∘ h'.table b
  accepting := h'.accepting.trans h.accepting
  isOpen := h'.isOpen.trans h.isOpen

theorem Frame.exists_peer (h : Frame s t) (hq : t.peers[b]? = some q) :
    ∃ p, s.peers[b]? = some p ∧ claim q = claim p := by
  have hp := h.peers b
  rw [hq, Option.map_some] at hp
  obtain ⟨p, hp, he⟩ := Option.map_eq_some_iff.mp hp.symm
  exact ⟨p, hp, he.symm⟩

theorem Frame.exists_peer' (h : Frame s t) (hp : s.peers[b]? = some p) :
    ∃ q, t.peers[b]? = some q ∧ claim q = claim p := by
  have hq := h.peers b
  rw [hp, Option.map_some] at hq
  exact Option.map_eq_some_iff.mp hq

/-! ## What is a frame step -/

theorem claim_update {f : Peer E → Peer E} (hf : ∀ p, claim (f p) = claim p) (b b' : Nat) :
    ((s.update b f).peers[b']?).map claim = (s.peers[b']?).map claim := by
  rw [getElem?_update, Option.map_map]
  congr 1
  funext p
  simp only [Function.comp_apply]
  split
  · exact hf p
  · rfl

theorem claim_receive (p : Peer E) : claim p.receive = claim p := by
  rcases p.receive_cases with ⟨d, m, -, h⟩ | ⟨-, -, h⟩ | ⟨-, -, h⟩ <;> rw [h] <;> rfl

theorem frame_update {f : Peer E → Peer E} (hf : ∀ p, claim (f p) = claim p) (b : Nat) :
    Frame s (s.update b f) where
  buffer := rfl
  posted := rfl
  handed _ := .rfl
  peers := claim_update hf b
  table _ := id
  accepting := rfl
  isOpen := rfl

theorem frame_crash (s : Demux E) : Frame s { s with crashed := true } :=
  ⟨rfl, rfl, fun _ => .rfl, fun _ => rfl, fun _ => id, rfl, rfl⟩

/-- Receives wait in the accept channel, and those that have failed returned no Connection. -/
theorem frame_accepts (s : Demux E) (waiting n : Nat) (e : TAPSError) :
    Frame s { s with
      channel := { s.channel with waiting }
      accepts := s.accepts ++ List.replicate n (.error e) } where
  buffer := rfl
  posted := rfl
  handed b := by simp [HandedOut]
  peers _ := rfl
  table _ := id
  accepting := rfl
  isOpen := rfl

theorem frame_touch (s : Demux E) {n : Lib.Node E Entry} (hn : n ∈ s.table.nodes) (now : Int) :
    Frame s { s with table := s.table.touch n { n.value with lastActive := now } } where
  buffer := rfl
  posted := rfl
  handed _ := .rfl
  peers _ := rfl
  table b := by
    rintro ⟨x, hx, hb⟩
    rcases List.mem_cons.mp hx with rfl | hx
    · exact ⟨n, hn, hb⟩
    · exact ⟨x, List.mem_of_mem_filter hx, hb⟩
  accepting := rfl
  isOpen := rfl

variable [DecidableEq E]

theorem frame_evict (s : Demux E) (it : Nat) (cause : CloseCause) : Frame s (s.evict it cause) := by
  unfold evict
  split
  · exact frame_crash s
  · rename_i n _
    refine (frame_update (f := fun p => p.closeMailbox cause) (fun _ => rfl) n.value.mailbox).trans ?_
    refine ⟨rfl, rfl, fun _ => .rfl, fun _ => rfl, ?_, rfl, rfl⟩
    rintro b ⟨x, hx, hb⟩
    exact ⟨x, (Lib.LinkedMap.mem_erase.mp hx).1, hb⟩

theorem frame_makeRoom (s : Demux E) : Frame s s.makeRoom := by
  rcases s.makeRoom_evicts with h | ⟨it, h⟩
  · rw [h]
    exact .refl s
  · rw [h]
    exact frame_evict s it .displaced

theorem frame_sweepIdle (s : Demux E) (cutoff : Int) (fuel : Nat) : Frame s (s.sweepIdle cutoff fuel) :=
  sweepIdle_preserves (I := Frame s) (fun t n _ h => h.trans (frame_evict t n.id .idle)) (.refl s) cutoff fuel

/-! ## Connections that change hands -/

omit [DecidableEq E] in
theorem Pending.frame (h : s.Pending limbo) (hf : Frame s t) : t.Pending limbo where
  queued b hb := by
    rw [hf.buffer] at hb
    obtain ⟨p, hp, hrel⟩ := h.queued b hb
    obtain ⟨q, hq, he⟩ := hf.exists_peer' hp
    exact ⟨q, hq, (congrArg (·.2.2) he).trans hrel⟩
  posted x hx := by
    rw [hf.posted] at hx
    obtain ⟨p, hp, hsrc, haddr⟩ := h.posted x hx
    obtain ⟨q, hq, he⟩ := hf.exists_peer' hp
    exact ⟨q, hq, (congrArg (·.1) he).trans hsrc, (congrArg (·.2.1) he).trans haddr⟩
  pending b q hq hrel hin := by
    obtain ⟨p, hp, he⟩ := hf.exists_peer hq
    rw [hf.posted]
    exact h.pending b p hp ((congrArg (·.2.2) he).symm.trans hrel) (hf.table b hin)

theorem Pending.add (h : s.Pending none) (source : E) (address : Addr) (now : Int) :
    (s.add source address now).Pending (some s.peers.length) where
  queued b hb := by
    rcases hb with hb | hb
    · obtain ⟨p, hp, hrel⟩ := h.queued b (.inl hb)
      exact ⟨p, getElem?_add_of_some hp, hrel⟩
    · cases hb
      exact ⟨.create source address, List.getElem?_concat_length, rfl⟩
  posted x hx := by
    obtain ⟨p, hp, hsrc⟩ := h.posted x hx
    exact ⟨p, getElem?_add_of_some hp, hsrc⟩
  pending b q hq hrel hin := by
    rcases eq_of_getElem?_add hq with ⟨hne, hq⟩ | ⟨-, rfl⟩
    · apply h.pending b q hq hrel
      obtain ⟨n, hn, hb⟩ := hin
      rcases Lib.LinkedMap.mem_pushFront.mp hn with rfl | hn
      · exact absurd hb.symm hne
      · exact ⟨n, hn, hb⟩
    · cases hrel

omit [DecidableEq E] in
theorem Pending.enqueue (h : s.Pending (some b)) :
    Pending none { s with channel := { s.channel with buffer := s.channel.buffer ++ [b] } } where
  queued b' hb' := by
    rcases hb' with hb' | hb'
    · rcases List.mem_append.mp hb' with hb' | hb'
      · exact h.queued b' (.inl hb')
      · exact h.queued b' (.inr (by rw [List.mem_singleton.mp hb']))
    · cases hb'
  posted := h.posted
  pending := h.pending

omit [DecidableEq E] in
/-- The peers after a Connection was handed over have the same claims. -/
theorem handOver_claims (s : Demux E) (channel : AcceptChannel) (b b' : Nat) :
    (({ s with channel }.handOver b).peers[b']?).map claim = (s.peers[b']?).map claim :=
  claim_update (s := s) (f := Peer.accept) (fun _ => rfl) b b'

omit [DecidableEq E] in
theorem Pending.handOver (h : s.Pending limbo) (channel : AcceptChannel)
    (hbuf : ∀ b' ∈ channel.buffer, b' ∈ s.channel.buffer) :
    Pending none ({ s with channel }.handOver b) where
  queued b' hb' := by
    rcases hb' with hb' | hb'
    · obtain ⟨q, hq, hrel⟩ := h.queued b' (.inl (hbuf b' hb'))
      have hc := handOver_claims s channel b b'
      rw [hq, Option.map_some] at hc
      obtain ⟨q', hq', he⟩ := Option.map_eq_some_iff.mp hc
      exact ⟨q', hq', (congrArg (·.2.2) he).trans hrel⟩
    · cases hb'
  posted x hx := by
    obtain ⟨p, hp, hsrc, haddr⟩ := h.posted x hx
    have hc := handOver_claims s channel b x.poster
    rw [hp, Option.map_some] at hc
    obtain ⟨q, hq, he⟩ := Option.map_eq_some_iff.mp hc
    exact ⟨q, hq, (congrArg (·.1) he).trans hsrc, (congrArg (·.2.1) he).trans haddr⟩
  pending b' q hq hrel hin := by
    have hc := handOver_claims s channel b b'
    rw [hq, Option.map_some] at hc
    obtain ⟨p, hp, he⟩ := Option.map_eq_some_iff.mp hc.symm
    exact h.pending b' p hp ((congrArg (·.2.2) he).trans hrel) hin

omit [DecidableEq E] in
theorem Pending.trySend (h : s.Pending (some b)) (ht : s.trySend b = some t) : t.Pending none := by
  unfold Demux.trySend at ht
  split at ht
  · cases ht
  · split at ht
    · cases ht
      exact h.handOver _ fun _ => id
    · split at ht
      · cases ht
        exact h.enqueue
      · cases ht

omit [DecidableEq E] in
theorem Pending.release (h : s.Pending limbo) (hp : s.peers[b]? = some p) (hbuf : b ∉ s.channel.buffer) :
    (s.release b).Pending none := by
  unfold Demux.release
  rw [hp]
  cases hrel : p.conn.released with
  | true =>
      simp only [hrel, if_true]
      exact { queued := fun b' hb' => h.queued b' (hb'.imp_right nofun), posted := h.posted
              pending := h.pending }
  | false =>
      simp only [hrel, Bool.false_eq_true, if_false]
      have hsource : ∀ (b' : Nat) (q : Peer E), s.peers[b']? = some q →
          ∃ q', (s.update b Peer.setReleased).peers[b']? = some q' ∧ q'.source = q.source ∧
            q'.address = q.address := by
        intro b' q hq
        refine ⟨_, (getElem?_update ..).trans (congrArg _ hq), ?_⟩
        split <;> exact ⟨rfl, rfl⟩
      refine { queued := ?_, posted := ?_, pending := ?_ }
      · intro b' hb'
        have hb' : b' ∈ s.channel.buffer := hb'.resolve_right nofun
        have hne : b ≠ b' := fun he => hbuf (he ▸ hb')
        obtain ⟨q, hq, hqr⟩ := h.queued b' (.inl hb')
        exact ⟨q, (getElem?_update_ne hne).trans hq, hqr⟩
      · intro x hx
        rcases List.mem_append.mp hx with hx | hx
        · obtain ⟨q, hq, hsrc, haddr⟩ := h.posted x hx
          obtain ⟨q', hq', hsrc', haddr'⟩ := hsource x.poster q hq
          exact ⟨q', hq', hsrc'.trans hsrc, haddr'.trans haddr⟩
        · rw [List.mem_singleton.mp hx]
          exact ⟨_, getElem?_update_self hp, rfl, rfl⟩
      · intro b' q hq hqr hin
        by_cases hne : b' = b
        · exact ⟨_, List.mem_append_right _ (List.mem_singleton.mpr rfl), hne.symm⟩
        · obtain ⟨x, hx, he⟩ := h.pending b' q ((getElem?_update_ne (Ne.symm hne)).symm.trans hq) hqr hin
          exact ⟨x, List.mem_append_left _ hx, he⟩

/-! ## The handlers -/

omit [DecidableEq E] in
theorem create_pending (config : DemuxConfig) : (create (E := E) config).Pending none where
  queued := by simp [create]
  posted := by simp [create]
  pending := by simp [create]

omit [DecidableEq E] in
theorem Pending.accept (h : s.Pending none) : s.accept.Pending none := by
  unfold Demux.accept
  cases hbuf : s.channel.buffer with
  | cons b buffer =>
      refine h.handOver _ fun b' hb' => ?_
      exact hbuf ▸ List.mem_cons_of_mem b hb'
  | nil =>
      simp only
      split
      · have hf := frame_accepts s (s.channel.waiting + 1) 0 listenerStopped
        rw [List.replicate_zero, List.append_nil] at hf
        exact h.frame hf
      · exact h.frame (frame_accepts s s.channel.waiting 1 listenerStopped)

omit [DecidableEq E] in
theorem Pending.stop (h : s.Pending none) : s.stop.Pending none :=
  have hf := h.frame (frame_accepts s 0 s.channel.waiting listenerStopped)
  { queued := hf.queued, posted := hf.posted, pending := hf.pending }

theorem Pending.connect (h : s.Pending none) (hi : s.Inv) (now : Int) (address : Addr)
    (d : Datagram E) : (s.connect now address d).Pending none := by
  have hadd := h.add d.source address now
  have hnew : (s.add d.source address now).peers[s.peers.length]? = some (.create d.source address) :=
    List.getElem?_concat_length
  have hb : s.peers.length ∉ s.channel.buffer := by
    intro hb
    obtain ⟨p, hp, -⟩ := hi.queued _ hb
    simp at hp
  unfold Demux.connect
  cases hsend : (s.add d.source address now).trySend s.peers.length with
  | some t =>
      simp only [hsend]
      exact (hadd.trySend hsend).frame (frame_update (f := fun p => p.deliver d) (fun _ => rfl) _)
  | none =>
      simp only [hsend]
      exact (hadd.release hnew hb).frame (frame_update (f := Peer.destroy) (fun _ => rfl) _)

theorem Pending.serve (h : s.Pending none) (hi : s.Inv) (now : Int) (address : Addr)
    (d : Datagram E) : (s.serve now address d).Pending none := by
  unfold Demux.serve
  cases hl : s.table.index.lookup d.source with
  | some it =>
      obtain ⟨n, hn, -, hderef⟩ := hi.agrees.deref_lookup hl
      simp only [hderef]
      exact h.frame ((frame_touch s hn now).trans
        (frame_update (f := fun p => p.deliver d) (fun _ => rfl) _))
  | none =>
      simp only
      split
      · exact (h.frame (frame_makeRoom s)).connect
          ((makeRoom_moves (G := fun _ _ _ => True) hi).inv hi) now address d
      · exact h

theorem frame_runRelease (s : Demux E) (x : Release E) : Frame s (s.runRelease x) := by
  rcases s.runRelease_evicts x with h | ⟨it, h⟩
  · rw [h]
    exact .refl s
  · rw [h]
    exact frame_evict s it .owner

/-- A handler of a Connection removes its entry, where the table still has it. -/
theorem not_inTable_runRelease (hi : s.Inv) {x : Release E} (hp : s.peers[x.poster]? = some p)
    (hsrc : p.source = x.source) (haddr : p.address = x.mailbox) :
    ¬ (s.runRelease x).InTable x.poster := by
  intro hin
  rcases runRelease_cases hi x with he | ⟨n, hn, q, hkey, hq, haddr', he⟩
  · rw [he] at hin
    obtain ⟨n, hn, hm⟩ := hin
    obtain ⟨q, hq, hqs⟩ := hi.source n hn
    rw [hm, hp] at hq
    cases hq
    have hl : s.table.index.lookup x.source = some n.id :=
      (hi.agrees.index _ _).mpr ⟨n, hn, hqs.symm.trans hsrc, rfl⟩
    have hev : s.runRelease x = s.remove n .owner := by
      simp only [runRelease, evict, hl, hi.agrees.deref hn, hm, hp, Option.map_some, haddr, if_true]
    have hout : (s.remove n .owner).InTable x.poster := by
      rw [← hev, he]
      exact ⟨n, hn, hm⟩
    exact ((hi.inTable_remove hn .owner).mp hout).2 hm.symm
  · rw [he, hi.inTable_remove hn] at hin
    obtain ⟨⟨n', hn', hm⟩, hne⟩ := hin
    obtain ⟨q', hq', hqs⟩ := hi.source n' hn'
    rw [hm, hp] at hq'
    cases hq'
    rw [hi.agrees.eq_of_key hn' hn (hqs.symm.trans (hsrc.trans hkey.symm))] at hm
    exact hne hm.symm

theorem Pending.runRelease (h : s.Pending none) (hi : s.Inv) {i : Nat} {x : Release E}
    (hx : s.posted[i]? = some x) : ((s.unpost i).runRelease x).Pending none := by
  have hf := frame_runRelease (s.unpost i) x
  have hposted : ((s.unpost i).runRelease x).posted = s.posted.eraseIdx i := hf.posted
  refine { queued := ?_, posted := ?_, pending := ?_ }
  · intro b hb
    rw [hf.buffer] at hb
    obtain ⟨p, hp, hrel⟩ := h.queued b hb
    obtain ⟨q, hq, he⟩ := hf.exists_peer' hp
    exact ⟨q, hq, (congrArg (·.2.2) he).trans hrel⟩
  · intro y hy
    rw [hposted] at hy
    obtain ⟨p, hp, hsrc, haddr⟩ := h.posted y (List.mem_of_mem_eraseIdx hy)
    obtain ⟨q, hq, he⟩ := hf.exists_peer' hp
    exact ⟨q, hq, (congrArg (·.1) he).trans hsrc, (congrArg (·.2.1) he).trans haddr⟩
  · intro b q hq hrel hin
    obtain ⟨p, hp, he⟩ := hf.exists_peer hq
    obtain ⟨y, hy, rfl⟩ := h.pending b p hp ((congrArg (·.2.2) he).symm.trans hrel) (hf.table b hin)
    obtain ⟨j, hj⟩ := List.mem_iff_getElem?.mp hy
    by_cases hij : j = i
    · subst hij
      cases hx.symm.trans hj
      obtain ⟨p', hp', hsrc, haddr⟩ := h.posted x hy
      have hi' : (s.unpost j).Inv := (Move.unpost (G := fun _ _ _ => True) s j).inv hi
      exact absurd hin (not_inTable_runRelease hi' hp' hsrc haddr)
    · rw [hposted]
      exact ⟨y, List.mem_eraseIdx_iff_getElem?.mpr ⟨j, hij, hj⟩, rfl⟩

end Taps.Demux

namespace Taps.UDPDemux

variable {E : Type} [DecidableEq E] {s s' : UDPDemux E} {e : DemuxEvent E}

theorem Steps.pending (h : Steps s e s') (hi : s.demux.Inv) (hp : s.demux.Pending none) :
    s'.demux.Pending none := by
  cases h with
  | arrive hl ho => rwa [demux_arrive]
  | @resume now address atCap sink outcome hl ha =>
      rcases resume_demux_cases hl now address atCap with ⟨d, -, hserve⟩ | ⟨-, hsame⟩
      · rw [hserve]
        exact hp.serve hi now address d
      · rwa [hsame]
  | expire | cancelled => exact hp
  | sweep hl =>
      rw [demux_shutDownIfUnused]
      exact hp.frame (Demux.frame_sweepIdle ..)
  | accept => exact hp.accept
  | stop =>
      rw [demux_shutDownIfUnused]
      exact hp.stop
  | release hh =>
      rw [demux_shutDownIfUnused]
      exact hp.runRelease hi hh
  | receive hb ho => exact hp.frame (Demux.frame_update Demux.claim_receive _)
  | wake hb ho => exact hp.frame (Demux.frame_update (f := Peer.wake) (fun _ => Demux.claim_receive _) _)
  | @close b p aborted hb ho =>
      have hf := Demux.frame_update (s := s.demux) (f := fun p => p.shut aborted) (fun _ => rfl) b
      exact (hp.frame hf).release (Demux.getElem?_update_self hb) (notMem_buffer_of_owned hi hb ho)
  | destroy hb ho =>
      exact (hp.release hb (notMem_buffer_of_owned hi hb ho)).frame
        (Demux.frame_update (f := Peer.destroy) (fun _ => rfl) _)

end Taps.UDPDemux
