import Taps.Udp.Lemmas.Loops

/-!
# The entry that a release handler takes for its own

A handler knows its entry by the source and by the address of the Mailbox. As long as no Mailbox is put
where a posted handler would take it for its own, these two belong to no entry but that of the handler's
poster.
-/

namespace Taps.Demux

variable {E : Type}

/-- No two Mailboxes that are shared are at one address, and the entry that a posted handler would evict
is its poster's. -/
structure Identified (s : Demux E) : Prop where
  address : ∀ (b b' : Nat) (p p' : Peer E), s.Alive b p → s.Alive b' p' → p.address = p'.address → b = b'
  poster : ∀ h ∈ s.posted, ∀ n ∈ s.table.nodes, ∀ p : Peer E, n.key = h.source →
    s.peers[n.value.mailbox]? = some p → p.address = h.mailbox → n.value.mailbox = h.poster

variable {s t : Demux E} {b : Nat} {p : Peer E} {d : Datagram E}

theorem create_identified (config : DemuxConfig) : (create (E := E) config).Identified where
  address := by simp [Alive, create]
  poster := by simp [create]

theorem Identified.of_old (h : s.Identified)
    (hnodes : ∀ n ∈ t.table.nodes, ∃ n' ∈ s.table.nodes,
      n'.key = n.key ∧ n'.value.mailbox = n.value.mailbox)
    (hpeers : ∀ (b : Nat) (q : Peer E), t.peers[b]? = some q → ∃ p : Peer E,
      s.peers[b]? = some p ∧ q.address = p.address ∧ (p.place = .destroyed → q.place = .destroyed))
    (hposted : ∀ x ∈ t.posted, x ∈ s.posted) : t.Identified := by
  have halive : ∀ (b : Nat) (q : Peer E), t.Alive b q → ∃ p, s.Alive b p ∧ q.address = p.address := by
    rintro b q ⟨hq, ha⟩
    obtain ⟨p, hp, haddr, hdead⟩ := hpeers b q hq
    refine ⟨p, ⟨hp, ?_⟩, haddr⟩
    rcases ha with ha | ⟨n, hn, hb⟩
    · exact .inl fun hd => ha (hdead hd)
    · obtain ⟨n', hn', -, hm⟩ := hnodes n hn
      exact .inr ⟨n', hn', hm.trans hb⟩
  refine { address := ?_, poster := ?_ }
  · intro b b' q q' hq hq' haddr
    obtain ⟨p, hp, hpa⟩ := halive b q hq
    obtain ⟨p', hp', hpa'⟩ := halive b' q' hq'
    exact h.address b b' p p' hp hp' (by rw [← hpa, ← hpa', haddr])
  · intro x hx n hn q hkey hq haddr
    obtain ⟨n', hn', hkey', hm⟩ := hnodes n hn
    obtain ⟨p, hp, hpa, -⟩ := hpeers _ q hq
    rw [← hm] at hp ⊢
    exact h.poster x (hposted x hx) n' hn' p (hkey'.trans hkey) hp (hpa.symm.trans haddr)

/-- An update of a peer that neither moves its Mailbox nor brings a destroyed Connection back. -/
theorem Identified.update (h : s.Identified) (hp : s.peers[b]? = some p) {f : Peer E → Peer E}
    (hf : p.Later (f p)) : (s.update b f).Identified :=
  h.of_old (fun n hn => ⟨n, hn, rfl, rfl⟩)
    (fun b' q hq => by
      obtain ⟨p', hp', hl⟩ := later_update hp hf hq
      exact ⟨p', hp', hl.address, hl.destroyed⟩)
    fun x hx => hx

/-- A Connection that is not destroyed posts the handler for its own entry. -/
theorem Identified.post (h : s.Identified) (hp : s.peers[b]? = some p) (hplace : p.place ≠ .destroyed) :
    Identified { s.update b Peer.setReleased with
      posted := s.posted ++ [{ source := p.source, mailbox := p.address, poster := b }] } := by
  have hupd := h.update (f := Peer.setReleased) hp (Peer.acts_own _ _ id).toLater
  refine { address := hupd.address, poster := ?_ }
  intro x hx n hn q hkey hq haddr
  rcases List.mem_append.mp hx with hx | hx
  · exact hupd.poster x hx n hn q hkey hq haddr
  · rw [List.mem_singleton.mp hx] at haddr ⊢
    obtain ⟨p', hp', hl⟩ := later_update hp (Peer.acts_own p _ id).toLater hq
    exact h.address _ b p' p ⟨hp', .inr ⟨n, hn, rfl⟩⟩ ⟨hp, .inl hplace⟩ (hl.address.symm.trans haddr)

variable [DecidableEq E]

namespace Identified

theorem add (h : s.Identified) (hi : s.Inv) {source : E} {address : Addr} (now : Int)
    (hlive : address ∉ s.live) (hG : NotCaptured s.posted source address) :
    (s.add source address now).Identified := by
  have hold : ∀ (b : Nat) (q : Peer E), (s.add source address now).Alive b q →
      (b = s.peers.length ∧ q.address = address) ∨ (b ≠ s.peers.length ∧ s.Alive b q) := by
    rintro b q ⟨hq, ha⟩
    rcases eq_of_getElem?_add hq with ⟨hne, hq⟩ | ⟨rfl, rfl⟩
    · refine .inr ⟨hne, hq, ha.imp id ?_⟩
      rintro ⟨n, hn, hb⟩
      rcases Lib.LinkedMap.mem_pushFront.mp hn with rfl | hn
      · exact absurd hb.symm hne
      · exact ⟨n, hn, hb⟩
    · exact .inl ⟨rfl, rfl⟩
  refine { address := ?_, poster := ?_ }
  · intro b b' q q' hq hq' haddr
    rcases hold b q hq with ⟨rfl, hqa⟩ | ⟨hne, hq⟩
    · rcases hold b' q' hq' with ⟨rfl, -⟩ | ⟨-, hq'⟩
      · rfl
      · exact absurd hq'.mem_live (by rwa [← haddr, hqa])
    · rcases hold b' q' hq' with ⟨rfl, hqa'⟩ | ⟨-, hq'⟩
      · exact absurd hq.mem_live (by rwa [haddr, hqa'])
      · exact h.address b b' q q' hq hq' haddr
  · intro x hx n hn q hkey hq haddr
    rcases Lib.LinkedMap.mem_pushFront.mp hn with rfl | hn
    · rcases eq_of_getElem?_add hq with ⟨hne, -⟩ | ⟨-, rfl⟩
      · exact absurd rfl hne
      · exact absurd haddr.symm (hG x hx hkey.symm)
    · obtain ⟨p, hp, -⟩ := hi.source n hn
      rw [getElem?_add_of_some hp] at hq
      cases hq
      exact h.poster x hx n hn _ hkey hp haddr

end Identified

theorem Move.identified (hm : Move NotCaptured s t) (hi : s.Inv) (h : s.Identified) :
    t.Identified := by
  cases hm with
  | channel | enqueue =>
      exact h.of_old (fun n hn => ⟨n, hn, rfl, rfl⟩) (fun b q hq => ⟨q, hq, rfl, id⟩) fun x hx => hx
  | act f hp hf _ => exact h.update hp hf.toLater
  | touch now hn =>
      refine h.of_old (fun n' hn' => ?_) (fun b q hq => ⟨q, hq, rfl, id⟩) fun x hx => hx
      rcases (hi.agrees.mem_touch hn).mp hn' with rfl | ⟨hn', -⟩
      · exact ⟨_, hn, rfl, rfl⟩
      · exact ⟨n', hn', rfl, rfl⟩
  | remove cause hn =>
      refine h.of_old (fun n' hn' => ⟨n', (Lib.LinkedMap.mem_erase.mp hn').1, rfl, rfl⟩) ?_ fun x hx => hx
      intro b q hq
      obtain ⟨p, hp, ⟨-, rfl⟩ | ⟨-, rfl⟩⟩ := eq_of_getElem?_update hq
      · exact ⟨p, hp, rfl, id⟩
      · exact ⟨q, hp, rfl, id⟩
  | add now hacc hl hlen hlive hG => exact h.add hi now hlive hG
  | post hp hplace => exact h.post hp hplace
  | unpost i =>
      exact h.of_old (fun n hn => ⟨n, hn, rfl, rfl⟩) (fun b q hq => ⟨q, hq, rfl, id⟩)
        fun x hx => List.mem_of_mem_eraseIdx hx

theorem Moves.identified (hm : Moves NotCaptured s t) (hi : s.Inv) (h : s.Identified) :
    t.Identified := by
  induction hm with
  | refl => exact h
  | tail hms hm ih => exact hm.identified (Moves.inv hms hi) ih

theorem Serves.identified (hs : Serves NotCaptured d s t) (hi : s.Inv) (h : s.Identified) :
    t.Identified := by
  cases hs with
  | dropped hm => exact hm.identified hi h
  | delivered hm hp _ =>
      have ht := hm.identified hi h
      refine ht.of_old (fun n hn => ⟨n, hn, rfl, rfl⟩) ?_ fun x hx => hx
      intro b q hq
      obtain ⟨p, hp, ⟨-, rfl⟩ | ⟨-, rfl⟩⟩ := eq_of_getElem?_update hq
      · exact ⟨p, hp, rfl, id⟩
      · exact ⟨q, hp, rfl, id⟩

/-- What a posted handler does to the entries and Connections of others: nothing. -/
theorem runRelease_others (hi : s.Inv) (h : s.Identified) {i : Nat} {x : Release E}
    (hx : s.posted[i]? = some x) (hb : b ≠ x.poster) :
    ((s.unpost i).runRelease x).peers[b]? = s.peers[b]? ∧
      (s.InTable b → ((s.unpost i).runRelease x).InTable b) := by
  have hi' : (s.unpost i).Inv := (Move.unpost (G := NotCaptured) s i).inv hi
  rcases runRelease_cases hi' x with he | ⟨n, hn, p, hkey, hp, haddr, he⟩
  · rw [he]
    exact ⟨rfl, id⟩
  · have hposter := h.poster x (List.mem_of_getElem? hx) n hn p hkey hp haddr
    have hne : n.value.mailbox ≠ b := fun hb' => hb (hb'.symm.trans hposter)
    rw [he]
    exact ⟨getElem?_update_ne (s := s.unpost i) hne,
      fun hin => (hi'.inTable_remove hn .owner).mpr ⟨hin, hne.symm⟩⟩

end Taps.Demux

namespace Taps.UDPDemux

variable {E : Type} [DecidableEq E] {s s' : UDPDemux E} {e : DemuxEvent E}

theorem Steps.identified (h : Steps s e s') (hG : Permits Demux.NotCaptured s e) (hi : s.Inv)
    (hid : s.demux.Identified) : s'.demux.Identified := by
  rcases h.serves hi.demux hG with hm | ⟨d, -, -, hs⟩
  · exact hm.identified hi.demux hid
  · exact hs.identified hi.demux hid

theorem releasesOwn_of_identified (hi : s.Inv) (hid : s.demux.Identified) : s.ReleasesOwn := by
  intro i x s' hx hst b hb
  have hothers := Demux.runRelease_others hi.demux hid hx hb
  cases step_steps hst with
  | release hh =>
      rw [hx] at hh
      cases hh
      rw [demux_shutDownIfUnused]
      exact hothers

end Taps.UDPDemux
