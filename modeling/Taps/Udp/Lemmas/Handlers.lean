import Taps.Udp.Lemmas.Demux

/-!
# The handlers as moves
-/

namespace Taps.Demux

variable {E : Type}

@[simp] theorem channel_release (s : Demux E) (b : Nat) : (s.release b).channel = s.channel := by
  unfold release
  split
  · rfl
  · split <;> rfl

variable [DecidableEq E] {G : List (Release E) → E → Addr → Prop} {s t : Demux E}
  {b : Nat} {p : Peer E} {d : Datagram E} {address : Addr} {now : Int}

/-! ## Connections -/

theorem release_moves (hp : s.peers[b]? = some p) (hplace : p.place ≠ .destroyed) :
    Moves G s (s.release b) := by
  unfold release
  rw [hp]
  cases hrel : p.conn.released with
  | true =>
      simp only [hrel, if_true]
      exact .refl
  | false =>
      simp only [hrel, Bool.false_eq_true, if_false]
      exact .single (.post s hp hplace)

theorem close_moves (hp : s.peers[b]? = some p) (hplace : p.place ≠ .destroyed) (aborted : Bool) :
    Moves G s (s.close b aborted) := by
  have hact : Move G s (s.update b fun p => p.shut aborted) :=
    .act s _ hp (Peer.acts_own p _ id) fun _ => rfl
  exact .head hact (release_moves (getElem?_update_self hp) hplace)

theorem destroy_moves (hp : s.peers[b]? = some p) (hplace : p.place ≠ .destroyed)
    (hb : b ∉ s.channel.buffer) : Moves G s (s.destroy b) := by
  have hrel := release_moves (G := G) hp hplace
  obtain ⟨q, hq, -⟩ := hrel.exists_later hp
  refine hrel.tail (.act _ _ hq (Peer.acts_own q _ fun _ => rfl) fun hb' => ?_)
  rw [channel_release] at hb'
  exact absurd hb' hb

theorem handOver_moves (hp : s.peers[b]? = some p) (hplace : p.place ≠ .destroyed)
    (hb : b ∉ s.channel.buffer) : Moves G s (s.handOver b) := by
  have hact : Move G s (s.update b Peer.accept) :=
    .act s _ hp (Peer.acts_own p _ fun h => absurd h hplace) fun hb' => absurd hb' hb
  exact .tail (.single hact) (.channel (s.update b Peer.accept) s.accepting s.channel _ id (.refl _))

theorem accept_moves (hi : s.Inv) : Moves G s s.accept := by
  unfold accept
  cases hbuf : s.channel.buffer with
  | cons b buffer =>
      have hsub : buffer.Sublist s.channel.buffer := hbuf ▸ List.sublist_cons_self ..
      obtain ⟨p, hp, hch⟩ := hi.queued b (hbuf ▸ List.mem_cons_self)
      have hnodup := hi.queue
      rw [hbuf] at hnodup
      exact .head (.channel s s.accepting { s.channel with buffer } s.accepts id hsub)
        (handOver_moves hp (by simp [hch]) (List.nodup_cons.mp hnodup).1)
  | nil =>
      simp only
      split
      · exact .single (.channel s s.accepting { s.channel with waiting := _ } s.accepts id (.refl _))
      · exact .single (.channel s s.accepting s.channel _ id (.refl _))

theorem stop_moves : Moves G s s.stop :=
  .single (.channel s false { s.channel with isOpen := false, waiting := 0 } _ nofun (.refl _))

theorem update_moves (hp : s.peers[b]? = some p) {f : Peer E → Peer E} (hf : p.Acts (f p))
    (hplace : (f p).place = p.place) : Moves G s (s.update b f) :=
  .single (.act s f hp hf fun _ => hplace)

/-! ## Evictions -/

theorem Inv.evict_eq (h : s.Inv) {n : Lib.Node E Entry} (hn : n ∈ s.table.nodes) (cause : CloseCause) :
    s.evict n.id cause = s.remove n cause := by
  rw [evict, h.agrees.deref hn]

theorem makeRoom_evicts (s : Demux E) : s.makeRoom = s ∨ ∃ it, s.makeRoom = s.evict it .displaced := by
  unfold makeRoom
  split
  · split
    · exact .inl rfl
    · exact .inr ⟨_, rfl⟩
  · exact .inl rfl

theorem runRelease_evicts (s : Demux E) (h : Release E) :
    s.runRelease h = s ∨ ∃ it, s.runRelease h = s.evict it .owner := by
  unfold runRelease
  split
  · exact .inl rfl
  · split
    · rename_i hderef
      exact .inr ⟨_, by rw [evict, hderef]⟩
    · split
      · exact .inr ⟨_, rfl⟩
      · exact .inl rfl

/-- The loop of a sweep keeps what the eviction of an entry keeps. -/
theorem sweepIdle_preserves {I : Demux E → Prop}
    (hI : ∀ t n, n ∈ t.table.nodes → I t → I (t.evict n.id .idle)) (hs : I s) (cutoff : Int) (fuel : Nat) :
    I (s.sweepIdle cutoff fuel) := by
  induction fuel generalizing s with
  | zero => exact hs
  | succ fuel ih =>
      unfold sweepIdle
      cases hlast : s.table.nodes.getLast? with
      | none => exact hs
      | some n =>
          simp only
          split
          · exact ih (hI s n (List.mem_of_getLast? hlast) hs)
          · exact hs

/-! ## Datagrams -/

theorem makeRoom_full (hi : s.Inv) (hfull : s.config.maxConnections ≤ s.table.index.keys.length) :
    ∃ n others, s.table.nodes = others ++ [n] ∧ s.makeRoom = s.remove n .displaced := by
  rcases List.eq_nil_or_concat' s.table.nodes with hnil | ⟨others, n, hnodes⟩
  · have hpos := s.config.maxConnections_pos
    rw [hi.agrees.length_keys, hnil, List.length_nil] at hfull
    omega
  · have hn : n ∈ s.table.nodes := by simp [hnodes]
    refine ⟨n, others, hnodes, ?_⟩
    rw [makeRoom, if_pos hfull]
    simp [hnodes, hi.evict_eq hn]

theorem makeRoom_cases (hi : s.Inv) :
    (s.makeRoom = s ∧ s.table.nodes.length < s.config.maxConnections) ∨
      ∃ n ∈ s.table.nodes, s.makeRoom = s.remove n .displaced := by
  rcases Nat.lt_or_ge s.table.index.keys.length s.config.maxConnections with hfit | hfull
  · exact .inl ⟨if_neg (Nat.not_le.mpr hfit), hi.agrees.length_keys ▸ hfit⟩
  · obtain ⟨n, others, hnodes, hroom⟩ := makeRoom_full hi hfull
    exact .inr ⟨n, by simp [hnodes], hroom⟩

theorem channel_evict (s : Demux E) (it : Nat) (cause : CloseCause) :
    (s.evict it cause).channel = s.channel := by
  unfold evict
  split <;> rfl

theorem channel_makeRoom (s : Demux E) : s.makeRoom.channel = s.channel := by
  rcases s.makeRoom_evicts with h | ⟨it, h⟩
  · rw [h]
  · rw [h]
    exact channel_evict s it .displaced

theorem makeRoom_moves (hi : s.Inv) : Moves G s s.makeRoom := by
  rcases makeRoom_cases hi with ⟨h, -⟩ | ⟨n, hn, h⟩
  · rw [h]
  · rw [h]
    exact .single (.remove s _ hn)

/-- A table with room, where the source still has no entry, takes one. -/
theorem makeRoom_add (hi : s.Inv) (hacc : s.accepting = true)
    (hl : s.table.index.lookup d.source = none) (hlive : address ∉ s.makeRoom.live)
    (hG : G s.posted d.source address) (now : Int) :
    Move G s.makeRoom (s.makeRoom.add d.source address now) := by
  rcases makeRoom_cases hi with ⟨h, hlen⟩ | ⟨n, hn, h⟩
  · rw [h] at hlive ⊢
    exact .add s now hacc hl hlen hlive hG
  · rw [h] at hlive ⊢
    exact .add _ now hacc (Lib.LinkedMap.lookup_erase_of_none hl)
      (Nat.lt_of_lt_of_le (Lib.LinkedMap.length_erase_lt hn) hi.bound) hlive hG

theorem trySend_moves (hp : s.peers[b]? = some p) (hplace : p.place = .channel)
    (hb : b ∉ s.channel.buffer) (h : s.trySend b = some t) : Moves G s t := by
  unfold trySend at h
  split at h
  · cases h
  · split at h
    · cases h
      exact .head
        (.channel s s.accepting { s.channel with waiting := s.channel.waiting - 1 } s.accepts id
          (.refl _))
        (handOver_moves hp (by simp [hplace]) hb)
    · split at h
      · cases h
        exact .single (.enqueue s hp hplace hb)
      · cases h

theorem Serves.head {u : Demux E} (h : Moves G s t) (hu : Serves G d t u) : Serves G d s u := by
  cases hu with
  | dropped h' => exact .dropped (h.trans h')
  | delivered h' hp hs => exact .delivered (h.trans h') hp hs

theorem connect_serves (hi : s.Inv) (hadd : Move G s (s.add d.source address now)) :
    Serves G d s (s.connect now address d) := by
  have hnew : (s.add d.source address now).peers[s.peers.length]? = some (.create d.source address) :=
    List.getElem?_concat_length
  have hb : s.peers.length ∉ s.channel.buffer := by
    intro hb
    obtain ⟨p, hp, -⟩ := hi.queued _ hb
    simp at hp
  unfold connect
  cases hsend : (s.add d.source address now).trySend s.peers.length with
  | some t =>
      have hmoves := trySend_moves (G := G) hnew rfl hb hsend
      obtain ⟨q, hq, hl⟩ := hmoves.exists_later hnew
      simp only [hsend]
      exact .delivered (.head hadd hmoves) hq hl.source.symm
  | none =>
      simp only [hsend]
      exact .dropped (.head hadd (destroy_moves hnew nofun hb))

theorem serve_serves (hi : s.Inv) (hlive : address ∉ s.makeRoom.live)
    (hG : s.accepting = true → s.table.index.lookup d.source = none → G s.posted d.source address) :
    Serves G d s (s.serve now address d) := by
  unfold serve
  cases hl : s.table.index.lookup d.source with
  | some it =>
      obtain ⟨n, hn, hkey, hderef⟩ := hi.agrees.deref_lookup hl
      obtain ⟨p, hp, hs⟩ := hi.source n hn
      simp only [hderef]
      exact .delivered (.single (.touch s now hn)) hp (hkey.symm.trans hs.symm)
  | none =>
      simp only
      split
      · rename_i hacc
        have hroom := makeRoom_moves (G := G) hi
        have hadd := makeRoom_add (G := G) hi hacc hl hlive (hG hacc hl) now
        exact Serves.head hroom (connect_serves (hroom.inv hi) hadd)
      · exact .dropped .refl

/-! ## Sweeps and releases -/

theorem sweepIdle_moves (hi : s.Inv) (cutoff : Int) (fuel : Nat) :
    Moves G s (s.sweepIdle cutoff fuel) := by
  have hkeeps : ∀ t n, n ∈ t.table.nodes → t.Inv ∧ Moves G s t →
      (t.evict n.id .idle).Inv ∧ Moves G s (t.evict n.id .idle) := by
    rintro t n hn ⟨hi, hm⟩
    rw [hi.evict_eq hn]
    exact ⟨hi.remove hn .idle, hm.tail (.remove t .idle hn)⟩
  exact (sweepIdle_preserves hkeeps ⟨hi, .refl⟩ cutoff fuel).2

/-- A release handler does nothing, or it evicts the entry of its source whose Mailbox is at the address
it has captured. -/
theorem runRelease_cases (hi : s.Inv) (h : Release E) :
    s.runRelease h = s ∨ ∃ n ∈ s.table.nodes, ∃ p, n.key = h.source ∧
      s.peers[n.value.mailbox]? = some p ∧ p.address = h.mailbox ∧ s.runRelease h = s.remove n .owner := by
  unfold runRelease
  cases hl : s.table.index.lookup h.source with
  | none => exact .inl rfl
  | some it =>
      obtain ⟨n, hn, hkey, hderef⟩ := hi.agrees.deref_lookup hl
      obtain ⟨p, hp, -⟩ := hi.source n hn
      simp only [hderef, hp, Option.map_some, Option.some.injEq, evict]
      split
      · rename_i haddr
        exact .inr ⟨n, hn, p, hkey, hp, haddr, rfl⟩
      · exact .inl rfl

theorem runRelease_moves (hi : s.Inv) (h : Release E) : Moves G s (s.runRelease h) := by
  rcases runRelease_cases hi h with he | ⟨n, hn, p, -, -, -, he⟩
  · rw [he]
  · rw [he]
    exact .single (.remove s .owner hn)

theorem release_handler_moves (hi : s.Inv) (i : Nat) (h : Release E) :
    Moves G s ((s.unpost i).runRelease h) :=
  .head (.unpost s i) (runRelease_moves ((Move.unpost (G := G) s i).inv hi) h)

end Taps.Demux
