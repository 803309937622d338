import Mathlib.Data.Fintype.EquivFin
import Taps.Udp.Lemmas.Silent

/-!
# A source that the accept channel does not take

What creating its Connection, dropping it and running the release handler that it posts leave of the table.
-/

namespace Taps.Demux

variable {E : Type} [DecidableEq E] {s : Demux E} {source : E} {address : Addr} {now : Int}

/-- The release handler that `~PassiveUDPConnection` posts for the new Connection. -/
def dropped (s : Demux E) (source : E) (address : Addr) : Release E := ⟨source, address, s.peers.length⟩

theorem getElem?_add_length (s : Demux E) (source : E) (address : Addr) (now : Int) :
    (s.add source address now).peers[s.peers.length]? = some (.create source address) :=
  List.getElem?_concat_length

theorem destroy_add (s : Demux E) (source : E) (address : Addr) (now : Int) :
    ((s.add source address now).destroy s.peers.length).posted = s.posted ++ [s.dropped source address] ∧
      ((s.add source address now).destroy s.peers.length).table = (s.add source address now).table ∧
      ((s.add source address now).destroy s.peers.length).accepting = s.accepting := by
  simp [destroy, release, Peer.create, PassiveUDPConnection.create, update, dropped, add]

theorem getElem?_destroy_add (s : Demux E) (source : E) (address : Addr) (now : Int) :
    (∃ p, ((s.add source address now).destroy s.peers.length).peers[s.peers.length]? = some p ∧
        p.address = address) ∧
      ∀ b, b < s.peers.length →
        ((s.add source address now).destroy s.peers.length).peers[b]? = s.peers[b]? := by
  have hnew := s.getElem?_add_length source address now
  refine ⟨⟨_, getElem?_update_self ((getElem?_release hnew _).trans (getElem?_update_self hnew)), rfl⟩,
    fun b hb => ?_⟩
  rw [destroy, getElem?_update_ne (Nat.ne_of_gt hb), getElem?_release hnew,
    getElem?_update_ne (Nat.ne_of_gt hb)]
  exact List.getElem?_append_left hb

/-- Without an eviction before it, the release handler restores the table. -/
theorem sameTable_release (hi : s.Inv) (address : Addr) (now : Int) (hl : s.table.index.lookup source = none) :
    s.SameTable ((((s.add source address now).destroy s.peers.length).unpost s.posted.length).runRelease
      (s.dropped source address)) := by
  obtain ⟨-, htable, -⟩ := s.destroy_add source address now
  obtain ⟨⟨p, hp, haddr⟩, hold⟩ := s.getElem?_destroy_add source address now
  generalize hu : ((s.add source address now).destroy s.peers.length).unpost s.posted.length = u
  have hpeers : u.peers = ((s.add source address now).destroy s.peers.length).peers := hu ▸ rfl
  have hpush : u.table = s.table.pushFront source { mailbox := s.peers.length, lastActive := now } :=
    hu ▸ htable
  have hagrees := hi.agrees.pushFront hl { mailbox := s.peers.length, lastActive := now }
  obtain ⟨hnodes, hindex⟩ := hi.agrees.erase_pushFront hl { mailbox := s.peers.length, lastActive := now }
  have hnode := hagrees.deref (Lib.LinkedMap.mem_pushFront.mpr (.inl rfl))
  have hlookup := (hagrees.index source s.table.nextId).mpr
    ⟨_, Lib.LinkedMap.mem_pushFront.mpr (.inl rfl), rfl, rfl⟩
  have hrun : u.runRelease (s.dropped source address)
      = u.remove ⟨s.table.nextId, source, { mailbox := s.peers.length, lastActive := now }⟩ .owner := by
    simp only [runRelease, evict, hpush, dropped, hlookup, hnode, hpeers, hp, Option.map_some, haddr, if_true]
  rw [hrun]
  refine ⟨by simp only [remove, hpush, hnodes], fun k => by simp only [remove, hpush, hindex], ?_⟩
  intro b q hq
  have hb := (List.getElem?_eq_some_iff.mp hq).1
  refine ⟨q, ?_, rfl⟩
  rw [show (u.remove _ _).peers = (u.update s.peers.length fun p => p.closeMailbox .owner).peers from rfl,
    getElem?_update_ne (Nat.ne_of_gt hb), hpeers, hold b hb, hq]

/-- What an eviction has closed is not restored. -/
theorem SameTable.of_makeRoom {t : Demux E} (hi : s.Inv) (h : s.makeRoom.SameTable t) :
    s.SameTable t ↔ s.table.index.keys.length < s.config.maxConnections := by
  rw [hi.agrees.length_keys]
  rcases makeRoom_cases hi with ⟨he, hlt⟩ | ⟨n, hn, he⟩
  · rw [he] at h
    exact iff_of_true h hlt
  · refine iff_of_false (fun hs => ?_) fun hlt => ?_
    · have hmem : n ∈ s.makeRoom.table.nodes := by
        rw [← h.nodes, hs.nodes]
        exact hn
      rw [he] at hmem
      exact ((hi.agrees.mem_erase hn).mp hmem).2 rfl
    · have hroom : s.makeRoom = s := by
        rw [makeRoom, hi.agrees.length_keys, if_neg (Nat.not_le_of_lt hlt)]
      have hlen := Lib.LinkedMap.length_erase_lt hn
      rw [hroom] at he
      have hnodes : s.table.nodes = (s.table.erase n).nodes := congrArg (fun s => s.table.nodes) he
      rw [← hnodes] at hlen
      exact Nat.lt_irrefl _ hlen

theorem makeRoom_keeps (hi : s.Inv) :
    s.makeRoom.posted = s.posted ∧ s.makeRoom.accepting = s.accepting ∧
      s.makeRoom.peers.length = s.peers.length ∧
      ∀ source, s.table.index.lookup source = none → s.makeRoom.table.index.lookup source = none := by
  rcases makeRoom_cases hi with ⟨he, -⟩ | ⟨n, -, he⟩
  · rw [he]
    exact ⟨rfl, rfl, rfl, fun _ => id⟩
  · rw [he]
    exact ⟨rfl, rfl, List.length_modify .., fun _ => Lib.LinkedMap.lookup_erase_of_none⟩

/-- A datagram of a new source that the channel does not take posts the release handler of the source. When
it runs, the table is restored if and only if it was not full. -/
theorem refused_sameTable (hi : s.Inv) {d : Datagram E} (hacc : s.accepting = true)
    (hnew : s.table.index.lookup d.source = none) (hrefuse : s.Refuses d.source address now) :
    (s.serve now address d).posted = s.posted ++ [s.dropped d.source address] ∧
      (s.serve now address d).accepting = true ∧
      (s.SameTable (((s.serve now address d).unpost s.posted.length).runRelease
          (s.dropped d.source address)) ↔
        s.table.index.keys.length < s.config.maxConnections) := by
  obtain ⟨hposted, haccepting, hlen, hlookup⟩ := makeRoom_keeps hi
  have hserve : s.serve now address d
      = (s.makeRoom.add d.source address now).destroy s.makeRoom.peers.length := by
    have hsend : (s.makeRoom.add d.source address now).trySend s.makeRoom.peers.length = none := hrefuse
    simp only [serve, hnew, hacc, if_true, connect, hsend]
  obtain ⟨hposted', -, haccepting'⟩ := s.makeRoom.destroy_add d.source address now
  have hroom : s.makeRoom.Inv := (makeRoom_moves (G := NotCaptured) hi).inv hi
  have hsame := sameTable_release hroom address now (hlookup _ hnew)
  have hdropped : s.makeRoom.dropped d.source address = s.dropped d.source address := by
    rw [dropped, dropped, hlen]
  rw [hposted, hdropped] at hsame
  rw [hserve]
  exact ⟨by rw [hposted', hposted, hdropped], by rw [haccepting', haccepting, hacc], hsame.of_makeRoom hi⟩

/-! ## A channel that fills up -/

theorem length_makeRoom_le (hi : s.Inv) : s.makeRoom.table.nodes.length ≤ s.table.nodes.length := by
  rcases makeRoom_cases hi with ⟨he, -⟩ | ⟨n, hn, he⟩
  · rw [he]
  · rw [he]
    exact Nat.le_of_lt (Lib.LinkedMap.length_erase_lt hn)

theorem serve_queued (now : Int) (address : Addr) {d : Datagram E} (hacc : s.accepting = true)
    (hnew : s.table.index.lookup d.source = none) (hopen : s.channel.isOpen = true)
    (hwaiting : s.channel.waiting = 0) (hroom : s.channel.buffer.length < channelCapacity) :
    (s.serve now address d).accepting = s.makeRoom.accepting ∧
      (s.serve now address d).channel
        = { s.channel with buffer := s.channel.buffer ++ [s.makeRoom.peers.length] } ∧
      (s.serve now address d).table = s.makeRoom.table.pushFront d.source
        { mailbox := s.makeRoom.peers.length, lastActive := now } := by
  have hchannel : (s.makeRoom.add d.source address now).channel = s.channel := channel_makeRoom s
  have hsend : (s.makeRoom.add d.source address now).trySend s.makeRoom.peers.length
      = some { s.makeRoom.add d.source address now with
        channel := { s.channel with buffer := s.channel.buffer ++ [s.makeRoom.peers.length] } } := by
    simp [trySend, hchannel, hopen, hwaiting, hroom]
  simp only [serve, hnew, hacc, if_true, connect, hsend]
  exact ⟨rfl, rfl, rfl⟩

theorem refuses_of_full (hwaiting : s.channel.waiting = 0) (hfull : channelCapacity ≤ s.channel.buffer.length)
    (source : E) (address : Addr) (now : Int) : s.Refuses source address now := by
  have hchannel : (s.makeRoom.add source address now).channel = s.channel := channel_makeRoom s
  simp [Refuses, trySend, hchannel, hwaiting, Nat.not_lt_of_le hfull]

end Taps.Demux

namespace Taps.UDPDemux

variable {E : Type} [DecidableEq E] {config : DemuxConfig} {s s₁ : UDPDemux E}

/-- The release handler of a refused source may run as soon as the turn of `receive_loop()` ends. -/
theorem step_refused (h : (system config).Reachable s) {now : Int} {address : Addr} {atCap : Bool}
    {d : Datagram E} (hd : s.Received d) (hacc : s.demux.accepting = true)
    (hnew : s.demux.table.index.lookup d.source = none) (hrefuse : s.demux.Refuses d.source address now)
    (hst : s.step (.resume now address atCap) = some s₁) :
    s₁.demux.posted = s.demux.posted ++ [s.demux.dropped d.source address] ∧
      ∃ s₂, s₁.step (.release s.demux.posted.length) = some s₂ ∧
        s₂.demux = ((s.demux.serve now address d).unpost s.demux.posted.length).runRelease
          (s.demux.dropped d.source address) := by
  obtain ⟨hposted, -⟩ := Demux.refused_sameTable (inv_of_reachable h).demux hacc hnew hrefuse
  have hrunning := (inv_of_reachable (h.run (.step hst .refl))).demux.running
  have hserve : s₁.demux = s.demux.serve now address d := by
    cases step_steps hst with
    | resume hl ha =>
        cases hl.symm.trans hd
        exact resume_demux ..
  rw [← hserve] at hposted ⊢
  have hhandler : s₁.demux.posted[s.demux.posted.length]? = some (s.demux.dropped d.source address) := by
    rw [hposted]
    exact List.getElem?_concat_length
  obtain ⟨s₂, hst₂⟩ : ∃ s₂, s₁.step (.release s.demux.posted.length) = some s₂ :=
    Option.isSome_iff_exists.mp (by simp [step, hrunning, atShutDown, hhandler])
  refine ⟨hposted, s₂, hst₂, ?_⟩
  cases step_steps hst₂ with
  | release hh =>
      cases hhandler.symm.trans hh
      exact demux_shutDownIfUnused _

/-- As many sources as there are numbers below `n` have sent a datagram, and no `accept()` was called. -/
structure Flooded (n : Nat) (s : UDPDemux Nat) : Prop where
  loop : s.receiveLoop = .pending false
  socketOpen : s.socketOpen = true
  accepting : s.demux.accepting = true
  isOpen : s.demux.channel.isOpen = true
  waiting : s.demux.channel.waiting = 0
  queued : s.demux.channel.buffer.length = n
  fresh : ∀ k, n ≤ k → s.demux.table.index.lookup k = none
  size : s.demux.table.index.keys.length ≤ n ∧ (0 < n → 0 < s.demux.table.index.keys.length)

/-- The `n`-th source sends a datagram, and `receive_loop()` goes on with it. -/
theorem Flooded.arrive {n : Nat} {s : UDPDemux Nat} (hs : s.Flooded n) (hi : s.Inv) :
    ∃ d : Datagram Nat, d.source = n ∧ ∃ s', s.step (.arrive (.ok (n, [7]))) = some s' ∧ s'.Received d ∧
      s'.demux = s.demux ∧ s'.socketOpen = true ∧ ∃ address,
        s'.step (.resume 0 address false) = some (s'.resume 0 address false false (.ok d)) := by
  obtain ⟨address, haddr⟩ := Infinite.exists_notMem_finset s.demux.makeRoom.live.toFinset
  rw [List.mem_toFinset] at haddr
  refine ⟨s.datagram false n [7], rfl, s.arrive false (.ok (n, [7])), ?_, rfl, rfl, hs.socketOpen, address, ?_⟩
  · simp [UDPDemux.step, hi.demux.running, hs.loop]
  · simp [UDPDemux.step, UDPDemux.arrive, hi.demux.running, haddr]

theorem Flooded.step {n : Nat} {s : UDPDemux Nat} (hs : s.Flooded n) {config : DemuxConfig}
    (h : (system config).Reachable s) (hroom : n < Demux.channelCapacity) :
    ∃ s', (system config).Reachable s' ∧ s'.Flooded (n + 1) := by
  have hi := inv_of_reachable h
  obtain ⟨d, hsource, s₁, hst, hd, hdemux, hopen, address, hst'⟩ := hs.arrive hi
  have hnew : s₁.demux.table.index.lookup d.source = none := by
    rw [hdemux, hsource]
    exact hs.fresh n (Nat.le_refl n)
  have hr := h.run (.step hst (.step hst' .refl))
  have hserve : (s₁.resume 0 address false false (.ok d)).demux = s.demux.serve 0 address d := by
    rw [resume_demux, hdemux]
  rw [hdemux] at hnew
  obtain ⟨hacc, hchannel, htable⟩ := Demux.serve_queued 0 address hs.accepting hnew
    hs.isOpen hs.waiting (hs.queued ▸ hroom)
  obtain ⟨-, hacc', -, -⟩ := Demux.makeRoom_keeps hi.demux
  rw [← hserve] at hacc hchannel htable
  have hlookup : ∀ k, n ≤ k → s.demux.makeRoom.table.index.lookup k = none :=
    fun k hk => (Demux.makeRoom_keeps hi.demux).2.2.2 k (hs.fresh k hk)
  refine ⟨_, hr, ?_⟩
  refine
    { loop := by simp [resume, nextReceive, hopen]
      socketOpen := hopen
      accepting := by rw [hacc, hacc', hs.accepting]
      isOpen := by rw [hchannel]; exact hs.isOpen
      waiting := by rw [hchannel]; exact hs.waiting
      queued := by rw [hchannel, List.length_append, hs.queued]; rfl
      fresh := fun k hk => ?_
      size := ?_ }
  · rw [htable, Lib.LinkedMap.index_pushFront (hsource ▸ hlookup n (Nat.le_refl n)),
      AList.lookup_insert_ne (by omega), hlookup k (by omega)]
  · have hlen := Demux.length_makeRoom_le hi.demux
    rw [← hi.demux.agrees.length_keys] at hlen
    rw [(inv_of_reachable hr).demux.agrees.length_keys, htable]
    have hsize := hs.size.1
    exact ⟨Nat.succ_le_succ (Nat.le_trans hlen hsize), fun _ => Nat.succ_pos _⟩

theorem exists_flooded (config : DemuxConfig) {n : Nat} (hn : n ≤ Demux.channelCapacity) :
    ∃ s, (system config).Reachable s ∧ Flooded n s := by
  induction n with
  | zero =>
      refine ⟨create config false, ⟨_, [], ⟨false, rfl⟩, .refl⟩, ?_⟩
      exact
        { loop := rfl
          socketOpen := rfl
          accepting := rfl
          isOpen := rfl
          waiting := rfl
          queued := rfl
          fresh := fun _ _ => rfl
          size := ⟨Nat.le_refl 0, nofun⟩ }
  | succ n ih =>
      obtain ⟨s, hr, hs⟩ := ih (by omega)
      exact hs.step hr (by omega)

theorem exists_refused (config : DemuxConfig) : ∃ s : UDPDemux Nat, ∃ address d s₁,
    (system config).Reachable s ∧ s.Received d ∧ s.demux.accepting = true ∧
    s.demux.table.index.lookup d.source = none ∧ s.demux.Refuses d.source address 0 ∧
    s.step (.resume 0 address false) = some s₁ ∧
    s.demux.table.index.keys.length ≤ Demux.channelCapacity ∧ 0 < s.demux.table.index.keys.length := by
  obtain ⟨s, hr, hs⟩ := exists_flooded config (Nat.le_refl _)
  have hi := inv_of_reachable hr
  obtain ⟨d, hsource, s₁, hst, hd, hdemux, -, address, hst'⟩ := hs.arrive hi
  refine ⟨s₁, address, d, _, hr.run (.step hst .refl), hd, hdemux ▸ hs.accepting, ?_, ?_, hst',
    hdemux ▸ hs.size.1, hdemux ▸ hs.size.2 (by decide)⟩
  · rw [hdemux, hsource]
    exact hs.fresh _ (Nat.le_refl _)
  · rw [hdemux]
    exact Demux.refuses_of_full hs.waiting (Nat.le_of_eq hs.queued.symm) d.source address 0

end Taps.UDPDemux
