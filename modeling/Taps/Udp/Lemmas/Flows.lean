import Taps.Udp.Lemmas.Timed
import Taps.Udp.Flows

/-!
# Lemmas on the flows of a demultiplexer
-/

namespace Taps

/-! ## One flow -/

theorem Flow.take_of_nil {E : Type} (x : Flow E) (h : x.queue.queue = []) : x.take = x := by
  have hsame : x.queue.pop = x.queue := by
    ext : 1 <;> simp [Lib.DropOldest.pop, h]
  simp [take, hsame, h]

namespace Peer

variable {E : Type} {p : Peer E}

theorem toFlow_deliver (p : Peer E) (d : Datagram E) : (p.deliver d).toFlow = p.toFlow.push d := by
  simp only [toFlow, Flow.push, p.closed_deliver]
  refine congr (congr (congrArg Flow.mk ?_) rfl) ?_
  · exact p.mailbox.toQueue_deliver d
  · cases hclosed : p.mailbox.closed with
    | true => simp [deliver, Mailbox.deliver_of_closed hclosed]
    | false => rfl

theorem toFlow_closeMailbox (p : Peer E) (cause : CloseCause) :
    (p.closeMailbox cause).toFlow = p.toFlow.close cause := by
  have hreturned : (p.closeMailbox cause).returned = p.returned := rfl
  simp only [toFlow, Flow.close, hreturned]
  refine congr (congr (congrArg Flow.mk ?_) rfl) ?_
  · rfl
  · cases hclosed : p.mailbox.closed with
    | true => simp [closeMailbox, Mailbox.close, hclosed]
    | false => simp [closeMailbox, Mailbox.close, hclosed]

theorem toFlow_receive (p : Peer E) : p.receive.toFlow = p.toFlow.take := by
  rcases p.receive_cases with ⟨d, m, hpop, he⟩ | ⟨hnil, -, he⟩ | ⟨hnil, -, he⟩
  · obtain ⟨hqueue, hhead⟩ := Mailbox.toQueue_of_tryPop hpop
    obtain ⟨-, -, hclosed, hcause, -⟩ := Mailbox.tryPop_eq_some hpop
    rw [he]
    simp [toFlow, Flow.take, hqueue, hhead, hclosed, hcause, returned, Except.toOption]
  · rw [he, p.toFlow.take_of_nil hnil]
    simp [toFlow, returned, Except.toOption]
  · rw [he, p.toFlow.take_of_nil hnil]
    rfl

theorem toFlow_wake (p : Peer E) : p.wake.toFlow = p.toFlow.take :=
  toFlow_receive { p with mailbox := p.mailbox.resume }

end Peer

/-! ## The moves -/

namespace Demux

variable {E : Type} {s s' : Demux E} {t : Flows E} {b : Nat} {f : Peer E → Peer E} {n : Lib.Node E Entry}

/-- A change that the flows do not show. -/
structure Alike (s s' : Demux E) : Prop where
  accepting : s'.accepting = s.accepting
  nodes : s'.table.nodes = s.table.nodes
  config : s'.config = s.config
  flows : s'.peers.map Peer.toFlow = s.peers.map Peer.toFlow

theorem Alike.trans {s'' : Demux E} (h : Alike s s') (h' : Alike s' s'') : Alike s s'' where
  accepting := h'.accepting.trans h.accepting
  nodes := h'.nodes.trans h.nodes
  config := h'.config.trans h.config
  flows := h'.flows.trans h.flows

theorem Represents.alike (h : s.Represents t) (ha : Alike s s') : s'.Represents t where
  accepting := h.accepting.trans ha.accepting.symm
  entries := ha.nodes ▸ h.entries
  bound := ha.config ▸ h.bound
  flows := h.flows.trans ha.flows.symm

theorem alike_update (hf : ∀ p : Peer E, (f p).toFlow = p.toFlow) (b : Nat) : Alike s (s.update b f) where
  accepting := rfl
  nodes := rfl
  config := rfl
  flows := by
    have hmap : (s.peers.modify b f).map Peer.toFlow = (s.peers.map Peer.toFlow).modify b id :=
      Lib.map_modify (fun p _ => hf p) b
    rw [List.modify_id] at hmap
    exact hmap

theorem alike_release (s : Demux E) (b : Nat) : Alike s (s.release b) := by
  unfold release
  split
  · exact ⟨rfl, rfl, rfl, rfl⟩
  · split
    · exact ⟨rfl, rfl, rfl, rfl⟩
    · exact { alike_update (s := s) (f := Peer.setReleased) (fun _ => rfl) b with }

theorem alike_close (s : Demux E) (b : Nat) (aborted : Bool) : Alike s (s.close b aborted) :=
  (alike_update (f := fun p => p.shut aborted) (fun _ => rfl) b).trans (alike_release _ b)

theorem alike_destroy (s : Demux E) (b : Nat) : Alike s (s.destroy b) :=
  (alike_release s b).trans (alike_update (f := Peer.destroy) (fun _ => rfl) b)

theorem alike_handOver (s : Demux E) (b : Nat) : Alike s (s.handOver b) :=
  { alike_update (s := s) (f := Peer.accept) (fun _ => rfl) b with }

theorem alike_trySend {u : Demux E} (h : s.trySend b = some u) : Alike s u := by
  unfold trySend at h
  split at h
  · cases h
  · split at h
    · cases h
      exact { alike_handOver _ b with }
    · split at h
      · cases h
        exact ⟨rfl, rfl, rfl, rfl⟩
      · cases h

theorem alike_accept (s : Demux E) : Alike s s.accept := by
  unfold accept
  split
  · exact { alike_handOver _ _ with }
  · split <;> exact ⟨rfl, rfl, rfl, rfl⟩

theorem Represents.update (h : s.Represents t) {g : Flow E → Flow E}
    (hf : ∀ p : Peer E, (f p).toFlow = g p.toFlow) (b : Nat) : (s.update b f).Represents (t.modify b g) where
  accepting := h.accepting
  entries := h.entries
  bound := h.bound
  flows := by
    show t.flows.modify b g = (s.peers.modify b f).map Peer.toFlow
    rw [h.flows]
    exact (Lib.map_modify (fun p _ => hf p) b).symm

variable [DecidableEq E]

theorem Represents.remove (h : s.Represents t) (hi : s.Inv) (hn : n ∈ s.table.nodes) (cause : CloseCause) :
    (s.remove n cause).Represents (t.evict cause (n.key, n.value)) where
  accepting := h.accepting
  entries := by
    show t.table.entries.filter _ = (s.table.nodes.filter _).map _
    rw [h.entries, List.filter_map]
    congr 1
    refine List.filter_congr fun x hx => ?_
    have hiff : x.key = n.key ↔ x.id = n.id :=
      ⟨fun hk => congrArg Lib.Node.id (hi.agrees.eq_of_key hx hn hk),
        fun hid => congrArg Lib.Node.key (hi.agrees.eq_of_id hx hn hid)⟩
    simpa using hiff
  bound := h.bound
  flows := (h.update (fun p => p.toFlow_closeMailbox cause) n.value.mailbox).flows

theorem Represents.find?_some (h : s.Represents t) (hn : n ∈ s.table.nodes) :
    t.table.find? n.key = some n.value := by
  have hmem : (n.key, n.value) ∈ t.table.entries := h.entries ▸ List.mem_map_of_mem hn
  exact Lib.Lru.find?_eq_some hmem

theorem Represents.find?_none (h : s.Represents t) (hi : s.Inv) {source : E}
    (hl : s.table.index.lookup source = none) : t.table.find? source = none := by
  refine Lib.Lru.find?_eq_none.mpr fun x hx => ?_
  rw [h.entries] at hx
  obtain ⟨n, hn, rfl⟩ := List.mem_map.mp hx
  exact hi.agrees.lookup_eq_none hl n hn

theorem Represents.touch (h : s.Represents t) (hi : s.Inv) (hn : n ∈ s.table.nodes) (v : Entry) :
    { s with table := s.table.touch n v }.Represents { t with table := t.table.put n.key v } where
  accepting := h.accepting
  entries := by
    have hvictim : t.table.victim n.key = none := by simp [Lib.Lru.victim, h.find?_some hn]
    have hothers : (t.table.others n.key).entries = (s.table.erase n).nodes.map fun x => (x.key, x.value) := by
      rw [Lib.Lru.others, hvictim]
      exact (h.remove hi hn .owner).entries
    exact congrArg (List.cons (n.key, v)) hothers
  bound := h.bound
  flows := h.flows

theorem Represents.makeRoom (h : s.Represents t) (hi : s.Inv) {source : E}
    (hl : s.table.index.lookup source = none) : s.makeRoom.Represents (t.makeRoom source) := by
  have hnone := h.find?_none hi hl
  have hlength : t.table.entries.length = s.table.nodes.length := by rw [h.entries, List.length_map]
  rcases Nat.lt_or_ge s.table.index.keys.length s.config.maxConnections with hfit | hfull
  · have hroom : s.makeRoom = s := if_neg (Nat.not_le.mpr hfit)
    have hvictim : t.table.victim source = none := by
      rw [hi.agrees.length_keys] at hfit
      rw [Lib.Lru.victim, if_pos (.inr (by rwa [hlength, h.bound]))]
    rwa [hroom, Flows.makeRoom, hvictim]
  · obtain ⟨n, others, hnodes, hroom⟩ := makeRoom_full hi hfull
    have hvictim : t.table.victim source = some (n.key, n.value) := by
      rw [hi.agrees.length_keys] at hfull
      rw [Lib.Lru.victim, if_neg]
      · simp [h.entries, hnodes]
      · simp [hnone, hlength, h.bound, hfull]
    rw [hroom, Flows.makeRoom, hvictim]
    exact h.remove hi (by simp [hnodes]) .displaced

theorem makeRoom_fits (hi : s.Inv) {source : E} (hl : s.table.index.lookup source = none) :
    s.makeRoom.table.index.lookup source = none ∧ s.makeRoom.table.nodes.length < s.makeRoom.config.maxConnections := by
  rcases makeRoom_cases hi with ⟨he, hlt⟩ | ⟨n, hn, he⟩
  · rw [he]
    exact ⟨hl, hlt⟩
  · rw [he]
    exact ⟨Lib.LinkedMap.lookup_erase_of_none hl, Nat.lt_of_lt_of_le (Lib.LinkedMap.length_erase_lt hn) hi.bound⟩

theorem Represents.add (h : s.Represents t) (hi : s.Inv) {d : Datagram E}
    (hl : s.table.index.lookup d.source = none) (hlen : s.table.nodes.length < s.config.maxConnections)
    (now : Int) (address : Addr) : (s.add d.source address now).Represents (t.begin now d false) where
  accepting := h.accepting
  entries := by
    have hnone := h.find?_none hi hl
    have hvictim : t.table.victim d.source = none := by
      rw [Lib.Lru.victim, if_pos (.inr (by rwa [h.entries, List.length_map, h.bound]))]
    have hothers : (t.table.others d.source).entries = t.table.entries := by
      rw [Lib.Lru.others, hvictim]
      exact Lib.Lru.erase_of_find?_none hnone
    have hlength : t.flows.length = s.peers.length := by rw [h.flows, List.length_map]
    show (d.source, _) :: (t.table.others d.source).entries = (d.source, _) :: s.table.nodes.map _
    rw [hothers, hlength, h.entries]
  bound := h.bound
  flows := by
    show t.flows ++ [Flow.create] = (s.peers ++ [Peer.create d.source address]).map Peer.toFlow
    rw [h.flows, List.map_append]
    rfl

/-- The new flow is the last one. -/
theorem modify_begin (t : Flows E) (now : Int) (d : Datagram E) :
    (t.begin now d false).modify t.flows.length (Flow.push · d) = t.begin now d true := by
  have hlast : (t.flows ++ [Flow.create]).modify t.flows.length (Flow.push · d)
      = t.flows ++ [Flow.create.push d] := by
    rw [List.modify_eq_take_drop]
    simp
  simp [Flows.modify, Flows.begin, hlast]

theorem Represents.connect (h : s.Represents t) (hi : s.Inv) {d : Datagram E}
    (hl : s.table.index.lookup d.source = none) (hlen : s.table.nodes.length < s.config.maxConnections)
    (now : Int) (address : Addr) :
    ∃ taken, (s.connect now address d).Represents (t.begin now d taken) := by
  have hadd := h.add hi hl hlen now address
  unfold Demux.connect
  cases hsend : (s.add d.source address now).trySend s.peers.length with
  | some u =>
      have hlength : t.flows.length = s.peers.length := by rw [h.flows, List.length_map]
      refine ⟨true, ?_⟩
      rw [← modify_begin, hlength]
      simp only [hsend]
      exact (hadd.alike (alike_trySend hsend)).update (fun p => p.toFlow_deliver d) _
  | none =>
      refine ⟨false, ?_⟩
      simp only [hsend]
      exact hadd.alike (alike_destroy _ _)

theorem Represents.serve (h : s.Represents t) (hi : s.Inv) (now : Int) (address : Addr) (d : Datagram E) :
    ∃ taken, (s.serve now address d).Represents (t.datagram now d taken) := by
  unfold Demux.serve Flows.datagram
  cases hl : s.table.index.lookup d.source with
  | some it =>
      obtain ⟨n, hn, hkey, hderef⟩ := hi.agrees.deref_lookup hl
      have hfind := h.find?_some hn
      rw [hkey] at hfind
      refine ⟨true, ?_⟩
      simp only [hderef, hfind]
      have htouch := h.touch hi hn { n.value with lastActive := now }
      rw [hkey] at htouch
      exact htouch.update (fun p => p.toFlow_deliver d) _
  | none =>
      simp only [h.find?_none hi hl]
      cases hacc : s.accepting with
      | false =>
          refine ⟨false, ?_⟩
          rw [if_neg Bool.false_ne_true, if_neg (by simp [h.accepting, hacc])]
          exact h
      | true =>
          obtain ⟨hlookup, hlen⟩ := makeRoom_fits hi hl
          have hinv : s.makeRoom.Inv := (makeRoom_moves (G := fun _ _ _ => True) hi).inv hi
          simp only [if_pos (h.accepting.trans hacc), if_true]
          exact (h.makeRoom hi hl).connect hinv hlookup hlen now address

/-- Entries leave the table one after the other. -/
theorem Represents.removes (h : s.Represents t) (hi : s.Inv) {ns : List (Lib.Node E Entry)}
    (hns : ∀ n ∈ ns, n ∈ s.table.nodes) (hnodup : ns.Nodup) (cause : CloseCause) :
    (ns.foldl (fun u n => u.remove n cause) s).Represents
      ((ns.map fun n => (n.key, n.value)).foldl (Flows.evict cause) t) := by
  induction ns generalizing s t with
  | nil => exact h
  | cons n ns ih =>
      obtain ⟨hfirst, hrest⟩ := List.nodup_cons.mp hnodup
      have hn := hns n List.mem_cons_self
      refine ih (h.remove hi hn cause) (hi.remove hn cause) (fun x hx => ?_) hrest
      refine (hi.agrees.mem_erase hn).mpr ⟨hns x (List.mem_cons_of_mem _ hx), ?_⟩
      rintro rfl
      exact hfirst hx

theorem Represents.sweep (h : s.Represents t) (hi : s.Inv) (now : Int) :
    (s.sweep now).Represents (t.sweep (s.cutoff now)) := by
  have hold : (t.table.entries.rtakeWhile fun x => x.2.lastActive < s.cutoff now)
      = (s.table.nodes.rtakeWhile fun n => n.value.lastActive < s.cutoff now).map
        fun n => (n.key, n.value) := by
    rw [h.entries]
    simp [List.rtakeWhile, ← List.map_reverse, List.takeWhile_map, Function.comp_def]
  rw [Demux.sweep, (sweepIdle_eq hi _ (Nat.le_refl _)).1, Flows.sweep, hold, ← List.map_reverse]
  refine h.removes hi (fun n hn => ?_) ?_ .idle
  · exact (List.rtakeWhile_suffix _ _).subset (List.mem_reverse.mp hn)
  · exact List.nodup_reverse.mpr
      ((List.Nodup.of_map Lib.Node.id hi.agrees.ids).sublist (List.rtakeWhile_suffix _ _).sublist)

theorem Represents.runRelease (h : s.Represents t) (hi : s.Inv) (x : Release E) :
    (s.runRelease x).Represents t ∨ (s.runRelease x).Represents (t.release x.source) := by
  rcases runRelease_cases hi x with he | ⟨n, hn, p, hkey, -, -, he⟩
  · rw [he]
    exact .inl h
  · refine .inr ?_
    have hfind := h.find?_some hn
    rw [hkey] at hfind
    rw [he, Flows.release, hfind, ← hkey]
    exact h.remove hi hn .owner

end Demux

/-! ## The steps -/

namespace UDPDemux

variable {E : Type} [DecidableEq E] {s s' : UDPDemux E} {e : DemuxEvent E} {t : Flows E}

/-- A datagram that the flows hear is the one that the step serves. -/
def Answers (s : UDPDemux E) (e : DemuxEvent E) (f : FlowEvent E) : Prop :=
  ∀ now d taken, f = .datagram now d taken → s.Received d ∧ ∃ now address atCap, e = .resume now address atCap

/-- A step does not show, or it is one of the flows, which hear the datagram that was served. -/
theorem Steps.simulates (h : Steps s e s') (hi : s.demux.Inv) (hr : s.demux.Represents t) :
    s'.demux.Represents t ∨ ∃ f, s'.demux.Represents (t.next f) ∧ s.Answers e f := by
  cases h with
  | arrive =>
      rw [demux_arrive]
      exact .inl hr
  | @resume now address atCap sink outcome hl ha =>
      rcases resume_demux_cases hl now address atCap with ⟨d, hd, hserve⟩ | ⟨-, hsame⟩
      · rw [hserve]
        obtain ⟨taken, htaken⟩ := hr.serve hi now address d
        refine .inr ⟨.datagram now d taken, htaken, fun now' d' taken' he => ?_⟩
        cases he
        exact ⟨hd, _, _, _, rfl⟩
      · rw [hsame]
        exact .inl hr
  | expire | cancelled => exact .inl hr
  | @sweep now hl =>
      rw [demux_shutDownIfUnused]
      exact .inr ⟨.sweep (s.demux.cutoff now), hr.sweep hi now, fun _ _ _ he => by cases he⟩
  | accept => exact .inl (hr.alike (Demux.alike_accept _))
  | stop =>
      rw [demux_shutDownIfUnused]
      exact .inr ⟨.stop, ⟨rfl, hr.entries, hr.bound, hr.flows⟩, fun _ _ _ he => by cases he⟩
  | @release i x hx =>
      rw [demux_shutDownIfUnused]
      have hunpost : Demux.Alike s.demux (s.demux.unpost i) := ⟨rfl, rfl, rfl, rfl⟩
      have hinv : (s.demux.unpost i).Inv := hi.congr rfl rfl rfl rfl (.refl _)
      rcases (hr.alike hunpost).runRelease hinv x with hsame | hrelease
      · exact .inl hsame
      · exact .inr ⟨.release x.source, hrelease, fun _ _ _ he => by cases he⟩
  | @receive b =>
      exact .inr ⟨.take b, hr.update (fun p => p.toFlow_receive) b, fun _ _ _ he => by cases he⟩
  | @wake b => exact .inr ⟨.take b, hr.update (fun p => p.toFlow_wake) b, fun _ _ _ he => by cases he⟩
  | close => exact .inl (hr.alike (Demux.alike_close ..))
  | destroy => exact .inl (hr.alike (Demux.alike_destroy ..))

theorem run_represents {config : DemuxConfig} {bound : Nat} (bound_pos : 0 < bound) {es : List (DemuxEvent E)}
    (hrun : (system config).Run s es s') (hi : s.Inv) (hr : s.demux.Represents t) :
    ∃ fs t', (Flows.system bound bound_pos).Run t fs t' ∧ s'.demux.Represents t' := by
  refine hrun.simulates (I := Inv) (R := fun s t => s.demux.Represents t) ?_ ?_ hi hr
  · intro s e s' hi hst
    exact (step_steps hst).inv hi
  · intro s e s' t hi hr hst
    rcases (step_steps hst).simulates hi.demux hr with hsame | ⟨f, hf, -⟩
    · exact ⟨[], t, .refl, hsame⟩
    · exact ⟨[f], t.next f, .step rfl .refl, hf⟩

/-- A run that serves datagrams of some sources only stands for a run of the flows that hears those only. -/
theorem run_serves {config : DemuxConfig} {sources : Finset E} {bound : Nat} (bound_pos : 0 < bound)
    {es : List (DemuxEvent E)} (hrun : ((system config).restrict (ServesOnly sources)).Run s es s') (hi : s.Inv)
    (hr : s.demux.Represents t) :
    ∃ fs t', ((Flows.system bound bound_pos).restrict (Flows.Hears sources)).Run t fs t' ∧
      s'.demux.Represents t' := by
  refine hrun.simulates (I := Inv) (R := fun s t => s.demux.Represents t) ?_ ?_ hi hr
  · rintro s e s' hi ⟨hst, -⟩
    exact (step_steps hst).inv hi
  · rintro s e s' t hi hr ⟨hst, hserves⟩
    rcases (step_steps hst).simulates hi.demux hr with hsame | ⟨f, hf, hanswers⟩
    · exact ⟨[], t, .refl, hsame⟩
    · refine ⟨[f], t.next f, .step ⟨rfl, fun now d taken he => ?_⟩ .refl, hf⟩
      obtain ⟨hd, now', address, atCap, hres⟩ := hanswers now d taken he
      exact hserves now' address atCap d hres hd

omit [DecidableEq E] in
theorem represents_create (config : DemuxConfig) (atCap : Bool) :
    (create (E := E) config atCap).demux.Represents (.create config.maxConnections config.maxConnections_pos) where
  accepting := rfl
  entries := rfl
  bound := rfl
  flows := rfl

theorem reachable_represents {config : DemuxConfig} (h : (system config).Reachable s) :
    ∃ t, (Flows.system config.maxConnections config.maxConnections_pos).Reachable t ∧ s.demux.Represents t := by
  obtain ⟨_, es, ⟨atCap, rfl⟩, hrun⟩ := h
  have hi : (create (E := E) config atCap).Inv := inv_of_reachable ⟨_, [], ⟨atCap, rfl⟩, .refl⟩
  obtain ⟨fs, t, hfs, ht⟩ := run_represents config.maxConnections_pos hrun hi (represents_create config atCap)
  exact ⟨t, ⟨_, fs, rfl, hfs⟩, ht⟩

end UDPDemux

/-! ## Who is displaced -/

namespace Flows

variable {E : Type} {t t' : Flows E} {x : E × Entry} {source : E} {b : Nat} {D : Finset E}

/-- The flows of the table are open, and no two entries have the same one. -/
structure Valid (t : Flows E) : Prop where
  isOpen : ∀ x ∈ t.table.entries, ∃ y, t.flows[x.2.mailbox]? = some y ∧ y.cause = none
  distinct : (t.table.entries.map fun x => x.2.mailbox).Nodup

/-- The `b`-th flow has left the table, and was not displaced. -/
def Left (t : Flows E) (b : Nat) : Prop := ∃ y c, t.flows[b]? = some y ∧ y.cause = some c ∧ c ≠ .displaced

/-- The `b`-th flow is that of the source, and of the others only those in `D` were heard since; or it has left. -/
def Spared (t : Flows E) (source : E) (b : Nat) (D : Finset E) : Prop :=
  (∃ v : Entry, v.mailbox = b ∧ t.table.Recent source v D) ∨ t.Left b

theorem Valid.lt (h : t.Valid) (hx : x ∈ t.table.entries) : x.2.mailbox < t.flows.length := by
  obtain ⟨y, hy, -⟩ := h.isOpen x hx
  exact (List.getElem?_eq_some_iff.mp hy).1

theorem getElem?_modify_cause {f : Flow E → Flow E} (hf : ∀ y : Flow E, (f y).cause = y.cause) (i : Nat)
    {y : Flow E} (hy : t.flows[b]? = some y) :
    ∃ y', (t.modify i f).flows[b]? = some y' ∧ y'.cause = y.cause := by
  refine ⟨if i = b then f y else y, ?_, ?_⟩
  · simp only [modify, List.getElem?_modify, hy]
    split <;> simp
  · split
    · exact hf y
    · rfl

variable [DecidableEq E]

/-- What a step is made of, where the datagrams are of the sources `D`. -/
inductive Change (D : Finset E) (t : Flows E) : Flows E → Prop
  | modify {f : Flow E → Flow E} (hf : ∀ y : Flow E, (f y).cause = y.cause) (i : Nat) :
      Change D t (t.modify i f)
  | touch {source : E} {v : Entry} (hfind : t.table.find? source = some v) (hs : source ∈ D) (now : Int) :
      Change D t { t with table := t.table.put source { v with lastActive := now } }
  | evict {x : E × Entry} {cause : CloseCause} (hx : x ∈ t.table.entries)
      (hc : cause = .displaced → ∃ j ∈ D, t.table.victim j = some x) : Change D t (t.evict cause x)
  | begin {d : Datagram E} (hfind : t.table.find? d.source = none) (hs : d.source ∈ D) (now : Int) (taken : Bool) :
      Change D t (t.begin now d taken)
  | stop : Change D t { t with accepting := false }

abbrev Changes (D : Finset E) : Flows E → Flows E → Prop := Relation.ReflTransGen (Change D)

/-! ### The steps -/

theorem makeRoom_changes (hs : source ∈ D) : Changes D t (t.makeRoom source) := by
  unfold makeRoom
  split
  · rename_i x hx
    obtain ⟨-, -, rest, hrest⟩ := Lib.Lru.victim_eq_some hx
    exact .single (.evict (by simp [hrest]) fun _ => ⟨source, hs, hx⟩)
  · exact .refl

theorem find?_makeRoom (h : t.table.find? source = none) : (t.makeRoom source).table.find? source = none := by
  unfold makeRoom
  split
  · exact Lib.Lru.find?_eq_none.mpr fun y hy => Lib.Lru.find?_eq_none.mp h y (List.mem_of_mem_filter hy)
  · exact h

/-- Entries leave the table one after the other. -/
theorem foldl_evict_changes {xs : List (E × Entry)} (hxs : ∀ x ∈ xs, x ∈ t.table.entries)
    (hnodup : (xs.map Prod.fst).Nodup) {cause : CloseCause} (hc : cause ≠ .displaced) :
    Changes D t (xs.foldl (evict cause) t) := by
  induction xs generalizing t with
  | nil => exact .refl
  | cons x xs ih =>
      obtain ⟨hfirst, hrest⟩ := List.nodup_cons.mp hnodup
      refine .head (.evict (hxs x List.mem_cons_self) fun he => absurd he hc) (ih (fun y hy => ?_) hrest)
      refine List.mem_filter.mpr ⟨hxs y (List.mem_cons_of_mem _ hy), decide_eq_true ?_⟩
      intro he
      exact hfirst (he ▸ List.mem_map_of_mem hy)

theorem step_changes {e : FlowEvent E} (hst : t' = t.next e) (h : Hears D t e t') : Changes D t t' := by
  subst hst
  cases e with
  | datagram now d taken =>
      have hs := h now d taken rfl
      show Changes D t (t.datagram now d taken)
      unfold Flows.datagram
      split
      · rename_i v hfind
        exact .tail (.single (.touch hfind hs now)) (.modify (f := (Flow.push · d)) (fun _ => rfl) v.mailbox)
      · rename_i hfind
        split
        · exact (makeRoom_changes hs).tail (.begin (find?_makeRoom hfind) hs now taken)
        · exact .refl
  | sweep cutoff =>
      have hold : (t.table.entries.rtakeWhile fun x => x.2.lastActive < cutoff).Sublist t.table.entries :=
        (List.rtakeWhile_suffix _ _).sublist
      refine foldl_evict_changes (fun x hx => hold.subset (List.mem_reverse.mp hx)) ?_ (by decide)
      rw [List.map_reverse]
      exact List.nodup_reverse.mpr (t.table.keys_nodup.sublist (hold.map _))
  | release source =>
      simp only [next, Flows.release]
      cases hfind : t.table.find? source with
      | some v => exact .single (.evict (Lib.Lru.mem_of_find? hfind) (by simp))
      | none => exact .refl
  | stop => exact .single .stop
  | take b => exact .single (.modify (f := Flow.take) (fun _ => rfl) b)

/-! ### What the steps keep -/

theorem others_sublist (table : Lib.Lru E Entry) (source : E) :
    (table.others source).entries.Sublist (table.entries.filter fun x => x.1 ≠ source) := by
  unfold Lib.Lru.others
  split
  · exact List.filter_sublist.filter _
  · exact .refl _

/-- An entry is put in front whose flow no other source has. -/
theorem Valid.put (h : t.Valid) {v : Entry} {y : Flow E} (hy : t.flows[v.mailbox]? = some y)
    (hopen : y.cause = none) (hfree : ∀ x ∈ t.table.entries, x.1 ≠ source → x.2.mailbox ≠ v.mailbox) :
    { t with table := t.table.put source v }.Valid where
  isOpen x hx := by
    rcases List.mem_cons.mp hx with rfl | hx
    · exact ⟨y, hy, hopen⟩
    · exact h.isOpen x (List.mem_of_mem_filter ((others_sublist _ _).subset hx))
  distinct := by
    have hothers := others_sublist t.table source
    refine List.nodup_cons.mpr ⟨fun hmem => ?_, h.distinct.sublist ((hothers.trans List.filter_sublist).map _)⟩
    obtain ⟨x, hx, hsame⟩ := List.mem_map.mp hmem
    obtain ⟨hx, hne⟩ := List.mem_filter.mp (hothers.subset hx)
    exact hfree x hx (of_decide_eq_true hne) hsame

theorem Change.valid (h : Change D t t') (hv : t.Valid) : t'.Valid := by
  cases h with
  | modify hf i =>
      refine ⟨fun x hx => ?_, hv.distinct⟩
      obtain ⟨y, hy, hnone⟩ := hv.isOpen x hx
      obtain ⟨y', hy', hcause⟩ := getElem?_modify_cause hf i hy
      exact ⟨y', hy', hcause.trans hnone⟩
  | @touch source v hfind hs now =>
      have hmem := Lib.Lru.mem_of_find? hfind
      obtain ⟨y, hy, hopen⟩ := hv.isOpen _ hmem
      refine hv.put hy hopen fun x hx hne hsame => hne ?_
      exact congrArg Prod.fst (List.inj_on_of_nodup_map hv.distinct hx hmem hsame)
  | @evict x cause hx hc =>
      refine ⟨fun x' hx' => ?_, hv.distinct.sublist (List.filter_sublist.map _)⟩
      obtain ⟨hmem, hne⟩ := List.mem_filter.mp hx'
      obtain ⟨y, hy, hnone⟩ := hv.isOpen x' hmem
      have hother : x.2.mailbox ≠ x'.2.mailbox := by
        intro he
        rw [List.inj_on_of_nodup_map hv.distinct hx hmem he] at hne
        simp at hne
      refine ⟨y, ?_, hnone⟩
      simp [Flows.evict, Flows.modify, hy, hother]
  | @begin d hfind hs now taken =>
      have hlast : Valid { t with flows := t.flows ++ [if taken then Flow.create.push d else .create] } := by
        refine ⟨fun x hx => ?_, hv.distinct⟩
        obtain ⟨y, hy, hnone⟩ := hv.isOpen x hx
        exact ⟨y, by rw [List.getElem?_append_left (hv.lt hx), hy], hnone⟩
      refine hlast.put (v := { mailbox := t.flows.length, lastActive := now }) List.getElem?_concat_length ?_ ?_
      · split <;> rfl
      · exact fun x hx _ => Nat.ne_of_lt (hv.lt hx)
  | stop => exact ⟨hv.isOpen, hv.distinct⟩

theorem Change.left (h : Change D t t') (hl : t.Left b) : t'.Left b := by
  obtain ⟨y, c, hy, hcause, hc⟩ := hl
  cases h with
  | modify hf i =>
      obtain ⟨y', hy', hsame⟩ := getElem?_modify_cause hf i hy
      exact ⟨y', c, hy', hsame.trans hcause, hc⟩
  | touch | stop => exact ⟨y, c, hy, hcause, hc⟩
  | @evict x cause hx _ =>
      refine ⟨if x.2.mailbox = b then y.close cause else y, c, ?_, ?_, hc⟩
      · simp only [Flows.evict, Flows.modify, List.getElem?_modify, hy]
        split <;> simp
      · split
        · simp [Flow.close, hcause]
        · exact hcause
  | begin =>
      exact ⟨y, c, by rw [Flows.begin, List.getElem?_append_left (List.getElem?_eq_some_iff.mp hy).1, hy], hcause, hc⟩

theorem put_recent {v : Entry} (h : t.table.Recent source v D) (hD : D.card < t.table.bound) {j : E} (hne : j ≠ source)
    (hj : j ∈ insert source D) (w : Entry) : (t.table.put j w).Recent source v D := by
  have hsame : insert j D = D := Finset.insert_eq_of_mem ((Finset.mem_insert.mp hj).resolve_left hne)
  have hput := h.put hne (by rwa [hsame]) w
  rwa [hsame] at hput

/-- A source that was heard is not displaced before as many others were heard as the table holds. -/
theorem Change.spared (h : Change (insert source D) t t') (hv : t.Valid) (hD : D.card < t.table.bound) (hs : t.Spared source b D) :
    t'.Spared source b D := by
  rcases hs with ⟨v, hb, hrecent⟩ | hl
  · have hfind := Lib.Lru.find?_eq_some hrecent.mem
    cases h with
    | modify | stop => exact .inl ⟨v, hb, hrecent⟩
    | @touch j w hw hj now =>
        rcases eq_or_ne j source with rfl | hne
        · obtain rfl : w = v := Option.some.inj (hw.symm.trans hfind)
          obtain ⟨front, back, he, hfront⟩ := t.table.recent_put j { w with lastActive := now }
          exact .inl ⟨{ w with lastActive := now }, hb, front, back, he,
            fun x hx => absurd (hfront x hx) (Finset.notMem_empty _)⟩
        · exact .inl ⟨v, hb, put_recent hrecent hD hne hj _⟩
    | @evict x cause hx hc =>
        rcases eq_or_ne x.1 source with rfl | hne
        · -- The entry is that of the flow, which was open so far.
          obtain rfl : x.2 = v := Option.some.inj ((Lib.Lru.find?_eq_some hx).symm.trans hfind)
          obtain ⟨y, hy, hopen⟩ := hv.isOpen x hx
          subst hb
          refine .inr ⟨y.close cause, cause, ?_, by simp [Flow.close, hopen], fun he => ?_⟩
          · simp [Flows.evict, Flows.modify, hy]
          · obtain ⟨j, hj, hvictim⟩ := hc he
            rcases Finset.mem_insert.mp hj with rfl | hj
            · obtain ⟨hnone, -, -⟩ := Lib.Lru.victim_eq_some hvictim
              simp [hnone] at hfind
            · exact hrecent.victim_ne (by rwa [Finset.insert_eq_of_mem hj]) hvictim rfl
        · exact .inl ⟨v, hb, hrecent.erase hne⟩
    | @begin d hnone hj now taken =>
        have hne : d.source ≠ source := by
          rintro rfl
          simp [hnone] at hfind
        exact .inl ⟨v, hb, put_recent hrecent hD hne hj _⟩
  · exact .inr (h.left hl)

theorem Change.bound (h : Change D t t') : t'.table.bound = t.table.bound := by
  cases h <;> rfl

theorem valid_next (hv : t.Valid) (e : FlowEvent E) : (t.next e).Valid := by
  have hears : ∃ D, Hears D t e (t.next e) := by
    cases e with
    | datagram now d taken =>
        refine ⟨{d.source}, fun _ _ _ he => ?_⟩
        cases he
        exact Finset.mem_singleton_self _
    | _ => exact ⟨∅, fun _ _ _ he => by cases he⟩
  obtain ⟨D, hears⟩ := hears
  generalize hst : t.next e = t' at hears ⊢
  have hchanges := step_changes hst.symm hears
  clear hst hears
  induction hchanges with
  | refl => exact hv
  | tail _ hlast ih => exact hlast.valid ih

theorem valid_of_reachable {bound : Nat} {bound_pos : 0 < bound} (h : (system bound bound_pos).Reachable t) :
    t.Valid := by
  refine h.invariant ?_ ?_
  · rintro _ rfl
    exact ⟨fun x hx => (by cases hx), List.nodup_nil⟩
  · rintro t e _ hv rfl
    exact valid_next hv e

/-- What a run keeps that hears the source and the sources `D` only. -/
theorem run_spared {bound : Nat} {bound_pos : 0 < bound} {fs : List (FlowEvent E)}
    (hrun : ((system bound bound_pos).restrict (Hears (insert source D))).Run t fs t') (hv : t.Valid)
    (hD : D.card < t.table.bound) (hs : t.Spared source b D) : t'.Spared source b D := by
  have hkept := hrun.preserves (I := fun t => t.Valid ∧ D.card < t.table.bound ∧ t.Spared source b D) ?_ ⟨hv, hD, hs⟩
  · exact hkept.2.2
  rintro t f t' ⟨hv, hD, hs⟩ ⟨hst, hears⟩
  have hchanges := step_changes hst hears
  clear hst hears
  induction hchanges with
  | refl => exact ⟨hv, hD, hs⟩
  | tail _ hlast ih =>
      obtain ⟨hv, hD, hs⟩ := ih
      exact ⟨hlast.valid hv, hlast.bound ▸ hD, hlast.spared hv hD hs⟩

/-- A source that is heard is the first one, if it is in the table then. -/
theorem recent_datagram {now : Int} {d : Datagram E} {taken : Bool} {v : Entry}
    (hfind : (t.datagram now d taken).table.find? d.source = some v) :
    (t.datagram now d taken).table.Recent d.source v ∅ := by
  have hput : ∀ (table : Lib.Lru E Entry) (w : Entry), (table.put d.source w).find? d.source = some v →
      (table.put d.source w).Recent d.source v ∅ := by
    intro table w hv
    obtain rfl : w = v := by simpa [Lib.Lru.find?, Lib.Lru.put] using hv
    exact table.recent_put d.source w
  unfold Flows.datagram at hfind ⊢
  split at hfind
  · exact hput _ _ hfind
  · rename_i hnone
    split at hfind
    · rename_i hacc
      rw [if_pos hacc]
      exact hput _ _ hfind
    · simp [hnone] at hfind

end Flows

/-- A Connection whose flow has not been displaced. -/
theorem Demux.Represents.spared {E : Type} [DecidableEq E] {s : Demux E} {t : Flows E} {source : E} {b : Nat}
    {D : Finset E} (h : s.Represents t) (hs : t.Spared source b D) :
    s.InTable b ∨ ∃ p, s.peers[b]? = some p ∧ p.mailbox.closed = true ∧ p.mailbox.cause ≠ .displaced := by
  rcases hs with ⟨v, rfl, hrecent⟩ | ⟨y, c, hy, hcause, hc⟩
  · have hmem := hrecent.mem
    rw [h.entries] at hmem
    obtain ⟨n, hn, he⟩ := List.mem_map.mp hmem
    exact .inl ⟨n, hn, congrArg (fun x => x.2.mailbox) he⟩
  · rw [h.flows, List.getElem?_map] at hy
    obtain ⟨p, hp, rfl⟩ := Option.map_eq_some_iff.mp hy
    cases hclosed : p.mailbox.closed with
    | true =>
        obtain rfl : p.mailbox.cause = c := by simpa [Peer.toFlow, hclosed] using hcause
        exact .inr ⟨p, hp, hclosed, hc⟩
    | false => simp [Peer.toFlow, hclosed] at hcause

end Taps
