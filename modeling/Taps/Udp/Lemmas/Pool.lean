import Mathlib.Algebra.Order.BigOperators.Group.Finset
import Taps.Udp.Footprint
import Taps.Udp.Lemmas.Posted

/-!
# Lemmas on the blocks of a UDP Listener

What each step does to the number of blocks that datagrams are in.
-/

namespace Taps

namespace Peer

variable {E : Type} {p q : Peer E}

theorem Later.contents (h : p.Later q) : ∃ r, p.mailbox.contents = r ++ q.mailbox.contents := by
  obtain ⟨r, new, -, henqueued, hcontents, -⟩ := h.continues
  have hnew : new = [] := by
    rw [h.enqueued] at henqueued
    simpa using henqueued
  rw [hnew, List.append_nil] at hcontents
  exact ⟨_, hcontents.symm⟩

theorem Later.blocks_le (h : p.Later q) : q.blocks ≤ p.blocks := by
  obtain ⟨r, hr⟩ := h.contents
  rw [blocks, blocks, hr, List.filter_append, List.length_append]
  exact Nat.le_add_left _ _

theorem blocks_deliver_le (p : Peer E) (d : Datagram E) :
    (p.deliver d).blocks ≤ p.blocks + if d.payload = [] then 0 else 1 := by
  rcases p.deliver_cases d with ⟨-, h⟩ | ⟨-, r, q, hcontents, hdeliver, -, h⟩
  · rw [h]
    exact Nat.le_add_right _ _
  · have hblocks : (p.deliver d).blocks = ((q ++ [d]).filter fun d => d.payload ≠ []).length := by
      rw [blocks, h]
      exact congrArg (fun l => (l.filter fun d : Datagram E => d.payload ≠ []).length) hdeliver
    rw [hblocks, blocks, hcontents, List.filter_append, List.filter_append, List.length_append, List.length_append]
    split
    · rename_i hempty
      simp [hempty]
    · rename_i hsome
      simp [hsome]

/-- What a receive takes leaves the Mailbox. -/
theorem blocks_receive (p : Peer E) : p.receive.blocks + p.taken.length = p.blocks := by
  rcases p.receive_cases with ⟨d, m, hpop, h⟩ | ⟨hnil, -, h⟩ | ⟨hnil, -, h⟩
  · have hcontents := (Mailbox.tryPop_eq_some hpop).1
    rw [h, blocks, blocks, taken, hcontents]
    by_cases hempty : d.payload = []
    · simp [hempty]
    · simp [hempty]
  · simp [h, blocks, taken, hnil]
  · have hwait : p.mailbox.wait.contents = p.mailbox.contents := rfl
    simp [h, blocks, taken, hnil, hwait]

theorem blocks_wake (p : Peer E) : p.wake.blocks + p.taken.length = p.blocks :=
  blocks_receive { p with mailbox := p.mailbox.resume }

end Peer

namespace Demux

variable {E : Type} {s t : Demux E} {b : Nat} {p : Peer E} {d : Datagram E}

theorem blocks_of_length_le (h : s.peers.length ≤ b) : s.blocks b = 0 := by
  rw [blocks, List.getElem?_eq_none h, Option.elim_none]

/-- The sum may go on behind the last Mailbox. -/
theorem queuedBlocks_eq {n : Nat} (h : s.peers.length ≤ n) : s.queuedBlocks = ∑ b ∈ Finset.range n, s.blocks b := by
  refine Finset.sum_subset (Finset.range_subset_range.mpr h) fun b _ hb => blocks_of_length_le ?_
  simpa using hb

theorem queuedBlocks_le (hlen : s.peers.length ≤ t.peers.length) (h : ∀ b, t.blocks b ≤ s.blocks b) :
    t.queuedBlocks ≤ s.queuedBlocks := by
  rw [queuedBlocks_eq hlen]
  exact Finset.sum_le_sum fun b _ => h b

/-- Only the `b`-th Mailbox changes. -/
theorem queuedBlocks_update (f : Peer E → Peer E) (hb : b < s.peers.length) :
    (s.update b f).queuedBlocks + s.blocks b = s.queuedBlocks + (s.update b f).blocks b := by
  have hmem : b ∈ Finset.range s.peers.length := Finset.mem_range.mpr hb
  have hlen : (s.update b f).peers.length = s.peers.length := List.length_modify ..
  have hrest : ∑ x ∈ (Finset.range s.peers.length).erase b, (s.update b f).blocks x =
      ∑ x ∈ (Finset.range s.peers.length).erase b, s.blocks x := by
    refine Finset.sum_congr rfl fun x hx => ?_
    rw [blocks, blocks, getElem?_update_ne (Finset.ne_of_mem_erase hx).symm]
    rfl
  have hnew := Finset.add_sum_erase _ (s.update b f).blocks hmem
  have hold := Finset.add_sum_erase _ s.blocks hmem
  rw [queuedBlocks, queuedBlocks, hlen]
  omega

variable [DecidableEq E] {G : List (Release E) → E → Addr → Prop}

theorem Move.inTable (h : Move G s t) (hp : s.peers[b]? = some p) (hb : t.InTable b) : s.InTable b := by
  cases h with
  | channel | enqueue | act | post | unpost => exact hb
  | touch now hn => exact (frame_touch s hn now).table b hb
  | remove cause hn =>
      obtain ⟨x, hx, hxb⟩ := hb
      exact ⟨x, (Lib.LinkedMap.mem_erase.mp hx).1, hxb⟩
  | add now =>
      obtain ⟨x, hx, hxb⟩ := hb
      rcases Lib.LinkedMap.mem_pushFront.mp hx with rfl | hx
      · obtain ⟨hlt, -⟩ := List.getElem?_eq_some_iff.mp hp
        exact absurd hxb (Nat.ne_of_gt hlt)
      · exact ⟨x, hx, hxb⟩

theorem Move.blocks_le (h : Move G s t) (b : Nat) : t.blocks b ≤ s.blocks b := by
  unfold Demux.blocks
  cases hq : t.peers[b]? with
  | none => exact Nat.zero_le _
  | some q =>
      rcases h.peers hq with ⟨p, hp, hl⟩ | ⟨-, source, address, rfl, -⟩
      · simp only [hp, Option.elim_some]
        split
        · rename_i hkept
          have hkept' : p.place ≠ .destroyed ∨ s.InTable b := hkept.imp (mt hl.destroyed) (h.inTable hp)
          rw [if_pos hkept']
          exact hl.blocks_le
        · exact Nat.zero_le _
      · have hnone : (Peer.create source address).blocks = 0 := rfl
        simp [hnone]

theorem Move.length_le (h : Move G s t) : s.peers.length ≤ t.peers.length := by
  by_contra hlt
  have hsome : ∃ p, s.peers[t.peers.length]? = some p := ⟨_, List.getElem?_eq_getElem (Nat.lt_of_not_le hlt)⟩
  obtain ⟨p, hp⟩ := hsome
  obtain ⟨q, hq, -⟩ := h.exists_later hp
  simp at hq

theorem Moves.queuedBlocks_le (h : Moves G s t) : t.queuedBlocks ≤ s.queuedBlocks := by
  induction h with
  | refl => exact Nat.le_refl _
  | tail _ hm ih => exact (Demux.queuedBlocks_le hm.length_le hm.blocks_le).trans ih

theorem Serves.queuedBlocks_le (h : Serves G d s t) :
    t.queuedBlocks ≤ s.queuedBlocks + if d.payload = [] then 0 else 1 := by
  cases h with
  | dropped hm => exact Nat.le_add_right_of_le hm.queuedBlocks_le
  | @delivered u b p hm hp hs =>
      have hlt : b < u.peers.length := (List.getElem?_eq_some_iff.mp hp).1
      have hupdate := queuedBlocks_update (fun p => p.deliver d) hlt
      have hmoves := hm.queuedBlocks_le
      have hle : (u.update b fun p => p.deliver d).blocks b ≤ u.blocks b + if d.payload = [] then 0 else 1 := by
        have hdeliver := p.blocks_deliver_le d
        have hplace : (p.deliver d).place = p.place := rfl
        rw [blocks, blocks, getElem?_update_self hp, hp, Option.elim_some, Option.elim_some, hplace]
        change (if p.place ≠ .destroyed ∨ u.InTable b then _ else _) ≤ _
        split
        · exact hdeliver
        · exact Nat.zero_le _
      omega

end Demux

namespace UDPDemux

variable {E : Type} {s s' : UDPDemux E} {e : DemuxEvent E}

theorem queuedBlocks_receive {b : Nat} {p : Peer E} (hp : s.demux.peers[b]? = some p) (ho : p.place = .application)
    {f : Peer E → Peer E} (hplace : (f p).place = p.place) (hblocks : (f p).blocks + p.taken.length = p.blocks) :
    (s.demux.update b f).queuedBlocks + p.taken.length = s.demux.queuedBlocks := by
  have hlt : b < s.demux.peers.length := (List.getElem?_eq_some_iff.mp hp).1
  have hupdate := Demux.queuedBlocks_update f hlt
  have hold : s.demux.blocks b = p.blocks := by
    simp [Demux.blocks, hp, ho]
  have hnew : (s.demux.update b f).blocks b = (f p).blocks := by
    simp [Demux.blocks, Demux.getElem?_update_self hp, hplace, ho]
  omega

@[simp] theorem blocks_abort (l : ReceiveLoop E) : l.abort.blocks = l.blocks := by
  cases l with
  | pending sink => cases sink <;> rfl
  | completed | returned => rfl

theorem blocks_shutDownIfUnused (s : UDPDemux E) :
    s.shutDownIfUnused.receiveLoop.blocks = s.receiveLoop.blocks := by
  rcases s.shutDownIfUnused_receiveLoop.2 with h | h
  · rw [h]
  · rw [h, blocks_abort]

theorem blocks_arrive {sink : Bool} (hl : s.receiveLoop = .pending sink) (outcome : Except ErrorCode (E × List Byte)) :
    (s.arrive sink outcome).receiveLoop.blocks = s.receiveLoop.blocks := by
  rw [hl]
  cases outcome <;> cases sink <;> rfl

variable [DecidableEq E]

/-- A step without a turn of `receive_loop()` leaves as many blocks as there are, or fewer. -/
theorem Steps.datagramBlocks (h : Steps s e s') (hi : s.demux.Inv)
    (he : ∀ now address atCap, e ≠ .resume now address atCap) :
    s'.demux.queuedBlocks + (PooledDemux.received s e).length ≤ s.demux.queuedBlocks := by
  have hmoves : s'.demux.queuedBlocks ≤ s.demux.queuedBlocks := by
    rcases h.serves (G := fun _ _ _ => True) hi (fun _ _ _ _ _ _ _ _ => trivial) with
      hm | ⟨-, -, ⟨now, address, atCap, hresume⟩, -⟩
    · exact hm.queuedBlocks_le
    · exact absurd hresume (he now address atCap)
  cases h with
  | receive hp ho =>
      have hblocks := queuedBlocks_receive hp ho rfl (Peer.blocks_receive _)
      simp only [PooledDemux.received, hp, Option.elim_some]
      exact Nat.le_of_eq hblocks
  | wake hp ho =>
      have hblocks := queuedBlocks_receive hp ho rfl (Peer.blocks_wake _)
      simp only [PooledDemux.received, hp, Option.elim_some]
      exact Nat.le_of_eq hblocks
  | arrive | resume | expire | cancelled | sweep | accept | stop | release | close | destroy => exact hmoves

theorem Steps.loopBlocks (h : Steps s e s') (he : ∀ now address atCap, e ≠ .resume now address atCap) :
    s'.receiveLoop.blocks = s.receiveLoop.blocks := by
  cases h with
  | arrive hl ho => exact blocks_arrive hl _
  | resume => exact absurd rfl (he _ _ _)
  | expire | cancelled | accept | receive | wake | close | destroy => rfl
  | sweep | stop | release => exact blocks_shutDownIfUnused _

/-- A turn of `receive_loop()` puts its block into a Mailbox, or gives it back. -/
theorem resume_datagramBlocks {now : Int} {address : Addr} {atCap : Bool}
    (h : Steps s (.resume now address atCap) s') (hi : s.demux.Inv) :
    s'.demux.queuedBlocks ≤ s.demux.queuedBlocks + s.receiveLoop.blocks := by
  rcases h.resume_cases with ⟨d, hd, -⟩ | ⟨-, hsame⟩
  · rcases h.serves (G := fun _ _ _ => True) hi (fun _ _ _ _ _ _ _ _ => trivial) with
      hm | ⟨d', hd', -, hserves⟩
    · exact Nat.le_add_right_of_le hm.queuedBlocks_le
    · have hone : s.receiveLoop.blocks = 1 := by rw [show s.receiveLoop = _ from hd]; rfl
      have hle := hserves.queuedBlocks_le
      rw [hone]
      split at hle <;> omega
  · rw [hsame]
    exact Nat.le_add_right _ _

/-- After it, the loop has a block if and only if the pool has one for it. -/
theorem resume_loopBlocks {now : Int} {address : Addr} {atCap : Bool}
    (h : Steps s (.resume now address atCap) s') :
    s'.receiveLoop.blocks ≤ (if atCap then 0 else 1) ∧
      ∀ sink, s'.receiveLoop = .pending sink → sink = atCap := by
  cases h with
  | @resume _ _ _ sink outcome hl ha =>
      by_cases ho : outcome = .error .operationAborted
      · subst ho
        rw [resume_aborted]
        exact ⟨Nat.zero_le _, fun _ hp => by cases hp⟩
      · rw [receiveLoop_resume ho]
        split
        · refine ⟨by cases atCap <;> simp [ReceiveLoop.blocks], fun _ hp => ?_⟩
          cases hp
          rfl
        · exact ⟨by cases atCap <;> simp [ReceiveLoop.blocks], fun _ hp => by cases hp⟩

end UDPDemux

namespace PooledDemux

variable {E : Type} [DecidableEq E] {config : DemuxConfig} {cap : Nat} {s s' : PooledDemux E}

theorem full_eq_false {cap live : Nat} (hcap : 0 < cap) : full cap live = false ↔ live < cap := by
  simp [full, Nat.pos_iff_ne_zero.mp hcap]

structure Inv (s : PooledDemux E) : Prop where
  udp : s.udp.Inv
  bound : 0 < s.cap → s.liveBlocks ≤ s.cap

/-- A step of the strand or the application, and what the pool says in it. -/
theorem step_strand {e : DemuxEvent E} (h : s.step (.strand e) = some s') :
    UDPDemux.Steps s.udp e s'.udp ∧ s'.cap = s.cap ∧ s'.held = s.held ++ received s.udp e ∧
      ∀ now address atCap, e = .resume now address atCap → atCap = full s.cap s'.datagramBlocks := by
  simp only [step] at h
  cases hst : s.udp.step e with
  | none => simp [hst] at h
  | some udp =>
      simp only [hst] at h
      split at h
      · rename_i hdecides
        cases h
        refine ⟨UDPDemux.step_steps hst, rfl, rfl, ?_⟩
        rintro now address atCap rfl
        simpa [decides] using hdecides
      · cases h

theorem resume_bound {now : Int} {address : Addr} {atCap : Bool} (hi : s.Inv) (hcap : 0 < s.cap)
    (h : s.step (.strand (.resume now address atCap)) = some s') :
    s'.datagramBlocks ≤ s.cap ∧ s'.liveBlocks ≤ s.cap ∧
      ∀ sink, s'.udp.receiveLoop = .pending sink → (sink = true ↔ s'.datagramBlocks = s.cap) := by
  obtain ⟨hst, -, hheld, hfull⟩ := step_strand h
  have hbound := hi.bound hcap
  have hheld : s'.held = s.held := by simpa [received] using hheld
  have hqueued := UDPDemux.resume_datagramBlocks hst hi.udp.demux
  obtain ⟨hloop, hsink⟩ := UDPDemux.resume_loopBlocks hst
  have hfull := hfull now address atCap rfl
  have hdata : s'.datagramBlocks ≤ s.cap := by
    simp only [datagramBlocks, liveBlocks, hheld] at hbound ⊢
    omega
  refine ⟨hdata, ?_, fun sink hp => ?_⟩
  · cases atCap with
    | true =>
        rw [if_pos rfl] at hloop
        simp only [liveBlocks]
        omega
    | false =>
        have hlt := (full_eq_false hcap).mp hfull.symm
        simp only [Bool.false_eq_true, if_false] at hloop
        simp only [liveBlocks]
        omega
  · rw [hsink sink hp]
    cases atCap with
    | true =>
        have hge : ¬ s'.datagramBlocks < s.cap := fun hlt => by
          rw [(full_eq_false hcap).mpr hlt] at hfull
          cases hfull
        simp only [true_iff]
        omega
    | false =>
        have hlt := (full_eq_false hcap).mp hfull.symm
        simp only [Bool.false_eq_true, false_iff]
        omega

theorem step_inv {e : PooledEvent E} (hi : s.Inv) (h : s.step e = some s') : s'.Inv := by
  cases e with
  | strand e =>
      obtain ⟨hst, hcap, hheld, -⟩ := step_strand h
      refine ⟨hst.inv hi.udp, fun hpos => ?_⟩
      rw [hcap] at hpos ⊢
      by_cases he : ∃ now address atCap, e = .resume now address atCap
      · obtain ⟨now, address, atCap, rfl⟩ := he
        exact (resume_bound hi hpos h).2.1
      · have he : ∀ now address atCap, e ≠ .resume now address atCap :=
          fun now address atCap heq => he ⟨now, address, atCap, heq⟩
        have hqueued := hst.datagramBlocks hi.udp.demux he
        have hloop := hst.loopBlocks he
        have hbound := hi.bound hpos
        simp only [liveBlocks, datagramBlocks, hheld, List.length_append] at hbound ⊢
        omega
  | drop i =>
      simp only [step] at h
      split at h
      · cases h
        refine ⟨hi.udp, fun hpos => ?_⟩
        have hbound := hi.bound hpos
        have hlen := List.length_eraseIdx_le s.held i
        simp only [liveBlocks, datagramBlocks] at hbound ⊢
        omega
      · cases h

theorem create_inv (config : DemuxConfig) (cap : Nat) : (create (E := E) config cap).Inv where
  udp := UDPDemux.create_inv config _
  bound hcap := by
    have hfull : full cap 0 = false := (full_eq_false hcap).mpr hcap
    simp only [liveBlocks, datagramBlocks, create, hfull, UDPDemux.create]
    exact hcap

theorem reachable_inv (h : (system config cap).Reachable s) : s.Inv ∧ s.cap = cap := by
  refine h.invariant (I := fun s => s.Inv ∧ s.cap = cap) (fun s hs => ?_) fun s e s' hs hst => ?_
  · obtain rfl := hs
    exact ⟨create_inv config cap, rfl⟩
  · refine ⟨step_inv hs.1 hst, ?_⟩
    cases e with
    | strand e => exact (step_strand hst).2.1.trans hs.2
    | drop i =>
        simp only [system, step] at hst
        split at hst
        · cases hst
          exact hs.2
        · cases hst

end PooledDemux

end Taps
