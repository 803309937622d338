import Taps.Udp.Lemmas.Refused
import Taps.Udp.Timed

/-!
# When the entries were active

An entry is no older than the last datagram of its source that `receive_loop()` is done with, and what a sweep
evicts is older than the idle timeout. No other step evicts for idleness.
-/

/-! ## Mailboxes that are not closed for idleness -/

namespace Taps.Mailbox

variable {α : Type} {m m' m'' : Mailbox α}

/-- The Mailbox is not reopened, and it is not closed for idleness. -/
structure Stays (m m' : Mailbox α) : Prop where
  closed : m.closed = true → m'.closed = true ∧ m'.cause = m.cause
  idle : m.closed = false → m'.closed = true → m'.cause ≠ .idle

theorem stays_of_eq (hclosed : m'.closed = m.closed) (hcause : m'.cause = m.cause) : Stays m m' where
  closed h := ⟨hclosed.trans h, hcause⟩
  idle h h' := by
    rw [hclosed, h] at h'
    cases h'

theorem Stays.trans (h : Stays m m') (h' : Stays m' m'') : Stays m m'' where
  closed hm := ⟨(h'.closed (h.closed hm).1).1, (h'.closed (h.closed hm).1).2.trans (h.closed hm).2⟩
  idle hm hm'' := by
    cases hm' : m'.closed with
    | false => exact h'.idle hm' hm''
    | true =>
        rw [(h'.closed hm').2]
        exact h.idle hm hm'

theorem stays_close {cause : CloseCause} (h : cause ≠ .idle) (m : Mailbox α) : Stays m (m.close cause) where
  closed hm := ⟨rfl, if_pos hm⟩
  idle hm _ := by simpa [close, hm] using h

theorem stays_deliver (m : Mailbox α) (a : α) : Stays m (m.deliver a) := by
  apply stays_of_eq (closed_deliver m a)
  unfold deliver
  split <;> rfl

theorem stays_tryPop {a : α} (h : m.tryPop = some (a, m')) : Stays m m' := by
  obtain ⟨-, -, hclosed, hcause, -⟩ := tryPop_eq_some h
  exact stays_of_eq hclosed hcause

end Taps.Mailbox

namespace Taps.Demux

variable {E : Type} {s t u : Demux E} {b : Nat}

theorem stays_receive (p : Peer E) : p.mailbox.Stays p.receive.mailbox := by
  rcases p.receive_cases with ⟨d, m, hpop, h⟩ | ⟨-, -, h⟩ | ⟨-, -, h⟩
  · rw [h]
    exact Mailbox.stays_tryPop hpop
  · rw [h]
    exact Mailbox.stays_of_eq rfl rfl
  · rw [h]
    exact Mailbox.stays_of_eq rfl rfl

/-- No Mailbox is closed for idleness. -/
def Awake (s t : Demux E) : Prop :=
  ∀ (b : Nat) (p : Peer E), s.peers[b]? = some p →
    ∃ q : Peer E, t.peers[b]? = some q ∧ p.mailbox.Stays q.mailbox

theorem awake_of_eq (h : t.peers = s.peers) : Awake s t :=
  fun _ p hp => ⟨p, h ▸ hp, Mailbox.stays_of_eq rfl rfl⟩

theorem Awake.trans (h : Awake s t) (h' : Awake t u) : Awake s u := by
  intro b p hp
  obtain ⟨q, hq, hs⟩ := h b p hp
  obtain ⟨r, hr, hs'⟩ := h' b q hq
  exact ⟨r, hr, hs.trans hs'⟩

theorem awake_update {f : Peer E → Peer E} (hf : ∀ p : Peer E, p.mailbox.Stays (f p).mailbox) (b : Nat) :
    Awake s (s.update b f) := by
  intro b' p hp
  rw [getElem?_update, hp]
  refine ⟨_, rfl, ?_⟩
  split
  · exact hf p
  · exact Mailbox.stays_of_eq rfl rfl

theorem awake_release (s : Demux E) (b : Nat) : Awake s (s.release b) := by
  unfold release
  split
  · exact awake_of_eq rfl
  · split
    · exact awake_of_eq rfl
    · exact (awake_update (f := Peer.setReleased) (fun _ => Mailbox.stays_of_eq rfl rfl) b).trans
        (awake_of_eq rfl)

theorem awake_destroy (s : Demux E) (b : Nat) : Awake s (s.destroy b) :=
  (awake_release s b).trans (awake_update (f := Peer.destroy) (fun _ => Mailbox.stays_of_eq rfl rfl) b)

theorem awake_close (s : Demux E) (b : Nat) (aborted : Bool) : Awake s (s.close b aborted) :=
  (awake_update (f := fun p => p.shut aborted) (fun _ => Mailbox.stays_of_eq rfl rfl) b).trans
    (awake_release _ b)

theorem awake_handOver (s : Demux E) (b : Nat) : Awake s (s.handOver b) :=
  (awake_update (f := Peer.accept) (fun _ => Mailbox.stays_of_eq rfl rfl) b).trans (awake_of_eq rfl)

theorem awake_accept (s : Demux E) : Awake s s.accept := by
  unfold accept
  split
  · exact awake_handOver _ _
  · split <;> exact awake_of_eq rfl

theorem awake_trySend (h : s.trySend b = some t) : Awake s t := by
  unfold trySend at h
  split at h
  · cases h
  · split at h
    · cases h
      exact awake_handOver _ _
    · split at h
      · cases h
        exact awake_of_eq rfl
      · cases h

variable [DecidableEq E]

theorem awake_evict {cause : CloseCause} (h : cause ≠ .idle) (s : Demux E) (it : Nat) :
    Awake s (s.evict it cause) := by
  unfold evict
  split
  · exact awake_of_eq rfl
  · exact (awake_update (fun p => Mailbox.stays_close h p.mailbox) _).trans (awake_of_eq rfl)

theorem awake_makeRoom (s : Demux E) : Awake s s.makeRoom := by
  rcases s.makeRoom_evicts with h | ⟨it, h⟩
  · rw [h]
    exact awake_of_eq rfl
  · rw [h]
    exact awake_evict (by simp) s it

theorem awake_runRelease (s : Demux E) (h : Release E) : Awake s (s.runRelease h) := by
  rcases s.runRelease_evicts h with he | ⟨it, he⟩
  · rw [he]
    exact awake_of_eq rfl
  · rw [he]
    exact awake_evict (by simp) s it

theorem awake_connect (s : Demux E) (now : Int) (address : Addr) (d : Datagram E) :
    Awake s (s.connect now address d) := by
  have hadd : Awake s (s.add d.source address now) :=
    fun _ p hp => ⟨p, getElem?_add_of_some hp, Mailbox.stays_of_eq rfl rfl⟩
  unfold connect
  cases hsend : (s.add d.source address now).trySend s.peers.length with
  | some t =>
      simp only [hsend]
      exact (hadd.trans (awake_trySend hsend)).trans
        (awake_update (fun p => Mailbox.stays_deliver p.mailbox d) _)
  | none =>
      simp only [hsend]
      exact hadd.trans (awake_destroy _ _)

theorem awake_serve (s : Demux E) (now : Int) (address : Addr) (d : Datagram E) :
    Awake s (s.serve now address d) := by
  unfold serve
  split
  · split
    · exact awake_of_eq rfl
    · exact (awake_of_eq rfl).trans (awake_update (fun p => Mailbox.stays_deliver p.mailbox d) _)
  · split
    · exact (awake_makeRoom s).trans (awake_connect _ now address d)
    · exact awake_of_eq rfl

/-! ## The ages of the entries -/

theorem nodes_evict (s : Demux E) (it : Nat) (cause : CloseCause) :
    (s.evict it cause).table.nodes.Sublist s.table.nodes := by
  unfold evict
  split
  · exact List.Sublist.refl _
  · exact List.filter_sublist

theorem nodes_makeRoom (s : Demux E) : s.makeRoom.table.nodes.Sublist s.table.nodes := by
  rcases s.makeRoom_evicts with h | ⟨it, h⟩
  · rw [h]
  · rw [h]
    exact nodes_evict s it .displaced

theorem nodes_sweepIdle (s : Demux E) (cutoff : Int) (fuel : Nat) :
    (s.sweepIdle cutoff fuel).table.nodes.Sublist s.table.nodes := by
  apply sweepIdle_preserves (I := fun t : Demux E => t.table.nodes.Sublist s.table.nodes)
  · exact fun t n _ h => (nodes_evict t n.id .idle).trans h
  · exact List.Sublist.refl _

theorem nodes_runRelease (s : Demux E) (h : Release E) :
    (s.runRelease h).table.nodes.Sublist s.table.nodes := by
  rcases s.runRelease_evicts h with he | ⟨it, he⟩
  · rw [he]
  · rw [he]
    exact nodes_evict s it .owner

omit [DecidableEq E] in
theorem table_release (s : Demux E) (b : Nat) : (s.release b).table = s.table := by
  unfold release
  split
  · rfl
  · split <;> rfl

omit [DecidableEq E] in
theorem table_accept (s : Demux E) : s.accept.table = s.table := by
  unfold accept
  split
  · rfl
  · split <;> rfl

omit [DecidableEq E] in
theorem table_trySend (h : s.trySend b = some t) : t.table = s.table := by
  unfold trySend at h
  split at h
  · cases h
  · split at h
    · cases h
      rfl
    · split at h
      · cases h
        rfl
      · cases h

theorem table_connect (s : Demux E) (now : Int) (address : Addr) (d : Datagram E) :
    (s.connect now address d).table = (s.add d.source address now).table := by
  unfold connect
  cases hsend : (s.add d.source address now).trySend s.peers.length with
  | some t =>
      simp only [hsend]
      exact (table_trySend hsend :)
  | none =>
      simp only [hsend]
      exact (s.destroy_add d.source address now).2.1

/-- After a datagram an entry is another source's as it was, or it is the source's and active now. -/
theorem mem_nodes_serve (hi : s.Inv) {now : Int} {address : Addr} {d : Datagram E} {n : Lib.Node E Entry}
    (hn : n ∈ (s.serve now address d).table.nodes) :
    n ∈ s.table.nodes ∧ n.key ≠ d.source ∨ n.key = d.source ∧ n.value.lastActive = now := by
  unfold serve at hn
  cases hl : s.table.index.lookup d.source with
  | some it =>
      obtain ⟨x, hx, hkey, hderef⟩ := hi.agrees.deref_lookup hl
      simp only [hl, hderef] at hn
      rcases (hi.agrees.mem_touch hx).mp hn with rfl | ⟨hn, hne⟩
      · exact .inr ⟨hkey, rfl⟩
      · exact .inl ⟨hn, fun he => hne (hi.agrees.eq_of_key hn hx (he.trans hkey.symm))⟩
  | none =>
      have hother : ∀ {x : Lib.Node E Entry}, x ∈ s.table.nodes → x ∈ s.table.nodes ∧ x.key ≠ d.source :=
        fun hx => ⟨hx, hi.agrees.lookup_eq_none hl _ hx⟩
      simp only [hl] at hn
      split at hn
      · rw [table_connect] at hn
        rcases Lib.LinkedMap.mem_pushFront.mp hn with rfl | hn
        · exact .inr ⟨rfl, rfl⟩
        · exact .inl (hother ((nodes_makeRoom s).subset hn))
      · exact .inl (hother hn)

/-- What the loop over the back of the list does, whatever the order of the entries is. -/
theorem sweepIdle_eq (hi : s.Inv) (cutoff : Int) {fuel : Nat} (hfuel : s.table.nodes.length ≤ fuel) :
    s.sweepIdle cutoff fuel =
        (s.table.nodes.rtakeWhile fun n => n.value.lastActive < cutoff).reverse.foldl
          (fun u n => u.remove n .idle) s ∧
      (s.sweepIdle cutoff fuel).table.nodes =
        s.table.nodes.rdropWhile fun n => n.value.lastActive < cutoff := by
  induction fuel generalizing s with
  | zero =>
      have hnil := List.length_eq_zero_iff.mp (Nat.le_zero.mp hfuel)
      simp [sweepIdle, hnil]
  | succ fuel ih =>
      rcases List.eq_nil_or_concat' s.table.nodes with hnil | ⟨others, n, hnodes⟩
      · simp [sweepIdle, hnil]
      · have hn : n ∈ s.table.nodes := by simp [hnodes]
        have hlast : s.table.nodes.getLast? = some n := by simp [hnodes]
        have hothers : (s.remove n .idle).table.nodes = others := hi.agrees.nodes_erase_concat hnodes
        unfold sweepIdle
        simp only [hlast, hi.evict_eq hn]
        by_cases hold : n.value.lastActive < cutoff
        · have hlen : (s.remove n .idle).table.nodes.length ≤ fuel := by
            rw [hnodes, List.length_append] at hfuel
            rw [hothers]
            exact Nat.le_of_succ_le_succ hfuel
          obtain ⟨hevicted, hkept⟩ := ih (hi.remove hn .idle) hlen
          rw [hothers] at hevicted hkept
          rw [if_pos hold, hkept, hevicted, hnodes]
          simp [hold]
        · rw [if_neg hold, hnodes]
          simp [hold]

theorem lastActive_sweep (hi : s.Inv) {n : Lib.Node E Entry} (hn : n ∈ s.table.nodes)
    (hout : n ∉ (s.sweep now).table.nodes) : n.value.lastActive < s.cutoff now := by
  have hkept := (sweepIdle_eq hi (s.cutoff now) (Nat.le_refl _)).2
  rw [sweep, hkept] at hout
  have hsplit : (s.table.nodes.rdropWhile fun n => n.value.lastActive < s.cutoff now) ++
      (s.table.nodes.rtakeWhile fun n => n.value.lastActive < s.cutoff now) = s.table.nodes :=
    List.rdropWhile_append_rtakeWhile
  rw [← hsplit, List.mem_append] at hn
  have hold := List.mem_rtakeWhile_imp (hn.resolve_left hout)
  exact of_decide_eq_true hold

end Taps.Demux

namespace Taps.UDPDemux

variable {E : Type} [DecidableEq E] {s s' : UDPDemux E} {e : DemuxEvent E}

theorem Steps.awake (h : Steps s e s') (he : ∀ now, e ≠ .sweep now) : Demux.Awake s.demux s'.demux := by
  cases h with
  | arrive =>
      rw [demux_arrive]
      exact Demux.awake_of_eq rfl
  | @resume now address atCap sink outcome hl ha =>
      rcases resume_demux_cases hl now address atCap with ⟨d, -, hserve⟩ | ⟨-, hsame⟩
      · rw [hserve]
        exact Demux.awake_serve s.demux now address d
      · rw [hsame]
        exact Demux.awake_of_eq rfl
  | expire => exact Demux.awake_of_eq rfl
  | cancelled | sweep => exact absurd rfl (he _)
  | accept => exact Demux.awake_accept _
  | stop =>
      rw [demux_shutDownIfUnused]
      exact Demux.awake_of_eq rfl
  | @release i x hh =>
      rw [demux_shutDownIfUnused]
      have hunpost : Demux.Awake s.demux (s.demux.unpost i) := Demux.awake_of_eq rfl
      exact hunpost.trans (Demux.awake_runRelease _ x)
  | receive => exact Demux.awake_update Demux.stays_receive _
  | wake =>
      refine Demux.awake_update (fun p => ?_) _
      have hresume : p.mailbox.Stays p.mailbox.resume := Mailbox.stays_of_eq rfl rfl
      exact hresume.trans (Demux.stays_receive { p with mailbox := p.mailbox.resume } :)
  | close => exact Demux.awake_close _ _ _
  | destroy => exact Demux.awake_destroy _ _

/-- Only a turn of `receive_loop()` changes an entry or adds one, or moves it in the list. -/
theorem Steps.nodes_sublist (h : Steps s e s') (he : ¬ ∃ now address atCap, e = .resume now address atCap) :
    s'.demux.table.nodes.Sublist s.demux.table.nodes := by
  cases h with
  | resume => exact absurd ⟨_, _, _, rfl⟩ he
  | arrive => rw [demux_arrive]
  | stop =>
      rw [demux_shutDownIfUnused]
      exact List.Sublist.refl _
  | sweep =>
      rw [demux_shutDownIfUnused]
      exact Demux.nodes_sweepIdle ..
  | @release i x hh =>
      rw [demux_shutDownIfUnused]
      exact Demux.nodes_runRelease (s.demux.unpost i) x
  | accept => rw [Demux.table_accept]
  | close =>
      rw [Demux.close, Demux.table_release]
      exact List.Sublist.refl _
  | @destroy b p hp ho =>
      have htable : (s.demux.destroy b).table = s.demux.table := Demux.table_release s.demux b
      rw [htable]
  | expire | cancelled | receive | wake => exact List.Sublist.refl _

/-- An entry after a step is one from before, or `receive_loop()` has just served its source. -/
theorem Steps.mem_nodes (h : Steps s e s') (hi : s.demux.Inv) {n : Lib.Node E Entry}
    (hn : n ∈ s'.demux.table.nodes) :
    n ∈ s.demux.table.nodes ∧ (∀ d, s.Received d → (∃ now address atCap, e = .resume now address atCap) →
        n.key ≠ d.source) ∨
      ∃ now address atCap, e = .resume now address atCap ∧ n.value.lastActive = now := by
  by_cases he : ∃ now address atCap, e = .resume now address atCap
  · obtain ⟨now, address, atCap, rfl⟩ := he
    rcases h.resume_cases with ⟨d, hd, hserve⟩ | ⟨hnone, hsame⟩
    · rw [hserve] at hn
      rcases Demux.mem_nodes_serve hi hn with ⟨hn, hne⟩ | ⟨-, hnow⟩
      · refine .inl ⟨hn, fun d' hd' _ => ?_⟩
        cases hd.symm.trans hd'
        exact hne
      · exact .inr ⟨now, address, atCap, rfl, hnow⟩
    · rw [hsame] at hn
      exact .inl ⟨hn, fun d hd _ => absurd hd (hnone d)⟩
  · exact .inl ⟨(h.nodes_sublist he).subset hn, fun _ _ hr => absurd hr he⟩

end Taps.UDPDemux

/-! ## Reads that wait for the loop -/

namespace Taps.UDPDemux

variable {E : Type} [DecidableEq E] {s s' : UDPDemux E} {e : DemuxEvent E}

theorem Steps.read (h : Steps s e s') {source : E} (hr : source ∈ e.read) :
    ∃ sink d, s'.receiveLoop = .completed sink (.ok d) ∧ d.source = source := by
  cases h with
  | @arrive sink outcome hl ho =>
      match outcome, hr with
      | .ok (_, bytes), hr =>
          rw [List.mem_singleton.mp hr]
          exact ⟨sink, s.datagram sink _ bytes, rfl, rfl⟩
  | _ => cases hr

/-- A datagram that was read waits until the loop is resumed. -/
theorem Steps.waits_read (h : Steps s e s') {sink : Bool} {d : Datagram E}
    (hl : s.receiveLoop = .completed sink (.ok d)) :
    (∃ now address atCap, e = .resume now address atCap) ∨ s'.receiveLoop = .completed sink (.ok d) := by
  have hshut : ∀ t : UDPDemux E, t.receiveLoop = s.receiveLoop →
      t.shutDownIfUnused.receiveLoop = .completed sink (.ok d) := by
    intro t ht
    rcases (shutDownIfUnused_receiveLoop t).2 with h' | h'
    · rw [h', ht, hl]
    · rw [h', ht, hl]
      rfl
  cases h with
  | arrive hl' => cases hl'.symm.trans hl
  | resume => exact .inl ⟨_, _, _, rfl⟩
  | stop => exact .inr (hshut _ rfl)
  | sweep => exact .inr (hshut _ rfl)
  | release => exact .inr (hshut _ rfl)
  | expire | cancelled | accept | receive | wake | close | destroy => exact .inr hl

end Taps.UDPDemux

namespace Taps.TimedDemux

variable {E : Type} [DecidableEq E] {config : DemuxConfig} {s s' : TimedDemux E} {e : Int × DemuxEvent E}

theorem step_cases (h : s.step e = some s') :
    s.clock ≤ e.1 ∧ e.2.atTime e.1 = true ∧ UDPDemux.Steps s.udp e.2 s'.udp ∧ s'.clock = e.1 ∧
      s'.reads = s.reads ++ e.2.read.map fun source => (source, e.1) := by
  unfold step at h
  split at h
  · rename_i hguard
    obtain ⟨udp, hudp, rfl⟩ := Option.map_eq_some_iff.mp h
    exact ⟨hguard.1, hguard.2, UDPDemux.step_steps hudp, rfl, rfl⟩
  · cases h

/-- An entry is no older than the last datagram of its source that `receive_loop()` is done with. -/
structure Heard (s : TimedDemux E) : Prop where
  udp : s.udp.Inv
  past : ∀ source r, (source, r) ∈ s.reads → r ≤ s.clock
  active : ∀ n ∈ s.udp.demux.table.nodes,
    (∀ sink d, s.udp.receiveLoop = .completed sink (.ok d) → d.source ≠ n.key) →
    ∀ r, (n.key, r) ∈ s.reads → r ≤ n.value.lastActive

theorem step_heard (h : s.Heard) (hst : s.step e = some s') (hheeds : s.Heeds e.2) : s'.Heard := by
  obtain ⟨hclock, htime, hsteps, hclock', hreads⟩ := step_cases hst
  have hpast : ∀ source r, (source, r) ∈ s'.reads → (source, r) ∈ s.reads ∨ source ∈ e.2.read ∧ r = e.1 := by
    intro source r hr
    rw [hreads] at hr
    rcases List.mem_append.mp hr with hr | hr
    · exact .inl hr
    · obtain ⟨source', hsource, he⟩ := List.mem_map.mp hr
      cases he
      exact .inr ⟨hsource, rfl⟩
  refine ⟨hsteps.inv h.udp, fun source r hr => ?_, fun n hn hquiet r hr => ?_⟩
  · rw [hclock']
    rcases hpast source r hr with hr | ⟨-, rfl⟩
    · exact Int.le_trans (h.past source r hr) hclock
    · exact Int.le_refl _
  · have hold : (n.key, r) ∈ s.reads := by
      rcases hpast n.key r hr with hr | ⟨hread, -⟩
      · exact hr
      · obtain ⟨sink, d, hl, hd⟩ := hsteps.read hread
        exact absurd hd (hquiet sink d hl)
    rcases hsteps.mem_nodes h.udp.demux hn with ⟨hn, hserved⟩ | ⟨now, address, atCap, he, hnow⟩
    · refine h.active n hn (fun sink d hl hd => ?_) r hold
      rcases hsteps.waits_read hl with hresume | hl'
      · cases sink with
        | false => exact hserved d hl hresume hd.symm
        | true =>
            have hnone := hheeds.sources true d hl (.inl ⟨rfl, hresume⟩)
            exact h.udp.demux.agrees.lookup_eq_none hnone n hn hd.symm
      · exact hquiet sink d hl' hd
    · rw [he] at htime
      rw [hnow, show now = e.1 from of_decide_eq_true htime]
      exact Int.le_trans (h.past n.key r hold) hclock

theorem heard_of_reachable (h : ((system config).restrict fun s e _ => s.Heeds e.2).Reachable s) :
    s.Heard := by
  refine h.invariant (I := Heard) ?_ ?_
  · rintro s ⟨atCap, clock, rfl⟩
    exact ⟨UDPDemux.create_inv config atCap, by simp [create], by simp [create]⟩
  · rintro s e s' h ⟨hst, hheeds⟩
    exact step_heard h hst hheeds

end Taps.TimedDemux
