import Taps.Udp.Lemmas.Active
import Taps.Udp.Lemmas.Loops
import Taps.Udp.Network

/-!
# Lemmas on the network of a UDP Listener
-/

namespace Taps

/-! ## The calls of an active connection -/

/-- The datagram that a call has, or has returned. -/
def ActiveCall.datagram {E : Type} : ActiveCall E → Option (Datagram E)
  | receiving _ (.completed (.ok d)) => some d
  | received (.ok d) => some d
  | _ => none

namespace ActiveUDP

variable {σ E : Type} {s s' : ActiveUDP σ E} {e : ActiveEvent E} {i j : Nat} {d d' : Datagram E}

theorem arrivals_arrive (s : ActiveUDP σ E) (i : Nat) (block : BlockRef)
    (outcome : Except ErrorCode (E × List Byte)) :
    (s.arrive i block outcome).arrivals = s.arrivals ++ (ActiveEvent.arrive i outcome).arrival.toList := by
  cases outcome with
  | error => exact (List.append_nil _).symm
  | ok q => rfl

theorem step_arrivals (h : s.step e = some s') : s'.arrivals = s.arrivals ++ e.arrival.toList := by
  cases e with
  | send | receive | close | abort =>
      cases h
      exact (List.append_nil _).symm
  | transmit i outcome =>
      simp only [step] at h
      split at h
      · cases h
      · cases h
        exact (List.append_nil _).symm
      · cases h
  | arrive i outcome =>
      simp only [step] at h
      split at h
      · cases h
      · cases h
        exact arrivals_arrive ..
      · cases h
  | resume i =>
      simp only [step] at h
      split at h
      · cases h
        exact (List.append_nil _).symm
      · cases h
        exact (List.append_nil _).symm
      · cases h

/-- The `i`-th call has this datagram. -/
def Holds (s : ActiveUDP σ E) (i : Nat) (d : Datagram E) : Prop := ∃ c, s.calls[i]? = some c ∧ c.datagram = some d

theorem holds_push {c : ActiveCall E} (hcalls : s'.calls = s.calls ++ [c]) (hc : c.datagram = none)
    (h : s'.Holds i d) : s.Holds i d := by
  obtain ⟨c', hc', hd⟩ := h
  rw [hcalls, List.getElem?_append] at hc'
  split at hc'
  · exact ⟨c', hc', hd⟩
  · obtain rfl := List.mem_singleton.mp (List.mem_of_getElem? hc')
    rw [hc] at hd
    cases hd

theorem holds_set {c' : ActiveCall E} (hcalls : s'.calls = s.calls.set i c')
    (h : s'.Holds j d) : s.Holds j d ∨ i = j ∧ c'.datagram = some d := by
  obtain ⟨x, hx, hd⟩ := h
  rw [hcalls, List.getElem?_set] at hx
  split at hx
  · rename_i hij
    split at hx
    · cases hx
      exact .inr ⟨hij, hd⟩
    · cases hx
  · exact .inl ⟨x, hx, hd⟩

theorem datagram_cancel (c : ActiveCall E) : c.cancel.datagram = c.datagram := by
  cases c with
  | receiving block op => cases op <;> rfl
  | sending | sent | received | closed | aborted => rfl

theorem holds_closeSocket : s.closeSocket.Holds i d ↔ s.Holds i d := by
  simp only [Holds, closeSocket, List.getElem?_map, Option.map_eq_some_iff]
  constructor
  · rintro ⟨_, ⟨c, hc, rfl⟩, hd⟩
    exact ⟨c, hc, datagram_cancel c ▸ hd⟩
  · rintro ⟨c, hc, hd⟩
    exact ⟨_, ⟨c, hc, rfl⟩, (datagram_cancel c).trans hd⟩

theorem datagram_start (block : BlockRef) (isOpen : Bool) (ec : ErrorCode) :
    (ActiveCall.receiving (E := E) block (.start isOpen ec)).datagram = none := by
  cases isOpen <;> rfl

theorem holds_arrive {block : BlockRef} {outcome : Except ErrorCode (E × List Byte)}
    (h : (s.arrive j block outcome).Holds i d) :
    s.Holds i d ∨ d.seq = s.arrivals.length ∧ ∃ q, ActiveEvent.arrive j outcome = .arrive i (.ok q) := by
  cases outcome with
  | error =>
      rcases holds_set rfl h with hold | ⟨-, hnew⟩
      · exact .inl hold
      · cases hnew
  | ok q =>
      rcases holds_set rfl h with hold | ⟨rfl, hnew⟩
      · exact .inl hold
      · cases hnew
        exact .inr ⟨rfl, q, rfl⟩

/-- A step gives no call a datagram, but for the one that arrives. -/
theorem step_holds (h : s.step e = some s') (hd : s'.Holds i d) :
    s.Holds i d ∨ d.seq = s.arrivals.length ∧ ∃ q, e = .arrive i (.ok q) := by
  cases e with
  | send mem message =>
      cases h
      obtain ⟨c, hcalls, ⟨size, op, rfl⟩ | ⟨r, rfl⟩⟩ := s.calls_send mem message
      · exact .inl (holds_push hcalls rfl hd)
      · exact .inl (holds_push hcalls rfl hd)
  | receive live fresh =>
      cases h
      refine .inl (holds_push (s := s) rfl ?_ hd)
      split
      · exact datagram_start ..
      · rfl
  | close ec | abort ec =>
      cases h
      exact .inl (holds_closeSocket.mp (holds_push (s := s.closeSocket) rfl rfl hd))
  | transmit k outcome =>
      simp only [step] at h
      split at h
      · cases h
      · rename_i hk _
        cases h
        rcases holds_set rfl hd with hold | ⟨-, hnew⟩
        · exact .inl hold
        · cases hnew
      · cases h
  | arrive k outcome =>
      simp only [step] at h
      split at h
      · cases h
      · rename_i block hk hne
        cases h
        exact holds_arrive hd
      · cases h
  | resume k =>
      simp only [step] at h
      split at h
      · rename_i hk
        cases h
        rcases holds_set rfl hd with hold | ⟨-, hnew⟩
        · exact .inl hold
        · cases hnew
      · rename_i block outcome hk
        cases h
        rcases holds_set rfl hd with hold | ⟨rfl, hnew⟩
        · exact .inl hold
        · refine .inl ⟨_, hk, ?_⟩
          cases outcome with
          | error => cases hnew
          | ok d => exact hnew
      · cases h

theorem Inv.holds (hi : s.Inv) (hd : s.Holds i d) : s.Arrived d := by
  obtain ⟨c, hc, hdatagram⟩ := hd
  have hcall := hi c (List.mem_of_getElem? hc)
  cases c with
  | receiving block op =>
      cases op with
      | pending => cases hdatagram
      | completed outcome =>
          cases outcome with
          | error => cases hdatagram
          | ok d' =>
              cases hdatagram
              exact hcall.completed _ _ rfl
  | received r =>
      cases r with
      | error => cases hdatagram
      | ok d' =>
          cases hdatagram
          exact hcall.received _ rfl
  | sending | sent | closed | aborted => cases hdatagram

/-- No two calls have the same datagram. -/
theorem distinct_of_reachable (h : (system σ E).Reachable s) (hd : s.Holds i d) (hd' : s.Holds j d')
    (hseq : d.seq = d'.seq) : i = j := by
  have hboth := h.invariant (I := fun s : ActiveUDP σ E => s.Inv ∧ ∀ (i j : Nat) (d d' : Datagram E),
    s.Holds i d → s.Holds j d' → d.seq = d'.seq → i = j) ?_ ?_
  · exact hboth.2 i j d d' hd hd' hseq
  · rintro _ ⟨framer, framerState, remoteEndpoint, blockPool, rfl⟩
    exact ⟨fun c hc => (by cases hc), fun i j d d' ⟨c, hc, _⟩ => by cases hc⟩
  · rintro s e s' ⟨hi, hdistinct⟩ hst
    refine ⟨step_inv hi hst, fun i j d d' hd hd' hseq => ?_⟩
    have hlt : ∀ {i : Nat} {d : Datagram E}, s.Holds i d → d.seq < s.arrivals.length :=
      fun hd => (List.getElem?_eq_some_iff.mp (hi.holds hd).1).1
    rcases step_holds hst hd with hold | ⟨hnew, q, he⟩
    · rcases step_holds hst hd' with hold' | ⟨hnew', q', he'⟩
      · exact hdistinct i j d d' hold hold' hseq
      · exact absurd (hlt hold) (by omega)
    · rcases step_holds hst hd' with hold' | ⟨hnew', q', he'⟩
      · exact absurd (hlt hold') (by omega)
      · rw [he] at he'
        cases he'
        rfl

end ActiveUDP

/-! ## The sources of the Connections -/

namespace Demux

variable {E : Type} [DecidableEq E] {s t : Demux E} {P : E → Prop}

theorem Move.sources (h : Move (fun _ source _ => P source) s t) (hs : ∀ p ∈ s.peers, P p.source) :
    ∀ p ∈ t.peers, P p.source := by
  intro q hq
  obtain ⟨b, hq⟩ := List.mem_iff_getElem?.mp hq
  have hlater : ∀ {p : Peer E}, s.peers[b]? = some p → p.Later q → P q.source :=
    fun hp hl => hl.source ▸ hs _ (List.mem_of_getElem? hp)
  cases h with
  | add now hacc hl hlen hlive hG =>
      rcases eq_of_getElem?_add hq with ⟨-, hq⟩ | ⟨-, rfl⟩
      · exact hs q (List.mem_of_getElem? hq)
      · exact hG
  | channel | enqueue | touch | unpost => exact hs q (List.mem_of_getElem? hq)
  | act f hp hf _ =>
      obtain ⟨p, hp, hl⟩ := later_update hp hf.toLater hq
      exact hlater hp hl
  | remove cause hn =>
      obtain ⟨p, hp, ⟨-, rfl⟩ | ⟨-, rfl⟩⟩ := eq_of_getElem?_update hq
      · exact hs p (List.mem_of_getElem? hp)
      · exact hs q (List.mem_of_getElem? hp)
  | post hp hplace =>
      obtain ⟨p, hp, hl⟩ := later_update hp (Peer.acts_own _ _ id).toLater hq
      exact hlater hp hl

theorem Moves.sources (h : Moves (fun _ source _ => P source) s t) (hs : ∀ p ∈ s.peers, P p.source) :
    ∀ p ∈ t.peers, P p.source := by
  induction h with
  | refl => exact hs
  | tail _ hm ih => exact hm.sources ih

theorem Serves.sources {d : Datagram E} (h : Serves (fun _ source _ => P source) d s t)
    (hs : ∀ p ∈ s.peers, P p.source) : ∀ p ∈ t.peers, P p.source := by
  cases h with
  | dropped h => exact h.sources hs
  | delivered h hp _ =>
      intro q hq
      obtain ⟨b, hq⟩ := List.mem_iff_getElem?.mp hq
      obtain ⟨p, hp, ⟨-, rfl⟩ | ⟨-, rfl⟩⟩ := eq_of_getElem?_update hq
      · exact h.sources hs p (List.mem_of_getElem? hp)
      · exact h.sources hs q (List.mem_of_getElem? hp)

end Demux

namespace UDPDemux

variable {E : Type} [DecidableEq E] {s s' : UDPDemux E} {e : DemuxEvent E}

theorem Steps.step_arrivals (h : Steps s e s') : s'.arrivals = s.arrivals ++ e.arrival.toList := by
  cases h with
  | @arrive sink outcome hl ho =>
      cases outcome with
      | error => exact (List.append_nil _).symm
      | ok q => rfl
  | resume => exact (arrivals_resume ..).trans (List.append_nil _).symm
  | sweep | stop | release => exact (shutDownIfUnused_receiveLoop _).1.trans (List.append_nil _).symm
  | _ => exact (List.append_nil _).symm

/-- A datagram of the source has arrived. -/
def Heard (s : UDPDemux E) (source : E) : Prop := ∃ a ∈ s.arrivals, a.1 = source

theorem heard_of_reachable {config : DemuxConfig} (h : (system config).Reachable s) :
    ∀ p ∈ s.demux.peers, s.Heard p.source := by
  have hboth := h.invariant (I := fun s : UDPDemux E => s.Inv ∧ ∀ p ∈ s.demux.peers, s.Heard p.source) ?_ ?_
  · exact hboth.2
  · rintro s ⟨atCap, rfl⟩
    exact ⟨create_inv config atCap, fun p hp => by cases hp⟩
  · rintro s e s' ⟨hi, hs⟩ hst
    have hsteps := step_steps hst
    refine ⟨hsteps.inv hi, ?_⟩
    have hmono : ∀ source, s.Heard source → s'.Heard source := by
      rintro source ⟨a, ha, hsource⟩
      exact ⟨a, by rw [hsteps.step_arrivals]; exact List.mem_append_left _ ha, hsource⟩
    have hpermits : Permits (fun _ source _ => s.Heard source) s e :=
      fun now address atCap d he hd _ _ => ⟨_, List.mem_of_getElem? (hi.received d hd).1, rfl⟩
    rcases hsteps.serves hi.demux hpermits with hm | ⟨d, -, -, hserves⟩
    · exact fun p hp => hmono _ (hm.sources hs p hp)
    · exact fun p hp => hmono _ (hserves.sources hs p hp)

/-- No two receives return the same datagram. -/
theorem returned_distinct (hi : s.Inv) :
    (s.demux.peers.flatMap Peer.returned).Pairwise fun d d' => d.seq ≠ d'.seq := by
  have hacc : ∀ p ∈ s.demux.peers, p.Accounted := by
    intro p hp
    obtain ⟨b, hb⟩ := List.mem_iff_getElem?.mp hp
    exact hi.demux.accounted b p hb
  refine List.pairwise_flatMap.mpr ⟨fun p hp => (hacc p hp).returned_order.imp Nat.ne_of_lt, ?_⟩
  rw [List.pairwise_iff_getElem]
  intro b b' hb hb' hlt d hd d' hd'
  have henq := (hacc _ (List.getElem_mem hb)).returned_subset d hd
  have henq' := (hacc _ (List.getElem_mem hb')).returned_subset d' hd'
  exact hi.demux.disjoint b b' _ _ (List.getElem?_eq_getElem hb) (List.getElem?_eq_getElem hb') (Nat.ne_of_lt hlt)
    d henq d' henq'

end UDPDemux

/-! ## The network -/

variable {σ E : Type}

theorem UdpClient.step_eq {x x' : UdpClient σ E} {e : ActiveEvent E} (h : x.step e = some x') :
    x.udp.step e = some x'.udp ∧ x'.endpoint = x.endpoint ∧ x'.written = x.written ++ x.writes e := by
  obtain ⟨udp, hudp, rfl⟩ := Option.map_eq_some_iff.mp h
  exact ⟨hudp, rfl, rfl⟩

namespace UdpNetwork

/-- What the receiver of a packet sees. -/
def contents (x : Nat × Lib.Packet E (List Byte)) : E × List Byte := (x.2.source, x.2.content)

/-- A Connection of the Listener has answered with the packet, or an active connection has sent it to the Listener. -/
def Genuine (s : UdpNetwork σ E) (p : Lib.Packet E (List Byte)) : Prop :=
  (p.source = s.server ∧ (p.dest, p.content) ∈ s.replies) ∨
    (p.dest = s.server ∧ ∃ x ∈ s.clients, x.endpoint = p.source ∧ ∃ i, (i, p.content) ∈ x.written)

variable [DecidableEq E] {s s' : UdpNetwork σ E} {config : DemuxConfig}

inductive Steps (s : UdpNetwork σ E) : UdpNetworkEvent σ E → UdpNetwork σ E → Prop
  | client {c e x x'} (hx : s.clients[c]? = some x) (he : e.arrival = none) (hst : x.step e = some x') :
      Steps s (.client c e) ((s.setClient c x').send (x.emits e))
  | listener {e listener} (he : e.arrival = none) (hst : s.listener.step e = some listener) :
      Steps s (.listener e) { s with listener }
  | reply {b framer framerState mem message p seq framerState'} (hp : s.listener.owned b = some p)
      (hb : p.conn.sendBegin framer framerState mem message = .ok (seq, framerState')) :
      Steps s (.reply b framer framerState mem message)
        { s with
          replies := s.replies ++ [(p.source, (seq.buffers mem).flatten)]
          sending := s.sending ++ [s.replies.length] }
  | refused {b framer framerState mem message} : Steps s (.reply b framer framerState mem message) s
  | replied {k sent} : Steps s (.replied k sent) (s.replied k sent)
  | toListener {k x listener} (hx : s.wire.flight[k]? = some x) (hdest : x.2.dest = s.server)
      (hst : s.listener.step (.arrive (.ok (contents x))) = some listener) :
      Steps s (.toListener k) { s with listener, wire := s.wire.deliver k }
  | toClient {k c i x y y'} (hx : s.wire.flight[k]? = some x) (hy : s.clients[c]? = some y)
      (hdest : x.2.dest = y.endpoint) (hst : y.step (.arrive i (.ok (contents x))) = some y') :
      Steps s (.toClient k c i) { s.setClient c y' with wire := s.wire.deliver k }
  | lose {k} : Steps s (.lose k) { s with wire := s.wire.lose k }
  | duplicate {k} : Steps s (.duplicate k) { s with wire := s.wire.duplicate k }

theorem step_steps {e : UdpNetworkEvent σ E} (h : s.step e = some s') : Steps s e s' := by
  cases e with
  | client c e =>
      simp only [step] at h
      split at h
      · rename_i x hx
        split at h
        · cases h
        · rename_i he
          obtain ⟨x', hst, rfl⟩ := Option.map_eq_some_iff.mp h
          exact .client hx (Option.not_isSome_iff_eq_none.mp he) hst
      · cases h
  | listener e =>
      simp only [step] at h
      split at h
      · cases h
      · rename_i he
        obtain ⟨listener, hst, rfl⟩ := Option.map_eq_some_iff.mp h
        exact .listener (Option.not_isSome_iff_eq_none.mp he) hst
  | reply b framer framerState mem message =>
      obtain ⟨p, hp, rfl⟩ := Option.map_eq_some_iff.mp h
      split
      · rename_i hb
        exact .reply hp hb
      · exact .refused
  | replied k sent =>
      simp only [step] at h
      split at h
      · cases h
        exact .replied
      · cases h
  | toListener k =>
      simp only [step] at h
      split at h
      · rename_i number p hx
        split at h
        · rename_i hdest
          obtain ⟨listener, hst, rfl⟩ := Option.map_eq_some_iff.mp h
          exact .toListener hx hdest hst
        · cases h
      · cases h
  | toClient k c i =>
      simp only [step] at h
      split at h
      · rename_i number p y hx hy
        split at h
        · rename_i hdest
          obtain ⟨y', hst, rfl⟩ := Option.map_eq_some_iff.mp h
          exact .toClient hx hy hdest hst
        · cases h
      · cases h
  | lose k =>
      cases h
      exact .lose
  | duplicate k =>
      cases h
      exact .duplicate

/-! ### The invariant -/

structure Inv (config : DemuxConfig) (s : UdpNetwork σ E) : Prop where
  listener : (UDPDemux.system config).Reachable s.listener
  clients : ∀ x ∈ s.clients, (ActiveUDP.system σ E).Reachable x.udp ∧ x.udp.conn.remoteEndpoint = s.server
  endpoints : (s.server :: s.clients.map UdpClient.endpoint).Nodup
  arrivals : s.listener.arrivals = (s.wire.received s.server).map contents
  clientArrivals : ∀ x ∈ s.clients, x.udp.arrivals = (s.wire.received x.endpoint).map contents
  replies : ∀ r ∈ s.replies, r.1 ∈ s.clients.map UdpClient.endpoint
  sent : ∀ p ∈ s.wire.sent, s.Genuine p

theorem Inv.ne_server (hi : s.Inv config) {n : E} (hn : n ∈ s.clients.map UdpClient.endpoint) : n ≠ s.server :=
  fun he => (List.nodup_cons.mp hi.endpoints).1 (he ▸ hn)

/-- The packet of a datagram that has arrived. -/
theorem Inv.packet (hi : s.Inv config) {n : E} {i : Nat} {a : E × List Byte}
    (h : ((s.wire.received n).map contents)[i]? = some a) :
    ∃ number, (s.wire.received n)[i]? = some (number, ⟨a.1, n, a.2⟩) ∧ s.Genuine ⟨a.1, n, a.2⟩ := by
  rw [List.getElem?_map] at h
  obtain ⟨⟨number, p⟩, hx, rfl⟩ := Option.map_eq_some_iff.mp h
  obtain ⟨hsent, rfl⟩ := Lib.Wire.mem_received (List.mem_of_getElem? hx)
  exact ⟨number, hx, hi.sent p (List.mem_of_getElem? hsent)⟩

/-- Only the active connections send to the Listener. -/
theorem Inv.toServer (hi : s.Inv config) {source : E} {bytes : List Byte} (h : s.Genuine ⟨source, s.server, bytes⟩) :
    ∃ x ∈ s.clients, x.endpoint = source ∧ ∃ i, (i, bytes) ∈ x.written := by
  rcases h with ⟨-, hreply⟩ | ⟨-, hclient⟩
  · exact absurd rfl (hi.ne_server (hi.replies _ hreply))
  · exact hclient

theorem Inv.toEndpoint (hi : s.Inv config) {x : UdpClient σ E} (hx : x ∈ s.clients) {source : E} {bytes : List Byte}
    (h : s.Genuine ⟨source, x.endpoint, bytes⟩) : source = s.server ∧ (x.endpoint, bytes) ∈ s.replies := by
  rcases h with hreply | ⟨hdest, -⟩
  · exact hreply
  · exact absurd hdest (hi.ne_server (List.mem_map_of_mem hx))

/-! ### The steps -/

omit [DecidableEq E] in
theorem Genuine.mono {p : Lib.Packet E (List Byte)} (h : s.Genuine p) (hserver : s'.server = s.server)
    (hreplies : s.replies ⊆ s'.replies)
    (hclients : ∀ x ∈ s.clients, ∃ x' ∈ s'.clients, x'.endpoint = x.endpoint ∧ x.written ⊆ x'.written) :
    s'.Genuine p := by
  rcases h with ⟨hsource, hreply⟩ | ⟨hdest, x, hx, hsource, i, hi⟩
  · exact .inl ⟨hsource.trans hserver.symm, hreplies hreply⟩
  · obtain ⟨x', hx', he, hwritten⟩ := hclients x hx
    exact .inr ⟨hdest.trans hserver.symm, x', hx', he.trans hsource, i, hwritten hi⟩

theorem Inv.send (hi : s.Inv config) {o : Option (Lib.Packet E (List Byte))} (ho : ∀ p ∈ o, s.Genuine p) :
    (s.send o).Inv config := by
  cases o with
  | none => exact hi
  | some p =>
      refine { hi with sent := fun q hq => ?_ }
      rcases List.mem_append.mp hq with hq | hq
      · exact hi.sent q hq
      · rw [List.mem_singleton.mp hq]
        exact ho p rfl

/-- A step of a client, which may have received something. -/
theorem Inv.setClient (hi : s.Inv config) {c : Nat} {x x' : UdpClient σ E} {e : ActiveEvent E}
    (hx : s.clients[c]? = some x) (hst : x.step e = some x') {wire : Lib.Wire E (List Byte)}
    (hsent : wire.sent = s.wire.sent) (hothers : ∀ n, n ≠ x.endpoint → wire.received n = s.wire.received n)
    (harr : x'.udp.arrivals = (wire.received x.endpoint).map contents) :
    { s.setClient c x' with wire }.Inv config := by
  obtain ⟨hudp, hend, hwritten⟩ := UdpClient.step_eq hst
  have hmem := List.mem_of_getElem? hx
  have hmap : (s.clients.set c x').map UdpClient.endpoint = s.clients.map UdpClient.endpoint := by
    obtain ⟨hlt, rfl⟩ := List.getElem?_eq_some_iff.mp hx
    rw [← List.length_map UdpClient.endpoint] at hlt
    rw [List.map_set, hend, ← List.getElem_map UdpClient.endpoint (h := hlt), List.set_getElem_self]
  have hold : ∀ y ∈ s.clients.set c x', y = x' ∨ y ∈ s.clients ∧ y.endpoint ≠ x.endpoint := by
    intro y hy
    obtain ⟨j, hj⟩ := List.mem_iff_getElem?.mp hy
    rw [List.getElem?_set] at hj
    split at hj
    · split at hj
      · cases hj
        exact .inl rfl
      · cases hj
    · rename_i hne
      refine .inr ⟨List.mem_of_getElem? hj, fun he => hne ?_⟩
      have hlt : c < (s.clients.map UdpClient.endpoint).length := by
        simpa using (List.getElem?_eq_some_iff.mp hx).1
      exact (List.getElem?_inj hlt (List.nodup_cons.mp hi.endpoints).2).mp (by simp [hx, hj, he])
  exact
    { listener := hi.listener
      clients := by
        intro y hy
        rcases hold y hy with rfl | ⟨hy, -⟩
        · obtain ⟨hreach, hremote⟩ := hi.clients x hmem
          refine ⟨hreach.step hudp, ?_⟩
          rw [(ActiveUDP.step_received (d := ⟨x.endpoint, 0, [], []⟩) hudp).1, hremote]
          rfl
        · exact hi.clients y hy
      endpoints := by
        show (s.server :: (s.clients.set c x').map UdpClient.endpoint).Nodup
        rw [hmap]
        exact hi.endpoints
      arrivals := by
        show s.listener.arrivals = (wire.received s.server).map contents
        rw [hothers _ (hi.ne_server (List.mem_map_of_mem hmem)).symm]
        exact hi.arrivals
      clientArrivals := by
        intro y hy
        rcases hold y hy with rfl | ⟨hy, hne⟩
        · rw [hend]
          exact harr
        · show _ = (wire.received y.endpoint).map contents
          rw [hothers _ hne]
          exact hi.clientArrivals y hy
      replies := by
        intro r hr
        show r.1 ∈ (s.clients.set c x').map UdpClient.endpoint
        rw [hmap]
        exact hi.replies r hr
      sent := by
        intro p hp
        refine (hi.sent p (hsent ▸ hp)).mono rfl (List.Subset.refl _) fun y hy => ?_
        obtain ⟨j, hj⟩ := List.mem_iff_getElem?.mp hy
        rcases eq_or_ne c j with rfl | hne
        · cases hx.symm.trans hj
          refine ⟨x', List.mem_set (List.getElem?_eq_some_iff.mp hx).1 _, hend, ?_⟩
          rw [hwritten]
          exact List.subset_append_left ..
        · exact ⟨y, List.mem_of_getElem? ((List.getElem?_set_ne hne).trans hj), rfl, List.Subset.refl _⟩ }

/-- What a client sends, one of its calls has given to the socket. -/
theorem genuine_emits (hi : s.Inv config) {c : Nat} {x x' : UdpClient σ E} {e : ActiveEvent E}
    (hx : s.clients[c]? = some x) (hst : x.step e = some x') {p : Lib.Packet E (List Byte)} (hp : p ∈ x.emits e) :
    (s.setClient c x').Genuine p := by
  obtain ⟨-, hend, hwritten⟩ := UdpClient.step_eq hst
  unfold UdpClient.emits at hp
  split at hp
  · rename_i i _
    obtain ⟨bytes, hbytes, rfl⟩ := Option.map_eq_some_iff.mp hp
    obtain ⟨_, _, hlookup, -⟩ := List.lookup_eq_some_iff.mp hbytes
    refine .inr ⟨(hi.clients x (List.mem_of_getElem? hx)).2, x', ?_, hend, i, ?_⟩
    · exact List.mem_set (List.getElem?_eq_some_iff.mp hx).1 _
    · simp [hwritten, hlookup]
  · cases hp

theorem Steps.inv {e : UdpNetworkEvent σ E} (h : Steps s e s') (hi : s.Inv config) : s'.Inv config := by
  cases h with
  | @client c e x x' hx he hst =>
      have hmem := List.mem_of_getElem? hx
      have hkept : (s.setClient c x').Inv config := by
        refine hi.setClient hx hst rfl (fun _ _ => rfl) ?_
        rw [ActiveUDP.step_arrivals (UdpClient.step_eq hst).1, he, hi.clientArrivals x hmem]
        exact List.append_nil _
      exact hkept.send fun p hp => genuine_emits hi hx hst hp
  | listener he hst =>
      refine { hi with listener := hi.listener.step hst, arrivals := ?_ }
      rw [(UDPDemux.step_steps hst).step_arrivals, he, hi.arrivals]
      exact List.append_nil _
  | @reply b _ _ _ _ p _ _ hp hb =>
      have hpeer := List.mem_of_getElem? (UDPDemux.owned_eq_some hp).1
      refine { hi with replies := fun r hr => ?_, sent := fun q hq => ?_ }
      · rcases List.mem_append.mp hr with hr | hr
        · exact hi.replies r hr
        · obtain ⟨a, ha, hsource⟩ := UDPDemux.heard_of_reachable hi.listener p hpeer
          obtain ⟨j, hj⟩ := List.mem_iff_getElem?.mp ha
          rw [hi.arrivals] at hj
          obtain ⟨-, -, hgenuine⟩ := hi.packet hj
          obtain ⟨x, hx, hend, -⟩ := hi.toServer hgenuine
          rw [List.mem_singleton.mp hr, ← hsource, ← hend]
          exact List.mem_map_of_mem hx
      · exact (hi.sent q hq).mono rfl (List.subset_append_left ..) fun x hx => ⟨x, hx, rfl, List.Subset.refl _⟩
  | refused => exact hi
  | @replied k sent =>
      have hkept : { s with sending := s.sending.erase k }.Inv config := { hi with sent := hi.sent }
      refine hkept.send fun p hp => ?_
      split at hp
      · obtain ⟨r, hr, rfl⟩ := Option.map_eq_some_iff.mp hp
        exact .inl ⟨rfl, List.mem_of_getElem? hr⟩
      · cases hp
  | @toListener k x listener hx hdest hst =>
      refine { hi with listener := hi.listener.step hst, arrivals := ?_, clientArrivals := fun y hy => ?_ }
      · rw [(UDPDemux.step_steps hst).step_arrivals, hi.arrivals, Lib.Wire.received_deliver hx, if_pos hdest,
          List.map_append]
        rfl
      · rw [Lib.Wire.received_deliver hx, if_neg, List.append_nil]
        · exact hi.clientArrivals y hy
        · exact hdest ▸ (hi.ne_server (List.mem_map_of_mem hy)).symm
  | @toClient k c i x y y' hx hy hdest hst =>
      refine hi.setClient hy hst rfl (fun n hn => ?_) ?_
      · rw [Lib.Wire.received_deliver hx, if_neg (hdest ▸ hn.symm), List.append_nil]
      · rw [ActiveUDP.step_arrivals (UdpClient.step_eq hst).1, hi.clientArrivals y (List.mem_of_getElem? hy),
          Lib.Wire.received_deliver hx, if_pos hdest, List.map_append]
        rfl
  | lose | duplicate => exact { hi with sent := hi.sent }

theorem inv_of_reachable (h : (system σ E config).Reachable s) : s.Inv config := by
  refine h.invariant (I := Inv config) ?_ fun s e s' hi hst => (step_steps hst).inv hi
  rintro _ ⟨server, atCap, clients, rfl, hnodup, hclients⟩
  exact
    { listener := ⟨_, [], ⟨atCap, rfl⟩, .refl⟩
      clients := by
        intro x hx
        obtain ⟨framer, framerState, pool, he⟩ := hclients x hx
        rw [he]
        exact ⟨⟨_, [], ⟨framer, framerState, server, pool, rfl⟩, .refl⟩, rfl⟩
      endpoints := hnodup
      arrivals := rfl
      clientArrivals := by
        intro x hx
        obtain ⟨framer, framerState, pool, he⟩ := hclients x hx
        rw [he]
        rfl
      replies := fun r hr => by cases hr
      sent := fun p hp => by cases hp }

/-! ### What is returned -/

/-- What a Connection of the Listener returns is a packet of its peer. -/
theorem Inv.listenerCarried (hi : s.Inv config) {p : Peer E} (hp : p ∈ s.listener.demux.peers) {d : Datagram E}
    (hd : d ∈ p.returned) :
    ∃ number, s.Carried s.server d number ∧ s.Genuine ⟨d.source, s.server, d.bytes⟩ := by
  obtain ⟨-, harrived, -⟩ := UDPDemux.returned_of_reachable hi.listener hp hd
  rw [hi.arrivals] at harrived
  exact hi.packet harrived

theorem Inv.clientArrived (hi : s.Inv config) {x : UdpClient σ E} (hx : x ∈ s.clients) {d : Datagram E}
    (hd : .received (.ok d) ∈ x.udp.calls) : x.udp.Arrived d :=
  (ActiveUDP.inv_of_reachable (hi.clients x hx).1 _ hd).received d rfl

theorem Inv.clientCarried (hi : s.Inv config) {x : UdpClient σ E} (hx : x ∈ s.clients) {d : Datagram E}
    (hd : .received (.ok d) ∈ x.udp.calls) :
    ∃ number, s.Carried x.endpoint d number ∧ s.Genuine ⟨d.source, x.endpoint, d.bytes⟩ := by
  obtain ⟨harrived, -⟩ := hi.clientArrived hx hd
  rw [hi.clientArrivals x hx] at harrived
  exact hi.packet harrived

theorem faithful_of_reachable (h : ((system σ E config).restrict DuplicatesNone).Reachable s) : s.wire.Faithful := by
  refine h.invariant (I := fun s : UdpNetwork σ E => s.wire.Faithful) ?_ ?_
  · rintro _ ⟨server, atCap, clients, rfl, -⟩
    exact List.nodup_nil
  · rintro s e s' hf ⟨hst, hnone⟩
    have hsend : ∀ (t : UdpNetwork σ E) o, t.wire.Faithful → (t.send o).wire.Faithful := by
      intro t o ht
      cases o with
      | none => exact ht
      | some p => exact ht.send p
    cases step_steps hst with
    | client => exact hsend _ _ hf
    | replied => exact hsend _ _ hf
    | listener | reply | refused => exact hf
    | toListener | toClient => exact hf.deliver _
    | lose => exact hf.lose _
    | duplicate => exact absurd rfl (hnone _)

end UdpNetwork

end Taps
