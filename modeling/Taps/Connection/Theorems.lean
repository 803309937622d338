import Taps.Connection.Send
import Taps.Tcp.LinkTheorems
import Taps.Udp.Lemmas.ActiveCalls
import Taps.Udp.Lemmas.Exchange
import Taps.Udp.Lemmas.Silent
import Taps.Udp.Theorems

/-!
# The three implementations of a Connection

What holds of TCP connections, of active and of passive UDP connections alike, and where the passive ones
differ.
-/

namespace Taps

variable {σ E : Type} [DecidableEq E]

/-! ## Closed Connections -/

/-- A receive on a TCP or an active UDP connection is refused once a `close()` or an `abort()` has completed.
On a passive UDP connection it fails, or waits for the release handler that makes it fail, in the runs in
which every Connection is closed with an empty Mailbox that no eviction has closed, and is neither served a
datagram nor evicted between that and its release; and a step after which it does not is one that breaks
this. -/
theorem closed_delivers_nothing (config : DemuxConfig) :
    (∀ s : Link σ, (Link.system σ).Reachable s → s.Closed → ∀ around, ∃ err,
      s.step (.receive around) = some (s.push (.returned (.received (.failed err)))) ∧
        err.event = .receiveError ∧ err.reason = .invalidState) ∧
    (∀ s : ActiveUDP σ E, (ActiveUDP.system σ E).Reachable s → s.Closed → ∀ live fresh, ∃ err,
      s.step (.receive live fresh) = some (s.push (.received (.error err))) ∧
        err.event = .receiveError ∧ err.reason = .invalidState) ∧
    ∀ s : UDPDemux E,
      ((UDPDemux.system config).restrict fun s e _ => s.SparesClosed e).Reachable s →
        s.Silent ∧ ∀ e s', s.step e = some s' → (s'.Silent ↔ s.SparesClosed e) := by
  refine ⟨fun s hr hc around => ?_, fun s hr hc live fresh => ?_, fun s hr => ?_⟩
  · obtain ⟨c, hmem, hended⟩ := hc
    obtain ⟨i, hi⟩ := List.mem_iff_getElem?.mp hmem
    have hstate := ((Link.reachable_inv hr).calls i c hi).ended hended
    exact Link.receive_refused (Link.canReceive_eq_false.mpr (.inl hstate)) around
  · obtain ⟨c, hmem, hended⟩ := hc
    have hstate := (ActiveUDP.inv_of_reachable hr c hmem).ended hended
    exact ⟨_, ActiveUDP.receive_refused hstate live fresh, rfl, rfl⟩
  · obtain ⟨hi, hp, hs⟩ : s.Inv ∧ s.demux.Pending none ∧ s.demux.Hushed := by
      refine hr.invariant (I := fun s : UDPDemux E => s.Inv ∧ s.demux.Pending none ∧ s.demux.Hushed) ?_ ?_
      · rintro s ⟨atCap, rfl⟩
        exact ⟨UDPDemux.create_inv config atCap, Demux.create_pending config, Demux.create_hushed config⟩
      · rintro s e s' ⟨hi, hp, hs⟩ ⟨hst, hspares⟩
        have hsteps := UDPDemux.step_steps hst
        exact ⟨hsteps.inv hi, hsteps.pending hi.demux hp, (hsteps.hushed hi.demux hp hs).mpr hspares⟩
    refine ⟨(UDPDemux.silent_iff hi.demux hp).mpr hs, fun e s' hst => ?_⟩
    have hsteps := UDPDemux.step_steps hst
    rw [UDPDemux.silent_iff (hsteps.inv hi).demux (hsteps.pending hi.demux hp)]
    exact hsteps.hushed hi.demux hp hs

def smallActive : ActiveUDP Unit Nat := .create (.create none () 1 smallPool)

/-- The datagram of a passive connection is received before it is closed. -/
def receivedThenClosed : List (DemuxEvent Nat) :=
  [.arrive (.ok (1, [7])), .resume 0 10 false, .accept, .receive 0, .close 0 false]

theorem closed_delivers_nothing_empty :
    (∃ err, (Link.smallLink.abort none).step (.receive Link.blank)
      = some ((Link.smallLink.abort none).push (.returned (.received (.failed err)))) ∧
        err.reason = .invalidState) ∧
    (∃ err, (smallActive.close none).step (.receive 0 1)
      = some ((smallActive.close none).push (.received (.error err))) ∧ err.reason = .invalidState) ∧
    ∃ s : UDPDemux Nat, receivedThenClosed.foldlM UDPDemux.step
      (.create UDPDemux.smallConfig false) = some s ∧ s.Silent := by
  obtain ⟨htcp, hactive, hpassive⟩ := closed_delivers_nothing (σ := Unit) (E := Nat) UDPDemux.smallConfig
  refine ⟨?_, ?_, ?_⟩
  · obtain ⟨err, h, -, hreason⟩ := htcp (Link.smallLink.abort none)
      ⟨_, [.abort none], Link.smallLink_init, .step rfl .refl⟩
      ⟨_, List.mem_singleton.mpr rfl, _, .inr rfl⟩ Link.blank
    exact ⟨err, h, hreason⟩
  · obtain ⟨err, h, -, hreason⟩ := hactive (smallActive.close none)
      ⟨_, [.close none], ⟨none, (), 1, smallPool, rfl⟩, .step rfl .refl⟩
      ⟨_, List.mem_singleton.mpr rfl, _, .inl rfl⟩ 0 1
    exact ⟨err, h, hreason⟩
  · have hquiet : ∀ {s : UDPDemux Nat} {e : DemuxEvent Nat}, (∀ b aborted, e ≠ .close b aborted) →
        (∀ now address atCap, e ≠ .resume now address atCap) → (∀ now, e ≠ .sweep now) → s.SparesClosed e :=
      UDPDemux.sparesClosed_of_ne
    obtain ⟨s, hrun, hs⟩ : ∃ s : UDPDemux Nat,
        ((UDPDemux.system UDPDemux.smallConfig).restrict fun s e _ => s.SparesClosed e).Run
          (.create UDPDemux.smallConfig false) receivedThenClosed s ∧
        receivedThenClosed.foldlM UDPDemux.step (.create UDPDemux.smallConfig false) = some s := by
      refine ⟨_, .step ⟨rfl, hquiet (by simp) (by simp) (by simp)⟩ (.step ⟨rfl, by simp, ?_⟩
        (.step ⟨rfl, hquiet (by simp) (by simp) (by simp)⟩
        (.step ⟨rfl, hquiet (by simp) (by simp) (by simp)⟩ (.step ⟨rfl, ?_, ?_⟩ .refl)))), rfl⟩
      · intro b p hp
        cases hp
      · intro b aborted p he hp _
        cases he
        cases hp
        exact ⟨rfl, nofun⟩
      · exact fun _ _ _ _ _ => ⟨by simp, by simp⟩
    exact ⟨s, hs, (hpassive s ⟨_, _, ⟨false, rfl⟩, hrun⟩).1⟩

/-- A datagram is queued when the passive connection is closed. -/
def queuedThenClosed : List (DemuxEvent Nat) :=
  [.arrive (.ok (1, [7])), .resume 0 10 false, .accept, .close 0 false]

/-- The receive that follows returns it. -/
theorem closed_delivers_queued :
    ¬ ∀ s : UDPDemux Nat, (UDPDemux.system UDPDemux.smallConfig).Reachable s → s.Silent := by
  intro h
  have hsome : (queuedThenClosed.foldlM UDPDemux.step (.create UDPDemux.smallConfig false)).isSome := rfl
  obtain ⟨s, hs⟩ := Option.isSome_iff_exists.mp hsome
  have hsilent := h s ⟨_, queuedThenClosed, ⟨false, rfl⟩, .of_foldlM (fun _ _ _ _ hst => hst) hs⟩
  cases hs
  rcases hsilent 0 _ rfl rfl _ (.inl rfl) with hres | ⟨hres, -⟩
  · cases hres
  · cases hres

/-! ## Datagrams and Messages -/

/-- The Message that a receive returns, on an active or on a passive connection, is of a datagram that
arrived, and if it is a complete one it has every byte of the datagram if and only if the datagram is no
longer than a block. -/
theorem message_whole_iff (config : DemuxConfig) :
    (∀ s : ActiveUDP σ E, (ActiveUDP.system σ E).Reachable s → ∀ d, .received (.ok d) ∈ s.calls →
      s.Arrived d ∧ (d.Whole ↔ d.bytes.length ≤ s.conn.blockPool.blockSize)) ∧
    ∀ s : UDPDemux E, (UDPDemux.system config).Reachable s → ∀ p ∈ s.demux.peers, ∀ d ∈ p.returned,
      s.Arrived d ∧ (d.Whole ↔ d.bytes.length ≤ config.blockSize) := by
  refine ⟨fun s hr d hd => ?_, fun s hr p hp d hd => ?_⟩
  · have harr := (ActiveUDP.inv_of_reachable hr _ hd).received d rfl
    exact ⟨harr, whole_iff harr.2⟩
  · have harr := (UDPDemux.returned_of_reachable hr hp hd).2
    exact ⟨harr, whole_iff (UDPDemux.config_of_reachable hr ▸ harr.2)⟩

/-- An active connection has received one datagram, of its peer or of somebody else. -/
def receivedOne (source : Nat) (bytes : List Byte) : ActiveUDP Unit Nat :=
  { smallActive with
    calls := [.received (.ok ⟨source, 0, bytes, bytes.take 16⟩)], arrivals := [(source, bytes)] }

theorem receivedOne_run (source : Nat) (bytes : List Byte) : (ActiveUDP.system Unit Nat).Run smallActive
    [.receive 0 1, .arrive 0 (.ok (source, bytes)), .resume 0] (receivedOne source bytes) :=
  .step rfl (.step rfl (.step rfl .refl))

theorem receivedOne_reachable (source : Nat) (bytes : List Byte) :
    (ActiveUDP.system Unit Nat).Reachable (receivedOne source bytes) :=
  ⟨_, _, ⟨none, (), 1, smallPool, rfl⟩, receivedOne_run source bytes⟩

/-- One datagram of a source, accepted and received. -/
def acceptedEvents (bytes : List Byte) : List (DemuxEvent Nat) :=
  [.arrive (.ok (1, bytes)), .resume 0 10 false, .accept, .receive 0]

theorem message_whole_iff_three :
    (⟨1, 0, [7, 8, 9], [7, 8, 9]⟩ : Datagram Nat).Whole ∧
    ∃ s : UDPDemux Nat, (acceptedEvents [7, 8, 9]).foldlM UDPDemux.step
      (.create UDPDemux.smallConfig false) = some s ∧
      ∀ p ∈ s.demux.peers, ∀ d ∈ p.returned, d.bytes = [7, 8, 9] ∧ d.Whole := by
  obtain ⟨hactive, hpassive⟩ := message_whole_iff (σ := Unit) (E := Nat) UDPDemux.smallConfig
  refine ⟨(hactive _ (receivedOne_reachable 1 [7, 8, 9]) _ (List.mem_singleton.mpr rfl)).2.mpr
    (by decide), ?_⟩
  have hsome : ((acceptedEvents [7, 8, 9]).foldlM UDPDemux.step (.create UDPDemux.smallConfig false)).isSome :=
    rfl
  obtain ⟨s, hs⟩ := Option.isSome_iff_exists.mp hsome
  have hr : (UDPDemux.system UDPDemux.smallConfig).Reachable s :=
    ⟨_, acceptedEvents [7, 8, 9], ⟨false, rfl⟩, .of_foldlM (fun _ _ _ _ hst => hst) hs⟩
  refine ⟨s, hs, fun p hp d hd => ?_⟩
  have hwhole := hpassive s hr p hp d hd
  have hbytes : d.bytes = [7, 8, 9] := by
    cases hs
    cases List.mem_singleton.mp hp
    cases List.mem_singleton.mp hd
    rfl
  exact ⟨hbytes, hwhole.2.mpr (by rw [hbytes]; decide)⟩

/-- A datagram of one byte more than a block. -/
theorem message_cut_short :
    ¬ ∀ s : ActiveUDP Unit Nat, (ActiveUDP.system Unit Nat).Reachable s →
      ∀ d, .received (.ok d) ∈ s.calls → d.Whole := by
  intro h
  have hw := h _ (receivedOne_reachable 1 (List.replicate 17 7)) _ (List.mem_singleton.mpr rfl)
  have hshort := (whole_iff (show _ = List.take 16 _ from rfl)).mp hw
  exact absurd hshort (by decide)

/-- An active connection receives Messages of its remote endpoint only in the runs in which no receive is
resumed with the datagram of another source, and a step that does this delivers it; a passive connection
receives those of its source only. -/
theorem only_peer_delivers (config : DemuxConfig) :
    (∀ s : ActiveUDP σ E, ((ActiveUDP.system σ E).restrict fun s e _ => s.FromPeer e).Reachable s →
      s.OnlyPeer ∧ ∀ e s', s.step e = some s' → (s'.OnlyPeer ↔ s.FromPeer e)) ∧
    ∀ s : UDPDemux E, (UDPDemux.system config).Reachable s → ∀ p ∈ s.demux.peers, ∀ d ∈ p.returned,
      d.source = p.source := by
  refine ⟨fun s hr => ?_, fun s hr p hp d hd => (UDPDemux.returned_of_reachable hr hp hd).1⟩
  have hs : s.OnlyPeer := by
    refine hr.invariant (I := ActiveUDP.OnlyPeer) ?_ ?_
    · rintro s ⟨framer, framerState, remoteEndpoint, blockPool, rfl⟩
      simp [ActiveUDP.OnlyPeer, ActiveUDP.create]
    · rintro s e s' hs ⟨hst, hpeer⟩
      exact (ActiveUDP.step_onlyPeer hst hs).mpr hpeer
  exact ⟨hs, fun e s' hst => ActiveUDP.step_onlyPeer hst hs⟩

/-- The peer sends one datagram, which is received. -/
theorem only_peer_delivers_one :
    ((ActiveUDP.system Unit Nat).restrict fun s e _ => s.FromPeer e).Run smallActive
      [.receive 0 1, .arrive 0 (.ok (1, [7])), .resume 0] (receivedOne 1 [7]) ∧
    (receivedOne 1 [7]).OnlyPeer ∧
    ∃ s : UDPDemux Nat, (acceptedEvents [7]).foldlM UDPDemux.step
      (.create UDPDemux.smallConfig false) = some s ∧
      ∀ p ∈ s.demux.peers, ∀ d ∈ p.returned, d.source = p.source := by
  obtain ⟨hactive, hpassive⟩ := only_peer_delivers (σ := Unit) (E := Nat) UDPDemux.smallConfig
  have hrun : ((ActiveUDP.system Unit Nat).restrict fun s e _ => s.FromPeer e).Run smallActive
      [.receive 0 1, .arrive 0 (.ok (1, [7])), .resume 0] (receivedOne 1 [7]) := by
    refine .step ⟨rfl, by simp [ActiveUDP.FromPeer]⟩ (.step ⟨rfl, by simp [ActiveUDP.FromPeer]⟩
      (.step ⟨rfl, ?_⟩ .refl))
    intro i block d he hi
    cases he
    cases hi
    rfl
  have hsome : ((acceptedEvents [7]).foldlM UDPDemux.step (.create UDPDemux.smallConfig false)).isSome :=
    rfl
  obtain ⟨s, hs⟩ := Option.isSome_iff_exists.mp hsome
  have hr : (UDPDemux.system UDPDemux.smallConfig).Reachable s :=
    ⟨_, acceptedEvents [7], ⟨false, rfl⟩, .of_foldlM (fun _ _ _ _ hst => hst) hs⟩
  exact ⟨hrun, (hactive _ ⟨_, _, ⟨none, (), 1, smallPool, rfl⟩, hrun⟩).1, s, hs, hpassive s hr⟩

/-- The datagram of another source is received. -/
theorem stranger_delivered :
    ¬ ∀ s : ActiveUDP Unit Nat, (ActiveUDP.system Unit Nat).Reachable s → s.OnlyPeer := by
  intro h
  have hsource := h _ (receivedOne_reachable 2 [7]) _ (List.mem_singleton.mpr rfl)
  cases hsource

/-! ## Length-prefixed framers -/

/-- On a Connection of any kind, a `send()` announces the size of its Message, or refuses it, if and only if
the size has its place in the header, or the socket refuses the write because of its size and has sent
nothing. -/
theorem send_announces_iff {native : Endian} {f : LengthPrefixedFramer} {mem : Memory} {m : Message}
    {written : List Byte} {ec : Option ErrorCode} {r : Result Unit}
    (h : Sends (f.toFramer native) mem m written ec r) :
    f.Announces m written r ↔
      m.size < 256 ^ f.lengthFieldSize ∨ ec = some .messageSize ∧ written = [] := by
  constructor
  · rintro ⟨-, hlarge⟩
    by_cases hm : m.size < 256 ^ f.lengthFieldSize
    · exact .inl hm
    · obtain ⟨⟨err, rfl, hreason⟩, hnothing⟩ := hlarge (Nat.le_of_not_lt hm)
      exact .inr ⟨(h.reports.2 err rfl).mp hreason, hnothing⟩
  · rintro (hm | ⟨rfl, rfl⟩)
    · refine ⟨?_, fun hlarge => absurd hm (Nat.not_lt_of_le hlarge)⟩
      rintro rfl native'
      obtain ⟨_, hwritten⟩ := h.whole
      rw [show written = f.writeHeader native m ++ m.payload mem from hwritten,
        List.take_left' (length_writeHeader native f m)]
      exact decode_writeHeader hm native native'
    · obtain ⟨hok, hreason⟩ := h.reports
      cases r with
      | ok u => cases hok rfl
      | error err => exact ⟨nofun, fun _ => ⟨⟨err, rfl, (hreason err rfl).mpr rfl⟩, rfl⟩⟩

def bigFramer (width : Nat) : LengthPrefixedFramer := .create width .big

/-- A TCP connection with a header of one byte. -/
def byteFramed : TCPConnection Unit :=
  .create .established (some ((bigFramer 1).toFramer .little)) () smallPool

theorem send_announces_iff_one :
    (bigFramer 1).Announces (.ofVector [7]) [1, 7] (.ok ()) ∧ (Message.ofVector [7]).size < 256 ^ 1 := by
  have hs : Sends ((bigFramer 1).toFramer .little) Link.blank.mem (.ofVector [7]) [1, 7] none (.ok ()) :=
    .tcp (c := byteFramed) (n := 2) rfl rfl fun _ => rfl
  exact ⟨(send_announces_iff hs).mpr (.inl (by decide)), by decide⟩

/-- A Message of 256 bytes is written in full behind a header that says 0. -/
theorem send_announces_zero : ¬ ∀ (native : Endian) (f : LengthPrefixedFramer) (mem : Memory) (m : Message)
    (written : List Byte) (r : Result Unit),
    Sends (f.toFramer native) mem m written none r → f.Announces m written r := by
  intro h
  have hs : Sends ((bigFramer 1).toFramer .little) Link.blank.mem (.ofVector (List.replicate 256 0)) _ none
      (.ok ()) := .tcp (c := byteFramed) rfl rfl fun _ => rfl
  have hfull : 256 ^ (bigFramer 1).lengthFieldSize ≤ (Message.ofVector (List.replicate 256 0)).size := by
    rw [show (Message.ofVector (List.replicate 256 0)).size = 256 from List.length_replicate]
    decide
  obtain ⟨-, hlarge⟩ := h .little (bigFramer 1) Link.blank.mem _ _ _ hs
  obtain ⟨⟨err, herr, -⟩, -⟩ := hlarge hfull
  cases herr

/-! ## Framers on UDP connections -/

/-- The payload of the Message that comes out of the other connection, active or passive, is that of the
Message that was sent if and only if the blocks of the receiver are of its size and it is what its own
record starts with. -/
theorem framed_datagram_round_trips {native : Endian} {f : LengthPrefixedFramer} {mem : Memory}
    {m : Message} {bytes payload : List Byte} {blockSize : Nat} (hm : f.Encodes m)
    (hs : UdpSends (f.toFramer native) mem m bytes)
    (hr : UdpReceives (f.toFramer native) blockSize bytes payload) :
    payload = m.payload mem ↔ blockSize = m.size ∧ m.payload mem <+: f.record mem m := by
  obtain ⟨_, hbytes⟩ := hs.eq
  have hrecord : bytes = f.record mem m :=
    hbytes.trans (congrArg (· ++ m.payload mem) (LengthPrefixedFramer.writeHeader_eq hm))
  have hpos : 0 < (fieldBytes f.byteOrder f.lengthFieldSize m.size).length := by
    rw [length_fieldBytes]
    exact f.pos
  rw [hr.eq, hrecord, LengthPrefixedFramer.record, take_append_eq_right hpos, Message.length_payload]

/-- An active connection with this framer and blocks of this size. -/
def framedActive (f : LengthPrefixedFramer) (blockSize : Nat) (h : blockSize < 2 ^ 63) : ActiveUDP Unit Nat :=
  .create (.create (some (f.toFramer .little)) () 1 ⟨blockSize, 0, h⟩)

/-- What a connection of its own receives of any datagram. -/
theorem framedActive_receives (f : LengthPrefixedFramer) {blockSize : Nat} (h : blockSize < 2 ^ 63)
    (bytes : List Byte) : UdpReceives (f.toFramer .little) blockSize bytes (bytes.take blockSize) := by
  have hrun : (ActiveUDP.system Unit Nat).Run (framedActive f blockSize h)
      [.receive 0 1, .arrive 0 (.ok (1, bytes)), .resume 0] _ := .step rfl (.step rfl (.step rfl .refl))
  have hr := UdpReceives.active ⟨_, _, ⟨_, _, _, _, rfl⟩, hrun⟩ rfl rfl
    (List.mem_singleton.mpr rfl)
  exact hr.eq ▸ hr

/-- A Message of one byte, which is its header too, and a block of one byte. -/
theorem framed_datagram_round_trips_one : ∃ bytes : List Byte,
    UdpSends ((bigFramer 1).toFramer .little) Link.blank.mem (.ofVector [1]) bytes ∧
      bytes.take 1 = (Message.ofVector [1]).payload Link.blank.mem := by
  have hs : UdpSends ((bigFramer 1).toFramer .little) Link.blank.mem (.ofVector [1]) [1, 1] :=
    .active (c := (framedActive (bigFramer 1) 1 (by decide)).conn) rfl rfl
  exact ⟨_, hs, (framed_datagram_round_trips ⟨by decide, by decide⟩ hs
    (framedActive_receives (bigFramer 1) (by decide) _)).mpr ⟨rfl, by decide⟩⟩

/-- A Message of one byte behind a header of two. -/
theorem framed_datagram_keeps_header : ¬ ∀ (native : Endian) (f : LengthPrefixedFramer) (mem : Memory)
    (m : Message) (bytes payload : List Byte) (blockSize : Nat), f.Encodes m → bytes.length ≤ blockSize →
    UdpSends (f.toFramer native) mem m bytes → UdpReceives (f.toFramer native) blockSize bytes payload →
    payload = m.payload mem := by
  intro h
  have hs : UdpSends ((bigFramer 2).toFramer .little) Link.blank.mem (.ofVector [7]) [0, 1, 7] :=
    .active (c := (framedActive (bigFramer 2) 16 (by decide)).conn) rfl rfl
  have he := h _ _ _ _ _ _ _ ⟨by decide, by decide⟩ (by decide) hs
    (framedActive_receives (bigFramer 2) (by decide : 16 < 2 ^ 63) _)
  cases he

/-! ## How the calls on an active UDP connection end -/

namespace ActiveUDP

variable {σ E : Type} {s : ActiveUDP σ E}

/-- Only `close()` and `abort()` end the connection, and they end every call on it: a call that fails for another
reason leaves the others as they are, and one that was cancelled says what has ended the connection. -/
theorem ends_locally (h : (system σ E).Reachable s) :
    s.EndsLocally ∧ ∀ es s', (system σ E).Run s es s' → Concludes s s' :=
  ⟨(life_of_reachable h).endsLocally, fun _ _ hrun => (life_of_reachable h).run_concludes hrun⟩

/-- Of two receives, the first one fails. The other goes on, until it is cancelled by a `close()`; there is an
`abort()` before it is resumed. -/
def failedEvents : List (ActiveEvent Nat) :=
  [.receive 0 10, .receive 1 11, .arrive 0 (.error .connectionReset), .resume 0, .close none, .abort none, .resume 1]

theorem ends_locally_failed : ∃ s s' : ActiveUDP Unit Nat,
    (failedEvents.take 4).foldlM step (create (.create none () 1 smallPool)) = some s ∧
    (failedEvents.drop 4).foldlM step s = some s' ∧
    s.calls.map ActiveCall.error = [some (ioError .receiveError .connectionReset), none] ∧
    s'.calls.map ActiveCall.error =
      [some (ioError .receiveError .connectionReset), some (cancelled .receiveError true), none, none] ∧
    s.EndsLocally ∧ Concludes s s' := by
  have hsome : ((failedEvents.take 4).foldlM step (create (σ := Unit) (E := Nat)
      (.create none () 1 smallPool))).isSome := rfl
  obtain ⟨s, hs⟩ := Option.isSome_iff_exists.mp hsome
  have hsome' : ((failedEvents.drop 4).foldlM step s).isSome := by
    cases hs
    rfl
  obtain ⟨s', hs'⟩ := Option.isSome_iff_exists.mp hsome'
  have hreachable : (system Unit Nat).Reachable s :=
    ⟨_, _, ⟨none, (), 1, smallPool, rfl⟩, .of_foldlM (fun _ _ _ _ hst => hst) hs⟩
  obtain ⟨hends, hconcludes⟩ := ends_locally hreachable
  refine ⟨s, s', hs, hs', ?_, ?_, hends, hconcludes _ s' (.of_foldlM (fun _ _ _ _ hst => hst) hs')⟩
  · cases hs
    rfl
  · cases hs
    cases hs'
    rfl

end ActiveUDP

end Taps
