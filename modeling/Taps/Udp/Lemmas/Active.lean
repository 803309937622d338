import Taps.Udp.Active

/-!
# The calls of an active UDP connection

What each call of a reachable connection has to do with the state of the connection and with the datagrams
that its socket received.
-/

namespace Taps.ActiveCall

variable {E : Type} {c : ActiveCall E}

/-- A `close()` or an `abort()` that has completed. -/
def Ended (c : ActiveCall E) : Prop := ∃ r, c = closed r ∨ c = aborted r

theorem cancel_cases (c : ActiveCall E) : c.cancel = c ∨
    (∃ size, c.cancel = sending size (.completed (.error .operationAborted))) ∨
    ∃ block, c = receiving block .pending ∧
      c.cancel = receiving block (.completed (.error .operationAborted)) := by
  cases c with
  | sending size op =>
      cases op with
      | pending => exact .inr (.inl ⟨size, rfl⟩)
      | completed => exact .inl rfl
  | receiving block op =>
      cases op with
      | pending => exact .inr (.inr ⟨block, rfl, rfl⟩)
      | completed => exact .inl rfl
  | sent | received | closed | aborted => exact .inl rfl

end Taps.ActiveCall

namespace Taps.ActiveUDP

variable {σ E : Type} {s s' : ActiveUDP σ E} {e : ActiveEvent E} {c : ActiveCall E} {d : Datagram E}

/-! ## What a step leaves -/

/-- The pool is the same, the socket has received no less, and a closed connection stays closed. -/
structure Later (s s' : ActiveUDP σ E) : Prop where
  pool : s'.conn.blockPool = s.conn.blockPool
  arrivals : ∃ new, s'.arrivals = s.arrivals ++ new
  closed : s.conn.state = .closed → s'.conn.state = .closed

theorem Later.arrived (h : Later s s') (hd : s.Arrived d) : s'.Arrived d := by
  obtain ⟨new, harr⟩ := h.arrivals
  obtain ⟨hlt, -⟩ := List.getElem?_eq_some_iff.mp hd.1
  exact ⟨by rw [harr, List.getElem?_append_left hlt, hd.1], by rw [h.pool, hd.2]⟩

theorem later_of_conn (hpool : s'.conn.blockPool = s.conn.blockPool) (harr : s'.arrivals = s.arrivals)
    (hstate : s.conn.state = .closed → s'.conn.state = .closed) : Later s s' :=
  ⟨hpool, ⟨[], by rw [harr, List.append_nil]⟩, hstate⟩

theorem sendBegin_fst (mem : Memory) (conn : ActiveUDPConnection σ E) (message : Message) :
    (conn.sendBegin mem message).1.state = conn.state ∧
      (conn.sendBegin mem message).1.blockPool = conn.blockPool := by
  unfold ActiveUDPConnection.sendBegin
  split <;> exact ⟨rfl, rfl⟩

theorem remoteEndpoint_sendBegin (mem : Memory) (conn : ActiveUDPConnection σ E) (message : Message) :
    (conn.sendBegin mem message).1.remoteEndpoint = conn.remoteEndpoint := by
  unfold ActiveUDPConnection.sendBegin
  split <;> rfl

theorem arrive_later (s : ActiveUDP σ E) (i : Nat) (block : BlockRef)
    (outcome : Except ErrorCode (E × List Byte)) : Later s (s.arrive i block outcome) := by
  cases outcome with
  | error => exact later_of_conn rfl rfl id
  | ok q => exact ⟨rfl, ⟨[q], rfl⟩, id⟩

theorem step_later (h : s.step e = some s') : Later s s' := by
  cases e with
  | send mem message =>
      cases h
      obtain ⟨hstate, hpool⟩ := sendBegin_fst mem s.conn message
      exact later_of_conn hpool rfl hstate.trans
  | receive live fresh =>
      cases h
      exact later_of_conn rfl rfl id
  | close ec | abort ec =>
      cases h
      exact later_of_conn rfl rfl fun _ => rfl
  | transmit i outcome =>
      simp only [step] at h
      split at h
      · cases h
      · cases h
        exact later_of_conn rfl rfl id
      · cases h
  | arrive i outcome =>
      simp only [step] at h
      split at h
      · cases h
      · cases h
        exact arrive_later s i _ _
      · cases h
  | resume i =>
      simp only [step] at h
      split at h
      · cases h
        exact later_of_conn rfl rfl id
      · cases h
        exact later_of_conn rfl rfl id
      · cases h

/-! ## The invariant -/

/-- What can be said of a call, given the rest. -/
structure CallInv (s : ActiveUDP σ E) (c : ActiveCall E) : Prop where
  ended : c.Ended → s.conn.state = .closed
  block : ∀ block op, c = .receiving block op → block.beginOffset = 0
  completed : ∀ block d, c = .receiving block (.completed (.ok d)) → s.Arrived d
  received : ∀ d, c = .received (.ok d) → s.Arrived d

def Inv (s : ActiveUDP σ E) : Prop := ∀ c ∈ s.calls, s.CallInv c

theorem CallInv.later (h : s.CallInv c) (hl : Later s s') : s'.CallInv c where
  ended hc := hl.closed (h.ended hc)
  block := h.block
  completed block d hc := hl.arrived (h.completed block d hc)
  received d hc := hl.arrived (h.received d hc)

theorem callInv_sending (size : Nat) (op : Lib.Operation ErrorCode Nat) : s.CallInv (.sending size op) where
  ended := by simp [ActiveCall.Ended]
  block := by simp
  completed := by simp
  received := by simp

theorem callInv_sent (r : Result Unit) : s.CallInv (.sent r) where
  ended := by simp [ActiveCall.Ended]
  block := by simp
  completed := by simp
  received := by simp

theorem callInv_ended (hc : c.Ended) (h : s.conn.state = .closed) : s.CallInv c where
  ended _ := h
  block := by rcases hc with ⟨r, rfl | rfl⟩ <;> simp
  completed := by rcases hc with ⟨r, rfl | rfl⟩ <;> simp
  received := by rcases hc with ⟨r, rfl | rfl⟩ <;> simp

theorem callInv_receiving {block : BlockRef} {op : Lib.Operation ErrorCode (Datagram E)}
    (hb : block.beginOffset = 0) (hop : ∀ d, op = .completed (.ok d) → s.Arrived d) :
    s.CallInv (.receiving block op) where
  ended := by simp [ActiveCall.Ended]
  block _ _ hc := by
    cases hc
    exact hb
  completed _ d hc := by
    cases hc
    exact hop d rfl
  received := by simp

theorem callInv_received {r : Result (Datagram E)} (hr : ∀ d, r = .ok d → s.Arrived d) :
    s.CallInv (.received r) where
  ended := by simp [ActiveCall.Ended]
  block := by simp
  completed := by simp
  received d hc := by
    cases hc
    exact hr d rfl

theorem CallInv.cancel (h : s.CallInv c) : s.CallInv c.cancel := by
  rcases c.cancel_cases with hc | ⟨size, hc⟩ | ⟨block, rfl, hc⟩
  · rwa [hc]
  · rw [hc]
    exact callInv_sending size _
  · rw [hc]
    exact callInv_receiving (h.block block _ rfl) (by simp)

/-! ## The calls after a step -/

theorem Inv.push (hi : s.Inv) (hl : Later s s') (hcalls : s'.calls = s.calls ++ [c]) (hc : s'.CallInv c) :
    s'.Inv := by
  intro c' hc'
  rw [hcalls] at hc'
  rcases List.mem_append.mp hc' with hc' | hc'
  · exact (hi c' hc').later hl
  · rwa [List.mem_singleton.mp hc']

theorem Inv.set {i : Nat} (hi : s.Inv) (hl : Later s s') (hcalls : s'.calls = s.calls.set i c)
    (hc : s'.CallInv c) : s'.Inv := by
  intro c' hc'
  rw [hcalls] at hc'
  rcases List.mem_or_eq_of_mem_set hc' with hc' | rfl
  · exact (hi c' hc').later hl
  · exact hc

theorem Inv.closeSocket (hi : s.Inv) (hl : Later s s')
    (hcalls : s'.calls = s.calls.map ActiveCall.cancel ++ [c]) (hc : s'.CallInv c) : s'.Inv := by
  intro c' hc'
  rw [hcalls] at hc'
  rcases List.mem_append.mp hc' with hc' | hc'
  · obtain ⟨c₀, hc₀, rfl⟩ := List.mem_map.mp hc'
    exact (hi c₀ hc₀).cancel.later hl
  · rwa [List.mem_singleton.mp hc']

theorem calls_send (s : ActiveUDP σ E) (mem : Memory) (message : Message) :
    ∃ c, (s.send mem message).calls = s.calls ++ [c] ∧
      ((∃ size op, c = .sending size op) ∨ ∃ r, c = .sent r) := by
  unfold send
  rcases s.conn.sendBegin mem message with ⟨conn, buffers | err⟩
  · exact ⟨_, rfl, .inr ⟨_, rfl⟩⟩
  · exact ⟨_, rfl, .inl ⟨_, _, rfl⟩⟩

/-- A receive finds an empty window at the start of a block. -/
theorem receiveBegin_ok {conn : ActiveUDPConnection σ E} {live : Nat} {fresh : Addr} {block : BlockRef}
    (h : conn.receiveBegin live fresh = .ok block) : block.beginOffset = 0 := by
  unfold ActiveUDPConnection.receiveBegin MessageBlockPool.acquire at h
  split at h
  · cases h
  · split at h
    · cases h
    · rename_i hacq
      split at hacq
      · cases hacq
      · cases hacq
        cases h
        rfl

theorem datagram_payload (s : ActiveUDP σ E) {block : BlockRef} (hb : block.beginOffset = 0) (source : E)
    (bytes : List Byte) :
    (s.datagram block source bytes).payload = bytes.take s.conn.blockPool.blockSize := by
  rw [datagram, BlockRef.capacityAfterBegin, hb, sizeSub_of_le (Nat.zero_le _), Nat.sub_zero]

theorem Inv.arrive {i : Nat} {block : BlockRef} (hi : s.Inv) (hb : block.beginOffset = 0)
    (outcome : Except ErrorCode (E × List Byte)) : (s.arrive i block outcome).Inv := by
  have hl := s.arrive_later i block outcome
  cases outcome with
  | error => exact hi.set hl rfl (callInv_receiving hb (by simp))
  | ok q =>
      refine hi.set hl rfl (callInv_receiving hb fun d hd => ?_)
      cases hd
      exact ⟨List.getElem?_concat_length, s.datagram_payload hb q.1 q.2⟩

theorem step_inv (hi : s.Inv) (h : s.step e = some s') : s'.Inv := by
  have hl := step_later h
  cases e with
  | send mem message =>
      cases h
      obtain ⟨c, hcalls, ⟨size, op, rfl⟩ | ⟨r, rfl⟩⟩ := s.calls_send mem message
      · exact hi.push hl hcalls (callInv_sending size op)
      · exact hi.push hl hcalls (callInv_sent r)
  | receive live fresh =>
      cases h
      apply hi.push hl rfl
      cases hr : s.conn.receiveBegin live fresh with
      | ok block =>
          refine callInv_receiving (receiveBegin_ok hr) fun d hd => ?_
          unfold Lib.Operation.start at hd
          split at hd <;> cases hd
      | error err => exact callInv_received (by simp)
  | close ec =>
      cases h
      exact hi.closeSocket hl rfl (callInv_ended ⟨_, .inl rfl⟩ rfl)
  | abort ec =>
      cases h
      exact hi.closeSocket hl rfl (callInv_ended ⟨_, .inr rfl⟩ rfl)
  | transmit i outcome =>
      simp only [step] at h
      split at h
      · cases h
      · cases h
        exact hi.set hl rfl (callInv_sending _ _)
      · cases h
  | arrive i outcome =>
      simp only [step] at h
      split at h
      · cases h
      · rename_i hblock _
        cases h
        exact hi.arrive ((hi _ (List.mem_of_getElem? hblock)).block _ _ rfl) _
      · cases h
  | resume i =>
      simp only [step] at h
      split at h
      · cases h
        exact hi.set hl rfl (callInv_sent _)
      · rename_i block outcome hblock
        cases h
        refine hi.set hl rfl (callInv_received fun d hd => ?_)
        cases outcome with
        | error => cases hd
        | ok d' =>
            cases hd
            exact hl.arrived ((hi _ (List.mem_of_getElem? hblock)).completed _ _ rfl)
      · cases h

theorem inv_of_reachable (h : (system σ E).Reachable s) : s.Inv := by
  refine h.invariant (I := Inv) ?_ fun s e s' hi hst => step_inv hi hst
  rintro s ⟨framer, framerState, remoteEndpoint, blockPool, rfl⟩
  simp [Inv, create]

/-! ## The Messages that were returned -/

theorem mem_set_iff_of_ne {α : Type} {l : List α} {i : Nat} {a b x : α} (hi : l[i]? = some a) (hx : x ≠ a) :
    x ∈ l.set i b ↔ x ∈ l ∨ x = b := by
  refine ⟨List.mem_or_eq_of_mem_set, ?_⟩
  rintro (hm | rfl)
  · obtain ⟨j, hj⟩ := List.mem_iff_getElem?.mp hm
    have hne : i ≠ j := fun he => hx (Option.some.inj (hj.symm.trans (he ▸ hi)))
    exact List.mem_of_getElem? ((List.getElem?_set_ne hne).trans hj)
  · exact List.mem_set (List.getElem?_eq_some_iff.mp hi).1 _

theorem cancel_eq_received {r : Result (Datagram E)} : c.cancel = .received r ↔ c = .received r := by
  cases c <;> simp [ActiveCall.cancel]

theorem received_mem_cancel {r : Result (Datagram E)} :
    .received r ∈ s.calls.map ActiveCall.cancel ↔ .received r ∈ s.calls := by
  simp only [List.mem_map, cancel_eq_received, exists_eq_right]

theorem arrive_calls (s : ActiveUDP σ E) (i : Nat) (block : BlockRef)
    (outcome : Except ErrorCode (E × List Byte)) : ∃ op, (s.arrive i block outcome).conn = s.conn ∧
      (s.arrive i block outcome).calls = s.calls.set i (.receiving block op) := by
  cases outcome with
  | error => exact ⟨_, rfl, rfl⟩
  | ok q => exact ⟨_, rfl, rfl⟩

theorem step_received (h : s.step e = some s') :
    s'.conn.remoteEndpoint = s.conn.remoteEndpoint ∧
      (.received (.ok d) ∈ s'.calls ↔ .received (.ok d) ∈ s.calls ∨
        ∃ i block, e = .resume i ∧ s.calls[i]? = some (.receiving block (.completed (.ok d)))) := by
  cases e with
  | send mem message =>
      cases h
      obtain ⟨c, hcalls, ⟨size, op, rfl⟩ | ⟨r, rfl⟩⟩ := s.calls_send mem message
      · exact ⟨remoteEndpoint_sendBegin .., by simp [hcalls]⟩
      · exact ⟨remoteEndpoint_sendBegin .., by simp [hcalls]⟩
  | receive live fresh =>
      cases h
      refine ⟨rfl, ?_⟩
      unfold receive push
      split <;> simp
  | close ec | abort ec =>
      cases h
      exact ⟨rfl, by simp [close, abort, push, closeSocket, received_mem_cancel]⟩
  | transmit i outcome =>
      simp only [step] at h
      split at h
      · cases h
      · rename_i hi _
        cases h
        exact ⟨rfl, by simp [set, mem_set_iff_of_ne hi]⟩
      · cases h
  | arrive i outcome =>
      simp only [step] at h
      split at h
      · cases h
      · rename_i hi _
        cases h
        obtain ⟨op, hconn, hcalls⟩ := s.arrive_calls i _ _
        exact ⟨by rw [hconn], by simp [hcalls, mem_set_iff_of_ne hi]⟩
      · cases h
  | resume i =>
      simp only [step] at h
      split at h
      · rename_i hi
        cases h
        exact ⟨rfl, by simp [set, mem_set_iff_of_ne hi, hi]⟩
      · rename_i block outcome hi
        cases h
        refine ⟨rfl, ?_⟩
        rw [set, mem_set_iff_of_ne hi (by simp)]
        cases outcome <;> simp [hi, ActiveUDPConnection.receiveEnd, eq_comm]
      · cases h

/-- A step keeps the Messages to those of the remote endpoint if and only if the one that it returns, if any,
is. -/
theorem step_onlyPeer (h : s.step e = some s') (hs : s.OnlyPeer) : s'.OnlyPeer ↔ s.FromPeer e := by
  constructor
  · rintro hs' i block d rfl hi
    have hd := hs' d ((step_received h).2.mpr (.inr ⟨i, block, rfl, hi⟩))
    rwa [(step_received (d := d) h).1] at hd
  · intro hpeer d hd
    rw [(step_received (d := d) h).1]
    rcases (step_received h).2.mp hd with hd | ⟨i, block, he, hi⟩
    · exact hs d hd
    · exact hpeer i block d he hi

theorem receive_refused (h : s.conn.state = .closed) (live : Nat) (fresh : Addr) :
    s.step (.receive live fresh) = some (s.push (.received (.error
      ⟨.receiveError, .invalidState, .text "Connection not established"⟩))) := by
  simp [step, receive, ActiveUDPConnection.receiveBegin, h]

end Taps.ActiveUDP
