import Taps.Udp.Ends
import Taps.Udp.Lemmas.Active

/-!
# What a step does to the calls on an active UDP connection

A step begins a call, it goes on with one, or it closes the socket, which cancels what the others wait for.
-/

namespace Taps

/-! ## Calls -/

namespace ActiveCall

variable {E : Type} {c : ActiveCall E}

@[simp] theorem error_cancel (c : ActiveCall E) : c.cancel.error = c.error := by
  cases c <;> rfl

theorem cancel_of_returned (h : c.Returned) : c.cancel = c := by
  cases c with
  | sending | receiving => exact h.elim
  | sent | received | closed | aborted => rfl

theorem cancel_of_cancelled (h : c.Cancelled) : c.cancel = c := by
  rcases h with ⟨size, rfl⟩ | ⟨block, rfl⟩ <;> rfl

theorem cancelled_cancel (h : c.Pending) : c.cancel.Cancelled := by
  rcases h with ⟨size, rfl⟩ | ⟨block, rfl⟩
  · exact .inl ⟨size, rfl⟩
  · exact .inr ⟨block, rfl⟩

theorem not_pending_cancel (c : ActiveCall E) : ¬ c.cancel.Pending := by
  rintro (⟨size, h⟩ | ⟨block, h⟩)
  · cases c with
    | sending size' op => exact op.cancel_ne_pending _ (ActiveCall.sending.inj h).2
    | receiving | sent | received | closed | aborted => cases h
  · cases c with
    | receiving block' op => exact op.cancel_ne_pending _ (ActiveCall.receiving.inj h).2
    | sending | sent | received | closed | aborted => cases h

theorem not_pending_of_returned (h : c.Returned) : ¬ c.Pending := by
  rintro (⟨size, rfl⟩ | ⟨block, rfl⟩) <;> exact h

theorem not_cancelled_of_returned (h : c.Returned) : ¬ c.Cancelled := by
  rintro (⟨size, rfl⟩ | ⟨block, rfl⟩) <;> exact h

theorem eq_of_error {r : Result Unit} {err : TAPSError} (hc : c = .sent r ∨ c = .closed r ∨ c = .aborted r)
    (h : c.error = some err) : r = .error err := by
  cases r with
  | ok => rcases hc with rfl | rfl | rfl <;> cases h
  | error e => rcases hc with rfl | rfl | rfl <;> exact congrArg _ (Option.some.inj h)

theorem returned_of_error {err : TAPSError} (h : c.error = some err) : c.Returned := by
  cases c with
  | sending | receiving => cases h
  | sent | received | closed | aborted => trivial

end ActiveCall

/-! ## Steps -/

namespace ActiveUDP

variable {σ E : Type} {s s' s'' : ActiveUDP σ E} {e : ActiveEvent E} {c : ActiveCall E}

/-- A call begins: it waits for the socket, or it is refused at once. -/
inductive Begins (s : ActiveUDP σ E) : ActiveCall E → Prop
  | sending (size : Nat) (h : s.conn.state = .established) :
      Begins s (.sending size (.start s.socketOpen .badDescriptor))
  | receiving (block : BlockRef) (h : s.conn.state = .established) :
      Begins s (.receiving block (.start s.socketOpen .badDescriptor))
  | refused {c : ActiveCall E} {err : TAPSError} (hc : c = .sent (.error err) ∨ c = .received (.error err))
      (hevent : err.event ≠ .connectionError) (habort : err.reason ≠ .localAbort)
      (hstate : err.reason = .invalidState → s.conn.state ≠ .established) : Begins s c

/-- A call goes on: the socket completes what it waits for, or it is resumed and returns. -/
inductive Goes (conn : ActiveUDPConnection σ E) : ActiveCall E → ActiveCall E → Prop
  | transmitted {size : Nat} {outcome : Except ErrorCode Nat} (h : outcome ≠ .error .operationAborted) :
      Goes conn (.sending size .pending) (.sending size (.completed outcome))
  | arrived {block : BlockRef} {outcome : Except ErrorCode (Datagram E)} (h : outcome ≠ .error .operationAborted) :
      Goes conn (.receiving block .pending) (.receiving block (.completed outcome))
  | sent {size : Nat} {outcome : Except ErrorCode Nat} :
      Goes conn (.sending size (.completed outcome)) (.sent (conn.sendEnd size outcome))
  | received {block : BlockRef} {outcome : Except ErrorCode (Datagram E)} :
      Goes conn (.receiving block (.completed outcome)) (.received (conn.receiveEnd outcome))

inductive Effect (s s' : ActiveUDP σ E) : Prop
  | begins {c : ActiveCall E} (hstate : s'.conn.state = s.conn.state) (haborted : s'.conn.aborted = s.conn.aborted)
      (hopen : s'.socketOpen = s.socketOpen) (hcalls : s'.calls = s.calls ++ [c]) (hc : Begins s c)
  | goes {i : Nat} {c c' : ActiveCall E} (hconn : s'.conn = s.conn) (hopen : s'.socketOpen = s.socketOpen)
      (hi : s.calls[i]? = some c) (hcalls : s'.calls = s.calls.set i c') (hc : Goes s.conn c c')
  | ends {c : ActiveCall E} (hstate : s'.conn.state = .closed) (hopen : s'.socketOpen = false)
      (hcalls : s'.calls = s.calls.map ActiveCall.cancel ++ [c])
      (herror : ∀ err, c.error = some err → err.reason = .internalError)
      (hc : (∃ r, c = .closed r) ∧ s'.conn.aborted = s.conn.aborted ∨
        (∃ r, c = .aborted r) ∧ s'.conn.aborted = true)

theorem sendBegin_cases (conn : ActiveUDPConnection σ E) (mem : Memory) (message : Message) :
    (∃ err, conn.sendBegin mem message = (conn, .error err) ∧ err.event = .sendError ∧
      err.reason = .invalidState ∧ conn.state ≠ .established) ∨
    ∃ framerState buffers, conn.sendBegin mem message = ({ conn with framerState }, .ok buffers) ∧
      conn.state = .established := by
  unfold ActiveUDPConnection.sendBegin
  split
  · rename_i hstate
    exact .inl ⟨_, rfl, rfl, rfl, hstate⟩
  · rename_i hstate
    exact .inr ⟨_, _, rfl, not_not.mp hstate⟩

theorem receiveBegin_cases (conn : ActiveUDPConnection σ E) (live : Nat) (fresh : Addr) :
    (∃ err, conn.receiveBegin live fresh = .error err ∧ err.event = .receiveError ∧
      (err.reason = .invalidState ∧ conn.state ≠ .established ∨ err.reason = .resourceExhausted)) ∨
    ∃ block, conn.receiveBegin live fresh = .ok block ∧ conn.state = .established := by
  unfold ActiveUDPConnection.receiveBegin
  split
  · rename_i hstate
    exact .inl ⟨_, rfl, rfl, .inl ⟨rfl, hstate⟩⟩
  · rename_i hstate
    split
    · exact .inl ⟨_, rfl, rfl, .inr rfl⟩
    · exact .inr ⟨_, rfl, not_not.mp hstate⟩

theorem send_effect (s : ActiveUDP σ E) (mem : Memory) (message : Message) : Effect s (s.send mem message) := by
  rcases sendBegin_cases s.conn mem message with ⟨err, hr, hevent, hreason, hstate⟩ | ⟨framerState, buffers, hr, hstate⟩
  · simp only [send, hr]
    refine .begins rfl rfl rfl rfl (.refused (.inl rfl) ?_ ?_ fun _ => hstate)
    · simp [hevent]
    · simp [hreason]
  · simp only [send, hr]
    exact .begins rfl rfl rfl rfl (.sending _ hstate)

theorem receive_effect (s : ActiveUDP σ E) (live : Nat) (fresh : Addr) : Effect s (s.receive live fresh) := by
  rcases receiveBegin_cases s.conn live fresh with ⟨err, hr, hevent, hreason⟩ | ⟨block, hr, hstate⟩
  · simp only [receive, hr]
    refine .begins rfl rfl rfl rfl (.refused (.inr rfl) ?_ ?_ fun hi => ?_)
    · simp [hevent]
    · rcases hreason with ⟨hreason, -⟩ | hreason <;> simp [hreason]
    · rcases hreason with ⟨-, hstate⟩ | hreason
      · exact hstate
      · rw [hreason] at hi
        cases hi
  · simp only [receive, hr]
    exact .begins rfl rfl rfl rfl (.receiving _ hstate)

theorem error_close {conn : ActiveUDPConnection σ E} {ec : Option ErrorCode} {err : TAPSError}
    (h : (conn.close ec).2 = .error err) : err.reason = .internalError := by
  cases ec with
  | some ec =>
      cases h
      rfl
  | none => cases h

theorem close_effect (s : ActiveUDP σ E) (ec : Option ErrorCode) : Effect s (s.close ec) := by
  refine .ends rfl rfl rfl (fun err herr => ?_) (.inl ⟨⟨_, rfl⟩, rfl⟩)
  have hr : (s.conn.close (s.closeError ec)).2 = .error err := ActiveCall.eq_of_error (.inr (.inl rfl)) herr
  exact error_close hr

theorem abort_effect (s : ActiveUDP σ E) (ec : Option ErrorCode) : Effect s (s.abort ec) := by
  refine .ends rfl rfl rfl (fun err herr => ?_) (.inr ⟨⟨_, rfl⟩, rfl⟩)
  have hr : (s.conn.abort (s.closeError ec)).2 = .error err := ActiveCall.eq_of_error (.inr (.inr rfl)) herr
  exact error_close hr

theorem arrive_effect {i : Nat} {block : BlockRef} {outcome : Except ErrorCode (E × List Byte)}
    (hi : s.calls[i]? = some (.receiving block .pending)) (h : outcome ≠ .error .operationAborted) :
    Effect s (s.arrive i block outcome) := by
  cases outcome with
  | error ec => exact .goes rfl rfl hi rfl (.arrived fun hec => h (congrArg _ (Except.error.inj hec)))
  | ok q => exact .goes rfl rfl hi rfl (.arrived nofun)

theorem step_effect (h : s.step e = some s') : Effect s s' := by
  cases e with
  | send mem message =>
      cases h
      exact s.send_effect mem message
  | receive live fresh =>
      cases h
      exact s.receive_effect live fresh
  | close ec =>
      cases h
      exact s.close_effect ec
  | abort ec =>
      cases h
      exact s.abort_effect ec
  | transmit i outcome =>
      simp only [step] at h
      split at h
      · cases h
      · rename_i hi hne
        cases h
        exact .goes rfl rfl hi rfl (.transmitted hne)
      · cases h
  | arrive i outcome =>
      simp only [step] at h
      split at h
      · cases h
      · rename_i hi hne
        cases h
        exact arrive_effect hi hne
      · cases h
  | resume i =>
      simp only [step] at h
      split at h
      · rename_i hi
        cases h
        exact .goes rfl rfl hi rfl .sent
      · rename_i hi
        cases h
        exact .goes rfl rfl hi rfl .received
      · cases h

/-! ## The invariant -/

/-- What can be said of a call, given the state of the connection. -/
structure CallLife (s : ActiveUDP σ E) (c : ActiveCall E) : Prop where
  ended : c.Ended → s.conn.state = .closed
  aborted : (∃ r, c = .aborted r) → s.conn.aborted = true
  pending : c.Pending → s.conn.state ≠ .closed
  cancelled : c.Cancelled → s.conn.state = .closed
  failed : ∀ err, c.error = some err → err.event = .connectionError ∨ err.reason = .invalidState →
    s.conn.state = .closed
  localAbort : ∀ err, c.error = some err → err.reason = .localAbort → s.conn.aborted = true

structure Life (s : ActiveUDP σ E) : Prop where
  state : s.conn.state = .established ∧ s.socketOpen = true ∨
    s.conn.state = .closed ∧ s.socketOpen = false ∧ s.Closed
  aborted : s.conn.aborted = true → s.Aborted
  calls : ∀ c ∈ s.calls, s.CallLife c

theorem CallLife.of_conn (h : s.CallLife c) (hstate : s'.conn.state = s.conn.state)
    (haborted : s'.conn.aborted = s.conn.aborted) : s'.CallLife c := by
  constructor
  · rw [hstate]
    exact h.ended
  · rw [haborted]
    exact h.aborted
  · rw [hstate]
    exact h.pending
  · rw [hstate]
    exact h.cancelled
  · rw [hstate]
    exact h.failed
  · rw [haborted]
    exact h.localAbort

/-- Of a call that neither has returned nor was cancelled there is nothing to say but that it waits. -/
theorem callLife_waiting (hreturned : ¬ c.Returned) (hcancelled : ¬ c.Cancelled)
    (hpending : c.Pending → s.conn.state ≠ .closed) : s.CallLife c where
  ended hc := by
    obtain ⟨r, rfl | rfl⟩ := hc <;> exact absurd trivial hreturned
  aborted hc := by
    obtain ⟨r, rfl⟩ := hc
    exact absurd trivial hreturned
  pending := hpending
  cancelled hc := absurd hc hcancelled
  failed err herr := absurd (ActiveCall.returned_of_error herr) hreturned
  localAbort err herr := absurd (ActiveCall.returned_of_error herr) hreturned

/-- Of a `send()` or a `receive()` that has returned there is to say what its error says. -/
theorem callLife_returned (hreturned : c.Returned) (hcall : c.event ≠ .connectionError)
    (hfailed : ∀ err, c.error = some err → err.event = .connectionError ∨ err.reason = .invalidState →
      s.conn.state = .closed)
    (habort : ∀ err, c.error = some err → err.reason = .localAbort → s.conn.aborted = true) : s.CallLife c where
  ended hc := by
    obtain ⟨r, rfl | rfl⟩ := hc <;> exact absurd rfl hcall
  aborted hc := by
    obtain ⟨r, rfl⟩ := hc
    exact absurd rfl hcall
  pending hc := absurd hc (ActiveCall.not_pending_of_returned hreturned)
  cancelled hc := absurd hc (ActiveCall.not_cancelled_of_returned hreturned)
  failed := hfailed
  localAbort := habort

theorem CallLife.cancel (h : s.CallLife c) (hstate : s'.conn.state = .closed)
    (haborted : s.conn.aborted = true → s'.conn.aborted = true) : s'.CallLife c.cancel where
  ended _ := hstate
  aborted hc := by
    obtain ⟨r, hr⟩ := hc
    refine haborted (h.aborted ⟨r, ?_⟩)
    cases c <;> cases hr
    rfl
  pending hc := absurd hc c.not_pending_cancel
  cancelled _ := hstate
  failed _ _ _ := hstate
  localAbort err herr hr := haborted (h.localAbort err (c.error_cancel ▸ herr) hr)

theorem start_of_open (h : s.socketOpen = true) {α : Type} :
    Lib.Operation.start (α := α) s.socketOpen ErrorCode.badDescriptor = .pending := by
  rw [h]
  rfl

theorem Begins.callLife (h : Begins s c) (hl : s.Life) : s.CallLife c := by
  have hopen : s.conn.state = .established → s.socketOpen = true := by
    intro hstate
    rcases hl.state with ⟨-, hopen⟩ | ⟨hclosed, -⟩
    · exact hopen
    · rw [hstate] at hclosed
      cases hclosed
  cases h with
  | sending size hstate =>
      rw [start_of_open (hopen hstate)]
      refine callLife_waiting id ?_ fun _ => by simp [hstate]
      rintro (⟨size', h⟩ | ⟨block, h⟩) <;> cases h
  | receiving block hstate =>
      rw [start_of_open (hopen hstate)]
      refine callLife_waiting id ?_ fun _ => by simp [hstate]
      rintro (⟨size, h⟩ | ⟨block', h⟩) <;> cases h
  | @refused c err hc hevent habort hstate =>
      have hreturned : c.Returned := by rcases hc with rfl | rfl <;> trivial
      have herror : c.error = some err := by rcases hc with rfl | rfl <;> rfl
      have hcall : c.event ≠ .connectionError := by rcases hc with rfl | rfl <;> exact nofun
      refine callLife_returned hreturned hcall (fun err' herr hfailed => ?_) fun err' herr hr => ?_
      · obtain rfl : err = err' := Option.some.inj (herror.symm.trans herr)
        rcases hl.state with ⟨hest, -⟩ | ⟨hclosed, -⟩
        · rcases hfailed with hce | hi
          · exact absurd hce hevent
          · exact absurd hest (hstate hi)
        · exact hclosed
      · obtain rfl : err = err' := Option.some.inj (herror.symm.trans herr)
        exact absurd hr habort

/-- What a failure of the socket says of the connection. -/
theorem udpFailure_cases {event : ErrorEvent} (hevent : event ≠ .connectionError) (ec : ErrorCode)
    (aborted : Bool) :
    ec = .operationAborted ∧ udpFailure event ec aborted = cancelled event aborted ∨
      ec ≠ .operationAborted ∧ (udpFailure event ec aborted).event ≠ .connectionError ∧
        (udpFailure event ec aborted).reason ≠ .invalidState ∧ (udpFailure event ec aborted).reason ≠ .localAbort := by
  unfold udpFailure
  split
  · exact .inl ⟨‹_›, rfl⟩
  · rename_i hec
    refine .inr ⟨hec, hevent, ?_, ?_⟩
    · cases ec <;> simp [ioError, reasonFrom]
    · cases ec <;> simp [ioError, reasonFrom] at hec ⊢

/-- An error of `send()` or `receive()` after the socket has failed: the operation was cancelled, or the error says
nothing of the connection. -/
def Fails (conn : ActiveUDPConnection σ E) (event : ErrorEvent) (cancels : Prop) (err : TAPSError) : Prop :=
  cancels ∧ err = cancelled event conn.aborted ∨
    err.event ≠ .connectionError ∧ err.reason ≠ .invalidState ∧ err.reason ≠ .localAbort

theorem sendEnd_fails {conn : ActiveUDPConnection σ E} {size : Nat} {outcome : Except ErrorCode Nat}
    {err : TAPSError} (h : conn.sendEnd size outcome = .error err) :
    Fails conn .sendError (outcome = .error .operationAborted) err := by
  cases outcome with
  | error ec =>
      cases h
      have hevent : ErrorEvent.sendError ≠ .connectionError := nofun
      rcases udpFailure_cases hevent ec conn.aborted with ⟨rfl, heq⟩ | ⟨-, hother⟩
      · exact .inl ⟨rfl, heq⟩
      · exact .inr hother
  | ok n =>
      simp only [ActiveUDPConnection.sendEnd] at h
      split at h
      · cases h
        exact .inr ⟨nofun, nofun, nofun⟩
      · cases h

theorem receiveEnd_fails {conn : ActiveUDPConnection σ E} {outcome : Except ErrorCode (Datagram E)}
    {err : TAPSError} (h : conn.receiveEnd outcome = .error err) :
    Fails conn .receiveError (outcome = .error .operationAborted) err := by
  cases outcome with
  | error ec =>
      cases h
      have hevent : ErrorEvent.receiveError ≠ .connectionError := nofun
      rcases udpFailure_cases hevent ec conn.aborted with ⟨rfl, heq⟩ | ⟨-, hother⟩
      · exact .inl ⟨rfl, heq⟩
      · exact .inr hother
  | ok d => cases h

/-- What a call that returns says is true of the connection. -/
theorem Fails.callLife {event : ErrorEvent} {cancels : Prop}
    (h : ∀ err, c.error = some err → Fails s.conn event cancels err) (hreturned : c.Returned)
    (hcall : c.event ≠ .connectionError) (hcancels : cancels → s.conn.state = .closed) : s.CallLife c := by
  refine callLife_returned hreturned hcall (fun err herr hfailed => ?_) fun err herr hr => ?_
  · rcases h err herr with ⟨hc, -⟩ | ⟨hce, hi, -⟩
    · exact hcancels hc
    · rcases hfailed with hfailed | hfailed
      · exact absurd hfailed hce
      · exact absurd hfailed hi
  · rcases h err herr with ⟨-, rfl⟩ | ⟨-, -, hlocal⟩
    · by_contra habort
      simp [cancelled, habort] at hr
    · exact absurd hr hlocal

theorem error_received {r : Result (Datagram E)} {err : TAPSError} (h : (ActiveCall.received r).error = some err) :
    r = .error err := by
  cases r with
  | ok => cases h
  | error => exact congrArg _ (Option.some.inj h)

theorem Goes.callLife {c' : ActiveCall E} (h : Goes s.conn c c') (hl : s.CallLife c) : s.CallLife c' := by
  cases h with
  | @transmitted size outcome hne =>
      refine callLife_waiting id ?_ fun _ => hl.pending (.inl ⟨size, rfl⟩)
      rintro (⟨size', hc⟩ | ⟨block, hc⟩)
      · cases hc
        exact hne rfl
      · cases hc
  | @arrived block outcome hne =>
      refine callLife_waiting id ?_ fun _ => hl.pending (.inr ⟨block, rfl⟩)
      rintro (⟨size, hc⟩ | ⟨block', hc⟩)
      · cases hc
      · cases hc
        exact hne rfl
  | @sent size outcome =>
      refine Fails.callLife (fun err herr => sendEnd_fails (ActiveCall.eq_of_error (.inl rfl) herr)) trivial nofun ?_
      rintro rfl
      exact hl.cancelled (.inl ⟨size, rfl⟩)
  | @received block outcome =>
      refine Fails.callLife (fun err herr => receiveEnd_fails (error_received herr)) trivial nofun ?_
      rintro rfl
      exact hl.cancelled (.inr ⟨block, rfl⟩)

theorem Life.step (h : s.Life) (heff : Effect s s') : s'.Life := by
  cases heff with
  | @begins c hstate haborted hopen hcalls hc =>
      have hmem : ∀ c ∈ s.calls, c ∈ s'.calls := fun c hm => by simp [hcalls, hm]
      constructor
      · rw [hstate, hopen]
        exact h.state.imp_right fun ⟨hclosed, hno, c, hm, hr⟩ => ⟨hclosed, hno, c, hmem c hm, hr⟩
      · rw [haborted]
        exact fun ha => (h.aborted ha).imp fun r => hmem _
      · intro c' hc'
        rw [hcalls] at hc'
        rcases List.mem_append.mp hc' with hm | hm
        · exact (h.calls c' hm).of_conn hstate haborted
        · rw [List.mem_singleton.mp hm]
          exact (hc.callLife h).of_conn hstate haborted
  | @goes i c c' hconn hopen hi hcalls hc =>
      have hmem : ∀ c₀ ∈ s.calls, c₀.Ended → c₀ ∈ s'.calls := by
        intro c₀ hm hended
        rw [hcalls]
        refine (mem_set_iff_of_ne hi ?_).mpr (.inl hm)
        rintro rfl
        obtain ⟨r, rfl | rfl⟩ := hended <;> cases hc
      constructor
      · rw [hconn, hopen]
        refine h.state.imp_right fun ⟨hclosed, hno, c₀, hm, r, hr⟩ => ⟨hclosed, hno, c₀, hmem c₀ hm ⟨r, hr⟩, r, hr⟩
      · rw [hconn]
        exact fun ha => (h.aborted ha).imp fun r hm => hmem _ hm ⟨r, .inr rfl⟩
      · intro c₀ hc₀
        rw [hcalls] at hc₀
        rcases List.mem_or_eq_of_mem_set hc₀ with hm | rfl
        · exact (h.calls c₀ hm).of_conn (by rw [hconn]) (by rw [hconn])
        · exact (hc.callLife (h.calls c (List.mem_of_getElem? hi))).of_conn (by rw [hconn]) (by rw [hconn])
  | @ends c hstate hopen hcalls herror hc =>
      have hmem : c ∈ s'.calls := by simp [hcalls]
      have haborted : s.conn.aborted = true → s'.conn.aborted = true := by
        rcases hc with ⟨-, ha⟩ | ⟨-, ha⟩ <;> simp [ha]
      constructor
      · refine .inr ⟨hstate, hopen, c, hmem, ?_⟩
        rcases hc with ⟨⟨r, hr⟩, -⟩ | ⟨⟨r, hr⟩, -⟩
        · exact ⟨r, .inl hr⟩
        · exact ⟨r, .inr hr⟩
      · intro ha
        rcases hc with ⟨-, hsame⟩ | ⟨⟨r, rfl⟩, -⟩
        · obtain ⟨r, hr⟩ := h.aborted (hsame ▸ ha)
          refine ⟨r, ?_⟩
          rw [hcalls]
          exact List.mem_append_left _ (List.mem_map.mpr ⟨_, hr, rfl⟩)
        · exact ⟨r, hmem⟩
      · intro c₀ hc₀
        rw [hcalls] at hc₀
        rcases List.mem_append.mp hc₀ with hm | hm
        · obtain ⟨c₁, hc₁, rfl⟩ := List.mem_map.mp hm
          exact (h.calls c₁ hc₁).cancel hstate haborted
        · rw [List.mem_singleton.mp hm]
          have hreturned : c.Returned := by rcases hc with ⟨⟨r, rfl⟩, -⟩ | ⟨⟨r, rfl⟩, -⟩ <;> trivial
          refine ⟨fun _ => hstate, fun hr => ?_, ?_, ?_, fun _ _ _ => hstate, fun err herr hr => ?_⟩
          · rcases hc with ⟨⟨r, rfl⟩, -⟩ | ⟨-, ha⟩
            · obtain ⟨r', hr'⟩ := hr
              cases hr'
            · exact ha
          · exact fun hp => absurd hp (ActiveCall.not_pending_of_returned hreturned)
          · exact fun hp => absurd hp (ActiveCall.not_cancelled_of_returned hreturned)
          · rw [herror err herr] at hr
            cases hr

theorem life_of_reachable (h : (system σ E).Reachable s) : s.Life := by
  refine h.invariant (I := Life) ?_ fun s e s' hl hst => hl.step (step_effect hst)
  rintro s ⟨framer, framerState, remoteEndpoint, blockPool, rfl⟩
  exact ⟨.inl ⟨rfl, rfl⟩, nofun, by simp [create]⟩

/-! ## What the invariant says -/

theorem Life.closed_iff (h : s.Life) : s.Closed ↔ s.conn.state = .closed := by
  constructor
  · rintro ⟨c, hc, hended⟩
    exact (h.calls c hc).ended hended
  · intro hclosed
    rcases h.state with ⟨hest, -⟩ | ⟨-, -, hc⟩
    · rw [hest] at hclosed
      cases hclosed
    · exact hc

theorem Life.aborted_iff (h : s.Life) : s.Aborted ↔ s.conn.aborted = true :=
  ⟨fun ⟨_, hr⟩ => (h.calls _ hr).aborted ⟨_, rfl⟩, h.aborted⟩

theorem resume_of_not_pending {i : Nat} (hi : s.calls[i]? = some c) (hc : ¬ c.Pending) :
    c.Returned ∨ ∃ c' : ActiveCall E, c'.Returned ∧ s.step (.resume i) = some (s.set i c') := by
  cases c with
  | sending size op =>
      cases op with
      | pending => exact absurd (.inl ⟨size, rfl⟩) hc
      | completed outcome => exact .inr ⟨.sent (s.conn.sendEnd size outcome), trivial, by simp only [step, hi]⟩
  | receiving block op =>
      cases op with
      | pending => exact absurd (.inr ⟨block, rfl⟩) hc
      | completed outcome => exact .inr ⟨.received (s.conn.receiveEnd outcome), trivial, by simp only [step, hi]⟩
  | sent | received | closed | aborted => exact .inl trivial

theorem Life.cancels (h : s.Life) (heff : Effect s s') (hclosed : s'.conn.state = .closed) {i : Nat}
    (hi : s.calls[i]? = some c) (hc : c.Pending) : s'.calls[i]? = some c.cancel := by
  have hne := (h.calls c (List.mem_of_getElem? hi)).pending hc
  cases heff with
  | begins hstate _ _ _ _ => exact absurd (hstate ▸ hclosed) hne
  | goes hconn _ _ _ _ => exact absurd (hconn ▸ hclosed) hne
  | ends _ _ hcalls _ _ =>
      rw [hcalls, List.getElem?_append_left (by simpa using (List.getElem?_eq_some_iff.mp hi).1), List.getElem?_map, hi]
      rfl

theorem Life.endsLocally (h : s.Life) : s.EndsLocally where
  established hc := by
    rcases h.state with hest | ⟨-, -, hclosed⟩
    · exact hest
    · exact absurd hclosed hc
  closed hc := by
    rcases h.state with ⟨hest, -⟩ | ⟨hclosed, hopen, -⟩
    · rw [h.closed_iff.mp hc] at hest
      cases hest
    · exact ⟨hclosed, hopen⟩
  cancels e s' hst hc i c hi hp := by
    have heff := step_effect hst
    exact ⟨ActiveCall.cancelled_cancel hp, h.cancels heff ((h.step heff).closed_iff.mp hc) hi hp⟩
  settled hc i c hi := by
    refine resume_of_not_pending hi fun hp => ?_
    exact (h.calls c (List.mem_of_getElem? hi)).pending hp (h.closed_iff.mp hc)
  failed c hc err herr hf := h.closed_iff.mpr ((h.calls c hc).failed err herr hf)
  localAbort c hc err herr hr := h.aborted ((h.calls c hc).localAbort err herr hr)

/-! ## What becomes of the calls -/

theorem Concludes.aborted (h : Concludes s s') (ha : s.Aborted) : s'.Aborted := by
  obtain ⟨r, hr⟩ := ha
  obtain ⟨i, hi⟩ := List.mem_iff_getElem?.mp hr
  exact ⟨r, List.mem_of_getElem? (h.returned i _ hi trivial)⟩

theorem concludes_refl (s : ActiveUDP σ E) : Concludes s s where
  returned _ _ hi _ := hi
  cancelled _ _ hi _ := .inl hi

theorem Concludes.trans (h : Concludes s s') (h' : Concludes s' s'') : Concludes s s'' where
  returned i c hi hc := h'.returned i c (h.returned i c hi hc) hc
  cancelled i c hi hc := by
    rcases h.cancelled i c hi hc with hi' | ⟨c', aborted, hi', herr, hbefore, hafter⟩
    · refine (h'.cancelled i c hi' hc).imp_right ?_
      rintro ⟨c', aborted, hi'', herr, hbefore, hafter⟩
      exact ⟨c', aborted, hi'', herr, fun ha => hbefore (h.aborted ha), hafter⟩
    · exact .inr ⟨c', aborted, h'.returned i c' hi' (ActiveCall.returned_of_error herr), herr, hbefore,
        fun ha => h'.aborted (hafter ha)⟩

/-- A call that was cancelled returns what the connection was ended by so far. -/
theorem Goes.of_cancelled {conn : ActiveUDPConnection σ E} {c' : ActiveCall E} (h : Goes conn c c')
    (hc : c.Cancelled) : c'.error = some (cancelled c.event conn.aborted) := by
  rcases hc with ⟨size, rfl⟩ | ⟨block, rfl⟩
  · cases h
    rfl
  · cases h
    rfl

theorem Life.concludes (h : s.Life) (heff : Effect s s') : Concludes s s' := by
  cases heff with
  | begins _ _ _ hcalls _ =>
      have hkeep : ∀ (i : Nat) (c : ActiveCall E), s.calls[i]? = some c → s'.calls[i]? = some c := by
        intro i c hi
        rw [hcalls, List.getElem?_append_left (List.getElem?_eq_some_iff.mp hi).1, hi]
      exact ⟨fun i c hi _ => hkeep i c hi, fun i c hi _ => .inl (hkeep i c hi)⟩
  | @goes i c c' hconn _ hi hcalls hc =>
      have hother : ∀ (j : Nat) (c₀ : ActiveCall E), s.calls[j]? = some c₀ → i ≠ j → s'.calls[j]? = some c₀ := by
        intro j c₀ hj hne
        rw [hcalls, List.getElem?_set_ne hne, hj]
      have hreturned : ∀ (j : Nat) (c₀ : ActiveCall E), s.calls[j]? = some c₀ → c₀.Returned →
          s'.calls[j]? = some c₀ := by
        intro j c₀ hj hc₀
        refine hother j c₀ hj ?_
        rintro rfl
        obtain rfl : c = c₀ := Option.some.inj (hi.symm.trans hj)
        cases hc <;> exact hc₀
      refine ⟨hreturned, fun j c₀ hj hc₀ => ?_⟩
      rcases eq_or_ne i j with rfl | hne
      · obtain rfl : c = c₀ := Option.some.inj (hi.symm.trans hj)
        refine .inr ⟨c', s.conn.aborted, ?_, hc.of_cancelled hc₀, h.aborted_iff.mp, fun ha => ?_⟩
        · rw [hcalls, List.getElem?_set_self (List.getElem?_eq_some_iff.mp hi).1]
        · obtain ⟨r, hr⟩ := h.aborted ha
          obtain ⟨k, hk⟩ := List.mem_iff_getElem?.mp hr
          exact ⟨r, List.mem_of_getElem? (hreturned k _ hk trivial)⟩
      · exact .inl (hother j c₀ hj hne)
  | ends _ _ hcalls _ _ =>
      have hcancel : ∀ (i : Nat) (c : ActiveCall E), s.calls[i]? = some c → c.cancel = c →
          s'.calls[i]? = some c := by
        intro i c hi hc
        rw [hcalls, List.getElem?_append_left (by simpa using (List.getElem?_eq_some_iff.mp hi).1),
          List.getElem?_map, hi, Option.map_some, hc]
      constructor
      · exact fun i c hi hc => hcancel i c hi (ActiveCall.cancel_of_returned hc)
      · exact fun i c hi hc => .inl (hcancel i c hi (ActiveCall.cancel_of_cancelled hc))

theorem Life.run_concludes (h : s.Life) {es : List (ActiveEvent E)} (hrun : (system σ E).Run s es s') :
    Concludes s s' := by
  refine hrun.relates (I := Life) (fun s e s' hl hst => hl.step (step_effect hst)) concludes_refl ?_ ?_ h
  · exact fun _ _ _ => Concludes.trans
  · exact fun s e s' hl hst => hl.concludes (step_effect hst)

end ActiveUDP

end Taps
