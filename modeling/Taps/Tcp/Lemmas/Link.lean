import Taps.Tcp.Lemmas.Verdict

/-!
# What a step does to the calls

A step is about one call. It goes on with that call, or it begins to close the connection, or it closes the
socket; the last two cancel what the other calls wait for.
-/

namespace Taps

/-! ## Calls -/

namespace Call

/-- A `close()` that waits for `stream_->shutdown()`. -/
def Closes (c : Call) : Prop := ∃ on op, c = suspended (.shutdown on) op

/-- The operation was cancelled. -/
def Cancelled (c : Call) : Prop := ∃ wait, c = suspended wait (.completed (.error .operationAborted))

/-- A `close()` or an `abort()` that has completed. -/
def Ended (c : Call) : Prop := ∃ r, c = returned (.closed r) ∨ c = returned (.aborted r)

variable {c : Call} {isOpen : Bool} {p : Progress}

theorem not_ended_suspended {wait : Wait} {op : Lib.Operation ErrorCode Nat} :
    ¬ Ended (suspended wait op) := by
  rintro ⟨r, h | h⟩ <;> cases h

theorem not_ended_received {p : Progress} : ¬ Ended (returned (.received p)) := by
  rintro ⟨r, h | h⟩ <;> cases h

theorem not_ended_sent {r : Result Unit} : ¬ Ended (returned (.sent r)) := by
  rintro ⟨r', h | h⟩ <;> cases h

theorem not_pending_returned {v : Return} : ¬ Pending (returned v) := by
  rintro ⟨wait, h⟩
  cases h

theorem not_cancelled_returned {v : Return} : ¬ Cancelled (returned v) := by
  rintro ⟨wait, h⟩
  cases h

theorem not_closes_returned {v : Return} : ¬ Closes (returned v) := by
  rintro ⟨on, op, h⟩
  cases h

theorem not_closes_read {buffer : ReadBuffer} {op : Lib.Operation ErrorCode Nat} :
    ¬ Closes (suspended (.read buffer) op) := by
  rintro ⟨on, op', h⟩
  cases h

theorem not_closes_write {op : Lib.Operation ErrorCode Nat} : ¬ Closes (suspended .write op) := by
  rintro ⟨on, op', h⟩
  cases h

theorem error_suspended {wait : Wait} {op : Lib.Operation ErrorCode Nat} (e : TAPSError) :
    (suspended wait op).error ≠ some e := by
  intro h
  cases h

theorem not_pending_cancel (c : Call) : ¬ c.cancel.Pending := by
  rintro ⟨wait, h⟩
  cases c with
  | suspended w op => exact op.cancel_ne_pending .operationAborted (Call.suspended.inj h).2
  | returned v => cases h

@[simp] theorem cancel_cancel (c : Call) : c.cancel.cancel = c.cancel := by
  cases c with
  | suspended w op =>
      exact congrArg (suspended w) (Lib.Operation.cancel_of_ne_pending (op.cancel_ne_pending _))
  | returned v => rfl

theorem closes_cancel : c.cancel.Closes ↔ c.Closes := by
  cases c with
  | suspended w op =>
      refine ⟨?_, ?_⟩
      · rintro ⟨on, op', h⟩
        cases h
        exact ⟨on, op, rfl⟩
      · rintro ⟨on, op', h⟩
        cases h
        exact ⟨on, _, rfl⟩
  | returned v => rfl

@[simp] theorem error_cancel (c : Call) : c.cancel.error = c.error := by
  cases c <;> rfl

theorem start_pending {wait : Wait} (h : Pending (suspended wait (.start isOpen .badDescriptor))) :
    isOpen = true := by
  obtain ⟨w, hw⟩ := h
  cases isOpen with
  | true => rfl
  | false => cases hw

theorem start_not_cancelled {wait : Wait} :
    ¬ Cancelled (suspended wait (.start isOpen .badDescriptor)) := by
  rintro ⟨w, hw⟩
  cases isOpen <;> cases hw

theorem ofProgress_cases (isOpen : Bool) (p : Progress) :
    (∃ buffer, p = .suspended buffer ∧
      ofProgress isOpen p = suspended (.read buffer) (.start isOpen .badDescriptor)) ∨
    ofProgress isOpen p = returned (.received p) := by
  cases p with
  | suspended buffer => exact .inl ⟨buffer, rfl, rfl⟩
  | delivered d m => exact .inr rfl
  | ended m => exact .inr rfl
  | incomplete n e => exact .inr rfl
  | failed e => exact .inr rfl

theorem error_ofProgress : (ofProgress isOpen p).error = p.error := by
  cases p <;> rfl

end Call

namespace Link

variable {σ : Type} {s s' : Link σ} {e : LinkEvent} {i : Nat} {c : Call}

theorem getElem?_push (s : Link σ) (c : Call) {j : Nat} (h : j ≠ s.calls.length) :
    (s.push c).calls[j]? = s.calls[j]? := by
  rcases Nat.lt_or_gt_of_ne h with hlt | hgt
  · exact List.getElem?_append_left hlt
  · have hlen : (s.calls ++ [c]).length ≤ j := by
      rw [List.length_append, List.length_singleton]
      exact hgt
    rw [push, List.getElem?_eq_none hlen, List.getElem?_eq_none (Nat.le_of_lt hgt)]

theorem getElem?_push_self (s : Link σ) (c : Call) : (s.push c).calls[s.calls.length]? = some c :=
  List.getElem?_concat_length

theorem getElem?_set_self (c : Call) (h : i < s.calls.length) : (s.set i c).calls[i]? = some c := by
  rw [set, List.getElem?_set_self h]

theorem getElem?_set_ne (s : Link σ) (c : Call) {j : Nat} (h : j ≠ i) :
    (s.set i c).calls[j]? = s.calls[j]? := by
  rw [set, List.getElem?_set_ne h.symm]

/-! ## Pieces of the calls -/

theorem sendBegin_cases (c : TCPConnection σ) (mem : Memory) (m : Message) :
    (∃ e, c.sendBegin mem m = (c, .error e) ∧ e.event = .sendError ∧ e.reason = .invalidState) ∨
      ∃ framerState buffers, c.sendBegin mem m = ({ c with framerState }, .ok buffers) := by
  unfold TCPConnection.sendBegin
  split
  · exact .inl ⟨_, rfl, rfl, rfl⟩
  · split
    · exact .inr ⟨_, _, rfl⟩
    · exact .inr ⟨_, _, rfl⟩

theorem sendEnd_verdict (c : TCPConnection σ) (ec : Option ErrorCode) :
    (c.sendEnd ec).1.state = c.state.after (errorOf (c.sendEnd ec).2) ∧
      (c.sendEnd ec).1.aborted = c.aborted ∧
      ∀ e, errorOf (c.sendEnd ec).2 = some e → e.reason = .localAbort → c.aborted = true := by
  unfold TCPConnection.sendEnd
  split
  · exact ⟨rfl, rfl, fun e he => by cases he⟩
  · split
    · exact ⟨rfl, rfl, fun e he hr => by cases he; cases hr⟩
    · rename_i ec hne
      refine ⟨rfl, rfl, fun e he hr => ?_⟩
      cases he
      by_contra ha
      refine hne ⟨?_, ha⟩
      cases ec <;> first | rfl | cases hr

theorem closeBegin_eq_some {c c' : TCPConnection σ} (h : c.closeBegin = some c') :
    (c.state ≠ .closing ∧ c.state ≠ .closed) ∧ c' = { c with state := .closing } := by
  unfold TCPConnection.closeBegin at h
  split at h
  · cases h
  · rename_i hne
    cases h
    exact ⟨⟨fun hs => hne (.inr hs), fun hs => hne (.inl hs)⟩, rfl⟩

theorem ioError_localAbort {event : ErrorEvent} {ec : ErrorCode}
    (h : (ioError event ec).reason = .localAbort) : ec = .operationAborted := by
  cases ec <;> first | rfl | cases h

/-- An error of `close()` is one of `shutdown()`, or it says that `socket_.close()` has failed. -/
theorem closeEnd_error {c : TCPConnection σ} {sd : Result Unit} {ec : Option ErrorCode} {err : TAPSError}
    (h : errorOf (c.closeEnd sd ec).2 = some err) :
    sd = .error err ∨ ∃ ec, err = TCPConnection.closeFailure ec := by
  unfold TCPConnection.closeEnd at h
  cases sd with
  | error e =>
      cases h
      exact .inl rfl
  | ok u =>
      cases ec with
      | some ec =>
          cases h
          exact .inr ⟨ec, rfl⟩
      | none => cases h

theorem resume_shutdown_cases (isOpen : Bool) (on : ShutdownOperation) (outcome : Except ErrorCode Nat) :
    Shutdown.resume isOpen on outcome = drainUntilEof isOpen ∨
      Shutdown.resume isOpen on outcome = .done (.ok ()) ∨
      ∃ ec, outcome = .error ec ∧
        Shutdown.resume isOpen on outcome = .done (.error (ioError .connectionError ec)) := by
  unfold Shutdown.resume
  split
  · exact .inr (.inl rfl)
  · exact .inr (.inl rfl)
  · exact .inr (.inl rfl)
  · exact .inl rfl
  · exact .inl rfl
  · exact .inr (.inl rfl)
  · exact .inr (.inr ⟨_, rfl, rfl⟩)

theorem shutdown_cases (s : Link σ) (sd : Option ErrorCode) :
    (∃ on, s.shutdown sd = .suspended on (.start s.socketOpen .badDescriptor)) ∨
      ∃ e, sd = some e ∧ s.shutdown sd = .done (.error (ioError .connectionError e)) := by
  unfold Link.shutdown
  split
  · exact .inl ⟨.notify, rfl⟩
  · cases sd with
    | none => exact .inl ⟨.drain, rfl⟩
    | some e => exact .inr ⟨e, rfl, rfl⟩

/-! ## What the events do -/

/-- The steps, one constructor for each way in which a stretch of a call can end. -/
inductive Steps (s : Link σ) : LinkEvent → Link σ → Prop
  | refuse {around m err} (hevent : err.event = .sendError) (hreason : err.reason = .invalidState) :
      Steps s (.send around m) (s.push (.returned (.sent (.error err))))
  | send {around m framerState} :
      Steps s (.send around m) ({ s with conn := { s.conn with framerState } }.push
        (.suspended .write (.start s.socketOpen .badDescriptor)))
  | receive {around conn p}
      (hr : s.conn.receive around.mem around.outside around.fresh = (conn, p)) :
      Steps s (.receive around) ((s.settle conn p).push (.ofProgress s.socketOpen p))
  | closeAgain {sd ec} (hstate : s.conn.state = .closing ∨ s.conn.state = .closed) :
      Steps s (.close sd ec) (s.push (.returned (.closed (.ok ()))))
  | close {sd ec on} (hstate : s.conn.state ≠ .closing ∧ s.conn.state ≠ .closed) :
      Steps s (.close sd ec) ({ s with conn := { s.conn with state := .closing } }.cancel.push
        (.suspended (.shutdown on) (.start s.socketOpen .badDescriptor)))
  | closeFailed {code ec} (hstate : s.conn.state ≠ .closing ∧ s.conn.state ≠ .closed)
      (hcode : code ≠ .operationAborted) :
      Steps s (.close (some code) ec)
        ({ s with conn := { s.conn with state := .closed } }.cancel.closeSocket.push
          (.returned (.closed (.error (ioError .connectionError code)))))
  | abort {ec r} (hr : ∀ e, errorOf r = some e → e.event = .connectionError) :
      Steps s (.abort ec)
        ({ s with conn := { s.conn with aborted := true, state := .closed } }.closeSocket.push
          (.returned (.aborted r)))
  | complete {i wait outcome} (hi : s.calls[i]? = some (.suspended wait .pending))
      (ho : outcome ≠ .error .operationAborted) :
      Steps s (.complete i outcome) (s.set i (.suspended wait (.completed outcome)))
  | read {i buffer outcome around ec conn p}
      (hi : s.calls[i]? = some (.suspended (.read buffer) (.completed outcome)))
      (hr : s.conn.resume around.mem around.outside around.fresh (errorOf outcome) (bytesOf outcome)
        = some (conn, p)) :
      Steps s (.resume i around ec)
        (({ s with outcomes := s.outcomes ++ [outcome] }.settle conn p).set i
          (.ofProgress s.socketOpen p))
  | write {i outcome around ec} (hi : s.calls[i]? = some (.suspended .write (.completed outcome))) :
      Steps s (.resume i around ec) ({ s with conn := (s.conn.sendEnd (errorOf outcome)).1 }.set i
        (.returned (.sent (s.conn.sendEnd (errorOf outcome)).2)))
  | drain {i on outcome around ec}
      (hi : s.calls[i]? = some (.suspended (.shutdown on) (.completed outcome))) :
      Steps s (.resume i around ec)
        (s.set i (.suspended (.shutdown .drain) (.start s.socketOpen .badDescriptor)))
  | closed {i on outcome around ec} (sd : Result Unit)
      (hi : s.calls[i]? = some (.suspended (.shutdown on) (.completed outcome)))
      (hsd : ∀ e, sd = .error e → e.event = .connectionError ∧
        (e.reason = .localAbort → outcome = .error .operationAborted)) :
      Steps s (.resume i around ec)
        ({ s with conn := { s.conn with state := .closed } }.closeSocket.set i
          (.returned (.closed (s.conn.closeEnd sd (s.closeError ec)).2)))

theorem abort_error {c : TCPConnection σ} {ec : Option ErrorCode} {err : TAPSError}
    (h : errorOf (c.abort ec).2 = some err) : err.event = .connectionError := by
  cases ec with
  | none => cases h
  | some code =>
      cases h
      rfl

theorem step_steps (h : s.step e = some s') : Steps s e s' := by
  cases e with
  | send around m =>
      cases h
      unfold Link.send
      rcases sendBegin_cases s.conn around.mem m with ⟨err, h, hevent, hreason⟩ | ⟨framerState, buffers, h⟩
      · rw [h]
        exact .refuse hevent hreason
      · rw [h]
        exact .send
  | receive around =>
      cases h
      exact .receive rfl
  | close sd ec =>
      obtain ⟨hne, h⟩ := Option.ite_none_left_eq_some.mp h
      cases h
      unfold Link.close
      cases hb : s.conn.closeBegin with
      | none =>
          refine .closeAgain ?_
          unfold TCPConnection.closeBegin at hb
          split at hb
          · rename_i h
            exact h.symm
          · cases hb
      | some conn =>
          obtain ⟨hstate, rfl⟩ := closeBegin_eq_some hb
          simp only
          rcases shutdown_cases { s with conn := { s.conn with state := .closing } }.cancel sd with
            ⟨on, hon⟩ | ⟨code, rfl, hcode⟩
          · rw [hon]
            exact .close hstate
          · rw [hcode]
            exact .closeFailed hstate fun hc => hne (congrArg some hc)
  | abort ec =>
      cases h
      exact .abort fun err => abort_error (c := s.conn)
  | complete i outcome =>
      simp only [step] at h
      split at h
      · rename_i hi
        obtain ⟨hadm, h⟩ := Option.ite_none_right_eq_some.mp h
        cases h
        exact .complete hi hadm.1
      · cases h
  | resume i around ec =>
      simp only [step] at h
      split at h
      · rename_i wait outcome hi
        cases wait with
        | read buffer =>
            obtain ⟨⟨conn, p⟩, hr, rfl⟩ := Option.map_eq_some_iff.mp h
            exact .read hi hr
        | write =>
            cases h
            exact .write hi
        | shutdown on =>
            cases h
            rcases resume_shutdown_cases s.socketOpen on outcome with hd | hd | ⟨code, rfl, hd⟩
            · rw [hd]
              exact .drain hi
            · rw [hd]
              exact .closed (.ok ()) hi fun e he => by cases he
            · rw [hd]
              refine .closed (.error (ioError .connectionError code)) hi fun e' he' => ?_
              cases he'
              exact ⟨rfl, fun hr => congrArg Except.error (ioError_localAbort hr)⟩
      · cases h

/-- A new call after all others were cancelled. -/
theorem push_cancelled {t : Link σ} (h : t.calls = s.calls.map Call.cancel) (c : Call) :
    (t.push c).calls[s.calls.length]? = some c ∧
      ∀ j, j ≠ s.calls.length → (t.push c).calls[j]? = (s.calls[j]?).map Call.cancel := by
  have hlen : t.calls.length = s.calls.length := by rw [h, List.length_map]
  refine ⟨hlen ▸ getElem?_push_self t c, fun j hj => ?_⟩
  rw [getElem?_push t c (hlen ▸ hj), h, List.getElem?_map]

theorem map_cancel_cancel (cs : List Call) : (cs.map Call.cancel).map Call.cancel = cs.map Call.cancel := by
  rw [List.map_map]
  exact List.map_congr_left fun c _ => c.cancel_cancel

/-! ## The effect on the calls -/

/-- What a step makes of the `i`-th call, which it is about, and of the others. -/
inductive Effect (s s' : Link σ) (i : Nat) (c : Call) : Prop
  | turns (others : ∀ j, j ≠ i → s'.calls[j]? = s.calls[j]?)
      (isOpen : s'.socketOpen = s.socketOpen) (state : s'.conn.state = s.conn.state.after c.error)
      (aborted : s'.conn.aborted = s.conn.aborted) (pending : c.Pending → s.socketOpen = true)
      (cancelled : ¬ c.Cancelled) (closes : c.Closes → ∃ c₀, s.calls[i]? = some c₀ ∧ c₀.Closes)
      (localAbort : ∀ e, c.error = some e → e.reason = .localAbort → s.conn.aborted = true)
      (ended : c.Ended → s.conn.state ≠ .established)
  | closes (others : ∀ j, j ≠ i → s'.calls[j]? = (s.calls[j]?).map Call.cancel)
      (isOpen : s'.socketOpen = s.socketOpen) (before : s.conn.state ≠ .closing ∧ s.conn.state ≠ .closed)
      (state : s'.conn.state = .closing) (aborted : s'.conn.aborted = s.conn.aborted)
      (pending : c.Pending → s.socketOpen = true) (cancelled : ¬ c.Cancelled) (call : c.Closes)
  | ends (others : ∀ j, j ≠ i → s'.calls[j]? = (s.calls[j]?).map Call.cancel)
      (isOpen : s'.socketOpen = false) (state : s'.conn.state = .closed)
      (aborted : s'.conn.aborted = true ∨ s'.conn.aborted = s.conn.aborted ∧
        ((s.conn.state ≠ .closing ∧ s.conn.state ≠ .closed) ∨ ∃ c₀, s.calls[i]? = some c₀ ∧ c₀.Closes))
      (value : Return) (call : c = .returned value)
      (event : ∀ e, c.error = some e → e.event = .connectionError)
      (localAbort : ∀ e, c.error = some e → e.reason = .localAbort → s'.conn.aborted = true ∨
        ∃ c₀, s.calls[i]? = some c₀ ∧ c₀.Closes ∧ c₀.Cancelled)

theorem effect_of_verdict {conn : TCPConnection σ} {p : Progress} (hv : s.conn.Verdict conn p)
    (hothers : ∀ j, j ≠ i → s'.calls[j]? = s.calls[j]?) (hopen : s'.socketOpen = s.socketOpen)
    (hconn : s'.conn = conn) : Effect s s' i (.ofProgress s.socketOpen p) := by
  have hstate : s'.conn.state = s.conn.state.after (Call.ofProgress s.socketOpen p).error := by
    rw [hconn, Call.error_ofProgress, hv.state]
  have haborted : s'.conn.aborted = s.conn.aborted := by rw [hconn, hv.aborted]
  rcases Call.ofProgress_cases s.socketOpen p with ⟨buffer, -, hc⟩ | hc
  · rw [hc] at hstate ⊢
    exact .turns hothers hopen hstate haborted Call.start_pending Call.start_not_cancelled
      (fun h => absurd h Call.not_closes_read) (fun e h => absurd h (Call.error_suspended e))
      fun h => absurd h Call.not_ended_suspended
  · rw [hc] at hstate ⊢
    exact .turns hothers hopen hstate haborted (fun h => absurd h Call.not_pending_returned)
      Call.not_cancelled_returned (fun h => absurd h Call.not_closes_returned) hv.localAbort
      fun h => absurd h Call.not_ended_received

theorem Steps.effect (h : Steps s e s') :
    ∃ c, s'.calls[s.callOf e]? = some c ∧ Effect s s' (s.callOf e) c := by
  cases h with
  | @refuse around m err hevent hreason =>
      have hne : err.event ≠ .connectionError := by
        rw [hevent]
        exact nofun
      refine ⟨_, getElem?_push_self _ _, .turns (fun j hj => getElem?_push _ _ hj) rfl
        (s.conn.state.after_of_ne hne).symm rfl (fun h => absurd h Call.not_pending_returned)
        Call.not_cancelled_returned (fun h => absurd h Call.not_closes_returned) ?_
        fun h => absurd h Call.not_ended_sent⟩
      intro e' he' hr'
      cases he'
      rw [hreason] at hr'
      cases hr'
  | send =>
      exact ⟨_, getElem?_push_self _ _, .turns (fun j hj => getElem?_push _ _ hj) rfl rfl rfl
        Call.start_pending Call.start_not_cancelled (fun h => absurd h Call.not_closes_write)
        (fun e h => absurd h (Call.error_suspended e)) fun h => absurd h Call.not_ended_suspended⟩
  | @receive around conn p hr =>
      have hv := s.conn.receive_verdict around.mem around.outside around.fresh
      rw [hr] at hv
      exact ⟨_, getElem?_push_self _ _, effect_of_verdict hv (fun _ hj => getElem?_push _ _ hj) rfl rfl⟩
  | closeAgain hstate =>
      refine ⟨_, getElem?_push_self _ _, .turns (fun j hj => getElem?_push _ _ hj) rfl rfl rfl
        (fun h => absurd h Call.not_pending_returned) Call.not_cancelled_returned
        (fun h => absurd h Call.not_closes_returned) (fun e h => by cases h) fun _ => ?_⟩
      rcases hstate with hst | hst <;> rw [hst] <;> exact nofun
  | close hstate =>
      exact ⟨_, (push_cancelled rfl _).1, .closes (push_cancelled rfl _).2 rfl hstate rfl rfl
        Call.start_pending Call.start_not_cancelled ⟨_, _, rfl⟩⟩
  | closeFailed hstate hcode =>
      refine ⟨_, (push_cancelled (map_cancel_cancel s.calls) _).1,
        .ends (push_cancelled (map_cancel_cancel s.calls) _).2 rfl rfl (.inr ⟨rfl, .inl hstate⟩) _ rfl ?_ ?_⟩
      · intro e' he'
        cases he'
        rfl
      · intro e' he' hr
        cases he'
        exact absurd (ioError_localAbort hr) hcode
  | abort hr =>
      exact ⟨_, (push_cancelled rfl _).1, .ends (push_cancelled rfl _).2 rfl rfl (.inl rfl) _ rfl hr
        fun _ _ _ => .inl rfl⟩
  | @complete i wait outcome hi ho =>
      have hlt : i < s.calls.length := (List.getElem?_eq_some_iff.mp hi).1
      refine ⟨_, getElem?_set_self _ hlt, .turns (fun j hj => getElem?_set_ne s _ hj) rfl rfl rfl ?_ ?_ ?_
        (fun _ he => by cases he) fun h => absurd h Call.not_ended_suspended⟩
      · rintro ⟨w, hw⟩
        cases hw
      · rintro ⟨w, hw⟩
        cases hw
        exact ho rfl
      · rintro ⟨on, op, h⟩
        cases h
        exact ⟨_, hi, on, _, rfl⟩
  | read hi hr =>
      exact ⟨_, getElem?_set_self _ (List.getElem?_eq_some_iff.mp hi).1, effect_of_verdict
        (TCPConnection.resume_verdict hr) (fun j hj => getElem?_set_ne _ _ hj) rfl rfl⟩
  | @write i outcome around ec hi =>
      obtain ⟨hstate, haborted, hlocal⟩ := sendEnd_verdict s.conn (errorOf outcome)
      exact ⟨_, getElem?_set_self _ (List.getElem?_eq_some_iff.mp hi).1,
        .turns (fun j hj => getElem?_set_ne _ _ hj) rfl hstate haborted
          (fun h => absurd h Call.not_pending_returned) Call.not_cancelled_returned
          (fun h => absurd h Call.not_closes_returned) hlocal fun h => absurd h Call.not_ended_sent⟩
  | drain hi =>
      exact ⟨_, getElem?_set_self _ (List.getElem?_eq_some_iff.mp hi).1,
        .turns (fun j hj => getElem?_set_ne s _ hj) rfl rfl rfl Call.start_pending Call.start_not_cancelled
          (fun _ => ⟨_, hi, _, _, rfl⟩) (fun e h => absurd h (Call.error_suspended e))
          fun h => absurd h Call.not_ended_suspended⟩
  | @closed i on outcome around ec sd hi hsd =>
      have hlt : i < (s.calls.map Call.cancel).length := by
        rw [List.length_map]
        exact (List.getElem?_eq_some_iff.mp hi).1
      have hcloses : Call.Closes (.suspended (.shutdown on) (.completed outcome)) := ⟨_, _, rfl⟩
      refine ⟨_, getElem?_set_self _ hlt, .ends (fun j hj => ?_) rfl rfl (.inr ⟨rfl, .inr ⟨_, hi, hcloses⟩⟩)
        _ rfl ?_ ?_⟩
      · exact (getElem?_set_ne _ _ hj).trans (List.getElem?_map ..)
      · intro err herr
        rcases closeEnd_error (c := s.conn) herr with he | ⟨code, rfl⟩
        · exact (hsd err he).1
        · rfl
      · intro err herr hreason
        rcases closeEnd_error (c := s.conn) herr with he | ⟨code, rfl⟩
        · rw [(hsd err he).2 hreason] at hi hcloses
          exact .inr ⟨_, hi, hcloses, _, rfl⟩
        · cases hreason

/-! ## The invariant -/

/-- What can be said of a call, given the rest. -/
structure CallInv (s : Link σ) (c : Call) : Prop where
  pending : c.Pending → s.socketOpen = true
  cancelled : c.Cancelled → s.conn.state ≠ .established
  closes : c.Closes → s.conn.state ≠ .established
  aborted : c.Closes → c.Cancelled → s.conn.aborted = true
  connectionError : ∀ e, c.error = some e → e.event = .connectionError → s.conn.state = .closed
  localAbort : ∀ e, c.error = some e → e.reason = .localAbort → s.conn.aborted = true
  ended : c.Ended → s.conn.state ≠ .established

structure Inv (s : Link σ) : Prop where
  isOpen : s.conn.state ≠ .closed → s.socketOpen = true
  aborted : s.conn.aborted = true → s.conn.state = .closed
  begun : s.conn.state ≠ .establishing
  calls : ∀ (i : Nat) (c : Call), s.calls[i]? = some c → s.CallInv c
  closer : ∀ (i j : Nat) (c c' : Call), s.calls[i]? = some c → s.calls[j]? = some c' → c.Closes → c'.Closes → i = j

theorem create_inv (framer : Option (MessageFramer σ)) (framerState : σ) (pool : MessageBlockPool)
    (secured : Bool) : Inv (create (.create .established framer framerState pool) secured) where
  isOpen _ := rfl
  aborted := nofun
  begun := nofun
  calls := by simp [create]
  closer := by simp [create]

theorem after_cases (st : ConnectionState) (err : Option TAPSError) :
    st.after err = st ∧ (∀ e, err = some e → e.event ≠ .connectionError) ∨ st.after err = .closed := by
  cases err with
  | none => exact .inl ⟨rfl, fun e he => by cases he⟩
  | some e =>
      by_cases he : e.event = .connectionError
      · exact .inr (st.after_of_eq he)
      · refine .inl ⟨st.after_of_ne he, fun e' he' => ?_⟩
        cases he'
        exact he

theorem CallInv.turn (h : s.CallInv c) (hopen : s'.socketOpen = s.socketOpen)
    (hstate : s'.conn.state = s.conn.state ∨ s'.conn.state = .closed)
    (haborted : s'.conn.aborted = s.conn.aborted) : s'.CallInv c where
  pending hp := hopen.trans (h.pending hp)
  cancelled hc := by
    rcases hstate with hst | hst <;> rw [hst]
    · exact h.cancelled hc
    · exact nofun
  closes hc := by
    rcases hstate with hst | hst <;> rw [hst]
    · exact h.closes hc
    · exact nofun
  aborted hc hc' := haborted.trans (h.aborted hc hc')
  connectionError e he hev := by
    rcases hstate with hst | hst <;> rw [hst]
    exact h.connectionError e he hev
  localAbort e he hr := haborted.trans (h.localAbort e he hr)
  ended he := by
    rcases hstate with hst | hst <;> rw [hst]
    · exact h.ended he
    · exact nofun

/-- A call that the step cancels, while no `close()` but one that has been aborted waits. -/
theorem CallInv.cancel (h : s.CallInv c) (hstate : s'.conn.state = .closing ∨ s'.conn.state = .closed)
    (hclosed : s.conn.state = .closed → s'.conn.state = .closed)
    (haborted : s.conn.aborted = true → s'.conn.aborted = true)
    (hcloses : c.Closes → s'.conn.aborted = true) : s'.CallInv c.cancel where
  pending hp := absurd hp c.not_pending_cancel
  cancelled _ := by rcases hstate with hst | hst <;> rw [hst] <;> exact nofun
  closes _ := by rcases hstate with hst | hst <;> rw [hst] <;> exact nofun
  aborted hc _ := hcloses (Call.closes_cancel.mp hc)
  connectionError e he hev := hclosed (h.connectionError e (c.error_cancel ▸ he) hev)
  localAbort e he hr := haborted (h.localAbort e (c.error_cancel ▸ he) hr)
  ended _ := by rcases hstate with hst | hst <;> rw [hst] <;> exact nofun

theorem Inv.established (h : Inv s) (hne : s.conn.state ≠ .closing ∧ s.conn.state ≠ .closed) :
    s.conn.state = .established := by
  have hbegun := h.begun
  cases hst : s.conn.state with
  | establishing => exact absurd hst hbegun
  | established => rfl
  | closing => exact absurd hst hne.1
  | closed => exact absurd hst hne.2

/-- While the connection is established no `close()` waits, and else at most one does. -/
theorem Inv.only_closer (h : Inv s)
    (hi : (s.conn.state ≠ .closing ∧ s.conn.state ≠ .closed) ∨ ∃ c₀, s.calls[i]? = some c₀ ∧ c₀.Closes)
    {j : Nat} (hj : j ≠ i) (hc : s.calls[j]? = some c) : ¬ c.Closes := by
  intro hcl
  rcases hi with hne | ⟨c₀, hc₀, hcl₀⟩
  · exact (h.calls j c hc).closes hcl (h.established hne)
  · exact hj (h.closer j i c c₀ hc hc₀ hcl hcl₀)

theorem forward_closed {st : ConnectionState} (h : st ≠ .establishing) : Forward st .closed := by
  cases st with
  | establishing => exact absurd rfl h
  | established => exact .inr (.inl ⟨rfl, .inr rfl⟩)
  | closing => exact .inr (.inr ⟨rfl, rfl⟩)
  | closed => exact .inl rfl

theorem Effect.forward (he : Effect s s' i c) (h : Inv s) : Forward s.conn.state s'.conn.state := by
  cases he with
  | turns _ _ state =>
      rcases after_cases s.conn.state c.error with ⟨hst, -⟩ | hst
      · exact .inl (state.trans hst).symm
      · rw [state, hst]
        exact forward_closed h.begun
  | closes _ _ before state =>
      rw [state, h.established before]
      exact .inr (.inl ⟨rfl, .inl rfl⟩)
  | ends _ _ state =>
      rw [state]
      exact forward_closed h.begun

/-! ## The calls after a step -/

theorem cancelled_of_others (hothers : ∀ j, j ≠ i → s'.calls[j]? = (s.calls[j]?).map Call.cancel) {j : Nat}
    (hj : j ≠ i) (hc : s'.calls[j]? = some c) : ∃ c₀, s.calls[j]? = some c₀ ∧ c = c₀.cancel := by
  obtain ⟨c₀, hc₀, rfl⟩ := Option.map_eq_some_iff.mp ((hothers j hj).symm.trans hc)
  exact ⟨c₀, hc₀, rfl⟩

/-- The call that the step is about. -/
theorem Effect.callInv (he : Effect s s' i c) (h : Inv s) : s'.CallInv c := by
  cases he with
  | turns others isOpen state aborted pending cancelled closes localAbort ended =>
      have hstate := after_cases s.conn.state c.error
      rw [← state] at hstate
      have hstate' : s'.conn.state = s.conn.state ∨ s'.conn.state = .closed := hstate.imp_left And.left
      refine
        { pending := fun hp => isOpen.trans (pending hp)
          cancelled := fun hcan => absurd hcan cancelled
          closes := fun hcl => ?_
          aborted := fun _ hcan => absurd hcan cancelled
          connectionError := fun e he hev => hstate.resolve_left fun hst => hst.2 e he hev
          localAbort := fun e he hr => aborted.trans (localAbort e he hr)
          ended := fun hen => ?_ }
      · obtain ⟨c₀, hc₀, hcl₀⟩ := closes hcl
        exact ((h.calls i c₀ hc₀).turn isOpen hstate' aborted).closes hcl₀
      · rcases hstate' with hst | hst <;> rw [hst]
        · exact ended hen
        · exact nofun
  | closes others isOpen before state aborted pending cancelled call =>
      obtain ⟨on, op, rfl⟩ := call
      exact
        { pending := fun hp => isOpen.trans (pending hp)
          cancelled := fun hcan => absurd hcan cancelled
          closes := fun _ => by rw [state]; exact nofun
          aborted := fun _ hcan => absurd hcan cancelled
          connectionError := fun e h => absurd h (Call.error_suspended e)
          localAbort := fun e h => absurd h (Call.error_suspended e)
          ended := fun hen => absurd hen Call.not_ended_suspended }
  | ends others isOpen state aborted value call event localAbort =>
      subst call
      refine
        { pending := fun h => absurd h Call.not_pending_returned
          cancelled := fun h => absurd h Call.not_cancelled_returned
          closes := fun h => absurd h Call.not_closes_returned
          aborted := fun h => absurd h Call.not_closes_returned
          connectionError := fun _ _ _ => state, localAbort := fun e he hr => ?_
          ended := fun _ => by rw [state]; exact nofun }
      rcases localAbort e he hr with hab | ⟨c₀, hc₀, hcl, hcan⟩
      · exact hab
      · have hab := (h.calls _ c₀ hc₀).aborted hcl hcan
        rcases aborted with hab' | ⟨hab', -⟩
        · exact hab'
        · exact hab'.trans hab

/-- The calls that it is not about: the first `close()` and the end of the connection cancel them. -/
theorem Effect.callInv_of_ne (he : Effect s s' i c) (h : Inv s) {j : Nat} (hj : j ≠ i) {c' : Call}
    (hc' : s'.calls[j]? = some c') : s'.CallInv c' := by
  cases he with
  | turns others isOpen state aborted =>
      have hstate := after_cases s.conn.state c.error
      rw [← state] at hstate
      exact (h.calls j c' ((others j hj).symm.trans hc')).turn isOpen (hstate.imp_left And.left) aborted
  | closes others isOpen before state aborted =>
      obtain ⟨c₀, hc₀, rfl⟩ := cancelled_of_others others hj hc'
      exact (h.calls j c₀ hc₀).cancel (.inl state) (fun hcl => absurd hcl before.2)
        (fun hab => absurd (h.aborted hab) before.2)
        fun hcl => absurd hcl (h.only_closer (.inl before) hj hc₀)
  | ends others isOpen state aborted =>
      obtain ⟨c₀, hc₀, rfl⟩ := cancelled_of_others others hj hc'
      rcases aborted with hab | ⟨hab, hone⟩
      · exact (h.calls j c₀ hc₀).cancel (.inr state) (fun _ => state) (fun _ => hab) fun _ => hab
      · exact (h.calls j c₀ hc₀).cancel (.inr state) (fun _ => state) hab.trans
          fun hcl => absurd hcl (h.only_closer hone hj hc₀)

theorem Inv.closer_of_old (h : Inv s) (hold : ∀ (j : Nat) (c' : Call), s'.calls[j]? = some c' → c'.Closes →
    ∃ c₀ : Call, s.calls[j]? = some c₀ ∧ c₀.Closes) (j k : Nat) (c₁ c₂ : Call) (hc₁ : s'.calls[j]? = some c₁)
    (hc₂ : s'.calls[k]? = some c₂) (hcl₁ : c₁.Closes) (hcl₂ : c₂.Closes) : j = k := by
  obtain ⟨d₁, hd₁, hcd₁⟩ := hold j c₁ hc₁ hcl₁
  obtain ⟨d₂, hd₂, hcd₂⟩ := hold k c₂ hc₂ hcl₂
  exact h.closer j k d₁ d₂ hd₁ hd₂ hcd₁ hcd₂

/-- A `close()` that waits was waiting before, unless it is the first one. -/
theorem Effect.closer (he : Effect s s' i c) (hc : s'.calls[i]? = some c) (h : Inv s) :
    ∀ (j k : Nat) (c₁ c₂ : Call), s'.calls[j]? = some c₁ → s'.calls[k]? = some c₂ → c₁.Closes → c₂.Closes →
      j = k := by
  cases he with
  | turns others isOpen state aborted pending cancelled closes =>
      refine h.closer_of_old fun j c' hc' hcl => ?_
      by_cases hj : j = i
      · subst hj
        rw [hc] at hc'
        cases hc'
        exact closes hcl
      · exact ⟨c', (others j hj).symm.trans hc', hcl⟩
  | closes others isOpen before =>
      have honly : ∀ j c', s'.calls[j]? = some c' → c'.Closes → j = i := by
        intro j c' hc' hcl
        by_contra hj
        obtain ⟨c₀, hc₀, rfl⟩ := cancelled_of_others others hj hc'
        exact h.only_closer (.inl before) hj hc₀ (Call.closes_cancel.mp hcl)
      intro j k c₁ c₂ hc₁ hc₂ hcl₁ hcl₂
      exact (honly j c₁ hc₁ hcl₁).trans (honly k c₂ hc₂ hcl₂).symm
  | ends others isOpen state aborted value call =>
      refine h.closer_of_old fun j c' hc' hcl => ?_
      by_cases hj : j = i
      · subst hj
        rw [hc, call] at hc'
        cases hc'
        exact absurd hcl Call.not_closes_returned
      · obtain ⟨c₀, hc₀, rfl⟩ := cancelled_of_others others hj hc'
        exact ⟨c₀, hc₀, Call.closes_cancel.mp hcl⟩

theorem Effect.inv (he : Effect s s' i c) (hc : s'.calls[i]? = some c) (h : Inv s) : Inv s' := by
  have hcalls : ∀ (j : Nat) (c' : Call), s'.calls[j]? = some c' → s'.CallInv c' := by
    intro j c' hc'
    by_cases hj : j = i
    · subst hj
      rw [hc] at hc'
      cases hc'
      exact he.callInv h
    · exact he.callInv_of_ne h hj hc'
  have hbegun : s'.conn.state ≠ .establishing := by
    rcases he.forward h with hst | ⟨-, hst | hst⟩ | ⟨-, hst⟩
    · exact hst ▸ h.begun
    · simp [hst]
    · simp [hst]
    · simp [hst]
  suffices hflags : (s'.conn.state ≠ .closed → s'.socketOpen = true) ∧
      (s'.conn.aborted = true → s'.conn.state = .closed) from
    { isOpen := hflags.1, aborted := hflags.2, begun := hbegun, calls := hcalls, closer := he.closer hc h }
  cases he with
  | turns others isOpen state aborted =>
      rcases after_cases s.conn.state c.error with ⟨hst, -⟩ | hst
      · rw [state, hst, isOpen, aborted]
        exact ⟨h.isOpen, h.aborted⟩
      · exact ⟨fun hne => absurd (state.trans hst) hne, fun _ => state.trans hst⟩
  | closes others isOpen before state aborted =>
      exact ⟨fun _ => isOpen.trans (h.isOpen before.2),
        fun hab => absurd (h.aborted (aborted.symm.trans hab)) before.2⟩
  | ends others isOpen state => exact ⟨fun hne => absurd state hne, fun _ => state⟩

theorem step_inv (hi : Inv s) (h : s.step e = some s') : Inv s' := by
  obtain ⟨c, hc, he⟩ := (step_steps h).effect
  exact he.inv hc hi

theorem reachable_inv (h : (system σ).Reachable s) : Inv s := by
  refine h.invariant (I := Inv) ?_ fun s e s' hi hst => step_inv hi hst
  rintro s ⟨framer, framerState, pool, secured, rfl⟩
  exact create_inv framer framerState pool secured

/-- An error that does not end the connection leaves the state as it is. -/
theorem Effect.state_eq (he : Effect s s' i c) {err : TAPSError} (herr : c.error = some err)
    (hne : err.event ≠ .connectionError) : s'.conn.state = s.conn.state := by
  cases he with
  | turns _ _ state => rw [state, herr, ConnectionState.after_of_ne _ hne]
  | closes _ _ _ _ _ _ _ call =>
      obtain ⟨on, op, rfl⟩ := call
      cases herr
  | ends _ _ _ _ _ _ event => exact absurd (event err herr) hne

theorem closed_cases {r : Result Unit} (h : s.step e = some s')
    (hc : s'.calls[s.callOf e]? = some (.returned (.closed r))) :
    (∃ sd ec, e = .close sd ec ∧ (s.conn.state = .closing ∨ s.conn.state = .closed) ∧
      s'.socketOpen = s.socketOpen) ∨
    (s'.conn.state = .closed ∧ s'.socketOpen = false ∧ ∀ sd ec, e = .close sd ec →
      s.conn.state ≠ .closing ∧ s.conn.state ≠ .closed) := by
  have hreceive : ∀ p, Call.ofProgress s.socketOpen p ≠ .returned (.closed r) := by
    intro p hp
    rcases Call.ofProgress_cases s.socketOpen p with ⟨buffer, -, he⟩ | he
    · cases he.symm.trans hp
    · cases he.symm.trans hp
  cases step_steps h with
  | closeAgain hstate => exact .inl ⟨_, _, rfl, hstate, rfl⟩
  | closeFailed hstate => exact .inr ⟨rfl, rfl, fun _ _ _ => hstate⟩
  | closed sd hi => exact .inr ⟨rfl, rfl, nofun⟩
  | refuse | send => cases (getElem?_push_self _ _).symm.trans hc
  | receive hr => exact absurd (Option.some.inj ((getElem?_push_self _ _).symm.trans hc)) (hreceive _)
  | close | abort => cases (push_cancelled rfl _).1.symm.trans hc
  | complete hi | write hi | drain hi =>
      cases (getElem?_set_self _ (List.getElem?_eq_some_iff.mp hi).1).symm.trans hc
  | read hi hr =>
      have hlt := (List.getElem?_eq_some_iff.mp hi).1
      exact absurd (Option.some.inj ((getElem?_set_self _ hlt).symm.trans hc)) (hreceive _)

theorem over_of_closed (h : Inv s) (hstate : s.conn.state = .closed) (hopen : s.socketOpen = false) :
    s.Over := by
  refine ⟨hstate, hopen, fun c hc buffer he => ?_⟩
  obtain ⟨i, hi⟩ := List.mem_iff_getElem?.mp hc
  have := (h.calls i c hi).pending ⟨_, he⟩
  rw [hopen] at this
  cases this

/-! ## Over a run -/

theorem step_aborted (h : s.step e = some s') (hne : ∀ ec, e ≠ .abort ec) :
    s'.conn.aborted = s.conn.aborted := by
  cases step_steps h with
  | abort => exact absurd rfl (hne _)
  | @receive around conn p hr =>
      have hv := s.conn.receive_verdict around.mem around.outside around.fresh
      rw [hr] at hv
      exact hv.aborted
  | read hi hr => exact (TCPConnection.resume_verdict hr).aborted
  | write => exact (sendEnd_verdict s.conn _).2.1
  | refuse | send | closeAgain | close | closeFailed | complete | drain | closed => rfl

theorem run_aborted {es : List LinkEvent} (h : (system σ).Run s es s') :
    s'.conn.aborted = true ↔ s.conn.aborted = true ∨ Aborts es := by
  induction h with
  | refl => simp [Aborts]
  | @step s s₁ s₂ e es hst _ ih =>
      have hcons : Aborts (e :: es) ↔ (∃ ec, e = .abort ec) ∨ Aborts es := by
        simp only [Aborts, List.mem_cons, exists_or, eq_comm]
      rw [ih, hcons, ← or_assoc]
      apply or_congr_left
      by_cases he : ∃ ec, e = .abort ec
      · obtain ⟨ec, rfl⟩ := he
        cases hst
        exact ⟨fun _ => .inr ⟨ec, rfl⟩, fun _ => rfl⟩
      · rw [step_aborted hst (not_exists.mp he)]
        exact ⟨.inl, fun h => h.resolve_right he⟩

theorem step_completed {wait : Wait} {outcome : Except ErrorCode Nat} (h : s.step e = some s')
    (hi : s.calls[i]? = some (.suspended wait (.completed outcome))) (he : ∀ around ec, e ≠ .resume i around ec) :
    s'.calls[i]? = some (.suspended wait (.completed outcome)) := by
  have hlt : i < s.calls.length := (List.getElem?_eq_some_iff.mp hi).1
  have hne : i ≠ s.callOf e := by
    rintro rfl
    cases e with
    | complete j o =>
        have hi : s.calls[j]? = some (.suspended wait (.completed outcome)) := hi
        simp [step, hi] at h
    | resume j around ec => exact he around ec rfl
    | send | receive | close | abort => exact Nat.lt_irrefl _ hlt
  obtain ⟨c, -, heff⟩ := (step_steps h).effect
  cases heff with
  | turns others => exact (others i hne).trans hi
  | closes others =>
      rw [others i hne, hi]
      rfl
  | ends others =>
      rw [others i hne, hi]
      rfl

theorem run_completed {wait : Wait} {outcome : Except ErrorCode Nat} {es : List LinkEvent}
    (h : (system σ).Run s es s') (hi : s.calls[i]? = some (.suspended wait (.completed outcome)))
    (hes : ∀ around ec, .resume i around ec ∉ es) :
    s'.calls[i]? = some (.suspended wait (.completed outcome)) := by
  induction h with
  | refl => exact hi
  | @step s s₁ s₂ e es hst _ ih =>
      refine ih (step_completed hst hi fun around ec he => ?_) fun around ec hm => ?_
      · exact hes around ec (he ▸ List.mem_cons_self)
      · exact hes around ec (List.mem_cons_of_mem _ hm)

/-- The first `close()` or `abort()` cancels what the calls wait for. -/
theorem ends_cancels (hest : s.conn.state = .established) (he : Ends e) (h : s.step e = some s')
    (hi : s.calls[i]? = some c) : s'.calls[i]? = some c.cancel := by
  have hne : i ≠ s.calls.length := Nat.ne_of_lt (List.getElem?_eq_some_iff.mp hi).1
  have hmap : (s.calls[i]?).map Call.cancel = some c.cancel := congrArg _ hi
  cases step_steps h with
  | closeAgain hstate =>
      rw [hest] at hstate
      rcases hstate with hst | hst <;> cases hst
  | close | abort => exact ((push_cancelled rfl _).2 i hne).trans hmap
  | closeFailed => exact ((push_cancelled (map_cancel_cancel s.calls) _).2 i hne).trans hmap
  | refuse | send | receive | complete | read | write | drain | closed =>
      rcases he with ⟨sd, ec, he⟩ | ⟨ec, he⟩ <;> cases he

theorem errorOf_ne_aborted {outcome : Except ErrorCode Nat} (h : outcome ≠ .error .operationAborted) :
    errorOf outcome ≠ some .operationAborted := by
  cases outcome with
  | error ec =>
      intro he
      cases he
      exact h rfl
  | ok n => exact nofun

/-- The stretch of a receive from a read on that this side has not cancelled. -/
theorem not_endsReceive_of_genuine {p : Progress} {isOpen : Bool} {es : List LinkEvent} (hp : p.Genuine) :
    ¬ EndsReceive es (.ofProgress isOpen p) := by
  rintro ⟨err, hc, habort, hclose⟩
  have herr : p.error = some err := by rw [← Call.error_ofProgress, hc]; rfl
  by_cases hab : Aborts es
  · exact (hp err herr).2 (habort hab).2
  · exact (hp err herr).1 (hclose hab).2

end Link

end Taps
