import Taps.Tcp.Lemmas.Ending

/-!
# The end of one TCP connection

For any order of `send()`, `receive()`, `close()` and `abort()` and any outcome of the operations of the
socket: the state and the errors, what a `close()` leaves, what becomes of a pending receive, and the end of the
peer's stream.
-/

namespace Taps.Link

variable {σ : Type} {s s' t : Link σ} {e : LinkEvent} {i : Nat}

/-! ## The state -/

/-- The state only moves forward; it is `CLOSED` when a call returns a `CONNECTION_ERROR`, the return of a
`SEND_ERROR` or a `RECEIVE_ERROR` leaves it as it is, and `LOCAL_ABORT` comes only after an `abort()`. -/
theorem errors_agree_with_state {s₀ : Link σ} {es : List LinkEvent} (h₀ : (system σ).init s₀)
    (hrun : (system σ).Run s₀ es s) (hst : s.step e = some s') :
    Forward s.conn.state s'.conn.state ∧
      ∀ c err, s'.calls[s.callOf e]? = some c → c.error = some err →
        (err.event = .connectionError → s'.conn.state = .closed) ∧
        (err.event = .sendError ∨ err.event = .receiveError → s'.conn.state = s.conn.state) ∧
        (err.reason = .localAbort → Aborts (es ++ [e])) := by
  have hi : Inv s := reachable_inv ⟨s₀, es, h₀, hrun⟩
  have hi' : Inv s' := step_inv hi hst
  obtain ⟨c, hc, heff⟩ := (step_steps hst).effect
  refine ⟨heff.forward hi, fun c' err hc' herr => ?_⟩
  rw [hc] at hc'
  cases hc'
  have hcall := hi'.calls _ c hc
  refine ⟨hcall.connectionError err herr, fun hevent => ?_, fun hreason => ?_⟩
  · refine heff.state_eq herr fun hce => ?_
    rw [hce] at hevent
    rcases hevent with hev | hev <;> cases hev
  · have hrun' : (system σ).Run s₀ (es ++ [e]) s' := hrun.append (.step hst .refl)
    rcases (run_aborted hrun').mp (hcall.localAbort err herr hreason) with hab | hab
    · obtain ⟨framer, framerState, pool, secured, rfl⟩ := h₀
      cases hab
    · exact hab

/-- Two bytes of length, on a host of the other byte order. -/
def smallLink : Link Unit :=
  create (.create .established (some ((LengthPrefixedFramer.create 2 .big).toFramer .little)) ()
    tinyPool) false

theorem smallLink_init : (system Unit).init smallLink := ⟨_, _, _, _, rfl⟩

def blank : Surroundings := ⟨fun _ _ => 0, [], 0⟩

/-- A receive that `abort()` ends. -/
theorem errors_agree_with_state_abort : ∃ s s' : Link Unit,
    (system Unit).Run smallLink [.receive blank, .abort none] s ∧
    s.step (.resume 0 blank none) = some s' ∧
    (∃ err, s'.calls[0]? = some (.returned (.received (.failed err))) ∧ err.reason = .localAbort) ∧
    Forward s.conn.state s'.conn.state := by
  have hsome : ([.receive blank, .abort none].foldlM step smallLink).isSome := rfl
  obtain ⟨s, hs⟩ := Option.isSome_iff_exists.mp hsome
  have hrun : (system Unit).Run smallLink _ s := .of_foldlM (fun _ _ _ _ hst => hst) hs
  have hsome' : (s.step (.resume 0 blank none)).isSome := by
    cases hs
    rfl
  obtain ⟨s', hs'⟩ := Option.isSome_iff_exists.mp hsome'
  refine ⟨s, s', hrun, hs', ?_, (errors_agree_with_state smallLink_init hrun hs').1⟩
  cases hs
  cases hs'
  exact ⟨_, rfl, rfl⟩

/-! ## What a `close()` leaves -/

/-- A `close()` that completes leaves the connection closed, with no receive pending on it, if and only if
it is one that was called in the state `ESTABLISHED`, or the socket was closed before. -/
theorem close_over_iff {r : Result Unit} (h : (system σ).Reachable s) (hst : s.step e = some s')
    (hc : s'.calls[s.callOf e]? = some (.returned (.closed r))) :
    s'.Over ↔ s.socketOpen = false ∨ ∀ sd ec, e = .close sd ec → s.conn.state = .established := by
  have hi := reachable_inv h
  have hi' := step_inv hi hst
  rcases closed_cases hst hc with ⟨sd, ec, rfl, hstate, hopen⟩ | ⟨hstate, hopen, hbefore⟩
  · refine ⟨fun hover => .inl (hopen.symm.trans hover.2.1), fun h => ?_⟩
    have hclosed : s.socketOpen = false := by
      refine h.resolve_right fun hest => ?_
      rw [hest sd ec rfl] at hstate
      rcases hstate with hstate | hstate <;> cases hstate
    refine over_of_closed hi' ?_ (hopen.trans hclosed)
    by_contra hne
    have hopen' := hi'.isOpen hne
    rw [hopen, hclosed] at hopen'
    cases hopen'
  · exact ⟨fun _ => .inr fun sd ec he => hi.established (hbefore sd ec he),
      fun _ => over_of_closed hi' hstate hopen⟩

/-- The peer ends its side after a `close()`. -/
theorem close_over_iff_drained : ∃ s s' : Link Unit,
    [.receive blank, .close none none, .complete 1 (.error .eof)].foldlM step smallLink = some s ∧
    s.step (.resume 1 blank none) = some s' ∧ s'.Over := by
  have hsome : ([.receive blank, .close none none, .complete 1 (.error .eof)].foldlM step
    smallLink).isSome := rfl
  obtain ⟨s, hs⟩ := Option.isSome_iff_exists.mp hsome
  have hr : (system Unit).Reachable s :=
    ⟨_, _, smallLink_init, .of_foldlM (fun _ _ _ _ hst => hst) hs⟩
  have hsome' : (s.step (.resume 1 blank none)).isSome := by
    cases hs
    rfl
  obtain ⟨s', hs'⟩ := Option.isSome_iff_exists.mp hsome'
  have hcall : s'.calls[1]? = some (.returned (.closed (.ok ()))) := by
    cases hs
    cases hs'
    rfl
  exact ⟨s, s', hs, hs', (close_over_iff hr hs' hcall).mpr (.inr nofun)⟩

/-- A second `close()` returns while the first one waits for the peer. -/
theorem close_not_over :
    ¬ ∀ (s s' : Link Unit) (e : LinkEvent) (r : Result Unit), (system Unit).Reachable s →
      s.step e = some s' → s'.calls[s.callOf e]? = some (.returned (.closed r)) → s'.Over := by
  intro h
  have hr : (system Unit).Reachable (smallLink.close none none) :=
    ⟨_, [.close none none], smallLink_init, .step rfl .refl⟩
  obtain ⟨hstate, -⟩ := h _ _ (.close none none) (.ok ()) hr rfl rfl
  cases hstate

/-! ## A receive that is pending at the end -/

/-- Of a receive that waits for a read when the first `close()` or `abort()` is called, the next stretch
ends it with the error of the `close()` or of the `abort()` if and only if the read was still pending at
that call. -/
theorem pending_receive_ends_iff {buffer : ReadBuffer} {op : Lib.Operation ErrorCode Nat}
    {es : List LinkEvent} (h : (system σ).Reachable s) (hest : s.conn.state = .established) (he : Ends e)
    (hst : s.step e = some s') (hi : s.calls[i]? = some (.suspended (.read buffer) op))
    (hrun : (system σ).Run s' es t) (hes : ∀ around ec, .resume i around ec ∉ es)
    (around : Surroundings) (ec : Option ErrorCode) :
    (∃ t' c, t.step (.resume i around ec) = some t' ∧ t'.calls[i]? = some c ∧ EndsReceive (e :: es) c) ↔
      op = .pending := by
  have hinv := reachable_inv h
  have hnot : s.conn.aborted = false := by
    cases hab : s.conn.aborted with
    | false => rfl
    | true => cases hest.symm.trans (hinv.aborted hab)
  have haborted : t.conn.aborted = true ↔ Aborts (e :: es) := by
    rw [run_aborted (.step hst hrun), hnot]
    exact ⟨fun h => h.resolve_left Bool.false_ne_true, .inr⟩
  have hcancel := ends_cancels hest he hst hi
  cases op with
  | pending =>
      refine ⟨fun _ => rfl, fun _ => ?_⟩
      have ht : t.calls[i]? = some (.suspended (.read buffer) (.completed (.error .operationAborted))) :=
        run_completed hrun hcancel hes
      have hlt : i < t.calls.length := (List.getElem?_eq_some_iff.mp ht).1
      obtain ⟨⟨conn, p⟩, hr⟩ : ∃ r, t.conn.resume around.mem around.outside around.fresh
          (some .operationAborted) 0 = some r := ⟨_, rfl⟩
      obtain ⟨err, rfl, habort, hclose⟩ := TCPConnection.resume_cancelled hr
      have hstep : t.step (.resume i around ec) = some
          (({ t with outcomes := t.outcomes ++ [Except.error ErrorCode.operationAborted] }.settle conn
            (.failed err)).set i (.returned (.received (.failed err)))) := by
        simp only [step, ht, resume, errorOf, bytesOf, hr]
        rfl
      refine ⟨_, _, hstep, getElem?_set_self _ hlt, err, rfl, fun hab => ?_, fun hab => ?_⟩
      · exact habort (haborted.mpr hab)
      · apply hclose
        cases hta : t.conn.aborted with
        | false => rfl
        | true => exact absurd (haborted.mp hta) hab
  | completed outcome =>
      refine ⟨?_, fun hpending => by cases hpending⟩
      rintro ⟨t', c, hst', hc, hends⟩
      have ht : t.calls[i]? = some (.suspended (.read buffer) (.completed outcome)) :=
        run_completed hrun hcancel hes
      have hlt : i < t.calls.length := (List.getElem?_eq_some_iff.mp ht).1
      have hne : outcome ≠ .error .operationAborted := by
        rintro rfl
        exact (hinv.calls i _ hi).cancelled ⟨_, rfl⟩ hest
      simp only [step, ht, resume] at hst'
      obtain ⟨⟨conn, p⟩, hr, rfl⟩ := Option.map_eq_some_iff.mp hst'
      cases (getElem?_set_self _ hlt).symm.trans hc
      exact absurd hends
        (not_endsReceive_of_genuine (TCPConnection.resume_genuine (errorOf_ne_aborted hne) hr))

/-- The read is pending when `close()` is called. -/
theorem pending_receive_ends_iff_closed : ∃ s s' t' : Link Unit, ∃ c : Call,
    [.receive blank].foldlM step smallLink = some s ∧ s.step (.close none none) = some s' ∧
    s'.step (.resume 0 blank none) = some t' ∧ t'.calls[0]? = some c ∧
    EndsReceive [.close none none] c := by
  have hr : (system Unit).Reachable (smallLink.receive blank) :=
    ⟨_, [.receive blank], smallLink_init, .step rfl .refl⟩
  obtain ⟨t', c, ht', hc, hends⟩ := (pending_receive_ends_iff (i := 0) hr rfl (.inl ⟨none, none, rfl⟩) rfl
    rfl .refl (by simp) blank none).mpr rfl
  exact ⟨_, _, t', c, rfl, rfl, ht', hc, hends⟩

/-- One byte of a record has arrived when `abort()` is called, and the receive has yet to be resumed. -/
def partialEvents : List LinkEvent := [.receive blank, .complete 0 (.ok 1)]

/-- The receive starts another read, on the closed socket. -/
theorem pending_receive_goes_on :
    ¬ ∀ (s s' t' : Link Unit) (c : Call) (buffer : ReadBuffer) (op : Lib.Operation ErrorCode Nat),
      (system Unit).Reachable s → s.conn.state = .established →
      s.calls[0]? = some (.suspended (.read buffer) op) → s.step (.abort none) = some s' →
      s'.step (.resume 0 blank none) = some t' → t'.calls[0]? = some c → EndsReceive [.abort none] c := by
  intro h
  have hsome : (partialEvents.foldlM step smallLink).isSome := rfl
  obtain ⟨s, hs⟩ := Option.isSome_iff_exists.mp hsome
  have hr : (system Unit).Reachable s :=
    ⟨_, _, smallLink_init, .of_foldlM (fun _ _ _ _ hst => hst) hs⟩
  cases hs
  obtain ⟨err, hc, -⟩ := h _ _ _ _ _ _ hr rfl rfl rfl rfl rfl
  cases hc

/-! ## The end of the peer's stream -/

/-- Of receives that are issued one at a time: after the end-of-stream Message, or a `RECEIVE_ERROR` once
the peer's stream has ended, every receive is refused at once, with no read and no change of the connection;
and with a framer that Message is returned only after a read that has ended with `eof`, with no byte left
unparsed, and where the last Message before it was complete. -/
theorem stream_ends_once {s₀ : Link σ} {es : List LinkEvent} {c : Call} (h₀ : (system σ).init s₀)
    (hrun : ((system σ).restrict OneAtATime).Run s₀ es s) (hst : s.step e = some s')
    (hone : OneAtATime s e s') (hc : s'.calls[s.callOf e]? = some c) :
    (s'.EndsStream c → ∀ fs t, (system σ).Run s' fs t → t.conn.canReceive = false ∧ ∀ around, ∃ err,
      t.step (.receive around) = some (t.push (.returned (.received (.failed err)))) ∧
        err.event = .receiveError ∧ err.reason = .invalidState) ∧
    (s₀.conn.framer ≠ none → ∀ m, c = .returned (.received (.ended m)) →
      s'.outcomes.getLast? = some (.error .eof) ∧ s'.conn.receiveChain.size = 0 ∧
        ∀ m', s'.messages.getLast? = some m' → m'.endOfMessage = true) := by
  have hr : (system σ).Reachable s := ⟨s₀, es, h₀, hrun.of_restrict⟩
  have hr' : (system σ).Reachable s' := hr.run (.step hst .refl)
  refine ⟨fun hends fs t hfs => ?_, fun hf m hm => ?_⟩
  · obtain ⟨c', hc', hflow⟩ := (step_steps hst).flow
    cases hc'.symm.trans hc
    have hcan := hflow.endsStream (fun hp => reachable_peerEnded hr' hp) hends
    have hcan' := run_canReceive hfs (reachable_inv hr') hcan
    exact ⟨hcan', receive_refused hcan'⟩
  · subst hm
    exact step_ended (reachable_ordered h₀ hf hrun) hst hone hc

/-- The peer ends its side before it has sent anything. -/
theorem stream_ends_once_empty : ∃ s s' : Link Unit,
    [.receive blank, .complete 0 (.error .eof)].foldlM step smallLink = some s ∧
    s.step (.resume 0 blank none) = some s' ∧ s'.conn.canReceive = false ∧
    s'.outcomes.getLast? = some (.error .eof) := by
  have hrun : ((system Unit).restrict OneAtATime).Run smallLink [.receive blank, .complete 0 (.error .eof)]
      ((smallLink.receive blank).set 0 (.suspended (.read ⟨0, 0, 8⟩) (.completed (.error .eof)))) := by
    refine .step ⟨rfl, fun _ _ c hc => absurd hc (List.not_mem_nil)⟩ (.step ⟨rfl, nofun⟩ .refl)
  obtain ⟨hlast, hclean⟩ := stream_ends_once (e := .resume 0 blank none) smallLink_init hrun rfl nofun rfl
  have hcan := (hlast (.inl ⟨_, rfl⟩) [] _ .refl).1
  exact ⟨_, _, rfl, rfl, hcan, (hclean nofun _ rfl).1⟩

end Taps.Link
