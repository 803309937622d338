import Taps.Listener.Lemmas.TCPListener
import Taps.Listener.Lemmas.SecureAcceptor
import Taps.Listener.Secured

/-!
# What becomes of the TCPConnections of a Listener

A TCPConnection is in its handshake, or secured, or aborted; what goes into the channel is secured. A step
leaves a TCPConnection that is no longer in its handshake as it is (`Guards.stays`).
-/

namespace Taps

/-! ## One TCPConnection -/

theorem TCPAttempt.finishHandshake_ok {t : TCPAttempt Unit} {h : Handshake} (ht : t.Established)
    (hok : h.result.isOk = true) : (t.finishHandshake h).secured = true ∧ (t.finishHandshake h).Established := by
  cases hr : h.result with
  | error e => simp [hr, Except.isOk, Except.toBool] at hok
  | ok =>
      simp only [finishHandshake, applySecurity, hr]
      exact ⟨trivial, ht.state, ht.aborted⟩

theorem TCPAttempt.finishHandshake_error {t : TCPAttempt Unit} {h : Handshake} (hok : h.result.isOk = false) :
    (t.finishHandshake h).secured = t.secured ∧ (t.finishHandshake h).Aborted := by
  cases hr : h.result with
  | error e =>
      simp only [finishHandshake, applySecurity, hr]
      exact ⟨rfl, abort_aborted ..⟩
  | ok => simp [hr, Except.isOk, Except.toBool] at hok

namespace SecureAcceptor

variable {a a' : SecureAcceptor} {e : AcceptorEvent} {memory : MessageBlockPool} {h : Handshake}
  {connections : List (TCPAttempt Unit)} {c : Nat}

/-! ## One SecureAcceptor -/

/-- The `c`-th Connection is to be received from the channel, or `accept()` has returned it. -/
def Delivers (a : SecureAcceptor) (c : Nat) : Prop := .ok c ∈ a.ready.queue ∨ .ok c ∈ a.accepts

theorem accepted_eq_ok {x : Except ErrorCode Nat} (hx : accepted x = .ok c) : x = .ok c := by
  cases x with
  | error ec => cases hx
  | ok c => exact congrArg _ (Except.ok.inj hx)

theorem delivers_send (a : SecureAcceptor) (sender : Sender) (x : Except ErrorCode Nat)
    (hd : (a.send sender x).Delivers c) : a.Delivers c ∨ x = .ok c := by
  rcases hd with hd | hd
  · rcases Lib.Channel.mem_queue_send hd with hd | hd
    · exact .inl (.inl hd)
    · exact .inr hd.symm
  · simp only [send] at hd
    split at hd
    · rcases List.mem_append.mp hd with hd | hd
      · exact .inl (.inr hd)
      · exact .inr (accepted_eq_ok (List.mem_singleton.mp hd).symm)
    · exact .inl (.inr hd)

theorem delivers_accept (hd : a.accept.Delivers c) : a.Delivers c := by
  have hqueue : ∀ x, x ∈ a.accept.ready.queue → x ∈ a.ready.queue := by
    intro x hx
    have hx : x ∈ a.ready.receive.1.queue := by
      unfold accept at hx
      split at hx <;> exact hx
    exact Lib.Channel.mem_queue_receive hx
  rcases hd with hd | hd
  · exact .inl (hqueue _ hd)
  · unfold accept at hd
    split at hd
    · rename_i x sender hr
      rcases List.mem_append.mp hd with hd | hd
      · exact .inr hd
      · obtain rfl := accepted_eq_ok (List.mem_singleton.mp hd).symm
        exact .inl (Lib.Channel.mem_queue_of_taken hr)
    · rcases List.mem_append.mp hd with hd | hd
      · exact .inr hd
      · cases List.mem_singleton.mp hd
    · exact .inr hd

theorem step_delivers (hst : a.step e = some a') (hd : a'.Delivers c) :
    a.Delivers c ∨ c ∈ a.handshakes ∧ e = .secured c true := by
  cases step_steps hst with
  | complete | sent => exact .inl hd
  | @resume outcome =>
      refine .inl ?_
      unfold resumeAccept at hd
      split at hd
      · exact hd
      · exact hd
      · rcases delivers_send a .loop (.error _) hd with hd | hd
        · exact hd
        · cases hd
      · exact hd
  | @secured connection success hc =>
      unfold secured at hd
      split at hd
      · rename_i hs
        rcases delivers_send { a with handshakes := a.handshakes.erase connection } _ _ hd with hd | hd
        · exact .inl hd
        · obtain rfl := Except.ok.inj hd
          exact .inr ⟨hc, by rw [hs]⟩
      · exact .inl hd
  | accept => exact .inl (delivers_accept hd)
  | stop =>
      rcases hd with hd | hd
      · exact .inl (.inl hd)
      · rcases List.mem_append.mp hd with hd | hd
        · exact .inl (.inr hd)
        · cases (List.mem_replicate.mp hd).2

/-- Another socket is accepted, a handshake ends, or neither; and the TCPConnections are those that this
makes of them. -/
theorem step_connections (hst : a.step e = some a') (memory : MessageBlockPool) (h : Handshake)
    (connections : List (TCPAttempt Unit)) :
    (a'.handshakes = a.handshakes ++ [a.connections] ∧ a'.connections = a.connections + 1 ∧
      a.connectionsAfter memory h connections e = connections ++ [.ofSocket memory]) ∨
    (∃ c success, e = .secured c success ∧ c ∈ a.handshakes ∧ a'.handshakes = a.handshakes.erase c ∧
      a'.connections = a.connections ∧
      a.connectionsAfter memory h connections e = connections.modify c fun t => t.finishHandshake h) ∨
    (a'.handshakes = a.handshakes ∧ a'.connections = a.connections ∧
      a.connectionsAfter memory h connections e = connections) := by
  cases step_steps hst with
  | complete => exact .inr (.inr ⟨rfl, rfl, rfl⟩)
  | sent hl => exact .inr (.inr ⟨rfl, rfl, by simp [connectionsAfter, hl]⟩)
  | @resume outcome hl =>
      have hplain : outcome ≠ .ok () → a.connectionsAfter memory h connections .resume = connections := by
        intro ho
        simp [connectionsAfter, hl, ho]
      unfold resumeAccept
      split
      · exact .inr (.inr ⟨rfl, rfl, hplain (by simp)⟩)
      · exact .inr (.inr ⟨rfl, rfl, hplain (by simp)⟩)
      · exact .inr (.inr ⟨rfl, rfl, hplain (by simp)⟩)
      · exact .inl ⟨rfl, rfl, by simp [connectionsAfter, hl]⟩
  | @secured connection success hc =>
      refine .inr (.inl ⟨connection, success, rfl, hc, ?_, ?_, rfl⟩)
      · unfold secured
        split <;> rfl
      · unfold secured
        split <;> rfl
  | accept =>
      refine .inr (.inr ⟨?_, ?_, rfl⟩)
      · unfold accept
        split <;> rfl
      · unfold accept
        split <;> rfl
  | stop => exact .inr (.inr ⟨rfl, rfl, rfl⟩)

/-- What the TCPConnections of a SecureAcceptor are like. -/
structure Guards (a : SecureAcceptor) (connections : List (TCPAttempt Unit)) : Prop where
  length : connections.length = a.connections
  nodup : a.handshakes.Nodup
  handshaking : ∀ c ∈ a.handshakes, ∃ t, connections[c]? = some t ∧ t.secured = false ∧ t.Established
  done : ∀ c t, connections[c]? = some t → c ∉ a.handshakes →
    t.secured = true ∧ t.Established ∨ t.secured = false ∧ t.Aborted
  delivers : ∀ c, a.Delivers c → ∃ t, connections[c]? = some t ∧ t.secured = true ∧ t.Established

theorem create_guards : create.Guards [] where
  length := rfl
  nodup := List.nodup_nil
  handshaking := by simp [create]
  done := by simp
  delivers := by simp [Delivers, create, Lib.Channel.empty, Lib.Channel.queue]

theorem Guards.lt (hg : a.Guards connections) (hc : c ∈ a.handshakes) : c < a.connections := by
  obtain ⟨t, ht, -⟩ := hg.handshaking c hc
  rw [← hg.length]
  exact (List.getElem?_eq_some_iff.mp ht).1

theorem Guards.stays (hg : a.Guards connections) (hst : a.step e = some a') (memory : MessageBlockPool)
    (hc : c ∉ a.handshakes) {t : TCPAttempt Unit} (ht : connections[c]? = some t) :
    c ∉ a'.handshakes ∧ (a.connectionsAfter memory h connections e)[c]? = some t := by
  have hlt : c < connections.length := (List.getElem?_eq_some_iff.mp ht).1
  rcases step_connections hst memory h connections with
    ⟨hh, -, hafter⟩ | ⟨c', success, -, hc', hh, -, hafter⟩ | ⟨hh, -, hafter⟩
  · rw [hh, hafter, List.getElem?_append_left hlt]
    refine ⟨?_, ht⟩
    simp only [List.mem_append, List.mem_singleton, not_or]
    exact ⟨hc, by rw [← hg.length]; omega⟩
  · have hne : c' ≠ c := fun heq => hc (heq ▸ hc')
    rw [hh, hafter, List.getElem?_modify_ne _ _ hne]
    exact ⟨fun hmem => hc (List.mem_of_mem_erase hmem), ht⟩
  · rw [hh, hafter]
    exact ⟨hc, ht⟩

theorem Guards.delivers_step (hg : a.Guards connections) (hst : a.step e = some a') (memory : MessageBlockPool)
    (hh : ∀ c success, e = .secured c success → success = h.result.isOk) (hd : a'.Delivers c) :
    ∃ t, (a.connectionsAfter memory h connections e)[c]? = some t ∧ t.secured = true ∧ t.Established := by
  rcases step_delivers hst hd with hd | ⟨hc, rfl⟩
  · obtain ⟨t, ht, hsecured, hestablished⟩ := hg.delivers c hd
    refine ⟨t, (hg.stays hst memory (fun hc => ?_) ht).2, hsecured, hestablished⟩
    obtain ⟨t', ht', hplain, -⟩ := hg.handshaking c hc
    obtain rfl := Option.some.inj (ht.symm.trans ht')
    cases hsecured.symm.trans hplain
  · obtain ⟨t, ht, -, hestablished⟩ := hg.handshaking c hc
    exact ⟨t.finishHandshake h, by simp [connectionsAfter, ht],
      TCPAttempt.finishHandshake_ok hestablished (hh c true rfl).symm⟩

/-- Another socket is accepted, and its handshake starts. -/
theorem Guards.accepted (hg : a.Guards connections) (hhandshakes : a'.handshakes = a.handshakes ++ [a.connections])
    (hconnections : a'.connections = a.connections + 1)
    (hdelivers : ∀ c, a'.Delivers c →
      ∃ t, (connections ++ [.ofSocket memory])[c]? = some t ∧ t.secured = true ∧ t.Established) :
    a'.Guards (connections ++ [.ofSocket memory]) where
  length := by simp [hg.length, hconnections]
  nodup := by
    rw [hhandshakes]
    refine List.nodup_append.mpr ⟨hg.nodup, by simp, fun c hc n hn => ?_⟩
    rw [List.mem_singleton.mp hn]
    exact Nat.ne_of_lt (hg.lt hc)
  handshaking := by
    intro c hc
    rw [hhandshakes] at hc
    rcases List.mem_append.mp hc with hc | hc
    · obtain ⟨t, ht, hrest⟩ := hg.handshaking c hc
      exact ⟨t, by rw [List.getElem?_append_left (List.getElem?_eq_some_iff.mp ht).1, ht], hrest⟩
    · obtain rfl := List.mem_singleton.mp hc
      exact ⟨_, by rw [← hg.length]; exact List.getElem?_concat_length, rfl, ⟨rfl, rfl⟩⟩
  done := by
    intro c t ht hc
    rw [hhandshakes, List.mem_append, List.mem_singleton, not_or] at hc
    have hlt : c < connections.length := by
      have := (List.getElem?_eq_some_iff.mp ht).1
      have := hg.length
      simp only [List.length_append, List.length_singleton] at *
      omega
    rw [List.getElem?_append_left hlt] at ht
    exact hg.done c t ht hc.1
  delivers := hdelivers

/-- The handshake of the `c₀`-th TCPConnection ends. -/
theorem Guards.finished (hg : a.Guards connections) {c₀ : Nat} (hc₀ : c₀ ∈ a.handshakes)
    (hhandshakes : a'.handshakes = a.handshakes.erase c₀) (hconnections : a'.connections = a.connections)
    (hdelivers : ∀ c, a'.Delivers c → ∃ t, (connections.modify c₀ fun t => t.finishHandshake h)[c]? = some t ∧
      t.secured = true ∧ t.Established) :
    a'.Guards (connections.modify c₀ fun t => t.finishHandshake h) where
  length := by simp [hg.length, hconnections]
  nodup := by
    rw [hhandshakes]
    exact hg.nodup.erase c₀
  handshaking := by
    intro c hc
    rw [hhandshakes, hg.nodup.mem_erase_iff] at hc
    rw [List.getElem?_modify_ne _ _ hc.1.symm]
    exact hg.handshaking c hc.2
  done := by
    intro c t ht hc
    by_cases heq : c = c₀
    · subst heq
      obtain ⟨t₀, ht₀, hplain, hestablished⟩ := hg.handshaking c hc₀
      rw [List.getElem?_modify_eq, ht₀] at ht
      obtain rfl := Option.some.inj ht
      cases hok : h.result.isOk with
      | true => exact .inl (TCPAttempt.finishHandshake_ok hestablished hok)
      | false =>
          obtain ⟨hsecured, haborted⟩ := TCPAttempt.finishHandshake_error (t := t₀) hok
          exact .inr ⟨hsecured.trans hplain, haborted⟩
    · rw [List.getElem?_modify_ne _ _ (Ne.symm heq)] at ht
      rw [hhandshakes, List.mem_erase_of_ne heq] at hc
      exact hg.done c t ht hc
  delivers := hdelivers

/-- The handshake that a step ends, if it does, ends as `h` says. -/
theorem Guards.step (hg : a.Guards connections) (hst : a.step e = some a') (memory : MessageBlockPool)
    (hh : ∀ c success, e = .secured c success → success = h.result.isOk) :
    a'.Guards (a.connectionsAfter memory h connections e) := by
  have hdelivers : ∀ c, a'.Delivers c → ∃ t,
      (a.connectionsAfter memory h connections e)[c]? = some t ∧ t.secured = true ∧ t.Established :=
    fun c hd => hg.delivers_step hst memory hh hd
  rcases step_connections hst memory h connections with
    ⟨hhandshakes, hconnections, hafter⟩ | ⟨c₀, success, -, hc₀, hhandshakes, hconnections, hafter⟩ |
    ⟨hhandshakes, hconnections, hafter⟩
  · rw [hafter] at hdelivers ⊢
    exact hg.accepted hhandshakes hconnections hdelivers
  · rw [hafter] at hdelivers ⊢
    exact hg.finished hc₀ hhandshakes hconnections hdelivers
  · rw [hafter] at hdelivers ⊢
    exact
      { length := hg.length.trans hconnections.symm, nodup := hhandshakes ▸ hg.nodup
        handshaking := hhandshakes ▸ hg.handshaking, done := hhandshakes ▸ hg.done, delivers := hdelivers }

end SecureAcceptor

namespace TCPListener

variable {s s' : TCPListener} {e : TCPListenerEvent}

/-! ## A Listener with security -/

/-- A Listener with security has no `accept()` of its own. -/
structure Guarded (s : TCPListener) : Prop where
  enabled : s.securityEnabled = true
  listening : s.isListening = true → s.secures ≠ []
  accepts : ∀ c ∈ s.accepts, ∃ err, c = .returned (.error err)

theorem create_guarded (withTls : Bool) : (create true withTls).Guarded where
  enabled := rfl
  listening := by simp [create]
  accepts := by simp [create]

theorem Guarded.closeAcceptor (hg : s.Guarded) : s.closeAcceptor.Guarded where
  enabled := hg.enabled
  listening := hg.listening
  accepts c hc := by
    obtain ⟨c', hc', rfl⟩ := List.mem_map.mp hc
    obtain ⟨err, rfl⟩ := hg.accepts c' hc'
    exact ⟨err, rfl⟩

theorem Guarded.not_accepting (hg : s.Guarded) {i : Nat} {op : Lib.Operation ErrorCode Unit} :
    s.accepts[i]? ≠ some (.accepting op) := by
  intro hi
  obtain ⟨err, he⟩ := hg.accepts _ (List.mem_of_getElem? hi)
  cases he

theorem step_guarded (hw : s.Waits) (hg : s.Guarded) (h : s.step e = some s') : s'.Guarded := by
  cases step_steps h with
  | listen =>
      unfold listen
      split
      · exact { hg with }
      · exact { hg with }
  | @resolved attempts provider ec =>
      cases attempts with
      | nil => exact { hg with }
      | cons a rest =>
          have hclose := hg.closeAcceptor
          obtain ⟨t, rfl, ⟨err, hr⟩ | ⟨hsec, -⟩ | ⟨-, hr⟩⟩ := resolved_cases hw a rest provider ec
          · rw [hr]
            exact { hclose with }
          · cases hg.enabled.symm.trans hsec
          · rw [hr]
            exact { hclose with listening := by simp [listened] }
  | accept =>
      unfold accept
      split
      · refine { hg with accepts := fun c hc => ?_ }
        rcases List.mem_append.mp hc with hc | hc
        · exact hg.accepts c hc
        · exact ⟨notListening, List.mem_singleton.mp hc⟩
      · rename_i hl
        rw [if_neg (hg.listening (by simpa using hl))]
        exact { hg with }
  | stop =>
      unfold stop
      split
      · exact { hg with }
      · rename_i hl
        rw [if_neg (hg.listening (by simpa using hl))]
        exact { hg with listening := by simp }
  | complete hi => exact absurd hi hg.not_accepting
  | resume hi => exact absurd hi hg.not_accepting
  | secure h =>
      obtain ⟨b, b', entering, stopping, hb, -, rfl, -⟩ := secure_cases h
      refine { hg with listening := fun _ hnil => ?_ }
      have hnil : s.secures = [] := by simpa using hnil
      rw [hnil] at hb
      cases hb

end TCPListener

namespace SecuredListener

variable {s s' : SecuredListener} {e : TCPListenerEvent} {h : Handshake}

/-! ## The TCPConnections of a Listener -/

/-- A step with its TCPConnections is one of the Listener. -/
theorem step_cases (hst : s.step e h = some s') : h.answers e = true ∧ s.listener.step e = some s'.listener ∧
    s'.memory = s.memory ∧ s'.connections = s.connectionsAfter h e := by
  unfold step at hst
  split at hst
  · rename_i hanswers
    obtain ⟨l, hl, rfl⟩ := Option.map_eq_some_iff.mp hst
    exact ⟨hanswers, hl, rfl, rfl⟩
  · cases hst

/-- What holds of a Listener and its TCPConnections. -/
structure Guards (s : SecuredListener) : Prop where
  waits : s.listener.Waits
  secures : ∀ (j : Nat) (a : SecureAcceptor), s.listener.secures[j]? = some a → a.Guards (s.connections j)
  fresh : ∀ j, s.listener.secures[j]? = none → s.connections j = []

theorem create_guards (securityEnabled withTls : Bool) (memory : MessageBlockPool) :
    (create securityEnabled withTls memory).Guards where
  waits := by simp [create, TCPListener.create, TCPListener.Waits]
  secures := by simp [create, TCPListener.create]
  fresh _ _ := rfl

theorem connectionsAfter_of_ne (hne : ∀ j a, e ≠ .secure j a) : s.connectionsAfter h e = s.connections := by
  unfold connectionsAfter
  split
  · exact absurd rfl (hne _ _)
  · rfl

theorem connectionsAfter_secure {j : Nat} {a : SecureAcceptor} {ev : AcceptorEvent}
    (ha : s.listener.secures[j]? = some a) : s.connectionsAfter h (.secure j ev) =
      Function.update s.connections j (a.connectionsAfter s.memory h (s.connections j) ev) := by
  simp only [connectionsAfter, ha]

theorem step_guards (hg : s.Guards) (hst : s.step e h = some s') : s'.Guards := by
  obtain ⟨hanswers, hl, -, hafter⟩ := step_cases hst
  refine { waits := TCPListener.step_waits hg.waits hl, secures := ?_, fresh := ?_ }
  all_goals rw [hafter]
  all_goals rcases TCPListener.secures_cases hg.waits hl with ⟨hne, he | he⟩ | ⟨j, ev, b, b', rfl, hb, hstep, he⟩
  · rw [he, connectionsAfter_of_ne hne]
    exact hg.secures
  · rw [he, connectionsAfter_of_ne hne]
    intro j a ha
    rcases Nat.lt_trichotomy j s.listener.secures.length with hj | rfl | hj
    · rw [List.getElem?_append_left hj] at ha
      exact hg.secures j a ha
    · rw [List.getElem?_concat_length] at ha
      obtain rfl := Option.some.inj ha
      rw [hg.fresh _ (List.getElem?_eq_none (Nat.le_refl _))]
      exact SecureAcceptor.create_guards
    · rw [List.getElem?_eq_none (by simpa using Nat.succ_le_of_lt hj)] at ha
      cases ha
  · rw [he, connectionsAfter_secure hb]
    intro k a ha
    have hguards := (hg.secures j b hb).step (h := h) hstep s.memory fun c success hev => by
      subst hev
      simpa [Handshake.answers] using hanswers
    by_cases hkj : k = j
    · subst hkj
      rw [List.getElem?_set_self (List.getElem?_eq_some_iff.mp hb).1] at ha
      obtain rfl := Option.some.inj ha
      rw [Function.update_self]
      exact hguards
    · rw [List.getElem?_set_ne (Ne.symm hkj)] at ha
      rw [Function.update_of_ne hkj]
      exact hg.secures k a ha
  · rw [he, connectionsAfter_of_ne hne]
    exact hg.fresh
  · rw [he, connectionsAfter_of_ne hne]
    intro j hj
    refine hg.fresh j (List.getElem?_eq_none ?_)
    have := List.getElem?_eq_none_iff.mp hj
    simp only [List.length_append] at this
    omega
  · rw [he, connectionsAfter_secure hb]
    intro k hk
    have hkj : k ≠ j := by
      rintro rfl
      rw [List.getElem?_set_self (List.getElem?_eq_some_iff.mp hb).1] at hk
      cases hk
    rw [List.getElem?_set_ne (Ne.symm hkj)] at hk
    rw [Function.update_of_ne hkj]
    exact hg.fresh k hk

theorem guards_of_reachable (hr : system.Reachable s) : s.Guards := by
  refine hr.invariant (I := Guards) ?_ fun s e s' hg hst => step_guards hg hst
  rintro s ⟨securityEnabled, withTls, memory, rfl⟩
  exact create_guards securityEnabled withTls memory

/-! ## What `accept()` returns -/

theorem keepsSecurity_of_run {withTls : Bool} {memory : MessageBlockPool} {es : List (TCPListenerEvent × Handshake)}
    (hrun : system.Run (create true withTls memory) es s) : s.KeepsSecurity := by
  have hboth : s.Guards ∧ s.listener.Guarded := by
    refine hrun.preserves (I := fun s => s.Guards ∧ s.listener.Guarded) ?_
      ⟨create_guards true withTls memory, TCPListener.create_guarded withTls⟩
    rintro s e s' ⟨hg, hguarded⟩ hst
    exact ⟨step_guards hg hst, TCPListener.step_guarded hg.waits hguarded (step_cases hst).2.1⟩
  refine ⟨fun n hn => ?_, fun j a c ha hc => (hboth.1.secures j a ha).delivers c (.inr hc)⟩
  obtain ⟨err, he⟩ := hboth.2.accepts _ hn
  cases he

theorem step_stays (hg : s.Guards) (hst : s.step e h = some s') {j c : Nat} {t : TCPAttempt Unit}
    (hc : ∃ a, s.listener.secures[j]? = some a ∧ c ∉ a.handshakes) (ht : (s.connections j)[c]? = some t) :
    (∃ a, s'.listener.secures[j]? = some a ∧ c ∉ a.handshakes) ∧ (s'.connections j)[c]? = some t := by
  obtain ⟨a, ha, hc⟩ := hc
  obtain ⟨-, hl, -, hafter⟩ := step_cases hst
  rw [hafter]
  rcases TCPListener.secures_cases hg.waits hl with ⟨hne, he | he⟩ | ⟨k, ev, b, b', rfl, hb, hstep, he⟩
  · rw [he, connectionsAfter_of_ne hne]
    exact ⟨⟨a, ha, hc⟩, ht⟩
  · rw [he, connectionsAfter_of_ne hne, List.getElem?_append_left (List.getElem?_eq_some_iff.mp ha).1]
    exact ⟨⟨a, ha, hc⟩, ht⟩
  · rw [he, connectionsAfter_secure hb]
    by_cases hkj : k = j
    · subst hkj
      obtain rfl := Option.some.inj (hb.symm.trans ha)
      obtain ⟨hc', ht'⟩ := (hg.secures k b hb).stays (h := h) hstep s.memory hc ht
      rw [List.getElem?_set_self (List.getElem?_eq_some_iff.mp hb).1, Function.update_self]
      exact ⟨⟨b', rfl, hc'⟩, ht'⟩
    · rw [List.getElem?_set_ne hkj, Function.update_of_ne (Ne.symm hkj)]
      exact ⟨⟨a, ha, hc⟩, ht⟩

/-- From the end of a handshake that fails on, the TCPConnection is aborted and not returned. -/
theorem dropped_of_failed (hg : s.Guards) {j c : Nat} {success : Bool}
    (hst : s.step (.secure j (.secured c success)) h = some s') (hfailed : h.result.isOk = false)
    {es : List (TCPListenerEvent × Handshake)} {u : SecuredListener} (hrun : system.Run s' es u) :
    u.Dropped j c := by
  obtain ⟨-, hl, -, hafter⟩ := step_cases hst
  rcases TCPListener.step_steps hl with _ | _ | _ | _ | _ | _ | hsecure
  obtain ⟨b, b', entering, stopping, hb, hstep, hlistener, -⟩ := TCPListener.secure_cases hsecure
  have hguards := hg.secures j b hb
  obtain ⟨hc, hhandshakes⟩ : c ∈ b.handshakes ∧ b'.handshakes = b.handshakes.erase c := by
    cases SecureAcceptor.step_steps hstep with
    | secured hc =>
        refine ⟨hc, ?_⟩
        unfold SecureAcceptor.secured
        split <;> rfl
  obtain ⟨t, ht, hplain, -⟩ := hguards.handshaking c hc
  obtain ⟨hsecured, haborted⟩ := TCPAttempt.finishHandshake_error (t := t) hfailed
  have hfirst : s'.Guards ∧ (∃ a, s'.listener.secures[j]? = some a ∧ c ∉ a.handshakes) ∧
      (s'.connections j)[c]? = some (t.finishHandshake h) := by
    refine ⟨step_guards hg hst, ⟨b', ?_, ?_⟩, ?_⟩
    · rw [hlistener]
      exact List.getElem?_set_self (List.getElem?_eq_some_iff.mp hb).1
    · rw [hhandshakes]
      exact hguards.nodup.not_mem_erase
    · rw [hafter, connectionsAfter_secure hb, Function.update_self]
      simp [SecureAcceptor.connectionsAfter, ht]
  obtain ⟨hg', -, ht'⟩ := hrun.preserves (I := fun u => u.Guards ∧
    (∃ a, u.listener.secures[j]? = some a ∧ c ∉ a.handshakes) ∧ (u.connections j)[c]? = some (t.finishHandshake h))
    (fun u e u' ⟨hg, hc, ht⟩ hst => ⟨step_guards hg hst, step_stays hg hst hc ht⟩) hfirst
  refine ⟨⟨_, ht', haborted⟩, fun a ha hmem => ?_⟩
  obtain ⟨t', ht'', hdelivered, -⟩ := (hg'.secures j a ha).delivers c (.inr hmem)
  obtain rfl := Option.some.inj (ht'.symm.trans ht'')
  cases (hsecured.trans hplain).symm.trans hdelivered

end SecuredListener

end Taps
