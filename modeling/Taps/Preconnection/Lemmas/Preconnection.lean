import Taps.Preconnection.Preconnection

/-!
# What `initiate()` does

For a reliable transport it is one search through a list of addresses, `tried`: those of every remote
endpoint, or the first one alone where there is one endpoint. `initiate_cases` says once how this search
ends, and `establishConnection_cases` what becomes of the TCPConnection that is connected.
-/

namespace Taps

variable {A : Type}

namespace Preconnection

variable (p : Preconnection) (net : Network A)

/-- The addresses that `initiate()` looks at. -/
def tried : List (Candidate A) :=
  if p.remoteEndpoints.length = 1 then (net.resolve 0).take 1 else p.candidates net

/-- The TCPConnection to an address that accepts. -/
def connectedTo (c : Candidate A) : TCPAttempt A :=
  { remoteEndpoint := some c.address, conn := .create .established none () p.memory, secured := false
    serverName := none }

/-- The one to an address that does not. -/
def refusedBy (c : Candidate A) : TCPAttempt A :=
  { remoteEndpoint := some c.address
    conn := { TCPConnection.create .closed none () p.memory with aborted := true }
    secured := false, serverName := none }

theorem refusedBy_aborted (c : Candidate A) : (p.refusedBy c).Aborted := ⟨rfl, rfl⟩

theorem connectedTo_established (c : Candidate A) : (p.connectedTo c).Established := ⟨rfl, rfl⟩

/-! ## The addresses -/

theorem candidates_eq :
    net.resolve 0 ++ (List.range' 1 (p.remoteEndpoints.length - 1)).flatMap net.resolve =
      p.candidates net := by
  have hlen : p.remoteEndpoints.length = p.remoteEndpoints.length - 1 + 1 := by
    have := List.length_pos_iff.mpr p.remoteEndpoints_ne
    omega
  rw [candidates, List.range_eq_range', hlen, List.range'_succ, List.flatMap_cons]
  simp

theorem candidates_single (h : p.remoteEndpoints.length = 1) : p.candidates net = net.resolve 0 := by
  simp [candidates, h]

theorem tried_initial : p.tried net <+: p.candidates net := by
  unfold tried
  split
  case isTrue h =>
    rw [p.candidates_single net h]
    exact List.take_prefix 1 _
  case isFalse => exact List.prefix_refl _

theorem tried_eq_nil : p.tried net = [] ↔ p.candidates net = [] := by
  unfold tried
  split
  case isTrue h => simp [p.candidates_single net h]
  case isFalse => exact Iff.rfl

/-- The addresses that are left out have no say if the first one has. -/
theorem firstDecides_iff : p.FirstDecides net ↔
    ((∀ c ∈ p.tried net, c.accepts = false) → ∀ c ∈ p.candidates net, c.accepts = false) := by
  unfold FirstDecides tried
  by_cases h : p.remoteEndpoints.length = 1
  case neg => simp [h]
  case pos =>
    rw [if_pos h, p.candidates_single net h]
    cases net.resolve 0 <;> simp [h]

theorem find_candidates {pre post : List (Candidate A)} {c : Candidate A}
    (hsplit : p.tried net = pre ++ c :: post) (hpre : ∀ x ∈ pre, x.accepts = false)
    (hc : c.accepts = true) :
    (p.candidates net)[pre.length]? = some c ∧ (p.candidates net).find? Candidate.accepts = some c := by
  obtain ⟨rest, hrest⟩ := p.tried_initial net
  rw [← hrest, hsplit]
  refine ⟨by simp, List.find?_eq_some_iff_append.mpr ⟨hc, pre, post ++ rest, by simp, ?_⟩⟩
  simpa using hpre

theorem length_origins : (p.origins net).length = (p.candidates net).length := by
  have h : ∀ (l : List RemoteEndpoint) (k : Nat),
      ((l.zipIdx k).flatMap fun r => (net.resolve r.2).map fun _ => r.1).length =
        ((List.range' k l.length).flatMap net.resolve).length := by
    intro l
    induction l with
    | nil => simp
    | cons r l ih =>
        intro k
        rw [List.zipIdx_cons, List.flatMap_cons, List.length_append, ih, List.length_cons, List.range'_succ,
          List.flatMap_cons, List.length_append, List.length_map]
  rw [origins, candidates, List.range_eq_range', h]

theorem origins_single (h : p.remoteEndpoints.length = 1) {r : RemoteEndpoint} (hr : r ∈ p.origins net) :
    r = p.primary := by
  obtain ⟨x, hx⟩ := List.length_eq_one_iff.mp h
  have hx' : p.primary = x := by simp [primary, hx]
  simp only [origins, hx, List.zipIdx_cons, List.zipIdx_nil, List.flatMap_cons, List.flatMap_nil,
    List.append_nil, List.mem_map] at hr
  obtain ⟨-, -, rfl⟩ := hr
  exact hx'.symm

theorem winner_of_tried {pre post : List (Candidate A)} {c : Candidate A}
    (hsplit : p.tried net = pre ++ c :: post) (hpre : ∀ x ∈ pre, x.accepts = false)
    (hc : c.accepts = true) :
    ∃ r, (p.origins net)[pre.length]? = some r ∧ p.winner net = some (r, c) := by
  obtain ⟨rest, hrest⟩ := p.tried_initial net
  have hcands : p.candidates net = pre ++ c :: (post ++ rest) := by rw [← hrest, hsplit]; simp
  have hlen := p.length_origins net
  have hlt : pre.length < (p.origins net).length := by rw [hlen, hcands]; simp
  refine ⟨_, List.getElem?_eq_getElem hlt, List.find?_eq_some_iff_getElem.mpr
    ⟨hc, pre.length, by simp [hlt, hcands], by simp [hcands], fun j hj => ?_⟩⟩
  have hrefuses := hpre pre[j] (List.getElem_mem hj)
  simp only [List.getElem_zip, hcands, List.getElem_append_left hj, hrefuses, Bool.not_false]

theorem winner_of_refused (h : ∀ c ∈ p.candidates net, c.accepts = false) : p.winner net = none := by
  refine List.find?_eq_none.mpr fun w hw => ?_
  simp [h w.2 (List.of_mem_zip hw).2]

end Preconnection

/-! ## The attempts -/

namespace Initiation

variable (s : Initiation A) (net : Network A) (c : Candidate A)

theorem leave_cases {s : Initiation A} {t x : TCPAttempt A} {n : Nat}
    (h : (s.leave t).connections[n]? = some x) :
    n < s.connections.length ∧ s.connections[n]? = some x ∨ n = s.connections.length ∧ x = t := by
  simp only [leave, List.getElem?_append, List.getElem?_singleton] at h
  split at h
  case isTrue hlt => exact .inl ⟨hlt, h⟩
  case isFalse hge =>
    split at h
    case isTrue hz => exact .inr ⟨by omega, (Option.some.inj h).symm⟩
    case isFalse => cases h

theorem attempt_accepts (h : c.accepts = true) : s.attempt c = (s.preconnection.connectedTo c, .ok ()) := by
  have hc : c.connected = none := by simpa [Candidate.accepts] using h
  rw [attempt, hc]
  rfl

theorem attempt_refuses (h : c.accepts = false) :
    ∃ t message, s.attempt c = (t, .error ⟨.establishmentError, .establishmentFailed, message⟩) ∧
      t.abort c.closed = s.preconnection.refusedBy c := by
  obtain ⟨ec, hc⟩ := Option.isSome_iff_exists.mp (by simpa [Candidate.accepts] using h : c.connected.isSome)
  rw [attempt, hc]
  exact ⟨_, _, rfl, rfl⟩

/-- The induction is on the addresses that are left; the TCPConnections of those before them are in
`connections`. -/
theorem raceLoop_cases (n : Nat) (last : TAPSError) (cs : List (Candidate A)) :
    (∀ c ∈ cs, c.accepts = false) ∧
        (∃ e, s.raceLoop net n last cs =
          ({ s with connections := s.connections ++ cs.map s.preconnection.refusedBy },
            .error (allFailed n e))) ∨
      ∃ pre c post, cs = pre ++ c :: post ∧ (∀ x ∈ pre, x.accepts = false) ∧ c.accepts = true ∧
        s.raceLoop net n last cs =
          { s with connections := s.connections ++ pre.map s.preconnection.refusedBy }.establishConnection
            net c (s.preconnection.connectedTo c) := by
  induction cs generalizing s last with
  | nil => exact .inl ⟨by simp, last, by simp [raceLoop]⟩
  | cons c cs ih =>
      cases hc : c.accepts with
      | true =>
          refine .inr ⟨[], c, cs, rfl, by simp, hc, ?_⟩
          rw [raceLoop, s.attempt_accepts c hc]
          simp
      | false =>
          obtain ⟨t, message, hattempt, ht⟩ := s.attempt_refuses c hc
          have hloop : s.raceLoop net n last (c :: cs) =
              (s.leave (s.preconnection.refusedBy c)).raceLoop net n
                ⟨.establishmentError, .establishmentFailed, message⟩ cs := by
            rw [raceLoop, hattempt, ← ht]
          rw [hloop]
          rcases ih (s.leave (s.preconnection.refusedBy c)) _ with
            ⟨hall, e, he⟩ | ⟨pre, x, post, rfl, hpre, hx, he⟩
          · exact .inl ⟨by simpa [hc] using hall, e, by simpa [leave] using he⟩
          · exact .inr ⟨c :: pre, x, post, rfl, by simpa [hc] using hpre, hx, by simpa [leave] using he⟩

/-! ## The Connection -/

theorem establishConnection_plain (t : TCPAttempt A)
    (h : s.preconnection.securityParameters.isEnabled = false) :
    s.establishConnection net c t = s.hand t := by
  rw [establishConnection, if_pos h]

theorem provider_eq_ok : s.provider net = .ok () ↔
    s.preconnection.securityProvider = true ∨ net.provider = .ok () := by
  unfold provider
  cases s.preconnection.securityProvider <;> simp

/-- With security, a TCPConnection that is connected is secured and returned, or it is given up. -/
theorem establishConnection_cases (t : TCPAttempt A)
    (h : s.preconnection.securityParameters.isEnabled = true) (hc : c.connected = none) :
    s.preconnection.CanSecure net c ∧ s.establishConnection net c t =
        s.setProvider.hand { t with secured := true, serverName := some s.preconnection.identity } ∨
      ¬ s.preconnection.CanSecure net c ∧ ∃ s' t' e, s.establishConnection net c t = giveUp s' c t' e ∧
        s'.connections = s.connections ∧ t'.remoteEndpoint = t.remoteEndpoint ∧
        (s.preconnection.HasProvider net → t'.serverName = some s.preconnection.identity) ∧
        (¬ s.preconnection.HasProvider net → t'.serverName = t.serverName) := by
  rw [establishConnection, if_neg (by simp [h])]
  by_cases htls : s.preconnection.withTls = true
  case neg =>
    have hno : ¬ s.preconnection.HasProvider net := fun hp => htls hp.1
    rw [if_neg htls]
    exact .inr ⟨fun hs => hno hs.2.1, s, t, _, rfl, rfl, rfl, fun hp => absurd hp hno, fun _ => rfl⟩
  case pos =>
    rw [if_pos htls]
    cases hprovider : s.provider net with
    | error e =>
        have hno : ¬ s.preconnection.HasProvider net := fun hp => by
          have := (s.provider_eq_ok net).mpr hp.2
          simp [hprovider] at this
        exact .inr ⟨fun hs => hno hs.2.1, s, t, _, rfl, rfl, rfl, fun hp => absurd hp hno, fun _ => rfl⟩
    | ok =>
        have hp : s.preconnection.HasProvider net := ⟨htls, (s.provider_eq_ok net).mp hprovider⟩
        have hid : s.setProvider.preconnection.identity = s.preconnection.identity := rfl
        simp only [hid]
        cases hsecured : c.secured s.preconnection.identity with
        | error e =>
            refine .inr ⟨fun hs => ?_, s.setProvider, _, e, rfl, rfl, rfl, fun _ => rfl, fun hno => absurd hp hno⟩
            exact absurd (hsecured.symm.trans hs.2.2) (by simp)
        | ok => exact .inl ⟨⟨hc, hp, hsecured⟩, rfl⟩

theorem establishConnection_names (t : TCPAttempt A)
    (h : s.preconnection.securityParameters.isEnabled = true) (hc : c.connected = none) :
    ∃ s' t', (s.establishConnection net c t).1 = leave s' t' ∧ s'.connections = s.connections ∧
      (s.preconnection.HasProvider net → t'.serverName = some s.preconnection.identity) ∧
      (¬ s.preconnection.HasProvider net → t'.serverName = t.serverName) := by
  rcases s.establishConnection_cases net c t h hc with
    ⟨hcan, he⟩ | ⟨-, s', t', e, he, hconnections, -, hname, hnone⟩
  · rw [he]
    exact ⟨s.setProvider, _, rfl, rfl, fun _ => rfl, fun hno => absurd hcan.2.1 hno⟩
  · rw [he]
    exact ⟨s', t'.abort c.closed, rfl, hconnections, hname, hnone⟩

end Initiation

/-! ## `initiate()` -/

theorem Preconnection.initiate_cases (p : Preconnection) (net : Network A)
    (hr : p.transportProperties.requiresReliableTransport = true) :
    p.tried net = [] ∧ (∃ text, p.initiate net = (⟨p, []⟩, .error (Initiation.resolutionFailed text))) ∨
    (p.tried net ≠ [] ∧ (∀ c ∈ p.tried net, c.accepts = false) ∧
      ∃ message, p.initiate net = (⟨p, (p.tried net).map p.refusedBy⟩,
        .error ⟨.establishmentError, .establishmentFailed, message⟩)) ∨
    ∃ pre c post, p.tried net = pre ++ c :: post ∧ (∀ x ∈ pre, x.accepts = false) ∧ c.accepts = true ∧
      p.initiate net =
        Initiation.establishConnection ⟨p, pre.map p.refusedBy⟩ net c (p.connectedTo c) := by
  by_cases h1 : p.remoteEndpoints.length = 1
  case pos =>
    have hi : p.initiate net = Initiation.initiateWithSingleEndpoint ⟨p, []⟩ net := by
      simp [initiate, hr, h1]
    rw [hi, tried, if_pos h1, Initiation.initiateWithSingleEndpoint]
    cases net.resolve 0 with
    | nil => exact .inl ⟨rfl, _, rfl⟩
    | cons c cs =>
        cases hc : c.accepts with
        | true =>
            rw [List.take_succ_cons, List.take_zero]
            refine .inr (.inr ⟨[], c, [], rfl, by simp, hc, ?_⟩)
            simp [Initiation.attempt_accepts _ c hc]
        | false =>
            obtain ⟨t, message, hattempt, ht⟩ := Initiation.attempt_refuses ⟨p, []⟩ c hc
            refine .inr (.inl ⟨by simp, by simpa using hc, message, ?_⟩)
            simp [hattempt, Initiation.giveUp, Initiation.leave, ht]
  case neg =>
    have hi : p.initiate net = Initiation.happyEyeballsRacing ⟨p, []⟩ net := by
      simp [initiate, hr, h1]
    rw [hi, tried, if_neg h1, Initiation.happyEyeballsRacing]
    simp only [p.candidates_eq net]
    cases hcs : p.candidates net with
    | nil => exact .inl ⟨rfl, _, rfl⟩
    | cons c cs =>
        rw [← hcs]
        have hne : p.candidates net ≠ [] := by simp [hcs]
        have hempty : (p.candidates net).isEmpty = false := by simp [hcs]
        simp only [hempty, Initiation.raceConnections, Bool.false_eq_true, if_false]
        rcases Initiation.raceLoop_cases ⟨p, []⟩ net (p.candidates net).length
          ⟨.establishmentError, .establishmentFailed, .text "No endpoints attempted"⟩ (p.candidates net) with
          ⟨hall, e, he⟩ | ⟨pre, x, post, hsplit, hpre, hx, he⟩
        · exact .inr (.inl ⟨hne, hall, _, by simpa [Initiation.allFailed] using he⟩)
        · exact .inr (.inr ⟨pre, x, post, hsplit, hpre, hx, by simpa using he⟩)

/-! ## Security -/

namespace Preconnection

variable {p : Preconnection} {net : Network A}

theorem refusedBy_cases {pre : List (Candidate A)} (hinit : pre <+: p.candidates net)
    (hpre : ∀ x ∈ pre, x.accepts = false) {n : Nat} {t : TCPAttempt A}
    (hn : (pre.map p.refusedBy)[n]? = some t) :
    ∃ c, (p.candidates net)[n]? = some c ∧ t.remoteEndpoint = some c.address ∧ ¬ p.CanSecure net c ∧
      t.Aborted := by
  rw [List.getElem?_map] at hn
  obtain ⟨c, hc, rfl⟩ := Option.map_eq_some_iff.mp hn
  obtain ⟨rest, hrest⟩ := hinit
  refine ⟨c, ?_, rfl, fun hcan => ?_, p.refusedBy_aborted c⟩
  · rw [← hrest, List.getElem?_append_left (List.getElem?_eq_some_iff.mp hc).1, hc]
  · have hrefuses := hpre c (List.mem_of_getElem? hc)
    simp [Candidate.accepts, hcan.1] at hrefuses

variable (p net)

theorem initiate_keepsSecurity (he : p.securityParameters.isEnabled = true) :
    (p.initiate net).1.KeepsSecurity (p.initiate net).2 p net := by
  by_cases hr : p.transportProperties.requiresReliableTransport = true
  case neg =>
    have hi : p.initiate net = (⟨p, []⟩, .error securityUnavailable) := by
      simp [initiate, Initiation.initiateUdp, hr, he]
    rw [hi]
    exact ⟨fun _ h => by simp at h, fun n t hn => by simp at hn⟩
  rcases p.initiate_cases net hr with ⟨hnil, text, hi⟩ | ⟨-, hall, message, hi⟩ |
    ⟨pre, c, post, hsplit, hpre, hc, hi⟩
  · rw [hi]
    exact ⟨fun _ h => by simp at h, fun n t hn => by simp at hn⟩
  · rw [hi]
    refine ⟨fun _ h => by simp at h, fun n t hn => ?_⟩
    obtain ⟨c, hcands, haddress, hcan, haborted⟩ := refusedBy_cases (p.tried_initial net) hall hn
    exact ⟨c, hcands, haddress, .inr ⟨hcan, by simp, haborted⟩⟩
  · have hinit : pre <+: p.candidates net :=
      (List.prefix_append pre (c :: post)).trans (hsplit ▸ p.tried_initial net)
    obtain ⟨hcands, -⟩ := p.find_candidates net hsplit hpre hc
    rw [hi]
    rcases Initiation.establishConnection_cases ⟨p, pre.map p.refusedBy⟩ net c (p.connectedTo c) he
      (by simpa [Candidate.accepts] using hc) with ⟨hcan, hest⟩ | ⟨hcan, s', t', e, hest, hconnections, haddress, -⟩
    · rw [hest]
      refine ⟨fun conn h => ?_, fun n t hn => ?_⟩
      · obtain rfl := Except.ok.inj h
        exact ⟨_, _, rfl, List.getElem?_concat_length, rfl, ⟨rfl, rfl⟩⟩
      · rcases Initiation.leave_cases hn with ⟨hlt, hn⟩ | ⟨rfl, rfl⟩
        · obtain ⟨x, hx, hxaddress, hxcan, haborted⟩ := refusedBy_cases hinit hpre hn
          refine ⟨x, hx, hxaddress, .inr ⟨hxcan, fun h => ?_, haborted⟩⟩
          simp only [Initiation.hand, Except.ok.injEq, InitiatedConnection.tcp.injEq] at h
          omega
        · exact ⟨c, by simpa [Initiation.setProvider] using hcands, rfl, .inl ⟨hcan, rfl⟩⟩
    · rw [hest]
      refine ⟨fun _ h => by simp [Initiation.giveUp] at h, fun n t hn => ?_⟩
      rcases Initiation.leave_cases hn with ⟨-, hn⟩ | ⟨rfl, rfl⟩
      · rw [hconnections] at hn
        obtain ⟨x, hx, hxaddress, hxcan, haborted⟩ := refusedBy_cases hinit hpre hn
        exact ⟨x, hx, hxaddress, .inr ⟨hxcan, by simp [Initiation.giveUp], haborted⟩⟩
      · exact ⟨c, by simpa [hconnections] using hcands, haddress,
          .inr ⟨hcan, by simp [Initiation.giveUp], t'.abort_aborted c.closed⟩⟩

end Preconnection

end Taps
