import Taps.Preconnection.Lemmas.Preconnection
import Taps.Security.Initiate
import Taps.Security.Lemmas.TlsProvider

/-!
# Lemmas on a Preconnection with its provider

The invariant of its calls, and what a handshake that has succeeded tells of its start.
-/

namespace Taps

namespace TlsProvider

variable {lib : TlsLibrary} {p : TlsProvider} {name : String}

theorem session_eq {session : TlsSession} (h : p.session lib name = .ok session) :
    session.context = p.context ∧ session.verifyName = (if name = "" then none else some name) ∧
      session.sni = session.verifyName := by
  unfold TlsProvider.session at h
  split at h
  · rename_i hname
    cases h
    simp [String.isEmpty_iff.mp hname]
  · rename_i hname
    split at h
    · cases h
    · split at h
      · cases h
      · cases h
        simp [mt String.isEmpty_iff.mpr hname]

theorem secureClient_ok {peer : TlsSession → Except ErrorCode (List Byte)} :
    p.secureClient lib peer name = .ok () ↔ ∃ session negotiated, p.session lib name = .ok session ∧
      peer session = .ok negotiated ∧ (p.requiredAlpn ≠ [] → negotiated ∈ p.requiredAlpn) := by
  unfold secureClient
  rw [Result.bind_eq_ok]
  refine exists_congr fun session => ?_
  cases hpeer : peer session with
  | error ec => simp
  | ok negotiated =>
      by_cases hnil : p.requiredAlpn = []
      · simp [hnil]
      · by_cases hmem : negotiated ∈ p.requiredAlpn
        · simp [hmem]
        · simp [hnil, hmem]

/-- Once the handshake has begun, a client fails for nothing else than that the establishment failed. -/
theorem secureClient_error {peer : TlsSession → Except ErrorCode (List Byte)} {session : TlsSession} {e : TAPSError}
    (hsession : p.session lib name = .ok session) (h : p.secureClient lib peer name = .error e) :
    e.event = .establishmentError ∧ e.reason = .establishmentFailed := by
  rw [secureClient, hsession] at h
  simp only [bind, Except.bind] at h
  split at h
  · cases h
    exact ⟨rfl, rfl⟩
  · split at h
    · cases h
    · cases h
      exact ⟨rfl, rfl⟩

theorem secureServer_ok {handshake : Option ErrorCode} :
    secureServer handshake = .ok () ↔ handshake = none := by
  cases handshake <;> simp [secureServer]

/-! ## ALPN -/

theorem outcome_eq_ok {h : TlsHandshake} {negotiated : List Byte} :
    h.outcome = .ok negotiated ↔ h.client = none ∧ h.selected = negotiated := by
  unfold TlsHandshake.outcome
  cases h.client <;> simp

theorem mem_of_agreement {client server : List (List Byte)} {id : List Byte}
    (h : alpnAgreement client server = some id) (hne : client ≠ []) : id ∈ client := by
  rw [alpnAgreement, if_neg hne] at h
  simpa using List.find?_some h

variable {connect : TlsSession → TlsContext → TlsHandshake} {session : TlsSession} {ids : List (List Byte)}
  {params : TlsParameters}

theorem selected_of_agreement (hlib : lib.Negotiates connect)
    (hoffers : Lib.Prefixed.decode session.context.alpnProtos = some ids) (hp : p.EnforcesServer lib params)
    {id : List Byte} (h : alpnAgreement ids params.alpnProtocols = some id)
    (hok : (connect session p.context).client = none) : (connect session p.context).selected = id := by
  unfold alpnAgreement at h
  split at h
  · rename_i hnil
    cases h
    rw [hnil] at hoffers
    exact hlib.unasked _ _ (.inl (Lib.Prefixed.decode_eq_nil hoffers))
  · rename_i hids
    have hne : params.alpnProtocols ≠ [] := fun hnil => by simp [hnil] at h
    obtain ⟨wire, hwire, hdecode⟩ := hp.selects hne
    have hoffered : session.context.alpnProtos ≠ [] := fun hnil => by
      simp [hnil, Lib.Prefixed.decode, hids] at hoffers
    exact hlib.selected _ _ wire id hoffered hwire ((hlib.select hdecode hoffers hne hids).trans h) hok

theorem refused_of_disagreement (hlib : lib.Negotiates connect)
    (hoffers : Lib.Prefixed.decode session.context.alpnProtos = some ids) (hp : p.EnforcesServer lib params)
    (h : alpnAgreement ids params.alpnProtocols = none) :
    ids ≠ [] ∧ ((connect session p.context).client = none → (connect session p.context).selected = []) ∧
      (params.alpnProtocols ≠ [] → (connect session p.context).server ≠ none) := by
  unfold alpnAgreement at h
  split at h
  · cases h
  · rename_i hids
    by_cases hne : params.alpnProtocols = []
    · exact ⟨hids, fun _ => hlib.unasked _ _ (.inr (hp.selects_none hne)), fun hsome => absurd hne hsome⟩
    · obtain ⟨wire, hwire, hdecode⟩ := hp.selects hne
      have hoffered : session.context.alpnProtos ≠ [] := fun hnil => by
        simp [hnil, Lib.Prefixed.decode, hids] at hoffers
      obtain ⟨hclient, hserver⟩ :=
        hlib.alert _ _ wire hoffered hwire ((hlib.select hdecode hoffers hne hids).trans h)
      exact ⟨hids, fun hok => absurd hok hclient, fun _ => hserver⟩

end TlsProvider

namespace TlsPreconnection

variable {A : Type} {s s' : TlsPreconnection} {net : TlsNetwork A} {parameters : TlsParameters}
  {libs : List TlsLibrary}

/-- The parameters stay, and a provider that is there enforces them, with a library of the calls so far. -/
structure Inv (parameters : TlsParameters) (libs : List TlsLibrary) (s : TlsPreconnection) : Prop where
  same : s.parameters = parameters
  provider : ∀ p, s.provider = some p → ∃ lib ∈ libs, p.EnforcesClient lib parameters

theorem getProvider_enforces (h : s.Inv parameters libs) {lib : TlsLibrary} {p : TlsProvider}
    (hp : s.getProvider lib = .ok p) : ∃ lib' ∈ libs ++ [lib], p.EnforcesClient lib' parameters := by
  unfold getProvider at hp
  split at hp
  · rename_i q hq
    cases hp
    obtain ⟨lib', hlib, henforces⟩ := h.provider _ hq
    exact ⟨lib', List.mem_append_left _ hlib, henforces⟩
  · rw [h.same] at hp
    exact ⟨lib, by simp, (TlsProvider.create_client hp).2.2⟩

theorem step_inv (e : TlsPreconnectionEvent A) (h : s.Inv parameters libs) :
    (s.step e).Inv parameters (libs ++ libraries [e]) := by
  cases e with
  | addRemoteEndpoint remote => exact ⟨h.same, by simpa [step, libraries] using h.provider⟩
  | setTransportProperty key value => exact ⟨h.same, by simpa [step, libraries] using h.provider⟩
  | initiate net =>
      refine ⟨h.same, fun p hp => ?_⟩
      simp only [step, initiate] at hp
      split at hp
      · cases hget : s.getProvider net.lib with
        | error e => simp [hget, Except.toOption] at hp
        | ok q =>
            rw [hget] at hp
            cases hp
            exact getProvider_enforces h hget
      · cases hp

theorem run_inv {es : List (TlsPreconnectionEvent A)} (hrun : (system A parameters).Run s es s')
    (h : s.Inv parameters libs) : s'.Inv parameters (libs ++ libraries es) := by
  induction hrun generalizing libs with
  | refl => simpa [libraries] using h
  | @step s₁ s₂ s₃ e es hst _ ih =>
      obtain rfl := hst
      have hrest := ih (step_inv e h)
      rwa [List.append_assoc, libraries, libraries, ← List.filterMap_append, List.singleton_append] at hrest

theorem init_inv (h : (system A parameters).init s) : s.Inv parameters [] := by
  obtain ⟨remote, props, memory, rfl⟩ := h
  exact ⟨rfl, fun p hp => by cases hp⟩

/-- An address that a TCPConnection could be secured to, in the terms of the provider. -/
theorem canSecure_handshake (h : s.Inv parameters libs) {c : Candidate A}
    (hc : c ∈ s.plain.candidates (s.network net)) (hcan : s.plain.CanSecure (s.network net) c) :
    ∃ (i : Nat) (c' : TlsCandidate A) (p : TlsProvider) (session : TlsSession) (negotiated : List Byte),
      c' ∈ net.resolve i ∧ c.address = c'.address ∧
      (∃ lib ∈ libs ++ [net.lib], p.EnforcesClient lib s.parameters) ∧ session.context = p.context ∧
      session.verifyName = (if s.plain.identity = "" then none else some s.plain.identity) ∧
      session.sni = session.verifyName ∧ c'.peer session = .ok negotiated ∧
      (s.parameters.alpnProtocols ≠ [] → negotiated ∈ s.parameters.alpnProtocols) := by
  obtain ⟨i, -, hi⟩ := List.mem_flatMap.mp hc
  obtain ⟨c', hc', rfl⟩ := List.mem_map.mp hi
  obtain ⟨p, hp, hsecure⟩ := Result.bind_eq_ok.mp hcan.2.2
  obtain ⟨lib, hlib, henforces⟩ := getProvider_enforces h hp
  obtain ⟨session, negotiated, hsession, hpeer, halpn⟩ := TlsProvider.secureClient_ok.mp hsecure
  obtain ⟨hcontext, hname, hsni⟩ := TlsProvider.session_eq hsession
  rw [henforces.alpn, ← h.same] at halpn
  exact ⟨i, c', p, session, negotiated, hc', rfl, ⟨lib, hlib, h.same ▸ henforces⟩, hcontext, hname, hsni, hpeer,
    halpn⟩

end TlsPreconnection

end Taps
