import Taps.Security.Lemmas.Initiate

/-!
# Results on TLS

A provider has everything that the Security Parameters ask for, or there is none; a client and a server agree on
the ALPN id; and every TCPConnection that a Preconnection returns was secured with its parameters.
-/

namespace Taps

/-- Libraries that refuse nothing. -/
def lenientTls : TlsLibrary where
  ctxNew _ := true
  setMinProtoVersion _ _ := true
  setMaxProtoVersion _ _ := true
  setVerifyMode _ := none
  loadVerifyFile _ _ := none
  useCertificateChainFile _ _ := none
  usePrivateKeyFile _ _ := none
  setCiphersuites _ _ := true
  setGroupsList _ _ := true
  setAlpnProtos _ _ := true
  setTlsextHostName _ := true
  setVerifyCallback _ := none
  selectNextProto pref offered :=
    (Lib.Prefixed.decode pref).bind fun prefs =>
      (Lib.Prefixed.decode offered).bind fun ids => prefs.find? fun id => ids.contains id

theorem lenientTls_refusesNone : lenientTls.RefusesNone where
  ctxNew _ := rfl
  setVerifyMode _ := rfl
  loadVerifyFile _ _ := rfl
  useCertificateChainFile _ _ := rfl
  usePrivateKeyFile _ _ := rfl
  setCiphersuites _ _ := rfl
  setGroupsList _ _ := rfl
  setAlpnProtos _ _ := rfl

/-- The handshake of two peers that fails for ALPN only. -/
def lenientHandshake (s : TlsSession) (c : TlsContext) : TlsHandshake :=
  match c.alpnSelect with
  | none => { client := none, server := none, selected := [] }
  | some pref =>
      if s.context.alpnProtos = [] then { client := none, server := none, selected := [] }
      else
        match lenientTls.alpnSelectCb pref s.context.alpnProtos with
        | some id => { client := none, server := none, selected := id }
        | none => { client := some (.other 1120), server := some (.other 235), selected := [] }

theorem lenientHandshake_negotiates : lenientTls.Negotiates lenientHandshake where
  select hprefs hids _ _ := by simp [lenientTls, hprefs, hids]
  unasked s c h := by
    unfold lenientHandshake
    rcases h with h | h
    · cases c.alpnSelect <;> simp [h]
    · rw [h]
  selected s c pref id hne hpref hid _ := by simp [lenientHandshake, hpref, hne, hid]
  alert s c pref hne hpref hnone := by simp [lenientHandshake, hpref, hne, hnone]

/-- Parameters of a client that prefers h3 to h2, and of a server that prefers h2 to h3. -/
def clientParameters : TlsParameters :=
  ((TlsParameters.create.requireTls.addTrustAnchor "ca.pem").addAlpn [104, 51]).addAlpn [104, 50]

def serverParameters : TlsParameters :=
  ((TlsParameters.create.requireTls.setCertificate "chain.pem" "key.pem").addAlpn [104, 50]).addAlpn [104, 51]

/-- Their providers. -/
def clientProvider : TlsProvider where
  context :=
    { TlsContext.create .client with
      minProtoVersion := some .tls12, maxProtoVersion := some .tls13, verifyPeer := true, verifyFiles := ["ca.pem"]
      alpnProtos := [2, 104, 51, 2, 104, 50] }
  role := .client
  requiredAlpn := [[104, 51], [104, 50]]

def serverProvider : TlsProvider where
  context :=
    { TlsContext.create .server with
      minProtoVersion := some .tls12, maxProtoVersion := some .tls13, certificateChain := some "chain.pem"
      privateKey := some "key.pem", alpnSelect := some [2, 104, 50, 2, 104, 51] }
  role := .server
  requiredAlpn := [[104, 50], [104, 51]]

/-! ## The provider -/

/-- A provider that `create()` returns enforces the parameters; every error says that the configuration is invalid;
and where the libraries refuse nothing, there is a provider if and only if the parameters are complete. -/
theorem TlsProvider.create_enforces (lib : TlsLibrary) (params : TlsParameters) (role : TlsRole) :
    (∀ p, create lib params role = .ok p → params.Complete role ∧ p.role = role ∧
      match role with
      | .client => p.EnforcesClient lib params
      | .server => p.EnforcesServer lib params) ∧
    (∀ e, create lib params role = .error e →
      e.event = .establishmentError ∧ e.reason = .invalidConfiguration) ∧
    (lib.RefusesNone → ((∃ p, create lib params role = .ok p) ↔ params.Complete role)) := by
  have hok : ∀ p, create lib params role = .ok p → params.Complete role ∧ p.role = role ∧
      match role with
      | .client => p.EnforcesClient lib params
      | .server => p.EnforcesServer lib params := by
    intro p h
    cases role with
    | client => exact create_client h
    | server => exact create_server h
  exact ⟨hok, create_configures params role,
    fun hlib => ⟨fun ⟨p, h⟩ => (hok p h).1, fun hcomplete => create_ok hlib hcomplete⟩⟩

theorem TlsProvider.create_enforces_client : ∃ p, create lenientTls clientParameters .client = .ok p :=
  ((create_enforces lenientTls clientParameters .client).2.2 lenientTls_refusesNone).mpr
    ⟨by decide, nofun, by decide⟩

/-! ## ALPN -/

/-- Once the client has started its handshake: if the client and the server agree on an id, the client's `secure()`
succeeds if and only if the handshake does, and it selects that id. Else the client's `secure()` fails; and so does
that of the server, if it has ids. -/
theorem TlsProvider.alpn_agreement {lib : TlsLibrary} {connect : TlsSession → TlsContext → TlsHandshake}
    (hlib : lib.Negotiates connect) {cp sp : TlsParameters} {pc ps : TlsProvider}
    (hc : create lib cp .client = .ok pc) (hs : create lib sp .server = .ok ps) {name : String}
    {session : TlsSession} (hsession : pc.session lib name = .ok session) :
    (∀ id, alpnAgreement cp.alpnProtocols sp.alpnProtocols = some id →
      (pc.secureClient lib (fun s => (connect s ps.context).outcome) name = .ok () ↔
        (connect session ps.context).client = none) ∧
      ((connect session ps.context).client = none → (connect session ps.context).selected = id)) ∧
    (alpnAgreement cp.alpnProtocols sp.alpnProtocols = none →
      (∃ e, pc.secureClient lib (fun s => (connect s ps.context).outcome) name = .error e ∧
        e.event = .establishmentError ∧ e.reason = .establishmentFailed) ∧
      (sp.alpnProtocols ≠ [] → secureServer (connect session ps.context).server ≠ .ok ())) := by
  obtain ⟨hids, -, hclient⟩ := create_client hc
  obtain ⟨-, -, hserver⟩ := create_server hs
  obtain ⟨hcontext, -⟩ := session_eq hsession
  have hoffers := hclient.offers
  rw [← hcontext] at hoffers
  refine ⟨fun id hid => ⟨?_, selected_of_agreement hlib hoffers hserver hid⟩, fun hnone => ?_⟩
  · rw [secureClient_ok]
    constructor
    · rintro ⟨session', negotiated, hsession', hpeer, -⟩
      obtain rfl : session = session' := Except.ok.inj (hsession.symm.trans hsession')
      exact (outcome_eq_ok.mp hpeer).1
    · intro hok
      have hselected := selected_of_agreement hlib hoffers hserver hid hok
      refine ⟨session, id, hsession, outcome_eq_ok.mpr ⟨hok, hselected⟩, ?_⟩
      rw [hclient.alpn]
      exact mem_of_agreement hid
  · obtain ⟨hne, hselected, halert⟩ := refused_of_disagreement hlib hoffers hserver hnone
    refine ⟨?_, fun hsome => mt secureServer_ok.mp (halert hsome)⟩
    cases hsecure : pc.secureClient lib (fun s => (connect s ps.context).outcome) name with
    | error e => exact ⟨e, rfl, secureClient_error hsession hsecure⟩
    | ok =>
        obtain ⟨session', negotiated, hsession', hpeer, hmem⟩ := secureClient_ok.mp hsecure
        obtain rfl : session = session' := Except.ok.inj (hsession.symm.trans hsession')
        obtain ⟨hok, rfl⟩ := outcome_eq_ok.mp hpeer
        -- What was selected is no id, but a provider that requires some was made with ids only.
        rw [hclient.alpn] at hmem
        exact absurd (hselected hok) (hids.ids _ (hmem hne)).1

/-- The id is the one that the server prefers. -/
theorem TlsProvider.alpn_agreement_h2 : ∃ session, clientProvider.session lenientTls "a.example" = .ok session ∧
    clientProvider.secureClient lenientTls (fun s => (lenientHandshake s serverProvider.context).outcome)
      "a.example" = .ok () ∧
    (lenientHandshake session serverProvider.context).selected = [104, 50] := by
  refine ⟨⟨clientProvider.context, some "a.example", some "a.example"⟩, rfl, ?_⟩
  have hclient : create lenientTls clientParameters .client = .ok clientProvider := rfl
  have hserver : create lenientTls serverParameters .server = .ok serverProvider := rfl
  have hsession : clientProvider.session lenientTls "a.example"
      = .ok ⟨clientProvider.context, some "a.example", some "a.example"⟩ := rfl
  have h := (alpn_agreement lenientHandshake_negotiates hclient hserver hsession).1 [104, 50] (by decide)
  have hok : (lenientHandshake ⟨clientProvider.context, some "a.example", some "a.example"⟩
      serverProvider.context).client = none := by
    simp [lenientHandshake, TlsLibrary.alpnSelectCb, lenientTls, Lib.Prefixed.decode, clientProvider, serverProvider]
  exact ⟨h.1.mpr hok, h.2 hok⟩

/-! ## A whole Preconnection -/

/-- After any calls, an `initiate()` with security returns a TCPConnection that was secured with a provider that
enforces the parameters, with the library of one of the calls, for the identity of the Preconnection; and it aborts
every other TCPConnection. -/
theorem TlsPreconnection.initiate_secures {A : Type} {parameters : TlsParameters} {s₀ s : TlsPreconnection}
    {es : List (TlsPreconnectionEvent A)} (h₀ : (system A parameters).init s₀)
    (hrun : (system A parameters).Run s₀ es s) (he : parameters.isEnabled = true) (net : TlsNetwork A) :
    s.parameters = parameters ∧
    (∀ conn, (s.initiate net).2.2 = .ok conn → ∃ n t, conn = .tcp n ∧
      (s.initiate net).2.1.connections[n]? = some t ∧ s.Secures (libraries es ++ [net.lib]) net t) ∧
    ∀ (n : Nat) (t : TCPAttempt A), (s.initiate net).2.1.connections[n]? = some t →
      (s.initiate net).2.2 ≠ .ok (.tcp n) → t.Aborted := by
  have hinv := run_inv hrun (init_inv h₀)
  rw [List.nil_append] at hinv
  have henabled : s.plain.securityParameters.isEnabled = true := by
    rw [plain, hinv.same]
    exact he
  have hkeeps := s.plain.initiate_keepsSecurity (s.network net) henabled
  refine ⟨hinv.same, fun conn hconn => ?_, fun n t hn hne => ?_⟩
  · obtain ⟨n, t, rfl, hn, hsecured, hestablished⟩ := hkeeps.returned conn hconn
    obtain ⟨c, hc, haddress, ⟨hcan, -⟩ | ⟨-, hne, -⟩⟩ := hkeeps.failed n t hn
    · refine ⟨n, t, rfl, hn, hestablished, hsecured, ?_⟩
      rw [haddress]
      obtain ⟨i, c', p, session, negotiated, hc', haddress', hhandshake⟩ :=
        canSecure_handshake hinv (List.mem_of_getElem? hc) hcan
      exact ⟨i, c', p, session, negotiated, hc', congrArg some haddress', hhandshake⟩
    · exact absurd hconn hne
  · obtain ⟨c, -, -, ⟨-, hr⟩ | ⟨-, -, haborted⟩⟩ := hkeeps.failed n t hn
    · exact absurd hr hne
    · exact haborted

/-- The second call to a host that selects h2. -/
theorem TlsPreconnection.initiate_secures_twice :
    let net : TlsNetwork Nat :=
      { lib := lenientTls, opened := none
        resolve := fun _ => [{ address := 7, connected := none, closed := none, peer := fun _ => .ok [104, 50] }] }
    let s := (create ⟨"a.example", 443⟩ (TransportProperties.create.set .reliability .require) clientParameters
      { blockSize := 4096, maxLiveBlocks := 0, blockSize_lt := by decide }).step (.initiate net)
    s.provider = some clientProvider ∧
      ∃ t, (s.initiate net).2.1.connections[0]? = some t ∧ s.Secures [lenientTls, lenientTls] net t := by
  intro net s
  refine ⟨rfl, ?_⟩
  have hrun : (system Nat clientParameters).Run _ [.initiate net] s := .step rfl .refl
  obtain ⟨n, t, hn, ht, hsecures⟩ := (initiate_secures ⟨_, _, _, rfl⟩ hrun rfl net).2.1 (.tcp 0) rfl
  cases hn
  exact ⟨t, ht, hsecures⟩

end Taps
