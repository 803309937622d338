import Taps.Security.TlsProvider

/-!
# Lemmas on a provider

What each part of `TlsProvider::create()` makes of a context where it succeeds, and what errors it has.
-/

namespace Taps

namespace Result

variable {α β : Type}

theorem bind_eq_ok {x : Result α} {f : α → Result β} {b : β} :
    (x >>= f) = .ok b ↔ ∃ a, x = .ok a ∧ f a = .ok b := by
  cases x with
  | error e => exact ⟨nofun, fun ⟨a, h, _⟩ => nomatch h⟩
  | ok a => exact ⟨fun h => ⟨a, rfl, h⟩, fun ⟨_, rfl, h⟩ => h⟩

/-- Every error says that the configuration is invalid. -/
def Configures (x : Result α) : Prop :=
  ∀ e, x = .error e → e.event = .establishmentError ∧ e.reason = .invalidConfiguration

theorem Configures.ok (a : α) : Configures (.ok a) := nofun

theorem Configures.bind {x : Result α} {f : α → Result β} (hx : Configures x) (hf : ∀ a, Configures (f a)) :
    Configures (x >>= f) := by
  intro e h
  cases x with
  | error e' =>
      cases h
      exact hx _ rfl
  | ok a => exact hf a e h

end Result

namespace TlsProvider

open Lib (Prefixed.Fits Prefixed.encode Prefixed.decode)
open Result (bind_eq_ok Configures)

variable {lib : TlsLibrary} {c c' : TlsContext} {params : TlsParameters}

/-! ## The checks -/

@[simp] theorem failOn_eq_ok {ec : Option ErrorCode} {text : String} {u : Unit} :
    failOn ec text = .ok u ↔ ec = none := by
  cases ec <;> simp [failOn, fail]

@[simp] theorem failUnless_eq_ok {ok : Bool} {text : String} {u : Unit} :
    failUnless ok text = .ok u ↔ ok = true := by
  cases ok <;> simp [failUnless, fail]

theorem failOn_configures (ec : Option ErrorCode) (text : String) : Configures (failOn ec text) := by
  intro e h
  cases ec with
  | none => cases h
  | some ec =>
      cases h
      exact ⟨rfl, rfl⟩

theorem failUnless_configures (ok : Bool) (text : String) : Configures (failUnless ok text) := by
  intro e h
  cases ok with
  | true => cases h
  | false =>
      cases h
      exact ⟨rfl, rfl⟩

/-! ## The wire form of the ALPN ids -/

theorem alpnWireLoop_eq {wire : List Byte} {ids : List (List Byte)} (h : alpnWireLoop wire ids ≠ []) :
    alpnWireLoop wire ids = wire ++ Prefixed.encode ids ∧ ∀ id ∈ ids, Prefixed.Fits id := by
  induction ids generalizing wire with
  | nil => simp [alpnWireLoop]
  | cons id ids ih =>
      rw [alpnWireLoop] at h ⊢
      split at h
      · exact absurd rfl h
      · rename_i hid
        simp only [Bool.or_eq_true, List.isEmpty_iff, decide_eq_true_eq, not_or, not_lt] at hid
        obtain ⟨heq, hids⟩ := ih h
        rw [if_neg (by simpa using hid), heq]
        refine ⟨by simp, fun x hx => ?_⟩
        cases List.mem_cons.mp hx with
        | inl hx => exact hx ▸ hid
        | inr hx => exact hids x hx

theorem alpnWireLoop_ne {wire : List Byte} {ids : List (List Byte)} (h : ∀ id ∈ ids, Prefixed.Fits id)
    (hne : wire ≠ [] ∨ ids ≠ []) : alpnWireLoop wire ids ≠ [] := by
  induction ids generalizing wire with
  | nil => simpa [alpnWireLoop] using hne
  | cons id ids ih =>
      have hid : Prefixed.Fits id := h id (by simp)
      rw [alpnWireLoop, if_neg (by simpa [Prefixed.Fits] using hid)]
      exact ih (fun x hx => h x (by simp [hx])) (.inl (by simp))

/-- The wire form is not empty if and only if there is one; and it is read as the ids. -/
theorem alpnWire_ne_nil {ids : List (List Byte)} :
    alpnWire ids ≠ [] ↔ ids ≠ [] ∧ ∀ id ∈ ids, Prefixed.Fits id := by
  constructor
  · intro h
    refine ⟨fun hnil => h (by simp [hnil, alpnWire, alpnWireLoop]), (alpnWireLoop_eq h).2⟩
  · intro h
    exact alpnWireLoop_ne h.2 (.inr h.1)

theorem decode_alpnWire {ids : List (List Byte)} (h : alpnWire ids ≠ []) :
    Prefixed.decode (alpnWire ids) = some ids := by
  obtain ⟨heq, hids⟩ := alpnWireLoop_eq h
  rw [alpnWire, heq]
  exact Lib.Prefixed.decode_encode hids

/-! ## The parts of `create()` -/

theorem setMinVersion_eq (lib : TlsLibrary) (c : TlsContext) (v : TLSVersion) :
    setMinVersion lib c v =
      { c with minProtoVersion := if lib.setMinProtoVersion c v then some v else c.minProtoVersion } := by
  unfold setMinVersion
  split <;> rfl

theorem setMaxVersion_eq (lib : TlsLibrary) (c : TlsContext) (v : TLSVersion) :
    setMaxVersion lib c v =
      { c with maxProtoVersion := if lib.setMaxProtoVersion c v then some v else c.maxProtoVersion } := by
  unfold setMaxVersion
  split <;> rfl

theorem loadTrustAnchors_eq {paths : List String} (h : loadTrustAnchors lib c paths = .ok c') :
    c' = { c with verifyFiles := c.verifyFiles ++ paths } := by
  induction paths generalizing c with
  | nil =>
      cases h
      simp
  | cons path paths ih =>
      rw [loadTrustAnchors] at h
      obtain ⟨-, -, h⟩ := bind_eq_ok.mp h
      rw [ih h]
      simp

theorem setClient_eq (h : setClient lib c params = .ok c') : params.trustAnchors ≠ [] ∧
    c' = { c with verifyPeer := true, verifyFiles := c.verifyFiles ++ params.trustAnchors } := by
  unfold setClient at h
  obtain ⟨-, -, h⟩ := bind_eq_ok.mp h
  obtain ⟨_, hne, h⟩ := bind_eq_ok.mp h
  exact ⟨by simpa using hne, loadTrustAnchors_eq h⟩

theorem setServer_eq (h : setServer lib c params = .ok c') :
    (params.certificateChainFile ≠ "" ∧ params.privateKeyFile ≠ "") ∧
    c' = { c with certificateChain := some params.certificateChainFile, privateKey := some params.privateKeyFile } := by
  unfold setServer at h
  obtain ⟨_, hne, h⟩ := bind_eq_ok.mp h
  obtain ⟨-, -, h⟩ := bind_eq_ok.mp h
  obtain ⟨-, -, h⟩ := bind_eq_ok.mp h
  cases h
  exact ⟨by simpa using hne, rfl⟩

theorem setCiphersuites_eq {suites : List String} (h : setCiphersuites lib c suites = .ok c') :
    c' = { c with ciphersuites := if suites = [] then c.ciphersuites else some (join suites ':') } := by
  unfold setCiphersuites at h
  split at h
  · rename_i hs
    cases h
    rw [if_pos (List.isEmpty_iff.mp hs)]
  · rename_i hs
    obtain ⟨-, -, h⟩ := bind_eq_ok.mp h
    cases h
    rw [if_neg (mt List.isEmpty_iff.mpr hs)]

theorem setGroups_eq {groups : List String} (h : setGroups lib c groups = .ok c') :
    c' = { c with groups := if groups = [] then c.groups else some (join groups ':') } := by
  unfold setGroups at h
  split at h
  · rename_i hs
    cases h
    rw [if_pos (List.isEmpty_iff.mp hs)]
  · rename_i hs
    obtain ⟨-, -, h⟩ := bind_eq_ok.mp h
    cases h
    rw [if_neg (mt List.isEmpty_iff.mpr hs)]

theorem setAlpn_client {ids : List (List Byte)} (h : setAlpn lib c .client ids = .ok c') :
    (∀ id ∈ ids, Prefixed.Fits id) ∧
      c' = { c with alpnProtos := if ids = [] then c.alpnProtos else alpnWire ids } := by
  unfold setAlpn at h
  split at h
  · rename_i hs
    cases h
    rw [List.isEmpty_iff] at hs
    simp [hs]
  · rename_i hs
    obtain ⟨_, hw, h⟩ := bind_eq_ok.mp h
    obtain ⟨-, -, h⟩ := bind_eq_ok.mp h
    cases h
    rw [if_neg (mt List.isEmpty_iff.mpr hs)]
    exact ⟨(alpnWire_ne_nil.mp (by simpa using hw)).2, rfl⟩

theorem setAlpn_server {ids : List (List Byte)} (h : setAlpn lib c .server ids = .ok c') :
    (∀ id ∈ ids, Prefixed.Fits id) ∧
      c' = { c with alpnSelect := if ids = [] then c.alpnSelect else some (alpnWire ids) } := by
  unfold setAlpn at h
  split at h
  · rename_i hs
    cases h
    rw [List.isEmpty_iff] at hs
    simp [hs]
  · rename_i hs
    obtain ⟨_, hw, h⟩ := bind_eq_ok.mp h
    cases h
    rw [if_neg (mt List.isEmpty_iff.mpr hs)]
    exact ⟨(alpnWire_ne_nil.mp (by simpa using hw)).2, rfl⟩

/-! ## Whole providers -/

theorem decode_wire {ids : List (List Byte)} (h : ∀ id ∈ ids, Prefixed.Fits id) :
    Prefixed.decode (if ids = [] then [] else alpnWire ids) = some ids := by
  split
  · rename_i hnil
    simp [hnil, Prefixed.decode]
  · rename_i hne
    exact decode_alpnWire (alpnWire_ne_nil.mpr ⟨hne, h⟩)

theorem create_client {p : TlsProvider} (h : create lib params .client = .ok p) :
    params.Complete .client ∧ p.role = .client ∧ p.EnforcesClient lib params := by
  unfold create at h
  obtain ⟨-, -, h⟩ := bind_eq_ok.mp h
  obtain ⟨c₁, hclient, h⟩ := bind_eq_ok.mp h
  obtain ⟨c₂, hsuites, h⟩ := bind_eq_ok.mp h
  obtain ⟨c₃, hgroups, h⟩ := bind_eq_ok.mp h
  obtain ⟨c₄, halpn, h⟩ := bind_eq_ok.mp h
  cases h
  rw [setMinVersion_eq, setMaxVersion_eq, setRole] at hclient
  obtain ⟨hne, rfl⟩ := setClient_eq hclient
  obtain rfl := setCiphersuites_eq hsuites
  obtain rfl := setGroups_eq hgroups
  obtain ⟨hids, rfl⟩ := setAlpn_client halpn
  exact ⟨⟨fun _ => hne, nofun, hids⟩, rfl, ⟨rfl, rfl, rfl, rfl, rfl⟩, rfl, rfl, hne, decode_wire hids⟩

theorem create_server {p : TlsProvider} (h : create lib params .server = .ok p) :
    params.Complete .server ∧ p.role = .server ∧ p.EnforcesServer lib params := by
  unfold create at h
  obtain ⟨-, -, h⟩ := bind_eq_ok.mp h
  obtain ⟨c₁, hserver, h⟩ := bind_eq_ok.mp h
  obtain ⟨c₂, hsuites, h⟩ := bind_eq_ok.mp h
  obtain ⟨c₃, hgroups, h⟩ := bind_eq_ok.mp h
  obtain ⟨c₄, halpn, h⟩ := bind_eq_ok.mp h
  cases h
  rw [setMinVersion_eq, setMaxVersion_eq, setRole] at hserver
  obtain ⟨hne, rfl⟩ := setServer_eq hserver
  obtain rfl := setCiphersuites_eq hsuites
  obtain rfl := setGroups_eq hgroups
  obtain ⟨hids, rfl⟩ := setAlpn_server halpn
  refine ⟨⟨nofun, fun _ => hne, hids⟩, rfl, ⟨rfl, rfl, rfl, rfl, rfl⟩, rfl, rfl, fun hnil => ?_, fun hnil => ?_⟩
  · exact ⟨_, if_neg hnil, decode_alpnWire (alpnWire_ne_nil.mpr ⟨hnil, hids⟩)⟩
  · exact if_pos hnil

/-! ## Failures -/

theorem loadTrustAnchors_configures (c : TlsContext) (paths : List String) :
    Configures (loadTrustAnchors lib c paths) := by
  induction paths generalizing c with
  | nil => exact .ok _
  | cons path paths ih => exact (failOn_configures _ _).bind fun _ => ih _

theorem setClient_configures (c : TlsContext) (params : TlsParameters) : Configures (setClient lib c params) :=
  (failOn_configures _ _).bind fun _ => (failUnless_configures _ _).bind fun _ => loadTrustAnchors_configures _ _

theorem setServer_configures (c : TlsContext) (params : TlsParameters) : Configures (setServer lib c params) :=
  (failUnless_configures _ _).bind fun _ => (failOn_configures _ _).bind fun _ =>
    (failOn_configures _ _).bind fun _ => .ok _

theorem setCiphersuites_configures (c : TlsContext) (suites : List String) :
    Configures (setCiphersuites lib c suites) := by
  unfold setCiphersuites
  split
  · exact .ok _
  · exact (failUnless_configures _ _).bind fun _ => .ok _

theorem setGroups_configures (c : TlsContext) (groups : List String) : Configures (setGroups lib c groups) := by
  unfold setGroups
  split
  · exact .ok _
  · exact (failUnless_configures _ _).bind fun _ => .ok _

theorem setAlpn_configures (c : TlsContext) (role : TlsRole) (ids : List (List Byte)) :
    Configures (setAlpn lib c role ids) := by
  unfold setAlpn
  split
  · exact .ok _
  · refine (failUnless_configures _ _).bind fun _ => ?_
    cases role with
    | client => exact (failUnless_configures _ _).bind fun _ => .ok _
    | server => exact .ok _

theorem setRole_configures (c : TlsContext) (params : TlsParameters) (role : TlsRole) :
    Configures (setRole lib c params role) := by
  cases role with
  | client => exact setClient_configures _ _
  | server => exact setServer_configures _ _

theorem create_configures (params : TlsParameters) (role : TlsRole) : Configures (create lib params role) :=
  (failUnless_configures _ _).bind fun _ => (setRole_configures _ _ _).bind fun _ =>
    (setCiphersuites_configures _ _).bind fun _ => (setGroups_configures _ _).bind fun _ =>
      (setAlpn_configures _ _ _).bind fun _ => .ok _

/-! ## Success -/

theorem loadTrustAnchors_ok (hlib : lib.RefusesNone) (c : TlsContext) (paths : List String) :
    ∃ c', loadTrustAnchors lib c paths = .ok c' := by
  induction paths generalizing c with
  | nil => exact ⟨c, rfl⟩
  | cons path paths ih =>
      obtain ⟨c', h⟩ := ih { c with verifyFiles := c.verifyFiles ++ [path] }
      exact ⟨c', bind_eq_ok.mpr ⟨(), by simp [hlib.loadVerifyFile], h⟩⟩

theorem setRole_ok (hlib : lib.RefusesNone) (c : TlsContext) {role : TlsRole} (h : params.Complete role) :
    ∃ c', setRole lib c params role = .ok c' := by
  cases role with
  | client =>
      obtain ⟨c', hload⟩ := loadTrustAnchors_ok hlib { c with verifyPeer := true } params.trustAnchors
      exact ⟨c', bind_eq_ok.mpr ⟨(), by simp [hlib.setVerifyMode],
        bind_eq_ok.mpr ⟨(), by simpa using h.anchors rfl, hload⟩⟩⟩
  | server =>
      exact ⟨_, bind_eq_ok.mpr ⟨(), by simpa using h.certificate rfl, bind_eq_ok.mpr ⟨(),
        by simp [hlib.useCertificateChainFile], bind_eq_ok.mpr ⟨(), by simp [hlib.usePrivateKeyFile], rfl⟩⟩⟩⟩

theorem setCiphersuites_ok (hlib : lib.RefusesNone) (c : TlsContext) (suites : List String) :
    ∃ c', setCiphersuites lib c suites = .ok c' := by
  unfold setCiphersuites
  split
  · exact ⟨c, rfl⟩
  · exact ⟨_, bind_eq_ok.mpr ⟨(), by simp [hlib.setCiphersuites], rfl⟩⟩

theorem setGroups_ok (hlib : lib.RefusesNone) (c : TlsContext) (groups : List String) :
    ∃ c', setGroups lib c groups = .ok c' := by
  unfold setGroups
  split
  · exact ⟨c, rfl⟩
  · exact ⟨_, bind_eq_ok.mpr ⟨(), by simp [hlib.setGroupsList], rfl⟩⟩

theorem setAlpn_ok (hlib : lib.RefusesNone) (c : TlsContext) (role : TlsRole) {ids : List (List Byte)}
    (h : ∀ id ∈ ids, Prefixed.Fits id) : ∃ c', setAlpn lib c role ids = .ok c' := by
  unfold setAlpn
  split
  · exact ⟨c, rfl⟩
  · rename_i hne
    have hw : alpnWire ids ≠ [] := alpnWire_ne_nil.mpr ⟨mt List.isEmpty_iff.mpr hne, h⟩
    cases role with
    | client => exact ⟨_, bind_eq_ok.mpr ⟨(), by simpa using hw, bind_eq_ok.mpr ⟨(), by simp [hlib.setAlpnProtos], rfl⟩⟩⟩
    | server => exact ⟨_, bind_eq_ok.mpr ⟨(), by simpa using hw, rfl⟩⟩

theorem create_ok (hlib : lib.RefusesNone) {role : TlsRole} (h : params.Complete role) :
    ∃ p, create lib params role = .ok p := by
  obtain ⟨c₁, h₁⟩ := setRole_ok hlib (setMaxVersion lib (setMinVersion lib (.create role) params.minTlsVersion)
    params.maxTlsVersion) h
  obtain ⟨c₂, h₂⟩ := setCiphersuites_ok hlib c₁ params.ciphersuites
  obtain ⟨c₃, h₃⟩ := setGroups_ok hlib c₂ params.supportedGroups
  obtain ⟨c₄, h₄⟩ := setAlpn_ok hlib c₃ role h.ids
  exact ⟨_, bind_eq_ok.mpr ⟨(), by simp [hlib.ctxNew], bind_eq_ok.mpr ⟨c₁, h₁, bind_eq_ok.mpr ⟨c₂, h₂,
    bind_eq_ok.mpr ⟨c₃, h₃, bind_eq_ok.mpr ⟨c₄, h₄, rfl⟩⟩⟩⟩⟩⟩

end TlsProvider

end Taps
