import Taps.Buffer.Block
import Taps.Error
import Taps.Lib.Prefixed
import Taps.Preconnection.Parameters

/-!
# `TlsProvider` and the handshakes of a `TlsStream`

What OpenSSL and asio's layer over it do is given in advance: which of their calls succeed, and how each
handshake ends. An `SSL_CTX` is what it has been given by the calls that have succeeded.
-/

namespace Taps

/-! ## Parameters -/

inductive TLSVersion
  | tls12
  | tls13
  deriving DecidableEq, Repr

inductive TlsRole
  | client
  | server
  deriving DecidableEq, Repr

/-- The Security Parameters with those that only `TlsProvider::create()` reads. An ALPN id is its bytes. -/
structure TlsParameters extends SecurityParameters where
  minTlsVersion : TLSVersion
  maxTlsVersion : TLSVersion
  trustAnchors : List String
  alpnProtocols : List (List Byte)
  ciphersuites : List String
  supportedGroups : List String
  certificateChainFile : String
  privateKeyFile : String

namespace TlsParameters

def create : TlsParameters :=
  { SecurityParameters.create with
    minTlsVersion := .tls12, maxTlsVersion := .tls13, trustAnchors := [], alpnProtocols := [], ciphersuites := []
    supportedGroups := [], certificateChainFile := "", privateKeyFile := "" }

def requireTls (s : TlsParameters) : TlsParameters :=
  { s with toSecurityParameters := s.toSecurityParameters.requireTls }

def addTrustAnchor (s : TlsParameters) (path : String) : TlsParameters :=
  { s with trustAnchors := s.trustAnchors ++ [path] }

def addAlpn (s : TlsParameters) (id : List Byte) : TlsParameters :=
  { s with alpnProtocols := s.alpnProtocols ++ [id] }

def setCertificate (s : TlsParameters) (chain key : String) : TlsParameters :=
  { s with certificateChainFile := chain, privateKeyFile := key }

end TlsParameters

/-! ## OpenSSL -/

/-- `alpnProtos` is the list that a client offers, and `alpnSelect` the list that the callback of a server selects
from, each in wire form. A version bound that was not set is OpenSSL's own. -/
structure TlsContext where
  role : TlsRole
  minProtoVersion : Option TLSVersion
  maxProtoVersion : Option TLSVersion
  verifyPeer : Bool
  verifyFiles : List String
  certificateChain : Option String
  privateKey : Option String
  ciphersuites : Option String
  groups : Option String
  alpnProtos : List Byte
  alpnSelect : Option (List Byte)
  deriving DecidableEq, Repr

/-- `SSL_CTX_new()`. -/
def TlsContext.create (role : TlsRole) : TlsContext :=
  { role, minProtoVersion := none, maxProtoVersion := none, verifyPeer := false, verifyFiles := []
    certificateChain := none, privateKey := none, ciphersuites := none, groups := none, alpnProtos := []
    alpnSelect := none }

/-- The calls of the libraries: each says whether it succeeds, or the error that it sets. -/
structure TlsLibrary where
  ctxNew : TlsRole → Bool
  setMinProtoVersion : TlsContext → TLSVersion → Bool
  setMaxProtoVersion : TlsContext → TLSVersion → Bool
  setVerifyMode : TlsContext → Option ErrorCode
  loadVerifyFile : TlsContext → String → Option ErrorCode
  useCertificateChainFile : TlsContext → String → Option ErrorCode
  usePrivateKeyFile : TlsContext → String → Option ErrorCode
  setCiphersuites : TlsContext → String → Bool
  setGroupsList : TlsContext → String → Bool
  setAlpnProtos : TlsContext → List Byte → Bool
  setTlsextHostName : String → Bool
  setVerifyCallback : String → Option ErrorCode
  /-- `SSL_select_next_proto(out, outlen, server, client)`, with `none` for `OPENSSL_NPN_NO_OVERLAP`. -/
  selectNextProto : List Byte → List Byte → Option (List Byte)

/-- `alpn_select_cb()` of a server that prefers `pref`: the id that it selects, or `none` for a fatal alert. -/
def TlsLibrary.alpnSelectCb (lib : TlsLibrary) (pref offered : List Byte) : Option (List Byte) :=
  lib.selectNextProto pref offered

/-! ## `TlsProvider::create()` -/

structure TlsProvider where
  context : TlsContext
  role : TlsRole
  requiredAlpn : List (List Byte)
  deriving DecidableEq, Repr

namespace TlsProvider

def join (parts : List String) (sep : Char) : String :=
  parts.foldl (fun out p => (if out.isEmpty then out else out.push sep) ++ p) ""

/-- The loop of `alpn_wire()`. -/
def alpnWireLoop (wire : List Byte) : List (List Byte) → List Byte
  | [] => wire
  | id :: ids =>
      if id.isEmpty || 255 < id.length then []
      else alpnWireLoop (wire ++ UInt8.ofNat id.length :: id) ids

/-- It is empty if any id is invalid. -/
def alpnWire (ids : List (List Byte)) : List Byte := alpnWireLoop [] ids

variable (lib : TlsLibrary)

def fail {α : Type} (message : ErrorText) : Result α := .error ⟨.establishmentError, .invalidConfiguration, message⟩

/-- `if (ec) return fail(text + ec.message())`. -/
def failOn (ec : Option ErrorCode) (text : String) : Result Unit :=
  match ec with
  | some ec => fail (.textCode text ec)
  | none => .ok ()

/-- `if (!ok) return fail(text)`. -/
def failUnless (ok : Bool) (text : String) : Result Unit := if ok then .ok () else fail (.text text)

/-- The results of this call and of the next one are not looked at. -/
def setMinVersion (c : TlsContext) (v : TLSVersion) : TlsContext :=
  if lib.setMinProtoVersion c v then { c with minProtoVersion := some v } else c

def setMaxVersion (c : TlsContext) (v : TLSVersion) : TlsContext :=
  if lib.setMaxProtoVersion c v then { c with maxProtoVersion := some v } else c

def loadTrustAnchors (c : TlsContext) : List String → Result TlsContext
  | [] => .ok c
  | path :: rest => do
      failOn (lib.loadVerifyFile c path) ("cannot load trust anchor '" ++ path ++ "': ")
      loadTrustAnchors { c with verifyFiles := c.verifyFiles ++ [path] } rest

def setClient (c : TlsContext) (params : TlsParameters) : Result TlsContext := do
  failOn (lib.setVerifyMode c) "set_verify_mode: "
  failUnless (!params.trustAnchors.isEmpty)
    "no trust anchor set (add_trust_anchor is required with verify_peer)"
  loadTrustAnchors lib { c with verifyPeer := true } params.trustAnchors

def setServer (c : TlsContext) (params : TlsParameters) : Result TlsContext := do
  failUnless (!(params.certificateChainFile.isEmpty || params.privateKeyFile.isEmpty))
    "server TLS needs set_certificate_chain_file and set_private_key_file"
  failOn (lib.useCertificateChainFile c params.certificateChainFile)
    ("cannot load certificate chain '" ++ params.certificateChainFile ++ "': ")
  let c := { c with certificateChain := some params.certificateChainFile }
  failOn (lib.usePrivateKeyFile c params.privateKeyFile)
    ("cannot load private key '" ++ params.privateKeyFile ++ "': ")
  return { c with privateKey := some params.privateKeyFile }

/-- The part of the role. -/
def setRole (c : TlsContext) (params : TlsParameters) : TlsRole → Result TlsContext
  | .client => setClient lib c params
  | .server => setServer lib c params

def setCiphersuites (c : TlsContext) (suites : List String) : Result TlsContext :=
  if suites.isEmpty then .ok c
  else do
    failUnless (lib.setCiphersuites c (join suites ':')) ("unknown TLS 1.3 cipher suite in '" ++ join suites ':' ++ "'")
    return { c with ciphersuites := some (join suites ':') }

def setGroups (c : TlsContext) (groups : List String) : Result TlsContext :=
  if groups.isEmpty then .ok c
  else do
    failUnless (lib.setGroupsList c (join groups ':')) ("unknown supported group in '" ++ join groups ':' ++ "'")
    return { c with groups := some (join groups ':') }

/-- The part about ALPN, with the callback that is set once the provider is there. -/
def setAlpn (c : TlsContext) (role : TlsRole) (ids : List (List Byte)) : Result TlsContext :=
  if ids.isEmpty then .ok c
  else do
    failUnless (!(alpnWire ids).isEmpty) "invalid ALPN id"
    match role with
    | .client =>
        failUnless (lib.setAlpnProtos c (alpnWire ids)) "failed to set ALPN list"
        return { c with alpnProtos := alpnWire ids }
    | .server => return { c with alpnSelect := some (alpnWire ids) }

def create (params : TlsParameters) (role : TlsRole) : Result TlsProvider := do
  failUnless (lib.ctxNew role) "SSL_CTX_new failed"
  let c := setMaxVersion lib (setMinVersion lib (.create role) params.minTlsVersion) params.maxTlsVersion
  let c ← setRole lib c params role
  let c ← setCiphersuites lib c params.ciphersuites
  let c ← setGroups lib c params.supportedGroups
  let c ← setAlpn lib c role params.alpnProtocols
  return { context := c, role, requiredAlpn := params.alpnProtocols }

end TlsProvider

/-! ## Handshakes -/

/-- What a client starts its handshake with. -/
structure TlsSession where
  context : TlsContext
  sni : Option String
  verifyName : Option String
  deriving DecidableEq, Repr

/-- The characters of a `std::string` with these bytes. -/
def textOf (bytes : List Byte) : String := String.ofList (bytes.map fun b => Char.ofNat b.toNat)

namespace TlsProvider

/-- Up to the handshake in `TlsStream::handshake_client()`. -/
def session (lib : TlsLibrary) (p : TlsProvider) (serverName : String) : Result TlsSession :=
  if serverName.isEmpty then .ok { context := p.context, sni := none, verifyName := none }
  else if lib.setTlsextHostName serverName = false then
    .error ⟨.establishmentError, .internalError, .text "failed to set TLS SNI host name"⟩
  else
    match lib.setVerifyCallback serverName with
    | some ec => .error ⟨.establishmentError, .internalError, .textCode "set_verify_callback: " ec⟩
    | none => .ok { context := p.context, sni := some serverName, verifyName := some serverName }

def handshakeFailed (ec : ErrorCode) : TAPSError :=
  ⟨.establishmentError, .establishmentFailed, .textCode "TLS handshake failed: " ec⟩

def alpnMismatch (negotiated : List Byte) : TAPSError :=
  ⟨.establishmentError, .establishmentFailed,
    .text ("ALPN mismatch: server selected '" ++ textOf negotiated ++ "'")⟩

/-- `secure()` of a client, where the handshake ends as `peer` says of its start: with an error, or with the ALPN
id that was selected, which is empty if none was. -/
def secureClient (lib : TlsLibrary) (p : TlsProvider) (peer : TlsSession → Except ErrorCode (List Byte))
    (serverName : String) : Result Unit := do
  let session ← p.session lib serverName
  match peer session with
  | .error ec => .error (handshakeFailed ec)
  | .ok negotiated =>
      if p.requiredAlpn.isEmpty || p.requiredAlpn.any (· == negotiated) then .ok ()
      else .error (alpnMismatch negotiated)

/-- `secure()` of a server. -/
def secureServer (handshake : Option ErrorCode) : Result Unit :=
  match handshake with
  | some ec => .error (handshakeFailed ec)
  | none => .ok ()

/-! ## What the results say of a provider -/

end TlsProvider

/-- No call fails. -/
structure TlsLibrary.RefusesNone (lib : TlsLibrary) : Prop where
  ctxNew : ∀ role, lib.ctxNew role = true
  setVerifyMode : ∀ c, lib.setVerifyMode c = none
  loadVerifyFile : ∀ c path, lib.loadVerifyFile c path = none
  useCertificateChainFile : ∀ c path, lib.useCertificateChainFile c path = none
  usePrivateKeyFile : ∀ c path, lib.usePrivateKeyFile c path = none
  setCiphersuites : ∀ c suites, lib.setCiphersuites c suites = true
  setGroupsList : ∀ c groups, lib.setGroupsList c groups = true
  setAlpnProtos : ∀ c wire, lib.setAlpnProtos c wire = true

/-- The parameters have what a provider with this role needs, and every ALPN id has a wire form. -/
structure TlsParameters.Complete (params : TlsParameters) (role : TlsRole) : Prop where
  anchors : role = .client → params.trustAnchors ≠ []
  certificate : role = .server → params.certificateChainFile ≠ "" ∧ params.privateKeyFile ≠ ""
  ids : ∀ id ∈ params.alpnProtocols, Lib.Prefixed.Fits id

namespace TlsProvider

/-- The context has everything that the parameters ask for. Each version bound is set if the library takes it, and
a refused one leaves that of OpenSSL. -/
structure Enforces (p : TlsProvider) (lib : TlsLibrary) (params : TlsParameters) : Prop where
  minVersion : p.context.minProtoVersion =
    if lib.setMinProtoVersion (.create p.role) params.minTlsVersion then some params.minTlsVersion else none
  maxVersion : p.context.maxProtoVersion =
    if lib.setMaxProtoVersion { TlsContext.create p.role with minProtoVersion := p.context.minProtoVersion }
      params.maxTlsVersion then some params.maxTlsVersion else none
  ciphersuites : p.context.ciphersuites =
    if params.ciphersuites = [] then none else some (join params.ciphersuites ':')
  groups : p.context.groups =
    if params.supportedGroups = [] then none else some (join params.supportedGroups ':')
  alpn : p.requiredAlpn = params.alpnProtocols

/-- A client verifies its peer, against all the trust anchors, of which there is one; and it offers the ids. -/
structure EnforcesClient (p : TlsProvider) (lib : TlsLibrary) (params : TlsParameters) : Prop
    extends p.Enforces lib params where
  verifies : p.context.verifyPeer = true
  anchors : p.context.verifyFiles = params.trustAnchors
  anchors_ne : params.trustAnchors ≠ []
  offers : Lib.Prefixed.decode p.context.alpnProtos = some params.alpnProtocols

/-- A server has its certificate and its key, and selects from the ids, if there are any. -/
structure EnforcesServer (p : TlsProvider) (lib : TlsLibrary) (params : TlsParameters) : Prop
    extends p.Enforces lib params where
  certificate : p.context.certificateChain = some params.certificateChainFile
  key : p.context.privateKey = some params.privateKeyFile
  selects : params.alpnProtocols ≠ [] →
    ∃ wire, p.context.alpnSelect = some wire ∧ Lib.Prefixed.decode wire = some params.alpnProtocols
  selects_none : params.alpnProtocols = [] → p.context.alpnSelect = none

end TlsProvider

/-! ## What the results say of a handshake -/

/-- How a handshake ends at the client and at the server, and the ALPN id that was selected. -/
structure TlsHandshake where
  client : Option ErrorCode
  server : Option ErrorCode
  selected : List Byte

/-- What it is to the client. -/
def TlsHandshake.outcome (h : TlsHandshake) : Except ErrorCode (List Byte) :=
  match h.client with
  | some ec => .error ec
  | none => .ok h.selected

/-- What OpenSSL documents of ALPN: `SSL_select_next_proto()` selects the first id of the server that the client
offers; `alpn_select_cb()`, which returns what it selects or a fatal alert, is called where the client offers a list
and the server has the callback; else no id is selected. -/
structure TlsLibrary.Negotiates (lib : TlsLibrary) (connect : TlsSession → TlsContext → TlsHandshake) : Prop where
  select : ∀ {pref offered : List Byte} {prefs ids : List (List Byte)}, Lib.Prefixed.decode pref = some prefs →
    Lib.Prefixed.decode offered = some ids → prefs ≠ [] → ids ≠ [] →
      lib.selectNextProto pref offered = prefs.find? fun id => ids.contains id
  unasked : ∀ (s : TlsSession) (c : TlsContext), s.context.alpnProtos = [] ∨ c.alpnSelect = none →
    (connect s c).selected = []
  selected : ∀ (s : TlsSession) (c : TlsContext) (pref id : List Byte), s.context.alpnProtos ≠ [] →
    c.alpnSelect = some pref → lib.alpnSelectCb pref s.context.alpnProtos = some id →
      (connect s c).client = none → (connect s c).selected = id
  alert : ∀ (s : TlsSession) (c : TlsContext) (pref : List Byte), s.context.alpnProtos ≠ [] →
    c.alpnSelect = some pref → lib.alpnSelectCb pref s.context.alpnProtos = none →
      (connect s c).client ≠ none ∧ (connect s c).server ≠ none

/-- What a client that requires one of the first ids, if it has any, and a server that prefers the second ones, in
order, agree on; the empty id stands for none. -/
def alpnAgreement (client server : List (List Byte)) : Option (List Byte) :=
  if client = [] then some [] else server.find? fun id => client.contains id

end Taps
