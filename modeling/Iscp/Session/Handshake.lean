import Iscp.Identity

/-!
# The session handshake

Two devices exchange signed hellos, each with a fresh X25519 key. Either side derives from
its own hello and the other one a secret, a hash of the transcript and three keys
(`Iscp.Session.establish`), and then tells the other side that it is ready with a signed
message over the transcript hash (`Iscp.Session.State.createReady`,
`Iscp.Session.State.verifyReady`).

The transcript is a JSON document that holds both hellos in the order of their device
identifiers, so that the two sides hash the same document. Which of the two directions a
key is for is decided by the same order (`Iscp.Session.directionLabels`).
-/

namespace Iscp

namespace Session

open Go Go.Json Crypto Canonical Identity

/-- `TypeHello`. -/
def typeHello : Str := lit "iscp.session.hello.v2"

/-- `TypeReady`. -/
def typeReady : Str := lit "iscp.session.ready.v2"

/-- **A hello.** -/
structure Hello where
  type : Str
  sessionID : Str
  domainID : Str
  deviceID : Str
  peerDeviceID : Str
  ciphersuite : Str
  ephemeralPublicKey : Str
  grantID : Str
  issuedAt : Time
  signature : Signature
  deriving DecidableEq

/-- **A ready message.** -/
structure Ready where
  type : Str
  sessionID : Str
  deviceID : Str
  transcriptHash : Str
  readyMAC : Str
  signature : Signature
  deriving DecidableEq

/-- A device's own hello, with the private key that goes with it. -/
structure LocalHello where
  hello : Hello
  privateKey : X25519PrivateKey

/-- **The state of a session** at one of its two devices. -/
structure State where
  sessionID : Str
  domainID : Str
  localDeviceID : Str
  peerDeviceID : Str
  transcriptHash : Bytes
  sendKey : Bytes
  receiveKey : Bytes
  readyKey : Bytes
  /-- Whether the other device's ready message has been verified. -/
  ready : Bool
  /-- The sequence number of the next envelope sent. -/
  sendSeq : UInt64
  /-- The sequence numbers of the envelopes received. -/
  seenSeq : List UInt64
  deriving DecidableEq

/-- The members of a hello's JSON. -/
def Hello.fields (h : Hello) : List (String × Value) :=
  [("type", .str h.type), ("session_id", .str h.sessionID), ("domain_id", .str h.domainID),
    ("device_id", .str h.deviceID), ("peer_device_id", .str h.peerDeviceID),
    ("ciphersuite", .str h.ciphersuite), ("ephemeral_public_key", .str h.ephemeralPublicKey),
    ("grant_id", .str h.grantID), ("issued_at", .str h.issuedAt.rfc3339Nano),
    ("signature", h.signature.toValue)]

/-- The members of a ready message's JSON. -/
def Ready.fields (r : Ready) : List (String × Value) :=
  [("type", .str r.type), ("session_id", .str r.sessionID), ("device_id", .str r.deviceID),
    ("transcript_hash", .str r.transcriptHash), ("ready_mac", .str r.readyMAC),
    ("signature", r.signature.toValue)]

/-- `json.Marshal` of a hello. -/
def Hello.marshalJSON (h : Hello) : Except Error Bytes := do
  failIf (¬h.issuedAt.Marshals) (marshalTimeError [h.issuedAt])
  return (Value.ofFields h.fields).text

/-- `signatureInput` of a hello. -/
def helloInput (h : Hello) : Except Error Bytes := do
  let b ← h.marshalJSON
  signatureInput typeHello b

/-- `signatureInput` of a ready message. -/
def readyInput (r : Ready) : Except Error Bytes :=
  signatureInput typeReady (Value.ofFields r.fields).text

/-- The two of them, in the order of their keys, as `sort.Slice` leaves a pair. -/
def sortPair {α : Type} (key : α → Str) (a b : α) : α × α :=
  if key b < key a then (b, a) else (a, b)

/-- `mustJSONMap` of a hello: what json.Unmarshal makes of its text, with all strings
repaired, and nothing if the hello has no text. -/
def mustJSONMap (h : Hello) : Value :=
  if h.issuedAt.Marshals then (Value.ofFields h.fields).toUtf8 else .obj []

/-- `directionLabels`: the label of what the local device sends, and of what it receives. -/
def directionLabels (loc remote : Str) : Str × Str :=
  if loc < remote then (lit "low-to-high", lit "high-to-low")
  else (lit "high-to-low", lit "low-to-high")

variable (P : Primitives)

/-- `mustThumbprint`: empty, for a key that is not Base64. -/
def mustThumbprint (id : DeviceIdentity) : Str :=
  match Identity.thumbprint P id with
  | .ok tp => tp
  | .error _ => []

/-- **The transcript**: two hellos and two identities, each pair in the order of the devices. -/
def transcript (a b : Hello) (aID bID : DeviceIdentity) : Value :=
  let hellos := sortPair Hello.deviceID a b
  let ids := sortPair DeviceIdentity.deviceID aID bID
  .ofFields [
    ("protocol", .str (lit "iscp.session.transcript.v2")),
    ("session_id", .str a.sessionID),
    ("domain_id", .str a.domainID),
    ("ciphersuite", .str ciphersuiteV2),
    ("hello_a", mustJSONMap hellos.1),
    ("hello_b", mustJSONMap hellos.2),
    ("identity_a", .str ids.1.deviceID),
    ("identity_b", .str ids.2.deviceID),
    ("identity_thumbprint_a", .str (mustThumbprint P ids.1)),
    ("identity_thumbprint_b", .str (mustThumbprint P ids.2))]

/-- **`TranscriptHash`.** -/
def transcriptHash (a b : Hello) (aID bID : DeviceIdentity) : Except Error Bytes := do
  let canon ← marshalValue (transcript P a b aID bID)
  return P.sha256 canon

/-- **`CreateHello`**, from what the random source delivers. -/
def createHello (dev : Device) (rand : Option Seed) (sessionID peerDeviceID grantID : Str)
    (now : Time) : Except Error LocalHello := do
  let (priv, pub) ← generateSessionKey P rand
  let hello : Hello := {
    type := typeHello
    sessionID := sessionID
    domainID := dev.identity.domainID
    deviceID := dev.identity.deviceID
    peerDeviceID := peerDeviceID
    ciphersuite := ciphersuiteV2
    ephemeralPublicKey := base64URL pub.key
    grantID := grantID
    issuedAt := now.utc
    signature := noSignature }
  let input ← helloInput hello
  let signature : Signature :=
    ⟨lit "Ed25519", dev.identity.publicKey.kid, base64URL (sign P dev.priv input)⟩
  return ⟨{ hello with signature := signature }, priv⟩

/-- **`VerifyHello`.** -/
def verifyHello (hello : Hello) (id : DeviceIdentity) : Except Error Unit := do
  failIf (hello.type ≠ typeHello) (.new .sessionInvalid (lit "invalid session hello type"))
  failIf (hello.deviceID ≠ id.deviceID ∨ hello.domainID ≠ id.domainID)
    (.new .sessionInvalid (lit "session hello identity mismatch"))
  failIf (hello.ciphersuite ≠ ciphersuiteV2)
    (.new .sessionInvalid (lit "unsupported ciphersuite"))
  let pubBytes ← decodeBase64URL id.publicKey.pub
  let pub ← ed25519PublicKeyFromBytes pubBytes
  let sig ← decodeBase64URL hello.signature.value
  let input ← helloInput { hello with signature := noSignature }
  failIf (verify P pub input sig = false)
    (.new .sessionInvalid (lit "session hello signature verification failed"))

/-- **`Establish`.** -/
def establish (loc : LocalHello) (remote : Hello) (localID remoteID : DeviceIdentity) :
    Except Error State := do
  failIf (loc.hello.sessionID ≠ remote.sessionID)
    (.new .sessionInvalid (lit "session id mismatch"))
  failIf (loc.hello.domainID ≠ remote.domainID) (.new .sessionInvalid (lit "domain mismatch"))
  failIf (loc.hello.peerDeviceID ≠ remote.deviceID ∨ remote.peerDeviceID ≠ loc.hello.deviceID)
    (.new .sessionInvalid (lit "peer binding mismatch"))
  verifyHello P remote remoteID
  let remotePubBytes ← decodeBase64URL remote.ephemeralPublicKey
  let remotePub ← x25519PublicKeyFromBytes remotePubBytes
  let secret ← sharedSecret P loc.privateKey remotePub
  let th ← transcriptHash P loc.hello remote localID remoteID
  let labels := directionLabels loc.hello.deviceID remote.deviceID
  let okm ← hkdf P secret th (lit "iscp/v2/session/" ++ labels.1) 32
  let rkm ← hkdf P secret th (lit "iscp/v2/session/" ++ labels.2) 32
  let readyKey ← hkdf P secret th (lit "iscp/v2/session/ready") 32
  return {
    sessionID := loc.hello.sessionID
    domainID := loc.hello.domainID
    localDeviceID := loc.hello.deviceID
    peerDeviceID := remote.deviceID
    transcriptHash := th
    sendKey := okm
    receiveKey := rkm
    readyKey := readyKey
    ready := false
    sendSeq := 0
    seenSeq := [] }

namespace State

/-- The ready message of a state, before it is signed. -/
def unsignedReady (s : State) : Ready where
  type := typeReady
  sessionID := s.sessionID
  deviceID := s.localDeviceID
  transcriptHash := base64URL s.transcriptHash
  readyMAC := base64URL (P.hmacSha256 s.readyKey (lit "ready:" ++ s.localDeviceID))
  signature := noSignature

/-- **`CreateReady`.** -/
def createReady (s : State) (dev : Device) : Except Error Ready := do
  let input ← readyInput (s.unsignedReady P)
  let signature : Signature :=
    ⟨lit "Ed25519", dev.identity.publicKey.kid, base64URL (sign P dev.priv input)⟩
  return { s.unsignedReady P with signature := signature }

/-- **`VerifyReady`**: the state after it, when it succeeds. -/
def verifyReady (s : State) (ready : Ready) (remoteID : DeviceIdentity) : Except Error State := do
  failIf (ready.type ≠ typeReady ∨ ready.sessionID ≠ s.sessionID ∨
      ready.deviceID ≠ s.peerDeviceID)
    (.new .sessionInvalid (lit "ready binding mismatch"))
  let th ← decodeBase64URL ready.transcriptHash
  failIf (th ≠ s.transcriptHash) (.new .sessionInvalid (lit "ready transcript mismatch"))
  let mac ← decodeBase64URL ready.readyMAC
  let expected := P.hmacSha256 s.readyKey (lit "ready:" ++ ready.deviceID)
  failIf (equalMAC mac expected = false) (.new .sessionInvalid (lit "ready mac mismatch"))
  let pubBytes ← decodeBase64URL remoteID.publicKey.pub
  let pub ← ed25519PublicKeyFromBytes pubBytes
  let sig ← decodeBase64URL ready.signature.value
  let input ← readyInput { ready with signature := noSignature }
  failIf (verify P pub input sig = false)
    (.new .sessionInvalid (lit "ready signature verification failed"))
  return { s with ready := true }

/-- The 12 bytes of a nonce: the sequence number, in big-endian order, after four zeros. -/
def nonceOf (seq : UInt64) : Bytes :=
  List.replicate 4 0 ++ (List.range 8).map fun i => UInt8.ofNat (seq.toNat / 256 ^ (7 - i))

/-- `NextSend`: the sequence number, its nonce, and the state after it. -/
def nextSend (s : State) : UInt64 × Bytes × State :=
  (s.sendSeq, nonceOf s.sendSeq, { s with sendSeq := s.sendSeq + 1 })

/-- `MarkReceived`: the state after it. -/
def markReceived (s : State) (seq : UInt64) : Except Error State :=
  if seq ∈ s.seenSeq then .error (.new .replayDetected (lit "duplicate envelope sequence"))
  else .ok { s with seenSeq := seq :: s.seenSeq }

end State

/-! ### Signature inputs of the handshake -/

variable {P}

theorem Hello.strict_fields (h : Hello) : Strict (Value.ofFields h.fields).toUtf8 := by
  refine strict_toUtf8_ofFields (by simp [fields]) ?_
  simp [fields, strict_toUtf8_str, Signature.strict_toValue]

theorem Ready.strict_fields (r : Ready) : Strict (Value.ofFields r.fields).toUtf8 := by
  refine strict_toUtf8_ofFields (by simp [fields]) ?_
  simp [fields, strict_toUtf8_str, Signature.strict_toValue]

theorem readyInput_eq (r : Ready) : readyInput r = .ok (signedBytes typeReady r.fields) :=
  signatureInput_text typeReady r.strict_fields

theorem helloInput_eq_ok {h : Hello} {input : Bytes} : helloInput h = .ok input ↔
    h.issuedAt.Marshals ∧ input = signedBytes typeHello h.fields := by
  simp only [helloInput, Hello.marshalJSON, bind_eq_ok_iff, failIf_eq_ok_iff, exists_const, not_not]
  constructor
  · rintro ⟨_, ⟨hm, ⟨⟩⟩, hi⟩
    exact ⟨hm, (Except.ok.inj ((signatureInput_text typeHello h.strict_fields).symm.trans hi)).symm⟩
  · rintro ⟨hm, rfl⟩
    exact ⟨_, ⟨hm, rfl⟩, signatureInput_text typeHello h.strict_fields⟩

/-! ### What success says -/

/-- The hello without its signature, as it is signed. -/
def Hello.unsigned (h : Hello) : Hello := { h with signature := noSignature }

/-- The ready message without its signature, as it is signed. -/
def Ready.unsigned (r : Ready) : Ready := { r with signature := noSignature }

/-- **What a created hello is made of.** -/
structure HelloCreated (P : Primitives) (dev : Device) (lh : LocalHello) : Prop where
  type : lh.hello.type = typeHello
  domainID : lh.hello.domainID = dev.identity.domainID
  deviceID : lh.hello.deviceID = dev.identity.deviceID
  ciphersuite : lh.hello.ciphersuite = ciphersuiteV2
  marshals : lh.hello.issuedAt.Marshals
  ephemeral : ∃ pub : X25519PublicKey, P.x25519 lh.privateKey.key P.basepoint = some pub.key ∧
    lh.hello.ephemeralPublicKey = base64URL pub.key
  signed : lh.hello.signature.value =
    base64URL (sign P dev.priv (signedBytes typeHello lh.hello.unsigned.fields))

theorem createHello_eq_ok {dev : Device} {rand : Option Seed} {sessionID peer grant : Str}
    {now : Time} {lh : LocalHello} (h : createHello P dev rand sessionID peer grant now = .ok lh) :
    HelloCreated P dev lh := by
  simp only [createHello, bind_eq_ok_iff] at h
  obtain ⟨⟨priv, pub⟩, hkey, input, hinput, hlh⟩ := h
  cases hlh
  obtain ⟨hmarshals, rfl⟩ := helloInput_eq_ok.mp hinput
  exact ⟨rfl, rfl, rfl, rfl, hmarshals, ⟨pub, generateSessionKey_eq_ok P hkey, rfl⟩, rfl⟩

/-- **What a verified hello has been checked for.** -/
structure HelloVerified (P : Primitives) (hello : Hello) (id : DeviceIdentity) : Prop where
  type : hello.type = typeHello
  deviceID : hello.deviceID = id.deviceID
  domainID : hello.domainID = id.domainID
  ciphersuite : hello.ciphersuite = ciphersuiteV2
  marshals : hello.issuedAt.Marshals
  signed : ∃ pub sig, decodeBase64URL id.publicKey.pub = .ok pub.key ∧
    decodeBase64URL hello.signature.value = .ok sig ∧
    verify P pub (signedBytes typeHello hello.unsigned.fields) sig = true

theorem verifyHello_eq_ok {hello : Hello} {id : DeviceIdentity} {u : Unit} :
    verifyHello P hello id = .ok u ↔ HelloVerified P hello id := by
  simp only [verifyHello, bind_eq_ok_iff, failIf_eq_ok_iff, exists_const, ne_eq, not_or, not_not,
    ed25519PublicKeyFromBytes_eq_ok, helloInput_eq_ok, Bool.not_eq_false]
  constructor
  · rintro ⟨h1, ⟨h2, h3⟩, h4, _, h5, pub, rfl, sig, h6, _, ⟨h7, rfl⟩, h8⟩
    exact ⟨h1, h2, h3, h4, h7, pub, sig, h5, h6, h8⟩
  · rintro ⟨h1, h2, h3, h4, h7, pub, sig, h5, h6, h8⟩
    exact ⟨h1, ⟨h2, h3⟩, h4, _, h5, pub, rfl, sig, h6, _, ⟨h7, rfl⟩, h8⟩

/-- **What an established state is made of**: the two hellos name each other, and the hash
and the keys are derived from them. -/
structure Established (P : Primitives) (loc : LocalHello) (remote : Hello)
    (localID remoteID : DeviceIdentity) (s : State) : Prop where
  sessionID : s.sessionID = loc.hello.sessionID
  domainID : s.domainID = loc.hello.domainID
  localDeviceID : s.localDeviceID = loc.hello.deviceID
  peerDeviceID : s.peerDeviceID = remote.deviceID
  sameSession : loc.hello.sessionID = remote.sessionID
  sameDomain : loc.hello.domainID = remote.domainID
  namesPeer : loc.hello.peerDeviceID = remote.deviceID
  namedByPeer : remote.peerDeviceID = loc.hello.deviceID
  verified : HelloVerified P remote remoteID
  hash : s.transcriptHash =
    P.sha256 (writeCanonical (transcript P loc.hello remote localID remoteID))
  keys : ∃ (remotePub : X25519PublicKey) (secret : Bytes),
    decodeBase64URL remote.ephemeralPublicKey = .ok remotePub.key ∧
    P.x25519 loc.privateKey.key remotePub.key = some secret ∧
    P.hkdf secret s.transcriptHash (lit "iscp/v2/session/" ++
      (directionLabels loc.hello.deviceID remote.deviceID).1) 32 = some s.sendKey ∧
    P.hkdf secret s.transcriptHash (lit "iscp/v2/session/" ++
      (directionLabels loc.hello.deviceID remote.deviceID).2) 32 = some s.receiveKey ∧
    P.hkdf secret s.transcriptHash (lit "iscp/v2/session/ready") 32 = some s.readyKey

/-- A state no message has been sent or received in. -/
def State.Fresh (s : State) : Prop := s.ready = false ∧ s.sendSeq = 0 ∧ s.seenSeq = []

variable {remoteID : DeviceIdentity}

/-- What a successful `Establish` has derived; the state it gives is fresh. -/
theorem establish_eq_ok {loc : LocalHello} {remote : Hello} {localID : DeviceIdentity} {s : State} :
    establish P loc remote localID remoteID = .ok s ↔
      Established P loc remote localID remoteID s ∧ s.Fresh := by
  simp only [establish, bind_eq_ok_iff, failIf_eq_ok_iff, exists_const, ne_eq, not_or, not_not,
    x25519PublicKeyFromBytes_eq_ok, sharedSecret_eq_ok, hkdf_eq_ok, verifyHello_eq_ok]
  constructor
  · rintro ⟨h1, h2, ⟨h3, h4⟩, h5, _, h6, pub, rfl, secret, h7, th, ⟨⟩, okm, h8, rkm, h9, rdy, h10,
      ⟨⟩⟩
    exact ⟨⟨rfl, rfl, rfl, rfl, h1, h2, h3, h4, h5, rfl, pub, secret, h6, h7, h8, h9, h10⟩,
      rfl, rfl, rfl⟩
  · rintro ⟨he, hr, hq, hn⟩
    obtain ⟨pub, secret, h6, h7, h8, h9, h10⟩ := he.keys
    refine ⟨he.sameSession, he.sameDomain, ⟨he.namesPeer, he.namedByPeer⟩, he.verified, _, h6, pub,
      rfl, secret, h7, _, rfl, _, he.hash ▸ h8, _, he.hash ▸ h9, _, he.hash ▸ h10, ?_⟩
    rw [← he.sessionID, ← he.domainID, ← he.localDeviceID, ← he.peerDeviceID, ← he.hash, ← hr,
      ← hq, ← hn]
    rfl

/-- **What a verified ready message has been checked for.** -/
structure ReadyVerified (P : Primitives) (s : State) (ready : Ready)
    (remoteID : DeviceIdentity) : Prop where
  type : ready.type = typeReady
  sessionID : ready.sessionID = s.sessionID
  deviceID : ready.deviceID = s.peerDeviceID
  hash : decodeBase64URL ready.transcriptHash = .ok s.transcriptHash
  mac : decodeBase64URL ready.readyMAC =
    .ok (P.hmacSha256 s.readyKey (lit "ready:" ++ ready.deviceID))
  signed : ∃ pub sig, decodeBase64URL remoteID.publicKey.pub = .ok pub.key ∧
    decodeBase64URL ready.signature.value = .ok sig ∧
    verify P pub (signedBytes typeReady ready.unsigned.fields) sig = true

theorem State.verifyReady_eq_ok {s s' : State} {ready : Ready} :
    s.verifyReady P ready remoteID = .ok s' ↔
      ReadyVerified P s ready remoteID ∧ s' = { s with ready := true } := by
  simp only [verifyReady, bind_eq_ok_iff, failIf_eq_ok_iff, exists_const, ne_eq, not_or, not_not,
    ed25519PublicKeyFromBytes_eq_ok, readyInput_eq, equalMAC, decide_eq_false_iff_not,
    Bool.not_eq_false]
  constructor
  · rintro ⟨⟨h1, h2, h3⟩, _, h4, rfl, _, h5, rfl, _, h6, pub, rfl, sig, h7, _, ⟨⟩, h8, ⟨⟩⟩
    exact ⟨⟨h1, h2, h3, h4, h5, pub, sig, h6, h7, h8⟩, rfl⟩
  · rintro ⟨⟨h1, h2, h3, h4, h5, pub, sig, h6, h7, h8⟩, rfl⟩
    exact ⟨⟨h1, h2, h3⟩, _, h4, rfl, _, h5, rfl, _, h6, pub, rfl, sig, h7, _, rfl, h8, rfl⟩

/-! ### What the signatures of the handshake bind -/

theorem signedBytes_hello_ne_ready (h : Hello) (r : Ready) :
    signedBytes typeHello h.fields ≠ signedBytes typeReady r.fields := by
  intro heq
  have htype := (signedBytes_binds (by decide) (by decide) h.strict_fields r.strict_fields heq).1
  exact absurd htype (by decide)

/-- **What the signature of a ready message binds.** -/
theorem ready_bound {r r' : Ready}
    (h : signedBytes typeReady r.fields = signedBytes typeReady r'.fields) :
    toUtf8 r.sessionID = toUtf8 r'.sessionID ∧ toUtf8 r.deviceID = toUtf8 r'.deviceID ∧
      toUtf8 r.transcriptHash = toUtf8 r'.transcriptHash := by
  have hbind := (signedBytes_binds (by decide) (by decide) r.strict_fields r'.strict_fields h).2
  refine ⟨?_, ?_, ?_⟩
  · exact hbind "session_id" (.str _) (.str _) (by decide) (by simp [Ready.fields])
      (by simp [Ready.fields])
  · exact hbind "device_id" (.str _) (.str _) (by decide) (by simp [Ready.fields])
      (by simp [Ready.fields])
  · exact hbind "transcript_hash" (.str _) (.str _) (by decide) (by simp [Ready.fields])
      (by simp [Ready.fields])

end Session

end Iscp
