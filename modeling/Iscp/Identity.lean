import Iscp.Crypto
import Iscp.Go.Time
import Iscp.Canonical.Transport

/-!
# Device identities and proofs

A device identity is a name in a domain together with an Ed25519 public key; a device proof
is a statement signed with that key: who proves, to whom, in answer to which challenge, with
which nonce and when. `Iscp.Identity.verifyProof` is the one function every endpoint uses to
check a proof. `Iscp.Identity.verifyProof_eq_ok` says what its success amounts to.
-/

namespace Iscp

namespace Identity

open Go Go.Json Crypto Canonical

/-- `TypeDeviceIdentity`. -/
def typeDeviceIdentity : Str := lit "iscp.device.identity.v2"

/-- `TypeDeviceProof`. -/
def typeDeviceProof : Str := lit "iscp.device.proof.v2"

/-- A public key, as identities carry it. -/
structure PublicKey where
  /-- The type of the key. -/
  kty : Str
  /-- What the key is for. -/
  usage : Str
  /-- The identifier of the key, its thumbprint. -/
  kid : Str
  /-- The bytes of the key, in Base64. -/
  pub : Str
  deriving DecidableEq

/-- **A device identity.** -/
structure DeviceIdentity where
  type : Str
  domainID : Str
  deviceID : Str
  publicKey : PublicKey
  createdAt : Time
  metadata : List (Str × Str)
  deriving DecidableEq

/-- A signature, as signed objects carry it. -/
structure Signature where
  alg : Str
  kid : Str
  value : Str
  deriving DecidableEq

/-- **A device proof.** -/
structure DeviceProof where
  type : Str
  domainID : Str
  deviceID : Str
  audience : Str
  challenge : Str
  nonce : Str
  issuedAt : Time
  signature : Signature
  deriving DecidableEq

/-- A device: its identity and its private key. -/
structure Device where
  identity : DeviceIdentity
  priv : Ed25519PrivateKey

/-- The empty signature, `Signature{}`. -/
def noSignature : Signature := ⟨[], [], []⟩

/-- A signature as JSON. -/
def Signature.toValue (s : Signature) : Value :=
  .ofFields [("alg", .str s.alg), ("kid", .str s.kid), ("value", .str s.value)]

/-- A signature as a field of a struct. -/
def Signature.toField (s : Signature) : FieldValue :=
  .struct [("alg", s.alg), ("kid", s.kid), ("value", s.value)]

theorem Signature.strict_toValue (s : Signature) : Strict s.toValue.toUtf8 := by
  refine strict_toUtf8_ofFields (by simp) ?_
  simp [strict_toUtf8_str]

/-- The members of a proof's JSON. -/
def DeviceProof.fields (p : DeviceProof) : List (String × Value) :=
  [("type", .str p.type), ("domain_id", .str p.domainID), ("device_id", .str p.deviceID),
    ("audience", .str p.audience), ("challenge", .str p.challenge), ("nonce", .str p.nonce),
    ("issued_at", .str p.issuedAt.rfc3339Nano), ("signature", p.signature.toValue)]

theorem DeviceProof.strict_fields (p : DeviceProof) : Strict (Value.ofFields p.fields).toUtf8 := by
  refine strict_toUtf8_ofFields (by simp [fields]) ?_
  simp [fields, strict_toUtf8_str, Signature.strict_toValue]

/-- The error of json.Marshal at the first of these times that it cannot write. -/
def marshalTimeError (times : List Time) : Error :=
  .plain ((times.find? fun t => ¬t.Marshals).elim "" Time.marshalErrorText)

/-- `json.Marshal` of a proof. -/
def DeviceProof.marshalJSON (p : DeviceProof) : Except Error Bytes := do
  failIf (¬p.issuedAt.Marshals) (marshalTimeError [p.issuedAt])
  return (Value.ofFields p.fields).text

/-- The JSON value of a public key. -/
def PublicKey.toValue (k : PublicKey) : Value :=
  .ofFields [("kty", .str k.kty), ("use", .str k.usage), ("kid", .str k.kid),
    ("public", .str k.pub)]

/-- The members of an identity's JSON. Without metadata there is no member for them. -/
def DeviceIdentity.fields (id : DeviceIdentity) : List (String × Value) :=
  [("type", .str id.type), ("domain_id", .str id.domainID), ("device_id", .str id.deviceID),
    ("public_key", id.publicKey.toValue), ("created_at", .str id.createdAt.rfc3339Nano)] ++
  (if id.metadata = [] then []
    else [("metadata", .obj (sortEntries (id.metadata.map fun kv => (kv.1, .str kv.2))))])

/-- `json.Marshal` of an identity. -/
def DeviceIdentity.marshalJSON (id : DeviceIdentity) : Except Error Bytes := do
  failIf (¬id.createdAt.Marshals) (marshalTimeError [id.createdAt])
  return (Value.ofFields id.fields).text

/-- The canonical form of an identity's JSON. -/
def DeviceIdentity.canonical (id : DeviceIdentity) : Except Error Bytes := do
  let raw ← id.marshalJSON
  Canonical.marshal raw

/-- `signatureInput` of a proof. -/
def proofInput (p : DeviceProof) : Except Error Bytes := do
  let b ← p.marshalJSON
  signatureInput typeDeviceProof b

variable (P : Primitives)

/-- `NewDevice`, from what the random source delivers. -/
def newDevice (rand : Option Seed) (domainID deviceID : Str) (now : Time) :
    Except Error Device := do
  let (priv, pub) ← generateIdentityKey P rand
  return {
    priv := priv
    identity := {
      type := typeDeviceIdentity
      domainID := domainID
      deviceID := deviceID
      publicKey := {
        kty := lit "Ed25519"
        usage := lit "identity-signature"
        kid := Crypto.thumbprint P (lit "Ed25519") pub.key
        pub := base64URL pub.key }
      createdAt := now.utc
      metadata := [] } }

/-- `Device.CreateProof`. -/
def Device.createProof (d : Device) (audience challenge nonce : Str) (now : Time) :
    Except Error DeviceProof := do
  let proof : DeviceProof := {
    type := typeDeviceProof
    domainID := d.identity.domainID
    deviceID := d.identity.deviceID
    audience := audience
    challenge := challenge
    nonce := nonce
    issuedAt := now.utc
    signature := noSignature }
  let input ← proofInput proof
  return { proof with
    signature := ⟨lit "Ed25519", d.identity.publicKey.kid, base64URL (sign P d.priv input)⟩ }

/-- **`VerifyProof`.** -/
def verifyProof (id : DeviceIdentity) (proof : DeviceProof) (audience challenge : Str)
    (now : Time) (ttl : Duration) : Except Error Unit := do
  failIf (proof.type ≠ typeDeviceProof) (.new .signatureInvalid (lit "invalid proof type"))
  failIf (id.domainID ≠ proof.domainID ∨ id.deviceID ≠ proof.deviceID)
    (.new .signatureInvalid (lit "proof identity mismatch"))
  failIf (proof.audience ≠ audience ∨ proof.challenge ≠ challenge)
    (.new .signatureInvalid (lit "proof audience or challenge mismatch"))
  failIf (now.sub proof.issuedAt > ttl ∨ proof.issuedAt.after (now.add ttl))
    (.new .signatureInvalid (lit "proof is outside allowed time window"))
  let pubBytes ← decodeBase64URL id.publicKey.pub
  failIf (id.publicKey.kid ≠ Crypto.thumbprint P id.publicKey.kty pubBytes)
    (.new .keyInvalid (lit "identity kid does not match public key thumbprint"))
  failIf (proof.signature.kid ≠ id.publicKey.kid)
    (.new .keyInvalid (lit "proof signature kid does not match identity key"))
  let pub ← ed25519PublicKeyFromBytes pubBytes
  let sig ← decodeBase64URL proof.signature.value
  let input ← proofInput { proof with signature := noSignature }
  failIf (verify P pub input sig = false)
    (.new .signatureInvalid (lit "proof signature verification failed"))

/-- `Thumbprint` of an identity. -/
def thumbprint (id : DeviceIdentity) : Except Error Str := do
  let pubBytes ← decodeBase64URL id.publicKey.pub
  return Crypto.thumbprint P id.publicKey.kty pubBytes

/-! ### Devices -/

variable {P}

/-- The devices `Iscp.Identity.newDevice` makes. -/
def Made (P : Primitives) (dev : Device) : Prop :=
  ∃ seed domainID deviceID now, newDevice P (some seed) domainID deviceID now = .ok dev

theorem exists_made (P : Primitives) : ∃ dev, Made P dev :=
  ⟨_, ⟨List.replicate 32 0, rfl⟩, [], [], Time.zero, rfl⟩

variable {dev : Device}

theorem Made.decode_pub (h : Made P dev) :
    decodeBase64URL dev.identity.publicKey.pub = .ok (publicKey dev.priv).key := by
  obtain ⟨seed, domainID, deviceID, now, h⟩ := h
  simp only [newDevice, generateIdentityKey, bind_eq_ok_iff] at h
  obtain ⟨_, ⟨⟩, ⟨⟩⟩ := h
  simp [publicKey, seed.2]

theorem Made.kid_eq (h : Made P dev) : dev.identity.publicKey.kid =
    Crypto.thumbprint P dev.identity.publicKey.kty (publicKey dev.priv).key := by
  obtain ⟨seed, domainID, deviceID, now, h⟩ := h
  simp only [newDevice, generateIdentityKey, bind_eq_ok_iff] at h
  obtain ⟨_, ⟨⟩, ⟨⟩⟩ := h
  simp [publicKey, seed.2]

theorem Made.pub_eq (h : Made P dev) :
    dev.identity.publicKey.pub = base64URL (publicKey dev.priv).key := by
  obtain ⟨seed, domainID, deviceID, now, h⟩ := h
  simp only [newDevice, generateIdentityKey, bind_eq_ok_iff] at h
  obtain ⟨_, ⟨⟩, ⟨⟩⟩ := h
  simp [publicKey, seed.2]

theorem Made.keyPair (h : Made P dev) : KeyPair P dev.priv (publicKey dev.priv) := by
  obtain ⟨seed, domainID, deviceID, now, h⟩ := h
  obtain ⟨⟨priv, pub⟩, hkeys, h⟩ := bind_eq_ok_iff.mp h
  cases h
  have hpair : KeyPair P priv pub := ⟨seed, hkeys⟩
  exact ⟨seed, hkeys.trans (by rw [hpair.publicKey_eq])⟩

theorem Made.verify_sign (h : Made P dev) (hs : P.SignsVerifiably) (m : Bytes) :
    verify P (publicKey dev.priv) m (sign P dev.priv m) = true := by
  obtain ⟨seed, domainID, deviceID, now, h⟩ := h
  simp only [newDevice, generateIdentityKey, bind_eq_ok_iff] at h
  obtain ⟨_, ⟨⟩, ⟨⟩⟩ := h
  simpa [verify, publicKey, sign, seed.2] using hs seed m

/-! ### What an accepted proof says -/

/-- **What `Iscp.Identity.verifyProof` has checked when it succeeds.** -/
structure ProofVerified (P : Primitives) (id : DeviceIdentity) (proof : DeviceProof)
    (audience challenge : Str) (now : Time) (ttl : Duration) : Prop where
  type : proof.type = typeDeviceProof
  domainID : id.domainID = proof.domainID
  deviceID : id.deviceID = proof.deviceID
  audience : proof.audience = audience
  challenge : proof.challenge = challenge
  notOld : now.sub proof.issuedAt ≤ ttl
  notAhead : proof.issuedAt.unixNano ≤ now.unixNano + ttl
  kid : proof.signature.kid = id.publicKey.kid
  signed : ∃ pub sig input, decodeBase64URL id.publicKey.pub = .ok pub.key ∧
    id.publicKey.kid = Crypto.thumbprint P id.publicKey.kty pub.key ∧
    decodeBase64URL proof.signature.value = .ok sig ∧
    proofInput { proof with signature := noSignature } = .ok input ∧
    verify P pub input sig = true

theorem verifyProof_eq_ok {id : DeviceIdentity} {proof : DeviceProof} {audience challenge : Str}
    {now : Time} {ttl : Duration} {u : Unit} :
    verifyProof P id proof audience challenge now ttl = .ok u ↔
      ProofVerified P id proof audience challenge now ttl := by
  simp only [verifyProof, bind_eq_ok_iff, failIf_eq_ok_iff, exists_const, ne_eq, not_or, not_not,
    not_lt, Time.after_iff, Time.unixNano_add, ed25519PublicKeyFromBytes_eq_ok,
    Bool.not_eq_false, gt_iff_lt]
  constructor
  · rintro ⟨h1, ⟨h2, h3⟩, ⟨h4, h5⟩, ⟨h6, h7⟩, _, h8, h9, h10, pub, rfl, sig, h11, input, h12, h13⟩
    exact ⟨h1, h2, h3, h4, h5, h6, h7, h10, pub, sig, input, h8, h9, h11, h12, h13⟩
  · rintro ⟨h1, h2, h3, h4, h5, h6, h7, h10, pub, sig, input, h8, h9, h11, h12, h13⟩
    exact ⟨h1, ⟨h2, h3⟩, ⟨h4, h5⟩, ⟨h6, h7⟩, _, h8, h9, h10, pub, rfl, sig, h11, input, h12, h13⟩

/-! ### Proofs that are accepted -/

theorem proofInput_eq_ok {p : DeviceProof} {b : Bytes} :
    proofInput p = .ok b ↔ p.issuedAt.Marshals ∧ b = signedBytes typeDeviceProof p.fields := by
  simp only [proofInput, DeviceProof.marshalJSON, bind_eq_ok_iff, failIf_eq_ok_iff, not_not,
    exists_const]
  constructor
  · rintro ⟨_, ⟨ht, ⟨⟩⟩, h⟩
    exact ⟨ht, (signatureInput_text_eq_ok.mp h).2⟩
  · rintro ⟨ht, rfl⟩
    exact ⟨_, ⟨ht, rfl⟩, signatureInput_text_eq_ok.mpr ⟨p.strict_fields, rfl⟩⟩

/-- **A device can prove itself**, at any time that can be written. -/
theorem Made.exists_createProof (h : Made P dev) (hs : P.SignsVerifiably)
    (audience challenge nonce : Str) {now : Time} (hnow : now.utc.Marshals) (ttl : Duration)
    (httl : 0 ≤ ttl) :
    ∃ proof, dev.createProof P audience challenge nonce now = .ok proof ∧
      proof.nonce = nonce ∧ proof.issuedAt = now.utc ∧
      ProofVerified P dev.identity proof audience challenge now.utc ttl := by
  simp only [Device.createProof, bind_eq_ok_iff, proofInput_eq_ok]
  refine ⟨_, ⟨_, ⟨hnow, rfl⟩, rfl⟩, rfl, rfl, ⟨rfl, rfl, rfl, rfl, rfl, ?_, ?_, rfl, ?_⟩⟩
  · rw [Time.sub, sub_self]
    exact max_le (by lia) (min_le_of_right_le httl)
  · exact le_add_of_nonneg_right httl
  · exact ⟨_, _, _, h.decode_pub, h.kid_eq, decodeBase64URL_base64URL _,
      proofInput_eq_ok.mpr ⟨hnow, rfl⟩, h.verify_sign hs _⟩

end Identity

end Iscp
