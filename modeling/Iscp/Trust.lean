import Iscp.Identity

/-!
# Trust grants

A grant says that a device may do something at a relay: who, with which key, for whom, until
when. It is signed by an issuer and bound to the revocation epoch the device is in: a grant of
an earlier epoch is revoked. `Iscp.Trust.verifyGrant` checks all of it against what the
verifier expects; on a grant that has been signed with the issuer's key, what is left of the
checks is a comparison of fields (`Iscp.Trust.Signed.verifyGrant_eq_ok`).
-/

namespace Iscp

namespace Trust

open Go Go.Json Crypto Canonical Identity

/-- `TypeTrustGrant`. -/
def typeTrustGrant : Str := lit "iscp.trust_grant.v2"

/-- **A trust grant.** The permissions may be a nil slice, which JSON tells from an empty
one; the constraints are left out of the JSON when there are none. -/
structure Grant where
  type : Str
  grantID : Str
  issuer : Str
  subjectDeviceID : Str
  audience : Str
  confirmationThumbprint : Str
  permissions : Option (List Str)
  relayConstraints : List Str
  notBefore : Time
  expiresAt : Time
  revocationEpoch : UInt64
  signature : Signature
  deriving DecidableEq

/-- What a verifier expects of a grant. -/
structure VerifyOptions where
  audience : Str
  subjectDeviceID : Str
  confirmationThumbprint : Str
  permission : Str
  relayID : Str
  currentRevocationEpoch : UInt64
  now : Time

/-- The JSON of a slice of strings. -/
def strings (l : List Str) : Value := .arr (l.map .str)

/-- The members of a grant's JSON. -/
def Grant.fields (g : Grant) : List (String × Value) :=
  [("type", .str g.type), ("grant_id", .str g.grantID), ("issuer", .str g.issuer),
    ("subject_device_id", .str g.subjectDeviceID), ("audience", .str g.audience),
    ("confirmation_thumbprint", .str g.confirmationThumbprint),
    ("permissions", g.permissions.elim .null strings)] ++
  (if g.relayConstraints = [] then [] else [("relay_constraints", strings g.relayConstraints)]) ++
  [("not_before", .str g.notBefore.rfc3339Nano), ("expires_at", .str g.expiresAt.rfc3339Nano),
    ("revocation_epoch", .int g.revocationEpoch.toNat), ("signature", g.signature.toValue)]

/-- `json.Marshal` of a grant. -/
def Grant.marshalJSON (g : Grant) : Except Error Bytes := do
  failIf (¬g.notBefore.Marshals ∨ ¬g.expiresAt.Marshals)
    (marshalTimeError [g.notBefore, g.expiresAt])
  return (Value.ofFields g.fields).text

/-- `signatureInput` of a grant. -/
def grantInput (g : Grant) : Except Error Bytes := do
  let b ← g.marshalJSON
  signatureInput typeTrustGrant b

variable (P : Primitives)

/-- **`SignGrant`.** -/
def signGrant (issuer : Device) (grant : Grant) : Except Error Grant := do
  let grant := { grant with
    type := typeTrustGrant
    issuer := issuer.identity.deviceID
    signature := noSignature }
  let input ← grantInput grant
  return { grant with signature :=
    ⟨lit "Ed25519", issuer.identity.publicKey.kid, base64URL (sign P issuer.priv input)⟩ }

/-- **`VerifyGrant`.** -/
def verifyGrant (grant : Grant) (issuer : DeviceIdentity) (opts : VerifyOptions) :
    Except Error Unit := do
  failIf (grant.type ≠ typeTrustGrant) (.new .trustInvalid (lit "invalid trust grant type"))
  failIf (opts.now.before grant.notBefore ∨ ¬opts.now.before grant.expiresAt)
    (.new .trustInvalid (lit "trust grant is not currently valid"))
  failIf (grant.audience ≠ opts.audience)
    (.new .trustInvalid (lit "trust grant audience mismatch"))
  failIf (grant.subjectDeviceID ≠ opts.subjectDeviceID)
    (.new .trustInvalid (lit "trust grant subject mismatch"))
  failIf (grant.confirmationThumbprint ≠ opts.confirmationThumbprint)
    (.new .trustInvalid (lit "trust grant confirmation mismatch"))
  failIf (opts.permission ∉ grant.permissions.getD [])
    (.new .trustInvalid (lit "trust grant permission denied"))
  failIf (grant.relayConstraints ≠ [] ∧ opts.relayID ∉ grant.relayConstraints)
    (.new .trustInvalid (lit "trust grant relay constraint mismatch"))
  failIf (grant.revocationEpoch < opts.currentRevocationEpoch)
    (.new .trustInvalid (lit "trust grant has been revoked"))
  let pubBytes ← decodeBase64URL issuer.publicKey.pub
  let pub ← ed25519PublicKeyFromBytes pubBytes
  let sig ← decodeBase64URL grant.signature.value
  let input ← grantInput { grant with signature := noSignature }
  failIf (verify P pub input sig = false)
    (.new .trustInvalid (lit "trust grant signature verification failed"))

/-! ### Signature inputs -/

theorem strict_strings (l : List Str) : Strict (strings l).toUtf8 := by
  rw [strings, Value.toUtf8_arr, List.map_map]
  refine .arr fun v hv => ?_
  obtain ⟨s, -, rfl⟩ := List.mem_map.mp hv
  exact strict_toUtf8_str s

theorem Grant.nodup_fields (g : Grant) : (g.fields.map Prod.fst).Nodup := by
  rw [fields]
  split_ifs <;> simp

variable {g : Grant} {priv : Ed25519PrivateKey} {issuer : DeviceIdentity} {opts : VerifyOptions}

theorem Grant.strict_fields :
    Strict (Value.ofFields g.fields).toUtf8 ↔ g.revocationEpoch.toNat < 2 ^ 63 := by
  constructor
  · intro h
    rw [toUtf8_ofFields] at h
    obtain _ | _ | _ | _ | _ | ⟨-, -, hv⟩ := h
    have hmem : ("revocation_epoch", Value.int g.revocationEpoch.toNat) ∈ g.fields := by
      simp [fields]
    obtain _ | _ | ⟨-, hlt⟩ := hv _ (mem_repaired hmem)
    omega
  · intro h
    have hepoch : Strict (Value.int g.revocationEpoch.toNat).toUtf8 := .int ⟨by omega, by omega⟩
    have hperms : Strict (g.permissions.elim .null strings).toUtf8 := by
      cases g.permissions with
      | none => exact .null
      | some l => exact strict_strings l
    refine strict_toUtf8_ofFields g.nodup_fields fun f hf => ?_
    rw [fields] at hf
    split_ifs at hf <;>
      simp only [List.append_nil, List.mem_append, List.mem_cons, List.not_mem_nil, or_false]
        at hf
    · rcases hf with (rfl | rfl | rfl | rfl | rfl | rfl | rfl) | rfl | rfl | rfl | rfl <;>
        first
          | exact strict_toUtf8_str _
          | exact hperms
          | exact hepoch
          | exact Signature.strict_toValue _
    · rcases hf with ((rfl | rfl | rfl | rfl | rfl | rfl | rfl) | rfl) | rfl | rfl | rfl | rfl <;>
        first
          | exact strict_toUtf8_str _
          | exact hperms
          | exact strict_strings _
          | exact hepoch
          | exact Signature.strict_toValue _

/-- A grant can be signed if its times can be written and its epoch is an `int64`. -/
def Grant.Signable (g : Grant) : Prop :=
  g.notBefore.Marshals ∧ g.expiresAt.Marshals ∧ g.revocationEpoch.toNat < 2 ^ 63

theorem grantInput_eq_ok {b : Bytes} :
    grantInput g = .ok b ↔ g.Signable ∧ b = signedBytes typeTrustGrant g.fields := by
  simp only [grantInput, Grant.marshalJSON, bind_eq_ok_iff, failIf_eq_ok_iff, not_or, not_not,
    exists_const, Grant.Signable]
  constructor
  · rintro ⟨_, ⟨⟨hn, he⟩, ⟨⟩⟩, h⟩
    obtain ⟨hs, rfl⟩ := signatureInput_text_eq_ok.mp h
    exact ⟨⟨hn, he, Grant.strict_fields.mp hs⟩, rfl⟩
  · rintro ⟨⟨hn, he, hs⟩, rfl⟩
    exact ⟨_, ⟨⟨hn, he⟩, rfl⟩, signatureInput_text_eq_ok.mpr ⟨Grant.strict_fields.mpr hs, rfl⟩⟩

/-! ### Signed grants -/

variable {P}

/-- The grant without its signature. -/
def Grant.unsigned (g : Grant) : Grant := { g with signature := noSignature }

/-- **A grant signed with a private key**, under a key identifier. -/
structure Signed (P : Primitives) (priv : Ed25519PrivateKey) (kid : Str) (g : Grant) : Prop where
  type : g.type = typeTrustGrant
  signable : g.Signable
  signature : g.signature =
    ⟨lit "Ed25519", kid, base64URL (sign P priv (signedBytes typeTrustGrant g.unsigned.fields))⟩

theorem signed_of_signGrant {issuer : Device} {g' : Grant} (h : signGrant P issuer g = .ok g') :
    Signed P issuer.priv issuer.identity.publicKey.kid g' ∧
      g' = { g with
        type := typeTrustGrant
        issuer := issuer.identity.deviceID
        signature := g'.signature } := by
  simp only [signGrant, bind_eq_ok_iff, grantInput_eq_ok] at h
  obtain ⟨_, ⟨hs, rfl⟩, ⟨⟩⟩ := h
  exact ⟨⟨rfl, hs, rfl⟩, rfl⟩

theorem exists_signGrant (issuer : Device) (h : g.Signable) :
    ∃ g', signGrant P issuer g = .ok g' := by
  simp only [signGrant, bind_eq_ok_iff, grantInput_eq_ok]
  exact ⟨_, _, ⟨h, rfl⟩, rfl⟩

theorem Signed.exists_marshalJSON {kid : Str} (h : Signed P priv kid g) :
    ∃ raw, g.marshalJSON = .ok raw := by
  obtain ⟨hbefore, hafter, -⟩ := h.signable
  refine ⟨(Value.ofFields g.fields).text, ?_⟩
  simp only [Grant.marshalJSON, bind_eq_ok_iff, failIf_eq_ok_iff]
  exact ⟨(), by simp [hbefore, hafter], rfl⟩

/-- A grant is what a verifier expects, as far as its fields go. -/
structure Matches (g : Grant) (opts : VerifyOptions) : Prop where
  notBefore : g.notBefore.unixNano ≤ opts.now.unixNano
  notExpired : opts.now.unixNano < g.expiresAt.unixNano
  audience : g.audience = opts.audience
  subject : g.subjectDeviceID = opts.subjectDeviceID
  confirmation : g.confirmationThumbprint = opts.confirmationThumbprint
  permission : opts.permission ∈ g.permissions.getD []
  relay : g.relayConstraints ≠ [] → opts.relayID ∈ g.relayConstraints
  epoch : opts.currentRevocationEpoch ≤ g.revocationEpoch

/-- What `Iscp.Trust.verifyGrant` has checked, whoever signed the grant. -/
theorem matches_of_verifyGrant {u : Unit} (h : verifyGrant P g issuer opts = .ok u) :
    Matches g opts := by
  simp only [verifyGrant, bind_eq_ok_iff, failIf_eq_ok_iff, exists_const, ne_eq, not_or, not_not,
    not_and, not_lt, not_le, UInt64.not_lt, Time.before_iff] at h
  obtain ⟨-, ⟨hn, he⟩, ha, hs, hc, hp, hr, hepoch, -⟩ := h
  exact ⟨hn, he, ha, hs, hc, hp, hr, hepoch⟩

/-- **Verifying a grant that has been signed with the issuer's key** is comparing its
fields. -/
theorem Signed.verifyGrant_eq_ok (hs : P.SignsVerifiably) {pub : Ed25519PublicKey}
    (hpair : KeyPair P priv pub) {kid : Str} (hg : Signed P priv kid g)
    (hissuer : issuer.publicKey.pub = base64URL pub.key) {u : Unit} :
    verifyGrant P g issuer opts = .ok u ↔ Matches g opts := by
  refine ⟨matches_of_verifyGrant, fun h => ?_⟩
  have hsig : decodeBase64URL g.signature.value =
      .ok (sign P priv (signedBytes typeTrustGrant g.unsigned.fields)) := by
    rw [hg.signature]
    exact decodeBase64URL_base64URL _
  simp only [verifyGrant, bind_eq_ok_iff, failIf_eq_ok_iff, exists_const, ne_eq, not_or, not_not,
    not_and, not_lt, not_le, UInt64.not_lt, Time.before_iff, hissuer, decodeBase64URL_base64URL,
    hsig, ed25519PublicKeyFromBytes_eq_ok, grantInput_eq_ok, Bool.not_eq_false]
  refine ⟨hg.type, ⟨h.notBefore, h.notExpired⟩, h.audience, h.subject, h.confirmation,
    h.permission, h.relay, h.epoch, _, rfl, pub, rfl, _, rfl, _, ⟨hg.signable, rfl⟩, ?_⟩
  exact hs.verify_sign hpair _

end Trust

end Iscp
