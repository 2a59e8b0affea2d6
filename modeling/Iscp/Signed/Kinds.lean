import Iscp.Descriptor
import Iscp.Provisioning.Bundle
import Iscp.Session.Control
import Iscp.Signed

/-!
# The ten signed types

The structs that are signed, each with its fields in their order and with the `signatureInput` of
its package. What is left of `Iscp.SignedType` to prove for each of them is that the package
computes the input of the struct it is about.

`Iscp.Kind` lists the ten types, with what their signing functions make (`Iscp.Kind.Signs`) and what
their verifiers accept (`Iscp.Kind.Accepts`).
-/

namespace Iscp

open Go Go.Json Crypto Canonical Identity

section Fields

variable {compact : Bytes → Option Bytes} {t : Str} {body : Record} {signature : Signature}
  {fields : List (String × Value)} {marshals : Prop} {s : Bytes}

/-- A struct is written as the given members, if its times can be written. -/
def WritesFields (body : Record) (signature : Signature) (fields : List (String × Value))
    (marshals : Prop) : Prop :=
  (Record.TimesMarshal (body ++ [signature.field]) ↔ marshals) ∧
  (marshals → ((body ++ [signature.field]).filter StructField.shown).mapM
    StructField.plainMember = some fields)

theorem WritesFields.input_eq (h : WritesFields body signature fields marshals) :
    structInput compact t (body ++ [signature.field]) = .ok s ↔
      marshals ∧ signatureInput t (Value.ofFields fields).text = .ok s := by
  rw [structInput_of_plainMembers fun htimes => h.2 (h.1.mp htimes), h.1]

end Fields

theorem plainMember_strings (name : String) (omitEmpty : Bool) (l : Option (List Str)) :
    StructField.plainMember ⟨name, omitEmpty, .strings l⟩ =
      some (name, l.elim .null Trust.strings) := by
  cases l <;> rfl

theorem raw_refreshedField (compact : Bytes → Option Bytes) (name : String) (x : Option Bytes) :
    FieldValue.raw (refreshedField compact ⟨name, false, .raw x⟩).raw =
      (refreshedField compact ⟨name, false, .raw x⟩).value := by
  cases x <;> rfl

/-! ### Proofs -/

namespace Identity

@[simp] theorem Signature.shown_field (s : Signature) : s.field.shown = true := rfl

@[simp] theorem Signature.plainMember_field (s : Signature) :
    s.field.plainMember = some ("signature", s.toValue) := rfl

@[simp] theorem Signature.value_field_ne_time (s : Signature) (t : Time) :
    s.field.value ≠ .time t := nofun

/-- The fields of a proof, the signature apart. -/
def DeviceProof.body (p : DeviceProof) : Record :=
  [⟨"type", false, .string p.type⟩, ⟨"domain_id", false, .string p.domainID⟩,
    ⟨"device_id", false, .string p.deviceID⟩, ⟨"audience", false, .string p.audience⟩,
    ⟨"challenge", false, .string p.challenge⟩, ⟨"nonce", false, .string p.nonce⟩,
    ⟨"issued_at", false, .time p.issuedAt⟩]

/-- The proof with the given fields. -/
def DeviceProof.ofFields : Record → Signature → Option DeviceProof
  | [type, domainID, deviceID, audience, challenge, nonce, issuedAt], signature =>
    some ⟨type.string, domainID.string, deviceID.string, audience.string, challenge.string,
      nonce.string, issuedAt.time, signature⟩
  | _, _ => none

theorem DeviceProof.writesFields (p : DeviceProof) :
    WritesFields p.body p.signature p.fields p.issuedAt.Marshals := by
  refine ⟨by simp [Record.TimesMarshal, body], fun h => ?_⟩
  simp [body, fields, List.filter_cons, StructField.plainMember_time, h]

/-- **Device proofs.** -/
def deviceProof : SignedType DeviceProof where
  typeName := typeDeviceProof
  body := DeviceProof.body
  signature := DeviceProof.signature
  withSignature p s := { p with signature := s }
  ofFields := DeviceProof.ofFields
  input _ := proofInput
  zero := ⟨[], [], [], [], [], [], Time.zero, noSignature⟩
  nul_notMem := by decide
  zero_body _ := rfl
  signature_zero := rfl
  wellNamed := by decide
  body_withSignature _ _ := rfl
  signature_withSignature _ _ := rfl
  exists_ofFields _ _ _ := ⟨_, rfl, rfl, rfl⟩
  input_eq_ok {_ p _} := by
    rw [p.writesFields.input_eq]
    simp [proofInput, DeviceProof.marshalJSON, bind_eq_ok_iff, failIf_eq_ok_iff]

end Identity

/-! ### Grants -/

namespace Trust

/-- The fields of a grant, the signature apart. A slice without elements is not written. -/
def Grant.body (g : Grant) : Record :=
  [⟨"type", false, .string g.type⟩, ⟨"grant_id", false, .string g.grantID⟩,
    ⟨"issuer", false, .string g.issuer⟩, ⟨"subject_device_id", false, .string g.subjectDeviceID⟩,
    ⟨"audience", false, .string g.audience⟩,
    ⟨"confirmation_thumbprint", false, .string g.confirmationThumbprint⟩,
    ⟨"permissions", false, .strings g.permissions⟩,
    ⟨"relay_constraints", true, .strings (if g.relayConstraints = [] then none
      else some g.relayConstraints)⟩,
    ⟨"not_before", false, .time g.notBefore⟩, ⟨"expires_at", false, .time g.expiresAt⟩,
    ⟨"revocation_epoch", false, .uint g.revocationEpoch.toNat⟩]

/-- The grant with the given fields. -/
def Grant.ofFields : Record → Signature → Option Grant
  | [type, grantID, issuer, subjectDeviceID, audience, confirmationThumbprint, permissions,
      relayConstraints, notBefore, expiresAt, revocationEpoch], signature =>
    some ⟨type.string, grantID.string, issuer.string, subjectDeviceID.string, audience.string,
      confirmationThumbprint.string, permissions.strings, relayConstraints.strings.getD [],
      notBefore.time, expiresAt.time, .ofNat revocationEpoch.uint, signature⟩
  | _, _ => none

theorem Grant.writesFields (g : Grant) : WritesFields g.body g.signature g.fields
    (g.notBefore.Marshals ∧ g.expiresAt.Marshals) := by
  refine ⟨by simp [Record.TimesMarshal, body], ?_⟩
  rintro ⟨hn, he⟩
  by_cases hc : g.relayConstraints = [] <;>
    simp [body, fields, List.filter_cons, StructField.plainMember_time, plainMember_strings, hn, he,
      hc, FieldValue.isEmpty]

/-- **Grants.** -/
def grant : SignedType Grant where
  typeName := typeTrustGrant
  body := Grant.body
  signature := Grant.signature
  withSignature g s := { g with signature := s }
  ofFields := Grant.ofFields
  input _ := grantInput
  zero := ⟨[], [], [], [], [], [], none, [], Time.zero, Time.zero, 0, noSignature⟩
  nul_notMem := by decide
  zero_body _ := rfl
  signature_zero := rfl
  wellNamed := by decide
  body_withSignature _ _ := rfl
  signature_withSignature _ _ := rfl
  exists_ofFields compact g s := by
    refine ⟨_, rfl, ?_, rfl⟩
    by_cases hc : g.relayConstraints = [] <;>
      simp [Grant.body, refreshed, refreshedField, hc, FieldValue.isEmpty, FieldValue.refreshed,
        FieldValue.zero, StructField.string, StructField.strings, StructField.time,
        StructField.uint]
  input_eq_ok {_ g _} := by
    rw [g.writesFields.input_eq]
    simp [grantInput, Grant.marshalJSON, bind_eq_ok_iff, failIf_eq_ok_iff]

end Trust

/-! ### Tickets and bundles -/

namespace Provisioning

/-- The fields of a ticket, the signature apart. -/
def PairingTicket.body (t : PairingTicket) : Record :=
  [⟨"type", false, .string t.type⟩, ⟨"ticket_id", false, .string t.ticketID⟩,
    ⟨"domain_id", false, .string t.domainID⟩, ⟨"relay_id", false, .string t.relayID⟩,
    ⟨"trust_root_id", false, .string t.trustRootID⟩, ⟨"max_uses", false, .int t.maxUses⟩,
    ⟨"issued_at", false, .time t.issuedAt⟩, ⟨"expires_at", false, .time t.expiresAt⟩]

/-- The ticket with the given fields. -/
def PairingTicket.ofFields : Record → Signature → Option PairingTicket
  | [type, ticketID, domainID, relayID, trustRootID, maxUses, issuedAt, expiresAt], signature =>
    some ⟨type.string, ticketID.string, domainID.string, relayID.string, trustRootID.string,
      maxUses.int, issuedAt.time, expiresAt.time, signature⟩
  | _, _ => none

theorem PairingTicket.writesFields (t : PairingTicket) : WritesFields t.body t.signature t.fields
    (t.issuedAt.Marshals ∧ t.expiresAt.Marshals) := by
  refine ⟨by simp [Record.TimesMarshal, body], ?_⟩
  rintro ⟨hi, he⟩
  simp [body, fields, List.filter_cons, StructField.plainMember_time, hi, he]

/-- **Tickets of version 2.** -/
def pairingTicket : SignedType PairingTicket where
  typeName := typePairingTicket
  body := PairingTicket.body
  signature := PairingTicket.signature
  withSignature t s := { t with signature := s }
  ofFields := PairingTicket.ofFields
  input _ := pairingTicketInput
  zero := ⟨[], [], [], [], [], 0, Time.zero, Time.zero, noSignature⟩
  nul_notMem := by decide
  zero_body _ := rfl
  signature_zero := rfl
  wellNamed := by decide
  body_withSignature _ _ := rfl
  signature_withSignature _ _ := rfl
  exists_ofFields _ _ _ := ⟨_, rfl, rfl, rfl⟩
  input_eq_ok {_ t _} := by
    rw [t.writesFields.input_eq]
    simp [pairingTicketInput, bind_eq_ok_iff, failIf_eq_ok_iff]

/-- The fields of a ticket, the signature apart. -/
def PairingTicketV3.body (t : PairingTicketV3) : Record :=
  [⟨"type", false, .string t.type⟩, ⟨"ticket_id", false, .string t.ticketID⟩,
    ⟨"domain_id", false, .string t.domainID⟩, ⟨"relay_id", false, .string t.relayID⟩,
    ⟨"trust_root_id", false, .string t.trustRootID⟩, ⟨"purpose", false, .string t.purpose⟩,
    ⟨"consumer_role", false, .string t.consumerRole⟩,
    ⟨"grant_audience", false, .string t.grantAudience⟩,
    ⟨"grant_permissions", false, .strings t.grantPermissions⟩,
    ⟨"grant_ttl_seconds", true, .int t.grantTTLSeconds⟩, ⟨"max_uses", false, .int t.maxUses⟩,
    ⟨"issued_at", false, .time t.issuedAt⟩, ⟨"expires_at", false, .time t.expiresAt⟩]

/-- The ticket with the given fields. -/
def PairingTicketV3.ofFields : Record → Signature → Option PairingTicketV3
  | [type, ticketID, domainID, relayID, trustRootID, purpose, consumerRole, grantAudience,
      grantPermissions, grantTTLSeconds, maxUses, issuedAt, expiresAt], signature =>
    some ⟨type.string, ticketID.string, domainID.string, relayID.string, trustRootID.string,
      purpose.string, consumerRole.string, grantAudience.string, grantPermissions.strings,
      grantTTLSeconds.int, maxUses.int, issuedAt.time, expiresAt.time, signature⟩
  | _, _ => none

theorem PairingTicketV3.writesFields (t : PairingTicketV3) :
    WritesFields t.body t.signature t.fields (t.issuedAt.Marshals ∧ t.expiresAt.Marshals) := by
  refine ⟨by simp [Record.TimesMarshal, body], ?_⟩
  rintro ⟨hi, he⟩
  by_cases httl : t.grantTTLSeconds = 0 <;>
    simp [body, fields, List.filter_cons, StructField.plainMember_time, plainMember_strings, hi, he,
      httl, FieldValue.isEmpty]

/-- **Tickets of version 3.** -/
def pairingTicketV3 : SignedType PairingTicketV3 where
  typeName := typePairingTicketV3
  body := PairingTicketV3.body
  signature := PairingTicketV3.signature
  withSignature t s := { t with signature := s }
  ofFields := PairingTicketV3.ofFields
  input _ := ticketInput
  zero := ⟨[], [], [], [], [], [], [], [], none, 0, 0, Time.zero, Time.zero, noSignature⟩
  nul_notMem := by decide
  zero_body _ := rfl
  signature_zero := rfl
  wellNamed := by decide
  body_withSignature _ _ := rfl
  signature_withSignature _ _ := rfl
  exists_ofFields compact t s := by
    refine ⟨_, rfl, ?_, rfl⟩
    by_cases httl : t.grantTTLSeconds = 0 <;>
      simp [PairingTicketV3.body, refreshed, refreshedField, httl, FieldValue.isEmpty,
        FieldValue.refreshed, FieldValue.zero, StructField.string, StructField.strings,
        StructField.time, StructField.int]
  input_eq_ok {_ t _} := by
    rw [t.writesFields.input_eq]
    simp [ticketInput, bind_eq_ok_iff, failIf_eq_ok_iff]

/-- The bundle with the given fields. -/
def Bundle.ofFields : Record → Signature → Option Bundle
  | [type, bundleID, issuedToDeviceID, issuedToPublicKeyThumbprint, relayDescriptor,
      trustRootDescriptor, accessCredential, refreshCredentialWrapped, trustGrant, issuedAt,
      expiresAt], signature =>
    some ⟨type.string, bundleID.string, issuedToDeviceID.string, issuedToPublicKeyThumbprint.string,
      relayDescriptor.raw, trustRootDescriptor.raw, accessCredential.raw,
      refreshCredentialWrapped.string, trustGrant.raw, issuedAt.time, expiresAt.time, signature⟩
  | _, _ => none

/-- **Bundles.** -/
def bundle : SignedType Bundle where
  typeName := typeBundle
  body := Bundle.body
  signature := Bundle.signature
  withSignature b s := { b with signature := s }
  ofFields := Bundle.ofFields
  input := bundleInput
  zero := ⟨[], [], [], [], none, none, none, [], none, Time.zero, Time.zero, noSignature⟩
  nul_notMem := by decide
  zero_body _ := rfl
  signature_zero := rfl
  wellNamed := by decide
  body_withSignature _ _ := rfl
  signature_withSignature _ _ := rfl
  exists_ofFields compact b s := by
    refine ⟨_, rfl, ?_, rfl⟩
    simp only [Bundle.body, refreshed, List.map_cons, List.map_nil, raw_refreshedField]
    rfl
  input_eq_ok := Iff.rfl

end Provisioning

/-! ### Sessions -/

namespace Session

/-- The fields of a hello, the signature apart. -/
def Hello.body (h : Hello) : Record :=
  [⟨"type", false, .string h.type⟩, ⟨"session_id", false, .string h.sessionID⟩,
    ⟨"domain_id", false, .string h.domainID⟩, ⟨"device_id", false, .string h.deviceID⟩,
    ⟨"peer_device_id", false, .string h.peerDeviceID⟩,
    ⟨"ciphersuite", false, .string h.ciphersuite⟩,
    ⟨"ephemeral_public_key", false, .string h.ephemeralPublicKey⟩,
    ⟨"grant_id", false, .string h.grantID⟩, ⟨"issued_at", false, .time h.issuedAt⟩]

/-- The hello with the given fields. -/
def Hello.ofFields : Record → Signature → Option Hello
  | [type, sessionID, domainID, deviceID, peerDeviceID, ciphersuite, ephemeralPublicKey, grantID,
      issuedAt], signature =>
    some ⟨type.string, sessionID.string, domainID.string, deviceID.string, peerDeviceID.string,
      ciphersuite.string, ephemeralPublicKey.string, grantID.string, issuedAt.time, signature⟩
  | _, _ => none

theorem Hello.writesFields (h : Hello) :
    WritesFields h.body h.signature h.fields h.issuedAt.Marshals := by
  refine ⟨by simp [Record.TimesMarshal, body], fun hi => ?_⟩
  simp [body, fields, List.filter_cons, StructField.plainMember_time, hi]

/-- **Hellos.** -/
def hello : SignedType Hello where
  typeName := typeHello
  body := Hello.body
  signature := Hello.signature
  withSignature h s := { h with signature := s }
  ofFields := Hello.ofFields
  input _ := helloInput
  zero := ⟨[], [], [], [], [], [], [], [], Time.zero, noSignature⟩
  nul_notMem := by decide
  zero_body _ := rfl
  signature_zero := rfl
  wellNamed := by decide
  body_withSignature _ _ := rfl
  signature_withSignature _ _ := rfl
  exists_ofFields _ _ _ := ⟨_, rfl, rfl, rfl⟩
  input_eq_ok {_ h _} := by
    rw [h.writesFields.input_eq]
    simp [helloInput, Hello.marshalJSON, bind_eq_ok_iff, failIf_eq_ok_iff]

/-- The fields of a ready message, the signature apart. -/
def Ready.body (r : Ready) : Record :=
  [⟨"type", false, .string r.type⟩, ⟨"session_id", false, .string r.sessionID⟩,
    ⟨"device_id", false, .string r.deviceID⟩, ⟨"transcript_hash", false, .string r.transcriptHash⟩,
    ⟨"ready_mac", false, .string r.readyMAC⟩]

/-- The ready message with the given fields. -/
def Ready.ofFields : Record → Signature → Option Ready
  | [type, sessionID, deviceID, transcriptHash, readyMAC], signature =>
    some ⟨type.string, sessionID.string, deviceID.string, transcriptHash.string, readyMAC.string,
      signature⟩
  | _, _ => none

theorem Ready.writesFields (r : Ready) : WritesFields r.body r.signature r.fields True := by
  refine ⟨by simp [Record.TimesMarshal, body], fun _ => ?_⟩
  simp [body, fields, List.filter_cons]

/-- **Ready messages.** -/
def ready : SignedType Ready where
  typeName := typeReady
  body := Ready.body
  signature := Ready.signature
  withSignature r s := { r with signature := s }
  ofFields := Ready.ofFields
  input _ := readyInput
  zero := ⟨[], [], [], [], [], noSignature⟩
  nul_notMem := by decide
  zero_body _ := rfl
  signature_zero := rfl
  wellNamed := by decide
  body_withSignature _ _ := rfl
  signature_withSignature _ _ := rfl
  exists_ofFields _ _ _ := ⟨_, rfl, rfl, rfl⟩
  input_eq_ok {_ r _} := by
    rw [r.writesFields.input_eq, true_and, readyInput]

variable {kind : ControlKind}

/-- The fields of a frame, the signature apart. -/
def ControlFrame.body (f : ControlFrame kind) : Record :=
  [⟨"type", false, .string f.type⟩, ⟨kind.idName, false, .string f.id⟩,
    ⟨"domain_id", false, .string f.domainID⟩, ⟨"device_id", false, .string f.deviceID⟩,
    ⟨"peer_device_id", false, .string f.peerDeviceID⟩, ⟨"relay_id", false, .string f.relayID⟩,
    ⟨kind.causeName, false, .string f.cause⟩, ⟨"issued_at", false, .time f.issuedAt⟩,
    ⟨"expires_at", false, .time f.expiresAt⟩, ⟨"nonce", false, .string f.nonce⟩]

/-- The frame with the given fields. -/
def ControlFrame.ofFields : Record → Signature → Option (ControlFrame kind)
  | [type, id, domainID, deviceID, peerDeviceID, relayID, cause, issuedAt, expiresAt, nonce],
      signature =>
    some ⟨type.string, id.string, domainID.string, deviceID.string, peerDeviceID.string,
      relayID.string, cause.string, issuedAt.time, expiresAt.time, nonce.string, signature⟩
  | _, _ => none

theorem ControlFrame.writesFields (f : ControlFrame kind) : WritesFields f.body f.signature f.fields
    (f.issuedAt.Marshals ∧ f.expiresAt.Marshals) := by
  refine ⟨by simp [Record.TimesMarshal, body], ?_⟩
  rintro ⟨hi, he⟩
  simp [body, fields, List.filter_cons, StructField.plainMember_time, hi, he]

/-- **Control frames**, of either kind. -/
def controlFrame (kind : ControlKind) : SignedType (ControlFrame kind) where
  typeName := kind.type
  body := ControlFrame.body
  signature := ControlFrame.signature
  withSignature f s := { f with signature := s }
  ofFields := ControlFrame.ofFields
  input _ := controlInput
  zero := ⟨[], [], [], [], [], [], [], Time.zero, Time.zero, [], noSignature⟩
  nul_notMem := by cases kind <;> decide
  zero_body _ := rfl
  signature_zero := rfl
  wellNamed := by cases kind <;> decide
  body_withSignature _ _ := rfl
  signature_withSignature _ _ := rfl
  exists_ofFields _ _ _ := ⟨_, rfl, rfl, rfl⟩
  input_eq_ok {_ f _} := by
    rw [f.writesFields.input_eq]
    simp [controlInput, bind_eq_ok_iff, failIf_eq_ok_iff]

end Session

/-! ### Descriptors -/

namespace Descriptor

/-- The fields of a signed descriptor, the signature apart. -/
def SignedDescriptor.body (sd : SignedDescriptor) : Record :=
  [⟨"type", false, .string sd.type⟩, ⟨"descriptor_type", false, .string sd.descriptorType⟩,
    ⟨"descriptor", false, .raw sd.descriptor⟩, ⟨"signed_by", false, .string sd.signedBy⟩,
    ⟨"signed_at", false, .time sd.signedAt⟩]

/-- The descriptor with the given fields. -/
def SignedDescriptor.ofFields : Record → Signature → Option SignedDescriptor
  | [type, descriptorType, descriptor, signedBy, signedAt], signature =>
    some ⟨type.string, descriptorType.string, descriptor.raw, signedBy.string, signedAt.time,
      signature⟩
  | _, _ => none

/-- **Signed descriptors.** -/
def signedDescriptor : SignedType SignedDescriptor where
  typeName := typeSignedDescriptor
  body := SignedDescriptor.body
  signature := SignedDescriptor.signature
  withSignature sd s := { sd with signature := s }
  ofFields := SignedDescriptor.ofFields
  input := descriptorInput
  zero := ⟨[], [], none, [], Time.zero, noSignature⟩
  nul_notMem := by decide
  zero_body _ := rfl
  signature_zero := rfl
  wellNamed := by decide
  body_withSignature _ _ := rfl
  signature_withSignature _ _ := rfl
  exists_ofFields compact sd _ := by
    refine ⟨_, rfl, ?_, rfl⟩
    simp only [SignedDescriptor.body, refreshed, List.map_cons, List.map_nil,
      raw_refreshedField]
    rfl
  input_eq_ok := Iff.rfl

end Descriptor

end Iscp
