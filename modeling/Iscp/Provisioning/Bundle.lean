import Iscp.Provisioning

/-!
# Local channels and bundles

A device that is set up next to another one gets what it needs in a bundle: descriptors, its
credentials, and its grant, each of them a document the bundle carries as text. The bundle is signed
by the issuer and names the device and the key it is for. `Iscp.Provisioning.applyBundle` takes it
over a local channel, of which it only asks whether it is ready.

The tickets of version 2 are here as well. They are signed as those of version 3 are, and say less.
-/

namespace Iscp

namespace Provisioning

open Go Go.Json Crypto Canonical Identity

/-! ### Tickets of version 2 -/

/-- `TypePairingTicket`. -/
def typePairingTicket : Str := lit "iscp.pairing_ticket.v2"

/-- **A pairing ticket of version 2.** -/
structure PairingTicket where
  type : Str
  ticketID : Str
  domainID : Str
  relayID : Str
  trustRootID : Str
  maxUses : ℤ
  issuedAt : Time
  expiresAt : Time
  signature : Signature
  deriving DecidableEq

/-- The members of a ticket's JSON. -/
def PairingTicket.fields (t : PairingTicket) : List (String × Value) :=
  [("type", .str t.type), ("ticket_id", .str t.ticketID), ("domain_id", .str t.domainID),
    ("relay_id", .str t.relayID), ("trust_root_id", .str t.trustRootID),
    ("max_uses", .int t.maxUses), ("issued_at", .str t.issuedAt.rfc3339Nano),
    ("expires_at", .str t.expiresAt.rfc3339Nano), ("signature", t.signature.toValue)]

/-- `signatureInput` of a ticket. -/
def pairingTicketInput (t : PairingTicket) : Except Error Bytes := do
  failIf (¬t.issuedAt.Marshals ∨ ¬t.expiresAt.Marshals)
    (marshalTimeError [t.issuedAt, t.expiresAt])
  signatureInput typePairingTicket (Value.ofFields t.fields).text

section Tickets

variable (P : Primitives)

/-- **`SignTicket`.** -/
def signTicket (issuer : Device) (ticket : PairingTicket) : Except Error PairingTicket := do
  let ticket := { ticket with type := typePairingTicket, signature := noSignature }
  let input ← pairingTicketInput ticket
  return { ticket with signature :=
    ⟨lit "Ed25519", issuer.identity.publicKey.kid, base64URL (sign P issuer.priv input)⟩ }

/-- **`VerifyTicket`.** -/
def verifyTicket (ticket : PairingTicket) (issuer : DeviceIdentity) (now : Time) :
    Except Error Unit := do
  failIf (ticket.type ≠ typePairingTicket) (invalid "invalid ticket type")
  failIf (now.before ticket.issuedAt ∨ ¬now.before ticket.expiresAt)
    (invalid "pairing ticket expired")
  let pubBytes ← decodeBase64URL issuer.publicKey.pub
  let pub ← ed25519PublicKeyFromBytes pubBytes
  let sig ← decodeBase64URL ticket.signature.value
  let input ← pairingTicketInput { ticket with signature := noSignature }
  failIf (verify P pub input sig = false) (invalid "pairing ticket signature failed")

end Tickets

/-! ### Bundles -/

/-- **A local channel**, as far as it is looked at here. -/
structure LocalChannel where
  ready : Bool
  deriving DecidableEq

/-- `TypeBundle`. -/
def typeBundle : Str := lit "iscp.provisioning.bundle.v2"

/-- **A bundle.** The documents in it are `json.RawMessage`s, which may be nil. -/
structure Bundle where
  type : Str
  bundleID : Str
  issuedToDeviceID : Str
  issuedToPublicKeyThumbprint : Str
  relayDescriptor : Option Bytes
  trustRootDescriptor : Option Bytes
  accessCredential : Option Bytes
  refreshCredentialWrapped : Str
  trustGrant : Option Bytes
  issuedAt : Time
  expiresAt : Time
  signature : Signature
  deriving DecidableEq

/-- The fields of a bundle, the signature apart. -/
def Bundle.body (b : Bundle) : Record :=
  [⟨"type", false, .string b.type⟩, ⟨"bundle_id", false, .string b.bundleID⟩,
    ⟨"issued_to_device_id", false, .string b.issuedToDeviceID⟩,
    ⟨"issued_to_public_key_thumbprint", false, .string b.issuedToPublicKeyThumbprint⟩,
    ⟨"relay_descriptor", false, .raw b.relayDescriptor⟩,
    ⟨"trust_root_descriptor", false, .raw b.trustRootDescriptor⟩,
    ⟨"access_credential", false, .raw b.accessCredential⟩,
    ⟨"refresh_credential_wrapped", false, .string b.refreshCredentialWrapped⟩,
    ⟨"trust_grant", false, .raw b.trustGrant⟩, ⟨"issued_at", false, .time b.issuedAt⟩,
    ⟨"expires_at", false, .time b.expiresAt⟩]

/-- A bundle as a struct. -/
def Bundle.record (b : Bundle) : Record :=
  b.body ++ [⟨"signature", false, b.signature.toField⟩]

section Bundles

variable (compact : Bytes → Option Bytes) (P : Primitives)

/-- `signatureInput` of a bundle. -/
def bundleInput (b : Bundle) : Except Error Bytes := structInput compact typeBundle b.record

/-- **`SignBundle`.** -/
def signBundle (issuer : Device) (bundle : Bundle) : Except Error Bundle := do
  let bundle := { bundle with type := typeBundle, signature := noSignature }
  let input ← bundleInput compact bundle
  return { bundle with signature :=
    ⟨lit "Ed25519", issuer.identity.publicKey.kid, base64URL (sign P issuer.priv input)⟩ }

/-- **`ApplyBundle`.** It does not look at the type of the bundle. -/
def applyBundle (channel : LocalChannel) (loc : DeviceIdentity) (bundle : Bundle)
    (issuer : DeviceIdentity) (now : Time) : Except Error Unit := do
  failIf (channel.ready = false) (invalid "local secure channel is not ready")
  failIf (now.before bundle.issuedAt ∨ ¬now.before bundle.expiresAt)
    (invalid "provisioning bundle expired")
  failIf (bundle.issuedToDeviceID ≠ loc.deviceID) (invalid "bundle device id mismatch")
  let tp ← thumbprint P loc
  failIf (bundle.issuedToPublicKeyThumbprint ≠ tp)
    (invalid "bundle public key thumbprint mismatch")
  let pubBytes ← decodeBase64URL issuer.publicKey.pub
  let pub ← ed25519PublicKeyFromBytes pubBytes
  let sig ← decodeBase64URL bundle.signature.value
  let input ← bundleInput compact { bundle with signature := noSignature }
  failIf (verify P pub input sig = false) (invalid "bundle signature failed")

end Bundles

end Provisioning

end Iscp
