import Iscp.Trust

/-!
# Pairing tickets

A ticket lets a device register with a relay, as often as it says. A ticket of version 3 is
signed by the Trust Root and says beside that what the device is to become: in which domain, at
which relay, in which role, and what grant it will get. `Iscp.Provisioning.verifyTicketV3`
checks the ticket, `Iscp.Provisioning.bindGrantRoles` the device that presents it.
-/

namespace Iscp

namespace Provisioning

open Go Go.Json Crypto Canonical Identity

/-- `TypePairingTicketV3`. -/
def typePairingTicketV3 : Str := lit "iscp.pairing_ticket.v3"

/-- `PurposeInvite`. -/
def purposeInvite : Str := lit "invite"

/-- **A pairing ticket.** The permissions may be a nil slice, which JSON tells from an empty
one; a TTL of zero is left out of the JSON. -/
structure PairingTicketV3 where
  type : Str
  ticketID : Str
  domainID : Str
  relayID : Str
  trustRootID : Str
  purpose : Str
  consumerRole : Str
  grantAudience : Str
  grantPermissions : Option (List Str)
  grantTTLSeconds : ℤ
  maxUses : ℤ
  issuedAt : Time
  expiresAt : Time
  signature : Signature
  deriving DecidableEq

/-- The members of a ticket's JSON. -/
def PairingTicketV3.fields (t : PairingTicketV3) : List (String × Value) :=
  [("type", .str t.type), ("ticket_id", .str t.ticketID), ("domain_id", .str t.domainID),
    ("relay_id", .str t.relayID), ("trust_root_id", .str t.trustRootID),
    ("purpose", .str t.purpose), ("consumer_role", .str t.consumerRole),
    ("grant_audience", .str t.grantAudience),
    ("grant_permissions", t.grantPermissions.elim .null Trust.strings)] ++
  (if t.grantTTLSeconds = 0 then [] else [("grant_ttl_seconds", .int t.grantTTLSeconds)]) ++
  [("max_uses", .int t.maxUses), ("issued_at", .str t.issuedAt.rfc3339Nano),
    ("expires_at", .str t.expiresAt.rfc3339Nano), ("signature", t.signature.toValue)]

/-- `signatureInput` of a ticket. -/
def ticketInput (t : PairingTicketV3) : Except Error Bytes := do
  failIf (¬t.issuedAt.Marshals ∨ ¬t.expiresAt.Marshals)
    (marshalTimeError [t.issuedAt, t.expiresAt])
  signatureInput typePairingTicketV3 (Value.ofFields t.fields).text

variable (P : Primitives)

/-- **`SignTicketV3`.** -/
def signTicketV3 (issuer : Device) (ticket : PairingTicketV3) : Except Error PairingTicketV3 := do
  let ticket := { ticket with type := typePairingTicketV3, signature := noSignature }
  let input ← ticketInput ticket
  return { ticket with signature :=
    ⟨lit "Ed25519", issuer.identity.publicKey.kid, base64URL (sign P issuer.priv input)⟩ }

/-- An error of this package. -/
def invalid (message : String) : Error := .new .provisionInvalid (lit message)

/-- **`VerifyTicketV3`.** -/
def verifyTicketV3 (ticket : PairingTicketV3) (issuer : DeviceIdentity) (now : Time) :
    Except Error Unit := do
  failIf (ticket.type ≠ typePairingTicketV3) (invalid "invalid ticket type")
  failIf (ticket.purpose ≠ purposeInvite) (invalid "unsupported ticket purpose")
  failIf (ticket.consumerRole = []) (invalid "ticket consumer role is required")
  failIf (ticket.grantAudience = []) (invalid "ticket grant audience is required")
  failIf (ticket.grantPermissions.getD [] = []) (invalid "ticket grant permissions are required")
  failIf (ticket.grantTTLSeconds < 0) (invalid "ticket grant ttl must not be negative")
  failIf (now.before ticket.issuedAt ∨ ¬now.before ticket.expiresAt)
    (invalid "pairing ticket expired")
  let pubBytes ← decodeBase64URL issuer.publicKey.pub
  let pub ← ed25519PublicKeyFromBytes pubBytes
  let sig ← decodeBase64URL ticket.signature.value
  let input ← ticketInput { ticket with signature := noSignature }
  failIf (verify P pub input sig = false) (invalid "pairing ticket signature failed")

/-- What a grant made from a ticket is bound to. -/
structure GrantRoleBindings where
  subjectDeviceID : Str
  confirmationThumbprint : Str
  audience : Str
  permissions : Option (List Str)
  relayID : Str

/-- **`BindGrantRoles`.** -/
def bindGrantRoles (ticket : PairingTicketV3) (consumer : DeviceIdentity) :
    Except Error GrantRoleBindings := do
  failIf (consumer.domainID ≠ ticket.domainID)
    (invalid "ticket domain does not match consumer domain")
  failIf (consumer.deviceID = ticket.grantAudience)
    (invalid "ticket grant audience must not be the consuming device")
  let tp ← thumbprint P consumer
  return ⟨consumer.deviceID, tp, ticket.grantAudience, ticket.grantPermissions, ticket.relayID⟩

end Provisioning

end Iscp
