import Iscp.Go.Sort
import Iscp.Keyring
import Iscp.Service
import Iscp.Trust

/-!
# The Trust Root

The server that knows which devices there are, authorizes them by signing grants, and revokes
devices and grants. It keeps its records in memory, and in a database beside them if it has
one (`Iscp.TrustRoot.Config.repo`).

The handlers are those of the source, section by section: what stands under the mutex `s.mu`
is one section, as is a statement, a reading of the clock or a call of the key ring, which has
a mutex of its own. Requests arrive decoded; what is not one – another method, a body that is
no JSON – is answered without touching the state, and so is what the rate limiter refuses.
-/

namespace Iscp

namespace TrustRoot

open Go Crypto Identity Replay Keyring Service Trust

/-! ### Policy -/

/-- A rule of the policy, as far as it is consulted. -/
structure PermissionRule where
  maxTTL : Duration

/-- `Rule` of the default engine. -/
def policyRule (permission : Str) : Except Error PermissionRule :=
  if permission = lit "text" then .ok ⟨hour⟩
  else if permission = lit "audio.frame" then .ok ⟨5 * minute⟩
  else .error (.new .trustInvalid (lit "permission is not allowed by policy"))

/-! ### State -/

/-- **The configuration of a Trust Root.** With `repo` it has a database. -/
structure Config where
  domainID : Str
  trustRootID : Str
  profileGate : Gate
  adminToken : Str
  /-- Whether there is a database. -/
  repo : Bool

/-- The statuses of a device. That of a record that is not there is `none`; a row may be `disabled`,
which no request makes it. -/
inductive Status where
  | none
  | submitted
  | authorized
  | revoked
  | disabled
  deriving DecidableEq

/-- **What is known of a device.** -/
structure DeviceRecord where
  identity : DeviceIdentity
  status : Status
  deviceRecordVersion : UInt64
  revocationEpoch : UInt64
  deriving DecidableEq

/-- `DeviceIdentity{}`. -/
def zeroIdentity : DeviceIdentity := ⟨[], [], [], ⟨[], [], [], []⟩, Time.zero, []⟩

/-- `deviceRecord{}`. -/
def zeroRecord : DeviceRecord := ⟨zeroIdentity, .none, 0, 0⟩

/-- What has been revoked. -/
inductive Subject where
  | device (deviceID : Str)
  | grant (grantID : Str)
  deriving DecidableEq

/-- An item of the revocation feed. -/
structure RevocationItem where
  revocationID : Str
  domainID : Str
  subject : Subject
  reasonCode : Str
  effectiveAt : Time

/-- What the audit log speaks of. -/
inductive AuditEvent where
  | deviceSubmit
  | deviceAuthorize
  | deviceRevoke
  | grantRevoke

/-- An entry of the audit log. -/
structure AuditEntry where
  eventType : AuditEvent
  subjectID : Str
  createdAt : Time

/-- A row of `iscp_trust.devices`. The identity is what its raw column reads back as. -/
structure TrustDevice where
  identity : DeviceIdentity
  status : Status
  deviceRecordVersion : ℤ
  revocationEpoch : ℤ

/-- A row of `iscp_trust.grants`. -/
structure TrustGrant where
  grant : Grant
  revocationEpoch : ℤ
  revokedAt : Option Time

/-- A row of `iscp_trust.revocations`. -/
structure TrustRevocation where
  id : Str
  domainID : Str
  subject : Subject
  revocationEpoch : ℤ
  reason : Str
  createdAt : Time

/-- **The database.** Devices and grants have their domain in the key. -/
structure Database where
  devices : Str × Str → Option TrustDevice
  grants : Str × Str → Option TrustGrant
  revocations : List TrustRevocation
  popReplayCache : Table

/-- **The state of the server.** -/
structure State where
  signer : Device
  replay : Cache
  keys : Ring
  devices : Map DeviceRecord
  grants : Map Grant
  revokedGrants : Map Unit
  revocationLog : List RevocationItem
  audit : List AuditEntry
  db : Database

/-- The record of a device, which is empty if there is none. -/
def State.record (s : State) (deviceID : Str) : DeviceRecord :=
  (s.devices deviceID).getD zeroRecord

theorem State.record_of_some {s : State} {d : Str} {record : DeviceRecord}
    (h : s.devices d = some record) : s.record d = record := by
  rw [State.record, h, Option.getD_some]

/-- What goes on record of a section. -/
inductive Event where
  /-- The nonce of a proof was used. -/
  | used (proof : DeviceProof) (ttl : Duration) (now : Time) (isNew : Bool)
  /-- An identity was entered. -/
  | submitted (identity : DeviceIdentity)
  /-- A device was found to be authorizable, and has this record now. -/
  | checked (deviceID : Str) (record : DeviceRecord)
  /-- A key was chosen to sign with. -/
  | selected (key : Key)
  /-- A grant was signed. -/
  | signed (grant : Grant)
  /-- A grant was entered. -/
  | issued (grant : Grant)
  /-- A device was revoked. -/
  | revokedDevice (deviceID : Str)
  /-- A grant was revoked. -/
  | revokedGrant (grantID : Str)
  /-- The record of a device was looked up to verify a grant. -/
  | consulted (deviceID : Str) (record : DeviceRecord)
  /-- A key was added. -/
  | added (key : Key)
  /-- A key was made the active one. -/
  | rotated (keyID : Str)

/-! ### Responses -/

/-- What is reported of a device. -/
structure DeviceStatusResponse where
  identity : DeviceIdentity
  domainID : Str
  deviceID : Str
  status : Status
  publicKey : PublicKey
  deviceRecordVersion : UInt64
  revocationEpoch : UInt64

/-- The statuses of a grant. -/
inductive GrantStatus where
  | active
  | revoked
  | expired
  deriving DecidableEq

/-- The bodies of responses. -/
inductive Body where
  | device (record : DeviceRecord)
  | authorization (record : DeviceRecord) (grant : Grant)
  | valid
  | deviceStatus (response : DeviceStatusResponse)
  | grantStatus (status : GrantStatus) (raw : Bytes)
  | activeKey (keyID : Str)
  | audit (entries : List AuditEntry)
  /-- A page of the revocation feed; an empty cursor is left out. -/
  | revocations (items : List RevocationItem) (nextCursor : Str)

/-- A handler of the Trust Root, with the early returns `ω`. -/
abbrev Run (ω α : Type) := Handler State Env Event ω α

/-- What a request is answered with. -/
abbrev Answer := Response Body

variable (P : Primitives) (cfg : Config)

/-! ### The repository -/

/-- `pgx.ErrNoRows`. -/
def errNoRows : Error := .plain "no rows in result set"

/-- The bounds of a `bigint`. -/
def bigint (n : ℤ) : Except Error ℤ := do
  failIf (n < -2 ^ 63 ∨ 2 ^ 63 ≤ n) sqlError
  return n

/-- A statement, for a domain that is not empty. -/
def statement {α : Type} (domainID : Str)
    (f : Env → Database → Except Error (Database × α)) : Run Error α := do
  requireDomain domainID
  sql fun e s => do
    let r ← f e s.db
    return ({ s with db := r.1 }, r.2, [])

/-- `SubmitDevice`: an upsert that leaves status, version and epoch of a row alone. -/
def Database.submitDevice (db : Database) (id : DeviceIdentity) : Database :=
  let row := match db.devices (id.domainID, id.deviceID) with
    | some row => { row with identity := id }
    | none => ⟨id, .submitted, 1, 0⟩
  { db with devices := Function.update db.devices (id.domainID, id.deviceID) (some row) }

/-- `AuthorizeDevice`. -/
def Database.authorizeDevice (db : Database) (domainID deviceID : Str) :
    Except Error (Database × TrustDevice) :=
  match db.devices (domainID, deviceID) with
  | none => .error errNoRows
  | some row => do
    failIf (row.status = .revoked) errNoRows
    let version ← bigint (row.deviceRecordVersion + 1)
    let row := { row with status := .authorized, deviceRecordVersion := version }
    return ({ db with devices := Function.update db.devices (domainID, deviceID) (some row) }, row)

/-- The first statement of `RevokeDevice`. -/
def Database.revokeDevice (db : Database) (domainID deviceID : Str) : Except Error Database :=
  match db.devices (domainID, deviceID) with
  | none => .ok db
  | some row => do
    let version ← bigint (row.deviceRecordVersion + 1)
    let epoch ← bigint (row.revocationEpoch + 1)
    let row := { row with
      status := .revoked, deviceRecordVersion := version, revocationEpoch := epoch }
    return { db with devices := Function.update db.devices (domainID, deviceID) (some row) }

/-- A row is added to the feed, unless one of its unique columns is there already. -/
def Database.addRevocation (db : Database) (row : TrustRevocation) : Except Error Database := do
  failIf (∃ r ∈ db.revocations, r.id = row.id ∨ (r.domainID = row.domainID ∧
    r.subject = row.subject ∧ r.revocationEpoch = row.revocationEpoch)) sqlError
  return { db with revocations := db.revocations ++ [row] }

/-- `StoreGrant`: an upsert that leaves the revocation of a row alone. -/
def Database.storeGrant (db : Database) (domainID : Str) (grant : Grant) (epoch : ℤ) : Database :=
  let row := match db.grants (domainID, grant.grantID) with
    | some row => { row with grant := grant, revocationEpoch := epoch }
    | none => ⟨grant, epoch, none⟩
  { db with grants := Function.update db.grants (domainID, grant.grantID) (some row) }

/-- The first statement of `RevokeGrant`. -/
def Database.revokeGrant (db : Database) (domainID grantID : Str) (now : Time) :
    Except Error Database :=
  match db.grants (domainID, grantID) with
  | none => .error errNoRows
  | some row => do
    failIf row.revokedAt.isSome errNoRows
    let row := { row with revokedAt := some (timestamptz now) }
    return { db with grants := Function.update db.grants (domainID, grantID) (some row) }

/-- `RevokeDevice`: two statements. -/
def repoRevokeDevice (revocationID deviceID reason : Str) (now : Time) : Run Error Unit := do
  statement cfg.domainID fun _ db => do
    let db ← db.revokeDevice cfg.domainID deviceID
    return (db, ())
  statement cfg.domainID fun _ db => match db.devices (cfg.domainID, deviceID) with
    | none => .ok (db, ())
    | some row => do
      let db ← db.addRevocation
        ⟨revocationID, cfg.domainID, .device deviceID, row.revocationEpoch, reason, timestamptz now⟩
      return (db, ())

/-- `RevokeGrant`: two statements. -/
def repoRevokeGrant (revocationID grantID reason : Str) (now : Time) : Run Error Unit := do
  statement cfg.domainID fun _ db => do
    let db ← db.revokeGrant cfg.domainID grantID now
    return (db, ())
  statement cfg.domainID fun _ db => match db.grants (cfg.domainID, grantID) with
    | none => .ok (db, ())
    | some row => do
      let db ← db.addRevocation
        ⟨revocationID, cfg.domainID, .grant grantID, row.revocationEpoch, reason, timestamptz now⟩
      return (db, ())

/-- `deviceRecordFromRepository`. -/
def deviceRecordFromRepository (device : TrustDevice) : Option DeviceRecord :=
  if device.deviceRecordVersion < 0 ∨ device.revocationEpoch < 0 then none
  else some ⟨device.identity, device.status, UInt64.ofNat device.deviceRecordVersion.toNat,
    UInt64.ofNat device.revocationEpoch.toNat⟩

/-- What `GetDevice` finds, if it does not fail. -/
def getDevice (e : Env) (db : Database) (deviceID : Str) : Except Error (Option TrustDevice) := do
  failIf (cfg.domainID = []) (.new .storageInvalid (lit "domain_id is required"))
  failIf e.sqlFails sqlError
  return db.devices (cfg.domainID, deviceID)

/-- The rows of the feed that come after a cursor, in the order of their identifiers. -/
def Database.revocationsAfter (db : Database) (domainID afterID : Str) (ties : ℕ → ℕ) :
    List TrustRevocation :=
  sortSlice (fun r r' => r.id < r'.id) ties
    (db.revocations.filter fun r => r.domainID = domainID ∧ (afterID = [] ∨ afterID < r.id))

/-- What `ListRevocations` finds, if it does not fail. An identifier is a UUID in lower case, so
that the order of the identifiers is that of their texts. -/
def listRevocations (e : Env) (db : Database) (afterID : Str) (limit : ℕ) :
    Except Error (List TrustRevocation) := do
  failIf (cfg.domainID = []) (.new .storageInvalid (lit "domain_id is required"))
  failIf e.sqlFails sqlError
  let limit := if limit = 0 ∨ 200 < limit then 100 else limit
  return (db.revocationsAfter cfg.domainID afterID e.ties).take limit

/-! ### What the handlers share -/

/-- Where the Trust Root keeps nonces. -/
def nonceStore : NonceStore State where
  cache := State.replay
  setCache := fun s c => { s with replay := c }
  table := fun s => s.db.popReplayCache
  setTable := fun s t => { s with db := { s.db with popReplayCache := t } }

/-- `verifyProof`. -/
def verifyProof (id : DeviceIdentity) (proof : DeviceProof) (audience challenge : Str)
    (ttl : Duration) : Run Error Unit :=
  Service.verifyProof P nonceStore cfg.repo Event.used id proof audience challenge ttl

/-- A block under `s.mu`. -/
def mutex {ω α : Type} (f : Env → State → Except ω (State × α × List Event)) : Run ω α :=
  .attempt (fun _ => true) f

/-- `requireAdmin`. -/
def requireAdmin (h : Headers) : Run Answer Unit :=
  .stopIf (adminAuthorized cfg.adminToken h = false)
    (writeError 401 (.new .accessInvalid (lit "admin credential is required")))

/-- The identity of the signer with a key. -/
def signerIdentity (key : Key) (now : Time) : DeviceIdentity where
  type := typeDeviceIdentity
  domainID := cfg.domainID
  deviceID := cfg.trustRootID ++ lit "-signer"
  publicKey := ⟨lit "Ed25519", lit "identity-signature", key.id, base64URL key.pub.key⟩
  createdAt := now
  metadata := []

/-- `activeSigner`. -/
def activeSigner : Run Error Device := do
  let key ← .attempt (fun _ => true) fun e s => do
    let key ← s.keys.active e.choice
    return (s, key, [Event.selected key])
  let now ← clock
  return ⟨signerIdentity cfg key now, key.priv⟩

/-- `issuerForGrant`. -/
def issuerForGrant (grant : Grant) : Run Error DeviceIdentity := do
  .stopIf (trimSpace grant.signature.kid = [])
    (.new .trustInvalid (lit "trust grant signature kid is required"))
  let key ← .look (fun _ => true) fun _ s => s.keys.get grant.signature.kid
  let key ← .ofExcept key
  let now ← clock
  return signerIdentity cfg key now

/-- `persistSubmittedDevice`. -/
def persistSubmittedDevice (id : DeviceIdentity) : Run Error Unit :=
  if cfg.repo then do
    let _ ← .ofExcept id.canonical
    let _ ← .ofExcept (Identity.thumbprint P id)
    let now ← clock
    let _ ← newUUID now
    statement id.domainID fun _ db => .ok (db.submitDevice id, ())
  else return ()

/-- `uint64ToInt64`. -/
def uint64ToInt64 (value : UInt64) : Except Error ℤ := do
  failIf (2 ^ 63 ≤ value.toNat)
    (.new .trustInvalid (lit "revocation epoch exceeds storage range"))
  return value.toNat

/-- `persistGrant`. -/
def persistGrant (grant : Grant) : Run Error Unit :=
  if cfg.repo then do
    let raw ← .ofExcept grant.marshalJSON
    let _ ← .ofExcept (Canonical.marshal raw)
    let epoch ← .ofExcept (uint64ToInt64 grant.revocationEpoch)
    let now ← clock
    let _ ← newUUID now
    statement cfg.domainID fun _ db => .ok (db.storeGrant cfg.domainID grant epoch, ())
  else return ()

/-- `domainScopeMismatch`. -/
def domainScopeMismatch (domainID : Str) : Bool := domainID ≠ [] ∧ domainID ≠ cfg.domainID

/-! ### Handlers -/

/-- The body of `submit`. -/
structure SubmitRequest where
  identity : DeviceIdentity
  proof : DeviceProof

/-- The record of a device that has submitted an identity. -/
def DeviceRecord.submit (record : DeviceRecord) (id : DeviceIdentity) : DeviceRecord :=
  if record.status = .none then
    { record with identity := id, status := .submitted, deviceRecordVersion := 1 }
  else { record with identity := id }

/-- **`submitDevice`.** -/
def submitDevice (req : SubmitRequest) : Run Answer Answer := do
  (verifyProof P cfg req.identity req.proof cfg.trustRootID req.proof.challenge
    (5 * minute)).mapStop (writeError 401)
  (persistSubmittedDevice P cfg req.identity).mapStop (writeError 500)
  mutex fun e s =>
    let record := (s.record req.identity.deviceID).submit req.identity
    .ok ({ s with
        devices := s.devices.set req.identity.deviceID record
        audit := s.audit ++ [⟨.deviceSubmit, req.identity.deviceID, e.now.utc⟩] },
      .json 200 (.device record), [.submitted req.identity])

/-- The body of `authorize`. -/
structure AuthorizeRequest where
  deviceID : Str
  audience : Str
  permissions : List Str
  relayID : Str
  ttlSeconds : ℤ

/-- The record of a device that is authorized. -/
def DeviceRecord.authorize (record : DeviceRecord) : DeviceRecord :=
  { record with status := .authorized, deviceRecordVersion := record.deviceRecordVersion + 1 }

/-- The error for a device that may not be authorized. -/
def notAuthorized : Error := .new .trustInvalid (lit "device is not authorized")

/-- The record `authorizeDevice` looks up: in memory, or else in the database. -/
def findRecord (e : Env) (s : State) (deviceID : Str) : Except Error (Option DeviceRecord) :=
  match s.devices deviceID with
  | some record => .ok (some record)
  | none =>
    if cfg.repo then
      (getDevice cfg e s.db deviceID).map fun row => row.bind deviceRecordFromRepository
    else .ok none

/-- The device check of `authorizeDevice`, under the mutex. -/
def checkDevice (deviceID : Str) : Run Answer DeviceRecord :=
  mutex fun e s => do
    let found ← (findRecord cfg e s deviceID).mapError (writeError 500)
    match found with
    | none => .error (writeError 403 notAuthorized)
    | some record => do
      failIf (record.status = .revoked) (writeError 403 notAuthorized)
      return ({ s with devices := s.devices.set deviceID record.authorize }, record.authorize,
        [.checked deviceID record.authorize])

/-- The record of the database, if there is one. -/
def authorizedRecord (record : DeviceRecord) (deviceID : Str) : Run Error DeviceRecord :=
  if cfg.repo then do
    let device ← statement cfg.domainID fun _ db => db.authorizeDevice cfg.domainID deviceID
    return (deviceRecordFromRepository device).getD zeroRecord
  else return record

/-- The time a grant is good for: what is asked for, or all the rule allows. -/
def grantTTL (rule : PermissionRule) (ttlSeconds : ℤ) : Duration :=
  let ttl := (ttlSeconds * second).bmod (2 ^ 64)
  if ttl ≤ 0 ∨ rule.maxTTL < ttl then rule.maxTTL else ttl

/-- The identifier of a grant. -/
def grantID (deviceID : Str) (now : Time) : Str :=
  lit "grant-" ++ (base64URL (P.sha256 (deviceID ++ now.string))).take 16

/-- The grant that is to be signed. -/
def newGrant (req : AuthorizeRequest) (permissions : List Str) (tp : Str) (now : Time)
    (ttl : Duration) (epoch : UInt64) : Grant where
  type := []
  grantID := grantID P req.deviceID now
  issuer := []
  subjectDeviceID := req.deviceID
  audience := req.audience
  confirmationThumbprint := tp
  permissions := some permissions
  relayConstraints := [req.relayID]
  notBefore := now.add (-second)
  expiresAt := now.add ttl
  revocationEpoch := epoch
  signature := noSignature

/-- The permission the policy is asked about. -/
def AuthorizeRequest.permission (req : AuthorizeRequest) : Str := req.permissions.headD (lit "text")

/-- The permissions that are granted: text, if none is asked for. -/
def AuthorizeRequest.granted (req : AuthorizeRequest) : List Str :=
  if req.permissions = [] then [lit "text"] else req.permissions

/-- **`authorizeDevice`.** -/
def authorizeDevice (h : Headers) (req : AuthorizeRequest) : Run Answer Answer := do
  requireAdmin cfg h
  let record ← checkDevice cfg req.deviceID
  let record ← (authorizedRecord cfg record req.deviceID).mapStop fun _ =>
    writeError 403 notAuthorized
  let rule ← (Handler.ofExcept (policyRule req.permission)).mapStop (writeError 403)
  let ttl := grantTTL rule req.ttlSeconds
  let tp := (Identity.thumbprint P record.identity).toOption.getD []
  let now ← clock
  let signer ← (activeSigner cfg).mapStop (writeError 500)
  let grant ← (Handler.ofExcept (signGrant P signer
    (newGrant P req req.granted tp now ttl record.revocationEpoch))).mapStop (writeError 500)
  .note [.signed grant]
  (persistGrant cfg grant).mapStop (writeError 500)
  mutex fun _ s =>
    .ok ({ s with
        grants := s.grants.set grant.grantID grant
        audit := s.audit ++ [⟨.deviceAuthorize, req.deviceID, now⟩] },
      .json 200 (.authorization record grant), [.issued grant])

/-- The body of `verify`. -/
structure VerifyRequest where
  grant : Grant
  audience : Str
  subjectDeviceID : Str
  confirmationThumbprint : Str
  permission : Str
  relayID : Str

/-- What `verifyGrant` expects of a grant. -/
def VerifyRequest.options (req : VerifyRequest) (epoch : UInt64) (now : Time) : VerifyOptions where
  audience := req.audience
  subjectDeviceID := req.subjectDeviceID
  confirmationThumbprint := req.confirmationThumbprint
  permission := req.permission
  relayID := req.relayID
  currentRevocationEpoch := epoch
  now := now

/-- **`verifyGrant`.** -/
def verifyGrant (req : VerifyRequest) : Run Answer Answer := do
  let record ← mutex fun _ s =>
    let record := s.record req.subjectDeviceID
    .ok (s, record, [.consulted req.subjectDeviceID record])
  let record ← if record.identity.deviceID = [] ∧ cfg.repo then do
      let found ← .look (fun _ => true) fun e s => getDevice cfg e s.db req.subjectDeviceID
      let found ← (Handler.ofExcept found).mapStop (writeError 500)
      pure (found.elim record fun device => (deviceRecordFromRepository device).getD zeroRecord)
    else pure record
  let issuer ← (issuerForGrant cfg req.grant).mapStop (writeError 403)
  let now ← clock
  (Handler.ofExcept (Trust.verifyGrant P req.grant issuer
    (req.options record.revocationEpoch now))).mapStop (writeError 403)
  return .json 200 .valid

/-- What `deviceStatus` tells of a record. -/
def DeviceRecord.statusResponse (record : DeviceRecord) : DeviceStatusResponse where
  -- the public read must not echo the metadata
  identity := { record.identity with metadata := [] }
  domainID := record.identity.domainID
  deviceID := record.identity.deviceID
  status := record.status
  publicKey := record.identity.publicKey
  deviceRecordVersion := record.deviceRecordVersion
  revocationEpoch := record.revocationEpoch

/-- **`deviceStatus`.** -/
def deviceStatus (deviceID domainID : Str) : Run Answer Answer := do
  let found ← .look (fun _ => true) fun _ s => s.devices deviceID
  let found ← if found = none ∧ cfg.repo then do
      let row ← .look (fun _ => true) fun e s => getDevice cfg e s.db deviceID
      let row ← (Handler.ofExcept row).mapStop (writeError 500)
      pure (row.bind deviceRecordFromRepository)
    else pure found
  match found with
  | none => .stop (writeError 404 (.new .trustInvalid (lit "device not found")))
  | some record => do
    .stopIf (domainScopeMismatch cfg domainID)
      (writeError 404 (.new .trustInvalid (lit "device not found")))
    return .json 200 (.deviceStatus record.statusResponse)

/-- The error for a grant that is not there. -/
def grantNotFound : Answer := writeError 404 (.new .trustInvalid (lit "grant not found"))

/-- Whether the device of a grant is known to be in a later epoch. -/
def State.outdated (s : State) (grant : Grant) : Bool :=
  match s.devices grant.subjectDeviceID with
  | some record => grant.revocationEpoch < record.revocationEpoch
  | none => false

/-- **`grantStatus`.** -/
def grantStatus (grantID domainID : Str) : Run Answer Answer := do
  let (found, revoked) ← .look (fun _ => true) fun _ s =>
    (s.grants grantID, (s.revokedGrants grantID).isSome)
  let (found, revoked) ← if found = none ∧ cfg.repo then do
      (requireDomain cfg.domainID).mapStop (writeError 500)
      let row ← .look (fun _ => true) fun e s =>
        if e.sqlFails then .error sqlError else .ok (s.db.grants (cfg.domainID, grantID))
      let row ← (Handler.ofExcept row).mapStop (writeError 500)
      pure (row.map TrustGrant.grant, revoked || (row.bind TrustGrant.revokedAt).isSome)
    else pure (found, revoked)
  match found with
  | none => .stop grantNotFound
  | some grant => do
    .stopIf (domainScopeMismatch cfg domainID) grantNotFound
    let outdated ← .look (fun _ => true) fun _ s => s.outdated grant
    let now ← clock
    let status := if revoked || outdated then .revoked
      else if ¬now.before grant.expiresAt then .expired
      else .active
    let raw ← (Handler.ofExcept grant.marshalJSON).mapStop (writeError 500)
    return .json 200 (.grantStatus status raw)

/-- The zero value of a grant. -/
def zeroGrant : Grant := ⟨[], [], [], [], [], [], none, [], Time.zero, Time.zero, 0, noSignature⟩

/-- **`revokeGrant`.** -/
def revokeGrant (h : Headers) (grantID reason : Str) : Run Answer Answer := do
  requireAdmin cfg h
  let now ← clock
  let found ← .look (fun _ => true) fun _ s => s.grants grantID
  .stopIf (found = none ∧ cfg.repo = false) grantNotFound
  let revocationID ← (newUUID now).mapStop (writeError 500)
  if cfg.repo then
    (repoRevokeGrant cfg revocationID grantID reason now).mapStop fun err =>
      if err = errNoRows then grantNotFound else writeError 500 err
  mutex fun _ s =>
    .ok ({ s with
        revokedGrants := s.revokedGrants.set grantID ()
        revocationLog := s.revocationLog ++
          [⟨revocationID, cfg.domainID, .grant grantID, reason, now⟩]
        audit := s.audit ++ [⟨.grantRevoke, grantID, now⟩] }, (), [.revokedGrant grantID])
  let raw ← (Handler.ofExcept (found.getD zeroGrant).marshalJSON).mapStop (writeError 500)
  return .json 200 (.grantStatus .revoked raw)

/-- The record of a device that is revoked. -/
def DeviceRecord.revoke (record : DeviceRecord) : DeviceRecord :=
  { record with
    status := .revoked
    deviceRecordVersion := record.deviceRecordVersion + 1
    revocationEpoch := record.revocationEpoch + 1 }

/-- **`revokeDevice`.** -/
def revokeDevice (h : Headers) (deviceID reason : Str) : Run Answer Answer := do
  requireAdmin cfg h
  let now ← clock
  let revocationID ← (newUUID now).mapStop (writeError 500)
  let record ← mutex fun _ s => do
    failIf ((s.record deviceID).identity.deviceID = [] ∧ cfg.repo = false)
      (writeError 404 (.new .trustInvalid (lit "device not found")))
    return ({ s with
        devices := s.devices.set deviceID (s.record deviceID).revoke
        revocationLog := s.revocationLog ++
          [⟨revocationID, cfg.domainID, .device deviceID, reason, now⟩]
        audit := s.audit ++ [⟨.deviceRevoke, deviceID, now⟩] },
      (s.record deviceID).revoke, [.revokedDevice deviceID])
  let record ← if cfg.repo then do
      (repoRevokeDevice cfg revocationID deviceID reason now).mapStop (writeError 500)
      let found ← .look (fun _ => true) fun e s => getDevice cfg e s.db deviceID
      pure (match found with
        | .ok (some device) => (deviceRecordFromRepository device).getD zeroRecord
        | _ => record)
    else pure record
  return .json 200 (.device record)

/-- What `revocations` is asked for: the values of the query, empty if they are missing. -/
structure RevocationsQuery where
  domainID : Str
  limit : Str
  cursor : Str

/-- The length of a page: 100, if it is not asked for. -/
def pageLimit (raw : Str) : Except Answer ℕ :=
  let refused := writeError 400 (.new .trustInvalid (lit "limit must be between 1 and 200"))
  if raw = [] then .ok 100
  else match Json.parseInt raw with
    | none => .error refused
    | some parsed => if parsed ≤ 0 ∨ 200 < parsed then .error refused else .ok parsed.toNat

/-- The identifier of the last item of a page. -/
def lastID (items : List RevocationItem) : Str := items.getLast?.elim [] (·.revocationID)

/-- Where a page of the log starts: after the cursor, or at the start if it is not found. -/
def pageStart (log : List RevocationItem) (cursor : Str) : ℕ :=
  if cursor = [] then 0
  else (log.findIdx? fun item => item.revocationID = cursor).elim 0 (· + 1)

/-- A page of the log, and the cursor of the next. -/
def logPage (log : List RevocationItem) (cursor : Str) (limit : ℕ) : List RevocationItem × Str :=
  let start := pageStart log cursor
  let items := (log.drop start).take limit
  (items, if items.length = limit ∧ start + items.length < log.length then lastID items else [])

/-- A row as an item of the feed. -/
def TrustRevocation.item (r : TrustRevocation) : RevocationItem :=
  ⟨r.id, r.domainID, r.subject, r.reason, r.createdAt⟩

/-- **`revocations`.** -/
def serveRevocations (q : RevocationsQuery) : Run Answer Answer :=
  if domainScopeMismatch cfg q.domainID then return .json 200 (.revocations [] [])
  else do
    let limit ← .ofExcept (pageLimit q.limit)
    if cfg.repo then do
      let rows ← .look (fun _ => true) fun e s => listRevocations cfg e s.db q.cursor limit
      let rows ← (Handler.ofExcept rows).mapStop (writeError 500)
      let items := rows.map TrustRevocation.item
      return .json 200 (.revocations items (if items.length = limit then lastID items else []))
    else
      .look (fun _ => true) fun _ s =>
        let page := logPage s.revocationLog q.cursor limit
        .json 200 (.revocations page.1 page.2)

/-- **`rotateKeys`.** -/
def rotateKeys (h : Headers) : Run Answer Answer := do
  requireAdmin cfg h
  let seed ← .ask Env.seed
  let (priv, pub) ← (Handler.ofExcept (generateIdentityKey P seed)).mapStop (writeError 500)
  let key : Key := ⟨Crypto.thumbprint P (lit "Ed25519") pub.key, .next, priv, pub⟩
  mutex fun _ s => .ok ({ s with keys := s.keys.add key }, (), [.added key])
  mutex fun _ s => do
    let keys ← (s.keys.rotate key.id).mapError (writeError 500)
    return ({ s with keys := keys }, (), [.rotated key.id])
  mutex fun e s =>
    .ok ({ s with signer := ⟨signerIdentity cfg key e.now.utc, priv⟩ }, (), [])
  return .json 200 (.activeKey key.id)

/-- `adminAudit`. -/
def adminAudit (h : Headers) : Run Answer Answer := do
  requireAdmin cfg h
  .look (fun _ => true) fun _ s => .json 200 (.audit s.audit)

/-! ### The server -/

/-- `New`, with a database that may hold rows already. -/
def new (db : Database) (e : Env) : Except Error State := do
  let now := e.now.utc
  let signer ← newDevice P e.seed cfg.domainID (cfg.trustRootID ++ lit "-signer") now
  let gate := if cfg.profileGate.profile = .other [] then defaultGate .localLab
    else cfg.profileGate
  validateGate gate
  failIf (gate.profile = .production ∧ trimSpace cfg.adminToken = [])
    (.new .configInvalid (lit "production trust root requires ISCP_ADMIN_TOKEN"))
  return {
    signer := signer
    replay := fun _ => none
    keys := Ring.add [] ⟨signer.identity.publicKey.kid, .active, signer.priv, publicKey signer.priv⟩
    devices := fun _ => none
    grants := fun _ => none
    revokedGrants := fun _ => none
    revocationLog := []
    audit := []
    db := db }

/-- **The requests.** -/
inductive Request where
  | submitDevice (req : SubmitRequest)
  | authorizeDevice (h : Headers) (req : AuthorizeRequest)
  | verifyGrant (req : VerifyRequest)
  | deviceStatus (deviceID domainID : Str)
  | grantStatus (grantID domainID : Str)
  | revokeGrant (h : Headers) (grantID reason : Str)
  | revokeDevice (h : Headers) (deviceID reason : Str)
  | rotateKeys (h : Headers)
  | adminAudit (h : Headers)
  | revocations (q : RevocationsQuery)

/-- **The handler of a request.** -/
def handle : Request → Run Answer Answer
  | .submitDevice req => submitDevice P cfg req
  | .authorizeDevice h req => authorizeDevice P cfg h req
  | .verifyGrant req => verifyGrant P cfg req
  | .deviceStatus deviceID domainID => deviceStatus cfg deviceID domainID
  | .grantStatus grantID domainID => grantStatus cfg grantID domainID
  | .revokeGrant h grantID reason => revokeGrant cfg h grantID reason
  | .revokeDevice h deviceID reason => revokeDevice cfg h deviceID reason
  | .rotateKeys h => rotateKeys P cfg h
  | .adminAudit h => adminAudit cfg h
  | .revocations q => serveRevocations cfg q

/-- A Trust Root has just been started. -/
def Initial (s : State) : Prop := ∃ db e, new P cfg db e = .ok s

end TrustRoot

end Iscp
