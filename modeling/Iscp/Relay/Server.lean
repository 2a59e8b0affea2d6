import Iscp.Provisioning
import Iscp.Relay.Repository

/-!
# The Relay

The server devices register with, and that carries envelopes between them. A device binds
itself, or registers with a pairing ticket; it is given an access token and a refresh token,
the first of which it submits envelopes with and the second of which it exchanges for a new
pair. It fetches what was sent to it over a connection, after a proof made for this connection.
The server keeps all this in memory, and in a database beside it if it has one
(`Iscp.Relay.Config.repo`).

The handlers are those of the source, section by section: what stands under the mutex `s.mu` is
one section, as is a statement, a reading of the clock, a drawing of random bytes, a use of the
queue or of the nonce cache, which have mutexes of their own, and what is written to or read
from a connection. Only `revokeAccess` makes statements while it holds the mutex; until it has
made them no other section under the mutex runs (`Iscp.Relay.Memory.locked`).

Requests arrive decoded, but for the body of an envelope and the proof in a header, which are
decoded after something else has been checked. What is no request is answered without touching
the state, and so is what the rate limiter refuses and a connection that is not upgraded.
-/

namespace Iscp

namespace Relay

open Go Crypto Identity Replay Service Provisioning

/-! ### State -/

/-- **The configuration of a Relay.** With `repo` it has a database. -/
structure Config where
  domainID : Str
  relayID : Str
  profileGate : Gate
  adminToken : Str
  allowedOrigins : List Str
  /-- Who signs the pairing tickets. -/
  ticketIssuer : Option DeviceIdentity
  /-- Whether there is a database. -/
  repo : Bool

/-- **A credential**, as it is kept in memory. -/
structure Credential where
  domainID : Str
  deviceID : Str
  token : Str
  hash : Bytes
  expiresAt : Time
  revoked : Bool
  deriving DecidableEq

/-- How often a ticket may be used, and has been. -/
structure TicketState where
  maxUses : ℤ
  uses : ℤ
  deriving DecidableEq

/-- The states of a connection that are recorded. -/
inductive ConnectionPhase where
  | ready
  | closed
  deriving DecidableEq

/-- A connection, open or closed. -/
structure ConnectionState where
  connectionID : Str
  domainID : Str
  deviceID : Str
  state : ConnectionPhase
  connectedAt : Time
  lastSeenAt : Time
  closedAt : Time

/-- **What the process keeps in memory.** Credentials are found by the hash of their token. -/
structure Memory where
  replay : Cache
  queue : Queue
  /-- Whether `s.mu` is held across sections. -/
  locked : Bool
  devices : Map DeviceIdentity
  access : Map Credential
  refresh : Map Credential
  revoked : Map Unit
  tickets : Map TicketState
  connections : Map ConnectionState

/-- **The state of the server.** -/
structure State where
  mem : Memory
  db : Database

/-- For whom credentials are made: for an identity that is being bound, or for the device of a
refresh token that was found to be good. -/
inductive Origin where
  | bound (id : DeviceIdentity)
  | refreshed (hash : Bytes) (cred : Credential)

/-- The domain credentials are made for. -/
def Origin.domainID : Origin → Str
  | .bound id => id.domainID
  | .refreshed _ cred => cred.domainID

/-- The device credentials are made for. -/
def Origin.deviceID : Origin → Str
  | .bound id => id.deviceID
  | .refreshed _ cred => cred.deviceID

/-- What is written to a connection. -/
inductive Frame where
  | challenge (challenge : Str)
  | closed (error : Str)
  | ready
  | message (messageID : Str) (envelope : Bytes)
  | drained (delivered : ℕ)

/-- What goes on record of a section. -/
inductive Event where
  /-- The nonce of a proof was used. -/
  | used (proof : DeviceProof) (ttl : Duration) (now : Time) (isNew : Bool)
  /-- A ticket was used, by a request that says how often it may be. -/
  | consumed (ticketID : Str) (maxUses : ℤ)
  /-- A request to bind an identity has passed its checks. -/
  | admitted (id : DeviceIdentity)
  /-- An identity was written to the database. -/
  | stored (id : DeviceIdentity)
  /-- An identity was entered in memory. -/
  | bound (id : DeviceIdentity)
  /-- A refresh token was found to be good. -/
  | found (hash : Bytes) (cred : Credential)
  /-- A refresh token was marked as revoked in memory, if it is there. -/
  | marked (hash : Bytes)
  /-- A refresh token was revoked everywhere. -/
  | spent (hash : Bytes)
  /-- An access token was written to the database. -/
  | keptAccess (cred : Credential)
  /-- A refresh token was written to the database. -/
  | keptRefresh (hash : Bytes)
  /-- A pair of credentials was entered in memory. -/
  | issued (origin : Origin) (access refresh : Credential)
  /-- An access token was found to be good. -/
  | recognized (cred : Credential) (now : Time)
  /-- A device was revoked in memory. -/
  | revoked (deviceID : Str)
  /-- The row of a device was revoked. -/
  | revokedRow (deviceID : Str)
  /-- The rows of a device's access tokens were revoked. -/
  | revokedAccess (deviceID : Str)
  /-- The rows of a device's refresh tokens were revoked. -/
  | revokedRefresh (deviceID : Str)
  /-- A request found the identity to check its proof with. -/
  | looked (deviceID : Str) (id : DeviceIdentity)
  /-- A connection is ready. -/
  | ready (id : DeviceIdentity)
  /-- A message was queued in memory. -/
  | queued (message : Queue.Message)
  /-- A message was written to the database. -/
  | storedMessage (message : NewMessage)
  /-- Messages were taken to be delivered. -/
  | dequeued (deviceID : Str) (messages : List Queue.Message)
  /-- Something was written to a connection. -/
  | sent (frame : Frame)

/-! ### Responses -/

/-- A delivery receipt. -/
structure Receipt where
  receiptID : Str
  messageID : Str
  domainID : Str
  relayID : Str
  issuedAt : Time

/-- The bodies of responses. -/
inductive Body where
  | credentials (access refresh : Credential)
  | revoked
  | receipt (receipt : Receipt)
  /-- The connection was upgraded; what happened on it is on record. -/
  | upgraded
  | devices (devices : Map DeviceIdentity)
  | connections (connections : Map ConnectionState)
  | messages (messages : List Queue.MessageMetadata)

/-- A handler of the Relay, with the early returns `ω`. -/
abbrev Run (ω α : Type) := Handler State Env Event ω α

/-- What a request is answered with. -/
abbrev Answer := Response Body

/-- What is read off an envelope. -/
structure EnvelopeMeta where
  domainID : Str
  messageID : Str
  senderDeviceID : Str
  recipientDeviceID : Str
  ttlSeconds : ℤ
  priority : ℤ

/-- What `json.Unmarshal` makes of bytes. -/
structure Unmarshal where
  proof : Bytes → Option DeviceProof
  envelopeMeta : Bytes → Except Error EnvelopeMeta

variable (P : Primitives) (J : Unmarshal) (cfg : Config)

/-! ### What the handlers share -/

/-- Where the Relay keeps nonces. -/
def nonceStore : NonceStore State where
  cache := fun s => s.mem.replay
  setCache := fun s c => { s with mem := { s.mem with replay := c } }
  table := fun s => s.db.popReplayCache
  setTable := fun s t => { s with db := { s.db with popReplayCache := t } }

/-- `verifyProof`. -/
def verifyProof (id : DeviceIdentity) (proof : DeviceProof) (audience challenge : Str)
    (ttl : Duration) : Run Error Unit :=
  Service.verifyProof P nonceStore cfg.repo Event.used id proof audience challenge ttl

/-- A block under `s.mu`. -/
def mutex {ω α : Type} (f : Env → State → Except ω (State × α × List Event)) : Run ω α :=
  .attempt (fun s => !s.mem.locked) f

/-- A statement, for a domain that is not empty. -/
def statement {α : Type} (domainID : Str)
    (f : Env → Database → Except Error (Database × α × List Event)) : Run Error α := do
  requireDomain domainID
  sql fun e s => do
    let r ← f e s.db
    return ({ s with db := r.1 }, r.2)

/-- `requireAdmin`. -/
def requireAdmin (h : Headers) : Run Answer Unit :=
  .stopIf (adminAuthorized cfg.adminToken h = false)
    (writeError 401 (.new .accessInvalid (lit "admin credential is required")))

/-! ### Devices -/

/-- `persistDevice`, with the status "active". -/
def persistDevice (id : DeviceIdentity) : Run Error Unit :=
  if cfg.repo then do
    let _ ← .ofExcept id.canonical
    let _ ← .ofExcept (Identity.thumbprint P id)
    let now ← clock
    let _ ← newUUID now
    statement id.domainID fun _ db => .ok (db.insertDevice id .active, (), [.stored id])
  else return ()

/-- A credential that has just been made. -/
def newCredential (origin : Origin) (token : Str) (expiresAt : Time) : Credential where
  domainID := origin.domainID
  deviceID := origin.deviceID
  token := token
  hash := P.sha256 token
  expiresAt := expiresAt
  revoked := false

/-- The credentials are written to the database, if there is one. -/
def persistCredentials (access refresh : Credential) (now : Time) : Run Error Unit :=
  if cfg.repo then do
    let _ ← newUUID now
    let _ ← newUUID now
    statement access.domainID fun _ db => do
      let db ← db.storeAccessHash access.domainID access.deviceID access.hash access.expiresAt
      return (db, (), [.keptAccess access])
    statement refresh.domainID fun _ db => do
      let db ← db.storeRefreshHash refresh.domainID refresh.deviceID refresh.hash refresh.expiresAt
      return (db, (), [.keptRefresh refresh.hash])
  else return ()

/-- A pair of credentials is entered. -/
def Memory.issue (m : Memory) (access refresh : Credential) : Memory :=
  { m with
    access := m.access.set access.hash access
    refresh := m.refresh.set refresh.hash refresh }

/-- **`issueCredentials`.** -/
def issueCredentials (origin : Origin) : Run Error (Credential × Credential) := do
  let now ← clock
  let accessToken ← randomToken
  let refreshToken ← randomToken
  let access := newCredential P origin accessToken (now.add (15 * minute))
  let refresh := newCredential P origin refreshToken (now.add (24 * hour))
  persistCredentials cfg access refresh now
  mutex fun _ s => .ok ({ s with mem := s.mem.issue access refresh }, (access, refresh),
    [.issued origin access refresh])

/-- **`bindIdentity`.** -/
def bindIdentity (id : DeviceIdentity) : Run Answer Answer := do
  .note [.admitted id]
  (persistDevice P cfg id).mapStop (writeError 500)
  let (access, refresh) ← (issueCredentials P cfg (.bound id)).mapStop (writeError 500)
  mutex fun _ s =>
    .ok ({ s with mem := { s.mem with devices := s.mem.devices.set id.deviceID id } }, (),
      [.bound id])
  return .json 200 (.credentials access refresh)

/-- The body of `bind-self`. -/
structure BindSelfRequest where
  identity : DeviceIdentity
  proof : DeviceProof

/-- **`bindSelf`.** -/
def bindSelf (h : Headers) (req : BindSelfRequest) : Run Answer Answer := do
  .stopIf (cfg.profileGate.profile = .production ∧ adminAuthorized cfg.adminToken h = false)
    (writeError 401
      (.new .accessInvalid (lit "production bind-self requires an actor authorization")))
  (verifyProof P cfg req.identity req.proof cfg.relayID req.proof.challenge
    (5 * minute)).mapStop (writeError 401)
  bindIdentity P cfg req.identity

/-- The body of `register-with-ticket`. -/
structure RegisterTicketRequest where
  ticketID : Str
  maxUses : ℤ
  ticket : Option PairingTicketV3
  identity : DeviceIdentity
  proof : DeviceProof

/-- A use of a ticket is counted, if there is one left. The first one says how many there are. -/
def TicketState.use (state : TicketState) (maxUses : ℤ) : Option TicketState :=
  let state := if state.maxUses = 0 then { state with maxUses := maxUses } else state
  if state.maxUses ≤ 0 ∨ state.maxUses ≤ state.uses then none
  else some { state with uses := state.uses + 1 }

/-- The counter of a ticket, which is empty if there is none. -/
def Memory.ticket (m : Memory) (ticketID : Str) : TicketState := (m.tickets ticketID).getD ⟨0, 0⟩

/-- **`consumeTicket`.** -/
def consumeTicket (ticketID : Str) (maxUses : ℤ) : Run Error Unit :=
  mutex fun _ s => match (s.mem.ticket ticketID).use maxUses with
    | some state =>
      .ok ({ s with mem := { s.mem with tickets := s.mem.tickets.set ticketID state } }, (),
        [.consumed ticketID maxUses])
    | none => .error (.new .provisionInvalid (lit "pairing ticket already consumed"))

/-- **`registerWithSignedTicket`.** -/
def registerWithSignedTicket (req : RegisterTicketRequest) (ticket : PairingTicketV3) :
    Run Answer Answer := do
  match cfg.ticketIssuer with
  | none => .stop (writeError 503
      (.new .configInvalid (lit "relay has no configured ticket issuer")))
  | some issuer => do
    let now ← clock
    (Handler.ofExcept (verifyTicketV3 P ticket issuer now)).mapStop (writeError 403)
    .stopIf (ticket.domainID ≠ cfg.domainID ∨ ticket.relayID ≠ cfg.relayID)
      (writeError 403 (.new .provisionInvalid (lit "pairing ticket is not bound to this relay")))
    .stopIf (req.proof.challenge ≠ ticket.ticketID)
      (writeError 401 (.new .provisionInvalid (lit "proof challenge must be the ticket id")))
    (verifyProof P cfg req.identity req.proof cfg.relayID ticket.ticketID
      (5 * minute)).mapStop (writeError 401)
    let _ ← (Handler.ofExcept (bindGrantRoles P ticket req.identity)).mapStop (writeError 403)
    (consumeTicket ticket.ticketID ticket.maxUses).mapStop (writeError 409)
    bindIdentity P cfg req.identity

/-- Registration without a signed ticket. -/
def registerWithTicketID (req : RegisterTicketRequest) : Run Answer Answer := do
  .stopIf (cfg.profileGate.profile = .production)
    (writeError 400
      (.new .provisionInvalid (lit "production registration requires a signed pairing ticket")))
  (verifyProof P cfg req.identity req.proof cfg.relayID req.proof.challenge
    (5 * minute)).mapStop (writeError 401)
  (consumeTicket req.ticketID req.maxUses).mapStop (writeError 409)
  bindIdentity P cfg req.identity

/-- **`registerWithTicket`.** -/
def registerWithTicket (req : RegisterTicketRequest) : Run Answer Answer :=
  match req.ticket with
  | some ticket => registerWithSignedTicket P cfg req ticket
  | none => registerWithTicketID P cfg req

/-! ### Credentials -/

/-- The refresh token with a hash, unless it has expired: a revoked one is found as well. -/
def Memory.findRefresh (m : Memory) (hash : Bytes) (now : Time) : Option Credential :=
  (m.refresh hash).filter fun cred => cred.revoked || !now.after cred.expiresAt

/-- A refresh token is marked as revoked, if it is there. -/
def Memory.markRefresh (m : Memory) (hash : Bytes) : Memory :=
  { m with
    refresh := match m.refresh hash with
      | some cred => m.refresh.set hash { cred with revoked := true }
      | none => m.refresh }

/-- A credential read from the database. -/
def RelayCredential.credential (row : RelayCredential) (domainID : Str) (hash : Bytes) :
    Credential :=
  ⟨domainID, row.deviceID, [], hash, row.expiresAt, false⟩

/-- The refresh token with a hash: in memory, or else in the database. -/
def lookupRefresh (hash : Bytes) : Run Error (Option Credential) := do
  let found ← mutex fun e s =>
    let found := s.mem.findRefresh hash e.now
    .ok (s, found, (found.filter fun cred => !cred.revoked).toList.map (.found hash))
  if found = none ∧ cfg.repo then do
    let now ← clock
    statement cfg.domainID fun _ db =>
      let found := (db.getRefreshByHash cfg.domainID hash now).map
        fun row => row.credential cfg.domainID hash
      .ok (db, found, found.toList.map (.found hash))
  else return found

/-- `revokeRefreshCredential`. -/
def revokeRefreshCredential (hash : Bytes) : Run Error Unit := do
  mutex fun _ s => .ok ({ s with mem := s.mem.markRefresh hash }, (),
    .marked hash :: if cfg.repo then [] else [.spent hash])
  if cfg.repo then do
    let now ← clock
    statement cfg.domainID fun _ db =>
      .ok (db.revokeRefreshByHash cfg.domainID hash now, (), [.spent hash])
  else return ()

/-- The error for a refresh token that is not good. -/
def refreshInvalid : Answer :=
  writeError 401 (.new .accessInvalid (lit "refresh credential invalid"))

/-- What `refreshAccess` does with a refresh token that is good. -/
def exchange (hash : Bytes) (cred : Credential) : Run Answer Answer := do
  (revokeRefreshCredential cfg hash).mapStop (writeError 500)
  let (access, refresh) ← (issueCredentials P cfg (.refreshed hash cred)).mapStop (writeError 500)
  return .json 200 (.credentials access refresh)

/-- **`refreshAccess`.** -/
def refreshAccess (refresh : Str) : Run Answer Answer := do
  let hash := P.sha256 refresh
  let found ← (lookupRefresh cfg hash).mapStop (writeError 500)
  match found with
  | none => .stop refreshInvalid
  | some cred => do
    .stopIf (cred.revoked = true) refreshInvalid
    let now ← .ask Env.now
    .stopIf (now.after cred.expiresAt = true) refreshInvalid
    exchange P cfg hash cred

/-- `lookupIdentity`. -/
def lookupIdentity (domainID deviceID : Str) : Run Error (Option DeviceIdentity) := do
  let found ← mutex fun _ s =>
    let found := (s.mem.devices deviceID).filter fun id =>
      (s.mem.revoked deviceID).isNone && decide (id.domainID = domainID)
    .ok (s, found, found.toList.map (.looked deviceID))
  match found with
  | some id => return some id
  | none =>
    if cfg.repo then
      statement domainID fun _ db =>
        .ok (db, ((db.devices (domainID, deviceID)).filter fun row => row.status ≠ .revoked).map
          RelayDevice.identity, [])
    else return none

/-- `accessProofChallenge`, for a method in upper case. -/
def accessProofChallenge (method path : Str) (accessHash : Bytes) : Str :=
  lit "iscp/v2/relay/access-proof" ++ 0 :: (method ++ 0 :: (path ++ 0 :: base64URL accessHash))

/-- The error of an access token that is refused. -/
def accessInvalid (message : String) : Error := .new .accessInvalid (lit message)

/-- `verifyAccessProof`: only the production profile asks for a proof. -/
def verifyAccessProof (h : Headers) (method path : Str) (cred : Credential) (accessHash : Bytes) :
    Run Error Unit :=
  if cfg.profileGate.profile = .production then do
    let value := trimSpace h.accessProof
    .stopIf (value = []) (accessInvalid "production relay access requires proof of possession")
    let raw ← .ofExcept (decodeBase64URL value)
    match J.proof raw with
    | none => .stop (accessInvalid "invalid relay access proof")
    | some proof => do
      let found ← lookupIdentity cfg cred.domainID cred.deviceID
      match found with
      | none => .stop (accessInvalid "access proof identity is unknown")
      | some id =>
        verifyProof P cfg id proof cfg.relayID (accessProofChallenge method path accessHash) minute
  else return ()

/-- An access token that has expired is marked as revoked. -/
def Memory.expireAccess (m : Memory) (hash : Bytes) (now : Time) : Memory :=
  { m with
    access := match m.access hash with
      | some cred =>
        if !cred.revoked && now.after cred.expiresAt then
          m.access.set hash { cred with revoked := true }
        else m.access
      | none => m.access }

/-- The access token with a hash, if it is good. -/
def Memory.findAccess (m : Memory) (hash : Bytes) (now : Time) : Option Credential :=
  (m.access hash).filter fun cred => !cred.revoked && now.before cred.expiresAt

/-- The access token with a hash, if it is good: in memory, or else in the database. -/
def lookupAccess (hash : Bytes) (now : Time) : Run Error (Option Credential) := do
  let found ← mutex fun _ s =>
    let found := s.mem.findAccess hash now
    .ok ({ s with mem := s.mem.expireAccess hash now }, found,
      found.toList.map fun cred => .recognized cred now)
  if found = none ∧ cfg.repo then
    statement cfg.domainID fun _ db =>
      let found := (db.getAccessByHash cfg.domainID hash now).map
        fun row => row.credential cfg.domainID hash
      .ok (db, found, found.toList.map fun cred => .recognized cred now)
  else return found

/-- **`authenticateAccess`.** -/
def authenticateAccess (h : Headers) (method path : Str) : Run Error Credential := do
  let token := bearerToken h
  .stopIf (token = []) (accessInvalid "access credential is required")
  let hash := P.sha256 token
  let now ← clock
  let found ← lookupAccess cfg hash now
  match found with
  | none => .stop (accessInvalid "access credential invalid")
  | some cred => do
    verifyAccessProof P J cfg h method path cred hash
    return cred

/-- A credential is revoked, if it is one of the device. -/
def Credential.revokeFor (deviceID : Str) (cred : Credential) : Credential :=
  if cred.deviceID = deviceID then { cred with revoked := true } else cred

/-- **A device and all its credentials are revoked.** -/
def Memory.revokeDevice (m : Memory) (deviceID : Str) : Memory :=
  { m with
    revoked := m.revoked.set deviceID ()
    access := fun hash => (m.access hash).map (Credential.revokeFor deviceID)
    refresh := fun hash => (m.refresh hash).map (Credential.revokeFor deviceID) }

/-- What `revokeAccess` does to the database: `RevokeDevice`, which is one statement, and
`RevokeDeviceCredentials`, which is two. -/
def revokeRows (deviceID : Str) : Run Error Unit := do
  let now ← clock
  statement cfg.domainID fun _ db =>
    .ok (db.revokeDevice cfg.domainID deviceID, (), [.revokedRow deviceID])
  statement cfg.domainID fun _ db =>
    .ok (db.revokeDeviceAccess cfg.domainID deviceID now, (), [.revokedAccess deviceID])
  statement cfg.domainID fun _ db =>
    .ok (db.revokeDeviceRefresh cfg.domainID deviceID now, (), [.revokedRefresh deviceID])

/-- The database part of `revokeAccess`, at the end of which the mutex is released. -/
def revokeRowsAndUnlock (deviceID : Str) : Run Answer Unit :=
  if cfg.repo then do
    let result ← (revokeRows cfg deviceID).outcome
    .attempt (fun _ => true) fun _ s =>
      .ok ({ s with mem := { s.mem with locked := false } }, (), [])
    (Handler.ofExcept result).mapStop (writeError 500)
  else return ()

/-- Who may revoke a device: the device itself, or else an operator. -/
def authorizeRevocation (h : Headers) (deviceID : Str) : Run Answer Unit := do
  let authenticated ← (authenticateAccess P J cfg h (lit "POST")
    (lit "/v2/relay/devices/revoke-access")).outcome
  match authenticated with
  | .error err => .stopIf (adminAuthorized cfg.adminToken h = false) (writeError 401 err)
  | .ok cred =>
    .stopIf (cred.deviceID ≠ deviceID)
      (writeError 403 (accessInvalid "access credential cannot revoke another device"))

/-- **`revokeAccess`.** -/
def revokeAccess (h : Headers) (deviceID : Str) : Run Answer Answer := do
  authorizeRevocation P J cfg h deviceID
  mutex fun _ s =>
    .ok ({ s with mem := { s.mem.revokeDevice deviceID with locked := cfg.repo } }, (),
      [.revoked deviceID])
  revokeRowsAndUnlock cfg deviceID
  return .json 200 .revoked

/-! ### Envelopes -/

/-- `relayMaxQueuedBytes`. -/
def relayMaxQueuedBytes : ℕ := 2 ^ 20

/-- The error of an envelope that is refused. -/
def envelopeInvalid (message : String) : Error := .new .envelopeInvalid (lit message)

/-- `validateEnvelopeMeta`. -/
def validateEnvelopeMeta (m : EnvelopeMeta) : Except Error Unit := do
  failIf (m.domainID ≠ cfg.domainID)
    (envelopeInvalid "envelope domain does not match relay domain")
  failIf (trimSpace m.messageID = [] ∨ trimSpace m.senderDeviceID = [] ∨
    trimSpace m.recipientDeviceID = [])
    (envelopeInvalid "envelope routing identifiers are required")
  failIf (m.ttlSeconds ≤ 0 ∨ 86400 < m.ttlSeconds)
    (envelopeInvalid "envelope ttl must be between 1 second and 24 hours")
  failIf (m.priority < 0 ∨ 9 < m.priority)
    (envelopeInvalid "envelope priority must be between 0 and 9")

/-- The identifier of the receipt for a message. -/
def receiptID (messageID : Str) : Str := lit "receipt-" ++ messageID

/-- The receipt for an envelope. -/
def EnvelopeMeta.receipt (m : EnvelopeMeta) (now : Time) : Receipt :=
  ⟨receiptID m.messageID, m.messageID, m.domainID, cfg.relayID, now⟩

/-- The JSON of a receipt; nothing, if its date cannot be written. -/
def Receipt.raw (r : Receipt) : Bytes :=
  if r.issuedAt.Marshals then
    (Json.Value.ofFields [("domain_id", .str r.domainID),
      ("issued_at", .str r.issuedAt.rfc3339Nano), ("message_id", .str r.messageID),
      ("receipt_id", .str r.receiptID), ("relay_id", .str r.relayID),
      ("status", .str (lit "queued")), ("type", .str (lit "iscp.delivery_receipt.v2"))]).text
  else []

/-- The message an envelope is stored as. -/
def EnvelopeMeta.newMessage (m : EnvelopeMeta) (raw canon : Bytes) (now : Time) : NewMessage where
  domainID := m.domainID
  messageID := m.messageID
  senderDeviceID := m.senderDeviceID
  recipientDeviceID := m.recipientDeviceID
  envelopeRaw := raw
  envelopeCanonical := canon
  priority := m.priority
  queuedAt := now
  expiresAt := now.add (m.ttlSeconds * second)

/-- The message an envelope is queued as. -/
def EnvelopeMeta.message (m : EnvelopeMeta) (raw : Bytes) (now : Time) : Queue.Message where
  domainID := m.domainID
  messageID := m.messageID
  senderDeviceID := m.senderDeviceID
  recipientDeviceID := m.recipientDeviceID
  envelope := raw
  priority := m.priority
  expiresAt := now.add (m.ttlSeconds * second)
  queuedAt := Time.zero

/-- The error for an envelope that is too large. -/
def tooLarge : Answer := writeError 413 (envelopeInvalid "message too large")

/-- An envelope and its receipt are written to the database. -/
def storeEnvelope (m : EnvelopeMeta) (raw canon : Bytes) (now : Time) : Run Answer Unit := do
  .stopIf (relayMaxQueuedBytes < raw.length) tooLarge
  let _ ← (newUUID now).mapStop (writeError 500)
  (statement m.domainID fun _ db => do
    let messages ← storeMessage db.messages (m.newMessage raw canon now)
    return ({ db with messages := messages }, (),
      [.storedMessage (m.newMessage raw canon now)])).mapStop (writeError 500)
  let _ ← (Handler.ofExcept (Canonical.marshal (m.receipt cfg now).raw)).mapStop (writeError 500)
  let _ ← (newUUID now).mapStop (writeError 500)
  (statement m.domainID fun _ db =>
    let receipts := storeReceipt db.deliveryReceipts m.domainID (receiptID m.messageID)
      m.messageID .queued
    .ok ({ db with deliveryReceipts := receipts }, (), [])).mapStop (writeError 500)

/-- An envelope is queued in memory. -/
def enqueueEnvelope (m : EnvelopeMeta) (raw : Bytes) (now : Time) : Run Answer Unit := do
  let accepted ← .attempt (fun _ => true) fun _ s =>
    let r := s.mem.queue.enqueue (m.message raw now) now
    .ok ({ s with mem := { s.mem with queue := r.1 } }, r.2,
      if r.2 then [.queued (m.message raw now)] else [])
  .stopIf (accepted = false) tooLarge

/-- **`envelopes`.** -/
def envelopes (h : Headers) (body : Except Error Bytes) : Run Answer Answer := do
  let cred ← (authenticateAccess P J cfg h (lit "POST") (lit "/v2/relay/envelopes")).mapStop
    (writeError 401)
  let raw ← (Handler.ofExcept body).mapStop (writeError 400)
  let m ← (Handler.ofExcept (J.envelopeMeta raw)).mapStop (writeError 400)
  (Handler.ofExcept (validateEnvelopeMeta cfg m)).mapStop (writeError 400)
  .stopIf (cred.domainID ≠ m.domainID ∨ cred.deviceID ≠ m.senderDeviceID)
    (writeError 403 (accessInvalid "access credential does not match envelope sender"))
  let canon ← (Handler.ofExcept (Canonical.marshal raw)).mapStop (writeError 400)
  let now ← clock
  if cfg.repo then storeEnvelope cfg m raw canon now else enqueueEnvelope m raw now
  return .json 202 (.receipt (m.receipt cfg now))

/-! ### Connections -/

/-- `WriteJSON` on a connection: whether it was written. -/
def writeFrame {ω : Type} (frame : Frame) : Run ω Bool :=
  .attempt (fun _ => true) fun e s =>
    .ok (s, !e.writeFails, if e.writeFails then [] else [.sent frame])

/-- What is returned when a connection is over. -/
def ended : Answer := .json 101 .upgraded

/-- The identity of the device that connects, in the database. -/
def lookupDeviceRow (deviceID : Str) (revoked : Bool) : Run Error (Option DeviceIdentity) :=
  statement cfg.domainID fun _ db =>
    let found := if revoked then none else
      ((db.devices (cfg.domainID, deviceID)).filter fun row => row.status ≠ .revoked).map
        RelayDevice.identity
    .ok (db, found, found.toList.map (.looked deviceID))

/-- The identity of the device that connects: in memory, or else in the database, unless the
device is revoked. -/
def lookupDevice (deviceID : Str) : Run Answer (Option DeviceIdentity) := do
  let (known, revoked) ← mutex fun _ s =>
    let revoked := (s.mem.revoked deviceID).isSome
    .ok (s, (s.mem.devices deviceID, revoked),
      if revoked then [] else (s.mem.devices deviceID).toList.map (.looked deviceID))
  if known = none ∧ cfg.repo then do
    -- an error is taken for a device that is not there
    let found ← (lookupDeviceRow cfg deviceID revoked).outcome
    return found.toOption.join
  else return if revoked then none else known

/-- `recordConnection`. -/
def recordConnection {ω : Type} (connectionID : Str) (id : DeviceIdentity) (now : Time) :
    Run ω Unit :=
  mutex fun _ s =>
    let state := ⟨connectionID, id.domainID, id.deviceID, .ready, now, now, Time.zero⟩
    let connections := s.mem.connections.set connectionID state
    .ok ({ s with mem := { s.mem with connections := connections } }, (), [.ready id])

/-- `closeConnection`. -/
def closeConnection {ω : Type} (connectionID : Str) : Run ω Unit :=
  mutex fun e s =>
    let state := (s.mem.connections connectionID).getD
      ⟨[], [], [], .closed, Time.zero, Time.zero, Time.zero⟩
    let state := { state with state := .closed, closedAt := e.now.utc, lastSeenAt := e.now.utc }
    let connections := s.mem.connections.set connectionID state
    .ok ({ s with mem := { s.mem with connections := connections } }, (), [])

/-- A message that has been claimed. -/
def RelayMessage.message (m : RelayMessage) : Queue.Message :=
  ⟨m.domainID, m.messageID, m.senderDeviceID, m.recipientDeviceID, m.envelopeRaw, m.priority,
    m.expiresAt, m.queuedAt⟩

/-- What is shown of a message in the database. -/
def RelayMessage.metadata (m : RelayMessage) : Queue.MessageMetadata :=
  ⟨m.domainID, m.messageID, m.senderDeviceID, m.recipientDeviceID, m.priority, m.queuedAt,
    m.expiresAt⟩

/-- `dequeueMessages`. -/
def dequeueMessages (domainID recipientDeviceID : Str) (now : Time) (limit : ℤ) :
    Run Error (List Queue.Message) :=
  if cfg.repo then
    .attempt (fun _ => true) fun e s => do
      let r ← claimPendingMessagesFor s.db.messages e domainID recipientDeviceID now minute limit
      return ({ s with db := { s.db with messages := r.1 } }, r.2.map RelayMessage.message,
        [.dequeued recipientDeviceID (r.2.map RelayMessage.message)])
  else
    .attempt (fun _ => true) fun e s =>
      let r := s.mem.queue.dequeueFor e.ties domainID recipientDeviceID now limit
      .ok ({ s with mem := { s.mem with queue := r.1 } }, r.2, [.dequeued recipientDeviceID r.2])

/-- `MarkMessageDelivered`: two statements. -/
def repoMarkMessageDelivered (domainID messageID : Str) (now : Time) : Run Error Unit := do
  statement domainID fun _ db =>
    .ok ({ db with messages := markMessageDelivered db.messages domainID messageID now }, (), [])
  statement domainID fun _ db =>
    let receipts := markReceiptsDelivered db.deliveryReceipts domainID messageID
    .ok ({ db with deliveryReceipts := receipts }, (), [])

/-- A message that was written is marked in the database, if there is one. -/
def markDelivered (msg : Queue.Message) : Run Answer Unit :=
  if cfg.repo then do
    let now ← clock
    let _ ← (repoMarkMessageDelivered msg.domainID msg.messageID now).outcome
    return ()
  else return ()

/-- The loop of `connect` over the messages. -/
def deliverMessages : List Queue.Message → ℕ → Run Answer Unit
  | [], delivered => do
    let _ ← writeFrame (.drained delivered)
    return ()
  | msg :: messages, delivered => do
    let written ← writeFrame (.message msg.messageID msg.envelope)
    .stopIf (written = false) ended
    markDelivered cfg msg
    deliverMessages messages (delivered + 1)

/-- What `connect` does on a connection that is ready. -/
def deliver (id : DeviceIdentity) : Run Answer Unit := do
  let _ ← writeFrame .ready
  let now ← clock
  let messages ← (dequeueMessages cfg id.domainID id.deviceID now 100).outcome
  match messages with
  | .error _ => do
    let _ ← writeFrame (.closed (lit "message dequeue failed"))
    .stop ended
  | .ok messages => deliverMessages cfg messages 0

/-- What `connect` does after the proof has been checked. -/
def serveConnection (id : DeviceIdentity) : Run Answer Answer := do
  let token ← randomToken
  let now ← clock
  let connectionID := lit "conn-" ++ token.take 16
  recordConnection connectionID id now
  let _ ← (deliver cfg id).outcome
  closeConnection connectionID
  return ended

/-- A connection is refused. -/
def refuse (error : String) : Run Answer Answer := do
  let _ ← writeFrame (.closed (lit error))
  return ended

/-- **`connect`.** -/
def connect : Run Answer Answer := do
  let challenge ← randomToken
  let written ← writeFrame (.challenge challenge)
  .stopIf (written = false) ended
  let message ← .ask Env.message
  match message with
  | none => return ended
  | some proof => do
    let found ← lookupDevice cfg proof.deviceID
    match found with
    | none => refuse "access revoked or unknown"
    | some id => do
      let verified ← (verifyProof P cfg id proof cfg.relayID challenge minute).outcome
      match verified with
      | .error _ => refuse "proof failed"
      | .ok () => serveConnection cfg id

/-! ### Operators -/

/-- `adminDevices`. -/
def adminDevices (h : Headers) : Run Answer Answer := do
  requireAdmin cfg h
  .look (fun s => !s.mem.locked) fun _ s => .json 200 (.devices s.mem.devices)

/-- `adminConnections`. -/
def adminConnections (h : Headers) : Run Answer Answer := do
  requireAdmin cfg h
  .look (fun s => !s.mem.locked) fun _ s => .json 200 (.connections s.mem.connections)

/-- The messages that have not been delivered. -/
def pendingMetadata (now : Time) : Run Answer (List Queue.MessageMetadata) :=
  if cfg.repo then
    (statement cfg.domainID fun e db =>
      .ok (db, (listPendingMessages db.messages e cfg.domainID now 500).map RelayMessage.metadata,
        [])).mapStop (writeError 500)
  else
    .attempt (fun _ => true) fun e s =>
      let r := s.mem.queue.snapshotMetadata e.ties now
      .ok ({ s with mem := { s.mem with queue := r.1 } }, r.2, [])

/-- `adminMessages`. -/
def adminMessages (h : Headers) : Run Answer Answer := do
  requireAdmin cfg h
  let now ← clock
  let messages ← pendingMetadata cfg now
  return .json 200 (.messages messages)

/-! ### The server -/

/-- What a process has in memory when it starts. -/
def Memory.new : Memory where
  replay := fun _ => none
  queue := Queue.new relayMaxQueuedBytes
  locked := false
  devices := fun _ => none
  access := fun _ => none
  refresh := fun _ => none
  revoked := fun _ => none
  tickets := fun _ => none
  connections := fun _ => none

/-- `New`, with a database that may hold rows already. -/
def new (db : Database) (e : Env) : Except Error State := do
  let _ ← newDevice P e.seed cfg.domainID (cfg.relayID ++ lit "-signer") e.now.utc
  let gate := if cfg.profileGate.profile = .other [] then defaultGate .localLab
    else cfg.profileGate
  validateGate gate
  failIf (gate.profile = .production ∧ trimSpace cfg.adminToken = [])
    (.new .configInvalid (lit "production relay requires ISCP_ADMIN_TOKEN"))
  failIf (gate.profile = .production ∧ cfg.allowedOrigins = [])
    (.new .configInvalid (lit "production relay requires allowed WebSocket origins"))
  return ⟨Memory.new, db⟩

/-- **The requests.** -/
inductive Request where
  | bindSelf (h : Headers) (req : BindSelfRequest)
  | registerWithTicket (req : RegisterTicketRequest)
  | refreshAccess (refresh : Str)
  | revokeAccess (h : Headers) (deviceID : Str)
  | envelopes (h : Headers) (body : Except Error Bytes)
  | connect
  | adminDevices (h : Headers)
  | adminConnections (h : Headers)
  | adminMessages (h : Headers)

/-- **The handler of a request.** -/
def handle : Request → Run Answer Answer
  | .bindSelf h req => bindSelf P cfg h req
  | .registerWithTicket req => registerWithTicket P cfg req
  | .refreshAccess refresh => refreshAccess P cfg refresh
  | .revokeAccess h deviceID => revokeAccess P J cfg h deviceID
  | .envelopes h body => envelopes P J cfg h body
  | .connect => connect P cfg
  | .adminDevices h => adminDevices cfg h
  | .adminConnections h => adminConnections cfg h
  | .adminMessages h => adminMessages cfg h

/-- A Relay has just been started. -/
def Initial (s : State) : Prop := ∃ db e, new P cfg db e = .ok s

end Relay

end Iscp
