import Iscp.Queue
import Iscp.Rows
import Iscp.Service

/-!
# The database of the Relay

The tables of the schema `iscp_relay`, and each statement the Relay makes as a function on
them. A time is kept in whole microseconds, which is what `Iscp.Replay.timestamptz` makes of it;
the times a statement compares with are cut the same way.

Messages are claimed before they are delivered: a claim takes the messages of a recipient that
are not delivered, not expired and not claimed by somebody else, and holds them until its lease
runs out. Storing a message under a key that is there changes what is stored there.
-/

namespace Iscp

namespace Relay

open Go Crypto Identity Replay Service

/-! ### Tables -/

/-- The statuses of a device. -/
inductive DeviceStatus where
  | active
  | revoked
  | disabled
  deriving DecidableEq

/-- A row of `iscp_relay.devices`. The identity is what its raw column reads back as. -/
structure RelayDevice where
  identity : DeviceIdentity
  status : DeviceStatus

/-- A row of `iscp_relay.access_tokens` or `iscp_relay.refresh_tokens`. -/
structure RelayCredential where
  deviceID : Str
  expiresAt : Time
  revokedAt : Option Time

/-- A row of `iscp_relay.messages`. -/
structure RelayMessage where
  domainID : Str
  messageID : Str
  senderDeviceID : Str
  recipientDeviceID : Str
  envelopeRaw : Bytes
  envelopeCanonical : Bytes
  priority : ℤ
  queuedAt : Time
  expiresAt : Time
  deliveredAt : Option Time
  deliveryClaimedUntil : Option Time
  deliveryAttempts : ℕ
  deriving DecidableEq

/-- What is unique about a message. -/
def RelayMessage.key (m : RelayMessage) : Str × Str := (m.domainID, m.messageID)

/-- The statuses of a receipt that are written. -/
inductive ReceiptStatus where
  | queued
  | deliveredToConnection
  deriving DecidableEq

/-- A row of `iscp_relay.delivery_receipts`. -/
structure RelayReceipt where
  messageID : Str
  status : ReceiptStatus
  deriving DecidableEq

/-- **The database.** All keys start with the domain. -/
structure Database where
  devices : Str × Str → Option RelayDevice
  accessTokens : Str × Bytes → Option RelayCredential
  refreshTokens : Str × Bytes → Option RelayCredential
  popReplayCache : Table
  messages : Rows RelayMessage.key
  deliveryReceipts : Str × Str → Option RelayReceipt

/-- A credential that is revoked, unless it has been already. -/
def RelayCredential.revoke (row : RelayCredential) (now : Time) : RelayCredential :=
  if row.revokedAt = none then { row with revokedAt := some (timestamptz now) } else row

theorem RelayCredential.revokedAt_revoke (row : RelayCredential) (now : Time) :
    (row.revoke now).revokedAt ≠ none := by
  rw [revoke]
  split_ifs with h
  · exact Option.some_ne_none _
  · exact h

theorem RelayCredential.deviceID_revoke (row : RelayCredential) (now : Time) :
    (row.revoke now).deviceID = row.deviceID := by
  rw [revoke]
  split_ifs <;> rfl

namespace Database

variable (db : Database)

/-! ### Devices and credentials -/

/-- `InsertDevice`: an upsert that changes the identity and the status. -/
def insertDevice (id : DeviceIdentity) (status : DeviceStatus) : Database :=
  { db with devices := Function.update db.devices (id.domainID, id.deviceID) (some ⟨id, status⟩) }

/-- `RevokeDevice`. -/
def revokeDevice (domainID deviceID : Str) : Database :=
  { db with devices := fun key => (db.devices key).map fun row =>
      if key = (domainID, deviceID) then { row with status := .revoked } else row }

/-- A credential that is not there yet. -/
def newCredential (tokens : Str × Bytes → Option RelayCredential) (domainID deviceID : Str)
    (hash : Bytes) (expiresAt : Time) : Except Error (Str × Bytes → Option RelayCredential) := do
  failIf ((tokens (domainID, hash)).isSome) sqlError
  return Function.update tokens (domainID, hash) (some ⟨deviceID, timestamptz expiresAt, none⟩)

/-- `StoreAccessHash`. -/
def storeAccessHash (domainID deviceID : Str) (hash : Bytes) (expiresAt : Time) :
    Except Error Database := do
  let tokens ← newCredential db.accessTokens domainID deviceID hash expiresAt
  return { db with accessTokens := tokens }

/-- `StoreRefreshHash`. -/
def storeRefreshHash (domainID deviceID : Str) (hash : Bytes) (expiresAt : Time) :
    Except Error Database := do
  let tokens ← newCredential db.refreshTokens domainID deviceID hash expiresAt
  return { db with refreshTokens := tokens }

/-- A credential, if it is neither revoked nor expired. -/
def getByHash (tokens : Str × Bytes → Option RelayCredential) (domainID : Str) (hash : Bytes)
    (now : Time) : Option RelayCredential :=
  (tokens (domainID, hash)).filter fun row =>
    row.revokedAt = none ∧ (timestamptz now).unixNano < row.expiresAt.unixNano

/-- `GetAccessByHash`. -/
def getAccessByHash (domainID : Str) (hash : Bytes) (now : Time) : Option RelayCredential :=
  getByHash db.accessTokens domainID hash now

/-- `GetRefreshByHash`. -/
def getRefreshByHash (domainID : Str) (hash : Bytes) (now : Time) : Option RelayCredential :=
  getByHash db.refreshTokens domainID hash now

/-- `RevokeRefreshByHash`: whether there was a row to change is not looked at. -/
def revokeRefreshByHash (domainID : Str) (hash : Bytes) (now : Time) : Database :=
  { db with refreshTokens := fun key => (db.refreshTokens key).map fun row =>
      if key = (domainID, hash) then row.revoke now else row }

/-- The first statement of `RevokeDeviceCredentials`. -/
def revokeDeviceAccess (domainID deviceID : Str) (now : Time) : Database :=
  { db with accessTokens := fun key => (db.accessTokens key).map fun row =>
      if key.1 = domainID ∧ row.deviceID = deviceID then row.revoke now else row }

/-- The second statement of `RevokeDeviceCredentials`. -/
def revokeDeviceRefresh (domainID deviceID : Str) (now : Time) : Database :=
  { db with refreshTokens := fun key => (db.refreshTokens key).map fun row =>
      if key.1 = domainID ∧ row.deviceID = deviceID then row.revoke now else row }

theorem devices_insertDevice_self (id : DeviceIdentity) (status : DeviceStatus) :
    (db.insertDevice id status).devices (id.domainID, id.deviceID) = some ⟨id, status⟩ :=
  Function.update_self ..

theorem devices_insertDevice_of_ne {id : DeviceIdentity} (status : DeviceStatus) {key : Str × Str}
    (hkey : key ≠ (id.domainID, id.deviceID)) :
    (db.insertDevice id status).devices key = db.devices key := Function.update_of_ne hkey ..

end Database

/-! ### Messages -/

/-- A message as it is stored for the first time. -/
structure NewMessage where
  domainID : Str
  messageID : Str
  senderDeviceID : Str
  recipientDeviceID : Str
  envelopeRaw : Bytes
  envelopeCanonical : Bytes
  priority : ℤ
  queuedAt : Time
  expiresAt : Time

/-- The key of a message that is to be stored. -/
def NewMessage.key (m : NewMessage) : Str × Str := (m.domainID, m.messageID)

/-- The row of a message that has not been there before. -/
def NewMessage.row (m : NewMessage) : RelayMessage where
  domainID := m.domainID
  messageID := m.messageID
  senderDeviceID := m.senderDeviceID
  recipientDeviceID := m.recipientDeviceID
  envelopeRaw := m.envelopeRaw
  envelopeCanonical := m.envelopeCanonical
  priority := m.priority
  queuedAt := timestamptz m.queuedAt
  expiresAt := timestamptz m.expiresAt
  deliveredAt := none
  deliveryClaimedUntil := none
  deliveryAttempts := 0

/-- The row of a message that has been there before: its sender, its recipient and its delivery
stay what they were. -/
def RelayMessage.restore (row : RelayMessage) (m : NewMessage) : RelayMessage :=
  { row with
    envelopeRaw := m.envelopeRaw
    envelopeCanonical := m.envelopeCanonical
    priority := m.priority
    expiresAt := timestamptz m.expiresAt }

/-- **`StoreMessage`**: an upsert, with the check the table makes of priorities. -/
def storeMessage (messages : Rows RelayMessage.key) (m : NewMessage) :
    Except Error (Rows RelayMessage.key) := do
  failIf (m.priority < 0 ∨ 9 < m.priority) sqlError
  return messages.upsert (·.restore m) (fun _ => rfl) m.row

theorem RelayMessage.key_restore (m : NewMessage) (row : RelayMessage) :
    (row.restore m).key = row.key := rfl

theorem get_storeMessage {messages messages' : Rows RelayMessage.key} {m : NewMessage}
    (h : storeMessage messages m = .ok messages') :
    messages'.get m.key = some ((messages.get m.key).elim m.row (·.restore m)) := by
  obtain ⟨_, -, ⟨⟩⟩ := bind_eq_ok_iff.mp h
  exact messages.get_upsert_self (RelayMessage.key_restore m) m.row

theorem get_storeMessage_of_ne {messages messages' : Rows RelayMessage.key} {m : NewMessage}
    (h : storeMessage messages m = .ok messages') {key : Str × Str} (hkey : key ≠ m.key) :
    messages'.get key = messages.get key := by
  obtain ⟨_, -, ⟨⟩⟩ := bind_eq_ok_iff.mp h
  exact messages.get_upsert_of_ne (RelayMessage.key_restore m) (a := m.row) hkey

/-- Whether a message may be claimed for a recipient. -/
def RelayMessage.Claimable (domainID recipient : Str) (now : Time) (m : RelayMessage) : Prop :=
  m.domainID = domainID ∧ m.recipientDeviceID = recipient ∧ m.deliveredAt = none ∧
    (timestamptz now).unixNano < m.expiresAt.unixNano ∧
    ∀ t ∈ m.deliveryClaimedUntil, t.unixNano ≤ (timestamptz now).unixNano

instance (domainID recipient : Str) (now : Time) (m : RelayMessage) :
    Decidable (m.Claimable domainID recipient now) := inferInstanceAs (Decidable (_ ∧ _))

/-- `ORDER BY priority DESC, queued_at`. -/
def byPriority (m m' : RelayMessage) : Bool :=
  Queue.before m.priority m'.priority m.queuedAt m'.queuedAt

/-- The messages a claim takes: the first ones that may be claimed and are not locked. -/
def pending (messages : Rows RelayMessage.key) (e : Env) (domainID recipient : Str) (now : Time)
    (limit : ℕ) : List RelayMessage :=
  (sortSlice byPriority e.ties (messages.list.filter fun m =>
    m.Claimable domainID recipient now ∧ e.locks m.key = false)).take limit

/-- A message that has been claimed until a time. -/
def RelayMessage.claim (m : RelayMessage) (t : Time) : RelayMessage :=
  { m with deliveryClaimedUntil := some t, deliveryAttempts := m.deliveryAttempts + 1 }

/-- **`ClaimPendingMessagesFor`**: the messages are claimed and returned, in any order. -/
def claimPendingMessagesFor (messages : Rows RelayMessage.key) (e : Env)
    (domainID recipient : Str) (now : Time) (lease : Duration) (limit : ℤ) :
    Except Error (Rows RelayMessage.key × List RelayMessage) := do
  failIf (domainID = []) (.new .storageInvalid (lit "domain_id is required"))
  failIf (trimSpace recipient = []) (.new .storageInvalid (lit "recipient device id is required"))
  if limit ≤ 0 then return (messages, [])
  failIf (lease ≤ 0) (.new .storageInvalid (lit "delivery lease must be positive"))
  failIf e.sqlFails sqlError
  let claimed := pending messages e domainID recipient now limit.toNat
  -- the counter is an `integer`
  failIf (∃ m ∈ claimed, 2 ^ 31 ≤ m.deliveryAttempts + 1) sqlError
  let isClaimed := fun m : RelayMessage => m.key ∈ claimed.map RelayMessage.key
  let messages := messages.update
    (fun m => if isClaimed m then m.claim (timestamptz (now.add lease)) else m) fun m => by
      split_ifs <;> rfl
  return (messages, shuffle e.order (messages.list.filter fun m => isClaimed m))

/-- `ListPendingMessages`. -/
def listPendingMessages (messages : Rows RelayMessage.key) (e : Env) (domainID : Str) (now : Time)
    (limit : ℕ) : List RelayMessage :=
  (sortSlice byPriority e.ties (messages.list.filter fun m => m.domainID = domainID ∧
    m.deliveredAt = none ∧ (timestamptz now).unixNano < m.expiresAt.unixNano)).take limit

/-- A message that has been delivered. -/
def RelayMessage.deliver (m : RelayMessage) (now : Time) : RelayMessage :=
  { m with deliveredAt := some (timestamptz now), deliveryClaimedUntil := none }

/-- The first statement of `MarkMessageDelivered`. -/
def markMessageDelivered (messages : Rows RelayMessage.key) (domainID messageID : Str)
    (now : Time) : Rows RelayMessage.key :=
  messages.update (fun m => if m.key = (domainID, messageID) then m.deliver now else m) fun m => by
    split_ifs <;> rfl

theorem get_markMessageDelivered (messages : Rows RelayMessage.key) (domainID messageID : Str)
    (now : Time) :
    (markMessageDelivered messages domainID messageID now).get (domainID, messageID) =
      (messages.get (domainID, messageID)).map (·.deliver now) := by
  rw [markMessageDelivered, Rows.get_update]
  refine Option.map_congr fun m hm => if_pos (Rows.mem_of_get hm).2

theorem get_markMessageDelivered_of_ne (messages : Rows RelayMessage.key)
    {domainID messageID : Str} (now : Time) {key : Str × Str} (hkey : key ≠ (domainID, messageID)) :
    (markMessageDelivered messages domainID messageID now).get key = messages.get key := by
  rw [markMessageDelivered, Rows.get_update]
  refine (Option.map_congr fun m hm => if_neg ?_).trans Option.map_id'
  rw [(Rows.mem_of_get hm).2]
  exact hkey

/-! ### Receipts -/

/-- `StoreReceipt`: an upsert that sets the status back. -/
def storeReceipt (receipts : Str × Str → Option RelayReceipt) (domainID receiptID messageID : Str)
    (status : ReceiptStatus) : Str × Str → Option RelayReceipt :=
  Function.update receipts (domainID, receiptID) (some (match receipts (domainID, receiptID) with
    | some row => { row with status := status }
    | none => ⟨messageID, status⟩))

/-- The second statement of `MarkMessageDelivered`. -/
def markReceiptsDelivered (receipts : Str × Str → Option RelayReceipt)
    (domainID messageID : Str) : Str × Str → Option RelayReceipt := fun key =>
  (receipts key).map fun row =>
    if key.1 = domainID ∧ row.messageID = messageID ∧ row.status = .queued then
      { row with status := .deliveredToConnection }
    else row

theorem length_zeroToken : (List.replicate 32 (0 : UInt8)).length = 32 := List.length_replicate

theorem length_zeroUUID : (List.replicate 10 (0 : UInt8)).length = 10 := List.length_replicate

/-- What a step may depend on when nothing fails and nothing is locked. -/
def exampleEnv (now : Time) : Env where
  now := now
  seed := none
  token := ⟨List.replicate 32 0, length_zeroToken⟩
  uuid := some ⟨List.replicate 10 0, length_zeroUUID⟩
  sqlFails := false
  choice := 0
  ties := fun _ => 0
  order := fun _ => 0
  locks := fun _ => false
  message := none
  writeFails := false

end Relay

end Iscp
