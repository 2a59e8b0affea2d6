import Iscp.Handler.Server
import Iscp.Relay.Server

/-!
# What the sections of the Relay do

`Iscp.Relay.Effect` lists what a section of a request may do to the state, and what it records,
with a database or without. What a section does may rest on what an earlier section of the same
request has found – a refresh token that is good, the identity of a device –, and that is on
record under the number of the request.

Every handler has only the effects of its request (`Iscp.Relay.handle_safe`), so the runs of the
server are runs of the effects (`Iscp.Relay.sound`).
-/

namespace Iscp

namespace Relay

open Go Crypto Identity Replay Service Provisioning

open Handler (anything safe_done safe_mapStop safe_note safe_read safe_section safe_stop
  safe_stopIf safe_try)

/-- A state, and the record of the sections that led to it. -/
abbrev Snapshot := Iscp.Config State Env Event

/-- The record of sections. -/
abbrev Trace := List (Entry Env Event)

/-- A Relay, with the requests that have come in. -/
abbrev World := Server.World State Env Event Answer Request

variable (P : Primitives) (J : Unmarshal) (cfg : Config)

/-- **The runs of a Relay**, each section meeting the condition. -/
def server (C : Snapshot → Entry Env Event → Prop) : System World (Server.Action Env Request) :=
  Server.system (Initial P cfg) (handle P J cfg) C

/-! ### Effects -/

/-- What a request has found out before it makes credentials. -/
def Origin.OnRecord (t : Trace) (i : ℕ) : Origin → Prop
  | .bound id => Did t i (.admitted id)
  | .refreshed hash cred => Did t i (.found hash cred) ∧ Did t i (.spent hash)

variable {origin : Origin} {ttl : Duration}

theorem Origin.OnRecord.extend {t t' : Trace} {i : ℕ} (h : origin.OnRecord t i) (ht : t <+: t') :
    origin.OnRecord t' i := by
  cases origin with
  | bound id => exact Did.extend h ht
  | refreshed hash cred => exact ⟨h.1.extend ht, h.2.extend ht⟩

/-- The ticket a registration uses, and how often it says it may be used. -/
def RegisterTicketRequest.counts (req : RegisterTicketRequest) : Str × ℤ :=
  match req.ticket with
  | some ticket => (ticket.ticketID, ticket.maxUses)
  | none => (req.ticketID, req.maxUses)

/-- The requests that bind an identity. -/
def Request.Binds (id : DeviceIdentity) : Request → Prop
  | .bindSelf _ req => req.identity = id
  | .registerWithTicket req => req.identity = id
  | _ => False

/-- The requests that exchange a refresh token. -/
def Request.Refreshes (hash : Bytes) : Request → Prop
  | .refreshAccess refresh => P.sha256 refresh = hash
  | _ => False

/-- The requests that revoke a device. -/
def Request.Revokes (deviceID : Str) : Request → Prop
  | .revokeAccess _ deviceID' => deviceID' = deviceID
  | _ => False

/-- **The effects on messages and connections.** -/
inductive MessageEffect (c : Snapshot) (x : Entry Env Event) : State → Prop where
  /-- A message is queued, unless it is too large. -/
  | enqueue {m : Queue.Message} {now : Time} (hrepo : cfg.repo = false)
      (hx : x.events = if (c.state.mem.queue.enqueue m now).2 then [.queued m] else []) :
      MessageEffect c x { c.state with
        mem := { c.state.mem with queue := (c.state.mem.queue.enqueue m now).1 } }
  /-- What has expired is dropped. -/
  | snapshot {ties : ℕ → ℕ} {now : Time} (hx : x.events = []) :
      MessageEffect c x { c.state with
        mem := { c.state.mem with queue := (c.state.mem.queue.snapshotMetadata ties now).1 } }
  /-- The messages for a connection are taken from the queue. -/
  | dequeue {id : DeviceIdentity} {ties : ℕ → ℕ} {now : Time} {limit : ℤ} (hrepo : cfg.repo = false)
      (hready : Did c.trace x.thread (.ready id))
      (hx : x.events = [.dequeued id.deviceID
        (c.state.mem.queue.dequeueFor ties id.domainID id.deviceID now limit).2]) :
      MessageEffect c x { c.state with
        mem := { c.state.mem with
          queue := (c.state.mem.queue.dequeueFor ties id.domainID id.deviceID now limit).1 } }
  /-- The messages for a connection are claimed. -/
  | claim {id : DeviceIdentity} {e : Env} {now : Time} {limit : ℤ}
      {r : Rows RelayMessage.key × List RelayMessage} (hrepo : cfg.repo = true)
      (hready : Did c.trace x.thread (.ready id))
      (hclaim : claimPendingMessagesFor c.state.db.messages e id.domainID id.deviceID now minute
        limit = .ok r) (hx : x.events = [.dequeued id.deviceID (r.2.map RelayMessage.message)]) :
      MessageEffect c x { c.state with db := { c.state.db with messages := r.1 } }
  /-- A message is marked as delivered. -/
  | mark {domainID messageID : Str} {now : Time} (hrepo : cfg.repo = true) (hx : x.events = []) :
      MessageEffect c x { c.state with
        db := { c.state.db with
          messages := markMessageDelivered c.state.db.messages domainID messageID now } }
  /-- The receipts of a message are marked. -/
  | markReceipts {domainID messageID : Str} (hrepo : cfg.repo = true) (hx : x.events = []) :
      MessageEffect c x { c.state with
        db := { c.state.db with
          deliveryReceipts :=
            markReceiptsDelivered c.state.db.deliveryReceipts domainID messageID } }
  /-- A message is stored. -/
  | store {m : NewMessage} {messages : Rows RelayMessage.key} (hrepo : cfg.repo = true)
      (hstore : storeMessage c.state.db.messages m = .ok messages)
      (hx : x.events = [.storedMessage m]) :
      MessageEffect c x { c.state with db := { c.state.db with messages := messages } }
  /-- A receipt is stored. -/
  | storeReceipt {domainID receiptID messageID : Str} {status : ReceiptStatus}
      (hrepo : cfg.repo = true) (hx : x.events = []) :
      MessageEffect c x { c.state with
        db := { c.state.db with
          deliveryReceipts :=
            storeReceipt c.state.db.deliveryReceipts domainID receiptID messageID status } }
  /-- Something is written to a connection. -/
  | send {frame : Frame} (hx : x.events = [.sent frame]) : MessageEffect c x c.state
  /-- A connection is over. -/
  | close {connections : Map ConnectionState} (hx : x.events = []) :
      MessageEffect c x { c.state with mem := { c.state.mem with connections := connections } }

/-- **The effects of a section** of a request. -/
inductive Effect (req : Request) (c : Snapshot) (x : Entry Env Event) : State → Prop where
  /-- Nothing is changed. -/
  | idle (hx : x.events = []) : Effect req c x c.state
  /-- The nonce of a proof is used. -/
  | nonce {s : State} {ttl : Duration} (httl : ttl = minute ∨ ttl = 5 * minute)
      (h : NonceEffect P nonceStore cfg.repo Event.used ttl c.state x.events s) : Effect req c x s
  /-- Messages or connections are changed. -/
  | message {s : State} (h : MessageEffect cfg c x s) : Effect req c x s
  /-- A use of a ticket is counted. -/
  | consume {ticketID : Str} {maxUses : ℤ} {state : TicketState}
      (huse : (c.state.mem.ticket ticketID).use maxUses = some state)
      (hx : x.events = [.consumed ticketID maxUses]) :
      Effect req c x { c.state with
        mem := { c.state.mem with tickets := c.state.mem.tickets.set ticketID state } }
  /-- An identity that has been proven is admitted. -/
  | admitted {id : DeviceIdentity} {proof : DeviceProof} {challenge : Str} {now : Time}
      (hreq : req.Binds id) (hused : Did c.trace x.thread (.used proof (5 * minute) now true))
      (hproof : ProofVerified P id proof cfg.relayID challenge now (5 * minute))
      (hx : x.events = [.admitted id]) : Effect req c x c.state
  /-- An identity that was admitted is written to the database. -/
  | storeDevice {id : DeviceIdentity} (hrepo : cfg.repo = true) (hreq : req.Binds id)
      (hadmitted : Did c.trace x.thread (.admitted id)) (hx : x.events = [.stored id]) :
      Effect req c x { c.state with db := c.state.db.insertDevice id .active }
  /-- An access token is written to the database. -/
  | storeAccess {origin : Origin} {token : Str} {expiresAt : Time} {db : Database}
      (hrepo : cfg.repo = true) (hreq : ∀ d, ¬req.Revokes d)
      (horigin : origin.OnRecord c.trace x.thread)
      (hdb : c.state.db.storeAccessHash origin.domainID origin.deviceID (P.sha256 token)
        expiresAt = .ok db)
      (hx : x.events = [.keptAccess (newCredential P origin token expiresAt)]) :
      Effect req c x { c.state with db := db }
  /-- A refresh token is written to the database. -/
  | storeRefresh {origin : Origin} {token : Str} {expiresAt : Time} {db : Database}
      (hrepo : cfg.repo = true) (hreq : ∀ d, ¬req.Revokes d)
      (horigin : origin.OnRecord c.trace x.thread)
      (hdb : c.state.db.storeRefreshHash origin.domainID origin.deviceID (P.sha256 token)
        expiresAt = .ok db) (hx : x.events = [.keptRefresh (P.sha256 token)]) :
      Effect req c x { c.state with db := db }
  /-- A pair of credentials is entered. -/
  | issue {origin : Origin} {accessToken refreshToken : Str} {accessExpires refreshExpires : Time}
      (hreq : ∀ d, ¬req.Revokes d) (horigin : origin.OnRecord c.trace x.thread)
      (hkept : cfg.repo = true →
        Did c.trace x.thread (.keptAccess (newCredential P origin accessToken accessExpires)))
      (hx : x.events = [.issued origin (newCredential P origin accessToken accessExpires)
        (newCredential P origin refreshToken refreshExpires)]) :
      Effect req c x { c.state with
        mem := c.state.mem.issue (newCredential P origin accessToken accessExpires)
          (newCredential P origin refreshToken refreshExpires) }
  /-- An identity that was admitted is entered. -/
  | bind {id : DeviceIdentity} (hreq : req.Binds id)
      (hadmitted : Did c.trace x.thread (.admitted id)) (hx : x.events = [.bound id]) :
      Effect req c x { c.state with
        mem := { c.state.mem with devices := c.state.mem.devices.set id.deviceID id } }
  /-- A refresh token is found in memory. -/
  | find {hash : Bytes} {cred : Credential} (hreq : req.Refreshes P hash)
      (hfound : c.state.mem.refresh hash = some cred) (hgood : cred.revoked = false)
      (hx : x.events = [.found hash cred]) : Effect req c x c.state
  /-- A refresh token is found in the database. -/
  | findRow {hash : Bytes} {now : Time} {row : RelayCredential} (hrepo : cfg.repo = true)
      (hreq : req.Refreshes P hash)
      (hfound : c.state.db.getRefreshByHash cfg.domainID hash now = some row)
      (hx : x.events = [.found hash (row.credential cfg.domainID hash)]) : Effect req c x c.state
  /-- A refresh token that was found is marked in memory. -/
  | mark {hash : Bytes} {cred : Credential} (hfound : Did c.trace x.thread (.found hash cred))
      (hx : x.events = .marked hash :: if cfg.repo then [] else [.spent hash]) :
      Effect req c x { c.state with mem := c.state.mem.markRefresh hash }
  /-- A refresh token that was marked is revoked in the database. -/
  | spend {hash : Bytes} {now : Time} (hrepo : cfg.repo = true)
      (hmarked : Did c.trace x.thread (.marked hash)) (hx : x.events = [.spent hash]) :
      Effect req c x { c.state with db := c.state.db.revokeRefreshByHash cfg.domainID hash now }
  /-- An access token that has expired, by a reading of the clock, is marked. -/
  | expire {hash : Bytes} {now : Time} (hnow : ∃ y ∈ c.trace, y.env.now.utc = now)
      (hx : x.events = []) :
      Effect req c x { c.state with mem := c.state.mem.expireAccess hash now }
  /-- An access token is found in memory. -/
  | recognize {hash : Bytes} {now : Time} {cred : Credential}
      (hfound : c.state.mem.findAccess hash now = some cred)
      (hx : x.events = [.recognized cred now]) : Effect req c x c.state
  /-- An access token is found in the database. -/
  | recognizeRow {hash : Bytes} {now : Time} {row : RelayCredential} (hrepo : cfg.repo = true)
      (hfound : c.state.db.getAccessByHash cfg.domainID hash now = some row)
      (hx : x.events = [.recognized (row.credential cfg.domainID hash) now]) :
      Effect req c x c.state
  /-- A device is revoked in memory. -/
  | revoke {deviceID : Str} (hreq : req.Revokes deviceID) (hx : x.events = [.revoked deviceID]) :
      Effect req c x { c.state with
        mem := { c.state.mem.revokeDevice deviceID with locked := cfg.repo } }
  /-- The row of a device is revoked. -/
  | revokeRow {deviceID : Str} (hrepo : cfg.repo = true) (hreq : req.Revokes deviceID)
      (hx : x.events = [.revokedRow deviceID]) :
      Effect req c x { c.state with db := c.state.db.revokeDevice cfg.domainID deviceID }
  /-- The rows of a device's access tokens are revoked. -/
  | revokeAccess {deviceID : Str} {now : Time} (hrepo : cfg.repo = true)
      (hreq : req.Revokes deviceID) (hx : x.events = [.revokedAccess deviceID]) :
      Effect req c x { c.state with db := c.state.db.revokeDeviceAccess cfg.domainID deviceID now }
  /-- The rows of a device's refresh tokens are revoked. -/
  | revokeRefresh {deviceID : Str} {now : Time} (hrepo : cfg.repo = true)
      (hreq : req.Revokes deviceID) (hx : x.events = [.revokedRefresh deviceID]) :
      Effect req c x { c.state with db := c.state.db.revokeDeviceRefresh cfg.domainID deviceID now }
  /-- The mutex is released. -/
  | unlock (hx : x.events = []) :
      Effect req c x { c.state with mem := { c.state.mem with locked := false } }
  /-- A connection finds the identity of a device in memory. -/
  | look {deviceID : Str} {id : DeviceIdentity} (hfound : c.state.mem.devices deviceID = some id)
      (hrevoked : c.state.mem.revoked deviceID = none) (hx : x.events = [.looked deviceID id]) :
      Effect req c x c.state
  /-- A connection finds the identity of a device in the database. -/
  | lookRow {deviceID : Str} {row : RelayDevice} (hrepo : cfg.repo = true)
      (hfound : c.state.db.devices (cfg.domainID, deviceID) = some row)
      (hrevoked : row.status ≠ .revoked) (hx : x.events = [.looked deviceID row.identity]) :
      Effect req c x c.state
  /-- A connection whose proof has been checked is ready. -/
  | ready {id : DeviceIdentity} {proof : DeviceProof} {challenge : Str} {now : Time}
      {connections : Map ConnectionState} (hlooked : Did c.trace x.thread (.looked id.deviceID id))
      (hused : Did c.trace x.thread (.used proof minute now true))
      (hproof : ProofVerified P id proof cfg.relayID challenge now minute)
      (hx : x.events = [.ready id]) :
      Effect req c x { c.state with mem := { c.state.mem with connections := connections } }

/-- **What is known when a request has been answered.** -/
def Answered (i : ℕ) : Request → Answer → Trace → Prop
  | .registerWithTicket req, .json 200 _, t => Did t i (.consumed req.counts.1 req.counts.2)
  | .refreshAccess refresh, .json 200 _, t =>
    (∃ cred, Did t i (.found (P.sha256 refresh) cred)) ∧ Did t i (.spent (P.sha256 refresh))
  | .revokeAccess _ deviceID, .json 200 _, t => Did t i (.revoked deviceID) ∧
      (cfg.repo = true → Did t i (.revokedRow deviceID) ∧ Did t i (.revokedAccess deviceID) ∧
        Did t i (.revokedRefresh deviceID))
  | _, _, _ => True

/-! ### The sections of the handlers -/

section Safe

variable {P J cfg} {req : Request} {i : ℕ} {t : Trace} {ω α : Type}

theorem effect_idle (s : State) (t : Trace) (e : Env) : Effect P cfg req ⟨s, t⟩ ⟨i, e, []⟩ s :=
  .idle rfl

variable {domainID challenge deviceID method : Str} {Q : Unit → Trace → Prop} {id : DeviceIdentity}
  {proof : DeviceProof} {now : Time} {hash raw : Bytes} {cred : Credential}
  {X : Answer → Trace → Prop} {m : EnvelopeMeta}

/-- **The rule for a statement.** -/
theorem safe_statement {f : Env → Database → Except Error (Database × α × List Event)}
    {Q : α → Trace → Prop}
    (hok : ∀ s t' e db a events, t <+: t' → f e s.db = .ok (db, a, events) →
      Effect P cfg req ⟨s, t'⟩ ⟨i, e, events⟩ { s with db := db } ∧
        ∀ t'', t <+: t'' → (∀ v ∈ events, Did t'' i v) → Q a t'') :
    (statement domainID f).Safe (Effect P cfg req) i Q anything t := by
  refine .bind (safe_stopIf (fun _ _ _ => trivial) fun _ t₁ ht₁ => ?_)
  refine safe_section effect_idle (fun s t' e s' a events ht h => ?_) fun _ _ _ _ _ => trivial
  split_ifs at h
  obtain ⟨⟨db, a, events⟩, hf, ⟨⟩⟩ := bind_eq_ok_iff.mp h
  obtain ⟨hE, hQ⟩ := hok s t' e db a events (ht₁.trans ht) hf
  exact ⟨hE, fun t'' ht'' => hQ t'' (ht₁.trans ht'')⟩

theorem verifyProof_safe {audience : Str} (httl : ttl = minute ∨ ttl = 5 * minute)
    (hQ : ∀ now t', t <+: t' → ProofVerified P id proof audience challenge now ttl →
      Did t' i (.used proof ttl now true) → Q () t') :
    (verifyProof P cfg id proof audience challenge ttl).Safe (Effect P cfg req) i Q anything t :=
  Service.verifyProof_safe effect_idle (fun _ _ _ _ _ h => .nonce httl h) hQ fun _ _ _ => trivial

/-- A device is stored only after it was admitted. -/
theorem persistDevice_safe (hreq : req.Binds id) (hadmitted : Did t i (.admitted id))
    (hQ : ∀ t', t <+: t' → Q () t') :
    (persistDevice P cfg id).Safe (Effect P cfg req) i Q anything t := by
  rw [persistDevice]
  split_ifs with hrepo
  · refine .bind (safe_try fun _ t₁ _ ht₁ => ?_)
    refine .bind (safe_try fun _ t₂ _ ht₂ => ?_)
    refine .bind (safe_clock effect_idle fun now t₃ ht₃ => ?_)
    refine .bind (newUUID_safe effect_idle (fun _ t₄ ht₄ => ?_) fun _ _ _ => trivial)
    have ht := ht₁.trans (ht₂.trans (ht₃.trans ht₄))
    refine safe_statement fun s t₅ e db a events ht₅ h => ?_
    cases h
    exact ⟨.storeDevice hrepo hreq (hadmitted.extend (ht.trans ht₅)) rfl, fun t₆ ht₆ _ =>
      hQ t₆ (ht.trans ht₆)⟩
  · exact safe_done hQ

/-- Rows are written for tokens whose origin is on record. -/
theorem persistCredentials_safe (hreq : ∀ d, ¬req.Revokes d) (horigin : origin.OnRecord t i)
    (accessToken refreshToken : Str) (accessExpires refreshExpires now : Time)
    (hQ : ∀ t', t <+: t' → (cfg.repo = true →
      Did t' i (.keptAccess (newCredential P origin accessToken accessExpires))) → Q () t') :
    (persistCredentials cfg (newCredential P origin accessToken accessExpires)
      (newCredential P origin refreshToken refreshExpires) now).Safe (Effect P cfg req) i Q
      anything t := by
  rw [persistCredentials]
  split_ifs with hrepo
  · refine .bind (newUUID_safe effect_idle (fun _ t₁ ht₁ => ?_) fun _ _ _ => trivial)
    refine .bind (newUUID_safe effect_idle (fun _ t₂ ht₂ => ?_) fun _ _ _ => trivial)
    have ht := ht₁.trans ht₂
    refine .bind (safe_statement fun s t₃ e db a events ht₃ h => ?_)
    obtain ⟨db, hdb, ⟨⟩⟩ := bind_eq_ok_iff.mp h
    refine ⟨.storeAccess hrepo hreq (horigin.extend (ht.trans ht₃)) hdb rfl, fun t₄ ht₄ hkept => ?_⟩
    refine safe_statement fun s t₅ e db a events ht₅ h => ?_
    obtain ⟨db, hdb, ⟨⟩⟩ := bind_eq_ok_iff.mp h
    exact ⟨.storeRefresh hrepo hreq (horigin.extend (ht.trans (ht₄.trans ht₅))) hdb rfl,
      fun t₆ ht₆ _ => hQ t₆ (ht.trans (ht₄.trans ht₆)) fun _ =>
        (hkept _ (List.mem_singleton_self _)).extend ht₆⟩
  · exact safe_done fun t₁ ht₁ => hQ t₁ ht₁ fun h => absurd h hrepo

theorem issueCredentials_safe (hreq : ∀ d, ¬req.Revokes d) (horigin : origin.OnRecord t i)
    {Q : Credential × Credential → Trace → Prop} (hQ : ∀ r t', t <+: t' → Q r t') :
    (issueCredentials P cfg origin).Safe (Effect P cfg req) i Q anything t := by
  refine .bind (safe_clock effect_idle fun now t₁ ht₁ => ?_)
  refine .bind (safe_read effect_idle fun s e t₂ ht₂ => ?_)
  refine .bind (safe_read effect_idle fun s' e' t₃ ht₃ => ?_)
  have ht := ht₁.trans (ht₂.trans ht₃)
  refine .bind (persistCredentials_safe hreq (horigin.extend ht) _ _ _ _ _ fun t₄ ht₄ hkept => ?_)
  refine safe_section effect_idle (fun s t₅ e s' r events ht₅ h => ?_) fun _ _ _ _ _ => trivial
  cases h
  exact ⟨.issue hreq (horigin.extend (ht.trans (ht₄.trans ht₅)))
    (fun hrepo => (hkept hrepo).extend ht₅) rfl, fun t₆ ht₆ _ =>
    hQ _ t₆ (ht.trans (ht₄.trans ht₆))⟩

theorem Request.Binds.not_revokes (h : req.Binds id) (d : Str) : ¬req.Revokes d := by
  cases req with
  | revokeAccess _ _ => exact h.elim
  | _ => exact fun hd => hd

/-- **Binding an identity** that has been proven. -/
theorem bindIdentity_safe (hreq : req.Binds id)
    (hproof : ProofVerified P id proof cfg.relayID challenge now (5 * minute))
    (hused : Did t i (.used proof (5 * minute) now true)) {Q : Answer → Trace → Prop}
    (hQ : ∀ access refresh t', t <+: t' → Q (.json 200 (.credentials access refresh)) t')
    (herror : ∀ status err t', Q (writeError status err) t') :
    (bindIdentity P cfg id).Safe (Effect P cfg req) i Q Q t := by
  refine .bind (safe_note fun s t₁ e ht₁ =>
    ⟨.admitted hreq (hused.extend ht₁) hproof rfl, fun t₂ ht₂ => ?_⟩)
  have hadmitted : Did t₂ i (.admitted id) := did_of_snoc ht₂ (List.mem_singleton_self _)
  have ht := ht₁.trans ((List.prefix_append _ _).trans ht₂)
  refine .bind (safe_mapStop (herror 500) (persistDevice_safe hreq hadmitted fun t₃ ht₃ => ?_))
  refine .bind (safe_mapStop (herror 500) (issueCredentials_safe hreq.not_revokes
    (show (Origin.bound id).OnRecord t₃ i from hadmitted.extend ht₃) fun r t₄ ht₄ => ?_))
  refine .bind (safe_section effect_idle (fun s t₅ e s' u events ht₅ h => ?_)
    fun _ _ _ _ h => by cases h)
  cases h
  refine ⟨.bind hreq (hadmitted.extend (ht₃.trans (ht₄.trans ht₅))) rfl, fun t₆ ht₆ _ => ?_⟩
  exact safe_done fun t₇ ht₇ =>
    hQ _ _ t₇ (ht.trans (ht₃.trans (ht₄.trans (ht₆.trans ht₇))))

theorem bindSelf_safe (h : Headers) (r : BindSelfRequest) :
    (bindSelf P cfg h r).Safe (Effect P cfg (.bindSelf h r)) i anything anything t := by
  refine .bind (safe_stopIf (fun _ _ _ => trivial) fun _ t₁ _ => ?_)
  refine .bind (safe_mapStop (fun _ _ => trivial)
    (verifyProof_safe (.inr rfl) fun now t₂ _ hproof hused => ?_))
  have hreq : (Request.bindSelf h r).Binds r.identity := rfl
  exact bindIdentity_safe hreq hproof hused (fun _ _ _ _ => trivial) fun _ _ _ => trivial

/-- **A use of a ticket** goes on record. -/
theorem consumeTicket_safe {ticketID : Str} {maxUses : ℤ}
    (hQ : ∀ t', t <+: t' → Did t' i (.consumed ticketID maxUses) → Q () t') :
    (consumeTicket ticketID maxUses).Safe (Effect P cfg req) i Q anything t := by
  refine safe_section effect_idle (fun s t₁ e s' u events _ h => ?_) fun _ _ _ _ _ => trivial
  split at h
  · next state huse =>
    cases h
    exact ⟨.consume huse rfl, fun t₂ ht₂ hdid => hQ t₂ ht₂ (hdid _ (List.mem_singleton_self _))⟩
  · cases h

/-- What the sections of a registration do. -/
theorem registerWithTicket_safe (r : RegisterTicketRequest) :
    (registerWithTicket P cfg r).Safe (Effect P cfg (.registerWithTicket r)) i
      (Answered P cfg i (.registerWithTicket r)) (Answered P cfg i (.registerWithTicket r)) t := by
  have hreq : (Request.registerWithTicket r).Binds r.identity := rfl
  -- a use of the ticket is on record when the identity is bound
  have hbind : ∀ {challenge now t'}, ProofVerified P r.identity r.proof cfg.relayID challenge now
      (5 * minute) → Did t' i (.used r.proof (5 * minute) now true) →
      Did t' i (.consumed r.counts.1 r.counts.2) →
      (bindIdentity P cfg r.identity).Safe (Effect P cfg (.registerWithTicket r)) i
        (Answered P cfg i (.registerWithTicket r)) (Answered P cfg i (.registerWithTicket r)) t' :=
    fun hproof hused hconsumed => bindIdentity_safe hreq hproof hused
      (fun _ _ _ ht => hconsumed.extend ht) fun _ _ _ => trivial
  rw [registerWithTicket]
  split
  · next ticket hticket =>
    rw [RegisterTicketRequest.counts, hticket] at hbind
    rw [registerWithSignedTicket]
    split
    · exact safe_stop fun _ _ => trivial
    · refine .bind (safe_clock effect_idle fun now t₁ ht₁ => ?_)
      refine .bind (safe_mapStop (fun _ _ => trivial) (safe_try fun _ t₂ _ _ => ?_))
      refine .bind (safe_stopIf (fun _ _ _ => trivial) fun _ t₃ _ => ?_)
      refine .bind (safe_stopIf (fun _ _ _ => trivial) fun _ t₄ _ => ?_)
      refine .bind (safe_mapStop (fun _ _ => trivial)
        (verifyProof_safe (.inr rfl) fun now t₅ _ hproof hused => ?_))
      refine .bind (safe_mapStop (fun _ _ => trivial) (safe_try fun _ t₆ _ ht₆ => ?_))
      refine .bind (safe_mapStop (fun _ _ => trivial) (consumeTicket_safe fun t₇ ht₇ hdid => ?_))
      exact hbind hproof (hused.extend (ht₆.trans ht₇)) hdid
  · next hticket =>
    rw [RegisterTicketRequest.counts, hticket] at hbind
    refine .bind (safe_stopIf (fun _ _ _ => trivial) fun _ t₁ _ => ?_)
    refine .bind (safe_mapStop (fun _ _ => trivial)
      (verifyProof_safe (.inr rfl) fun now t₂ _ hproof hused => ?_))
    refine .bind (safe_mapStop (fun _ _ => trivial) (consumeTicket_safe fun t₃ ht₃ hdid => ?_))
    exact hbind hproof (hused.extend ht₃) hdid

/-- **A refresh token that is good** goes on record. -/
theorem lookupRefresh_safe (hreq : req.Refreshes P hash) {Q : Option Credential → Trace → Prop}
    (hQ : ∀ found t', t <+: t' →
      (∀ cred, found = some cred → cred.revoked = false → Did t' i (.found hash cred)) →
      Q found t') : (lookupRefresh cfg hash).Safe (Effect P cfg req) i Q anything t := by
  refine .bind (safe_section effect_idle (fun s t₁ e s' found events _ h => ?_)
    fun _ _ _ _ _ => trivial)
  cases h
  refine ⟨?_, fun t₂ ht₂ hdid => ?_⟩
  · cases hfound : s.mem.findRefresh hash e.now with
    | none => exact .idle rfl
    | some cred =>
      obtain ⟨hmem, -⟩ := Option.filter_eq_some_iff.mp hfound
      cases hgood : cred.revoked with
      | true =>
        refine .idle ?_
        simp [hgood]
      | false =>
        refine .find hreq hmem hgood ?_
        simp [hgood]
  split_ifs with hnone
  · refine .bind (safe_clock effect_idle fun now t₃ ht₃ => ?_)
    refine safe_statement fun s t₄ e db found events _ h => ?_
    cases h
    refine ⟨?_, fun t₅ ht₅ hdid => hQ _ t₅ (ht₂.trans (ht₃.trans ht₅)) fun cred hcred _ => ?_⟩
    · cases hfound : s.db.getRefreshByHash cfg.domainID hash now with
      | none => exact .idle rfl
      | some row => exact .findRow hnone.2 hreq hfound rfl
    · rw [hcred] at hdid
      exact hdid _ (List.mem_singleton_self _)
  · refine safe_done fun t₃ ht₃ => hQ _ t₃ (ht₂.trans ht₃) fun cred hcred hgood => ?_
    rw [hcred] at hdid
    refine (hdid _ ?_).extend ht₃
    simp [hgood]

/-- A refresh token is spent only after it was found. -/
theorem revokeRefreshCredential_safe (hfound : Did t i (.found hash cred))
    (hQ : ∀ t', t <+: t' → Did t' i (.spent hash) → Q () t') :
    (revokeRefreshCredential cfg hash).Safe (Effect P cfg req) i Q anything t := by
  refine .bind (safe_section effect_idle (fun s t₁ e s' u events ht₁ h => ?_)
    fun _ _ _ _ _ => trivial)
  cases h
  refine ⟨.mark (hfound.extend ht₁) rfl, fun t₂ ht₂ hdid => ?_⟩
  have hmarked := hdid _ List.mem_cons_self
  split_ifs with hrepo
  · refine .bind (safe_clock effect_idle fun now t₃ ht₃ => ?_)
    refine safe_statement fun s t₄ e db u events ht₄ h => ?_
    cases h
    exact ⟨.spend hrepo (hmarked.extend (ht₃.trans ht₄)) rfl, fun t₅ ht₅ hdid =>
      hQ t₅ (ht₂.trans (ht₃.trans ht₅)) (hdid _ (List.mem_singleton_self _))⟩
  · refine safe_done fun t₃ ht₃ => hQ t₃ (ht₂.trans ht₃) ((hdid _ ?_).extend ht₃)
    rw [if_neg hrepo]
    exact List.mem_cons_of_mem _ (List.mem_singleton_self _)

/-- What the sections of a refresh do. -/
theorem refreshAccess_safe (refresh : Str) :
    (refreshAccess P cfg refresh).Safe (Effect P cfg (.refreshAccess refresh)) i
      (Answered P cfg i (.refreshAccess refresh))
      (Answered P cfg i (.refreshAccess refresh)) t := by
  have hreq : (Request.refreshAccess refresh).Refreshes P (P.sha256 refresh) := rfl
  refine .bind (safe_mapStop (fun _ _ => trivial)
    (lookupRefresh_safe hreq fun found t₁ _ hfound => ?_))
  cases found with
  | none => exact safe_stop fun _ _ => trivial
  | some cred =>
    refine .bind (safe_stopIf (fun _ _ _ => trivial) fun hgood t₂ ht₂ => ?_)
    have hfound' := (hfound cred rfl (Bool.not_eq_true _ |>.mp hgood)).extend ht₂
    refine .bind (safe_read effect_idle fun s e t₃ ht₃ => ?_)
    refine .bind (safe_stopIf (fun _ _ _ => trivial) fun _ t₄ ht₄ => ?_)
    refine .bind (safe_mapStop (fun _ _ => trivial) (revokeRefreshCredential_safe
      (hfound'.extend (ht₃.trans ht₄)) fun t₅ ht₅ hspent => ?_))
    have hfound₅ := hfound'.extend (ht₃.trans (ht₄.trans ht₅))
    refine .bind (safe_mapStop (fun _ _ => trivial) (issueCredentials_safe (fun _ => id)
      (show (Origin.refreshed (P.sha256 refresh) cred).OnRecord t₅ i from ⟨hfound₅, hspent⟩)
      fun r t₆ ht₆ => ?_))
    exact safe_done fun t₇ ht₇ =>
      ⟨⟨cred, hfound₅.extend (ht₆.trans ht₇)⟩, hspent.extend (ht₆.trans ht₇)⟩

theorem lookupIdentity_safe {Q : Option DeviceIdentity → Trace → Prop}
    (hQ : ∀ found t', t <+: t' → Q found t') :
    (lookupIdentity cfg domainID deviceID).Safe (Effect P cfg req) i Q anything t := by
  refine .bind (safe_section effect_idle (fun s t₁ e s' found events _ h => ?_)
    fun _ _ _ _ _ => trivial)
  cases h
  refine ⟨?_, fun t₁ ht₁ _ => ?_⟩
  · cases hfound : (s.mem.devices deviceID).filter fun id =>
        (s.mem.revoked deviceID).isNone && decide (id.domainID = domainID) with
    | none => exact .idle rfl
    | some id =>
      obtain ⟨hdevice, hgood⟩ := Option.filter_eq_some_iff.mp hfound
      rw [Bool.and_eq_true, Option.isNone_iff_eq_none] at hgood
      exact .look hdevice hgood.1 rfl
  split
  · exact safe_done fun t₂ ht₂ => hQ _ t₂ (ht₁.trans ht₂)
  · split_ifs
    · refine safe_statement fun s t₂ e db found events _ h => ?_
      cases h
      exact ⟨effect_idle s t₂ e, fun t₃ ht₃ _ => hQ _ t₃ (ht₁.trans ht₃)⟩
    · exact safe_done fun t₂ ht₂ => hQ _ t₂ (ht₁.trans ht₂)

theorem verifyAccessProof_safe {h : Headers} {path : Str} (hQ : ∀ t', t <+: t' → Q () t') :
    (verifyAccessProof P J cfg h method path cred hash).Safe (Effect P cfg req) i Q anything t := by
  rw [verifyAccessProof]
  split_ifs
  · refine .bind (safe_stopIf (fun _ _ _ => trivial) fun _ t₁ ht₁ => ?_)
    refine .bind (safe_try fun raw t₂ _ ht₂ => ?_)
    split
    · exact safe_stop fun _ _ => trivial
    · refine .bind (lookupIdentity_safe fun found t₃ ht₃ => ?_)
      split
      · exact safe_stop fun _ _ => trivial
      · exact verifyProof_safe (.inl rfl) fun now t₄ ht₄ _ _ =>
          hQ t₄ (ht₁.trans (ht₂.trans (ht₃.trans ht₄)))
  · exact safe_done hQ

theorem Memory.expireAccess_of_findAccess {m : Memory} (h : m.findAccess hash now = some cred) :
    m.expireAccess hash now = m := by
  obtain ⟨hmem, hgood⟩ := Option.filter_eq_some_iff.mp h
  rw [Bool.and_eq_true, Time.before_iff] at hgood
  have hlate : ¬now.after cred.expiresAt = true := by
    rw [Time.after_iff]
    exact hgood.2.not_gt
  rw [expireAccess, hmem]
  simp [hlate]

/-- **An access token that is good** goes on record. -/
theorem lookupAccess_safe {Q : Option Credential → Trace → Prop}
    (hnow : ∃ y ∈ t, y.env.now.utc = now) (hQ : ∀ found t', t <+: t' →
      (∀ cred, found = some cred → Did t' i (.recognized cred now)) → Q found t') :
    (lookupAccess cfg hash now).Safe (Effect P cfg req) i Q anything t := by
  refine .bind (safe_section effect_idle (fun s t₁ e s' found events ht₁ h => ?_)
    fun _ _ _ _ _ => trivial)
  cases h
  refine ⟨?_, fun t₂ ht₂ hdid => ?_⟩
  · cases hfound : s.mem.findAccess hash now with
    | none =>
      obtain ⟨y, hy, hread⟩ := hnow
      exact .expire ⟨y, ht₁.subset hy, hread⟩ rfl
    | some cred =>
      rw [Memory.expireAccess_of_findAccess hfound]
      exact .recognize hfound rfl
  split_ifs with hnone
  · refine safe_statement fun s t₃ e db found events _ h => ?_
    cases h
    refine ⟨?_, fun t₄ ht₄ hdid => hQ _ t₄ (ht₂.trans ht₄) fun cred hcred => ?_⟩
    · cases hfound : s.db.getAccessByHash cfg.domainID hash now with
      | none => exact .idle rfl
      | some row => exact .recognizeRow hnone.2 hfound rfl
    · rw [hcred] at hdid
      exact hdid _ (List.mem_singleton_self _)
  · refine safe_done fun t₃ ht₃ => hQ _ t₃ (ht₂.trans ht₃) fun cred hcred => ?_
    rw [hcred] at hdid
    exact (hdid _ (List.mem_singleton_self _)).extend ht₃

theorem authenticateAccess_safe {h : Headers} {path : Str} {Q : Credential → Trace → Prop}
    (hQ : ∀ cred now t', t <+: t' → Did t' i (.recognized cred now) → Q cred t') :
    (authenticateAccess P J cfg h method path).Safe (Effect P cfg req) i Q anything t := by
  refine .bind (safe_stopIf (fun _ _ _ => trivial) fun _ t₁ ht₁ => ?_)
  refine .bind (safe_reading effect_idle fun now t₂ ht₂ hnow => ?_)
  refine .bind (lookupAccess_safe hnow fun found t₃ ht₃ hfound => ?_)
  cases found with
  | none => exact safe_stop fun _ _ => trivial
  | some cred =>
    refine .bind (verifyAccessProof_safe fun t₄ ht₄ => ?_)
    exact safe_done fun t₅ ht₅ =>
      hQ cred now t₅ (ht₁.trans (ht₂.trans (ht₃.trans (ht₄.trans ht₅))))
        ((hfound cred rfl).extend (ht₄.trans ht₅))

/-- The three statements of a revocation, in their order. -/
theorem revokeRows_safe (hrepo : cfg.repo = true) (hreq : req.Revokes deviceID)
    (hQ : ∀ t', t <+: t' → Did t' i (.revokedRow deviceID) ∧ Did t' i (.revokedAccess deviceID) ∧
      Did t' i (.revokedRefresh deviceID) → Q () t') :
    (revokeRows cfg deviceID).Safe (Effect P cfg req) i Q anything t := by
  refine .bind (safe_clock effect_idle fun now t₁ ht₁ => ?_)
  refine .bind (safe_statement fun s t₂ e db u events _ h => ?_)
  cases h
  refine ⟨.revokeRow hrepo hreq rfl, fun t₃ ht₃ hrow => ?_⟩
  refine .bind (safe_statement fun s t₄ e db u events _ h => ?_)
  cases h
  refine ⟨.revokeAccess hrepo hreq rfl, fun t₅ ht₅ haccess => ?_⟩
  refine safe_statement fun s t₆ e db u events _ h => ?_
  cases h
  refine ⟨.revokeRefresh hrepo hreq rfl, fun t₇ ht₇ hrefresh => ?_⟩
  exact hQ t₇ (ht₁.trans (ht₃.trans (ht₅.trans ht₇)))
    ⟨(hrow _ (List.mem_singleton_self _)).extend (ht₅.trans ht₇),
      (haccess _ (List.mem_singleton_self _)).extend ht₇, hrefresh _ (List.mem_singleton_self _)⟩

theorem revokeRowsAndUnlock_safe (hreq : req.Revokes deviceID)
    (herror : ∀ status err t', X (writeError status err) t')
    (hQ : ∀ t', t <+: t' → (cfg.repo = true → Did t' i (.revokedRow deviceID) ∧
      Did t' i (.revokedAccess deviceID) ∧ Did t' i (.revokedRefresh deviceID)) → Q () t') :
    (revokeRowsAndUnlock cfg deviceID).Safe (Effect P cfg req) i Q X t := by
  rw [revokeRowsAndUnlock]
  split_ifs with hrepo
  · refine .bind (.outcome ((revokeRows_safe hrepo hreq fun t₁ ht₁ hdid => ?_).mono
      (fun _ _ _ h => h) fun r t₁ _ _ => ?_))
    · refine .bind (safe_section effect_idle (fun s t₂ e s' u events _ h => ?_)
        fun _ _ _ _ h => by cases h)
      cases h
      refine ⟨.unlock rfl, fun t₃ ht₃ _ => safe_done fun t₄ ht₄ => ?_⟩
      have ht := ht₃.trans ht₄
      exact hQ t₄ (ht₁.trans ht) fun _ =>
        ⟨hdid.1.extend ht, hdid.2.1.extend ht, hdid.2.2.extend ht⟩
    · refine .bind (safe_section effect_idle (fun s t₂ e s' u events _ h => ?_)
        fun _ _ _ _ h => by cases h)
      cases h
      exact ⟨.unlock rfl, fun t₃ _ _ => safe_stop fun t₄ _ => herror _ _ t₄⟩
  · exact safe_done fun t' ht' => hQ t' ht' fun h => absurd h hrepo

theorem authorizeRevocation_safe {h : Headers}
    (herror : ∀ status err t', X (writeError status err) t') (hQ : ∀ t', t <+: t' → Q () t') :
    (authorizeRevocation P J cfg h deviceID).Safe (Effect P cfg req) i Q X t := by
  refine .bind (.outcome (((authenticateAccess_safe fun cred now t₁ ht₁ _ => ht₁).mono
    (fun cred t₁ _ ht₁ => ?_) fun err t₁ ht₁ _ => ?_)))
  · exact safe_stopIf (fun _ t₂ _ => herror _ _ t₂) fun _ t₂ ht₂ => hQ t₂ (ht₁.trans ht₂)
  · exact safe_stopIf (fun _ t₂ _ => herror _ _ t₂) fun _ t₂ ht₂ => hQ t₂ (ht₁.trans ht₂)

/-- What the sections of a revocation do. -/
theorem revokeAccess_safe (h : Headers) (deviceID : Str) :
    (revokeAccess P J cfg h deviceID).Safe (Effect P cfg (.revokeAccess h deviceID)) i
      (Answered P cfg i (.revokeAccess h deviceID))
      (Answered P cfg i (.revokeAccess h deviceID)) t := by
  have hreq : (Request.revokeAccess h deviceID).Revokes deviceID := rfl
  refine .bind (authorizeRevocation_safe (fun _ _ _ => trivial) fun t₁ _ => ?_)
  refine .bind (safe_section effect_idle (fun s t₂ e s' u events _ h => ?_)
    fun _ _ _ _ h => by cases h)
  cases h
  refine ⟨.revoke hreq rfl, fun t₃ _ hdid => ?_⟩
  have hrevoked := hdid _ (List.mem_singleton_self _)
  refine .bind (revokeRowsAndUnlock_safe hreq (fun _ _ _ => trivial) fun t₄ ht₄ hrows => ?_)
  refine safe_done fun t₅ ht₅ => ⟨hrevoked.extend (ht₄.trans ht₅), fun hrepo => ?_⟩
  obtain ⟨hrow, haccess, hrefresh⟩ := hrows hrepo
  exact ⟨hrow.extend ht₅, haccess.extend ht₅, hrefresh.extend ht₅⟩

theorem storeEnvelope_safe (hrepo : cfg.repo = true) {canon : Bytes}
    (hQ : ∀ t', t <+: t' → Q () t') :
    (storeEnvelope cfg m raw canon now).Safe (Effect P cfg req) i Q anything t := by
  refine .bind (safe_stopIf (fun _ _ _ => trivial) fun _ t₁ ht₁ => ?_)
  refine .bind (safe_mapStop (fun _ _ => trivial)
    (newUUID_safe effect_idle (fun _ t₂ ht₂ => ?_) fun _ _ _ => trivial))
  refine .bind (safe_mapStop (fun _ _ => trivial)
    (safe_statement fun s t₃ e db u events _ h => ?_))
  obtain ⟨messages, hstore, ⟨⟩⟩ := bind_eq_ok_iff.mp h
  refine ⟨.message (.store hrepo hstore rfl), fun t₄ ht₄ _ => ?_⟩
  refine .bind (safe_mapStop (fun _ _ => trivial) (safe_try fun _ t₅ _ ht₅ => ?_))
  refine .bind (safe_mapStop (fun _ _ => trivial)
    (newUUID_safe effect_idle (fun _ t₆ ht₆ => ?_) fun _ _ _ => trivial))
  refine safe_mapStop (fun _ _ => trivial) (safe_statement fun s t₇ e db u events _ h => ?_)
  cases h
  exact ⟨.message (.storeReceipt hrepo rfl), fun t₈ ht₈ _ =>
    hQ t₈ (ht₁.trans (ht₂.trans (ht₄.trans (ht₅.trans (ht₆.trans ht₈)))))⟩

theorem enqueueEnvelope_safe (hrepo : cfg.repo = false) (hQ : ∀ t', t <+: t' → Q () t') :
    (enqueueEnvelope m raw now).Safe (Effect P cfg req) i Q anything t := by
  refine .bind (safe_section effect_idle (fun s t₁ e s' accepted events _ h => ?_)
    fun _ _ _ _ _ => trivial)
  cases h
  refine ⟨.message (.enqueue hrepo rfl), fun t₂ ht₂ _ => ?_⟩
  exact safe_stopIf (fun _ _ _ => trivial) fun _ t₃ ht₃ => hQ t₃ (ht₂.trans ht₃)

/-- What the sections of a submission do. -/
theorem envelopes_safe (h : Headers) (body : Except Error Bytes) :
    (envelopes P J cfg h body).Safe (Effect P cfg req) i anything anything t := by
  refine .bind (safe_mapStop (fun _ _ => trivial) (authenticateAccess_safe fun _ _ t₁ _ _ => ?_))
  refine .bind (safe_mapStop (fun _ _ => trivial) (safe_try fun _ t₂ _ _ => ?_))
  refine .bind (safe_mapStop (fun _ _ => trivial) (safe_try fun m t₃ _ _ => ?_))
  refine .bind (safe_mapStop (fun _ _ => trivial) (safe_try fun _ t₄ _ _ => ?_))
  refine .bind (safe_stopIf (fun _ _ _ => trivial) fun _ t₅ _ => ?_)
  refine .bind (safe_mapStop (fun _ _ => trivial) (safe_try fun _ t₆ _ _ => ?_))
  refine .bind (safe_clock effect_idle fun now t₇ _ => ?_)
  dsimp only
  split_ifs with hrepo
  · exact .bind (storeEnvelope_safe hrepo fun _ _ => safe_done fun _ _ => trivial)
  · exact .bind (enqueueEnvelope_safe (Bool.not_eq_true _ |>.mp hrepo)
      fun _ _ => safe_done fun _ _ => trivial)

theorem writeFrame_safe {frame : Frame} {Q : Bool → Trace → Prop} {X : ω → Trace → Prop}
    (hQ : ∀ written t', t <+: t' → Q written t') :
    (writeFrame frame).Safe (Effect P cfg req) i Q X t := by
  refine safe_section effect_idle (fun s t₁ e s' written events _ h => ?_)
    fun _ _ _ _ h => by cases h
  cases h
  refine ⟨?_, fun t₂ ht₂ _ => hQ _ t₂ ht₂⟩
  split_ifs
  · exact .idle rfl
  · exact .message (.send rfl)

theorem lookupDeviceRow_safe (hrepo : cfg.repo = true) {revoked : Bool}
    {Q : Option DeviceIdentity → Trace → Prop}
    (hQ : ∀ found t', t <+: t' →
      (∀ id, found = some id → Did t' i (.looked deviceID id)) → Q found t') :
    (lookupDeviceRow cfg deviceID revoked).Safe (Effect P cfg req) i Q anything t := by
  refine safe_statement fun s t₁ e db found events _ h => ?_
  cases h
  refine ⟨?_, fun t₂ ht₂ hdid => hQ _ t₂ ht₂ fun id hid => ?_⟩
  · split_ifs
    · exact .idle rfl
    · cases hfound : (s.db.devices (cfg.domainID, deviceID)).filter
          fun row => row.status ≠ .revoked with
      | none => exact .idle rfl
      | some row =>
        obtain ⟨hrow, hstatus⟩ := Option.filter_eq_some_iff.mp hfound
        exact .lookRow hrepo hrow (of_decide_eq_true hstatus) rfl
  · rw [hid] at hdid
    exact hdid _ (List.mem_singleton_self _)

/-- **The identity of the device that connects** goes on record. -/
theorem lookupDevice_safe {Q : Option DeviceIdentity → Trace → Prop}
    (hQ : ∀ found t', t <+: t' →
      (∀ id, found = some id → Did t' i (.looked deviceID id)) → Q found t') :
    (lookupDevice cfg deviceID).Safe (Effect P cfg req) i Q anything t := by
  refine .bind (safe_section effect_idle (fun s t₁ e s' r events _ h => ?_)
    fun _ _ _ _ _ => trivial)
  cases h
  refine ⟨?_, fun t₂ ht₂ hdid => ?_⟩
  · split_ifs with hrevoked
    · exact .idle rfl
    · cases hfound : s.mem.devices deviceID with
      | none => exact .idle rfl
      | some id => exact .look hfound (Option.not_isSome_iff_eq_none.mp hrevoked) rfl
  dsimp only at hdid ⊢
  by_cases hrow : s.mem.devices deviceID = none ∧ cfg.repo = true
  · rw [if_pos hrow]
    refine .bind (.outcome ((lookupDeviceRow_safe hrow.2 fun found t₃ ht₃ hfound => ?_).mono
      (fun _ _ _ h => h) fun r t₃ ht₃ _ => ?_))
    · exact safe_done fun t₄ ht₄ => hQ _ t₄ (ht₂.trans (ht₃.trans ht₄)) fun id hid =>
        (hfound id hid).extend ht₄
    · refine safe_done fun t₄ ht₄ => hQ _ t₄ (ht₂.trans (ht₃.trans ht₄)) fun id hid => ?_
      cases hid
  · rw [if_neg hrow]
    refine safe_done fun t₃ ht₃ => hQ _ t₃ (ht₂.trans ht₃) fun id hid => ?_
    split_ifs at hid hdid
    rw [hid] at hdid
    exact (hdid _ (List.mem_singleton_self _)).extend ht₃

theorem markDelivered_safe {msg : Queue.Message} (hQ : ∀ t', t <+: t' → Q () t') :
    (markDelivered cfg msg).Safe (Effect P cfg req) i Q X t := by
  rw [markDelivered]
  split_ifs with hrepo
  · refine .bind (safe_clock effect_idle fun now t₁ ht₁ => ?_)
    have hmark : (repoMarkMessageDelivered msg.domainID msg.messageID now).Safe (Effect P cfg req) i
        anything anything t₁ := by
      refine .bind (safe_statement fun s t₂ e db u events _ h => ?_)
      cases h
      refine ⟨.message (.mark hrepo rfl), fun t₃ _ _ => ?_⟩
      refine safe_statement fun s t₄ e db u events _ h => ?_
      cases h
      exact ⟨.message (.markReceipts hrepo rfl), fun _ _ _ => trivial⟩
    refine .bind (.outcome (hmark.mono (fun _ t₂ ht₂ _ => ?_) fun _ t₂ ht₂ _ => ?_))
    · exact safe_done fun t₃ ht₃ => hQ t₃ (ht₁.trans (ht₂.trans ht₃))
    · exact safe_done fun t₃ ht₃ => hQ t₃ (ht₁.trans (ht₂.trans ht₃))
  · exact safe_done hQ

theorem deliverMessages_safe (messages : List Queue.Message) (delivered : ℕ) :
    (deliverMessages cfg messages delivered).Safe (Effect P cfg req) i anything anything t := by
  induction messages generalizing delivered t with
  | nil => exact .bind (writeFrame_safe fun _ _ _ => safe_done fun _ _ => trivial)
  | cons msg messages ih =>
    refine .bind (writeFrame_safe fun written t₁ _ => ?_)
    refine .bind (safe_stopIf (fun _ _ _ => trivial) fun _ t₂ _ => ?_)
    exact .bind (markDelivered_safe fun _ _ => ih _)

theorem dequeueMessages_safe (hready : Did t i (.ready id)) {limit : ℤ} :
    (dequeueMessages cfg id.domainID id.deviceID now limit).Safe (Effect P cfg req) i
      anything anything t := by
  rw [dequeueMessages]
  split_ifs with hrepo
  · refine safe_section effect_idle (fun s t₁ e s' r events ht₁ h => ?_) fun _ _ _ _ _ => trivial
    obtain ⟨r, hclaim, ⟨⟩⟩ := bind_eq_ok_iff.mp h
    exact ⟨.message (.claim hrepo (hready.extend ht₁) hclaim rfl), fun _ _ _ => trivial⟩
  · refine safe_section effect_idle (fun s t₁ e s' r events ht₁ h => ?_) fun _ _ _ _ _ => trivial
    cases h
    exact ⟨.message (.dequeue (Bool.not_eq_true _ |>.mp hrepo) (hready.extend ht₁) rfl),
      fun _ _ _ => trivial⟩

theorem deliver_safe (hready : Did t i (.ready id)) :
    (deliver cfg id).Safe (Effect P cfg req) i anything anything t := by
  refine .bind (writeFrame_safe fun _ t₁ ht₁ => ?_)
  refine .bind (safe_clock effect_idle fun now t₂ ht₂ => ?_)
  refine .bind (.outcome ((dequeueMessages_safe (hready.extend (ht₁.trans ht₂))).mono
    (fun messages t₃ _ _ => ?_) fun _ t₃ _ _ => ?_))
  · exact deliverMessages_safe messages 0
  · exact .bind (writeFrame_safe fun _ _ _ => safe_stop fun _ _ => trivial)

/-- **A connection is ready** when its proof has been checked. -/
theorem serveConnection_safe (hlooked : Did t i (.looked id.deviceID id))
    (hproof : ProofVerified P id proof cfg.relayID challenge now minute)
    (hused : Did t i (.used proof minute now true)) :
    (serveConnection cfg id).Safe (Effect P cfg req) i anything anything t := by
  refine .bind (safe_read effect_idle fun s e t₁ ht₁ => ?_)
  refine .bind (safe_clock effect_idle fun now' t₂ ht₂ => ?_)
  have ht := ht₁.trans ht₂
  refine .bind (safe_section effect_idle (fun s t₃ e s' u events ht₃ h => ?_)
    fun _ _ _ _ _ => trivial)
  cases h
  refine ⟨.ready (hlooked.extend (ht.trans ht₃)) (hused.extend (ht.trans ht₃)) hproof rfl,
    fun t₄ _ hdid => ?_⟩
  have hclose : ∀ {connectionID t'}, (closeConnection connectionID >>= fun _ => pure ended :
      Run Answer Answer).Safe (Effect P cfg req) i anything anything t' := by
    intro connectionID t'
    refine .bind (safe_section effect_idle (fun s t₅ e s' u events _ h => ?_)
      fun _ _ _ _ _ => trivial)
    cases h
    exact ⟨.message (.close rfl), fun _ _ _ => safe_done fun _ _ => trivial⟩
  exact .bind (.outcome ((deliver_safe (hdid _ (List.mem_singleton_self _))).mono
    (fun _ _ _ _ => hclose) fun _ _ _ _ => hclose))

/-- What the sections of a connection do. -/
theorem connect_safe : (connect P cfg).Safe (Effect P cfg req) i anything anything t := by
  have hrefuse : ∀ {error t'}, (refuse error).Safe (Effect P cfg req) i anything anything t' :=
    fun {_ _} => .bind (writeFrame_safe fun _ _ _ => safe_done fun _ _ => trivial)
  refine .bind (safe_read effect_idle fun s e t₁ _ => ?_)
  refine .bind (writeFrame_safe fun written t₂ _ => ?_)
  refine .bind (safe_stopIf (fun _ _ _ => trivial) fun _ t₃ _ => ?_)
  refine .bind (safe_read effect_idle fun s' e' t₄ _ => ?_)
  split
  · exact safe_done fun _ _ => trivial
  · next proof _ =>
    refine .bind (lookupDevice_safe fun found t₅ _ hlooked => ?_)
    cases found with
    | none => exact hrefuse
    | some id =>
      refine .bind (.outcome ((verifyProof_safe (.inl rfl) fun now t₆ ht₆ hproof hused => ?_).mono
        (fun _ _ _ h => h) fun _ _ _ _ => hrefuse))
      have hlooked₆ := (hlooked id rfl).extend ht₆
      rw [← hproof.deviceID] at hlooked₆
      exact serveConnection_safe hlooked₆ hproof hused

theorem requireAdmin_safe {h : Headers} (hQ : ∀ t', t <+: t' → Q () t') :
    (requireAdmin cfg h).Safe (Effect P cfg req) i Q anything t :=
  safe_stopIf (fun _ _ _ => trivial) fun _ => hQ

theorem adminMessages_safe (h : Headers) :
    (adminMessages cfg h).Safe (Effect P cfg req) i anything anything t := by
  refine .bind (requireAdmin_safe fun t₁ _ => ?_)
  refine .bind (safe_clock effect_idle fun now t₂ _ => ?_)
  refine .bind ?_
  rw [pendingMetadata]
  split_ifs
  · refine safe_mapStop (fun _ _ => trivial) (safe_statement fun s t₃ e db r events _ h => ?_)
    cases h
    exact ⟨effect_idle s t₃ e, fun _ _ _ => safe_done fun _ _ => trivial⟩
  · refine safe_section effect_idle (fun s t₃ e s' r events _ h => ?_) fun _ _ _ _ _ => trivial
    cases h
    exact ⟨.message (.snapshot rfl), fun _ _ _ => safe_done fun _ _ => trivial⟩

end Safe

/-! ### The server -/

section Sound

variable {P J cfg} {C : Snapshot → Entry Env Event → Prop} {w : World}

/-- **Every handler has only the effects of its request.** -/
theorem handle_safe (i : ℕ) (req : Request) (t : Trace) :
    (handle P J cfg req).Safe (Effect P cfg req) i (Answered P cfg i req)
      (Answered P cfg i req) t := by
  cases req with
  | bindSelf h r => exact bindSelf_safe h r
  | registerWithTicket r => exact registerWithTicket_safe r
  | refreshAccess s => exact refreshAccess_safe s
  | revokeAccess h d => exact revokeAccess_safe h d
  | envelopes h body => exact envelopes_safe h body
  | connect => exact connect_safe
  | adminDevices h =>
    exact .bind (requireAdmin_safe fun _ _ => safe_read effect_idle fun _ _ _ _ => trivial)
  | adminConnections h =>
    exact .bind (requireAdmin_safe fun _ _ => safe_read effect_idle fun _ _ _ _ => trivial)
  | adminMessages h => exact adminMessages_safe h

variable (P cfg) in
/-- The effects of the requests taken together. -/
def AnyEffect (c : Snapshot) (x : Entry Env Event) (s : State) : Prop :=
  ∃ req, Effect P cfg req c x s

variable (P cfg) in
/-- **The runs of a Relay as runs of effects**, each section meeting the condition. -/
def sections (C : Snapshot → Entry Env Event → Prop) : System Snapshot (Entry Env Event) :=
  Server.effects (Initial P cfg) (AnyEffect P cfg) C

theorem effect_hasEffects :
    Server.HasEffects (Initial P cfg) (handle P J cfg) C (Effect P cfg) :=
  Server.hasEffects_of_safe fun i req t _ => handle_safe i req t

theorem sound (hw : (server P J cfg C).Reachable w) :
    w.Sound (Initial P cfg) (AnyEffect P cfg) C (Answered P cfg) :=
  Server.simulation (fun i req t _ => (handle_safe i req t).weaken fun _ _ _ h => ⟨req, h⟩) hw

theorem sound_leads {w' : World} (hw : (server P J cfg C).Reachable w)
    (h : (server P J cfg C).Leads w w') : (sections P cfg C).Leads w.config w'.config :=
  Server.simulation_leads (fun _ => sound) hw h

theorem mem_of_initial {s : State} (h : Initial P cfg s) : s.mem = Memory.new := by
  obtain ⟨db, e, hnew⟩ := h
  simp only [new, bind_eq_ok_iff] at hnew
  obtain ⟨_, -, _, -, _, -, _, -, ⟨⟩⟩ := hnew
  rfl

end Sound

/-! ### What does not concern devices and their credentials -/

/-- The parts of a state that say which devices there are and what they may do. -/
structure SameBooks (s s' : State) : Prop where
  devices : s'.mem.devices = s.mem.devices
  access : s'.mem.access = s.mem.access
  refresh : s'.mem.refresh = s.mem.refresh
  revoked : s'.mem.revoked = s.mem.revoked
  tickets : s'.mem.tickets = s.mem.tickets
  rows : s'.db.devices = s.db.devices
  accessTokens : s'.db.accessTokens = s.db.accessTokens
  refreshTokens : s'.db.refreshTokens = s.db.refreshTokens

theorem SameBooks.refl (s : State) : SameBooks s s := ⟨rfl, rfl, rfl, rfl, rfl, rfl, rfl, rfl⟩

/-- The event is about a proof. -/
def Event.OfProof : Event → Prop
  | .used _ _ _ _ => True
  | _ => False

/-- The events of messages and connections. -/
def Event.OfMessage : Event → Prop
  | .queued _ | .storedMessage _ | .dequeued _ _ | .sent _ => True
  | _ => False

section Frame

variable {P cfg} {c : Snapshot} {x : Entry Env Event} {s : State}

theorem nonce_sameBooks (h : NonceEffect P nonceStore cfg.repo Event.used ttl c.state x.events s) :
    SameBooks c.state s ∧ ∀ v ∈ x.events, v.OfProof := by
  generalize hevents : x.events = events at h
  cases h with
  | use _ _ _ => exact ⟨⟨rfl, rfl, rfl, rfl, rfl, rfl, rfl, rfl⟩, by simp [Event.OfProof]⟩
  | delete _ => exact ⟨⟨rfl, rfl, rfl, rfl, rfl, rfl, rfl, rfl⟩, by simp⟩
  | insert _ _ _ => exact ⟨⟨rfl, rfl, rfl, rfl, rfl, rfl, rfl, rfl⟩, by simp [Event.OfProof]⟩
  | refuse _ _ _ => exact ⟨.refl _, by simp [Event.OfProof]⟩

theorem MessageEffect.sameBooks (h : MessageEffect cfg c x s) :
    SameBooks c.state s ∧ ∀ v ∈ x.events, v.OfMessage := by
  cases h with
  | enqueue _ hx =>
    refine ⟨⟨rfl, rfl, rfl, rfl, rfl, rfl, rfl, rfl⟩, ?_⟩
    rw [hx]
    split_ifs <;> simp [Event.OfMessage]
  | send hx => exact ⟨.refl _, by simp [hx, Event.OfMessage]⟩
  | dequeue _ _ hx | claim _ _ _ hx | store _ _ hx =>
    exact ⟨⟨rfl, rfl, rfl, rfl, rfl, rfl, rfl, rfl⟩, by simp [hx, Event.OfMessage]⟩
  | snapshot hx | mark _ hx | markReceipts _ hx | storeReceipt _ hx | close hx =>
    exact ⟨⟨rfl, rfl, rfl, rfl, rfl, rfl, rfl, rfl⟩, by simp [hx]⟩

end Frame

end Relay

end Iscp
