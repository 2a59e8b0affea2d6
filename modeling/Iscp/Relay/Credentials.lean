import Iscp.Relay.Effects

/-!
# Devices and credentials, event by event

The effects of `Iscp.Relay.Effect`, read the other way round: what an event says about the section
it goes on record with (`Iscp.Relay.Event.Says`) – about the state the section has met, about what
its request has done before, and about the state it leaves –, and which events go with a change of
the identities, of the credentials and of the devices that are revoked. The invariants of the Relay
rest on this, and not on the list of the effects.
-/

namespace Iscp

namespace Relay

open Go Crypto Identity Replay Service Provisioning

variable (P : Primitives) (cfg : Config) (req : Request) (c : Snapshot) (x : Entry Env Event)
  (s : State)

/-! ### What an event says -/

/-- **What an event says** about the section `x` of a request, from `c` to `s`. -/
def Event.Says : Event → Prop
  -- devices are bound in the order of these events
  | .admitted id => req.Binds id ∧ s = c.state
  | .stored id => req.Binds id ∧ cfg.repo = true ∧ Did c.trace x.thread (.admitted id) ∧
    s = { c.state with db := c.state.db.insertDevice id .active }
  | .bound id => req.Binds id ∧ Did c.trace x.thread (.admitted id) ∧
    s = { c.state with
      mem := { c.state.mem with devices := c.state.mem.devices.set id.deviceID id } }
  -- credentials are made for a device the request has found out about
  | .keptAccess cred => ∃ (origin : Origin) (db : Database), (∀ d, ¬req.Revokes d) ∧
    origin.OnRecord c.trace x.thread ∧ cred.deviceID = origin.deviceID ∧
    c.state.db.storeAccessHash cred.domainID cred.deviceID cred.hash cred.expiresAt = .ok db ∧
    s = { c.state with db := db }
  | .keptRefresh hash => ∃ (origin : Origin) (expiresAt : Time) (db : Database),
      (∀ d, ¬req.Revokes d) ∧
    origin.OnRecord c.trace x.thread ∧ c.state.db.storeRefreshHash origin.domainID origin.deviceID
      hash expiresAt = .ok db ∧ s = { c.state with db := db }
  | .issued origin access refresh => (∀ d, ¬req.Revokes d) ∧ origin.OnRecord c.trace x.thread ∧
    access.deviceID = origin.deviceID ∧ refresh.deviceID = origin.deviceID ∧
    access.revoked = false ∧ (cfg.repo = true → Did c.trace x.thread (.keptAccess access)) ∧
    s = { c.state with mem := c.state.mem.issue access refresh }
  -- what is found is in memory or in the database, and is good there
  | .found hash cred => s = c.state ∧
    ((c.state.mem.refresh hash = some cred ∧ cred.revoked = false) ∨
      (cfg.repo = true ∧ ∃ now row,
        c.state.db.getRefreshByHash cfg.domainID hash now = some row ∧
          cred = row.credential cfg.domainID hash))
  | .recognized cred now => s = c.state ∧
    ((∃ hash, c.state.mem.findAccess hash now = some cred) ∨
      (cfg.repo = true ∧ ∃ hash row,
        c.state.db.getAccessByHash cfg.domainID hash now = some row ∧
          cred = row.credential cfg.domainID hash))
  | .looked deviceID id => s = c.state ∧
    ((c.state.mem.devices deviceID = some id ∧ c.state.mem.revoked deviceID = none) ∨
      (cfg.repo = true ∧ ∃ row, c.state.db.devices (cfg.domainID, deviceID) = some row ∧
        row.status ≠ .revoked ∧ id = row.identity))
  -- what a refresh token goes through
  | .marked hash => (∃ cred, Did c.trace x.thread (.found hash cred)) ∧
    s = { c.state with mem := c.state.mem.markRefresh hash }
  | .spent hash => (cfg.repo = false ∧ .marked hash ∈ x.events) ∨
    (cfg.repo = true ∧ Did c.trace x.thread (.marked hash) ∧
      ∃ now, s = { c.state with db := c.state.db.revokeRefreshByHash cfg.domainID hash now })
  -- devices are revoked in the order of these events
  | .revoked deviceID => req.Revokes deviceID ∧
    s = { c.state with mem := { c.state.mem.revokeDevice deviceID with locked := cfg.repo } }
  | .revokedRow deviceID => req.Revokes deviceID ∧
    s = { c.state with db := c.state.db.revokeDevice cfg.domainID deviceID }
  | .revokedAccess deviceID => req.Revokes deviceID ∧
    ∃ now, s = { c.state with db := c.state.db.revokeDeviceAccess cfg.domainID deviceID now }
  | .revokedRefresh deviceID => req.Revokes deviceID ∧
    ∃ now, s = { c.state with db := c.state.db.revokeDeviceRefresh cfg.domainID deviceID now }
  -- what a connection goes through
  | .ready id => Did c.trace x.thread (.looked id.deviceID id)
  | .dequeued deviceID _ => ∃ id, id.deviceID = deviceID ∧ Did c.trace x.thread (.ready id)
  | .used _ _ _ _ | .consumed _ _ | .queued _ | .storedMessage _ | .sent _ => True

variable {P cfg req c x s}

variable {v : Event} {creds creds' : Map Credential} {deviceID : Str}
  {f : Bytes → Credential → Credential} {cred : Credential} {I : Credential → Prop}

theorem mem_events {l : List Event} (hx : x.events = v :: l) : v ∈ x.events :=
  hx ▸ List.mem_cons_self ..

theorem eq_of_mem_events {w : Event} (hx : x.events = [w]) (hv : v ∈ x.events) : v = w :=
  List.mem_singleton.mp (hx ▸ hv)

theorem MessageEffect.says_of_mem (h : MessageEffect cfg c x s) (hv : v ∈ x.events) :
    v.Says cfg req c x s := by
  cases h with
  | dequeue _ hready hx | claim _ hready _ hx =>
    obtain rfl := eq_of_mem_events hx hv
    exact ⟨_, rfl, hready⟩
  | enqueue _ hx =>
    rw [hx] at hv
    split_ifs at hv
    · rw [List.mem_singleton] at hv
      subst hv
      exact trivial
    · cases hv
  | store _ _ hx | send hx =>
    obtain rfl := eq_of_mem_events hx hv
    exact trivial
  | snapshot hx | mark _ hx | markReceipts _ hx | storeReceipt _ hx | close hx =>
    rw [hx] at hv
    cases hv

/-- **Every event of a section says the truth.** -/
theorem Effect.says_of_mem (h : Effect P cfg req c x s) (hv : v ∈ x.events) :
    v.Says cfg req c x s := by
  cases h with
  | nonce _ h =>
    have hproof := (nonce_sameBooks h).2 v hv
    cases v <;> first | exact trivial | exact hproof.elim
  | message h => exact h.says_of_mem hv
  | mark hfound hx =>
    have hmem := hv
    rw [hx] at hmem
    split_ifs at hmem with hrepo
    · obtain rfl := List.mem_singleton.mp hmem
      exact ⟨⟨_, hfound⟩, rfl⟩
    · rcases List.mem_pair.mp hmem with rfl | rfl
      · exact ⟨⟨_, hfound⟩, rfl⟩
      · exact Or.inl ⟨Bool.not_eq_true _ ▸ hrepo, mem_events hx⟩
  | idle hx | expire _ hx | unlock hx =>
    rw [hx] at hv
    cases hv
  | consume _ hx =>
    obtain rfl := eq_of_mem_events hx hv
    exact trivial
  | admitted hreq _ _ hx =>
    obtain rfl := eq_of_mem_events hx hv
    exact ⟨hreq, rfl⟩
  | storeDevice hrepo hreq hadmitted hx =>
    obtain rfl := eq_of_mem_events hx hv
    exact ⟨hreq, hrepo, hadmitted, rfl⟩
  | storeAccess _ hreq horigin hdb hx =>
    obtain rfl := eq_of_mem_events hx hv
    exact ⟨_, _, hreq, horigin, rfl, hdb, rfl⟩
  | storeRefresh _ hreq horigin hdb hx =>
    obtain rfl := eq_of_mem_events hx hv
    exact ⟨_, _, _, hreq, horigin, hdb, rfl⟩
  | issue hreq horigin hkept hx =>
    obtain rfl := eq_of_mem_events hx hv
    exact ⟨hreq, horigin, rfl, rfl, rfl, hkept, rfl⟩
  | bind hreq hadmitted hx =>
    obtain rfl := eq_of_mem_events hx hv
    exact ⟨hreq, hadmitted, rfl⟩
  | find _ hfound hgood hx =>
    obtain rfl := eq_of_mem_events hx hv
    exact ⟨rfl, .inl ⟨hfound, hgood⟩⟩
  | findRow hrepo _ hfound hx =>
    obtain rfl := eq_of_mem_events hx hv
    exact ⟨rfl, .inr ⟨hrepo, _, _, hfound, rfl⟩⟩
  | spend hrepo hmarked hx =>
    obtain rfl := eq_of_mem_events hx hv
    exact Or.inr ⟨hrepo, hmarked, _, rfl⟩
  | recognize hfound hx =>
    obtain rfl := eq_of_mem_events hx hv
    exact ⟨rfl, .inl ⟨_, hfound⟩⟩
  | recognizeRow hrepo hfound hx =>
    obtain rfl := eq_of_mem_events hx hv
    exact ⟨rfl, .inr ⟨hrepo, _, _, hfound, rfl⟩⟩
  | revoke hreq hx | revokeRow _ hreq hx =>
    obtain rfl := eq_of_mem_events hx hv
    exact ⟨hreq, rfl⟩
  | revokeAccess _ hreq hx | revokeRefresh _ hreq hx =>
    obtain rfl := eq_of_mem_events hx hv
    exact ⟨hreq, _, rfl⟩
  | look hfound hrevoked hx =>
    obtain rfl := eq_of_mem_events hx hv
    exact ⟨rfl, .inl ⟨hfound, hrevoked⟩⟩
  | lookRow hrepo hfound hrevoked hx =>
    obtain rfl := eq_of_mem_events hx hv
    exact ⟨rfl, .inr ⟨hrepo, _, hfound, hrevoked, rfl⟩⟩
  | ready hlooked _ _ hx =>
    obtain rfl := eq_of_mem_events hx hv
    exact hlooked

/-! ### Which events go with a change -/

theorem Effect.devices_cases (h : Effect P cfg req c x s) :
    s.mem.devices = c.state.mem.devices ∨ ∃ id, .bound id ∈ x.events := by
  cases h with
  | nonce _ h => exact .inl (nonce_sameBooks h).1.devices
  | message h => exact .inl h.sameBooks.1.devices
  | bind _ _ hx => exact .inr ⟨_, mem_events hx⟩
  | _ => exact .inl rfl

theorem Effect.revoked_cases (h : Effect P cfg req c x s) :
    s.mem.revoked = c.state.mem.revoked ∨ ∃ deviceID, .revoked deviceID ∈ x.events := by
  cases h with
  | nonce _ h => exact .inl (nonce_sameBooks h).1.revoked
  | message h => exact .inl h.sameBooks.1.revoked
  | revoke _ hx => exact .inr ⟨_, mem_events hx⟩
  | _ => exact .inl rfl

theorem Effect.refresh_cases (h : Effect P cfg req c x s) :
    s.mem.refresh = c.state.mem.refresh ∨
    (∃ origin access refresh, .issued origin access refresh ∈ x.events) ∨
    (∃ hash, .marked hash ∈ x.events) ∨ ∃ deviceID, .revoked deviceID ∈ x.events := by
  cases h with
  | nonce _ h => exact .inl (nonce_sameBooks h).1.refresh
  | message h => exact .inl h.sameBooks.1.refresh
  | issue _ _ _ hx => exact .inr (.inl ⟨_, _, _, mem_events hx⟩)
  | mark _ hx => exact .inr (.inr (.inl ⟨_, mem_events hx⟩))
  | revoke _ hx => exact .inr (.inr (.inr ⟨_, mem_events hx⟩))
  | _ => exact .inl rfl

theorem Effect.access_cases (h : Effect P cfg req c x s) :
    s.mem.access = c.state.mem.access ∨
    (∃ hash now, (∃ y ∈ c.trace, y.env.now.utc = now) ∧
      s.mem.access = (c.state.mem.expireAccess hash now).access) ∨
    (∃ origin access refresh, .issued origin access refresh ∈ x.events) ∨
    ∃ deviceID, .revoked deviceID ∈ x.events := by
  cases h with
  | nonce _ h => exact .inl (nonce_sameBooks h).1.access
  | message h => exact .inl h.sameBooks.1.access
  | expire hnow hx => exact .inr (.inl ⟨_, _, hnow, rfl⟩)
  | issue _ _ _ hx => exact .inr (.inr (.inl ⟨_, _, _, mem_events hx⟩))
  | revoke _ hx => exact .inr (.inr (.inr ⟨_, mem_events hx⟩))
  | _ => exact .inl rfl

/-- The device rows change only where one is stored or revoked. -/
theorem Effect.rows_cases (h : Effect P cfg req c x s) :
    s.db.devices = c.state.db.devices ∨ (∃ id, .stored id ∈ x.events) ∨
    ∃ deviceID, .revokedRow deviceID ∈ x.events := by
  cases h with
  | nonce _ h => exact .inl (nonce_sameBooks h).1.rows
  | message h => exact .inl h.sameBooks.1.rows
  | storeDevice _ _ _ hx => exact .inr (.inl ⟨_, mem_events hx⟩)
  | revokeRow _ _ hx => exact .inr (.inr ⟨_, mem_events hx⟩)
  | storeAccess _ _ _ hdb _ =>
    obtain ⟨tokens, -, ⟨⟩⟩ := bind_eq_ok_iff.mp hdb
    exact .inl rfl
  | storeRefresh _ _ _ hdb _ =>
    obtain ⟨tokens, -, ⟨⟩⟩ := bind_eq_ok_iff.mp hdb
    exact .inl rfl
  | _ => exact .inl rfl

theorem Effect.refreshTokens_cases (h : Effect P cfg req c x s) :
    s.db.refreshTokens = c.state.db.refreshTokens ∨ (∃ hash, .keptRefresh hash ∈ x.events) ∨
    (∃ hash, .spent hash ∈ x.events) ∨ ∃ deviceID, .revokedRefresh deviceID ∈ x.events := by
  cases h with
  | nonce _ h => exact .inl (nonce_sameBooks h).1.refreshTokens
  | message h => exact .inl h.sameBooks.1.refreshTokens
  | storeAccess _ _ _ hdb _ =>
    obtain ⟨tokens, -, ⟨⟩⟩ := bind_eq_ok_iff.mp hdb
    exact .inl rfl
  | storeRefresh _ _ _ _ hx => exact .inr (.inl ⟨_, mem_events hx⟩)
  | spend _ _ hx => exact .inr (.inr (.inl ⟨_, mem_events hx⟩))
  | revokeRefresh _ _ hx => exact .inr (.inr (.inr ⟨_, mem_events hx⟩))
  | _ => exact .inl rfl

theorem Effect.accessTokens_cases (h : Effect P cfg req c x s) :
    s.db.accessTokens = c.state.db.accessTokens ∨
    (∃ cred, .keptAccess cred ∈ x.events) ∨ ∃ deviceID, .revokedAccess deviceID ∈ x.events := by
  cases h with
  | nonce _ h => exact .inl (nonce_sameBooks h).1.accessTokens
  | message h => exact .inl h.sameBooks.1.accessTokens
  | storeAccess _ _ _ _ hx => exact .inr (.inl ⟨_, mem_events hx⟩)
  | storeRefresh _ _ _ hdb _ =>
    obtain ⟨tokens, -, ⟨⟩⟩ := bind_eq_ok_iff.mp hdb
    exact .inl rfl
  | revokeAccess _ _ hx => exact .inr (.inr ⟨_, mem_events hx⟩)
  | _ => exact .inl rfl

/-! ### The credentials of a device -/

theorem Memory.refresh_markRefresh (m : Memory) (hash hash' : Bytes) :
    (m.markRefresh hash).refresh hash' = (m.refresh hash').map fun cred =>
      if hash' = hash then { cred with revoked := true } else cred := by
  rw [markRefresh]
  rcases eq_or_ne hash' hash with rfl | hne
  · cases hm : m.refresh hash' <;> simp [hm, Map.set_self]
  · cases hm : m.refresh hash <;> simp [hne, Map.set_of_ne]

theorem Memory.access_expireAccess (m : Memory) (hash hash' : Bytes) (now : Time) :
    (m.expireAccess hash now).access hash' = (m.access hash').map fun cred =>
      if hash' = hash ∧ cred.revoked = false ∧ now.after cred.expiresAt = true then
        { cred with revoked := true } else cred := by
  rw [expireAccess]
  rcases eq_or_ne hash' hash with rfl | hne
  · cases hm : m.access hash' with
    | none => simp [hm]
    | some cred =>
      simp only [Bool.and_eq_true, Bool.not_eq_true', true_and, Option.map_some]
      split_ifs
      · exact Map.set_self ..
      · exact hm
  · cases hm : m.access hash with
    | none => simp [hne]
    | some cred =>
      simp only [hne, false_and, if_false, Option.map_id']
      split_ifs
      · exact Map.set_of_ne _ hne _
      · rfl

/-- **All credentials of a device are revoked.** -/
def AllRevoked (deviceID : Str) (creds : Map Credential) : Prop :=
  ∀ hash cred, creds hash = some cred → cred.deviceID = deviceID → cred.revoked = true

theorem AllRevoked.map (h : AllRevoked deviceID creds)
    (hf : ∀ hash cred, (f hash cred).deviceID = cred.deviceID ∧
      (cred.revoked = true → (f hash cred).revoked = true))
    (hcreds : ∀ hash, creds' hash = (creds hash).map (f hash)) : AllRevoked deviceID creds' := by
  intro hash cred hcred hdevice
  rw [hcreds] at hcred
  obtain ⟨cred', hcred', rfl⟩ := Option.map_eq_some_iff.mp hcred
  rw [(hf hash cred').1] at hdevice
  exact (hf hash cred').2 (h hash cred' hcred' hdevice)

theorem AllRevoked.set (h : AllRevoked deviceID creds) (hcred : cred.deviceID ≠ deviceID)
    (hash : Bytes) : AllRevoked deviceID (creds.set hash cred) := by
  intro hash' cred' hcred' hdevice
  rcases eq_or_ne hash' hash with rfl | hne
  · rw [Map.set_self] at hcred'
    cases hcred'
    exact absurd hdevice hcred
  · rw [Map.set_of_ne _ hne] at hcred'
    exact h hash' cred' hcred' hdevice

theorem Credential.deviceID_revokeFor (deviceID : Str) (cred : Credential) :
    (cred.revokeFor deviceID).deviceID = cred.deviceID := by
  rw [revokeFor]
  split_ifs <;> rfl

theorem Credential.revoked_revokeFor (h : cred.deviceID = deviceID) :
    (cred.revokeFor deviceID).revoked = true := by
  rw [revokeFor, if_pos h]

theorem allRevoked_revokeFor (deviceID : Str) (creds : Map Credential) :
    AllRevoked deviceID fun hash => (creds hash).map (Credential.revokeFor deviceID) := by
  intro hash cred hcred hdevice
  obtain ⟨cred', -, rfl⟩ := Option.map_eq_some_iff.mp hcred
  rw [Credential.deviceID_revokeFor] at hdevice
  exact Credential.revoked_revokeFor hdevice

theorem AllRevoked.revokeFor (h : AllRevoked deviceID creds) (deviceID' : Str) :
    AllRevoked deviceID fun hash => (creds hash).map (Credential.revokeFor deviceID') := by
  refine h.map (f := fun _ => Credential.revokeFor deviceID') (fun hash cred => ⟨?_, ?_⟩)
    fun _ => rfl
  · exact cred.deviceID_revokeFor deviceID'
  · rw [Credential.revokeFor]
    split_ifs
    · exact fun _ => rfl
    · exact id

/-- **A device has no credential in memory that is not revoked.** -/
structure Memory.Closed (m : Memory) (deviceID : Str) : Prop where
  access : AllRevoked deviceID m.access
  refresh : AllRevoked deviceID m.refresh

theorem Memory.closed_revokeDevice (m : Memory) (deviceID : Str) :
    (m.revokeDevice deviceID).Closed deviceID :=
  ⟨allRevoked_revokeFor deviceID m.access, allRevoked_revokeFor deviceID m.refresh⟩

theorem Memory.revoked_revokeDevice (m : Memory) (deviceID : Str) :
    (m.revokeDevice deviceID).revoked deviceID ≠ none :=
  (Map.set_self ..).trans_ne (Option.some_ne_none _)

/-- A device that is closed stays closed unless tokens are issued to it. -/
theorem Effect.closed (h : Effect P cfg req c x s) (hs : c.state.mem.Closed deviceID)
    (hx : ∀ origin access refresh, .issued origin access refresh ∈ x.events →
      origin.deviceID ≠ deviceID) : s.mem.Closed deviceID := by
  constructor
  · rcases h.access_cases with hsame | ⟨hash, now, -, hexpire⟩ | ⟨origin, access, refresh, hv⟩ |
      ⟨deviceID', hv⟩
    · rw [hsame]
      exact hs.access
    · rw [hexpire]
      refine hs.access.map (fun hash' cred => ?_)
        fun hash' => c.state.mem.access_expireAccess hash hash' now
      split_ifs
      · exact ⟨rfl, fun _ => rfl⟩
      · exact ⟨rfl, fun h => h⟩
    · obtain ⟨-, -, haccess, -, -, -, rfl⟩ := h.says_of_mem hv
      exact hs.access.set (haccess ▸ hx _ _ _ hv) _
    · obtain ⟨-, rfl⟩ := h.says_of_mem hv
      exact hs.access.revokeFor deviceID'
  · rcases h.refresh_cases with hsame | ⟨origin, access, refresh, hv⟩ | ⟨hash, hv⟩ | ⟨deviceID', hv⟩
    · rw [hsame]
      exact hs.refresh
    · obtain ⟨-, -, -, hrefresh, -, -, rfl⟩ := h.says_of_mem hv
      exact hs.refresh.set (hrefresh ▸ hx _ _ _ hv) _
    · obtain ⟨-, rfl⟩ := h.says_of_mem hv
      refine hs.refresh.map (fun hash' cred => ?_)
        fun hash' => c.state.mem.refresh_markRefresh hash hash'
      split_ifs
      · exact ⟨rfl, fun _ => rfl⟩
      · exact ⟨rfl, fun h => h⟩
    · obtain ⟨-, rfl⟩ := h.says_of_mem hv
      exact hs.refresh.revokeFor deviceID'

theorem Effect.revoked_ne_none (h : Effect P cfg req c x s)
    (hs : c.state.mem.revoked deviceID ≠ none) : s.mem.revoked deviceID ≠ none := by
  rcases h.revoked_cases with hsame | ⟨deviceID', hv⟩
  · rw [hsame]
    exact hs
  · obtain ⟨-, rfl⟩ := h.says_of_mem hv
    rcases eq_or_ne deviceID deviceID' with rfl | hne
    · exact (Map.set_self ..).trans_ne (Option.some_ne_none _)
    · exact (Map.set_of_ne _ hne _).trans_ne hs

/-! ### Where credentials come from -/

/-- **Credentials that go back to others**: each is one of them, as it was or revoked. -/
def GoBackTo (I : Credential → Prop) (creds : Map Credential) : Prop :=
  ∀ hash cred, creds hash = some cred → ∃ cred₀, I cred₀ ∧
    (cred = cred₀ ∨ cred = { cred₀ with revoked := true })

theorem GoBackTo.mono {I' : Credential → Prop} (h : GoBackTo I creds)
    (hI : ∀ cred, I cred → I' cred) : GoBackTo I' creds := by
  intro hash cred hcred
  obtain ⟨cred₀, hcred₀, hsame⟩ := h hash cred hcred
  exact ⟨cred₀, hI cred₀ hcred₀, hsame⟩

theorem GoBackTo.map (h : GoBackTo I creds)
    (hf : ∀ hash cred, f hash cred = cred ∨ f hash cred = { cred with revoked := true })
    (hcreds : ∀ hash, creds' hash = (creds hash).map (f hash)) : GoBackTo I creds' := by
  intro hash cred hcred
  rw [hcreds] at hcred
  obtain ⟨cred', hcred', rfl⟩ := Option.map_eq_some_iff.mp hcred
  obtain ⟨cred₀, hcred₀, hsame⟩ := h hash cred' hcred'
  refine ⟨cred₀, hcred₀, ?_⟩
  rcases hf hash cred' with hf | hf
  · rwa [hf]
  · rw [hf]
    rcases hsame with rfl | rfl
    · exact .inr rfl
    · exact .inr rfl

theorem GoBackTo.set (h : GoBackTo I creds) (hcred : I cred) (hash : Bytes) :
    GoBackTo I (creds.set hash cred) := by
  intro hash' cred' hcred'
  rcases eq_or_ne hash' hash with rfl | hne
  · rw [Map.set_self] at hcred'
    cases hcred'
    exact ⟨cred, hcred, .inl rfl⟩
  · rw [Map.set_of_ne _ hne] at hcred'
    exact h hash' cred' hcred'

theorem Credential.revokeFor_eq_or (deviceID : Str) (cred : Credential) :
    cred.revokeFor deviceID = cred ∨ cred.revokeFor deviceID = { cred with revoked := true } := by
  rw [revokeFor]
  split_ifs
  · exact .inr rfl
  · exact .inl rfl

/-- **An access token was issued.** -/
def AccessIssued (t : Trace) (cred : Credential) : Prop :=
  ∃ i origin refresh, Did t i (.issued origin cred refresh)

/-- **A refresh token was issued.** -/
def RefreshIssued (t : Trace) (cred : Credential) : Prop :=
  ∃ i origin access, Did t i (.issued origin access cred)

theorem AccessIssued.extend {t t' : Trace} (h : AccessIssued t cred) (ht : t <+: t') :
    AccessIssued t' cred := by
  obtain ⟨i, origin, refresh, hdid⟩ := h
  exact ⟨i, origin, refresh, hdid.extend ht⟩

theorem RefreshIssued.extend {t t' : Trace} (h : RefreshIssued t cred) (ht : t <+: t') :
    RefreshIssued t' cred := by
  obtain ⟨i, origin, access, hdid⟩ := h
  exact ⟨i, origin, access, hdid.extend ht⟩

/-- **The credentials in memory go back to those that were issued.** -/
structure FromIssued (c : Snapshot) : Prop where
  access : GoBackTo (AccessIssued c.trace) c.state.mem.access
  refresh : GoBackTo (RefreshIssued c.trace) c.state.mem.refresh

theorem Effect.goBackTo_access (h : Effect P cfg req c x s) (hI : GoBackTo I c.state.mem.access)
    (hx : ∀ origin access refresh, .issued origin access refresh ∈ x.events → I access) :
    GoBackTo I s.mem.access := by
  rcases h.access_cases with hsame | ⟨hash, now, -, hexpire⟩ | ⟨origin, access, refresh, hv⟩ |
    ⟨deviceID, hv⟩
  · rwa [hsame]
  · rw [hexpire]
    refine hI.map (fun hash' cred => ?_) fun hash' => c.state.mem.access_expireAccess hash hash' now
    split_ifs
    · exact .inr rfl
    · exact .inl rfl
  · obtain ⟨-, -, -, -, -, -, rfl⟩ := h.says_of_mem hv
    exact hI.set (hx _ _ _ hv) _
  · obtain ⟨-, rfl⟩ := h.says_of_mem hv
    exact hI.map (fun _ cred => cred.revokeFor_eq_or deviceID) fun _ => rfl

theorem Effect.goBackTo_refresh (h : Effect P cfg req c x s) (hI : GoBackTo I c.state.mem.refresh)
    (hx : ∀ origin access refresh, .issued origin access refresh ∈ x.events → I refresh) :
    GoBackTo I s.mem.refresh := by
  rcases h.refresh_cases with hsame | ⟨origin, access, refresh, hv⟩ | ⟨hash, hv⟩ | ⟨deviceID, hv⟩
  · rwa [hsame]
  · obtain ⟨-, -, -, -, -, -, rfl⟩ := h.says_of_mem hv
    exact hI.set (hx _ _ _ hv) _
  · obtain ⟨-, rfl⟩ := h.says_of_mem hv
    refine hI.map (fun hash' cred => ?_) fun hash' => c.state.mem.refresh_markRefresh hash hash'
    split_ifs
    · exact .inr rfl
    · exact .inl rfl
  · obtain ⟨-, rfl⟩ := h.says_of_mem hv
    exact hI.map (fun _ cred => cred.revokeFor_eq_or deviceID) fun _ => rfl

theorem FromIssued.step (h : FromIssued c) (hx : Effect P cfg req c x s) :
    FromIssued ⟨s, c.trace ++ [x]⟩ := by
  have hpre : c.trace <+: c.trace ++ [x] := List.prefix_append _ _
  exact ⟨hx.goBackTo_access (h.access.mono fun _ hcred => hcred.extend hpre)
      fun _ _ _ hv => ⟨_, _, _, did_of_snoc (List.prefix_refl _) hv⟩,
    hx.goBackTo_refresh (h.refresh.mono fun _ hcred => hcred.extend hpre)
      fun _ _ _ hv => ⟨_, _, _, did_of_snoc (List.prefix_refl _) hv⟩⟩

theorem fromIssued_of_reachable {J : Unmarshal} {C : Snapshot → Entry Env Event → Prop} {w : World}
    (hw : (server P J cfg C).Reachable w) : FromIssued w.config := by
  refine effect_hasEffects.invariant (I := FromIssued) (fun s hs => ?_)
    (fun _ _ _ _ h _ hx => h.step hx) hw
  constructor
  · intro hash cred hcred
    rw [mem_of_initial hs] at hcred
    cases hcred
  · intro hash cred hcred
    rw [mem_of_initial hs] at hcred
    cases hcred

end Relay

end Iscp
