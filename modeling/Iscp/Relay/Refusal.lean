import Iscp.Relay.Credentials
import Iscp.Relay.Requests

/-!
# Devices that are shut out

A device is let in when a credential of it is recognized, when it gets new credentials, or when its
connection is ready (`Iscp.Relay.Event.LetsIn`). It is shut out of a Relay if all its credentials
are revoked, and no identity can be found for it (`Iscp.Relay.Shut`): then no request lets it in,
unless it is bound again, and it stays shut out (`Iscp.Relay.Shut.step`).

That a device is in the set of those that have been revoked does not shut it out for good. It is
refused as long as it is not bound again, when requests are served in turn; and its row stays
revoked as long as it is not written again (`Iscp.Relay.revoked_refused`).
-/

namespace Iscp

namespace Relay

open Go Crypto Identity Replay Service Provisioning

/-! ### Being shut out -/

/-- **A request lets a device in**, or is on the way to do so. -/
def Event.LetsIn (deviceID : Str) : Event → Prop
  | .admitted id | .stored id | .bound id | .ready id => id.deviceID = deviceID
  | .recognized cred _ | .found _ cred => cred.deviceID = deviceID
  | .issued origin _ _ => origin.deviceID = deviceID
  | .looked deviceID' _ | .dequeued deviceID' _ => deviceID' = deviceID
  | _ => False

/-- A device is shut out as far as memory goes. -/
structure Memory.Shut (m : Memory) (deviceID : Str) : Prop where
  closed : m.Closed deviceID
  device : m.devices deviceID = none ∨ m.revoked deviceID ≠ none

/-- All tokens of a device are revoked in a table. -/
def TokensRevoked (domainID deviceID : Str)
    (tokens : Str × Bytes → Option RelayCredential) : Prop :=
  ∀ hash row, tokens (domainID, hash) = some row → row.deviceID = deviceID → row.revokedAt ≠ none

/-- The row of a device is revoked, if there is one. -/
def RowRevoked (domainID deviceID : Str) (devices : Str × Str → Option RelayDevice) : Prop :=
  ∀ row, devices (domainID, deviceID) = some row → row.status = .revoked

/-- A device is shut out as far as the database goes. -/
structure Database.Shut (db : Database) (domainID deviceID : Str) : Prop where
  device : RowRevoked domainID deviceID db.devices
  access : TokensRevoked domainID deviceID db.accessTokens
  refresh : TokensRevoked domainID deviceID db.refreshTokens

/-- **A device is shut out.** -/
structure Shut (cfg : Config) (s : State) (deviceID : Str) : Prop where
  mem : s.mem.Shut deviceID
  db : cfg.repo = true → s.db.Shut cfg.domainID deviceID

variable {P : Primitives} {J : Unmarshal} {cfg : Config} {req : Request} {c : Snapshot}
  {x : Entry Env Event} {s : State} {deviceID : Str}

variable {tokens tokens' : Str × Bytes → Option RelayCredential} {domainID : Str} {hash : Bytes}
  {t t' : Trace} {i : ℕ} {C : Snapshot → Entry Env Event → Prop}

theorem TokensRevoked.map (h : TokensRevoked domainID deviceID tokens)
    {f : Str × Bytes → RelayCredential → RelayCredential}
    (hf : ∀ key row, (f key row).deviceID = row.deviceID ∧
      (row.revokedAt ≠ none → (f key row).revokedAt ≠ none))
    (htokens : ∀ key, tokens' key = (tokens key).map (f key)) :
    TokensRevoked domainID deviceID tokens' := by
  intro hash row hrow hdevice
  obtain ⟨row', hrow', rfl⟩ := Option.map_eq_some_iff.mp ((htokens _).symm.trans hrow)
  rw [(hf _ row').1] at hdevice
  exact (hf _ row').2 (h hash row' hrow' hdevice)

theorem TokensRevoked.newCredential (h : TokensRevoked domainID deviceID tokens)
    {domainID' deviceID' : Str} {expiresAt : Time}
    (htokens : Database.newCredential tokens domainID' deviceID' hash expiresAt = .ok tokens')
    (hdevice : deviceID' ≠ deviceID) : TokensRevoked domainID deviceID tokens' := by
  obtain ⟨_, -, ⟨⟩⟩ := bind_eq_ok_iff.mp htokens
  intro hash' row hrow hdevice'
  rcases eq_or_ne (domainID, hash') (domainID', hash) with hkey | hkey
  · rw [hkey, Function.update_self] at hrow
    cases hrow
    exact absurd hdevice' hdevice
  · rw [Function.update_of_ne hkey] at hrow
    exact h hash' row hrow hdevice'

theorem TokensRevoked.revoke (h : TokensRevoked domainID deviceID tokens)
    (p : Str × Bytes → RelayCredential → Prop) [∀ key row, Decidable (p key row)] (now : Time) :
    TokensRevoked domainID deviceID fun key =>
      (tokens key).map fun row => if p key row then row.revoke now else row := by
  refine h.map (fun key row => ?_) fun _ => rfl
  split_ifs
  · exact ⟨row.deviceID_revoke now, fun _ => row.revokedAt_revoke now⟩
  · exact ⟨rfl, fun h => h⟩

theorem tokensRevoked_revoke (domainID deviceID : Str)
    (tokens : Str × Bytes → Option RelayCredential) (now : Time) :
    TokensRevoked domainID deviceID fun key => (tokens key).map fun row =>
      if key.1 = domainID ∧ row.deviceID = deviceID then row.revoke now else row := by
  intro hash row hrow hdevice
  obtain ⟨row', -, rfl⟩ := Option.map_eq_some_iff.mp hrow
  split_ifs at hdevice with hif
  · rw [if_pos hif]
    exact row'.revokedAt_revoke now
  · exact absurd ⟨rfl, hdevice⟩ hif

theorem not_getByHash (h : TokensRevoked domainID deviceID tokens) {now : Time}
    {row : RelayCredential} (hrow : Database.getByHash tokens domainID hash now = some row) :
    row.deviceID ≠ deviceID := by
  obtain ⟨hget, hgood⟩ := Option.filter_eq_some_iff.mp hrow
  exact fun hdevice => h hash row hget hdevice (of_decide_eq_true hgood).1

theorem Origin.OnRecord.deviceID_ne {origin : Origin} (h : origin.OnRecord t i)
    (hown : ∀ v, Did t i v → ¬v.LetsIn deviceID) : origin.deviceID ≠ deviceID := by
  cases origin with
  | bound id => exact hown _ h
  | refreshed hash cred => exact hown _ h.1

/-- **Nobody lets in a device that is shut out**, if it is not bound again: each event that lets it
in would need a credential that is good, an identity that can be found, or an earlier such event of
the same request. -/
theorem Shut.not_letsIn (hs : Shut cfg c.state deviceID) (h : Effect P cfg req c x s)
    (hown : ∀ v, Did c.trace x.thread v → ¬v.LetsIn deviceID)
    (hbinds : ∀ id, .admitted id ∈ x.events → id.deviceID ≠ deviceID) {v : Event}
    (hv : v ∈ x.events) : ¬v.LetsIn deviceID := by
  have hsays := h.says_of_mem hv
  intro hlets
  cases v with
  | admitted id => exact hbinds id hv hlets
  | stored id => exact hown _ hsays.2.2.1 hlets
  | bound id => exact hown _ hsays.2.1 hlets
  | issued origin access refresh => exact hsays.2.1.deviceID_ne hown hlets
  | found hash cred =>
    obtain ⟨-, ⟨hfound, hgood⟩ | ⟨hrepo, now, row, hrow, rfl⟩⟩ := hsays
    · rw [hs.mem.closed.refresh hash cred hfound hlets] at hgood
      cases hgood
    · exact not_getByHash (hs.db hrepo).refresh hrow hlets
  | recognized cred now =>
    obtain ⟨-, ⟨hash, hfound⟩ | ⟨hrepo, hash, row, hrow, rfl⟩⟩ := hsays
    · obtain ⟨hget, hgood⟩ := Option.filter_eq_some_iff.mp hfound
      rw [hs.mem.closed.access hash cred hget hlets] at hgood
      cases hgood
    · exact not_getByHash (hs.db hrepo).access hrow hlets
  | looked deviceID' id =>
    obtain rfl : deviceID' = deviceID := hlets
    obtain ⟨-, ⟨hfound, hnone⟩ | ⟨hrepo, row, hrow, hgood, -⟩⟩ := hsays
    · rcases hs.mem.device with hdevice | hrevoked
      · cases hdevice.symm.trans hfound
      · exact hrevoked hnone
    · exact hgood ((hs.db hrepo).device row hrow)
  | ready id => exact hown _ hsays hlets
  | dequeued deviceID' messages =>
    obtain ⟨id, rfl, hready⟩ := hsays
    exact hown _ hready hlets
  | _ => exact hlets

theorem Effect.rowRevoked_of_ne (h : Effect P cfg req c x s)
    (hrow : RowRevoked domainID deviceID c.state.db.devices)
    (hx : ∀ id, .stored id ∈ x.events → id.deviceID ≠ deviceID) :
    RowRevoked domainID deviceID s.db.devices := by
  rcases h.rows_cases with hsame | ⟨id, hv⟩ | ⟨deviceID', hv⟩
  · rwa [hsame]
  · obtain ⟨-, -, -, rfl⟩ := h.says_of_mem hv
    intro row hrow'
    rw [Database.devices_insertDevice_of_ne _ _ fun hkey =>
      hx _ hv (Prod.mk.inj hkey).2.symm] at hrow'
    exact hrow row hrow'
  · obtain ⟨-, rfl⟩ := h.says_of_mem hv
    intro row hrow'
    obtain ⟨row', hrow'', rfl⟩ := Option.map_eq_some_iff.mp hrow'
    split_ifs
    · rfl
    · exact hrow row' hrow''

theorem Effect.accessRevoked (h : Effect P cfg req c x s)
    (htokens : TokensRevoked domainID deviceID c.state.db.accessTokens)
    (hnew : ∀ origin : Origin, (∀ d, ¬req.Revokes d) → origin.OnRecord c.trace x.thread →
      origin.deviceID ≠ deviceID) : TokensRevoked domainID deviceID s.db.accessTokens := by
  rcases h.accessTokens_cases with hsame | ⟨cred, hv⟩ | ⟨deviceID', hv⟩
  · rwa [hsame]
  · obtain ⟨origin, db, hreq, horigin, hdevice, hdb, rfl⟩ := h.says_of_mem hv
    obtain ⟨tokens, hstore, ⟨⟩⟩ := bind_eq_ok_iff.mp hdb
    exact htokens.newCredential hstore (hdevice ▸ hnew origin hreq horigin)
  · obtain ⟨-, now, rfl⟩ := h.says_of_mem hv
    exact htokens.revoke (fun key row => key.1 = cfg.domainID ∧ row.deviceID = deviceID') now

theorem Effect.refreshTokensRevoked (h : Effect P cfg req c x s)
    (htokens : TokensRevoked domainID deviceID c.state.db.refreshTokens)
    (hnew : ∀ origin : Origin, (∀ d, ¬req.Revokes d) → origin.OnRecord c.trace x.thread →
      origin.deviceID ≠ deviceID) : TokensRevoked domainID deviceID s.db.refreshTokens := by
  rcases h.refreshTokens_cases with hsame | ⟨hash, hv⟩ | ⟨hash, hv⟩ | ⟨deviceID', hv⟩
  · rwa [hsame]
  · obtain ⟨origin, expiresAt, db, hreq, horigin, hdb, rfl⟩ := h.says_of_mem hv
    obtain ⟨tokens, hstore, ⟨⟩⟩ := bind_eq_ok_iff.mp hdb
    exact htokens.newCredential hstore (hnew origin hreq horigin)
  · rcases h.says_of_mem hv with ⟨-, hmarked⟩ | ⟨-, -, now, rfl⟩
    · obtain ⟨-, rfl⟩ := h.says_of_mem hmarked
      exact htokens
    · exact htokens.revoke (fun key _ => key = (cfg.domainID, hash)) now
  · obtain ⟨-, now, rfl⟩ := h.says_of_mem hv
    exact htokens.revoke (fun key row => key.1 = cfg.domainID ∧ row.deviceID = deviceID') now

/-- **A device stays shut out**, if it is not bound again. -/
theorem Shut.step (hs : Shut cfg c.state deviceID) (h : Effect P cfg req c x s)
    (hown : ∀ v, Did c.trace x.thread v → ¬v.LetsIn deviceID)
    (hx : ∀ v ∈ x.events, ¬v.LetsIn deviceID) : Shut cfg s deviceID := by
  have hnew : ∀ origin : Origin, (∀ d, ¬req.Revokes d) → origin.OnRecord c.trace x.thread →
      origin.deviceID ≠ deviceID := fun _ _ horigin => horigin.deviceID_ne hown
  refine ⟨⟨h.closed hs.mem.closed fun _ _ _ hv => hx _ hv, ?_⟩, fun hrepo =>
    ⟨h.rowRevoked_of_ne (hs.db hrepo).device fun _ hv => hx _ hv,
      h.accessRevoked (hs.db hrepo).access hnew, h.refreshTokensRevoked (hs.db hrepo).refresh hnew⟩⟩
  rcases hs.mem.device with hdevice | hrevoked
  · rcases h.devices_cases with hsame | ⟨id, hv⟩
    · exact .inl (hsame ▸ hdevice)
    · obtain ⟨-, -, rfl⟩ := h.says_of_mem hv
      exact .inl ((Map.set_of_ne _ (hx _ hv ·.symm) _).trans hdevice)
  · exact .inr (h.revoked_ne_none hrevoked)

/-! ### Requests served in turn -/

/-- Nothing that has come on record since then lets the device in. -/
def NotLetIn (deviceID : Str) (t t' : Trace) : Prop :=
  ∃ l, t' = t ++ l ∧ ∀ y ∈ l, ∀ v ∈ y.events, ¬v.LetsIn deviceID

theorem NotLetIn.refl (t : Trace) : NotLetIn deviceID t t := ⟨[], (List.append_nil t).symm, nofun⟩

theorem NotLetIn.trans {t'' : Trace} (h : NotLetIn deviceID t t') (h' : NotLetIn deviceID t' t'') :
    NotLetIn deviceID t t'' := by
  obtain ⟨l, rfl, hl⟩ := h
  obtain ⟨l', rfl, hl'⟩ := h'
  refine ⟨l ++ l', List.append_assoc .., fun y hy => ?_⟩
  rcases List.mem_append.mp hy with hy | hy
  · exact hl y hy
  · exact hl' y hy

theorem NotLetIn.own (h : NotLetIn deviceID t t') (hi : ∀ y ∈ t, y.thread ≠ i) (v : Event)
    (hv : Did t' i v) : ¬v.LetsIn deviceID := by
  obtain ⟨l, rfl, hl⟩ := h
  obtain ⟨y, hy, rfl, hv⟩ := hv
  rcases List.mem_append.mp hy with hy | hy
  · exact absurd rfl (hi y hy)
  · exact hl y hy v hv

/-- **One section of a request that has come since then.** -/
theorem NotLetIn.step (ht : NotLetIn deviceID t c.trace) (hi : ∀ y ∈ t, y.thread ≠ x.thread)
    (hs : Shut cfg c.state deviceID) (h : Effect P cfg req c x s)
    (hbinds : ∀ id, .admitted id ∈ x.events → id.deviceID ≠ deviceID) :
    NotLetIn deviceID t (c.trace ++ [x]) ∧ Shut cfg s deviceID := by
  have hx : ∀ v ∈ x.events, ¬v.LetsIn deviceID := fun v =>
    hs.not_letsIn h (ht.own hi) hbinds
  refine ⟨ht.trans ⟨[x], rfl, fun y hy => ?_⟩, hs.step h (ht.own hi) hx⟩
  rwa [List.mem_singleton.mp hy]

variable (P J cfg) in
/-- **The requests of a Relay, served in turn**, each section meeting the condition. -/
def inTurn (C : Snapshot → Entry Env Event → Prop) : System Snapshot (Request × Answer) :=
  Handler.inTurn (Initial P cfg) (handle P J cfg) C

/-- A device has been revoked. -/
def WasRevoked (t : Trace) (deviceID : Str) : Prop := ∃ y ∈ t, .revoked deviceID ∈ y.events

theorem WasRevoked.extend (h : WasRevoked t deviceID) (ht : t <+: t') : WasRevoked t' deviceID := by
  obtain ⟨y, hy, hv⟩ := h
  exact ⟨y, ht.subset hy, hv⟩

/-- **No device is bound that has been revoked.** -/
def NotAgain (c : Snapshot) (x : Entry Env Event) : Prop :=
  ∀ id, .admitted id ∈ x.events → ¬WasRevoked c.trace id.deviceID

/-- All devices in the set of those that are revoked have been revoked, and have no credential that
is good. -/
def RevokedClosed (c : Snapshot) : Prop := ∀ deviceID, c.state.mem.revoked deviceID ≠ none →
  c.state.mem.Closed deviceID ∧ WasRevoked c.trace deviceID

theorem serves_of_revoked (hrepo : cfg.repo = false) (hc : RevokedClosed c)
    (hrevoked : c.state.mem.revoked deviceID ≠ none) (hi : ∀ y ∈ c.trace, y.thread ≠ i) {r : Answer}
    {c' : Snapshot} (h : (handle P J cfg req).Serves NotAgain i c r c') :
    NotLetIn deviceID c.trace c'.trace ∧ Shut cfg c'.state deviceID := by
  obtain ⟨hclosed, hwas⟩ := hc deviceID hrevoked
  have hs : Shut cfg c.state deviceID :=
    ⟨⟨hclosed, .inr hrevoked⟩, fun h => absurd (hrepo.symm.trans h) (by decide)⟩
  refine (Handler.keeps_of_serves (handle_safe i req c.trace) h
    (R := fun c' => NotLetIn deviceID c.trace c'.trace ∧ Shut cfg c'.state deviceID) ?_
    ⟨.refl _, hs⟩).1
  rintro c' x s ⟨ht, hs'⟩ hC rfl hE
  refine ht.step hi hs' hE fun id hv hdevice => hC id hv ?_
  obtain ⟨l, hl, -⟩ := ht
  exact hdevice ▸ hwas.extend (hl ▸ List.prefix_append _ _)

theorem RevokedClosed.of_revokes (hreq : ∃ d, req.Revokes d) (hc : RevokedClosed c)
    (h : Effect P cfg req c x s) : RevokedClosed ⟨s, c.trace ++ [x]⟩ := by
  have hclosed : ∀ d, c.state.mem.revoked d ≠ none →
      s.mem.Closed d ∧ WasRevoked (c.trace ++ [x]) d := by
    intro d hd
    obtain ⟨hclosed, hwas⟩ := hc d hd
    refine ⟨h.closed hclosed fun _ _ _ hv => ?_, hwas.extend (List.prefix_append _ _)⟩
    obtain ⟨d', hd'⟩ := hreq
    exact absurd hd' ((h.says_of_mem hv).1 d')
  intro d hd
  rcases h.revoked_cases with hsame | ⟨d', hv⟩
  · exact hclosed d (hsame ▸ hd)
  · obtain ⟨-, rfl⟩ := h.says_of_mem hv
    rcases eq_or_ne d d' with rfl | hne
    · exact ⟨⟨(c.state.mem.closed_revokeDevice d).access,
        (c.state.mem.closed_revokeDevice d).refresh⟩, x, by simp, hv⟩
    · exact hclosed d fun hnone => hd ((Map.set_of_ne _ hne _).trans hnone)

/-- After requests served in turn, a device that is revoked has no good credential. -/
theorem revokedClosed_of_reachable (hrepo : cfg.repo = false)
    (hc : (inTurn P J cfg NotAgain).Reachable c) : RevokedClosed c := by
  refine hc.invariant ?_ ?_
  · intro c hinit d hd
    rw [mem_of_initial hinit.1] at hd
    exact absurd rfl hd
  rintro c ⟨req, r⟩ c' - hc ⟨i, hi, h⟩
  by_cases hreq : ∃ d, req.Revokes d
  · exact (Handler.keeps_of_serves (handle_safe i req c.trace) h (R := RevokedClosed)
      (fun c x s hc _ _ hE => hc.of_revokes hreq hE) hc).1
  · -- no other device is revoked in between
    obtain ⟨⟨hsame, hpre⟩, -⟩ := Handler.keeps_of_serves (handle_safe i req c.trace) h
      (R := fun c' => c'.state.mem.revoked = c.state.mem.revoked ∧ c.trace <+: c'.trace)
      (fun c' x s ⟨hsame, hpre⟩ _ _ hE =>
        ⟨(hE.revoked_cases.resolve_right fun ⟨d, hv⟩ => hreq ⟨d, (hE.says_of_mem hv).1⟩).trans
          hsame,
          hpre.trans (List.prefix_append _ _)⟩) ⟨rfl, List.prefix_refl _⟩
    intro d hd
    rw [hsame] at hd
    exact ⟨(serves_of_revoked hrepo hc hd hi h).2.mem.closed, (hc d hd).2.extend hpre⟩

/-! ### Rows -/

/-- **No row that has been revoked is written again.** -/
def RowsStay (c : Snapshot) (x : Entry Env Event) : Prop :=
  ∀ id, .stored id ∈ x.events → ∀ row, c.state.db.devices (id.domainID, id.deviceID) = some row →
    row.status ≠ .revoked

/-- A revoked row stays revoked if no device is stored over it. -/
theorem row_stays (h : Effect P cfg req c x s) (hx : RowsStay c x) {key : Str × Str}
    (hrow : ∃ row, c.state.db.devices key = some row ∧ row.status = .revoked) :
    ∃ row, s.db.devices key = some row ∧ row.status = .revoked := by
  obtain ⟨row, hrow, hstatus⟩ := hrow
  rcases h.rows_cases with hsame | ⟨id, hv⟩ | ⟨deviceID', hv⟩
  · exact ⟨row, hsame ▸ hrow, hstatus⟩
  · obtain ⟨-, -, -, rfl⟩ := h.says_of_mem hv
    refine ⟨row, (Database.devices_insertDevice_of_ne _ _ ?_).trans hrow, hstatus⟩
    rintro rfl
    exact hx id hv row hrow hstatus
  · obtain ⟨-, rfl⟩ := h.says_of_mem hv
    refine ⟨_, Option.map_eq_some_iff.mpr ⟨row, hrow, rfl⟩, ?_⟩
    split_ifs
    · rfl
    · exact hstatus

/-! ### Main results -/

/-- **A device that has been revoked is refused**, if it is not bound again. Without a database,
requests are served in turn: none recognizes a credential of the device, exchanges a token of it or
makes a connection of it ready. With a database, in any run, its row stays revoked. -/
theorem revoked_refused :
    (cfg.repo = false → ∀ c deviceID, (inTurn P J cfg NotAgain).Reachable c →
      c.state.mem.revoked deviceID ≠ none → ∀ req answer c',
      (inTurn P J cfg NotAgain).step c (req, answer) c' → NotLetIn deviceID c.trace c'.trace) ∧
    (cfg.repo = true → ∀ w w', (server P J cfg RowsStay).Reachable w →
      (server P J cfg RowsStay).Leads w w' → ∀ key,
      (∃ row, w.state.db.devices key = some row ∧ row.status = .revoked) →
      ∃ row, w'.state.db.devices key = some row ∧ row.status = .revoked) := by
  constructor
  · rintro hrepo c deviceID hc hrevoked req answer c' ⟨i, hi, h⟩
    exact (serves_of_revoked hrepo (revokedClosed_of_reachable hrepo hc) hrevoked hi h).1
  · intro _ w w' hw h key hrow
    refine (sound_leads hw h).keeps (Q := fun c => ∃ row, c.state.db.devices key = some row ∧
      row.status = .revoked) ?_ hrow
    rintro c x c' hrow ⟨hC, -, req, h⟩
    exact row_stays h hC hrow

/-! ### A device that is bound again -/

instance (deviceID : Str) : DecidablePred (Event.LetsIn deviceID) := fun v => by
  unfold Event.LetsIn
  split <;> infer_instance

theorem not_notLetIn (h : ∃ y ∈ t'.drop t.length, ∃ v ∈ y.events, v.LetsIn deviceID) :
    ¬NotLetIn deviceID t t' := by
  rintro ⟨l, rfl, hnot⟩
  rw [List.drop_left] at h
  obtain ⟨y, hy, v, hv, hlets⟩ := h
  exact hnot y hy v hv hlets

/-- A request is served by a Relay without a database. -/
def serving (i : ℕ) (req : Request) (c : Snapshot) : Option (Snapshot × Except Answer Answer) :=
  Handler.serve (handle .transparent unreadable (exampleConfig false)) i (drawing i.toUInt8) req c

theorem step_of_serving {r : Snapshot × Except Answer Answer} (h : serving i req c = some r)
    (hC : ∀ c₁ x, c₁.trace ++ [x] <+: r.1.trace → C c₁ x) :
    (inTurn .transparent unreadable (exampleConfig false) C).step c (req, Handler.reply r.2) r.1 :=
  ⟨i, Handler.serves_of_serve h fun c₁ x _ => hC c₁ x⟩

/-- The Relay has just been started. -/
def startedRelay : Snapshot := ⟨⟨Memory.new, emptyDatabase⟩, []⟩

theorem reachable_startedRelay :
    (inTurn .transparent unreadable (exampleConfig false) C).Reachable startedRelay :=
  .init ⟨initial_lab rfl _, rfl⟩

/-- No identity is admitted after its device has been revoked. -/
def NoneAgain (t : Trace) : Prop :=
  t.Pairwise fun y x => ∀ v ∈ x.events, ∀ id ∈ v.admits, .revoked id.deviceID ∉ y.events

instance : DecidablePred NoneAgain := fun _ => inferInstanceAs (Decidable (List.Pairwise _ _))

theorem notAgain_of_noneAgain (ht : NoneAgain t) (hx : c.trace ++ [x] <+: t) : NotAgain c x := by
  rintro id hv ⟨y, hy, hrevoked⟩
  exact rel_of_pairwise ht hx hy _ hv id rfl hrevoked

/-- A device that has been revoked presents its refresh token; and a Relay is started with a row
that is revoked. -/
theorem revoked_refused_refresh :
    (∃ c token answer c',
      (inTurn .transparent unreadable (exampleConfig false) NotAgain).Reachable c ∧
      c.state.mem.revoked (lit "a") ≠ none ∧
      (inTurn .transparent unreadable (exampleConfig false) NotAgain).step c
        (.refreshAccess token, answer) c' ∧ NotLetIn (lit "a") c.trace c'.trace) ∧
    ∃ w key, (server .transparent unreadable (exampleConfig true) RowsStay).Reachable w ∧
      (∃ row, w.state.db.devices key = some row ∧ row.status = .revoked) ∧
      ∀ w', (server .transparent unreadable (exampleConfig true) RowsStay).Leads w w' →
        ∃ row, w'.state.db.devices key = some row ∧ row.status = .revoked := by
  constructor
  swap
  · obtain ⟨dev, -⟩ := exists_made .transparent
    have h₀ : (server .transparent unreadable (exampleConfig true) RowsStay).Reachable
        ⟨⟨Memory.new, emptyDatabase.insertDevice dev.identity .revoked⟩, [], fun _ => none⟩ :=
      .init ⟨initial_lab rfl _, rfl, rfl⟩
    have hrow : ∃ row, (emptyDatabase.insertDevice dev.identity .revoked).devices
        (dev.identity.domainID, dev.identity.deviceID) = some row ∧ row.status = .revoked :=
      ⟨_, Database.devices_insertDevice_self .., rfl⟩
    exact ⟨_, _, h₀, hrow, fun w' h => revoked_refused.2 rfl _ w' h₀ h _ hrow⟩
  obtain ⟨dev, -, r₁, h₁, r₂, h₂, hrevoked, hagain, r₃, h₃, hagain'⟩ :
      ∃ dev ∈ exampleProof (lit "a") (lit "0") (lit "1") 1,
        ∃ r₁ ∈ serving 0 (.bindSelf noHeaders ⟨dev.1, dev.2⟩) startedRelay,
        ∃ r₂ ∈ serving 1 (.revokeAccess noHeaders (lit "a")) r₁.1,
          r₂.1.state.mem.revoked (lit "a") ≠ none ∧ NoneAgain r₂.1.trace ∧
            ∃ r₃ ∈ serving 2 (.refreshAccess (tokenOf (drawing 0))) r₂.1, NoneAgain r₃.1.trace := by
    decide +kernel
  have hc : (inTurn .transparent unreadable (exampleConfig false) NotAgain).Reachable r₂.1 :=
    Handler.inTurn_of_trace (C := Server.always) ((reachable_startedRelay.step
      (step_of_serving h₁ fun _ _ _ => trivial)).step (step_of_serving h₂ fun _ _ _ => trivial))
      fun c₁ x => notAgain_of_noneAgain hagain
  have hstep := step_of_serving h₃ fun c₁ x => notAgain_of_noneAgain (c := c₁) hagain'
  exact ⟨_, _, _, _, hc, hrevoked, hstep, revoked_refused.1 rfl _ _ hc hrevoked _ _ _ hstep⟩

/-- **A device that has been revoked exchanges a token**: it has been bound again. -/
theorem revoked_bound_again : ∃ c token body c',
    (inTurn .transparent unreadable (exampleConfig false) Server.always).Reachable c ∧
    c.state.mem.revoked (lit "a") ≠ none ∧
    (inTurn .transparent unreadable (exampleConfig false) Server.always).step c
      (.refreshAccess token, .json 200 body) c' ∧ ¬NotLetIn (lit "a") c.trace c'.trace := by
  obtain ⟨dev, -, dev', -, r₁, h₁, r₂, h₂, r₃, h₃, hrevoked, ⟨c', x⟩, h₄, ⟨body, rfl⟩, hletsIn⟩ :
      ∃ dev ∈ exampleProof (lit "a") (lit "0") (lit "1") 1,
        ∃ dev' ∈ exampleProof (lit "a") (lit "0") (lit "2") 1,
        ∃ r₁ ∈ serving 0 (.bindSelf noHeaders ⟨dev.1, dev.2⟩) startedRelay,
        ∃ r₂ ∈ serving 1 (.revokeAccess noHeaders (lit "a")) r₁.1,
        ∃ r₃ ∈ serving 2 (.bindSelf noHeaders ⟨dev'.1, dev'.2⟩) r₂.1,
          r₃.1.state.mem.revoked (lit "a") ≠ none ∧
          ∃ r₄ ∈ serving 3 (.refreshAccess (tokenOf (drawing 2))) r₃.1, Served r₄.2 200 ∧
            ∃ y ∈ r₄.1.trace.drop r₃.1.trace.length, ∃ v ∈ y.events, v.LetsIn (lit "a") := by
    decide +kernel
  exact ⟨_, _, body, _,
    ((reachable_startedRelay.step (step_of_serving h₁ fun _ _ _ => trivial)).step
    (step_of_serving h₂ fun _ _ _ => trivial)).step (step_of_serving h₃ fun _ _ _ => trivial),
    hrevoked, step_of_serving h₄ fun _ _ _ => trivial, not_notLetIn hletsIn⟩

end Relay

end Iscp
