import Iscp.Relay.Replicas

/-!
# Revoked in memory, and in the database

`authenticateAccess` looks an access token up in memory, and in the database if memory does not
vouch for it: also if memory says that it is revoked. So a device whose revocation has failed half
way – in memory it is revoked, in the database it is not – is let in again
(`Iscp.Relay.revoked_but_accepted`). So is one that has looked into memory before it is revoked
there, and looks into the database before it is revoked there, too
(`Iscp.Relay.revoked_but_exchanged`).

Once the rows of the device are revoked as well, what is revoked in memory is revoked
(`Iscp.Relay.revoked_means_revoked`), whatever else fails. Three facts carry this. Rows are never
written over, so that the row of a credential stays, and stays revoked (`Iscp.Relay.TokensGrow`). A
credential in memory has its row (`Iscp.Relay.Entered`). And one that is revoked in memory has
expired, or its device was revoked when it had its row (`Iscp.Relay.Retired`).
-/

namespace Iscp.Relay

open Go Crypto Identity Replay Service Provisioning

/-- A row stays, but may be revoked. -/
structure RelayCredential.Stays (row row' : RelayCredential) : Prop where
  deviceID : row'.deviceID = row.deviceID
  expiresAt : row'.expiresAt = row.expiresAt
  revokedAt : row.revokedAt ≠ none → row'.revokedAt ≠ none

/-- **A table of credentials grows**: its rows stay. -/
def TokensGrow (tokens tokens' : Str × Bytes → Option RelayCredential) : Prop :=
  ∀ key row, tokens key = some row → ∃ row', tokens' key = some row' ∧ row.Stays row'

/-- A credential stands in a table. -/
def Credential.In (cred : Credential) (tokens : Str × Bytes → Option RelayCredential) : Prop :=
  ∃ row, tokens (cred.domainID, cred.hash) = some row ∧ row.deviceID = cred.deviceID ∧
    row.expiresAt = timestamptz cred.expiresAt

/-- **Every revocation of a device has come to the access tokens**: each time it was revoked in
memory, the rows of its access tokens were revoked afterwards. -/
def Completed (deviceID : Str) (t : Trace) : Prop :=
  ∀ z t', z :: t' <:+ t → .revoked deviceID ∈ z.events →
    ∃ u ∈ t', .revokedAccess deviceID ∈ u.events

variable {P : Primitives} {J : Unmarshal} {cfg : Config} {C : Snapshot → Entry Env Event → Prop}
  {req : Request} {c c' c₀ : Snapshot} {x : Entry Env Event} {s : State} {t : Trace}
  {tokens tokens' : Str × Bytes → Option RelayCredential} {deviceID : Str} {hash : Bytes}
  {cred : Credential}

/-! ### Rows stay -/

theorem RelayCredential.Stays.refl (row : RelayCredential) : row.Stays row := ⟨rfl, rfl, id⟩

theorem RelayCredential.Stays.trans {row row' row'' : RelayCredential} (h : row.Stays row')
    (h' : row'.Stays row'') : row.Stays row'' :=
  ⟨h'.deviceID.trans h.deviceID, h'.expiresAt.trans h.expiresAt,
    fun hrevoked => h'.revokedAt (h.revokedAt hrevoked)⟩

theorem RelayCredential.stays_revoke (row : RelayCredential) (now : Time) :
    row.Stays (row.revoke now) := by
  refine ⟨row.deviceID_revoke now, ?_, fun _ => row.revokedAt_revoke now⟩
  rw [revoke]
  split_ifs <;> rfl

theorem TokensGrow.refl (tokens : Str × Bytes → Option RelayCredential) :
    TokensGrow tokens tokens := fun _ row hrow => ⟨row, hrow, .refl row⟩

theorem TokensGrow.trans {tokens'' : Str × Bytes → Option RelayCredential}
    (h : TokensGrow tokens tokens') (h' : TokensGrow tokens' tokens'') :
    TokensGrow tokens tokens'' := by
  intro key row hrow
  obtain ⟨row', hrow', hstays⟩ := h key row hrow
  obtain ⟨row'', hrow'', hstays'⟩ := h' key row' hrow'
  exact ⟨row'', hrow'', hstays.trans hstays'⟩

theorem tokensGrow_revoke {p : Str × Bytes → RelayCredential → Prop}
    [∀ key row, Decidable (p key row)] {now : Time} :
    TokensGrow tokens fun key => (tokens key).map fun row =>
      if p key row then row.revoke now else row := by
  intro key row hrow
  refine ⟨if p key row then row.revoke now else row, by simp [hrow], ?_⟩
  split_ifs
  · exact row.stays_revoke now
  · exact .refl row

/-- **A row is not written over**: the statement fails if there is one. -/
theorem tokensGrow_newCredential {domainID : Str} {expiresAt : Time}
    (h : Database.newCredential tokens domainID deviceID hash expiresAt = .ok tokens') :
    TokensGrow tokens tokens' ∧
      tokens' (domainID, hash) = some ⟨deviceID, timestamptz expiresAt, none⟩ := by
  obtain ⟨_, hnew, ⟨⟩⟩ := bind_eq_ok_iff.mp h
  refine ⟨fun key row hrow => ?_, Function.update_self ..⟩
  have hne : key ≠ (domainID, hash) := by
    rintro rfl
    simp [failIf_eq_ok_iff, hrow] at hnew
  exact ⟨row, by rw [Function.update_of_ne hne, hrow], .refl row⟩

theorem Effect.accessTokens_grow (h : Effect P cfg req c x s) :
    TokensGrow c.state.db.accessTokens s.db.accessTokens := by
  rcases h.accessTokens_cases with hsame | ⟨cred, hv⟩ | ⟨deviceID, hv⟩
  · rw [hsame]
    exact .refl _
  · obtain ⟨_, _, -, -, -, hdb, rfl⟩ := h.says_of_mem hv
    obtain ⟨tokens, hstore, ⟨⟩⟩ := bind_eq_ok_iff.mp hdb
    exact (tokensGrow_newCredential hstore).1
  · obtain ⟨-, now, rfl⟩ := h.says_of_mem hv
    exact tokensGrow_revoke

theorem Effect.refreshTokens_grow (h : Effect P cfg req c x s) :
    TokensGrow c.state.db.refreshTokens s.db.refreshTokens := by
  rcases h.refreshTokens_cases with hsame | ⟨hash, hv⟩ | ⟨hash, hv⟩ | ⟨deviceID, hv⟩
  · rw [hsame]
    exact .refl _
  · obtain ⟨_, _, _, -, -, hdb, rfl⟩ := h.says_of_mem hv
    obtain ⟨tokens, hstore, ⟨⟩⟩ := bind_eq_ok_iff.mp hdb
    exact (tokensGrow_newCredential hstore).1
  · rcases h.says_of_mem hv with ⟨-, hmarked⟩ | ⟨-, -, now, rfl⟩
    · obtain ⟨-, rfl⟩ := h.says_of_mem hmarked
      exact .refl _
    · exact tokensGrow_revoke
  · obtain ⟨-, now, rfl⟩ := h.says_of_mem hv
    exact tokensGrow_revoke

theorem Effect.accessTokens_of_revokedAccess (h : Effect P cfg req c x s)
    (hv : .revokedAccess deviceID ∈ x.events) :
    TokensRevoked cfg.domainID deviceID s.db.accessTokens := by
  obtain ⟨-, now, rfl⟩ := h.says_of_mem hv
  exact tokensRevoked_revoke _ _ _ now

theorem Effect.refreshTokens_of_revokedRefresh (h : Effect P cfg req c x s)
    (hv : .revokedRefresh deviceID ∈ x.events) :
    TokensRevoked cfg.domainID deviceID s.db.refreshTokens := by
  obtain ⟨-, now, rfl⟩ := h.says_of_mem hv
  exact tokensRevoked_revoke _ _ _ now

section Table

/-! One argument for both tables: `T` is one of them, and `v` the event that its rows are
revoked. -/

variable {T : State → Str × Bytes → Option RelayCredential} {v : Event}
  (hgrow : ∀ {req c x s}, Effect P cfg req c x s → TokensGrow (T c.state) (T s))

include hgrow

theorem grow_of_leads (hleads : (sections P cfg C).Leads c₀ c) :
    TokensGrow (T c₀.state) (T c.state) := by
  refine hleads.keeps (Q := fun c => TokensGrow (T c₀.state) (T c.state))
    (fun c x c' h hstep => ?_) (.refl _)
  obtain ⟨-, -, req, hE⟩ := hstep
  exact h.trans (hgrow hE)

/-- **A row that was there before the rows of its device were revoked** is revoked. -/
theorem revoked_of_leads
    (hrevoke : ∀ {req c x s}, Effect P cfg req c x s → v ∈ x.events →
      TokensRevoked cfg.domainID deviceID (T s))
    (hleads : (sections P cfg C).Leads c₀ c) (ht : c.trace = c₀.trace ++ t)
    (hu : ∃ u ∈ t, v ∈ u.events) {row₀ : RelayCredential}
    (hrow₀ : T c₀.state (cfg.domainID, hash) = some row₀) (hdevice : row₀.deviceID = deviceID) :
    ∃ row, T c.state (cfg.domainID, hash) = some row ∧ row₀.Stays row ∧
      row.revokedAt ≠ none := by
  induction hleads generalizing t with
  | refl =>
    obtain ⟨u, hu, -⟩ := hu
    rw [List.self_eq_append_right.mp ht] at hu
    cases hu
  | @step c c' x hl hstep ih =>
    obtain ⟨-, htrace, req, hE⟩ := id hstep
    obtain ⟨t', ht'⟩ := Server.effects_extend hl
    obtain rfl : t = t' ++ [x] := by
      rw [htrace, ht', List.append_assoc] at ht
      exact (List.append_cancel_left ht).symm
    obtain ⟨u, hu, hv⟩ := hu
    rcases List.mem_append.mp hu with hu | hu
    · obtain ⟨row, hrow, hstays, hrevoked⟩ := ih ht' ⟨u, hu, hv⟩
      obtain ⟨row', hrow', hstays'⟩ := hgrow hE _ row hrow
      exact ⟨row', hrow', hstays.trans hstays', hstays'.revokedAt hrevoked⟩
    · obtain rfl := List.mem_singleton.mp hu
      obtain ⟨row, hrow, hstays⟩ := grow_of_leads hgrow (hl.step hstep) _ row₀ hrow₀
      exact ⟨row, hrow, hstays, hrevoke hE hv hash row hrow (hstays.deviceID.trans hdevice)⟩

/-- **A row that is good was not there** before the rows of its device were revoked. -/
theorem none_of_good
    (hrevoke : ∀ {req c x s}, Effect P cfg req c x s → v ∈ x.events →
      TokensRevoked cfg.domainID deviceID (T s))
    (hleads : (sections P cfg C).Leads c₀ c) (ht : c.trace = c₀.trace ++ t)
    (hu : ∃ u ∈ t, v ∈ u.events) {row : RelayCredential} {now : Time}
    (hrow : Database.getByHash (T c.state) cfg.domainID hash now = some row)
    (hdevice : row.deviceID = deviceID) : T c₀.state (cfg.domainID, hash) = none := by
  obtain ⟨hget, hgood⟩ := Option.filter_eq_some_iff.mp hrow
  by_contra hsome
  obtain ⟨row₀, hrow₀⟩ := Option.ne_none_iff_exists'.mp hsome
  obtain ⟨row', hrow', hstays⟩ := grow_of_leads hgrow hleads _ row₀ hrow₀
  cases hrow'.symm.trans hget
  obtain ⟨row', hrow', -, hrevoked⟩ := revoked_of_leads hgrow hrevoke hleads ht hu hrow₀
    (hstays.deviceID.symm.trans hdevice)
  cases hrow'.symm.trans hget
  exact hrevoked (of_decide_eq_true hgood).1

end Table

/-! ### A credential in memory has its row -/

theorem Credential.In.grow (h : cred.In tokens) (hgrow : TokensGrow tokens tokens') :
    cred.In tokens' := by
  obtain ⟨row, hrow, hdevice, hexpires⟩ := h
  obtain ⟨row', hrow', hstays⟩ := hgrow _ row hrow
  exact ⟨row', hrow', hstays.deviceID.trans hdevice, hstays.expiresAt.trans hexpires⟩

/-- **Access tokens are entered in memory after their rows are written**, under their hashes. -/
structure Entered (c : Snapshot) : Prop where
  kept : ∀ i cred, Did c.trace i (.keptAccess cred) → cred.In c.state.db.accessTokens
  access : ∀ hash cred, c.state.mem.access hash = some cred →
    cred.hash = hash ∧ cred.In c.state.db.accessTokens

/-- **Where an access token in memory comes from**: it was there, or it is issued; and if it is
revoked, it was before, or it has expired, or its device is revoked. -/
theorem Effect.access_of_mem (h : Effect P cfg req c x s) (hcred : s.mem.access hash = some cred) :
    (c.state.mem.access hash = some cred) ∨
    (∃ cred₀, c.state.mem.access hash = some cred₀ ∧ cred = { cred₀ with revoked := true } ∧
      ((∃ y ∈ c.trace, y.env.now.utc.after cred.expiresAt = true) ∨
        .revoked cred.deviceID ∈ x.events)) ∨
    ∃ origin refresh, .issued origin cred refresh ∈ x.events ∧ cred.hash = hash := by
  rcases h.access_cases with hsame | ⟨hash', now, ⟨y, hy, hnow⟩, hexpire⟩ |
    ⟨origin, access, refresh, hv⟩ | ⟨deviceID, hv⟩
  · exact .inl (hsame ▸ hcred)
  · rw [hexpire, Memory.access_expireAccess] at hcred
    obtain ⟨cred₀, hcred₀, rfl⟩ := Option.map_eq_some_iff.mp hcred
    split_ifs with hif
    · exact .inr (.inl ⟨cred₀, hcred₀, rfl, .inl ⟨y, hy, hnow ▸ hif.2.2⟩⟩)
    · exact .inl hcred₀
  · obtain ⟨-, -, -, -, -, -, rfl⟩ := h.says_of_mem hv
    rcases eq_or_ne hash access.hash with rfl | hne
    · cases (Map.set_self ..).symm.trans hcred
      exact .inr (.inr ⟨origin, refresh, hv, rfl⟩)
    · exact .inl ((Map.set_of_ne _ hne _).symm.trans hcred)
  · obtain ⟨-, rfl⟩ := h.says_of_mem hv
    obtain ⟨cred₀, hcred₀, rfl⟩ := Option.map_eq_some_iff.mp hcred
    rw [Credential.revokeFor]
    split_ifs with hif
    · exact .inr (.inl ⟨cred₀, hcred₀, rfl, .inr (hif ▸ hv)⟩)
    · exact .inl hcred₀

theorem Entered.step (h : Entered c) (hrepo : cfg.repo = true) (hE : Effect P cfg req c x s) :
    Entered ⟨s, c.trace ++ [x]⟩ := by
  have hgrow := hE.accessTokens_grow
  refine ⟨fun i cred hdid => ?_, fun hash cred hcred => ?_⟩
  · rcases did_snoc.mp hdid with hdid | ⟨-, hv⟩
    · exact (h.kept i cred hdid).grow hgrow
    · obtain ⟨_, _, -, -, -, hdb, rfl⟩ := hE.says_of_mem hv
      obtain ⟨tokens, hstore, ⟨⟩⟩ := bind_eq_ok_iff.mp hdb
      exact ⟨_, (tokensGrow_newCredential hstore).2, rfl, rfl⟩
  · rcases hE.access_of_mem hcred with hcred | ⟨cred₀, hcred₀, rfl, -⟩ | ⟨_, _, hv, hhash⟩
    · obtain ⟨hhash, hin⟩ := h.access hash cred hcred
      exact ⟨hhash, hin.grow hgrow⟩
    · obtain ⟨hhash, hin⟩ := h.access hash cred₀ hcred₀
      exact ⟨hhash, Credential.In.grow hin hgrow⟩
    · obtain ⟨-, -, -, -, -, hkept, -⟩ := hE.says_of_mem hv
      exact ⟨hhash, (h.kept _ cred (hkept hrepo)).grow hgrow⟩

theorem entered_of_reachable (hrepo : cfg.repo = true) (hc : (sections P cfg C).Reachable c) :
    Entered c := by
  refine hc.invariant (fun c hinit => ?_) fun c x c' _ h hstep => ?_
  · refine ⟨fun i cred ⟨y, hy, _⟩ => ?_, fun hash cred hcred => ?_⟩
    · rw [hinit.2] at hy
      cases hy
    · rw [mem_of_initial hinit.1] at hcred
      cases hcred
  · obtain ⟨-, htrace, req, hE⟩ := hstep
    have hnext := h.step hrepo hE
    rwa [← htrace] at hnext

/-! ### Why an access token is revoked in memory -/

variable (P cfg C) in
/-- **An access token is retired**: it has expired by a reading of the clock, or its device was
revoked in memory at a time when it had its row. -/
def Retired (c : Snapshot) (cred : Credential) : Prop :=
  (∃ y ∈ c.trace, y.env.now.utc.after cred.expiresAt = true) ∨
  ∃ c₀ z c₁, (sections P cfg C).step c₀ z c₁ ∧ (sections P cfg C).Leads c₁ c ∧
    .revoked cred.deviceID ∈ z.events ∧ cred.In c₀.state.db.accessTokens

theorem Retired.step (h : Retired P cfg C c cred) (hstep : (sections P cfg C).step c x c') :
    Retired P cfg C c' cred := by
  rcases h with ⟨y, hy, hafter⟩ | ⟨c₀, z, c₁, hz, hleads, hv, hin⟩
  · exact .inl ⟨y, hstep.2.1 ▸ List.mem_append_left [x] hy, hafter⟩
  · exact .inr ⟨c₀, z, c₁, hz, hleads.step hstep, hv, hin⟩

/-- A revoked access token of the memory is retired. -/
theorem retired_of_reachable (hrepo : cfg.repo = true) (hc : (sections P cfg C).Reachable c) :
    ∀ hash cred, c.state.mem.access hash = some cred → cred.revoked = true →
      Retired P cfg C c cred := by
  induction hc with
  | init hinit =>
    intro hash cred hcred
    rw [mem_of_initial hinit.1] at hcred
    cases hcred
  | @step c c' x hc hstep ih =>
    intro hash cred hcred hrevoked
    obtain ⟨-, htrace, req, hE⟩ := id hstep
    rcases hE.access_of_mem hcred with hcred | ⟨cred₀, hcred₀, rfl, ⟨y, hy, hafter⟩ | hv⟩ |
      ⟨_, _, hv, -⟩
    · exact (ih hash cred hcred hrevoked).step hstep
    · exact .inl ⟨y, htrace ▸ List.mem_append_left [x] hy, hafter⟩
    · exact .inr ⟨c, x, c', hstep, .refl, hv, ((entered_of_reachable hrepo hc).access _ _ hcred₀).2⟩
    · obtain ⟨-, -, -, -, hgood, -⟩ := hE.says_of_mem hv
      rw [hgood] at hrevoked
      cases hrevoked

/-- **No row is good** under the hash of an access token that is revoked in memory, if every
revocation of its device has come to the rows. -/
theorem getAccessByHash_of_revoked (hrepo : cfg.repo = true) (hc : (sections P cfg C).Reachable c)
    (hcred : c.state.mem.access hash = some cred) (hrevoked : cred.revoked = true)
    (hcompleted : Completed cred.deviceID c.trace)
    (hdomain : cred.domainID = cfg.domainID ∨
      c.state.db.accessTokens (cfg.domainID, hash) = none) {now : Time}
    (hnow : ∀ y ∈ c.trace, y.env.now.unixNano ≤ now.unixNano) :
    c.state.db.getAccessByHash cfg.domainID hash now = none := by
  obtain ⟨rfl, row, hrow, hdevice, hexpires⟩ :=
    (entered_of_reachable hrepo hc).access hash cred hcred
  rcases hdomain with heq | hnone
  · refine Option.filter_eq_none_iff.mpr fun row' hrow' hgood => ?_
    rw [heq] at hrow
    rw [hrow] at hrow'
    cases hrow'
    obtain ⟨hgood, hlater⟩ := of_decide_eq_true hgood
    rcases retired_of_reachable hrepo hc _ cred hcred hrevoked with ⟨y, hy, hafter⟩ |
      ⟨c₀, z, c₁, hz, hleads, hv, row₀, hrow₀, hdevice₀, -⟩
    · have hy := hnow y hy
      have hafter := of_decide_eq_true hafter
      rw [hexpires] at hlater
      simp only [Time.utc] at hafter
      simp only [timestamptz] at hlater
      omega
    · obtain ⟨t, ht⟩ := Server.effects_extend hleads
      have hu := hcompleted z t ⟨c₀.trace, by rw [ht, hz.2.1, List.append_assoc]; rfl⟩ hv
      obtain ⟨row₁, hrow₁, hstays⟩ := grow_of_leads (T := fun s => s.db.accessTokens)
        (fun h => h.accessTokens_grow) (.head hz .refl) _ row₀ hrow₀
      rw [heq] at hrow₁
      obtain ⟨row', hrow', -, hrevoked'⟩ := revoked_of_leads (T := fun s => s.db.accessTokens)
        (fun h => h.accessTokens_grow) (fun h => h.accessTokens_of_revokedAccess) hleads ht hu hrow₁
        (hstays.deviceID.trans hdevice₀)
      cases hrow'.symm.trans hrow
      exact hrevoked' hgood
  · rw [Database.getAccessByHash, Database.getByHash, hnone]
    rfl

/-! ### Devices that are revoked in memory -/

/-- **Since a device was revoked in memory**, as `t` has it, only what was issued is good there. -/
structure Memory.ClosedSince (deviceID : Str) (t : Trace) (m : Memory) : Prop where
  access : GoBackTo (fun cred => cred.deviceID = deviceID →
    cred.revoked = true ∨ AccessIssued t cred) m.access
  refresh : GoBackTo (fun cred => cred.deviceID = deviceID →
    cred.revoked = true ∨ RefreshIssued t cred) m.refresh

theorem GoBackTo.good {I : Credential → Prop} {creds : Map Credential}
    (h : GoBackTo (fun cred => cred.deviceID = deviceID → cred.revoked = true ∨ I cred) creds)
    (hcred : creds hash = some cred) (hdevice : cred.deviceID = deviceID)
    (hgood : cred.revoked = false) : I cred := by
  obtain ⟨cred₀, hI, rfl | rfl⟩ := h hash cred hcred
  · exact (hI hdevice).resolve_left (hgood ▸ Bool.false_ne_true)
  · cases hgood

theorem goBackTo_revokeFor {I : Credential → Prop} (creds : Map Credential) :
    GoBackTo (fun cred => cred.deviceID = deviceID → cred.revoked = true ∨ I cred)
      fun hash => (creds hash).map (Credential.revokeFor deviceID) := by
  intro hash cred hcred
  refine ⟨cred, fun hdevice => .inl ?_, .inl rfl⟩
  exact allRevoked_revokeFor deviceID creds hash cred hcred hdevice

theorem Memory.ClosedSince.step (h : c.state.mem.ClosedSince deviceID t)
    (hE : Effect P cfg req c x s) : s.mem.ClosedSince deviceID (t ++ [x]) := by
  have hpre : t <+: t ++ [x] := List.prefix_append _ _
  refine ⟨hE.goBackTo_access (h.access.mono fun cred hI hdevice => ?_) fun _ _ _ hv _ => .inr ?_,
    hE.goBackTo_refresh (h.refresh.mono fun cred hI hdevice => ?_) fun _ _ _ hv _ => .inr ?_⟩
  · exact (hI hdevice).imp_right fun hissued => hissued.extend hpre
  · exact ⟨_, _, _, did_of_snoc (List.prefix_refl _) hv⟩
  · exact (hI hdevice).imp_right fun hissued => hissued.extend hpre
  · exact ⟨_, _, _, did_of_snoc (List.prefix_refl _) hv⟩

/-- Since a revocation in memory, the tokens of the device that are not revoked are new. -/
theorem closedSince_of_leads (hleads : (sections P cfg C).Leads c₀ c)
    (ht : c.trace = c₀.trace ++ x :: t) (hv : .revoked deviceID ∈ x.events) :
    c.state.mem.ClosedSince deviceID t := by
  obtain ⟨c₁, ⟨-, htrace, req, hE⟩, hleads⟩ := Server.effects_head hleads ht
  have hstart : c₁.state.mem.ClosedSince deviceID [] := by
    obtain ⟨-, hstate⟩ := hE.says_of_mem hv
    rw [hstate]
    exact ⟨goBackTo_revokeFor _, goBackTo_revokeFor _⟩
  obtain ⟨t', ht', hclosed⟩ := hleads.keeps
    (Q := fun c => ∃ t, c.trace = c₁.trace ++ t ∧ c.state.mem.ClosedSince deviceID t)
    (fun c y c' ⟨t, ht, h⟩ ⟨_, htrace, _, hE⟩ => ⟨t ++ [y], by rw [htrace, ht, List.append_assoc],
      h.step hE⟩) ⟨[], (List.append_nil _).symm, hstart⟩
  rw [ht', htrace, List.append_assoc, List.append_cancel_left_eq] at ht
  rwa [← (List.cons.inj ht).2]

/-! ### Tokens that are found good -/

/-- The section of a step, as it is on record. -/
theorem effect_of_step {w w' : World} {a : Server.Action Env Request} {y : Entry Env Event}
    (hw : (server P J cfg C).Reachable w) (hstep : (server P J cfg C).step w a w')
    (hy : w'.trace = w.trace ++ [y]) : AnyEffect P cfg w.config y w'.state := by
  rcases (sound hw).step hstep with hsame | ⟨x, -, htrace, hE⟩
  · have htrace : w'.trace = w.trace := congrArg Config.trace hsame
    simp [htrace] at hy
  · obtain rfl : x = y := List.singleton_inj.mp (List.append_cancel_left (htrace.symm.trans hy))
    exact hE

/-- An access token that is recognized is not one that is revoked in memory, once every revocation
of its device has come to the rows. -/
theorem hash_ne_of_recognized (hrepo : cfg.repo = true) (hc : (sections P cfg C).Reachable c)
    (hE : Effect P cfg req c x s) (hcred : c.state.mem.access hash = some cred)
    (hrevoked : cred.revoked = true) (hcompleted : Completed cred.deviceID c.trace)
    (hdomain : cred.domainID = cfg.domainID ∨
      c.state.db.accessTokens (cfg.domainID, hash) = none) {cred' : Credential} {now : Time}
    (hv : .recognized cred' now ∈ x.events)
    (hnow : ∀ z ∈ c.trace, z.env.now.unixNano ≤ now.unixNano) : cred'.hash ≠ hash := by
  intro hhash
  obtain ⟨-, ⟨hash', hfound⟩ | ⟨-, hash', row, hrow, rfl⟩⟩ := hE.says_of_mem hv
  · obtain ⟨hget, hgood⟩ := Option.filter_eq_some_iff.mp hfound
    obtain rfl := ((entered_of_reachable hrepo hc).access hash' cred' hget).1
    rw [hhash] at hget
    cases hget.symm.trans hcred
    simp [hrevoked] at hgood
  · obtain rfl : hash' = hash := hhash
    cases hrow.symm.trans
      (getAccessByHash_of_revoked hrepo hc hcred hrevoked hcompleted hdomain hnow)

/-- An access token that is recognized after its device was revoked, in memory and then in the rows,
was issued since, or its row was not there. -/
theorem issued_of_recognized {y : Entry Env Event} (hE : Effect P cfg req c y s)
    (hleads : (sections P cfg C).Leads c₀ c) (ht : c.trace = c₀.trace ++ x :: t)
    (hx : .revoked deviceID ∈ x.events) (hu : ∃ u ∈ t, .revokedAccess deviceID ∈ u.events)
    {now : Time} (hv : .recognized cred now ∈ y.events) (hdevice : cred.deviceID = deviceID) :
    AccessIssued t cred ∨ c₀.state.db.accessTokens (cfg.domainID, cred.hash) = none := by
  obtain ⟨-, ⟨hash, hfound⟩ | ⟨-, hash, row, hrow, rfl⟩⟩ := hE.says_of_mem hv
  · obtain ⟨hget, hgood⟩ := Option.filter_eq_some_iff.mp hfound
    rw [Bool.and_eq_true, Bool.not_eq_true'] at hgood
    exact .inl ((closedSince_of_leads hleads ht hx).access.good hget hdevice hgood.1)
  · obtain ⟨u, hu, hv'⟩ := hu
    exact .inr (none_of_good (T := fun s => s.db.accessTokens) (fun h => h.accessTokens_grow)
      (fun h => h.accessTokens_of_revokedAccess) hleads ht ⟨u, List.mem_cons_of_mem x hu, hv'⟩
      hrow hdevice)

/-- The same for a refresh token that is found. -/
theorem issued_of_found {y : Entry Env Event} (hE : Effect P cfg req c y s)
    (hleads : (sections P cfg C).Leads c₀ c) (ht : c.trace = c₀.trace ++ x :: t)
    (hx : .revoked deviceID ∈ x.events) (hu : ∃ u ∈ t, .revokedRefresh deviceID ∈ u.events)
    (hv : .found hash cred ∈ y.events) (hdevice : cred.deviceID = deviceID) :
    RefreshIssued t cred ∨ c₀.state.db.refreshTokens (cfg.domainID, hash) = none := by
  obtain ⟨-, ⟨hget, hgood⟩ | ⟨-, now, row, hrow, rfl⟩⟩ := hE.says_of_mem hv
  · exact .inl ((closedSince_of_leads hleads ht hx).refresh.good hget hdevice hgood)
  · obtain ⟨u, hu, hv'⟩ := hu
    exact .inr (none_of_good (T := fun s => s.db.refreshTokens)
      (fun h => h.refreshTokens_grow) (fun h => h.refreshTokens_of_revokedRefresh) hleads ht
      ⟨u, List.mem_cons_of_mem x hu, hv'⟩ hrow hdevice)

/-! ### Main result -/

/-- **What is revoked in memory is revoked**, once the rows are. Let a section be made from `w`,
which looks up a token perhaps, in memory or in the database; and whatever statement may have
failed.

An access token that is revoked in memory is not recognized, if every revocation of its device has
come to the rows of the access tokens; the clock was not read at a later time than it is looked up
with; and a token of another domain than the Relay's has no hash in common with one of its domain.

If a device was revoked in memory after `w₀`, and the rows of its access tokens afterwards, then an
access token of the device that is recognized was issued since, or its row was not there; and the
same holds for refresh tokens. -/
theorem revoked_means_revoked (hrepo : cfg.repo = true) {w w' : World}
    {a : Server.Action Env Request} {y : Entry Env Event} (hw : (server P J cfg C).Reachable w)
    (hstep : (server P J cfg C).step w a w') (hy : w'.trace = w.trace ++ [y]) :
    (∀ hash cred, w.state.mem.access hash = some cred → cred.revoked = true →
      Completed cred.deviceID w.trace →
      (cred.domainID = cfg.domainID ∨ w.state.db.accessTokens (cfg.domainID, hash) = none) →
        ∀ cred' now, .recognized cred' now ∈ y.events →
          (∀ z ∈ w.trace, z.env.now.unixNano ≤ now.unixNano) → cred'.hash ≠ hash) ∧
    ∀ (w₀ : World) (x : Entry Env Event) (t : Trace) (deviceID : Str),
      (server P J cfg C).Reachable w₀ → (server P J cfg C).Leads w₀ w →
      w.trace = w₀.trace ++ x :: t → .revoked deviceID ∈ x.events →
        ((∃ u ∈ t, .revokedAccess deviceID ∈ u.events) →
          ∀ cred now, .recognized cred now ∈ y.events → cred.deviceID = deviceID →
            AccessIssued t cred ∨ w₀.state.db.accessTokens (cfg.domainID, cred.hash) = none) ∧
        ((∃ u ∈ t, .revokedRefresh deviceID ∈ u.events) →
          ∀ hash cred, .found hash cred ∈ y.events → cred.deviceID = deviceID →
            RefreshIssued t cred ∨ w₀.state.db.refreshTokens (cfg.domainID, hash) = none) := by
  obtain ⟨req, hE⟩ := effect_of_step hw hstep hy
  refine ⟨fun hash cred hcred hrevoked hcompleted hdomain cred' now hv hnow => ?_,
    fun w₀ x t deviceID hw₀ hleads ht hx => ?_⟩
  · exact hash_ne_of_recognized hrepo (sound hw).reachable hE hcred hrevoked hcompleted hdomain hv
      hnow
  · have hall := sound_leads hw₀ hleads
    exact ⟨fun hu cred now hv hdevice => issued_of_recognized hE hall ht hx hu hv hdevice,
      fun hu hash cred hv hdevice => issued_of_found hE hall ht hx hu hv hdevice⟩

/-! ### Examples -/

/-- What an action puts on record. -/
theorem trace_of_next {w w' : World} {i : ℕ} {e : Env}
    (h : w.next (handle P J cfg) (.run i e) = some w') :
    ∃ events, w'.trace = w.trace ++ [⟨i, e, events⟩] := by
  rcases Server.World.next_cases h with ⟨_, _, ⟨⟩, _⟩ | ⟨_, _, _, _, _, events, _, ⟨⟩, -, -, rfl⟩
  exact ⟨_, rfl⟩

/-- A device exchanges its refresh token; it is revoked, and binds itself again; and it comes with
its new access token: the worlds before it is revoked, and before and after the token is looked
up. -/
def revokedAgain : Option (World × World × World) := do
  let dev ← exampleProof (lit "a") (lit "0") (lit "1") 1
  let next := Server.World.next (handle .transparent unreadable (exampleConfig true))
  let w₀ ← reached unreadable (exampleConfig true) exampleDatabase
    (serves 0 (.refreshAccess (tokenOf (drawing 0))) (drawing 1) 15 ++
      [.start 1 (.revokeAccess noHeaders (lit "a"))])
  let w ← List.foldlM next w₀ (List.replicate 6 (.run 1 (drawing 2)) ++
    serves 2 (.bindSelf noHeaders ⟨dev.1, dev.2⟩) (drawing 3) 16 ++
    serves 3 (.envelopes (bearing (drawing 3)) (.ok [])) (drawing 4) 1)
  let w' ← next w (.run 3 (drawing 4))
  return (w₀, w, w')

/-- The access token that the device had before it was revoked is revoked in memory; its new one is
recognized, which is another one and was issued since. -/
theorem revoked_means_revoked_again : ∃ w₀ w w' a x y t cred cred',
    (server .transparent unreadable (exampleConfig true) Server.always).Leads w₀ w ∧
    (server .transparent unreadable (exampleConfig true) Server.always).step w a w' ∧
    w.trace = w₀.trace ++ x :: t ∧ w'.trace = w.trace ++ [y] ∧ .revoked (lit "a") ∈ x.events ∧
    w.state.mem.access (hashOf 1) = some cred ∧ cred.revoked = true ∧
    .recognized cred' ⟨0, 0⟩ ∈ y.events ∧ cred'.deviceID = lit "a" ∧ cred'.hash ≠ hashOf 1 ∧
    (AccessIssued t cred' ∨ w₀.state.db.accessTokens (lit "lab", cred'.hash) = none) := by
  obtain ⟨⟨w₀, w, w'⟩, hrun, ⟨x, hx, hv⟩, hu, hcompleted, hnow, ⟨cred, hcred, hdevice, hrevoked,
      hdomain⟩, cred', -, hdevice', y, hy, hv'⟩ : ∃ r ∈ revokedAgain,
      (∃ x ∈ (r.2.1.trace.drop r.1.trace.length).head?, .revoked (lit "a") ∈ x.events) ∧
      (∃ u ∈ (r.2.1.trace.drop r.1.trace.length).tail, .revokedAccess (lit "a") ∈ u.events) ∧
      (∀ l ∈ r.2.1.trace.tails, ∀ z ∈ l.head?, .revoked (lit "a") ∈ z.events →
        ∃ u ∈ l.tail, .revokedAccess (lit "a") ∈ u.events) ∧
      (∀ z ∈ r.2.1.trace, z.env.now.unixNano ≤ 0) ∧
      (∃ cred ∈ r.2.1.state.mem.access (hashOf 1), cred.deviceID = lit "a" ∧ cred.revoked = true ∧
        cred.domainID = lit "lab") ∧
      ∃ cred' ∈ r.2.1.state.mem.access (hashOf 3), cred'.deviceID = lit "a" ∧
        ∃ y ∈ r.2.2.trace.getLast?, .recognized cred' ⟨0, 0⟩ ∈ y.events := by
    decide +kernel
  simp only [revokedAgain, Option.bind_eq_bind, Option.bind_eq_some_iff, Option.mem_def,
    Option.pure_def, Option.some.injEq, Prod.mk.injEq] at hrun
  obtain ⟨dev, -, w₀, hw₀, w, hw, w', hw', rfl, rfl, rfl⟩ := hrun
  have hreach := reachable_of_reached (C := Server.always) (initial_lab rfl _)
    (fun _ _ _ _ _ => trivial) hw₀
  have hleads : (server .transparent unreadable (exampleConfig true) Server.always).Leads w₀ w :=
    System.leads_restrict_of_foldlM (fun _ _ _ _ _ => trivial) hw
  have hstep : (server .transparent unreadable (exampleConfig true) Server.always).step w _ w' :=
    ⟨fun _ _ => trivial, hw'⟩
  obtain ⟨t, ht⟩ : ∃ t, w.trace = w₀.trace ++ t :=
    Server.effects_extend (sound_leads hreach hleads)
  obtain ⟨events, htrace⟩ := trace_of_next hw'
  dsimp only at hx hu hcred hcompleted hnow hy
  rw [ht, List.drop_left] at hx hu
  obtain ⟨t, rfl⟩ := List.head?_eq_some_iff.mp hx
  rw [htrace, List.getLast?_append, List.getLast?_singleton] at hy
  cases hy
  have hmeans := revoked_means_revoked rfl (hleads.reachable hreach) hstep htrace
  refine ⟨w₀, w, w', _, x, _, t, cred, cred', hleads, hstep, ht, htrace, hv, hcred, hrevoked, hv',
    hdevice', ?_, (hmeans.2 w₀ x t (lit "a") hreach hleads ht hv).1 hu cred' _ hv' hdevice'⟩
  refine hmeans.1 _ cred hcred hrevoked (fun z l hl => ?_) (.inl hdomain) cred' _ hv' hnow
  rw [hdevice]
  exact hcompleted _ ((List.mem_tails _ _).mpr hl) z rfl

/-- **Revoked, and exchanged all the same**: a request has looked for its refresh token in memory
before the device is revoked there, and finds it in the database before it is revoked there, too. No
statement fails, and both requests are answered with 200. -/
theorem revoked_but_exchanged : ∃ w,
    (server .transparent unreadable (exampleConfig true) Server.always).Reachable w ∧
    World.Answers w 0 (.refreshAccess (tokenOf (drawing 0))) 200 ∧
    World.Answers w 1 (.revokeAccess noHeaders (lit "a")) 200 := by
  obtain ⟨w, hw, hanswers⟩ : ∃ w ∈ reached unreadable (exampleConfig true) exampleDatabase
      (serves 0 (.refreshAccess (tokenOf (drawing 0))) (drawing 1) 1 ++
        serves 1 (.revokeAccess noHeaders (lit "a")) (drawing 2) 1 ++
        List.replicate 2 (.run 0 (drawing 1)) ++ List.replicate 5 (.run 1 (drawing 2)) ++
        List.replicate 12 (.run 0 (drawing 1))),
      World.Answers w 0 (.refreshAccess (tokenOf (drawing 0))) 200 ∧
      World.Answers w 1 (.revokeAccess noHeaders (lit "a")) 200 := by
    decide +kernel
  exact ⟨w, reachable_of_reached (initial_lab rfl _) (fun _ _ _ _ _ => trivial) hw, hanswers⟩

/-- **Revoked in memory, and accepted**: a device gets an access token, and is revoked, but the
statement that is to revoke its row fails. The mutex is free again, and the token is revoked in
memory; it is accepted all the same. -/
theorem revoked_but_accepted : ∃ w cred cred' c',
    (server .transparent unreadable (exampleConfig true) Server.always).Reachable w ∧
    w.threads 1 = some (.revokeAccess noHeaders (lit "a"), .stop (writeError 500 sqlError)) ∧
    w.state.mem.locked = false ∧ w.state.mem.access (hashOf 1) = some cred ∧
    cred.deviceID = lit "a" ∧ cred.revoked = true ∧
    (authenticateAccess .transparent unreadable (exampleConfig true)
      ⟨lit "Bearer " ++ tokenOf (drawing 1), [], []⟩ (lit "POST") (lit "/v2/relay/envelopes")).Runs
        Server.always 2 w.config (.done cred') c' ∧ cred'.deviceID = lit "a" := by
  obtain ⟨w, hw, hends, hunlocked, cred, hcred, hdevice, hrevoked, ⟨c', x⟩, hplay, cred', hx,
      hdevice'⟩ :
      ∃ w ∈ reached unreadable (exampleConfig true) exampleDatabase
          (serves 0 (.refreshAccess (tokenOf (drawing 0))) (drawing 1) 15 ++
            serves 1 (.revokeAccess noHeaders (lit "a")) { drawing 2 with sqlFails := true } 4),
        World.Ends w 1 (.revokeAccess noHeaders (lit "a")) (.error (writeError 500 sqlError)) ∧
        w.state.mem.locked = false ∧ ∃ cred ∈ w.state.mem.access (hashOf 1),
          cred.deviceID = lit "a" ∧ cred.revoked = true ∧
          ∃ r ∈ (authenticateAccess .transparent unreadable (exampleConfig true)
              ⟨lit "Bearer " ++ tokenOf (drawing 1), [], []⟩ (lit "POST")
              (lit "/v2/relay/envelopes")).play 2 (drawing 3) w.config,
            ∃ cred' ∈ r.2.toOption, cred'.deviceID = lit "a" := by
    decide +kernel
  obtain rfl := toOption_eq_some_iff.mp hx
  exact ⟨w, cred, cred', c', reachable_of_reached (initial_lab rfl _) (fun _ _ _ _ _ => trivial) hw,
    World.threads_of_ends hends, hunlocked, hcred, hdevice, hrevoked,
    Handler.runs_of_play hplay fun _ _ _ _ => trivial, hdevice'⟩

end Iscp.Relay
