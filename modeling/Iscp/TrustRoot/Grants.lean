import Iscp.TrustRoot.Devices

/-!
# Grants, verified and reported on

Two handlers say whether a grant is good. `verifyGrant` looks at the grant it is shown, at the
key it was signed with and at the epoch of the device; `grantStatus` looks at the grant that is
on the books under an identifier, at the epoch of the device and at the grants that have been
revoked.

For a grant the server has issued, the signature always verifies, whatever keys have been
added and rotated since: no key is taken off the ring, and a thumbprint stands for one key
(`Iscp.TrustRoot.verifyGrant_valid_iff`). So the grant is found valid while it is live – not
expired, and of the epoch its device is in. That it has been revoked is not looked at, and that
is where the two handlers part.
-/

namespace Iscp

namespace TrustRoot

open Go Crypto Identity Keyring Service Trust

open Handler (atomic_bind done_bind)

variable {P : Primitives} {cfg : Config} {C : Snapshot → Entry Env Event → Prop}

/-! ### The answers -/

/-- What a grant is shown with, by its own account. -/
def ownRequest (grant : Grant) (permission relayID : Str) : VerifyRequest where
  grant := grant
  audience := grant.audience
  subjectDeviceID := grant.subjectDeviceID
  confirmationThumbprint := grant.confirmationThumbprint
  permission := permission
  relayID := relayID

/-- What a verification accepts. -/
theorem verifyGrant_answer (hrepo : cfg.repo = false) (e : Env) (s : State) (req : VerifyRequest) :
    (verifyGrant P cfg req).answer e s = some (.ok (.json 200 .valid)) ↔
      trimSpace req.grant.signature.kid ≠ [] ∧
      ∃ key, s.keys.get req.grant.signature.kid = .ok key ∧
        Trust.verifyGrant P req.grant (signerIdentity cfg key e.now.utc)
          (req.options (s.record req.subjectDeviceID).revocationEpoch e.now.utc) = .ok () := by
  simp only [verifyGrant, issuerForGrant, mutex, clock, Handler.ask, Handler.attempt, Handler.look,
    hrepo, Handler.answer, atomic_bind, done_bind, Handler.play, Handler.pure_eq,
    Bool.false_eq_true, and_false, if_false, if_true, Except.toOption, Option.elim]
  by_cases hkid : trimSpace req.grant.signature.kid = []
  · simp only [Handler.stopIf, hkid, if_true]
    exact ⟨fun h => (by cases h), fun h => absurd rfl h.1⟩
  simp only [Handler.stopIf, hkid, if_false, done_bind, Handler.mapStop_atomic,
    atomic_bind, Handler.play, if_true, ne_eq, not_false_eq_true, true_and]
  cases s.keys.get req.grant.signature.kid with
  | error r => exact ⟨fun h => (by cases h), fun h => (by cases h.choose_spec.1)⟩
  | ok key =>
    simp only [Handler.ofExcept, done_bind, atomic_bind, Handler.mapStop_atomic,
      Handler.mapStop_done, Handler.play, if_true, Except.ok.injEq, exists_eq_left']
    cases Trust.verifyGrant P req.grant (signerIdentity cfg key e.now.utc) (req.options _ _) with
    | error r => exact ⟨fun h => (by cases h), fun h => (by cases h)⟩
    | ok u => exact ⟨fun _ => rfl, fun _ => rfl⟩

theorem outdated_eq (s : State) (grant : Grant) : s.outdated grant =
    decide (grant.revocationEpoch < (s.record grant.subjectDeviceID).revocationEpoch) := by
  rw [State.outdated, State.record]
  cases s.devices grant.subjectDeviceID with
  | none => exact (decide_eq_false UInt64.not_lt_zero).symm
  | some record => rfl

/-- The status `grantStatus` finds in a state. -/
def State.reported (s : State) (now : Time) (grantID : Str) (grant : Grant) : GrantStatus :=
  if (s.revokedGrants grantID).isSome || s.outdated grant then .revoked
  else if ¬now.before grant.expiresAt then .expired
  else .active

variable {grant : Grant} {grantID : Str}

theorem grantStatus_answer (hrepo : cfg.repo = false) (e : Env) {s : State} {domainID : Str}
    {raw : Bytes} (hgrant : s.grants grantID = some grant)
    (hdomain : domainScopeMismatch cfg domainID = false) (hraw : grant.marshalJSON = .ok raw) :
    (grantStatus cfg grantID domainID).answer e s =
      some (.ok (.json 200 (.grantStatus (s.reported e.now.utc grantID grant) raw))) := by
  simp only [grantStatus, clock, Handler.ask, Handler.look, hrepo, hgrant, Handler.stopIf, hdomain,
    hraw, Handler.ofExcept, Handler.mapStop_done, Handler.answer, atomic_bind,
    done_bind, Handler.play, Handler.pure_eq, Bool.false_eq_true, and_false, if_false,
    if_true, Option.map_some, State.reported]

/-- **A grant is live** while it has not expired and its device is not in a later epoch. -/
def Live (s : State) (now : Time) (grant : Grant) : Prop :=
  now.unixNano < grant.expiresAt.unixNano ∧
    (s.record grant.subjectDeviceID).revocationEpoch ≤ grant.revocationEpoch

theorem reported_eq_active {s : State} {now : Time} :
    s.reported now grantID grant = .active ↔ s.revokedGrants grantID = none ∧ Live s now grant := by
  rw [State.reported, outdated_eq, Live]
  cases s.revokedGrants grantID with
  | some u => simp
  | none =>
    rcases lt_or_ge now.unixNano grant.expiresAt.unixNano with hlt | hge
    · have hbefore : now.before grant.expiresAt = true := Time.before_iff.mpr hlt
      simp [hbefore, hlt]
    · have hbefore : ¬now.before grant.expiresAt = true := by
        rw [Time.before_iff, not_lt]
        exact hge
      refine iff_of_false (fun h => ?_) fun h => absurd h.2.1 (not_lt.mpr hge)
      rw [if_pos hbefore] at h
      split_ifs at h

/-! ### The books -/

variable {c : Snapshot} {x : Entry Env Event} {s : State}

/-- **What may become of the key ring.** -/
theorem Effect.keys (h : Effect P c x s) :
    s.keys = c.state.keys ∨
    (∃ key, KeyPair P key.priv key.pub ∧
      key.id = Crypto.thumbprint P (lit "Ed25519") key.pub.key ∧ key.state = .next ∧
      s.keys = c.state.keys.add key) ∨
    ∃ keyID, c.state.keys.rotate keyID = .ok s.keys := by
  cases h with
  | nonce h =>
    obtain ⟨cache, rfl⟩ := nonceEffect_state h
    exact .inl rfl
  | add hpair hid hnext => exact .inr (.inl ⟨_, hpair, hid, hnext, rfl⟩)
  | rotate hkeys => exact .inr (.inr ⟨_, hkeys⟩)
  | _ => exact .inl rfl

/-- **What may become of the grants.** -/
theorem Effect.grants (h : Effect P c x s) :
    (s.grants = c.state.grants ∧ ∀ grant, .issued grant ∉ x.events) ∨
    ∃ grant, x.events = [.issued grant] ∧ s.grants = c.state.grants.set grant.grantID grant := by
  cases h with
  | nonce h =>
    obtain ⟨proof, ttl, now, isNew, hx⟩ := nonceEffect_events h
    obtain ⟨cache, rfl⟩ := nonceEffect_state h
    exact .inl ⟨rfl, by simp [hx]⟩
  | issue hsigned hx => exact .inr ⟨_, hx, rfl⟩
  | _ => exact .inl ⟨rfl, by simp [*]⟩

theorem Effect.of_selected (h : Effect P c x s) {key : Key} (hv : .selected key ∈ x.events) :
    ∃ id, (id, key) ∈ c.state.keys := by
  cases h with
  | nonce h =>
    obtain ⟨proof, ttl, now, isNew, hx⟩ := nonceEffect_events h
    simp [hx] at hv
  | select hkey hx =>
    obtain rfl : _ = key := by simpa [hx, eq_comm] using hv
    exact ⟨_, hkey⟩
  | _ => simp_all

/-- **What the books say**: the ring holds keys as they are made, among them all that were ever
signed with, and the grants on the books are those that were issued. -/
structure Books (P : Primitives) (c : Snapshot) : Prop where
  ring : c.state.keys.Made P
  kept : ∀ x ∈ c.trace, ∀ key, .selected key ∈ x.events → (c.state.keys.lookup key.id).isSome
  entered : ∀ x ∈ c.trace, ∀ grant, .issued grant ∈ x.events →
    ∃ grant', c.state.grants grant.grantID = some grant'
  issued : ∀ grantID grant, c.state.grants grantID = some grant →
    ∃ x ∈ c.trace, .issued grant ∈ x.events

theorem Effect.ring (h : Effect P c x s) (hring : c.state.keys.Made P) : s.keys.Made P := by
  rcases h.keys with hkeys | ⟨key, hpair, hid, hnext, hkeys⟩ | ⟨keyID, hkeys⟩
  · rw [hkeys]
    exact hring
  · rw [hkeys]
    exact hring.set rfl hpair hid (by rw [hnext]; decide)
  · exact hring.rotate hkeys

theorem Effect.lookup (h : Effect P c x s) {id : Str} (hid : (c.state.keys.lookup id).isSome) :
    (s.keys.lookup id).isSome := by
  rcases h.keys with hkeys | ⟨key, -, -, -, hkeys⟩ | ⟨keyID, hkeys⟩
  · rw [hkeys]
    exact hid
  · rw [hkeys]
    exact Ring.lookup_isSome_set key hid
  · exact Ring.lookup_isSome_rotate hkeys hid

/-- One section keeps the books of the grants. -/
theorem Books.step (hc : Books P c) (h : Effect P c x s) : Books P ⟨s, c.trace ++ [x]⟩ := by
  have hmem : ∀ {y}, y ∈ c.trace ++ [x] → y ∈ c.trace ∨ y = x := fun hy => by simpa using hy
  refine ⟨h.ring hc.ring, fun y hy key hv => h.lookup ?_, fun y hy grant hv => ?_,
    fun grantID grant hgrant => ?_⟩
  · rcases hmem hy with hy | rfl
    · exact hc.kept y hy key hv
    · obtain ⟨id, hkey⟩ := h.of_selected hv
      rw [(hc.ring id key hkey).1]
      exact Ring.lookup_isSome_of_mem hkey
  · show ∃ grant', s.grants grant.grantID = some grant'
    rcases h.grants with ⟨hgrants, hno⟩ | ⟨new, hx, hgrants⟩ <;> rw [hgrants]
    · rcases hmem hy with hy | rfl
      · exact hc.entered y hy grant hv
      · exact absurd hv (hno grant)
    · rcases eq_or_ne grant.grantID new.grantID with heq | hne
      · rw [heq]
        exact ⟨new, Map.set_self ..⟩
      · rw [Map.set_of_ne _ hne]
        rcases hmem hy with hy | rfl
        · exact hc.entered y hy grant hv
        · rw [hx, List.mem_singleton, Event.issued.injEq] at hv
          exact absurd (congrArg Grant.grantID hv) hne
  · have hold : c.state.grants grantID = some grant →
        ∃ y ∈ c.trace ++ [x], .issued grant ∈ y.events := fun hgrant => by
      obtain ⟨y, hy, hv⟩ := hc.issued grantID grant hgrant
      exact ⟨y, List.mem_append_left _ hy, hv⟩
    rcases h.grants with ⟨hgrants, -⟩ | ⟨new, hx, hgrants⟩ <;> simp only [hgrants] at hgrant
    · exact hold hgrant
    · rcases eq_or_ne grantID new.grantID with rfl | hne
      · rw [Map.set_self, Option.some.injEq] at hgrant
        subst hgrant
        exact ⟨x, by simp, by simp [hx]⟩
      · rw [Map.set_of_ne _ hne] at hgrant
        exact hold hgrant

theorem books_of_reached (h : Reached P cfg C c) : Books P c := by
  refine h.invariant (fun c hc => ?_) fun c x c' _ hbooks hstep => ?_
  · obtain ⟨hinit, htrace⟩ := hc
    obtain ⟨signer, key, db, hpair, hid, hactive, hs⟩ := initial_cases hinit
    refine ⟨?_, by simp [htrace], by simp [htrace], by simp [hs]⟩
    rw [hs]
    intro id key' hmem
    obtain ⟨rfl, rfl⟩ := Prod.mk.inj (List.mem_singleton.mp hmem)
    exact ⟨rfl, hpair, hid, by rw [hactive]; decide⟩
  · obtain ⟨-, htrace, heffect⟩ := hstep
    have hnext := hbooks.step heffect
    rwa [← htrace] at hnext

/-- **An issued grant was signed with a key that is on the ring.** -/
theorem signed_of_issued (h : Reached P cfg C c)
    (hissued : ∃ x ∈ c.trace, .issued grant ∈ x.events) :
    ∃ key : Key, KeyPair P key.priv key.pub ∧
      key.id = Crypto.thumbprint P (lit "Ed25519") key.pub.key ∧
      Signed P key.priv key.id grant ∧ (c.state.keys.lookup key.id).isSome := by
  obtain ⟨x, hx, hv⟩ := hissued
  obtain ⟨t₁, t₂, ht⟩ := List.append_of_mem hx
  obtain ⟨c₁, _, hc₁, rfl, -, heffect, -⟩ := Server.effects_split h ht
  obtain ⟨y, hy, -, hsigned⟩ := heffect.of_issued hv
  obtain ⟨u₁, u₂, hu⟩ := List.append_of_mem hy
  obtain ⟨c₂, _, hc₂, rfl, -, heffect₂, -⟩ := Server.effects_split hc₁ hu
  obtain ⟨_, key, -, -, ⟨z, hz, -, hselected⟩, hgrant⟩ := heffect₂.of_signed hsigned
  obtain ⟨v₁, v₂, hv⟩ := List.append_of_mem hz
  obtain ⟨c₃, _, hc₃, rfl, -, heffect₃, -⟩ := Server.effects_split hc₂ hv
  obtain ⟨id, hkey⟩ := heffect₃.of_selected hselected
  obtain ⟨hid, hpair, hthumb, -⟩ := (books_of_reached hc₃).ring id key hkey
  refine ⟨key, hpair, hid.trans hthumb, hgrant, (books_of_reached h).kept z ?_ key hselected⟩
  rw [ht, hu]
  exact List.mem_append_left _ (List.mem_append_left _ hz)

theorem trimSpace_base64URL_ne_nil {b : Bytes} (h : b ≠ []) : trimSpace (base64URL b) ≠ [] := by
  have hall : ∀ d ∈ Base64.alphabet, d < 0x80 ∧ isSpace (Char.ofNat d.toNat) = false :=
    List.forall_iff_forall_mem.mp (by decide)
  cases hs : base64URL b with
  | nil => exact absurd (base64URL_injective (hs : base64URL b = base64URL [])) h
  | cons d s =>
    have hd : d ∈ Base64.encodeToString b := by
      rw [← base64URL, hs]
      exact List.mem_cons_self
    obtain ⟨hlt, hspace⟩ := hall d (Base64.mem_alphabet_of_mem_encodeToString hd)
    exact trimSpace_cons_ne_nil hlt hspace s

/-- **An issued grant is found valid while it is live**, when it is shown for what it is. -/
theorem verifyGrant_valid_iff (hrepo : cfg.repo = false) (hs : P.SignsVerifiably)
    (hinj : Function.Injective P.sha256) (hsize : ∀ b, P.sha256 b ≠ []) (h : Reached P cfg C c)
    (hissued : ∃ x ∈ c.trace, .issued grant ∈ x.events) {e : Env}
    (hbegun : grant.notBefore.unixNano ≤ e.now.unixNano) {permission relayID : Str}
    (hpermission : permission ∈ grant.permissions.getD [])
    (hrelay : relayID ∈ grant.relayConstraints) :
    (verifyGrant P cfg (ownRequest grant permission relayID)).answer e c.state =
      some (.ok (.json 200 .valid)) ↔ Live c.state e.now grant := by
  obtain ⟨key, hpair, hid, hsigned, hlookup⟩ := signed_of_issued h hissued
  obtain ⟨key', hget, hpair', hid'⟩ := (books_of_reached h).ring.get hlookup
  -- the key found under the identifier is the one that signed
  have hpub : key'.pub = key.pub :=
    Ed25519PublicKey.ext (thumbprint_injective hinj _ (hid'.symm.trans hid))
  have hkid : grant.signature.kid = key.id := congrArg Signature.kid hsigned.signature
  have hmatches : Matches grant ((ownRequest grant permission relayID).options
      (c.state.record grant.subjectDeviceID).revocationEpoch e.now.utc) ↔
      Live c.state e.now grant :=
    ⟨fun h => ⟨h.notExpired, h.epoch⟩, fun h =>
      ⟨hbegun, h.1, rfl, rfl, rfl, hpermission, fun _ => hrelay, h.2⟩⟩
  rw [← hmatches, verifyGrant_answer hrepo]
  rw [← hkid] at hget
  constructor
  · rintro ⟨-, k, hk, hok⟩
    exact matches_of_verifyGrant hok
  · intro hm
    refine ⟨?_, key', hget, (hsigned.verifyGrant_eq_ok hs hpair ?_).mpr hm⟩
    · show trimSpace grant.signature.kid ≠ []
      rw [hkid, hid]
      exact trimSpace_base64URL_ne_nil (hsize _)
    · rw [← hpub]
      rfl

/-- **The two handlers agree on a grant** if and only if it is not one that was revoked while it
is still live, and the grant on the books under its identifier is live when it is. -/
theorem verified_iff_active_iff (hrepo : cfg.repo = false) (hs : P.SignsVerifiably)
    (hinj : Function.Injective P.sha256) (hsize : ∀ b, P.sha256 b ≠ []) {w : World}
    (hw : (server P cfg Server.always).Reachable w) {grant : Grant}
    (hissued : ∃ x ∈ w.trace, .issued grant ∈ x.events) {e : Env}
    (hbegun : grant.notBefore.unixNano ≤ e.now.unixNano) {permission relayID domainID : Str}
    (hpermission : permission ∈ grant.permissions.getD [])
    (hrelay : relayID ∈ grant.relayConstraints)
    (hdomain : domainScopeMismatch cfg domainID = false) :
    ((verifyGrant P cfg (ownRequest grant permission relayID)).answer e w.state =
        some (.ok (.json 200 .valid)) ↔
      ∃ raw, (grantStatus cfg grant.grantID domainID).answer e w.state =
        some (.ok (.json 200 (.grantStatus .active raw)))) ↔
    if w.state.revokedGrants grant.grantID = none then
      ∀ stored, w.state.grants grant.grantID = some stored →
        (Live w.state e.now stored ↔ Live w.state e.now grant)
    else ¬Live w.state e.now grant := by
  have hreached := (sound hrepo hw).reachable
  obtain ⟨x, hx, hv⟩ := hissued
  obtain ⟨stored, hstored⟩ : ∃ stored, w.state.grants grant.grantID = some stored :=
    (books_of_reached hreached).entered x hx grant hv
  obtain ⟨priv, -, -, hsigned, -⟩ := signed_of_issued hreached
    ((books_of_reached hreached).issued grant.grantID stored hstored)
  obtain ⟨raw, hraw⟩ := hsigned.exists_marshalJSON
  have hvalid := verifyGrant_valid_iff hrepo hs hinj hsize hreached ⟨x, hx, hv⟩ hbegun hpermission
    hrelay
  have hactive : (∃ raw, (grantStatus cfg grant.grantID domainID).answer e w.state =
        some (.ok (.json 200 (.grantStatus .active raw)))) ↔
      w.state.revokedGrants grant.grantID = none ∧ Live w.state e.now stored := by
    rw [grantStatus_answer hrepo e hstored hdomain hraw, ← reported_eq_active]
    constructor
    · rintro ⟨raw', h⟩
      simp only [Option.some.injEq, Except.ok.injEq, Response.json.injEq, Body.grantStatus.injEq,
        true_and] at h
      exact h.1
    · intro h
      refine ⟨raw, ?_⟩
      rw [← h]
      rfl
  rw [hactive]
  refine (iff_congr hvalid Iff.rfl).trans ?_
  split_ifs with hrevoked
  · simp only [hrevoked, true_and]
    constructor
    · intro h stored' hstored'
      obtain rfl := Option.some.inj (hstored.symm.trans hstored')
      exact h.symm
    · exact fun h => (h stored hstored).symm
  · simp only [hrevoked, false_and, iff_false]
    rfl

instance (s : State) (now : Time) (grant : Grant) : Decidable (Live s now grant) :=
  inferInstanceAs (Decidable (_ ∧ _))

/-- A grant that can be shown for a text, to the relay. -/
def Shown (grant : Grant) : Prop :=
  grant.notBefore.unixNano ≤ 0 ∧ lit "text" ∈ grant.permissions.getD [] ∧
    lit "relay" ∈ grant.relayConstraints

instance (grant : Grant) : Decidable (Shown grant) := inferInstanceAs (Decidable (_ ∧ _))

/-- A grant that was just issued is found valid and reported active. -/
theorem verified_iff_active_iff_issued : ∃ (w : World) (grant : Grant),
    (server .transparent exampleConfig Server.always).Reachable w ∧
      (∃ x ∈ w.trace, .issued grant ∈ x.events) ∧
      ((verifyGrant .transparent exampleConfig
          (ownRequest grant (lit "text") (lit "relay"))).answer exampleEnv w.state =
          some (.ok (.json 200 .valid)) ↔
        ∃ raw, (grantStatus exampleConfig grant.grantID []).answer exampleEnv w.state =
          some (.ok (.json 200 (.grantStatus .active raw)))) := by
  obtain ⟨w, hw, x, hx, v, hv, grant, hgrant, hstored, hrevoked, hbegun, hpermission, hrelay⟩ :
      ∃ w ∈ authorizing Server.always [] [], ∃ x ∈ w.trace, ∃ v ∈ x.events, ∃ grant ∈ v.entered,
        w.state.grants grant.grantID = some grant ∧ w.state.revokedGrants grant.grantID = none ∧
          Shown grant := by
    decide +kernel
  obtain rfl := Event.eq_of_entered hgrant
  have hreachable := reachable_of_authorizing hw
  refine ⟨w, grant, hreachable, ⟨x, hx, hv⟩, (verified_iff_active_iff rfl
    Primitives.signsVerifiably_transparent Primitives.sha256_injective_transparent
    (fun b => List.cons_ne_nil 0 b) hreachable ⟨x, hx, hv⟩ hbegun hpermission hrelay rfl).mpr ?_⟩
  rw [if_pos hrevoked]
  intro stored hstored'
  obtain rfl := Option.some.inj (hstored.symm.trans hstored')
  exact Iff.rfl

set_option synthInstance.maxSize 512 in
/-- **A revoked grant is found valid**: the grant is issued, revoked, and shown. -/
theorem revoked_grant_verified : ∃ (w : World) (grant : Grant) (raw : Bytes),
    (server .transparent exampleConfig Server.always).Reachable w ∧
      (∃ x ∈ w.trace, .issued grant ∈ x.events) ∧
      (∃ x ∈ w.trace, .revokedGrant grant.grantID ∈ x.events) ∧
      (verifyGrant .transparent exampleConfig
        (ownRequest grant (lit "text") (lit "relay"))).answer exampleEnv w.state =
        some (.ok (.json 200 .valid)) ∧
      (grantStatus exampleConfig grant.grantID []).answer exampleEnv w.state =
        some (.ok (.json 200 (.grantStatus .revoked raw))) := by
  obtain ⟨w, hw, x, hx, v, hv, grant, hgrant, w', hw', hrevoked, hissued, hstored, hreported,
      ⟨hbegun, hpermission, hrelay⟩, hlive, raw, hraw, -⟩ :
      ∃ w ∈ authorizing Server.always [] [], ∃ x ∈ w.trace, ∃ v ∈ x.events, ∃ grant ∈ v.entered,
        ∃ w' ∈ (serves 2 (.revokeGrant noHeaders grant.grantID []) 4).foldlM
          (Server.World.nextIf (handle .transparent exampleConfig) Server.always) w,
          (∃ y ∈ w'.trace, .revokedGrant grant.grantID ∈ y.events) ∧
          (∃ y ∈ w'.trace, .issued grant ∈ y.events) ∧
          w'.state.grants grant.grantID = some grant ∧
          w'.state.reported ⟨0, 0⟩ grant.grantID grant = .revoked ∧ Shown grant ∧
          Live w'.state ⟨0, 0⟩ grant ∧ ∃ raw ∈ grant.marshalJSON.toOption, True := by
    decide +kernel
  have hreachable := (Server.leads_of_foldlM hw').reachable (reachable_of_authorizing hw)
  refine ⟨w', grant, raw, hreachable, hissued, hrevoked, ?_, ?_⟩
  · exact (verifyGrant_valid_iff rfl Primitives.signsVerifiably_transparent
      Primitives.sha256_injective_transparent (fun b => List.cons_ne_nil 0 b)
      (sound rfl hreachable).reachable hissued hbegun hpermission hrelay).mpr hlive
  · rw [grantStatus_answer rfl exampleEnv hstored rfl (toOption_eq_some_iff.mp hraw)]
    rw [show w'.state.reported exampleEnv.now.utc grant.grantID grant = .revoked from hreported]

end TrustRoot

end Iscp
