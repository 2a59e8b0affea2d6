import Iscp.Handler.Server
import Iscp.TrustRoot.Server

/-!
# What the sections of the Trust Root do

`Iscp.TrustRoot.Effect` lists what a section of a server without a database may do to the
state, and what it records. What a section does may rest on what an earlier section of the
same request has found – the record of a device, the key to sign with –, and that is on record
under the number of the request.

Every handler has only these effects (`Iscp.TrustRoot.handle_safe`), so the runs of the server
are runs of the effects (`Iscp.TrustRoot.sound`).
-/

namespace Iscp

namespace TrustRoot

open Go Crypto Identity Keyring Service Trust

open Handler (anything done_bind safe_attempt safe_done safe_mapStop safe_note safe_read
  safe_section safe_stop safe_stopIf safe_try)

/-- A state, and the record of the sections that led to it. -/
abbrev Snapshot := Iscp.Config State Env Event

/-- The record of sections. -/
abbrev Trace := List (Entry Env Event)

/-- A Trust Root, with the requests that have come in. -/
abbrev World := Server.World State Env Event Answer Request

variable (P : Primitives) (cfg : Config)

/-- **The runs of a Trust Root**, each section meeting the condition. -/
def server (C : Snapshot → Entry Env Event → Prop) : System World (Server.Action Env Request) :=
  Server.system (Initial P cfg) (handle P cfg) C

/-- **The effects of a section**, without a database. -/
inductive Effect (c : Snapshot) (x : Entry Env Event) : State → Prop where
  /-- Nothing is changed. -/
  | idle (hx : x.events = []) : Effect c x c.state
  /-- The signer of descriptors is another one. -/
  | publish (hx : x.events = []) (signer : Device) : Effect c x { c.state with signer := signer }
  /-- The nonce of a proof is used. -/
  | nonce {s : State} {ttl : Duration}
      (h : NonceEffect P nonceStore false Event.used ttl c.state x.events s) : Effect c x s
  /-- An identity is entered. -/
  | submit {id : DeviceIdentity} (hx : x.events = [.submitted id]) (audit : List AuditEntry) :
      Effect c x { c.state with
        devices := c.state.devices.set id.deviceID ((c.state.record id.deviceID).submit id)
        audit := audit }
  /-- A device that is not revoked is authorized. -/
  | check {deviceID : Str} {record : DeviceRecord}
      (hrecord : c.state.devices deviceID = some record) (hstatus : record.status ≠ .revoked)
      (hx : x.events = [.checked deviceID record.authorize]) :
      Effect c x { c.state with devices := c.state.devices.set deviceID record.authorize }
  /-- A key of the ring is chosen. -/
  | select {id : Str} {key : Key} (hkey : (id, key) ∈ c.state.keys)
      (hx : x.events = [.selected key]) : Effect c x c.state
  /-- A grant is signed, in the epoch and with the key found before. -/
  | sign {grant : Grant} {record : DeviceRecord} {key : Key}
      (hrecord : Did c.trace x.thread (.checked grant.subjectDeviceID record))
      (hepoch : grant.revocationEpoch = record.revocationEpoch)
      (hkey : Did c.trace x.thread (.selected key)) (hsigned : Signed P key.priv key.id grant)
      (hx : x.events = [.signed grant]) : Effect c x c.state
  /-- A grant that was signed is entered. -/
  | issue {grant : Grant} (hsigned : Did c.trace x.thread (.signed grant))
      (hx : x.events = [.issued grant]) (audit : List AuditEntry) :
      Effect c x { c.state with
        grants := c.state.grants.set grant.grantID grant
        audit := audit }
  /-- A device is revoked. -/
  | revokeDevice {deviceID : Str} (hx : x.events = [.revokedDevice deviceID])
      (log : List RevocationItem) (audit : List AuditEntry) :
      Effect c x { c.state with
        devices := c.state.devices.set deviceID (c.state.record deviceID).revoke
        revocationLog := log
        audit := audit }
  /-- A grant is revoked. -/
  | revokeGrant {grantID : Str} (hx : x.events = [.revokedGrant grantID])
      (log : List RevocationItem) (audit : List AuditEntry) :
      Effect c x { c.state with
        revokedGrants := c.state.revokedGrants.set grantID ()
        revocationLog := log
        audit := audit }
  /-- The record of a device is looked up. -/
  | consult {deviceID : Str} (hx : x.events = [.consulted deviceID (c.state.record deviceID)]) :
      Effect c x c.state
  /-- A key is added to the ring. -/
  | add {key : Key} (hpair : KeyPair P key.priv key.pub)
      (hid : key.id = Crypto.thumbprint P (lit "Ed25519") key.pub.key) (hnext : key.state = .next)
      (hx : x.events = [.added key]) : Effect c x { c.state with keys := c.state.keys.add key }
  /-- A key is made the active one. -/
  | rotate {keyID : Str} {keys : Ring} (hkeys : c.state.keys.rotate keyID = .ok keys)
      (hx : x.events = [.rotated keyID]) : Effect c x { c.state with keys := keys }

/-- **What is known when a request has been answered**: a grant found valid is one of the epoch
the device was in when the request looked. -/
def Answered (i : ℕ) : Request → Answer → Trace → Prop
  | .verifyGrant req, .json _ .valid, t => ∃ record now,
      Did t i (.consulted req.subjectDeviceID record) ∧
      Matches req.grant (req.options record.revocationEpoch now)
  | _, _, _ => True

/-! ### The sections of the handlers -/

section Safe

variable {P cfg} {i : ℕ} {t : Trace} {ω α : Type}

theorem effect_idle (s : State) (t : Trace) (e : Env) : Effect P ⟨s, t⟩ ⟨i, e, []⟩ s := .idle rfl

theorem requireAdmin_safe {h : Headers} {Q : Unit → Trace → Prop}
    (hQ : ∀ t', t <+: t' → Q () t') : (requireAdmin cfg h).Safe (Effect P) i Q anything t :=
  safe_stopIf (fun _ _ _ => trivial) fun _ => hQ

theorem safe_mutex {f : Env → State → Except ω (State × α × List Event)} {Q : α → Trace → Prop}
    (hok : ∀ s t' e s' a events, t <+: t' → f e s = .ok (s', a, events) →
      Effect P ⟨s, t'⟩ ⟨i, e, events⟩ s' ∧
        ∀ t'', t <+: t'' → (∀ v ∈ events, Did t'' i v) → Q a t'') :
    (mutex f).Safe (Effect P) i Q anything t :=
  safe_section effect_idle hok fun _ _ _ _ _ => trivial

theorem submitDevice_safe (hrepo : cfg.repo = false) (req : SubmitRequest) :
    (submitDevice P cfg req).Safe (Effect P) i anything anything t := by
  rw [submitDevice, verifyProof, hrepo]
  refine Handler.Safe.bind (safe_mapStop (fun _ _ => trivial) ?_)
  refine verifyProof_safe effect_idle (fun s t' e events s' h => .nonce h)
    (fun now t₁ _ _ _ => ?_) fun _ _ _ => trivial
  refine Handler.Safe.bind (safe_mapStop (fun _ _ => trivial) ?_)
  simp only [persistSubmittedDevice, hrepo, Bool.false_eq_true, if_false]
  refine safe_done fun t₂ _ => ?_
  refine safe_mutex fun s t₃ e s' r events _ h => ?_
  cases h
  exact ⟨.submit rfl _, fun _ _ _ => trivial⟩

/-- **The device check**: what it finds goes on record. -/
theorem checkDevice_safe (hrepo : cfg.repo = false) {deviceID : Str}
    {Q : DeviceRecord → Trace → Prop}
    (hQ : ∀ record t', t <+: t' → Did t' i (.checked deviceID record) → Q record t') :
    (checkDevice cfg deviceID).Safe (Effect P) i Q anything t := by
  refine safe_mutex fun s t₁ e s' record events ht₁ h => ?_
  cases hrecord : s.devices deviceID with
  | none => simp [findRecord, hrecord, hrepo, Except.mapError, bind_eq_ok_iff] at h
  | some old =>
    simp only [findRecord, hrecord, Except.mapError, bind_eq_ok_iff, Except.ok.injEq,
      failIf_eq_ok_iff, exists_const, exists_eq_left'] at h
    obtain ⟨hstatus, h⟩ := h
    cases h
    exact ⟨.check hrecord hstatus rfl, fun t₂ ht₂ hdid => hQ _ t₂ ht₂ (hdid _ (by simp))⟩

theorem activeSigner_safe {Q : Device → Trace → Prop}
    (hQ : ∀ key now t', t <+: t' → Did t' i (.selected key) →
      Q ⟨signerIdentity cfg key now, key.priv⟩ t') :
    (activeSigner cfg).Safe (Effect P) i Q anything t := by
  refine Handler.Safe.bind (safe_mutex fun s t₁ e s' key events ht₁ h => ?_)
  simp only [bind_eq_ok_iff] at h
  obtain ⟨_, hactive, h⟩ := h
  cases h
  obtain ⟨-, id, hmem⟩ := Ring.active_eq_ok hactive
  refine ⟨.select hmem rfl, fun t₂ ht₂ hdid => ?_⟩
  refine Handler.Safe.bind (safe_clock effect_idle fun now t₃ ht₃ => ?_)
  refine safe_done fun t₄ ht₄ => ?_
  exact hQ key now t₄ (ht₂.trans (ht₃.trans ht₄)) ((hdid _ (by simp)).extend (ht₃.trans ht₄))

/-- What the sections of an authorization do. -/
theorem authorizeDevice_safe (hrepo : cfg.repo = false) (h : Headers) (req : AuthorizeRequest) :
    (authorizeDevice P cfg h req).Safe (Effect P) i anything anything t := by
  rw [authorizeDevice]
  refine Handler.Safe.bind (requireAdmin_safe fun t₁ ht₁ => ?_)
  refine Handler.Safe.bind (checkDevice_safe hrepo fun record t₂ ht₂ hchecked => ?_)
  refine Handler.Safe.bind (safe_mapStop (fun _ _ => trivial) ?_)
  simp only [authorizedRecord, hrepo, Bool.false_eq_true, if_false]
  refine safe_done fun t₃ ht₃ => ?_
  refine Handler.Safe.bind (safe_mapStop (fun _ _ => trivial) (safe_try fun rule t₄ _ ht₄ => ?_))
  refine Handler.Safe.bind (safe_clock effect_idle fun now t₅ ht₅ => ?_)
  refine Handler.Safe.bind (safe_mapStop (fun _ _ => trivial)
    (activeSigner_safe fun key now' t₆ ht₆ hkey => ?_))
  refine Handler.Safe.bind (safe_mapStop (fun _ _ => trivial)
    (safe_try fun grant t₇ hsign ht₇ => ?_))
  obtain ⟨hsigned, hgrant⟩ := signed_of_signGrant hsign
  have hsubject : grant.subjectDeviceID = req.deviceID := (congrArg Grant.subjectDeviceID hgrant :)
  have hepoch : grant.revocationEpoch = record.revocationEpoch :=
    (congrArg Grant.revocationEpoch hgrant :)
  have hchecked' : Did t₇ i (.checked grant.subjectDeviceID record) := by
    rw [hsubject]
    exact hchecked.extend (ht₃.trans (ht₄.trans (ht₅.trans (ht₆.trans ht₇))))
  refine Handler.Safe.bind (safe_note fun s t₈ e ht₈ => ⟨?_, fun t₉ ht₉ => ?_⟩)
  · exact .sign (hchecked'.extend ht₈) hepoch (hkey.extend (ht₇.trans ht₈)) hsigned rfl
  have hsigned' : Did t₉ i (.signed grant) := did_of_snoc ht₉ (by simp)
  refine Handler.Safe.bind (safe_mapStop (fun _ _ => trivial) ?_)
  simp only [persistGrant, hrepo, Bool.false_eq_true, if_false]
  refine safe_done fun t₁₀ ht₁₀ => ?_
  refine safe_mutex fun s t₁₁ e s' r events ht₁₁ h => ?_
  cases h
  exact ⟨.issue (hsigned'.extend (ht₁₀.trans ht₁₁)) rfl _, fun _ _ _ => trivial⟩

/-- What the sections of a device's revocation do. -/
theorem revokeDevice_safe (hrepo : cfg.repo = false) (h : Headers) (deviceID reason : Str) :
    (revokeDevice cfg h deviceID reason).Safe (Effect P) i anything anything t := by
  rw [revokeDevice]
  refine Handler.Safe.bind (requireAdmin_safe fun t₁ _ => ?_)
  refine Handler.Safe.bind (safe_clock effect_idle fun now t₂ _ => ?_)
  refine Handler.Safe.bind (safe_mapStop (fun _ _ => trivial)
    (newUUID_safe effect_idle (fun id t₃ _ => ?_) fun _ _ _ => trivial))
  refine Handler.Safe.bind (safe_mutex fun s t₄ e s' record events _ h => ?_)
  simp only [bind_eq_ok_iff] at h
  obtain ⟨_, -, h⟩ := h
  cases h
  refine ⟨.revokeDevice rfl _ _, fun t₅ _ _ => ?_⟩
  simp only [hrepo, Bool.false_eq_true, if_false]
  exact safe_done fun _ _ => trivial

/-- What the sections of a grant's revocation do. -/
theorem revokeGrant_safe (hrepo : cfg.repo = false) (h : Headers) (grantID reason : Str) :
    (revokeGrant cfg h grantID reason).Safe (Effect P) i anything anything t := by
  rw [revokeGrant]
  refine Handler.Safe.bind (requireAdmin_safe fun t₁ _ => ?_)
  refine Handler.Safe.bind (safe_clock effect_idle fun now t₂ _ => ?_)
  refine Handler.Safe.bind (safe_read effect_idle fun s e t₃ _ => ?_)
  refine Handler.Safe.bind (safe_stopIf (fun _ _ _ => trivial) fun _ t₄ _ => ?_)
  refine Handler.Safe.bind (safe_mapStop (fun _ _ => trivial)
    (newUUID_safe effect_idle (fun id t₅ _ => ?_) fun _ _ _ => trivial))
  simp only [hrepo, Bool.false_eq_true, if_false]
  refine Handler.Safe.bind (safe_mutex fun s t₆ e s' u events _ h => ?_)
  cases h
  refine ⟨.revokeGrant rfl _ _, fun t₇ _ _ => ?_⟩
  refine Handler.Safe.bind (safe_mapStop (fun _ _ => trivial) (safe_try fun raw t₈ _ _ => ?_))
  exact safe_done fun _ _ => trivial

/-- What the sections of a rotation do. -/
theorem rotateKeys_safe (h : Headers) :
    (rotateKeys P cfg h).Safe (Effect P) i anything anything t := by
  rw [rotateKeys]
  refine Handler.Safe.bind (requireAdmin_safe fun t₁ _ => ?_)
  refine Handler.Safe.bind (safe_read effect_idle fun s e t₂ _ => ?_)
  refine Handler.Safe.bind (safe_mapStop (fun _ _ => trivial) (safe_try fun keys t₃ hkeys _ => ?_))
  obtain ⟨priv, pub⟩ := keys
  refine Handler.Safe.bind (safe_mutex fun s t₄ e s' u events _ h => ?_)
  cases h
  refine ⟨.add (keyPair_of_generate P hkeys) rfl rfl rfl, fun t₅ _ _ => ?_⟩
  refine Handler.Safe.bind (safe_mutex fun s t₆ e s' u events _ h => ?_)
  simp only [bind_eq_ok_iff] at h
  obtain ⟨ring, hring, h⟩ := h
  cases h
  refine ⟨.rotate (mapError_eq_ok_iff.mp hring) rfl, fun t₇ _ _ => ?_⟩
  refine Handler.Safe.bind (safe_mutex fun s t₈ e s' u events _ h => ?_)
  cases h
  refine ⟨.publish rfl _, fun t₉ _ _ => ?_⟩
  exact safe_done fun _ _ => trivial

theorem deviceStatus_safe (hrepo : cfg.repo = false) (deviceID domainID : Str) :
    (deviceStatus cfg deviceID domainID).Safe (Effect P) i anything anything t := by
  rw [deviceStatus]
  refine Handler.Safe.bind (safe_read effect_idle fun s e t₁ _ => ?_)
  simp only [hrepo, Bool.false_eq_true, and_false, if_false, Handler.pure_eq, done_bind]
  split
  · exact safe_stop fun _ _ => trivial
  · refine Handler.Safe.bind (safe_stopIf (fun _ _ _ => trivial) fun _ t₃ _ => ?_)
    exact safe_done fun _ _ => trivial

theorem grantStatus_safe (hrepo : cfg.repo = false) (grantID domainID : Str) :
    (grantStatus cfg grantID domainID).Safe (Effect P) i anything anything t := by
  rw [grantStatus]
  refine Handler.Safe.bind (safe_read effect_idle fun s e t₁ _ => ?_)
  simp only [hrepo, Bool.false_eq_true, and_false, if_false, Handler.pure_eq, done_bind]
  split
  · exact safe_stop fun _ _ => trivial
  · refine Handler.Safe.bind (safe_stopIf (fun _ _ _ => trivial) fun _ t₃ _ => ?_)
    refine Handler.Safe.bind (safe_read effect_idle fun s e t₄ _ => ?_)
    refine Handler.Safe.bind (safe_clock effect_idle fun now t₅ _ => ?_)
    refine Handler.Safe.bind (safe_mapStop (fun _ _ => trivial) (safe_try fun raw t₆ _ _ => ?_))
    exact safe_done fun _ _ => trivial

theorem issuerForGrant_safe {grant : Grant} {Q : DeviceIdentity → Trace → Prop}
    (hQ : ∀ id t', t <+: t' → Q id t') :
    (issuerForGrant cfg grant).Safe (Effect P) i Q anything t := by
  rw [issuerForGrant]
  refine Handler.Safe.bind (safe_stopIf (fun _ _ _ => trivial) fun _ t₁ ht₁ => ?_)
  refine Handler.Safe.bind (safe_read effect_idle fun s e t₂ ht₂ => ?_)
  refine Handler.Safe.bind (safe_try fun key t₃ _ ht₃ => ?_)
  refine Handler.Safe.bind (safe_clock effect_idle fun now t₄ ht₄ => ?_)
  exact safe_done fun t₅ ht₅ =>
    hQ _ t₅ (ht₁.trans (ht₂.trans (ht₃.trans (ht₄.trans ht₅))))

/-- What the sections of a verification do. -/
theorem verifyGrant_safe (hrepo : cfg.repo = false) (req : VerifyRequest) :
    (verifyGrant P cfg req).Safe (Effect P) i (Answered i (.verifyGrant req))
      (Answered i (.verifyGrant req)) t := by
  have herror : ∀ n err t', Answered i (.verifyGrant req) (writeError n err) t' :=
    fun _ _ _ => trivial
  rw [verifyGrant]
  refine Handler.Safe.bind (safe_attempt (fun s t₁ e s' record events _ _ h => ?_)
    fun _ _ _ _ _ _ h => by cases h)
  cases h
  refine ⟨.consult rfl, fun t₂ ht₂ => ?_⟩
  have hconsulted := did_of_snoc ht₂ (List.mem_singleton_self _)
  simp only [hrepo, Bool.false_eq_true, and_false, if_false, Handler.pure_eq, done_bind]
  refine Handler.Safe.bind (safe_mapStop (herror 403) (issuerForGrant_safe fun id t₃ ht₃ => ?_))
  refine Handler.Safe.bind (safe_clock effect_idle fun now t₄ ht₄ => ?_)
  refine Handler.Safe.bind (safe_mapStop (herror 403) (safe_try fun _ t₅ hok ht₅ => ?_))
  refine safe_done fun t₆ ht₆ => ?_
  exact ⟨_, now, hconsulted.extend (ht₃.trans (ht₄.trans (ht₅.trans ht₆))),
    matches_of_verifyGrant hok⟩

theorem adminAudit_safe (h : Headers) :
    (adminAudit cfg h).Safe (Effect P) i anything anything t := by
  rw [adminAudit]
  exact Handler.Safe.bind (requireAdmin_safe fun _ _ =>
    safe_read effect_idle fun _ _ _ _ => trivial)

theorem serveRevocations_safe (q : RevocationsQuery) :
    (serveRevocations cfg q).Safe (Effect P) i anything anything t := by
  rw [serveRevocations]
  split_ifs
  · exact safe_done fun _ _ => trivial
  · refine Handler.Safe.bind (safe_try fun limit t₁ _ _ => ?_)
    refine Handler.Safe.bind (safe_read effect_idle fun _ _ t₂ _ => ?_)
    exact Handler.Safe.bind (safe_mapStop (fun _ _ => trivial) (safe_try fun _ _ _ _ =>
      safe_done fun _ _ => trivial))
  · exact Handler.Safe.bind (safe_try fun limit t₁ _ _ =>
      safe_read effect_idle fun _ _ _ _ => trivial)

/-- **Every handler has only these effects.** -/
theorem handle_safe (hrepo : cfg.repo = false) (req : Request) :
    (handle P cfg req).Safe (Effect P) i (Answered i req) (Answered i req) t := by
  have weaken : ∀ {p : Run Answer Answer}, p.Safe (Effect P) i anything anything t →
      (∀ r t', Answered i req r t') → p.Safe (Effect P) i (Answered i req) (Answered i req) t :=
    fun hp h => hp.mono (fun r t' _ _ => h r t') fun r t' _ _ => h r t'
  cases req with
  | submitDevice req => exact weaken (submitDevice_safe hrepo req) fun _ _ => trivial
  | authorizeDevice h req => exact weaken (authorizeDevice_safe hrepo h req) fun _ _ => trivial
  | verifyGrant req => exact verifyGrant_safe hrepo req
  | deviceStatus d dom => exact weaken (deviceStatus_safe hrepo d dom) fun _ _ => trivial
  | grantStatus g dom => exact weaken (grantStatus_safe hrepo g dom) fun _ _ => trivial
  | revokeGrant h g reason => exact weaken (revokeGrant_safe hrepo h g reason) fun _ _ => trivial
  | revokeDevice h d reason => exact weaken (revokeDevice_safe hrepo h d reason) fun _ _ => trivial
  | rotateKeys h => exact weaken (rotateKeys_safe h) fun _ _ => trivial
  | adminAudit h => exact weaken (adminAudit_safe h) fun _ _ => trivial
  | revocations q => exact weaken (serveRevocations_safe q) fun _ _ => trivial

end Safe

variable {P cfg}

theorem initial_cases {s : State} (h : Initial P cfg s) :
    ∃ signer key db, KeyPair P key.priv key.pub ∧
      key.id = Crypto.thumbprint P (lit "Ed25519") key.pub.key ∧ key.state = .active ∧
      s = ⟨signer, fun _ => none, [(key.id, key)], fun _ => none, fun _ => none, fun _ => none,
        [], [], db⟩ := by
  obtain ⟨db, e, h⟩ := h
  simp only [new, newDevice, bind_eq_ok_iff] at h
  obtain ⟨_, ⟨⟨priv, pub⟩, hkeys, ⟨⟩⟩, _, -, _, -, ⟨⟩⟩ := h
  have hpair := keyPair_of_generate P hkeys
  obtain rfl := hpair.publicKey_eq
  exact ⟨_,
    ⟨Crypto.thumbprint P (lit "Ed25519") (publicKey priv).key, .active, priv, publicKey priv⟩,
    db, hpair, rfl, rfl, rfl⟩

theorem db_of_new {db : Database} {e : Env} {s : State} (h : new P cfg db e = .ok s) :
    s.db = db := by
  simp only [new, bind_eq_ok_iff] at h
  obtain ⟨_, -, _, -, _, -, ⟨⟩⟩ := h
  rfl

/-- **The runs of the server are runs of the effects**, and its answers are as asserted. -/
theorem sound (hrepo : cfg.repo = false) {C : Snapshot → Entry Env Event → Prop} {w : World}
    (h : (server P cfg C).Reachable w) :
    w.Sound (Initial P cfg) (Effect P) C (fun i req r t => Answered i req r t) :=
  Server.simulation (fun _ req _ _ => handle_safe hrepo req) h

end TrustRoot

end Iscp
