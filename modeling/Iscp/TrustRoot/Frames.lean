import Iscp.Service.Alone
import Iscp.TrustRoot.Effects

/-!
# What the handlers of the Trust Root leave alone

Most handlers have nothing to do with most of the state: a status is read without a change, and
the ring of keys does not depend on what becomes of devices. `Iscp.Handler.Frames` says this of a
handler and a view of the state. Here it is said of the handlers of the Trust Root and of their
parts, for every view that does not show what the handler does change; nothing is assumed about
the database.
-/

namespace Iscp

namespace TrustRoot

open Go Crypto Identity Keyring Service Trust

open Handler (frames_attempt frames_done frames_ite frames_look frames_ofExcept frames_stop
  frames_stopIf)

variable {P : Primitives} {cfg : Config} {α ω τ : Type} {v : State → τ} {N : Event → Prop}

/-! ### Parts -/

/-- **The rule for a statement.** -/
theorem frames_statement {domainID : Str} {f : Env → Database → Except Error (Database × α)}
    (hf : ∀ e (s : State) db a, f e s.db = .ok (db, a) → v { s with db := db } = v s) :
    (statement domainID f).Frames v N := by
  refine .bind (frames_stopIf _ _) fun _ => frames_sql fun e s s' a events h => ?_
  obtain ⟨⟨db, r⟩, hdb, ⟨⟩⟩ := bind_eq_ok_iff.mp h
  exact ⟨hf _ _ _ _ hdb, List.forall_mem_nil _⟩

theorem activeSigner_frames (hN : ∀ key, N (.selected key)) : (activeSigner cfg).Frames v N := by
  refine .bind (frames_attempt ?_) fun _ => .bind (frames_look _) fun _ => frames_done _
  intro e s s' key events h
  obtain ⟨_, -, ⟨⟩⟩ := bind_eq_ok_iff.mp h
  exact ⟨rfl, List.forall_mem_singleton.mpr (hN key)⟩

theorem issuerForGrant_frames (grant : Grant) : (issuerForGrant cfg grant).Frames v N :=
  .bind (frames_stopIf _ _) fun _ => .bind (frames_look _) fun _ =>
  .bind (frames_ofExcept _) fun _ =>
    .bind (frames_look _) fun _ => frames_done _

theorem persistSubmittedDevice_frames
    (hv : ∀ (s : State) id, v { s with db := s.db.submitDevice id } = v s) (id : DeviceIdentity) :
    (persistSubmittedDevice P cfg id).Frames v N := by
  rw [persistSubmittedDevice]
  split_ifs
  · refine .bind (frames_ofExcept _) fun _ => .bind (frames_ofExcept _) fun _ =>
      .bind (frames_look _) fun _ => .bind (frames_newUUID _) fun _ => frames_statement ?_
    rintro e s _ _ ⟨⟩
    exact hv s id
  · exact frames_done _

theorem checkDevice_frames (hv : ∀ (s : State) devices, v { s with devices := devices } = v s)
    (hN : ∀ d record, N (.checked d record)) (deviceID : Str) :
    (checkDevice cfg deviceID).Frames v N := by
  refine frames_attempt fun e s s' a events h => ?_
  obtain ⟨found, -, h⟩ := bind_eq_ok_iff.mp h
  cases found with
  | none => cases h
  | some record =>
    obtain ⟨_, -, ⟨⟩⟩ := bind_eq_ok_iff.mp h
    exact ⟨hv s _, List.forall_mem_singleton.mpr (hN ..)⟩

theorem authorizedRecord_frames
    (hv : ∀ (s : State) d db row, s.db.authorizeDevice cfg.domainID d = .ok (db, row) →
      v { s with db := db } = v s) (record : DeviceRecord) (deviceID : Str) :
    (authorizedRecord cfg record deviceID).Frames v N := by
  rw [authorizedRecord]
  split_ifs
  · exact .bind (frames_statement fun _ s db row h => hv s deviceID db row h) fun _ =>
      frames_done _
  · exact frames_done _

theorem persistGrant_frames
    (hv : ∀ (s : State) grant epoch,
      v { s with db := s.db.storeGrant cfg.domainID grant epoch } = v s) (grant : Grant) :
    (persistGrant cfg grant).Frames v N := by
  rw [persistGrant]
  split_ifs
  · refine .bind (frames_ofExcept _) fun _ => .bind (frames_ofExcept _) fun _ =>
      .bind (frames_ofExcept _) fun _ => .bind (frames_look _) fun _ =>
      .bind (frames_newUUID _) fun _ => frames_statement ?_
    rintro e s _ _ ⟨⟩
    exact hv ..
  · exact frames_done _

section Revoke

variable (hadd : ∀ (s : State) row db, s.db.addRevocation row = .ok db →
    v { s with db := db } = v s)

include hadd

theorem repoRevokeDevice_frames
    (hrow : ∀ (s : State) d db, s.db.revokeDevice cfg.domainID d = .ok db →
      v { s with db := db } = v s) (revocationID deviceID reason : Str) (now : Time) :
    (repoRevokeDevice cfg revocationID deviceID reason now).Frames v N := by
  rw [repoRevokeDevice]
  refine .bind (frames_statement ?_) fun _ => frames_statement ?_
  · intro e s db _ h
    obtain ⟨_, hrevoke, ⟨⟩⟩ := bind_eq_ok_iff.mp h
    exact hrow s deviceID db hrevoke
  · intro e s db _ h
    split at h
    · cases h
      rfl
    · obtain ⟨_, hrow', ⟨⟩⟩ := bind_eq_ok_iff.mp h
      exact hadd s _ db hrow'

theorem repoRevokeGrant_frames
    (hrow : ∀ (s : State) g now db, s.db.revokeGrant cfg.domainID g now = .ok db →
      v { s with db := db } = v s) (revocationID grantID reason : Str) (now : Time) :
    (repoRevokeGrant cfg revocationID grantID reason now).Frames v N := by
  rw [repoRevokeGrant]
  refine .bind (frames_statement ?_) fun _ => frames_statement ?_
  · intro e s db _ h
    obtain ⟨_, hrevoke, ⟨⟩⟩ := bind_eq_ok_iff.mp h
    exact hrow s grantID now db hrevoke
  · intro e s db _ h
    split at h
    · cases h
      rfl
    · obtain ⟨_, hrow', ⟨⟩⟩ := bind_eq_ok_iff.mp h
      exact hadd s _ db hrow'

end Revoke

/-! ### Handlers that change nothing -/

theorem verifyGrant_frames (hN : ∀ d record, N (.consulted d record)) (req : VerifyRequest) :
    (verifyGrant P cfg req).Frames v N := by
  rw [verifyGrant]
  refine .bind (frames_attempt ?_) fun record => ?_
  · rintro e s _ _ _ ⟨⟩
    exact ⟨rfl, List.forall_mem_singleton.mpr (hN ..)⟩
  have hrest : ∀ record : DeviceRecord, Handler.Frames v N (do
      let issuer ← (issuerForGrant cfg req.grant).mapStop (writeError 403)
      let now ← clock
      (Handler.ofExcept (Trust.verifyGrant P req.grant issuer
        (req.options record.revocationEpoch now))).mapStop (writeError 403)
      return .json 200 .valid : Run Answer Answer) := fun record =>
    .bind (issuerForGrant_frames _).mapStop fun _ => .bind (frames_look _) fun _ =>
      .bind (frames_ofExcept _).mapStop fun _ => frames_done _
  dsimp only
  split_ifs
  · exact .bind (frames_look _) fun _ => .bind (frames_ofExcept _).mapStop fun _ => hrest _
  · exact hrest _

theorem deviceStatus_frames (d domainID : Str) : (deviceStatus cfg d domainID).Frames v N := by
  rw [deviceStatus]
  refine .bind (frames_look _) fun found => ?_
  dsimp only
  split_ifs
  · refine .bind (frames_look _) fun _ => .bind (frames_ofExcept _).mapStop fun _ => ?_
    simp only [Handler.pure_eq, Handler.done_bind]
    split
    · exact frames_stop _
    · exact .bind (frames_stopIf _ _) fun _ => frames_done _
  · simp only [Handler.pure_eq, Handler.done_bind]
    split
    · exact frames_stop _
    · exact .bind (frames_stopIf _ _) fun _ => frames_done _

theorem grantStatus_frames (grantID domainID : Str) :
    (grantStatus cfg grantID domainID).Frames v N := by
  rw [grantStatus]
  refine .bind (frames_look _) fun r => ?_
  dsimp only
  split_ifs
  · refine .bind (frames_stopIf _ _).mapStop fun _ => .bind (frames_look _) fun _ =>
      .bind (frames_ofExcept _).mapStop fun _ => ?_
    simp only [Handler.pure_eq, Handler.done_bind]
    split
    · exact frames_stop _
    · exact .bind (frames_stopIf _ _) fun _ => .bind (frames_look _) fun _ =>
        .bind (frames_look _) fun _ => .bind (frames_ofExcept _).mapStop fun _ => frames_done _
  · simp only [Handler.pure_eq, Handler.done_bind]
    split
    · exact frames_stop _
    · exact .bind (frames_stopIf _ _) fun _ => .bind (frames_look _) fun _ =>
        .bind (frames_look _) fun _ => .bind (frames_ofExcept _).mapStop fun _ => frames_done _

theorem adminAudit_frames (h : Headers) : (adminAudit cfg h).Frames v N := by
  rw [adminAudit]
  exact .bind (frames_stopIf _ _) fun _ => frames_look _

theorem serveRevocations_frames (q : RevocationsQuery) :
    (serveRevocations cfg q).Frames v N := by
  rw [serveRevocations]
  refine frames_ite (frames_done _) (.bind (frames_ofExcept _) fun limit => ?_)
  exact frames_ite (.bind (frames_look _) fun _ => .bind (frames_ofExcept _).mapStop fun _ =>
    frames_done _) (frames_look _)

/-! ### Handlers that change something else -/

theorem submitDevice_frames (hcache : ∀ (s : State) cache, v { s with replay := cache } = v s)
    (htable : ∀ (s : State) table, v (nonceStore.setTable s table) = v s)
    (hrow : ∀ (s : State) id, v { s with db := s.db.submitDevice id } = v s)
    (hrecord : ∀ (s : State) devices audit,
      v { s with devices := devices, audit := audit } = v s)
    (hused : ∀ proof ttl now isNew, N (.used proof ttl now isNew))
    (hsubmitted : ∀ id, N (.submitted id)) (req : SubmitRequest) :
    (submitDevice P cfg req).Frames v N := by
  rw [submitDevice]
  refine .bind (verifyProof_frames hcache htable hused _ _ _ _ _).mapStop fun _ =>
    .bind (persistSubmittedDevice_frames hrow _).mapStop fun _ => frames_attempt ?_
  rintro e s _ _ _ ⟨⟩
  exact ⟨hrecord .., List.forall_mem_singleton.mpr (hsubmitted _)⟩

theorem rotateKeys_frames (hkeys : ∀ (s : State) keys, v { s with keys := keys } = v s)
    (hsigner : ∀ (s : State) signer, v { s with signer := signer } = v s)
    (hadded : ∀ key, N (.added key)) (hrotated : ∀ keyID, N (.rotated keyID)) (h : Headers) :
    (rotateKeys P cfg h).Frames v N := by
  rw [rotateKeys]
  refine .bind (frames_stopIf _ _) fun _ => .bind (frames_look _) fun seed =>
    .bind (frames_ofExcept _).mapStop fun r => .bind (frames_attempt ?_) fun _ =>
    .bind (frames_attempt ?_) fun _ => .bind (frames_attempt ?_) fun _ =>
    frames_done _
  · rintro e s _ _ _ ⟨⟩
    exact ⟨hkeys .., List.forall_mem_singleton.mpr (hadded _)⟩
  · intro e s s' a events h
    obtain ⟨_, -, ⟨⟩⟩ := bind_eq_ok_iff.mp h
    exact ⟨hkeys .., List.forall_mem_singleton.mpr (hrotated _)⟩
  · rintro e s _ _ _ ⟨⟩
    exact ⟨hsigner .., List.forall_mem_nil _⟩

theorem revokeGrant_frames
    (hadd : ∀ (s : State) row db, s.db.addRevocation row = .ok db → v { s with db := db } = v s)
    (hrow : ∀ (s : State) g now db, s.db.revokeGrant cfg.domainID g now = .ok db →
      v { s with db := db } = v s)
    (hbooks : ∀ (s : State) revokedGrants log audit, v { s with
      revokedGrants := revokedGrants, revocationLog := log, audit := audit } = v s)
    (hN : ∀ grantID, N (.revokedGrant grantID)) (h : Headers) (grantID reason : Str) :
    (revokeGrant cfg h grantID reason).Frames v N := by
  rw [revokeGrant]
  refine .bind (frames_stopIf _ _) fun _ => .bind (frames_look _) fun now => .bind (frames_look _)
    fun found => .bind (frames_stopIf _ _) fun _ => .bind (frames_newUUID _).mapStop fun id => ?_
  have hrest : Handler.Frames v N (do
      mutex fun _ s =>
        .ok ({ s with
            revokedGrants := s.revokedGrants.set grantID ()
            revocationLog := s.revocationLog ++ [⟨id, cfg.domainID, .grant grantID, reason, now⟩]
            audit := s.audit ++ [⟨.grantRevoke, grantID, now⟩] }, (), [.revokedGrant grantID])
      let raw ← (Handler.ofExcept (found.getD zeroGrant).marshalJSON).mapStop (writeError 500)
      return .json 200 (.grantStatus .revoked raw) : Run Answer Answer) := by
    refine .bind (frames_attempt ?_) fun _ => .bind (frames_ofExcept _).mapStop fun _ =>
      frames_done _
    rintro e s _ _ _ ⟨⟩
    exact ⟨hbooks .., List.forall_mem_singleton.mpr (hN _)⟩
  dsimp only
  split_ifs
  · exact .bind (repoRevokeGrant_frames hadd hrow _ _ _ _).mapStop fun _ => hrest
  · exact hrest

theorem revokeDevice_frames
    (hadd : ∀ (s : State) row db, s.db.addRevocation row = .ok db → v { s with db := db } = v s)
    (hrow : ∀ (s : State) d db, s.db.revokeDevice cfg.domainID d = .ok db →
      v { s with db := db } = v s)
    (hbooks : ∀ (s : State) devices log audit, v { s with
      devices := devices, revocationLog := log, audit := audit } = v s)
    (hN : ∀ deviceID, N (.revokedDevice deviceID)) (h : Headers) (deviceID reason : Str) :
    (revokeDevice cfg h deviceID reason).Frames v N := by
  rw [revokeDevice]
  refine .bind (frames_stopIf _ _) fun _ => .bind (frames_look _) fun now =>
    .bind (frames_newUUID _).mapStop fun id => .bind (frames_attempt ?_) fun record => ?_
  · intro e s s' a events h
    obtain ⟨_, -, ⟨⟩⟩ := bind_eq_ok_iff.mp h
    exact ⟨hbooks .., List.forall_mem_singleton.mpr (hN _)⟩
  · dsimp only
    split_ifs
    · exact .bind (repoRevokeDevice_frames hadd hrow _ _ _ _).mapStop fun _ =>
        .bind (frames_look _) fun _ => frames_done _
    · exact frames_done _

end TrustRoot

end Iscp
