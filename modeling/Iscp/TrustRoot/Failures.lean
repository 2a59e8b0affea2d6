import Iscp.TrustRoot.Alone
import Iscp.TrustRoot.Requests

/-!
# Requests that fail

`authorizeDevice` and `revokeDevice` change the record of the device in memory first, and do what
can fail afterwards: the update of the row, the policy, the signature, the grant. A request that
is refused there leaves the record as it has made it. So an authorization the policy rejects does
authorize the device (`Iscp.TrustRoot.rejected_but_authorized`).

Nothing is changed by exactly those requests that do not get that far
(`Iscp.TrustRoot.unchanged_iff`): the ones without the credential of an operator, or for a device
that cannot be found or has been revoked, or for whose revocation there is no identifier
(`Iscp.TrustRoot.TurnedAway`).
-/

namespace Iscp

namespace TrustRoot

open Go Crypto Identity Keyring Service Trust

/-- The records, the grants, the log and the rows are as before. -/
def Unchanged (s s' : State) : Prop :=
  s'.devices = s.devices ∧ s'.grants = s.grants ∧ s'.revocationLog = s.revocationLog ∧ s'.db = s.db

/-- **A request does not get past its checks**, given what stands on record of it: the first of its
sections looks for the device that is to be authorized, the second draws the identifier of a
revocation. -/
def TurnedAway (cfg : Config) (s : State) (t : Trace) : Request → Prop
  | .authorizeDevice h req => adminAuthorized cfg.adminToken h = false ∨
    ∀ x ∈ t[0]?, ∀ record, findRecord cfg x.env s req.deviceID = .ok (some record) →
      record.status = .revoked
  | .revokeDevice h deviceID _ => adminAuthorized cfg.adminToken h = false ∨
    (∃ x ∈ t[1]?, x.env.uuid = none) ∨
    ((s.record deviceID).identity.deviceID = [] ∧ cfg.repo = false)
  | _ => True

variable {P : Primitives} {cfg : Config} {i : ℕ} {c c' : Snapshot}
  {C : Snapshot → Entry Env Event → Prop}

/-! ### What the requests change -/

/-- What a request does, when it has run from one configuration to another. -/
def Verdict (cfg : Config) (req : Request) (c c' : Snapshot) : Prop :=
  ∃ t, c'.trace = c.trace ++ t ∧ (Unchanged c.state c'.state ↔ TurnedAway cfg c.state t req)

variable {record : DeviceRecord}

theorem not_unchanged {s s' : State} {d : Str} (h : s'.devices = s.devices.set d record)
    (hne : s.devices d ≠ some record) : ¬Unchanged s s' := by
  intro hun
  have hset : s'.devices d = some record := by
    rw [h]
    exact Map.set_self ..
  exact hne (by rw [← hun.1, hset])

theorem DeviceRecord.authorize_ne (record : DeviceRecord) : record.authorize ≠ record := by
  intro h
  have hversion := congrArg DeviceRecord.deviceRecordVersion h
  simp [authorize] at hversion

theorem DeviceRecord.revoke_ne (record : DeviceRecord) : record.revoke ≠ record := by
  intro h
  have hversion := congrArg DeviceRecord.deviceRecordVersion h
  simp [revoke] at hversion

theorem Verdict.of_same {req : Request} {t : Trace} (hstate : c'.state = c.state)
    (htrace : c'.trace = c.trace ++ t) (haway : TurnedAway cfg c.state t req) :
    Verdict cfg req c c' := by
  refine ⟨t, htrace, iff_of_true ?_ haway⟩
  rw [hstate]
  exact ⟨rfl, rfl, rfl, rfl⟩

theorem Verdict.of_changed {req : Request} {c₁ : Snapshot} {t₁ : Trace} {d : Str}
    (htrace : c₁.trace = c.trace ++ t₁) (hdevices : c₁.state.devices = c.state.devices.set d record)
    (hne : c.state.devices d ≠ some record)
    (hchecked : ∀ t₂, ¬TurnedAway cfg c.state (t₁ ++ t₂) req)
    (hkept : Handler.Kept State.devices (fun _ => True) c₁ c') : Verdict cfg req c c' := by
  obtain ⟨hsame, t₂, ht₂, -⟩ := hkept
  refine ⟨t₁ ++ t₂, ?_, iff_of_false (not_unchanged (hsame.trans hdevices) hne) (hchecked t₂)⟩
  rw [ht₂, htrace, List.append_assoc]

/-- The verdict on an authorization. -/
theorem authorizeDevice_verdict (h : Headers) (req : AuthorizeRequest) :
    (authorizeDevice P cfg h req).Alone C i (fun _ c' => Verdict cfg (.authorizeDevice h req) c c')
      (fun _ c' => Verdict cfg (.authorizeDevice h req) c c') c := by
  rw [authorizeDevice]
  refine .bind (Handler.alone_stopIf (fun hadmin => ?_) fun hadmin => ?_)
  · exact .of_same rfl (List.append_nil _).symm (.inl hadmin)
  refine .bind (Handler.alone_attempt (fun e s' record events _ hcheck => ?_)
    fun e r _ hcheck => ?_)
  · -- the check has been passed: everything else leaves the record alone
    obtain ⟨found, hfound, hcheck⟩ := bind_eq_ok_iff.mp hcheck
    rw [mapError_eq_ok_iff] at hfound
    cases found with
    | none => cases hcheck
    | some record =>
      obtain ⟨_, hstatus, ⟨⟩⟩ := bind_eq_ok_iff.mp hcheck
      have hne : c.state.devices req.deviceID ≠ some record.authorize := by
        intro heq
        rw [findRecord, heq] at hfound
        have hrecord : record.authorize = record := Option.some.inj (Except.ok.inj hfound)
        exact record.authorize_ne hrecord
      have hchecked : ∀ t₂, ¬TurnedAway cfg c.state
          ([⟨i, e, [.checked req.deviceID record.authorize]⟩] ++ t₂) (.authorizeDevice h req) := by
        rintro t₂ (hadmin' | hrefused)
        · exact hadmin hadmin'
        · exact failIf_eq_ok_iff.mp hstatus (hrefused _ rfl record hfound)
      have hdone : ∀ {c'}, Handler.Kept State.devices (fun _ => True) (⟨{ c.state with
          devices := c.state.devices.set req.deviceID record.authorize }, c.trace ++
            [⟨i, e, [.checked req.deviceID record.authorize]⟩]⟩ : Snapshot) c' →
          Verdict cfg (.authorizeDevice h req) c c' := Verdict.of_changed rfl rfl hne hchecked
      refine Handler.Alone.mono (Handler.Frames.alone
        (.bind (authorizedRecord_frames (fun _ _ _ _ _ => rfl) _ _).mapStop (fun _ =>
        .bind (Handler.frames_ofExcept _).mapStop fun _ => .bind (Handler.frames_look _) fun _ =>
        .bind (activeSigner_frames fun _ => trivial).mapStop fun _ =>
        .bind (Handler.frames_ofExcept _).mapStop fun _ =>
        .bind (Handler.frames_note fun _ _ => trivial) fun _ =>
        .bind (persistGrant_frames (fun _ _ _ => rfl) _).mapStop fun _ =>
        Handler.frames_attempt ?_)) _) (fun _ _ => hdone) fun _ _ => hdone
      rintro e s s' a events ⟨⟩
      exact ⟨rfl, fun _ _ => trivial⟩
  · refine .of_same (t := [⟨i, e, []⟩]) rfl rfl (.inr ?_)
    intro x hx record hrecord
    cases hx
    by_contra hstatus
    rw [show findRecord cfg e c.state req.deviceID = .ok (some record) from hrecord] at hcheck
    change (failIf (record.status = .revoked) (writeError 403 notAuthorized) >>= fun _ => _) =
      Except.error r at hcheck
    rw [failIf, if_neg hstatus] at hcheck
    cases hcheck

/-- The verdict on a revocation. -/
theorem revokeDevice_verdict (h : Headers) (d reason : Str) :
    (revokeDevice cfg h d reason).Alone C i
      (fun _ c' => Verdict cfg (.revokeDevice h d reason) c c')
      (fun _ c' => Verdict cfg (.revokeDevice h d reason) c c') c := by
  rw [revokeDevice]
  refine .bind (Handler.alone_stopIf (fun hadmin => ?_) fun hadmin => ?_)
  · exact .of_same rfl (List.append_nil _).symm (.inl hadmin)
  refine .bind (alone_clock fun e₁ _ => ?_)
  refine .bind (.mapStop (.bind (Handler.alone_look fun e₂ _ => ?_)))
  refine .bind (Handler.alone_ofExcept (fun id hid => ?_) fun err herr => ?_)
  · refine Handler.alone_done (.bind (Handler.alone_attempt (fun e₃ s' record events _ h₃ => ?_)
      fun e₃ r _ h₃ => ?_))
    · obtain ⟨_, hknown, ⟨⟩⟩ := bind_eq_ok_iff.mp h₃
      have hne : c.state.devices d ≠ some (c.state.record d).revoke := by
        intro heq
        have hrecord : c.state.record d = (c.state.record d).revoke :=
          congrArg (fun found => found.getD zeroRecord) heq
        exact (c.state.record d).revoke_ne hrecord.symm
      have hchecked : ∀ t₂, ¬TurnedAway cfg c.state ([⟨i, e₁, []⟩, ⟨i, e₂, []⟩,
          ⟨i, e₃, [.revokedDevice d]⟩] ++ t₂) (.revokeDevice h d reason) := by
        rintro t₂ (hadmin' | ⟨x, hx, hnone⟩ | hunknown)
        · exact hadmin hadmin'
        · cases hx
          rw [show e₂.uuid = none from hnone] at hid
          cases hid
        · exact failIf_eq_ok_iff.mp hknown hunknown
      have htrace : c.trace ++ [⟨i, e₁, []⟩] ++ [⟨i, e₂, []⟩] ++ [⟨i, e₃, [.revokedDevice d]⟩] =
          c.trace ++ [⟨i, e₁, []⟩, ⟨i, e₂, []⟩, ⟨i, e₃, [.revokedDevice d]⟩] := by
        simp
      refine Handler.Alone.mono (Handler.Frames.alone (v := State.devices) (N := fun _ => True)
        (Handler.frames_ite
        (.bind (repoRevokeDevice_frames (fun _ _ _ _ => rfl) (fun _ _ _ _ => rfl) _ _ _ _).mapStop
          fun _ =>
          .bind (Handler.frames_look _) fun _ => .bind (Handler.frames_done _) fun _ =>
            Handler.frames_done _)
        (.bind (Handler.frames_done _) fun _ => Handler.frames_done _)) _)
        (fun _ _ hkept => ?_) fun _ _ hkept => ?_
      · exact .of_changed htrace rfl hne hchecked hkept
      · exact .of_changed htrace rfl hne hchecked hkept
    · refine .of_same (t := [⟨i, e₁, []⟩, ⟨i, e₂, []⟩, ⟨i, e₃, []⟩]) rfl (by simp)
        (.inr (.inr ?_))
      by_contra hknown
      change (failIf ((c.state.record d).identity.deviceID = [] ∧ cfg.repo = false) _ >>=
        fun _ => _) = Except.error r at h₃
      rw [failIf, if_neg hknown] at h₃
      cases h₃
  · -- there is no identifier
    refine .of_same (t := [⟨i, e₁, []⟩, ⟨i, e₂, []⟩]) rfl (by simp) (.inr (.inl ?_))
    refine ⟨_, rfl, ?_⟩
    cases huuid : e₂.uuid with
    | none => rfl
    | some rand =>
      rw [huuid] at herr
      cases herr

/-! ### Main results -/

/-- **A request that fails changes nothing exactly if it is turned away.** -/
theorem unchanged_iff {req : Request} (hreq : (∃ h r, req = .authorizeDevice h r) ∨
      ∃ h d reason, req = .revokeDevice h d reason) {status : ℕ} {err : ErrorResponse} {t : Trace}
    (hserves : (handle P cfg req).Serves C i c (.error status err) c')
    (ht : c'.trace = c.trace ++ t) :
    Unchanged c.state c'.state ↔ TurnedAway cfg c.state t req := by
  have hverdict : Verdict cfg req c c' := by
    obtain ⟨h, r, rfl⟩ | ⟨h, d, reason, rfl⟩ := hreq
    · exact (authorizeDevice_verdict h r).answer hserves
    · exact (revokeDevice_verdict h d reason).answer hserves
  obtain ⟨t', ht', hiff⟩ := hverdict
  obtain rfl : t' = t := List.append_cancel_left (ht'.symm.trans ht)
  exact hiff

/-- A request for what the policy does not know. -/
def strangeRequest : AuthorizeRequest := ⟨lit "a", lit "b", [lit "admin"], lit "relay", 0⟩

/-- A device that has been revoked is not authorized, and nothing is changed. -/
theorem unchanged_iff_revoked : ∃ w c' t err,
    (server .transparent exampleConfig Server.always).Reachable w ∧
    (handle .transparent exampleConfig (.authorizeDevice noHeaders strangeRequest)).Serves
      Server.always 2 w.config (.error 403 err) c' ∧ c'.trace = w.trace ++ t ∧
    (w.state.record (lit "a")).status = .revoked ∧ w.state.revocationLog.length = 1 ∧
    TurnedAway exampleConfig w.state t (.authorizeDevice noHeaders strangeRequest) ∧
    Unchanged w.state c'.state := by
  obtain ⟨req, -, w, hw, hlog, record, hrecord, hstatus, ⟨c', x⟩, hplay, hx⟩ :
      ∃ req ∈ submission (lit "a") "1" 1,
        ∃ w ∈ running Server.always (serves 0 (.submitDevice req) 3 ++
          serves 1 (.revokeDevice noHeaders (lit "a") []) 3), w.state.revocationLog.length = 1 ∧
        ∃ record ∈ w.state.devices (lit "a"), record.status = .revoked ∧
        ∃ r ∈ (handle .transparent exampleConfig
          (.authorizeDevice noHeaders strangeRequest)).play 2 exampleEnv w.config,
          r.2 = .error (writeError 403 notAuthorized) := by
    decide +kernel
  subst hx
  have hserves := Handler.serves_of_play (C := Server.always) hplay fun _ _ _ _ => trivial
  obtain ⟨t, ht, -⟩ := (authorizeDevice_verdict noHeaders strangeRequest).answer hserves
  have haway : TurnedAway exampleConfig w.state t (.authorizeDevice noHeaders strangeRequest) := by
    refine .inr fun x _ record' hfound => ?_
    rw [findRecord,
      show w.state.devices strangeRequest.deviceID = some record from hrecord] at hfound
    cases hfound
    exact hstatus
  refine ⟨w, c', t, _, reachable_of_running hw, hserves, ht, ?_, hlog, haway,
    (unchanged_iff (.inl ⟨_, _, rfl⟩) hserves ht).mpr haway⟩
  rw [State.record_of_some hrecord, hstatus]

/-- **An authorization is rejected, and the device is authorized.** -/
theorem rejected_but_authorized : ∃ w c' c'' err response,
    (server .transparent exampleConfig Server.always).Reachable w ∧
    (handle .transparent exampleConfig (.authorizeDevice noHeaders strangeRequest)).Serves
      Server.always 1 w.config (.error 403 err) c' ∧
    (w.state.record (lit "a")).status = .submitted ∧
    (handle .transparent exampleConfig (.deviceStatus (lit "a") (lit "lab"))).Serves
      Server.always 2 c' (.json 200 (.deviceStatus response)) c'' ∧
    response.status = .authorized := by
  obtain ⟨req, -, w, hw, hstatus, ⟨c', x⟩, hplay, hx, ⟨c'', x'⟩, hplay', hx'⟩ :
      ∃ req ∈ submission (lit "a") "1" 1,
        ∃ w ∈ running Server.always (serves 0 (.submitDevice req) 3),
        (w.state.record (lit "a")).status = .submitted ∧
        ∃ r ∈ (handle .transparent exampleConfig
          (.authorizeDevice noHeaders strangeRequest)).play 1 exampleEnv w.config, r.2 = .error
            (writeError 403 (.new .trustInvalid (lit "permission is not allowed by policy"))) ∧
        ∃ r' ∈ (handle .transparent exampleConfig (.deviceStatus (lit "a") (lit "lab"))).play 2
          exampleEnv r.1, r'.2 = .ok (.json 200 (.deviceStatus (DeviceRecord.statusResponse
            ⟨req.identity, .authorized, 2, 0⟩))) := by
    decide +kernel
  subst hx hx'
  exact ⟨w, c', c'', _, _, reachable_of_running hw,
    Handler.serves_of_play hplay fun _ _ _ _ => trivial, hstatus,
    Handler.serves_of_play hplay' fun _ _ _ _ => trivial, rfl⟩

end TrustRoot

end Iscp
