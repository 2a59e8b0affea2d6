import Iscp.TrustRoot.Requests

/-!
# The directory of devices

What becomes of the record of a device in a run of a Trust Root without a database. Only three
kinds of sections change a record (`Iscp.TrustRoot.Effect.devices`): an identity is submitted,
a device is authorized, a device is revoked.

The revocation epoch of a device counts its revocations, and a device that has been revoked
stays revoked (`Iscp.TrustRoot.Directory`). So a device is authorized in epoch 0 only, the
grants signed for it are grants of epoch 0, also those whose requests were under way when the
device was revoked, and whoever looks the device up afterwards finds a later epoch.

Which key a device is listed with is another matter. An identity that is submitted replaces
the one on record, whatever the status: the key of an authorized device is the one it was
authorized with as long as nobody submits another.
-/

namespace Iscp

namespace TrustRoot

open Go Crypto Identity Keyring Service Trust

variable {P : Primitives} {cfg : Config}

/-! ### What the effects leave on record -/

theorem nonceEffect_events {s s' : State} {events : List Event}
    {ttl : Duration} (h : NonceEffect P nonceStore false Event.used ttl s events s') :
    ∃ proof ttl now isNew, events = [.used proof ttl now isNew] := by
  cases h with
  | use => exact ⟨_, _, _, _, rfl⟩
  | delete hrepo => cases hrepo
  | insert hrepo => cases hrepo
  | refuse hrepo => cases hrepo

theorem nonceEffect_state {s s' : State} {events : List Event}
    {ttl : Duration} (h : NonceEffect P nonceStore false Event.used ttl s events s') :
    ∃ cache, s' = { s with replay := cache } := by
  cases h with
  | use => exact ⟨_, rfl⟩
  | delete hrepo => cases hrepo
  | insert hrepo => cases hrepo
  | refuse hrepo => cases hrepo

variable {c : Snapshot} {x : Entry Env Event} {s : State}

/-- **What may become of the records of devices.** -/
theorem Effect.devices (h : Effect P c x s) :
    (s.devices = c.state.devices ∧ (∀ d, .revokedDevice d ∉ x.events) ∧
      (∀ d record, .checked d record ∉ x.events) ∧ ∀ id, .submitted id ∉ x.events) ∨
    (∃ id, x.events = [.submitted id] ∧ s.devices =
      c.state.devices.set id.deviceID ((c.state.record id.deviceID).submit id)) ∨
    (∃ d record, c.state.devices d = some record ∧ record.status ≠ .revoked ∧
      x.events = [.checked d record.authorize] ∧
      s.devices = c.state.devices.set d record.authorize) ∨
    ∃ d, x.events = [.revokedDevice d] ∧
      s.devices = c.state.devices.set d (c.state.record d).revoke := by
  cases h with
  | nonce h =>
    obtain ⟨proof, ttl, now, isNew, hx⟩ := nonceEffect_events h
    obtain ⟨cache, rfl⟩ := nonceEffect_state h
    exact .inl ⟨rfl, by simp [hx]⟩
  | submit hx => exact .inr (.inl ⟨_, hx, rfl⟩)
  | check hrecord hstatus hx => exact .inr (.inr (.inl ⟨_, _, hrecord, hstatus, hx, rfl⟩))
  | revokeDevice hx => exact .inr (.inr (.inr ⟨_, hx, rfl⟩))
  | _ => exact .inl ⟨rfl, by simp [*]⟩

theorem Effect.of_signed (h : Effect P c x s) {grant : Grant} (hv : .signed grant ∈ x.events) :
    ∃ record key, Did c.trace x.thread (.checked grant.subjectDeviceID record) ∧
      grant.revocationEpoch = record.revocationEpoch ∧ Did c.trace x.thread (.selected key) ∧
      Signed P key.priv key.id grant := by
  cases h with
  | nonce h =>
    obtain ⟨proof, ttl, now, isNew, hx⟩ := nonceEffect_events h
    simp [hx] at hv
  | sign hrecord hepoch hkey hsigned hx =>
    obtain rfl : _ = grant := by simpa [hx, eq_comm] using hv
    exact ⟨_, _, hrecord, hepoch, hkey, hsigned⟩
  | _ => simp_all

theorem Effect.of_issued (h : Effect P c x s) {grant : Grant} (hv : .issued grant ∈ x.events) :
    Did c.trace x.thread (.signed grant) := by
  cases h with
  | nonce h =>
    obtain ⟨proof, ttl, now, isNew, hx⟩ := nonceEffect_events h
    simp [hx] at hv
  | issue hsigned hx =>
    obtain rfl : _ = grant := by simpa [hx, eq_comm] using hv
    exact hsigned
  | _ => simp_all

theorem Effect.of_consulted (h : Effect P c x s) {d : Str} {record : DeviceRecord}
    (hv : .consulted d record ∈ x.events) : record = c.state.record d := by
  cases h with
  | nonce h =>
    obtain ⟨proof, ttl, now, isNew, hx⟩ := nonceEffect_events h
    simp [hx] at hv
  | consult hx =>
    simp only [hx, List.mem_singleton, Event.consulted.injEq] at hv
    obtain ⟨rfl, rfl⟩ := hv
    rfl
  | _ => simp_all

theorem Effect.event_unique (h : Effect P c x s) {v v' : Event} (hv : v ∈ x.events)
    (hv' : v' ∈ x.events) : v = v' := by
  cases h with
  | nonce h =>
    obtain ⟨proof, ttl, now, isNew, hx⟩ := nonceEffect_events h
    simp_all
  | _ => simp_all

/-! ### Revocation -/

/-- An event that revokes a device. -/
def Event.revokes (d : Str) : Event → Bool
  | .revokedDevice d' => d' = d
  | _ => false

/-- How often a device has been revoked. -/
def revocations (d : Str) (t : Trace) : ℕ := (t.flatMap Entry.events).countP (Event.revokes d)

@[simp] theorem revocations_nil (d : Str) : revocations d [] = 0 := rfl

theorem revocations_append (d : Str) (t t' : Trace) :
    revocations d (t ++ t') = revocations d t + revocations d t' := by
  rw [revocations, List.flatMap_append, List.countP_append]
  rfl

theorem revocations_singleton (d : Str) (x : Entry Env Event) :
    revocations d [x] = x.events.countP (Event.revokes d) := by
  rw [revocations, List.flatMap_singleton]

theorem revocations_pos {d : Str} {t : Trace} :
    0 < revocations d t ↔ ∃ x ∈ t, .revokedDevice d ∈ x.events := by
  rw [revocations, List.countP_pos_iff]
  constructor
  · rintro ⟨v, hv, hd⟩
    obtain ⟨x, hx, hvx⟩ := List.mem_flatMap.mp hv
    cases v with
    | revokedDevice d' =>
      obtain rfl := of_decide_eq_true hd
      exact ⟨x, hx, hvx⟩
    | _ => cases hd
  · rintro ⟨x, hx, hv⟩
    exact ⟨_, List.mem_flatMap.mpr ⟨x, hx, hv⟩, decide_eq_true rfl⟩

theorem State.devices_of_record {s : State} {d : Str} (h : (s.record d).status ≠ .none) :
    s.devices d = some (s.record d) := by
  cases hd : s.devices d with
  | none =>
    rw [State.record, hd] at h
    exact absurd rfl h
  | some record => rw [State.record_of_some hd]

theorem record_set_self {devices : Map DeviceRecord} {d : Str} {record : DeviceRecord}
    (h : s.devices = devices.set d record) : s.record d = record :=
  State.record_of_some (by rw [h, Map.set_self])

theorem record_set_of_ne {d d' : Str} {record : DeviceRecord}
    (h : s.devices = c.state.devices.set d record) (hd : d' ≠ d) :
    s.record d' = c.state.record d' := by
  rw [State.record, h, Map.set_of_ne _ hd, State.record]

theorem DeviceRecord.submit_epoch (record : DeviceRecord) (id : DeviceIdentity) :
    (record.submit id).revocationEpoch = record.revocationEpoch := by
  rw [submit]
  split_ifs <;> rfl

theorem DeviceRecord.submit_status {record : DeviceRecord} (id : DeviceIdentity)
    (h : record.status ≠ .none) : (record.submit id).status = record.status := by
  rw [submit, if_neg h]

/-- **What a section does to the record of one device**: it revokes the device, or it leaves the
epoch and the status of a revoked device alone. -/
theorem Effect.record (h : Effect P c x s) (d : Str) :
    (x.events.countP (Event.revokes d) = 0 ∧
      (s.record d).revocationEpoch = (c.state.record d).revocationEpoch ∧
      ((c.state.record d).status = .revoked → (s.record d).status = .revoked)) ∨
    (x.events.countP (Event.revokes d) = 1 ∧ s.record d = (c.state.record d).revoke) := by
  rcases h.devices with ⟨hdev, hno, -, -⟩ | ⟨id, hx, hdev⟩ | ⟨d', old, hold, hstatus, hx, hdev⟩ |
    ⟨d', hx, hdev⟩
  · have hrecord : s.record d = c.state.record d := by rw [State.record, hdev, State.record]
    refine .inl ⟨List.countP_eq_zero.mpr fun v hv hd => ?_, by rw [hrecord],
      by rw [hrecord]; exact id⟩
    cases v with
    | revokedDevice d' => exact hno d' hv
    | _ => cases hd
  · refine .inl ⟨by rw [hx]; rfl, ?_⟩
    rcases eq_or_ne d id.deviceID with rfl | hd
    · rw [record_set_self hdev]
      refine ⟨DeviceRecord.submit_epoch _ id, fun hrev => ?_⟩
      rw [DeviceRecord.submit_status id (by rw [hrev]; decide), hrev]
    · rw [record_set_of_ne hdev hd]
      exact ⟨rfl, fun hrev => hrev⟩
  · refine .inl ⟨by rw [hx]; rfl, ?_⟩
    rcases eq_or_ne d d' with rfl | hd
    · rw [record_set_self hdev, State.record_of_some hold]
      exact ⟨rfl, fun hrev => absurd hrev hstatus⟩
    · rw [record_set_of_ne hdev hd]
      exact ⟨rfl, fun hrev => hrev⟩
  · rcases eq_or_ne d d' with rfl | hd
    · refine .inr ⟨?_, record_set_self hdev⟩
      rw [hx, List.countP_singleton, Event.revokes, decide_eq_true rfl, if_pos rfl]
    · refine .inl ⟨?_, ?_⟩
      · rw [hx, List.countP_singleton, Event.revokes, decide_eq_false (Ne.symm hd)]
        rfl
      · rw [record_set_of_ne hdev hd]
        exact ⟨rfl, fun hrev => hrev⟩

/-- **What the records of devices say**: the epoch of a device counts its revocations, and a
device that was revoked is. -/
structure Directory (c : Snapshot) : Prop where
  epoch : ∀ d, (c.state.record d).revocationEpoch = UInt64.ofNat (revocations d c.trace)
  revoked : ∀ d, 0 < revocations d c.trace → (c.state.record d).status = .revoked

/-- What the effects lead to. -/
abbrev Reached (P : Primitives) (cfg : Config) (C : Snapshot → Entry Env Event → Prop) :
    Snapshot → Prop := (Server.effects (Initial P cfg) (Effect P) C).Reachable

variable {C : Snapshot → Entry Env Event → Prop}

/-- The records of devices count their revocations, after every run. -/
theorem directory (h : Reached P cfg C c) : Directory c := by
  refine h.invariant (fun c hc => ?_) fun c x c' _ hdir hstep => ?_
  · obtain ⟨hinit, htrace⟩ := hc
    obtain ⟨signer, key, db, -, -, -, hs⟩ := initial_cases hinit
    refine ⟨fun d => ?_, fun d hd => ?_⟩
    · rw [State.record, hs, htrace]
      rfl
    · rw [htrace] at hd
      exact absurd hd (lt_irrefl 0)
  · obtain ⟨-, htrace, heffect⟩ := hstep
    have hcount : ∀ d, revocations d c'.trace =
        revocations d c.trace + x.events.countP (Event.revokes d) := fun d => by
      rw [htrace, revocations_append, revocations_singleton]
    refine ⟨fun d => ?_, fun d hd => ?_⟩
    · rcases heffect.record d with ⟨hzero, hepoch, -⟩ | ⟨hone, hrecord⟩
      · rw [hcount, hzero, hepoch, hdir.epoch, Nat.add_zero]
      · rw [hcount, hone, hrecord, UInt64.ofNat_add, ← hdir.epoch]
        rfl
    · rcases heffect.record d with ⟨hzero, -, hstatus⟩ | ⟨-, hrecord⟩
      · rw [hcount, hzero, Nat.add_zero] at hd
        exact hstatus (hdir.revoked d hd)
      · rw [hrecord]
        rfl

/-- A device that passes the check of an authorization has not been revoked before. -/
theorem unrevoked_of_checked (h : Reached P cfg C c) {t₁ t₂ : Trace} (ht : c.trace = t₁ ++ x :: t₂)
    {d : Str} {record : DeviceRecord} (hx : .checked d record ∈ x.events) :
    revocations d t₁ = 0 ∧ record.revocationEpoch = 0 := by
  obtain ⟨c₁, c₂, hc₁, rfl, -, heffect, -⟩ := Server.effects_split h ht
  rcases heffect.devices with ⟨-, -, hno, -⟩ | ⟨id, hid, -⟩ | ⟨d', old, hold, hstatus, hd', -⟩ |
    ⟨d', hd', -⟩
  · exact absurd hx (hno d record)
  · simp [hid] at hx
  · simp only [hd', List.mem_singleton, Event.checked.injEq] at hx
    obtain ⟨rfl, rfl⟩ := hx
    have hzero : revocations d c₁.trace = 0 := by
      refine Nat.eq_zero_of_not_pos fun hpos => hstatus ?_
      rw [← State.record_of_some hold]
      exact (directory hc₁).revoked d hpos
    have hepoch := (directory hc₁).epoch d
    rw [State.record_of_some hold, hzero] at hepoch
    exact ⟨hzero, hepoch⟩
  · simp [hd'] at hx

/-- **Every grant is a grant of epoch 0**, signed for a device that was authorized by the same
request. -/
theorem epoch_of_signed (h : Reached P cfg C c) (hx : x ∈ c.trace) {grant : Grant}
    (hv : .signed grant ∈ x.events) : grant.revocationEpoch = 0 := by
  obtain ⟨t₁, t₂, ht⟩ := List.append_of_mem hx
  obtain ⟨c₁, c₂, hc₁, -, -, heffect, -⟩ := Server.effects_split h ht
  obtain ⟨record, key, ⟨y, hy, -, hchecked⟩, hepoch, -⟩ := heffect.of_signed hv
  obtain ⟨u₁, u₂, hu⟩ := List.append_of_mem hy
  rw [hepoch]
  exact (unrevoked_of_checked hc₁ hu hchecked).2

theorem checked_of_issued (h : Reached P cfg C c) {t₁ t₂ : Trace} (ht : c.trace = t₁ ++ x :: t₂)
    {grant : Grant} (hv : .issued grant ∈ x.events) :
    ∃ record, Did t₁ x.thread (.checked grant.subjectDeviceID record) := by
  obtain ⟨c₁, c₂, hc₁, rfl, -, heffect, -⟩ := Server.effects_split h ht
  obtain ⟨y, hy, hthread, hsigned⟩ := heffect.of_issued hv
  obtain ⟨u₁, u₂, hu⟩ := List.append_of_mem hy
  obtain ⟨c₀, c₀', hc₀, rfl, -, heffect₀, -⟩ := Server.effects_split hc₁ hu
  obtain ⟨record, key, hchecked, -⟩ := heffect₀.of_signed hsigned
  refine ⟨record, ?_⟩
  rw [← hthread, hu]
  exact hchecked.extend (List.prefix_append _ _)

theorem epoch_of_consulted (h : Reached P cfg C c) {t₁ t₂ : Trace} (ht : c.trace = t₁ ++ x :: t₂)
    {d : Str} {record : DeviceRecord} (hx : .consulted d record ∈ x.events)
    (hrevoked : 0 < revocations d t₁) (hbound : revocations d c.trace < 2 ^ 64) :
    0 < record.revocationEpoch := by
  obtain ⟨c₁, c₂, hc₁, rfl, -, heffect, -⟩ := Server.effects_split h ht
  have hle : revocations d c₁.trace ≤ revocations d c.trace := by
    rw [ht, revocations_append]
    exact Nat.le_add_right _ _
  rw [heffect.of_consulted hx, (directory hc₁).epoch d, UInt64.lt_iff_toNat_lt,
    UInt64.toNat_ofNat_of_lt' (lt_of_le_of_lt hle hbound)]
  exact hrevoked

/-- **Revocation is final.** -/
theorem revoked_for_good (hrepo : cfg.repo = false) {w : World}
    (hw : (server P cfg Server.always).Reachable w) {t₁ t₂ : Trace} {x : Entry Env Event} {d : Str}
    (ht : w.trace = t₁ ++ x :: t₂) (hx : .revokedDevice d ∈ x.events)
    (hbound : revocations d w.trace < 2 ^ 64) :
    (∃ record, w.state.devices d = some record ∧ record.status = .revoked) ∧
    (∀ y ∈ t₂, ∀ record, .checked d record ∉ y.events) ∧
    (∀ y ∈ w.trace, ∀ grant, .issued grant ∈ y.events → grant.subjectDeviceID = d →
      ∃ record, Did t₁ y.thread (.checked d record)) ∧
    ∀ i req status, w.threads i = some (.verifyGrant req, .done (.json status .valid)) →
      req.grant.subjectDeviceID = d → (∃ y ∈ w.trace, .signed req.grant ∈ y.events) →
      ∃ y ∈ t₁, y.thread = i := by
  have hsound := sound hrepo hw
  have hreached := hsound.reachable
  have hpos : 0 < revocations d w.trace := revocations_pos.mpr ⟨x, by simp [ht], hx⟩
  have hstatus : (w.state.record d).status = .revoked := (directory hreached).revoked d hpos
  have hafter : ∀ u₁, 0 < revocations d (t₁ ++ x :: u₁) := fun u₁ =>
    revocations_pos.mpr ⟨x, by simp, hx⟩
  have hnone : ∀ v ∈ x.events, v = .revokedDevice d := by
    obtain ⟨_, _, _, _, _, heffect, _⟩ := Server.effects_split hreached ht
    exact fun v hv => heffect.event_unique hv hx
  -- a device check that comes after the revocation would have found the device unrevoked
  have hcheck : ∀ y ∈ t₂, ∀ record, .checked d record ∉ y.events := by
    intro y hy record hchecked
    obtain ⟨u₁, u₂, rfl⟩ := List.append_of_mem hy
    have hsplit : w.config.trace = (t₁ ++ x :: u₁) ++ y :: u₂ := by simp [ht, Server.World.config]
    exact (hafter u₁).ne' (unrevoked_of_checked hreached hsplit hchecked).1
  refine ⟨⟨_, State.devices_of_record (by rw [hstatus]; decide), hstatus⟩, hcheck, ?_, ?_⟩
  · intro y hy grant hissued hsubject
    obtain ⟨u₁, u₂, hu⟩ := List.append_of_mem hy
    obtain ⟨record, z, hz, hthread, hchecked⟩ := checked_of_issued hreached hu hissued
    rw [hsubject] at hchecked
    have hmem : z ∈ t₁ ++ x :: t₂ := by
      rw [← ht, hu]
      exact List.mem_append_left _ hz
    rcases List.mem_append.mp hmem with hz | hz
    · exact ⟨record, z, hz, hthread, hchecked⟩
    · rcases List.mem_cons.mp hz with rfl | hz
      · cases hnone _ hchecked
      · exact absurd hchecked (hcheck z hz record)
  · rintro i req status hthread hsubject ⟨y, hy, hsigned⟩
    obtain ⟨record, now, ⟨z, hz, hi, hconsulted⟩, hmatches⟩ := hsound.result (.inl hthread)
    have hd : req.subjectDeviceID = d := hmatches.subject.symm.trans hsubject
    rw [hd] at hconsulted
    rw [ht] at hz
    rcases List.mem_append.mp hz with hz | hz
    · exact ⟨z, hz, hi⟩
    rcases List.mem_cons.mp hz with rfl | hz
    · cases hnone _ hconsulted
    -- the request looked after the revocation, and found a later epoch than that of the grant
    obtain ⟨u₁, u₂, rfl⟩ := List.append_of_mem hz
    have hsplit : w.config.trace = (t₁ ++ x :: u₁) ++ z :: u₂ := by simp [ht, Server.World.config]
    have hlater := epoch_of_consulted hreached hsplit hconsulted (hafter u₁) hbound
    have hle : record.revocationEpoch ≤ 0 := by
      rw [← epoch_of_signed hreached hy hsigned]
      exact hmatches.epoch
    exact absurd hlater (UInt64.not_lt.mpr hle)

/-- A device that was granted something is revoked. -/
theorem revoked_for_good_after_grant : ∃ (w : World) (t₁ t₂ : Trace) (x : Entry Env Event),
    (server .transparent exampleConfig Server.always).Reachable w ∧ w.trace = t₁ ++ x :: t₂ ∧
      .revokedDevice (lit "a") ∈ x.events ∧
      (∃ y ∈ t₁, ∃ grant, .issued grant ∈ y.events ∧ grant.subjectDeviceID = lit "a") ∧
      ∃ record, w.state.devices (lit "a") = some record ∧ record.status = .revoked := by
  obtain ⟨w, hw, ⟨x, hx, hrevoked⟩, ⟨y, hy, v, hv, grant, hgrant, hsubject⟩, hbound⟩ :
      ∃ w ∈ authorizing Server.always [] (serves 2 (.revokeDevice noHeaders (lit "a") []) 3),
        (∃ x ∈ w.trace.getLast?, .revokedDevice (lit "a") ∈ x.events) ∧
        (∃ y ∈ w.trace.dropLast, ∃ v ∈ y.events, ∃ grant ∈ v.entered,
          grant.subjectDeviceID = lit "a") ∧ revocations (lit "a") w.trace < 2 ^ 64 := by
    decide +kernel
  obtain rfl := Event.eq_of_entered hgrant
  obtain ⟨t₁, ht⟩ := List.getLast?_eq_some_iff.mp hx
  rw [ht, List.dropLast_concat] at hy
  have hreachable := reachable_of_authorizing hw
  exact ⟨w, t₁, [], x, hreachable, ht, hrevoked, ⟨y, hy, grant, hv, hsubject⟩,
    (revoked_for_good rfl hreachable ht hrevoked hbound).1⟩

/-! ### The key a device is listed with -/

/-- The record a device is authorized with, if the event says so. -/
def Event.checkedRecord (d : Str) : Event → Option DeviceRecord
  | .checked d' record => if d' = d then some record else none
  | _ => none

/-- **The record of a device when `authorizeDevice` last ran for it.** -/
def lastChecked (d : Str) (t : Trace) : Option DeviceRecord :=
  (t.flatMap Entry.events).reverse.findSome? (Event.checkedRecord d)

theorem lastChecked_snoc (d : Str) (t : Trace) (x : Entry Env Event) :
    lastChecked d (t ++ [x]) =
      (x.events.reverse.findSome? (Event.checkedRecord d)).or (lastChecked d t) := by
  rw [lastChecked, List.flatMap_append, List.flatMap_singleton, List.reverse_append,
    List.findSome?_append]
  rfl

/-- **The condition under which keys are kept**: what is submitted for a device that is
authorized has the key on record. -/
def KeepsKey (c : Snapshot) (x : Entry Env Event) : Prop :=
  ∀ id, .submitted id ∈ x.events → ∀ record, c.state.devices id.deviceID = some record →
    record.status = .authorized → id.publicKey = record.identity.publicKey

/-- **The directory lists the authorized keys**: the key `deviceStatus` reports for an
authorized device is the one it had when it was last authorized. -/
def ListsAuthorized (cfg : Config) (w : World) : Prop :=
  ∀ e d domainID response,
    (deviceStatus cfg d domainID).answer e w.state =
      some (.ok (.json 200 (.deviceStatus response))) →
    response.status = .authorized →
    ∃ record, lastChecked d w.trace = some record ∧
      response.publicKey = record.identity.publicKey

/-- What a status request is answered. -/
theorem deviceStatus_answer (hrepo : cfg.repo = false) (e : Env) (s : State) (d domainID : Str) :
    (deviceStatus cfg d domainID).answer e s = some (match s.devices d with
      | none => .error (writeError 404 (.new .trustInvalid (lit "device not found")))
      | some record => if domainScopeMismatch cfg domainID then
          .error (writeError 404 (.new .trustInvalid (lit "device not found")))
        else .ok (.json 200 (.deviceStatus record.statusResponse))) := by
  simp only [deviceStatus, Handler.answer, Handler.look, hrepo, Handler.atomic_bind,
    Handler.done_bind, Handler.play, Bool.false_eq_true, and_false, if_false, if_true,
    Handler.pure_eq]
  cases s.devices d with
  | none => rfl
  | some record =>
    simp only [Handler.stopIf]
    split_ifs <;> rfl

/-- The records of authorized devices have the keys these were authorized with. -/
def Listed (c : Snapshot) : Prop :=
  ∀ d record, c.state.devices d = some record → record.status = .authorized →
    ∃ record', lastChecked d c.trace = some record' ∧
      record.identity.publicKey = record'.identity.publicKey

theorem listsAuthorized_iff (hrepo : cfg.repo = false) {w : World} :
    ListsAuthorized cfg w ↔ Listed w.config := by
  constructor
  · intro h d record hrecord hstatus
    refine h exampleEnv d [] record.statusResponse ?_ hstatus
    have hdevice : w.state.devices d = some record := hrecord
    rw [deviceStatus_answer hrepo, hdevice]
    rfl
  · intro h e d domainID response hanswer hstatus
    rw [deviceStatus_answer hrepo, Option.some.injEq] at hanswer
    split at hanswer
    · cases hanswer
    · next record hrecord =>
      split_ifs at hanswer
      cases hanswer
      exact h d record hrecord hstatus

theorem lastChecked_of_none {d : Str} (h : ∀ record, .checked d record ∉ x.events) (t : Trace) :
    lastChecked d (t ++ [x]) = lastChecked d t := by
  rw [lastChecked_snoc, List.findSome?_eq_none_iff.mpr, Option.none_or]
  intro v hv
  cases v with
  | checked d' record =>
    refine if_neg fun hd => h record ?_
    rw [← hd]
    exact List.mem_reverse.mp hv
  | _ => rfl

theorem DeviceRecord.submit_identity (record : DeviceRecord) (id : DeviceIdentity) :
    (record.submit id).identity = id := by
  rw [submit]
  split_ifs <;> rfl

theorem DeviceRecord.authorized_of_submit {record : DeviceRecord} {id : DeviceIdentity}
    (h : (record.submit id).status = .authorized) : record.status = .authorized := by
  rw [submit] at h
  split_ifs at h
  exact h

/-- A section that keeps the keys leaves authorized devices those they were authorized with. -/
theorem Listed.step (hc : Listed c) (h : Effect P c x s) (hkeep : KeepsKey c x) :
    Listed ⟨s, c.trace ++ [x]⟩ := by
  intro d record hrecord hstatus
  rcases h.devices with ⟨hdev, -, hno, -⟩ | ⟨id, hx, hdev⟩ | ⟨d', old, hold, -, hx, hdev⟩ |
    ⟨d', hx, hdev⟩ <;> simp only [hdev] at hrecord
  · rw [lastChecked_of_none (hno d)]
    exact hc d record hrecord hstatus
  · rw [lastChecked_of_none (by simp [hx])]
    rcases eq_or_ne d id.deviceID with rfl | hd
    · rw [Map.set_self, Option.some.injEq] at hrecord
      subst hrecord
      have hold := DeviceRecord.authorized_of_submit hstatus
      have hsome := State.devices_of_record (s := c.state) (d := id.deviceID) (by rw [hold]; decide)
      obtain ⟨record', hlast, hkey⟩ := hc id.deviceID _ hsome hold
      refine ⟨record', hlast, ?_⟩
      rw [DeviceRecord.submit_identity, ← hkey]
      exact hkeep id (by simp [hx]) _ hsome hold
    · rw [Map.set_of_ne _ hd] at hrecord
      exact hc d record hrecord hstatus
  · rw [lastChecked_snoc, hx]
    rcases eq_or_ne d d' with rfl | hd
    · rw [Map.set_self, Option.some.injEq] at hrecord
      subst hrecord
      exact ⟨old.authorize, by simp [Event.checkedRecord], rfl⟩
    · rw [Map.set_of_ne _ hd] at hrecord
      obtain ⟨record', hlast, hkey⟩ := hc d record hrecord hstatus
      exact ⟨record', by simp [Event.checkedRecord, Ne.symm hd, hlast], hkey⟩
  · rw [lastChecked_of_none (by simp [hx])]
    rcases eq_or_ne d d' with rfl | hd
    · rw [Map.set_self, Option.some.injEq] at hrecord
      subst hrecord
      cases hstatus
    · rw [Map.set_of_ne _ hd] at hrecord
      exact hc d record hrecord hstatus

theorem listed (h : Reached P cfg KeepsKey c) : Listed c := by
  refine h.invariant (fun c hc => ?_) fun c x c' _ hlisted hstep => ?_
  · obtain ⟨hinit, -⟩ := hc
    obtain ⟨signer, key, db, -, -, -, hs⟩ := initial_cases hinit
    intro d record hrecord
    rw [hs] at hrecord
    cases hrecord
  · obtain ⟨hkeep, htrace, heffect⟩ := hstep
    have hnext := hlisted.step heffect hkeep
    rwa [← htrace] at hnext

/-- A submission with another key gives an authorized device one it was not authorized with. -/
theorem not_listed_of_replaced (hc : Listed c) (h : Effect P c x s) (hkeep : ¬KeepsKey c x) :
    ¬Listed ⟨s, c.trace ++ [x]⟩ := by
  simp only [KeepsKey, not_forall] at hkeep
  obtain ⟨id, hid, record, hrecord, hstatus, hkey⟩ := hkeep
  rcases h.devices with ⟨-, -, -, hno⟩ | ⟨id', hx, hdev⟩ | ⟨d', old, -, -, hx, -⟩ | ⟨d', hx, -⟩
  · exact absurd hid (hno id)
  · obtain rfl : id = id' := by simpa [hx] using hid
    intro hlisted
    obtain ⟨old, hold, holdkey⟩ := hc id.deviceID record hrecord hstatus
    obtain ⟨new, hnew, hnewkey⟩ := hlisted id.deviceID (record.submit id) (by
      show s.devices id.deviceID = _
      rw [hdev, Map.set_self, State.record_of_some hrecord]) (by
      rw [DeviceRecord.submit_status id (by rw [hstatus]; decide), hstatus])
    rw [lastChecked_of_none (by simp [hx]), hold, Option.some.injEq] at hnew
    rw [DeviceRecord.submit_identity] at hnewkey
    exact hkey (hnewkey.trans (hnew ▸ holdkey.symm))
  · simp [hx] at hid
  · simp [hx] at hid

/-- **The directory lists the authorized keys as long as nobody submits another for an
authorized device**, and no longer. -/
theorem lists_authorized_while_kept (hrepo : cfg.repo = false) :
    (∀ w, (server P cfg KeepsKey).Reachable w → ListsAuthorized cfg w) ∧
    ∀ w a w' x, (server P cfg KeepsKey).Reachable w → (server P cfg Server.always).step w a w' →
      w.entry a = some x → ¬KeepsKey w.config x → ¬ListsAuthorized cfg w' := by
  constructor
  · intro w hw
    exact (listsAuthorized_iff hrepo).mpr (listed (sound hrepo hw).reachable)
  · intro w a w' x hw hstep hentry hkeep
    have hsound := sound hrepo hw
    rw [listsAuthorized_iff hrepo]
    rcases Server.World.next_cases hstep.2 with ⟨i, req, rfl, -, -⟩ |
      ⟨i, e, req, enabled, update, events, next, rfl, hthread, hen, rfl⟩
    · cases hentry
    · simp only [Server.World.entry, hthread, Option.some.injEq] at hentry
      subst hentry
      have heffect := ((hsound.safe i req _ hthread).step e hen).1
      exact not_listed_of_replaced (listed hsound.reachable) heffect hkeep

/-- The identity that is submitted. -/
def Event.submits : Event → Option DeviceIdentity
  | .submitted id => some id
  | _ => none

theorem Event.eq_of_submits {v : Event} {id : DeviceIdentity} (h : v.submits = some id) :
    v = .submitted id := by
  unfold Event.submits at h
  split at h <;> simp_all

instance (c : Snapshot) (x : Entry Env Event) : Decidable (KeepsKey c x) :=
  decidable_of_iff (∀ v ∈ x.events, ∀ id ∈ v.submits, ∀ record ∈ c.state.devices id.deviceID,
    record.status = .authorized → id.publicKey = record.identity.publicKey) ⟨
      fun h id hid => h _ hid id rfl, fun h _ hv id hid => h id (Event.eq_of_submits hid ▸ hv)⟩

/-- A device is authorized, and submits its key again; it is still listed with this key. -/
theorem lists_authorized_while_kept_once : ∃ w id record,
    (server .transparent exampleConfig KeepsKey).Reachable w ∧ Did w.trace 2 (.submitted id) ∧
      w.state.devices (lit "a") = some record ∧ record.identity = id ∧
      record.status = .authorized ∧ ListsAuthorized exampleConfig w := by
  obtain ⟨req, -, w, hw, ⟨x, hx, hthread, v, hv, hsubmits⟩, record, hrecord, hidentity, hstatus⟩ :
      ∃ req ∈ submission (lit "a") "2" 1,
        ∃ w ∈ authorizing KeepsKey [] (serves 2 (.submitDevice req) 3),
          (∃ x ∈ w.trace, x.thread = 2 ∧ ∃ v ∈ x.events, v.submits = some req.identity) ∧
          ∃ record ∈ w.state.devices (lit "a"), record.identity = req.identity ∧
            record.status = .authorized := by
    decide +kernel
  obtain rfl := Event.eq_of_submits hsubmits
  have hreachable := reachable_of_authorizing hw
  exact ⟨w, _, record, hreachable, ⟨x, hx, hthread, hv⟩, hrecord, hidentity, hstatus,
    (lists_authorized_while_kept rfl).1 w hreachable⟩

/-- **The key of an authorized device is replaced**: somebody with another key submits an
identity with the same name. -/
theorem authorized_key_replaced : ∃ w e response record,
    (server .transparent exampleConfig Server.always).Reachable w ∧
      (deviceStatus exampleConfig (lit "a") []).answer e w.state =
        some (.ok (.json 200 (.deviceStatus response))) ∧
      response.status = .authorized ∧ lastChecked (lit "a") w.trace = some record ∧
      response.publicKey ≠ record.identity.publicKey := by
  obtain ⟨req, -, w, hw, new, hnew, hstatus, record, hrecord, hkey⟩ :
      ∃ req ∈ submission (lit "a") "2" 2,
        ∃ w ∈ authorizing Server.always [] (serves 2 (.submitDevice req) 3),
        ∃ new ∈ w.state.devices (lit "a"), new.status = .authorized ∧
          ∃ record ∈ lastChecked (lit "a") w.trace,
            new.identity.publicKey ≠ record.identity.publicKey := by
    decide +kernel
  refine ⟨w, exampleEnv, new.statusResponse, record, reachable_of_authorizing hw, ?_, hstatus,
    hrecord, hkey⟩
  rw [deviceStatus_answer rfl, show w.state.devices (lit "a") = some new from hnew]
  rfl

end TrustRoot

end Iscp
