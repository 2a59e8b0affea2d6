import Iscp.TrustRoot.Alone
import Iscp.TrustRoot.Requests

/-!
# The Trust Root across restarts

A Trust Root with a database writes every record twice, to memory and to a row, and `deviceStatus`
looks in memory first. When the process is started anew the memory is empty and the rows are
still there. `authorizeDevice` then takes up the row; `submitDevice` and `revokeDevice` do not,
and start from the record of a device nobody has heard of.

Requests are served one after the other here, with restarts in between
(`Iscp.TrustRoot.lifetimes`), and no statement fails. What is reported of a device gets never
less as long as the records in memory mirror the rows (`Iscp.TrustRoot.Mirrored`), and they do
as long as no device is submitted or revoked of which there is more in the database than in
memory (`Iscp.TrustRoot.Remembered`). Otherwise a revoked device can be back to `submitted`.
-/

namespace Iscp

namespace TrustRoot

open Go Crypto Identity Keyring Service Trust

/-! ### Processes that follow each other -/

/-- What the columns of `iscp_trust.devices` admit. -/
structure TrustDevice.Checked (row : TrustDevice) : Prop where
  status : row.status ≠ .none
  version : 0 < row.deviceRecordVersion
  version_lt : row.deviceRecordVersion < 2 ^ 63
  epoch : 0 ≤ row.revocationEpoch
  epoch_lt : row.revocationEpoch < 2 ^ 63

/-- The rows are as their columns admit. -/
def Database.Checked (db : Database) : Prop := ∀ key row, db.devices key = some row → row.Checked

/-- No counter is at its last value, so a statement that counts does not fail. -/
def Database.InRange (db : Database) : Prop := ∀ key row, db.devices key = some row →
  row.deviceRecordVersion + 1 < 2 ^ 63 ∧ row.revocationEpoch + 1 < 2 ^ 63

/-- What may happen: a request is served, or the process is started anew. -/
inductive Action where
  | serve (req : Request) (answer : Answer)
  | restart

/-- **The lifetimes of a Trust Root** that share a database, without a failing statement: the
memory of the process is lost with it, the database is kept. -/
def lifetimes (P : Primitives) (cfg : Config) : System Snapshot Action where
  init := fun c => c.trace = [] ∧ ∃ db e, db.Checked ∧ new P cfg db e = .ok c.state
  step := fun c a c' => match a with
    | .serve req answer => c.state.db.InRange ∧
        ∃ i, (handle P cfg req).Serves NoSqlFailure i c answer c'
    | .restart => c'.trace = c.trace ∧ ∃ e, new P cfg c.state.db e = .ok c'.state

/-- **What is reported of a device**, if it is asked for. -/
def Reports (cfg : Config) (c : Snapshot) (d : Str) (response : DeviceStatusResponse) : Prop :=
  ∃ i domainID c', (deviceStatus cfg d domainID).Serves NoSqlFailure i c
    (.json 200 (.deviceStatus response)) c'

/-- **The condition**: a device that is submitted is one of the domain, and has its record in
memory unless its row is as a first submission leaves it; a device that is revoked has its
record in memory. -/
def Remembered (cfg : Config) (c : Snapshot) : Action → Prop
  | .serve (.submitDevice req) _ => req.identity.domainID = cfg.domainID ∧
      (c.state.devices req.identity.deviceID = none →
        ∀ row, c.state.db.devices (cfg.domainID, req.identity.deviceID) = some row →
          row.status = .submitted ∧ row.deviceRecordVersion = 1 ∧ row.revocationEpoch = 0)
  | .serve (.revokeDevice h d _) _ => adminAuthorized cfg.adminToken h = true →
      c.state.devices d ≠ none
  | _ => True

variable {P : Primitives} {cfg : Config} {i : ℕ} {c c' : Snapshot}

/-! ### Records that mirror the rows -/

/-- **One row is no less than another**: its counters are no smaller, and a revoked device is
still revoked. -/
structure TrustDevice.Le (row row' : TrustDevice) : Prop where
  version : row.deviceRecordVersion ≤ row'.deviceRecordVersion
  epoch : row.revocationEpoch ≤ row'.revocationEpoch
  revoked : row.status = .revoked → row'.status = .revoked

theorem TrustDevice.Le.refl (row : TrustDevice) : row.Le row := ⟨le_refl _, le_refl _, id⟩

theorem TrustDevice.Le.trans {a b c : TrustDevice} (h : a.Le b) (h' : b.Le c) : a.Le c :=
  ⟨h.version.trans h'.version, h.epoch.trans h'.epoch, fun hr => h'.revoked (h.revoked hr)⟩

/-- The rows of the one database are there in the other, and no less. -/
def Database.Grows (db db' : Database) : Prop :=
  ∀ key row, db.devices key = some row → ∃ row', db'.devices key = some row' ∧ row.Le row'

/-- A row as a record in memory. -/
def TrustDevice.record (row : TrustDevice) : DeviceRecord :=
  ⟨row.identity, row.status, UInt64.ofNat row.deviceRecordVersion.toNat,
    UInt64.ofNat row.revocationEpoch.toNat⟩

theorem TrustDevice.Checked.fromRepository {row : TrustDevice} (h : row.Checked) :
    deviceRecordFromRepository row = some row.record := by
  rw [deviceRecordFromRepository, if_neg]
  · rfl
  · rintro (hv | he)
    · exact absurd h.version (by omega)
    · exact absurd h.epoch (by omega)

/-- **The records in memory mirror the rows** of the domain. -/
structure Mirrored (cfg : Config) (s : State) : Prop where
  checked : s.db.Checked
  domain : ∀ d record, s.devices d = some record → cfg.domainID ≠ []
  row : ∀ d record, s.devices d = some record →
    ∃ row, s.db.devices (cfg.domainID, d) = some row ∧ record = row.record

section Mirrored

variable {s s' : State}

theorem Mirrored.found (hs : Mirrored cfg s) {d : Str} {record : DeviceRecord}
    (h : Found cfg s d record) : cfg.domainID ≠ [] ∧
      ∃ row, s.db.devices (cfg.domainID, d) = some row ∧ record = row.record := by
  rcases h with h | ⟨-, hdomain, row, hrow, hrecord⟩
  · exact ⟨hs.domain d record h, hs.row d record h⟩
  · rw [(hs.checked _ _ hrow).fromRepository] at hrecord
    exact ⟨hdomain, row, hrow, (Option.some.inj hrecord).symm⟩

/-- **A record and its row are written together.** -/
theorem Mirrored.write (hs : Mirrored cfg s) (hdomain : cfg.domainID ≠ []) {d : Str}
    {row : TrustDevice} (hchecked : row.Checked)
    (hle : ∀ row₀, s.db.devices (cfg.domainID, d) = some row₀ → row₀.Le row)
    (hdevices : s'.devices = s.devices.set d row.record)
    (hrows : s'.db.devices = Function.update s.db.devices (cfg.domainID, d) (some row)) :
    Mirrored cfg s' ∧ s.db.Grows s'.db := by
  refine ⟨⟨fun key row' h => ?_, fun _ _ _ => hdomain, fun d' record h => ?_⟩, fun key row₀ h => ?_⟩
  · rw [hrows] at h
    rcases eq_or_ne key (cfg.domainID, d) with rfl | hne
    · rw [Function.update_self] at h
      exact Option.some.inj h ▸ hchecked
    · rw [Function.update_of_ne hne] at h
      exact hs.checked key row' h
  · rw [hdevices] at h
    rw [hrows]
    rcases eq_or_ne d' d with rfl | hne
    · rw [Map.set_self] at h
      exact ⟨row, Function.update_self .., (Option.some.inj h).symm⟩
    · rw [Map.set_of_ne _ hne] at h
      rw [Function.update_of_ne fun heq => hne (Prod.mk.inj heq).2]
      exact hs.row d' record h
  · rw [hrows]
    rcases eq_or_ne key (cfg.domainID, d) with rfl | hne
    · exact ⟨row, Function.update_self .., hle row₀ h⟩
    · exact ⟨row₀, (Function.update_of_ne hne ..).trans h, .refl row₀⟩

/-- The row of a device that is authorized. -/
def TrustDevice.authorize (row : TrustDevice) : TrustDevice :=
  { row with status := .authorized, deviceRecordVersion := row.deviceRecordVersion + 1 }

/-- The row of a device that is revoked. -/
def TrustDevice.revoke (row : TrustDevice) : TrustDevice :=
  { row with
    status := .revoked
    deviceRecordVersion := row.deviceRecordVersion + 1
    revocationEpoch := row.revocationEpoch + 1 }

theorem ofNat_toNat_succ {n : ℤ} (hn : 0 ≤ n) :
    UInt64.ofNat (n + 1).toNat = UInt64.ofNat n.toNat + 1 := by
  rw [Int.toNat_add hn (by decide), UInt64.ofNat_add]
  rfl

theorem checked_first (id : DeviceIdentity) : TrustDevice.Checked ⟨id, .submitted, 1, 0⟩ :=
  ⟨Status.noConfusion, Int.one_pos, by norm_num, le_refl _, by norm_num⟩

theorem TrustDevice.Checked.authorize {row : TrustDevice} (h : row.Checked)
    (hrange : row.deviceRecordVersion + 1 < 2 ^ 63) : row.authorize.Checked :=
  ⟨Status.noConfusion, h.version.trans (Int.lt_succ _), hrange, h.epoch, h.epoch_lt⟩

theorem TrustDevice.Checked.revoke {row : TrustDevice} (h : row.Checked)
    (hversion : row.deviceRecordVersion + 1 < 2 ^ 63) (hepoch : row.revocationEpoch + 1 < 2 ^ 63) :
    row.revoke.Checked :=
  ⟨Status.noConfusion, h.version.trans (Int.lt_succ _), hversion,
    h.epoch.trans (Int.lt_succ _).le, hepoch⟩

theorem TrustDevice.Checked.record_authorize {row : TrustDevice} (h : row.Checked) :
    row.authorize.record = row.record.authorize := by
  simp only [TrustDevice.authorize, record, DeviceRecord.authorize, ofNat_toNat_succ h.version.le]

theorem TrustDevice.Checked.record_revoke {row : TrustDevice} (h : row.Checked) :
    row.revoke.record = row.record.revoke := by
  simp only [TrustDevice.revoke, record, DeviceRecord.revoke, ofNat_toNat_succ h.version.le,
    ofNat_toNat_succ h.epoch]

theorem bigint_eq_ok {n : ℤ} (h₀ : 0 ≤ n) (h : n < 2 ^ 63) : bigint n = .ok n := by
  rw [bigint, failIf, if_neg (by omega)]
  rfl

theorem Database.authorizeDevice_eq_ok {db : Database} {domainID d : Str} {row : TrustDevice}
    (hrow : db.devices (domainID, d) = some row) (hchecked : row.Checked)
    (hstatus : row.status ≠ .revoked) (hrange : row.deviceRecordVersion + 1 < 2 ^ 63) :
    db.authorizeDevice domainID d = .ok ({ db with
      devices := Function.update db.devices (domainID, d) (some row.authorize) },
        row.authorize) := by
  have hversion := bigint_eq_ok (by have := hchecked.version; omega) hrange
  simp only [authorizeDevice, hrow, failIf, if_neg hstatus, hversion]
  rfl

theorem Database.revokeDevice_eq_ok {db : Database} {domainID d : Str} {row : TrustDevice}
    (hrow : db.devices (domainID, d) = some row) (hchecked : row.Checked)
    (hversion : row.deviceRecordVersion + 1 < 2 ^ 63) (hepoch : row.revocationEpoch + 1 < 2 ^ 63) :
    db.revokeDevice domainID d = .ok { db with
      devices := Function.update db.devices (domainID, d) (some row.revoke) } := by
  have hv := bigint_eq_ok (by have := hchecked.version; omega) hversion
  have he := bigint_eq_ok (by have := hchecked.epoch; omega) hepoch
  simp only [revokeDevice, hrow, hv, he]
  rfl

theorem Wrote.of_ok {x : Except Error Database} {db db' r : Database} (h : Wrote cfg x db db')
    (hdomain : cfg.domainID ≠ []) (hx : x = .ok r) : db'.devices = r.devices := by
  rcases h with ⟨r', hr', hdb⟩ | ⟨hnone | ⟨err, herr⟩, -⟩
  · rw [hdb, Except.ok.inj (hx.symm.trans hr')]
  · exact absurd hnone hdomain
  · rw [hx] at herr
    cases herr

/-- **A change that meets the condition keeps the mirror**, and no row gets less. -/
theorem Change.mirrored {req : Request} {answer : Answer} (h : Change cfg c.state req s')
    (hs : Mirrored cfg c.state) (hrange : c.state.db.InRange)
    (hC : Remembered cfg c (.serve req answer)) :
    Mirrored cfg s' ∧ c.state.db.Grows s'.db := by
  cases h with
  | keep hdevices hrows =>
    refine ⟨⟨fun key row h => ?_, fun d record h => ?_, fun d record h => ?_⟩, fun key row h => ?_⟩
    · exact hs.checked key row (hrows ▸ h)
    · exact hs.domain d record (hdevices ▸ h)
    · rw [hrows]
      exact hs.row d record (hdevices ▸ h)
    · exact ⟨row, hrows ▸ h, .refl row⟩
  | @submit req _ hdomain hdevices hrows =>
    obtain ⟨hid, hfirst⟩ := hC
    rw [hid] at hdomain
    rw [Database.submitDevice, hid] at hrows
    cases hrow : c.state.db.devices (cfg.domainID, req.identity.deviceID) with
    | none =>
      -- nobody has heard of the device
      rw [hrow] at hrows
      have hrecord : c.state.devices req.identity.deviceID = none := by
        by_contra hne
        obtain ⟨record, hrecord⟩ := Option.ne_none_iff_exists'.mp hne
        obtain ⟨row, hrow', -⟩ := hs.row _ record hrecord
        rw [hrow] at hrow'
        cases hrow'
      refine hs.write hdomain (checked_first req.identity) (fun row₀ h₀ => ?_) ?_ hrows
      · rw [hrow] at h₀
        cases h₀
      · rw [hdevices, State.record, hrecord]
        rfl
    | some row =>
      rw [hrow] at hrows
      have hchecked := hs.checked _ _ hrow
      have hchecked' : TrustDevice.Checked { row with identity := req.identity } :=
        ⟨hchecked.status, hchecked.version, hchecked.version_lt, hchecked.epoch, hchecked.epoch_lt⟩
      refine hs.write hdomain hchecked' (fun row₀ h₀ => ?_) ?_ hrows
      · obtain rfl := Option.some.inj (hrow.symm.trans h₀)
        exact ⟨le_refl _, le_refl _, id⟩
      · rw [hdevices]
        congr 1
        cases hrecord : c.state.devices req.identity.deviceID with
        | none =>
          obtain ⟨hstatus, hversion, hepoch⟩ := hfirst hrecord row hrow
          simp only [State.record, hrecord, TrustDevice.record, hstatus, hversion, hepoch]
          rfl
        | some record =>
          obtain ⟨row', hrow', rfl⟩ := hs.row _ record hrecord
          obtain rfl := Option.some.inj (hrow.symm.trans hrow')
          have hstatus : row.record.status ≠ .none := hchecked.status
          rw [State.record, hrecord, Option.getD_some, DeviceRecord.submit, if_neg hstatus]
          rfl
  | @authorize _ req _ record hfound hstatus hdevices hrows =>
    obtain ⟨hdomain, row, hrow, rfl⟩ := hs.found hfound
    have hchecked := hs.checked _ _ hrow
    have hversion := (hrange _ _ hrow).1
    have hok := Database.authorizeDevice_eq_ok hrow hchecked hstatus hversion
    have hrows' := hrows.of_ok hdomain (by rw [hok]; rfl)
    rw [← hchecked.record_authorize] at hdevices
    refine hs.write hdomain (hchecked.authorize hversion) (fun row₀ h₀ => ?_) hdevices hrows'
    obtain rfl := Option.some.inj (hrow.symm.trans h₀)
    exact ⟨(Int.lt_succ _).le, le_refl _, fun hr => absurd hr hstatus⟩
  | @revoke h d reason _ hadmin hdevices hrows =>
    obtain ⟨record, hrecord⟩ := Option.ne_none_iff_exists'.mp (hC hadmin)
    obtain ⟨row, hrow, rfl⟩ := hs.row d record hrecord
    have hdomain := hs.domain d _ hrecord
    have hchecked := hs.checked _ _ hrow
    obtain ⟨hversion, hepoch⟩ := hrange _ _ hrow
    have hrows' := hrows.of_ok hdomain (Database.revokeDevice_eq_ok hrow hchecked hversion hepoch)
    rw [State.record, hrecord, Option.getD_some, ← hchecked.record_revoke] at hdevices
    refine hs.write hdomain (hchecked.revoke hversion hepoch) (fun row₀ h₀ => ?_) hdevices hrows'
    obtain rfl := Option.some.inj (hrow.symm.trans h₀)
    exact ⟨(Int.lt_succ _).le, (Int.lt_succ _).le, fun _ => rfl⟩

end Mirrored

/-! ### What is reported -/

theorem new_eq_ok {db : Database} {e : Env} {s : State} (h : new P cfg db e = .ok s) :
    s.devices = (fun _ => none) ∧ s.db = db := by
  simp only [new, bind_eq_ok_iff] at h
  obtain ⟨_, -, _, -, _, -, ⟨⟩⟩ := h
  exact ⟨rfl, rfl⟩

theorem mirrored_new {db : Database} (hdb : db.Checked) {e : Env} {s : State}
    (h : new P cfg db e = .ok s) : Mirrored cfg s := by
  obtain ⟨hdevices, rfl⟩ := new_eq_ok h
  refine ⟨hdb, fun d record h => ?_, fun d record h => ?_⟩
  · rw [hdevices] at h
    cases h
  · rw [hdevices] at h
    cases h

theorem lifetimes_step (hrepo : cfg.repo = true) {a : Action}
    (h : ((lifetimes P cfg).restrict (Remembered cfg)).step c a c') (hc : Mirrored cfg c.state) :
    Mirrored cfg c'.state ∧ c.state.db.Grows c'.state.db := by
  obtain ⟨hC, hstep⟩ := h
  cases a with
  | serve req answer =>
    obtain ⟨hrange, i, hserves⟩ := hstep
    exact ((handle_alone hrepo req).answer hserves).mirrored hc hrange hC
  | restart =>
    obtain ⟨-, e, hnew⟩ := hstep
    refine ⟨mirrored_new hc.checked hnew, fun key row h => ⟨row, ?_, .refl row⟩⟩
    rwa [(new_eq_ok hnew).2]

theorem mirrored_of_reachable (hrepo : cfg.repo = true)
    (h : ((lifetimes P cfg).restrict (Remembered cfg)).Reachable c) : Mirrored cfg c.state :=
  h.invariant (fun _ ⟨_, _, _, hdb, hnew⟩ => mirrored_new hdb hnew)
    fun _ _ _ _ hc hstep => (lifetimes_step hrepo hstep hc).1

/-- **What is reported is the row.** -/
theorem Reports.row (hrepo : cfg.repo = true) (hc : Mirrored cfg c.state) {d : Str}
    {response : DeviceStatusResponse} (h : Reports cfg c d response) :
    ∃ row, c.state.db.devices (cfg.domainID, d) = some row ∧
      response = row.record.statusResponse := by
  obtain ⟨i, domainID, c', hserves⟩ := h
  have hanswer := ((deviceStatus_alone hrepo d domainID).mono (fun _ _ h => Or.inl h.2)
    fun _ _ h => Or.inr h.2).answer hserves
  rcases hanswer with ⟨record, heq, hfound⟩ | ⟨status, err, heq⟩
  · obtain ⟨-, row, hrow, rfl⟩ := hc.found hfound
    cases heq
    exact ⟨row, hrow, rfl⟩
  · cases heq

theorem ofNat_toNat_le {m n : ℤ} (hmn : m ≤ n) (hn : n < 2 ^ 63) :
    UInt64.ofNat m.toNat ≤ UInt64.ofNat n.toNat := by
  rw [UInt64.le_iff_toNat_le, UInt64.toNat_ofNat_of_lt' (by simp [UInt64.size]; omega),
    UInt64.toNat_ofNat_of_lt' (by simp [UInt64.size]; omega)]
  omega

/-- **What is reported of a device gets never less**, across requests and restarts: neither the
version of its record nor its epoch, and once it is revoked it stays revoked. -/
theorem reports_monotone (hrepo : cfg.repo = true)
    (hc : ((lifetimes P cfg).restrict (Remembered cfg)).Reachable c)
    (hleads : ((lifetimes P cfg).restrict (Remembered cfg)).Leads c c') {d : Str}
    {response response' : DeviceStatusResponse} (h : Reports cfg c d response)
    (h' : Reports cfg c' d response') :
    response.deviceRecordVersion ≤ response'.deviceRecordVersion ∧
      response.revocationEpoch ≤ response'.revocationEpoch ∧
      (response.status = .revoked → response'.status = .revoked) := by
  have hmirror := mirrored_of_reachable hrepo hc
  have hmirror' := mirrored_of_reachable hrepo (hleads.reachable hc)
  obtain ⟨row, hrow, rfl⟩ := h.row hrepo hmirror
  obtain ⟨row', hrow', rfl⟩ := h'.row hrepo hmirror'
  -- the row there was is still there, and no less
  have hgrows : ∃ row', c'.state.db.devices (cfg.domainID, d) = some row' ∧ row.Le row' := by
    refine hleads.stable (Q := fun c₁ => ∃ row₁, c₁.state.db.devices (cfg.domainID, d) = some row₁ ∧
      row.Le row₁) (fun c₁ a c₂ hc₁ ⟨row₁, hrow₁, hle⟩ hstep => ?_) hc ⟨row, hrow, .refl row⟩
    obtain ⟨row₂, hrow₂, hle'⟩ :=
      (lifetimes_step hrepo hstep (mirrored_of_reachable hrepo hc₁)).2 _ _ hrow₁
    exact ⟨row₂, hrow₂, hle.trans hle'⟩
  obtain ⟨_, hrow₂, hle⟩ := hgrows
  obtain rfl := Option.some.inj (hrow'.symm.trans hrow₂)
  have hchecked := hmirror'.checked _ _ hrow'
  exact ⟨ofNat_toNat_le hle.version hchecked.version_lt, ofNat_toNat_le hle.epoch hchecked.epoch_lt,
    hle.revoked⟩

/-! ### A device that is revoked and comes back -/

/-- No counter of a row has come further than this. -/
def Database.CountedTo (db : Database) (n : ℤ) : Prop := ∀ key row, db.devices key = some row →
  row.deviceRecordVersion ≤ n ∧ row.revocationEpoch ≤ n

theorem Database.CountedTo.inRange {db : Database} {n : ℤ} (h : db.CountedTo n)
    (hn : n + 1 < 2 ^ 63) : db.InRange := fun key row hrow => by
  have := h key row hrow
  omega

theorem Database.CountedTo.update {db db' : Database} {n : ℤ} (h : db.CountedTo n)
    {key : Str × Str} {row : TrustDevice}
    (hdb' : db'.devices = Function.update db.devices key (some row))
    (hrow : row.deviceRecordVersion ≤ n + 1 ∧ row.revocationEpoch ≤ n + 1) :
    db'.CountedTo (n + 1) := by
  intro key' row' hrow'
  rw [hdb', Function.update_apply] at hrow'
  split_ifs at hrow' with hkey
  · cases hrow'
    exact hrow
  · have := h key' row' hrow'
    omega

theorem bigint_eq {m n : ℤ} (h : bigint m = .ok n) : n = m := by
  simp only [bigint, bind_eq_ok_iff] at h
  obtain ⟨-, -, ⟨⟩⟩ := h
  rfl

/-- **A request counts by one at most.** -/
theorem Change.countedTo {s s' : State} {req : Request} {n : ℤ} (h : Change cfg s req s')
    (hn : 0 ≤ n) (hs : s.db.CountedTo n) : s'.db.CountedTo (n + 1) := by
  have hkeep : s'.db.devices = s.db.devices → s'.db.CountedTo (n + 1) := by
    intro hrows key row hrow
    have := hs key row (hrows ▸ hrow)
    omega
  cases h with
  | keep _ hrows => exact hkeep hrows
  | @submit req _ _ _ hrows =>
    refine hs.update hrows ?_
    cases hrow : s.db.devices (req.identity.domainID, req.identity.deviceID) with
    | none =>
      simp only
      omega
    | some row =>
      have := hs _ row hrow
      simp only
      omega
  | @authorize _ req _ _ _ _ _ hrows =>
    rcases hrows with ⟨r, hr, hrows⟩ | ⟨-, hrows⟩
    · cases hrow : s.db.devices (cfg.domainID, req.deviceID) with
      | none =>
        simp only [Database.authorizeDevice, hrow] at hr
        cases hr
      | some row =>
        simp only [Database.authorizeDevice, hrow, map_eq_ok_iff, bind_eq_ok_iff] at hr
        obtain ⟨_, ⟨-, -, version, hversion, ⟨⟩⟩, rfl⟩ := hr
        have := hs _ row hrow
        refine hs.update hrows ?_
        simp only [bigint_eq hversion]
        omega
    · exact hkeep hrows
  | @revoke _ d _ _ _ _ hrows =>
    rcases hrows with ⟨r, hr, hrows⟩ | ⟨-, hrows⟩
    · cases hrow : s.db.devices (cfg.domainID, d) with
      | none =>
        simp only [Database.revokeDevice, hrow, Except.ok.injEq] at hr
        exact hkeep (hr ▸ hrows)
      | some row =>
        simp only [Database.revokeDevice, hrow, bind_eq_ok_iff] at hr
        obtain ⟨version, hversion, epoch, hepoch, ⟨⟩⟩ := hr
        have := hs _ row hrow
        refine hs.update hrows ?_
        simp only [bigint_eq hversion, bigint_eq hepoch]
        omega
    · exact hkeep hrows

/-- A request is served by a process with a database. -/
def serving (i : ℕ) (req : Request) (c : Snapshot) : Option (Snapshot × Except Answer Answer) :=
  ((handle .transparent databaseConfig req).play i exampleEnv c).filter fun r =>
    ∀ y ∈ r.1.trace, y.env.sqlFails = false

theorem serves_of_serving {req : Request} {r : Snapshot × Except Answer Answer}
    (h : serving i req c = some r) :
    (handle .transparent databaseConfig req).Serves NoSqlFailure i c (Handler.reply r.2) r.1 := by
  obtain ⟨hplay, hfails⟩ := Option.filter_eq_some_iff.mp h
  exact Handler.serves_of_play hplay fun _ y _ hy =>
    of_decide_eq_true hfails y (hy.subset (by simp))

theorem step_of_serving {req : Request} {r : Snapshot × Except Answer Answer} {n : ℤ} (hn : 0 ≤ n)
    (hlt : n + 1 < 2 ^ 63) (hc : c.state.db.CountedTo n) (h : serving i req c = some r) :
    (lifetimes .transparent databaseConfig).step c (.serve req (Handler.reply r.2)) r.1 ∧
      r.1.state.db.CountedTo (n + 1) :=
  have hserves := serves_of_serving h
  ⟨⟨hc.inRange hlt, i, hserves⟩, ((handle_alone rfl req).answer hserves).countedTo hn hc⟩

/-- What is reported of a device, as it is evaluated. -/
def reported (c : Snapshot) (d : Str) : Option DeviceStatusResponse :=
  match serving 0 (.deviceStatus d []) c with
  | some (_, .ok (.json 200 (.deviceStatus response))) => some response
  | _ => none

theorem reports_of_reported {d : Str} {response : DeviceStatusResponse}
    (h : reported c d = some response) : Reports databaseConfig c d response := by
  unfold reported at h
  split at h
  · next c' response' hserving =>
    cases h
    exact ⟨0, [], c', serves_of_serving hserving⟩
  · cases h

/-- A process is started with a database. -/
def starting (db : Database) : Option State :=
  (new .transparent databaseConfig db exampleEnv).toOption

theorem countedTo_of_starting {s : State} (h : starting emptyDatabase = some s) :
    s.db.CountedTo 0 := by
  rw [(new_eq_ok (toOption_eq_some_iff.mp h)).2]
  exact nofun

set_option synthInstance.maxSize 512 in
/-- A device is reported as submitted, and after it is revoked as revoked; the process is started
anew, and the device is reported as its row has it. -/
theorem reports_monotone_example : ∃ c₁ c₂ c₃ response₁ response₂ response₃,
    ((lifetimes .transparent databaseConfig).restrict (Remembered databaseConfig)).Reachable c₁ ∧
    ((lifetimes .transparent databaseConfig).restrict (Remembered databaseConfig)).Leads c₁ c₂ ∧
    ((lifetimes .transparent databaseConfig).restrict
      (Remembered databaseConfig)).step c₂ .restart c₃ ∧
    Reports databaseConfig c₁ (lit "a") response₁ ∧ Reports databaseConfig c₂ (lit "a") response₂ ∧
    Reports databaseConfig c₃ (lit "a") response₃ ∧ c₃.state.devices (lit "a") = none ∧
    response₁.status = .submitted ∧ response₂.status = .revoked ∧ response₃.status = .revoked ∧
    (response₁.deviceRecordVersion ≤ response₃.deviceRecordVersion ∧
      response₁.revocationEpoch ≤ response₃.revocationEpoch) ∧
    response₂.deviceRecordVersion ≤ response₃.deviceRecordVersion ∧
    response₂.revocationEpoch ≤ response₃.revocationEpoch := by
  obtain ⟨s, hs, req, -, r₁, h₁, r₂, h₂, s', hs', ⟨hdomain, hnone⟩, hknown, hforgotten,
      response₁, hr₁, hstatus₁, response₂, hr₂, hstatus₂, response₃, hr₃⟩ :
      ∃ s ∈ starting emptyDatabase, ∃ req ∈ submission (lit "a") "1" 1,
      ∃ r₁ ∈ serving 0 (.submitDevice req) ⟨s, []⟩,
      ∃ r₂ ∈ serving 1 (.revokeDevice noHeaders (lit "a") (lit "lost")) r₁.1,
      ∃ s' ∈ starting r₂.1.state.db,
      (req.identity.domainID = lit "lab" ∧
        s.db.devices (lit "lab", req.identity.deviceID) = none) ∧
      r₁.1.state.devices (lit "a") ≠ none ∧ s'.devices (lit "a") = none ∧
      ∃ response₁ ∈ reported r₁.1 (lit "a"), response₁.status = .submitted ∧
      ∃ response₂ ∈ reported r₂.1 (lit "a"), response₂.status = .revoked ∧
      ∃ response₃ ∈ reported ⟨s', r₂.1.trace⟩ (lit "a"), True := by
    decide +kernel
  have hinit : ((lifetimes .transparent databaseConfig).restrict
      (Remembered databaseConfig)).Reachable ⟨s, []⟩ :=
    .init ⟨rfl, emptyDatabase, exampleEnv, nofun, toOption_eq_some_iff.mp hs⟩
  obtain ⟨hstep₁, hcounted₁⟩ := step_of_serving le_rfl (by norm_num) (countedTo_of_starting hs) h₁
  obtain ⟨hstep₂, -⟩ := step_of_serving (by norm_num) (by norm_num) hcounted₁ h₂
  have hC₁ : Remembered databaseConfig ⟨s, []⟩ (.serve (.submitDevice req) (Handler.reply r₁.2)) :=
    ⟨hdomain, fun _ row hrow => by cases hnone.symm.trans hrow⟩
  have hC₂ : Remembered databaseConfig r₁.1 (.serve (.revokeDevice noHeaders (lit "a") (lit "lost"))
      (Handler.reply r₂.2)) := fun _ => hknown
  have hreach := hinit.step ⟨hC₁, hstep₁⟩
  have hleads : ((lifetimes .transparent databaseConfig).restrict
      (Remembered databaseConfig)).Leads r₁.1 r₂.1 := .step .refl ⟨hC₂, hstep₂⟩
  have hrestart : ((lifetimes .transparent databaseConfig).restrict
      (Remembered databaseConfig)).step r₂.1 .restart ⟨s', r₂.1.trace⟩ :=
    ⟨trivial, rfl, exampleEnv, toOption_eq_some_iff.mp hs'⟩
  have hreports₁ := reports_of_reported hr₁
  have hreports₂ := reports_of_reported hr₂
  have hreports₃ := reports_of_reported hr₃.1
  obtain ⟨hversion, hepoch, -⟩ := reports_monotone (rfl : databaseConfig.repo = true) hreach
    (hleads.step hrestart) hreports₁ hreports₃
  obtain ⟨hversion', hepoch', hrevoked⟩ := reports_monotone (rfl : databaseConfig.repo = true)
    (hleads.reachable hreach) (.step .refl hrestart) hreports₂ hreports₃
  exact ⟨_, _, _, _, _, _, hreach, hleads, hrestart, hreports₁, hreports₂, hreports₃, hforgotten,
    hstatus₁, hstatus₂, hrevoked hstatus₂, ⟨hversion, hepoch⟩, hversion', hepoch'⟩

set_option synthInstance.maxSize 512 in
/-- **A revoked device is back after a restart**: it submits itself again, and is reported in an
earlier version, in an earlier epoch, and as submitted. -/
theorem revoked_comes_back : ∃ c c' response response',
    (lifetimes .transparent databaseConfig).Reachable c ∧
    (lifetimes .transparent databaseConfig).Leads c c' ∧
    Reports databaseConfig c (lit "a") response ∧ Reports databaseConfig c' (lit "a") response' ∧
    response.status = .revoked ∧ response'.status = .submitted ∧
    response'.deviceRecordVersion < response.deviceRecordVersion ∧
    response'.revocationEpoch < response.revocationEpoch := by
  obtain ⟨s, hs, req, -, r₁, h₁, r₂, h₂, s', hs', req', -, r₃, h₃, response, hreported,
      hstatus, response', hreported', hstatus', hversion, hepoch⟩ :
      ∃ s ∈ starting emptyDatabase, ∃ req ∈ submission (lit "a") "1" 1,
      ∃ r₁ ∈ serving 0 (.submitDevice req) ⟨s, []⟩,
      ∃ r₂ ∈ serving 1 (.revokeDevice noHeaders (lit "a") (lit "lost")) r₁.1,
      ∃ s' ∈ starting r₂.1.state.db, ∃ req' ∈ submission (lit "a") "2" 1,
      ∃ r₃ ∈ serving 2 (.submitDevice req') ⟨s', r₂.1.trace⟩,
      ∃ response ∈ reported r₂.1 (lit "a"), response.status = .revoked ∧
      ∃ response' ∈ reported r₃.1 (lit "a"), response'.status = .submitted ∧
        response'.deviceRecordVersion < response.deviceRecordVersion ∧
        response'.revocationEpoch < response.revocationEpoch := by
    decide +kernel
  have hinit : (lifetimes .transparent databaseConfig).Reachable ⟨s, []⟩ :=
    .init ⟨rfl, emptyDatabase, exampleEnv, nofun, toOption_eq_some_iff.mp hs⟩
  obtain ⟨hstep₁, hcounted₁⟩ := step_of_serving le_rfl (by norm_num) (countedTo_of_starting hs) h₁
  obtain ⟨hstep₂, hcounted₂⟩ := step_of_serving (by norm_num) (by norm_num) hcounted₁ h₂
  -- the process is started anew, and the device proves itself once more
  have hnew := toOption_eq_some_iff.mp hs'
  have hrestart : (lifetimes .transparent databaseConfig).step r₂.1 .restart ⟨s', r₂.1.trace⟩ :=
    ⟨rfl, exampleEnv, hnew⟩
  rw [← (new_eq_ok hnew).2] at hcounted₂
  obtain ⟨hstep₃, -⟩ := step_of_serving (c := ⟨s', r₂.1.trace⟩) (by norm_num) (by norm_num)
    hcounted₂ h₃
  exact ⟨r₂.1, r₃.1, _, _, (hinit.step hstep₁).step hstep₂, .step (.step .refl hrestart) hstep₃,
    reports_of_reported hreported, reports_of_reported hreported', hstatus, hstatus', hversion,
    hepoch⟩

end TrustRoot

end Iscp
