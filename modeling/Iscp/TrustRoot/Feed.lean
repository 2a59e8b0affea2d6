import Iscp.TrustRoot.Requests

/-!
# The durable feed

What is revoked is written down in `iscp_trust.revocations`, from where it reaches those who
follow the feed. `RevokeDevice` and `RevokeGrant` do this with two statements that are no
transaction: the first updates the row of the subject, the second reads its epoch again and
inserts a row under it. Two calls for one device can therefore both update it before either
inserts anything; then the first insertion takes the epoch of the second, the second insertion
meets the unique key, and the epoch between is never listed
(`Iscp.TrustRoot.revocation_unlisted`). The same gap is left by an insertion that fails.

`Iscp.TrustRoot.revoking` is the system of such calls, with their statements in any order. If no
device is updated while another call for it is between its two statements
(`Iscp.TrustRoot.Orderly`), then the feed is complete whenever no call is running, and no call
that has updated a row is refused (`Iscp.TrustRoot.feed_complete`). The invariant says of each
subject by itself how its row and the feed agree, one way while a call for it is between its
statements and another way otherwise (`Iscp.TrustRoot.Consistent`).
-/

namespace Iscp

namespace TrustRoot

open Go Crypto Replay Service

/-! ### Calls and their statements -/

/-- A call of `RevokeDevice` or `RevokeGrant`. -/
structure Call where
  revocationID : Str
  domainID : Str
  subject : Subject
  reason : Str
  now : Time

/-- What is returned to the caller. -/
abbrev Returned := Except Error Unit

/-- **The call**, with its error as a result. -/
def Call.handle (cfg : Config) (call : Call) : Run Returned Returned :=
  match call.subject with
  | .device deviceID => (repoRevokeDevice { cfg with domainID := call.domainID } call.revocationID
      deviceID call.reason call.now).outcome
  | .grant grantID => (repoRevokeGrant { cfg with domainID := call.domainID } call.revocationID
      grantID call.reason call.now).outcome

/-- The first statement of a call: the epoch is counted. -/
def Call.update (call : Call) (db : Database) : Except Error Database :=
  match call.subject with
  | .device deviceID => db.revokeDevice call.domainID deviceID
  | .grant grantID => db.revokeGrant call.domainID grantID call.now

/-- The epoch in the row of a subject. -/
def Database.epoch (db : Database) (domainID : Str) : Subject → Option ℤ
  | .device deviceID => (db.devices (domainID, deviceID)).map (·.revocationEpoch)
  | .grant grantID => (db.grants (domainID, grantID)).map (·.revocationEpoch)

/-- The row a call inserts. -/
def Call.row (call : Call) (epoch : ℤ) : TrustRevocation :=
  ⟨call.revocationID, call.domainID, call.subject, epoch, call.reason, timestamptz call.now⟩

/-- The second statement of a call: the epoch is listed. -/
def Call.insert (call : Call) (db : Database) : Except Error Database :=
  match db.epoch call.domainID call.subject with
  | none => .ok db
  | some epoch => db.addRevocation (call.row epoch)

/-- A statement, unless it fails. -/
def made (f : Database → Except Error Database) (e : Env) (db : Database) :
    Except Error Database :=
  if e.sqlFails then .error sqlError else f db

/-- A statement, and what is done after it; an error is returned at once. -/
def stage (f : Database → Except Error Database) (p : Run Returned Returned) :
    Run Returned Returned :=
  .atomic (fun _ => true)
    (fun e s => match made f e s.db with
      | .ok db => { s with db := db }
      | .error _ => s)
    (fun _ _ => [])
    fun e s => match made f e s.db with
      | .ok _ => p
      | .error err => .done (.error err)

/-- What is left of a call after its first statement. -/
def Call.inserting (call : Call) : Run Returned Returned := stage call.insert (.done (.ok ()))

theorem statement_eq {domainID : Str} (hdomain : domainID ≠ [])
    (f : Database → Except Error Database) :
    (statement domainID fun _ db => (f db).map (·, ())) = .atomic (fun _ => true)
      (fun e s => match made f e s.db with
        | .ok db => { s with db := db }
        | .error _ => s)
      (fun _ _ => [])
      fun e s => match made f e s.db with
        | .ok _ => .done ()
        | .error err => .stop err := by
  rw [statement, requireDomain, Handler.stopIf, if_neg hdomain]
  simp only [Handler.done_bind, sql, Handler.attempt, made]
  congr 1
  all_goals
    funext e s
    split_ifs
    · rfl
    · cases f s.db <;> rfl

theorem Call.insert_device (revocationID domainID deviceID reason : Str) (now : Time)
    (db : Database) : (Call.insert ⟨revocationID, domainID, .device deviceID, reason, now⟩ db).map
      (·, ()) = match db.devices (domainID, deviceID) with
        | none => .ok (db, ())
        | some row => (db.addRevocation ⟨revocationID, domainID, .device deviceID,
            row.revocationEpoch, reason, timestamptz now⟩).map (·, ()) := by
  simp only [insert, Database.epoch]
  cases db.devices (domainID, deviceID) <;> rfl

theorem Call.insert_grant (revocationID domainID grantID reason : Str) (now : Time)
    (db : Database) : (Call.insert ⟨revocationID, domainID, .grant grantID, reason, now⟩ db).map
      (·, ()) = match db.grants (domainID, grantID) with
        | none => .ok (db, ())
        | some row => (db.addRevocation ⟨revocationID, domainID, .grant grantID,
            row.revocationEpoch, reason, timestamptz now⟩).map (·, ()) := by
  simp only [insert, Database.epoch]
  cases db.grants (domainID, grantID) <;> rfl

theorem Call.handle_eq_bind (cfg : Config) (call : Call) :
    call.handle cfg = ((statement call.domainID fun _ db => (call.update db).map (·, ())) >>=
      fun _ => statement call.domainID fun _ db => (call.insert db).map (·, ())).outcome := by
  obtain ⟨revocationID, domainID, subject, reason, now⟩ := call
  cases subject with
  | device deviceID =>
    simp only [insert_device]
    rfl
  | grant grantID =>
    simp only [insert_grant]
    rfl

variable {call : Call}

/-- **A call is its two statements.** -/
theorem Call.handle_eq (cfg : Config) (hdomain : call.domainID ≠ []) :
    call.handle cfg = stage call.update call.inserting := by
  have hinsert : ((statement call.domainID fun _ db => (call.insert db).map (·, ())).outcome :
      Run Returned Returned) = call.inserting := by
    rw [statement_eq hdomain, Handler.outcome, inserting, stage]
    congr 1
    funext e s
    cases made call.insert e s.db <;> rfl
  rw [handle_eq_bind, statement_eq hdomain, Handler.atomic_bind, Handler.outcome, stage]
  congr 1
  funext e s
  cases made call.update e s.db
  · rfl
  · exact hinsert

theorem Call.handle_of_nil (cfg : Config) (hdomain : call.domainID = []) :
    ∃ err, call.handle cfg = .done (.error err) := by
  refine ⟨.new .storageInvalid (lit "domain_id is required"), ?_⟩
  rw [handle_eq_bind, hdomain]
  rfl

/-! ### Runs -/

/-- A database, with the calls that are made. -/
abbrev Calls := Server.World State Env Event Returned Call

namespace Calls

/-- A call has made a statement. -/
def Begun (w : Calls) (i : ℕ) : Prop := ∃ x ∈ w.trace, x.thread = i

/-- **A call is between its two statements.** -/
def Between (w : Calls) (i : ℕ) (call : Call) : Prop :=
  w.Begun i ∧ ∃ p, w.threads i = some (call, p) ∧ ∀ r, p ≠ .done r

/-- A call for the subject is between its two statements. -/
def Pending (w : Calls) (domainID : Str) (subject : Subject) : Prop :=
  ∃ i call, w.Between i call ∧ call.domainID = domainID ∧ call.subject = subject

/-- No call is running. -/
def Quiet (w : Calls) : Prop := ∀ i call p, w.threads i = some (call, p) → ∃ r, p = .done r

end Calls

/-- The feed lists the subject with the epoch. -/
def Database.Listed (db : Database) (domainID : Str) (subject : Subject) (epoch : ℤ) : Prop :=
  ∃ r ∈ db.revocations, r.domainID = domainID ∧ r.subject = subject ∧ r.revocationEpoch = epoch

/-- **The feed is complete**: it lists a device with each of its epochs, and a grant that has been
revoked. -/
def Database.Complete (db : Database) : Prop :=
  (∀ domainID deviceID row, db.devices (domainID, deviceID) = some row → ∀ epoch, 1 ≤ epoch →
    epoch ≤ row.revocationEpoch → db.Listed domainID (.device deviceID) epoch) ∧
  ∀ domainID grantID row, db.grants (domainID, grantID) = some row → row.revokedAt.isSome →
    ∃ epoch, db.Listed domainID (.grant grantID) epoch

/-- **How the row of a subject and the feed agree**; a call for it may be between its statements,
which has updated the row and has yet to list it. -/
def Consistent (db : Database) (pending : Prop) (domainID : Str) : Subject → Prop
  | .device deviceID => ∀ row, db.devices (domainID, deviceID) = some row →
    (∀ epoch, 1 ≤ epoch → epoch ≤ row.revocationEpoch →
      db.Listed domainID (.device deviceID) epoch ∨ pending ∧ epoch = row.revocationEpoch) ∧
    (∀ epoch, db.Listed domainID (.device deviceID) epoch → epoch ≤ row.revocationEpoch) ∧
    (pending → ¬db.Listed domainID (.device deviceID) row.revocationEpoch)
  | .grant grantID => ∀ row, db.grants (domainID, grantID) = some row →
    (row.revokedAt.isSome → (∃ epoch, db.Listed domainID (.grant grantID) epoch) ∨ pending) ∧
    (row.revokedAt = none ∨ pending →
      ¬db.Listed domainID (.grant grantID) row.revocationEpoch) ∧
    (pending → row.revokedAt.isSome)

/-- **The calls**, with their statements in any order, on a database whose feed agrees with its
rows. -/
def revoking (cfg : Config) (C : Calls → Server.Action Env Call → Prop) :
    System Calls (Server.Action Env Call) :=
  (Server.system (fun s => ∀ domainID subject, Consistent s.db False domainID subject)
    (Call.handle cfg) Server.always).restrict C

/-- **The calls keep out of each other's way**: an id is used for one revocation only, a call
updates a device only if no other call for it is between its statements, and no insertion
fails. -/
def Orderly (w : Calls) : Server.Action Env Call → Prop
  | .start _ call => (∀ r ∈ w.state.db.revocations, r.id ≠ call.revocationID) ∧
    ∀ j call' p, w.threads j = some (call', p) → call'.revocationID ≠ call.revocationID
  | .run i e => (∀ call, w.Between i call → e.sqlFails = false) ∧
    ∀ call p deviceID, w.threads i = some (call, p) → ¬w.Begun i →
      call.subject = .device deviceID → ¬w.Pending call.domainID call.subject

/-! ### One statement -/

section Statements

variable {call : Call} {db db' : Database} {pending : Prop} {domainID : Str} {subject : Subject}

theorem Consistent.congr {pending' : Prop} (h : Consistent db pending domainID subject)
    (hpending : pending ↔ pending') : Consistent db pending' domainID subject := by
  rwa [← propext hpending]

theorem complete_of_consistent (h : ∀ domainID subject, Consistent db False domainID subject) :
    db.Complete := by
  refine ⟨fun domainID deviceID row hrow epoch hpos hle => ?_, fun domainID grantID row hrow hset =>
    ?_⟩
  · obtain ⟨hlisted, -, -⟩ := h domainID (.device deviceID) row hrow
    exact (hlisted epoch hpos hle).resolve_right fun h => h.1
  · obtain ⟨hlisted, -, -⟩ := h domainID (.grant grantID) row hrow
    exact (hlisted hset).resolve_right id

/-- What the feed says of a subject depends on its row and its entries only. -/
theorem Consistent.frame (h : Consistent db pending domainID subject)
    (hdevice : ∀ deviceID, subject = .device deviceID →
      db'.devices (domainID, deviceID) = db.devices (domainID, deviceID))
    (hgrant : ∀ grantID, subject = .grant grantID →
      db'.grants (domainID, grantID) = db.grants (domainID, grantID))
    (hlisted : ∀ epoch, db'.Listed domainID subject epoch ↔ db.Listed domainID subject epoch) :
    Consistent db' pending domainID subject := by
  cases subject with
  | device deviceID =>
    intro row hrow
    simp only [hlisted]
    exact h row ((hdevice deviceID rfl).symm.trans hrow)
  | grant grantID =>
    intro row hrow
    simp only [hlisted]
    exact h row ((hgrant grantID rfl).symm.trans hrow)

/-- **The first statement, by what it does**: it counts a device up, if there is one, or marks a
grant. -/
theorem Call.update_cases (h : call.update db = .ok db') :
    (∃ deviceID, call.subject = .device deviceID ∧
      db.devices (call.domainID, deviceID) = none ∧ db' = db) ∨
    (∃ deviceID row row', call.subject = .device deviceID ∧
      db.devices (call.domainID, deviceID) = some row ∧
      row'.revocationEpoch = row.revocationEpoch + 1 ∧
      db' = { db with
        devices := Function.update db.devices (call.domainID, deviceID) (some row') }) ∨
    ∃ grantID row row', call.subject = .grant grantID ∧
      db.grants (call.domainID, grantID) = some row ∧ row.revokedAt = none ∧
      row'.revokedAt.isSome ∧ row'.revocationEpoch = row.revocationEpoch ∧
      db' = { db with
        grants := Function.update db.grants (call.domainID, grantID) (some row') } := by
  rw [update] at h
  split at h
  · next deviceID hsubject =>
    rw [Database.revokeDevice] at h
    split at h
    · next hrow => exact .inl ⟨deviceID, hsubject, hrow, (Except.ok.inj h).symm⟩
    · next row hrow =>
      obtain ⟨version, -, h⟩ := bind_eq_ok_iff.mp h
      obtain ⟨epoch, hepoch, h⟩ := bind_eq_ok_iff.mp h
      obtain ⟨-, -, hepoch⟩ := bind_eq_ok_iff.mp hepoch
      exact .inr (.inl ⟨deviceID, row, _, hsubject, hrow, (Except.ok.inj hepoch).symm,
        (Except.ok.inj h).symm⟩)
  · next grantID hsubject =>
    rw [Database.revokeGrant] at h
    split at h
    · cases h
    · next row hrow =>
      obtain ⟨_, hunset, h⟩ := bind_eq_ok_iff.mp h
      have hnone : row.revokedAt = none := by
        simpa using failIf_eq_ok_iff.mp hunset
      exact .inr (.inr ⟨grantID, row, { row with revokedAt := some (timestamptz call.now) },
        hsubject, hrow, hnone, rfl, rfl, (Except.ok.inj h).symm⟩)

/-- **The first statement** makes a call pending, unless one is. -/
theorem Consistent.update (h : Consistent db False call.domainID call.subject)
    (hupdate : call.update db = .ok db') : Consistent db' True call.domainID call.subject := by
  obtain ⟨deviceID, hsubject, hrow, rfl⟩ | ⟨deviceID, row, row', hsubject, hrow, hepoch, rfl⟩ |
    ⟨grantID, row, row', hsubject, hrow, hnone, hset, hepoch, rfl⟩ := Call.update_cases hupdate
  · rw [hsubject]
    intro row' hrow'
    rw [hrow] at hrow'
    cases hrow'
  · rw [hsubject] at h ⊢
    intro row'' hrow''
    obtain rfl : row' = row'' := by
      simpa using hrow''
    obtain ⟨hlisted, hle, -⟩ := h row hrow
    refine ⟨fun epoch hpos hepoch' => ?_, fun epoch hepoch' => ?_, fun _ hepoch' => ?_⟩
    · rcases eq_or_ne epoch row'.revocationEpoch with heq | hne
      · exact .inr ⟨trivial, heq⟩
      · exact .inl ((hlisted epoch hpos (by omega)).resolve_right fun h => h.1)
    · have := hle epoch hepoch'
      omega
    · have := hle _ hepoch'
      omega
  · rw [hsubject] at h ⊢
    intro row'' hrow''
    obtain rfl : row' = row'' := by
      simpa using hrow''
    obtain ⟨-, hunlisted, -⟩ := h row hrow
    refine ⟨fun _ => .inr trivial, fun _ => ?_, fun _ => hset⟩
    rw [hepoch]
    exact hunlisted (.inl hnone)

theorem Consistent.not_pending (h : Consistent db pending call.domainID call.subject)
    (hupdate : call.update db = .ok db') (hgrant : ∀ deviceID, call.subject ≠ .device deviceID) :
    ¬pending := by
  obtain ⟨deviceID, hsubject, -⟩ | ⟨deviceID, -, -, hsubject, -⟩ |
    ⟨grantID, row, -, hsubject, hrow, hnone, -⟩ := Call.update_cases hupdate
  · exact absurd hsubject (hgrant deviceID)
  · exact absurd hsubject (hgrant deviceID)
  · rw [hsubject] at h
    intro hpending
    have hset := (h row hrow).2.2 hpending
    simp [hnone] at hset

/-- The update of another subject does not matter. -/
theorem Consistent.update_of_ne (h : Consistent db pending domainID subject)
    (hupdate : call.update db = .ok db')
    (hne : ¬(call.domainID = domainID ∧ call.subject = subject)) :
    Consistent db' pending domainID subject := by
  obtain ⟨deviceID, -, -, rfl⟩ | ⟨deviceID, row, row', hsubject, -, -, rfl⟩ |
    ⟨grantID, row, row', hsubject, -, -, -, -, rfl⟩ := Call.update_cases hupdate
  · exact h
  · refine h.frame (fun deviceID' hdevice => Function.update_of_ne (fun hkey => hne ?_) ..)
      (fun _ _ => rfl) fun _ => Iff.rfl
    obtain ⟨hdomain, rfl⟩ := Prod.mk.inj hkey
    exact ⟨hdomain.symm, hsubject.trans hdevice.symm⟩
  · refine h.frame (fun _ _ => rfl) (fun grantID' hgrant => Function.update_of_ne
      (fun hkey => hne ?_) ..) fun _ => Iff.rfl
    obtain ⟨hdomain, rfl⟩ := Prod.mk.inj hkey
    exact ⟨hdomain.symm, hsubject.trans hgrant.symm⟩

/-- **The second statement, by what it does**: it lists the subject with its epoch, if there is
one. -/
theorem Call.insert_cases (h : call.insert db = .ok db') :
    (db.epoch call.domainID call.subject = none ∧ db' = db) ∨
    ∃ epoch, db.epoch call.domainID call.subject = some epoch ∧
      db' = { db with revocations := db.revocations ++ [call.row epoch] } := by
  rw [insert] at h
  split at h
  · next hepoch => exact .inl ⟨hepoch, (Except.ok.inj h).symm⟩
  · next epoch hepoch =>
    obtain ⟨-, -, h⟩ := bind_eq_ok_iff.mp h
    exact .inr ⟨epoch, hepoch, (Except.ok.inj h).symm⟩

theorem Database.listed_snoc {epoch epoch' : ℤ} :
    ({ db with revocations := db.revocations ++ [call.row epoch'] } : Database).Listed domainID
      subject epoch ↔ db.Listed domainID subject epoch ∨
        call.domainID = domainID ∧ call.subject = subject ∧ epoch' = epoch := by
  simp [Listed, Call.row, or_and_right, exists_or]

/-- **The second statement** ends what the first began. -/
theorem Consistent.insert (h : Consistent db True call.domainID call.subject)
    (hinsert : call.insert db = .ok db') : Consistent db' False call.domainID call.subject := by
  rcases Call.insert_cases hinsert with ⟨hepoch, rfl⟩ | ⟨epoch', hepoch, rfl⟩
  · cases hsubject : call.subject with
    | device deviceID =>
      intro row hrow
      simp [hsubject, Database.epoch, hrow] at hepoch
    | grant grantID =>
      intro row hrow
      simp [hsubject, Database.epoch, hrow] at hepoch
  · cases hsubject : call.subject with
    | device deviceID =>
      rw [hsubject] at h
      intro row hrow
      obtain ⟨hlisted, hle, -⟩ := h row hrow
      have heq : row.revocationEpoch = epoch' := by
        rw [hsubject, Database.epoch,
          show db.devices (call.domainID, deviceID) = some row from hrow] at hepoch
        exact Option.some.inj hepoch
      refine ⟨fun epoch hpos hepoch' => .inl (Database.listed_snoc.mpr ?_), fun epoch hepoch' => ?_,
        False.elim⟩
      · rcases hlisted epoch hpos hepoch' with hlisted | ⟨-, rfl⟩
        · exact .inl hlisted
        · exact .inr ⟨rfl, hsubject, heq.symm⟩
      · rcases Database.listed_snoc.mp hepoch' with hlisted | ⟨-, -, rfl⟩
        · exact hle epoch hlisted
        · exact heq.ge
    | grant grantID =>
      rw [hsubject] at h
      intro row hrow
      have hset := (h row hrow).2.2 trivial
      refine ⟨fun _ => .inl ⟨epoch', Database.listed_snoc.mpr (.inr ⟨rfl, hsubject, rfl⟩)⟩,
        fun hnone => ?_, False.elim⟩
      simp [hnone.resolve_right id] at hset

theorem Consistent.insert_of_ne (h : Consistent db pending domainID subject)
    (hinsert : call.insert db = .ok db')
    (hne : ¬(call.domainID = domainID ∧ call.subject = subject)) :
    Consistent db' pending domainID subject := by
  rcases Call.insert_cases hinsert with ⟨-, rfl⟩ | ⟨epoch', -, rfl⟩
  · exact h
  · refine h.frame (fun _ _ => rfl) (fun _ _ => rfl) fun epoch => Database.listed_snoc.trans ?_
    exact or_iff_left fun h => hne ⟨h.1, h.2.1⟩

/-- **The second statement of a call that is pending succeeds.** -/
theorem Consistent.exists_insert (h : Consistent db True call.domainID call.subject)
    (hid : ∀ r ∈ db.revocations, r.id ≠ call.revocationID) : ∃ db', call.insert db = .ok db' := by
  rw [Call.insert]
  split
  · exact ⟨db, rfl⟩
  · next epoch hepoch =>
    have hunlisted : ¬db.Listed call.domainID call.subject epoch := by
      cases hsubject : call.subject with
      | device deviceID =>
        rw [hsubject] at h
        rw [hsubject, Database.epoch] at hepoch
        obtain ⟨row, hrow, rfl⟩ := Option.map_eq_some_iff.mp hepoch
        exact (h row hrow).2.2 trivial
      | grant grantID =>
        rw [hsubject] at h
        rw [hsubject, Database.epoch] at hepoch
        obtain ⟨row, hrow, rfl⟩ := Option.map_eq_some_iff.mp hepoch
        exact (h row hrow).2.1 (.inr trivial)
    refine ⟨_, bind_eq_ok_iff.mpr ⟨(), failIf_eq_ok_iff.mpr ?_, rfl⟩⟩
    rintro ⟨r, hr, heq | ⟨hdomain, hsubject, hepoch'⟩⟩
    · exact hid r hr heq
    · exact hunlisted ⟨r, hr, hdomain, hsubject, hepoch'⟩

end Statements

/-! ### The calls -/

section Worlds

variable {cfg : Config} {w w' : Calls} {i : ℕ} {call : Call}

/-- Where a call stands: it has made no statement, or one, or it has returned. -/
def Calls.InOrder (cfg : Config) (w : Calls) : Prop :=
  (∀ x ∈ w.trace, w.threads x.thread ≠ none) ∧
  ∀ i call p, w.threads i = some (call, p) →
    ¬w.Begun i ∧ p = call.handle cfg ∨ w.Begun i ∧ p = call.inserting ∨ ∃ r, p = .done r

theorem stage_ne_done {f : Database → Except Error Database} {p : Run Returned Returned}
    {r : Returned} : stage f p ≠ .done r := nofun

variable {a : Server.Action Env Call} {j : ℕ} {call' : Call} {c : Iscp.Config State Env Event}
  {db : Database}

/-- **A step, by what it does**: a call comes in, or makes its first statement, or its second,
with or without success. -/
theorem Calls.step_cases {C : Calls → Server.Action Env Call → Prop} (hin : w.InOrder cfg)
    (h : (revoking cfg C).step w a w') :
    (∃ i call, a = .start i call ∧ w.threads i = none ∧
      w' = w.set i call (call.handle cfg) w.config) ∨
    ∃ i e call f q, a = .run i e ∧ w.threads i = some (call, stage f q) ∧
      (¬w.Begun i ∧ f = call.update ∧ q = call.inserting ∨
        w.Begun i ∧ f = call.insert ∧ q = .done (.ok ())) ∧
      ((∃ err, made f e w.state.db = .error err ∧
        w' = w.set i call (.done (.error err)) ⟨w.state, w.trace ++ [⟨i, e, []⟩]⟩) ∨
      ∃ db, made f e w.state.db = .ok db ∧
        w' = w.set i call q ⟨{ w.state with db := db }, w.trace ++ [⟨i, e, []⟩]⟩) := by
  obtain ⟨-, -, hnext⟩ := h
  obtain ⟨i, call, rfl, hnone, rfl⟩ | ⟨i, e, call, enabled, update, events, next, rfl, hthread, -,
    rfl⟩ := Server.World.next_cases hnext
  · exact .inl ⟨i, call, rfl, hnone, rfl⟩
  · have hstage : ∃ f q, Handler.atomic enabled update events next = stage f q ∧
        (¬w.Begun i ∧ f = call.update ∧ q = call.inserting ∨
          w.Begun i ∧ f = call.insert ∧ q = .done (.ok ())) := by
      rcases hin.2 i call _ hthread with ⟨hbegun, hp⟩ | ⟨hbegun, hp⟩ | ⟨r, hp⟩
      · by_cases hdomain : call.domainID = []
        · obtain ⟨err, hhandle⟩ := call.handle_of_nil cfg hdomain
          rw [hhandle] at hp
          cases hp
        · exact ⟨_, _, hp.trans (call.handle_eq cfg hdomain), .inl ⟨hbegun, rfl, rfl⟩⟩
      · exact ⟨_, _, hp, .inr ⟨hbegun, rfl, rfl⟩⟩
      · cases hp
    obtain ⟨f, q, hp, hfq⟩ := hstage
    rw [hp] at hthread
    obtain ⟨-, rfl, rfl, rfl⟩ := Handler.atomic.inj hp
    refine .inr ⟨i, e, call, f, q, rfl, hthread, hfq, ?_⟩
    cases hmade : made f e w.state.db with
    | error err => exact .inl ⟨err, rfl, by simp only [hmade]⟩
    | ok db => exact .inr ⟨db, rfl, by simp only [hmade]⟩

variable {s : State} {e : Env} {p p₀ : Run Returned Returned}

theorem begun_set :
    Calls.Begun (w.set i call p ⟨s, w.trace ++ [⟨i, e, []⟩]⟩) j ↔ w.Begun j ∨ j = i := by
  simp [Calls.Begun, or_and_right, exists_or, eq_comm]

/-- Who is between its statements after a statement of call `i`. -/
theorem between_set :
    Calls.Between (w.set i call p ⟨s, w.trace ++ [⟨i, e, []⟩]⟩) j call' ↔
      j = i ∧ call' = call ∧ (∀ r, p ≠ .done r) ∨ j ≠ i ∧ w.Between j call' := by
  rw [Calls.Between, begun_set]
  rcases eq_or_ne j i with rfl | hne
  · simp only [Server.World.threads_set_self, Option.some.injEq, Prod.mk.injEq]
    constructor
    · rintro ⟨-, _, ⟨rfl, rfl⟩, hp⟩
      exact .inl ⟨trivial, rfl, hp⟩
    · rintro (⟨-, rfl, hp⟩ | ⟨hne, -⟩)
      · exact ⟨.inr trivial, _, ⟨rfl, rfl⟩, hp⟩
      · exact absurd rfl hne
  · rw [Server.World.threads_set_of_ne _ hne]
    simp [hne, Calls.Between]

theorem between_start (hin : w.InOrder cfg) (hnone : w.threads i = none) :
    Calls.Between (w.set i call p w.config) j call' ↔ w.Between j call' := by
  rcases eq_or_ne j i with rfl | hne
  · have hbegun : ¬w.Begun j := by
      rintro ⟨x, hx, rfl⟩
      exact hin.1 x hx hnone
    exact iff_of_false (fun h => hbegun h.1) fun h => hbegun h.1
  · rw [Calls.Between, Server.World.threads_set_of_ne _ hne]
    rfl

theorem threads_set (hthread : w.threads i = some (call, p₀)) {p' : Run Returned Returned}
    (h : (w.set i call p c).threads j = some (call', p')) :
    ∃ p'', w.threads j = some (call', p'') ∧ (j = i ∧ p' = p ∨ j ≠ i ∧ p'' = p') := by
  rcases eq_or_ne j i with rfl | hne
  · rw [Server.World.threads_set_self] at h
    cases h
    exact ⟨p₀, hthread, .inl ⟨rfl, rfl⟩⟩
  · rw [Server.World.threads_set_of_ne _ hne] at h
    exact ⟨p', h, .inr ⟨hne, rfl⟩⟩

/-- **A call stays in order**, when it makes a statement. -/
theorem Calls.InOrder.set (hin : w.InOrder cfg) (hthread : w.threads i = some (call, p₀))
    (hp : p = call.inserting ∨ ∃ r, p = .done r) :
    Calls.InOrder cfg (w.set i call p ⟨s, w.trace ++ [⟨i, e, []⟩]⟩) := by
  refine ⟨fun x hx => ?_, fun j call' p' h => ?_⟩
  · rcases eq_or_ne x.thread i with heq | hne
    · rw [heq, Server.World.threads_set_self]
      exact Option.some_ne_none _
    · rw [Server.World.threads_set_of_ne _ hne]
      rcases List.mem_append.mp hx with hx | hx
      · exact hin.1 x hx
      · rw [List.mem_singleton.mp hx] at hne
        exact absurd rfl hne
  · obtain ⟨p'', h', ⟨rfl, rfl⟩ | ⟨hne, rfl⟩⟩ := threads_set hthread h
    · obtain rfl : call = call' := by
        rw [Server.World.threads_set_self] at h
        exact (Prod.mk.inj (Option.some.inj h)).1
      rcases hp with hp | hp
      · exact .inr (.inl ⟨begun_set.mpr (.inr rfl), hp⟩)
      · exact .inr (.inr hp)
    · rcases hin.2 j call' p'' h' with ⟨hbegun, hp⟩ | ⟨hbegun, hp⟩ | hp
      · exact .inl ⟨fun h => hbegun ((begun_set.mp h).resolve_right hne), hp⟩
      · exact .inr (.inl ⟨begun_set.mpr (.inl hbegun), hp⟩)
      · exact .inr (.inr hp)

/-- A call that starts has made no statement. -/
theorem Calls.InOrder.start (hin : w.InOrder cfg) (hnone : w.threads i = none) :
    Calls.InOrder cfg (w.set i call (call.handle cfg) w.config) := by
  refine ⟨fun x hx => ?_, fun j call' p' h => ?_⟩
  · rcases eq_or_ne x.thread i with heq | hne
    · exact absurd (heq ▸ hnone) (hin.1 x hx)
    · rw [Server.World.threads_set_of_ne _ hne]
      exact hin.1 x hx
  · rcases eq_or_ne j i with rfl | hne
    · rw [Server.World.threads_set_self] at h
      cases h
      refine .inl ⟨?_, rfl⟩
      rintro ⟨x, hx, rfl⟩
      exact hin.1 x hx hnone
    · rw [Server.World.threads_set_of_ne _ hne] at h
      exact hin.2 j call' p' h

/-- **The invariant.** -/
structure Calls.Inv (cfg : Config) (w : Calls) : Prop where
  inOrder : w.InOrder cfg
  /-- No two calls have the same id. -/
  ids : ∀ i j call call' p p', w.threads i = some (call, p) → w.threads j = some (call', p') →
    call.revocationID = call'.revocationID → i = j
  /-- The id of a call is new until the call returns. -/
  unlisted : ∀ i call p, w.threads i = some (call, p) → (∀ r, p ≠ .done r) →
    ∀ r ∈ w.state.db.revocations, r.id ≠ call.revocationID
  /-- One call for a subject is between its statements at a time. -/
  exclusive : ∀ i j call call', w.Between i call → w.Between j call' →
    call.domainID = call'.domainID → call.subject = call'.subject → i = j
  consistent : ∀ domainID subject,
    Consistent w.state.db (w.Pending domainID subject) domainID subject

/-- A call that starts with a fresh ID keeps the invariant. -/
theorem Calls.Inv.start (h : w.Inv cfg) (hnone : w.threads i = none)
    (hfeed : ∀ r ∈ w.state.db.revocations, r.id ≠ call.revocationID)
    (hids : ∀ j call' p, w.threads j = some (call', p) →
      call'.revocationID ≠ call.revocationID) :
    Calls.Inv cfg (w.set i call (call.handle cfg) w.config) := by
  have hbetween : ∀ {j call'}, Calls.Between (w.set i call (call.handle cfg) w.config) j call' ↔
      w.Between j call' := between_start h.inOrder hnone
  have hthread : ∀ j call' p', (w.set i call (call.handle cfg) w.config).threads j =
      some (call', p') → j = i ∧ call' = call ∨ j ≠ i ∧ w.threads j = some (call', p') := by
    intro j call' p' hj
    rcases eq_or_ne j i with rfl | hne
    · rw [Server.World.threads_set_self] at hj
      exact .inl ⟨rfl, (Prod.mk.inj (Option.some.inj hj)).1.symm⟩
    · rw [Server.World.threads_set_of_ne _ hne] at hj
      exact .inr ⟨hne, hj⟩
  refine ⟨h.inOrder.start hnone, fun j k call₁ call₂ p₁ p₂ hj hk heq => ?_,
    fun j call' p' hj hrun => ?_, fun j k call₁ call₂ hj hk => ?_, fun domainID subject => ?_⟩
  · rcases hthread j call₁ p₁ hj with ⟨rfl, rfl⟩ | ⟨-, hj'⟩ <;>
      rcases hthread k call₂ p₂ hk with ⟨rfl, rfl⟩ | ⟨-, hk'⟩
    · rfl
    · exact absurd heq.symm (hids k call₂ p₂ hk')
    · exact absurd heq (hids j call₁ p₁ hj')
    · exact h.ids j k call₁ call₂ p₁ p₂ hj' hk' heq
  · rcases hthread j call' p' hj with ⟨-, rfl⟩ | ⟨-, hj⟩
    · exact hfeed
    · exact h.unlisted j call' p' hj hrun
  · exact h.exclusive j k call₁ call₂ (hbetween.mp hj) (hbetween.mp hk)
  · refine (h.consistent domainID subject).congr ?_
    simp only [Calls.Pending, hbetween]

/-- What a statement of call `i` keeps of the invariant, whatever it does to the database. -/
theorem Calls.Inv.ids_set (h : w.Inv cfg) (hthread : w.threads i = some (call, p₀)) (j k : ℕ)
    (call₁ call₂ : Call) (p₁ p₂ : Run Returned Returned)
    (hj : (w.set i call p c).threads j = some (call₁, p₁))
    (hk : (w.set i call p c).threads k = some (call₂, p₂))
    (heq : call₁.revocationID = call₂.revocationID) : j = k := by
  obtain ⟨p₁', hj', -⟩ := threads_set hthread hj
  obtain ⟨p₂', hk', -⟩ := threads_set hthread hk
  exact h.ids j k call₁ call₂ p₁' p₂' hj' hk' heq

theorem Calls.Inv.unlisted_set (h : w.Inv cfg) (hthread : w.threads i = some (call, p₀))
    (hrun : ∀ r, p₀ ≠ .done r) (j : ℕ) (call' : Call) (p' : Run Returned Returned)
    (hj : (w.set i call p c).threads j = some (call', p')) (hrun' : ∀ r, p' ≠ .done r) :
    ∀ r ∈ w.state.db.revocations, r.id ≠ call'.revocationID := by
  obtain ⟨p'', hj', ⟨rfl, rfl⟩ | ⟨hne, rfl⟩⟩ := threads_set hthread hj
  · rw [hthread] at hj'
    cases hj'
    exact h.unlisted j call p₀ hthread hrun
  · exact h.unlisted j call' p'' hj' hrun'

/-- A call that ends before it has updated a row keeps the invariant. -/
theorem Calls.Inv.failed (h : w.Inv cfg) (hthread : w.threads i = some (call, p₀))
    (hrun : ∀ r, p₀ ≠ .done r) (hbegun : ¬w.Begun i) (r : Returned) :
    Calls.Inv cfg (w.set i call (.done r) ⟨w.state, w.trace ++ [⟨i, e, []⟩]⟩) := by
  have hbetween : ∀ j call', Calls.Between (w.set i call (.done r) ⟨w.state, w.trace ++
      [⟨i, e, []⟩]⟩) j call' ↔ w.Between j call' := by
    intro j call'
    rw [between_set]
    constructor
    · rintro (⟨-, -, hdone⟩ | ⟨-, hj⟩)
      · exact absurd rfl (hdone r)
      · exact hj
    · rintro hj
      refine .inr ⟨?_, hj⟩
      rintro rfl
      exact hbegun hj.1
  refine ⟨h.inOrder.set hthread (.inr ⟨r, rfl⟩), h.ids_set hthread, h.unlisted_set hthread hrun,
    fun j k call₁ call₂ hj hk => ?_, fun domainID subject => ?_⟩
  · exact h.exclusive j k call₁ call₂ ((hbetween j call₁).mp hj) ((hbetween k call₂).mp hk)
  · refine (h.consistent domainID subject).congr ?_
    simp only [Calls.Pending, hbetween]

/-- **A call has made its first statement.** -/
theorem Calls.Inv.updated (h : w.Inv cfg) (hthread : w.threads i = some (call, p₀))
    (hrun : ∀ r, p₀ ≠ .done r) (hbegun : ¬w.Begun i)
    (hdevice : ∀ deviceID, call.subject = .device deviceID → ¬w.Pending call.domainID call.subject)
    (hupdate : call.update w.state.db = .ok db) :
    Calls.Inv cfg (w.set i call call.inserting
      ⟨{ w.state with db := db }, w.trace ++ [⟨i, e, []⟩]⟩) := by
  have hpending : ¬w.Pending call.domainID call.subject := by
    by_cases hgrant : ∃ deviceID, call.subject = .device deviceID
    · exact hdevice _ hgrant.choose_spec
    · exact (h.consistent _ _).not_pending hupdate fun deviceID heq => hgrant ⟨deviceID, heq⟩
  have hrevocations : db.revocations = w.state.db.revocations := by
    obtain ⟨-, -, -, rfl⟩ | ⟨-, -, -, -, -, -, rfl⟩ | ⟨-, -, -, -, -, -, -, -, rfl⟩ :=
      Call.update_cases hupdate <;> rfl
  have hne : ∀ {j call'}, w.Between j call' → j ≠ i := by
    rintro j call' hj rfl
    exact hbegun hj.1
  refine ⟨h.inOrder.set hthread (.inl rfl), h.ids_set hthread, fun j call' p' hj hrun' => ?_,
    fun j k call₁ call₂ hj hk hdomain hsubject => ?_, fun domainID subject => ?_⟩
  · exact hrevocations ▸ h.unlisted_set hthread hrun j call' p' hj hrun'
  · rcases between_set.mp hj with ⟨rfl, rfl, -⟩ | ⟨-, hj'⟩ <;>
      rcases between_set.mp hk with ⟨rfl, rfl, -⟩ | ⟨-, hk'⟩
    · rfl
    · exact absurd ⟨k, call₂, hk', hdomain.symm, hsubject.symm⟩ hpending
    · exact absurd ⟨j, call₁, hj', hdomain, hsubject⟩ hpending
    · exact h.exclusive j k call₁ call₂ hj' hk' hdomain hsubject
  · by_cases hown : call.domainID = domainID ∧ call.subject = subject
    · obtain ⟨rfl, rfl⟩ := hown
      have hown := ((h.consistent _ _).congr (iff_false_intro hpending)).update hupdate
      exact hown.congr (iff_of_true trivial
        ⟨i, call, between_set.mpr (.inl ⟨rfl, rfl, fun _ => stage_ne_done⟩), rfl, rfl⟩)
    · refine ((h.consistent domainID subject).update_of_ne hupdate hown).congr ?_
      constructor
      · rintro ⟨j, call', hj, heq⟩
        exact ⟨j, call', between_set.mpr (.inr ⟨hne hj, hj⟩), heq⟩
      · rintro ⟨j, call', hj, heq⟩
        rcases between_set.mp hj with ⟨rfl, rfl, -⟩ | ⟨-, hj'⟩
        · exact absurd heq hown
        · exact ⟨j, call', hj', heq⟩

/-- **A call has made its second statement.** -/
theorem Calls.Inv.inserted (h : w.Inv cfg) (hthread : w.threads i = some (call, p₀))
    (hrun : ∀ r, p₀ ≠ .done r) (hbegun : w.Begun i) (hinsert : call.insert w.state.db = .ok db) :
    Calls.Inv cfg (w.set i call (.done (.ok ()))
      ⟨{ w.state with db := db }, w.trace ++ [⟨i, e, []⟩]⟩) := by
  have hbetween : w.Between i call := ⟨hbegun, p₀, hthread, hrun⟩
  have hset : ∀ j call', Calls.Between (w.set i call (.done (.ok ())) ⟨{ w.state with db := db },
      w.trace ++ [⟨i, e, []⟩]⟩) j call' ↔ j ≠ i ∧ w.Between j call' := by
    intro j call'
    rw [between_set]
    refine or_iff_right ?_
    rintro ⟨-, -, hdone⟩
    exact hdone _ rfl
  refine ⟨h.inOrder.set hthread (.inr ⟨_, rfl⟩), h.ids_set hthread,
    fun j call' p' hj hrun' r hr => ?_, fun j k call₁ call₂ hj hk => ?_, fun domainID subject => ?_⟩
  · have hold := h.unlisted_set hthread hrun j call' p' hj hrun'
    rcases Call.insert_cases hinsert with ⟨-, rfl⟩ | ⟨epoch, -, rfl⟩
    · exact hold r hr
    · rcases List.mem_append.mp hr with hr | hr
      · exact hold r hr
      · -- the row that has just been inserted has the id of call `i`, which has returned
        rw [List.mem_singleton.mp hr]
        intro heq
        obtain ⟨p'', hj', -⟩ := threads_set hthread hj
        obtain rfl := h.ids i j call call' p₀ p'' hthread hj' heq
        rw [Server.World.threads_set_self] at hj
        exact hrun' _ (Prod.mk.inj (Option.some.inj hj)).2.symm
  · exact h.exclusive j k call₁ call₂ ((hset j call₁).mp hj).2 ((hset k call₂).mp hk).2
  · by_cases hown : call.domainID = domainID ∧ call.subject = subject
    · obtain ⟨rfl, rfl⟩ := hown
      have hpending : w.Pending call.domainID call.subject := ⟨i, call, hbetween, rfl, rfl⟩
      have hown := ((h.consistent _ _).congr (iff_true_intro hpending)).insert hinsert
      refine hown.congr (iff_of_false id ?_)
      rintro ⟨j, call', hj, hdomain, hsubject⟩
      obtain ⟨hne, hj'⟩ := (hset j call').mp hj
      exact hne (h.exclusive j i call' call hj' hbetween hdomain hsubject)
    · refine ((h.consistent domainID subject).insert_of_ne hinsert hown).congr ?_
      constructor
      · rintro ⟨j, call', hj, heq⟩
        refine ⟨j, call', (hset j call').mpr ⟨?_, hj⟩, heq⟩
        rintro rfl
        obtain ⟨-, p', hj', -⟩ := hj
        rw [hthread] at hj'
        obtain ⟨rfl, -⟩ := Prod.mk.inj (Option.some.inj hj')
        exact hown heq
      · rintro ⟨j, call', hj, heq⟩
        exact ⟨j, call', ((hset j call').mp hj).2, heq⟩

/-- **The second statement of a call succeeds.** -/
theorem Calls.Inv.exists_insert (h : w.Inv cfg) (hthread : w.threads i = some (call, p₀))
    (hrun : ∀ r, p₀ ≠ .done r) (hbegun : w.Begun i) :
    ∃ db, call.insert w.state.db = .ok db := by
  have hpending : w.Pending call.domainID call.subject :=
    ⟨i, call, ⟨hbegun, p₀, hthread, hrun⟩, rfl, rfl⟩
  exact ((h.consistent _ _).congr (iff_true_intro hpending)).exists_insert
    (h.unlisted i call p₀ hthread hrun)

/-- **An orderly step, by what it does**: a call comes in, or makes its first statement with or
without success, or its second with success. -/
theorem Calls.Inv.step_cases (h : w.Inv cfg) (hstep : (revoking cfg Orderly).step w a w') :
    (∃ i call, w.threads i = none ∧ a = .start i call ∧
      w' = w.set i call (call.handle cfg) w.config) ∨
    ∃ i e call p₀, w.threads i = some (call, p₀) ∧ (∀ r, p₀ ≠ .done r) ∧ a = .run i e ∧
      ((¬w.Begun i ∧ ((∃ err, w' = w.set i call (.done (.error err))
          ⟨w.state, w.trace ++ [⟨i, e, []⟩]⟩) ∨
        ∃ db, call.update w.state.db = .ok db ∧ w' = w.set i call call.inserting
          ⟨{ w.state with db := db }, w.trace ++ [⟨i, e, []⟩]⟩)) ∨
      w.Begun i ∧ ∃ db, call.insert w.state.db = .ok db ∧ w' = w.set i call (.done (.ok ()))
        ⟨{ w.state with db := db }, w.trace ++ [⟨i, e, []⟩]⟩) := by
  obtain ⟨i, call, rfl, hnone, rfl⟩ | ⟨i, e, call, f, q, rfl, hthread, hfq, hmade⟩ :=
    Calls.step_cases h.inOrder hstep
  · exact .inl ⟨i, call, hnone, rfl, rfl⟩
  · have hrun : ∀ r, stage f q ≠ .done r := fun _ => stage_ne_done
    refine .inr ⟨i, e, call, stage f q, hthread, hrun, rfl, ?_⟩
    rcases hfq with ⟨hbegun, rfl, rfl⟩ | ⟨hbegun, rfl, rfl⟩
    · obtain ⟨err, -, rfl⟩ | ⟨db, hok, rfl⟩ := hmade
      · exact .inl ⟨hbegun, .inl ⟨err, rfl⟩⟩
      · rw [made] at hok
        split_ifs at hok
        exact .inl ⟨hbegun, .inr ⟨db, hok, rfl⟩⟩
    · have hsql : e.sqlFails = false := hstep.1.1 call ⟨hbegun, _, hthread, hrun⟩
      obtain ⟨db, hdb⟩ := h.exists_insert hthread hrun hbegun
      have hok : made call.insert e w.state.db = .ok db := by
        rw [made, hsql, ← hdb]
        rfl
      simp only [hok, reduceCtorEq, false_and, exists_false, Except.ok.injEq, exists_eq_left',
        false_or] at hmade
      exact .inr ⟨hbegun, db, hdb, hmade⟩

theorem Calls.Inv.step (h : w.Inv cfg) (hstep : (revoking cfg Orderly).step w a w') :
    w'.Inv cfg := by
  obtain ⟨i, call, hnone, rfl, rfl⟩ | ⟨i, e, call, p₀, hthread, hrun, rfl,
    ⟨hbegun, ⟨err, rfl⟩ | ⟨db, hdb, rfl⟩⟩ | ⟨hbegun, db, hdb, rfl⟩⟩ := h.step_cases hstep
  · exact h.start hnone hstep.1.1 hstep.1.2
  · exact h.failed hthread hrun hbegun _
  · exact h.updated hthread hrun hbegun
      (fun deviceID => hstep.1.2 call p₀ deviceID hthread hbegun) hdb
  · exact h.inserted hthread hrun hbegun hdb

/-- The invariant holds in every orderly run. -/
theorem inv_of_reachable (hw : (revoking cfg Orderly).Reachable w) : w.Inv cfg := by
  refine hw.invariant ?_ fun w a w' _ h hstep => h.step hstep
  rintro w ⟨hconsistent, htrace, hthreads⟩
  have hpending : ∀ domainID subject, ¬w.Pending domainID subject := by
    rintro domainID subject ⟨i, call, ⟨⟨x, hx, -⟩, -⟩, -⟩
    rw [htrace] at hx
    exact absurd hx List.not_mem_nil
  refine ⟨⟨?_, ?_⟩, ?_, ?_, ?_, fun domainID subject =>
    (hconsistent domainID subject).congr (iff_of_false id (hpending domainID subject))⟩
  · simp [htrace]
  · simp [hthreads]
  · simp [hthreads]
  · simp [hthreads]
  · rintro i j call call' hi
    exact absurd ⟨i, call, hi, rfl, rfl⟩ (hpending call.domainID call.subject)

/-- A call has updated its row, and has not been refused. -/
def Calls.Sure (w : Calls) (i : ℕ) : Prop :=
  w.Begun i ∧ ∃ call p, w.threads i = some (call, p) ∧ ((∀ r, p ≠ .done r) ∨ p = .done (.ok ()))

theorem Calls.Sure.set (h : w.Sure j) (hne : j ≠ i) :
    Calls.Sure (w.set i call p ⟨s, w.trace ++ [⟨i, e, []⟩]⟩) j := by
  obtain ⟨hbegun, hthread⟩ := h
  refine ⟨begun_set.mpr (.inl hbegun), ?_⟩
  rwa [Server.World.threads_set_of_ne _ hne]

theorem Calls.Inv.sure_step (h : w.Inv cfg) (hj : w.Sure j)
    (hstep : (revoking cfg Orderly).step w a w') : w'.Sure j := by
  obtain ⟨i, call, hnone, rfl, rfl⟩ | ⟨i, e, call, p₀, hthread, hrun, rfl,
    ⟨hbegun, ⟨err, rfl⟩ | ⟨db, -, rfl⟩⟩ | ⟨hbegun, db, -, rfl⟩⟩ := h.step_cases hstep
  · obtain ⟨hbegun, call', p', hthread, hp⟩ := hj
    have hne : j ≠ i := by
      rintro rfl
      rw [hnone] at hthread
      cases hthread
    refine ⟨hbegun, call', p', ?_, hp⟩
    rwa [Server.World.threads_set_of_ne _ hne]
  · refine hj.set ?_
    rintro rfl
    exact hbegun hj.1
  · refine hj.set ?_
    rintro rfl
    exact hbegun hj.1
  · rcases eq_or_ne j i with rfl | hne
    · exact ⟨begun_set.mpr (.inr rfl), call, _, Server.World.threads_set_self .., .inr rfl⟩
    · exact hj.set hne

theorem Calls.Inv.sure_of_changed (h : w.Inv cfg)
    (hstep : (revoking cfg Orderly).step w (.run i e) w')
    (hchanged : w'.state.db.devices ≠ w.state.db.devices ∨ w'.state.db.grants ≠ w.state.db.grants) :
    w'.Sure i := by
  obtain ⟨_, _, -, hrun, -⟩ | ⟨i, e, call, p₀, hthread, hrun, hrun',
    ⟨hbegun, ⟨err, rfl⟩ | ⟨db, -, rfl⟩⟩ | ⟨hbegun, db, hdb, rfl⟩⟩ := h.step_cases hstep
  · cases hrun
  · exact absurd hchanged (by simp)
  · cases hrun'
    exact ⟨begun_set.mpr (.inr rfl), call, _, Server.World.threads_set_self ..,
      .inl fun _ => stage_ne_done⟩
  · refine absurd hchanged ?_
    rcases Call.insert_cases hdb with ⟨-, rfl⟩ | ⟨epoch, -, rfl⟩ <;> simp

end Worlds

/-! ### Main results -/

/-- **The feed is complete whenever no call is running, and no call that has changed a row is
refused**, if the calls keep out of each other's way. -/
theorem feed_complete {cfg : Config} {w : Calls} (hw : (revoking cfg Orderly).Reachable w) :
    (w.Quiet → w.state.db.Complete) ∧
    ∀ w₁ w₂ i e call r, (revoking cfg Orderly).step w (.run i e) w₁ →
      (w₁.state.db.devices ≠ w.state.db.devices ∨ w₁.state.db.grants ≠ w.state.db.grants) →
      (revoking cfg Orderly).Leads w₁ w₂ → w₂.threads i = some (call, .done r) → r = .ok () := by
  have hinv := inv_of_reachable hw
  refine ⟨fun hquiet => complete_of_consistent fun domainID subject =>
    (hinv.consistent domainID subject).congr (iff_false_intro ?_), ?_⟩
  · rintro ⟨i, call, ⟨-, p, hthread, hrun⟩, -⟩
    obtain ⟨r, rfl⟩ := hquiet i call p hthread
    exact hrun r rfl
  · intro w₁ w₂ i e call r hstep hchanged hleads hdone
    have hsure : w₂.Sure i := by
      refine hleads.stable (Q := fun w => w.Sure i) ?_ (hw.step hstep)
        (hinv.sure_of_changed hstep hchanged)
      intro w a w' hw' h hstep'
      exact (inv_of_reachable hw').sure_step h hstep'
    obtain ⟨-, call', p, hthread, hp⟩ := hsure
    rw [hdone] at hthread
    obtain ⟨rfl, rfl⟩ := Prod.mk.inj (Option.some.inj hthread)
    rcases hp with hrun | hok
    · exact absurd rfl (hrun r)
    · exact Handler.done.inj hok

/-! ### Two calls for one device -/

deriving instance DecidableEq for Call, TrustDevice

instance (db : Database) (domainID : Str) (subject : Subject) (epoch : ℤ) :
    Decidable (db.Listed domainID subject epoch) :=
  inferInstanceAs (Decidable (∃ r ∈ db.revocations, _))

/-- A call that revokes the device. -/
def exampleCall (revocationID : Str) : Call :=
  ⟨revocationID, lit "lab", .device (lit "a"), lit "lost", ⟨0, 0⟩⟩

theorem length_zeroKey : (List.replicate 64 (0 : UInt8)).length = 64 := List.length_replicate

/-- The device is authorized, and no call has been made. -/
def atFirst : Calls where
  state := ⟨⟨zeroIdentity, ⟨List.replicate 64 0, length_zeroKey⟩⟩, fun _ => none, [],
    fun _ => none, fun _ => none, fun _ => none, [], [], oneDevice (rowAt .authorized 0) []⟩
  trace := []
  threads := fun _ => none

/-- What a call has returned. -/
def Calls.returned (w : Calls) (i : ℕ) : Option (Call × Returned) :=
  match w.threads i with
  | some (call, .done r) => some (call, r)
  | _ => none

/-- What an action makes of the calls. -/
def Calls.after (w : Calls) (a : Server.Action Env Call) : Option Calls :=
  w.next (Call.handle exampleConfig) a

/-- There are two calls at most. -/
def Calls.Two (w : Calls) : Prop := ∀ i, w.threads (i + 2) = none

section Evaluated

variable {C : Calls → Server.Action Env Call → Prop} {e : Env} {w w' : Calls} {i : ℕ}
  {a : Server.Action Env Call}

theorem step_of_after (h : w.after a = some w') (hC : C w a) :
    (revoking exampleConfig C).step w a w' := ⟨hC, fun _ _ => trivial, h⟩

theorem threads_of_returned {x : Call × Returned} (h : w.returned i = some x) :
    w.threads i = some (x.1, .done x.2) := by
  unfold Calls.returned at h
  split at h
  · cases h
    assumption
  · cases h

theorem Calls.Two.after (h : w.Two) (ha : a.thread < 2) (hw' : w.after a = some w') : w'.Two := by
  intro i
  rw [Server.World.threads_next hw' (by omega), h i]

theorem Calls.Two.done (h : w.Two) {j : ℕ} {call : Call} {p : Run Returned Returned}
    (hj : j < 2 → (w.returned j).isSome ∨ (w.threads j).isNone)
    (hthread : w.threads j = some (call, p)) : ∃ r, p = .done r := by
  rcases lt_or_ge j 2 with hlt | hge
  · rcases hj hlt with hsome | hnone
    · obtain ⟨x, hx⟩ := Option.isSome_iff_exists.mp hsome
      rw [threads_of_returned hx] at hthread
      cases hthread
      exact ⟨_, rfl⟩
    · simp [hthread] at hnone
  · obtain ⟨i, rfl⟩ := Nat.exists_eq_add_of_le' hge
    rw [h i] at hthread
    cases hthread

theorem Calls.Two.quiet (h : w.Two) (h₀ : (w.returned 0).isSome)
    (h₁ : (w.returned 1).isSome ∨ (w.threads 1).isNone) : w.Quiet := by
  intro i call p hthread
  refine h.done (fun hi => ?_) hthread
  obtain rfl | rfl : i = 0 ∨ i = 1 := by omega
  · exact .inl h₀
  · exact h₁

theorem two_atFirst : atFirst.Two := fun _ => rfl

theorem reachable_atFirst : (revoking exampleConfig C).Reachable atFirst := by
  refine .init ⟨fun domainID subject => ?_, rfl, rfl⟩
  have hlisted : ∀ epoch, ¬(oneDevice (rowAt .authorized 0) []).Listed domainID subject epoch := by
    rintro epoch ⟨r, hr, -⟩
    exact absurd hr List.not_mem_nil
  cases subject with
  | device deviceID =>
    intro row hrow
    have hepoch : row.revocationEpoch = 0 := by
      simp only [atFirst, oneDevice, Function.update_apply] at hrow
      split_ifs at hrow
      rw [← Option.some.inj hrow]
      rfl
    exact ⟨fun epoch hpos hle => by omega, fun epoch h => absurd h (hlisted epoch), False.elim⟩
  | grant grantID =>
    intro row hrow
    cases hrow

theorem devices_ne {key : Str × Str} (h : w'.state.db.devices key ≠ w.state.db.devices key) :
    w'.state.db.devices ≠ w.state.db.devices := fun heq => h (congrFun heq key)

/-- A call may go on if it has begun, or if all others are done. -/
theorem orderly_run (hfails : e.sqlFails = false)
    (h : (∀ j call p, j ≠ i → w.threads j = some (call, p) → ∃ r, p = .done r) ∨ w.Begun i) :
    Orderly w (.run i e) := by
  refine ⟨fun _ _ => hfails, ?_⟩
  rintro _ _ _ _ hbegun _ ⟨j, call, ⟨hj, p, hthread, hrun⟩, -⟩
  rcases h with h | h
  · obtain ⟨r, rfl⟩ := h j call p (fun heq => hbegun (heq ▸ hj)) hthread
    exact hrun r rfl
  · exact hbegun h

end Evaluated

/-- One call is made, from its start to its end. -/
def firstCall : Option Calls := do
  let u ← atFirst.after (.start 0 (exampleCall (lit "1")))
  let u ← u.after (.run 0 exampleEnv)
  u.after (.run 0 exampleEnv)

theorem reachable_firstCall :
    ∃ u ∈ firstCall, (revoking exampleConfig Orderly).Reachable u ∧ u.Two := by
  obtain ⟨u₁, hu₁, u₂, hu₂, u, hu, hone, hbegun⟩ :
      ∃ u₁ ∈ atFirst.after (.start 0 (exampleCall (lit "1"))),
      ∃ u₂ ∈ u₁.after (.run 0 exampleEnv), ∃ u ∈ u₂.after (.run 0 exampleEnv),
      (u₁.threads 1).isNone ∧ ∃ x ∈ u₂.trace, x.thread = 0 := by decide +kernel
  have htwo := two_atFirst.after (by decide) hu₁
  have halone : Orderly u₁ (.run 0 exampleEnv) := orderly_run rfl (.inl fun j call p hj => by
    refine htwo.done fun hlt => .inr ?_
    obtain rfl : j = 1 := by omega
    exact hone)
  refine ⟨u, ?_, ?_, (htwo.after (by decide) hu₂).after (by decide) hu⟩
  · rw [Option.mem_def] at hu₁ hu₂ hu
    simp [firstCall, hu₁, hu₂, hu]
  · exact (((reachable_atFirst (C := Orderly)).step (step_of_after hu₁ ⟨nofun, nofun⟩)).step
      (step_of_after hu₂ halone)).step (step_of_after hu (orderly_run rfl (.inr hbegun)))

set_option synthInstance.maxSize 512 in
/-- The device is revoked by one call after the other, and listed with both epochs. -/
theorem feed_complete_once : ∃ w w₁ w₂,
    (revoking exampleConfig Orderly).Reachable w ∧
    (revoking exampleConfig Orderly).step w (.run 1 exampleEnv) w₁ ∧
    w₁.state.db.devices ≠ w.state.db.devices ∧
    (revoking exampleConfig Orderly).Leads w₁ w₂ ∧
    w₂.Quiet ∧ w₂.state.db.devices (lit "lab", lit "a") = some (rowAt .revoked 2) ∧
    w₂.state.db.Complete ∧ w₂.threads 0 = some (exampleCall (lit "1"), .done (.ok ())) ∧
    ∃ r, w₂.threads 1 = some (exampleCall (lit "2"), .done r) ∧ r = .ok () := by
  obtain ⟨u, hu, w, hw, w₁, hw₁, w₂, hw₂, ⟨hids, hfirst, hnone⟩, hfirst', hbegun, hchanged, hfirst₂,
      hsecond, hrow⟩ :
      ∃ u ∈ firstCall, ∃ w ∈ u.after (.start 1 (exampleCall (lit "2"))),
      ∃ w₁ ∈ w.after (.run 1 exampleEnv), ∃ w₂ ∈ w₁.after (.run 1 exampleEnv),
      ((∀ r ∈ u.state.db.revocations, r.id ≠ lit "2") ∧
        u.returned 0 = some (exampleCall (lit "1"), .ok ()) ∧ (u.threads 1).isNone) ∧
      (w.returned 0).isSome ∧ (∃ x ∈ w₁.trace, x.thread = 1) ∧
      w₁.state.db.devices (lit "lab", lit "a") ≠ w.state.db.devices (lit "lab", lit "a") ∧
      w₂.returned 0 = some (exampleCall (lit "1"), .ok ()) ∧
      w₂.returned 1 = some (exampleCall (lit "2"), .ok ()) ∧
      w₂.state.db.devices (lit "lab", lit "a") = some (rowAt .revoked 2) := by decide +kernel
  obtain ⟨_, hu', hreach, htwo⟩ := reachable_firstCall
  obtain rfl := Option.some.inj (hu.symm.trans hu')
  -- the second call comes when the first is done
  have hstart : Orderly u (.start 1 (exampleCall (lit "2"))) := by
    refine ⟨hids, fun j call p hthread => ?_⟩
    rcases j with _ | _ | j
    · rw [threads_of_returned hfirst] at hthread
      cases hthread
      decide
    · simp [hthread] at hnone
    · rw [htwo j] at hthread
      cases hthread
  have htwo' := htwo.after (by decide) hw
  have halone : Orderly w (.run 1 exampleEnv) := orderly_run rfl (.inl fun j call p hj => by
    refine htwo'.done fun hlt => .inl ?_
    obtain rfl : j = 0 := by omega
    exact hfirst')
  have hreach' := hreach.step (step_of_after hw hstart)
  have hstep := step_of_after hw₁ halone
  have hleads := System.Leads.refl.step (step_of_after hw₂ (orderly_run rfl (.inr hbegun)))
  have hquiet := ((htwo'.after (by decide) hw₁).after (by decide) hw₂).quiet (by simp [hfirst₂])
    (.inl (by simp [hsecond]))
  have hthread := threads_of_returned hsecond
  exact ⟨w, w₁, w₂, hreach', hstep, devices_ne hchanged, hleads, hquiet, hrow,
    (feed_complete (hleads.reachable (hreach'.step hstep))).1 hquiet, threads_of_returned hfirst₂,
    _, hthread, (feed_complete hreach').2 _ _ 1 exampleEnv _ _ hstep (.inl (devices_ne hchanged))
      hleads hthread⟩

/-- No statement fails. -/
def NoneFails (_ : Calls) : Server.Action Env Call → Prop
  | .start _ _ => True
  | .run _ e => e.sqlFails = false

set_option synthInstance.maxSize 1024 in
/-- **An epoch is never listed**: two calls update a device before either inserts a row, and the
second is refused although no statement failed. Or one call updates it, and its insertion
fails. -/
theorem revocation_unlisted :
    (∃ w w₁ w₂ row err, (revoking exampleConfig NoneFails).Reachable w ∧
      (revoking exampleConfig NoneFails).step w (.run 1 exampleEnv) w₁ ∧
      w₁.state.db.devices ≠ w.state.db.devices ∧
      (revoking exampleConfig NoneFails).Leads w₁ w₂ ∧ w₂.Quiet ∧
      w₂.threads 1 = some (exampleCall (lit "2"), .done (.error err)) ∧
      w₂.state.db.devices (lit "lab", lit "a") = some row ∧ row.revocationEpoch = 2 ∧
      ¬w₂.state.db.Listed (lit "lab") (.device (lit "a")) 1) ∧
    ∃ w row, (revoking exampleConfig fun _ _ => True).Reachable w ∧ w.Quiet ∧
      w.state.db.devices (lit "lab", lit "a") = some row ∧ row.revocationEpoch = 1 ∧
      ¬w.state.db.Listed (lit "lab") (.device (lit "a")) 1 := by
  constructor
  · -- the first call lists the epoch of the second
    obtain ⟨u, hu, u', hu', w, hw, w₁, hw₁, v, hv, w₂, hw₂, hchanged, hdone, hdone', hrow,
        hlisted⟩ :
        ∃ u ∈ atFirst.after (.start 0 (exampleCall (lit "1"))),
        ∃ u' ∈ u.after (.start 1 (exampleCall (lit "2"))), ∃ w ∈ u'.after (.run 0 exampleEnv),
        ∃ w₁ ∈ w.after (.run 1 exampleEnv), ∃ v ∈ w₁.after (.run 0 exampleEnv),
        ∃ w₂ ∈ v.after (.run 1 exampleEnv),
        w₁.state.db.devices (lit "lab", lit "a") ≠ w.state.db.devices (lit "lab", lit "a") ∧
        (w₂.returned 0).isSome ∧ w₂.returned 1 = some (exampleCall (lit "2"), .error sqlError) ∧
        w₂.state.db.devices (lit "lab", lit "a") = some (rowAt .revoked 2) ∧
        ¬w₂.state.db.Listed (lit "lab") (.device (lit "a")) 1 := by decide +kernel
    have hreach := (((reachable_atFirst (C := NoneFails)).step (step_of_after hu trivial)).step
      (step_of_after hu' trivial)).step (step_of_after hw rfl)
    have hleads := (System.Leads.refl.step (step_of_after (C := NoneFails) hv rfl)).step
      (step_of_after hw₂ rfl)
    have htwo := (((((two_atFirst.after (by decide) hu).after (by decide) hu').after (by decide)
      hw).after (by decide) hw₁).after (by decide) hv).after (by decide) hw₂
    exact ⟨w, w₁, w₂, _, sqlError, hreach, step_of_after hw₁ rfl, devices_ne hchanged, hleads,
      htwo.quiet hdone (.inl (by simp [hdone'])), threads_of_returned hdone', hrow, rfl, hlisted⟩
  · obtain ⟨u, hu, u', hu', w, hw, hdone, hnone, hrow, hlisted⟩ :
        ∃ u ∈ atFirst.after (.start 0 (exampleCall (lit "1"))),
        ∃ u' ∈ u.after (.run 0 exampleEnv),
        ∃ w ∈ u'.after (.run 0 { exampleEnv with sqlFails := true }), (w.returned 0).isSome ∧
        (w.threads 1).isNone ∧
        w.state.db.devices (lit "lab", lit "a") = some (rowAt .revoked 1) ∧
        ¬w.state.db.Listed (lit "lab") (.device (lit "a")) 1 := by decide +kernel
    have hreach := (((reachable_atFirst (C := fun _ _ => True)).step
      (step_of_after hu trivial)).step (step_of_after hu' trivial)).step (step_of_after hw trivial)
    have htwo := ((two_atFirst.after (by decide) hu).after (by decide) hu').after (by decide) hw
    exact ⟨w, _, hreach, htwo.quiet hdone (.inr hnone), hrow, rfl, hlisted⟩

end TrustRoot

end Iscp
