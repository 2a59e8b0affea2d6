import Iscp.TrustRoot.Frames

/-!
# The Trust Root, one request after the other

A Trust Root with a database writes every record twice, to memory and to a row. This is what the
handlers do to the records and to the rows when no other request comes between and no statement
fails (`Iscp.TrustRoot.Change`): a device is submitted, authorized or revoked, first in one place
and then in the other, or all is as before (`Iscp.TrustRoot.handle_alone`).
-/

namespace Iscp

namespace TrustRoot

open Go Crypto Identity Keyring Service Trust

open Handler (alone_attempt alone_done alone_look alone_note alone_ofExcept alone_stop alone_stopIf)

/-- No statement fails for a reason of the database. -/
def NoSqlFailure (_ : Snapshot) (x : Entry Env Event) : Prop := x.env.sqlFails = false

variable {P : Primitives} {cfg : Config} {i : ℕ} {c c' : Snapshot}

/-! ### What a request does to records and rows -/

/-- **A statement has run**: the rows are those it leaves, or it has failed and they are as
before. -/
def Wrote (cfg : Config) (x : Except Error Database) (db db' : Database) : Prop :=
  (∃ r, x = .ok r ∧ db'.devices = r.devices) ∨
    ((cfg.domainID = [] ∨ ∃ err, x = .error err) ∧ db'.devices = db.devices)

/-- The record `authorizeDevice` goes by. -/
def Found (cfg : Config) (s : State) (d : Str) (record : DeviceRecord) : Prop :=
  s.devices d = some record ∨ (s.devices d = none ∧ cfg.domainID ≠ [] ∧
    ∃ row, s.db.devices (cfg.domainID, d) = some row ∧
      deviceRecordFromRepository row = some record)

/-- **The changes to records and rows**, by the request that makes them. -/
inductive Change (cfg : Config) (s : State) : Request → State → Prop where
  /-- Nothing is changed. -/
  | keep {req : Request} {s' : State} (hdevices : s'.devices = s.devices)
      (hrows : s'.db.devices = s.db.devices) : Change cfg s req s'
  /-- An identity is entered. -/
  | submit {req : SubmitRequest} {s' : State} (hdomain : req.identity.domainID ≠ [])
      (hdevices : s'.devices = s.devices.set req.identity.deviceID
        ((s.record req.identity.deviceID).submit req.identity))
      (hrows : s'.db.devices = (s.db.submitDevice req.identity).devices) :
      Change cfg s (.submitDevice req) s'
  /-- A device is authorized. -/
  | authorize {h : Headers} {req : AuthorizeRequest} {s' : State} {record : DeviceRecord}
      (hfound : Found cfg s req.deviceID record) (hstatus : record.status ≠ .revoked)
      (hdevices : s'.devices = s.devices.set req.deviceID record.authorize)
      (hrows : Wrote cfg ((s.db.authorizeDevice cfg.domainID req.deviceID).map Prod.fst) s.db
        s'.db) : Change cfg s (.authorizeDevice h req) s'
  /-- A device is revoked. -/
  | revoke {h : Headers} {d reason : Str} {s' : State}
      (hadmin : adminAuthorized cfg.adminToken h = true)
      (hdevices : s'.devices = s.devices.set d (s.record d).revoke)
      (hrows : Wrote cfg (s.db.revokeDevice cfg.domainID d) s.db s'.db) :
      Change cfg s (.revokeDevice h d reason) s'

/-- What is known of devices, in a snapshot. -/
def books (c : Snapshot) : Map DeviceRecord × (Str × Str → Option TrustDevice) :=
  (c.state.devices, c.state.db.devices)

theorem nonceFrame_books : NonceFrame nonceStore Event.used books :=
  ⟨fun _ _ _ => rfl, fun _ _ _ _ _ _ _ _ => rfl, fun _ _ _ _ => rfl,
    fun _ _ _ _ _ _ _ _ => rfl, fun _ _ _ _ _ _ _ => rfl⟩

theorem Change.of_books {req : Request} (h : books c' = books c) :
    Change cfg c.state req c'.state :=
  .keep (congrArg Prod.fst h) (congrArg Prod.snd h)

variable {domainID : Str} {db db' : Database} {X : Error → Snapshot → Prop}

section Alone

variable {α ω : Type} {Q : α → Snapshot → Prop} {X : ω → Snapshot → Prop}

theorem requireAdmin_alone {h : Headers} {Q : Unit → Snapshot → Prop} {X : Answer → Snapshot → Prop}
    (hQ : adminAuthorized cfg.adminToken h = true → Q () c) (hX : ∀ r, X r c) :
    (requireAdmin cfg h).Alone NoSqlFailure i Q X c :=
  alone_stopIf (fun _ => hX _) fun h => hQ (Bool.not_eq_false _ |>.mp h)

theorem statement_alone {f : Env → Database → Except Error (Database × α)}
    {X : Error → Snapshot → Prop}
    (hok : ∀ e db a, f e c.state.db = .ok (db, a) →
      Q a ⟨{ c.state with db := db }, c.trace ++ [⟨i, e, []⟩]⟩)
    (hdomain : domainID = [] → ∀ r, X r c)
    (herror : ∀ e r, f e c.state.db = .error r → X r ⟨c.state, c.trace ++ [⟨i, e, []⟩]⟩) :
    (statement domainID f).Alone NoSqlFailure i Q X c := by
  refine .bind (alone_stopIf (fun h => hdomain h _) fun _ => ?_)
  refine alone_sql (fun e s' a events _ _ h => ?_) fun e r hC h => ?_
  · obtain ⟨⟨db, b⟩, hdb, ⟨⟩⟩ := bind_eq_ok_iff.mp h
    exact hok e db b hdb
  · have hsql : e.sqlFails = false := hC
    rcases h with h | h
    · rw [hsql] at h
      cases h
    · cases hf : f e c.state.db with
      | ok r =>
        rw [hf] at h
        cases h
      | error err =>
        rw [hf] at h
        obtain rfl := Except.error.inj h
        exact herror e err hf

end Alone

/-- The rows `SubmitDevice` leaves depend on the rows only. -/
theorem Database.submitDevice_devices (h : db.devices = db'.devices) (id : DeviceIdentity) :
    (db.submitDevice id).devices = (db'.submitDevice id).devices := by
  simp only [submitDevice, h]

/-- A submission that is served alone. -/
theorem submitDevice_alone (hrepo : cfg.repo = true) (req : SubmitRequest) :
    (submitDevice P cfg req).Alone NoSqlFailure i
      (fun _ c' => Change cfg c.state (.submitDevice req) c'.state)
      (fun _ c' => Change cfg c.state (.submitDevice req) c'.state) c := by
  rw [submitDevice]
  refine .bind (.mapStop (verifyProof_alone nonceFrame_books (fun c₁ h₁ => ?_) fun _ _ h =>
    .of_books h))
  refine .bind (.mapStop ?_)
  simp only [persistSubmittedDevice, hrepo, if_true]
  refine .bind (alone_ofExcept (fun _ _ => ?_) fun _ _ => .of_books h₁)
  refine .bind (alone_ofExcept (fun _ _ => ?_) fun _ _ => .of_books h₁)
  refine .bind (alone_clock fun e₂ _ => ?_)
  refine .bind (newUUID_alone nonceFrame_books.idle (fun _ c₃ h₃ => ?_) fun _ _ h =>
    .of_books (h.trans h₁))
  have hbooks : books c₃ = books c := h₃.trans h₁
  rcases eq_or_ne req.identity.domainID [] with hdomain | hdomain
  · exact .bind (alone_stopIf (fun _ => .of_books hbooks) (absurd hdomain))
  refine statement_alone (fun e₄ db _ h => ?_) (fun h => absurd h hdomain) fun _ _ h => by cases h
  cases h
  refine alone_attempt (fun e₅ s' _ events _ h => ?_) fun _ _ _ h => by cases h
  cases h
  obtain ⟨hdevices, hrows⟩ := Prod.mk.inj hbooks
  refine .submit hdomain ?_ (Database.submitDevice_devices hrows _)
  simp only [State.record, hdevices]

theorem persistGrant_alone {grant : Grant} {Q : Unit → Snapshot → Prop}
    (hQ : ∀ c', books c' = books c → Q () c') (hX : ∀ r c', books c' = books c → X r c') :
    (persistGrant cfg grant).Alone NoSqlFailure i Q X c := by
  rw [persistGrant]
  split_ifs
  · refine .bind (alone_ofExcept (fun _ _ => ?_) fun _ _ => hX _ _ rfl)
    refine .bind (alone_ofExcept (fun _ _ => ?_) fun _ _ => hX _ _ rfl)
    refine .bind (alone_ofExcept (fun _ _ => ?_) fun _ _ => hX _ _ rfl)
    refine .bind (alone_clock fun e₁ _ => ?_)
    refine .bind (newUUID_alone nonceFrame_books.idle (fun _ c₂ h₂ => ?_) fun _ _ h => hX _ _ h)
    refine statement_alone (fun e₃ db _ h => ?_) (fun _ _ => hX _ _ h₂) fun _ _ h => by cases h
    cases h
    exact hQ _ h₂
  · exact alone_done (hQ _ rfl)

theorem activeSigner_alone {Q : Device → Snapshot → Prop}
    (hQ : ∀ signer c', books c' = books c → Q signer c')
    (hX : ∀ r c', books c' = books c → X r c') : (activeSigner cfg).Alone NoSqlFailure i Q X c := by
  refine .bind (alone_attempt (fun e₁ s' key events _ h => ?_) fun _ _ _ _ => hX _ _ rfl)
  obtain ⟨_, -, ⟨⟩⟩ := bind_eq_ok_iff.mp h
  exact .bind (alone_clock fun e₂ _ => alone_done (hQ _ _ rfl))

/-- The row `getDevice` finds. -/
theorem getDevice_eq_ok {e : Env} {d : Str} {row : Option TrustDevice} :
    getDevice cfg e db d = .ok row ↔
      cfg.domainID ≠ [] ∧ e.sqlFails = false ∧ db.devices (cfg.domainID, d) = row := by
  simp only [getDevice, bind_eq_ok_iff, failIf_eq_ok_iff, exists_const, Bool.not_eq_true]
  refine and_congr_right fun _ => and_congr_right fun _ => ?_
  exact ⟨Except.ok.inj, congrArg _⟩

theorem checkDevice_alone (hrepo : cfg.repo = true) (d : Str) {Q : DeviceRecord → Snapshot → Prop}
    {X : Answer → Snapshot → Prop}
    (hQ : ∀ record c', Found cfg c.state d record → record.status ≠ .revoked →
      books c' = (c.state.devices.set d record.authorize, c.state.db.devices) →
      c'.state.db = c.state.db → Q record.authorize c')
    (hX : ∀ r c', books c' = books c → X r c') :
    (checkDevice cfg d).Alone NoSqlFailure i Q X c := by
  refine alone_attempt (fun e s' record' events _ h => ?_) fun _ _ _ _ => hX _ _ rfl
  obtain ⟨found, hfound, h⟩ := bind_eq_ok_iff.mp h
  cases found with
  | none => cases h
  | some record =>
    obtain ⟨_, hstatus, ⟨⟩⟩ := bind_eq_ok_iff.mp h
    refine hQ record _ ?_ (failIf_eq_ok_iff.mp hstatus) rfl rfl
    rw [mapError_eq_ok_iff, findRecord] at hfound
    split at hfound
    · next record' hrecord =>
      cases hfound
      exact .inl hrecord
    · next hnone =>
      simp only [hrepo, if_true, map_eq_ok_iff, getDevice_eq_ok] at hfound
      obtain ⟨_, ⟨hdomain, -, rfl⟩, hrow⟩ := hfound
      obtain ⟨row, hrow, hrecord⟩ := Option.bind_eq_some_iff.mp hrow
      exact .inr ⟨hnone, hdomain, row, hrow, hrecord⟩

/-- An authorization that is served alone. -/
theorem authorizeDevice_alone (hrepo : cfg.repo = true) (h : Headers) (req : AuthorizeRequest) :
    (authorizeDevice P cfg h req).Alone NoSqlFailure i
      (fun _ c' => Change cfg c.state (.authorizeDevice h req) c'.state)
      (fun _ c' => Change cfg c.state (.authorizeDevice h req) c'.state) c := by
  rw [authorizeDevice]
  refine .bind (requireAdmin_alone (fun _ => ?_) fun _ => .of_books rfl)
  refine .bind (checkDevice_alone hrepo _ (fun record c₁ hfound hstatus hbooks hdb => ?_)
    fun _ _ h => .of_books h)
  -- the record in memory is the new one, and the row is to follow
  have hdone : ∀ rows c', Wrote cfg ((c.state.db.authorizeDevice cfg.domainID req.deviceID).map
      Prod.fst) c.state.db rows → books c' = (c.state.devices.set req.deviceID record.authorize,
        rows.devices) → Change cfg c.state (.authorizeDevice h req) c'.state := by
    intro rows c' hwrote hc'
    obtain ⟨hdevices, hrows⟩ := Prod.mk.inj hc'
    refine .authorize hfound hstatus hdevices ?_
    rwa [Wrote, hrows]
  refine .bind (.mapStop ?_)
  simp only [authorizedRecord, hrepo, if_true]
  refine .bind (statement_alone (fun e₂ db row hdb' => ?_) (fun hdomain _ => ?_)
    fun e₂ err herr => ?_)
  · rw [hdb] at hdb'
    have hfinal := fun c' => hdone db c' (.inl ⟨db, by rw [hdb']; rfl, rfl⟩)
    have hc₂ : ∀ t, books ⟨{ c₁.state with db := db }, t⟩ =
        (c.state.devices.set req.deviceID record.authorize, db.devices) :=
      fun _ => congrArg (·, db.devices) (congrArg Prod.fst hbooks)
    refine alone_done ?_
    refine .bind (.mapStop (alone_ofExcept (fun _ _ => ?_) fun _ _ => hfinal _ (hc₂ _)))
    refine .bind (alone_clock fun e₃ _ => ?_)
    refine .bind (.mapStop (activeSigner_alone (fun _ c₄ h₄ => ?_) fun _ c₄ h₄ =>
      hfinal _ (h₄.trans (hc₂ _))))
    have hc₄ := h₄.trans (hc₂ _)
    refine .bind (.mapStop (alone_ofExcept (fun _ _ => ?_) fun _ _ => hfinal _ hc₄))
    refine .bind (alone_note fun e₅ _ => ?_)
    refine .bind (.mapStop (persistGrant_alone (fun c₆ h₆ => ?_) fun _ _ h₆ =>
      hfinal _ (h₆.trans hc₄)))
    refine alone_attempt (fun e₇ s' _ events _ hs' => ?_) fun _ _ _ hs' => by cases hs'
    cases hs'
    exact hfinal _ (h₆.trans hc₄)
  · exact hdone c.state.db _ (.inr ⟨.inl hdomain, rfl⟩) hbooks
  · rw [hdb] at herr
    exact hdone c.state.db _ (.inr ⟨.inr ⟨err, by rw [herr]; rfl⟩, rfl⟩) hbooks

theorem Database.addRevocation_devices {row : TrustRevocation}
    (h : db.addRevocation row = .ok db') : db'.devices = db.devices := by
  obtain ⟨_, -, ⟨⟩⟩ := bind_eq_ok_iff.mp h
  rfl

/-- A revocation that is served alone. -/
theorem revokeDevice_alone (hrepo : cfg.repo = true) (h : Headers) (d reason : Str) :
    (revokeDevice cfg h d reason).Alone NoSqlFailure i
      (fun _ c' => Change cfg c.state (.revokeDevice h d reason) c'.state)
      (fun _ c' => Change cfg c.state (.revokeDevice h d reason) c'.state) c := by
  rw [revokeDevice]
  refine .bind (requireAdmin_alone (fun hadmin => ?_) fun _ => .of_books rfl)
  refine .bind (alone_clock fun e₁ _ => ?_)
  refine .bind (.mapStop (newUUID_alone (v := Config.state) (fun _ _ _ => rfl) (fun id c₂ h₂ => ?_)
    fun _ _ h => .keep (by rw [h]) (by rw [h])))
  have hstate : c₂.state = c.state := h₂
  refine .bind (alone_attempt (fun e₃ s₃ record events _ h₃ => ?_) fun _ _ _ _ =>
    .keep (by rw [hstate]) (by rw [hstate]))
  rw [hstate] at h₃
  obtain ⟨_, -, ⟨⟩⟩ := bind_eq_ok_iff.mp h₃
  -- the record in memory is the new one, and the row is to follow
  have hdone : ∀ rows c', Wrote cfg (c.state.db.revokeDevice cfg.domainID d) c.state.db rows →
      books c' = (c.state.devices.set d (c.state.record d).revoke, rows.devices) →
      Change cfg c.state (.revokeDevice h d reason) c'.state := by
    intro rows c' hwrote hc'
    obtain ⟨hdevices, hrows⟩ := Prod.mk.inj hc'
    refine .revoke hadmin hdevices ?_
    rwa [Wrote, hrows]
  simp only [hrepo, if_true]
  refine .bind (.mapStop ?_)
  rw [repoRevokeDevice]
  refine .bind (statement_alone (fun e₄ db _ hdb => ?_) (fun hdomain _ => ?_) fun e₄ err herr => ?_)
  · obtain ⟨db', hdb', ⟨⟩⟩ := bind_eq_ok_iff.mp hdb
    have hfinal := fun c' => hdone db c' (.inl ⟨db, hdb', rfl⟩)
    refine statement_alone (fun e₅ db₅ _ h₅ => ?_) (fun _ _ => hfinal _ rfl) fun _ _ _ =>
      hfinal _ rfl
    have hdb₅ : db₅.devices = db.devices := by
      split at h₅
      · cases h₅
        rfl
      · obtain ⟨_, hadd, ⟨⟩⟩ := bind_eq_ok_iff.mp h₅
        exact Database.addRevocation_devices hadd
    refine .bind (alone_look fun e₆ _ => alone_done ?_)
    exact hfinal _ (congrArg (_, ·) hdb₅)
  · exact hdone c.state.db _ (.inr ⟨.inl hdomain, rfl⟩) rfl
  · refine hdone c.state.db _ (.inr ⟨.inr ?_, rfl⟩) rfl
    cases hrow : c.state.db.revokeDevice cfg.domainID d with
    | ok db =>
      rw [hrow] at herr
      cases herr
    | error err' => exact ⟨err', rfl⟩


/-- **`deviceStatus` reports the record in memory, or else the row.** -/
theorem deviceStatus_alone (hrepo : cfg.repo = true) (d domainID : Str) :
    (deviceStatus cfg d domainID).Alone NoSqlFailure i
      (fun r c' => books c' = books c ∧
        ∃ record, r = .json 200 (.deviceStatus record.statusResponse) ∧
        Found cfg c.state d record)
      (fun r c' => books c' = books c ∧ ∃ status err, r = .error status err) c := by
  rw [deviceStatus]
  refine .bind (alone_look fun e₁ _ => ?_)
  simp only [hrepo, and_true]
  split_ifs with hnone
  · refine .bind (alone_look fun e₂ _ => ?_)
    refine .bind (.mapStop (alone_ofExcept (fun row hrow => ?_) fun _ _ => ⟨rfl, _, _, rfl⟩))
    obtain ⟨hdomain, -, rfl⟩ := getDevice_eq_ok.mp hrow
    simp only [Handler.pure_eq, Handler.done_bind]
    split
    · exact alone_stop ⟨rfl, _, _, rfl⟩
    · next record hrecord =>
      obtain ⟨row, hrow', hrecord⟩ := Option.bind_eq_some_iff.mp hrecord
      refine .bind (alone_stopIf (fun _ => ⟨rfl, _, _, rfl⟩) fun _ => ?_)
      exact alone_done ⟨rfl, record, rfl, .inr ⟨hnone, hdomain, row, hrow', hrecord⟩⟩
  · simp only [Handler.pure_eq, Handler.done_bind]
    split
    · exact alone_stop ⟨rfl, _, _, rfl⟩
    · next record hrecord =>
      refine .bind (alone_stopIf (fun _ => ⟨rfl, _, _, rfl⟩) fun _ => ?_)
      exact alone_done ⟨rfl, record, rfl, .inl hrecord⟩

/-! ### Requests that leave records and rows alone -/

/-- What is known of devices, in memory and in the database. -/
def State.books (s : State) : Map DeviceRecord × (Str × Str → Option TrustDevice) :=
  (s.devices, s.db.devices)

theorem Database.revokeGrant_devices {grantID : Str} {now : Time}
    (h : db.revokeGrant domainID grantID now = .ok db') : db'.devices = db.devices := by
  rw [revokeGrant] at h
  split at h
  · cases h
  · obtain ⟨_, -, ⟨⟩⟩ := bind_eq_ok_iff.mp h
    rfl

/-- **What a request does to records and rows.** -/
theorem handle_alone (hrepo : cfg.repo = true) (req : Request) :
    (handle P cfg req).Alone NoSqlFailure i (fun _ c' => Change cfg c.state req c'.state)
      (fun _ c' => Change cfg c.state req c'.state) c := by
  have hkeep : ∀ {p : Run Answer Answer} (_ : p.Frames State.books fun _ => True) req,
      p.Alone NoSqlFailure i (fun _ c' => Change cfg c.state req c'.state)
        (fun _ c' => Change cfg c.state req c'.state) c := fun hp req =>
    (hp.alone c).mono (fun _ _ h => .of_books h.1) fun _ _ h => .of_books h.1
  cases req with
  | submitDevice req => exact submitDevice_alone hrepo req
  | authorizeDevice h req => exact authorizeDevice_alone hrepo h req
  | verifyGrant req => exact hkeep (verifyGrant_frames (fun _ _ => trivial) req) _
  | deviceStatus d domainID =>
    exact (deviceStatus_alone hrepo d domainID).mono (fun _ _ h => .of_books h.1) fun _ _ h =>
      .of_books h.1
  | grantStatus grantID domainID => exact hkeep (grantStatus_frames grantID domainID) _
  | revokeGrant h grantID reason =>
    refine hkeep (revokeGrant_frames (fun s row db hadd => ?_) (fun s g now db hrow => ?_)
      (fun _ _ _ _ => rfl) (fun _ => trivial) h grantID reason) _
    · exact congrArg (s.devices, ·) (Database.addRevocation_devices hadd)
    · exact congrArg (s.devices, ·) (Database.revokeGrant_devices hrow)
  | revokeDevice h d reason => exact revokeDevice_alone hrepo h d reason
  | rotateKeys h =>
    exact hkeep (rotateKeys_frames (fun _ _ => rfl) (fun _ _ => rfl) (fun _ => trivial)
      (fun _ => trivial) h) _
  | adminAudit h => exact hkeep (adminAudit_frames h) _
  | revocations q => exact hkeep (serveRevocations_frames q) _

end TrustRoot

end Iscp
