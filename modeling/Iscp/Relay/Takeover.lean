import Iscp.Relay.Credentials
import Iscp.Relay.Requests

/-!
# Whose key a device id stands for

A request to bind an identity proves that it comes from the holder of the key in this identity. It
is not compared with the key the device has been bound with before: what is known of a device is
overwritten by the last one who binds its id, in memory and in the database.

The key of a device stays what it is, if nobody asks for anything else: if each identity that is
admitted has the key of those admitted before it, and of those in the database, for the same device
(`Iscp.Relay.SameKey`). Then no other identity is stored for the device, gets credentials, or
connects (`Iscp.Relay.no_takeover`).
-/

namespace Iscp

namespace Relay

open Go Crypto Identity Replay Service Provisioning

/-- An identity was admitted by some request. -/
def Admitted (t : Trace) (id : DeviceIdentity) : Prop := ∃ i, Did t i (.admitted id)

variable {id : DeviceIdentity} {deviceID domainID key : Str} {row : RelayDevice}

theorem admitted_snoc {t : Trace} {x : Entry Env Event} :
    Admitted (t ++ [x]) id ↔ Admitted t id ∨ .admitted id ∈ x.events := by
  simp only [Admitted, did_snoc, exists_or, exists_eq_left']

variable (cfg : Config) in
/-- **An identity is admitted with the key its device has already.** -/
def SameKey (c : Snapshot) (x : Entry Env Event) : Prop :=
  ∀ id, .admitted id ∈ x.events →
    (∀ id', Admitted c.trace id' → id'.deviceID = id.deviceID →
      id'.publicKey.pub = id.publicKey.pub) ∧
    (cfg.repo = true → ∀ domainID row, c.state.db.devices (domainID, id.deviceID) = some row →
      row.identity.publicKey.pub = id.publicKey.pub)

variable {P : Primitives} {J : Unmarshal} {cfg : Config} {req : Request} {c : Snapshot}
  {x : Entry Env Event} {s : State}

/-! ### Runs -/

variable (cfg) in
/-- **What holds of the keys of devices.** -/
structure OneKey (c : Snapshot) : Prop where
  admitted : ∀ id id', Admitted c.trace id → Admitted c.trace id' → id.deviceID = id'.deviceID →
    id.publicKey.pub = id'.publicKey.pub
  devices : ∀ deviceID id, c.state.mem.devices deviceID = some id →
    id.deviceID = deviceID ∧ Admitted c.trace id
  rows : cfg.repo = true → ∀ domainID deviceID row,
    c.state.db.devices (domainID, deviceID) = some row → ∀ id, Admitted c.trace id →
      id.deviceID = deviceID → row.identity.publicKey.pub = id.publicKey.pub
  looked : ∀ i deviceID id, Did c.trace i (.looked deviceID id) →
    (id.deviceID = deviceID ∧ Admitted c.trace id) ∨
    (cfg.repo = true ∧ ∃ row, c.state.db.devices (cfg.domainID, deviceID) = some row ∧
      row.identity.publicKey.pub = id.publicKey.pub)
  ready : ∀ i id, Did c.trace i (.ready id) → Did c.trace i (.looked id.deviceID id)
  issued : ∀ i id access refresh, Did c.trace i (.issued (.bound id) access refresh) →
    Admitted c.trace id

/-- A row keeps the key of its device. -/
theorem OneKey.row_step (hc : OneKey cfg c) (h : Effect P cfg req c x s) (hrepo : cfg.repo = true)
    (hrow : c.state.db.devices (domainID, deviceID) = some row) :
    ∃ row', s.db.devices (domainID, deviceID) = some row' ∧
      row'.identity.publicKey.pub = row.identity.publicKey.pub := by
  rcases h.rows_cases with hsame | ⟨id, hv⟩ | ⟨deviceID', hv⟩
  · exact ⟨row, by rw [hsame, hrow], rfl⟩
  · obtain ⟨-, -, hadmitted, rfl⟩ := h.says_of_mem hv
    rcases eq_or_ne (domainID, deviceID) (id.domainID, id.deviceID) with hkey | hkey
    · cases hkey
      exact ⟨_, Database.devices_insertDevice_self ..,
        (hc.rows hrepo _ _ row hrow id ⟨_, hadmitted⟩ rfl).symm⟩
    · exact ⟨row, (Database.devices_insertDevice_of_ne _ _ hkey).trans hrow, rfl⟩
  · obtain ⟨-, rfl⟩ := h.says_of_mem hv
    refine ⟨_, Option.map_eq_some_iff.mpr ⟨row, hrow, rfl⟩, ?_⟩
    split_ifs <;> rfl

/-- A row of a device was there before, or its device was admitted. -/
theorem row_cases (h : Effect P cfg req c x s)
    (hrow : s.db.devices (domainID, deviceID) = some row) :
    (∃ row', c.state.db.devices (domainID, deviceID) = some row' ∧
      row'.identity = row.identity) ∨
    (row.identity.deviceID = deviceID ∧ Did c.trace x.thread (.admitted row.identity)) := by
  rcases h.rows_cases with hsame | ⟨id, hv⟩ | ⟨deviceID', hv⟩
  · exact .inl ⟨row, by rw [← hsame, hrow], rfl⟩
  · obtain ⟨-, -, hadmitted, rfl⟩ := h.says_of_mem hv
    rcases eq_or_ne (domainID, deviceID) (id.domainID, id.deviceID) with hkey | hkey
    · cases hkey
      obtain rfl := Option.some.inj ((Database.devices_insertDevice_self ..).symm.trans hrow)
      exact .inr ⟨rfl, hadmitted⟩
    · exact .inl ⟨row, (Database.devices_insertDevice_of_ne _ _ hkey).symm.trans hrow, rfl⟩
  · obtain ⟨-, rfl⟩ := h.says_of_mem hv
    obtain ⟨row', hrow', rfl⟩ := Option.map_eq_some_iff.mp hrow
    refine .inl ⟨row', hrow', ?_⟩
    split_ifs <;> rfl

theorem Request.Binds.eq {id' : DeviceIdentity} (h : req.Binds id) (h' : req.Binds id') :
    id = id' := by
  cases req with
  | bindSelf _ req => exact h.symm.trans h'
  | registerWithTicket req => exact h.symm.trans h'
  | _ => exact h.elim

/-- One section leaves a device with one key. -/
theorem OneKey.step (hc : OneKey cfg c) (h : Effect P cfg req c x s) (hx : SameKey cfg c x) :
    OneKey cfg ⟨s, c.trace ++ [x]⟩ := by
  have hold : ∀ {id}, Admitted c.trace id → Admitted (c.trace ++ [x]) id := fun h =>
    admitted_snoc.mpr (.inl h)
  refine ⟨fun id id' hid hid' hdevice => ?_, fun deviceID id hid => ?_,
    fun hrepo domainID deviceID row hrow id hid hdevice => ?_, fun i deviceID id hdid => ?_,
    fun i id hdid => ?_, fun i id access refresh hdid => ?_⟩
  · rcases admitted_snoc.mp hid with hid | hv <;> rcases admitted_snoc.mp hid' with hid' | hv'
    · exact hc.admitted id id' hid hid' hdevice
    · exact (hx id' hv').1 id hid hdevice
    · exact ((hx id hv).1 id' hid' hdevice.symm).symm
    · rw [(h.says_of_mem hv).1.eq (h.says_of_mem hv').1]
  · rcases h.devices_cases with hsame | ⟨id', hv⟩
    · obtain ⟨hdevice, hadmitted⟩ := hc.devices deviceID id (by rw [← hsame, hid])
      exact ⟨hdevice, hold hadmitted⟩
    · obtain ⟨-, hadmitted, rfl⟩ := h.says_of_mem hv
      rcases eq_or_ne deviceID id'.deviceID with rfl | hne
      · obtain rfl := Option.some.inj ((Map.set_self ..).symm.trans hid)
        exact ⟨rfl, hold ⟨_, hadmitted⟩⟩
      · obtain ⟨hdevice, hadmitted⟩ :=
          hc.devices deviceID id ((Map.set_of_ne _ hne _).symm.trans hid)
        exact ⟨hdevice, hold hadmitted⟩
  · rcases row_cases h hrow with ⟨row', hrow', hsame⟩ | ⟨hdevice', hadmitted⟩
    · rw [← hsame]
      rcases admitted_snoc.mp hid with hid | hv
      · exact hc.rows hrepo domainID deviceID row' hrow' id hid hdevice
      · exact (hx id hv).2 hrepo domainID row' (hdevice ▸ hrow')
    · rcases admitted_snoc.mp hid with hid | hv
      · exact hc.admitted _ _ ⟨_, hadmitted⟩ hid (hdevice'.trans hdevice.symm)
      · exact (hx id hv).1 _ ⟨_, hadmitted⟩ (hdevice'.trans hdevice.symm)
  · rcases did_snoc.mp hdid with hdid | ⟨-, hv⟩
    · rcases hc.looked i deviceID id hdid with ⟨hdevice, hadmitted⟩ | ⟨hrepo, row, hrow, hkey⟩
      · exact .inl ⟨hdevice, hold hadmitted⟩
      · obtain ⟨row', hrow', hkey'⟩ := hc.row_step h hrepo hrow
        exact .inr ⟨hrepo, row', hrow', hkey'.trans hkey⟩
    · obtain ⟨rfl, ⟨hid, -⟩ | ⟨hrepo, row, hrow, -, rfl⟩⟩ := h.says_of_mem hv
      · obtain ⟨hdevice, hadmitted⟩ := hc.devices deviceID id hid
        exact .inl ⟨hdevice, hold hadmitted⟩
      · exact .inr ⟨hrepo, row, hrow, rfl⟩
  · rcases did_snoc.mp hdid with hdid | ⟨rfl, hv⟩
    · exact did_snoc.mpr (.inl (hc.ready i id hdid))
    · exact did_snoc.mpr (.inl (h.says_of_mem hv))
  · rcases did_snoc.mp hdid with hdid | ⟨-, hv⟩
    · exact hold (hc.issued i id access refresh hdid)
    · obtain ⟨-, hadmitted, -⟩ := h.says_of_mem hv
      exact hold ⟨_, hadmitted⟩

theorem oneKey_of_reachable (hc : (sections P cfg (SameKey cfg)).Reachable c) : OneKey cfg c := by
  refine hc.invariant ?_ ?_
  · rintro ⟨s, t⟩ ⟨hinit, rfl⟩
    have hnew : s.mem = Memory.new := mem_of_initial hinit
    have hnone : ∀ {i v}, ¬Did ([] : Trace) i v := fun ⟨_, hx, _⟩ => List.not_mem_nil hx
    refine ⟨fun _ _ ⟨_, h⟩ => (hnone h).elim, fun deviceID id hid => ?_,
      fun _ _ _ _ _ _ ⟨_, h⟩ => (hnone h).elim, fun _ _ _ h => (hnone h).elim,
      fun _ _ h => (hnone h).elim, fun _ _ _ _ h => (hnone h).elim⟩
    rw [show (⟨s, []⟩ : Snapshot).state.mem = Memory.new from hnew] at hid
    cases hid
  · rintro c x ⟨s, t⟩ - hc ⟨hC, rfl, req, h⟩
    exact hc.step h hC

/-! ### Main results -/

variable (cfg) in
/-- **The key a device is bound to**: it is in the identity the Relay has for the device, in memory
or in the database. -/
def KeyOf (s : State) (deviceID : Str) (key : Str) : Prop :=
  (∃ id, s.mem.devices deviceID = some id ∧ id.publicKey.pub = key) ∨
  (cfg.repo = true ∧ ∃ row, s.db.devices (cfg.domainID, deviceID) = some row ∧
    row.identity.publicKey.pub = key)

theorem OneKey.eq_of_admitted (hc : OneKey cfg c) (hkey : KeyOf cfg c.state deviceID key)
    (hid : Admitted c.trace id) (hdevice : id.deviceID = deviceID) : id.publicKey.pub = key := by
  rcases hkey with ⟨id', hid', rfl⟩ | ⟨hrepo, row, hrow, rfl⟩
  · obtain ⟨hdevice', hadmitted⟩ := hc.devices deviceID id' hid'
    exact hc.admitted id id' hid hadmitted (hdevice.trans hdevice'.symm)
  · exact (hc.rows hrepo _ _ row hrow id hid hdevice).symm

theorem OneKey.keyOf_unique (hc : OneKey cfg c) {key' : Str} (hkey : KeyOf cfg c.state deviceID key)
    (hkey' : KeyOf cfg c.state deviceID key') : key' = key := by
  rcases hkey' with ⟨id', hid', rfl⟩ | ⟨hrepo, row, hrow, rfl⟩
  · obtain ⟨hdevice, hadmitted⟩ := hc.devices deviceID id' hid'
    exact hc.eq_of_admitted hkey hadmitted hdevice
  · rcases hkey with ⟨id, hid, rfl⟩ | ⟨-, row', hrow', rfl⟩
    · obtain ⟨hdevice, hadmitted⟩ := hc.devices deviceID id hid
      exact hc.rows hrepo _ _ row hrow id hadmitted hdevice
    · rw [Option.some.inj (hrow.symm.trans hrow')]

theorem OneKey.keyOf_step (hc : OneKey cfg c) (h : Effect P cfg req c x s)
    (hkey : KeyOf cfg c.state deviceID key) : KeyOf cfg s deviceID key := by
  rcases hkey with ⟨id, hid, rfl⟩ | ⟨hrepo, row, hrow, rfl⟩
  · rcases h.devices_cases with hsame | ⟨id', hv⟩
    · exact .inl ⟨id, by rw [hsame, hid], rfl⟩
    · obtain ⟨-, hadmitted, rfl⟩ := h.says_of_mem hv
      rcases eq_or_ne deviceID id'.deviceID with rfl | hne
      · exact .inl ⟨id', Map.set_self ..,
          hc.eq_of_admitted (.inl ⟨id, hid, rfl⟩) ⟨_, hadmitted⟩ rfl⟩
      · exact .inl ⟨id, (Map.set_of_ne _ hne _).trans hid, rfl⟩
  · obtain ⟨row', hrow', hkey⟩ := hc.row_step h hrepo hrow
    exact .inr ⟨hrepo, row', hrow', hkey⟩

/-- **Nobody takes a device over**, if it is only ever admitted with the key it has: once it is
bound to a key, it stays bound to this key only, and whoever gets credentials for it by binding it
or connects as this device has this key. -/
theorem no_takeover {w w' : World} (hw : (server P J cfg (SameKey cfg)).Reachable w)
    (h : (server P J cfg (SameKey cfg)).Leads w w') {deviceID : Str} {key : Str}
    (hkey : KeyOf cfg w.state deviceID key) :
    (∀ key', KeyOf cfg w'.state deviceID key' ↔ key' = key) ∧
    (∀ i id access refresh, Did w'.trace i (.issued (.bound id) access refresh) →
      id.deviceID = deviceID → id.publicKey.pub = key) ∧
    ∀ i id, Did w'.trace i (.ready id) → id.deviceID = deviceID → id.publicKey.pub = key := by
  have hc := oneKey_of_reachable (sound (h.reachable hw)).reachable
  have hkey' : KeyOf cfg w'.state deviceID key := by
    refine (sound_leads hw h).stable (Q := fun c => KeyOf cfg c.state deviceID key) ?_
      (sound hw).reachable hkey
    rintro c x c' hc hkey ⟨-, -, req, h⟩
    exact (oneKey_of_reachable hc).keyOf_step h hkey
  refine ⟨fun key' => ⟨hc.keyOf_unique hkey', fun h => h ▸ hkey'⟩,
    fun i id access refresh hdid hdevice =>
      hc.eq_of_admitted hkey' (hc.issued i id access refresh hdid) hdevice,
    fun i id hdid hdevice => ?_⟩
  subst hdevice
  rcases hc.looked i _ id (hc.ready i id hdid) with ⟨-, hadmitted⟩ | ⟨hrepo, row, hrow, hrowKey⟩
  · exact hc.eq_of_admitted hkey' hadmitted rfl
  · exact hc.keyOf_unique hkey' (.inr ⟨hrepo, row, hrow, hrowKey⟩)

/-- The identity that gets credentials. -/
def Event.binds : Event → Option DeviceIdentity
  | .issued (.bound id) _ _ => some id
  | _ => none

theorem Event.exists_of_binds {v : Event} (h : v.binds = some id) :
    ∃ access refresh, v = .issued (.bound id) access refresh := by
  unfold Event.binds at h
  split at h <;> simp_all

set_option synthInstance.maxSize 512 in
/-- A device is bound to its key, and binds itself again with the same key. -/
theorem no_takeover_bound : ∃ w w' key id access refresh,
    (server .transparent unreadable (exampleConfig false)
      (SameKey (exampleConfig false))).Reachable w ∧
    (server .transparent unreadable (exampleConfig false)
      (SameKey (exampleConfig false))).Leads w w' ∧
    KeyOf (exampleConfig false) w.state (lit "a") key ∧
    Did w'.trace 1 (.issued (.bound id) access refresh) ∧ id.deviceID = lit "a" ∧
    (∀ key', KeyOf (exampleConfig false) w'.state (lit "a") key' ↔ key' = key) ∧
    (∀ i id access refresh, Did w'.trace i (.issued (.bound id) access refresh) →
      id.deviceID = lit "a" → id.publicKey.pub = key) ∧
    ∀ i id, Did w'.trace i (.ready id) → id.deviceID = lit "a" → id.publicKey.pub = key := by
  obtain ⟨dev, -, w, hw, w', hw', ⟨id, hid, -⟩, hone, hdevice, x, hx, hthread, v, hv, hbinds⟩ :
      ∃ dev ∈ exampleProof (lit "a") (lit "0") (lit "2") 1, ∃ w ∈ binding [],
        ∃ w' ∈ (serves 1 (.bindSelf noHeaders ⟨dev.1, dev.2⟩) (drawing 1) 8).foldlM
          (Server.World.next (handle .transparent unreadable (exampleConfig false))) w,
          (∃ id ∈ w.state.mem.devices (lit "a"), True) ∧
            (∀ y ∈ w'.trace, ∀ v ∈ y.events, ∀ id ∈ v.admits,
              id.publicKey.pub = dev.1.publicKey.pub) ∧ dev.1.deviceID = lit "a" ∧
            ∃ x ∈ w'.trace, x.thread = 1 ∧ ∃ v ∈ x.events, v.binds = some dev.1 := by
    decide +kernel
  obtain ⟨access, refresh, rfl⟩ := Event.exists_of_binds hbinds
  -- every identity that is admitted has this key
  have hsame : ∀ c x, c.trace ++ [x] <+: w'.trace → SameKey (exampleConfig false) c x := by
    intro c x hx id hv
    refine ⟨?_, fun hrepo => by cases hrepo⟩
    rintro id' ⟨_, y, hy, -, hv'⟩ -
    rw [hone y (hx.subset (List.mem_append_left _ hy)) _ hv' id' rfl,
      hone x (hx.subset (by simp)) _ hv id rfl]
  have hfree : (server .transparent unreadable (exampleConfig false) Server.always).Leads w w' :=
    System.leads_restrict_of_foldlM (fun _ _ _ _ _ => trivial) hw'
  obtain ⟨t, ht⟩ := Server.effects_extend
    (sound_leads (reachable_of_binding hw fun _ _ _ => trivial) hfree)
  have hreachable : (server .transparent unreadable (exampleConfig false)
      (SameKey (exampleConfig false))).Reachable w :=
    reachable_of_binding hw fun c x hx => hsame c x (hx.trans ⟨t, ht.symm⟩)
  have hleads := Server.leads_of_trace hfree hsame
  have hkey : KeyOf (exampleConfig false) w.state (lit "a") id.publicKey.pub := .inl ⟨id, hid, rfl⟩
  exact ⟨w, w', _, dev.1, access, refresh, hreachable, hleads, hkey, ⟨x, hx, hthread, hv⟩, hdevice,
    no_takeover hreachable hleads hkey⟩

set_option synthInstance.maxSize 512 in
/-- **A device is taken over**: someone else asks for its id to be bound to another key. -/
theorem device_taken_over : ∃ w w' i id access refresh key,
    (server .transparent unreadable (exampleConfig false) Server.always).Reachable w ∧
    (server .transparent unreadable (exampleConfig false) Server.always).Leads w w' ∧
    KeyOf (exampleConfig false) w.state (lit "a") key ∧ id.deviceID = lit "a" ∧
    id.publicKey.pub ≠ key ∧ w'.state.mem.devices (lit "a") = some id ∧
    Did w'.trace i (.issued (.bound id) access refresh) := by
  obtain ⟨dev, -, w, hw, w', hw', id, hid, id', hid', hdevice, hkey, x, hx, hthread, v, hv,
      hbinds⟩ :
      ∃ dev ∈ exampleProof (lit "a") (lit "0") (lit "2") 2, ∃ w ∈ binding [],
        ∃ w' ∈ (serves 1 (.bindSelf noHeaders ⟨dev.1, dev.2⟩) (drawing 0) 8).foldlM
          (Server.World.next (handle .transparent unreadable (exampleConfig false))) w,
          ∃ id ∈ w.state.mem.devices (lit "a"), ∃ id' ∈ w'.state.mem.devices (lit "a"),
            id'.deviceID = lit "a" ∧ id'.publicKey.pub ≠ id.publicKey.pub ∧
              ∃ x ∈ w'.trace, x.thread = 1 ∧ ∃ v ∈ x.events, v.binds = some id' := by
    decide +kernel
  obtain ⟨access, refresh, rfl⟩ := Event.exists_of_binds hbinds
  exact ⟨w, w', 1, id', access, refresh, _, reachable_of_binding hw fun _ _ _ => trivial,
    System.leads_restrict_of_foldlM (fun _ _ _ _ _ => trivial) hw', .inl ⟨id, hid, rfl⟩, hdevice,
    hkey, hid', x, hx, hthread, hv⟩

end Relay

end Iscp
