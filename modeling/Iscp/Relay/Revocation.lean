import Iscp.Relay.Credentials
import Iscp.Relay.Requests

/-!
# Revocation and requests on their way

`revokeAccess` revokes a device and all its credentials in one section. But a request that has
looked up a credential or an identity before that goes on after it: `refreshAccess` enters new
credentials, and `connect` makes a connection ready and takes messages, for a device that has been
revoked in the meantime.

Without a database, revocation is final as long as no device is bound again, if it does not
overtake a request in this way (`Iscp.Relay.revocation_wins`).
-/

namespace Iscp

namespace Relay

open Go Crypto Identity Replay Service Provisioning

/-! ### What concerns a device -/

/-- The events of a device being bound. -/
def Event.BindsDevice (deviceID : Str) : Event → Prop
  | .admitted id | .stored id | .bound id | .issued (.bound id) _ _ => id.deviceID = deviceID
  | _ => False

/-- A request has looked up the device, or a credential of it. -/
def Event.Looks (deviceID : Str) : Event → Prop
  | .found _ cred => cred.deviceID = deviceID
  | .looked deviceID' _ => deviceID' = deviceID
  | _ => False

/-- **A request acts for the device**: it enters new credentials, makes a connection ready, or
takes messages. -/
def Event.Acts (deviceID : Str) : Event → Prop
  | .issued (.refreshed _ cred) _ _ => cred.deviceID = deviceID
  | .ready id => id.deviceID = deviceID
  | .dequeued deviceID' _ => deviceID' = deviceID
  | _ => False

/-- **The device is revoked**, and not bound again. -/
def Settled (deviceID : Str) (t : Trace) : Prop :=
  ∃ t₁ z t₂, t = t₁ ++ z :: t₂ ∧ .revoked deviceID ∈ z.events ∧
    ∀ y ∈ t₂, ∀ v ∈ y.events, ¬v.BindsDevice deviceID

/-- **No request acts for a device that was revoked after it has looked it up.** -/
def NotOvertaken (c : Snapshot) (x : Entry Env Event) : Prop :=
  ∀ deviceID, (∃ v ∈ x.events, v.Acts deviceID) → ∀ t₁ z t₂, c.trace = t₁ ++ z :: t₂ →
    z.thread = x.thread → (∃ v ∈ z.events, v.Looks deviceID) → ¬Settled deviceID t₂

variable {P : Primitives} {J : Unmarshal} {cfg : Config} {req : Request} {c : Snapshot}
  {x : Entry Env Event} {s : State}

/-! ### Runs -/

/-- **What holds after a device was revoked**, as long as it is not bound again. -/
structure Out (c : Snapshot) (deviceID : Str) (z : Entry Env Event) (t : Trace) : Prop where
  closed : c.state.mem.Closed deviceID
  revoked : c.state.mem.revoked deviceID ≠ none
  looks : ∀ y ∈ z :: t, ∀ v ∈ y.events, ¬v.Looks deviceID
  acts : ∀ y ∈ t, ∀ v ∈ y.events, ¬v.Acts deviceID

variable {deviceID : Str} {v : Event}

/-- The relay does not find a device that is revoked and closed. -/
theorem not_looks (hrepo : cfg.repo = false) (h : Effect P cfg req c x s)
    (hclosed : c.state.mem.Closed deviceID) (hrevoked : c.state.mem.revoked deviceID ≠ none)
    (hv : v ∈ x.events) : ¬v.Looks deviceID := by
  have hsays := h.says_of_mem hv
  intro hlooks
  cases v with
  | found hash cred =>
    obtain ⟨-, ⟨hfound, hgood⟩ | ⟨hrepo', -⟩⟩ := hsays
    · rw [hclosed.refresh hash cred hfound hlooks] at hgood
      cases hgood
    · cases hrepo.symm.trans hrepo'
  | looked deviceID' id =>
    obtain rfl : deviceID' = deviceID := hlooks
    obtain ⟨-, ⟨-, hnone⟩ | ⟨hrepo', -⟩⟩ := hsays
    · exact hrevoked hnone
    · cases hrepo.symm.trans hrepo'
  | _ => exact hlooks

/-- Whatever acts for a device has looked it up before. -/
theorem exists_looks (h : Effect P cfg req c x s)
    (hready : ∀ i id, Did c.trace i (.ready id) → Did c.trace i (.looked id.deviceID id))
    (hv : v ∈ x.events) (hacts : v.Acts deviceID) :
    ∃ y ∈ c.trace, y.thread = x.thread ∧ ∃ v ∈ y.events, v.Looks deviceID := by
  have hsays := h.says_of_mem hv
  cases v with
  | issued origin access refresh =>
    cases origin with
    | bound id => exact hacts.elim
    | refreshed hash cred =>
      obtain ⟨-, ⟨⟨y, hy, hthread, hfound⟩, -⟩, -⟩ := hsays
      exact ⟨y, hy, hthread, _, hfound, hacts⟩
  | ready id =>
    obtain ⟨y, hy, hthread, hlooked⟩ := hsays
    exact ⟨y, hy, hthread, _, hlooked, hacts⟩
  | dequeued deviceID' messages =>
    obtain ⟨id, rfl, hdid⟩ := hsays
    obtain ⟨y, hy, hthread, hlooked⟩ := hready _ _ hdid
    exact ⟨y, hy, hthread, _, hlooked, hacts⟩
  | _ => exact hacts.elim

theorem eq_of_looks (h : Effect P cfg req c x s) (hv : v ∈ x.events) (hlooks : v.Looks deviceID) :
    s = c.state := by
  have hsays := h.says_of_mem hv
  cases v with
  | found hash cred => exact hsays.1
  | looked deviceID' id => exact hsays.1
  | _ => exact hlooks.elim

/-- The section that revokes a device puts it out. -/
theorem Out.of_revoked (hrepo : cfg.repo = false) (h : Effect P cfg req c x s)
    (hv : .revoked deviceID ∈ x.events) : Out ⟨s, c.trace ++ [x]⟩ deviceID x [] := by
  obtain ⟨-, hs⟩ := h.says_of_mem hv
  have hclosed : s.mem.Closed deviceID := by
    rw [hs]
    exact ⟨(c.state.mem.closed_revokeDevice deviceID).access,
      (c.state.mem.closed_revokeDevice deviceID).refresh⟩
  have hrevoked : s.mem.revoked deviceID ≠ none := by
    rw [hs]
    exact c.state.mem.revoked_revokeDevice deviceID
  refine ⟨hclosed, hrevoked, fun y hy v' hv' hlooks => ?_, nofun⟩
  obtain rfl := List.mem_singleton.mp hy
  rw [eq_of_looks h hv' hlooks] at hclosed hrevoked
  exact not_looks hrepo h hclosed hrevoked hv' hlooks

/-- A device that is out stays out while no section binds it or acts for it. -/
theorem Out.step (hrepo : cfg.repo = false) (h : Effect P cfg req c x s) {z : Entry Env Event}
    {t : Trace} (hout : Out c deviceID z t) (hbinds : ∀ v ∈ x.events, ¬v.BindsDevice deviceID)
    (hacts : ∀ v ∈ x.events, ¬v.Acts deviceID) : Out ⟨s, c.trace ++ [x]⟩ deviceID z (t ++ [x]) := by
  refine ⟨h.closed hout.closed fun origin access refresh hv hdevice => ?_,
    h.revoked_ne_none hout.revoked, fun y hy v hv => ?_, fun y hy v hv => ?_⟩
  · cases origin with
    | bound id => exact hbinds _ hv hdevice
    | refreshed hash cred => exact hacts _ hv hdevice
  · rw [← List.cons_append, List.mem_append, List.mem_singleton] at hy
    rcases hy with hy | rfl
    · exact hout.looks y hy v hv
    · exact not_looks hrepo h hout.closed hout.revoked hv
  · rw [List.mem_append, List.mem_singleton] at hy
    rcases hy with hy | rfl
    · exact hout.acts y hy v hv
    · exact hacts v hv

/-- **The invariant**: connections that are ready have looked up their device, and devices that are
revoked are out. -/
structure Revocations (c : Snapshot) : Prop where
  ready : ∀ i id, Did c.trace i (.ready id) → Did c.trace i (.looked id.deviceID id)
  out : ∀ deviceID t₁ z t₂, c.trace = t₁ ++ z :: t₂ → .revoked deviceID ∈ z.events →
    (∀ y ∈ t₂, ∀ v ∈ y.events, ¬v.BindsDevice deviceID) → Out c deviceID z t₂

/-- After every run in which no revocation is overtaken, a revoked device is out. -/
theorem revocations_of_reachable (hrepo : cfg.repo = false)
    (hc : (sections P cfg NotOvertaken).Reachable c) : Revocations c := by
  refine hc.invariant ?_ ?_
  · rintro ⟨s, t⟩ ⟨-, rfl⟩
    exact ⟨fun _ _ ⟨_, hx, _⟩ => absurd hx List.not_mem_nil,
      fun _ t₁ z t₂ ht => absurd ht.symm (by simp)⟩
  rintro c x ⟨s, t⟩ - hc ⟨hC, rfl, req, h⟩
  refine ⟨fun i id hdid => ?_, fun deviceID t₁ z t₂ ht hz hbinds => ?_⟩
  · rcases did_snoc.mp hdid with hdid | ⟨rfl, hv⟩
    · exact did_snoc.mpr (.inl (hc.ready i id hdid))
    · exact did_snoc.mpr (.inl (h.says_of_mem hv))
  rcases snoc_eq_split.mp ht with ⟨rfl, rfl, rfl⟩ | ⟨t₂', rfl, ht'⟩
  · exact .of_revoked hrepo h hz
  have hbinds' : ∀ y ∈ t₂', ∀ v ∈ y.events, ¬v.BindsDevice deviceID := fun y hy =>
    hbinds y (List.mem_append_left _ hy)
  have hout := hc.out deviceID t₁ z t₂' ht' hz hbinds'
  refine hout.step hrepo h (hbinds x (by simp)) fun v hv hacts => ?_
  -- the device has been looked up before it was revoked, so the request was overtaken
  obtain ⟨y, hy, hthread, v', hv', hlooks⟩ := exists_looks h hc.ready hv hacts
  rw [ht', List.mem_append] at hy
  rcases hy with hy | hy
  · obtain ⟨t₃, t₄, rfl⟩ := List.append_of_mem hy
    refine hC deviceID ⟨v, hv, hacts⟩ t₃ y (t₄ ++ z :: t₂') ?_ hthread ⟨v', hv', hlooks⟩
      ⟨t₄, z, t₂', rfl, hz, hbinds'⟩
    rw [ht', List.append_assoc, List.cons_append]
  · exact hout.looks y hy v' hv' hlooks

/-! ### Main results -/

/-- **Revocation wins**, if it overtakes no request: as long as a device is not bound again, all its
credentials are revoked, and no request acts for it. -/
theorem revocation_wins (hrepo : cfg.repo = false) {w : World}
    (hw : (server P J cfg NotOvertaken).Reachable w) {deviceID : Str} {t₁ t₂ : Trace}
    {z : Entry Env Event} (ht : w.trace = t₁ ++ z :: t₂) (hrevoked : .revoked deviceID ∈ z.events)
    (hbinds : ∀ y ∈ t₂, ∀ v ∈ y.events, ¬v.BindsDevice deviceID) :
    w.state.mem.Closed deviceID ∧ ∀ y ∈ t₂, ∀ v ∈ y.events, ¬v.Acts deviceID := by
  have hout := (revocations_of_reachable hrepo (sound hw).reachable).out deviceID t₁ z t₂ ht
    hrevoked hbinds
  exact ⟨hout.closed, hout.acts⟩

/-- The device a request acts for. -/
def Event.actor : Event → Option Str
  | .issued (.refreshed _ cred) _ _ => some cred.deviceID
  | .ready id => some id.deviceID
  | .dequeued deviceID _ => some deviceID
  | _ => none

theorem Event.Acts.actor_eq (h : v.Acts deviceID) : v.actor = some deviceID := by
  unfold Event.Acts at h
  split at h <;> simp_all [Event.actor]

/-- The device that the event binds. -/
def Event.bindee : Event → Option Str
  | .admitted id | .stored id | .bound id | .issued (.bound id) _ _ => some id.deviceID
  | _ => none

theorem Event.bindee_eq_some_iff (v : Event) (deviceID : Str) :
    v.bindee = some deviceID ↔ v.BindsDevice deviceID := by
  cases v with
  | issued o => cases o <;> simp [Event.bindee, Event.BindsDevice]
  | _ => simp [Event.bindee, Event.BindsDevice]

instance (deviceID : Str) : DecidablePred (Event.BindsDevice deviceID) := fun v =>
  decidable_of_iff (v.bindee = some deviceID) (v.bindee_eq_some_iff deviceID)

/-- A device is bound, and revoked; its refresh token is refused after that. -/
theorem revocation_wins_bound : ∃ w t₁ z t₂ err,
    (server .transparent unreadable (exampleConfig false) NotOvertaken).Reachable w ∧
    w.threads 1 = some (.revokeAccess noHeaders (lit "a"), .done (.json 200 .revoked)) ∧
    w.threads 2 = some (.refreshAccess (tokenOf (drawing 0)), .stop (.error 401 err)) ∧
    w.trace = t₁ ++ z :: t₂ ∧ .revoked (lit "a") ∈ z.events ∧ (∃ y ∈ t₂, y.thread = 2) ∧
    (∃ hash cred, w.state.mem.refresh hash = some cred ∧ cred.deviceID = lit "a") ∧
    w.state.mem.Closed (lit "a") ∧ ∀ y ∈ t₂, ∀ v ∈ y.events, ¬v.Acts (lit "a") := by
  obtain ⟨w, hw, hends, ⟨err, hrefused⟩, ⟨z, hz, hrevoked⟩, hafter, hbinds, ⟨cred, hcred, hdevice⟩,
      hactor⟩ : ∃ w ∈ binding
        (serves 1 (.revokeAccess noHeaders (lit "a")) (drawing 0) 1 ++
          serves 2 (.refreshAccess (tokenOf (drawing 0))) (drawing 1) 1),
      World.Ends w 1 (.revokeAccess noHeaders (lit "a")) (.ok (.json 200 .revoked)) ∧
      World.Refuses w 2 (.refreshAccess (tokenOf (drawing 0))) 401 ∧
      (∃ z ∈ w.trace[8]?, .revoked (lit "a") ∈ z.events) ∧
      (∃ y ∈ w.trace.drop 9, y.thread = 2) ∧
      (∀ y ∈ w.trace.drop 9, ∀ v ∈ y.events, ¬v.BindsDevice (lit "a")) ∧
      (∃ cred ∈ w.state.mem.refresh (Primitives.transparent.sha256 (tokenOf (drawing 0))),
        cred.deviceID = lit "a") ∧
      ∀ x ∈ w.trace, ∀ v ∈ x.events, v.actor = none := by
    decide +kernel
  obtain ⟨hlength, rfl⟩ := List.getElem?_eq_some_iff.mp hz
  have hsplit : w.trace = w.trace.take 8 ++ w.trace[8] :: w.trace.drop 9 := by simp
  have hreachable :
      (server .transparent unreadable (exampleConfig false) NotOvertaken).Reachable w :=
    reachable_of_binding hw fun c x hx deviceID ⟨v, hv, hacts⟩ => by
      have hnone := hactor x (hx.subset (by simp)) v hv
      rw [hacts.actor_eq] at hnone
      cases hnone
  exact ⟨w, _, _, _, err, hreachable, World.threads_of_ends hends, hrefused, hsplit, hrevoked,
    hafter, ⟨_, cred, hcred, hdevice⟩, revocation_wins rfl hreachable hsplit hrevoked hbinds⟩

/-- **A device that is revoked gets new credentials**: its request has found the refresh token
before the device was revoked, and goes on after that. -/
theorem revocation_overtakes_refresh : ∃ w t₁ z t₂,
    (server .transparent unreadable (exampleConfig false) Server.always).Reachable w ∧
    w.threads 2 = some (.revokeAccess noHeaders (lit "a"), .done (.json 200 .revoked)) ∧
    w.trace = t₁ ++ z :: t₂ ∧ .revoked (lit "a") ∈ z.events ∧
    (∀ y ∈ t₂, ∀ v ∈ y.events, ¬v.BindsDevice (lit "a")) ∧ ¬w.state.mem.Closed (lit "a") := by
  obtain ⟨w, hw, hends, ⟨z, hz, hrevoked⟩, hbinds, cred, hcred, hdevice, hgood⟩ : ∃ w ∈ binding
        (serves 1 (.refreshAccess (tokenOf (drawing 0))) (drawing 1) 2 ++
          serves 2 (.revokeAccess noHeaders (lit "a")) (drawing 0) 1 ++
          List.replicate 5 (.run 1 (drawing 1))),
      World.Ends w 2 (.revokeAccess noHeaders (lit "a")) (.ok (.json 200 .revoked)) ∧
      (∃ z ∈ w.trace[10]?, .revoked (lit "a") ∈ z.events) ∧
      (∀ y ∈ w.trace.drop 11, ∀ v ∈ y.events, ¬v.BindsDevice (lit "a")) ∧
      ∃ cred ∈ w.state.mem.refresh (Primitives.transparent.sha256 (tokenOf (drawing 1))),
        cred.deviceID = lit "a" ∧ cred.revoked = false := by
    decide +kernel
  obtain ⟨hlength, rfl⟩ := List.getElem?_eq_some_iff.mp hz
  have hsplit : w.trace = w.trace.take 10 ++ w.trace[10] :: w.trace.drop 11 := by simp
  refine ⟨w, _, _, _, reachable_of_binding hw fun _ _ _ => trivial, World.threads_of_ends hends,
    hsplit, hrevoked, hbinds, fun hclosed => ?_⟩
  rw [hclosed.refresh _ _ hcred hdevice] at hgood
  cases hgood

end Relay

end Iscp
