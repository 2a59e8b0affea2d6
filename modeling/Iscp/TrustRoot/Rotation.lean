import Iscp.Handler.Rely
import Iscp.TrustRoot.Frames
import Iscp.TrustRoot.Grants

/-!
# Key rotation

`rotateKeys` puts a new key on the ring, in the state next, and makes it the active one in a
section of its own. Between the two sections other rotations may run, so several keys may be next
at once, and a device may be authorized with whatever key is active then.

What happens to the ring is said by `Iscp.TrustRoot.KeyEffect`, with the place a rotation has
reached read off its own entries: it is between its two sections if its last entry is that of
`Add` (`Iscp.TrustRoot.Pending`). If no two keys have the same identifier, the key of such a
rotation is on the ring and next (`Iscp.TrustRoot.KeysKept`), whatever the others do. So `Rotate`
always finds it; one key is active in every state, no retired key comes back, and the key that
signed a grant is found under its identifier for ever (`Iscp.TrustRoot.rotation_sound`).
-/

namespace Iscp

namespace TrustRoot

open Go Crypto Identity Keyring Service Trust

open Handler (Confined confined_done confined_look confined_ofExcept confined_stopIf)

variable {P : Primitives} {cfg : Config}

/-! ### What the sections do to the ring -/

/-- The events of keys. -/
def Event.OfKeys : Event → Prop
  | .selected _ | .signed _ | .added _ | .rotated _ => True
  | _ => False

/-- The events of a rotation. -/
def Event.OfRotation : Event → Prop
  | .added _ | .rotated _ => True
  | _ => False

/-- **A rotation between `Add` and `Rotate`**: the last of its entries is that of `Add`. -/
def Pending (o : Trace) (key : Key) : Prop :=
  ∃ o₁ e i, o = o₁ ++ [⟨i, e, [.added key]⟩]

/-- **A rotation before its last section**: the last of its entries is that of `Rotate`. -/
def Unpublished (o : Trace) (keyID : Str) : Prop :=
  ∃ o₁ e i, o = o₁ ++ [⟨i, e, [.rotated keyID]⟩]

/-- **A request that is not in the middle of a rotation.** -/
def Settled (o : Trace) : Prop := (∀ key, ¬Pending o key) ∧ ∀ keyID, ¬Unpublished o keyID

/-- A request that has not begun to rotate. -/
def Uninvolved (o : Trace) : Prop := ∀ x ∈ o, ∀ v ∈ x.events, ¬v.OfRotation

/-- **What a section of a request does to the ring and the signer**, with or without a
database. -/
inductive KeyEffect (P : Primitives) (req : Request) (c : Snapshot) (x : Entry Env Event) :
    State → Prop where
  /-- Nothing that concerns keys. -/
  | keep {s : State} (hown : Settled (own x.thread c.trace)) (hkeys : s.keys = c.state.keys)
      (hsigner : s.signer = c.state.signer) (hx : ∀ v ∈ x.events, ¬v.OfKeys) : KeyEffect P req c x s
  /-- An active key is chosen. -/
  | select {id : Str} {key : Key} (hown : Settled (own x.thread c.trace))
      (hkey : (id, key) ∈ c.state.keys) (hx : x.events = [.selected key]) :
      KeyEffect P req c x c.state
  /-- A grant is signed with the key chosen before. -/
  | sign {key : Key} {grant : Grant} (hown : Settled (own x.thread c.trace))
      (hselected : Did c.trace x.thread (.selected key)) (hsigned : Signed P key.priv key.id grant)
      (hx : x.events = [.signed grant]) : KeyEffect P req c x c.state
  /-- A new key is added. -/
  | add {key : Key} (hreq : ∃ h, req = .rotateKeys h) (hown : Settled (own x.thread c.trace))
      (hpair : KeyPair P key.priv key.pub)
      (hid : key.id = Crypto.thumbprint P (lit "Ed25519") key.pub.key) (hnext : key.state = .next)
      (hx : x.events = [.added key]) :
      KeyEffect P req c x { c.state with keys := c.state.keys.add key }
  /-- The key that was added is made the active one. -/
  | rotate {key : Key} {keys : Ring} (hreq : ∃ h, req = .rotateKeys h)
      (hown : Pending (own x.thread c.trace) key) (hkeys : c.state.keys.rotate key.id = .ok keys)
      (hx : x.events = [.rotated key.id]) : KeyEffect P req c x { c.state with keys := keys }
  /-- The key that was added is not found. -/
  | refuse {key : Key} {r : Error} (hown : Pending (own x.thread c.trace) key)
      (hkeys : c.state.keys.rotate key.id = .error r) (hx : x.events = []) :
      KeyEffect P req c x c.state
  /-- The signer is the one with the key that was made active. -/
  | publish {keyID : Str} {signer : Device} (hown : Unpublished (own x.thread c.trace) keyID)
      (hsigner : signer.identity.publicKey.kid = keyID) (hx : x.events = []) :
      KeyEffect P req c x { c.state with signer := signer }

variable {o : Trace} {y : Entry Env Event} {grant : Grant}

theorem last_eq {o' : Trace} {x : Entry Env Event} (h : o ++ [x] = o' ++ [y]) : x = y :=
  (List.cons.inj (List.append_inj' h rfl).2).1

theorem settled_snoc (o : Trace) {x : Entry Env Event} (hx : ∀ v ∈ x.events, ¬v.OfRotation) :
    Settled (o ++ [x]) := by
  constructor
  · rintro key ⟨o₁, e, i, heq⟩
    rw [last_eq heq] at hx
    exact hx (.added key) (List.mem_singleton_self _) trivial
  · rintro keyID ⟨o₁, e, i, heq⟩
    rw [last_eq heq] at hx
    exact hx (.rotated keyID) (List.mem_singleton_self _) trivial

theorem uninvolved_nil : Uninvolved [] := fun _ hx => absurd hx List.not_mem_nil

theorem Uninvolved.settled (h : Uninvolved o) : Settled o := by
  constructor
  · rintro key ⟨o₁, e, i, rfl⟩
    exact h _ (List.mem_append_right _ (List.mem_singleton_self _)) (.added key)
      (List.mem_singleton_self _) trivial
  · rintro keyID ⟨o₁, e, i, rfl⟩
    exact h _ (List.mem_append_right _ (List.mem_singleton_self _)) (.rotated keyID)
      (List.mem_singleton_self _) trivial

theorem Uninvolved.snoc (h : Uninvolved o) {x : Entry Env Event}
    (hx : ∀ v ∈ x.events, ¬v.OfRotation) : Uninvolved (o ++ [x]) := by
  intro y hy
  rcases List.mem_append.mp hy with hy | hy
  · exact h y hy
  · rw [List.mem_singleton.mp hy]
    exact hx

theorem ofKeys_of_ofRotation {v : Event} (h : v.OfRotation) : v.OfKeys := by
  cases v <;> first | exact h | trivial

/-- **What is known when a request is over**: after `Add` it has tried to make the key the active
one, if that was done its answer says so, and it is not in the middle of a rotation. -/
structure Concluded (r : Answer) (o : Trace) : Prop where
  settled : Settled o
  answer : ∀ x ∈ o, ∀ key, .added key ∈ x.events → ∃ o₁ y o₂, o = o₁ ++ y :: o₂ ∧ Pending o₁ key ∧
    (y.events = [.rotated key.id] → r = .json 200 (.activeKey key.id))

theorem Uninvolved.concluded (h : Uninvolved o) (r : Answer) : Concluded r o :=
  ⟨h.settled, fun x hx _ hv => absurd trivial (h x hx _ hv)⟩

/-- What is known after `Add` and what came of it. -/
theorem Uninvolved.concluded_of_added {o' : Trace} (h : Uninvolved o) {i : ℕ} {e : Env} {key : Key}
    {r : Answer} (hr : y.events = [.rotated key.id] → r = .json 200 (.activeKey key.id))
    (hy : ∀ x ∈ y :: o', ∀ k, .added k ∉ x.events)
    (hlast : Settled (o ++ [⟨i, e, [.added key]⟩] ++ y :: o')) :
    Concluded r (o ++ [⟨i, e, [.added key]⟩] ++ y :: o') := by
  refine ⟨hlast, fun x hx key' hv => ?_⟩
  rcases List.mem_append.mp hx with hx | hx
  · rcases List.mem_append.mp hx with hx | hx
    · exact absurd trivial (h x hx _ hv)
    · obtain rfl := List.mem_singleton.mp hx
      obtain rfl : key' = key := by simpa using hv
      exact ⟨_, y, o', rfl, ⟨o, e, i, rfl⟩, hr⟩
  · exact absurd hv (hy x hx key')

section Confined

variable {req : Request} {i : ℕ} {o : Trace} {ω α : Type} {Q : α → Trace → Prop}
  {X : ω → Trace → Prop}

/-- The keys, and the signer. -/
def State.keyView (s : State) : Ring × Device := (s.keys, s.signer)

/-- **The rule for a part of a handler that has nothing to do with keys.** -/
theorem confined_of_frames {p : Run ω α} (hp : p.Frames State.keyView fun v => ¬v.OfKeys)
    (ho : Uninvolved o) (hQ : ∀ a o', Uninvolved o' → Q a o')
    (hX : ∀ r o', Uninvolved o' → X r o') : p.Confined (KeyEffect P req) i Q X o := by
  refine hp.confined (fun c x s' hi hown hview hx => ?_) ho hQ hX
  subst hi
  obtain ⟨hkeys, hsigner⟩ := Prod.mk.inj hview
  exact ⟨.keep hown.settled hkeys hsigner hx,
    hown.snoc fun v hv h => hx v hv (ofKeys_of_ofRotation h)⟩

theorem confined_ask {f : Env → α} (ho : Uninvolved o) (hQ : ∀ e o', Uninvolved o' → Q (f e) o') :
    (Handler.ask f : Run ω α).Confined (KeyEffect P req) i Q X o := by
  refine confined_look fun c e hown => ?_
  subst hown
  exact ⟨.keep ho.settled rfl rfl (List.forall_mem_nil _),
    hQ e _ (ho.snoc (List.forall_mem_nil _))⟩

/-- A signer is made of a key that this thread has selected. -/
theorem activeSigner_confined {Q : Device → Trace → Prop} {X : Error → Trace → Prop}
    (ho : Uninvolved o)
    (hQ : ∀ key now o', Uninvolved o' → Did o' i (.selected key) →
      Q ⟨signerIdentity cfg key now, key.priv⟩ o')
    (hX : ∀ r o', Uninvolved o' → X r o') :
    (activeSigner cfg).Confined (KeyEffect P req) i Q X o := by
  refine .bind (Handler.confined_attempt (fun c e s' key events hown h => ?_)
    fun c e r hown _ => ?_)
  · obtain ⟨_, hactive, ⟨⟩⟩ := bind_eq_ok_iff.mp h
    obtain ⟨-, id, hkey⟩ := Ring.active_eq_ok hactive
    subst hown
    refine ⟨.select ho.settled hkey rfl, .bind (confined_look fun c' e' hown' => ?_)⟩
    have hnone := ho.snoc (x := ⟨i, e, [.selected key]⟩) (List.forall_mem_singleton.mpr fun h => h)
    rw [← hown'] at hnone ⊢
    refine ⟨.keep hnone.settled rfl rfl (List.forall_mem_nil _), confined_done ?_⟩
    refine hQ key _ _ (hnone.snoc (List.forall_mem_nil _)) (.extend ?_ (List.prefix_append _ _))
    rw [hown']
    exact did_of_snoc (List.prefix_refl _) (List.mem_singleton_self _)
  · subst hown
    exact ⟨.keep ho.settled rfl rfl (List.forall_mem_nil _),
      hX r _ (ho.snoc (List.forall_mem_nil _))⟩

/-- What an authorization does to the keys. -/
theorem authorizeDevice_confined (h : Headers) (r : AuthorizeRequest) :
    (authorizeDevice P cfg h r).Confined (KeyEffect P req) i Concluded Concluded [] := by
  rw [authorizeDevice]
  refine .bind (confined_stopIf (fun _ => uninvolved_nil.concluded _) fun _ => ?_)
  refine .bind (confined_of_frames (checkDevice_frames (fun _ _ => rfl) (fun _ _ h => h) _)
    uninvolved_nil (fun record o₁ ho₁ => ?_) fun r _ ho => ho.concluded r)
  refine .bind (.mapStop (confined_of_frames (authorizedRecord_frames (fun _ _ _ _ _ => rfl) _ _)
    ho₁ (fun record o₂ ho₂ => ?_) fun r _ ho => ho.concluded _))
  refine .bind (.mapStop (confined_ofExcept (fun rule _ => ?_) fun r _ => ho₂.concluded _))
  refine .bind (confined_ask ho₂ fun e o₃ ho₃ => ?_)
  refine .bind (.mapStop (activeSigner_confined ho₃ (fun key now o₄ ho₄ hselected => ?_)
    fun r _ ho => ho.concluded _))
  refine .bind (.mapStop (confined_ofExcept (fun grant hsign => ?_) fun r _ => ho₄.concluded _))
  obtain ⟨hsigned, -⟩ := signed_of_signGrant hsign
  refine .bind (Handler.confined_note fun c e' hown => ?_)
  subst hown
  refine ⟨.sign ho₄.settled (did_own.mp hselected) hsigned rfl, ?_⟩
  have ho₅ := ho₄.snoc (x := ⟨i, e', [.signed grant]⟩) (List.forall_mem_singleton.mpr fun h => h)
  refine .bind (.mapStop (confined_of_frames (persistGrant_frames (fun _ _ _ => rfl) _) ho₅
    (fun _ o₆ ho₆ => ?_) fun r _ ho => ho.concluded _))
  refine confined_of_frames (Handler.frames_attempt ?_) ho₆ (fun r _ ho => ho.concluded r)
    fun r _ ho => ho.concluded r
  rintro e s _ _ _ ⟨⟩
  exact ⟨rfl, List.forall_mem_singleton.mpr fun h => h⟩

/-- **The sections of a rotation**: the key is added, made the active one, and published. -/
theorem rotation_confined (hreq : ∃ h, req = .rotateKeys h) (ho : Uninvolved o) {key : Key}
    (hpair : KeyPair P key.priv key.pub)
    (hid : key.id = Crypto.thumbprint P (lit "Ed25519") key.pub.key) (hnext : key.state = .next)
    {signer : Env → Device} (hsigner : ∀ e, (signer e).identity.publicKey.kid = key.id) :
    Confined (KeyEffect P req) i Concluded Concluded (do
      mutex fun _ s => .ok ({ s with keys := s.keys.add key }, (), [.added key])
      mutex fun _ s => do
        let keys ← (s.keys.rotate key.id).mapError (writeError 500)
        return ({ s with keys := keys }, (), [.rotated key.id])
      mutex fun e s => .ok ({ s with signer := signer e }, (), [])
      return .json 200 (.activeKey key.id) : Run Answer Answer) o := by
  refine .bind (Handler.confined_attempt (fun c e s' u events hown h => ?_)
    fun _ _ _ _ h => nomatch h)
  cases h
  subst hown
  refine ⟨.add hreq ho.settled hpair hid hnext rfl, ?_⟩
  refine .bind (Handler.confined_attempt (fun c' e' s' u events hown h => ?_)
    fun c' e' r hown h => ?_)
  · obtain ⟨keys, hrotate, ⟨⟩⟩ := bind_eq_ok_iff.mp h
    refine ⟨.rotate hreq ⟨_, e, i, hown⟩ (mapError_eq_ok_iff.mp hrotate) rfl, ?_⟩
    refine .bind (Handler.confined_attempt (fun c'' e'' s' u events hown'' h => ?_)
      fun _ _ _ _ h => nomatch h)
    cases h
    refine ⟨.publish ⟨_, e', i, hown''⟩ (hsigner e'') rfl, confined_done ?_⟩
    have hlast := settled_snoc (own i c.trace ++ [⟨i, e, [.added key]⟩] ++
      [⟨i, e', [.rotated key.id]⟩]) (x := ⟨i, e'', []⟩) (List.forall_mem_nil _)
    rw [List.append_assoc] at hlast ⊢
    exact ho.concluded_of_added (fun _ => rfl) (by simp) hlast
  · cases hrotate : c'.state.keys.rotate key.id with
    | ok keys =>
      rw [hrotate] at h
      cases h
    | error r' =>
      exact ⟨.refuse ⟨_, e, i, hown⟩ hrotate rfl, ho.concluded_of_added (y := ⟨i, e', []⟩) nofun
        (by simp) (settled_snoc _ (List.forall_mem_nil _))⟩

theorem rotateKeys_confined (h : Headers) :
    (rotateKeys P cfg h).Confined (KeyEffect P (.rotateKeys h)) i Concluded Concluded [] := by
  rw [rotateKeys]
  refine .bind (confined_stopIf (fun _ => uninvolved_nil.concluded _) fun _ => ?_)
  refine .bind (confined_ask uninvolved_nil fun seed o₁ ho₁ => ?_)
  refine .bind (.mapStop (confined_ofExcept (fun keys hkeys => ?_) fun r _ => ho₁.concluded _))
  have hpair : KeyPair P keys.1 keys.2 := keyPair_of_generate P hkeys
  exact rotation_confined ⟨h, rfl⟩ ho₁ hpair rfl rfl fun _ => rfl

/-- What a request does to the keys. -/
theorem handle_confined (i : ℕ) (req : Request) :
    (handle P cfg req).Confined (KeyEffect P req) i Concluded Concluded [] := by
  have hframes : ∀ {p : Run Answer Answer} {req}, p.Frames State.keyView (fun v => ¬v.OfKeys) →
      p.Confined (KeyEffect P req) i Concluded Concluded [] := fun hp =>
    confined_of_frames hp uninvolved_nil (fun r _ ho => ho.concluded r) fun r _ ho => ho.concluded r
  cases req with
  | submitDevice req =>
    exact hframes (submitDevice_frames (fun _ _ => rfl) (fun _ _ => rfl) (fun _ _ => rfl)
      (fun _ _ _ => rfl) (fun _ _ _ _ h => h) (fun _ h => h) req)
  | authorizeDevice h req => exact authorizeDevice_confined h req
  | verifyGrant req => exact hframes (verifyGrant_frames (fun _ _ h => h) req)
  | deviceStatus d domainID => exact hframes (deviceStatus_frames d domainID)
  | grantStatus grantID domainID => exact hframes (grantStatus_frames grantID domainID)
  | revokeGrant h grantID reason =>
    exact hframes (revokeGrant_frames (fun _ _ _ _ => rfl) (fun _ _ _ _ _ => rfl)
      (fun _ _ _ _ => rfl) (fun _ h => h) h grantID reason)
  | revokeDevice h d reason =>
    exact hframes (revokeDevice_frames (fun _ _ _ _ => rfl) (fun _ _ _ _ => rfl)
      (fun _ _ _ _ => rfl) (fun _ h => h) h d reason)
  | rotateKeys h => exact rotateKeys_confined h
  | adminAudit h => exact hframes (adminAudit_frames h)
  | revocations q => exact hframes (serveRevocations_frames q)

end Confined

/-! ### What holds in every run -/

/-- **The keys that are made have identifiers of their own**: none is added under that of a key on
the ring. -/
def FreshKeys (c : Snapshot) (x : Entry Env Event) : Prop :=
  ∀ key, .added key ∈ x.events → c.state.keys.lookup key.id = none

variable {req : Request} {c : Snapshot} {x : Entry Env Event} {s : State} {i : ℕ} {key : Key}

/-- **What a section makes of a key on the ring.** -/
theorem KeyEffect.ages (h : KeyEffect P req c x s) (hC : FreshKeys c x) {id : Str}
    (hkey : c.state.keys.lookup id = some key) :
    ∃ key', s.keys.lookup id = some key' ∧ Ring.Ages key key' := by
  cases h with
  | keep _ hkeys =>
    rw [hkeys]
    exact ⟨key, hkey, .refl key⟩
  | select | sign | refuse | publish => exact ⟨key, hkey, .refl key⟩
  | add _ _ _ _ _ hx =>
    exact ⟨key, Ring.lookup_add_of_fresh (hC _ (by simp [hx])) hkey, .refl key⟩
  | rotate _ _ hkeys => exact Ring.lookup_rotate_ages hkeys hkey

theorem KeyEffect.one (h : KeyEffect P req c x s) (hC : FreshKeys c x)
    (hone : ∃ key, c.state.keys.activeKeys = [key]) : ∃ key, s.keys.activeKeys = [key] := by
  cases h with
  | keep _ hkeys => rwa [hkeys]
  | select | sign | refuse | publish => exact hone
  | add _ _ _ _ hnext hx =>
    dsimp only
    rwa [Ring.activeKeys_add (hC _ (by simp [hx])) hnext]
  | rotate _ _ hkeys => exact Ring.activeKeys_rotate hkeys

theorem KeyEffect.made (h : KeyEffect P req c x s) (hmade : c.state.keys.Made P) :
    s.keys.Made P := by
  cases h with
  | keep _ hkeys => rwa [hkeys]
  | select | sign | refuse | publish => exact hmade
  | add _ _ hpair hid hnext => exact hmade.set rfl hpair hid (by rw [hnext]; decide)
  | rotate _ _ hkeys => exact hmade.rotate hkeys

theorem KeyEffect.distinct (h : KeyEffect P req c x s) (hdistinct : c.state.keys.Distinct) :
    s.keys.Distinct := by
  cases h with
  | keep _ hkeys => rwa [hkeys]
  | select | sign | refuse | publish => exact hdistinct
  | add => exact hdistinct.set ..
  | rotate _ _ hkeys => exact hdistinct.rotate hkeys

theorem KeyEffect.of_added (h : KeyEffect P req c x s) (hv : .added key ∈ x.events) :
    key.state = .next ∧ s.keys = c.state.keys.add key := by
  cases h with
  | keep _ _ _ hx => exact absurd trivial (hx _ hv)
  | select _ _ hx | sign _ _ _ hx | rotate _ _ _ hx | refuse _ _ hx | publish _ _ hx =>
    simp [hx] at hv
  | add _ _ _ _ hnext hx =>
    obtain rfl : key = _ := by simpa [hx] using hv
    exact ⟨hnext, rfl⟩

theorem KeyEffect.of_selected (h : KeyEffect P req c x s) (hv : .selected key ∈ x.events) :
    ∃ id, (id, key) ∈ c.state.keys ∧ s.keys = c.state.keys := by
  cases h with
  | keep _ _ _ hx => exact absurd trivial (hx _ hv)
  | sign _ _ _ hx | add _ _ _ _ _ hx | rotate _ _ _ hx | refuse _ _ hx | publish _ _ hx =>
    simp [hx] at hv
  | select _ hkey hx =>
    obtain rfl : key = _ := by simpa [hx] using hv
    exact ⟨_, hkey, rfl⟩

theorem KeyEffect.of_signed (h : KeyEffect P req c x s) (hv : .signed grant ∈ x.events) :
    ∃ key, Did c.trace x.thread (.selected key) ∧ Signed P key.priv key.id grant := by
  cases h with
  | keep _ _ _ hx => exact absurd trivial (hx _ hv)
  | select _ _ hx | add _ _ _ _ _ hx | rotate _ _ _ hx | refuse _ _ hx | publish _ _ hx =>
    simp [hx] at hv
  | sign _ hselected hsigned hx =>
    obtain rfl : grant = _ := by simpa [hx] using hv
    exact ⟨_, hselected, hsigned⟩

theorem Pending.unique {key' : Key} (h : Pending o key) (h' : Pending o key') : key = key' := by
  obtain ⟨o₁, e, i, rfl⟩ := h
  obtain ⟨o₂, e', i', heq⟩ := h'
  have hlast := last_eq heq
  simp only [Entry.mk.injEq, List.cons.injEq, Event.added.injEq, and_true] at hlast
  exact hlast.2.2

theorem Pending.not_unpublished {keyID : Str} (h : Pending o key) : ¬Unpublished o keyID := by
  rintro ⟨o₂, e', i', heq⟩
  obtain ⟨o₁, e, i, rfl⟩ := h
  have hlast := last_eq heq
  simp at hlast

theorem KeyEffect.of_pending (h : KeyEffect P req c x s)
    (hown : Pending (own x.thread c.trace) key) :
    (c.state.keys.rotate key.id = .ok s.keys ∧ x.events = [.rotated key.id]) ∨
      ∃ r, c.state.keys.rotate key.id = .error r := by
  cases h with
  | keep hnone | select hnone | sign hnone | add _ hnone => exact absurd hown (hnone.1 key)
  | publish hown' => exact absurd hown' hown.not_unpublished
  | rotate _ hown' hkeys hx =>
    obtain rfl := hown.unique hown'
    exact .inl ⟨hkeys, hx⟩
  | refuse hown' hkeys =>
    obtain rfl := hown.unique hown'
    exact .inr ⟨_, hkeys⟩

/-- **What holds of the ring in every run.** The key of a rotation between its two sections is on
the ring, next, and no other rotation has it; and whatever was signed with is still there. -/
structure KeysKept (P : Primitives) (c : Snapshot) : Prop where
  made : c.state.keys.Made P
  distinct : c.state.keys.Distinct
  one : ∃ key, c.state.keys.activeKeys = [key]
  waiting : ∀ i key, Pending (own i c.trace) key →
    key.state = .next ∧ c.state.keys.lookup key.id = some key
  apart : ∀ i j key key', Pending (own i c.trace) key → Pending (own j c.trace) key' →
    key.id = key'.id → i = j
  rotated : ∀ i key o₁ y o₂, own i c.trace = o₁ ++ y :: o₂ → Pending o₁ key →
    y.events = [.rotated key.id]
  selected : ∀ y ∈ c.trace, ∀ key, .selected key ∈ y.events →
    ∃ key', c.state.keys.lookup key.id = some key' ∧ Ring.Ages key key'

theorem pending_snoc {t : Trace} (h : Pending (own i (t ++ [x])) key) :
    (i = x.thread ∧ .added key ∈ x.events) ∨ (i ≠ x.thread ∧ Pending (own i t) key) := by
  rcases eq_or_ne i x.thread with rfl | hne
  · rw [own_snoc_self] at h
    obtain ⟨o₁, e, j, heq⟩ := h
    rw [last_eq heq]
    exact .inl ⟨rfl, List.mem_singleton_self _⟩
  · rw [own_snoc_of_ne t hne.symm] at h
    exact .inr ⟨hne, h⟩

section Step

variable (hc : KeysKept P c) (h : KeyEffect P req c x s) (hC : FreshKeys c x)

include hc h

/-- **`Rotate` succeeds.** -/
theorem KeysKept.rotate_ok (hown : Pending (own x.thread c.trace) key) :
    c.state.keys.rotate key.id = .ok s.keys ∧ x.events = [.rotated key.id] := by
  rcases h.of_pending hown with hok | ⟨r, herror⟩
  · exact hok
  · obtain ⟨hnext, hkey⟩ := hc.waiting _ key hown
    have hok := Ring.rotate_eq_ok_iff.mpr ⟨key, hkey, hnext, rfl⟩
    rw [herror] at hok
    cases hok

include hC

theorem KeysKept.waiting_of_ne (hi : i ≠ x.thread) (hown : Pending (own i c.trace) key) :
    s.keys.lookup key.id = some key := by
  obtain ⟨hnext, hkey⟩ := hc.waiting i key hown
  cases h with
  | keep _ hkeys => rwa [hkeys]
  | select | sign | refuse | publish => exact hkey
  | add _ _ _ _ _ hx => exact Ring.lookup_add_of_fresh (hC _ (by simp [hx])) hkey
  | rotate _ hown' hkeys =>
    rw [Ring.lookup_rotate_of_ne hkeys fun hid => hi (hc.apart _ _ _ _ hown hown' hid), hkey,
      Option.map_some, Ring.retire, if_neg (by rw [hnext]; decide)]

/-- **The step.** -/
theorem KeysKept.step : KeysKept P ⟨s, c.trace ++ [x]⟩ := by
  refine ⟨h.made hc.made, h.distinct hc.distinct, h.one hC hc.one, ?_, ?_, ?_, ?_⟩
  · intro i key hown
    rcases pending_snoc hown with ⟨-, hv⟩ | ⟨hi, hown⟩
    · obtain ⟨hnext, hkeys⟩ := h.of_added hv
      refine ⟨hnext, ?_⟩
      show s.keys.lookup key.id = some key
      rw [hkeys]
      exact Ring.lookup_set_self ..
    · exact ⟨(hc.waiting i key hown).1, hc.waiting_of_ne h hC hi hown⟩
  · -- a key that is added now is not yet on the ring, one that was added before is
    have hfresh : ∀ {j key key'}, .added key ∈ x.events → Pending (own j c.trace) key' →
        key.id ≠ key'.id := by
      intro j key key' hv hown hid
      have hnone := hC key hv
      rw [hid, (hc.waiting j key' hown).2] at hnone
      cases hnone
    intro i j key key' hi hj hid
    rcases pending_snoc hi with ⟨hi, hv⟩ | ⟨-, hown⟩
    · rcases pending_snoc hj with ⟨hj, -⟩ | ⟨-, hown'⟩
      · exact hi.trans hj.symm
      · exact absurd hid (hfresh hv hown')
    · rcases pending_snoc hj with ⟨-, hv'⟩ | ⟨-, hown'⟩
      · exact absurd hid.symm (hfresh hv' hown)
      · exact hc.apart i j key key' hown hown' hid
  · intro i key o₁ y o₂ hown hpending
    rcases eq_or_ne i x.thread with rfl | hi
    · rw [own_snoc_self] at hown
      rcases List.eq_nil_or_concat o₂ with rfl | ⟨o₃, z, rfl⟩
      · obtain ⟨rfl, hy⟩ := List.append_inj' hown rfl
        rw [← (List.cons.inj hy).1]
        exact (hc.rotate_ok h hpending).2
      · rw [List.concat_eq_append, ← List.cons_append, ← List.append_assoc] at hown
        exact hc.rotated _ key o₁ y o₃ (List.append_inj' hown rfl).1 hpending
    · rw [own_snoc_of_ne _ hi.symm] at hown
      exact hc.rotated i key o₁ y o₂ hown hpending
  · intro y hy key hv
    rcases List.mem_append.mp hy with hy | hy
    · obtain ⟨key', hkey', hages⟩ := hc.selected y hy key hv
      obtain ⟨key'', hkey'', hages'⟩ := h.ages hC hkey'
      exact ⟨key'', hkey'', hages.trans hages'⟩
    · obtain rfl := List.mem_singleton.mp hy
      obtain ⟨id, hmem, hkeys⟩ := h.of_selected hv
      obtain ⟨hid, -⟩ := hc.made id key hmem
      refine ⟨key, ?_, .refl key⟩
      show s.keys.lookup key.id = some key
      rw [hkeys, hid]
      exact hc.distinct.lookup hmem

end Step

theorem keysKept_initial (h : Initial P cfg s) : KeysKept P ⟨s, []⟩ := by
  obtain ⟨signer, key, db, hpair, hid, hactive, rfl⟩ := initial_cases h
  have hnone : ∀ i key', ¬Pending (own i []) key' := fun i => uninvolved_nil.settled.1
  refine ⟨?_, List.nodup_singleton _, ⟨key, ?_⟩, fun i key' hown => absurd hown (hnone i key'),
    fun i _ key' _ hown => absurd hown (hnone i key'), fun i key' o₁ y o₂ hown => ?_,
    fun y hy => absurd hy List.not_mem_nil⟩
  · intro id key' hmem
    obtain ⟨rfl, rfl⟩ := Prod.mk.inj (List.mem_singleton.mp hmem)
    exact ⟨rfl, hpair, hid, by rw [hactive]; decide⟩
  · simp [Ring.activeKeys, hactive]
  · exact absurd hown (by simp)

variable {C : Snapshot → Entry Env Event → Prop} {w : World}

theorem keyEffect_hasEffects :
    Server.HasEffects (Initial P cfg) (handle P cfg) C (KeyEffect P) :=
  Server.hasEffects_of_confined (Q := fun _ _ => Concluded) handle_confined

theorem keysKept_of_reachable (hw : (server P cfg FreshKeys).Reachable w) : KeysKept P w.config :=
  keyEffect_hasEffects.invariant (fun _ => keysKept_initial)
    (fun _ _ _ _ hc hC h => hc.step h hC) hw

/-- **What becomes of a key in the rest of a run.** -/
theorem ages_of_leads (hw : (server P cfg FreshKeys).Reachable w) {w' : World}
    (h : (server P cfg FreshKeys).Leads w w') {id : Str}
    (hkey : w.state.keys.lookup id = some key) :
    ∃ key', w'.state.keys.lookup id = some key' ∧ Ring.Ages key key' := by
  refine h.stable (Q := fun w' => ∃ key', w'.state.keys.lookup id = some key' ∧
    Ring.Ages key key') (fun w₁ a w₂ hw₁ hl hstep => ?_) hw ⟨key, hkey, .refl key⟩
  obtain ⟨key₁, hkey₁, hages⟩ := hl
  rcases keyEffect_hasEffects.of_step hw₁ hstep with hsame | ⟨req, x, hC, hx, -⟩
  · have hstate : w₂.state = w₁.state := congrArg Iscp.Config.state hsame
    rw [hstate]
    exact ⟨key₁, hkey₁, hages⟩
  · obtain ⟨key₂, hkey₂, hages'⟩ := hx.ages hC hkey₁
    exact ⟨key₂, hkey₂, hages.trans hages'⟩

theorem signedWith_of_did (hw : (server P cfg C).Reachable w)
    (hdid : Did w.trace i (.signed grant)) :
    ∃ key, Did w.trace i (.selected key) ∧ Signed P key.priv key.id grant := by
  obtain ⟨x, hx, rfl, hv⟩ := hdid
  obtain ⟨t₁, t₂, htrace⟩ := List.append_of_mem hx
  obtain ⟨w₁, w₂, req, p, -, rfl, -, heffect, -⟩ := keyEffect_hasEffects.of_split hw htrace
  obtain ⟨key, hselected, hsigned⟩ := heffect.of_signed hv
  exact ⟨key, hselected.extend ⟨x :: t₂, htrace.symm⟩, hsigned⟩

/-! ### The issuer of a grant -/

theorem issuerForGrant_answer (hkid : trimSpace grant.signature.kid ≠ [])
    (hget : s.keys.get grant.signature.kid = .ok key) (e : Env) :
    (issuerForGrant cfg grant).answer e s = some (.ok (signerIdentity cfg key e.now.utc)) := by
  simp only [issuerForGrant, clock, Handler.ask, Handler.look, Handler.stopIf, hkid, if_false, hget,
    Handler.ofExcept, Handler.answer, Handler.atomic_bind, Handler.done_bind, Handler.play,
    Handler.pure_eq, if_true, Option.map_some]

/-- **The signature of a grant verifies with the key of an identity**, as `VerifyGrant` goes
about it. -/
def SignatureVerifies (P : Primitives) (grant : Grant) (issuer : DeviceIdentity) : Prop :=
  ∃ pubBytes pub sig input, decodeBase64URL issuer.publicKey.pub = .ok pubBytes ∧
    ed25519PublicKeyFromBytes pubBytes = .ok pub ∧
    decodeBase64URL grant.signature.value = .ok sig ∧
    grantInput { grant with signature := noSignature } = .ok input ∧ verify P pub input sig = true

theorem signatureVerifies_of_signed (hs : P.SignsVerifiably) {key' : Key}
    (hpair : KeyPair P key.priv key.pub) (hsigned : Signed P key.priv key.id grant)
    (hpub : key'.pub = key.pub) (now : Time) :
    SignatureVerifies P grant (signerIdentity cfg key' now) := by
  refine ⟨key.pub.key, key.pub,
    sign P key.priv (Canonical.signedBytes typeTrustGrant grant.unsigned.fields),
    _, ?_, ?_, ?_, grantInput_eq_ok.mpr ⟨hsigned.signable, rfl⟩, hs.verify_sign hpair _⟩
  · rw [← hpub]
    exact decodeBase64URL_base64URL _
  · exact ed25519PublicKeyFromBytes_eq_ok.mpr rfl
  · rw [hsigned.signature]
    exact decodeBase64URL_base64URL _

/-- **Rotation**, in any run of a Trust Root, with a database or without one, in which no two keys
have the same identifier. One key is active; a key that is retired stays retired; a rotation that
has added its key and is over has made it the active one, and said so; and a grant that was signed
is traced back to a public key that verifies it. -/
theorem rotation_sound (hs : P.SignsVerifiably) (hsize : ∀ b, P.sha256 b ≠ [])
    (hw : (server P cfg FreshKeys).Reachable w) :
    (∃ key, w.state.keys.activeKeys = [key]) ∧
    (∀ w', (server P cfg FreshKeys).Leads w w' → ∀ id key, w.state.keys.lookup id = some key →
      key.state = .retired → ∃ key', w'.state.keys.lookup id = some key' ∧ key'.state = .retired) ∧
    (∀ i key, Did w.trace i (.added key) → ∀ req r,
      w.threads i = some (req, .done r) ∨ w.threads i = some (req, .stop r) →
        r = .json 200 (.activeKey key.id) ∧ Did w.trace i (.rotated key.id)) ∧
    ∀ i grant, Did w.trace i (.signed grant) → ∀ e, ∃ issuer,
      (issuerForGrant cfg grant).answer e w.state = some (.ok issuer) ∧
        SignatureVerifies P grant issuer := by
  have hkept := keysKept_of_reachable hw
  refine ⟨hkept.one, ?_, ?_, ?_⟩
  · intro w' hleads id key hkey hretired
    obtain ⟨key', hkey', hages⟩ := ages_of_leads hw hleads hkey
    exact ⟨key', hkey', hages.retired hretired⟩
  · intro i key hadded req r hover
    obtain ⟨x, hx, hv⟩ : ∃ x ∈ own i w.trace, .added key ∈ x.events := by
      obtain ⟨x, hx, hi, hv⟩ := hadded
      exact ⟨x, mem_own.mpr ⟨hx, hi⟩, hv⟩
    have hconcluded : Concluded r (own i w.trace) :=
      Server.over_of_confined (Q := fun _ _ => Concluded) handle_confined hw hover
    obtain ⟨o₁, y, o₂, hown, hpending, hr⟩ := hconcluded.answer x hx key hv
    -- the rotation came to its second section, and there the key was found
    have hy : y.events = [.rotated key.id] := hkept.rotated i key o₁ y o₂ hown hpending
    refine ⟨hr hy, y, ?_⟩
    have hmem : y ∈ own i w.trace := by
      rw [hown]
      exact List.mem_append_right _ List.mem_cons_self
    obtain ⟨hmem, hi⟩ := mem_own.mp hmem
    exact ⟨hmem, hi, by simp [hy]⟩
  · intro i grant hdid e
    obtain ⟨key, ⟨x, hx, -, hselected⟩, hsigned⟩ := signedWith_of_did hw hdid
    obtain ⟨key', hkey', hages⟩ := hkept.selected x hx key hselected
    obtain ⟨-, hpair, hthumb, hstate⟩ := hkept.made key.id key' (Ring.mem_of_lookup hkey')
    have hkid : grant.signature.kid = key.id := congrArg Signature.kid hsigned.signature
    refine ⟨signerIdentity cfg key' e.now.utc, issuerForGrant_answer ?_ ?_ e, ?_⟩
    · rw [hkid, hthumb]
      exact trimSpace_base64URL_ne_nil (hsize _)
    · rw [hkid, Ring.get, show w.state.keys.lookup key.id = some key' from hkey']
      exact if_neg hstate
    · rw [hages.priv, hages.pub] at hpair
      exact signatureVerifies_of_signed hs hpair hsigned hages.pub e.now.utc

/-! ### A run with a rotation -/

/-- The key that is added. -/
def Event.adds : Event → Option Key
  | .added key => some key
  | _ => none

instance (c : Snapshot) (x : Entry Env Event) : Decidable (FreshKeys c x) :=
  decidable_of_iff (∀ v ∈ x.events, ∀ key ∈ v.adds, c.state.keys.lookup key.id = none) ⟨
    fun h key hkey => h _ hkey key rfl, fun h v hv key hkey => h key (by
      unfold Event.adds at hkey
      split at hkey <;> simp_all)⟩

/-- The environment with another seed. -/
def seeded (b : UInt8) : Env := { exampleEnv with seed := some (exampleSeed b) }

set_option synthInstance.maxSize 512 in
/-- A grant is signed, and then the keys are rotated: the first key is retired and the other one
active, the rotation has succeeded, and the grant verifies. -/
theorem rotation_sound_once : ∃ (w : World) (grant : Grant) (old new : Key),
    (server .transparent exampleConfig FreshKeys).Reachable w ∧
      Did w.trace 1 (.signed grant) ∧ Did w.trace 2 (.rotated new.id) ∧
      w.state.keys.lookup old.id = some old ∧ old.state = .retired ∧
      w.state.keys.activeKeys = [new] ∧ ∃ issuer,
      (issuerForGrant exampleConfig grant).answer exampleEnv w.state = some (.ok issuer) ∧
        SignatureVerifies .transparent grant issuer := by
  obtain ⟨w, hw, ⟨x, hx, v, hv, grant, hgrant, hsigned⟩, old, -, hold, hretired, new, -, hactive,
      hrotated⟩ :
      ∃ w ∈ authorizing FreshKeys [] (.start 2 (.rotateKeys noHeaders) ::
          List.replicate 4 (.run 2 (seeded 1))),
        (∃ x ∈ w.trace, ∃ v ∈ x.events, ∃ grant ∈ v.entered, Did w.trace 1 (.signed grant)) ∧
        ∃ old ∈ w.state.keys.map Prod.snd, w.state.keys.lookup old.id = some old ∧
          old.state = .retired ∧ ∃ new ∈ w.state.keys.map Prod.snd,
            w.state.keys.activeKeys = [new] ∧ Did w.trace 2 (.rotated new.id) := by
    decide +kernel
  have hreachable := reachable_of_authorizing hw
  obtain ⟨-, -, -, hverifies⟩ := rotation_sound Primitives.signsVerifiably_transparent
    (fun b => List.cons_ne_nil 0 b) hreachable
  exact ⟨w, grant, old, new, hreachable, hsigned, hrotated, hold, hretired, hactive,
    hverifies 1 grant hsigned exampleEnv⟩

end TrustRoot

end Iscp
