import Iscp.TrustRoot.Rotation

/-!
# The published signer

The descriptor of the Trust Root is signed by `s.signer`, grants are signed with the active key of
the ring. A rotation sets the two in sections of their own, first the ring and then the signer, and
nothing keeps another rotation from running in between.

`Iscp.TrustRoot.rotations` reads off the record which key was made active last and which was
published last. Once no rotation is in progress, one key is active and it is the one that was made
active last, whatever identifiers the keys have; so the signer follows it exactly if the two are
the same (`Iscp.TrustRoot.signer_follows_iff`). They are if no rotation is overtaken before its last
section (`Iscp.TrustRoot.signer_follows_of_notOvertaken`), and may be different if one is
(`Iscp.TrustRoot.signer_left_behind`).
-/

namespace Iscp

namespace TrustRoot

open Go Crypto Identity Keyring Service Trust

variable {P : Primitives} {cfg : Config} {C : Snapshot → Entry Env Event → Prop}

/-! ### The order of the rotations -/

/-- How far the rotations have come: the key each has made active and not yet published, the key
that was made active last and the one that was published last. -/
structure Rotations where
  waiting : ℕ → Option Str
  rotated : Option Str
  published : Option Str

/-- The key a section makes active. -/
def rotatedBy (x : Entry Env Event) : Option Str :=
  match x.events with
  | [.rotated keyID] => some keyID
  | _ => none

/-- One section more: what a rotation has made active is published in its next section. -/
def Rotations.after (r : Rotations) (x : Entry Env Event) : Rotations where
  waiting := Function.update r.waiting x.thread (rotatedBy x)
  rotated := (rotatedBy x).or r.rotated
  published := (r.waiting x.thread).or r.published

/-- **The rotations on record.** -/
def rotations (t : Trace) : Rotations := t.foldl Rotations.after ⟨fun _ => none, none, none⟩

theorem rotations_snoc (t : Trace) (x : Entry Env Event) :
    rotations (t ++ [x]) = (rotations t).after x := by
  rw [rotations, List.foldl_append]
  rfl

variable {keyID : Str} {t : Trace} {i : ℕ} {key : Key} {r : Ring} {w : World}

theorem rotatedBy_eq_some {x : Entry Env Event} :
    rotatedBy x = some keyID ↔ x.events = [.rotated keyID] := by
  unfold rotatedBy
  split
  · next hx => simp [hx]
  · next hne => exact ⟨nofun, fun hx => absurd hx (hne keyID)⟩

theorem rotatedBy_eq_none {x : Entry Env Event} (hx : ∀ v ∈ x.events, ¬v.OfRotation) :
    rotatedBy x = none := by
  rw [Option.eq_none_iff_forall_ne_some]
  intro keyID h
  rw [rotatedBy_eq_some.mp h] at hx
  exact hx (.rotated keyID) (List.mem_singleton_self _) trivial

theorem unpublished_snoc {o : Trace} {x : Entry Env Event} :
    Unpublished (o ++ [x]) keyID ↔ rotatedBy x = some keyID := by
  rw [rotatedBy_eq_some]
  constructor
  · rintro ⟨o₁, e, i, heq⟩
    rw [last_eq heq]
  · intro hx
    exact ⟨o, x.env, x.thread, by rw [← hx]⟩

/-- A rotation waits if the last of its entries is that of `Rotate`. -/
theorem waiting_eq_some : (rotations t).waiting i = some keyID ↔ Unpublished (own i t) keyID := by
  induction t using List.reverseRecOn with
  | nil => exact ⟨nofun, fun h => absurd h (uninvolved_nil.settled.2 keyID)⟩
  | append_singleton t x ih =>
    rw [rotations_snoc, Rotations.after]
    dsimp only
    rcases eq_or_ne i x.thread with rfl | hi
    · rw [Function.update_self, own_snoc_self, unpublished_snoc]
    · rw [Function.update_of_ne hi, own_snoc_of_ne _ hi.symm, ih]

/-- **What is published was made active before**, and what was made active is published or
waits to be. -/
theorem rotations_sound (t : Trace) :
    ((rotations t).rotated = none → (rotations t).published = none ∧
      ∀ i, (rotations t).waiting i = none) ∧
    ((rotations t).published = none → (rotations t).rotated = none ∨
      ∃ i, (rotations t).waiting i ≠ none) := by
  induction t using List.reverseRecOn with
  | nil => exact ⟨fun _ => ⟨rfl, fun _ => rfl⟩, fun _ => .inl rfl⟩
  | append_singleton t x ih =>
    obtain ⟨hnone, hsome⟩ := ih
    rw [rotations_snoc]
    simp only [Rotations.after, Option.or_eq_none_iff]
    refine ⟨fun ⟨hx, hr⟩ => ?_, fun ⟨hw, hp⟩ => ?_⟩
    · obtain ⟨hp, hw⟩ := hnone hr
      refine ⟨⟨hw _, hp⟩, fun i => ?_⟩
      rcases eq_or_ne i x.thread with rfl | hi
      · rw [Function.update_self, hx]
      · rw [Function.update_of_ne hi, hw]
    · cases hx : rotatedBy x with
      | some keyID => exact .inr ⟨x.thread, by simp⟩
      | none =>
        rcases hsome hp with hr | ⟨i, hi⟩
        · exact .inl ⟨rfl, hr⟩
        · refine .inr ⟨i, ?_⟩
          rwa [Function.update_of_ne]
          rintro rfl
          exact hi hw

/-! ### What holds in every run -/

/-- **The last key that was made active**: it is the active one, or it has been replaced by a key
that is next, and the rotation that did so has not come to its second section. -/
structure Latest (r : Ring) (t : Trace) (keyID : Str) (key : Key) : Prop where
  lookup : r.lookup keyID = some key
  state : (key.state = .active ∧ r.activeKeys = [key]) ∨
    (key.state = .next ∧ r.activeKeys = [] ∧ ∃ i new, Pending (own i t) new ∧ new.id = keyID)

/-- **What holds of the ring and the signer in every run.** -/
structure Followed (P : Primitives) (first : Str) (c : Snapshot) : Prop where
  made : c.state.keys.Made P
  signer : c.state.signer.identity.publicKey.kid = (rotations c.trace).published.getD first
  latest : ∃ key, Latest c.state.keys c.trace ((rotations c.trace).rotated.getD first) key

variable {req : Request} {c : Snapshot} {x : Entry Env Event} {s : State} {first : Str}

theorem pending_extend (h : Pending (own i t) key) (hi : i ≠ x.thread) :
    Pending (own i (t ++ [x])) key := by
  rwa [own_snoc_of_ne _ hi.symm]

theorem Latest.extend (h : Latest r t keyID key)
    (hown : ∀ new, Pending (own x.thread t) new → new.id ≠ keyID) :
    Latest r (t ++ [x]) keyID key := by
  obtain ⟨hlookup, hactive | ⟨hnext, hnone, i, new, hpending, hid⟩⟩ := h
  · exact ⟨hlookup, .inl hactive⟩
  · refine ⟨hlookup, .inr ⟨hnext, hnone, i, new, pending_extend hpending ?_, hid⟩⟩
    rintro rfl
    exact hown new hpending hid

theorem Latest.add (hmade : r.Made P) {new : Key} (h : Latest r t keyID key)
    (hown : Settled (own x.thread t)) (hx : x.events = [.added new]) (hnext : new.state = .next) :
    ∃ key', Latest (r.add new) (t ++ [x]) keyID key' := by
  have hset := Ring.activeKeys_set hmade new.id new
  rw [if_neg (by rw [hnext]; decide), List.append_nil] at hset
  obtain ⟨hid, -⟩ := hmade keyID key (Ring.mem_of_lookup h.lookup)
  rcases eq_or_ne new.id keyID with rfl | hne
  · -- the key takes the place of the last one, and its rotation is under way
    refine ⟨new, Ring.lookup_set_self .., .inr ⟨hnext, ?_, x.thread, new, ?_, rfl⟩⟩
    · rw [Ring.add, hset]
      obtain ⟨-, hactive⟩ | ⟨-, hnone, -⟩ := h.state
      · simp [hactive, hid]
      · simp [hnone]
    · rw [own_snoc_self]
      exact ⟨_, x.env, x.thread, by rw [← hx]⟩
  · have hextend := h.extend (x := x) fun key' hpending => absurd hpending (hown.1 key')
    refine ⟨key, (Ring.lookup_set_of_ne r hne.symm new).trans h.lookup, ?_⟩
    obtain ⟨hactive, hkeys⟩ | ⟨hstate, hnone, hpending⟩ := hextend.state
    · refine .inl ⟨hactive, ?_⟩
      rw [Ring.add, hset, hkeys]
      simp [hid, hne.symm]
    · refine .inr ⟨hstate, ?_, hpending⟩
      rw [Ring.add, hset, hnone]
      rfl

theorem latest_rotate {r' : Ring} (h : r.rotate keyID = .ok r') (t : Trace) :
    ∃ key, Latest r' t keyID key := by
  obtain ⟨next, -, -, rfl⟩ := Ring.rotate_eq_ok_iff.mp h
  refine ⟨{ next with state := .active }, Ring.lookup_set_self .., .inl ⟨rfl, ?_⟩⟩
  exact Ring.activeKeys_rotate_eq r keyID next

theorem waiting_eq_none (h : ∀ keyID, ¬Unpublished (own i t) keyID) :
    (rotations t).waiting i = none := by
  rw [Option.eq_none_iff_forall_ne_some]
  exact fun keyID hw => h keyID (waiting_eq_some.mp hw)

theorem rotations_extend (hown : ∀ keyID, ¬Unpublished (own x.thread t) keyID)
    (hx : rotatedBy x = none) : (rotations (t ++ [x])).rotated = (rotations t).rotated ∧
      (rotations (t ++ [x])).published = (rotations t).published := by
  rw [rotations_snoc]
  simp only [Rotations.after, hx, waiting_eq_none hown, Option.none_or, and_self]

/-- **The step.** -/
theorem Followed.step (hc : Followed P first c) (h : KeyEffect P req c x s) :
    Followed P first ⟨s, c.trace ++ [x]⟩ := by
  have hmade := h.made hc.made
  obtain ⟨hring, hsigner, key, hlatest⟩ := hc
  -- a section of a request that is not rotating
  have hsettled : Settled (own x.thread c.trace) → (∀ v ∈ x.events, ¬v.OfRotation) →
      s.keys = c.state.keys → s.signer = c.state.signer → Followed P first ⟨s, c.trace ++ [x]⟩ := by
    intro hown hx hkeys hsame
    obtain ⟨hrotated, hpublished⟩ := rotations_extend hown.2 (rotatedBy_eq_none hx)
    refine ⟨hmade, ?_, key, ?_⟩
    · rw [hpublished, ← hsigner]
      exact congrArg (fun d : Device => d.identity.publicKey.kid) hsame
    · dsimp only
      rw [hrotated, hkeys]
      exact hlatest.extend fun new hpending => absurd hpending (hown.1 new)
  cases h with
  | keep hown hkeys hsame hx =>
    exact hsettled hown (fun v hv h => hx v hv (ofKeys_of_ofRotation h)) hkeys hsame
  | select hown _ hx | sign hown _ _ hx =>
    refine hsettled hown ?_ rfl rfl
    rw [hx]
    exact List.forall_mem_singleton.mpr fun h => h
  | add _ hown _ _ hnext hx =>
    obtain ⟨hrotated, hpublished⟩ := rotations_extend hown.2 (x := x) (by simp [rotatedBy, hx])
    refine ⟨hmade, by rw [hpublished]; exact hsigner, ?_⟩
    rw [hrotated]
    exact hlatest.add hring hown hx hnext
  | rotate _ hown hkeys hx =>
    have hnone := waiting_eq_none fun _ => hown.not_unpublished
    refine ⟨hmade, ?_, ?_⟩
    · rw [rotations_snoc, Rotations.after]
      dsimp only
      rw [hnone]
      exact hsigner
    · rw [rotations_snoc, Rotations.after]
      dsimp only
      rw [rotatedBy_eq_some.mpr hx]
      exact latest_rotate hkeys _
  | refuse hown hkeys hx =>
    obtain ⟨hrotated, hpublished⟩ := rotations_extend (x := x)
      (fun keyID => hown.not_unpublished) (by simp [rotatedBy, hx])
    refine ⟨hmade, by rw [hpublished]; exact hsigner, key, ?_⟩
    dsimp only
    rw [hrotated]
    -- the key of the rotation would have been found if it had replaced the last one
    obtain ⟨hactive, hkey⟩ | ⟨hstate, hnone, i, new, hpending, hid⟩ := hlatest.state
    · exact ⟨hlatest.lookup, .inl ⟨hactive, hkey⟩⟩
    · refine ⟨hlatest.lookup, .inr ⟨hstate, hnone, i, new, pending_extend hpending ?_, hid⟩⟩
      rintro rfl
      obtain rfl := hpending.unique hown
      rw [hid, Ring.rotate_eq_ok_iff.mpr ⟨key, hlatest.lookup, hstate, rfl⟩] at hkeys
      cases hkeys
  | publish hown hkid hx =>
    refine ⟨hmade, ?_, key, ?_⟩
    · rw [rotations_snoc, Rotations.after]
      dsimp only
      rw [waiting_eq_some.mpr hown]
      exact hkid
    · dsimp only
      rw [rotations_snoc, Rotations.after]
      dsimp only
      rw [show rotatedBy x = none by simp [rotatedBy, hx]]
      exact hlatest.extend fun new hpending => absurd hown hpending.not_unpublished

theorem followed_initial (h : Initial P cfg s) : ∃ first, Followed P first ⟨s, []⟩ := by
  obtain ⟨db, e, h⟩ := h
  simp only [new, newDevice, bind_eq_ok_iff] at h
  obtain ⟨_, ⟨⟨priv, pub⟩, hkeys, ⟨⟩⟩, _, -, _, -, ⟨⟩⟩ := h
  have hpair := keyPair_of_generate P hkeys
  obtain rfl := hpair.publicKey_eq
  refine ⟨_, ?_, rfl, _, ?_, .inl ⟨rfl, rfl⟩⟩
  · intro id key' hmem
    obtain ⟨rfl, rfl⟩ := Prod.mk.inj (List.mem_singleton.mp hmem)
    refine ⟨rfl, hpair, rfl, ?_⟩
    rintro ⟨⟩
  · exact Ring.lookup_set_self [] _ _

theorem followed_of_reachable (hw : (server P cfg C).Reachable w) :
    ∃ first, Followed P first w.config := by
  refine keyEffect_hasEffects.invariant (I := fun c => ∃ first, Followed P first c)
    (fun s hs => followed_initial hs) (fun req c x s hc _ hx => ?_) hw
  obtain ⟨first, hc⟩ := hc
  exact ⟨first, hc.step hx⟩

/-! ### When no rotation is in progress -/

/-- **A rotation is in progress**: a request for one has been started and is not over. -/
def RotationInProgress (w : World) : Prop :=
  ∃ i h p, w.threads i = some (.rotateKeys h, p) ∧ ∀ r, p ≠ .done r ∧ p ≠ .stop r

theorem KeyEffect.rotateKeys (h : KeyEffect P req c x s) {v : Event} (hv : v ∈ x.events)
    (hrotation : v.OfRotation) : ∃ h, req = .rotateKeys h := by
  cases h with
  | keep _ _ _ hx => exact absurd (ofKeys_of_ofRotation hrotation) (hx v hv)
  | select _ _ hx | sign _ _ _ hx =>
    rw [hx] at hv
    rw [List.mem_singleton.mp hv] at hrotation
    exact hrotation.elim
  | add hreq | rotate hreq => exact hreq
  | refuse _ _ hx | publish _ _ hx =>
    rw [hx] at hv
    exact absurd hv List.not_mem_nil

/-- If no rotation is in progress, no thread is in the middle of one. -/
theorem settled_of_not_inProgress (hw : (server P cfg C).Reachable w) (h : ¬RotationInProgress w)
    (i : ℕ) : Settled (own i w.trace) := by
  by_cases hall : Uninvolved (own i w.trace)
  · exact hall.settled
  · -- the request has events of a rotation, so it is one, and it is over
    simp only [Uninvolved, not_forall, not_not] at hall
    obtain ⟨x, hx, v, hv, hrotation⟩ := hall
    obtain ⟨hmem, rfl⟩ := mem_own.mp hx
    obtain ⟨t₁, t₂, htrace⟩ := List.append_of_mem hmem
    obtain ⟨w₁, w₂, req, p, -, -, -, heffect, -, -, -, hthread⟩ :=
      (keyEffect_hasEffects (C := C)).of_split hw htrace
    obtain ⟨h', rfl⟩ := heffect.rotateKeys hv hrotation
    have hover : ∃ r, p = .done r ∨ p = .stop r := by
      by_contra hnot
      push Not at hnot
      exact h ⟨x.thread, h', p, hthread, hnot⟩
    obtain ⟨r, hr⟩ := hover
    have hconcluded : Concluded r (own x.thread w.trace) := by
      have hend : w.threads x.thread = some (.rotateKeys h', .done r) ∨
          w.threads x.thread = some (.rotateKeys h', .stop r) := by
        rcases hr with rfl | rfl
        · exact .inl hthread
        · exact .inr hthread
      exact Server.over_of_confined (Q := fun _ _ => Concluded) handle_confined hw hend
    exact hconcluded.settled

/-- **When no rotation is in progress** one key is active: the one that was made active last. The
signer has the key that was published last, and no key waits to be published. -/
theorem active_of_quiet (hw : (server P cfg C).Reachable w) (hquiet : ¬RotationInProgress w) :
    ∃ first key, w.state.keys.activeKeys = [key] ∧
      key.id = (rotations w.trace).rotated.getD first ∧
      w.state.signer.identity.publicKey.kid = (rotations w.trace).published.getD first ∧
      ∀ i, (rotations w.trace).waiting i = none := by
  obtain ⟨first, hmade, hsigner, key, hlatest⟩ := followed_of_reachable hw
  have hsettled := settled_of_not_inProgress hw hquiet
  refine ⟨first, key, ?_, (hmade _ key (Ring.mem_of_lookup hlatest.lookup)).1, hsigner,
    fun i => waiting_eq_none (hsettled i).2⟩
  obtain ⟨-, hactive⟩ | ⟨-, -, i, new, hpending, -⟩ := hlatest.state
  · exact hactive
  · exact absurd hpending ((hsettled i).1 new)

/-- **When the signer follows the active key.** In every run of a Trust Root, in every world in
which no rotation is in progress, one key is active, and the signer of the descriptor has its
identifier exactly if the key that was published last is the one that was made active last. -/
theorem signer_follows_iff {w : World} (hw : (server P cfg C).Reachable w)
    (hquiet : ¬RotationInProgress w) : ∃ key, w.state.keys.activeKeys = [key] ∧
      (w.state.signer.identity.publicKey.kid = key.id ↔
        (rotations w.trace).published = (rotations w.trace).rotated) := by
  obtain ⟨first, key, hactive, hid, hsigner, hwaiting⟩ := active_of_quiet hw hquiet
  obtain ⟨hnone, hsome⟩ := rotations_sound w.trace
  refine ⟨key, hactive, ?_⟩
  rw [hsigner, hid]
  cases hr : (rotations w.trace).rotated with
  | none => simp [(hnone hr).1]
  | some rotated =>
    cases hp : (rotations w.trace).published with
    | none =>
      rcases hsome hp with h | ⟨i, hi⟩
      · rw [hr] at h
        cases h
      · exact absurd (hwaiting i) hi
    | some published => simp

/-! ### Rotations that are not overtaken -/

/-- **No rotation is overtaken**: a key is made active only if none waits to be published. -/
def NotOvertaken (c : Snapshot) (x : Entry Env Event) : Prop :=
  rotatedBy x ≠ none → ∀ i, (rotations c.trace).waiting i = none

/-- **Rotations in their order**: the key that waits is the one that was made active last, and if
none waits this one has been published. -/
structure Rotations.InOrder (r : Rotations) : Prop where
  waiting : ∀ i keyID, r.waiting i = some keyID → r.rotated = some keyID
  published : (∀ i, r.waiting i = none) → r.published = r.rotated

/-- A section keeps the rotations in order if it overtakes none. -/
theorem Rotations.InOrder.after {r : Rotations} (h : r.InOrder)
    (hx : rotatedBy x ≠ none → ∀ i, r.waiting i = none) : (r.after x).InOrder := by
  constructor
  · intro i keyID hwaiting
    simp only [Rotations.after] at hwaiting ⊢
    rcases eq_or_ne i x.thread with rfl | hi
    · rw [Function.update_self] at hwaiting
      rw [hwaiting, Option.some_or]
    · rw [Function.update_of_ne hi] at hwaiting
      cases hrotated : rotatedBy x with
      | none => rw [Option.none_or, h.waiting i keyID hwaiting]
      | some _ =>
        rw [hx (by rw [hrotated]; exact Option.some_ne_none _) i] at hwaiting
        cases hwaiting
  · intro hnone
    simp only [Rotations.after] at hnone ⊢
    have hrotated : rotatedBy x = none := by
      have hown := hnone x.thread
      rwa [Function.update_self] at hown
    rw [hrotated, Option.none_or]
    cases hown : r.waiting x.thread with
    | some keyID => rw [Option.some_or, h.waiting x.thread keyID hown]
    | none =>
      rw [Option.none_or]
      refine h.published fun i => ?_
      rcases eq_or_ne i x.thread with rfl | hi
      · exact hown
      · have hother := hnone i
        rwa [Function.update_of_ne hi] at hother

theorem inOrder_of_reachable (hw : (server P cfg NotOvertaken).Reachable w) :
    (rotations w.trace).InOrder := by
  refine keyEffect_hasEffects.invariant (I := fun c => (rotations c.trace).InOrder)
    (fun _ _ => ⟨nofun, fun _ => rfl⟩) (fun _ c x _ hc hx _ => ?_) hw
  rw [rotations_snoc]
  exact hc.after hx

/-- **The signer follows the active key if no rotation is overtaken.** -/
theorem signer_follows_of_notOvertaken (hw : (server P cfg NotOvertaken).Reachable w)
    (hquiet : ¬RotationInProgress w) : ∃ key, w.state.keys.activeKeys = [key] ∧
      w.state.signer.identity.publicKey.kid = key.id := by
  obtain ⟨first, key, hactive, hid, hsigner, hwaiting⟩ := active_of_quiet hw hquiet
  refine ⟨key, hactive, ?_⟩
  rw [hsigner, hid, (inOrder_of_reachable hw).published hwaiting]

/-! ### Runs of rotations -/

/-- A request has been answered. -/
def World.over (w : World) (i : ℕ) : Bool :=
  match w.threads i with
  | some (_, .done _) => true
  | some (_, .stop _) => true
  | _ => false

theorem quiet_of_running {as : List (Server.Action Env Request)}
    (h : running Server.always as = some w) (hover : ∀ a ∈ as, World.over w a.thread = true) :
    ¬RotationInProgress w := by
  rintro ⟨i, headers, p, hthread, hp⟩
  obtain ⟨s, -, hw⟩ := Option.bind_eq_some_iff.mp h
  by_cases hi : ∃ a ∈ as, a.thread = i
  · obtain ⟨a, ha, rfl⟩ := hi
    have hend := hover a ha
    rw [World.over, hthread] at hend
    split at hend
    · next heq =>
      cases heq
      exact (hp _).1 rfl
    · next heq =>
      cases heq
      exact (hp _).2 rfl
    · cases hend
  · push Not at hi
    rw [Server.threads_of_foldlM hw hi] at hthread
    cases hthread

/-- The keys are to be rotated, and `n` sections of the request are run. -/
def rotates (i : ℕ) (b : UInt8) (n : ℕ) : List (Server.Action Env Request) :=
  .start i (.rotateKeys noHeaders) :: List.replicate n (.run i (seeded b))

/-- One rotation after the other, and the signer follows the second key. -/
theorem signer_follows_one : ∃ (w : World) (keyID keyID' : Str) (key : Key),
    (server .transparent exampleConfig Server.always).Reachable w ∧ ¬RotationInProgress w ∧
      Did w.trace 0 (.rotated keyID) ∧ Did w.trace 1 (.rotated keyID') ∧ keyID ≠ keyID' ∧
      w.state.keys.activeKeys = [key] ∧ w.state.signer.identity.publicKey.kid = key.id := by
  obtain ⟨w, hw, hover, x, hx, keyID, hfirst, y, hy, keyID', hsecond, hne, hsame⟩ :
      ∃ w ∈ running Server.always (rotates 0 1 4 ++ rotates 1 2 4),
        (∀ a ∈ rotates 0 1 4 ++ rotates 1 2 4, World.over w a.thread = true) ∧
        ∃ x ∈ own 0 w.trace, ∃ keyID ∈ rotatedBy x, ∃ y ∈ own 1 w.trace, ∃ keyID' ∈ rotatedBy y,
          keyID ≠ keyID' ∧ (rotations w.trace).published = (rotations w.trace).rotated := by
    decide +kernel
  have hdid : ∀ {i x keyID}, x ∈ own i w.trace → rotatedBy x = some keyID →
      Did w.trace i (.rotated keyID) := by
    intro i x keyID hx hkey
    obtain ⟨hmem, hthread⟩ := mem_own.mp hx
    exact ⟨x, hmem, hthread, by rw [rotatedBy_eq_some.mp hkey]; exact List.mem_singleton_self _⟩
  have hreachable := reachable_of_running hw
  have hquiet := quiet_of_running hw hover
  obtain ⟨key, hactive, hiff⟩ := signer_follows_iff hreachable hquiet
  exact ⟨w, keyID, keyID', key, hreachable, hquiet, hdid hx hfirst, hdid hy hsecond, hne, hactive,
    hiff.mpr hsame⟩

/-- **The signer is left behind.** A rotation has made its key active; another one does all of its
sections; then the first publishes its key, which is not active any more. -/
theorem signer_left_behind : ∃ (w : World) (key : Key),
    (server .transparent exampleConfig Server.always).Reachable w ∧ ¬RotationInProgress w ∧
      w.state.keys.activeKeys = [key] ∧ w.state.signer.identity.publicKey.kid ≠ key.id := by
  obtain ⟨w, hw, hover, key, -, hactive, hne⟩ :
      ∃ w ∈ running Server.always (rotates 0 1 3 ++ rotates 1 2 4 ++ [.run 0 (seeded 1)]),
        (∀ a ∈ rotates 0 1 3 ++ rotates 1 2 4 ++ [.run 0 (seeded 1)],
          World.over w a.thread = true) ∧
        ∃ key ∈ w.state.keys.activeKeys, w.state.keys.activeKeys = [key] ∧
          w.state.signer.identity.publicKey.kid ≠ key.id := by
    decide +kernel
  exact ⟨w, key, reachable_of_running hw, quiet_of_running hw hover, hactive, hne⟩

end TrustRoot

end Iscp
