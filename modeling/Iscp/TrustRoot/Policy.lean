import Iscp.TrustRoot.Frames
import Iscp.TrustRoot.Requests

/-!
# Grants and the policy

The policy has a rule for each permission it knows, and the rule bounds how long a grant of the
permission may be good for. `authorizeDevice` asks the policy about **one** permission, the
first of the request, and cuts the time asked for down to the bound of that rule; the grant is
then signed for all permissions of the request. Whatever the number of seconds asked for, and
however its conversion to nanoseconds overflows, the time is positive and within the first rule.

So a grant respects the policy exactly if the request does (`Iscp.TrustRoot.Covered`): all its
permissions have rules, and the bound of the first is no larger than those of the others unless
a shorter time was asked for (`Iscp.TrustRoot.policy_respected_iff`).
-/

namespace Iscp

namespace TrustRoot

open Go Crypto Identity Keyring Service Trust

open Handler (anything safe_mapStop safe_try)

variable {P : Primitives} {cfg : Config} {C : Snapshot → Entry Env Event → Prop}

/-- **A grant respects the policy**: there is a rule for each of its permissions, and from the
time of issue on it is good for some time, and for no longer than any of the rules allows. -/
structure Respects (grant : Grant) (issuedAt : Time) : Prop where
  allowed : ∀ permission ∈ grant.permissions.getD [], ∃ rule, policyRule permission = .ok rule
  positive : 0 < grant.expiresAt.unixNano - issuedAt.unixNano
  bounded : ∀ permission ∈ grant.permissions.getD [], ∀ rule, policyRule permission = .ok rule →
    grant.expiresAt.unixNano - issuedAt.unixNano ≤ rule.maxTTL

/-- The time a request asks for, in nanoseconds as they come out of the multiplication. -/
def AuthorizeRequest.asked (req : AuthorizeRequest) : Duration :=
  (req.ttlSeconds * second).bmod (2 ^ 64)

/-- **A request that stays within the policy**: there is a rule for each permission, and none is
stricter than the first unless the time asked for is within it. -/
def Covered (req : AuthorizeRequest) : Prop :=
  ∀ permission ∈ req.granted, ∃ rule, policyRule permission = .ok rule ∧
    ∀ first, policyRule req.permission = .ok first →
      first.maxTTL ≤ rule.maxTTL ∨ 0 < req.asked ∧ req.asked ≤ rule.maxTTL

/-! ### The time a grant is good for -/

variable {rule : PermissionRule} {req : AuthorizeRequest} {i : ℕ} {grant : Grant}

theorem maxTTL_pos {permission : Str} (h : policyRule permission = .ok rule) : 0 < rule.maxTTL := by
  unfold policyRule at h
  split_ifs at h <;> cases h <;> decide

theorem grantTTL_pos (h : 0 < rule.maxTTL) (ttlSeconds : ℤ) : 0 < grantTTL rule ttlSeconds := by
  simp only [grantTTL]
  split_ifs with hasked
  · exact h
  · exact not_le.mp fun hle => hasked (.inl hle)

theorem grantTTL_le_iff (req : AuthorizeRequest) (first rule : PermissionRule) :
    grantTTL first req.ttlSeconds ≤ rule.maxTTL ↔
      first.maxTTL ≤ rule.maxTTL ∨ 0 < req.asked ∧ req.asked ≤ rule.maxTTL := by
  have hasked : (req.ttlSeconds * second).bmod (2 ^ 64) = req.asked := rfl
  simp only [grantTTL, hasked]
  split_ifs with h
  · refine ⟨.inl, ?_⟩
    rintro (hle | ⟨hpos, hle⟩)
    · exact hle
    · exact (h.resolve_left (not_le.mpr hpos)).le.trans hle
  · obtain ⟨hpos, hmax⟩ := not_or.mp h
    rw [not_le] at hpos
    rw [not_lt] at hmax
    refine ⟨fun hle => .inr ⟨hpos, hle⟩, ?_⟩
    rintro (hle | ⟨-, hle⟩)
    · exact hmax.trans hle
    · exact hle

/-! ### What a request signs -/

/-- **What is known of a grant when it is signed**: the rule of the first permission was found,
and the clock was read. -/
def Signs (req : AuthorizeRequest) (i : ℕ) (t : Trace) (grant : Grant) : Prop :=
  ∃ rule, policyRule req.permission = .ok rule ∧ ∃ x ∈ t, x.thread = i ∧
    grant.permissions = some req.granted ∧
    grant.notBefore = x.env.now.utc.add (-second) ∧
    grant.expiresAt = x.env.now.utc.add (grantTTL rule req.ttlSeconds)

theorem Signs.extend {t t' : Trace} (h : Signs req i t grant) (ht : t <+: t') :
    Signs req i t' grant := by
  obtain ⟨rule, hrule, x, hx, h⟩ := h
  exact ⟨rule, hrule, x, ht.subset hx, h⟩

/-- The event of a grant being signed, or entered on the books. -/
def Grants (grant : Grant) (v : Event) : Prop := v = .signed grant ∨ v = .issued grant

/-- What the sections of a request do, as far as grants are concerned. -/
def GrantEffect : Request → Snapshot → Entry Env Event → State → Prop
  | .authorizeDevice _ req, c, x, _ =>
    ∀ grant, ∀ v ∈ x.events, Grants grant v → Signs req x.thread c.trace grant
  | _, _, _, _ => True

section Safe

variable {i : ℕ} {t : Trace} {ω α : Type}

theorem grantEffect_idle {h : Headers} (s : State) (t : Trace) (e : Env) :
    GrantEffect (.authorizeDevice h req) ⟨s, t⟩ ⟨i, e, []⟩ s :=
  fun _ => List.forall_mem_nil _

theorem safe_of_frames {h : Headers} {p : Run ω α}
    (hp : p.Frames (fun _ => ()) fun v => ∀ grant, ¬Grants grant v) {Q : α → Trace → Prop}
    (hQ : ∀ a t', t <+: t' → Q a t') :
    p.Safe (GrantEffect (.authorizeDevice h req)) i Q anything t :=
  hp.safe (fun _ _ _ _ _ _ hN grant v hv hgrants => absurd hgrants (hN v hv grant)) hQ
    fun _ _ _ => trivial

/-- **The handler**: what it signs is what the request and the clock make it. -/
theorem authorizeDevice_grants (h : Headers) (req : AuthorizeRequest) :
    (authorizeDevice P cfg h req).Safe (GrantEffect (.authorizeDevice h req)) i anything anything
      t := by
  rw [authorizeDevice]
  refine .bind (safe_of_frames (Handler.frames_stopIf _ _) fun _ t₁ _ => ?_)
  refine .bind (safe_of_frames (checkDevice_frames (fun _ _ => rfl) (fun _ _ _ h => ?_) _)
    fun record t₂ _ => ?_)
  · rcases h with h | h <;> cases h
  refine .bind (safe_of_frames (authorizedRecord_frames (fun _ _ _ _ _ => rfl) _ _).mapStop
    fun record t₃ _ => ?_)
  refine .bind (safe_mapStop (fun _ _ => trivial) (safe_try fun rule t₄ hrule _ => ?_))
  refine .bind (Handler.safe_look fun s t₅ e _ _ => ⟨grantEffect_idle s t₅ e, fun t₆ ht₆ => ?_⟩)
  refine .bind (safe_of_frames (activeSigner_frames fun _ _ h => ?_).mapStop
    fun signer t₇ ht₇ => ?_)
  · rcases h with h | h <;> cases h
  refine .bind (safe_mapStop (fun _ _ => trivial) (safe_try fun grant t₈ hsign ht₈ => ?_))
  obtain ⟨-, hgrant⟩ := signed_of_signGrant hsign
  have hsigns : Signs req i t₈ grant := by
    refine ⟨rule, hrule, ⟨i, e, []⟩, (ht₆.trans (ht₇.trans ht₈)).subset (by simp), rfl, ?_, ?_, ?_⟩
    · exact (congrArg Grant.permissions hgrant :)
    · exact (congrArg Grant.notBefore hgrant :)
    · exact (congrArg Grant.expiresAt hgrant :)
  -- the grant that is signed is the one that is entered
  have heffect : ∀ v, v = .signed grant ∨ v = .issued grant → ∀ s s' t' e, t₈ <+: t' →
      GrantEffect (.authorizeDevice h req) ⟨s, t'⟩ ⟨i, e, [v]⟩ s' := by
    rintro v hv s s' t' e ht' grant' _ (_ | ⟨_, ⟨⟩⟩) hgrants
    have hsame : grant' = grant := by
      rcases hv with rfl | rfl
      · rcases hgrants with h | h <;> cases h
        rfl
      · rcases hgrants with h | h <;> cases h
        rfl
    subst hsame
    exact hsigns.extend ht'
  refine .bind (Handler.safe_note fun s t₉ e ht₉ => ⟨heffect _ (.inl rfl) _ _ _ _ ht₉,
    fun t₁₀ ht₁₀ => ?_⟩)
  refine .bind (safe_of_frames (persistGrant_frames (fun _ _ _ => rfl) _).mapStop
    fun _ t₁₁ ht₁₁ => ?_)
  refine Handler.safe_attempt (fun s t₁₂ e s' r events ht₁₂ _ h => ?_)
    fun _ _ _ _ _ _ h => by cases h
  cases h
  exact ⟨heffect _ (.inr rfl) _ _ _ _ (ht₉.trans ((List.prefix_append _ _).trans
    (ht₁₀.trans (ht₁₁.trans ht₁₂)))), fun _ _ => trivial⟩

theorem handle_grants (req : Request) :
    (handle P cfg req).Safe (GrantEffect req) i anything anything t := by
  cases req with
  | authorizeDevice h req => exact authorizeDevice_grants h req
  | _ => exact Handler.safe_anything (fun _ _ _ => trivial) _

end Safe

/-- **What a request has signed**, in every run. -/
theorem signs_of_did {w : World} (hw : (server P cfg C).Reachable w) {h : Headers}
    {p : Run Answer Answer} (hreq : w.threads i = some (.authorizeDevice h req, p)) {v : Event}
    (hv : Grants grant v) (hdid : Did w.trace i v) : Signs req i w.trace grant := by
  obtain ⟨x, hx, rfl, hmem⟩ := hdid
  obtain ⟨t₁, t₂, htrace⟩ := List.append_of_mem hx
  obtain ⟨w₁, w₂, req', p', -, rfl, -, heffect, -, -, -, hthread⟩ :=
    (Server.hasEffects_of_safe (E := GrantEffect) (Q := fun _ _ => anything)
      fun _ req _ _ => handle_grants req).of_split hw htrace
  obtain ⟨rfl, -⟩ := Prod.mk.inj (Option.some.inj (hreq.symm.trans hthread))
  have hsigns : Signs req x.thread w₁.trace grant := heffect grant v hmem hv
  exact hsigns.extend ⟨x :: t₂, htrace.symm⟩

/-! ### Which grants respect the policy -/

/-- **Which grants respect the policy.** In every run of a Trust Root, with a database or
without one, a grant that an authorization request signs or enters respects the policy, at the
time the request read the clock, exactly if the request stays within it. -/
theorem policy_respected_iff {w : World} (hw : (server P cfg C).Reachable w) {i : ℕ} {h : Headers}
    {req : AuthorizeRequest} {p : Run Answer Answer}
    (hreq : w.threads i = some (.authorizeDevice h req, p)) {grant : Grant}
    (hgrant : Did w.trace i (.signed grant) ∨ Did w.trace i (.issued grant)) :
    ∃ x ∈ w.trace, x.thread = i ∧ grant.notBefore = x.env.now.utc.add (-second) ∧
      (Respects grant x.env.now.utc ↔ Covered req) := by
  have hsigns : Signs req i w.trace grant := by
    rcases hgrant with hdid | hdid
    · exact signs_of_did hw hreq (.inl rfl) hdid
    · exact signs_of_did hw hreq (.inr rfl) hdid
  obtain ⟨first, hfirst, x, hx, hi, hpermissions, hbefore, hexpires⟩ := hsigns
  refine ⟨x, hx, hi, hbefore, ?_⟩
  have hdiff : grant.expiresAt.unixNano - x.env.now.utc.unixNano =
      grantTTL first req.ttlSeconds := by
    rw [hexpires, Time.add]
    exact add_sub_cancel_left _ _
  constructor
  · intro hrespects permission hmem
    have hgranted : permission ∈ grant.permissions.getD [] := by rwa [hpermissions]
    obtain ⟨rule, hrule⟩ := hrespects.allowed permission hgranted
    refine ⟨rule, hrule, fun first' hfirst' => ?_⟩
    obtain rfl := Except.ok.inj (hfirst.symm.trans hfirst')
    rw [← grantTTL_le_iff, ← hdiff]
    exact hrespects.bounded permission hgranted rule hrule
  · intro hcovered
    refine ⟨fun permission hmem => ?_, ?_, fun permission hmem rule hrule => ?_⟩
    · rw [hpermissions] at hmem
      obtain ⟨rule, hrule, -⟩ := hcovered permission hmem
      exact ⟨rule, hrule⟩
    · rw [hdiff]
      exact grantTTL_pos (maxTTL_pos hfirst) _
    · rw [hpermissions] at hmem
      obtain ⟨rule', hrule', hbound⟩ := hcovered permission hmem
      obtain rfl := Except.ok.inj (hrule.symm.trans hrule')
      rw [hdiff, grantTTL_le_iff]
      exact hbound first hfirst

/-- The request whose handler is left to run. -/
def World.request (w : World) (i : ℕ) : Option AuthorizeRequest :=
  match w.threads i with
  | some (.authorizeDevice _ req, _) => some req
  | _ => none

theorem World.exists_of_request {w : World} (h : World.request w i = some req) :
    ∃ headers p, w.threads i = some (.authorizeDevice headers req, p) := by
  unfold World.request at h
  split at h
  · next hthread =>
    cases h
    exact ⟨_, _, hthread⟩
  · cases h

set_option synthInstance.maxSize 512 in
/-- A device is authorized for audio and texts; the grant is good for five minutes, which is as long
as audio may be granted, and respects the policy. -/
theorem policy_respected_text : ∃ w grant, (server .transparent exampleConfig
      Server.always).Reachable w ∧ Did w.trace 1 (.issued grant) ∧
    grant.permissions = some [lit "audio.frame", lit "text"] ∧ grant.expiresAt = ⟨5 * minute, 0⟩ ∧
    ∃ x ∈ w.trace, Respects grant x.env.now.utc := by
  obtain ⟨w, hw, hrequest, x, hx, hthread, v, hv, grant, hgrant, hpermissions, hexpires⟩ :
      ∃ w ∈ authorizing Server.always [lit "audio.frame", lit "text"] [],
        World.request w 1 = some (exampleRequest (lit "a") [lit "audio.frame", lit "text"]) ∧
        ∃ x ∈ w.trace, x.thread = 1 ∧ ∃ v ∈ x.events, ∃ grant ∈ v.entered,
          grant.permissions = some [lit "audio.frame", lit "text"] ∧
            grant.expiresAt = ⟨5 * minute, 0⟩ := by
    decide +kernel
  obtain rfl := Event.eq_of_entered hgrant
  obtain ⟨headers, p, hreq⟩ := World.exists_of_request hrequest
  obtain ⟨y, hy, -, -, hiff⟩ := policy_respected_iff (reachable_of_authorizing hw) hreq
    (.inr ⟨x, hx, hthread, hv⟩)
  refine ⟨w, grant, reachable_of_authorizing hw, ⟨x, hx, hthread, hv⟩, hpermissions, hexpires, y,
    hy, hiff.mpr ?_⟩
  rintro _ (_ | ⟨_, _ | ⟨_, ⟨⟩⟩⟩)
  · refine ⟨⟨5 * minute⟩, rfl, fun first hfirst => .inl ?_⟩
    cases hfirst
    exact le_rfl
  · refine ⟨⟨hour⟩, rfl, fun first hfirst => .inl ?_⟩
    cases hfirst
    decide

set_option synthInstance.maxSize 512 in
/-- **Only the first permission is looked at**: asked for texts, audio and whatever else, the
server signs a grant that is good for an hour, for a permission that has no rule among them. -/
theorem policy_first_only : ∃ w grant, (server .transparent exampleConfig
      Server.always).Reachable w ∧ Did w.trace 1 (.issued grant) ∧
    grant.permissions = some [lit "text", lit "audio.frame", lit "admin"] ∧
    (∀ rule, policyRule (lit "admin") ≠ .ok rule) ∧
    policyRule (lit "audio.frame") = .ok ⟨5 * minute⟩ ∧
    (∀ x ∈ w.trace, x.env.now.utc = ⟨0, 0⟩) ∧ grant.expiresAt = ⟨hour, 0⟩ := by
  obtain ⟨w, hw, hnow, x, hx, hthread, v, hv, grant, hgrant, hpermissions, hexpires⟩ :
      ∃ w ∈ authorizing Server.always [lit "text", lit "audio.frame", lit "admin"] [],
        (∀ x ∈ w.trace, x.env.now.utc = ⟨0, 0⟩) ∧
        ∃ x ∈ w.trace, x.thread = 1 ∧ ∃ v ∈ x.events, ∃ grant ∈ v.entered,
          grant.permissions = some [lit "text", lit "audio.frame", lit "admin"] ∧
            grant.expiresAt = ⟨hour, 0⟩ := by
    decide +kernel
  obtain rfl := Event.eq_of_entered hgrant
  exact ⟨w, grant, reachable_of_authorizing hw, ⟨x, hx, hthread, hv⟩, hpermissions, nofun, rfl,
    hnow, hexpires⟩

end TrustRoot

end Iscp
