import Iscp.Relay.Requests

/-!
# How often a proof is accepted

Without a database a Relay remembers the nonce of a proof until the proof has expired, that is,
until the time it was issued at and the time the request gives it. It forgets the nonce when a
proof is checked later than that; already at that very time it does not heed it.

A proof is accepted once, if it is presented again only before that time, and before any proof
has been checked later than that (`Iscp.Relay.proofs_accepted_once`). What carries this is that
the time in the cache is never earlier than that of an accepted proof (`Iscp.Relay.Kept`).
-/

namespace Iscp

namespace Relay

open Go Crypto Identity Replay Service

/-! ### The record of proofs -/

/-- Two proofs are the same: by the same device, for the same audience, with the same nonce, issued
at the same time, with the same signature. -/
structure SameProof (p q : DeviceProof) : Prop where
  domainID : p.domainID = q.domainID
  deviceID : p.deviceID = q.deviceID
  audience : p.audience = q.audience
  nonce : p.nonce = q.nonce
  issuedAt : p.issuedAt = q.issuedAt
  signature : p.signature = q.signature

variable {p q proof : DeviceProof} {c : Snapshot} {x : Entry Env Event} {ttl : Duration}

theorem SameProof.symm (h : SameProof p q) : SameProof q p :=
  ⟨h.domainID.symm, h.deviceID.symm, h.audience.symm, h.nonce.symm, h.issuedAt.symm,
    h.signature.symm⟩

theorem SameProof.nonceKey_eq (h : SameProof p q) : nonceKey p = nonceKey q := by
  rw [nonceKey, nonceKey, h.domainID, h.deviceID, h.audience, h.nonce]

/-- The proof that was accepted, if it was. -/
def Event.accepted : Event → Option DeviceProof
  | .used proof _ _ true => some proof
  | _ => none

/-- **The proofs that have been accepted**, in this order. -/
def accepted (t : Trace) : List DeviceProof := t.flatMap fun x => x.events.filterMap Event.accepted

theorem accepted_snoc (t : Trace) (x : Entry Env Event) :
    accepted (t ++ [x]) = accepted t ++ x.events.filterMap Event.accepted := by
  simp [accepted]

theorem mem_accepted {t : Trace} :
    p ∈ accepted t ↔ ∃ i ttl now, Did t i (.used p ttl now true) := by
  simp only [accepted, List.mem_flatMap, List.mem_filterMap, Did]
  constructor
  · rintro ⟨x, hx, v, hv, hp⟩
    unfold Event.accepted at hp
    split at hp
    · cases hp
      exact ⟨x.thread, _, _, x, hx, rfl, hv⟩
    · cases hp
  · rintro ⟨i, ttl, now, x, hx, -, hv⟩
    exact ⟨x, hx, _, hv, rfl⟩

/-! ### The cache -/

/-- **A proof is checked again in time**: before the time it has expired, according to the request
that accepted it, and before any proof has been checked later than that. -/
def InTime (c : Snapshot) (x : Entry Env Event) : Prop :=
  ∀ p ttl now isNew, .used p ttl now isNew ∈ x.events →
    ∀ j q ttl' now', Did c.trace j (.used q ttl' now' true) → SameProof p q →
      now.unixNano < (q.issuedAt.add ttl').unixNano ∧
        ∀ k r ttl'' now'' isNew', Did c.trace k (.used r ttl'' now'' isNew') →
          now''.unixNano ≤ (q.issuedAt.add ttl').unixNano

/-- **The nonce of a proof is kept** until its time is past. -/
def Kept (c : Snapshot) (q : DeviceProof) (ttl : Duration) : Prop :=
  (∃ k r ttl' now isNew, Did c.trace k (.used r ttl' now isNew) ∧
    (q.issuedAt.add ttl).unixNano < now.unixNano) ∨
  ∃ exp, c.state.mem.replay (nonceKey q) = some exp ∧ (q.issuedAt.add ttl).unixNano ≤ exp.unixNano

variable {P : Primitives} {J : Unmarshal} {cfg : Config} {C : Snapshot → Entry Env Event → Prop}

/-- **What a section does to the cache**: nothing, or it checks a proof. -/
theorem Effect.replay_cases {req : Request} {s : State} (hrepo : cfg.repo = false)
    (h : Effect P cfg req c x s) :
    (s.mem.replay = c.state.mem.replay ∧ ∀ v ∈ x.events, ¬v.OfProof) ∨
    ∃ id proof audience challenge now ttl isNew, (ttl = minute ∨ ttl = 5 * minute) ∧
      ProofVerified P id proof audience challenge now ttl ∧
      c.state.mem.replay.use (nonceKey proof) (proof.issuedAt.add ttl) now = (s.mem.replay, isNew) ∧
      x.events = [.used proof ttl now isNew] := by
  cases h with
  | nonce httl h =>
    generalize hevents : x.events = events at h
    cases h with
    | use _ hproof huse => exact .inr ⟨_, _, _, _, _, _, _, httl, hproof, huse, rfl⟩
    | delete h | insert h _ _ | refuse h _ _ => cases hrepo.symm.trans h
  | message h =>
    refine .inl ⟨?_, fun v hv hproof => ?_⟩
    · cases h <;> rfl
    · have hmessage := h.sameBooks.2 v hv
      cases v <;> first | exact hmessage | exact hproof
  | mark _ hx =>
    refine .inl ⟨rfl, ?_⟩
    rw [hx, hrepo]
    simp [Event.OfProof]
  | _ => exact .inl ⟨rfl, by simp_all [Event.OfProof]⟩

theorem ProofVerified.le_expires {id : DeviceIdentity} {audience challenge : Str} {now : Time}
    (h : ProofVerified P id proof audience challenge now ttl)
    (httl : ttl = minute ∨ ttl = 5 * minute) :
    now.unixNano ≤ (proof.issuedAt.add ttl).unixNano := by
  have hbounds : -(2 ^ 63) ≤ ttl ∧ ttl < 2 ^ 63 - 1 := by
    rcases httl with rfl | rfl <;> decide
  have hold := mt (Time.lt_sub_iff hbounds.1 hbounds.2).mpr (not_lt.mpr h.notOld)
  exact sub_le_iff_le_add'.mp (not_lt.mp hold)

/-- **What holds of the record and the cache.** -/
structure Once (c : Snapshot) : Prop where
  once : (accepted c.trace).Pairwise fun p q => ¬SameProof p q
  kept : ∀ i q ttl now, Did c.trace i (.used q ttl now true) → Kept c q ttl

theorem Kept.step {ttl' : Duration} (hkept : Kept c q ttl') {s : State} {now : Time} {isNew : Bool}
    (hle : now.unixNano ≤ (proof.issuedAt.add ttl).unixNano)
    (huse : c.state.mem.replay.use (nonceKey proof) (proof.issuedAt.add ttl) now =
      (s.mem.replay, isNew)) (hx : x.events = [.used proof ttl now isNew]) :
    Kept ⟨s, c.trace ++ [x]⟩ q ttl' := by
  rcases hkept with ⟨k, r, ttl'', now', isNew', hdid, hlt⟩ | ⟨exp, hexp, hge⟩
  · exact .inl ⟨k, r, ttl'', now', isNew', did_snoc.mpr (.inl hdid), hlt⟩
  · rcases Cache.use_le hexp hle with hlt | ⟨exp', hexp', hge'⟩
    · exact .inl ⟨x.thread, proof, ttl, now, isNew, did_snoc.mpr (.inr ⟨rfl, by simp [hx]⟩),
        hge.trans_lt hlt⟩
    · rw [huse] at hexp'
      exact .inr ⟨exp', hexp', hge.trans hge'⟩

/-- A section that checks no proof. -/
theorem Once.idle (hc : Once c) {s : State} (hsame : s.mem.replay = c.state.mem.replay)
    (hx : ∀ v ∈ x.events, ¬v.OfProof) : Once ⟨s, c.trace ++ [x]⟩ := by
  have hnone : x.events.filterMap Event.accepted = [] := by
    refine List.filterMap_eq_nil_iff.mpr fun v hv => ?_
    cases v <;> first | rfl | exact absurd trivial (hx _ hv)
  refine ⟨?_, fun i q ttl now h => ?_⟩
  · rw [accepted_snoc, hnone, List.append_nil]
    exact hc.once
  · have hdid := (did_snoc.mp h).resolve_right fun h => hx _ h.2 trivial
    rcases hc.kept i q ttl now hdid with ⟨k, r, ttl', now', isNew, hdid', hlt⟩ | hcache
    · exact .inl ⟨k, r, ttl', now', isNew, did_snoc.mpr (.inl hdid'), hlt⟩
    · exact .inr (hsame ▸ hcache)

/-- A proof that is new to the cache has not been accepted before. -/
theorem Once.not_sameProof (hc : Once c) {cache : Cache} {now : Time}
    (huse : c.state.mem.replay.use (nonceKey proof) (proof.issuedAt.add ttl) now = (cache, true))
    (hx : x.events = [.used proof ttl now true]) (hC : InTime c x) (hq : q ∈ accepted c.trace) :
    ¬SameProof q proof := by
  intro hsame
  obtain ⟨j, ttl', now', hdid⟩ := mem_accepted.mp hq
  obtain ⟨hlt, hclocks⟩ := hC proof ttl now true (by simp [hx]) j q ttl' now' hdid hsame.symm
  rcases hc.kept j q ttl' now' hdid with ⟨k, r, _, now'', _, hdid', hlate⟩ | ⟨exp, hexp, hge⟩
  · exact absurd (hclocks k r _ now'' _ hdid') (not_le.mpr hlate)
  · -- its nonce is still in the cache, so it would have been refused
    rcases c.state.mem.replay.use_cases (nonceKey proof) (proof.issuedAt.add ttl) now with
      ⟨-, huse'⟩ | ⟨hpast, -⟩
    · exact absurd (Prod.mk.inj (huse.symm.trans huse')).2 (by decide)
    · rw [hsame.nonceKey_eq] at hexp
      exact absurd (hpast exp hexp) (not_le.mpr (hlt.trans_le hge))

/-- A proof that is accepted is kept. -/
theorem kept_of_used {s : State} {now : Time}
    (huse : c.state.mem.replay.use (nonceKey proof) (proof.issuedAt.add ttl) now =
      (s.mem.replay, true)) : Kept ⟨s, c.trace ++ [x]⟩ proof ttl := by
  rcases c.state.mem.replay.use_cases (nonceKey proof) (proof.issuedAt.add ttl) now with
    ⟨-, huse'⟩ | ⟨-, huse'⟩
  · exact absurd (Prod.mk.inj (huse.symm.trans huse')).2 (by decide)
  · refine .inr ⟨proof.issuedAt.add ttl, ?_, le_rfl⟩
    rw [(Prod.mk.inj (huse.symm.trans huse')).1]
    exact Map.set_self ..

/-- A section that checks a proof, in time. -/
theorem Once.used (hc : Once c) {s : State} {now : Time} {isNew : Bool}
    (hle : now.unixNano ≤ (proof.issuedAt.add ttl).unixNano)
    (huse : c.state.mem.replay.use (nonceKey proof) (proof.issuedAt.add ttl) now =
      (s.mem.replay, isNew)) (hx : x.events = [.used proof ttl now isNew]) (hC : InTime c x) :
    Once ⟨s, c.trace ++ [x]⟩ := by
  refine ⟨?_, fun i q ttl' now' h => ?_⟩
  · rw [accepted_snoc, hx]
    cases isNew with
    | false =>
      rw [show [Event.used proof ttl now false].filterMap Event.accepted = [] from rfl,
        List.append_nil]
      exact hc.once
    | true =>
      refine List.pairwise_append.mpr ⟨hc.once, List.pairwise_singleton _ _, ?_⟩
      intro q hq p hp
      obtain rfl := List.mem_singleton.mp hp
      exact hc.not_sameProof huse hx hC hq
  · rcases did_snoc.mp h with h | ⟨-, h⟩
    · exact (hc.kept i q ttl' now' h).step hle huse hx
    · rw [hx, List.mem_singleton] at h
      cases h
      exact kept_of_used huse

/-- No proof has been used twice, after any run in time. -/
theorem once_of_reachable (hrepo : cfg.repo = false) (hc : (sections P cfg InTime).Reachable c) :
    Once c := by
  refine hc.invariant ?_ ?_
  · rintro ⟨s, t⟩ ⟨-, rfl⟩
    exact ⟨.nil, fun _ _ _ _ ⟨_, hx, _⟩ => absurd hx List.not_mem_nil⟩
  · rintro c x ⟨s, t⟩ - hc ⟨hC, rfl, req, hE⟩
    rcases hE.replay_cases hrepo with ⟨hsame, hx⟩ |
      ⟨id, proof, audience, challenge, now, ttl, isNew, httl, hproof, huse, hx⟩
    · exact hc.idle hsame hx
    · exact hc.used (ProofVerified.le_expires hproof httl) huse hx hC

/-- **A proof is accepted once**, by all requests together, if it is presented again only in
time. -/
theorem proofs_accepted_once (hrepo : cfg.repo = false) {w : World}
    (hw : (server P J cfg InTime).Reachable w) :
    (accepted w.trace).Pairwise fun p q => ¬SameProof p q :=
  (once_of_reachable hrepo (sound hw).reachable).once

/-! ### A proof that is presented twice -/

/-- A proof is checked when the clock shows zero, and it expires after that. -/
def Event.early : Event → Bool
  | .used p ttl now _ => now.unixNano = 0 ∧ 0 < (p.issuedAt.add ttl).unixNano
  | _ => true

theorem inTime_of_early {t : Trace} (ht : ∀ y ∈ t, ∀ v ∈ y.events, v.early)
    (hx : c.trace ++ [x] <+: t) : InTime c x := by
  have hearly : ∀ {y p ttl now isNew}, y ∈ c.trace ++ [x] → .used p ttl now isNew ∈ y.events →
      now.unixNano = 0 ∧ 0 < (p.issuedAt.add ttl).unixNano := fun hy hv =>
    of_decide_eq_true (ht _ (hx.subset hy) _ hv)
  rintro p ttl now isNew hused j q ttl' now' ⟨y, hy, -, hused'⟩ -
  have hexpires := (hearly (List.mem_append_left _ hy) hused').2
  refine ⟨?_, ?_⟩
  · rw [(hearly (by simp) hused).1]
    exact hexpires
  · rintro k r ttl'' now'' isNew' ⟨z, hz, -, hused''⟩
    rw [(hearly (List.mem_append_left _ hz) hused'').1]
    exact hexpires.le

/-- A proof is accepted, and refused when it is presented again; another proof of the device is
accepted after that. -/
theorem proofs_accepted_once_bound : ∃ w p q ttl now, accepted w.trace = [p, q] ∧
    Did w.trace 1 (.used p ttl now false) ∧
    (server .transparent unreadable (exampleConfig false) InTime).Reachable w ∧
    (accepted w.trace).Pairwise fun p q => ¬SameProof p q := by
  obtain ⟨dev, -, dev', -, w, hw, haccepted, hrefused, hearly⟩ :
      ∃ dev ∈ exampleProof (lit "a") (lit "0") (lit "1") 1,
        ∃ dev' ∈ exampleProof (lit "a") (lit "0") (lit "2") 1,
          ∃ w ∈ reached unreadable (exampleConfig false) emptyDatabase
            (serves 0 (.bindSelf noHeaders ⟨dev.1, dev.2⟩) (drawing 0) 8 ++
              serves 1 (.bindSelf noHeaders ⟨dev.1, dev.2⟩) (drawing 1) 2 ++
              serves 2 (.bindSelf noHeaders ⟨dev'.1, dev'.2⟩) (drawing 2) 8),
            accepted w.trace = [dev.2, dev'.2] ∧
              (∃ y ∈ w.trace, y.thread = 1 ∧
                .used dev.2 (5 * minute) ⟨0, 0⟩ false ∈ y.events) ∧
              ∀ y ∈ w.trace, ∀ v ∈ y.events, v.early := by
    decide +kernel
  have hreachable : (server .transparent unreadable (exampleConfig false) InTime).Reachable w :=
    Server.reachable_of_trace (reachable_of_reached (C := Server.always) (initial_lab rfl _)
      (fun _ _ _ _ _ => trivial) hw) fun c x hx => inTime_of_early hearly hx
  exact ⟨w, _, _, _, _, haccepted, hrefused, hreachable, proofs_accepted_once rfl hreachable⟩

/-- The clock does not go back. -/
def Forward (c : Snapshot) (x : Entry Env Event) : Prop :=
  ∀ y ∈ c.trace, y.env.now.unixNano ≤ x.env.now.unixNano

/-- **A proof is accepted twice**, the second time when it has just expired. -/
theorem proof_accepted_when_expired : ∃ w p,
    (server .transparent unreadable (exampleConfig false) Forward).Reachable w ∧
      accepted w.trace = [p, p] := by
  -- five minutes later the nonce is still there, but is not heeded
  obtain ⟨dev, -, w, hw, haccepted, hforward⟩ :
      ∃ dev ∈ exampleProof (lit "a") (lit "0") (lit "1") 1,
        ∃ w ∈ reached unreadable (exampleConfig false) emptyDatabase
          (serves 0 (.bindSelf noHeaders ⟨dev.1, dev.2⟩) (drawing 0) 8 ++
            serves 1 (.bindSelf noHeaders ⟨dev.1, dev.2⟩)
              { drawing 1 with now := ⟨5 * minute, 0⟩ } 8),
          accepted w.trace = [dev.2, dev.2] ∧
            w.trace.Pairwise fun y x => y.env.now.unixNano ≤ x.env.now.unixNano := by
    decide +kernel
  exact ⟨w, dev.2, Server.reachable_of_trace (reachable_of_reached (C := Server.always)
    (initial_lab rfl _) (fun _ _ _ _ _ => trivial) hw) fun c x hx y hy =>
      rel_of_pairwise hforward hx hy, haccepted⟩

end Relay

end Iscp
