import Iscp.Relay.Routing

/-!
# Who is admitted in production

A Relay in production gives credentials to devices that an operator has bound, and to devices that
register with a ticket its issuer has signed; and to whoever exchanges a refresh token for a new
pair. Every credential therefore traces back, exchange by exchange, to a request of one of the two
kinds (`Iscp.Relay.TracesBack`), and every envelope in the queue was submitted with a proof of the
key that is kept for its sender (`Iscp.Relay.production_admission`).

The checks are made by the two handlers that bind identities (`Iscp.Relay.AdmissionEffect`). The
exchanges are followed back along the record: the refresh token a request has found was issued
before, so the induction is on the length of the record.
-/

namespace Iscp

namespace Relay

open Go Crypto Identity Replay Service Provisioning

open Handler (anything safe_mapStop safe_try)

/-! ### The two ways to be admitted -/

/-- The token a request carries for an operator. -/
def operatorToken (h : Headers) : Str :=
  if bearerToken h = [] then trimSpace h.adminToken else bearerToken h

theorem operatorToken_of_adminAuthorized {adminToken : Str} {h : Headers}
    (hne : trimSpace adminToken ≠ []) (hauth : adminAuthorized adminToken h = true) :
    operatorToken h = trimSpace adminToken := by
  rw [adminAuthorized] at hauth
  dsimp only at hauth
  rw [if_neg hne] at hauth
  exact (of_decide_eq_true hauth).2

variable (P : Primitives) (J : Unmarshal) (cfg : Config)

/-- **A registration with a ticket that is in order**: the ticket verifies under the configured
issuer by the clock of the request, it names this domain and this Relay, the proof is for the id of
the ticket, and the consumer is not the audience of the grant. -/
structure TicketInOrder (r : RegisterTicketRequest) (ticket : PairingTicketV3) (i : ℕ) (t : Trace) :
    Prop where
  given : r.ticket = some ticket
  verified : ∃ issuer now, cfg.ticketIssuer = some issuer ∧
    (∃ y ∈ t, y.thread = i ∧ now = y.env.now.utc) ∧ verifyTicketV3 P ticket issuer now = .ok ()
  domain : ticket.domainID = cfg.domainID
  relay : ticket.relayID = cfg.relayID
  challenge : r.proof.challenge = ticket.ticketID
  proven : ∃ now, ProofVerified P r.identity r.proof cfg.relayID ticket.ticketID now (5 * minute)
  audience : r.identity.deviceID ≠ ticket.grantAudience

/-- **The requests that are entitled to bind an identity** in production. -/
def Entitled (id : DeviceIdentity) (i : ℕ) (t : Trace) : Request → Prop
  | .bindSelf h r => r.identity = id ∧ trimSpace cfg.adminToken ≠ [] ∧
    operatorToken h = trimSpace cfg.adminToken
  | .registerWithTicket r => r.identity = id ∧ ∃ ticket, TicketInOrder P cfg r ticket i t
  | _ => False

/-- What has been checked when an identity is admitted. -/
def AdmissionEffect : Request → Snapshot → Entry Env Event → State → Prop
  | .bindSelf h _, _, x, _ => (∃ id, .admitted id ∈ x.events) →
    adminAuthorized cfg.adminToken h = true
  | .registerWithTicket r, c, x, _ => (∃ id, .admitted id ∈ x.events) →
    ∃ ticket, TicketInOrder P cfg r ticket x.thread c.trace
  | _, _, _, _ => True

variable {req : Request} {x : Entry Env Event} {c : Snapshot}

section Safe

variable {P J cfg} {i : ℕ} {t : Trace}

variable {ticket : PairingTicketV3}

theorem TicketInOrder.extend {r : RegisterTicketRequest} {t' : Trace}
    (h : TicketInOrder P cfg r ticket i t) (ht : t <+: t') : TicketInOrder P cfg r ticket i t' := by
  obtain ⟨issuer, now, hissuer, ⟨y, hy, hclock⟩, hverified⟩ := h.verified
  exact { h with verified := ⟨issuer, now, hissuer, ⟨y, ht.subset hy, hclock⟩, hverified⟩ }

theorem admissionEffect_of_not_admitted {s : State} (hx : ∀ id, .admitted id ∉ x.events) :
    AdmissionEffect P cfg req c x s := by
  cases req with
  | bindSelf h r => exact fun ⟨id, hid⟩ => absurd hid (hx id)
  | registerWithTicket r => exact fun ⟨id, hid⟩ => absurd hid (hx id)
  | _ => trivial

theorem admissionEffect_idle (s : State) (t : Trace) (e : Env) :
    AdmissionEffect P cfg req ⟨s, t⟩ ⟨i, e, []⟩ s :=
  admissionEffect_of_not_admitted fun _ => List.not_mem_nil

theorem bindSelf_admits (hprod : cfg.profileGate.profile = .production) (h : Headers)
    (r : BindSelfRequest) : (bindSelf P cfg h r).Safe (AdmissionEffect P cfg (.bindSelf h r)) i
      anything anything t := by
  refine .bind (Handler.safe_stopIf (fun _ _ _ => trivial) fun hauth t₁ _ => ?_)
  refine Handler.safe_anything (fun _ _ _ _ => ?_) _
  simpa [hprod] using hauth

/-- A registration by a signed ticket binds a device only after its checks. -/
theorem registerWithSignedTicket_admits (r : RegisterTicketRequest)
    (hgiven : r.ticket = some ticket) :
    (registerWithSignedTicket P cfg r ticket).Safe
      (AdmissionEffect P cfg (.registerWithTicket r)) i anything anything t := by
  rw [registerWithSignedTicket]
  split
  · exact Handler.safe_stop fun _ _ => trivial
  next issuer hissuer =>
  refine .bind (Handler.safe_look fun s t₁ e _ _ => ⟨admissionEffect_idle s t₁ e, fun t₂ ht₂ => ?_⟩)
  have hclock : ∃ y ∈ t₂, y.thread = i ∧ e.now.utc = y.env.now.utc :=
    ⟨⟨i, e, []⟩, ht₂.subset (List.mem_append_right _ (List.mem_singleton_self _)), rfl, rfl⟩
  refine .bind (safe_mapStop (fun _ _ => trivial) (safe_try fun _ t₃ hverified ht₃ => ?_))
  refine .bind (Handler.safe_stopIf (fun _ _ _ => trivial) fun hbound t₄ ht₄ => ?_)
  refine .bind (Handler.safe_stopIf (fun _ _ _ => trivial) fun hchallenge t₅ ht₅ => ?_)
  rw [not_or, not_not, not_not] at hbound
  rw [not_not] at hchallenge
  refine .bind (safe_mapStop (fun _ _ => trivial) (Service.verifyProof_safe admissionEffect_idle
    (fun s t' e events s' hnonce => ?_) (fun now t₆ ht₆ hproof _ => ?_) fun _ _ _ => trivial))
  · refine admissionEffect_of_not_admitted fun id hid => ?_
    exact (nonce_sameBooks (c := ⟨s, t'⟩) (x := ⟨i, e, events⟩) hnonce).2 _ hid
  refine .bind (safe_mapStop (fun _ _ => trivial) (safe_try fun bindings t₇ hroles ht₇ => ?_))
  simp only [bindGrantRoles, bind_eq_ok_iff, failIf_eq_ok_iff, exists_const] at hroles
  have hinOrder : TicketInOrder P cfg r ticket i t₂ :=
    ⟨hgiven, ⟨issuer, _, hissuer, hclock, hverified⟩, hbound.1, hbound.2, hchallenge, ⟨now, hproof⟩,
      hroles.2.1⟩
  have ht := ht₃.trans (ht₄.trans (ht₅.trans (ht₆.trans ht₇)))
  refine Handler.safe_after fun c x s hc hx _ => ⟨ticket, ?_⟩
  rw [hx]
  exact hinOrder.extend (ht.trans hc)

/-- **The handlers make the checks.** -/
theorem handle_admits (hprod : cfg.profileGate.profile = .production) (req : Request) :
    (handle P J cfg req).Safe (AdmissionEffect P cfg req) i anything anything t := by
  cases req with
  | bindSelf h r => exact bindSelf_admits hprod h r
  | registerWithTicket r =>
    rw [handle, registerWithTicket]
    split
    · next ticket hticket => exact registerWithSignedTicket_admits r hticket
    · exact .bind (Handler.safe_stopIf (fun _ _ _ => trivial) fun hnot _ _ => absurd hprod hnot)
  | _ => exact Handler.safe_anything (fun _ _ _ => trivial) _

end Safe

/-! ### Tracing back -/

/-- **Credentials trace back** to a request that was entitled to bind an identity: request `i` of
the world was one, or it has exchanged a refresh token that had been issued for an origin which
traces back. -/
inductive TracesBack (w : World) : ℕ → Origin → Prop where
  | bound {i : ℕ} {id : DeviceIdentity} {req : Request} {p : Run Answer Answer}
      (hthread : w.threads i = some (req, p)) (hentitled : Entitled P cfg id i w.trace req) :
      TracesBack w i (.bound id)
  | refreshed {i j : ℕ} {token : Str} {p : Run Answer Answer} {origin : Origin}
      {access cred : Credential} (hthread : w.threads i = some (.refreshAccess token, p))
      (hspent : Did w.trace i (.spent (P.sha256 token)))
      (hissued : Did w.trace j (.issued origin access cred)) (hback : TracesBack w j origin) :
      TracesBack w i (.refreshed (P.sha256 token) cred)

/-- **An envelope was submitted with a proof**: the request whose body it is had found the identity
of the sender in memory, when it was not revoked, and had verified a proof with the key of this
identity, made for this method, this path and the access token of the request, and used for the
first time. -/
def SubmittedWithProof (C : Snapshot → Entry Env Event → Prop) (w : World) (msg : Queue.Message) :
    Prop :=
  ∃ (x : Entry Env Event) (t : Trace) (h : Headers) (p : Run Answer Answer) (w' : World)
    (y : Entry Env Event) (id : DeviceIdentity) (proof : DeviceProof) (now : Time),
    t ++ [x] <+: w.trace ∧ w.threads x.thread = some (.envelopes h (.ok msg.envelope), p) ∧
    (∃ queued now, .queued queued ∈ x.events ∧ msg = queued.stamp now) ∧
    (server P J cfg C).Reachable w' ∧ w'.trace ++ [y] <+: t ∧ y.thread = x.thread ∧
    .looked msg.senderDeviceID id ∈ y.events ∧
    w'.state.mem.devices msg.senderDeviceID = some id ∧
    w'.state.mem.revoked msg.senderDeviceID = none ∧ id.domainID = msg.domainID ∧
    Did t x.thread (.used proof minute now true) ∧
    ProofVerified P id proof cfg.relayID (accessProofChallenge (lit "POST")
      (lit "/v2/relay/envelopes") (P.sha256 (bearerToken h))) now minute

section Main

variable {P J cfg} {C : Snapshot → Entry Env Event → Prop} {w : World} {t : Trace} {i : ℕ}

theorem Effect.refreshes_of_found {s : State} (h : Effect P cfg req c x s) {hash : Bytes}
    {cred : Credential} (hv : .found hash cred ∈ x.events) : req.Refreshes P hash := by
  cases h with
  | nonce _ h => exact ((nonce_sameBooks h).2 _ hv).elim
  | message h => exact (h.sameBooks.2 _ hv).elim
  | find hreq _ _ hx =>
    cases eq_of_mem_events hx hv
    exact hreq
  | findRow _ hreq _ hx =>
    cases eq_of_mem_events hx hv
    exact hreq
  | mark _ hx =>
    rw [hx] at hv
    split_ifs at hv <;> simp at hv
  | _ => simp_all

theorem adminToken_of_reachable (hprod : cfg.profileGate.profile = .production)
    (hw : (server P J cfg C).Reachable w) : trimSpace cfg.adminToken ≠ [] := by
  refine mail_hasEffects.invariant (I := fun _ => trimSpace cfg.adminToken ≠ []) (fun s hs => ?_)
    (fun _ _ _ _ h _ _ => h) hw
  obtain ⟨db, e, hnew⟩ := hs
  simp only [new, hprod, bind_eq_ok_iff, failIf_eq_ok_iff, exists_const] at hnew
  obtain ⟨_, -, _, -, hadmin, -⟩ := hnew
  simpa [hprod] using hadmin

/-- **Who is admitted was entitled to be.** -/
theorem entitled_of_did (hprod : cfg.profileGate.profile = .production)
    (hw : (server P J cfg C).Reachable w) (ht : t <+: w.trace) {id : DeviceIdentity}
    (hdid : Did t i (.admitted id)) :
    ∃ req p, w.threads i = some (req, p) ∧ Entitled P cfg id i w.trace req := by
  obtain ⟨t₁, x, t₂, hsplit, hpre, rfl, hv⟩ := exists_split_of_did hdid ht
  obtain ⟨w₁, w₂, req, p, hw₁, rfl, -, ⟨heffect, hadmits⟩, -, -, -, hthread⟩ :=
    (effect_hasEffects.and (Server.hasEffects_of_safe (Q := fun _ _ => anything)
      fun _ req _ _ => handle_admits hprod req)).of_split hw hsplit
  refine ⟨req, p, hthread, ?_⟩
  obtain ⟨hbinds, -⟩ := heffect.says_of_mem hv
  cases req with
  | bindSelf h r =>
    have hadmin := adminToken_of_reachable hprod hw
    exact ⟨hbinds, hadmin, operatorToken_of_adminAuthorized hadmin (hadmits ⟨id, hv⟩)⟩
  | registerWithTicket r =>
    obtain ⟨ticket, hticket⟩ := hadmits ⟨id, hv⟩
    exact ⟨hbinds, ticket, hticket.extend ⟨_, hsplit.symm⟩⟩
  | _ => exact hbinds.elim

/-- **What is issued traces back.** By induction on the length of the record before: a refresh token
that is exchanged was issued earlier. -/
theorem tracesBack_of_issued (hprod : cfg.profileGate.profile = .production)
    (hrepo : cfg.repo = false) (hw : (server P J cfg C).Reachable w) {origin : Origin}
    {access refresh : Credential} (ht : t <+: w.trace)
    (hdid : Did t i (.issued origin access refresh)) : TracesBack P cfg w i origin := by
  induction hn : t.length using Nat.strong_induction_on generalizing t i origin access refresh with
  | _ n ih =>
    obtain ⟨t₁, x, t₂, hsplit, hpre, rfl, hv⟩ := exists_split_of_did hdid ht
    have ht₁ : t₁ <+: w.trace := ⟨_, hsplit.symm⟩
    obtain ⟨w₁, w₂, req, p, hw₁, rfl, -, heffect, -⟩ := effect_hasEffects.of_split hw hsplit
    obtain ⟨-, horigin, -⟩ := heffect.says_of_mem hv
    cases origin with
    | bound id =>
      obtain ⟨req', p', hthread, hentitled⟩ := entitled_of_did hprod hw ht₁ horigin
      exact .bound hthread hentitled
    | refreshed hash cred =>
      obtain ⟨hfound, hspent⟩ := horigin
      obtain ⟨t₃, y, t₄, hsplit', hpre', hy, hv'⟩ := exists_split_of_did hfound ht₁
      obtain ⟨w₃, w₄, req', p', hw₃, rfl, -, heffect', -, -, -, hthread⟩ :=
        effect_hasEffects.of_split hw hsplit'
      have hrefreshes := heffect'.refreshes_of_found hv'
      rw [hy] at hthread
      cases req' with
      | refreshAccess token =>
        obtain rfl : P.sha256 token = hash := hrefreshes
        -- what was found is in memory, not revoked, so it is one that was issued
        obtain ⟨-, ⟨hmem, hgood⟩ | ⟨hrepo', -⟩⟩ := heffect'.says_of_mem hv'
        · obtain ⟨cred₀, ⟨j, origin', access', hissued⟩, rfl | rfl⟩ :=
            (fromIssued_of_reachable hw₃).refresh _ _ hmem
          · have ht₃ : w₃.trace <+: w.trace := ⟨_, hsplit'.symm⟩
            have hlt : w₃.trace.length < n := by
              have h₁ := hpre.length_le
              have h₂ : _ ≤ w₁.trace.length := hpre'.length_le
              rw [List.length_append, List.length_singleton] at h₁ h₂
              omega
            exact .refreshed hthread (hspent.extend ht₁) (hissued.extend ht₃)
              (ih _ hlt ht₃ hissued rfl)
          · cases hgood
        · cases hrepo.symm.trans hrepo'
      | _ => exact hrefreshes.elim

theorem submittedWithProof_of_fromEnvelope (hprod : cfg.profileGate.profile = .production)
    (hrepo : cfg.repo = false) (hw : (server P J cfg C).Reachable w) {msg : Queue.Message}
    (h : FromEnvelope J w.trace msg) : SubmittedWithProof P J cfg C w msg := by
  obtain ⟨t₁, x, m, raw, now, hpre, hv, hread, rfl⟩ := h
  obtain ⟨t₂, ht₂⟩ := hpre
  obtain ⟨w₁, w₂, req, p, hw₁, rfl, -, heffect, -, -, -, hthread⟩ :=
    mail_hasEffects.of_split hw (show w.trace = t₁ ++ x :: t₂ by rw [← ht₂]; simp)
  obtain ⟨-, h, m', raw', now', rfl, hsubmission, hmessage, -⟩ := heffect.tells_of_mem hv
  obtain rfl : raw = raw' := congrArg Queue.Message.envelope hmessage
  cases hread.symm.trans hsubmission.read
  obtain ⟨cred, now₁, -, hdomain, hsender, hproven⟩ := hsubmission.recognized
  obtain ⟨id, proof, now₂, hlooked, hid, hused, hverified⟩ := hproven hrepo hprod
  -- the identity was looked up in memory
  obtain ⟨t₃, y, t₄, hsplit', hpre', hy, hv'⟩ :=
    exists_split_of_did (did_own.mp hlooked) ((List.prefix_append _ [x]).trans ⟨t₂, ht₂⟩)
  obtain ⟨w₃, w₄, req', p', hw₃, rfl, -, heffect', -⟩ := effect_hasEffects.of_split hw hsplit'
  obtain ⟨-, ⟨hdevice, hrevoked⟩ | ⟨hrepo', -⟩⟩ := heffect'.says_of_mem hv'
  · rw [EnvelopeMeta.stamp_message]
    rw [hsender] at hdevice hrevoked hv'
    exact ⟨x, w₁.trace, h, p, w₃, y, id, proof, now₂, ⟨t₂, ht₂⟩, hthread,
      ⟨_, now, hv, (EnvelopeMeta.stamp_message ..).symm⟩, hw₃, hpre', hy, hv', hdevice, hrevoked,
      hid.trans hdomain, did_own.mp hused, hverified⟩
  · cases hrepo.symm.trans hrepo'

/-- **Admission in production.** Without a database every credential in memory, revoked or not, was
issued for an origin that traces back through exchanges of refresh tokens to a request of an
operator or to a registration with a ticket that is in order, and every envelope in the queue was
submitted with a proof under the key kept for its sender. -/
theorem production_admission (hprod : cfg.profileGate.profile = .production)
    (hrepo : cfg.repo = false) (hw : (server P J cfg C).Reachable w) :
    (∀ hash cred, w.state.mem.access hash = some cred → ∃ i origin access refresh,
      Did w.trace i (.issued origin access refresh) ∧
      (cred = access ∨ cred = { access with revoked := true }) ∧ TracesBack P cfg w i origin) ∧
    (∀ hash cred, w.state.mem.refresh hash = some cred → ∃ i origin access refresh,
      Did w.trace i (.issued origin access refresh) ∧
      (cred = refresh ∨ cred = { refresh with revoked := true }) ∧ TracesBack P cfg w i origin) ∧
    ∀ msg ∈ w.state.mem.queue.messages, SubmittedWithProof P J cfg C w msg := by
  have hissued := fromIssued_of_reachable hw
  refine ⟨fun hash cred hcred => ?_, fun hash cred hcred => ?_, fun msg hmsg => ?_⟩
  · obtain ⟨access, ⟨i, origin, refresh, hdid⟩, hsame⟩ := hissued.access hash cred hcred
    exact ⟨i, origin, access, refresh, hdid, hsame,
      tracesBack_of_issued hprod hrepo hw (List.prefix_refl _) hdid⟩
  · obtain ⟨refresh, ⟨i, origin, access, hdid⟩, hsame⟩ := hissued.refresh hash cred hcred
    exact ⟨i, origin, access, refresh, hdid, hsame,
      tracesBack_of_issued hprod hrepo hw (List.prefix_refl _) hdid⟩
  · exact submittedWithProof_of_fromEnvelope hprod hrepo hw
      ((routed_of_reachable hrepo hw).queue msg hmsg)

/-- A Relay in production, which asks operators for a token. -/
def productionConfig : Config :=
  ⟨lit "lab", lit "relay", defaultGate .production, lit "secret", [lit "origin"], none, false⟩

theorem initial_production : Initial .transparent productionConfig ⟨Memory.new, emptyDatabase⟩ :=
  ⟨emptyDatabase, { exampleEnv ⟨0, 0⟩ with seed := some (bytesOf 0) }, rfl⟩

/-- Every envelope is one from a device to itself, and every proof is this one. -/
def readsProof (proof : DeviceProof) : Unmarshal := ⟨fun _ => some proof, fun _ => .ok ownEnvelope⟩

/-- An operator binds a device, which exchanges its refresh token and then sends an envelope to
itself. -/
def admitting (dev dev' : DeviceIdentity × DeviceProof) : Option World :=
  reached (readsProof dev'.2) productionConfig emptyDatabase
    (serves 1 (.bindSelf ⟨[], lit "secret", []⟩ ⟨dev.1, dev.2⟩) (drawing 1) 8 ++
      serves 2 (.refreshAccess (tokenOf (drawing 1))) (drawing 2) 7 ++
      serves 3 (.envelopes { bearing (drawing 2) with accessProof := lit "AA" } (.ok (lit "0")))
        (drawing 3) 7)

/-- A device that an operator has bound exchanges its refresh token, and its envelope is queued. -/
theorem production_admission_exchanged : ∃ (J : Unmarshal) (w : World) (msg : Queue.Message)
    (cred : Credential) (i : ℕ) (origin : Origin),
    (server .transparent J productionConfig Server.always).Reachable w ∧
      w.state.mem.access (Primitives.transparent.sha256 (tokenOf (drawing 2))) = some cred ∧
      TracesBack .transparent productionConfig w i origin ∧ msg ∈ w.state.mem.queue.messages ∧
      SubmittedWithProof .transparent J productionConfig Server.always w msg := by
  obtain ⟨r, hr, hview⟩ := Option.map_eq_some_iff.mp (show
      ((exampleProof (lit "a") (lit "0") (lit "1") 1).bind fun dev =>
        (exampleProof (lit "a") (accessProofChallenge (lit "POST") (lit "/v2/relay/envelopes")
          (Primitives.transparent.sha256 (tokenOf (drawing 2)))) (lit "2") 1).bind fun dev' =>
          (admitting dev dev').map fun w => (dev', w)).map
      (fun r => ((r.2.state.mem.access
        (Primitives.transparent.sha256 (tokenOf (drawing 2)))).isSome,
        r.2.state.mem.queue.messages.length)) = some (true, 1) by decide +kernel)
  obtain ⟨dev, -, hr⟩ := Option.bind_eq_some_iff.mp hr
  obtain ⟨dev', -, hr⟩ := Option.bind_eq_some_iff.mp hr
  obtain ⟨w, hw, rfl⟩ := Option.map_eq_some_iff.mp hr
  obtain ⟨haccess, hqueue⟩ := Prod.mk.inj hview
  obtain ⟨cred, hcred⟩ := Option.isSome_iff_exists.mp haccess
  obtain ⟨msg, hmsg⟩ := List.length_eq_one_iff.mp hqueue
  have hmem : msg ∈ w.state.mem.queue.messages := by
    rw [hmsg]
    exact List.mem_singleton_self msg
  have hreachable : (server .transparent (readsProof dev'.2) productionConfig
      Server.always).Reachable w :=
    reachable_of_reached initial_production (fun _ _ _ _ _ => trivial) hw
  obtain ⟨hback, -, hproof⟩ := production_admission rfl rfl hreachable
  obtain ⟨i, origin, -, -, -, -, hback⟩ := hback _ cred hcred
  exact ⟨_, w, msg, cred, i, origin, hreachable, hcred, hback, hmem, hproof msg hmem⟩

end Main

end Relay

end Iscp
