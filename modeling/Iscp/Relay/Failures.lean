import Iscp.Relay.Frames
import Iscp.Relay.Replicas
import Iscp.Relay.Tickets

/-!
# Requests that fail

A ticket is used, and a refresh token is rotated out, before anything is written for the device
that is to have new credentials: its row, and a row for each of the two credentials. If one of
these statements fails the request is answered with an error, and the ticket stays used and the
refresh token stays revoked (`Iscp.Relay.rotated_but_failed`).

A request that is answered with an error leaves the uses of the ticket, or the refresh token, as
they were exactly if it is turned away before (`Iscp.Relay.unaffected_iff`): by what it says, by
what is in memory and in the tables when it arrives, by the clock, or by a statement that fails
so early (`Iscp.Relay.TurnedAway`).
-/

namespace Iscp

namespace Relay

open Go Crypto Identity Replay Service Provisioning

open Handler (alone_done alone_look alone_ofExcept alone_stop alone_stopIf kept_snoc
  serves_of_play)

/-! ### What is left of a ticket, and of a refresh token -/

/-- The uses that are left of a ticket, to a request that says how many there are. -/
def Memory.remaining (m : Memory) (ticketID : Str) (maxUses : ℤ) : ℤ :=
  (m.ticket ticketID).limit maxUses - (m.ticket ticketID).uses

/-- The refresh token a request finds, with two readings of the clock: in memory, or else in the
database. -/
def State.refreshFound (s : State) (cfg : Config) (hash : Bytes) (now now' : Time) :
    Option Credential :=
  match s.mem.findRefresh hash now with
  | some cred => some cred
  | none => if cfg.domainID = [] then none else
      (s.db.getRefreshByHash cfg.domainID hash now').map fun row => row.credential cfg.domainID hash

/-- **A refresh token is valid**, by the three readings of the clock a request makes. -/
def State.Accepts (s : State) (cfg : Config) (hash : Bytes) (now now' now'' : Time) : Prop :=
  ∃ cred, s.refreshFound cfg hash now now' = some cred ∧ cred.revoked = false ∧
    now''.after cred.expiresAt = false

/-- **The ticket, or the refresh token, a request presents is as good as before.** -/
def Unaffected (P : Primitives) (cfg : Config) (s s' : State) : Request → Prop
  | .registerWithTicket req =>
    s'.mem.remaining req.counts.1 req.counts.2 = s.mem.remaining req.counts.1 req.counts.2
  | .refreshAccess refresh => ∀ now now' now'',
    s'.Accepts cfg (P.sha256 refresh) now now' now'' ↔
      s.Accepts cfg (P.sha256 refresh) now now' now''
  | _ => True

/-! ### Refusals -/

/-- **A device proof is refused**, by what the sections of its check are given: the first reads
the clock, and the two others are the statements that forget old nonces and note the new one. -/
def ProofRefused (P : Primitives) (cfg : Config) (s : State) (t : Trace) (id : DeviceIdentity)
    (proof : DeviceProof) (challenge : Str) : Prop :=
  trimSpace proof.nonce = [] ∨ proof.domainID = [] ∨ trimSpace proof.deviceID = [] ∨
    trimSpace proof.audience = [] ∨ (∃ y ∈ t[1]?, y.env.sqlFails = true) ∨
    (∃ y ∈ t[2]?, y.env.sqlFails = true) ∨ ∃ x ∈ t[0]?,
      Identity.verifyProof P id proof cfg.relayID challenge x.env.now.utc (5 * minute) ≠ .ok () ∨
      (s.db.popReplayCache.delete proof.domainID x.env.now.utc).insert proof.domainID proof.deviceID
        (proofNonceStorageKey P proof.audience proof.nonce) (proof.issuedAt.add (5 * minute)) = none

/-- **A signed ticket is refused**, or the proof that comes with it. The first section reads the
clock for the ticket. -/
def TicketRefused (P : Primitives) (cfg : Config) (s : State) (t : Trace)
    (req : RegisterTicketRequest) (ticket : PairingTicketV3) : Prop :=
  (∀ issuer ∈ cfg.ticketIssuer, ∃ x ∈ t[0]?,
      verifyTicketV3 P ticket issuer x.env.now.utc ≠ .ok ()) ∨
    ticket.domainID ≠ cfg.domainID ∨ ticket.relayID ≠ cfg.relayID ∨
    req.proof.challenge ≠ ticket.ticketID ∨
    ProofRefused P cfg s t.tail req.identity req.proof ticket.ticketID ∨
    ∀ u, bindGrantRoles P ticket req.identity ≠ .ok u

/-- **A refresh token is refused**, or cannot be rotated out: it is looked for in memory at the
first reading of the clock and in its table at the second, and its expiry is compared with a
reading of its own. Where it is in the table only, it is the statement of the seventh section
that revokes it. -/
def RefreshRefused (cfg : Config) (s : State) (t : Trace) (hash : Bytes) : Prop :=
  ∃ x ∈ t[0]?, match s.mem.findRefresh hash x.env.now with
    | some cred => cred.revoked = true ∨ ∃ y ∈ t[1]?, y.env.now.after cred.expiresAt = true
    | none => cfg.domainID = [] ∨ (∃ y ∈ t[2]?, y.env.sqlFails = true) ∨ ∃ y ∈ t[1]?,
      match s.db.getRefreshByHash cfg.domainID hash y.env.now.utc with
      | some row => (∃ z ∈ t[3]?, z.env.now.after row.expiresAt = true) ∨
        s.mem.refresh hash = none ∧ ∃ z ∈ t[6]?, z.env.sqlFails = true
      | none => True

/-- **A request is turned away**, by what it says, by the state it finds, and by what its sections
are given. -/
def TurnedAway (P : Primitives) (cfg : Config) (s : State) (t : Trace) : Request → Prop
  | .registerWithTicket req => (s.mem.ticket req.counts.1).use req.counts.2 = none ∨
    match req.ticket with
    | some ticket => TicketRefused P cfg s t req ticket
    | none => cfg.profileGate.profile = .production ∨
      ProofRefused P cfg s t req.identity req.proof req.proof.challenge
  | .refreshAccess refresh => RefreshRefused cfg s t (P.sha256 refresh)
  | _ => True

variable {P : Primitives} {J : Unmarshal} {cfg : Config} {i : ℕ} {c c₁ c' : Snapshot}
  {C : Snapshot → Entry Env Event → Prop} {domainID : Str} {db : Database} {t : Trace}
  {hash : Bytes} {cred : Credential} {now now' : Time} {s : State} {m : Memory}
  {state : TicketState}

/-- What decides over tickets and refresh tokens. -/
def State.held (s : State) :
    Map TicketState × Map Credential × (Str × Bytes → Option RelayCredential) :=
  (s.mem.tickets, s.mem.refresh, s.db.refreshTokens)

/-- Tickets and refresh tokens are as they were, and these sections have been made. -/
def Holds (c c' : Snapshot) (t : Trace) : Prop :=
  c'.state.held = c.state.held ∧ c'.trace = c.trace ++ t

/-- What holds of a request, when it has run from one configuration to another. -/
def Verdict (P : Primitives) (cfg : Config) (req : Request) (c c' : Snapshot) : Prop :=
  ∃ t, c'.trace = c.trace ++ t ∧
    (Unaffected P cfg c.state c'.state req ↔ TurnedAway P cfg c.state t req)

theorem State.accepts_congr {s' : State} (hrefresh : s'.mem.refresh = s.mem.refresh)
    (hrows : s'.db.refreshTokens = s.db.refreshTokens) (hash : Bytes) (now now' now'' : Time) :
    s'.Accepts cfg hash now now' now'' ↔ s.Accepts cfg hash now now' now'' := by
  have hfound : s'.refreshFound cfg hash now now' = s.refreshFound cfg hash now now' := by
    simp only [refreshFound, Memory.findRefresh, Database.getRefreshByHash, hrefresh, hrows]
  rw [Accepts, Accepts, hfound]

theorem Verdict.of_holds {req : Request} (h : Holds c c' t)
    (haway : TurnedAway P cfg c.state t req) : Verdict P cfg req c c' := by
  obtain ⟨hheld, ht⟩ := h
  simp only [State.held, Prod.mk.injEq] at hheld
  obtain ⟨htickets, hrefresh, hrows⟩ := hheld
  refine ⟨t, ht, iff_of_true ?_ haway⟩
  cases req with
  | registerWithTicket req =>
    rw [Unaffected, Memory.remaining, Memory.ticket, htickets]
    rfl
  | refreshAccess refresh => exact State.accepts_congr hrefresh hrows _
  | _ => trivial

/-! ### Registration -/

section Register

variable {req : RegisterTicketRequest} {id : DeviceIdentity} {proof : DeviceProof} {challenge : Str}

theorem verifyProof_refused (hrepo : cfg.repo = true) :
    (verifyProof P cfg id proof cfg.relayID challenge (5 * minute)).Alone C i
      (fun _ c' => ∃ t, Holds c c' t ∧
        ∀ t', ¬ProofRefused P cfg c.state (t ++ t') id proof challenge)
      (fun _ c' => ∃ t, Holds c c' t ∧ ProofRefused P cfg c.state t id proof challenge) c := by
  rw [verifyProof, hrepo]
  refine .bind (alone_stopIf (fun hnonce => ?_) fun hnonce => ?_)
  · exact ⟨[], ⟨rfl, (List.append_nil _).symm⟩, .inl hnonce⟩
  refine .bind (alone_clock fun e _ => ?_)
  refine .bind (alone_ofExcept (fun _ hok => ?_) fun err herr => ?_)
  · refine .bind (.bind (alone_stopIf (fun hdomain => ?_) fun hdomain => ?_))
    · exact ⟨[⟨i, e, []⟩], ⟨rfl, rfl⟩, .inr (.inl hdomain)⟩
    refine .bind (alone_stopIf (fun hscope => ?_) fun hscope => ?_)
    · refine ⟨[⟨i, e, []⟩], ⟨rfl, rfl⟩, ?_⟩
      rcases hscope with hscope | hscope | hscope <;> simp [ProofRefused, hscope]
    refine .bind (alone_sql (fun e₁ s₁ _ events₁ _ hgood₁ h₁ => ?_) fun e₁ r _ hr => ?_)
    · cases h₁
      refine alone_sql (fun e₂ s₂ isNew events₂ _ hgood₂ h₂ => ?_) fun e₂ r _ hr => ?_
      · split at h₂
        · next T hT =>
          cases h₂
          refine alone_stopIf (fun hnew => by cases hnew) fun _ => ?_
          refine ⟨[⟨i, e, []⟩, ⟨i, e₁, []⟩, ⟨i, e₂, [.used proof (5 * minute) e.now.utc true]⟩],
            ⟨rfl, by simp⟩, fun t' => ?_⟩
          rw [not_or, not_or] at hscope
          have hinsert : (c.state.db.popReplayCache.delete proof.domainID e.now.utc).insert
              proof.domainID proof.deviceID (proofNonceStorageKey P proof.audience proof.nonce)
              (proof.issuedAt.add (5 * minute)) = some T := hT
          simp [ProofRefused, hnonce, hdomain, hscope, hgood₁, hgood₂, hok, hinsert]
        · next hT =>
          cases h₂
          refine alone_stopIf (fun _ => ?_) fun hnew => absurd rfl hnew
          refine ⟨[⟨i, e, []⟩, ⟨i, e₁, []⟩, ⟨i, e₂, [.used proof (5 * minute) e.now.utc false]⟩],
            ⟨rfl, by simp⟩, ?_⟩
          have hinsert : (c.state.db.popReplayCache.delete proof.domainID e.now.utc).insert
              proof.domainID proof.deviceID (proofNonceStorageKey P proof.audience proof.nonce)
              (proof.issuedAt.add (5 * minute)) = none := hT
          simp [ProofRefused, hinsert]
      · have hfails : e₂.sqlFails = true := hr.resolve_right fun h => by split at h <;> cases h
        exact ⟨[⟨i, e, []⟩, ⟨i, e₁, []⟩, ⟨i, e₂, []⟩], ⟨rfl, by simp⟩,
          by simp [ProofRefused, hfails]⟩
    · have hfails : e₁.sqlFails = true := hr.resolve_right fun h => by cases h
      exact ⟨[⟨i, e, []⟩, ⟨i, e₁, []⟩], ⟨rfl, by simp⟩, by simp [ProofRefused, hfails]⟩
  · exact ⟨[⟨i, e, []⟩], ⟨rfl, rfl⟩, by simp [ProofRefused, herr]⟩

/-- **Nothing else uses a ticket.** -/
theorem bindIdentity_frames (id : DeviceIdentity) :
    (bindIdentity P cfg id).Frames (fun s => s.mem.tickets) fun _ => True :=
  Credentialless.bindIdentity ⟨fun _ _ => rfl, fun _ _ => rfl, fun _ _ _ => rfl, fun _ => trivial,
    fun _ => trivial, fun _ _ _ => trivial⟩ (fun _ _ => rfl) (fun _ _ => rfl) (fun _ => trivial)
    (fun _ => trivial) (fun _ => trivial) id

/-- A use takes one from what remains of a ticket. -/
theorem Memory.remaining_use {ticketID : Str} {maxUses : ℤ}
    (h : (m.ticket ticketID).use maxUses = some state) {m' : Memory}
    (hm' : m'.tickets = m.tickets.set ticketID state) :
    m'.remaining ticketID maxUses = m.remaining ticketID maxUses - 1 := by
  obtain ⟨hpos, -, rfl⟩ := TicketState.use_eq_some.mp h
  have hticket : m'.ticket ticketID = ⟨(m.ticket ticketID).limit maxUses,
      (m.ticket ticketID).uses + 1⟩ := by
    rw [Memory.ticket, hm', Map.set_self]
    rfl
  have hlimit : (m'.ticket ticketID).limit maxUses = (m.ticket ticketID).limit maxUses := by
    rw [hticket, TicketState.limit, if_neg hpos.ne']
  have huses : (m'.ticket ticketID).uses = (m.ticket ticketID).uses + 1 := by rw [hticket]
  rw [Memory.remaining, Memory.remaining, hlimit, huses]
  omega

/-- A ticket that has been used is not what it was, whatever follows. -/
theorem bindIdentity_verdict (h : Holds c c₁ t) {e : Env}
    (huse : (c₁.state.mem.ticket req.counts.1).use req.counts.2 = some state)
    (haway : ∀ t', ¬TurnedAway P cfg c.state (t ++ t') (.registerWithTicket req)) :
    (bindIdentity P cfg req.identity).Alone C i
      (fun _ c' => Verdict P cfg (.registerWithTicket req) c c')
      (fun _ c' => Verdict P cfg (.registerWithTicket req) c c')
      ⟨{ c₁.state with mem := { c₁.state.mem with
          tickets := c₁.state.mem.tickets.set req.counts.1 state } },
        c₁.trace ++ [⟨i, e, [.consumed req.counts.1 req.counts.2]⟩]⟩ := by
  obtain ⟨hheld, ht⟩ := h
  have htickets : c₁.state.mem.tickets = c.state.mem.tickets := congrArg Prod.fst hheld
  have hverdict : ∀ c', Handler.Kept (fun s : State => s.mem.tickets) (fun _ => True)
      ⟨{ c₁.state with mem := { c₁.state.mem with
          tickets := c₁.state.mem.tickets.set req.counts.1 state } },
        c₁.trace ++ [⟨i, e, [.consumed req.counts.1 req.counts.2]⟩]⟩ c' →
      Verdict P cfg (.registerWithTicket req) c c' := by
    rintro c' ⟨hsame, t₂, ht₂, -⟩
    refine ⟨t ++ ⟨i, e, [.consumed req.counts.1 req.counts.2]⟩ :: t₂, by simp [ht₂, ht],
      iff_of_false (fun hsame' => ?_) (haway _)⟩
    have hused := Memory.remaining_use huse hsame
    have hbefore : c₁.state.mem.remaining req.counts.1 req.counts.2 =
        c.state.mem.remaining req.counts.1 req.counts.2 := by
      rw [Memory.remaining, Memory.remaining, Memory.ticket, Memory.ticket, htickets]
    rw [Unaffected] at hsame'
    omega
  exact ((bindIdentity_frames req.identity).alone _).mono (fun _ => hverdict) fun _ => hverdict

/-- From the consuming of the ticket on: the request is turned away here or not at all. -/
theorem consumeTicket_verdict {ticketID : Str} {maxUses : ℤ}
    (hcounts : req.counts = (ticketID, maxUses)) (h : Holds c c₁ t)
    (haway : ∀ t', TurnedAway P cfg c.state (t ++ t') (.registerWithTicket req) ↔
      (c.state.mem.ticket req.counts.1).use req.counts.2 = none) :
    ((consumeTicket ticketID maxUses).mapStop (writeError 409) >>= fun _ =>
      bindIdentity P cfg req.identity).Alone C i
      (fun _ c' => Verdict P cfg (.registerWithTicket req) c c')
      (fun _ c' => Verdict P cfg (.registerWithTicket req) c c') c₁ := by
  have htickets : c₁.state.mem.ticket = c.state.mem.ticket := by
    have htickets : c₁.state.mem.tickets = c.state.mem.tickets := congrArg Prod.fst h.1
    funext ticketID
    rw [Memory.ticket, Memory.ticket, htickets]
  obtain ⟨rfl, rfl⟩ : req.counts.1 = ticketID ∧ req.counts.2 = maxUses := by simp [hcounts]
  refine .bind (.mapStop (alone_mutex (fun e s u events hs => ?_) fun e r hr => ?_))
  · split at hs
    · next state huse =>
      cases hs
      refine bindIdentity_verdict h huse fun t' haway' => ?_
      rw [haway t', ← htickets, huse] at haway'
      cases haway'
    · cases hs
  · split at hr
    · cases hr
    · next huse =>
      rw [htickets] at huse
      exact .of_holds ⟨h.1, by simp [h.2]⟩ ((haway [⟨i, e, []⟩]).mpr huse)

/-- The verdict on a registration that names its ticket. -/
theorem registerWithTicketID_verdict (hrepo : cfg.repo = true) (hticket : req.ticket = none) :
    (registerWithTicketID P cfg req).Alone C i
      (fun _ c' => Verdict P cfg (.registerWithTicket req) c c')
      (fun _ c' => Verdict P cfg (.registerWithTicket req) c c') c := by
  have hcounts : req.counts = (req.ticketID, req.maxUses) := by
    rw [RegisterTicketRequest.counts, hticket]
  have haway : ∀ t, TurnedAway P cfg c.state t (.registerWithTicket req) ↔
      (c.state.mem.ticket req.counts.1).use req.counts.2 = none ∨
        cfg.profileGate.profile = .production ∨
        ProofRefused P cfg c.state t req.identity req.proof req.proof.challenge := fun t => by
    rw [TurnedAway, hticket]
  refine .bind (alone_stopIf (fun hprod => ?_) fun hprod => ?_)
  · exact .of_holds ⟨rfl, (List.append_nil _).symm⟩ ((haway []).mpr (.inr (.inl hprod)))
  refine .bind (.mapStop ((verifyProof_refused hrepo).mono ?_ ?_))
  · rintro _ c₁ ⟨t, h, hgood⟩
    exact consumeTicket_verdict hcounts h fun t' => by simp [haway, hprod, hgood t']
  · rintro _ c₁ ⟨t, h, hrefused⟩
    exact .of_holds h ((haway t).mpr (.inr (.inr hrefused)))

/-- The verdict on a registration with a signed ticket. -/
theorem registerWithSignedTicket_verdict (hrepo : cfg.repo = true) {ticket : PairingTicketV3}
    (hticket : req.ticket = some ticket) :
    (registerWithSignedTicket P cfg req ticket).Alone C i
      (fun _ c' => Verdict P cfg (.registerWithTicket req) c c')
      (fun _ c' => Verdict P cfg (.registerWithTicket req) c c') c := by
  have hcounts : req.counts = (ticket.ticketID, ticket.maxUses) := by
    rw [RegisterTicketRequest.counts, hticket]
  have haway : ∀ t, TurnedAway P cfg c.state t (.registerWithTicket req) ↔
      (c.state.mem.ticket req.counts.1).use req.counts.2 = none ∨
        TicketRefused P cfg c.state t req ticket := fun t => by
    rw [TurnedAway, hticket]
  have hstop : ∀ {c' t}, Holds c c' t → TicketRefused P cfg c.state t req ticket →
      Verdict P cfg (.registerWithTicket req) c c' := fun h hrefused =>
    .of_holds h ((haway _).mpr (.inr hrefused))
  rw [registerWithSignedTicket]
  split
  · next hissuer =>
    refine alone_stop (hstop ⟨rfl, (List.append_nil _).symm⟩ (.inl ?_))
    rw [hissuer]
    intro _ h
    cases h
  next issuer hissuer =>
  refine .bind (alone_clock fun e _ => ?_)
  have h₁ : Holds c ⟨c.state, c.trace ++ [⟨i, e, []⟩]⟩ [⟨i, e, []⟩] := ⟨rfl, rfl⟩
  refine .bind (.mapStop (alone_ofExcept (fun _ hsigned => ?_) fun r hr => hstop h₁ (.inl ?_)))
  swap
  · rintro issuer' hissuer'
    obtain rfl : issuer = issuer' := Option.some.inj (hissuer.symm.trans hissuer')
    refine ⟨_, rfl, fun hok => ?_⟩
    cases hr.symm.trans hok
  refine .bind (alone_stopIf (fun hbound => hstop h₁ ?_) fun hbound => ?_)
  · rcases hbound with hbound | hbound
    · exact .inr (.inl hbound)
    · exact .inr (.inr (.inl hbound))
  refine .bind (alone_stopIf (fun hchallenge => hstop h₁ (.inr (.inr (.inr (.inl hchallenge)))))
    fun hchallenge => ?_)
  refine .bind (.mapStop ((verifyProof_refused hrepo).mono ?_ ?_))
  swap
  · rintro _ c₂ ⟨t, h₂, hrefused⟩
    exact hstop (t := ⟨i, e, []⟩ :: t) ⟨h₂.1, by simp [h₂.2]⟩
      (.inr (.inr (.inr (.inr (.inl hrefused)))))
  rintro _ c₂ ⟨t, h₂, hgood⟩
  have h₂' : Holds c c₂ (⟨i, e, []⟩ :: t) := ⟨h₂.1, by simp [h₂.2]⟩
  refine .bind (.mapStop (alone_ofExcept (fun _ hroles => ?_) fun r hr => hstop h₂' ?_))
  · rw [not_or, not_not, not_not] at hbound
    rw [not_not] at hchallenge
    exact consumeTicket_verdict hcounts h₂' fun t' => by
      simp [haway, TicketRefused, hissuer, hsigned, hbound, hchallenge, hgood t', hroles]
  · refine .inr (.inr (.inr (.inr (.inr fun u hu => ?_))))
    cases hr.symm.trans hu

end Register

/-! ### Rotation -/

theorem State.not_accepts_of_revoked (h : s.mem.refresh hash = some cred)
    (hrevoked : cred.revoked = true) (now now' now'' : Time) :
    ¬s.Accepts cfg hash now now' now'' := by
  rintro ⟨cred', hfound, hgood, -⟩
  have hfind : s.mem.findRefresh hash now = some cred := by
    rw [Memory.findRefresh, h]
    simp [hrevoked]
  rw [refreshFound, hfind] at hfound
  obtain rfl := Option.some.inj hfound
  rw [hrevoked] at hgood
  cases hgood

theorem State.not_accepts_of_row (h : s.mem.refresh hash = none)
    (hrows : cfg.domainID ≠ [] → ∀ row, s.db.refreshTokens (cfg.domainID, hash) = some row →
      row.revokedAt ≠ none) (now now' now'' : Time) : ¬s.Accepts cfg hash now now' now'' := by
  rintro ⟨cred, hfound, -⟩
  have hfind : s.mem.findRefresh hash now = none := by
    rw [Memory.findRefresh, h]
    rfl
  rw [refreshFound, hfind] at hfound
  simp only at hfound
  split_ifs at hfound with hdomain
  obtain ⟨row, hrow, -⟩ := Option.map_eq_some_iff.mp hfound
  obtain ⟨hrow, hgood⟩ := Option.filter_eq_some_iff.mp hrow
  exact hrows hdomain row hrow (of_decide_eq_true hgood).1

theorem State.not_accepts_of_marked (h : m.refresh hash = some cred)
    (hmarked : s.mem.refresh = (m.markRefresh hash).refresh) (now now' now'' : Time) :
    ¬s.Accepts cfg hash now now' now'' := by
  have hrefresh : s.mem.refresh hash = some { cred with revoked := true } := by
    rw [hmarked, Memory.refresh_markRefresh, h]
    simp
  exact not_accepts_of_revoked hrefresh rfl now now' now''

theorem State.not_accepts_of_spent (h : s.mem.refresh hash = none) {now₀ : Time}
    (hrows : s.db.refreshTokens = (db.revokeRefreshByHash cfg.domainID hash now₀).refreshTokens)
    (now now' now'' : Time) : ¬s.Accepts cfg hash now now' now'' := by
  refine not_accepts_of_row h (fun _ row hrow => ?_) now now' now''
  rw [hrows] at hrow
  obtain ⟨row', -, rfl⟩ := Option.map_eq_some_iff.mp hrow
  rw [if_pos rfl]
  exact row'.revokedAt_revoke now₀

theorem Memory.markRefresh_of_none (h : m.refresh hash = none) : m.markRefresh hash = m := by
  rw [markRefresh, h]

section Exchange

variable {refresh : Str} {now'' : Time}

/-- Nothing can fail once the row of the new refresh token has been written. -/
theorem issueCredentials_held (origin : Origin) : (issueCredentials P cfg origin).Alone C i
    (fun _ _ => True) (fun _ c' => Handler.Kept State.held (fun _ => True) c c') c := by
  refine .bind (alone_clock fun e _ => .bind (alone_look fun e₁ _ => .bind (alone_look
    fun e₂ _ => .bind ?_)))
  have h : Handler.Kept State.held (fun _ : Event => True) c
      ⟨c.state, c.trace ++ [⟨i, e, []⟩] ++ [⟨i, e₁, []⟩] ++ [⟨i, e₂, []⟩]⟩ :=
    ⟨rfl, [⟨i, e, []⟩, ⟨i, e₁, []⟩, ⟨i, e₂, []⟩], by simp, fun _ _ _ _ => trivial⟩
  refine Handler.Alone.mono (Q := fun _ _ => True)
    (X := fun _ c' => Handler.Kept State.held (fun _ => True) c c') ?_ (fun _ _ _ => ?_)
    fun _ _ h => h
  · rw [persistCredentials]
    split_ifs
    · refine .bind (((frames_newUUID _).alone _).mono (fun _ c₁ h₁ => ?_) fun _ _ h' => h.trans h')
      refine .bind (((frames_newUUID _).alone _).mono (fun _ c₂ h₂ => ?_)
        fun _ _ h' => h.trans (h₁.trans h'))
      refine .bind (((frames_statement ?_).alone _).mono (fun _ c₃ h₃ => ?_)
        fun _ _ h' => h.trans (h₁.trans (h₂.trans h')))
      · intro e s db u events hf
        obtain ⟨_, hdb, ⟨⟩⟩ := bind_eq_ok_iff.mp hf
        obtain ⟨_, -, ⟨⟩⟩ := bind_eq_ok_iff.mp hdb
        exact ⟨rfl, fun _ _ => trivial⟩
      have h₃' := h.trans (h₁.trans (h₂.trans h₃))
      exact alone_statement (fun _ _ _ _ _ _ => trivial) (fun _ _ => h₃') fun e r _ _ =>
        h₃'.trans (kept_snoc rfl i e fun _ _ => trivial)
    · exact alone_done trivial
  · exact alone_mutex (fun _ _ _ _ _ => trivial) fun _ _ h => by cases h

/-- **A good refresh token is rotated out**: it is marked where it is in memory, and else its row
is revoked. -/
theorem exchange_verdict (hrepo : cfg.repo = true) (hhash : P.sha256 refresh = hash)
    (h : c₁ = ⟨c.state, c.trace ++ t⟩) (hbefore : c.state.Accepts cfg hash now now' now'')
    (hmarked : c.state.mem.refresh hash ≠ none →
      ∀ t', ¬RefreshRefused cfg c.state (t ++ t') hash)
    (hrow : c.state.mem.refresh hash = none → cfg.domainID ≠ [] ∧ ∀ x y z t',
      RefreshRefused cfg c.state (t ++ x :: y :: z :: t') hash ↔
        z.env.sqlFails = true) :
    (exchange P cfg hash cred).Alone C i
      (fun r _ => ∃ body, r = .json 200 body)
      (fun _ c' => Verdict P cfg (.refreshAccess refresh) c c') c₁ := by
  subst h hhash
  refine .bind (.mapStop (.bind (alone_mutex (fun e s u events hs => ?_) fun _ _ h => by cases h)))
  cases hs
  rw [if_pos hrepo, if_pos hrepo]
  set x : Entry Env Event := ⟨i, e, [.marked (P.sha256 refresh)]⟩ with hx
  refine .bind (alone_clock fun e₁ _ => ?_)
  -- once it is marked in memory it is refused, whatever its row says
  have hstop : c.state.mem.refresh (P.sha256 refresh) ≠ none → ∀ t' (c' : Snapshot),
      c'.state.mem.refresh = (c.state.mem.markRefresh (P.sha256 refresh)).refresh →
      c'.trace = c.trace ++ (t ++ t') → Verdict P cfg (.refreshAccess refresh) c c' := by
    intro hmem t' c' hrefresh ht
    obtain ⟨cred₀, hcred₀⟩ := Option.ne_none_iff_exists'.mp hmem
    refine ⟨_, ht, iff_of_false (fun hsame => ?_) (hmarked hmem t')⟩
    exact State.not_accepts_of_marked hcred₀ hrefresh _ _ _ ((hsame now now' now'').mpr hbefore)
  refine .bind (alone_stopIf (fun hempty => ?_) fun _ => ?_)
  · have hmem : c.state.mem.refresh (P.sha256 refresh) ≠ none := fun hnone => (hrow hnone).1 hempty
    exact hstop hmem [x, ⟨i, e₁, []⟩] _ rfl (by simp [x])
  refine alone_sql (fun e₂ s₂ u₂ events₂ _ hgood hs₂ => ?_) fun e₂ r _ hr => ?_
  · cases hs₂
    refine .bind (.mapStop ((issueCredentials_held _).mono (fun creds _ _ => ?_) ?_))
    · obtain ⟨access, refresh'⟩ := creds
      exact alone_done ⟨_, rfl⟩
    rintro _ c' ⟨hheld, t', ht', -⟩
    simp only [State.held, Prod.mk.injEq] at hheld
    obtain ⟨-, hrefresh, hrows⟩ := hheld
    cases hmem : c.state.mem.refresh (P.sha256 refresh) with
    | none =>
      rw [Memory.markRefresh_of_none hmem] at hrefresh
      refine ⟨t ++ x :: ⟨i, e₁, []⟩ :: ⟨i, e₂, [.spent (P.sha256 refresh)]⟩ :: t',
        by simp [ht', x], iff_of_false (fun hsame => ?_) fun haway => ?_⟩
      · exact State.not_accepts_of_spent (by rw [hrefresh, hmem]) hrows _ _ _
          ((hsame now now' now'').mpr hbefore)
      · have hfails : e₂.sqlFails = true := ((hrow hmem).2 _ _ _ _).mp haway
        rw [hgood] at hfails
        cases hfails
    | some cred₀ =>
      exact hstop (by simp [hmem])
        (x :: ⟨i, e₁, []⟩ :: ⟨i, e₂, [.spent (P.sha256 refresh)]⟩ :: t') _ hrefresh
        (by simp [ht', x])
  · have hfails : e₂.sqlFails = true := hr.resolve_right fun h => by cases h
    cases hmem : c.state.mem.refresh (P.sha256 refresh) with
    | none =>
      refine .of_holds (t := t ++ [x, ⟨i, e₁, []⟩, ⟨i, e₂, []⟩]) ⟨?_, by simp [x]⟩
        (((hrow hmem).2 _ _ _ _).mpr hfails)
      rw [Memory.markRefresh_of_none hmem]
    | some cred₀ =>
      exact hstop (by simp [hmem]) [x, ⟨i, e₁, []⟩, ⟨i, e₂, []⟩] _ rfl (by simp [x])

/-- **From the credential that was found on**, in memory or in its table: it is refused by what it
says of itself, or exchanged. -/
theorem found_verdict (hrepo : cfg.repo = true) (hhash : P.sha256 refresh = hash)
    (h : c₁ = ⟨c.state, c.trace ++ t⟩)
    (hfound : c.state.refreshFound cfg hash now now' = some cred)
    (hdomain : c.state.mem.refresh hash = none → cfg.domainID ≠ [])
    (haway : ∀ t', RefreshRefused cfg c.state (t ++ t') hash ↔ cred.revoked = true ∨
      (∃ y ∈ t'[0]?, y.env.now.after cred.expiresAt = true) ∨
      c.state.mem.refresh hash = none ∧ ∃ z ∈ t'[3]?, z.env.sqlFails = true) :
    (do
      Handler.stopIf (cred.revoked = true) refreshInvalid
      let now ← Handler.ask Env.now
      Handler.stopIf (now.after cred.expiresAt = true) refreshInvalid
      exchange P cfg hash cred : Run Answer Answer).Alone C i
      (fun r _ => ∃ body, r = .json 200 body)
      (fun _ c' => Verdict P cfg (.refreshAccess refresh) c c') c₁ := by
  subst h hhash
  have hstop : ∀ {c' t'}, c'.state = c.state → c'.trace = c.trace ++ (t ++ t') →
      RefreshRefused cfg c.state (t ++ t') (P.sha256 refresh) →
      Verdict P cfg (.refreshAccess refresh) c c' :=
    fun hstate ht hrefused => .of_holds ⟨congrArg State.held hstate, ht⟩ hrefused
  refine .bind (alone_stopIf (fun hrevoked => ?_) fun hgood => ?_)
  · exact hstop rfl (by simp) ((haway []).mpr (.inl hrevoked))
  refine .bind (alone_look fun e _ => ?_)
  refine .bind (alone_stopIf (fun hexpired => ?_) fun hfresh => ?_)
  · exact hstop rfl (by simp) ((haway [⟨i, e, []⟩]).mpr (.inr (.inl ⟨_, rfl, hexpired⟩)))
  rw [Bool.not_eq_true] at hgood hfresh
  -- what is left to fail is the statement that revokes the row
  have hrest : ∀ t', RefreshRefused cfg c.state (t ++ [⟨i, e, []⟩] ++ t') (P.sha256 refresh) ↔
      c.state.mem.refresh (P.sha256 refresh) = none ∧ ∃ z ∈ t'[2]?, z.env.sqlFails = true := by
    intro t'
    rw [List.append_assoc, haway]
    constructor
    · rintro (hrevoked | ⟨y, hy, hexpired⟩ | hfails)
      · exact absurd hrevoked (Bool.eq_false_iff.mp hgood)
      · obtain rfl := Option.some.inj hy
        exact absurd hexpired (Bool.eq_false_iff.mp hfresh)
      · exact hfails
    · intro hfails
      exact .inr (.inr hfails)
  refine exchange_verdict hrepo rfl (t := t ++ [⟨i, e, []⟩]) (by simp)
    ⟨cred, hfound, hgood, hfresh⟩ (fun hsome t' hrefused => hsome ((hrest t').mp hrefused).1)
    fun hnone => ⟨hdomain hnone, fun x y z t' => ?_⟩
  rw [hrest]
  simp [hnone]

/-- The verdict on a refresh. -/
theorem refreshAccess_verdict (hrepo : cfg.repo = true) (refresh : Str) :
    (refreshAccess P cfg refresh).Alone C i (fun r _ => ∃ body, r = .json 200 body)
      (fun _ c' => Verdict P cfg (.refreshAccess refresh) c c') c := by
  rw [refreshAccess]
  generalize hhash : P.sha256 refresh = hash
  have hstop : ∀ {c' t}, c'.state = c.state → c'.trace = c.trace ++ t →
      RefreshRefused cfg c.state t hash → Verdict P cfg (.refreshAccess refresh) c c' := by
    rintro c' t hstate ht hrefused
    subst hhash
    exact .of_holds ⟨congrArg State.held hstate, ht⟩ hrefused
  refine .bind (.mapStop (.bind (alone_mutex (fun e s found events h => ?_)
    fun _ _ h => by cases h)))
  cases h
  set x : Entry Env Event := ⟨i, e, _⟩ with hx
  cases hfind : c.state.mem.findRefresh hash e.now with
  | some cred =>
    have hsome : c.state.mem.refresh hash ≠ none := by
      rw [(Option.filter_eq_some_iff.mp hfind).1]
      exact Option.some_ne_none _
    have hfound : c.state.refreshFound cfg hash e.now e.now = some cred := by
      rw [State.refreshFound, hfind]
    refine alone_done (found_verdict hrepo hhash (t := [x]) rfl hfound
      (fun hnone => absurd hnone hsome) fun t' => ?_)
    simp [RefreshRefused, x, hfind, hsome]
  | none =>
    rw [if_pos ⟨rfl, hrepo⟩]
    refine .bind (alone_clock fun e₁ _ => ?_)
    refine .bind (alone_stopIf (fun hempty => ?_) fun hdomain => ?_)
    · refine hstop (t := [x, ⟨i, e₁, []⟩]) rfl (by simp [x]) ⟨x, rfl, ?_⟩
      rw [hfind]
      exact .inl hempty
    have haway : ∀ y t', RefreshRefused cfg c.state (x :: ⟨i, e₁, []⟩ :: y :: t') hash ↔
        y.env.sqlFails = true ∨
        match c.state.db.getRefreshByHash cfg.domainID hash e₁.now.utc with
        | some row => (∃ z ∈ t'[0]?, z.env.now.after row.expiresAt = true) ∨
          c.state.mem.refresh hash = none ∧ ∃ z ∈ t'[3]?, z.env.sqlFails = true
        | none => True := fun y t' => by
      simp [RefreshRefused, x, hfind, hdomain]
    refine alone_sql (fun e₂ s₂ found₂ events₂ _ hgood hs₂ => ?_) fun e₂ r _ hr => ?_
    · cases hs₂
      cases hrow : c.state.db.getRefreshByHash cfg.domainID hash e₁.now.utc with
      | none =>
        refine alone_stop (hstop (t := [x, ⟨i, e₁, []⟩, ⟨i, e₂, []⟩]) rfl (by simp [x]) ?_)
        rw [haway, hrow]
        exact .inr trivial
      | some row =>
        have hfound : c.state.refreshFound cfg hash e.now e₁.now.utc =
            some (row.credential cfg.domainID hash) := by
          rw [State.refreshFound, hfind, if_neg hdomain, hrow]
          rfl
        refine found_verdict hrepo hhash (t := [x, ⟨i, e₁, []⟩,
          ⟨i, e₂, [.found hash (row.credential cfg.domainID hash)]⟩]) (by simp [x]) hfound
          (fun _ => hdomain) fun t' => ?_
        -- the row is a good one, so its credential is not revoked
        refine (haway _ t').trans ?_
        rw [hrow, hgood]
        simp [RelayCredential.credential]
    · have hfails : e₂.sqlFails = true := hr.resolve_right fun h => by cases h
      exact hstop (t := [x, ⟨i, e₁, []⟩, ⟨i, e₂, []⟩]) rfl (by simp [x])
        ((haway _ _).mpr (.inl hfails))

end Exchange

/-! ### Main results -/

/-- **A request that is answered with an error leaves the ticket, or the refresh token, as it was
exactly if it is turned away.** -/
theorem unaffected_iff (hrepo : cfg.repo = true) {req : Request} {status : ℕ} {err : ErrorResponse}
    {t : Trace} (hserves : (handle P J cfg req).Serves C i c (.error status err) c')
    (ht : c'.trace = c.trace ++ t) :
    Unaffected P cfg c.state c'.state req ↔ TurnedAway P cfg c.state t req := by
  have hverdict : Verdict P cfg req c c' := by
    cases req with
    | registerWithTicket req =>
      refine Handler.Alone.answer (Q := fun _ c' => Verdict P cfg (.registerWithTicket req) c c') ?_
        hserves
      rw [handle, registerWithTicket]
      split
      · next ticket hticket => exact registerWithSignedTicket_verdict hrepo hticket
      · next hticket => exact registerWithTicketID_verdict hrepo hticket
    | refreshAccess refresh =>
      let Q : Answer → Snapshot → Prop := fun r c' =>
        (∃ body, r = .json 200 body) ∨ Verdict P cfg (.refreshAccess refresh) c c'
      have halone : (handle P J cfg (.refreshAccess refresh)).Alone C i Q Q c :=
        (refreshAccess_verdict hrepo refresh).mono (fun _ _ => .inl) fun _ _ => .inr
      rcases halone.answer hserves with ⟨_, ⟨⟩⟩ | hverdict
      exact hverdict
    | _ => exact ⟨t, ht, Iff.rfl⟩
  obtain ⟨t', ht', hiff⟩ := hverdict
  obtain rfl : t' = t := List.append_cancel_left (ht'.symm.trans ht)
  exact hiff

/-- A refresh token a process has given to a device. -/
def heldCredential : Credential :=
  ⟨lit "lab", lit "a", tokenOf (drawing 0), hashOf 0, ⟨24 * hour, 0⟩, false⟩

/-- The token is in memory, and in the database. -/
def heldState : State :=
  ⟨{ Memory.new with refresh := Map.set (fun _ => none) (hashOf 0) heldCredential },
    exampleDatabase⟩

/-- A request has failed with this status. -/
def Fails (x : Except Answer Answer) (status : ℕ) : Prop := ∃ err, x = .error (.error status err)

instance (x : Except Answer Answer) (status : ℕ) : Decidable (Fails x status) :=
  decidable_of_iff ((match x with
    | .error (.error status' _) => decide (status' = status)
    | _ => false) = true) (by
      unfold Fails
      split <;> simp_all)

/-- A process that has just been started is asked to exchange a token of its database, and the
statement that looks it up fails: the token is as good as before. -/
theorem unaffected_iff_lookup : ∃ c' err,
    (handle .transparent unreadable (exampleConfig true)
      (.refreshAccess (tokenOf (drawing 0)))).Serves Server.always 0
      ⟨⟨Memory.new, exampleDatabase⟩, []⟩ (.error 500 err) c' ∧
    TurnedAway .transparent (exampleConfig true) ⟨Memory.new, exampleDatabase⟩ c'.trace
      (.refreshAccess (tokenOf (drawing 0))) ∧
    c'.state.Accepts (exampleConfig true) (hashOf 0) ⟨0, 0⟩ ⟨0, 0⟩ ⟨0, 0⟩ := by
  obtain ⟨hfound, ⟨c', x⟩, hplay, ⟨err, rfl⟩, ⟨x, hx, -⟩, y, hy, hfails⟩ :
      State.refreshFound ⟨Memory.new, exampleDatabase⟩ (exampleConfig true) (hashOf 0) ⟨0, 0⟩
        ⟨0, 0⟩ = some (exampleRow.credential (lit "lab") (hashOf 0)) ∧
      ∃ r ∈ (handle .transparent unreadable (exampleConfig true) (.refreshAccess
          (tokenOf (drawing 0)))).play 0 { drawing 1 with sqlFails := true }
          ⟨⟨Memory.new, exampleDatabase⟩, []⟩,
        Fails r.2 500 ∧ (∃ x ∈ r.1.trace[0]?, x.thread = 0) ∧
          ∃ y ∈ r.1.trace[2]?, y.env.sqlFails = true := by
    decide +kernel
  have hserves := serves_of_play (C := Server.always) hplay fun _ _ _ _ => trivial
  have haway : TurnedAway .transparent (exampleConfig true) ⟨Memory.new, exampleDatabase⟩ c'.trace
      (.refreshAccess (tokenOf (drawing 0))) := ⟨x, hx, .inr (.inl ⟨y, hy, hfails⟩)⟩
  refine ⟨c', err, hserves, haway, ?_⟩
  exact ((unaffected_iff rfl hserves rfl).mpr haway ⟨0, 0⟩ ⟨0, 0⟩ ⟨0, 0⟩).mpr
    ⟨_, hfound, rfl, by decide⟩

/-- **A refresh token is rotated out, and no other is given**: the statement that revokes its row
fails, the request is answered with an error, and the next one is refused. -/
theorem rotated_but_failed : ∃ c' c'' err,
    heldState.Accepts (exampleConfig true) (hashOf 0) ⟨0, 0⟩ ⟨0, 0⟩ ⟨0, 0⟩ ∧
    (handle .transparent unreadable (exampleConfig true)
      (.refreshAccess (tokenOf (drawing 0)))).Serves Server.always 0 ⟨heldState, []⟩
      (.error 500 err) c' ∧
    (handle .transparent unreadable (exampleConfig true)
      (.refreshAccess (tokenOf (drawing 0)))).Serves Server.always 1 c' refreshInvalid c'' := by
  obtain ⟨hfound, ⟨c', x⟩, hplay, ⟨err, rfl⟩, ⟨c'', x'⟩, hplay', hx'⟩ :
      heldState.refreshFound (exampleConfig true) (hashOf 0) ⟨0, 0⟩ ⟨0, 0⟩ = some heldCredential ∧
      ∃ r ∈ (handle .transparent unreadable (exampleConfig true) (.refreshAccess
          (tokenOf (drawing 0)))).play 0 { drawing 1 with sqlFails := true } ⟨heldState, []⟩,
        Fails r.2 500 ∧
        ∃ r' ∈ (handle .transparent unreadable (exampleConfig true) (.refreshAccess
            (tokenOf (drawing 0)))).play 1 (drawing 1) r.1,
          sameResult r'.2 (.error refreshInvalid) := by
    decide +kernel
  obtain rfl := eq_of_sameResult hx'
  exact ⟨c', c'', err, ⟨heldCredential, hfound, rfl, by decide⟩,
    serves_of_play hplay fun _ _ _ _ => trivial,
    serves_of_play hplay' fun _ _ _ _ => trivial⟩

end Relay

end Iscp
