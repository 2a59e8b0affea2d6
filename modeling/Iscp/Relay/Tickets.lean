import Iscp.Relay.Requests

/-!
# How often a ticket is used

A Relay counts the uses of tickets by their ids. How many there may be is what the first request
says that uses an id: a signed ticket, or – outside of production – just a number in a request.
So a signed ticket is used no more often than it says, if the first request that uses its id says
no more than that (`Iscp.Relay.registrations_le_maxUses`).

The counter is the number of the sections that have used the id (`Iscp.Relay.Counted`), and a
registration that succeeds has such a section.
-/

namespace Iscp

namespace Relay

open Go Crypto Identity Replay Service Provisioning

/-! ### Counters -/

/-- How often a ticket may be used: as the first request has said. -/
def TicketState.limit (state : TicketState) (maxUses : ℤ) : ℤ :=
  if state.maxUses = 0 then maxUses else state.maxUses

theorem TicketState.use_eq_some {state state' : TicketState} {maxUses : ℤ} :
    state.use maxUses = some state' ↔ 0 < state.limit maxUses ∧
      state.uses < state.limit maxUses ∧ state' = ⟨state.limit maxUses, state.uses + 1⟩ := by
  have hlimit : (if state.maxUses = 0 then { state with maxUses := maxUses } else state) =
      ⟨state.limit maxUses, state.uses⟩ := by
    rw [limit]
    split_ifs <;> rfl
  rw [use, hlimit]
  simp only [Option.ite_none_left_eq_some, not_or, not_le, Option.some.injEq, and_assoc]
  rw [eq_comm]

/-- A use of the ticket is counted. -/
def Event.Consumes (ticketID : Str) : Event → Prop
  | .consumed ticketID' _ => ticketID' = ticketID
  | _ => False

instance (ticketID : Str) : DecidablePred (Event.Consumes ticketID)
  | .consumed ticketID' _ => inferInstanceAs (Decidable (ticketID' = ticketID))
  | .used _ _ _ _ | .admitted _ | .stored _ | .bound _ | .found _ _ | .marked _ | .spent _
  | .keptAccess _ | .keptRefresh _ | .issued _ _ _ | .recognized _ _ | .revoked _ | .revokedRow _
  | .revokedAccess _ | .revokedRefresh _ | .looked _ _ | .ready _ | .queued _
  | .storedMessage _ | .dequeued _ _ | .sent _ => inferInstanceAs (Decidable False)

/-- **The requests that have used a ticket**, once for each time they have. -/
def users (ticketID : Str) (t : Trace) : List ℕ :=
  (t.filter fun x => ∃ v ∈ x.events, v.Consumes ticketID).map Entry.thread

theorem users_snoc (ticketID : Str) (t : Trace) (x : Entry Env Event) :
    users ticketID (t ++ [x]) =
      users ticketID t ++ if ∃ v ∈ x.events, v.Consumes ticketID then [x.thread] else [] := by
  simp only [users, List.filter_append, List.map_append, List.filter_cons, List.filter_nil,
    decide_eq_true_eq]
  split_ifs <;> rfl

theorem mem_users_of_did {ticketID : Str} {t : Trace} {i : ℕ} {maxUses : ℤ}
    (h : Did t i (.consumed ticketID maxUses)) : i ∈ users ticketID t := by
  obtain ⟨x, hx, rfl, hv⟩ := h
  exact List.mem_map.mpr ⟨x, List.mem_filter.mpr ⟨hx, decide_eq_true ⟨_, hv, rfl⟩⟩, rfl⟩

variable {P : Primitives} {J : Unmarshal} {cfg : Config} {C : Snapshot → Entry Env Event → Prop}

/-- **What a section does to the counters**: nothing, or it uses a ticket. -/
theorem Effect.tickets_cases {req : Request} {c : Snapshot} {x : Entry Env Event} {s : State}
    (h : Effect P cfg req c x s) :
    (s.mem.tickets = c.state.mem.tickets ∧ ∀ ticketID, ∀ v ∈ x.events, ¬v.Consumes ticketID) ∨
    ∃ ticketID maxUses state, (c.state.mem.ticket ticketID).use maxUses = some state ∧
      s.mem.tickets = c.state.mem.tickets.set ticketID state ∧
      x.events = [.consumed ticketID maxUses] := by
  cases h with
  | nonce _ h =>
    obtain ⟨hbooks, hevents⟩ := nonce_sameBooks h
    refine .inl ⟨hbooks.tickets, fun _ v hv hconsumes => ?_⟩
    have hproof := hevents v hv
    cases v <;> first | exact hproof | exact hconsumes
  | message h =>
    obtain ⟨hbooks, hevents⟩ := h.sameBooks
    refine .inl ⟨hbooks.tickets, fun _ v hv hconsumes => ?_⟩
    have hmessage := hevents v hv
    cases v <;> first | exact hmessage | exact hconsumes
  | consume huse hx => exact .inr ⟨_, _, _, huse, rfl, hx⟩
  | mark _ hx =>
    refine .inl ⟨rfl, fun _ => ?_⟩
    rw [hx]
    split_ifs <;> simp [Event.Consumes]
  | _ => exact .inl ⟨rfl, by simp_all [Event.Consumes]⟩

/-! ### Runs -/

/-- **The first request that uses the id of a ticket** says no more than the ticket. -/
def FirstUse (ticket : PairingTicketV3) (c : Snapshot) (x : Entry Env Event) : Prop :=
  ∀ maxUses, .consumed ticket.ticketID maxUses ∈ x.events →
    c.state.mem.tickets ticket.ticketID = none → maxUses ≤ ticket.maxUses

/-- **The counter of a ticket** says how often its id has been used. -/
structure Counted (ticket : PairingTicketV3) (c : Snapshot) : Prop where
  unused : c.state.mem.tickets ticket.ticketID = none → users ticket.ticketID c.trace = []
  uses : ∀ state, c.state.mem.tickets ticket.ticketID = some state →
    state.uses = (users ticket.ticketID c.trace).length ∧ 0 < state.maxUses ∧
      state.uses ≤ state.maxUses ∧ state.maxUses ≤ ticket.maxUses

theorem Counted.length_le {ticket : PairingTicketV3} {c : Snapshot} (h : Counted ticket c) :
    (users ticket.ticketID c.trace).length ≤ ticket.maxUses.toNat := by
  cases hstate : c.state.mem.tickets ticket.ticketID with
  | none =>
    rw [h.unused hstate]
    exact Nat.zero_le _
  | some state =>
    obtain ⟨huses, -, hle, hmax⟩ := h.uses state hstate
    omega

/-- A use of the ticket counts one more, within its limit. -/
theorem Counted.use {ticket : PairingTicketV3} {c : Snapshot} (h : Counted ticket c)
    {maxUses : ℤ} {state : TicketState}
    (hfirst : c.state.mem.tickets ticket.ticketID = none → maxUses ≤ ticket.maxUses)
    (huse : (c.state.mem.ticket ticket.ticketID).use maxUses = some state) :
    state.uses = (users ticket.ticketID c.trace).length + 1 ∧ 0 < state.maxUses ∧
      state.uses ≤ state.maxUses ∧ state.maxUses ≤ ticket.maxUses := by
  obtain ⟨hpos, hlt, rfl⟩ := TicketState.use_eq_some.mp huse
  cases hstate : c.state.mem.tickets ticket.ticketID with
  | none =>
    have hnew : c.state.mem.ticket ticket.ticketID = ⟨0, 0⟩ := by rw [Memory.ticket, hstate]; rfl
    have hmax := hfirst hstate
    rw [hnew] at hpos hlt ⊢
    simp only [TicketState.limit, if_true] at hpos hlt ⊢
    rw [h.unused hstate]
    exact ⟨rfl, hpos, hlt, hmax⟩
  | some state =>
    obtain ⟨huses, hpos', -, hmax⟩ := h.uses state hstate
    have hold : c.state.mem.ticket ticket.ticketID = state := by rw [Memory.ticket, hstate]; rfl
    rw [hold] at hpos hlt ⊢
    rw [TicketState.limit, if_neg hpos'.ne'] at hpos hlt ⊢
    exact ⟨congrArg (· + 1) huses, hpos, hlt, hmax⟩

/-- The uses of a ticket are counted, after every run. -/
theorem counted_of_reachable {ticket : PairingTicketV3} {c : Snapshot}
    (hc : (sections P cfg (FirstUse ticket)).Reachable c) : Counted ticket c := by
  refine hc.invariant ?_ ?_
  · rintro ⟨s, t⟩ ⟨hinit, rfl⟩
    refine ⟨fun _ => rfl, fun state hstate => ?_⟩
    rw [mem_of_initial hinit] at hstate
    cases hstate
  rintro c x ⟨s, t⟩ - hc ⟨hC, rfl, req, hE⟩
  -- a section that does not use the ticket
  have hother : s.mem.tickets ticket.ticketID = c.state.mem.tickets ticket.ticketID →
      (¬∃ v ∈ x.events, v.Consumes ticket.ticketID) → Counted ticket ⟨s, c.trace ++ [x]⟩ := by
    intro hsame hx
    have husers : users ticket.ticketID (c.trace ++ [x]) = users ticket.ticketID c.trace := by
      rw [users_snoc, if_neg hx, List.append_nil]
    constructor
    · rw [husers, hsame]
      exact hc.unused
    · rw [husers, hsame]
      exact hc.uses
  rcases hE.tickets_cases with ⟨hsame, hx⟩ | ⟨ticketID, maxUses, state, huse, hset, hx⟩
  · exact hother (congrFun hsame _) fun ⟨v, hv, hconsumes⟩ => hx _ v hv hconsumes
  rcases eq_or_ne ticket.ticketID ticketID with rfl | hne
  · have hstate : s.mem.tickets ticket.ticketID = some state := by rw [hset, Map.set_self]
    refine ⟨fun hnone => ?_, fun state' hstate' => ?_⟩
    · cases hstate.symm.trans hnone
    · obtain rfl := Option.some.inj (hstate.symm.trans hstate')
      have huses := hc.use (hC maxUses (by simp [hx])) huse
      have hconsumes : ∃ v ∈ x.events, v.Consumes ticket.ticketID :=
        ⟨.consumed ticket.ticketID maxUses, by simp [hx], rfl⟩
      rw [users_snoc, if_pos hconsumes]
      simpa using huses
  · refine hother (by rw [hset, Map.set_of_ne _ hne]) ?_
    simp [hx, Event.Consumes, hne.symm]

/-! ### Registering with a ticket -/

/-- A Relay of the lab that accepts tickets. -/
def ticketConfig (issuer : DeviceIdentity) : Config :=
  { exampleConfig false with ticketIssuer := some issuer }

/-- A ticket that may be used once. -/
def exampleTicket : PairingTicketV3 where
  type := []
  ticketID := lit "t"
  domainID := lit "lab"
  relayID := lit "relay"
  trustRootID := lit "root"
  purpose := purposeInvite
  consumerRole := lit "device"
  grantAudience := lit "controller"
  grantPermissions := some [lit "text"]
  grantTTLSeconds := 0
  maxUses := 1
  issuedAt := ⟨0, 0⟩
  expiresAt := ⟨hour, 0⟩
  signature := noSignature

/-- The issuer of the ticket, and the ticket it signs. -/
def signedTicket : Option (DeviceIdentity × PairingTicketV3) := do
  let issuer ← (newDevice .transparent (some (bytesOf 0)) (lit "lab") (lit "issuer")
    ⟨0, 0⟩).toOption
  let ticket ← (signTicketV3 .transparent issuer exampleTicket).toOption
  return (issuer.identity, ticket)

/-- A device asks to be registered, with a ticket or without. -/
def registering (ticket : Option PairingTicketV3) (nonce : String) : Option Request := do
  let dev ← exampleProof (lit "b") (lit "t") (lit nonce) 1
  return .registerWithTicket ⟨lit "t", 3, ticket, dev.1, dev.2⟩

/-- How often a ticket may be used, by the request that uses it. -/
def Event.maxUses : Event → Option ℤ
  | .consumed _ maxUses => some maxUses
  | _ => none

/-- A request has been answered that presents the ticket. -/
def World.Registers (w : World) (i : ℕ) (ticket : PairingTicketV3) : Prop :=
  ∃ req body, req.ticket = some ticket ∧
    w.threads i = some (.registerWithTicket req, .done (.json 200 body))

instance (w : World) (i : ℕ) (ticket : PairingTicketV3) : Decidable (World.Registers w i ticket) :=
  decidable_of_iff ((match w.threads i with
    | some (.registerWithTicket req, .done (.json 200 _)) => decide (req.ticket = some ticket)
    | _ => false) = true) (by
      unfold World.Registers
      split <;> simp_all)

/-! ### Main results -/

/-- **A signed ticket is used no more often than it says**, if the first request that uses its id
says no more than that. -/
theorem registrations_le_maxUses {ticket : PairingTicketV3} {w : World}
    (hw : (server P J cfg (FirstUse ticket)).Reachable w) {requests : List ℕ}
    (hdistinct : requests.Nodup)
    (hregistered : ∀ i ∈ requests, ∃ req body, req.ticket = some ticket ∧
      w.threads i = some (.registerWithTicket req, .done (.json 200 body))) :
    requests.length ≤ ticket.maxUses.toNat := by
  have hs := sound hw
  have hsubset : requests ⊆ users ticket.ticketID w.trace := by
    intro i hi
    obtain ⟨req, body, hticket, hthread⟩ := hregistered i hi
    have hused : Did w.trace i (.consumed req.counts.1 req.counts.2) := hs.result (.inl hthread)
    rw [RegisterTicketRequest.counts, hticket] at hused
    exact mem_users_of_did hused
  calc requests.length ≤ (users ticket.ticketID w.trace).length :=
        (hdistinct.subperm hsubset).length_le
    _ ≤ ticket.maxUses.toNat := (counted_of_reachable hs.reachable).length_le

/-- A device registers with a ticket for one use. -/
theorem registrations_le_maxUses_one : ∃ issuer w, ∃ ticket : PairingTicketV3, ticket.maxUses = 1 ∧
    (server .transparent unreadable (ticketConfig issuer) (FirstUse ticket)).Reachable w ∧
    (∃ req body, req.ticket = some ticket ∧
      w.threads 0 = some (.registerWithTicket req, .done (.json 200 body))) ∧
    [0].length ≤ ticket.maxUses.toNat := by
  obtain ⟨⟨issuer, ticket⟩, -, req, -, w, hreached, huses, hregisters, hlimit⟩ :
      ∃ t ∈ signedTicket, ∃ req ∈ registering (some t.2) "1",
        ∃ w ∈ reached unreadable (ticketConfig t.1) emptyDatabase (serves 0 req (drawing 0) 10),
          t.2.maxUses = 1 ∧ World.Registers w 0 t.2 ∧
            ∀ x ∈ w.trace, ∀ v ∈ x.events, ∀ maxUses ∈ v.maxUses, maxUses ≤ 1 := by
    decide +kernel
  have hw : (server .transparent unreadable (ticketConfig issuer) (FirstUse ticket)).Reachable w :=
    Server.reachable_of_trace (reachable_of_reached (C := Server.always) (initial_lab rfl _)
      (fun _ _ _ _ _ => trivial) hreached) fun c x hx maxUses hconsumed _ =>
        (hlimit x (hx.subset (by simp)) _ hconsumed maxUses rfl).trans_eq huses.symm
  refine ⟨issuer, w, ticket, huses, hw, hregisters,
    registrations_le_maxUses hw (List.nodup_singleton 0) fun i hi => ?_⟩
  obtain rfl := List.mem_singleton.mp hi
  exact hregisters

/-- **A ticket for one use is used twice**: before, a request without a ticket has used its id, and
said that there may be three uses. -/
theorem ticket_used_twice : ∃ issuer w, ∃ ticket : PairingTicketV3, ticket.maxUses = 1 ∧
    (server .transparent unreadable (ticketConfig issuer) Server.always).Reachable w ∧
    ∀ i ∈ [1, 2], ∃ req body, req.ticket = some ticket ∧
      w.threads i = some (.registerWithTicket req, .done (.json 200 body)) := by
  obtain ⟨⟨issuer, ticket⟩, -, req₀, -, req₁, -, req₂, -, w, hreached, huses, h₁, h₂⟩ :
      ∃ t ∈ signedTicket, ∃ req₀ ∈ registering none "0", ∃ req₁ ∈ registering (some t.2) "1",
        ∃ req₂ ∈ registering (some t.2) "2",
        ∃ w ∈ reached unreadable (ticketConfig t.1) emptyDatabase
          (serves 0 req₀ (drawing 0) 9 ++ serves 1 req₁ (drawing 0) 10 ++
            serves 2 req₂ (drawing 0) 10),
          t.2.maxUses = 1 ∧ World.Registers w 1 t.2 ∧ World.Registers w 2 t.2 := by
    decide +kernel
  refine ⟨issuer, w, ticket, huses,
    reachable_of_reached (initial_lab rfl _) (fun _ _ _ _ _ => trivial) hreached, fun i hi => ?_⟩
  rcases List.mem_pair.mp hi with rfl | rfl
  · exact h₁
  · exact h₂

end Relay

end Iscp
