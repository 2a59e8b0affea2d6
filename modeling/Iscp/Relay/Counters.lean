import Iscp.Relay.Tickets

/-!
# Two counters of tickets

The uses of tickets are counted twice in the repository: by the Relay
(`Iscp.Relay.consumeTicket`), and by the store of the client library
(`Iscp.Provisioning.TicketStore`). Both go by the limit the first use of a ticket says. But the
library looks at the limit of every call, while the Relay looks only at the one it goes by; so
the Relay counts a call that says no limit, if the ticket is known, and the library refuses it
(`Iscp.Relay.unlimited_use_differs`). They agree on a sequence of calls if each call without a
positive limit is for a ticket that is new or used up (`Iscp.Relay.counters_agree_iff`).

What the library keeps is a function of the positive limits it has been told
(`Iscp.Relay.tally`), and as long as the two agree the Relay keeps the same.
-/

namespace Iscp

namespace Provisioning

open Go

/-- **`TicketStore`**: how often each ticket has been used, and may be. -/
structure TicketStore where
  uses : Map ℤ
  limit : Map ℤ

/-- `NewTicketStore`. -/
def newTicketStore : TicketStore := ⟨fun _ => none, fun _ => none⟩

/-- **`consume`**: the store it leaves, and what it returns. -/
def TicketStore.consume (s : TicketStore) (ticketID : Str) (maxUses : ℤ) :
    TicketStore × Except Error Unit :=
  if maxUses ≤ 0 then (s, .error (invalid "ticket max uses must be positive")) else
  let s := if (s.limit ticketID).isSome then s
    else { s with limit := s.limit.set ticketID maxUses }
  if (s.limit ticketID).getD 0 ≤ (s.uses ticketID).getD 0 then
    (s, .error (invalid "pairing ticket already consumed"))
  else ({ s with uses := s.uses.set ticketID ((s.uses ticketID).getD 0 + 1) }, .ok ())

/-- **The successes of calls one after the other.** -/
def TicketStore.verdicts : TicketStore → List (Str × ℤ) → List Bool
  | _, [] => []
  | s, (ticketID, maxUses) :: calls =>
    (s.consume ticketID maxUses).2.isOk :: (s.consume ticketID maxUses).1.verdicts calls

end Provisioning

namespace Relay

open Go Crypto Service Provisioning

/-- **The successes of calls one after the other**: each is run alone, on what the one before it
has left. -/
def verdicts (e : Env) : Snapshot → List (Str × ℤ) → Option (List Bool)
  | _, [] => some []
  | c, (ticketID, maxUses) :: calls =>
    ((consumeTicket ticketID maxUses).play 0 e c).bind fun r =>
      (verdicts e r.1 calls).map (r.2.isOk :: ·)

/-! ### The counter as a function of the limits -/

/-- **The counter of a ticket** after calls that have told these limits, all positive. -/
def tally (told : List ℤ) : TicketState :=
  ⟨told.head?.getD 0, min told.length (told.head?.getD 0)⟩

/-- A ticket is idle: no call has told a limit of it, or as many have as the first allows. -/
def Idle (told : List ℤ) : Prop := ∀ limit ∈ told.head?, limit ≤ told.length

theorem tally_nil : tally [] = ⟨0, 0⟩ := rfl

theorem tally_cons (limit : ℤ) (told : List ℤ) :
    tally (limit :: told) = ⟨limit, min (told.length + 1) limit⟩ := rfl

theorem idle_nil : Idle [] := fun _ h => by simp at h

variable {told : List ℤ} {limit m maxUses : ℤ} {ticketID : Str} {count : Str → TicketState}
  {calls : List (Str × ℤ)} {c : Snapshot} {s : TicketStore}

theorem idle_cons : Idle (limit :: told) ↔ limit ≤ told.length + 1 := by
  simp [Idle]

theorem TicketState.use_new :
    (⟨0, 0⟩ : TicketState).use m = if 0 < m then some ⟨m, 1⟩ else none := by
  simp only [TicketState.use, if_true, or_self]
  split_ifs <;> first | rfl | omega

theorem TicketState.use_of_pos {uses : ℤ} (h : 0 < limit) :
    (⟨limit, uses⟩ : TicketState).use m =
      if uses < limit then some ⟨limit, uses + 1⟩ else none := by
  simp only [TicketState.use, if_neg h.ne', h.not_ge, false_or]
  split_ifs <;> first | rfl | omega

/-- **A use with a positive limit** is told, and the counter of what is told then is the one the
use leaves. -/
theorem tally_snoc (htold : ∀ m ∈ told, 0 < m) (hm : 0 < m) :
    tally (told ++ [m]) = ((tally told).use m).getD (tally told) := by
  cases told with
  | nil =>
    rw [tally_nil, TicketState.use_new, if_pos hm, List.nil_append, tally_cons]
    simp only [List.length_nil, Option.getD_some]
    congr 1
    omega
  | cons limit told =>
    have hlimit : 0 < limit := htold limit List.mem_cons_self
    rw [List.cons_append, tally_cons, tally_cons, TicketState.use_of_pos hlimit]
    simp only [List.length_append, List.length_singleton]
    split_ifs
    all_goals
      simp only [Option.getD_some, Option.getD_none]
      congr 1
      omega

/-- **A use without a positive limit** is refused if the ticket is new or used up. -/
theorem tally_use_of_nonpos (htold : ∀ m ∈ told, 0 < m) (hm : m ≤ 0) :
    (tally told).use m = none ↔ Idle told := by
  cases told with
  | nil => simp only [tally_nil, TicketState.use_new, if_neg hm.not_gt, idle_nil]
  | cons limit told =>
    have hlimit : 0 < limit := htold limit List.mem_cons_self
    rw [tally_cons, TicketState.use_of_pos hlimit, idle_cons]
    split_ifs
    · simp only [false_iff]
      omega
    · simp only [true_iff]
      omega

/-! ### Histories -/

/-- **The positive limits that calls have told** of a ticket. -/
def limits (ticketID : Str) (calls : List (Str × ℤ)) : List ℤ :=
  (calls.filter fun call => call.1 = ticketID ∧ 0 < call.2).map Prod.snd

theorem pos_of_mem_limits (ticketID : Str) (calls : List (Str × ℤ)) :
    ∀ m ∈ limits ticketID calls, 0 < m := by
  intro m hm
  obtain ⟨call, hcall, rfl⟩ := List.mem_map.mp hm
  exact (of_decide_eq_true (List.mem_filter.mp hcall).2).2

theorem limits_snoc (ticketID : Str) (calls : List (Str × ℤ)) (call : Str × ℤ) :
    limits ticketID (calls ++ [call]) =
      limits ticketID calls ++ if call.1 = ticketID ∧ 0 < call.2 then [call.2] else [] := by
  simp only [limits, List.filter_append, List.map_append, List.filter_cons, List.filter_nil,
    decide_eq_true_eq]
  split_ifs <;> rfl

/-- **The counters after some calls** are those of the limits the calls have told. -/
def Tallied (calls : List (Str × ℤ)) (count : Str → TicketState) : Prop :=
  ∀ ticketID, count ticketID = tally (limits ticketID calls)

/-- The counters after a use, if it is accepted. -/
def used (count : Str → TicketState) (ticketID : Str) (maxUses : ℤ) : Str → TicketState :=
  Function.update count ticketID (((count ticketID).use maxUses).getD (count ticketID))

theorem used_of_none (h : (count ticketID).use maxUses = none) :
    used count ticketID maxUses = count := by
  rw [used, h, Option.getD_none, Function.update_eq_self]

theorem Tallied.snoc_of_pos (h : Tallied calls count) (hpos : 0 < maxUses) :
    Tallied (calls ++ [(ticketID, maxUses)]) (used count ticketID maxUses) := by
  intro other
  rw [limits_snoc, used]
  by_cases hother : other = ticketID
  · subst hother
    rw [Function.update_self, if_pos ⟨rfl, hpos⟩,
      tally_snoc (pos_of_mem_limits other calls) hpos, h other]
  · rw [Function.update_of_ne hother, if_neg fun hand => hother hand.1.symm, List.append_nil]
    exact h other

theorem Tallied.snoc_of_nonpos (h : Tallied calls count) (ticketID : Str) (hpos : maxUses ≤ 0) :
    Tallied (calls ++ [(ticketID, maxUses)]) count := by
  intro other
  rw [limits_snoc, if_neg fun hand => hpos.not_gt hand.2, List.append_nil]
  exact h other

/-! ### One call -/

theorem Memory.ticket_set (m : Memory) (ticketID : Str) (state : TicketState) :
    ({ m with tickets := m.tickets.set ticketID state } : Memory).ticket =
      Function.update m.ticket ticketID state := by
  funext other
  by_cases hother : other = ticketID
  · subst hother
    simp [Memory.ticket]
  · simp [Memory.ticket, hother, Map.set_of_ne]

/-- **A call of `consumeTicket`** uses the counter of the ticket, and leaves the others. -/
theorem exists_play_consumeTicket (e : Env) (hfree : c.state.mem.locked = false) (ticketID : Str)
    (maxUses : ℤ) :
    ∃ c' result, (consumeTicket ticketID maxUses).play 0 e c = some (c', result) ∧
      result.isOk = ((c.state.mem.ticket ticketID).use maxUses).isSome ∧
      c'.state.mem.locked = false ∧
      c'.state.mem.ticket = used c.state.mem.ticket ticketID maxUses := by
  have hen : (!c.state.mem.locked) = true := by rw [hfree, Bool.not_false]
  cases huse : (c.state.mem.ticket ticketID).use maxUses with
  | none =>
    refine ⟨_, _, Handler.play_attempt_error hen (by rw [huse]), rfl, hfree, ?_⟩
    rw [used_of_none huse]
  | some state =>
    refine ⟨_, _, Handler.play_attempt_ok hen (by rw [huse]), ?_⟩
    refine ⟨rfl, hfree, ?_⟩
    rw [used, huse, Option.getD_some]
    exact c.state.mem.ticket_set ticketID state

/-- What the library keeps of a ticket, as the Relay would keep it. -/
def view (s : TicketStore) (ticketID : Str) : TicketState :=
  ⟨(s.limit ticketID).getD 0, (s.uses ticketID).getD 0⟩

theorem view_set {uses limit : Map ℤ} {n : ℤ} (huses : uses = s.uses.set ticketID n)
    (hlimit : limit = s.limit.set ticketID m) :
    view ⟨uses, limit⟩ = Function.update (view s) ticketID ⟨m, n⟩ := by
  subst huses hlimit
  funext other
  by_cases hother : other = ticketID
  · subst hother
    simp [view]
  · simp [view, hother, Map.set_of_ne]

/-- **A store the calls can leave**: its limits are positive, and a ticket without a limit has
not been used. -/
structure Sensible (s : TicketStore) : Prop where
  pos : ∀ ticketID, ∀ limit ∈ s.limit ticketID, 0 < limit
  unused : ∀ ticketID, s.limit ticketID = none → s.uses ticketID = none

theorem Sensible.set (hs : Sensible s) (ticketID : Str) {n : ℤ} (h : 0 < m) :
    Sensible ⟨s.uses.set ticketID n, s.limit.set ticketID m⟩ := by
  constructor
  · intro other limit hlimit
    by_cases hother : other = ticketID
    · subst hother
      obtain rfl : m = limit := by simpa using hlimit
      exact h
    · exact hs.pos other limit ((Map.set_of_ne s.limit hother m).symm.trans hlimit)
  · intro other hlimit
    by_cases hother : other = ticketID
    · subst hother
      simp at hlimit
    · refine (Map.set_of_ne s.uses hother n).trans (hs.unused other ?_)
      exact (Map.set_of_ne s.limit hother m).symm.trans hlimit

theorem consume_of_nonpos (s : TicketStore) (ticketID : Str) (h : maxUses ≤ 0) :
    s.consume ticketID maxUses = (s, .error (invalid "ticket max uses must be positive")) :=
  if_pos h

theorem consume_of_new (h : 0 < maxUses) (hlimit : s.limit ticketID = none)
    (huses : s.uses ticketID = none) :
    s.consume ticketID maxUses =
      (⟨s.uses.set ticketID 1, s.limit.set ticketID maxUses⟩, .ok ()) := by
  simp [TicketStore.consume, hlimit, huses, h.not_ge]

theorem consume_of_known (h : 0 < maxUses) (hlimit : s.limit ticketID = some limit) :
    s.consume ticketID maxUses =
      if limit ≤ (s.uses ticketID).getD 0 then
        (s, .error (invalid "pairing ticket already consumed"))
      else ({ s with uses := s.uses.set ticketID ((s.uses ticketID).getD 0 + 1) }, .ok ()) := by
  simp [TicketStore.consume, hlimit, h.not_ge]

/-- **A call of `consume` with a positive limit** does what the Relay does. -/
theorem consume_of_pos (hs : Sensible s) (ticketID : Str) (h : 0 < maxUses) :
    (s.consume ticketID maxUses).2.isOk = ((view s ticketID).use maxUses).isSome ∧
      view (s.consume ticketID maxUses).1 = used (view s) ticketID maxUses ∧
      Sensible (s.consume ticketID maxUses).1 := by
  cases hlimit : s.limit ticketID with
  | none =>
    have huses := hs.unused ticketID hlimit
    have hview : view s ticketID = ⟨0, 0⟩ := by rw [view, hlimit, huses]; rfl
    rw [consume_of_new h hlimit huses, used, hview, TicketState.use_new, if_pos h]
    exact ⟨rfl, view_set rfl rfl, hs.set ticketID h⟩
  | some limit =>
    have hpos : 0 < limit := hs.pos ticketID limit hlimit
    have hview : view s ticketID = ⟨limit, (s.uses ticketID).getD 0⟩ := by rw [view, hlimit]; rfl
    -- The limit is kept, which is to set it to what it is.
    have hkept : s.limit = s.limit.set ticketID limit := by
      funext other
      by_cases hother : other = ticketID
      · rw [hother, Map.set_self, hlimit]
      · rw [Map.set_of_ne _ hother]
    rw [consume_of_known h hlimit, used, hview, TicketState.use_of_pos hpos]
    by_cases hle : limit ≤ (s.uses ticketID).getD 0
    · rw [if_pos hle, if_neg hle.not_gt, Option.getD_none, ← hview, Function.update_eq_self]
      exact ⟨rfl, rfl, hs⟩
    · rw [if_neg hle, if_pos (not_le.mp hle)]
      refine ⟨rfl, view_set rfl hkept, ?_⟩
      have := hs.set ticketID (n := (s.uses ticketID).getD 0 + 1) hpos
      rwa [← hkept] at this

/-! ### Sequences of calls -/

/-- **Each call without a positive limit is for an idle ticket**: one that no earlier call has
told a positive limit of, or at least as many as the first of them says. -/
def LimitsGiven (calls : List (Str × ℤ)) : Prop :=
  ∀ before ticketID maxUses after, calls = before ++ (ticketID, maxUses) :: after →
    maxUses ≤ 0 → Idle (limits ticketID before)

/-- The same for calls that come after others. -/
def LimitsGivenAfter (told calls : List (Str × ℤ)) : Prop :=
  ∀ before ticketID maxUses after, calls = before ++ (ticketID, maxUses) :: after →
    maxUses ≤ 0 → Idle (limits ticketID (told ++ before))

theorem limitsGivenAfter_cons {told : List (Str × ℤ)} :
    LimitsGivenAfter told ((ticketID, maxUses) :: calls) ↔
      (maxUses ≤ 0 → Idle (limits ticketID told)) ∧
        LimitsGivenAfter (told ++ [(ticketID, maxUses)]) calls := by
  constructor
  · intro h
    refine ⟨fun hle => ?_, fun before other m after hcalls hle => ?_⟩
    · have := h [] ticketID maxUses calls rfl hle
      rwa [List.append_nil] at this
    · rw [List.append_assoc]
      exact h ((ticketID, maxUses) :: before) other m after (by rw [hcalls]; rfl) hle
  · rintro ⟨hhead, htail⟩ before other m after hcalls hle
    cases before with
    | nil =>
      obtain ⟨⟨rfl, rfl⟩, -⟩ : (ticketID = other ∧ maxUses = m) ∧ calls = after := by
        simpa using hcalls
      rw [List.append_nil]
      exact hhead hle
    | cons call before =>
      obtain ⟨rfl, rfl⟩ : (ticketID, maxUses) = call ∧ calls = before ++ (other, m) :: after := by
        simpa using hcalls
      have := htail before other m after rfl hle
      rwa [List.append_assoc] at this

theorem verdicts_cons {e : Env} {c' : Snapshot} {result : Except Error Unit}
    (h : (consumeTicket ticketID maxUses).play 0 e c = some (c', result)) :
    verdicts e c ((ticketID, maxUses) :: calls) =
      (verdicts e c' calls).map (result.isOk :: ·) := by
  rw [verdicts, h]
  rfl

theorem map_cons_eq_some_iff {o : Option (List Bool)} {b b' : Bool} {l : List Bool} :
    o.map (b :: ·) = some (b' :: l) ↔ b = b' ∧ o = some l := by
  cases o with
  | none => simp
  | some l' => simp

/-- **From counters that agree** with each other and with the calls so far, the two go on to
agree exactly if the limits are given. -/
theorem verdicts_eq_iff (e : Env) (told calls : List (Str × ℤ)) (hfree : c.state.mem.locked = false)
    (hs : Sensible s) (hc : Tallied told c.state.mem.ticket) (hview : Tallied told (view s)) :
    verdicts e c calls = some (s.verdicts calls) ↔ LimitsGivenAfter told calls := by
  induction calls generalizing told c s with
  | nil => exact ⟨fun _ before _ _ _ hnil => by simp at hnil, fun _ => rfl⟩
  | cons call calls ih =>
    obtain ⟨ticketID, maxUses⟩ := call
    obtain ⟨c', result, hplay, hok, hfree', hc'⟩ :=
      exists_play_consumeTicket e hfree ticketID maxUses
    rw [verdicts_cons hplay, TicketStore.verdicts, limitsGivenAfter_cons, map_cons_eq_some_iff,
      hok, hc ticketID]
    by_cases hpos : 0 < maxUses
    · obtain ⟨hok', hview', hs'⟩ := consume_of_pos hs ticketID hpos
      rw [hok', hview ticketID, ih _ hfree' hs' (hc' ▸ hc.snoc_of_pos hpos)
        (hview' ▸ hview.snoc_of_pos hpos)]
      simp only [true_and, hpos.not_ge, false_imp_iff]
    · have hle : maxUses ≤ 0 := not_lt.mp hpos
      have huse := tally_use_of_nonpos (pos_of_mem_limits ticketID told) hle
      rw [consume_of_nonpos s ticketID hle]
      by_cases hidle : Idle (limits ticketID told)
      · -- Both refuse the call, and keep what they have.
        rw [used_of_none (by rw [hc ticketID]; exact huse.mpr hidle)] at hc'
        rw [huse.mpr hidle, ih _ hfree' hs (hc' ▸ hc.snoc_of_nonpos ticketID hle)
          (hview.snoc_of_nonpos ticketID hle)]
        exact and_congr_left fun _ => iff_of_true rfl fun _ => hidle
      · -- The Relay accepts it, and the library does not.
        refine iff_of_false (fun h => ?_) fun h => hidle (h.1 hle)
        have hrefused : ((tally (limits ticketID told)).use maxUses).isSome = false := h.1
        rw [Option.isSome_eq_false_iff, Option.isNone_iff_eq_none] at hrefused
        exact hidle (huse.mp hrefused)

/-- **The Relay and the library agree** on a sequence of calls, from empty stores, exactly if each
call without a positive limit is for a ticket that is new or used up. -/
theorem counters_agree_iff (e : Env) (db : Database) (calls : List (Str × ℤ)) :
    verdicts e ⟨⟨Memory.new, db⟩, []⟩ calls = some (newTicketStore.verdicts calls) ↔
      LimitsGiven calls := by
  have hnew : Sensible newTicketStore :=
    ⟨fun _ _ h => by simp [newTicketStore] at h, fun _ _ => rfl⟩
  exact verdicts_eq_iff e [] calls rfl hnew (fun _ => rfl) fun _ => rfl

/-- **A ticket for two uses is used again without a limit**: the Relay counts the second use, and
the library refuses it. -/
theorem unlimited_use_differs : ∃ calls,
    verdicts (exampleEnv ⟨0, 0⟩) ⟨⟨Memory.new, emptyDatabase⟩, []⟩ calls = some [true, true] ∧
      newTicketStore.verdicts calls = [true, false] := by
  refine ⟨[(lit "t", 2), (lit "t", 0)], ?_, ?_⟩
  · decide +kernel
  · decide +kernel

end Relay

end Iscp
