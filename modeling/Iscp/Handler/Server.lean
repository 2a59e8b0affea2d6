import Iscp.Handler.Basic
import Iscp.Run

/-!
# Servers

A server starts a handler for each request and runs the sections of its handlers in any
order (`Iscp.Server.system`). The handlers of different requests know of each other only
through the shared state.

What the sections do to the state can be described without the handlers they belong to, by
effects on a configuration: the system of these effects (`Iscp.Server.effects`) has no
threads, and its steps are the entries of the record. If all handlers are safe for the
effects, then every run of the server is a run of the effects (`Iscp.Server.simulation`), and
what a handler asserts of its result holds when it is finished. An invariant of a server is
therefore proved once for each effect, not once for each place in a handler.

A condition on the steps of a run – that no clock runs backwards, that two sections do not
follow each other – is a condition on entries and the configurations they are made in; it
restricts the runs of the server and of the effects alike.
-/

namespace Iscp

namespace Server

variable {σ ε η ω ρ : Type}

/-- The shared state, the record, and what is left of the handler of each request. -/
structure World (σ ε η ω ρ : Type) where
  /-- The shared state. -/
  state : σ
  /-- The sections that have run. -/
  trace : List (Entry ε η)
  /-- The requests, and what is left of their handlers. -/
  threads : ℕ → Option (ρ × Handler σ ε η ω ω)

/-- The shared state with the record. -/
def World.config (w : World σ ε η ω ρ) : Config σ ε η := ⟨w.state, w.trace⟩

/-- What may happen: a request comes in, or the next section of a request is run. -/
inductive Action (ε ρ : Type) where
  | start (i : ℕ) (req : ρ)
  | run (i : ℕ) (e : ε)

/-- The request an action belongs to. -/
def Action.thread : Action ε ρ → ℕ
  | .start i _ | .run i _ => i

/-- The world in which section after section of request `i` is left to run. -/
def World.set (w : World σ ε η ω ρ) (i : ℕ) (req : ρ) (p : Handler σ ε η ω ω)
    (c : Config σ ε η) : World σ ε η ω ρ :=
  ⟨c.state, c.trace, Function.update w.threads i (some (req, p))⟩

/-- What an action makes of the world, if it is possible. -/
def World.next (handle : ρ → Handler σ ε η ω ω) (w : World σ ε η ω ρ) :
    Action ε ρ → Option (World σ ε η ω ρ)
  | .start i req => match w.threads i with
    | none => some (w.set i req (handle req) w.config)
    | some _ => none
  | .run i e => match w.threads i with
    | some (req, .atomic enabled update events next) =>
      if enabled w.state then
        some (w.set i req (next e w.state)
          ⟨update e w.state, w.trace ++ [⟨i, e, events e w.state⟩]⟩)
      else none
    | _ => none

/-- The entry an action adds to the record. -/
def World.entry (w : World σ ε η ω ρ) : Action ε ρ → Option (Entry ε η)
  | .start _ _ => none
  | .run i e => match w.threads i with
    | some (_, .atomic _ _ events _) => some ⟨i, e, events e w.state⟩
    | _ => none

/-- **The server**, with those runs only in which each section meets the condition. -/
def system (init : σ → Prop) (handle : ρ → Handler σ ε η ω ω)
    (C : Config σ ε η → Entry ε η → Prop) : System (World σ ε η ω ρ) (Action ε ρ) :=
  (System.ofNext (fun w => init w.state ∧ w.trace = [] ∧ w.threads = fun _ => none)
    (World.next handle)).restrict fun w a => ∀ x, w.entry a = some x → C w.config x

/-- **The effects of sections**, with those runs only in which each entry meets the
condition. -/
def effects (init : σ → Prop) (E : Config σ ε η → Entry ε η → σ → Prop)
    (C : Config σ ε η → Entry ε η → Prop) : System (Config σ ε η) (Entry ε η) where
  init := fun c => init c.state ∧ c.trace = []
  step := fun c x c' => C c x ∧ c'.trace = c.trace ++ [x] ∧ E c x c'.state

/-- No condition. -/
def always (_ : Config σ ε η) (_ : Entry ε η) : Prop := True

instance (c : Config σ ε η) (x : Entry ε η) : Decidable (always c x) :=
  inferInstanceAs (Decidable True)

variable {init : σ → Prop} {handle : ρ → Handler σ ε η ω ω} {C : Config σ ε η → Entry ε η → Prop}
  {E : Config σ ε η → Entry ε η → σ → Prop} {w w' : World σ ε η ω ρ}

/-! ### The steps of a server -/

@[simp] theorem World.config_set (w : World σ ε η ω ρ) (i : ℕ) (req : ρ)
    (p : Handler σ ε η ω ω) (c : Config σ ε η) : (w.set i req p c).config = c := rfl

@[simp] theorem World.trace_set (w : World σ ε η ω ρ) (i : ℕ) (req : ρ)
    (p : Handler σ ε η ω ω) (c : Config σ ε η) : (w.set i req p c).trace = c.trace := rfl

@[simp] theorem World.state_set (w : World σ ε η ω ρ) (i : ℕ) (req : ρ)
    (p : Handler σ ε η ω ω) (c : Config σ ε η) : (w.set i req p c).state = c.state := rfl

@[simp] theorem World.threads_set_self (w : World σ ε η ω ρ) (i : ℕ) (req : ρ)
    (p : Handler σ ε η ω ω) (c : Config σ ε η) :
    (w.set i req p c).threads i = some (req, p) := Function.update_self ..

variable {i : ℕ} {p : Handler σ ε η ω ω} {req : ρ} {a : Action ε ρ}
  {Q : ℕ → ρ → ω → List (Entry ε η) → Prop} {t₁ t₂ : List (Entry ε η)} {x : Entry ε η}
  {as : List (Action ε ρ)} {c c' : Config σ ε η}

theorem World.threads_set_of_ne (w : World σ ε η ω ρ) {j : ℕ} (hj : j ≠ i) (req : ρ)
    (p : Handler σ ε η ω ω) (c : Config σ ε η) :
    (w.set i req p c).threads j = w.threads j := Function.update_of_ne hj ..

theorem World.set_self (h : w.threads i = some (req, p)) : w.set i req p w.config = w := by
  rw [World.set, ← h, Function.update_eq_self]
  rfl

/-- **The steps, by what they do.** -/
theorem World.next_cases (h : w.next handle a = some w') :
    (∃ i req, a = .start i req ∧ w.threads i = none ∧
      w' = w.set i req (handle req) w.config) ∨
    ∃ i e req enabled update events next, a = .run i e ∧
      w.threads i = some (req, .atomic enabled update events next) ∧ enabled w.state = true ∧
      w' = w.set i req (next e w.state)
        ⟨update e w.state, w.trace ++ [⟨i, e, events e w.state⟩]⟩ := by
  cases a with
  | start i req =>
    simp only [next] at h
    split at h
    · next hnone => exact .inl ⟨i, req, rfl, hnone, (Option.some.inj h).symm⟩
    · cases h
  | run i e =>
    simp only [next] at h
    split at h
    · next req enabled update events next hthread =>
      split_ifs at h with hen
      exact .inr ⟨i, e, req, enabled, update, events, next, rfl, hthread, hen,
        (Option.some.inj h).symm⟩
    · cases h

theorem leads_run {enabled : σ → Bool} {update : ε → σ → σ} {events : ε → σ → List η}
    {next : ε → σ → Handler σ ε η ω ω}
    (hthread : w.threads i = some (req, .atomic enabled update events next))
    (hen : enabled w.state = true) {e : ε} (hC : C w.config ⟨i, e, events e w.state⟩) :
    (system init handle C).Leads w (w.set i req (next e w.state)
      ⟨update e w.state, w.trace ++ [⟨i, e, events e w.state⟩]⟩) := by
  refine .step .refl (a := .run i e) ⟨fun x hx => ?_, ?_⟩
  · simp only [World.entry, hthread, Option.some.injEq] at hx
    exact hx ▸ hC
  · show w.next handle (.run i e) = _
    simp only [World.next, hthread, hen, if_true]

/-! ### The requests of a server -/

/-- **Every request that has left an entry is known.** -/
theorem known (h : (system init handle C).Reachable w) :
    ∀ x ∈ w.trace, w.threads x.thread ≠ none := by
  induction h with
  | init hw =>
    intro x hx
    rw [hw.2.1] at hx
    cases hx
  | step _ hstep hknown =>
    intro x hx
    rcases World.next_cases hstep.2 with ⟨i, req, -, hnone, rfl⟩ |
      ⟨i, e, req, enabled, update, events, next, rfl, hthread, hen, rfl⟩
    · rcases eq_or_ne x.thread i with hi | hi
      · rw [hi, World.threads_set_self]
        exact Option.some_ne_none _
      · rw [World.threads_set_of_ne _ hi]
        exact hknown x hx
    · rcases eq_or_ne x.thread i with hi | hi
      · rw [hi, World.threads_set_self]
        exact Option.some_ne_none _
      · rw [World.threads_set_of_ne _ hi]
        rcases List.mem_append.mp hx with hx | hx
        · exact hknown x hx
        · rw [List.mem_singleton] at hx
          exact absurd (congrArg Entry.thread hx) hi

/-- A request that has started stays the request of its thread. -/
theorem threads_of_leads (h : (system init handle C).Leads w w')
    (hp : w.threads i = some (req, p)) : ∃ p', w'.threads i = some (req, p') := by
  refine h.keeps (Q := fun w => ∃ p, w.threads i = some (req, p)) ?_ ⟨p, hp⟩
  rintro w a w' ⟨p, hp⟩ hstep
  rcases World.next_cases hstep.2 with ⟨j, req', -, hnone, rfl⟩ |
    ⟨j, e, req', enabled, update, events, next, -, hthread, hen, rfl⟩
  · have hne : i ≠ j := by
      rintro rfl
      rw [hp] at hnone
      cases hnone
    exact ⟨p, by rw [World.threads_set_of_ne _ hne, hp]⟩
  · rcases eq_or_ne i j with rfl | hne
    · obtain ⟨rfl, -⟩ := Prod.mk.inj (Option.some.inj (hp.symm.trans hthread))
      exact ⟨_, World.threads_set_self ..⟩
    · exact ⟨p, by rw [World.threads_set_of_ne _ hne, hp]⟩

/-- **What is left of a safe handler is safe**, in every world of every run. A handler starts
with no entry of its own on record; its effects may depend on its request. -/
theorem safe_of_reachable {E : ρ → Config σ ε η → Entry ε η → σ → Prop}
    (hsafe : ∀ i req t, (∀ x ∈ t, x.thread ≠ i) →
      (handle req).Safe (E req) i (fun r t => Q i req r t) (fun r t => Q i req r t) t)
    (h : (system init handle C).Reachable w) : ∀ i req p, w.threads i = some (req, p) →
      p.Safe (E req) i (fun r t => Q i req r t) (fun r t => Q i req r t) w.trace := by
  induction h with
  | init hw =>
    intro i req p hp
    rw [hw.2.2] at hp
    cases hp
  | @step w w' a hw hstep hs =>
    intro j req' p hp
    rcases World.next_cases hstep.2 with ⟨i, req, -, hnone, rfl⟩ |
      ⟨i, e, req, enabled, update, events, next, rfl, hthread, hen, rfl⟩
    · rcases eq_or_ne j i with rfl | hj
      · rw [World.threads_set_self] at hp
        obtain ⟨rfl, rfl⟩ := Prod.mk.inj (Option.some.inj hp)
        refine hsafe j req w.trace fun x hx hxj => known hw x hx ?_
        rw [hxj, hnone]
      · rw [World.threads_set_of_ne _ hj] at hp
        exact hs j req' p hp
    · -- the handler of request `i` goes on, and the others see a longer record
      rcases eq_or_ne j i with rfl | hj
      · rw [World.threads_set_self] at hp
        obtain ⟨rfl, rfl⟩ := Prod.mk.inj (Option.some.inj hp)
        exact ((hs j req _ hthread).step e hen).2
      · rw [World.threads_set_of_ne _ hj] at hp
        exact (hs j req' p hp).extend (List.prefix_append _ _)

/-- **A run, taken apart at an entry**: the section that made the entry, the run before it and
the run after it. -/
theorem system_split (h : (system init handle C).Reachable w) (ht : w.trace = t₁ ++ x :: t₂) :
    ∃ w₁ req enabled update events next, (system init handle C).Reachable w₁ ∧
      w₁.trace = t₁ ∧ w₁.threads x.thread = some (req, .atomic enabled update events next) ∧
      enabled w₁.state = true ∧ C w₁.config x ∧ x.events = events x.env w₁.state ∧
      (system init handle C).Leads (w₁.set x.thread req (next x.env w₁.state)
        ⟨update x.env w₁.state, t₁ ++ [x]⟩) w := by
  induction h generalizing t₂ with
  | init hinit =>
    rw [hinit.2.1] at ht
    exact absurd ht.symm (by simp)
  | @step w w' a hw hstep ih =>
    rcases World.next_cases hstep.2 with ⟨i, req, -, -, rfl⟩ |
      ⟨i, e, req, enabled, update, events, next, rfl, hthread, hen, rfl⟩
    · obtain ⟨w₁, req', enabled, update, events, next, hw₁, htrace, hthread, hen, hC, hx,
        hleads⟩ := ih ht
      exact ⟨w₁, req', enabled, update, events, next, hw₁, htrace, hthread, hen, hC, hx,
        hleads.step hstep⟩
    · rcases snoc_eq_split.mp ht with ⟨rfl, rfl, rfl⟩ | ⟨t₂', rfl, ht'⟩
      · exact ⟨w, req, enabled, update, events, next, hw, rfl, hthread, hen,
          hstep.1 _ (by simp [World.entry, hthread]), rfl, .refl⟩
      · obtain ⟨w₁, req', enabled, update, events, next, hw₁, htrace, hthread, hen, hC, hx,
          hleads⟩ := ih ht'
        exact ⟨w₁, req', enabled, update, events, next, hw₁, htrace, hthread, hen, hC, hx,
          hleads.step hstep⟩

/-- A step meets another condition, if the entry it adds to the record does. -/
theorem step_of_trace {C' : Config σ ε η → Entry ε η → Prop} {a : Action ε ρ}
    (h : (system init handle C).step w a w') (hC' : ∀ c x, c.trace ++ [x] <+: w'.trace → C' c x) :
    (system init handle C').step w a w' ∧ w.trace <+: w'.trace := by
  have hnext := h.2
  rcases World.next_cases hnext with ⟨i, req, rfl, -, rfl⟩ |
    ⟨i, e, req, enabled, update, events, next, rfl, hthread, -, rfl⟩
  · exact ⟨⟨fun _ hx => (Option.some_ne_none _ hx.symm).elim, hnext⟩, List.prefix_refl _⟩
  · refine ⟨⟨fun x hx => ?_, hnext⟩, List.prefix_append _ _⟩
    simp only [World.entry, hthread, Option.some.injEq] at hx
    subst hx
    exact hC' _ _ (List.prefix_refl _)

/-- **Another condition on the runs**, which the entries of the record meet anyway. -/
theorem leads_of_trace {C' : Config σ ε η → Entry ε η → Prop}
    (h : (system init handle C).Leads w w')
    (hC' : ∀ c x, c.trace ++ [x] <+: w'.trace → C' c x) : (system init handle C').Leads w w' := by
  induction h with
  | refl => exact .refl
  | step _ hstep ih =>
    obtain ⟨hstep', hpre⟩ := step_of_trace hstep hC'
    exact (ih fun c x hx => hC' c x (hx.trans hpre)).step hstep'

theorem reachable_of_trace {C' : Config σ ε η → Entry ε η → Prop}
    (h : (system init handle C).Reachable w)
    (hC' : ∀ c x, c.trace ++ [x] <+: w.trace → C' c x) :
    (system init handle C').Reachable w := by
  induction h with
  | init hw => exact .init hw
  | step _ hstep ih =>
    obtain ⟨hstep', hpre⟩ := step_of_trace hstep hC'
    exact (ih fun c x hx => hC' c x (hx.trans hpre)).step hstep'

/-- What an action makes of the world, if it is possible and its section meets the condition. -/
def World.nextIf (handle : ρ → Handler σ ε η ω ω) (C : Config σ ε η → Entry ε η → Prop)
    [∀ c x, Decidable (C c x)] (w : World σ ε η ω ρ) (a : Action ε ρ) :
    Option (World σ ε η ω ρ) :=
  if ∀ x ∈ w.entry a, C w.config x then w.next handle a else none

/-- **Actions that are evaluated** are a run of the server. -/
theorem leads_of_foldlM [∀ c x, Decidable (C c x)]
    (h : as.foldlM (World.nextIf handle C) w = some w') : (system init handle C).Leads w w' := by
  induction as generalizing w with
  | nil =>
    cases h
    exact .refl
  | cons a as ih =>
    rw [List.foldlM_cons] at h
    obtain ⟨u, hu, hrest⟩ := Option.bind_eq_some_iff.mp h
    rw [World.nextIf] at hu
    split_ifs at hu with hC
    exact .head ⟨fun x hx => hC x hx, hu⟩ (ih hrest)

theorem World.threads_next (h : w.next handle a = some w') (hi : a.thread ≠ i) :
    w'.threads i = w.threads i := by
  rcases World.next_cases h with ⟨j, req, rfl, -, rfl⟩ |
    ⟨j, e, req, enabled, update, events, next, rfl, -, -, rfl⟩
  · exact World.threads_set_of_ne _ (Ne.symm hi) ..
  · exact World.threads_set_of_ne _ (Ne.symm hi) ..

theorem threads_of_foldlM [∀ c x, Decidable (C c x)]
    (h : as.foldlM (World.nextIf handle C) w = some w') (hi : ∀ a ∈ as, a.thread ≠ i) :
    w'.threads i = w.threads i := by
  induction as generalizing w with
  | nil =>
    cases h
    rfl
  | cons a as ih =>
    rw [List.foldlM_cons] at h
    obtain ⟨u, hu, hrest⟩ := Option.bind_eq_some_iff.mp h
    obtain ⟨ha, has⟩ := List.forall_mem_cons.mp hi
    rw [World.nextIf] at hu
    split_ifs at hu
    rw [ih hrest has, World.threads_next hu ha]

/-- **Every section of every run has the effects of its request.** -/
def HasEffects (init : σ → Prop) (handle : ρ → Handler σ ε η ω ω)
    (C : Config σ ε η → Entry ε η → Prop) (E : ρ → Config σ ε η → Entry ε η → σ → Prop) : Prop :=
  ∀ ⦃w⦄, (system init handle C).Reachable w → ∀ ⦃i req enabled update events next⦄,
    w.threads i = some (req, .atomic enabled update events next) → enabled w.state = true →
      ∀ e, E req w.config ⟨i, e, events e w.state⟩ (update e w.state)

theorem hasEffects_of_safe {E : ρ → Config σ ε η → Entry ε η → σ → Prop}
    (hsafe : ∀ i req t, (∀ x ∈ t, x.thread ≠ i) →
      (handle req).Safe (E req) i (fun r t => Q i req r t) (fun r t => Q i req r t) t) :
    HasEffects init handle C E :=
  fun _ hw _ req _ _ _ _ hthread hen e =>
    ((safe_of_reachable hsafe hw _ req _ hthread).step e hen).1

theorem HasEffects.and {E E' : ρ → Config σ ε η → Entry ε η → σ → Prop}
    (hE : HasEffects init handle C E) (hE' : HasEffects init handle C E') :
    HasEffects init handle C fun req c x s => E req c x s ∧ E' req c x s :=
  fun _ hw _ _ _ _ _ _ hthread hen e => ⟨hE hw hthread hen e, hE' hw hthread hen e⟩

/-- **The effect of an entry**, in the world in which it was made. -/
theorem HasEffects.of_split {E : ρ → Config σ ε η → Entry ε η → σ → Prop}
    (hE : HasEffects init handle C E) (h : (system init handle C).Reachable w)
    (ht : w.trace = t₁ ++ x :: t₂) :
    ∃ w₁ w₂ req p, (system init handle C).Reachable w₁ ∧ w₁.trace = t₁ ∧ C w₁.config x ∧
      E req w₁.config x w₂.state ∧ (system init handle C).Reachable w₂ ∧
      w₂.trace = t₁ ++ [x] ∧ (system init handle C).Leads w₂ w ∧
      w.threads x.thread = some (req, p) := by
  obtain ⟨w₁, req, enabled, update, events, next, hw₁, rfl, hthread, hen, hC, hx, hleads⟩ :=
    system_split h ht
  have heffect := hE hw₁ hthread hen x.env
  obtain ⟨p, hp⟩ := threads_of_leads hleads (World.threads_set_self ..)
  have hentry : (⟨x.thread, x.env, events x.env w₁.state⟩ : Entry ε η) = x := by rw [← hx]
  have hrun : (system init handle C).Leads w₁ _ := leads_run hthread hen (e := x.env)
    (by rw [hentry]; exact hC)
  rw [hentry] at heffect hrun
  exact ⟨w₁, w₁.set x.thread req (next x.env w₁.state) ⟨update x.env w₁.state, w₁.trace ++ [x]⟩,
    req, p, hw₁, rfl, hC, heffect, hrun.reachable hw₁, rfl, hleads, hp⟩

theorem HasEffects.of_step {E : ρ → Config σ ε η → Entry ε η → σ → Prop}
    (hE : HasEffects init handle C E) (hw : (system init handle C).Reachable w)
    (h : (system init handle C).step w a w') :
    w'.config = w.config ∨ ∃ req x, C w.config x ∧ E req w.config x w'.state ∧
      w'.trace = w.trace ++ [x] := by
  rcases World.next_cases h.2 with ⟨i, req, -, -, rfl⟩ |
    ⟨i, e, req, enabled, update, events, next, rfl, hthread, hen, rfl⟩
  · exact .inl rfl
  · exact .inr ⟨req, _, h.1 _ (by simp [World.entry, hthread]), hE hw hthread hen e, rfl⟩

/-- **The rule for an invariant** that every effect keeps. -/
theorem HasEffects.invariant {E : ρ → Config σ ε η → Entry ε η → σ → Prop}
    (hE : HasEffects init handle C E) {I : Config σ ε η → Prop} (hinit : ∀ s, init s → I ⟨s, []⟩)
    (hstep : ∀ req c x s, I c → C c x → E req c x s → I ⟨s, c.trace ++ [x]⟩)
    (h : (system init handle C).Reachable w) : I w.config := by
  induction h with
  | @init w hw =>
    obtain ⟨hs, htrace, -⟩ := hw
    rw [World.config, htrace]
    exact hinit w.state hs
  | @step w w' a hw hstep' ih =>
    rcases hE.of_step hw hstep' with hsame | ⟨req, x, hC, hx, htrace⟩
    · rwa [hsame]
    · rw [World.config, htrace]
      exact hstep req w.config x w'.state ih hC hx

/-! ### The simulation -/

/-- **What holds in every world of a server with safe handlers**: the configuration is one of
the effects, every request that has left an entry is on record, and every handler is still
safe. -/
structure World.Sound (init : σ → Prop) (E : Config σ ε η → Entry ε η → σ → Prop)
    (C : Config σ ε η → Entry ε η → Prop) (Q : ℕ → ρ → ω → List (Entry ε η) → Prop)
    (w : World σ ε η ω ρ) : Prop where
  reachable : (effects init E C).Reachable w.config
  known : ∀ x ∈ w.trace, w.threads x.thread ≠ none
  safe : ∀ i req p, w.threads i = some (req, p) →
    p.Safe E i (fun r t => Q i req r t) (fun r t => Q i req r t) w.trace

/-- **The simulation**: if all handlers are safe for the effects, a run of the server is a run
of the effects. -/
theorem simulation
    (hsafe : ∀ i req t, (∀ x ∈ t, x.thread ≠ i) →
      (handle req).Safe E i (fun r t => Q i req r t) (fun r t => Q i req r t) t)
    (h : (system init handle C).Reachable w) : w.Sound init E C Q := by
  have hsafe' : ∀ {w : World σ ε η ω ρ}, (system init handle C).Reachable w →
      ∀ i req p, w.threads i = some (req, p) →
        p.Safe E i (fun r t => Q i req r t) (fun r t => Q i req r t) w.trace :=
    fun hw => safe_of_reachable (E := fun _ => E) hsafe hw
  refine ⟨?_, known h, hsafe' h⟩
  induction h with
  | init hw => exact .init ⟨hw.1, hw.2.1⟩
  | step hw hstep hs =>
    rcases World.next_cases hstep.2 with ⟨i, req, -, -, rfl⟩ |
      ⟨i, e, req, enabled, update, events, next, rfl, hthread, hen, rfl⟩
    · exact hs
    · obtain ⟨hE, -⟩ := (hsafe' hw i req _ hthread).step e hen
      exact hs.step ⟨hstep.1 _ (by simp [World.entry, hthread]), rfl, hE⟩

theorem World.Sound.result (hs : w.Sound init E C Q) {r : ω}
    (h : w.threads i = some (req, .done r) ∨ w.threads i = some (req, .stop r)) :
    Q i req r w.trace := by
  rcases h with h | h
  · exact (hs.safe i req _ h).result
  · exact (hs.safe i req _ h).returned

theorem World.Sound.step (hs : w.Sound init E C Q) (h : (system init handle C).step w a w') :
    w'.config = w.config ∨ ∃ x, (effects init E C).step w.config x w'.config := by
  obtain ⟨hC, hnext⟩ := h
  rcases World.next_cases hnext with ⟨i, req, -, -, rfl⟩ |
    ⟨i, e, req, enabled, update, events, next, rfl, hthread, hen, rfl⟩
  · exact .inl rfl
  · obtain ⟨hE, -⟩ := (hs.safe i req _ hthread).step e hen
    exact .inr ⟨_, hC _ (by simp [World.entry, hthread]), rfl, hE⟩

/-- **What follows in a run of the server follows in the run of the effects.** -/
theorem simulation_leads (hsound : ∀ w, (system init handle C).Reachable w → w.Sound init E C Q)
    (hw : (system init handle C).Reachable w) (h : (system init handle C).Leads w w') :
    (effects init E C).Leads w.config w'.config := by
  refine h.stable (Q := fun w' => (effects init E C).Leads w.config w'.config)
    (fun w₁ a w₂ hw₁ hl hstep => ?_) hw .refl
  rcases (hsound w₁ hw₁).step hstep with hsame | ⟨x, hstep'⟩
  · rwa [hsame]
  · exact hl.step hstep'

/-- **A run of effects, taken apart at an entry**: the step that made the entry, from the run
before it. -/
theorem effects_split (h : (effects init E C).Reachable c) (ht : c.trace = t₁ ++ x :: t₂) :
    ∃ c₁ c₂, (effects init E C).Reachable c₁ ∧ c₁.trace = t₁ ∧ C c₁ x ∧ E c₁ x c₂.state ∧
      (effects init E C).Reachable c₂ ∧ c₂.trace = t₁ ++ [x] := by
  induction h generalizing t₂ with
  | init hinit =>
    rw [hinit.2] at ht
    exact absurd ht.symm (by simp)
  | @step c c' y hc hstep ih =>
    obtain ⟨hC, htrace, hE⟩ := hstep
    rcases snoc_eq_split.mp (htrace.symm.trans ht) with ⟨rfl, rfl, rfl⟩ | ⟨t₂', rfl, ht'⟩
    · exact ⟨c, c', hc, rfl, hC, hE, hc.step ⟨hC, htrace, hE⟩, htrace⟩
    · exact ih ht'

theorem effects_extend (h : (effects init E C).Leads c c') : ∃ t, c'.trace = c.trace ++ t := by
  induction h with
  | refl => exact ⟨[], (List.append_nil _).symm⟩
  | step _ hstep ih =>
    obtain ⟨t, ht⟩ := ih
    exact ⟨_, by rw [hstep.2.1, ht, List.append_assoc]⟩

theorem effects_head (h : (effects init E C).Leads c c') {t : List (Entry ε η)}
    (ht : c'.trace = c.trace ++ x :: t) :
    ∃ c₁, (effects init E C).step c x c₁ ∧ (effects init E C).Leads c₁ c' := by
  rcases h.cases_head with rfl | ⟨y, c₁, hstep, hleads⟩
  · exact absurd ht (by simp)
  · obtain ⟨t', ht'⟩ := effects_extend hleads
    rw [ht', hstep.2.1, List.append_assoc, List.append_cancel_left_eq] at ht
    obtain ⟨rfl, -⟩ := List.cons.inj ht
    exact ⟨c₁, hstep, hleads⟩

end Server

end Iscp
