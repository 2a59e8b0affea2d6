import Iscp.Go.Result
import Mathlib.Data.List.Infix

/-!
# Handlers

Code that serves requests side by side over a shared state. Such code runs in **sections**:
a section is undivided, but between two sections of one handler there may be sections of
others. What a section reads beside the shared state – the clock, random bytes, whether a
database statement fails – is given to it by the environment, and what it does that a
statement about runs may want to speak of it records as events.

`Iscp.Handler` is the syntax of such code, as a monad: `done` is a result, `stop` an early
return. Three things are said about it here. `Iscp.Handler.play` runs it alone, in an
unchanging environment. `Iscp.Handler.Runs` says what some of its sections run alone lead to.
`Iscp.Handler.Safe` says what it does in company: whatever the others have done to the state
in between, each of its sections has one of the given effects. A handler knows of the past
only what is on record, so its assertions are about the record, which never shrinks.
-/

namespace Iscp

/-- **A handler** over the states `σ`, with environments `ε`, events `η`, early returns `ω`
and results `α`. A section is passed over while it is not enabled. -/
inductive Handler (σ ε η ω α : Type) : Type where
  | done (a : α)
  | stop (r : ω)
  | atomic (enabled : σ → Bool) (update : ε → σ → σ) (events : ε → σ → List η)
      (next : ε → σ → Handler σ ε η ω α)

/-- What is recorded of a section: whose it was, its environment, and its events. -/
structure Entry (ε η : Type) where
  /-- The number of the request. -/
  thread : ℕ
  /-- What the environment gave the section. -/
  env : ε
  /-- What the section did. -/
  events : List η

/-- A shared state with the record of how it came about. -/
structure Config (σ ε η : Type) where
  /-- The shared state. -/
  state : σ
  /-- The sections that have run. -/
  trace : List (Entry ε η)

/-- **An event is on record**, in a section of request `i`. -/
def Did {ε η : Type} (t : List (Entry ε η)) (i : ℕ) (v : η) : Prop :=
  ∃ x ∈ t, x.thread = i ∧ v ∈ x.events

instance {ε η : Type} [DecidableEq η] (t : List (Entry ε η)) (i : ℕ) (v : η) :
    Decidable (Did t i v) := inferInstanceAs (Decidable (∃ x ∈ t, _ ∧ _))

variable {ε η : Type} {i : ℕ}

theorem Did.extend {t t' : List (Entry ε η)} {v : η} (h : Did t i v) (ht : t <+: t') :
    Did t' i v := by
  obtain ⟨x, hx, hi, hv⟩ := h
  exact ⟨x, ht.subset hx, hi, hv⟩

theorem did_of_snoc {t t' : List (Entry ε η)} {x : Entry ε η} {v : η} (ht : t ++ [x] <+: t')
    (hv : v ∈ x.events) : Did t' x.thread v :=
  ⟨x, ht.subset (by simp), rfl, hv⟩

theorem did_snoc {t : List (Entry ε η)} {x : Entry ε η} {v : η} :
    Did (t ++ [x]) i v ↔ Did t i v ∨ (x.thread = i ∧ v ∈ x.events) := by
  simp only [Did, List.mem_append, List.mem_singleton, or_and_right, exists_or, exists_eq_left]

theorem snoc_eq_split {t t₁ t₂ : List (Entry ε η)} {x z : Entry ε η} :
    t ++ [x] = t₁ ++ z :: t₂ ↔ (t = t₁ ∧ x = z ∧ t₂ = []) ∨
      ∃ t₂', t₂ = t₂' ++ [x] ∧ t = t₁ ++ z :: t₂' := by
  rcases List.eq_nil_or_concat' t₂ with rfl | ⟨t₂', y, rfl⟩
  · simp [and_comm]
  · have hsplit : t₁ ++ z :: (t₂' ++ [y]) = (t₁ ++ z :: t₂') ++ [y] := by simp
    simp only [hsplit, List.append_singleton_inj, List.append_eq_nil_iff, List.cons_ne_nil,
      and_false, false_or]
    constructor
    · rintro ⟨rfl, rfl⟩
      exact ⟨t₂', ⟨rfl, rfl⟩, rfl⟩
    · rintro ⟨t₃, ⟨rfl, rfl⟩, rfl⟩
      exact ⟨rfl, rfl⟩

theorem rel_of_pairwise {R : Entry ε η → Entry ε η → Prop} {t t' : List (Entry ε η)}
    {x y : Entry ε η} (h : t'.Pairwise R) (ht : t ++ [x] <+: t') (hy : y ∈ t) : R y x :=
  (List.pairwise_append.mp (h.sublist ht.sublist)).2.2 y hy x (List.mem_singleton_self x)

namespace Handler

variable {σ ε η ω ω' α β : Type}

/-! ### Code -/

/-- One handler after the other. -/
def bind : Handler σ ε η ω α → (α → Handler σ ε η ω β) → Handler σ ε η ω β
  | done a, f => f a
  | stop r, _ => stop r
  | atomic enabled update events next, f =>
    atomic enabled update events fun e s => (next e s).bind f

instance : Monad (Handler σ ε η ω) where
  pure := done
  bind := bind

/-- Another form of the early returns. -/
def mapStop (g : ω → ω') : Handler σ ε η ω α → Handler σ ε η ω' α
  | done a => done a
  | stop r => stop (g r)
  | atomic enabled update events next =>
    atomic enabled update events fun e s => (next e s).mapStop g

/-- What becomes of a handler, whether or not it returns early. -/
def outcome : Handler σ ε η ω α → Handler σ ε η ω' (Except ω α)
  | done a => done (.ok a)
  | stop r => done (.error r)
  | atomic enabled update events next =>
    atomic enabled update events fun e s => (next e s).outcome

/-- **A section that may return early**: it leaves another state, its result and its events, or
it changes nothing and returns. -/
def attempt (enabled : σ → Bool) (f : ε → σ → Except ω (σ × α × List η)) : Handler σ ε η ω α :=
  atomic enabled (fun e s => (f e s).toOption.elim s Prod.fst)
    (fun e s => (f e s).toOption.elim [] fun r => r.2.2)
    fun e s => match f e s with
      | .ok r => done r.2.1
      | .error r => stop r

/-- A section that looks at the state. -/
def look (enabled : σ → Bool) (f : ε → σ → α) : Handler σ ε η ω α :=
  atomic enabled (fun _ s => s) (fun _ _ => []) fun e s => done (f e s)

/-- A section that only goes on record. -/
def note (events : List η) : Handler σ ε η ω Unit :=
  atomic (fun _ => true) (fun _ s => s) (fun _ _ => events) fun _ _ => done ()

/-- A section that looks at what it is given only. -/
def ask (f : ε → α) : Handler σ ε η ω α := look (fun _ => true) fun e _ => f e

/-- The result of a computation that may fail. -/
def ofExcept : Except ω α → Handler σ ε η ω α
  | .ok a => done a
  | .error r => stop r

/-- An early return, if the condition holds. -/
def stopIf (c : Prop) [Decidable c] (r : ω) : Handler σ ε η ω Unit :=
  if c then stop r else done ()

@[simp] theorem pure_eq (a : α) : (pure a : Handler σ ε η ω α) = done a := rfl

@[simp] theorem done_bind (a : α) (f : α → Handler σ ε η ω β) : done a >>= f = f a := rfl

@[simp] theorem stop_bind (r : ω) (f : α → Handler σ ε η ω β) : stop r >>= f = stop r := rfl

@[simp] theorem atomic_bind (enabled : σ → Bool) (update : ε → σ → σ) (events : ε → σ → List η)
    (next : ε → σ → Handler σ ε η ω α) (f : α → Handler σ ε η ω β) :
    atomic enabled update events next >>= f =
      atomic enabled update events fun e s => next e s >>= f := rfl

@[simp] theorem mapStop_done (g : ω → ω') (a : α) :
    (done a : Handler σ ε η ω α).mapStop g = done a := rfl

@[simp] theorem mapStop_stop (g : ω → ω') (r : ω) :
    (stop r : Handler σ ε η ω α).mapStop g = stop (g r) := rfl

@[simp] theorem mapStop_atomic (g : ω → ω') (enabled : σ → Bool) (update : ε → σ → σ)
    (events : ε → σ → List η) (next : ε → σ → Handler σ ε η ω α) :
    (atomic enabled update events next).mapStop g =
      atomic enabled update events fun e s => (next e s).mapStop g := rfl

/-! ### Running a handler alone -/

/-- **A handler run alone** to its end, in an environment that stays as it is. -/
def play (i : ℕ) (e : ε) : Handler σ ε η ω α → Config σ ε η → Option (Config σ ε η × Except ω α)
  | done a, c => some (c, .ok a)
  | stop r, c => some (c, .error r)
  | atomic enabled update events next, c =>
    if enabled c.state then
      play i e (next e c.state) ⟨update e c.state, c.trace ++ [⟨i, e, events e c.state⟩]⟩
    else none

variable {enabled : σ → Bool} {f : ε → σ → Except ω (σ × α × List η)} {events : List η} {a : α}
  {s : σ} {c : Config σ ε η} {e : ε} {r : ω} {p : Handler σ ε η ω α} {g : ω → ω'}
  {next : ε → σ → Handler σ ε η ω α} {update : ε → σ → σ} {x : Except ω α}

theorem play_attempt_ok (hen : enabled c.state = true) (h : f e c.state = .ok (s, a, events)) :
    (attempt enabled f).play i e c = some (⟨s, c.trace ++ [⟨i, e, events⟩]⟩, .ok a) := by
  simp only [attempt, play, hen, if_true, h]
  rfl

theorem play_attempt_error (hen : enabled c.state = true) (h : f e c.state = .error r) :
    (attempt enabled f).play i e c = some (⟨c.state, c.trace ++ [⟨i, e, []⟩]⟩, .error r) := by
  simp only [attempt, play, hen, if_true, h]
  rfl

/-- **The answer of a handler** that is run alone. -/
def answer (e : ε) (p : Handler σ ε η ω α) (s : σ) : Option (Except ω α) :=
  (p.play 0 e ⟨s, []⟩).map Prod.snd

theorem answer_attempt :
    (attempt (fun _ => true) f).answer e s = some ((f e s).map fun r => r.2.1) := by
  simp only [answer, attempt, play, if_true]
  cases f e s <;> rfl

/-- **Some sections of a handler run alone**, each in an environment of its own: what is left
of the handler, and the configuration. Each section meets the condition. -/
inductive Runs (C : Config σ ε η → Entry ε η → Prop) (i : ℕ) :
    Handler σ ε η ω α → Config σ ε η → Handler σ ε η ω α → Config σ ε η → Prop where
  | refl {p : Handler σ ε η ω α} {c : Config σ ε η} : Runs C i p c p c
  | step {enabled : σ → Bool} {update : ε → σ → σ} {events : ε → σ → List η}
      {next : ε → σ → Handler σ ε η ω α} {c c' : Config σ ε η} {p' : Handler σ ε η ω α} (e : ε)
      (hen : enabled c.state = true) (hC : C c ⟨i, e, events e c.state⟩)
      (h : Runs C i (next e c.state)
        ⟨update e c.state, c.trace ++ [⟨i, e, events e c.state⟩]⟩ p' c') :
      Runs C i (atomic enabled update events next) c p' c'

section Runs

variable {C : Config σ ε η → Entry ε η → Prop} {i : ℕ} {c c' c'' : Config σ ε η}
  {p p' : Handler σ ε η ω α} {f : α → Handler σ ε η ω β}

theorem Runs.seq {q : Handler σ ε η ω β} (h : Runs C i p c (done a) c')
    (h' : Runs C i (f a) c' q c'') : Runs C i (p >>= f) c q c'' := by
  generalize hp : done a = p' at h
  induction h with
  | refl =>
    subst hp
    exact h'
  | step e hen hC _ ih => exact .step e hen hC (ih h' hp)

theorem Runs.trace_prefix (h : Runs C i p c p' c') : c.trace <+: c'.trace := by
  induction h with
  | refl => exact List.prefix_refl _
  | step _ _ _ _ ih => exact (List.prefix_append _ _).trans ih

theorem Runs.of_trace {C' : Config σ ε η → Entry ε η → Prop} (h : Runs C i p c p' c')
    (hC : ∀ c₁ x, c.trace <+: c₁.trace → c₁.trace ++ [x] <+: c'.trace → C' c₁ x) :
    Runs C' i p c p' c' := by
  induction h with
  | refl => exact .refl
  | step e hen hx hrest ih =>
    exact .step e hen (hC _ _ (List.prefix_refl _) hrest.trace_prefix)
      (ih fun c₁ x ht => hC c₁ x ((List.prefix_append _ _).trans ht))

theorem runs_attempt {f : ε → σ → Except ω (σ × α × List η)} (e : ε) (hen : enabled c.state = true)
    (h : f e c.state = .ok (s, a, events)) (hC : C c ⟨i, e, events⟩) :
    Runs C i (attempt enabled f) c (done a) ⟨s, c.trace ++ [⟨i, e, events⟩]⟩ := by
  refine .step e hen ?_ ?_
  · rw [h]
    exact hC
  · rw [h]
    exact .refl

theorem runs_stopIf {d : Prop} [Decidable d] (h : ¬d) :
    Runs C i (stopIf d r : Handler σ ε η ω Unit) c (done ()) c := by
  rw [stopIf, if_neg h]
  exact .refl

end Runs

/-! ### What a handler does in company -/

/-- **The handler of request `i` is safe** from a record on: each of its sections, whatever
state it meets and however the record has grown, has an effect `E` allows; its result and its
early returns are as asserted. -/
def Safe (E : Config σ ε η → Entry ε η → σ → Prop) (i : ℕ)
    (Q : α → List (Entry ε η) → Prop) (X : ω → List (Entry ε η) → Prop) :
    Handler σ ε η ω α → List (Entry ε η) → Prop
  | done a, t => ∀ t', t <+: t' → Q a t'
  | stop r, t => ∀ t', t <+: t' → X r t'
  | atomic enabled update events next, t => ∀ (s : σ) (t' : List (Entry ε η)) (e : ε),
      t <+: t' → enabled s = true →
        E ⟨s, t'⟩ ⟨i, e, events e s⟩ (update e s) ∧
          Safe E i Q X (next e s) (t' ++ [⟨i, e, events e s⟩])

variable {E : Config σ ε η → Entry ε η → σ → Prop} {i : ℕ}
  {Q Q' : α → List (Entry ε η) → Prop} {X X' : ω → List (Entry ε η) → Prop}
  {t t' : List (Entry ε η)}

theorem Safe.extend (h : p.Safe E i Q X t) (ht : t <+: t') : p.Safe E i Q X t' := by
  cases p with
  | done a => exact fun t'' h' => h t'' (ht.trans h')
  | stop r => exact fun t'' h' => h t'' (ht.trans h')
  | atomic enabled update events next => exact fun s t'' e h' => h s t'' e (ht.trans h')

theorem Safe.mono (h : p.Safe E i Q X t) (hQ : ∀ a t', t <+: t' → Q a t' → Q' a t')
    (hX : ∀ r t', t <+: t' → X r t' → X' r t') : p.Safe E i Q' X' t := by
  induction p generalizing t with
  | done a => exact fun t' ht => hQ a t' ht (h t' ht)
  | stop r => exact fun t' ht => hX r t' ht (h t' ht)
  | atomic enabled update events next ih =>
    intro s t' e ht hs
    have htrans : t <+: t' ++ [⟨i, e, events e s⟩] := ht.trans (List.prefix_append _ _)
    exact ⟨(h s t' e ht hs).1, ih e s (h s t' e ht hs).2
      (fun a t'' h' => hQ a t'' (htrans.trans h')) fun r t'' h' => hX r t'' (htrans.trans h')⟩

/-- **The rule for one handler after the other.** -/
theorem Safe.bind {f : α → Handler σ ε η ω β} {Q : β → List (Entry ε η) → Prop}
    (h : p.Safe E i (fun a t => (f a).Safe E i Q X t) X t) : (p >>= f).Safe E i Q X t := by
  induction p generalizing t with
  | done a => exact h t (List.prefix_refl t)
  | stop r => exact h
  | atomic enabled update events next ih =>
    exact fun s t' e ht hs => ⟨(h s t' e ht hs).1, ih e s (h s t' e ht hs).2⟩

theorem Safe.mapStop {X : ω' → List (Entry ε η) → Prop}
    (h : p.Safe E i Q (fun r t => X (g r) t) t) : (p.mapStop g).Safe E i Q X t := by
  induction p generalizing t with
  | done a => exact h
  | stop r => exact h
  | atomic enabled update events next ih =>
    exact fun s t' e ht hs => ⟨(h s t' e ht hs).1, ih e s (h s t' e ht hs).2⟩

theorem Safe.outcome {Q : Except ω α → List (Entry ε η) → Prop} {X : ω' → List (Entry ε η) → Prop}
    (h : p.Safe E i (fun a t => Q (.ok a) t) (fun r t => Q (.error r) t) t) :
    (p.outcome : Handler σ ε η ω' _).Safe E i Q X t := by
  induction p generalizing t with
  | done a => exact h
  | stop r => exact h
  | atomic enabled update events next ih =>
    exact fun s t' e ht hs => ⟨(h s t' e ht hs).1, ih e s (h s t' e ht hs).2⟩

theorem Safe.step {events : ε → σ → List η} (h : (atomic enabled update events next).Safe E i Q X t)
    (e : ε) (hs : enabled s = true) :
    E ⟨s, t⟩ ⟨i, e, events e s⟩ (update e s) ∧
      (next e s).Safe E i Q X (t ++ [⟨i, e, events e s⟩]) :=
  h s t e (List.prefix_refl t) hs

theorem Safe.result (h : (done a : Handler σ ε η ω α).Safe E i Q X t) : Q a t :=
  h t (List.prefix_refl t)

theorem Safe.returned (h : (stop r : Handler σ ε η ω α).Safe E i Q X t) : X r t :=
  h t (List.prefix_refl t)

theorem safe_done (h : ∀ t', t <+: t' → Q a t') : (done a : Handler σ ε η ω α).Safe E i Q X t := h

theorem safe_stop (h : ∀ t', t <+: t' → X r t') : (stop r : Handler σ ε η ω α).Safe E i Q X t := h

/-- **The rule for a section.** -/
theorem safe_attempt
    (hok : ∀ s t' e s' a events, t <+: t' → enabled s = true → f e s = .ok (s', a, events) →
      E ⟨s, t'⟩ ⟨i, e, events⟩ s' ∧ ∀ t'', t' ++ [⟨i, e, events⟩] <+: t'' → Q a t'')
    (herror : ∀ s t' e r, t <+: t' → enabled s = true → f e s = .error r →
      E ⟨s, t'⟩ ⟨i, e, []⟩ s ∧ ∀ t'', t' ++ [⟨i, e, []⟩] <+: t'' → X r t'') :
    (attempt enabled f).Safe E i Q X t := by
  intro s t' e ht hs
  cases hf : f e s with
  | ok r =>
    simp only [hf]
    exact hok s t' e r.1 r.2.1 r.2.2 ht hs hf
  | error r =>
    simp only [hf]
    exact herror s t' e r ht hs hf

theorem safe_look {f : ε → σ → α}
    (h : ∀ s t' e, t <+: t' → enabled s = true →
      E ⟨s, t'⟩ ⟨i, e, []⟩ s ∧ ∀ t'', t' ++ [⟨i, e, []⟩] <+: t'' → Q (f e s) t'') :
    (look enabled f : Handler σ ε η ω α).Safe E i Q X t := h

theorem safe_note {Q : Unit → List (Entry ε η) → Prop}
    (h : ∀ s t' e, t <+: t' →
      E ⟨s, t'⟩ ⟨i, e, events⟩ s ∧ ∀ t'', t' ++ [⟨i, e, events⟩] <+: t'' → Q () t'') :
    (note events : Handler σ ε η ω Unit).Safe E i Q X t :=
  fun s t' e ht _ => h s t' e ht

theorem safe_ofExcept (hok : ∀ a, x = .ok a → ∀ t', t <+: t' → Q a t')
    (herror : ∀ r, x = .error r → ∀ t', t <+: t' → X r t') :
    (ofExcept x : Handler σ ε η ω α).Safe E i Q X t := by
  cases x with
  | ok a => exact hok a rfl
  | error r => exact herror r rfl

theorem safe_stopIf {c : Prop} [Decidable c] {Q : Unit → List (Entry ε η) → Prop}
    (hstop : c → ∀ t', t <+: t' → X r t') (hgo : ¬c → ∀ t', t <+: t' → Q () t') :
    (stopIf c r : Handler σ ε η ω Unit).Safe E i Q X t := by
  rw [stopIf]
  split_ifs with hc
  · exact hstop hc
  · exact hgo hc

theorem Safe.weaken {E' : Config σ ε η → Entry ε η → σ → Prop} (h : p.Safe E i Q X t)
    (hE : ∀ c x s, E c x s → E' c x s) : p.Safe E' i Q X t := by
  induction p generalizing t with
  | done a => exact h
  | stop r => exact h
  | atomic enabled update events next ih =>
    exact fun s t' e ht hs => ⟨hE _ _ _ (h s t' e ht hs).1, ih e s (h s t' e ht hs).2⟩

theorem safe_atomic {events : ε → σ → List η}
    (h : ∀ s t' e, t <+: t' → enabled s = true →
      E ⟨s, t'⟩ ⟨i, e, events e s⟩ (update e s) ∧
        (next e s).Safe E i Q X (t' ++ [⟨i, e, events e s⟩])) :
    (atomic enabled update events next).Safe E i Q X t := h

-- from here on a handler is shown to be safe by the rules only
attribute [irreducible] Safe

/-! ### Early returns of which nothing is said -/

/-- Of what is returned early nothing is asserted. -/
abbrev anything (_ : ω) (_ : List (Entry ε η)) : Prop := True

theorem safe_after (hE : ∀ c x s, t <+: c.trace → x.thread = i → E c x s) :
    p.Safe E i anything anything t := by
  induction p generalizing t with
  | done a => exact safe_done fun _ _ => trivial
  | stop r => exact safe_stop fun _ _ => trivial
  | atomic enabled update events next ih =>
    refine safe_atomic fun s t' e ht _ => ⟨hE _ _ _ ht rfl, ih e s fun c x s' ht' => ?_⟩
    exact hE c x s' (ht.trans ((List.prefix_append _ _).trans ht'))

theorem safe_anything (hE : ∀ c x s, E c x s) (p : Handler σ ε η ω α) :
    p.Safe E i anything anything t := safe_after fun c x s _ _ => hE c x s

theorem safe_mapStop {X : ω' → List (Entry ε η) → Prop} (hX : ∀ r t', X (g r) t')
    (hp : p.Safe E i Q anything t) : (p.mapStop g).Safe E i Q X t :=
  .mapStop (hp.mono (fun _ _ _ h => h) fun r t' _ _ => hX r t')

theorem safe_try (hok : ∀ a t', x = .ok a → t <+: t' → Q a t') :
    (ofExcept x : Handler σ ε η ω α).Safe E i Q anything t :=
  safe_ofExcept (fun a ha t' ht => hok a t' ha ht) fun _ _ _ _ => trivial

theorem safe_read {f : ε → σ → α} (hidle : ∀ s t' e, E ⟨s, t'⟩ ⟨i, e, []⟩ s)
    (hQ : ∀ s e t', t <+: t' → Q (f e s) t') :
    (look enabled f : Handler σ ε η ω α).Safe E i Q X t :=
  safe_look fun s t' e ht _ => ⟨hidle s t' e, fun t'' ht' =>
    hQ s e t'' (ht.trans ((List.prefix_append _ _).trans ht'))⟩

/-- **The rule for a section**, by what it has put on record. -/
theorem safe_section (hidle : ∀ s t' e, E ⟨s, t'⟩ ⟨i, e, []⟩ s)
    (hok : ∀ s t' e s' a events, t <+: t' → f e s = .ok (s', a, events) →
      E ⟨s, t'⟩ ⟨i, e, events⟩ s' ∧
        ∀ t'', t <+: t'' → (∀ v ∈ events, Did t'' i v) → Q a t'')
    (hX : ∀ s e r t', f e s = .error r → X r t') : (attempt enabled f).Safe E i Q X t := by
  refine safe_attempt (fun s t' e s' a events ht _ h => ?_) fun s t' e r _ _ h =>
    ⟨hidle s t' e, fun _ _ => hX s e r _ h⟩
  obtain ⟨hE, hQ⟩ := hok s t' e s' a events ht h
  exact ⟨hE, fun t'' ht' => hQ t'' (ht.trans ((List.prefix_append _ _).trans ht'))
    fun v hv => did_of_snoc ht' hv⟩

end Handler

end Iscp
