import Iscp.Handler.Frame
import Iscp.Handler.Server

/-!
# One request after the other

Requests that do not overlap: each handler runs from its first section to its last before the
next one starts (`Iscp.Handler.Serves`). Between two sections of a handler the state is then as
the first has left it, and what the handler does can be said of the state, not only of the
record. `Iscp.Handler.Alone` is the weakest precondition of such a run, with a rule for each
way to put a handler together.

Each section still has an environment of its own, and meets the condition of the run: that no
statement fails, say.
-/

namespace Iscp

namespace Handler

variable {σ ε η ω ω' α β ρ : Type}

/-- **A handler run alone ends well**: whatever its sections are given, its result and its early
returns are as asserted, in the configuration they are returned in. -/
def Alone (C : Config σ ε η → Entry ε η → Prop) (i : ℕ) (Q : α → Config σ ε η → Prop)
    (X : ω → Config σ ε η → Prop) : Handler σ ε η ω α → Config σ ε η → Prop
  | done a, c => Q a c
  | stop r, c => X r c
  | atomic enabled update events next, c => ∀ e, enabled c.state = true →
      C c ⟨i, e, events e c.state⟩ →
        Alone C i Q X (next e c.state) ⟨update e c.state, c.trace ++ [⟨i, e, events e c.state⟩]⟩

/-- **A request is served**: its handler, run alone, returns the answer. -/
def Serves (C : Config σ ε η → Entry ε η → Prop) (i : ℕ) (p : Handler σ ε η ω ω)
    (c : Config σ ε η) (r : ω) (c' : Config σ ε η) : Prop :=
  p.Runs C i c (done r) c' ∨ p.Runs C i c (stop r) c'

/-- **Requests served in turn**: one after the other, each with its answer, and each under a number
that is not on record yet. -/
def inTurn (init : σ → Prop) (handle : ρ → Handler σ ε η ω ω)
    (C : Config σ ε η → Entry ε η → Prop) : System (Config σ ε η) (ρ × ω) where
  init := fun c => init c.state ∧ c.trace = []
  step := fun c a c' => ∃ i, (∀ y ∈ c.trace, y.thread ≠ i) ∧ (handle a.1).Serves C i c a.2 c'

variable {C : Config σ ε η → Entry ε η → Prop} {i : ℕ} {Q Q' : α → Config σ ε η → Prop}
  {X X' : ω → Config σ ε η → Prop} {c c' : Config σ ε η}

variable {p p' : Handler σ ε η ω α} {r : ω} {E : Config σ ε η → Entry ε η → σ → Prop}
  {x : Except ω α} {e : ε} {handle : ρ → Handler σ ε η ω ω} {enabled : σ → Bool} {events : List η}

theorem Alone.runs (h : p.Alone C i Q X c) (hruns : p.Runs C i c p' c') : p'.Alone C i Q X c' := by
  induction hruns with
  | refl => exact h
  | step e hen hC _ ih => exact ih (h e hen hC)

theorem Alone.result {a : α} (h : p.Alone C i Q X c) (hruns : p.Runs C i c (done a) c') :
    Q a c' := h.runs hruns

theorem Alone.answer {p : Handler σ ε η ω ω} {Q : ω → Config σ ε η → Prop} (h : p.Alone C i Q Q c)
    (hserves : p.Serves C i c r c') : Q r c' := by
  rcases hserves with hruns | hruns
  · exact h.runs hruns
  · exact h.runs hruns

/-- **The sections of a safe handler are effects**, also when it runs alone. -/
theorem leads_of_runs (init : σ → Prop) {Q : α → List (Entry ε η) → Prop}
    {X : ω → List (Entry ε η) → Prop} (hsafe : p.Safe E i Q X c.trace)
    (hruns : p.Runs C i c p' c') :
    (Server.effects init E fun c x => C c x ∧ x.thread = i).Leads c c' ∧
      p'.Safe E i Q X c'.trace := by
  induction hruns with
  | refl => exact ⟨.refl, hsafe⟩
  | step e hen hC _ ih =>
    obtain ⟨hE, hsafe'⟩ := hsafe.step e hen
    obtain ⟨hleads, hsafe''⟩ := ih hsafe'
    exact ⟨.head ⟨⟨hC, rfl⟩, rfl, hE⟩ hleads, hsafe''⟩

theorem leads_of_serves {p : Handler σ ε η ω ω} (init : σ → Prop) {Q : ω → List (Entry ε η) → Prop}
    (hsafe : p.Safe E i Q Q c.trace) (hserves : p.Serves C i c r c') :
    (Server.effects init E fun c x => C c x ∧ x.thread = i).Leads c c' ∧ Q r c'.trace := by
  rcases hserves with hruns | hruns
  · obtain ⟨hleads, hsafe'⟩ := leads_of_runs init hsafe hruns
    exact ⟨hleads, hsafe'.result⟩
  · obtain ⟨hleads, hsafe'⟩ := leads_of_runs init hsafe hruns
    exact ⟨hleads, hsafe'.returned⟩

/-- **The rule for a request that is served**: what its effects keep, if they belong to it and meet
the condition, holds when it has been answered. -/
theorem keeps_of_serves {p : Handler σ ε η ω ω} {Q : ω → List (Entry ε η) → Prop}
    (hsafe : p.Safe E i Q Q c.trace) (hserves : p.Serves C i c r c') {R : Config σ ε η → Prop}
    (hstep : ∀ c x s, R c → C c x → x.thread = i → E c x s → R ⟨s, c.trace ++ [x]⟩) (hc : R c) :
    R c' ∧ Q r c'.trace := by
  obtain ⟨hleads, hQ⟩ := leads_of_serves (fun _ => True) hsafe hserves
  refine ⟨hleads.keeps ?_ hc, hQ⟩
  rintro c₁ x ⟨s, t⟩ hc₁ ⟨⟨hC, hi⟩, rfl, hE⟩
  exact hstep c₁ x s hc₁ hC hi hE

/-- **A handler that is played to its end has run**, under any condition the entries on record
meet. -/
theorem runs_of_play (h : p.play i e c = some (c', x))
    (hC : ∀ c₁ y, c.trace <+: c₁.trace → c₁.trace ++ [y] <+: c'.trace → C c₁ y) :
    p.Runs C i c (ofExcept x) c' := by
  have hruns : p.Runs (fun _ _ => True) i c (ofExcept x) c' := by
    clear hC
    induction p generalizing c with
    | done a =>
      cases h
      exact .refl
    | stop a =>
      cases h
      exact .refl
    | atomic enabled update events next ih =>
      rw [play] at h
      split_ifs at h with hen
      exact .step e hen trivial (ih e c.state h)
  exact hruns.of_trace hC

/-- The answer of a handler, early or not. -/
def reply : Except ω ω → ω
  | .ok r | .error r => r

theorem serves_of_play {p : Handler σ ε η ω ω} {x : Except ω ω} (h : p.play i e c = some (c', x))
    (hC : ∀ c₁ y, c.trace <+: c₁.trace → c₁.trace ++ [y] <+: c'.trace → C c₁ y) :
    p.Serves C i c (reply x) c' := by
  cases x with
  | ok r => exact .inl (runs_of_play h hC)
  | error r => exact .inr (runs_of_play h hC)

/-- A request is served, if its number is not on record yet. -/
def serve (handle : ρ → Handler σ ε η ω ω) (i : ℕ) (e : ε) (req : ρ) (c : Config σ ε η) :
    Option (Config σ ε η × Except ω ω) :=
  if ∀ y ∈ c.trace, y.thread ≠ i then (handle req).play i e c else none

theorem serves_of_serve {req : ρ} {x : Except ω ω} (h : serve handle i e req c = some (c', x))
    (hC : ∀ c₁ y, c.trace <+: c₁.trace → c₁.trace ++ [y] <+: c'.trace → C c₁ y) :
    (∀ y ∈ c.trace, y.thread ≠ i) ∧ (handle req).Serves C i c (reply x) c' := by
  rw [serve] at h
  split_ifs at h with hi
  exact ⟨hi, serves_of_play h hC⟩

theorem inTurn_of_trace {init : σ → Prop} {C' : Config σ ε η → Entry ε η → Prop}
    (h : (inTurn init handle C).Reachable c) (hC' : ∀ c₁ x, c₁.trace ++ [x] <+: c.trace → C' c₁ x) :
    (inTurn init handle C').Reachable c := by
  induction h with
  | init hc => exact .init hc
  | step _ hstep ih =>
    obtain ⟨i, hi, hserves⟩ := hstep
    have hbefore := hserves.elim Runs.trace_prefix Runs.trace_prefix
    exact (ih fun c₁ x hx => hC' c₁ x (hx.trans hbefore)).step ⟨i, hi,
      hserves.imp (·.of_trace fun c₁ x _ => hC' c₁ x) (·.of_trace fun c₁ x _ => hC' c₁ x)⟩

theorem Alone.mono (h : p.Alone C i Q X c) (hQ : ∀ a c', Q a c' → Q' a c')
    (hX : ∀ r c', X r c' → X' r c') : p.Alone C i Q' X' c := by
  induction p generalizing c with
  | done a => exact hQ a c h
  | stop r => exact hX r c h
  | atomic enabled update events next ih => exact fun e hen hC => ih e _ (h e hen hC)

/-- **The rule for one handler after the other.** -/
theorem Alone.bind {f : α → Handler σ ε η ω β} {Q : β → Config σ ε η → Prop}
    (h : p.Alone C i (fun a c' => (f a).Alone C i Q X c') X c) : (p >>= f).Alone C i Q X c := by
  induction p generalizing c with
  | done a => exact h
  | stop r => exact h
  | atomic enabled update events next ih => exact fun e hen hC => ih e _ (h e hen hC)

theorem Alone.mapStop {g : ω → ω'} {X : ω' → Config σ ε η → Prop}
    (h : p.Alone C i Q (fun r c' => X (g r) c') c) : (p.mapStop g).Alone C i Q X c := by
  induction p generalizing c with
  | done a => exact h
  | stop r => exact h
  | atomic enabled update events next ih => exact fun e hen hC => ih e _ (h e hen hC)

theorem alone_done {a : α} (h : Q a c) : (done a : Handler σ ε η ω α).Alone C i Q X c := h

theorem alone_stop (h : X r c) : (stop r : Handler σ ε η ω α).Alone C i Q X c := h

/-- **The rule for a section.** -/
theorem alone_attempt {f : ε → σ → Except ω (σ × α × List η)}
    (hok : ∀ e s' a events, C c ⟨i, e, events⟩ → f e c.state = .ok (s', a, events) →
      Q a ⟨s', c.trace ++ [⟨i, e, events⟩]⟩)
    (herror : ∀ e r, C c ⟨i, e, []⟩ → f e c.state = .error r →
      X r ⟨c.state, c.trace ++ [⟨i, e, []⟩]⟩) : (attempt enabled f).Alone C i Q X c := by
  intro e _ hC
  cases hf : f e c.state with
  | ok r =>
    simp only [hf] at hC ⊢
    exact hok e r.1 r.2.1 r.2.2 hC hf
  | error r =>
    simp only [hf] at hC ⊢
    exact herror e r hC hf

theorem alone_look {f : ε → σ → α}
    (h : ∀ e, C c ⟨i, e, []⟩ → Q (f e c.state) ⟨c.state, c.trace ++ [⟨i, e, []⟩]⟩) :
    (look enabled f : Handler σ ε η ω α).Alone C i Q X c := fun e _ => h e

theorem alone_note {Q : Unit → Config σ ε η → Prop}
    (h : ∀ e, C c ⟨i, e, events⟩ → Q () ⟨c.state, c.trace ++ [⟨i, e, events⟩]⟩) :
    (note events : Handler σ ε η ω Unit).Alone C i Q X c := fun e _ => h e

theorem alone_ofExcept (hok : ∀ a, x = .ok a → Q a c) (herror : ∀ r, x = .error r → X r c) :
    (ofExcept x : Handler σ ε η ω α).Alone C i Q X c := by
  cases x with
  | ok a => exact hok a rfl
  | error r => exact herror r rfl

theorem alone_stopIf {d : Prop} [Decidable d] {Q : Unit → Config σ ε η → Prop} (hstop : d → X r c)
    (hgo : ¬d → Q () c) : (stopIf d r : Handler σ ε η ω Unit).Alone C i Q X c := by
  rw [stopIf]
  split_ifs with hd
  · exact hstop hd
  · exact hgo hd

/-! ### What a handler leaves alone -/

section Frames

variable {τ : Type} {v : σ → τ} {N : η → Prop}

/-- One configuration is after another, the view of the state is the same, and what has gone on
record is of one kind. -/
def Kept (v : σ → τ) (N : η → Prop) (c c' : Config σ ε η) : Prop :=
  v c'.state = v c.state ∧ ∃ t, c'.trace = c.trace ++ t ∧ ∀ y ∈ t, ∀ w ∈ y.events, N w

theorem Kept.refl (c : Config σ ε η) : Kept v N c c :=
  ⟨rfl, [], (List.append_nil _).symm, fun _ hy => absurd hy List.not_mem_nil⟩

theorem Kept.trans {c'' : Config σ ε η} (h : Kept v N c c') (h' : Kept v N c' c'') :
    Kept v N c c'' := by
  obtain ⟨hv, t, ht, hN⟩ := h
  obtain ⟨hv', t', ht', hN'⟩ := h'
  refine ⟨hv'.trans hv, t ++ t', ?_, fun y hy => ?_⟩
  · rw [ht', ht, List.append_assoc]
  · rcases List.mem_append.mp hy with hy | hy
    · exact hN y hy
    · exact hN' y hy

theorem kept_snoc {s : σ} (h : v s = v c.state) (i : ℕ) (e : ε) (hN : ∀ w ∈ events, N w) :
    Kept v N c ⟨s, c.trace ++ [⟨i, e, events⟩]⟩ := by
  refine ⟨h, _, rfl, fun y hy => ?_⟩
  rw [List.mem_singleton.mp hy]
  exact hN

/-- **What a handler frames is as it was**, wherever the handler returns. -/
theorem Frames.alone (hp : p.Frames v N) (c : Config σ ε η) :
    p.Alone C i (fun _ c' => Kept v N c c') (fun _ c' => Kept v N c c') c := by
  induction p generalizing c with
  | done a => exact alone_done (.refl c)
  | stop r => exact alone_stop (.refl c)
  | atomic enabled update events next ih =>
    intro e hen _
    obtain ⟨hv, hN, hnext⟩ := hp.step e hen
    have hone := kept_snoc hv i e hN
    exact (ih e c.state hnext _).mono (fun _ _ h => hone.trans h) fun _ _ h => hone.trans h

end Frames

-- from here on the rules are all there is
attribute [irreducible] Alone

end Handler

end Iscp
