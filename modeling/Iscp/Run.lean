import Mathlib.Data.List.Nodup
import Mathlib.Logic.Relation

/-!
# Runs of a system

A system has initial states and steps, each step labelled with the action that makes it.
What happens in a run is a statement about the states reachable from an initial one, and
about what follows a state in a run (`Iscp.System.Reachable`, `Iscp.System.Leads`). Either
comes with its rule: an invariant holds in every reachable state, and what no step undoes
stays.

A condition on the steps of a run – that no message is a forgery, that no clock runs
backwards – is a restriction of the system (`Iscp.System.restrict`).
-/

namespace Iscp

/-- A system: its initial states, and its steps with their actions. -/
structure System (σ α : Type) where
  /-- The states a run may start in. -/
  init : σ → Prop
  /-- The steps of a run. -/
  step : σ → α → σ → Prop

namespace System

variable {σ α : Type} {S : System σ α}

/-- The system of a function that says what an action makes of a state, if it is
possible there. -/
def ofNext (init : σ → Prop) (next : σ → α → Option σ) : System σ α :=
  ⟨init, fun s a s' => next s a = some s'⟩

/-- The system with those steps only that meet a condition. -/
def restrict (S : System σ α) (C : σ → α → Prop) : System σ α :=
  ⟨S.init, fun s a s' => C s a ∧ S.step s a s'⟩

/-- **The states of the runs.** -/
inductive Reachable (S : System σ α) : σ → Prop where
  | init {s : σ} (h : S.init s) : S.Reachable s
  | step {s s' : σ} {a : α} (h : S.Reachable s) (hs : S.step s a s') : S.Reachable s'

/-- **One state follows another in a run.** -/
inductive Leads (S : System σ α) (s : σ) : σ → Prop where
  | refl : S.Leads s s
  | step {t t' : σ} {a : α} (h : S.Leads s t) (hs : S.step t a t') : S.Leads s t'

/-- **The invariant rule**: what holds initially and is kept by every step from a
reachable state holds in every reachable state. -/
theorem Reachable.invariant {Inv : σ → Prop} (hinit : ∀ s, S.init s → Inv s)
    (hstep : ∀ s a s', S.Reachable s → Inv s → S.step s a s' → Inv s') {s : σ}
    (h : S.Reachable s) : Inv s := by
  induction h with
  | init h => exact hinit _ h
  | step hr hs ih => exact hstep _ _ _ hr ih hs

theorem Leads.trans {s t u : σ} (h : S.Leads s t) (h' : S.Leads t u) : S.Leads s u := by
  induction h' with
  | refl => exact h
  | step _ hstep ih => exact .step ih hstep

theorem Leads.head {s t u : σ} {a : α} (hs : S.step s a t) (h : S.Leads t u) : S.Leads s u :=
  (Leads.step .refl hs).trans h

theorem Leads.cases_head {s u : σ} (h : S.Leads s u) :
    s = u ∨ ∃ a t, S.step s a t ∧ S.Leads t u := by
  induction h with
  | refl => exact .inl rfl
  | @step t u a _ hstep ih =>
    rcases ih with rfl | ⟨a', t', hstep', hleads⟩
    · exact .inr ⟨a, u, hstep, .refl⟩
    · exact .inr ⟨a', t', hstep', hleads.step hstep⟩

/-- **What every step keeps stays.** -/
theorem Leads.keeps {Q : σ → Prop} (hstep : ∀ s a s', Q s → S.step s a s' → Q s') {s t : σ}
    (h : S.Leads s t) (hs : Q s) : Q t := by
  induction h with
  | refl => exact hs
  | step _ hstep' ih => exact hstep _ _ _ ih hstep'

theorem Leads.reachable {s t : σ} (h : S.Leads s t) (hs : S.Reachable s) : S.Reachable t := by
  induction h with
  | refl => exact hs
  | step _ hstep ih => exact ih.step hstep

/-- **What no step undoes stays**, from a reachable state on. -/
theorem Leads.stable {Q : σ → Prop}
    (hstep : ∀ s a s', S.Reachable s → Q s → S.step s a s' → Q s') {s t : σ} (h : S.Leads s t)
    (hr : S.Reachable s) (hs : Q s) : Q t := by
  induction h with
  | refl => exact hs
  | step hl hstep' ih => exact hstep _ _ _ (hl.reachable hr) ih hstep'

/-- **Actions that are possible one after the other** are a run. -/
theorem leads_of_foldlM {init : σ → Prop} {next : σ → α → Option σ} {as : List α} {s t : σ}
    (h : as.foldlM next s = some t) : (ofNext init next).Leads s t := by
  induction as generalizing s with
  | nil =>
    cases h
    exact .refl
  | cons a as ih =>
    rw [List.foldlM_cons] at h
    obtain ⟨u, hu, hrest⟩ := Option.bind_eq_some_iff.mp h
    exact .head hu (ih hrest)

theorem leads_restrict_of_foldlM {init : σ → Prop} {next : σ → α → Option σ} {C : σ → α → Prop}
    {as : List α} {s t : σ} (hC : ∀ a ∈ as, ∀ s, C s a) (h : as.foldlM next s = some t) :
    ((ofNext init next).restrict C).Leads s t := by
  induction as generalizing s with
  | nil =>
    cases h
    exact .refl
  | cons a as ih =>
    obtain ⟨ha, has⟩ := List.forall_mem_cons.mp hC
    rw [List.foldlM_cons] at h
    obtain ⟨u, hu, hrest⟩ := Option.bind_eq_some_iff.mp h
    exact .head ⟨ha s, hu⟩ (ih has hrest)

theorem Reachable.of_restrict {C : σ → α → Prop} {s : σ} (h : (S.restrict C).Reachable s) :
    S.Reachable s := by
  induction h with
  | init h => exact .init h
  | step _ hs ih => exact ih.step hs.2

end System

/-! ### Histories -/

/-- **Matching two histories**: if every event of the first goes back to one of the second,
no two events of the first have one key, and events that go back to the same one have, then
no two events go back to the same one. -/
theorem exists_injective_of_nodup {ε δ κ : Type} {xs : List ε} {ys : List δ} {R : ε → δ → Prop}
    {key : ε → κ} (hnodup : (xs.map key).Nodup) (hfrom : ∀ x ∈ xs, ∃ y ∈ ys, R x y)
    (hkey : ∀ x x' y, R x y → R x' y → key x = key x') :
    ∃ f : Fin xs.length → Fin ys.length, Function.Injective f ∧
      ∀ k, R (xs.get k) (ys.get (f k)) := by
  have hchoice : ∀ k : Fin xs.length, ∃ j : Fin ys.length, R (xs.get k) (ys.get j) := by
    intro k
    obtain ⟨y, hy, hR⟩ := hfrom _ (xs.get_mem k)
    obtain ⟨j, rfl⟩ := List.get_of_mem hy
    exact ⟨j, hR⟩
  choose f hf using hchoice
  refine ⟨f, fun k l hkl => ?_, hf⟩
  have hkeys : key (xs.get k) = key (xs.get l) := hkey _ _ _ (hf k) (hkl ▸ hf l)
  have hget := List.inj_on_of_nodup_map hnodup (xs.get_mem k) (xs.get_mem l) hkeys
  exact (hnodup.of_map key).get_inj_iff.mp hget

end Iscp
