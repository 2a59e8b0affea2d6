import Iscp.Handler.Basic

/-!
# What a handler leaves alone

Most sections of most handlers have nothing to do with a given part of the state. A handler frames
a view of the state (`Iscp.Handler.Frames`) if no section of it changes the view, whatever state
the section meets, and if all that goes on record is of one kind. This holds of a handler wherever
it runs: alone, or between the sections of others.

There is one rule for each way to put a handler together.
-/

namespace Iscp

namespace Handler

variable {σ ε η ω ω' α β τ : Type} {v : σ → τ} {N : η → Prop}

/-- **A handler leaves a view of the state alone**, and what it puts on record is of one kind. -/
def Frames (v : σ → τ) (N : η → Prop) : Handler σ ε η ω α → Prop
  | done _ => True
  | stop _ => True
  | atomic enabled update events next => ∀ e s, enabled s = true →
      v (update e s) = v s ∧ (∀ w ∈ events e s, N w) ∧ Frames v N (next e s)

variable {enabled : σ → Bool} {p : Handler σ ε η ω α}

theorem Frames.step {update : ε → σ → σ} {events : ε → σ → List η}
    {next : ε → σ → Handler σ ε η ω α} (h : (atomic enabled update events next).Frames v N) (e : ε)
    {s : σ} (hen : enabled s = true) :
    v (update e s) = v s ∧ (∀ w ∈ events e s, N w) ∧ (next e s).Frames v N := h e s hen

theorem frames_done (a : α) : (done a : Handler σ ε η ω α).Frames v N := trivial

theorem frames_stop (r : ω) : (stop r : Handler σ ε η ω α).Frames v N := trivial

theorem Frames.bind {f : α → Handler σ ε η ω β} (hp : p.Frames v N) (hf : ∀ a, (f a).Frames v N) :
    (p >>= f).Frames v N := by
  induction p with
  | done a => exact hf a
  | stop r => exact frames_stop r
  | atomic enabled update events next ih =>
    intro e s hen
    obtain ⟨hv, hN, hnext⟩ := hp e s hen
    exact ⟨hv, hN, ih e s hnext⟩

theorem Frames.mapStop {g : ω → ω'} (hp : p.Frames v N) : (p.mapStop g).Frames v N := by
  induction p with
  | done a => exact frames_done a
  | stop r => exact frames_stop (g r)
  | atomic enabled update events next ih =>
    intro e s hen
    obtain ⟨hv, hN, hnext⟩ := hp e s hen
    exact ⟨hv, hN, ih e s hnext⟩

theorem Frames.outcome (hp : p.Frames v N) : (p.outcome : Handler σ ε η ω' _).Frames v N := by
  induction p with
  | done a => exact frames_done _
  | stop r => exact frames_done _
  | atomic enabled update events next ih =>
    intro e s hen
    obtain ⟨hv, hN, hnext⟩ := hp e s hen
    exact ⟨hv, hN, ih e s hnext⟩

/-- **The rule for a section.** -/
theorem frames_attempt {f : ε → σ → Except ω (σ × α × List η)}
    (hf : ∀ e s s' a events, f e s = .ok (s', a, events) → v s' = v s ∧ ∀ w ∈ events, N w) :
    (attempt enabled f).Frames v N := by
  intro e s _
  cases h : f e s with
  | ok r =>
    simp only [h]
    obtain ⟨hv, hN⟩ := hf e s r.1 r.2.1 r.2.2 h
    exact ⟨hv, hN, frames_done _⟩
  | error r =>
    simp only [h]
    exact ⟨rfl, List.forall_mem_nil _, frames_stop r⟩

theorem frames_look (f : ε → σ → α) : (look enabled f : Handler σ ε η ω α).Frames v N :=
  fun _ _ _ => ⟨rfl, List.forall_mem_nil _, frames_done _⟩

theorem frames_note {events : List η} (hN : ∀ w ∈ events, N w) :
    (note events : Handler σ ε η ω Unit).Frames v N :=
  fun _ _ _ => ⟨rfl, hN, frames_done _⟩

theorem frames_ofExcept (x : Except ω α) : (ofExcept x : Handler σ ε η ω α).Frames v N := by
  cases x with
  | ok a => exact frames_done a
  | error r => exact frames_stop r

theorem frames_stopIf (d : Prop) [Decidable d] (r : ω) :
    (stopIf d r : Handler σ ε η ω Unit).Frames v N := by
  rw [stopIf]
  split_ifs
  · exact frames_stop r
  · exact frames_done ()

theorem frames_ite {d : Prop} [Decidable d] {q : Handler σ ε η ω α} (hp : p.Frames v N)
    (hq : q.Frames v N) : (if d then p else q).Frames v N := by
  split_ifs
  · exact hp
  · exact hq

/-- **A handler that leaves a view alone is safe**, if its sections then have effects that are
allowed. Nothing is known of its result. -/
theorem Frames.safe {E : Config σ ε η → Entry ε η → σ → Prop} {i : ℕ}
    {Q : α → List (Entry ε η) → Prop} {X : ω → List (Entry ε η) → Prop} {t : List (Entry ε η)}
    (hp : p.Frames v N)
    (hE : ∀ s t' e events s', v s' = v s → (∀ w ∈ events, N w) → E ⟨s, t'⟩ ⟨i, e, events⟩ s')
    (hQ : ∀ a t', t <+: t' → Q a t') (hX : ∀ r t', t <+: t' → X r t') : p.Safe E i Q X t := by
  induction p generalizing t with
  | done a => exact safe_done fun t' ht => hQ a t' ht
  | stop r => exact safe_stop fun t' ht => hX r t' ht
  | atomic enabled update events next ih =>
    refine safe_atomic fun s t' e ht hen => ?_
    obtain ⟨hv, hN, hnext⟩ := hp.step e hen
    have hgrown : t <+: t' ++ [⟨i, e, events e s⟩] := ht.trans (List.prefix_append _ _)
    exact ⟨hE _ _ _ _ _ hv hN, ih e s hnext (fun a t'' h => hQ a t'' (hgrown.trans h))
      fun r t'' h => hX r t'' (hgrown.trans h)⟩

-- from here on the rules are all there is
attribute [irreducible] Frames

end Handler

end Iscp
