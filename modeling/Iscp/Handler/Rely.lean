import Iscp.Handler.Frame
import Iscp.Handler.Server

/-!
# Rely and guarantee

Between two sections of a handler other handlers run. What they may do to the state in the
meantime is what the handler relies on, a relation `S` between states; what the handler does in a
section, with all that is known then, is what it guarantees, an effect `E` as in
`Iscp.Handler.Safe`. A handler abides by this (`Iscp.Handler.Abides`) from a state that it has left
and a record of its own on: other handlers change the state as `S` allows, but they never add to
the entries of this one. So where a handler is in its code can be read off its own entries
(`Iscp.own`), and what it has found in the state before is still known if `S` keeps it.

If all handlers of a server abide, and what each guarantees is what the others rely on, then every
section of every run has its effect (`Iscp.Server.hasEffects_of_abides`).
-/

namespace Iscp

/-! ### The entries of a request -/

section Own

variable {ε η : Type} {i : ℕ} {t : List (Entry ε η)}

/-- **The entries of one request.** -/
def own (i : ℕ) (t : List (Entry ε η)) : List (Entry ε η) := t.filter fun x => x.thread = i

@[simp] theorem own_nil : own i ([] : List (Entry ε η)) = [] := rfl

theorem own_append (i : ℕ) (t t' : List (Entry ε η)) : own i (t ++ t') = own i t ++ own i t' :=
  List.filter_append ..

theorem own_snoc_self (t : List (Entry ε η)) (x : Entry ε η) :
    own x.thread (t ++ [x]) = own x.thread t ++ [x] := by
  simp [own]

theorem own_snoc_of_ne (t : List (Entry ε η)) {x : Entry ε η} (h : x.thread ≠ i) :
    own i (t ++ [x]) = own i t := by
  simp [own, h]

theorem mem_own {x : Entry ε η} : x ∈ own i t ↔ x ∈ t ∧ x.thread = i := by
  simp [own]

theorem own_eq_split {o₁ o₂ : List (Entry ε η)} {y : Entry ε η} (h : own i t = o₁ ++ y :: o₂) :
    ∃ t₁ t₂, t = t₁ ++ y :: t₂ ∧ y.thread = i ∧ own i t₁ = o₁ ∧ own i t₂ = o₂ := by
  obtain ⟨t₁, t', rfl, h₁, h'⟩ := List.filter_eq_append_iff.mp h
  obtain ⟨t₂, t₃, rfl, hnone, hy, h₃⟩ := List.filter_eq_cons_iff.mp h'
  refine ⟨t₁ ++ t₂, t₃, by simp, of_decide_eq_true hy, ?_, h₃⟩
  rw [own_append, own, h₁, own, List.filter_eq_nil_iff.mpr hnone, List.append_nil]

theorem did_own {v : η} : Did (own i t) i v ↔ Did t i v := by
  simp only [Did, mem_own]
  constructor
  · rintro ⟨x, ⟨hx, -⟩, hi, hv⟩
    exact ⟨x, hx, hi, hv⟩
  · rintro ⟨x, hx, hi, hv⟩
    exact ⟨x, ⟨hx, hi⟩, hi, hv⟩

end Own

namespace Handler

variable {σ ε η ω ω' α β τ : Type}

/-- **The handler of request `i` abides**, from a state it has left and its own record on: each of
its sections, in any state the others may have made of that one, has an effect `E` allows; its
result and its early returns are as asserted. -/
def Abides (S : σ → σ → Prop) (E : Config σ ε η → Entry ε η → σ → Prop) (i : ℕ)
    (Q : α → σ → List (Entry ε η) → Prop) (X : ω → σ → List (Entry ε η) → Prop) :
    Handler σ ε η ω α → σ → List (Entry ε η) → Prop
  | done a, s, o => Q a s o
  | stop r, s, o => X r s o
  | atomic enabled update events next, s, o => ∀ (c : Config σ ε η) (e : ε), S s c.state →
      own i c.trace = o → enabled c.state = true →
        E c ⟨i, e, events e c.state⟩ (update e c.state) ∧
          Abides S E i Q X (next e c.state) (update e c.state) (o ++ [⟨i, e, events e c.state⟩])

variable {S : σ → σ → Prop} {E : Config σ ε η → Entry ε η → σ → Prop} {i : ℕ}
  {Q Q' : α → σ → List (Entry ε η) → Prop} {X X' : ω → σ → List (Entry ε η) → Prop} {s : σ}
  {o : List (Entry ε η)}

theorem Abides.mono {p : Handler σ ε η ω α} (h : p.Abides S E i Q X s o)
    (hQ : ∀ a s o, Q a s o → Q' a s o) (hX : ∀ r s o, X r s o → X' r s o) :
    p.Abides S E i Q' X' s o := by
  induction p generalizing s o with
  | done a => exact hQ a s o h
  | stop r => exact hX r s o h
  | atomic enabled update events next ih =>
    intro c e hS ho hen
    obtain ⟨hE, hnext⟩ := h c e hS ho hen
    exact ⟨hE, ih e c.state hnext⟩

/-- **The rule for one handler after the other.** -/
theorem Abides.bind {p : Handler σ ε η ω α} {f : α → Handler σ ε η ω β}
    {Q : β → σ → List (Entry ε η) → Prop}
    (h : p.Abides S E i (fun a s o => (f a).Abides S E i Q X s o) X s o) :
    (p >>= f).Abides S E i Q X s o := by
  induction p generalizing s o with
  | done a => exact h
  | stop r => exact h
  | atomic enabled update events next ih =>
    intro c e hS ho hen
    obtain ⟨hE, hnext⟩ := h c e hS ho hen
    exact ⟨hE, ih e c.state hnext⟩

theorem Abides.mapStop {g : ω → ω'} {X : ω' → σ → List (Entry ε η) → Prop}
    {p : Handler σ ε η ω α} (h : p.Abides S E i Q (fun r s o => X (g r) s o) s o) :
    (p.mapStop g).Abides S E i Q X s o := by
  induction p generalizing s o with
  | done a => exact h
  | stop r => exact h
  | atomic enabled update events next ih =>
    intro c e hS ho hen
    obtain ⟨hE, hnext⟩ := h c e hS ho hen
    exact ⟨hE, ih e c.state hnext⟩

theorem Abides.outcome {Q : Except ω α → σ → List (Entry ε η) → Prop}
    {X : ω' → σ → List (Entry ε η) → Prop} {p : Handler σ ε η ω α}
    (h : p.Abides S E i (fun a s o => Q (.ok a) s o) (fun r s o => Q (.error r) s o) s o) :
    (p.outcome : Handler σ ε η ω' _).Abides S E i Q X s o := by
  induction p generalizing s o with
  | done a => exact h
  | stop r => exact h
  | atomic enabled update events next ih =>
    intro c e hS ho hen
    obtain ⟨hE, hnext⟩ := h c e hS ho hen
    exact ⟨hE, ih e c.state hnext⟩

theorem Abides.step {enabled : σ → Bool} {update : ε → σ → σ} {events : ε → σ → List η}
    {next : ε → σ → Handler σ ε η ω α}
    (h : (atomic enabled update events next).Abides S E i Q X s o)
    {c : Config σ ε η} (e : ε) (hS : S s c.state) (ho : own i c.trace = o)
    (hen : enabled c.state = true) :
    E c ⟨i, e, events e c.state⟩ (update e c.state) ∧
      (next e c.state).Abides S E i Q X (update e c.state)
        (o ++ [⟨i, e, events e c.state⟩]) := h c e hS ho hen

theorem Abides.result {a : α} (h : (done a : Handler σ ε η ω α).Abides S E i Q X s o) : Q a s o := h

theorem Abides.returned {r : ω} (h : (stop r : Handler σ ε η ω α).Abides S E i Q X s o) :
    X r s o := h

theorem abides_done {a : α} (h : Q a s o) : (done a : Handler σ ε η ω α).Abides S E i Q X s o := h

theorem abides_stop {r : ω} (h : X r s o) : (stop r : Handler σ ε η ω α).Abides S E i Q X s o := h

/-- **The rule for a section.** -/
theorem abides_attempt {enabled : σ → Bool} {f : ε → σ → Except ω (σ × α × List η)}
    (hok : ∀ (c : Config σ ε η) e s' a events, S s c.state → own i c.trace = o →
      enabled c.state = true → f e c.state = .ok (s', a, events) →
      E c ⟨i, e, events⟩ s' ∧ Q a s' (o ++ [⟨i, e, events⟩]))
    (herror : ∀ (c : Config σ ε η) e r, S s c.state → own i c.trace = o →
      enabled c.state = true → f e c.state = .error r →
      E c ⟨i, e, []⟩ c.state ∧ X r c.state (o ++ [⟨i, e, []⟩])) :
    (attempt enabled f).Abides S E i Q X s o := by
  intro c e hS ho hen
  cases hf : f e c.state with
  | ok r =>
    simp only [hf]
    exact hok c e r.1 r.2.1 r.2.2 hS ho hen hf
  | error r =>
    simp only [hf]
    exact herror c e r hS ho hen hf

theorem abides_look {enabled : σ → Bool} {f : ε → σ → α}
    (h : ∀ (c : Config σ ε η) e, S s c.state → own i c.trace = o → enabled c.state = true →
      E c ⟨i, e, []⟩ c.state ∧ Q (f e c.state) c.state (o ++ [⟨i, e, []⟩])) :
    (look enabled f : Handler σ ε η ω α).Abides S E i Q X s o := h

theorem abides_note {events : List η} {Q : Unit → σ → List (Entry ε η) → Prop}
    (h : ∀ (c : Config σ ε η) e, S s c.state → own i c.trace = o →
      E c ⟨i, e, events⟩ c.state ∧ Q () c.state (o ++ [⟨i, e, events⟩])) :
    (note events : Handler σ ε η ω Unit).Abides S E i Q X s o :=
  fun c e hS ho _ => h c e hS ho

theorem abides_ofExcept {x : Except ω α} (hok : ∀ a, x = .ok a → Q a s o)
    (herror : ∀ r, x = .error r → X r s o) :
    (ofExcept x : Handler σ ε η ω α).Abides S E i Q X s o := by
  cases x with
  | ok a => exact hok a rfl
  | error r => exact herror r rfl

theorem abides_stopIf {d : Prop} [Decidable d] {r : ω} {Q : Unit → σ → List (Entry ε η) → Prop}
    (hstop : d → X r s o) (hgo : ¬d → Q () s o) :
    (stopIf d r : Handler σ ε η ω Unit).Abides S E i Q X s o := by
  rw [stopIf]
  split_ifs with hd
  · exact hstop hd
  · exact hgo hd

/-- **The rule for a handler that leaves a view of the state alone**, if its sections are then among
the effects as long as its own record is as it should be. -/
theorem Frames.abides {v : σ → τ} {N : η → Prop} {O : List (Entry ε η) → Prop}
    (hrefl : ∀ s, S s s) (htrans : ∀ s s' s'', S s s' → S s' s'' → S s s'')
    (hE : ∀ c x s', x.thread = i → O (own i c.trace) → v s' = v c.state →
      (∀ w ∈ x.events, N w) → E c x s' ∧ S c.state s' ∧ O (own i c.trace ++ [x]))
    {p : Handler σ ε η ω α} (hp : p.Frames v N) (hO : O o) :
    p.Abides S E i (fun _ s' o' => S s s' ∧ O o') (fun _ s' o' => S s s' ∧ O o') s o := by
  induction p generalizing s o with
  | done a => exact ⟨hrefl s, hO⟩
  | stop r => exact ⟨hrefl s, hO⟩
  | atomic enabled update events next ih =>
    intro c e hS ho hen
    subst ho
    obtain ⟨hv, hN, hnext⟩ := hp.step e hen
    obtain ⟨hE', hS', hO'⟩ := hE c ⟨i, e, events e c.state⟩ _ rfl hO hv hN
    refine ⟨hE', (ih e c.state hnext hO').mono (fun _ _ _ h => ?_) fun _ _ _ h => ?_⟩
    · exact ⟨htrans _ _ _ hS (htrans _ _ _ hS' h.1), h.2⟩
    · exact ⟨htrans _ _ _ hS (htrans _ _ _ hS' h.1), h.2⟩

/-- **Two things can be said of one handler.** -/
theorem Abides.and {E' : Config σ ε η → Entry ε η → σ → Prop} {p : Handler σ ε η ω α}
    (h : p.Abides S E i Q X s o) (h' : p.Abides S E' i Q' X' s o) :
    p.Abides S (fun c x s => E c x s ∧ E' c x s) i (fun a s o => Q a s o ∧ Q' a s o)
      (fun r s o => X r s o ∧ X' r s o) s o := by
  induction p generalizing s o with
  | done a => exact ⟨h, h'⟩
  | stop r => exact ⟨h, h'⟩
  | atomic enabled update events next ih =>
    intro c e hS ho hen
    obtain ⟨hE, hnext⟩ := h c e hS ho hen
    obtain ⟨hE', hnext'⟩ := h' c e hS ho hen
    exact ⟨⟨hE, hE'⟩, ih e c.state hnext hnext'⟩

theorem Abides.weaken {E' : Config σ ε η → Entry ε η → σ → Prop} {p : Handler σ ε η ω α}
    (h : p.Abides S E i Q X s o) (hE : ∀ c x s, E c x s → E' c x s) : p.Abides S E' i Q X s o := by
  induction p generalizing s o with
  | done a => exact h
  | stop r => exact h
  | atomic enabled update events next ih =>
    intro c e hS ho hen
    obtain ⟨hc, hnext⟩ := h c e hS ho hen
    exact ⟨hE _ _ _ hc, ih e c.state hnext⟩

/-- **What is safe for every record is safe for the own one.** -/
theorem Safe.abides {Q : α → List (Entry ε η) → Prop} {X : ω → List (Entry ε η) → Prop}
    {p : Handler σ ε η ω α} (h : p.Safe E i Q X o) :
    p.Abides S (fun c x s => E ⟨c.state, own i c.trace⟩ x s) i (fun a _ o => Q a o)
      (fun r _ o => X r o) s o := by
  induction p generalizing s o with
  | done a => exact h.result
  | stop r => exact h.returned
  | atomic enabled update events next ih =>
    intro c e _ ho hen
    subst ho
    obtain ⟨hE, hnext⟩ := h.step e hen
    exact ⟨hE, ih e c.state hnext⟩

/-! ### Nothing relied on -/

section Confined

variable {ω' : Type} {Q Q' : α → List (Entry ε η) → Prop} {X X' : ω → List (Entry ε η) → Prop}

/-- **The sections of a handler are confined to the effects**, from its own record on and whatever
the others do to the state: its result and its early returns are as asserted of the record then. -/
def Confined (E : Config σ ε η → Entry ε η → σ → Prop) (i : ℕ) (Q : α → List (Entry ε η) → Prop)
    (X : ω → List (Entry ε η) → Prop) (p : Handler σ ε η ω α) (o : List (Entry ε η)) : Prop :=
  ∀ s, p.Abides (fun _ _ => True) E i (fun a _ o => Q a o) (fun r _ o => X r o) s o

theorem Confined.bind {p : Handler σ ε η ω α} {f : α → Handler σ ε η ω β}
    {Q : β → List (Entry ε η) → Prop}
    (h : p.Confined E i (fun a o => (f a).Confined E i Q X o) X o) :
    (p >>= f).Confined E i Q X o :=
  fun s => .bind ((h s).mono (fun _ s _ h => h s) fun _ _ _ h => h)

theorem Confined.mapStop {g : ω → ω'} {X : ω' → List (Entry ε η) → Prop} {p : Handler σ ε η ω α}
    (h : p.Confined E i Q (fun r o => X (g r) o) o) : (p.mapStop g).Confined E i Q X o :=
  fun s => (h s).mapStop

theorem confined_done {a : α} (h : Q a o) : (done a : Handler σ ε η ω α).Confined E i Q X o :=
  fun _ => abides_done h

theorem confined_stopIf {d : Prop} [Decidable d] {r : ω} {Q : Unit → List (Entry ε η) → Prop}
    (hstop : d → X r o) (hgo : ¬d → Q () o) :
    (stopIf d r : Handler σ ε η ω Unit).Confined E i Q X o := fun _ => abides_stopIf hstop hgo

theorem confined_ofExcept {x : Except ω α} (hok : ∀ a, x = .ok a → Q a o)
    (herror : ∀ r, x = .error r → X r o) :
    (ofExcept x : Handler σ ε η ω α).Confined E i Q X o := fun _ => abides_ofExcept hok herror

theorem confined_attempt {enabled : σ → Bool} {f : ε → σ → Except ω (σ × α × List η)}
    (hok : ∀ (c : Config σ ε η) e s' a events, own i c.trace = o →
      f e c.state = .ok (s', a, events) →
      E c ⟨i, e, events⟩ s' ∧ Q a (o ++ [⟨i, e, events⟩]))
    (herror : ∀ (c : Config σ ε η) e r, own i c.trace = o → f e c.state = .error r →
      E c ⟨i, e, []⟩ c.state ∧ X r (o ++ [⟨i, e, []⟩])) :
    (attempt enabled f).Confined E i Q X o :=
  fun _ => abides_attempt (fun c e s' a events _ ho _ h => hok c e s' a events ho h)
    fun c e r _ ho _ h => herror c e r ho h

theorem confined_look {enabled : σ → Bool} {f : ε → σ → α}
    (h : ∀ (c : Config σ ε η) e, own i c.trace = o →
      E c ⟨i, e, []⟩ c.state ∧ Q (f e c.state) (o ++ [⟨i, e, []⟩])) :
    (look enabled f : Handler σ ε η ω α).Confined E i Q X o :=
  fun _ => abides_look fun c e _ ho _ => h c e ho

theorem confined_note {events : List η} {Q : Unit → List (Entry ε η) → Prop}
    (h : ∀ (c : Config σ ε η) e, own i c.trace = o →
      E c ⟨i, e, events⟩ c.state ∧ Q () (o ++ [⟨i, e, events⟩])) :
    (note events : Handler σ ε η ω Unit).Confined E i Q X o :=
  fun _ => abides_note fun c e _ ho => h c e ho

/-- **The rule for a handler that leaves a view of the state alone.** -/
theorem Frames.confined {v : σ → τ} {N : η → Prop} {O : List (Entry ε η) → Prop}
    (hE : ∀ c x s', x.thread = i → O (own i c.trace) → v s' = v c.state →
      (∀ w ∈ x.events, N w) → E c x s' ∧ O (own i c.trace ++ [x]))
    {p : Handler σ ε η ω α} (hp : p.Frames v N) (hO : O o) (hQ : ∀ a o', O o' → Q a o')
    (hX : ∀ r o', O o' → X r o') : p.Confined E i Q X o := by
  intro s
  refine (Frames.abides (fun _ => trivial) (fun _ _ _ _ _ => trivial)
    (fun c x s' hi ho hv hN => ?_) hp hO).mono (fun a _ o' h => hQ a o' h.2) fun r _ o' h =>
    hX r o' h.2
  obtain ⟨hE', hO'⟩ := hE c x s' hi ho hv hN
  exact ⟨hE', trivial, hO'⟩

end Confined

end Handler

namespace Server

variable {σ ε η ω ρ : Type} {init : σ → Prop} {handle : ρ → Handler σ ε η ω ω}
  {C : Config σ ε η → Entry ε η → Prop} {E : Config σ ε η → Entry ε η → σ → Prop}
  {S : σ → σ → Prop} {Q : ℕ → ρ → ω → σ → List (Entry ε η) → Prop} {w w' : World σ ε η ω ρ}

/-- **What is left of a handler that abides still abides**, in every world of every run: from a
state that the others have changed as it allows, and its own record. Its effects may depend on its
request. -/
theorem abides_of_reachable {E : ρ → Config σ ε η → Entry ε η → σ → Prop} (hrefl : ∀ s, S s s)
    (htrans : ∀ s s' s'', S s s' → S s' s'' → S s s'')
    (hES : ∀ req c x s, E req c x s → S c.state s)
    (hhandle : ∀ i req s, (handle req).Abides S (E req) i (fun r s o => Q i req r s o)
      (fun r s o => Q i req r s o) s [])
    (h : (system init handle C).Reachable w) : ∀ i req p, w.threads i = some (req, p) →
      ∃ s, S s w.state ∧ p.Abides S (E req) i (fun r s o => Q i req r s o)
        (fun r s o => Q i req r s o) s (own i w.trace) := by
  induction h with
  | init hw =>
    intro i req p hp
    rw [hw.2.2] at hp
    cases hp
  | @step w w' a hw hstep habides =>
    intro j req' p hp
    rcases World.next_cases hstep.2 with ⟨i, req, -, hnone, rfl⟩ |
      ⟨i, e, req, enabled, update, events, next, rfl, hthread, hen, rfl⟩
    · rcases eq_or_ne j i with rfl | hj
      · rw [World.threads_set_self] at hp
        obtain ⟨rfl, rfl⟩ := Prod.mk.inj (Option.some.inj hp)
        have hown : own j w.trace = [] := by
          rw [List.eq_nil_iff_forall_not_mem]
          intro x hx
          obtain ⟨hx, hxj⟩ := mem_own.mp hx
          refine known hw x hx ?_
          rw [hxj, hnone]
        refine ⟨w.state, hrefl _, ?_⟩
        rw [World.trace_set]
        change (handle req).Abides S (E req) j _ _ w.state (own j w.trace)
        rw [hown]
        exact hhandle j req w.state
      · rw [World.threads_set_of_ne _ hj] at hp
        exact habides j req' p hp
    · obtain ⟨s, hs, hp'⟩ := habides i req _ hthread
      obtain ⟨hE, hnext⟩ := hp'.step e hs (c := w.config) rfl hen
      rw [World.trace_set, World.state_set]
      rcases eq_or_ne j i with rfl | hj
      · rw [World.threads_set_self] at hp
        obtain ⟨rfl, rfl⟩ := Prod.mk.inj (Option.some.inj hp)
        refine ⟨_, hrefl _, ?_⟩
        have hown := own_snoc_self w.trace ⟨j, e, events e w.state⟩
        change own j (w.trace ++ [_]) = own j w.trace ++ [_] at hown
        rw [hown]
        exact hnext
      · -- the others have seen a change they rely on, and their own entries are as before
        rw [World.threads_set_of_ne _ hj] at hp
        obtain ⟨s', hs', habides'⟩ := habides j req' p hp
        refine ⟨s', htrans _ _ _ hs' (hES req _ _ _ hE), ?_⟩
        rw [own_snoc_of_ne _ (show i ≠ j from hj.symm)]
        exact habides'

theorem hasEffects_of_abides {E : ρ → Config σ ε η → Entry ε η → σ → Prop} (hrefl : ∀ s, S s s)
    (htrans : ∀ s s' s'', S s s' → S s' s'' → S s s'')
    (hES : ∀ req c x s, E req c x s → S c.state s)
    (hhandle : ∀ i req s, (handle req).Abides S (E req) i (fun r s o => Q i req r s o)
      (fun r s o => Q i req r s o) s []) : HasEffects init handle C E := by
  intro w hw i req enabled update events next hthread hen e
  obtain ⟨s, hs, habides⟩ := abides_of_reachable hrefl htrans hES hhandle hw _ req _ hthread
  exact (habides.step e hs (c := w.config) rfl hen).1

section Confined

variable {E : ρ → Config σ ε η → Entry ε η → σ → Prop} {Q : ℕ → ρ → ω → List (Entry ε η) → Prop}
  (hhandle : ∀ i req, (handle req).Confined (E req) i (Q i req) (Q i req) [])

include hhandle

theorem hasEffects_of_confined : HasEffects init handle C E :=
  hasEffects_of_abides (S := fun _ _ => True) (Q := fun i req r _ o => Q i req r o)
    (fun _ => trivial) (fun _ _ _ _ _ => trivial) (fun _ _ _ _ _ => trivial) hhandle

/-- **What is asserted of a result holds when a request is over.** -/
theorem over_of_confined (h : (system init handle C).Reachable w) {i : ℕ} {req : ρ} {r : ω}
    (hover : w.threads i = some (req, .done r) ∨ w.threads i = some (req, .stop r)) :
    Q i req r (own i w.trace) := by
  have habides := abides_of_reachable (S := fun _ _ => True) (Q := fun i req r _ o => Q i req r o)
    (fun _ => trivial) (fun _ _ _ _ _ => trivial) (fun _ _ _ _ _ => trivial) hhandle h
  rcases hover with hdone | hstop
  · obtain ⟨s, -, hp⟩ := habides i req _ hdone
    exact hp.result
  · obtain ⟨s, -, hp⟩ := habides i req _ hstop
    exact hp.returned

end Confined

end Server

end Iscp
