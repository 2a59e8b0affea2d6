import Mathlib.Data.List.Basic
import Mathlib.Algebra.Order.Ring.Int
import Mathlib.Tactic.SplitIfs

/-!
# Keys that are used until they expire

A key may be used if it is not in use; it is then in use until a time that comes with the use.
`Iscp.Expiry.Ledger` remembers for each key the time that came with the last use it accepted, and
never forgets anything.

A store that does forget says the same, as long as it forgets nothing whose time is yet to come.
This is a simulation: a store agrees with a ledger at a time (`Iscp.Expiry.Agree`) if the two have
the same entries among those that are in use then, and if each use keeps the agreement
(`Iscp.Expiry.Simulates`), the store gives the ledger's verdicts in every sequence of uses in
which no clock runs backwards (`Iscp.Expiry.Simulates.verdicts_eq`).
-/

namespace Iscp

namespace Expiry

variable {κ ι σ : Type}

/-- A use of a key: until when it is to be in use, and when it is used. -/
structure Use (κ : Type) where
  key : κ
  expiresAt : ℤ
  now : ℤ

/-- **The ledger**: for each key the time that came with its last acceptance. -/
abbrev Ledger (κ : Type) := κ → Option ℤ

/-- The verdicts of a store on some uses, one after the other. -/
def verdicts (step : σ → ι → σ × Bool) : σ → List ι → List Bool
  | _, [] => []
  | s, u :: us => (step s u).2 :: verdicts step (step s u).1 us

/-- The state after uses, one after the other. -/
def after (step : σ → ι → σ × Bool) (s : σ) (us : List ι) : σ :=
  us.foldl (fun s u => (step s u).1) s

section Keys

variable [DecidableEq κ]

/-- A key is used: the ledger after it, and whether the use is accepted. -/
def Ledger.use (m : Ledger κ) (u : Use κ) : Ledger κ × Bool :=
  if (m u.key).any fun e => u.now < e then (m, false)
  else (Function.update m u.key (some u.expiresAt), true)

/-- **The last acceptance of a key**, given the verdicts. -/
def lastAccepted (key : ι → κ) (us : List ι) (bs : List Bool) (k : κ) : Option ι :=
  (((us.zip bs).filter fun p => p.2 ∧ key p.1 = k).map Prod.fst).getLast?

end Keys

/-! ### Verdicts -/

theorem length_verdicts (step : σ → ι → σ × Bool) (s : σ) (us : List ι) :
    (verdicts step s us).length = us.length := by
  induction us generalizing s with
  | nil => rfl
  | cons u us ih => exact congrArg Nat.succ (ih _)

theorem verdicts_append (step : σ → ι → σ × Bool) (s : σ) (us us' : List ι) :
    verdicts step s (us ++ us') = verdicts step s us ++ verdicts step (after step s us) us' := by
  induction us generalizing s with
  | nil => rfl
  | cons u us ih => exact congrArg (List.cons _) (ih _)

theorem getElem?_verdicts (step : σ → ι → σ × Bool) (s : σ) (us us' : List ι) (u : ι) :
    (verdicts step s (us ++ u :: us'))[us.length]? = some (step (after step s us) u).2 := by
  rw [verdicts_append, List.getElem?_append_right (length_verdicts step s us).le, length_verdicts,
    Nat.sub_self]
  rfl

section Keys

variable [DecidableEq κ]

theorem lastAccepted_cons (key : ι → κ) (u : ι) (us : List ι) (b : Bool) (bs : List Bool) (k : κ) :
    lastAccepted key (u :: us) (b :: bs) k =
      (lastAccepted key us bs k).or (if b ∧ key u = k then some u else none) := by
  unfold lastAccepted
  rw [List.zip_cons_cons, List.filter_cons]
  split_ifs with h <;> simp_all [List.getLast?_cons]

/-! ### The ledger -/

theorem Ledger.use_true {m : Ledger κ} {u : Use κ}
    (h : (m u.key).any (fun e => u.now < e) = false) :
    m.use u = (Function.update m u.key (some u.expiresAt), true) := by
  rw [use, if_neg (by simp [h])]

theorem Ledger.use_false {m : Ledger κ} {u : Use κ}
    (h : (m u.key).any (fun e => u.now < e) = true) : m.use u = (m, false) := if_pos h

theorem Ledger.use_snd (m : Ledger κ) (u : Use κ) :
    (m.use u).2 = true ↔ ∀ e, m u.key = some e → e ≤ u.now := by
  cases h : (m u.key).any fun e => decide (u.now < e) with
  | false =>
    rw [use_true h]
    simpa [Option.any_eq_false] using h
  | true =>
    rw [use_false h]
    obtain ⟨e, he, hlt⟩ := (Option.any_eq_true _ _).mp h
    simp only [Bool.false_eq_true, false_iff, not_forall]
    exact ⟨e, he, not_le.mpr (of_decide_eq_true hlt)⟩

/-- **What the ledger remembers** is the time of the last acceptance. -/
theorem after_ledger (abs : ι → Use κ) (m : Ledger κ) (us : List ι) (k : κ) :
    after (fun m u => Ledger.use m (abs u)) m us k =
      ((lastAccepted (fun u => (abs u).key) us (verdicts (fun m u => Ledger.use m (abs u)) m us)
        k).map fun u => (abs u).expiresAt).or (m k) := by
  induction us generalizing m with
  | nil => rfl
  | cons u us ih =>
    rw [verdicts, lastAccepted_cons]
    refine (ih _).trans ?_
    cases lastAccepted (fun u => (abs u).key) us _ k with
    | some u' => rfl
    | none =>
      cases h : (m (abs u).key).any fun e => decide ((abs u).now < e) with
      | true => simp [Ledger.use_false h]
      | false =>
        simp only [Ledger.use_true h]
        rcases eq_or_ne (abs u).key k with rfl | hne
        · simp
        · simp [hne, Function.update_of_ne hne.symm]

end Keys

/-! ### Stores that forget -/

/-- **A store agrees with another at a time**: they have the same entries among those whose time
is yet to come. -/
def Agree (now : ℤ) (m m' : Ledger κ) : Prop := ∀ k e, now < e → (m k = some e ↔ m' k = some e)

variable {m m' : Ledger κ} {now now' : ℤ}

theorem Agree.mono (h : Agree now m m') (hle : now ≤ now') : Agree now' m m' :=
  fun k e he => h k e (hle.trans_lt he)

theorem Agree.any_eq (h : Agree now m m') (k : κ) :
    (m k).any (fun e => now < e) = (m' k).any fun e => now < e := by
  rw [Bool.eq_iff_iff, Option.any_eq_true, Option.any_eq_true]
  constructor
  · rintro ⟨e, he, hlt⟩
    exact ⟨e, (h k e (of_decide_eq_true hlt)).mp he, hlt⟩
  · rintro ⟨e, he, hlt⟩
    exact ⟨e, (h k e (of_decide_eq_true hlt)).mpr he, hlt⟩

theorem Agree.update [DecidableEq κ] (h : Agree now m m') (k : κ) (e : Option ℤ) :
    Agree now (Function.update m k e) (Function.update m' k e) := by
  intro k' e' he'
  rcases eq_or_ne k' k with rfl | hne
  · rw [Function.update_self, Function.update_self]
  · rw [Function.update_of_ne hne, Function.update_of_ne hne]
    exact h k' e' he'

/-- **A store simulates the ledger**: seen as a ledger, it gives its verdicts and keeps the
agreement. -/
def Simulates [DecidableEq κ] (view : σ → Ledger κ) (abs : ι → Use κ)
    (step : σ → ι → σ × Bool) : Prop :=
  ∀ s m u, Agree (abs u).now (view s) m →
    (step s u).2 = (m.use (abs u)).2 ∧
      Agree (abs u).now (view (step s u).1) (m.use (abs u)).1

/-- **The verdicts are those of the ledger**, if no clock runs backwards. -/
theorem Simulates.verdicts_eq [DecidableEq κ] {view : σ → Ledger κ} {abs : ι → Use κ}
    {step : σ → ι → σ × Bool} (h : Simulates view abs step) {us : List ι}
    (hclock : us.Pairwise fun u u' => (abs u).now ≤ (abs u').now) {s : σ}
    (hagree : ∀ u ∈ us, Agree (abs u).now (view s) m) :
    verdicts step s us = verdicts (fun m u => Ledger.use m (abs u)) m us := by
  induction us generalizing s m with
  | nil => rfl
  | cons u us ih =>
    obtain ⟨hverdict, hnext⟩ := h s m u (hagree u List.mem_cons_self)
    obtain ⟨hle, hclock'⟩ := List.pairwise_cons.mp hclock
    rw [verdicts, verdicts, hverdict]
    exact congrArg _ (ih hclock' fun u' hu' => hnext.mono (hle u' hu'))

end Expiry

end Iscp
