import Mathlib.Data.List.Perm.Basic
import Mathlib.Data.List.Sort

/-!
# Sorting with ties left open

`sort.Slice` of Go and `ORDER BY` of SQL put elements into an order that says nothing about
elements neither of which is less than the other. How such ties fall is a parameter of
`Iscp.Go.sortSlice`, so that a statement about it is one about every way they may fall: what it
returns is sorted (`Iscp.Go.pairwise_sortSlice`), and every sorted permutation is what it returns
for some way the ties fall (`Iscp.Go.exists_sortSlice_eq`). Where there are no ties there is only
one (`Iscp.Go.sortSlice_eq_of_perm`).
-/

namespace Iscp

namespace Go

variable {α : Type}

/-- One numbered element may stand before another: it is less, or neither is and the tie falls
that way. -/
def Precedes (less : α → α → Bool) (ties : ℕ → ℕ) (a b : α × ℕ) : Prop :=
  less a.1 b.1 = true ∨ (less b.1 a.1 = false ∧
    (ties a.2 < ties b.2 ∨ (ties a.2 = ties b.2 ∧ a.2 ≤ b.2)))

instance (less : α → α → Bool) (ties : ℕ → ℕ) : DecidableRel (Precedes less ties) :=
  fun _ _ => inferInstanceAs (Decidable (_ ∨ _))

/-- **`sort.Slice`**, for a way the ties fall. -/
def sortSlice (less : α → α → Bool) (ties : ℕ → ℕ) (l : List α) : List α :=
  (l.zipIdx.insertionSort (Precedes less ties)).map Prod.fst

/-- A list in an order that nothing is known of, as that of a map. -/
def shuffle (order : ℕ → ℕ) (l : List α) : List α := sortSlice (fun _ _ => false) order l

theorem sortSlice_perm (less : α → α → Bool) (ties : ℕ → ℕ) (l : List α) :
    (sortSlice less ties l).Perm l := by
  have h := (List.perm_insertionSort (Precedes less ties) l.zipIdx).map Prod.fst
  rwa [List.zipIdx_map_fst] at h

variable {l : List α}

theorem mem_sortSlice {less : α → α → Bool} {ties : ℕ → ℕ} {a : α} :
    a ∈ sortSlice less ties l ↔ a ∈ l := (sortSlice_perm less ties l).mem_iff

theorem mem_shuffle {order : ℕ → ℕ} {a : α} : a ∈ shuffle order l ↔ a ∈ l :=
  mem_sortSlice

/-! ### Weak orders -/

/-- **A strict weak order**: what is less is not greater, and not being greater is transitive. -/
structure WeakOrder (less : α → α → Bool) : Prop where
  asymm : ∀ {a b}, less a b = true → less b a = false
  trans : ∀ {a b c}, less b a = false → less c b = false → less c a = false

section WeakOrder

variable {less : α → α → Bool} {ties ties' : ℕ → ℕ} {l l' : List α}

theorem precedes_total (less : α → α → Bool) (ties : ℕ → ℕ) (a b : α × ℕ) :
    Precedes less ties a b ∨ Precedes less ties b a := by
  cases hab : less a.1 b.1 with
  | true => exact .inl (.inl hab)
  | false =>
    cases hba : less b.1 a.1 with
    | true => exact .inr (.inl hba)
    | false =>
      rcases lt_trichotomy (ties a.2) (ties b.2) with hlt | heq | hgt
      · exact .inl (.inr ⟨hba, .inl hlt⟩)
      · exact (le_total a.2 b.2).imp (fun hle => .inr ⟨hba, .inr ⟨heq, hle⟩⟩)
          fun hle => .inr ⟨hab, .inr ⟨heq.symm, hle⟩⟩
      · exact .inr (.inr ⟨hab, .inl hgt⟩)

variable (h : WeakOrder less)

include h

variable {a b : α × ℕ}

theorem WeakOrder.not_less (hab : Precedes less ties a b) :
    less b.1 a.1 = false := hab.elim h.asymm And.left

theorem WeakOrder.precedes_trans {c : α × ℕ} (hab : Precedes less ties a b)
    (hbc : Precedes less ties b c) : Precedes less ties a c := by
  have hca : less c.1 a.1 = false := h.trans (h.not_less hab) (h.not_less hbc)
  cases hac : less a.1 c.1 with
  | true => exact .inl hac
  | false =>
    -- neither step can have been a strict one
    have hab' : less a.1 b.1 = false := h.trans (h.not_less hbc) hac
    have hbc' : less b.1 c.1 = false := h.trans hac (h.not_less hab)
    obtain ⟨-, htie⟩ := hab.resolve_left (by simp [hab'])
    obtain ⟨-, htie'⟩ := hbc.resolve_left (by simp [hbc'])
    exact .inr ⟨hca, by omega⟩

theorem WeakOrder.pairwise_insertionSort (ties : ℕ → ℕ) (l : List (α × ℕ)) :
    (l.insertionSort (Precedes less ties)).Pairwise (Precedes less ties) := by
  have : Std.Total (Precedes less ties) := ⟨precedes_total less ties⟩
  have : IsTrans (α × ℕ) (Precedes less ties) := ⟨fun _ _ _ => h.precedes_trans⟩
  exact List.pairwise_insertionSort _ l

/-- **What is returned is sorted.** -/
theorem pairwise_sortSlice (ties : ℕ → ℕ) (l : List α) :
    (sortSlice less ties l).Pairwise fun a b => less b a = false :=
  List.pairwise_map.mpr ((h.pairwise_insertionSort ties _).imp h.not_less)

theorem WeakOrder.precedes_antisymm (hab : Precedes less ties a b) (hba : Precedes less ties b a) :
    a.2 = b.2 := by
  have hab' := h.not_less hab
  have hba' := h.not_less hba
  obtain ⟨-, htie⟩ := hab.resolve_left (by simp [hba'])
  obtain ⟨-, htie'⟩ := hba.resolve_left (by simp [hab'])
  omega

/-- **Every sorted permutation may be returned**: the ties fall as they stand there. -/
theorem exists_sortSlice_eq (hperm : l'.Perm l)
    (hsorted : l'.Pairwise fun a b => less b a = false) : ∃ ties, sortSlice less ties l = l' := by
  -- the elements of the permutation, with the numbers they had
  obtain ⟨p, rfl, hnumbered⟩ : ∃ p : List (α × ℕ), l' = p.map Prod.fst ∧ p.Perm l.zipIdx := by
    have hmap : l'.Perm (l.zipIdx.map Prod.fst) := by rwa [List.zipIdx_map_fst]
    exact (congrFun₂ (List.eq_map_comp_perm Prod.fst) l' l.zipIdx).mpr hmap
  have hnodup : (p.map Prod.snd).Nodup := by
    rw [(hnumbered.map Prod.snd).nodup_iff, List.zipIdx_map_snd]
    exact List.nodup_range'
  refine ⟨fun i => (p.map Prod.snd).idxOf i, congrArg (List.map Prod.fst) ?_⟩
  refine List.Perm.eq_of_pairwise (fun a b ha hb hab hba => ?_)
    (h.pairwise_insertionSort _ _) ?_ ((List.perm_insertionSort _ _).trans hnumbered.symm)
  · rw [List.mem_insertionSort, ← hnumbered.mem_iff] at ha
    exact List.inj_on_of_nodup_map hnodup ha hb (h.precedes_antisymm hab hba)
  · rw [List.pairwise_iff_getElem] at hsorted ⊢
    intro i j hi hj hij
    have hposition : ∀ k (hk : k < p.length), (p.map Prod.snd).idxOf p[k].2 = k := by
      intro k hk
      have := hnodup.idxOf_getElem k (by rwa [List.length_map])
      rwa [List.getElem_map] at this
    have hless := hsorted i j (by rwa [List.length_map]) (by rwa [List.length_map]) hij
    rw [List.getElem_map, List.getElem_map] at hless
    have htie := (hposition i hi).trans_lt (hij.trans_eq (hposition j hj).symm)
    exact .inr ⟨hless, .inl htie⟩

/-- **Without ties there is one order.** -/
theorem sortSlice_eq_of_perm (hperm : l.Perm l')
    (hdistinct : ∀ a ∈ l, ∀ b ∈ l, less a b = false → less b a = false → a = b) :
    sortSlice less ties l = sortSlice less ties' l' := by
  have hboth : (sortSlice less ties l).Perm (sortSlice less ties' l') :=
    (sortSlice_perm ..).trans (hperm.trans (sortSlice_perm ..).symm)
  refine hboth.eq_of_pairwise (fun a b ha hb hab hba => ?_) (pairwise_sortSlice h ties l)
    (pairwise_sortSlice h ties' l')
  exact hdistinct a (mem_sortSlice.mp ha) b (hperm.mem_iff.mpr (mem_sortSlice.mp hb)) hba hab

end WeakOrder

/-- **Any order may be the one elements come in.** -/
theorem exists_shuffle_eq {l' : List α} (hperm : l'.Perm l) : ∃ order, shuffle order l = l' :=
  exists_sortSlice_eq ⟨fun _ => rfl, fun _ _ => rfl⟩ hperm (List.pairwise_of_forall fun _ _ => rfl)

end Go

end Iscp
