import Iscp.Go.Text
import Mathlib.Data.List.Sort
import Mathlib.Data.List.Perm.Subperm

/-!
# Maps as lists of entries

A Go map that is ranged over, or written out in the order of its keys, is a list of
entries without repeated keys. What does not depend on the order of the list is what the
map knows: looking up a key (`Iscp.Go.lookup_eq_some_iff`), and the entries sorted by key
(`Iscp.Go.sortEntries_eq_iff`).
-/

namespace Iscp

namespace Go

variable {α β : Type}

/-- No key comes twice. -/
def UniqueKeys (l : List (Str × α)) : Prop := (l.map Prod.fst).Nodup

variable {l l' : List (Str × α)} {a : Str × α}

theorem lookup_eq_some_iff (hl : UniqueKeys l) {k : Str} {a : α} :
    l.lookup k = some a ↔ (k, a) ∈ l := by
  induction l with
  | nil => simp
  | cons kv l ih =>
    obtain ⟨k', a'⟩ := kv
    obtain ⟨hk, hl⟩ := List.nodup_cons.mp hl
    by_cases h : k = k'
    · subst h
      rw [List.lookup_cons_self, List.mem_cons, Option.some.injEq, Prod.mk.injEq, eq_comm]
      refine ⟨fun h => Or.inl ⟨rfl, h⟩, fun h => h.elim And.right fun hm => ?_⟩
      exact absurd (List.mem_map_of_mem hm) hk
    · rw [List.lookup_cons, beq_eq_false_iff_ne.mpr h, ih hl, List.mem_cons, Prod.mk.injEq]
      exact ⟨Or.inr, fun h' => h'.resolve_left fun hc => h hc.1⟩

theorem uniqueKeys_append_singleton {k : Str} (a : α) (hl : UniqueKeys l)
    (hk : k ∉ l.map Prod.fst) : UniqueKeys (l ++ [(k, a)]) := by
  rw [UniqueKeys, List.map_append, List.map_singleton, List.nodup_append]
  refine ⟨hl, List.nodup_singleton k, fun k₁ hk₁ k₂ hk₂ => ?_⟩
  rw [List.mem_singleton.mp hk₂]
  exact ne_of_mem_of_not_mem hk₁ hk

/-- The entries in the order of their keys. -/
def sortEntries (l : List (Str × α)) : List (Str × α) :=
  l.insertionSort fun a b => a.1 ≤ b.1

theorem sortEntries_perm (l : List (Str × α)) : (sortEntries l).Perm l :=
  List.perm_insertionSort _ _

theorem mem_sortEntries : a ∈ sortEntries l ↔ a ∈ l :=
  (sortEntries_perm l).mem_iff

theorem uniqueKeys_sortEntries : UniqueKeys (sortEntries l) ↔ UniqueKeys l :=
  ((sortEntries_perm l).map Prod.fst).nodup_iff

theorem map_sortEntries (f : Str × α → Str × β) (hf : ∀ a, (f a).1 = a.1) (l : List (Str × α)) :
    (sortEntries l).map f = sortEntries (l.map f) :=
  List.map_insertionSort _ _ f l fun a _ b _ => by rw [hf, hf]

theorem pairwise_sortEntries (l : List (Str × α)) :
    (sortEntries l).Pairwise fun a b => a.1 ≤ b.1 := by
  have : Std.Total fun a b : Str × α => a.1 ≤ b.1 := ⟨fun a b => List.le_total a.1 b.1⟩
  have : IsTrans (Str × α) fun a b => a.1 ≤ b.1 := ⟨fun a b c => List.le_trans⟩
  exact List.pairwise_insertionSort _ l

theorem sortEntries_idem (l : List (Str × α)) : sortEntries (sortEntries l) = sortEntries l :=
  (pairwise_sortEntries l).insertionSort_eq

theorem eq_of_mem_of_uniqueKeys (hl : UniqueKeys l) {b : Str × α} (ha : a ∈ l) (hb : b ∈ l)
    (h : a.1 = b.1) : a = b :=
  List.inj_on_of_nodup_map hl ha hb h

/-- **Sorting forgets the order of the entries and nothing else.** -/
theorem sortEntries_eq_iff (hl : UniqueKeys l) : sortEntries l = sortEntries l' ↔ l.Perm l' := by
  refine ⟨fun h => ?_, fun h => ?_⟩
  · exact (sortEntries_perm l).symm.trans (h ▸ sortEntries_perm l')
  · have hperm : (sortEntries l).Perm (sortEntries l') :=
      (sortEntries_perm l).trans (h.trans (sortEntries_perm l').symm)
    refine hperm.eq_of_pairwise (fun a b ha hb hab hba => ?_) (pairwise_sortEntries l)
      (pairwise_sortEntries l')
    have hb' : b ∈ l := h.mem_iff.mpr (mem_sortEntries.mp hb)
    exact eq_of_mem_of_uniqueKeys hl (mem_sortEntries.mp ha) hb' (List.le_antisymm hab hba)

theorem perm_iff_forall_mem (hl : UniqueKeys l) :
    l.Perm l' ↔ l.length = l'.length ∧ ∀ a ∈ l, a ∈ l' := by
  refine ⟨fun h => ⟨h.length_eq, fun a => h.mem_iff.mp⟩, fun ⟨hlen, hsub⟩ => ?_⟩
  exact (List.Nodup.subperm (List.Nodup.of_map _ hl) hsub).perm_of_length_le hlen.ge

end Go

end Iscp
