import Mathlib.Data.List.Nodup

/-!
# Tables with a key

A table of a database as the list of its rows, no two of which have the same key. Its
statements are those that keep the key: rows are changed in place (`Iscp.Rows.update`), and a
row is added unless there is one with its key already, which is changed instead
(`Iscp.Rows.upsert`). What a statement does is said by what is found under a key afterwards.
-/

namespace Iscp

variable {α κ : Type}

/-- **A table**: rows with different keys. -/
structure Rows (key : α → κ) where
  /-- The rows, in no particular order. -/
  list : List α
  /-- The key is unique. -/
  nodup : (list.map key).Nodup

namespace Rows

variable {key : α → κ}

/-- A table with no rows. -/
def empty : Rows key := ⟨[], List.nodup_nil⟩

/-- The rows, each changed in a way that keeps its key. -/
def update (t : Rows key) (f : α → α) (hf : ∀ a, key (f a) = key a) : Rows key where
  list := t.list.map f
  nodup := by
    rw [List.map_map, (funext hf : key ∘ f = key)]
    exact t.nodup

variable [DecidableEq κ]

/-- The row of a key. -/
def get (t : Rows key) (k : κ) : Option α := t.list.find? fun a => key a = k

variable {t : Rows key} {k : κ} {a : α} {merge : α → α}

theorem mem_of_get (h : t.get k = some a) : a ∈ t.list ∧ key a = k := by
  rw [get] at h
  exact ⟨List.mem_of_find?_eq_some h, by simpa using List.find?_some h⟩

theorem get_eq_some_iff : t.get k = some a ↔ a ∈ t.list ∧ key a = k := by
  refine ⟨mem_of_get, ?_⟩
  rintro ⟨ha, rfl⟩
  cases hb : t.get (key a) with
  | none =>
    rw [get, List.find?_eq_none] at hb
    exact absurd (decide_eq_true rfl) (hb a ha)
  | some b =>
    obtain ⟨hb, hkey⟩ := mem_of_get hb
    rw [List.inj_on_of_nodup_map t.nodup hb ha hkey]

theorem get_eq_none_iff : t.get k = none ↔ ∀ a ∈ t.list, key a ≠ k := by
  simp [get, List.find?_eq_none]

/-- **A row added, or changed** if there is one with its key. -/
def upsert (t : Rows key) (merge : α → α) (hmerge : ∀ a, key (merge a) = key a) (a : α) :
    Rows key :=
  match h : t.get (key a) with
  | some _ => t.update (fun b => if key b = key a then merge b else b) fun b => by
      split_ifs
      · exact hmerge b
      · rfl
  | none => ⟨t.list ++ [a], by
      rw [List.map_append, List.nodup_append]
      refine ⟨t.nodup, List.nodup_singleton _, ?_⟩
      rintro _ hb _ ha rfl
      rw [List.map_singleton, List.mem_singleton] at ha
      obtain ⟨b, hb, hkey⟩ := List.mem_map.mp hb
      exact get_eq_none_iff.mp h b hb (hkey.trans ha)⟩

theorem get_update (t : Rows key) {f : α → α} (hf : ∀ a, key (f a) = key a) (k : κ) :
    (t.update f hf).get k = (t.get k).map f := by
  have hsame : (fun a => decide (key a = k)) ∘ f = fun a => decide (key a = k) := by
    funext a
    rw [Function.comp_apply, hf]
  rw [get, get, update, List.find?_map, hsame]

theorem get_upsert_self (t : Rows key) (hmerge : ∀ a, key (merge a) = key a) (a : α) :
    (t.upsert merge hmerge a).get (key a) = some ((t.get (key a)).elim a merge) := by
  rw [upsert]
  split
  · next b hb =>
    rw [get_update, hb, Option.map_some, if_pos (mem_of_get hb).2]
    rfl
  · next h =>
    have hnone : (t.get (key a)).elim a merge = a := by
      rw [h]
      rfl
    rw [hnone]
    exact get_eq_some_iff.mpr ⟨List.mem_append_right _ (List.mem_singleton_self a), rfl⟩

theorem get_upsert_of_ne (t : Rows key) (hmerge : ∀ a, key (merge a) = key a) (hk : k ≠ key a) :
    (t.upsert merge hmerge a).get k = t.get k := by
  rw [upsert]
  split
  · rw [get_update]
    cases hb : t.get k with
    | none => rfl
    | some b =>
      rw [Option.map_some, if_neg]
      rw [(mem_of_get hb).2]
      exact hk
  · simp [get, List.find?_append, Ne.symm hk]

end Rows

end Iscp
