import Iscp.Canonical.SignatureInput
import Iscp.Go.CodePoints

/-!
# The canonical form

`Iscp.Canonical.marshalValue` and `Iscp.Canonical.parseStrict` are inverse to each other on the
values of the profile, so that the bytes `Iscp.Canonical.marshal` returns are a normal form:
they are their own canonical form, and two texts have the same one exactly when they are read as
the same value (`Iscp.Canonical.marshal_normal_form`). The members of an object stand in the
order of the code points of their names there. The original sorts them by bytes, and
`Iscp.Go.lt_iff_codePoints_lt` says that this is the same order.
-/

namespace Iscp

namespace Canonical

open Go Go.Json

/-- **The members of every object stand in strictly increasing code point order.** -/
inductive Ordered : Value → Prop where
  | null : Ordered .null
  | bool (b : Bool) : Ordered (.bool b)
  | int (i : ℤ) : Ordered (.int i)
  | str (s : Str) : Ordered (.str s)
  | arr {xs : List Value} (h : ∀ v ∈ xs, Ordered v) : Ordered (.arr xs)
  | obj {m : List (Str × Value)} (hk : m.Pairwise fun a b => codePoints a.1 < codePoints b.1)
      (hv : ∀ kv ∈ m, Ordered kv.2) : Ordered (.obj m)

variable {v : Value}

/-- Sorting puts the members of every object of a value in order. -/
theorem ordered_sorted (h : Strict v) : Ordered (sorted v) := by
  induction v using Value.induction with
  | null => exact .null
  | bool b => exact .bool b
  | int i => exact .int i
  | str s => exact .str s
  | arr xs ih =>
    obtain _ | _ | _ | _ | hxs | _ := h
    rw [sorted, sortedElements_eq]
    exact .arr (List.forall_mem_map.mpr fun v hv => ih v hv (hxs v hv))
  | obj m ih =>
    have hs := strict_sorted h
    obtain _ | _ | _ | _ | _ | ⟨-, -, hv⟩ := h
    rw [sorted, sortedMembers_eq] at hs ⊢
    obtain _ | _ | _ | _ | _ | ⟨hkeys, hutf, -⟩ := hs
    refine .obj ?_ fun kv hkv => ?_
    · -- the keys ascend and differ, and they are text
      refine ((pairwise_sortEntries _).and (List.pairwise_map.mp hkeys)).imp_of_mem ?_
      rintro a b ha hb ⟨hle, hne⟩
      have hlt : a.1 < b.1 := (List.le_iff_lt_or_eq.mp hle).resolve_right hne
      exact (lt_iff_codePoints_lt (hutf a ha) (hutf b hb)).mp hlt
    · obtain ⟨kv', hkv', rfl⟩ := List.mem_map.mp (mem_sortEntries.mp hkv)
      exact ih kv' hkv' (hv kv' hkv')

/-- What is sorted stays as it is when it is sorted again. -/
theorem sorted_sorted (h : Strict v) : sorted (sorted v) = sorted v := by
  induction v using Value.induction with
  | null => rfl
  | bool b => rfl
  | int i => rfl
  | str s => rfl
  | arr xs ih =>
    obtain _ | _ | _ | _ | hxs | _ := h
    simp only [sorted, sortedElements_eq, List.map_map]
    exact congrArg _ (List.map_congr_left fun v hv => ih v hv (hxs v hv))
  | obj m ih =>
    obtain _ | _ | _ | _ | _ | ⟨hk, -, hv⟩ := h
    have hmap : m.map (fun kv => (kv.1, sorted (sorted kv.2))) =
        m.map (fun kv => (kv.1, sorted kv.2)) :=
      List.map_congr_left fun kv hkv => by rw [ih kv hkv (hv kv hkv)]
    have hkeys : UniqueKeys (m.map fun kv => (kv.1, sorted kv.2)) := by
      simpa [UniqueKeys, Function.comp_def] using hk
    simp only [sorted, sortedMembers_eq]
    rw [map_sortEntries (fun kv => (kv.1, sorted kv.2)) (fun _ => rfl), List.map_map]
    refine congrArg _ ?_
    change sortEntries (sortEntries (m.map fun kv => (kv.1, sorted (sorted kv.2)))) = _
    rw [hmap, sortEntries_eq_iff (uniqueKeys_sortEntries.mpr hkeys)]
    exact sortEntries_perm _

theorem same_sorted (h : Strict v) : Same v (sorted v) :=
  (sorted_eq_iff h (strict_sorted h)).mp (sorted_sorted h).symm

theorem marshal_eq_ok {x b : Bytes} :
    marshal x = .ok b ↔ ∃ v, parseStrict x = .ok v ∧ b = writeCanonical v := by
  rw [marshal, map_eq_ok_iff]
  simp only [eq_comm]

/-- **The canonical form of the canonical form.** -/
theorem marshal_writeCanonical (h : Strict v) :
    marshal (writeCanonical v) = .ok (writeCanonical v) := by
  refine marshal_eq_ok.mpr ⟨_, parseStrict_writeCanonical h, ?_⟩
  rw [writeCanonical_eq_text, writeCanonical_eq_text, sorted_sorted h]

/-- **`Marshal` computes a normal form.** The bytes written for a value of the profile are read
back as that value, listed in strictly increasing code point order; they are their own canonical
form; and two accepted texts have one canonical form exactly when they are read as the same
value. -/
theorem marshal_normal_form :
    (∀ v, Strict v → ∃ b w, marshalValue v = .ok b ∧ parseStrict b = .ok w ∧ Same v w ∧
      b = w.text ∧ Ordered w) ∧
    (∀ x v, parseStrict x = .ok v → ∃ b, marshal x = .ok b ∧ marshal b = .ok b ∧
      marshalValue v = .ok b) ∧
    (∀ x y v w, parseStrict x = .ok v → parseStrict y = .ok w →
      (marshal x = marshal y ↔ Same v w)) := by
  refine ⟨fun v hv => ?_, fun x v hx => ?_, fun x y v w hx hy => ?_⟩
  · exact ⟨_, sorted v, rfl, parseStrict_writeCanonical hv, same_sorted hv,
      writeCanonical_eq_text v, ordered_sorted hv⟩
  · exact ⟨_, marshal_eq_ok.mpr ⟨v, hx, rfl⟩, marshal_writeCanonical (strict_of_parseStrict hx),
      rfl⟩
  · rw [marshal_eq_ok.mpr ⟨v, hx, rfl⟩, marshal_eq_ok.mpr ⟨w, hy, rfl⟩, Except.ok.injEq]
    exact writeCanonical_eq_iff (strict_of_parseStrict hx) (strict_of_parseStrict hy)

/-- Two texts of one object whose names differ in length and in their first byte. -/
theorem marshal_normal_form_nested :
    marshal (lit "\x7b\"é\":[null,\x7b\x7d,[]],\"ab\":-7\x7d") =
      marshal (lit " \x7b \"ab\" : -7, \"\\u00e9\" : [null, \x7b\x7d, []] \x7d\n") := by
  refine (marshal_normal_form.2.2 _ _
    (.obj [(lit "é", .arr [.null, .obj [], .arr []]), (lit "ab", .int (-7))])
    (.obj [(lit "ab", .int (-7)), (lit "é", .arr [.null, .obj [], .arr []])]) rfl rfl).mpr ?_
  exact ⟨rfl, ⟨_, rfl, trivial, ⟨rfl, trivial⟩, trivial, trivial⟩, ⟨_, rfl, rfl⟩, trivial⟩

end Canonical

end Iscp
