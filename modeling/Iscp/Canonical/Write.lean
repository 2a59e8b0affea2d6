import Iscp.Canonical.ReadBack

/-!
# The canonical writer

`Iscp.Canonical.writeCanonical` writes a value compactly, the members of every object in
the order of their names. It forgets exactly what a Go map does not know: two values of
the profile have the same canonical form if and only if they are the same value, objects
being compared as unordered maps (`Iscp.Canonical.writeCanonical_eq_iff`).

The comparison `Iscp.Canonical.Same` is the one `reflect.DeepEqual` makes: two objects are
the same when they have as many members and every member of the first is the same as the
member of that name of the second. The way from it to the canonical form leads over the
value with all its members sorted, `Iscp.Canonical.sorted`: the canonical form is the text
of that value, and the strict parser reads it back.
-/

namespace Iscp

namespace Canonical

open Go Go.Json

mutual

/-- **`writeCanonical`.** -/
def writeCanonical : Value → Bytes
  | .null => lit "null"
  | .bool true => lit "true"
  | .bool false => lit "false"
  | .int i => formatInt i
  | .str s => quote s
  | .arr xs => 0x5b :: (Value.commaSep (writeElements xs) ++ [0x5d])
  | .obj m => 0x7b :: (Value.commaSep ((sortEntries (writeMembers m)).map Value.memberText) ++
      [0x7d])

/-- The elements of an array, each in its canonical form. -/
def writeElements : List Value → List Bytes
  | [] => []
  | v :: xs => writeCanonical v :: writeElements xs

/-- The members of an object, with their values in canonical form. -/
def writeMembers : List (Str × Value) → List (Str × Bytes)
  | [] => []
  | (k, v) :: m => (k, writeCanonical v) :: writeMembers m

end

mutual

/-- **The same value**, objects being compared as unordered maps. -/
def Same : Value → Value → Prop
  | .null, .null => True
  | .bool b, .bool b' => b = b'
  | .int i, .int i' => i = i'
  | .str s, .str s' => s = s'
  | .arr xs, .arr xs' => SameElements xs xs'
  | .obj m, .obj m' => m.length = m'.length ∧ SameMembers m m'
  | _, _ => False

/-- The same values in the same order. -/
def SameElements : List Value → List Value → Prop
  | [], [] => True
  | v :: xs, v' :: xs' => Same v v' ∧ SameElements xs xs'
  | _, _ => False

/-- Every member of the first object is a member of the second. -/
def SameMembers : List (Str × Value) → List (Str × Value) → Prop
  | [], _ => True
  | (k, v) :: m, m' => (∃ w, m'.lookup k = some w ∧ Same v w) ∧ SameMembers m m'

end

mutual

/-- The value with the members of all its objects in the order of their names. -/
def sorted : Value → Value
  | .null => .null
  | .bool b => .bool b
  | .int i => .int i
  | .str s => .str s
  | .arr xs => .arr (sortedElements xs)
  | .obj m => .obj (sortEntries (sortedMembers m))

/-- The elements of an array, sorted inside. -/
def sortedElements : List Value → List Value
  | [] => []
  | v :: xs => sorted v :: sortedElements xs

/-- The members of an object, sorted inside. -/
def sortedMembers : List (Str × Value) → List (Str × Value)
  | [] => []
  | (k, v) :: m => (k, sorted v) :: sortedMembers m

end

/-! ### The loops as maps -/

theorem writeElements_eq (xs : List Value) : writeElements xs = xs.map writeCanonical := by
  induction xs with
  | nil => rfl
  | cons v xs ih => rw [writeElements, ih, List.map_cons]

theorem writeMembers_eq (m : List (Str × Value)) :
    writeMembers m = m.map fun kv => (kv.1, writeCanonical kv.2) := by
  induction m with
  | nil => rfl
  | cons kv m ih => rw [writeMembers, ih, List.map_cons]

theorem sortedElements_eq (xs : List Value) : sortedElements xs = xs.map sorted := by
  induction xs with
  | nil => rfl
  | cons v xs ih => rw [sortedElements, ih, List.map_cons]

theorem sortedMembers_eq (m : List (Str × Value)) :
    sortedMembers m = m.map fun kv => (kv.1, sorted kv.2) := by
  induction m with
  | nil => rfl
  | cons kv m ih => rw [sortedMembers, ih, List.map_cons]

variable {m' m : List (Str × Value)} {v : Value}

theorem sameMembers_iff :
    SameMembers m m' ↔ ∀ kv ∈ m, ∃ w, m'.lookup kv.1 = some w ∧ Same kv.2 w := by
  induction m with
  | nil => simp [SameMembers]
  | cons kv m ih => rw [SameMembers, ih, List.forall_mem_cons]

/-! ### The canonical form is the text of the sorted value -/

/-- The canonical form of a value is the text of the value sorted. -/
theorem writeCanonical_eq_text (v : Value) : writeCanonical v = (sorted v).text := by
  induction v using Value.induction with
  | null => rfl
  | bool b => cases b <;> rfl
  | int i => rfl
  | str s => rfl
  | arr xs ih =>
    rw [writeCanonical, sorted, Value.text, Value.texts_eq, writeElements_eq, sortedElements_eq,
      List.map_map, List.map_congr_left fun v hv => ih v hv]
    rfl
  | obj m ih =>
    have hm : m.map (fun kv => (kv.1, writeCanonical kv.2)) =
        m.map (fun kv => (kv.1, (sorted kv.2).text)) :=
      List.map_congr_left fun kv hkv => by rw [ih kv hkv]
    rw [writeCanonical, sorted, Value.text, Value.memberTexts_eq, writeMembers_eq,
      sortedMembers_eq, map_sortEntries (fun kv => (kv.1, Value.text kv.2)) (fun _ => rfl),
      List.map_map, hm]
    rfl

theorem strict_sorted (h : Strict v) : Strict (sorted v) := by
  induction v using Value.induction with
  | null => exact h
  | bool b => exact h
  | int i => exact h
  | str s => exact h
  | arr xs ih =>
    obtain _ | _ | _ | _ | hxs | _ := h
    rw [sorted, sortedElements_eq]
    exact .arr (List.forall_mem_map.mpr fun v hv => ih v hv (hxs v hv))
  | obj m ih =>
    obtain _ | _ | _ | _ | _ | ⟨hk, hu, hv⟩ := h
    have hkeys : UniqueKeys (m.map fun kv => (kv.1, sorted kv.2)) := by
      simpa [UniqueKeys, Function.comp_def] using hk
    rw [sorted, sortedMembers_eq]
    refine .obj (uniqueKeys_sortEntries.mpr hkeys) (fun kv hkv => ?_) fun kv hkv => ?_
    · obtain ⟨kv', hkv', rfl⟩ := List.mem_map.mp (mem_sortEntries.mp hkv)
      exact hu kv' hkv'
    · obtain ⟨kv', hkv', rfl⟩ := List.mem_map.mp (mem_sortEntries.mp hkv)
      exact ih kv' hkv' (hv kv' hkv')

theorem Strict.toUtf8_eq (h : Strict v) : v.toUtf8 = v := by
  induction v using Value.induction with
  | null => rfl
  | bool b => rfl
  | int i => rfl
  | str s =>
    obtain _ | _ | _ | hs | _ | _ := h
    rw [Value.toUtf8, toUtf8_eq_self hs]
  | arr xs ih =>
    obtain _ | _ | _ | _ | hxs | _ := h
    rw [Value.toUtf8_arr, List.map_congr_left fun v hv => ih v hv (hxs v hv), List.map_id']
  | obj m ih =>
    obtain _ | _ | _ | _ | _ | ⟨-, hu, hv⟩ := h
    rw [Value.toUtf8_obj, List.map_congr_left fun kv hkv => by
      rw [toUtf8_eq_self (hu kv hkv), ih kv hkv (hv kv hkv)], List.map_id']

/-- **The canonical form is read back** as the sorted value. -/
theorem parseStrict_writeCanonical (h : Strict v) :
    parseStrict (writeCanonical v) = .ok (sorted v) := by
  have hs := strict_sorted h
  rw [writeCanonical_eq_text, parseStrict_text (hs.toUtf8_eq.symm ▸ hs), hs.toUtf8_eq]

/-! ### Sorting forgets the order of members and nothing else -/

theorem sorted_arr_eq_iff {xs ys : List Value}
    (ih : ∀ v ∈ xs, ∀ w ∈ ys, sorted v = sorted w ↔ Same v w) :
    sorted (.arr xs) = sorted (.arr ys) ↔ Same (.arr xs) (.arr ys) := by
  rw [sorted, sorted, sortedElements_eq, sortedElements_eq, Value.arr.injEq, Same]
  induction xs generalizing ys with
  | nil => cases ys <;> simp [SameElements]
  | cons v xs ihl =>
    cases ys with
    | nil => simp [SameElements]
    | cons w ys =>
      rw [List.map_cons, List.map_cons, List.cons.injEq, SameElements,
        ih v List.mem_cons_self w List.mem_cons_self,
        ihl fun v hv w hw => ih v (List.mem_cons_of_mem _ hv) w (List.mem_cons_of_mem _ hw)]

/-- Two objects sort alike iff they have the same members, up to their order. -/
theorem sorted_obj_eq_iff (hm : UniqueKeys m) (hm' : UniqueKeys m')
    (ih : ∀ kv ∈ m, ∀ kw ∈ m', sorted kv.2 = sorted kw.2 ↔ Same kv.2 kw.2) :
    sorted (.obj m) = sorted (.obj m') ↔ Same (.obj m) (.obj m') := by
  have hkeys : UniqueKeys (m.map fun kv => (kv.1, sorted kv.2)) := by
    simpa [UniqueKeys, Function.comp_def] using hm
  rw [sorted, sorted, sortedMembers_eq, sortedMembers_eq, Value.obj.injEq,
    sortEntries_eq_iff hkeys, perm_iff_forall_mem hkeys, List.length_map, List.length_map, Same,
    sameMembers_iff, List.forall_mem_map]
  refine and_congr_right fun _ => forall₂_congr fun kv hkv => ?_
  rw [List.mem_map]
  constructor
  · rintro ⟨kw, hkw, heq⟩
    obtain ⟨hk, hv⟩ := Prod.mk.inj heq
    exact ⟨kw.2, (lookup_eq_some_iff hm').mpr (hk ▸ hkw), (ih kv hkv kw hkw).mp hv.symm⟩
  · rintro ⟨w, hw, hsame⟩
    have hmem := (lookup_eq_some_iff hm').mp hw
    exact ⟨(kv.1, w), hmem, by rw [(ih kv hkv _ hmem).mpr hsame]⟩

/-- **Sorted values are equal exactly when the values are the same.** -/
theorem sorted_eq_iff {w : Value} (hv : Strict v) (hw : Strict w) :
    sorted v = sorted w ↔ Same v w := by
  induction v using Value.induction generalizing w with
  | null => cases w <;> simp [sorted, Same]
  | bool b => cases w <;> simp [sorted, Same]
  | int i => cases w <;> simp [sorted, Same]
  | str s => cases w <;> simp [sorted, Same]
  | arr xs ih =>
    cases w with
    | arr ys =>
      obtain _ | _ | _ | _ | hxs | _ := hv
      obtain _ | _ | _ | _ | hys | _ := hw
      exact sorted_arr_eq_iff fun v hv w hw => ih v hv (hxs v hv) (hys w hw)
    | _ => simp [sorted, Same]
  | obj m ih =>
    cases w with
    | obj m' =>
      obtain _ | _ | _ | _ | _ | ⟨hk, -, hm⟩ := hv
      obtain _ | _ | _ | _ | _ | ⟨hk', -, hm'⟩ := hw
      exact sorted_obj_eq_iff hk hk' fun kv hkv kw hkw =>
        ih kv hkv (hm kv hkv) (hm' kw hkw)
    | _ => simp [sorted, Same]

/-- **The canonical form decides sameness.** -/
theorem writeCanonical_eq_iff {w : Value} (hv : Strict v) (hw : Strict w) :
    writeCanonical v = writeCanonical w ↔ Same v w := by
  rw [← sorted_eq_iff hv hw]
  refine ⟨fun h => ?_, fun h => by rw [writeCanonical_eq_text, writeCanonical_eq_text, h]⟩
  have hparse := parseStrict_writeCanonical hv
  rw [h, parseStrict_writeCanonical hw] at hparse
  exact (Except.ok.inj hparse).symm

end Canonical

end Iscp
