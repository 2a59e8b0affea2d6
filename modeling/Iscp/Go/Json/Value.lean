import Iscp.Go.Json.Quote
import Iscp.Go.Json.Number

/-!
# JSON values and their text

The values encoding/json decodes into an `any`, with integers for numbers: `null`,
booleans, integers, strings, arrays, and objects. A Go `map[string]any` is kept as the
list of its members, in the order they were put in; that this order must not matter is
a statement about the model, `Iscp.Canonical.Same`, rather than a property of the
type. Integers are unbounded here, because a Go `uint64` field is written as a JSON
number too; the bounds of `int64` are the parser's business.

`Iscp.Go.Json.Value.text` is the compact text `json.Marshal` writes for a value whose
members stand in the given order – the order of the fields, for a struct.
-/

namespace Iscp

namespace Go

namespace Json

/-- A JSON value. -/
inductive Value where
  | null : Value
  | bool : Bool → Value
  | int : ℤ → Value
  | str : Str → Value
  | arr : List Value → Value
  | obj : List (Str × Value) → Value

namespace Value

/-- The members of a struct with the given field names, in the order of its fields. -/
def ofFields (fields : List (String × Value)) : Value :=
  .obj (fields.map fun f => (lit f.1, f.2))

@[elab_as_elim] theorem induction {motive : Value → Prop} (null : motive .null)
    (bool : ∀ b, motive (.bool b)) (int : ∀ i, motive (.int i)) (str : ∀ s, motive (.str s))
    (arr : ∀ xs : List Value, (∀ v ∈ xs, motive v) → motive (.arr xs))
    (obj : ∀ m : List (Str × Value), (∀ kv ∈ m, motive kv.2) → motive (.obj m)) (v : Value) :
    motive v := by
  refine @Value.rec motive (fun xs => ∀ v ∈ xs, motive v) (fun m => ∀ kv ∈ m, motive kv.2)
    (fun kv => motive kv.2) null bool int str arr obj ?_ ?_ ?_ ?_ ?_ v
  · exact fun _ h => absurd h List.not_mem_nil
  · exact fun v xs hv hxs => List.forall_mem_cons.mpr ⟨hv, hxs⟩
  · exact fun _ h => absurd h List.not_mem_nil
  · exact fun kv m hkv hm => List.forall_mem_cons.mpr ⟨hkv, hm⟩
  · exact fun k v hv => hv

/-! ### Text -/

/-- Texts with commas between them. -/
def commaSep : List Bytes → Bytes
  | [] => []
  | x :: xs => x ++ xs.flatMap (0x2c :: ·)

/-- A member of an object: its name and its value's text. -/
def memberText (kt : Str × Bytes) : Bytes := quote kt.1 ++ 0x3a :: kt.2

mutual

/-- **The compact JSON text of a value**, members in the order they stand in. -/
def text : Value → Bytes
  | .null => lit "null"
  | .bool true => lit "true"
  | .bool false => lit "false"
  | .int i => formatInt i
  | .str s => quote s
  | .arr xs => 0x5b :: (commaSep (texts xs) ++ [0x5d])
  | .obj m => 0x7b :: (commaSep ((memberTexts m).map memberText) ++ [0x7d])

/-- The texts of the elements of an array. -/
def texts : List Value → List Bytes
  | [] => []
  | v :: xs => text v :: texts xs

/-- The names of the members of an object, with the texts of their values. -/
def memberTexts : List (Str × Value) → List (Str × Bytes)
  | [] => []
  | (k, v) :: m => (k, text v) :: memberTexts m

end

theorem texts_eq (xs : List Value) : texts xs = xs.map text := by
  induction xs with
  | nil => rfl
  | cons v xs ih => rw [texts, ih, List.map_cons]

theorem memberTexts_eq (m : List (Str × Value)) :
    memberTexts m = m.map fun kv => (kv.1, text kv.2) := by
  induction m with
  | nil => rfl
  | cons kv m ih => rw [memberTexts, ih, List.map_cons]

/-! ### Repair of strings -/

mutual

/-- The value with every string that is not UTF-8 repaired, as it is after its text has
been read again. -/
def toUtf8 : Value → Value
  | .null => .null
  | .bool b => .bool b
  | .int i => .int i
  | .str s => .str (Go.toUtf8 s)
  | .arr xs => .arr (toUtf8List xs)
  | .obj m => .obj (toUtf8Members m)

/-- The elements of an array, repaired. -/
def toUtf8List : List Value → List Value
  | [] => []
  | v :: xs => toUtf8 v :: toUtf8List xs

/-- The members of an object, repaired. -/
def toUtf8Members : List (Str × Value) → List (Str × Value)
  | [] => []
  | (k, v) :: m => (Go.toUtf8 k, toUtf8 v) :: toUtf8Members m

end

theorem toUtf8_arr (xs : List Value) : toUtf8 (.arr xs) = .arr (xs.map toUtf8) := by
  rw [toUtf8]
  congr 1
  induction xs with
  | nil => rfl
  | cons v xs ih => rw [toUtf8List, ih, List.map_cons]

theorem toUtf8_obj (m : List (Str × Value)) :
    toUtf8 (.obj m) = .obj (m.map fun kv => (Go.toUtf8 kv.1, toUtf8 kv.2)) := by
  rw [toUtf8]
  congr 1
  induction m with
  | nil => rfl
  | cons kv m ih => rw [toUtf8Members, ih, List.map_cons]

end Value

end Json

end Go

end Iscp
