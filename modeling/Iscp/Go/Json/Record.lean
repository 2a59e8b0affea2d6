import Iscp.Go.Json.Unmarshal
import Iscp.Go.Json.Value
import Iscp.Go.ParseTime
import Iscp.Go.Result

/-!
# Structs in JSON

A struct as encoding/json sees it: its fields in order, each with a name, a value, and whether it is
left out when it is empty. `Iscp.Go.Json.Record.marshal` writes it; `Iscp.Go.Json.Record.unmarshal`
reads a document into a struct that has values already, which is the empty struct in all uses.

A `json.RawMessage` is JSON that is kept as text. It is compacted when it is written; how is left to
a parameter, since what matters of it is that it keeps the value
(`Iscp.Canonical.Compacts`).
-/

namespace Iscp

namespace Go

namespace Json

/-- **What a field of a struct holds.** -/
inductive FieldValue where
  | string (s : Str) : FieldValue
  | int (i : ℤ) : FieldValue
  | uint (n : ℕ) : FieldValue
  | time (t : Time) : FieldValue
  /-- A `[]string`; a nil slice is not an empty one. -/
  | strings (l : Option (List Str)) : FieldValue
  /-- A `json.RawMessage`, which may be nil. -/
  | raw (x : Option Bytes) : FieldValue
  /-- A struct whose fields are strings. -/
  | struct (fields : List (String × Str)) : FieldValue
  deriving DecidableEq

/-- **A field of a struct.** -/
structure StructField where
  name : String
  /-- Whether the field has `omitempty`. -/
  omitEmpty : Bool
  value : FieldValue
  deriving DecidableEq

/-- **A struct**, by its fields. -/
abbrev Record := List StructField

/-! ### Writing -/

/-- What `json.Marshal` fails at. -/
inductive MarshalError where
  | time (t : Time)
  | rawMessage
  deriving DecidableEq

variable {compact : Bytes → Option Bytes} {r : Record}

namespace FieldValue

/-- `isEmptyValue`. -/
def isEmpty : FieldValue → Bool
  | .string s => s.isEmpty
  | .int i => i = 0
  | .uint n => n = 0
  | .time _ => false
  | .strings l => (l.getD []).isEmpty
  | .raw x => (x.getD []).isEmpty
  | .struct _ => false

/-- **The text of a value.** -/
def marshal (compact : Bytes → Option Bytes) : FieldValue → Except MarshalError Bytes
  | .string s => .ok (quote s)
  | .int i => .ok (formatInt i)
  | .uint n => .ok (formatInt n)
  | .time t => if t.Marshals then .ok (quote t.rfc3339Nano) else .error (.time t)
  | .strings none => .ok (lit "null")
  | .strings (some l) => .ok (Value.arr (l.map .str)).text
  | .raw none => .ok (lit "null")
  | .raw (some x) => match compact x with
      | some y => .ok y
      | none => .error .rawMessage
  | .struct fields => .ok (Value.ofFields (fields.map fun f => (f.1, .str f.2))).text

/-- The JSON value a field is written as, unless it is text already. -/
def plain : FieldValue → Option Value
  | .string s => some (.str s)
  | .int i => some (.int i)
  | .uint n => some (.int n)
  | .time t => if t.Marshals then some (.str t.rfc3339Nano) else none
  | .strings none => some .null
  | .strings (some l) => some (.arr (l.map .str))
  | .raw none => some .null
  | .raw (some _) => none
  | .struct fields => some (.ofFields (fields.map fun f => (f.1, .str f.2)))

variable {f : FieldValue}

theorem marshal_of_plain {p : Value} (h : f.plain = some p) (compact : Bytes → Option Bytes) :
    f.marshal compact = .ok p.text := by
  unfold plain at h
  split at h
  case h_4 t =>
    split_ifs at h with ht
    cases h
    rw [marshal, if_pos ht, Value.text]
  case h_8 => cases h
  all_goals
    cases h
    rfl

theorem eq_of_marshal {y : Bytes} (h : f.marshal compact = .ok y) :
    (∃ p, f.plain = some p ∧ y = p.text) ∨ ∃ x, f = .raw (some x) ∧ compact x = some y := by
  cases hp : f.plain with
  | some p => exact Or.inl ⟨p, rfl, Except.ok.inj (h.symm.trans (marshal_of_plain hp compact))⟩
  | none =>
    right
    unfold plain at hp
    split at hp
    case h_4 t =>
      split_ifs at hp with ht
      rw [marshal, if_neg ht] at h
      cases h
    case h_8 x =>
      refine ⟨x, rfl, ?_⟩
      rw [marshal] at h
      split at h
      · next hy => rw [hy, Except.ok.inj h]
      · cases h
    all_goals cases hp

end FieldValue

/-- The object with the given members. -/
def objectText (m : List (Str × Bytes)) : Bytes :=
  0x7b :: (Value.commaSep (m.map Value.memberText) ++ [0x7d])

namespace StructField

/-- A field is written. -/
def shown (f : StructField) : Bool := !(f.omitEmpty && f.value.isEmpty)

/-- The member a field is written as, unless it is text already. -/
def plainMember (f : StructField) : Option (String × Value) := f.value.plain.map (f.name, ·)

section Known

variable (name : String) (omitEmpty : Bool)

@[simp] theorem shown_always (value : FieldValue) : shown ⟨name, false, value⟩ = true := rfl

@[simp] theorem shown_omitEmpty (value : FieldValue) :
    shown ⟨name, true, value⟩ = !value.isEmpty := rfl

@[simp] theorem plainMember_string (s : Str) :
    plainMember ⟨name, omitEmpty, .string s⟩ = some (name, .str s) := rfl

@[simp] theorem plainMember_int (i : ℤ) :
    plainMember ⟨name, omitEmpty, .int i⟩ = some (name, .int i) := rfl

@[simp] theorem plainMember_uint (n : ℕ) :
    plainMember ⟨name, omitEmpty, .uint n⟩ = some (name, .int n) := rfl

theorem plainMember_time {t : Time} (h : t.Marshals) :
    plainMember ⟨name, omitEmpty, .time t⟩ = some (name, .str t.rfc3339Nano) := by
  simp [plainMember, FieldValue.plain, h]

end Known

/-! What a field of a known type holds. -/

/-- The string in a field. -/
def string (f : StructField) : Str := match f.value with | .string s => s | _ => []

/-- The integer in a field. -/
def int (f : StructField) : ℤ := match f.value with | .int i => i | _ => 0

/-- The number in a field. -/
def uint (f : StructField) : ℕ := match f.value with | .uint n => n | _ => 0

/-- The time in a field. -/
def time (f : StructField) : Time := match f.value with | .time t => t | _ => Time.zero

/-- The strings in a field. -/
def strings (f : StructField) : Option (List Str) :=
  match f.value with | .strings l => l | _ => none

/-- The text in a field. -/
def raw (f : StructField) : Option Bytes := match f.value with | .raw x => x | _ => none

end StructField

namespace Record

/-- The members a struct is written with. -/
def memberTexts (compact : Bytes → Option Bytes) (r : Record) :
    Except MarshalError (List (Str × Bytes)) :=
  (r.filter StructField.shown).mapM fun f => (f.value.marshal compact).map (lit f.name, ·)

/-- **`json.Marshal`** of a struct. -/
def marshal (compact : Bytes → Option Bytes) (r : Record) : Except MarshalError Bytes :=
  (r.memberTexts compact).map objectText

/-- A field, and the member it is written as. -/
def Writes (compact : Bytes → Option Bytes) (f : StructField) (kx : Str × Bytes) : Prop :=
  kx.1 = lit f.name ∧ f.value.marshal compact = .ok kx.2

/-- The members written are those of the fields shown, in their order. -/
theorem memberTexts_eq_ok_iff {xs : List (Str × Bytes)} : r.memberTexts compact = .ok xs ↔
      List.Forall₂ (Writes compact) (r.filter StructField.shown) xs := by
  rw [memberTexts]
  generalize r.filter StructField.shown = fields
  induction fields generalizing xs with
  | nil =>
    rw [List.mapM_nil, List.forall₂_nil_left_iff]
    exact ⟨fun h => (Except.ok.inj h).symm, fun h => h ▸ rfl⟩
  | cons f fields ih =>
    rw [List.mapM_cons]
    simp only [bind_eq_ok_iff, map_eq_ok_iff, ih, List.forall₂_cons_left_iff]
    constructor
    · rintro ⟨_, ⟨y, hy, rfl⟩, xs', hxs', h⟩
      exact ⟨_, xs', ⟨rfl, hy⟩, hxs', (Except.ok.inj h).symm⟩
    · rintro ⟨⟨k, y⟩, xs', ⟨rfl, hy⟩, hxs', rfl⟩
      exact ⟨_, ⟨y, hy, rfl⟩, xs', hxs', rfl⟩

theorem marshal_eq_ok_iff {b : Bytes} :
    r.marshal compact = .ok b ↔
      ∃ xs, List.Forall₂ (Writes compact) (r.filter StructField.shown) xs ∧ objectText xs = b := by
  simp only [marshal, map_eq_ok_iff, memberTexts_eq_ok_iff]

variable {fields : List (String × Value)}

theorem writes_of_plainMembers (compact : Bytes → Option Bytes) {l : List StructField}
    (h : l.mapM StructField.plainMember = some fields) :
    List.Forall₂ (Writes compact) l (fields.map fun f => (lit f.1, f.2.text)) := by
  induction l generalizing fields with
  | nil =>
    cases h
    exact .nil
  | cons f l ih =>
    simp only [List.mapM_cons, Option.bind_eq_bind, Option.bind_eq_some_iff,
      StructField.plainMember, Option.map_eq_some_iff] at h
    obtain ⟨_, ⟨p, hp, rfl⟩, fields', hfields', h⟩ := h
    cases h
    exact .cons ⟨rfl, FieldValue.marshal_of_plain hp compact⟩ (ih hfields')

/-- **A struct without text in it** is written as the object of its fields. -/
theorem marshal_of_plainMembers (compact : Bytes → Option Bytes)
    (h : (r.filter StructField.shown).mapM StructField.plainMember = some fields) :
    r.marshal compact = .ok (Value.ofFields fields).text := by
  refine marshal_eq_ok_iff.mpr ⟨_, writes_of_plainMembers compact h, ?_⟩
  simp only [Value.ofFields, Value.text, Value.memberTexts_eq, List.map_map, objectText,
    Function.comp_def]

/-- All times of the struct can be written. -/
def TimesMarshal (r : Record) : Prop := ∀ f ∈ r, ∀ t, f.value = .time t → t.Marshals

theorem timesMarshal_of_marshal {b : Bytes} (h : r.marshal compact = .ok b) : r.TimesMarshal := by
  intro f hf t ht
  obtain ⟨xs, hxs, -⟩ := marshal_eq_ok_iff.mp h
  have hshown : f ∈ r.filter StructField.shown :=
    List.mem_filter.mpr ⟨hf, by simp [StructField.shown, ht, FieldValue.isEmpty]⟩
  obtain ⟨i, hi, rfl⟩ := List.getElem_of_mem hshown
  obtain ⟨hlength, hget⟩ := List.forall₂_iff_get.mp hxs
  obtain ⟨-, hmarshal⟩ := hget i hi (hlength ▸ hi)
  rw [List.get_eq_getElem, ht, FieldValue.marshal] at hmarshal
  split_ifs at hmarshal with hmarshals
  exact hmarshals

end Record

/-! ### Reading -/

/-- `strconv.ParseUint(s, 10, 64)`. -/
def parseUint (s : Bytes) : Option ℕ :=
  (parseDigits s).bind fun n => if n < 2 ^ 64 then some n else none

/-- A variable is stored into; `null` leaves it as it is. -/
def Node.orKeep {α : Type} (n : Node) (before : α) (read : Node → Option α) : Option α :=
  if n = .null then some before else read n

/-- A string, read into a variable. -/
def storeString (before : Str) (x : Bytes) : Option Str :=
  (node x).bind fun n => n.orKeep before Node.string

namespace Node

/-- A Go `uint64`. -/
def uint : Node → Option ℕ
  | .number x => parseUint x
  | _ => none

/-- A `time.Time`, which reads what stands between the quotes. -/
def time : Node → Option Time
  | .str body => Time.parseStrictRFC3339 body
  | _ => none

/-- A `[]string`, whose elements are new variables. -/
def strings : Node → Option (List Str)
  | .arr xs => xs.mapM (storeString [])
  | _ => none

/-- The fields of a struct of strings. -/
def struct (fields : List (String × Str)) (n : Node) : Option (List (String × Str)) := do
  let m ← n.members
  fields.mapM fun f => ((Matching.folded.values f.1 m).foldlM storeString f.2).map (f.1, ·)

end Node

namespace FieldValue

/-- The zero value of the type of a value. -/
def zero : FieldValue → FieldValue
  | .string _ => .string []
  | .int _ => .int 0
  | .uint _ => .uint 0
  | .time _ => .time Time.zero
  | .strings _ => .strings none
  | .raw _ => .raw none
  | .struct fields => .struct (fields.map fun f => (f.1, []))

/-- A value is stored into a field; `null` makes a slice nil, and is kept by a `json.RawMessage`. -/
def storeNode (x : Bytes) (n : Node) : FieldValue → Option FieldValue
  | .string s => (n.orKeep s Node.string).map .string
  | .int i => (n.orKeep i Node.int).map .int
  | .uint k => (n.orKeep k Node.uint).map .uint
  | .time t => (n.orKeep t Node.time).map .time
  | .strings _ => (n.orKeep none fun n => n.strings.map some).map .strings
  | .raw _ => some (.raw (some x))
  | .struct fields => (n.orKeep fields (Node.struct fields)).map .struct

/-- **A member is read into a field.** -/
def store (before : FieldValue) (x : Bytes) : Option FieldValue :=
  (node x).bind fun n => before.storeNode x n

/-- **What a field holds after it has been written and read.** -/
def refreshed (compact : Bytes → Option Bytes) : FieldValue → FieldValue
  | .string s => .string (toUtf8 s)
  | .int i => .int i
  | .uint n => .uint n
  | .time t => .time t.minuteZone
  | .strings l => .strings (l.map (List.map toUtf8))
  | .raw none => .raw (some (lit "null"))
  | .raw (some x) => .raw (compact x)
  | .struct fields => .struct (fields.map fun f => (f.1, toUtf8 f.2))

end FieldValue

namespace Record

/-- The struct with all fields zero. -/
def zero (r : Record) : Record := r.map fun f => { f with value := f.value.zero }

/-- **`json.Unmarshal`** into a struct. -/
def unmarshal (r : Record) (x : Bytes) : Option Record := do
  let m ← structOf x
  r.mapM fun f => ((Matching.folded.values f.name m).foldlM FieldValue.store f.value).map
    fun v => { f with value := v }

theorem zero_unmarshal_eq {x : Bytes} {m : List (Str × Bytes)} (hm : structOf x = some m)
    {g : StructField → FieldValue}
    (h : ∀ f ∈ r, (Matching.folded.values f.name m).foldlM FieldValue.store f.value.zero =
      some (g f)) : r.zero.unmarshal x = some (r.map fun f => { f with value := g f }) := by
  rw [unmarshal, hm]
  change (r.map _).mapM _ = _
  induction r with
  | nil => rfl
  | cons f r ih =>
    obtain ⟨hf, hr⟩ := List.forall_mem_cons.mp h
    rw [List.map_cons, List.mapM_cons, ih hr]
    dsimp only
    rw [hf]
    rfl

end Record

end Json

end Go

end Iscp
