import Iscp.Go.Json.Decoder

/-!
# Reading a document into a struct

`json.Unmarshal` reads a document level by level: the members of an object are told apart, and the
text of each is handed to the field it belongs to. `Iscp.Go.Json.node` is one such level, with the
texts of what is below it.

A member belongs to the field that has its name, or else to one that has it up to case
(`Iscp.Go.Json.foldName`). Several members may belong to one field; they are stored one after the
other, so that the last one is kept, except that `null` leaves the field as it is
(`Iscp.Go.Json.given`). A member that does not fit its field makes the whole document unreadable.
The bound encoding/json has on how deep documents are nested is left out.
-/

namespace Iscp

namespace Go

namespace Json

/-! ### One level of a document -/

/-- What may stand in front of a value: white space, a comma, a colon. -/
def isSeparator (b : UInt8) : Bool := isSpace b || b = 0x2c || b = 0x3a

/-- What was read of `s` when `u` is left of it, without the separators in front. -/
def rawBetween (s u : Bytes) : Bytes := (s.take (s.length - u.length)).dropWhile isSeparator

namespace Decoder

/-- The text of the next value. -/
def raw (n : ℕ) (dec : Decoder) : Except DecodeError (Bytes × Decoder) :=
  (dec.skipValue n).map fun dec' => (rawBetween dec.rest dec'.rest, dec')

/-- The members of an object, up to its closing brace. -/
def rawMembers : ℕ → Decoder → Except DecodeError (List (Str × Bytes) × Decoder)
  | 0, _ => .error .eof
  | n + 1, dec => match dec.token with
      | .error e => .error e
      | .ok (.str key, dec) => do
          let (x, dec) ← dec.raw n
          let (m, dec) ← rawMembers n dec
          return ((key, x) :: m, dec)
      | .ok (.delim .rbrace, dec) => .ok ([], dec)
      | .ok _ => .error .syntaxError

/-- The elements of an array, up to its closing bracket. -/
def rawElements : ℕ → Decoder → Except DecodeError (List Bytes × Decoder)
  | 0, _ => .error .eof
  | n + 1, dec =>
    if dec.more then do
      let (x, dec) ← dec.raw n
      let (xs, dec) ← rawElements n dec
      return (x :: xs, dec)
    else match dec.token with
      | .error e => .error e
      | .ok (.delim .rbracket, dec) => .ok ([], dec)
      | .ok _ => .error .syntaxError

end Decoder

/-- **One level of a document**: a string is what stands between its quotes. -/
inductive Node where
  | null : Node
  | bool (b : Bool) : Node
  | number (x : Bytes) : Node
  | str (body : Bytes) : Node
  | arr (elements : List Bytes) : Node
  | obj (members : List (Str × Bytes)) : Node
  deriving DecidableEq

/-- The first value of a text, and the decoder after it. -/
def readNode (x : Bytes) : Except DecodeError (Node × Decoder) :=
  match (newDecoder x).token with
  | .error e => .error e
  | .ok (.delim .lbrace, dec) =>
      (dec.rawMembers (2 * x.length)).map fun (m, dec) => (.obj m, dec)
  | .ok (.delim .lbracket, dec) =>
      (dec.rawElements (2 * x.length)).map fun (xs, dec) => (.arr xs, dec)
  | .ok (.delim _, _) => .error .syntaxError
  | .ok (.str _, dec) => .ok (.str ((rawBetween x dec.rest).drop 1).dropLast, dec)
  | .ok (.number s, dec) => .ok (.number s, dec)
  | .ok (.bool b, dec) => .ok (.bool b, dec)
  | .ok (.null, dec) => .ok (.null, dec)

/-- **The value a text consists of**; nothing, if it is not JSON. -/
def node (x : Bytes) : Option Node :=
  match readNode x with
  | .error _ => none
  | .ok (node, dec) => if dec.rest.all isSpace then some node else none

/-! ### The members of a field -/

/-- Runes that differ in their case only, and are ASCII in one of their cases, become the same. -/
def foldRune (c : Char) : Char :=
  if 'a' ≤ c ∧ c ≤ 'z' then Char.ofNat (c.toNat - 32)
  else if c = 'ſ' then 'S'
  else if c = 'K' then 'K'
  else c

/-- **`foldName`**, as far as ASCII goes: other runes are left alone, since no field has them in its
name. -/
def foldName (s : Str) : List (Option Char) := (runes s).map (·.map foldRune)

/-- How members are matched with the fields of a struct. -/
inductive Matching where
  /-- Names count as the same if they are so up to case. -/
  | folded
  /-- Names have to be the same. -/
  | exact
  deriving DecidableEq

/-- Whether a member belongs to the field of the name. -/
def Matching.test (how : Matching) (name : String) (key : Str) : Bool :=
  match how with
  | .folded => foldName key = foldName (lit name)
  | .exact => key = lit name

/-- The members that belong to the field of the name. -/
def Matching.values {α : Type} (how : Matching) (name : String) (m : List (Str × α)) : List α :=
  (m.filter fun kv => how.test name kv.1).map Prod.snd

/-- **What is stored in a field**, in this order: the members that belong to it and are not
`null`. -/
def given (how : Matching) (name : String) (m : List (Str × Bytes)) : Option (List Node) := do
  let nodes ← (how.values name m).mapM node
  return nodes.filter (· ≠ .null)

/-- The last thing that is stored in a field, if all of them fit it. -/
def field {α : Type} (read : Node → Option α) (how : Matching) (name : String)
    (m : List (Str × Bytes)) : Option (Option α) := do
  let nodes ← given how name m
  let values ← nodes.mapM read
  return values.getLast?

/-- A Go `string`. -/
def Node.string : Node → Option Str
  | .str body => unquote body
  | _ => none

/-- A Go `int`. -/
def Node.int : Node → Option ℤ
  | .number x => parseInt x
  | _ => none

/-- The members of an object. -/
def Node.members : Node → Option (List (Str × Bytes))
  | .obj m => some m
  | _ => none

/-- **A field of type `string`.** -/
def stringField (how : Matching) (name : String) (m : List (Str × Bytes)) : Option Str :=
  (field Node.string how name m).map (·.getD [])

/-- **A field of type `int`.** -/
def intField (how : Matching) (name : String) (m : List (Str × Bytes)) : Option ℤ :=
  (field Node.int how name m).map (·.getD 0)

/-- **A field that is a struct itself**: the members of the objects that are stored in it, which
are its members one after the other. -/
def structField (how : Matching) (name : String) (m : List (Str × Bytes)) :
    Option (List (Str × Bytes)) := do
  let nodes ← given how name m
  let objects ← nodes.mapM Node.members
  return objects.flatten

/-- **The members of a struct** a document is read into; `null` has none. -/
def structOf (x : Bytes) : Option (List (Str × Bytes)) := do
  match ← node x with
  | .null => return []
  | n => n.members

end Json

end Go

end Iscp
