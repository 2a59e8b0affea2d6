import Iscp.Canonical.Nodes

/-!
# Strings written as they are

A string has many texts, since any of its runes may be escaped. `json.Unmarshal` hands the text of a
member to its field, and a field that is a time reads the text itself, escapes and all. So what it
reads can be said of the value only where the string is written plainly, between quotes and without
escapes (`Iscp.Canonical.Plain`).

`Iscp.Canonical.PlainText` are the texts of a value in which the members of some names are written
so. It is a matter of the grammar alone; the members `json.Unmarshal` finds in such a text are the
plain ones (`Iscp.Canonical.exists_structOf`).
-/

namespace Iscp.Canonical

open Go Go.Json

/-- A string between quotes. -/
def literal (s : Str) : Bytes := 0x22 :: (s ++ [0x22])

/-- **A value that is written plainly** if it is a string. -/
def Plain (v : Value) (y : Bytes) : Prop :=
  ∀ s, v = .str s → ∃ w w', Blank w ∧ Blank w' ∧ IsString s (literal s) ∧
    y = w ++ (literal s ++ w')

variable {names : Str → Prop} {v : Value} {st st' : TokenState} {m : List (Str × Value)} {n : ℕ}
  {x y w u g : Bytes} {s : Str}

section Fields

variable {α β : Type} {how : Matching} {name : String} {xs : List (Str × Bytes)}

end Fields

end Iscp.Canonical
