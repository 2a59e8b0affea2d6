import Iscp.Go.Text

/-!
# Functions of package strings

What the servers use of it: white space is cut off around texts that come from a
configuration or a header, and a text is *blank* when nothing is left of it.

A Go map is a function here, unless its entries are listed one after the other: looking up
a key is application, and a loop that treats every entry alike is a composition.
-/

namespace Iscp

namespace Go

/-- `unicode.IsSpace`. -/
def isSpace (c : Char) : Bool :=
  let n := c.toNat
  (9 ≤ n ∧ n ≤ 13) ∨ n = 0x20 ∨ n = 0x85 ∨ n = 0xa0 ∨ n = 0x1680 ∨ (0x2000 ≤ n ∧ n ≤ 0x200a) ∨
    n = 0x2028 ∨ n = 0x2029 ∨ n = 0x202f ∨ n = 0x205f ∨ n = 0x3000

/-- The string without the white space at its start, `skip` bytes of it belonging to a
scalar that has been found to be white space. -/
def trimLeftFrom : ℕ → Str → Str
  | _, [] => []
  | skip + 1, _ :: s => trimLeftFrom skip s
  | 0, b :: s => match decodeRune (b :: s) with
      | some c => if isSpace c then trimLeftFrom (c.utf8Size - 1) s else b :: s
      | none => b :: s

/-- Nothing but white space. -/
def blank (s : Str) : Bool := trimLeftFrom 0 s = []

/-- The string up to where it is blank. -/
def trimRight : Str → Str
  | [] => []
  | b :: s => if blank (b :: s) then [] else b :: trimRight s

/-- **`strings.TrimSpace`.** -/
def trimSpace (s : Str) : Str := trimRight (trimLeftFrom 0 s)

/-- The byte of a lower-case letter. -/
def toLower (b : UInt8) : UInt8 := if 0x41 ≤ b ∧ b ≤ 0x5a then b + 0x20 else b

/-- `strings.EqualFold` against a text without letters that other scalars fold to. -/
def equalFold (s t : Str) : Bool := s.map toLower = t.map toLower

/-- A Go map that is looked up only. -/
abbrev Map (α : Type) := Str → Option α

/-- `m[k] = a`. -/
def Map.set {α : Type} (m : Map α) (k : Str) (a : α) : Map α := Function.update m k (some a)

@[simp] theorem Map.set_self {α : Type} (m : Map α) (k : Str) (a : α) : m.set k a k = some a :=
  Function.update_self ..

theorem Map.set_of_ne {α : Type} (m : Map α) {k k' : Str} (h : k' ≠ k) (a : α) :
    m.set k a k' = m k' := Function.update_of_ne h ..

theorem decodeRune_of_lt {b : UInt8} (hb : b < 0x80) (s : Str) :
    decodeRune (b :: s) = some (Char.ofNat b.toNat) := by
  rw [← decodeRune_encode (Char.ofNat b.toNat) s, utf8EncodeChar_ofNat hb]
  rfl

theorem trimSpace_cons_ne_nil {b : UInt8} (hb : b < 0x80)
    (hspace : isSpace (Char.ofNat b.toNat) = false) (s : Str) : trimSpace (b :: s) ≠ [] := by
  have hleft : trimLeftFrom 0 (b :: s) = b :: s := by
    rw [trimLeftFrom, decodeRune_of_lt hb]
    simp only [hspace, Bool.false_eq_true, if_false]
  rw [trimSpace, hleft, trimRight, blank, hleft]
  simp

end Go

end Iscp
