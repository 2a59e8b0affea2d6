import Mathlib.Data.List.Basic

/-!
# Go strings

A Go `string` is a sequence of bytes, with no promise that they are UTF-8. Every
text the protocol handles is one, so the model keeps the bytes: equality and the
order `<` on strings are equality and lexicographic order of bytes, and what
encoding/json does to bytes that are *not* UTF-8 can be said instead of being
typed away.

What the text means is read off by `Iscp.Go.runes`, the sequence a `for … range`
loop over the string yields: a Unicode scalar where the bytes start with the
encoding of one, and an *invalid byte* (`none`) where they do not. Decoding one
scalar is Lean's own strict UTF-8 decoder, which like Go's `utf8.DecodeRune`
refuses overlong forms, surrogates and everything above `U+10FFFF`.

Two notions are derived from it: a string is `Iscp.Go.Utf8` when no byte is
invalid, and `Iscp.Go.toUtf8` is what a trip through encoding/json leaves of a
string, with `U+FFFD` in the place of each invalid byte. The first are exactly the
strings the second keeps (`Iscp.Go.toUtf8_eq_self`).
-/

namespace Iscp

namespace Go

/-- A byte sequence, Go's `[]byte`. -/
abbrev Bytes := List UInt8

/-- A Go `string`: its bytes. -/
abbrev Str := List UInt8

instance : LawfulBEq Str := inferInstance

instance : LawfulBEq (Str × Str) := inferInstance

/-- A string literal of the source: the bytes of its UTF-8 encoding. -/
def lit (s : String) : Str := s.toByteArray.data.toList

@[simp] theorem lit_inj {s t : String} : lit s = lit t ↔ s = t := by
  refine ⟨fun h => ?_, fun h => h ▸ rfl⟩
  have hd : s.toByteArray.data = t.toByteArray.data := Array.toList_inj.mp h
  exact String.toByteArray_inj.mp (ByteArray.ext hd)

/-! ### Decoding one scalar -/

/-- The UTF-8 encoding of a sequence of scalars. -/
def encode (cs : List Char) : Str := cs.flatMap String.utf8EncodeChar

@[simp] theorem encode_nil : encode [] = [] := rfl

@[simp] theorem encode_cons (c : Char) (cs : List Char) :
    encode (c :: cs) = String.utf8EncodeChar c ++ encode cs := rfl

/-- The scalar whose encoding the string starts with, if there is one
(`utf8.DecodeRune`). An encoding has at most four bytes, so no more are looked at. -/
def decodeRune (s : Str) : Option Char := (s.take 4).toByteArray.utf8DecodeChar? 0

theorem decodeRune_encode (c : Char) (t : Str) :
    decodeRune (String.utf8EncodeChar c ++ t) = some c := by
  have hlen : (String.utf8EncodeChar c).length ≤ 4 := by
    rw [String.length_utf8EncodeChar]
    exact c.utf8Size_le_four
  rw [decodeRune, List.take_append, List.take_of_length_le hlen, List.toByteArray_append]
  exact ByteArray.utf8DecodeChar?_utf8EncodeChar_append

variable {s : Str} {c : Char} {b : UInt8}

/-- **A decoded scalar is really there**: the string is its encoding and the rest. -/
theorem eq_encode_of_decodeRune (h : decodeRune s = some c) :
    ∃ t, s = String.utf8EncodeChar c ++ t := by
  obtain ⟨l, hl⟩ := ByteArray.exists_of_utf8DecodeChar?_eq_some h
  have hdata := congrArg (fun b => b.data.toList) hl
  simp only [ByteArray.data_append, Array.toList_append, List.data_toByteArray] at hdata
  refine ⟨l.data.toList ++ s.drop 4, ?_⟩
  rw [← List.append_assoc, ← hdata]
  exact (List.take_append_drop 4 s).symm

theorem utf8EncodeChar_ne_nil (c : Char) : String.utf8EncodeChar c ≠ [] := by
  intro h
  have := congrArg List.length h
  rw [String.length_utf8EncodeChar] at this
  exact absurd c.utf8Size_pos (by simp at this; omega)

/-- A scalar below `0x80` is encoded by one byte, itself. -/
theorem utf8EncodeChar_of_lt (h : c.toNat < 0x80) :
    String.utf8EncodeChar c = [UInt8.ofNat c.toNat] := by
  have hv : c.val.toNat = c.toNat := rfl
  unfold String.utf8EncodeChar
  simp only [hv]
  rw [if_pos (by omega)]

theorem utf8EncodeChar_ofNat (hb : b < 0x80) :
    String.utf8EncodeChar (Char.ofNat b.toNat) = [b] := by
  have hn : b.toNat < 0x80 := UInt8.lt_iff_toNat_lt.mp hb
  have hv : (Char.ofNat b.toNat).toNat = b.toNat := by
    rw [Char.ofNat, dif_pos (Or.inl (by omega))]
    rfl
  rw [utf8EncodeChar_of_lt (by rw [hv]; exact hn), hv, UInt8.ofNat_toNat]

/-- Every byte of a longer encoding is at least `0x80`, so none of them is an ASCII
character. -/
theorem le_of_mem_utf8EncodeChar (h : 0x80 ≤ c.toNat) (hb : b ∈ String.utf8EncodeChar c) :
    0x80 ≤ b := by
  have hv : c.val.toNat = c.toNat := rfl
  rw [UInt8.le_iff_toNat_le]
  unfold String.utf8EncodeChar at hb
  simp only [hv] at hb
  split at hb
  · omega
  split at hb
  · simp only [List.mem_cons, List.not_mem_nil, or_false] at hb
    rcases hb with rfl | rfl <;> simp <;> omega
  split at hb
  · simp only [List.mem_cons, List.not_mem_nil, or_false] at hb
    rcases hb with rfl | rfl | rfl <;> simp <;> omega
  · simp only [List.mem_cons, List.not_mem_nil, or_false] at hb
    rcases hb with rfl | rfl | rfl | rfl <;> simp <;> omega

/-! ### The runes of a string -/

/-- The runes of a string, `skip` bytes of it having already been accounted for by
the scalar before them. -/
def runesFrom : ℕ → Str → List (Option Char)
  | _, [] => []
  | skip + 1, _ :: s => runesFrom skip s
  | 0, b :: s => match decodeRune (b :: s) with
      | some c => some c :: runesFrom (c.utf8Size - 1) s
      | none => none :: runesFrom 0 s

/-- **The runes of a string**: what a `for … range` loop over it sees, with `none`
for a byte that starts no encoding. -/
def runes (s : Str) : List (Option Char) := runesFrom 0 s

@[simp] theorem runes_nil : runes [] = [] := rfl

theorem runesFrom_append (l t : Str) : runesFrom l.length (l ++ t) = runesFrom 0 t := by
  induction l with
  | nil => rfl
  | cons b l ih => exact ih

theorem runes_encode_append (c : Char) (t : Str) :
    runes (String.utf8EncodeChar c ++ t) = some c :: runes t := by
  obtain ⟨b, l, hbl⟩ := List.exists_cons_of_ne_nil (utf8EncodeChar_ne_nil c)
  have hlen : c.utf8Size - 1 = l.length := by
    rw [← String.length_utf8EncodeChar, hbl]
    simp
  have hdec := decodeRune_encode c t
  rw [hbl, List.cons_append] at hdec
  rw [hbl, List.cons_append, runes, runesFrom, hdec]
  simp only [hlen, runesFrom_append]
  rfl

theorem runes_cons_of_decodeRune_eq_none (h : decodeRune (b :: s) = none) :
    runes (b :: s) = none :: runes s := by
  rw [runes, runesFrom, h]
  rfl

@[simp] theorem runes_encode (cs : List Char) : runes (encode cs) = cs.map some := by
  induction cs with
  | nil => rfl
  | cons c cs ih => rw [encode_cons, runes_encode_append, ih, List.map_cons]

/-- **The string is its runes**: either it is empty, or it starts with a scalar, or
with a byte that starts no scalar. The induction every proof about a string's text
goes by. -/
@[elab_as_elim] theorem rune_induction {motive : Str → Prop} (nil : motive [])
    (scalar : ∀ c t, motive t → motive (String.utf8EncodeChar c ++ t))
    (invalid : ∀ b t, decodeRune (b :: t) = none → motive t → motive (b :: t)) (s : Str) :
    motive s := by
  induction hn : s.length using Nat.strongRecOn generalizing s with
  | _ n ih =>
    cases s with
    | nil => exact nil
    | cons b s =>
      rcases hd : decodeRune (b :: s) with _ | c
      · exact invalid b s hd (ih s.length (by simp [← hn]) s rfl)
      · obtain ⟨t, ht⟩ := eq_encode_of_decodeRune hd
        rw [ht]
        refine scalar c t (ih t.length ?_ t rfl)
        have hpos := List.length_pos_iff.mpr (utf8EncodeChar_ne_nil c)
        have hlen := congrArg List.length ht
        rw [List.length_append] at hlen
        omega

/-! ### Valid text -/

/-- **The string is valid UTF-8**: no byte of it is invalid. -/
def Utf8 (s : Str) : Prop := none ∉ runes s

instance (s : Str) : Decidable (Utf8 s) := inferInstanceAs (Decidable (none ∉ runes s))

/-- The replacement scalar encoding/json puts in the place of an invalid byte. -/
def replacement : Char := '�'

/-- **What encoding/json leaves of a string**: the encoding of its runes, with the
replacement scalar for each invalid byte. -/
def toUtf8 (s : Str) : Str := encode ((runes s).map fun r => r.getD replacement)

@[simp] theorem toUtf8_nil : toUtf8 [] = [] := rfl

@[simp] theorem toUtf8_encode (cs : List Char) : toUtf8 (encode cs) = encode cs := by
  simp [toUtf8, Function.comp_def]

theorem utf8_encode (cs : List Char) : Utf8 (encode cs) := by
  simp [Utf8]

theorem utf8_iff_exists : Utf8 s ↔ ∃ cs, s = encode cs := by
  refine ⟨fun h => ?_, ?_⟩
  · induction s using rune_induction with
    | nil => exact ⟨[], rfl⟩
    | scalar c t ih =>
      rw [Utf8, runes_encode_append] at h
      obtain ⟨cs, rfl⟩ := ih fun hn => h (List.mem_cons_of_mem _ hn)
      exact ⟨c :: cs, rfl⟩
    | invalid b t hd _ =>
      rw [Utf8, runes_cons_of_decodeRune_eq_none hd] at h
      exact absurd List.mem_cons_self h
  · rintro ⟨cs, rfl⟩
    exact utf8_encode cs

theorem utf8_append_encode (c : Char) {t : Str} (h : Utf8 t) :
    Utf8 (String.utf8EncodeChar c ++ t) := by
  obtain ⟨cs, rfl⟩ := utf8_iff_exists.mp h
  exact utf8_encode (c :: cs)

theorem utf8_cons_of_lt (hb : b < 0x80) {t : Str} (h : Utf8 t) : Utf8 (b :: t) := by
  have := utf8_append_encode (Char.ofNat b.toNat) h
  rwa [utf8EncodeChar_ofNat hb] at this

theorem utf8_of_forall_lt (h : ∀ b ∈ s, b < 0x80) : Utf8 s := by
  induction s with
  | nil => exact utf8_encode []
  | cons b s ih =>
    obtain ⟨hb, hs⟩ := List.forall_mem_cons.mp h
    exact utf8_cons_of_lt hb (ih hs)

/-- **Valid text survives encoding/json unchanged.** -/
theorem toUtf8_eq_self (h : Utf8 s) : toUtf8 s = s := by
  obtain ⟨cs, rfl⟩ := utf8_iff_exists.mp h
  exact toUtf8_encode cs

theorem utf8_toUtf8 (s : Str) : Utf8 (toUtf8 s) := utf8_encode _

theorem toUtf8_idem (s : Str) : toUtf8 (toUtf8 s) = toUtf8 s := toUtf8_eq_self (utf8_toUtf8 s)

@[simp] theorem utf8_lit (s : String) : Utf8 (lit s) := by
  obtain ⟨cs, hcs⟩ := s.isValidUTF8
  refine utf8_iff_exists.mpr ⟨cs, ?_⟩
  rw [lit, hcs]
  simp [List.utf8Encode, encode, List.data_toByteArray]

@[simp] theorem toUtf8_lit (s : String) : toUtf8 (lit s) = lit s := toUtf8_eq_self (utf8_lit s)

end Go

end Iscp
