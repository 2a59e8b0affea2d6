import Iscp.Go.Text

/-!
# String literals of encoding/json

How encoding/json writes a Go string as a JSON string literal and how it reads one
back. Writing is `Iscp.Go.Json.quote`, the escaping `json.Marshal` applies: the five
short escapes, `\u00XX` for the other control characters and for `<`, `>` and `&`,
` ` and ` `, and the escape `�` for a byte that is not UTF-8. Reading
is in two parts, as in the package: the scanner `Iscp.Go.Json.scanString` finds the
closing quote and refuses a malformed escape, and `Iscp.Go.Json.unquote` decodes what
the scanner let through, combining surrogate pairs and putting `U+FFFD` for a lone
surrogate and for every byte that is not UTF-8.

The two directions meet in `Iscp.Go.Json.scanString_quote` and
`Iscp.Go.Json.unquote_quoteBody`: reading back what was written gives the string's
text, `Iscp.Go.toUtf8`. On valid text that is the string itself, which is what makes
quoting injective there (`Iscp.Go.Json.quote_inj`).
-/

namespace Iscp

namespace Go

namespace Json

/-! ### Writing a literal -/

/-- A hexadecimal digit, in lower case as encoding/json writes it. -/
def hexDigit (n : ℕ) : UInt8 := if n < 10 then UInt8.ofNat (0x30 + n) else UInt8.ofNat (0x57 + n)

/-- The escape `\u00XX` of a scalar below `0x100`. -/
def unicodeEscape (n : ℕ) : Bytes := [0x5c, 0x75, 0x30, 0x30, hexDigit (n / 16), hexDigit (n % 16)]

/-- A scalar inside a literal: escaped where encoding/json escapes it, and its own
encoding otherwise. -/
def quoteChar (c : Char) : Bytes :=
  if c = '\\' ∨ c = '"' then [0x5c, UInt8.ofNat c.toNat]
  else if c = '\x08' then [0x5c, 0x62]
  else if c = '\x0c' then [0x5c, 0x66]
  else if c = '\n' then [0x5c, 0x6e]
  else if c = '\r' then [0x5c, 0x72]
  else if c = '\t' then [0x5c, 0x74]
  else if c.toNat < 0x20 ∨ c = '<' ∨ c = '>' ∨ c = '&' then unicodeEscape c.toNat
  else if c = ' ' then lit "\\u2028"
  else if c = ' ' then lit "\\u2029"
  else String.utf8EncodeChar c

/-- A rune inside a literal: an invalid byte becomes the escape of the replacement
scalar, which is *not* how that scalar itself is written. -/
def quoteRune : Option Char → Bytes
  | some c => quoteChar c
  | none => lit "\\ufffd"

/-- What stands between the two quotes of a literal. -/
def quoteBody (s : Str) : Bytes := (runes s).flatMap quoteRune

/-- **The JSON string literal of a Go string**, as `json.Marshal` writes it. -/
def quote (s : Str) : Bytes := 0x22 :: (quoteBody s ++ [0x22])

/-! ### Reading a literal -/

/-- The value of a hexadecimal digit. -/
def hexVal (b : UInt8) : Option ℕ :=
  if 0x30 ≤ b ∧ b ≤ 0x39 then some (b.toNat - 0x30)
  else if 0x61 ≤ b ∧ b ≤ 0x66 then some (b.toNat - 0x57)
  else if 0x41 ≤ b ∧ b ≤ 0x46 then some (b.toNat - 0x37)
  else none

/-- The letters that may follow a backslash, `u` apart. -/
def shortEscapes : Bytes := lit "bfnrt\\/\""

/-- The states of the scanner inside a string literal. -/
inductive ScanState where
  /-- Between two characters of the literal. -/
  | inString
  /-- After a backslash. -/
  | inStringEsc
  /-- Inside `\uXXXX`, with `left + 1` hexadecimal digits still owed. -/
  | inStringEscU (left : ℕ)

/-- What one byte does to the scanner. -/
inductive ScanStep where
  /-- The literal goes on. -/
  | next (st : ScanState)
  /-- The byte is the closing quote. -/
  | close
  /-- The byte is refused. -/
  | refuse

/-- What a byte of a string does to the state of the scanner. -/
def scanStep : ScanState → UInt8 → ScanStep
  | .inString, b =>
    if b = 0x22 then .close
    else if b = 0x5c then .next .inStringEsc
    else if b < 0x20 then .refuse
    else .next .inString
  | .inStringEsc, b =>
    if b ∈ shortEscapes then .next .inString
    else if b = 0x75 then .next (.inStringEscU 3)
    else .refuse
  | .inStringEscU 0, b => if (hexVal b).isSome then .next .inString else .refuse
  | .inStringEscU (left + 1), b => if (hexVal b).isSome then .next (.inStringEscU left) else .refuse

/-- The scanner from a given state on: the raw bytes up to the closing quote, and what
follows it. -/
def scanStringFrom : ScanState → Bytes → Option (Bytes × Bytes)
  | _, [] => none
  | st, b :: s => match scanStep st b with
      | .next st' => (scanStringFrom st' s).map fun (x, r) => (b :: x, r)
      | .close => some ([], s)
      | .refuse => none

/-- **The scanner inside a string literal**, after its opening quote. A control
character, an unknown escape and an unfinished literal are refused. -/
def scanString (s : Bytes) : Option (Bytes × Bytes) := scanStringFrom .inString s

/-- The code unit of an escape `\uXXXX` at the front of the bytes. -/
def getu4 : Bytes → Option ℕ
  | b :: u :: h₁ :: h₂ :: h₃ :: h₄ :: _ =>
    if b = 0x5c ∧ u = 0x75 then do
      let n₁ ← hexVal h₁
      let n₂ ← hexVal h₂
      let n₃ ← hexVal h₃
      let n₄ ← hexVal h₄
      some (((n₁ * 16 + n₂) * 16 + n₃) * 16 + n₄)
    else none
  | _ => none

/-- Whether a code unit is half of a surrogate pair. -/
def isSurrogate (n : ℕ) : Bool := 0xd800 ≤ n ∧ n < 0xe000

/-- The scalar of a surrogate pair, if the two code units are one. -/
def decodePair (hi lo : ℕ) : Option Char :=
  if 0xd800 ≤ hi ∧ hi < 0xdc00 ∧ 0xdc00 ≤ lo ∧ lo < 0xe000 then
    some (Char.ofNat ((hi - 0xd800) * 1024 + (lo - 0xdc00) + 0x10000))
  else none

/-- The escape at the front of the bytes: what it stands for, and how many bytes it
takes. -/
def unescape : Bytes → Option (Bytes × ℕ)
  | b :: e :: s =>
    if e = 0x22 ∨ e = 0x5c ∨ e = 0x2f ∨ e = 0x27 then some ([e], 2)
    else if e = 0x62 then some ([0x08], 2)
    else if e = 0x66 then some ([0x0c], 2)
    else if e = 0x6e then some ([0x0a], 2)
    else if e = 0x72 then some ([0x0d], 2)
    else if e = 0x74 then some ([0x09], 2)
    else match getu4 (b :: e :: s) with
      | none => none
      | some n =>
        if isSurrogate n then
          match (getu4 (s.drop 4)).bind (decodePair n) with
          | some c => some (String.utf8EncodeChar c, 12)
          | none => some (String.utf8EncodeChar replacement, 6)
        else some (String.utf8EncodeChar (Char.ofNat n), 6)
  | _ => none

/-- Decoding the raw bytes of a literal, `skip` of them having already been accounted
for by the escape or the scalar before them. -/
def unquoteFrom : ℕ → Bytes → Option Str
  | _, [] => some []
  | skip + 1, _ :: s => unquoteFrom skip s
  | 0, b :: s =>
    if b = 0x5c then match unescape (b :: s) with
      | some (x, n) => (unquoteFrom (n - 1) s).map (x ++ ·)
      | none => none
    else if b = 0x22 ∨ b < 0x20 then none
    else if b < 0x80 then (unquoteFrom 0 s).map (b :: ·)
    -- what is not UTF-8 is coerced, byte by byte
    else match decodeRune (b :: s) with
      | some c => (unquoteFrom (c.utf8Size - 1) s).map (String.utf8EncodeChar c ++ ·)
      | none => (unquoteFrom 0 s).map (String.utf8EncodeChar replacement ++ ·)

/-- **The string a literal stands for**, from the raw bytes between its quotes. -/
def unquote (s : Bytes) : Option Str := unquoteFrom 0 s

/-! ### Hexadecimal digits -/

variable {n : ℕ} {c : Char} {x s : Bytes} {t : Str}

theorem hexVal_hexDigit (h : n < 16) : hexVal (hexDigit n) = some n := by
  revert n
  decide

theorem getu4_unicodeEscape (h : n < 0x100) (t : Bytes) :
    getu4 (unicodeEscape n ++ t) = some n := by
  have hz : hexVal 0x30 = some 0 := by decide
  simp only [unicodeEscape, List.cons_append, List.nil_append, getu4, and_self, if_true, hz,
    hexVal_hexDigit (show n / 16 < 16 by omega), hexVal_hexDigit (show n % 16 < 16 by omega),
    Option.bind_eq_bind, Option.bind_some]
  congr 1
  omega

/-! ### Reading back one rune

Each rune is written so that the scanner passes over exactly its bytes and the decoder
turns exactly those bytes back into the rune's text. -/

theorem scanStringFrom_cons {st st' : ScanState} {b : UInt8} (h : scanStep st b = .next st')
    (u : Bytes) :
    scanStringFrom st (b :: u) = (scanStringFrom st' u).map fun (x, r) => (b :: x, r) := by
  rw [scanStringFrom, h]

theorem scanString_plain {l : Bytes} (h : ∀ b ∈ l, b ≠ 0x22 ∧ b ≠ 0x5c ∧ ¬b < 0x20) (u : Bytes) :
    scanString (l ++ u) = (scanString u).map fun (x, r) => (l ++ x, r) := by
  induction l with
  | nil => simp
  | cons b l ih =>
    obtain ⟨h1, h2, h3⟩ := h b List.mem_cons_self
    have hs : scanStep .inString b = .next .inString := by
      rw [scanStep, if_neg h1, if_neg h2, if_neg h3]
    have ih' := ih fun b hb => h b (List.mem_cons_of_mem _ hb)
    rw [scanString] at ih' ⊢
    rw [List.cons_append, scanStringFrom_cons hs, ih', Option.map_map]
    rfl

theorem scanString_short {e : UInt8} (h : e ∈ shortEscapes) (u : Bytes) :
    scanString (0x5c :: e :: u) = (scanString u).map fun (x, r) => ([0x5c, e] ++ x, r) := by
  have hesc : scanStep .inString 0x5c = .next .inStringEsc := rfl
  have he : scanStep .inStringEsc e = .next .inString := if_pos h
  rw [scanString, scanStringFrom_cons hesc, scanStringFrom_cons he, Option.map_map]
  rfl

/-- The scanner passes over an escape `\uXXXX`. -/
theorem scanString_unicode {h₁ h₂ h₃ h₄ : UInt8} (H₁ : (hexVal h₁).isSome)
    (H₂ : (hexVal h₂).isSome) (H₃ : (hexVal h₃).isSome) (H₄ : (hexVal h₄).isSome) (u : Bytes) :
    scanString (0x5c :: 0x75 :: h₁ :: h₂ :: h₃ :: h₄ :: u) =
      (scanString u).map fun (x, r) => ([0x5c, 0x75, h₁, h₂, h₃, h₄] ++ x, r) := by
  have hesc : scanStep .inString 0x5c = .next .inStringEsc := rfl
  have hu : scanStep .inStringEsc 0x75 = .next (.inStringEscU 3) := rfl
  have e₁ : scanStep (.inStringEscU 3) h₁ = .next (.inStringEscU 2) := if_pos H₁
  have e₂ : scanStep (.inStringEscU 2) h₂ = .next (.inStringEscU 1) := if_pos H₂
  have e₃ : scanStep (.inStringEscU 1) h₃ = .next (.inStringEscU 0) := if_pos H₃
  have e₄ : scanStep (.inStringEscU 0) h₄ = .next .inString := if_pos H₄
  rw [scanString, scanStringFrom_cons hesc, scanStringFrom_cons hu, scanStringFrom_cons e₁,
    scanStringFrom_cons e₂, scanStringFrom_cons e₃, scanStringFrom_cons e₄]
  simp only [Option.map_map]
  rfl

theorem plain_of_quoteChar (hq : c ≠ '"') (hb : c ≠ '\\') (hc : ¬c.toNat < 0x20) :
    ∀ b ∈ String.utf8EncodeChar c, b ≠ 0x22 ∧ b ≠ 0x5c ∧ ¬b < 0x20 := by
  intro b hbm
  rcases Nat.lt_or_ge c.toNat 0x80 with hlt | hge
  · rw [utf8EncodeChar_of_lt hlt, List.mem_singleton] at hbm
    have hn : b.toNat = c.toNat := by
      rw [hbm, UInt8.toNat_ofNat']
      omega
    refine ⟨fun h => hq (Char.toNat_inj.mp ?_), fun h => hb (Char.toNat_inj.mp ?_), fun h => hc ?_⟩
    · rw [← hn, h]; rfl
    · rw [← hn, h]; rfl
    · rw [← hn]; exact UInt8.lt_iff_toNat_lt.mp h
  · have h80 := UInt8.le_iff_toNat_le.mp (le_of_mem_utf8EncodeChar hge hbm)
    refine ⟨?_, ?_, ?_⟩
    · rintro rfl; exact absurd h80 (by decide)
    · rintro rfl; exact absurd h80 (by decide)
    · intro h
      have := UInt8.lt_iff_toNat_lt.mp h
      simp at this h80
      omega

/-! Every rune is written in one of three ways, and the two readers are checked against
each once. -/

/-- The bytes are a short escape standing for the scalar. -/
def ShortEscape (x : Bytes) (c : Char) : Prop :=
  ∃ e ∈ shortEscapes, x = [0x5c, e] ∧
    ∀ u, unescape (0x5c :: e :: u) = some (String.utf8EncodeChar c, 2)

/-- The bytes are an escape `\uXXXX` standing for the scalar. -/
def UnicodeEscape (x : Bytes) (c : Char) : Prop :=
  ∃ h₁ h₂ h₃ h₄, ((hexVal h₁).isSome ∧ (hexVal h₂).isSome ∧ (hexVal h₃).isSome ∧
      (hexVal h₄).isSome) ∧ x = [0x5c, 0x75, h₁, h₂, h₃, h₄] ∧
    ∀ u, unescape (0x5c :: 0x75 :: h₁ :: h₂ :: h₃ :: h₄ :: u) = some (String.utf8EncodeChar c, 6)

/-- The bytes are the scalar's own encoding, and it needs no escape. -/
def Plain (x : Bytes) (c : Char) : Prop :=
  x = String.utf8EncodeChar c ∧ c ≠ '"' ∧ c ≠ '\\' ∧ ¬c.toNat < 0x20

theorem unicodeEscape_spec (hc : c.toNat < 0x80) : UnicodeEscape (unicodeEscape c.toNat) c := by
  refine ⟨0x30, 0x30, hexDigit (c.toNat / 16), hexDigit (c.toNat % 16), ⟨rfl, rfl, ?_, ?_⟩, rfl,
    fun u => ?_⟩
  · rw [hexVal_hexDigit (by omega)]
    rfl
  · rw [hexVal_hexDigit (by omega)]
    rfl
  · have hg := getu4_unicodeEscape (show c.toNat < 0x100 by omega) u
    have hs : isSurrogate c.toNat = false := by
      simp only [isSurrogate, decide_eq_false_iff_not]
      omega
    simp only [unicodeEscape, List.cons_append, List.nil_append] at hg
    simp only [unescape, hg, hs]
    simp [Char.ofNat_toNat]

/-- How `encoding/json` writes a character: a short escape, a hexadecimal one, or the character
itself. -/
theorem quoteChar_cases (c : Char) :
    ShortEscape (quoteChar c) c ∨ UnicodeEscape (quoteChar c) c ∨ Plain (quoteChar c) c := by
  rw [quoteChar]
  by_cases h1 : c = '\\' ∨ c = '"'
  · rw [if_pos h1]
    rcases h1 with rfl | rfl
    · exact Or.inl ⟨0x5c, by decide, rfl, fun _ => rfl⟩
    · exact Or.inl ⟨0x22, by decide, rfl, fun _ => rfl⟩
  by_cases h2 : c = '\x08'
  · rw [if_neg h1, if_pos h2, h2]
    exact Or.inl ⟨0x62, by decide, rfl, fun _ => rfl⟩
  by_cases h3 : c = '\x0c'
  · rw [if_neg h1, if_neg h2, if_pos h3, h3]
    exact Or.inl ⟨0x66, by decide, rfl, fun _ => rfl⟩
  by_cases h4 : c = '\n'
  · rw [if_neg h1, if_neg h2, if_neg h3, if_pos h4, h4]
    exact Or.inl ⟨0x6e, by decide, rfl, fun _ => rfl⟩
  by_cases h5 : c = '\r'
  · rw [if_neg h1, if_neg h2, if_neg h3, if_neg h4, if_pos h5, h5]
    exact Or.inl ⟨0x72, by decide, rfl, fun _ => rfl⟩
  by_cases h6 : c = '\t'
  · rw [if_neg h1, if_neg h2, if_neg h3, if_neg h4, if_neg h5, if_pos h6, h6]
    exact Or.inl ⟨0x74, by decide, rfl, fun _ => rfl⟩
  rw [if_neg h1, if_neg h2, if_neg h3, if_neg h4, if_neg h5, if_neg h6]
  by_cases h7 : c.toNat < 0x20 ∨ c = '<' ∨ c = '>' ∨ c = '&'
  · rw [if_pos h7]
    refine Or.inr (Or.inl (unicodeEscape_spec ?_))
    rcases h7 with h | rfl | rfl | rfl
    · omega
    all_goals decide
  rw [if_neg h7]
  by_cases h8 : c = '\u2028'
  · rw [if_pos h8, h8]
    exact Or.inr (Or.inl ⟨0x32, 0x30, 0x32, 0x38, by decide, by decide, fun _ => rfl⟩)
  by_cases h9 : c = '\u2029'
  · rw [if_neg h8, if_pos h9, h9]
    exact Or.inr (Or.inl ⟨0x32, 0x30, 0x32, 0x39, by decide, by decide, fun _ => rfl⟩)
  · rw [if_neg h8, if_neg h9]
    exact Or.inr (Or.inr ⟨rfl, fun h => h1 (Or.inr h), fun h => h1 (Or.inl h),
      fun h => h7 (Or.inl h)⟩)

theorem quoteRune_cases (r : Option Char) :
    ShortEscape (quoteRune r) (r.getD replacement) ∨
      UnicodeEscape (quoteRune r) (r.getD replacement) ∨
      Plain (quoteRune r) (r.getD replacement) := by
  cases r with
  | some c => exact quoteChar_cases c
  | none => exact Or.inr (Or.inl ⟨0x66, 0x66, 0x66, 0x64, by decide, by decide, fun _ => rfl⟩)

/-- **The scanner passes over exactly the bytes of a rune.** -/
theorem scanString_quoteRune (r : Option Char) (u : Bytes) :
    scanString (quoteRune r ++ u) = (scanString u).map fun (x, t) => (quoteRune r ++ x, t) := by
  rcases quoteRune_cases r with ⟨e, he, hx, -⟩ | ⟨h₁, h₂, h₃, h₄, hh, hx, -⟩ | ⟨hx, hq, hb, hc⟩
  · rw [hx]
    exact scanString_short he u
  · rw [hx]
    exact scanString_unicode hh.1 hh.2.1 hh.2.2.1 hh.2.2.2 u
  · rw [hx]
    exact scanString_plain (plain_of_quoteChar hq hb hc) u

/-- **Scanning a written literal** finds its closing quote. -/
theorem scanString_quote (s : Str) (u : Bytes) :
    scanString (quoteBody s ++ 0x22 :: u) = some (quoteBody s, u) := by
  rw [quoteBody]
  induction runes s with
  | nil => rfl
  | cons r rs ih =>
    rw [List.flatMap_cons, List.append_assoc, scanString_quoteRune, ih]
    rfl

/-! ### Decoding back one rune -/

theorem unquoteFrom_skip (l t : Bytes) : unquoteFrom l.length (l ++ t) = unquoteFrom 0 t := by
  induction l with
  | nil => rfl
  | cons b l ih => exact ih

/-- Decoding an escape of `n` bytes. -/
theorem unquoteFrom_escape {l : Bytes} (u : Bytes)
    (h : unescape (0x5c :: l ++ u) = some (x, (0x5c :: l).length)) :
    unquoteFrom 0 (0x5c :: l ++ u) = (unquoteFrom 0 u).map (x ++ ·) := by
  rw [List.cons_append] at h ⊢
  rw [unquoteFrom, if_pos rfl, h]
  simp only [List.length_cons, Nat.add_sub_cancel, unquoteFrom_skip]

theorem unquoteFrom_plain (hq : c ≠ '"') (hb : c ≠ '\\') (hc : ¬c.toNat < 0x20) (u : Bytes) :
    unquoteFrom 0 (String.utf8EncodeChar c ++ u) =
      (unquoteFrom 0 u).map (String.utf8EncodeChar c ++ ·) := by
  have hplain := plain_of_quoteChar hq hb hc
  obtain ⟨b, l, hbl⟩ := List.exists_cons_of_ne_nil (utf8EncodeChar_ne_nil c)
  obtain ⟨h1, h2, h3⟩ := hplain b (hbl ▸ List.mem_cons_self)
  have hlen : c.utf8Size - 1 = l.length := by
    rw [← String.length_utf8EncodeChar, hbl]
    simp
  have hdec := decodeRune_encode c u
  rw [hbl, List.cons_append] at hdec ⊢
  rw [unquoteFrom, if_neg h2, if_neg (by simp only [h1, h3, or_self, not_false_eq_true])]
  split_ifs with h80
  · -- a single byte: the encoding of a scalar below `0x80` has no more
    have hn : c.toNat < 0x80 := by
      by_contra hge
      have h := le_of_mem_utf8EncodeChar (Nat.le_of_not_lt hge) (hbl ▸ List.mem_cons_self)
      exact absurd h80 (by rw [UInt8.not_lt]; exact h)
    rw [utf8EncodeChar_of_lt hn] at hbl
    injection hbl with _ hl
    subst hl
    rfl
  · rw [hdec]
    simp only [hlen, unquoteFrom_skip, hbl, List.cons_append]

/-- **Decoding a written rune** gives its text, the replacement scalar for an invalid
byte. -/
theorem unquoteFrom_quoteRune (r : Option Char) (u : Bytes) :
    unquoteFrom 0 (quoteRune r ++ u) =
      (unquoteFrom 0 u).map (String.utf8EncodeChar (r.getD replacement) ++ ·) := by
  rcases quoteRune_cases r with ⟨e, -, hx, hu⟩ | ⟨h₁, h₂, h₃, h₄, -, hx, hu⟩ | ⟨hx, hq, hb, hc⟩
  · rw [hx]
    exact unquoteFrom_escape (l := [e]) u (hu u)
  · rw [hx]
    exact unquoteFrom_escape (l := [0x75, h₁, h₂, h₃, h₄]) u (hu u)
  · rw [hx]
    exact unquoteFrom_plain hq hb hc u

/-- **Reading back a written literal** gives the string's text: the string itself when
it is UTF-8. -/
theorem unquote_quoteBody (s : Str) : unquote (quoteBody s) = some (toUtf8 s) := by
  rw [quoteBody, toUtf8, unquote]
  induction runes s with
  | nil => rfl
  | cons r rs ih =>
    rw [List.flatMap_cons, unquoteFrom_quoteRune, ih]
    rfl

/-! ### What a literal stands for is valid text -/

/-- An escape stands for a scalar below `0x80`, or for one `\uXXXX` names. -/
theorem unescape_cases (h : unescape s = some (x, n)) :
    (∃ b : UInt8, b < 0x80 ∧ x = [b]) ∨ ∃ c, x = String.utf8EncodeChar c := by
  unfold unescape at h
  split at h
  case h_2 => exact absurd h (by simp)
  case h_1 b e s =>
    by_cases h1 : e = 0x22 ∨ e = 0x5c ∨ e = 0x2f ∨ e = 0x27
    · rw [if_pos h1] at h
      refine Or.inl ⟨e, ?_, (congrArg Prod.fst (Option.some.inj h)).symm⟩
      rcases h1 with rfl | rfl | rfl | rfl <;> decide
    rw [if_neg h1] at h
    by_cases h2 : e = 0x62
    · rw [if_pos h2] at h
      exact Or.inl ⟨0x08, by decide, (congrArg Prod.fst (Option.some.inj h)).symm⟩
    rw [if_neg h2] at h
    by_cases h3 : e = 0x66
    · rw [if_pos h3] at h
      exact Or.inl ⟨0x0c, by decide, (congrArg Prod.fst (Option.some.inj h)).symm⟩
    rw [if_neg h3] at h
    by_cases h4 : e = 0x6e
    · rw [if_pos h4] at h
      exact Or.inl ⟨0x0a, by decide, (congrArg Prod.fst (Option.some.inj h)).symm⟩
    rw [if_neg h4] at h
    by_cases h5 : e = 0x72
    · rw [if_pos h5] at h
      exact Or.inl ⟨0x0d, by decide, (congrArg Prod.fst (Option.some.inj h)).symm⟩
    rw [if_neg h5] at h
    by_cases h6 : e = 0x74
    · rw [if_pos h6] at h
      exact Or.inl ⟨0x09, by decide, (congrArg Prod.fst (Option.some.inj h)).symm⟩
    rw [if_neg h6] at h
    rcases hg : getu4 (b :: e :: s) with _ | m
    · rw [hg] at h
      exact absurd h (by simp)
    · rw [hg] at h
      refine Or.inr ?_
      by_cases hm : isSurrogate m
      · simp only [hm, if_true] at h
        rcases hp : (getu4 (s.drop 4)).bind (decodePair m) with _ | c
        · rw [hp] at h
          exact ⟨replacement, (congrArg Prod.fst (Option.some.inj h)).symm⟩
        · rw [hp] at h
          exact ⟨c, (congrArg Prod.fst (Option.some.inj h)).symm⟩
      · simp only [hm] at h
        exact ⟨Char.ofNat m, (congrArg Prod.fst (Option.some.inj h)).symm⟩

theorem utf8_of_unescape (h : unescape s = some (x, n)) (ht : Utf8 t) : Utf8 (x ++ t) := by
  rcases unescape_cases h with ⟨b, hb, rfl⟩ | ⟨c, rfl⟩
  · exact utf8_cons_of_lt hb ht
  · exact utf8_append_encode c ht

/-- **Whatever the literal, its string is valid UTF-8.** -/
theorem utf8_of_unquoteFrom (k : ℕ) (s : Bytes) (h : unquoteFrom k s = some t) : Utf8 t := by
  induction k, s using unquoteFrom.induct generalizing t with
  | case1 k =>
    simp only [unquoteFrom, Option.some.injEq] at h
    subst h
    simp [Utf8]
  | case2 k b s ih => exact ih h
  | case3 s x n hu ih =>
    rw [unquoteFrom, if_pos rfl, hu] at h
    obtain ⟨t', ht', rfl⟩ := Option.map_eq_some_iff.mp h
    exact utf8_of_unescape hu (ih ht')
  | case4 s hu =>
    rw [unquoteFrom, if_pos rfl, hu] at h
    exact absurd h (by simp)
  | case5 b s hb hc =>
    rw [unquoteFrom, if_neg hb, if_pos hc] at h
    exact absurd h (by simp)
  | case6 b s hb hc hlt ih =>
    rw [unquoteFrom, if_neg hb, if_neg hc, if_pos hlt] at h
    obtain ⟨t', ht', rfl⟩ := Option.map_eq_some_iff.mp h
    exact utf8_cons_of_lt hlt (ih ht')
  | case7 b s hb hc hlt c hd ih =>
    rw [unquoteFrom, if_neg hb, if_neg hc, if_neg hlt, hd] at h
    obtain ⟨t', ht', rfl⟩ := Option.map_eq_some_iff.mp h
    exact utf8_append_encode c (ih ht')
  | case8 b s hb hc hlt hd ih =>
    rw [unquoteFrom, if_neg hb, if_neg hc, if_neg hlt, hd] at h
    obtain ⟨t', ht', rfl⟩ := Option.map_eq_some_iff.mp h
    exact utf8_append_encode replacement (ih ht')

theorem utf8_of_unquote (h : unquote s = some t) : Utf8 t :=
  utf8_of_unquoteFrom 0 s h

end Json

end Go

end Iscp
