import Iscp.Errors
import Iscp.Go.Entries
import Iscp.Go.Json.Grammar
import Iscp.Go.Json.Value

/-!
# The strict parser

`Iscp.Canonical.parseStrict` reads the JSON of the canonical profile: integers only, no
object with two members of one name, nothing after the value. It is written as the
original is, over the tokens of `Iscp.Go.Json.Decoder`, with the loops over members and
elements as recursive calls. The recursion is on a bound for the depth of the calls
still to come; of two calls in a row one reads a token, so twice the length of the input
is bound enough (`Iscp.Canonical.good_parse`).

What the parser returns is a `Iscp.Canonical.Strict` value
(`Iscp.Canonical.strict_of_parseStrict`). That it reads the text of a value as that value is
the subject of `Iscp.Canonical.ReadBack`.
-/

namespace Iscp

namespace Canonical

open Go Go.Json

/-- Why the parser stops. -/
inductive ParseError where
  /-- The decoder found no token. -/
  | decode (e : DecodeError)
  /-- The value is outside the profile; the format of the message. -/
  | refused (format : String)
  /-- The bound on the number of calls is used up. -/
  | outOfFuel
  deriving DecidableEq

/-- The error as it is returned. -/
def ParseError.toError : ParseError → Error
  | .decode .eof => .plain "EOF"
  | .decode .syntaxError => .plain "invalid character %q"
  | .refused format => .plain format
  | .outOfFuel => .plain "out of fuel"

/-- A number of the profile: an integer of 64 bits. -/
def parseNumber (s : Bytes) : Except ParseError Value :=
  if s.any fun b => b = 0x2e ∨ b = 0x65 ∨ b = 0x45 then
    .error (.refused "float values are not allowed")
  else if 1 < s.length ∧ s.head? = some 0x30 then
    .error (.refused "leading zero integer is not allowed")
  else if (lit "-0").isPrefixOf s then
    .error (.refused "negative leading zero integer is not allowed")
  else match parseInt s with
    | none => .error (.refused "strconv.ParseInt: parsing %q: value out of range")
    | some i => .ok (.int i)

mutual

/-- **`parseValue`**: one value of the profile. -/
def parseValue : ℕ → Decoder → Except ParseError (Value × Decoder)
  | 0, _ => .error .outOfFuel
  | n + 1, dec => match dec.token with
      | .error e => .error (.decode e)
      | .ok (.delim .lbrace, dec) => parseMembers n [] dec
      | .ok (.delim .lbracket, dec) => parseElements n [] dec
      | .ok (.delim _, _) => .error (.refused "unexpected delimiter %q")
      | .ok (.number s, dec) => (parseNumber s).map fun v => (v, dec)
      | .ok (.str s, dec) => .ok (.str s, dec)
      | .ok (.bool b, dec) => .ok (.bool b, dec)
      | .ok (.null, dec) => .ok (.null, dec)

/-- The loop over the members of an object, and its closing brace. -/
def parseMembers : ℕ → List (Str × Value) → Decoder → Except ParseError (Value × Decoder)
  | 0, _, _ => .error .outOfFuel
  | n + 1, obj, dec =>
    if dec.more then match dec.token with
      | .error e => .error (.decode e)
      | .ok (.str key, dec) =>
        if key ∈ obj.map Prod.fst then .error (.refused "duplicate object field %q")
        else match parseValue n dec with
          | .error e => .error e
          | .ok (value, dec) => parseMembers n (obj ++ [(key, value)]) dec
      | .ok _ => .error (.refused "object key is not string")
    else match dec.token with
      | .error e => .error (.decode e)
      | .ok (.delim .rbrace, dec) => .ok (.obj obj, dec)
      | .ok _ => .error (.refused "object not closed")

/-- The loop over the elements of an array, and its closing bracket. -/
def parseElements : ℕ → List Value → Decoder → Except ParseError (Value × Decoder)
  | 0, _, _ => .error .outOfFuel
  | n + 1, arr, dec =>
    if dec.more then match parseValue n dec with
      | .error e => .error e
      | .ok (value, dec) => parseElements n (arr ++ [value]) dec
    else match dec.token with
      | .error e => .error (.decode e)
      | .ok (.delim .rbracket, dec) => .ok (.arr arr, dec)
      | .ok _ => .error (.refused "array not closed")

end

/-- **`ParseStrict`**: the one value of the input. The end of the input is recognised by
`More`, and by a `Decode` that has to fail. -/
def parseStrict (input : Bytes) : Except Error Value :=
  match parseValue (2 * input.length + 1) (newDecoder input) with
  | .error e => .error (.wrap .canonicalInvalid (lit "invalid canonical json input") e.toError)
  | .ok (value, dec) =>
    if dec.more then .error (.new .canonicalInvalid (lit "unexpected trailing json value"))
    else match dec.decode with
      | .ok _ => .error (.new .canonicalInvalid (lit "unexpected trailing json value"))
      | .error _ => .ok value

/-! ### What the parser returns -/

/-- **The values of the canonical profile**: integers within `int64`, strings and member
names in UTF-8, no two members of one name. -/
inductive Strict : Value → Prop where
  | null : Strict .null
  | bool (b : Bool) : Strict (.bool b)
  | int {i : ℤ} (h : IsInt64 i) : Strict (.int i)
  | str {s : Str} (h : Utf8 s) : Strict (.str s)
  | arr {xs : List Value} (h : ∀ v ∈ xs, Strict v) : Strict (.arr xs)
  | obj {m : List (Str × Value)} (hk : UniqueKeys m) (hu : ∀ kv ∈ m, Utf8 kv.1)
      (hv : ∀ kv ∈ m, Strict kv.2) : Strict (.obj m)

variable {v : Value}

theorem Strict.arr_append {xs : List Value} (hxs : Strict (.arr xs)) (hv : Strict v) :
    Strict (.arr (xs ++ [v])) := by
  obtain _ | _ | _ | _ | h | _ := hxs
  refine .arr fun w hw => ?_
  rcases List.mem_append.mp hw with hw | hw
  · exact h w hw
  · exact List.mem_singleton.mp hw ▸ hv

theorem Strict.obj_append {m : List (Str × Value)} {k : Str} (hm : Strict (.obj m))
    (hk : k ∉ m.map Prod.fst) (hu : Utf8 k) (hv : Strict v) : Strict (.obj (m ++ [(k, v)])) := by
  obtain _ | _ | _ | _ | _ | ⟨hk', hu', hv'⟩ := hm
  refine .obj (uniqueKeys_append_singleton v hk' hk) (fun kv h => ?_) fun kv h => ?_
  · rcases List.mem_append.mp h with h | h
    · exact hu' kv h
    · exact List.mem_singleton.mp h ▸ hu
  · rcases List.mem_append.mp h with h | h
    · exact hv' kv h
    · exact List.mem_singleton.mp h ▸ hv

theorem strict_of_parseNumber {s : Bytes} (h : parseNumber s = .ok v) : Strict v := by
  unfold parseNumber at h
  split_ifs at h
  split at h
  · cases h
  · next i hi =>
    cases h
    exact .int (isInt64_of_parseInt hi)

theorem ne_outOfFuel_of_parseNumber {s : Bytes} {e : ParseError} (h : parseNumber s = .error e) :
    e ≠ .outOfFuel := by
  unfold parseNumber at h
  split_ifs at h
  · exact Except.error.inj h ▸ nofun
  · exact Except.error.inj h ▸ nofun
  · exact Except.error.inj h ▸ nofun
  · split at h
    · exact Except.error.inj h ▸ nofun
    · cases h

/-- What a parser run is worth: the value is of the profile and less input is left, or
the run stopped for another reason than its bound. -/
def Good (dec : Decoder) : Except ParseError (Value × Decoder) → Prop
  | .ok (v, dec') => dec'.rest.length < dec.rest.length ∧ Strict v
  | .error e => e ≠ .outOfFuel

theorem Good.mono {dec dec' : Decoder} {r : Except ParseError (Value × Decoder)} (h : Good dec' r)
    (hle : dec'.rest.length ≤ dec.rest.length) : Good dec r := by
  cases r with
  | error e => exact h
  | ok r => exact ⟨lt_of_lt_of_le h.1 hle, h.2⟩

section Step

variable {n : ℕ}
  (hvalue : ∀ dec : Decoder, 2 * dec.rest.length < n → Good dec (parseValue n dec))
  (hmembers : ∀ (obj : List (Str × Value)) (dec : Decoder), 2 * dec.rest.length + 1 < n →
    Strict (.obj obj) → Good dec (parseMembers n obj dec))
  (helements : ∀ (arr : List Value) (dec : Decoder), 2 * dec.rest.length + 1 < n →
    Strict (.arr arr) → Good dec (parseElements n arr dec))

include hmembers helements in
/-- The step of the induction for a value: enough fuel, and the value is strict. -/
theorem good_parseValue_succ (dec : Decoder) (h : 2 * dec.rest.length < n + 1) :
    Good dec (parseValue (n + 1) dec) := by
  rw [parseValue]
  cases ht : dec.token with
  | error e => exact nofun
  | ok td =>
    obtain ⟨tok, dec'⟩ := td
    obtain ⟨hlen, hutf⟩ := Decoder.consumes_of_token ht
    cases tok with
    | delim d =>
      cases d with
      | lbrace =>
        exact (hmembers [] dec' (by omega) (.obj List.nodup_nil nofun nofun)).mono hlen.le
      | lbracket => exact (helements [] dec' (by omega) (.arr nofun)).mono hlen.le
      | rbrace => exact nofun
      | rbracket => exact nofun
    | number s =>
      simp only
      cases hs : parseNumber s with
      | error e => exact ne_outOfFuel_of_parseNumber hs
      | ok v => exact ⟨hlen, strict_of_parseNumber hs⟩
    | str s => exact ⟨hlen, .str hutf⟩
    | bool b => exact ⟨hlen, .bool b⟩
    | null => exact ⟨hlen, .null⟩

include hvalue hmembers in
/-- The step for the members of an object. -/
theorem good_parseMembers_succ (obj : List (Str × Value)) (dec : Decoder)
    (h : 2 * dec.rest.length + 1 < n + 1) (hobj : Strict (.obj obj)) :
    Good dec (parseMembers (n + 1) obj dec) := by
  rw [parseMembers]
  cases ht : dec.token with
  | error e => split_ifs <;> exact nofun
  | ok td =>
    obtain ⟨tok, dec'⟩ := td
    obtain ⟨hlen, hutf⟩ := Decoder.consumes_of_token ht
    split_ifs
    · cases tok with
      | str key =>
        by_cases hkey : key ∈ obj.map Prod.fst
        · simp only [if_pos hkey]
          exact nofun
        · simp only [if_neg hkey]
          have hgood := hvalue dec' (by omega)
          cases hv : parseValue n dec' with
          | error e =>
            rw [hv] at hgood
            exact hgood
          | ok vd =>
            rw [hv] at hgood
            obtain ⟨hlen', hstrict⟩ := hgood
            exact (hmembers _ vd.2 (by omega) (hobj.obj_append hkey hutf hstrict)).mono (by omega)
      | _ => exact nofun
    · cases tok with
      | delim d =>
        cases d with
        | rbrace => exact ⟨hlen, hobj⟩
        | _ => exact nofun
      | _ => exact nofun

include hvalue helements in
/-- The step for the elements of an array. -/
theorem good_parseElements_succ (arr : List Value) (dec : Decoder)
    (h : 2 * dec.rest.length + 1 < n + 1) (harr : Strict (.arr arr)) :
    Good dec (parseElements (n + 1) arr dec) := by
  rw [parseElements]
  split_ifs
  · have hgood := hvalue dec (by omega)
    cases hv : parseValue n dec with
    | error e =>
      rw [hv] at hgood
      exact hgood
    | ok vd =>
      rw [hv] at hgood
      obtain ⟨hlen, hstrict⟩ := hgood
      exact (helements _ vd.2 (by omega) (harr.arr_append hstrict)).mono hlen.le
  · cases ht : dec.token with
    | error e => exact nofun
    | ok td =>
      obtain ⟨tok, dec'⟩ := td
      have hlen := (Decoder.consumes_of_token ht).1
      cases tok with
      | delim d =>
        cases d with
        | rbracket => exact ⟨hlen, harr⟩
        | _ => exact nofun
      | _ => exact nofun

end Step

/-- **The parser never runs out of its bound**, and what it returns is of the profile. -/
theorem good_parse (n : ℕ) :
    (∀ dec : Decoder, 2 * dec.rest.length < n → Good dec (parseValue n dec)) ∧
    (∀ (obj : List (Str × Value)) (dec : Decoder), 2 * dec.rest.length + 1 < n →
      Strict (.obj obj) → Good dec (parseMembers n obj dec)) ∧
    (∀ (arr : List Value) (dec : Decoder), 2 * dec.rest.length + 1 < n →
      Strict (.arr arr) → Good dec (parseElements n arr dec)) := by
  induction n with
  | zero => exact ⟨fun _ h => absurd h (by omega), fun _ _ h => absurd h (by omega),
      fun _ _ h => absurd h (by omega)⟩
  | succ n ih =>
    obtain ⟨hvalue, hmembers, helements⟩ := ih
    exact ⟨good_parseValue_succ hmembers helements, good_parseMembers_succ hvalue hmembers,
      good_parseElements_succ hvalue helements⟩

theorem parseStrict_eq_ok {x : Bytes} (h : parseStrict x = .ok v) :
    ∃ dec, parseValue (2 * x.length + 1) (newDecoder x) = .ok (v, dec) ∧ dec.more = false := by
  rw [parseStrict] at h
  split at h
  · cases h
  · next w dec hw =>
    split_ifs at h with hmore
    split at h
    · cases h
    · exact ⟨dec, Except.ok.inj h ▸ hw, by simpa using hmore⟩

/-- **What the parser accepts is a value of the profile.** -/
theorem strict_of_parseStrict {x : Bytes} (h : parseStrict x = .ok v) : Strict v := by
  obtain ⟨dec, hdec, -⟩ := parseStrict_eq_ok h
  have hgood := (good_parse (2 * x.length + 1)).1 (newDecoder x) (Nat.lt_succ_self _)
  rw [hdec] at hgood
  exact hgood.2

end Canonical

end Iscp
