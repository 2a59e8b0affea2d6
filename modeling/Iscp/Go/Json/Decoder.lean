import Iscp.Go.Result
import Iscp.Go.Json.Quote
import Iscp.Go.Json.Number

/-!
# The token decoder of encoding/json

`json.Decoder` as a program that asks for one token at a time sees it: the input that
is left, the state the next token is read in, and the states of the enclosing arrays
and objects. Commas and colons are not tokens; `Iscp.Go.Json.Decoder.token` passes over
them where the state asks for one and refuses them elsewhere. Numbers are returned as
their text, as after `UseNumber`.

Two habits of the original are kept because programs depend on them:
`Iscp.Go.Json.Decoder.more` only looks at the next byte that is not a space, so it
answers no at a stray closing bracket as it does at the end of the input; and an
opening bracket that is never closed is noticed only when its closing token is asked
for.
-/

namespace Iscp

namespace Go

namespace Json

/-- Where the decoder stands between two tokens. -/
inductive TokenState where
  | topValue
  | arrayStart
  | arrayValue
  | arrayComma
  | objectStart
  | objectKey
  | objectColon
  | objectValue
  | objectComma
  deriving DecidableEq

/-- Whether a value may start in this state, `tokenValueAllowed`. -/
def TokenState.valueAllowed : TokenState → Bool
  | .topValue | .arrayStart | .arrayValue | .objectValue => true
  | _ => false

/-- The state after a value, `tokenValueEnd`. -/
def TokenState.valueEnd : TokenState → TokenState
  | .arrayStart | .arrayValue => .arrayComma
  | .objectValue => .objectComma
  | st => st

/-- The delimiters that are tokens. -/
inductive Delim where
  | lbrace
  | rbrace
  | lbracket
  | rbracket
  deriving DecidableEq

/-- A token; a number is kept as its text. -/
inductive Token where
  | delim (d : Delim)
  | str (s : Str)
  | number (s : Bytes)
  | bool (b : Bool)
  | null
  deriving DecidableEq

/-- The errors of the decoder. -/
inductive DecodeError where
  /-- The input ends where a token is expected, `io.EOF`. -/
  | eof
  /-- The input is not JSON. -/
  | syntaxError
  deriving DecidableEq

/-- **A `json.Decoder`**: the input that is left, the token state, and the states of
the enclosing arrays and objects, innermost first. -/
structure Decoder where
  /-- The input that is left. -/
  rest : Bytes
  /-- The state the next token is read in. -/
  tokenState : TokenState
  /-- The states to return to when the enclosing arrays and objects close. -/
  tokenStack : List TokenState

/-- `json.NewDecoder`. -/
def newDecoder (input : Bytes) : Decoder := ⟨input, .topValue, []⟩

/-- White space between tokens. -/
def isSpace (b : UInt8) : Bool := b = 0x20 ∨ b = 0x09 ∨ b = 0x0d ∨ b = 0x0a

/-- A string after its opening quote: its value, and what follows it. -/
def decodeString (s : Bytes) : Except DecodeError (Str × Bytes) :=
  match scanString s with
  | none => .error .syntaxError
  | some (body, u) => match unquote body with
      | none => .error .syntaxError
      | some x => .ok (x, u)

/-- One of the literals `true`, `false` and `null`. -/
def decodeLiteral (word : Bytes) (tok : Token) (s : Bytes) : Except DecodeError (Token × Bytes) :=
  if word.isPrefixOf s then .ok (tok, s.drop word.length) else .error .syntaxError

/-- **A value that is one token**: a string, a literal or a number. -/
def decodeScalar : Bytes → Except DecodeError (Token × Bytes)
  | [] => .error .eof
  | b :: s =>
    if b = 0x22 then (decodeString s).map fun (x, u) => (.str x, u)
    else if b = 0x74 then decodeLiteral (lit "true") (.bool true) (b :: s)
    else if b = 0x66 then decodeLiteral (lit "false") (.bool false) (b :: s)
    else if b = 0x6e then decodeLiteral (lit "null") .null (b :: s)
    else match scanNumber (b :: s) with
      | none => .error .syntaxError
      | some (x, u) => .ok (.number x, u)

/-- A closing bracket, allowed in the given states: the enclosing array or object is
left, and counts as a value of what encloses it in turn. -/
def closeToken (d : Delim) (allowed : Bool) (s : Bytes) :
    List TokenState → Except DecodeError (Token × Decoder)
  | [] => .error .syntaxError
  | st :: stk => if allowed then .ok (.delim d, ⟨s, st.valueEnd, stk⟩) else .error .syntaxError

/-- `Decoder.Token`, as a loop over the input that is left. -/
def tokenFrom : Bytes → TokenState → List TokenState → Except DecodeError (Token × Decoder)
  | [], _, _ => .error .eof
  | b :: s, st, stk =>
    if isSpace b then tokenFrom s st stk
    else if b = 0x5b then
      if st.valueAllowed then .ok (.delim .lbracket, ⟨s, .arrayStart, st :: stk⟩)
      else .error .syntaxError
    else if b = 0x5d then
      closeToken .rbracket (st = .arrayStart ∨ st = .arrayComma) s stk
    else if b = 0x7b then
      if st.valueAllowed then .ok (.delim .lbrace, ⟨s, .objectStart, st :: stk⟩)
      else .error .syntaxError
    else if b = 0x7d then
      closeToken .rbrace (st = .objectStart ∨ st = .objectComma) s stk
    else if b = 0x3a then
      if st = .objectColon then tokenFrom s .objectValue stk else .error .syntaxError
    else if b = 0x2c then
      if st = .arrayComma then tokenFrom s .arrayValue stk
      else if st = .objectComma then tokenFrom s .objectKey stk
      else .error .syntaxError
    else if b = 0x22 ∧ (st = .objectStart ∨ st = .objectKey) then
      (decodeString s).map fun (x, u) => (.str x, ⟨u, .objectColon, stk⟩)
    else if st.valueAllowed then
      (decodeScalar (b :: s)).map fun (tok, u) => (tok, ⟨u, st.valueEnd, stk⟩)
    else .error .syntaxError

namespace Decoder

/-- **`Decoder.Token`**: the next token, and the decoder after it. -/
def token (dec : Decoder) : Except DecodeError (Token × Decoder) :=
  tokenFrom dec.rest dec.tokenState dec.tokenStack

/-- The next byte that is not a space. -/
def peek (dec : Decoder) : Option UInt8 := dec.rest.find? fun b => !isSpace b

/-- **`Decoder.More`**: there is a next byte, and it closes nothing. -/
def more (dec : Decoder) : Bool :=
  match dec.peek with
  | none => false
  | some b => b ≠ 0x5d ∧ b ≠ 0x7d

mutual

/-- Reading one value for its syntax alone. Of any two calls in a row the second reads a
token, so twice the number of bytes left bounds the depth of the calls. -/
def skipValue : ℕ → Decoder → Except DecodeError Decoder
  | 0, _ => .error .eof
  | n + 1, dec => match dec.token with
      | .error e => .error e
      | .ok (.delim .lbrace, dec) => skipMembers n dec
      | .ok (.delim .lbracket, dec) => skipElements n dec
      | .ok (.delim _, _) => .error .syntaxError
      | .ok (_, dec) => .ok dec

/-- The members of an object, up to its closing brace. -/
def skipMembers : ℕ → Decoder → Except DecodeError Decoder
  | 0, _ => .error .eof
  | n + 1, dec => match dec.token with
      | .error e => .error e
      | .ok (.str _, dec) => match skipValue n dec with
          | .error e => .error e
          | .ok dec => skipMembers n dec
      | .ok (.delim .rbrace, dec) => .ok dec
      | .ok _ => .error .syntaxError

/-- The elements of an array, up to its closing bracket. -/
def skipElements : ℕ → Decoder → Except DecodeError Decoder
  | 0, _ => .error .eof
  | n + 1, dec =>
    if dec.more then match skipValue n dec with
      | .error e => .error e
      | .ok dec => skipElements n dec
    else match dec.token with
      | .error e => .error e
      | .ok (.delim .rbracket, dec) => .ok dec
      | .ok _ => .error .syntaxError

end

/-- **`Decoder.Decode` into an `any`**, whose value is dropped: the decoder after the
next value. -/
def decode (dec : Decoder) : Except DecodeError Decoder :=
  skipValue (2 * dec.rest.length + 1) dec

end Decoder

/-! ### Reading what the writer writes -/

theorem decodeString_quoteBody (s : Str) (u : Bytes) :
    decodeString (quoteBody s ++ 0x22 :: u) = .ok (toUtf8 s, u) := by
  simp only [decodeString, scanString_quote, unquote_quoteBody]

section Tokens

variable {st : TokenState} (stk : List TokenState) (u : Bytes)

theorem tokenFrom_lbracket (h : st.valueAllowed) :
    tokenFrom (0x5b :: u) st stk = .ok (.delim .lbracket, ⟨u, .arrayStart, st :: stk⟩) := by
  rw [tokenFrom, if_neg (by decide), if_pos rfl, if_pos h]

theorem tokenFrom_lbrace (h : st.valueAllowed) :
    tokenFrom (0x7b :: u) st stk = .ok (.delim .lbrace, ⟨u, .objectStart, st :: stk⟩) := by
  rw [tokenFrom, if_neg (by decide), if_neg (by decide), if_neg (by decide), if_pos rfl, if_pos h]

theorem tokenFrom_rbracket (h : st = .arrayStart ∨ st = .arrayComma) (st' : TokenState) :
    tokenFrom (0x5d :: u) st (st' :: stk) = .ok (.delim .rbracket, ⟨u, st'.valueEnd, stk⟩) := by
  rw [tokenFrom, if_neg (by decide), if_neg (by decide), if_pos rfl, closeToken,
    if_pos (decide_eq_true h)]

theorem tokenFrom_rbrace (h : st = .objectStart ∨ st = .objectComma) (st' : TokenState) :
    tokenFrom (0x7d :: u) st (st' :: stk) = .ok (.delim .rbrace, ⟨u, st'.valueEnd, stk⟩) := by
  rw [tokenFrom, if_neg (by decide), if_neg (by decide), if_neg (by decide), if_neg (by decide),
    if_pos rfl, closeToken, if_pos (decide_eq_true h)]

theorem tokenFrom_colon : tokenFrom (0x3a :: u) .objectColon stk = tokenFrom u .objectValue stk :=
  rfl

theorem tokenFrom_comma_array :
    tokenFrom (0x2c :: u) .arrayComma stk = tokenFrom u .arrayValue stk := rfl

theorem tokenFrom_comma_object :
    tokenFrom (0x2c :: u) .objectComma stk = tokenFrom u .objectKey stk := rfl

theorem tokenFrom_key (h : st = .objectStart ∨ st = .objectKey) (k : Str) :
    tokenFrom (quote k ++ u) st stk = .ok (.str (toUtf8 k), ⟨u, .objectColon, stk⟩) := by
  rw [quote, List.cons_append, tokenFrom, if_neg (by decide), if_neg (by decide),
    if_neg (by decide), if_neg (by decide), if_neg (by decide), if_neg (by decide),
    if_neg (by decide), if_pos ⟨rfl, h⟩, List.append_assoc, List.singleton_append,
    decodeString_quoteBody]
  rfl

/-- The bytes a value that is one token can start with. -/
def StartsScalar (b : UInt8) : Prop :=
  isSpace b = false ∧ b ≠ 0x5b ∧ b ≠ 0x5d ∧ b ≠ 0x7b ∧ b ≠ 0x7d ∧ b ≠ 0x3a ∧ b ≠ 0x2c

instance (b : UInt8) : Decidable (StartsScalar b) := inferInstanceAs (Decidable (_ ∧ _))

theorem tokenFrom_scalar (h : st.valueAllowed) {b : UInt8} (hb : StartsScalar b) :
    tokenFrom (b :: u) st stk =
      (decodeScalar (b :: u)).map fun (tok, u) => (tok, ⟨u, st.valueEnd, stk⟩) := by
  obtain ⟨h0, h1, h2, h3, h4, h5, h6⟩ := hb
  have hkey : ¬(b = 0x22 ∧ (st = .objectStart ∨ st = .objectKey)) := by
    rintro ⟨-, rfl | rfl⟩ <;> exact absurd h (by decide)
  rw [tokenFrom, if_neg (by simp [h0]), if_neg h1, if_neg h2, if_neg h3, if_neg h4, if_neg h5,
    if_neg h6, if_neg hkey, if_pos h]

theorem tokenFrom_str (h : st.valueAllowed) (s : Str) :
    tokenFrom (quote s ++ u) st stk = .ok (.str (toUtf8 s), ⟨u, st.valueEnd, stk⟩) := by
  rw [quote, List.cons_append, tokenFrom_scalar stk _ h (by decide), decodeScalar, if_pos rfl,
    List.append_assoc, List.singleton_append, decodeString_quoteBody]
  rfl

theorem tokenFrom_null (h : st.valueAllowed) :
    tokenFrom (lit "null" ++ u) st stk = .ok (.null, ⟨u, st.valueEnd, stk⟩) :=
  tokenFrom_scalar stk _ h (by decide)

theorem tokenFrom_true (h : st.valueAllowed) :
    tokenFrom (lit "true" ++ u) st stk = .ok (.bool true, ⟨u, st.valueEnd, stk⟩) :=
  tokenFrom_scalar stk _ h (by decide)

theorem tokenFrom_false (h : st.valueAllowed) :
    tokenFrom (lit "false" ++ u) st stk = .ok (.bool false, ⟨u, st.valueEnd, stk⟩) :=
  tokenFrom_scalar stk _ h (by decide)

/-- A formatted integer is read as one number. -/
theorem tokenFrom_int (h : st.valueAllowed) (i : ℤ) (hu : EndsNumber u) :
    tokenFrom (formatInt i ++ u) st stk = .ok (.number (formatInt i), ⟨u, st.valueEnd, stk⟩) := by
  obtain ⟨b, s, hs, hb⟩ : ∃ b s, formatInt i = b :: s ∧ (b = 0x2d ∨ isDigit b = true) := by
    obtain h0 | ⟨b, s, hs | hs, hb, -⟩ := formatInt_cases i
    · exact ⟨_, _, h0, Or.inr rfl⟩
    · exact ⟨b, s, hs, Or.inr hb⟩
    · exact ⟨_, _, hs, Or.inl rfl⟩
  have hstart : StartsScalar b ∧ b ≠ 0x22 ∧ b ≠ 0x74 ∧ b ≠ 0x66 ∧ b ≠ 0x6e := by
    rcases hb with rfl | hb
    · decide
    · have hne : ∀ {c}, isDigit c = false → b ≠ c := ne_of_isDigit hb
      refine ⟨⟨?_, hne rfl, hne rfl, hne rfl, hne rfl, hne rfl, hne rfl⟩, hne rfl, hne rfl,
        hne rfl, hne rfl⟩
      exact decide_eq_false (not_or.mpr ⟨hne rfl, not_or.mpr ⟨hne rfl, not_or.mpr
        ⟨hne rfl, hne rfl⟩⟩⟩)
  obtain ⟨hscalar, hquote, ht, hf, hn⟩ := hstart
  have hscan := scanNumber_formatInt i hu
  rw [hs, List.cons_append] at hscan ⊢
  rw [tokenFrom_scalar stk _ h hscalar, decodeScalar, if_neg hquote, if_neg ht, if_neg hf,
    if_neg hn, hscan]
  rfl

end Tokens

/-! ### Looking ahead -/

theorem Decoder.more_cons {b : UInt8} (hs : isSpace b = false) (h1 : b ≠ 0x5d) (h2 : b ≠ 0x7d)
    (s : Bytes) (st : TokenState) (stk : List TokenState) :
    Decoder.more ⟨b :: s, st, stk⟩ = true := by
  simp [Decoder.more, Decoder.peek, hs, h1, h2]

/-- Where `More` answers no at the top level, there is no token to read. -/
theorem tokenFrom_of_not_more {s : Bytes} {stk : List TokenState}
    (h : Decoder.more ⟨s, .topValue, stk⟩ = false) : ∃ e, tokenFrom s .topValue stk = .error e := by
  induction s with
  | nil => exact ⟨_, rfl⟩
  | cons b s ih =>
    by_cases hs : isSpace b = true
    · rw [tokenFrom, if_pos hs]
      refine ih ?_
      simpa [Decoder.more, Decoder.peek, hs] using h
    · have hb : b = 0x5d ∨ b = 0x7d := by
        by_contra hc
        rw [not_or] at hc
        simp [Decoder.more_cons (by simpa using hs) hc.1 hc.2] at h
      refine ⟨.syntaxError, ?_⟩
      rcases hb with rfl | rfl <;> cases stk <;> rfl

end Json

end Go

end Iscp
