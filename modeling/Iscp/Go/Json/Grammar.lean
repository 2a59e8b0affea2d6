import Iscp.Go.Json.Decoder

/-!
# The texts the decoder reads

The decoder of `Iscp.Go.Json.Decoder` is a program; this file says which texts it reads. White
space is `Iscp.Go.Json.Blank`, a string literal is a `Iscp.Go.Json.IsString`, and an integer in
decimal form is read back from its digits (`Iscp.Go.Json.eq_formatInt`). Between two tokens
stands a `Iscp.Go.Json.Gap`: white space, and the comma or the colon the state of the decoder asks
for. A token is then one gap and the text of the token (`Iscp.Go.Json.reads_of_tokenFrom`), and
conversely a gap is passed over (`Iscp.Go.Json.Gap.tokenFrom`).
-/

namespace Iscp

namespace Go

namespace Json

/-! ### White space -/

/-- **White space only.** -/
def Blank (w : Bytes) : Prop := ∀ b ∈ w, isSpace b = true

theorem blank_nil : Blank [] := nofun

variable {w s x u t : Bytes} {b : UInt8} {stk : List TokenState} {st : TokenState} {tok : Token}
  {dec : Decoder}

theorem blank_cons : Blank (b :: w) ↔ isSpace b = true ∧ Blank w :=
  List.forall_mem_cons

theorem Blank.append {w' : Bytes} (h : Blank w) (h' : Blank w') : Blank (w ++ w') :=
  fun b hb => (List.mem_append.mp hb).elim (h b) (h' b)

theorem tokenFrom_blank (hw : Blank w) (t : Bytes) (st : TokenState) (stk : List TokenState) :
    tokenFrom (w ++ t) st stk = tokenFrom t st stk := by
  induction w with
  | nil => rfl
  | cons b w ih =>
    obtain ⟨hb, hw⟩ := blank_cons.mp hw
    rw [List.cons_append, tokenFrom, if_pos hb, ih hw]

theorem more_blank (hw : Blank w) (t : Bytes) (st : TokenState) (stk : List TokenState) :
    Decoder.more ⟨w ++ t, st, stk⟩ = Decoder.more ⟨t, st, stk⟩ := by
  induction w with
  | nil => rfl
  | cons b w ih =>
    obtain ⟨hb, hw⟩ := blank_cons.mp hw
    rw [← ih hw]
    simp [Decoder.more, Decoder.peek, hb]

/-- A byte that closes an array or an object. -/
def Closes (b : UInt8) : Prop := b = 0x5d ∨ b = 0x7d

/-- **`More` answers no** at the end of the input and at a closing bracket, after any white
space. -/
theorem more_eq_false_iff :
    Decoder.more ⟨s, st, stk⟩ = false ↔
      ∃ w u, s = w ++ u ∧ Blank w ∧ ∀ b ∈ u.head?, Closes b := by
  constructor
  · intro h
    induction s with
    | nil => exact ⟨[], [], rfl, blank_nil, nofun⟩
    | cons b s ih =>
      by_cases hb : isSpace b = true
      · rw [← List.singleton_append, more_blank (by simpa [Blank] using hb)] at h
        obtain ⟨w, u, rfl, hw, hu⟩ := ih h
        exact ⟨b :: w, u, rfl, blank_cons.mpr ⟨hb, hw⟩, hu⟩
      · refine ⟨[], b :: s, rfl, blank_nil, fun c hc => ?_⟩
        cases hc
        by_contra hclose
        obtain ⟨h1, h2⟩ := not_or.mp hclose
        rw [Decoder.more_cons (by simpa using hb) h1 h2] at h
        cases h
  · rintro ⟨w, u, rfl, hw, hu⟩
    rw [more_blank hw]
    cases u with
    | nil => rfl
    | cons b u => rcases hu b rfl with rfl | rfl <;> rfl

/-! ### Strings -/

/-- **The raw bytes of a string literal**: no control character, a quote or a backslash only as
part of an escape. -/
inductive StringBody : Bytes → Prop where
  | nil : StringBody []
  | plain {b : UInt8} {x : Bytes} (h : b ≠ 0x22 ∧ b ≠ 0x5c ∧ ¬b < 0x20) (hx : StringBody x) :
      StringBody (b :: x)
  | short {e : UInt8} {x : Bytes} (he : e ∈ shortEscapes) (hx : StringBody x) :
      StringBody (0x5c :: e :: x)
  | unicode {b₁ b₂ b₃ b₄ : UInt8} {x : Bytes} (h₁ : (hexVal b₁).isSome) (h₂ : (hexVal b₂).isSome)
      (h₃ : (hexVal b₃).isSome) (h₄ : (hexVal b₄).isSome) (hx : StringBody x) :
      StringBody (0x5c :: 0x75 :: b₁ :: b₂ :: b₃ :: b₄ :: x)

/-- **A string literal** and the string it stands for. -/
def IsString (s : Str) (x : Bytes) : Prop :=
  ∃ body, x = 0x22 :: (body ++ [0x22]) ∧ StringBody body ∧ unquote body = some s

/-- The scanner stops at the closing quote of a string. -/
theorem scanString_of_stringBody (h : StringBody x) (u : Bytes) :
    scanString (x ++ 0x22 :: u) = some (x, u) := by
  induction h with
  | nil => rfl
  | @plain b x h _ ih =>
    have hb : ∀ c ∈ [b], c ≠ 0x22 ∧ c ≠ 0x5c ∧ ¬c < 0x20 := by simpa using h
    rw [List.cons_append, ← List.singleton_append, scanString_plain hb, ih]
    rfl
  | short he _ ih =>
    rw [List.cons_append, List.cons_append, scanString_short he, ih]
    rfl
  | unicode h₁ h₂ h₃ h₄ _ ih =>
    simp only [List.cons_append]
    rw [scanString_unicode h₁ h₂ h₃ h₄, ih]
    rfl

/-- What the scanner still accepts in each of its states. -/
def BodyFrom : ScanState → Bytes → Prop
  | .inString, x => StringBody x
  | .inStringEsc, x => StringBody (0x5c :: x)
  | .inStringEscU left, x => ∃ ds y, x = ds ++ y ∧ ds.length = left + 1 ∧
      (∀ d ∈ ds, (hexVal d).isSome) ∧ StringBody y

theorem bodyFrom_cons {st st' : ScanState} (h : scanStep st b = .next st') (hx : BodyFrom st' x) :
    BodyFrom st (b :: x) := by
  cases st with
  | inString =>
    rw [scanStep] at h
    split_ifs at h with h1 h2 h3
    · obtain rfl := ScanStep.next.inj h
      exact h2 ▸ hx
    · obtain rfl := ScanStep.next.inj h
      exact .plain ⟨h1, h2, h3⟩ hx
  | inStringEsc =>
    rw [scanStep] at h
    split_ifs at h with h1 h2
    · obtain rfl := ScanStep.next.inj h
      exact .short h1 hx
    · obtain rfl := ScanStep.next.inj h
      obtain ⟨ds, y, rfl, hlen, hds, hy⟩ := hx
      obtain ⟨d₁, d₂, d₃, d₄, rfl⟩ := List.length_eq_four.mp hlen
      simp only [List.mem_cons, List.not_mem_nil, or_false, forall_eq_or_imp, forall_eq] at hds
      exact h2 ▸ .unicode hds.1 hds.2.1 hds.2.2.1 hds.2.2.2 hy
  | inStringEscU left =>
    cases left with
    | zero =>
      rw [scanStep] at h
      split_ifs at h with hb
      obtain rfl := ScanStep.next.inj h
      exact ⟨[b], x, rfl, rfl, by simpa using hb, hx⟩
    | succ left =>
      rw [scanStep] at h
      split_ifs at h with hb
      obtain rfl := ScanStep.next.inj h
      obtain ⟨ds, y, rfl, hlen, hds, hy⟩ := hx
      exact ⟨b :: ds, y, rfl, by rw [List.length_cons, hlen],
        List.forall_mem_cons.mpr ⟨hb, hds⟩, hy⟩

theorem bodyFrom_of_scanStringFrom {st : ScanState} (h : scanStringFrom st s = some (x, u)) :
    s = x ++ 0x22 :: u ∧ BodyFrom st x := by
  induction s generalizing st x with
  | nil => simp [scanStringFrom] at h
  | cons b s ih =>
    rw [scanStringFrom] at h
    split at h
    · next st' hst =>
      obtain ⟨⟨y, v⟩, hy, hxy⟩ := Option.map_eq_some_iff.mp h
      cases hxy
      obtain ⟨rfl, hbody⟩ := ih hy
      exact ⟨rfl, bodyFrom_cons hst hbody⟩
    · next hst =>
      cases h
      -- only between two characters does a byte end the literal, and it is a quote
      cases st with
      | inString =>
        rw [scanStep] at hst
        split_ifs at hst with hb
        exact ⟨by rw [hb]; rfl, .nil⟩
      | inStringEsc =>
        rw [scanStep] at hst
        split_ifs at hst
      | inStringEscU left =>
        cases left with
        | zero =>
          rw [scanStep] at hst
          split_ifs at hst
        | succ left =>
          rw [scanStep] at hst
          split_ifs at hst
    · cases h

/-- **A string is read exactly as a literal.** -/
theorem decodeString_eq_ok {x : Str} :
    decodeString s = .ok (x, u) ↔ ∃ t, 0x22 :: s = t ++ u ∧ IsString x t := by
  constructor
  · intro h
    rw [decodeString] at h
    split at h
    · cases h
    · next body v hscan =>
      split at h
      · cases h
      · next y hy =>
        cases h
        obtain ⟨rfl, hbody⟩ := bodyFrom_of_scanStringFrom hscan
        exact ⟨_, by simp, body, rfl, hbody, hy⟩
  · rintro ⟨t, ht, body, rfl, hbody, hx⟩
    obtain rfl : s = body ++ 0x22 :: u := by simpa using ht
    simp only [decodeString, scanString_of_stringBody hbody, hx]

/-! ### Numbers -/

theorem digitByte_of_isDigit (h : isDigit b = true) :
    digitByte (b.toNat - 0x30) = b ∧ b.toNat - 0x30 < 10 := by
  have hb : 0x30 ≤ b.toNat ∧ b.toNat ≤ 0x39 := by
    simpa [isDigit, UInt8.le_iff_toNat_le] using h
  refine ⟨?_, by omega⟩
  rw [digitByte, ← UInt8.toNat_inj, UInt8.toNat_ofNat']
  omega

theorem foldl_digits_eq_ofDigits (d : Bytes) :
    d.foldl (fun n b => n * 10 + (b.toNat - 0x30)) 0 =
      Nat.ofDigits 10 (d.reverse.map fun b => b.toNat - 0x30) := by
  rw [← List.foldr_reverse]
  induction d.reverse with
  | nil => rfl
  | cons b l ih =>
    rw [List.foldr_cons, ih, List.map_cons, Nat.ofDigits_cons]
    ring

/-- **Digits without a leading zero are the decimal form of their value.** -/
theorem formatNat_of_parseDigits {d : Bytes} {n : ℕ} (hb : b ≠ 0x30)
    (h : parseDigits (b :: d) = some n) : formatNat n = b :: d ∧ n ≠ 0 := by
  rw [parseDigits] at h
  split_ifs at h with hd
  cases h
  rw [foldl_digits_eq_ofDigits]
  have hall : ∀ c ∈ b :: d, isDigit c = true := List.all_eq_true.mp hd.2
  set l := ((b :: d).reverse.map fun c => c.toNat - 0x30) with hl
  have hlt : ∀ x ∈ l, x < 10 := by
    intro x hx
    obtain ⟨c, hc, rfl⟩ := List.mem_map.mp hx
    exact (digitByte_of_isDigit (hall c (List.mem_reverse.mp hc))).2
  have hlast : ∀ hne : l ≠ [], l.getLast hne ≠ 0 := by
    intro hne h0
    have hb' := (digitByte_of_isDigit (hall b List.mem_cons_self)).1
    have hb0 : b.toNat - 0x30 = 0 := by simpa [hl] using h0
    rw [hb0] at hb'
    exact hb hb'.symm
  have hdigits : Nat.digits 10 (Nat.ofDigits 10 l) = l :=
    Nat.digits_ofDigits 10 (by norm_num) l hlt hlast
  have hne : Nat.ofDigits 10 l ≠ 0 := by
    rw [← Nat.digits_ne_nil_iff_ne_zero (b := 10), hdigits]
    simp [hl]
  refine ⟨?_, hne⟩
  rw [formatNat, if_neg hne, hdigits, hl, List.map_map]
  have hmap : (b :: d).reverse.map (digitByte ∘ fun c => c.toNat - 0x30) = (b :: d).reverse := by
    conv_rhs => rw [← List.map_id' (b :: d).reverse]
    exact List.map_congr_left fun c hc =>
      (digitByte_of_isDigit (hall c (List.mem_reverse.mp hc))).1
  rw [hmap, List.reverse_reverse]

theorem scanNumberFrom_split {st : NumState} (h : scanNumberFrom st s = some (x, u)) :
    s = x ++ u := by
  induction s generalizing st x with
  | nil =>
    rw [scanNumberFrom] at h
    split_ifs at h
    cases h
    rfl
  | cons b s ih =>
    rw [scanNumberFrom] at h
    split at h
    · obtain ⟨⟨y, v⟩, hy, hxy⟩ := Option.map_eq_some_iff.mp h
      cases hxy
      rw [List.cons_append, ← ih hy]
    · split_ifs at h
      cases h
      rfl

theorem scanNumber_split (h : scanNumber s = some (x, u)) :
    s = x ++ u ∧ ∃ b y, x = b :: y ∧ (b = 0x2d ∨ isDigit b = true) := by
  cases s with
  | nil => cases h
  | cons b s =>
    rw [scanNumber] at h
    split_ifs at h with h1 h2 h3
    all_goals
      obtain ⟨⟨y, v⟩, hy, hxy⟩ := Option.map_eq_some_iff.mp h
      cases hxy
      refine ⟨by rw [List.cons_append, ← scanNumberFrom_split hy], b, y, rfl, ?_⟩
    · exact Or.inl h1
    · exact Or.inr (h2 ▸ rfl)
    · exact Or.inr h3

/-! ### Tokens -/

/-- **What stands between two tokens**, and the states of the decoder before and after it: white
space, and the comma or the colon the first state asks for. -/
inductive Gap : TokenState → TokenState → Bytes → Prop where
  | blank {st : TokenState} {w : Bytes} (hw : Blank w) : Gap st st w
  | element {w w' : Bytes} (hw : Blank w) (hw' : Blank w') :
      Gap .arrayComma .arrayValue (w ++ 0x2c :: w')
  | member {w w' : Bytes} (hw : Blank w) (hw' : Blank w') :
      Gap .objectComma .objectKey (w ++ 0x2c :: w')
  | value {w w' : Bytes} (hw : Blank w) (hw' : Blank w') :
      Gap .objectColon .objectValue (w ++ 0x3a :: w')

namespace Gap

variable {st st' : TokenState} {g : Bytes}

/-- **A gap is passed over.** -/
theorem tokenFrom (h : Gap st st' g) (t : Bytes) (stk : List TokenState) :
    tokenFrom (g ++ t) st stk = Json.tokenFrom t st' stk := by
  cases h with
  | blank hw => exact tokenFrom_blank hw t st stk
  | element hw hw' =>
    rw [List.append_assoc, tokenFrom_blank hw, List.cons_append, tokenFrom_comma_array,
      tokenFrom_blank hw']
  | member hw hw' =>
    rw [List.append_assoc, tokenFrom_blank hw, List.cons_append, tokenFrom_comma_object,
      tokenFrom_blank hw']
  | value hw hw' =>
    rw [List.append_assoc, tokenFrom_blank hw, List.cons_append, tokenFrom_colon,
      tokenFrom_blank hw']

theorem append_blank (h : Gap st st' g) (hw : Blank w) : Gap st st' (g ++ w) := by
  cases h with
  | blank h => exact .blank (h.append hw)
  | element h h' =>
    rw [List.append_assoc, List.cons_append]
    exact .element h (h'.append hw)
  | member h h' =>
    rw [List.append_assoc, List.cons_append]
    exact .member h (h'.append hw)
  | value h h' =>
    rw [List.append_assoc, List.cons_append]
    exact .value h (h'.append hw)

theorem blank_append (h : Gap st st' g) (hw : Blank w) : Gap st st' (w ++ g) := by
  cases h with
  | blank h => exact .blank (hw.append h)
  | element h h' =>
    rw [← List.append_assoc]
    exact .element (hw.append h) h'
  | member h h' =>
    rw [← List.append_assoc]
    exact .member (hw.append h) h'
  | value h h' =>
    rw [← List.append_assoc]
    exact .value (hw.append h) h'

theorem more (h : Gap st st' g) (ht : ∀ st stk, Decoder.more ⟨t, st, stk⟩ = true)
    (stk : List TokenState) : Decoder.more ⟨g ++ t, st, stk⟩ = true := by
  cases h with
  | blank hw => rw [more_blank hw, ht]
  | element hw _ | member hw _ | value hw _ =>
    rw [List.append_assoc, more_blank hw]
    exact Decoder.more_cons rfl (by decide) (by decide) _ _ _

end Gap

/-- **The text of a token**, read in the given state with `u` left after it. -/
def Reads (st : TokenState) (stk : List TokenState) (t u : Bytes) : Token → Decoder → Prop
  | .delim .lbracket, dec => t = [0x5b] ∧ st.valueAllowed ∧ dec = ⟨u, .arrayStart, st :: stk⟩
  | .delim .lbrace, dec => t = [0x7b] ∧ st.valueAllowed ∧ dec = ⟨u, .objectStart, st :: stk⟩
  | .delim .rbracket, dec => t = [0x5d] ∧ (st = .arrayStart ∨ st = .arrayComma) ∧
      ∃ st' stk', stk = st' :: stk' ∧ dec = ⟨u, st'.valueEnd, stk'⟩
  | .delim .rbrace, dec => t = [0x7d] ∧ (st = .objectStart ∨ st = .objectComma) ∧
      ∃ st' stk', stk = st' :: stk' ∧ dec = ⟨u, st'.valueEnd, stk'⟩
  | .str s, dec => IsString s t ∧
      ((st = .objectStart ∨ st = .objectKey) ∧ dec = ⟨u, .objectColon, stk⟩ ∨
        st.valueAllowed ∧ dec = ⟨u, st.valueEnd, stk⟩)
  | .number x, dec => t = x ∧ (∃ b y, x = b :: y ∧ (b = 0x2d ∨ isDigit b = true)) ∧
      st.valueAllowed ∧ dec = ⟨u, st.valueEnd, stk⟩
  | .bool b, dec => t = lit (if b then "true" else "false") ∧ st.valueAllowed ∧
      dec = ⟨u, st.valueEnd, stk⟩
  | .null, dec => t = lit "null" ∧ st.valueAllowed ∧ dec = ⟨u, st.valueEnd, stk⟩

theorem split_of_decodeLiteral {word : Bytes} {tok' : Token}
    (h : decodeLiteral word tok' s = .ok (tok, u)) : tok = tok' ∧ s = word ++ u := by
  rw [decodeLiteral] at h
  split_ifs at h with hp
  cases h
  obtain ⟨v, rfl⟩ := List.isPrefixOf_iff_prefix.mp hp
  rw [List.drop_left]
  exact ⟨rfl, rfl⟩

theorem reads_of_decodeScalar (h : decodeScalar s = .ok (tok, u)) (hst : st.valueAllowed)
    (stk : List TokenState) : ∃ t, s = t ++ u ∧ Reads st stk t u tok ⟨u, st.valueEnd, stk⟩ := by
  cases s with
  | nil => cases h
  | cons b s =>
    rw [decodeScalar] at h
    split_ifs at h with h1
    · obtain ⟨⟨x, v⟩, hx, hxu⟩ := map_eq_ok_iff.mp h
      cases hxu
      obtain ⟨t, ht, hs⟩ := decodeString_eq_ok.mp hx
      exact ⟨t, h1 ▸ ht, hs, Or.inr ⟨hst, rfl⟩⟩
    · obtain ⟨rfl, hs⟩ := split_of_decodeLiteral h
      exact ⟨_, hs, rfl, hst, rfl⟩
    · obtain ⟨rfl, hs⟩ := split_of_decodeLiteral h
      exact ⟨_, hs, rfl, hst, rfl⟩
    · obtain ⟨rfl, hs⟩ := split_of_decodeLiteral h
      exact ⟨_, hs, rfl, hst, rfl⟩
    · split at h
      · cases h
      · next hscan =>
        cases h
        obtain ⟨hs, hx⟩ := scanNumber_split hscan
        exact ⟨_, hs, rfl, hx, hst, rfl⟩

theorem exists_of_closeToken {d : Delim} {allowed : Prop} [Decidable allowed]
    (h : closeToken d allowed s stk = .ok (tok, dec)) :
    tok = .delim d ∧ allowed ∧ ∃ st' stk', stk = st' :: stk' ∧ dec = ⟨s, st'.valueEnd, stk'⟩ := by
  cases stk with
  | nil => cases h
  | cons st stk =>
    rw [closeToken] at h
    split_ifs at h with ha
    cases h
    exact ⟨rfl, of_decide_eq_true ha, st, stk, rfl, rfl⟩

/-- **A token is a gap and the text of the token.** -/
theorem reads_of_tokenFrom (h : tokenFrom s st stk = .ok (tok, dec)) :
    ∃ g st' t u, s = g ++ (t ++ u) ∧ Gap st st' g ∧ Reads st' stk t u tok dec := by
  induction s generalizing st with
  | nil => cases h
  | cons b s ih =>
    rw [tokenFrom] at h
    by_cases h1 : isSpace b = true
    · rw [if_pos h1] at h
      obtain ⟨g, st', t, u, rfl, hg, hr⟩ := ih h
      exact ⟨[b] ++ g, st', t, u, rfl, hg.blank_append (by simpa [Blank] using h1), hr⟩
    rw [if_neg h1] at h
    by_cases h2 : b = 0x5b
    · rw [if_pos h2] at h
      split_ifs at h with hst
      cases h
      exact ⟨[], st, [0x5b], s, by rw [h2]; rfl, .blank blank_nil, rfl, hst, rfl⟩
    rw [if_neg h2] at h
    by_cases h3 : b = 0x5d
    · rw [if_pos h3] at h
      obtain ⟨rfl, hst, hdec⟩ := exists_of_closeToken h
      exact ⟨[], st, [0x5d], s, by rw [h3]; rfl, .blank blank_nil, rfl, hst, hdec⟩
    rw [if_neg h3] at h
    by_cases h4 : b = 0x7b
    · rw [if_pos h4] at h
      split_ifs at h with hst
      cases h
      exact ⟨[], st, [0x7b], s, by rw [h4]; rfl, .blank blank_nil, rfl, hst, rfl⟩
    rw [if_neg h4] at h
    by_cases h5 : b = 0x7d
    · rw [if_pos h5] at h
      obtain ⟨rfl, hst, hdec⟩ := exists_of_closeToken h
      exact ⟨[], st, [0x7d], s, by rw [h5]; rfl, .blank blank_nil, rfl, hst, hdec⟩
    rw [if_neg h5] at h
    -- a separator moves the decoder to a state in which no other one is allowed
    by_cases h6 : b = 0x3a
    · rw [if_pos h6] at h
      split_ifs at h with hst
      obtain ⟨g, st', t, u, rfl, hg, hr⟩ := ih h
      cases hg with
      | blank hw => exact ⟨[] ++ 0x3a :: g, _, t, u, by rw [h6]; rfl, hst ▸ .value blank_nil hw, hr⟩
    rw [if_neg h6] at h
    by_cases h7 : b = 0x2c
    · rw [if_pos h7] at h
      split_ifs at h with hst hst
      · obtain ⟨g, st', t, u, rfl, hg, hr⟩ := ih h
        cases hg with
        | blank hw =>
          exact ⟨[] ++ 0x2c :: g, _, t, u, by rw [h7]; rfl, hst ▸ .element blank_nil hw, hr⟩
      · obtain ⟨g, st', t, u, rfl, hg, hr⟩ := ih h
        cases hg with
        | blank hw =>
          exact ⟨[] ++ 0x2c :: g, _, t, u, by rw [h7]; rfl, hst ▸ .member blank_nil hw, hr⟩
    rw [if_neg h7] at h
    by_cases h8 : b = 0x22 ∧ (st = .objectStart ∨ st = .objectKey)
    · rw [if_pos h8] at h
      obtain ⟨⟨x, u⟩, hx, hxu⟩ := map_eq_ok_iff.mp h
      cases hxu
      obtain ⟨t, ht, hs⟩ := decodeString_eq_ok.mp hx
      exact ⟨[], st, t, u, h8.1 ▸ ht, .blank blank_nil, hs, Or.inl ⟨h8.2, rfl⟩⟩
    rw [if_neg h8] at h
    split_ifs at h with hst
    obtain ⟨⟨x, u⟩, hx, hxu⟩ := map_eq_ok_iff.mp h
    cases hxu
    obtain ⟨t, ht, hr⟩ := reads_of_decodeScalar hx hst stk
    exact ⟨[], st, t, u, ht, .blank blank_nil, hr⟩

/-- The string of a token is UTF-8. -/
def Token.Utf8 : Token → Prop
  | .str s => Go.Utf8 s
  | _ => True

theorem Reads.utf8 (h : Reads st stk t u tok dec) : tok.Utf8 := by
  cases tok with
  | str s =>
    obtain ⟨⟨body, -, -, hs⟩, -⟩ := h
    exact utf8_of_unquote hs
  | _ => trivial

theorem Reads.rest (h : Reads st stk t u tok dec) : t ≠ [] ∧ dec.rest = u := by
  cases tok with
  | delim d =>
    cases d with
    | lbracket | lbrace =>
      obtain ⟨rfl, -, rfl⟩ := h
      exact ⟨List.cons_ne_nil _ _, rfl⟩
    | rbracket | rbrace =>
      obtain ⟨rfl, -, st', stk', -, rfl⟩ := h
      exact ⟨List.cons_ne_nil _ _, rfl⟩
  | str s =>
    obtain ⟨⟨body, rfl, -⟩, ⟨-, rfl⟩ | ⟨-, rfl⟩⟩ := h <;> exact ⟨List.cons_ne_nil _ _, rfl⟩
  | number x =>
    obtain ⟨rfl, ⟨b, y, rfl, -⟩, -, rfl⟩ := h
    exact ⟨List.cons_ne_nil _ _, rfl⟩
  | bool b =>
    obtain ⟨rfl, -, rfl⟩ := h
    exact ⟨by cases b <;> decide, rfl⟩
  | null =>
    obtain ⟨rfl, -, rfl⟩ := h
    exact ⟨by decide, rfl⟩

/-- **Every token shortens the input**, and its text is UTF-8. -/
theorem Decoder.consumes_of_token {dec' : Decoder} (h : dec.token = .ok (tok, dec')) :
    dec'.rest.length < dec.rest.length ∧ tok.Utf8 := by
  obtain ⟨g, st', t, u, hs, -, hread⟩ := reads_of_tokenFrom h
  obtain ⟨ht, hu⟩ := hread.rest
  have hpos := List.length_pos_of_ne_nil ht
  refine ⟨?_, hread.utf8⟩
  rw [hs, hu, List.length_append, List.length_append]
  omega

end Json

end Go

end Iscp
