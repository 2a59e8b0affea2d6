import Iscp.Canonical.Grammar

/-!
# What the strict parser accepts

Every text of the canonical profile is read as its value, in front of whatever follows it
(`Iscp.Canonical.parse_of_text`), by induction on the text. What `ParseStrict` makes of the bytes
after the value is another matter. It asks `More`, which answers no at a closing bracket, and then
expects `Decode` to fail, which it does there: a value followed by a stray closing bracket and
anything at all is accepted. Nor are the bytes of a literal required to be UTF-8.
`Iscp.Canonical.parseStrict_eq_ok_iff` is what the parser accepts, and
`Iscp.Canonical.accepts_profile_iff` says on which inputs that is the profile.
-/

namespace Iscp

namespace Canonical

open Go Go.Json

/-! ### Every text is read -/

theorem parseNumber_formatInt {i : ℤ} (hi : IsInt64 i) :
    parseNumber (formatInt i) = .ok (.int i) := by
  have hdigit : ∀ b, isDigit b = true → ¬(b = 0x2e ∨ b = 0x65 ∨ b = 0x45) := fun b hb =>
    not_or.mpr ⟨ne_of_isDigit hb rfl, not_or.mpr ⟨ne_of_isDigit hb rfl, ne_of_isDigit hb rfl⟩⟩
  have hshape : (∀ c ∈ formatInt i, ¬(c = 0x2e ∨ c = 0x65 ∨ c = 0x45)) ∧
      ¬(1 < (formatInt i).length ∧ (formatInt i).head? = some 0x30) ∧
      ¬(lit "-0").isPrefixOf (formatInt i) = true := by
    obtain h0 | ⟨b, s, hs | hs, hb, h0, hall⟩ := formatInt_cases i
    · rw [h0]
      exact ⟨List.forall_mem_singleton.mpr (by decide), by decide, by decide⟩
    · have hs' : ∀ c ∈ b :: s, isDigit c = true := List.forall_mem_cons.mpr ⟨hb, hall⟩
      rw [hs]
      refine ⟨fun c hc => hdigit c (hs' c hc), fun h => h0 (Option.some.inj h.2), ?_⟩
      simp [List.isPrefixOf, show lit "-0" = [0x2d, 0x30] from rfl,
        (ne_of_isDigit hb rfl : b ≠ 0x2d).symm]
    · have hs' : ∀ c ∈ b :: s, isDigit c = true := List.forall_mem_cons.mpr ⟨hb, hall⟩
      rw [hs]
      refine ⟨List.forall_mem_cons.mpr ⟨by decide, fun c hc => hdigit c (hs' c hc)⟩,
        fun h => absurd (Option.some.inj h.2) (by decide), ?_⟩
      simp [List.isPrefixOf, show lit "-0" = [0x2d, 0x30] from rfl, h0.symm]
  obtain ⟨hfloat, hzero, hneg⟩ := hshape
  rw [parseNumber, if_neg (by simpa using hfloat), if_neg hzero, if_neg hneg,
    parseInt_formatInt hi]

theorem endsNumber_cons {b : UInt8}
    (h : isDigit b = false ∧ b ≠ 0x2e ∧ b ≠ 0x65 ∧ b ≠ 0x45) (u : Bytes) : EndsNumber (b :: u) :=
  fun _ hc => Option.some.inj hc ▸ h

variable {w u t x w' y : Bytes} {v : Value} {st st' : TokenState} {xs : List Value} {k : Str}
  {m : List (Str × Value)}

theorem endsNumber_blank_append (hw : Blank w) (hu : EndsNumber u) : EndsNumber (w ++ u) := by
  cases w with
  | nil => exact hu
  | cons b w =>
    refine endsNumber_cons ?_ _
    have hb : b = 0x20 ∨ b = 0x09 ∨ b = 0x0d ∨ b = 0x0a := by
      simpa [isSpace] using hw b List.mem_cons_self
    rcases hb with rfl | rfl | rfl | rfl <;> decide

theorem formatInt_eq_cons (i : ℤ) :
    ∃ b s, formatInt i = b :: s ∧ isSpace b = false ∧ b ≠ 0x5d ∧ b ≠ 0x7d := by
  have hdigit : ∀ b, isDigit b = true → isSpace b = false ∧ b ≠ 0x5d ∧ b ≠ 0x7d := fun b hb =>
    ⟨decide_eq_false (not_or.mpr ⟨ne_of_isDigit hb rfl, not_or.mpr ⟨ne_of_isDigit hb rfl,
      not_or.mpr ⟨ne_of_isDigit hb rfl, ne_of_isDigit hb rfl⟩⟩⟩), ne_of_isDigit hb rfl,
      ne_of_isDigit hb rfl⟩
  obtain h0 | ⟨b, s, hs | hs, hb, -⟩ := formatInt_cases i
  · exact ⟨_, _, h0, by decide, by decide, by decide⟩
  · exact ⟨b, s, hs, hdigit b hb⟩
  · exact ⟨_, _, hs, by decide, by decide, by decide⟩

/-- There is more to read in front of these bytes, wherever they stand. -/
def Opens (t : Bytes) : Prop := ∀ u st stk, Decoder.more ⟨t ++ u, st, stk⟩ = true

theorem opens_cons {b : UInt8} (h : isSpace b = false ∧ b ≠ 0x5d ∧ b ≠ 0x7d) (t : Bytes) :
    Opens (b :: t) := fun _ _ _ => Decoder.more_cons h.1 h.2.1 h.2.2 _ _ _

theorem Opens.blank_append (h : Opens t) (hw : Blank w) : Opens (w ++ t) := fun u st stk => by
  rw [List.append_assoc, more_blank hw, h]

theorem Opens.append (h : Opens t) (x : Bytes) : Opens (t ++ x) := fun u st stk => by
  rw [List.append_assoc, h]

theorem opens_of_isString {s : Str} (h : IsString s x) : Opens x := by
  obtain ⟨body, rfl, -⟩ := h
  exact opens_cons (by decide) _

/-- The parser reads the text as the value, after any gap, up to white space at its end. -/
def Parses (v : Value) (t : Bytes) : Prop :=
  Opens t ∧ ∀ (n : ℕ) (st st' : TokenState) (stk : List TokenState) (g u : Bytes), Gap st st' g →
    st'.valueAllowed → EndsNumber u → 2 * (g ++ (t ++ u)).length < n →
      ∃ w, Blank w ∧
        parseValue n ⟨g ++ (t ++ u), st, stk⟩ = .ok (v, ⟨w ++ u, st'.valueEnd, stk⟩)

/-- The loop over the elements reads the text as the values, up to the closing bracket. -/
def ParsesElements (xs : List Value) (x : Bytes) : Prop :=
  Opens x ∧ ∀ (n : ℕ) (arr : List Value) (st st' st'' : TokenState) (stk : List TokenState)
    (g u : Bytes), Gap st st' g → st' = .arrayStart ∨ st' = .arrayValue →
    2 * (g ++ (x ++ 0x5d :: u)).length + 1 < n →
      parseElements n arr ⟨g ++ (x ++ 0x5d :: u), st, st'' :: stk⟩ =
        .ok (.arr (arr ++ xs), ⟨u, st''.valueEnd, stk⟩)

/-- The loop over the members reads the text as the members, up to the closing brace. -/
def ParsesMembers (m : List (Str × Value)) (x : Bytes) : Prop :=
  ∀ (n : ℕ) (obj : List (Str × Value)) (st st' st'' : TokenState) (stk : List TokenState)
    (g u : Bytes), Gap st st' g → st' = .objectStart ∨ st' = .objectKey → UniqueKeys (obj ++ m) →
    2 * (g ++ (x ++ 0x7d :: u)).length + 1 < n →
      parseMembers n obj ⟨g ++ (x ++ 0x7d :: u), st, st'' :: stk⟩ =
        .ok (.obj (obj ++ m), ⟨u, st''.valueEnd, stk⟩)

theorem parses_of_token {tok : Token} (hopens : Opens t)
    (htok : ∀ (st : TokenState) (stk : List TokenState) (u : Bytes), st.valueAllowed →
      EndsNumber u → tokenFrom (t ++ u) st stk = .ok (tok, ⟨u, st.valueEnd, stk⟩))
    (hval : ∀ n dec dec', dec.token = .ok (tok, dec') → parseValue (n + 1) dec = .ok (v, dec')) :
    Parses v t := by
  refine ⟨hopens, fun n st st' stk g u hg hst hu hn => ⟨[], blank_nil, ?_⟩⟩
  obtain ⟨n, rfl⟩ : ∃ k, n = k + 1 := ⟨n - 1, by omega⟩
  refine hval n _ _ ?_
  rw [Decoder.token, hg.tokenFrom, htok st' stk u hst hu]
  rfl

theorem parses_null : Parses .null (lit "null") := by
  refine parses_of_token (opens_cons (by decide) _)
    (fun st stk u hst _ => tokenFrom_null stk u hst) fun n dec dec' h => ?_
  rw [parseValue, h]

theorem parses_bool (b : Bool) : Parses (.bool b) (lit (if b then "true" else "false")) := by
  cases b with
  | false =>
    refine parses_of_token (opens_cons (by decide) _)
      (fun st stk u hst _ => tokenFrom_false stk u hst) fun n dec dec' h => ?_
    rw [parseValue, h]
  | true =>
    refine parses_of_token (opens_cons (by decide) _)
      (fun st stk u hst _ => tokenFrom_true stk u hst) fun n dec dec' h => ?_
    rw [parseValue, h]

theorem parses_int {i : ℤ} (hi : IsInt64 i) : Parses (.int i) (formatInt i) := by
  have hopens : Opens (formatInt i) := by
    obtain ⟨b, s, hs, hb⟩ := formatInt_eq_cons i
    exact hs ▸ opens_cons hb s
  refine parses_of_token hopens (fun st stk u hst hu => tokenFrom_int stk u hst i hu)
    fun n dec dec' h => ?_
  rw [parseValue, h]
  simp only [parseNumber_formatInt hi]
  rfl

theorem parses_str {s : Str} (h : IsString s x) : Parses (.str s) x := by
  refine parses_of_token (opens_of_isString h) (fun st stk u hst _ => ?_)
    (fun n dec dec' (htok : dec.token = .ok (.str s, dec')) => by rw [parseValue, htok])
  obtain ⟨body, rfl, hbody⟩ := h
  have hdec : decodeString (body ++ [0x22] ++ u) = .ok (s, u) :=
    decodeString_eq_ok.mpr ⟨_, rfl, body, rfl, hbody⟩
  rw [List.cons_append, tokenFrom_scalar stk _ hst (by decide), decodeScalar, if_pos rfl, hdec]
  rfl

theorem Parses.pad (hw : Blank w) (h : Parses v x) (hw' : Blank w') :
    Parses v (w ++ (x ++ w')) := by
  refine ⟨(h.1.append w').blank_append hw, fun n st st' stk g u hg hst hu hn => ?_⟩
  have heq : g ++ (w ++ (x ++ w') ++ u) = (g ++ w) ++ (x ++ (w' ++ u)) := by simp
  rw [heq] at hn ⊢
  obtain ⟨w'', hw'', hparse⟩ := h.2 n st st' stk (g ++ w) (w' ++ u) (hg.append_blank hw) hst
    (endsNumber_blank_append hw' hu) hn
  exact ⟨w'' ++ w', hw''.append hw', by rw [hparse, List.append_assoc]⟩

theorem parseElements_close_blank (n : ℕ) (h : st = .arrayStart ∨ st = .arrayComma)
    (arr : List Value) (st' : TokenState) (stk : List TokenState) (hw : Blank w) (u : Bytes) :
    parseElements (n + 1) arr ⟨w ++ 0x5d :: u, st, st' :: stk⟩ =
      .ok (.arr arr, ⟨u, st'.valueEnd, stk⟩) := by
  have hmore : Decoder.more ⟨w ++ 0x5d :: u, st, st' :: stk⟩ = false :=
    more_eq_false_iff.mpr ⟨w, _, rfl, hw, fun b hb => Or.inl (Option.some.inj hb).symm⟩
  rw [parseElements, if_neg (by simp [hmore]), Decoder.token, tokenFrom_blank hw,
    tokenFrom_rbracket stk u h]

theorem parseMembers_close_blank (n : ℕ) (h : st = .objectStart ∨ st = .objectComma)
    (obj : List (Str × Value)) (st' : TokenState) (stk : List TokenState) (hw : Blank w)
    (u : Bytes) :
    parseMembers (n + 1) obj ⟨w ++ 0x7d :: u, st, st' :: stk⟩ =
      .ok (.obj obj, ⟨u, st'.valueEnd, stk⟩) := by
  have hmore : Decoder.more ⟨w ++ 0x7d :: u, st, st' :: stk⟩ = false :=
    more_eq_false_iff.mpr ⟨w, _, rfl, hw, fun b hb => Or.inr (Option.some.inj hb).symm⟩
  rw [parseMembers, if_neg (by simp [hmore]), Decoder.token, tokenFrom_blank hw,
    tokenFrom_rbrace stk u h]

/-- One turn of the loop over the elements of an array. -/
theorem parseElements_element (hv : Parses v x) {n : ℕ} {g : Bytes} (hg : Gap st st' g)
    (hst : st' = .arrayStart ∨ st' = .arrayValue) (hu : EndsNumber u)
    (hn : 2 * (g ++ (x ++ u)).length < n) (arr : List Value) (stk : List TokenState) :
    ∃ w, Blank w ∧ 2 * (w ++ u).length + 1 < n ∧
      parseElements (n + 1) arr ⟨g ++ (x ++ u), st, stk⟩ =
        parseElements n (arr ++ [v]) ⟨w ++ u, .arrayComma, stk⟩ := by
  have hallow : st'.valueAllowed ∧ st'.valueEnd = .arrayComma := by
    rcases hst with rfl | rfl <;> exact ⟨rfl, rfl⟩
  obtain ⟨w, hw, hparse⟩ := hv.2 n st st' stk g u hg hallow.1 hu hn
  have hlen := (good_parse n).1 ⟨g ++ (x ++ u), st, stk⟩ hn
  rw [hparse] at hlen
  have hlt : (w ++ u).length < (g ++ (x ++ u)).length := hlen.1
  refine ⟨w, hw, by omega, ?_⟩
  rw [parseElements, if_pos (hg.more (hv.1 u) stk), hparse, hallow.2]

theorem parsesElements_last (hv : Parses v x) : ParsesElements [v] x := by
  refine ⟨hv.1, fun n arr st st' st'' stk g u hg hst hn => ?_⟩
  obtain ⟨n, rfl⟩ : ∃ k, n = k + 1 := ⟨n - 1, by omega⟩
  obtain ⟨w, hw, hlen, heq⟩ := parseElements_element hv hg hst
    (endsNumber_cons (by decide) u) (Nat.lt_of_succ_lt_succ hn) arr (st'' :: stk)
  obtain ⟨n, rfl⟩ : ∃ k, n = k + 1 := ⟨n - 1, by omega⟩
  rw [heq, parseElements_close_blank n (Or.inr rfl) _ st'' stk hw]

theorem parsesElements_cons (hv : Parses v x) (hxs : ParsesElements xs y) :
    ParsesElements (v :: xs) (x ++ 0x2c :: y) := by
  refine ⟨hv.1.append _, fun n arr st st' st'' stk g u hg hst hn => ?_⟩
  rw [List.append_assoc, List.cons_append] at hn ⊢
  obtain ⟨n, rfl⟩ : ∃ k, n = k + 1 := ⟨n - 1, by omega⟩
  obtain ⟨w, hw, hlen, heq⟩ := parseElements_element hv hg hst
    (endsNumber_cons (by decide) (y ++ 0x5d :: u)) (Nat.lt_of_succ_lt_succ hn) arr (st'' :: stk)
  have hsplit : w ++ 0x2c :: (y ++ 0x5d :: u) = (w ++ 0x2c :: []) ++ (y ++ 0x5d :: u) := by simp
  rw [hsplit] at hlen heq
  rw [heq, hxs.2 n _ .arrayComma .arrayValue st'' stk _ u (.element hw blank_nil) (Or.inr rfl) hlen,
    List.append_assoc, List.singleton_append]

/-- **The name of a member is read.** -/
theorem tokenFrom_name (hk : IsString k x) (hst : st = .objectStart ∨ st = .objectKey)
    (u : Bytes) (stk : List TokenState) :
    tokenFrom (x ++ u) st stk = .ok (.str k, ⟨u, .objectColon, stk⟩) := by
  obtain ⟨body, rfl, hbody⟩ := hk
  have hdec : decodeString (body ++ [0x22] ++ u) = .ok (k, u) :=
    decodeString_eq_ok.mpr ⟨_, rfl, body, rfl, hbody⟩
  rw [List.cons_append, tokenFrom, if_neg (by decide), if_neg (by decide), if_neg (by decide),
    if_neg (by decide), if_neg (by decide), if_neg (by decide), if_neg (by decide),
    if_pos ⟨rfl, hst⟩, hdec]
  rfl

/-- **The value of a member is read**, after the colon. -/
theorem parseValue_member (hw : Blank w) (hv : Parses v y) (hu : EndsNumber u) {n : ℕ}
    (hn : 2 * (w ++ 0x3a :: (y ++ u)).length < n) (stk : List TokenState) :
    ∃ w', Blank w' ∧ 2 * (w' ++ u).length + 1 < n ∧
      parseValue n ⟨w ++ 0x3a :: (y ++ u), .objectColon, stk⟩ =
        .ok (v, ⟨w' ++ u, .objectComma, stk⟩) := by
  have hsplit : w ++ 0x3a :: (y ++ u) = (w ++ 0x3a :: []) ++ (y ++ u) := by simp
  rw [hsplit] at hn ⊢
  obtain ⟨w', hw', hparse⟩ := hv.2 n .objectColon .objectValue stk (w ++ 0x3a :: []) u
    (.value hw blank_nil) rfl hu hn
  have hlen := (good_parse n).1 ⟨(w ++ 0x3a :: []) ++ (y ++ u), .objectColon, stk⟩ hn
  rw [hparse] at hlen
  have hlt : (w' ++ u).length < ((w ++ 0x3a :: []) ++ (y ++ u)).length := hlen.1
  exact ⟨w', hw', by omega, hparse⟩

/-- One turn of the loop over the members of an object. -/
theorem parseMembers_entry (hw : Blank w) (hk : IsString k x) (hw' : Blank w') (hv : Parses v y)
    {n : ℕ} {g : Bytes} (hg : Gap st st' g) (hst : st' = .objectStart ∨ st' = .objectKey)
    (hu : EndsNumber u) {obj : List (Str × Value)} (hnew : k ∉ obj.map Prod.fst)
    (hn : 2 * (g ++ (w ++ (x ++ (w' ++ 0x3a :: (y ++ u))))).length < n) (stk : List TokenState) :
    ∃ w'', Blank w'' ∧ 2 * (w'' ++ u).length + 1 < n ∧
      parseMembers (n + 1) obj ⟨g ++ (w ++ (x ++ (w' ++ 0x3a :: (y ++ u)))), st, stk⟩ =
        parseMembers n (obj ++ [(k, v)]) ⟨w'' ++ u, .objectComma, stk⟩ := by
  have hgap := hg.append_blank hw
  have hopens := hgap.more (opens_of_isString hk (w' ++ 0x3a :: (y ++ u))) stk
  have hlen : 2 * (w' ++ 0x3a :: (y ++ u)).length < n := by
    refine lt_of_le_of_lt ?_ hn
    simp only [List.length_append, List.length_cons]
    omega
  obtain ⟨w'', hw'', hlt, hparse⟩ := parseValue_member hw' hv hu hlen stk
  refine ⟨w'', hw'', hlt, ?_⟩
  rw [← List.append_assoc, parseMembers, if_pos hopens, Decoder.token, hgap.tokenFrom,
    tokenFrom_name hk hst]
  simp only [if_neg hnew]
  rw [hparse]

theorem parsesMembers_last (hw : Blank w) (hk : IsString k x) (hw' : Blank w') (hv : Parses v y) :
    ParsesMembers [(k, v)] (w ++ (x ++ (w' ++ 0x3a :: y))) := by
  intro n obj st st' st'' stk g u hg hst hkeys hn
  simp only [List.append_assoc, List.cons_append] at hn ⊢
  obtain ⟨n, rfl⟩ : ∃ k, n = k + 1 := ⟨n - 1, by omega⟩
  have hnew : k ∉ obj.map Prod.fst := by
    rw [UniqueKeys, List.map_append, List.nodup_append] at hkeys
    exact fun hmem => hkeys.2.2 k hmem k List.mem_cons_self rfl
  obtain ⟨w'', hw'', hlen, heq⟩ := parseMembers_entry hw hk hw' hv hg hst
    (endsNumber_cons (by decide) u) hnew (Nat.lt_of_succ_lt_succ hn) (st'' :: stk)
  obtain ⟨n, rfl⟩ : ∃ k, n = k + 1 := ⟨n - 1, by omega⟩
  rw [heq, parseMembers_close_blank n (Or.inr rfl) _ st'' stk hw'']

theorem parsesMembers_cons {z : Bytes} (hw : Blank w) (hk : IsString k x) (hw' : Blank w')
    (hv : Parses v y) (hm : ParsesMembers m z) :
    ParsesMembers ((k, v) :: m) (w ++ (x ++ (w' ++ 0x3a :: (y ++ 0x2c :: z)))) := by
  intro n obj st st' st'' stk g u hg hst hkeys hn
  simp only [List.append_assoc, List.cons_append] at hn ⊢
  obtain ⟨n, rfl⟩ : ∃ k, n = k + 1 := ⟨n - 1, by omega⟩
  have hnew : k ∉ obj.map Prod.fst := by
    rw [UniqueKeys, List.map_append, List.nodup_append] at hkeys
    exact fun hmem => hkeys.2.2 k hmem k List.mem_cons_self rfl
  obtain ⟨w'', hw'', hlen, heq⟩ := parseMembers_entry hw hk hw' hv hg hst
    (endsNumber_cons (by decide) (z ++ 0x7d :: u)) hnew (Nat.lt_of_succ_lt_succ hn) (st'' :: stk)
  have hsplit : w'' ++ 0x2c :: (z ++ 0x7d :: u) = (w'' ++ 0x2c :: []) ++ (z ++ 0x7d :: u) := by simp
  rw [hsplit] at hlen heq
  rw [heq, hm n _ .objectComma .objectKey st'' stk _ u (.member hw'' blank_nil) (Or.inr rfl)
    (by simpa using hkeys) hlen, List.append_assoc, List.singleton_append]

theorem parses_arr (h : ParsesElements xs x) : Parses (.arr xs) (0x5b :: (x ++ [0x5d])) := by
  refine ⟨opens_cons (by decide) _, fun n st st' stk g u hg hst _ hn => ⟨[], blank_nil, ?_⟩⟩
  obtain ⟨n, rfl⟩ : ∃ k, n = k + 1 := ⟨n - 1, by omega⟩
  have hlen : 2 * ([] ++ (x ++ 0x5d :: u)).length + 1 < n := by
    simp only [List.length_append, List.length_cons, List.length_nil] at hn ⊢
    omega
  have hloop := h.2 n [] .arrayStart .arrayStart st' stk [] u (.blank blank_nil) (Or.inl rfl) hlen
  rw [List.cons_append, parseValue, Decoder.token, hg.tokenFrom, tokenFrom_lbracket _ _ hst]
  simp only [List.append_assoc, List.singleton_append]
  exact hloop

theorem parses_obj (hk : UniqueKeys m) (h : ParsesMembers m x) :
    Parses (.obj m) (0x7b :: (x ++ [0x7d])) := by
  refine ⟨opens_cons (by decide) _, fun n st st' stk g u hg hst _ hn => ⟨[], blank_nil, ?_⟩⟩
  obtain ⟨n, rfl⟩ : ∃ k, n = k + 1 := ⟨n - 1, by omega⟩
  have hlen : 2 * ([] ++ (x ++ 0x7d :: u)).length + 1 < n := by
    simp only [List.length_append, List.length_cons, List.length_nil] at hn ⊢
    omega
  have hloop := h n [] .objectStart .objectStart st' stk [] u (.blank blank_nil) (Or.inl rfl)
    hk hlen
  rw [List.cons_append, parseValue, Decoder.token, hg.tokenFrom, tokenFrom_lbrace _ _ hst]
  simp only [List.append_assoc, List.singleton_append]
  exact hloop

theorem parses_emptyArr (hw : Blank w) : Parses (.arr []) (0x5b :: (w ++ [0x5d])) := by
  refine ⟨opens_cons (by decide) _, fun n st st' stk g u hg hst _ hn => ⟨[], blank_nil, ?_⟩⟩
  obtain ⟨n, rfl⟩ : ∃ k, n = k + 2 := ⟨n - 2, by simp at hn; omega⟩
  rw [List.cons_append, parseValue, Decoder.token, hg.tokenFrom, tokenFrom_lbracket _ _ hst]
  simp only [List.append_assoc, List.singleton_append]
  exact parseElements_close_blank n (Or.inl rfl) [] st' stk hw u

theorem parses_emptyObj (hw : Blank w) : Parses (.obj []) (0x7b :: (w ++ [0x7d])) := by
  refine ⟨opens_cons (by decide) _, fun n st st' stk g u hg hst _ hn => ⟨[], blank_nil, ?_⟩⟩
  obtain ⟨n, rfl⟩ : ∃ k, n = k + 2 := ⟨n - 2, by simp at hn; omega⟩
  rw [List.cons_append, parseValue, Decoder.token, hg.tokenFrom, tokenFrom_lbrace _ _ hst]
  simp only [List.append_assoc, List.singleton_append]
  exact parseMembers_close_blank n (Or.inl rfl) [] st' stk hw u

/-- **Every text of the profile is read** as the value it is a text of. -/
theorem parse_of_text (h : IsText v t) : Parses v t := by
  refine @IsText.rec (fun v t _ => Parses v t) (fun xs x _ => ParsesElements xs x)
    (fun m x _ => ParsesMembers m x) parses_null parses_bool parses_int parses_str parses_emptyArr
    (fun _ => parses_arr)
    parses_emptyObj (fun hk _ => parses_obj hk) (fun hw _ hw' h => h.pad hw hw')
    (fun _ => parsesElements_last) (fun _ _ => parsesElements_cons)
    (fun hw hk hw' _ => parsesMembers_last hw hk hw')
    (fun hw hk hw' _ _ => parsesMembers_cons hw hk hw') v t h

/-! ### What is accepted -/

/-- One value of the profile, with white space around it. -/
def OneValue (x : Bytes) : Prop := ∃ v, IsText v x

/-- One value of the profile, then a stray closing bracket and anything after it. -/
def Stray (x : Bytes) : Prop := ∃ v t b u, x = t ++ b :: u ∧ IsText v t ∧ Closes b

theorem endsNumber_of_closes (h : ∀ b ∈ u.head?, Closes b) : EndsNumber u :=
  fun b hb => by rcases h b hb with rfl | rfl <;> decide

/-- The call `ParseStrict` makes, on a text with nothing but a stray bracket after it. -/
theorem parseValue_of_text (h : IsText v t) (hu : ∀ b ∈ u.head?, Closes b) :
    ∃ w, Blank w ∧ parseValue (2 * (t ++ u).length + 1) (newDecoder (t ++ u)) =
      .ok (v, ⟨w ++ u, .topValue, []⟩) :=
  (parse_of_text h).2 _ .topValue .topValue [] [] u (.blank blank_nil) rfl
    (endsNumber_of_closes hu) (Nat.lt_succ_self _)

/-- **What `ParseStrict` accepts**: a text of the profile, and after it nothing or a closing
bracket. -/
theorem parseStrict_eq_ok_iff :
    parseStrict x = .ok v ↔ ∃ t u, x = t ++ u ∧ IsText v t ∧ ∀ b ∈ u.head?, Closes b := by
  constructor
  · intro h
    obtain ⟨dec, hparse, hmore⟩ := parseStrict_eq_ok h
    obtain ⟨g, st, t, u, hrest, hg, -, htext, rfl⟩ :=
      (text_of_parse (2 * x.length + 1)).1 (Or.inl rfl) hparse
    obtain rfl : x = g ++ (t ++ u) := hrest
    obtain ⟨w, u', rfl, hw, hu'⟩ := more_eq_false_iff.mp hmore
    cases hg with
    | blank hg => exact ⟨g ++ (t ++ w), u', by simp, htext.pad hg hw, hu'⟩
  · rintro ⟨t, u, rfl, htext, hu⟩
    obtain ⟨w, hw, hparse⟩ := parseValue_of_text htext hu
    have hmore : Decoder.more ⟨w ++ u, .topValue, []⟩ = false :=
      more_eq_false_iff.mpr ⟨w, u, rfl, hw, hu⟩
    obtain ⟨e, he⟩ := tokenFrom_of_not_more hmore
    have hdecode : Decoder.decode ⟨w ++ u, .topValue, []⟩ = .error e := by
      rw [Decoder.decode, Decoder.skipValue, Decoder.token, he]
    rw [parseStrict, hparse]
    simp only [hmore, hdecode]
    rfl

theorem accepted_iff : (∃ v, parseStrict x = .ok v) ↔ OneValue x ∨ Stray x := by
  simp only [parseStrict_eq_ok_iff]
  constructor
  · rintro ⟨v, t, u, rfl, htext, hu⟩
    cases u with
    | nil => exact Or.inl ⟨v, by rwa [List.append_nil]⟩
    | cons b u => exact Or.inr ⟨v, t, b, u, rfl, htext, hu b rfl⟩
  · rintro (⟨v, htext⟩ | ⟨v, t, b, u, rfl, htext, hb⟩)
    · exact ⟨v, x, [], by simp, htext, nofun⟩
    · exact ⟨v, t, b :: u, rfl, htext, fun c hc => Option.some.inj hc ▸ hb⟩

theorem not_stray_of_oneValue (h : OneValue x) : ¬Stray x := by
  obtain ⟨v, hv⟩ := h
  rintro ⟨v', t, b, u, rfl, ht, hb⟩
  obtain ⟨w, hw, hparse⟩ := parseValue_of_text hv (u := []) nofun
  obtain ⟨w', hw', hparse'⟩ := parseValue_of_text ht (u := b :: u)
    fun c hc => Option.some.inj hc ▸ hb
  rw [List.append_nil, hparse'] at hparse
  have hrest : w' ++ b :: u = w ++ [] :=
    congrArg Decoder.rest (Prod.mk.inj (Except.ok.inj hparse)).2
  have hspace : isSpace b = true := hw b (by
    rw [List.append_nil] at hrest
    exact hrest ▸ List.mem_append_right _ List.mem_cons_self)
  rcases hb with rfl | rfl <;> exact absurd hspace (by decide)

/-- **`ParseStrict` accepts exactly its profile** on the inputs in which no closing bracket
follows the value, as long as the value's text is UTF-8; and on no others. -/
theorem accepts_profile_iff (x : Bytes) :
    ((∃ v, parseStrict x = .ok v) ↔ Utf8 x ∧ OneValue x) ↔
      ¬Stray x ∧ (OneValue x → Utf8 x) := by
  have hdisjoint : OneValue x → ¬Stray x := not_stray_of_oneValue
  rw [accepted_iff]
  tauto

/-- Data after the value is accepted behind a bracket, and so is a string that is not UTF-8. -/
theorem accepts_outside_profile :
    (parseStrict (lit "1] and more") = .ok (.int 1) ∧ ¬OneValue (lit "1] and more")) ∧
    (parseStrict [0x22, 0xff, 0x22] = .ok (.str (lit "\ufffd")) ∧ ¬Utf8 [0x22, 0xff, 0x22]) := by
  refine ⟨⟨rfl, fun h => ?_⟩, rfl, by decide⟩
  exact not_stray_of_oneValue h
    ⟨.int 1, lit "1", 0x5d, lit " and more", rfl, .int (i := 1) (by decide), Or.inl rfl⟩

end Canonical

end Iscp
