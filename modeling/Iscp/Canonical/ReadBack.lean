import Iscp.Canonical.Profile

/-!
# Reading texts back

The strict parser and the compact writer are inverse to each other: the text of a value is
accepted exactly when the value, with its strings repaired, is of the canonical profile, and
it is then read as that value (`Iscp.Canonical.parseStrict_text_iff`).

What the writer writes is a text of the grammar (`Iscp.Canonical.isText_text`), which settles the
one direction. For the other, `Iscp.Canonical.ReadsOnly` says that at the text of any value, of
the profile or not, the parser reads nothing else. It is an induction on the value, with what
follows the value in the input as a parameter.
-/

namespace Iscp

namespace Canonical

open Go Go.Json

theorem parseValue_colon (n : ℕ) (s : Bytes) (stk : List TokenState) :
    parseValue n ⟨0x3a :: s, .objectColon, stk⟩ = parseValue n ⟨s, .objectValue, stk⟩ := by
  cases n with
  | zero => rfl
  | succ n => rw [parseValue, parseValue, Decoder.token, Decoder.token, tokenFrom_colon]

theorem parseValue_comma (n : ℕ) (s : Bytes) (stk : List TokenState) :
    parseValue n ⟨0x2c :: s, .arrayComma, stk⟩ = parseValue n ⟨s, .arrayValue, stk⟩ := by
  cases n with
  | zero => rfl
  | succ n => rw [parseValue, parseValue, Decoder.token, Decoder.token, tokenFrom_comma_array]

theorem text_eq_cons (v : Value) :
    ∃ b s, v.text = b :: s ∧ isSpace b = false ∧ b ≠ 0x5d ∧ b ≠ 0x7d := by
  cases v with
  | null => exact ⟨_, _, rfl, by decide, by decide, by decide⟩
  | bool b => cases b <;> exact ⟨_, _, rfl, by decide, by decide, by decide⟩
  | int i => exact formatInt_eq_cons i
  | str s => exact ⟨_, _, rfl, by decide, by decide, by decide⟩
  | arr xs => exact ⟨_, _, rfl, by decide, by decide, by decide⟩
  | obj m => exact ⟨_, _, rfl, by decide, by decide, by decide⟩

theorem more_text (v : Value) (u : Bytes) (st : TokenState) (stk : List TokenState) :
    Decoder.more ⟨v.text ++ u, st, stk⟩ = true := by
  obtain ⟨b, s, hs, h0, h1, h2⟩ := text_eq_cons v
  rw [hs, List.cons_append]
  exact Decoder.more_cons h0 h1 h2 _ _ _

variable {st st' : TokenState} {v w : Value} {xs : List Value} {m obj : List (Str × Value)}
  {stk : List TokenState} {dec : Decoder} {u : Bytes} {n : ℕ}

section Arrays

/-- What follows an element of an array: the other elements, each after a comma, and the
closing bracket. -/
def elementsRest (xs : List Value) (u : Bytes) : Bytes :=
  (xs.map Value.text).flatMap (0x2c :: ·) ++ 0x5d :: u

theorem elementsRest_nil (u : Bytes) : elementsRest [] u = 0x5d :: u := rfl

theorem elementsRest_cons (v : Value) (xs : List Value) (u : Bytes) :
    elementsRest (v :: xs) u = 0x2c :: (v.text ++ elementsRest xs u) := by
  simp [elementsRest]

theorem endsNumber_elementsRest (xs : List Value) (u : Bytes) : EndsNumber (elementsRest xs u) := by
  cases xs with
  | nil => exact endsNumber_cons (by decide) _
  | cons v xs =>
    rw [elementsRest_cons]
    exact endsNumber_cons (by decide) _

theorem parseElements_close (n : ℕ) (h : st = .arrayStart ∨ st = .arrayComma) (arr : List Value)
    (st' : TokenState) (stk : List TokenState) (u : Bytes) :
    parseElements (n + 1) arr ⟨0x5d :: u, st, st' :: stk⟩ =
      .ok (.arr arr, ⟨u, st'.valueEnd, stk⟩) :=
  parseElements_close_blank n h arr st' stk blank_nil u

theorem parseElements_comma (n : ℕ) (arr : List Value) (v : Value) (xs : List Value)
    (stk : List TokenState) (u : Bytes) :
    parseElements (n + 1) arr ⟨elementsRest (v :: xs) u, .arrayComma, stk⟩ =
      match parseValue n ⟨v.text ++ elementsRest xs u, .arrayValue, stk⟩ with
      | .error e => .error e
      | .ok (value, dec) => parseElements n (arr ++ [value]) dec := by
  have hmore := Decoder.more_cons (b := 0x2c) rfl (by decide) (by decide)
    (v.text ++ elementsRest xs u) .arrayComma stk
  rw [elementsRest_cons, parseElements, if_pos hmore]
  exact parseValue_comma n (v.text ++ elementsRest xs u) stk ▸ rfl

theorem elements_eq (v : Value) (xs : List Value) (u : Bytes) :
    Value.commaSep ((v :: xs).map Value.text) ++ [0x5d] ++ u = v.text ++ elementsRest xs u := by
  simp [Value.commaSep, elementsRest]

end Arrays

section Objects

/-- What follows a member of an object: the other members, each after a comma, and the
closing brace. -/
def membersRest (m : List (Str × Value)) (u : Bytes) : Bytes :=
  (m.map fun kv => Value.memberText (kv.1, kv.2.text)).flatMap (0x2c :: ·) ++ 0x7d :: u

theorem membersRest_nil (u : Bytes) : membersRest [] u = 0x7d :: u := rfl

theorem membersRest_cons (k : Str) (v : Value) (m : List (Str × Value)) (u : Bytes) :
    membersRest ((k, v) :: m) u = 0x2c :: (quote k ++ 0x3a :: (v.text ++ membersRest m u)) := by
  simp [membersRest, Value.memberText]

theorem endsNumber_membersRest (m : List (Str × Value)) (u : Bytes) :
    EndsNumber (membersRest m u) := by
  cases m with
  | nil => exact endsNumber_cons (by decide) _
  | cons kv m =>
    rw [membersRest_cons]
    exact endsNumber_cons (by decide) _

theorem parseMembers_close (n : ℕ) (h : st = .objectStart ∨ st = .objectComma)
    (obj : List (Str × Value)) (st' : TokenState) (stk : List TokenState) (u : Bytes) :
    parseMembers (n + 1) obj ⟨0x7d :: u, st, st' :: stk⟩ =
      .ok (.obj obj, ⟨u, st'.valueEnd, stk⟩) :=
  parseMembers_close_blank n h obj st' stk blank_nil u

theorem members_eq (k : Str) (v : Value) (m : List (Str × Value)) (u : Bytes) :
    Value.commaSep ((((k, v) :: m).map fun kv => (kv.1, kv.2.text)).map Value.memberText) ++
    [0x7d] ++
      u = quote k ++ 0x3a :: (v.text ++ membersRest m u) := by
  simp [Value.commaSep, membersRest, Value.memberText, Function.comp_def]

end Objects

/-! ### The text of a value is a text of the profile -/

theorem isString_quote (s : Str) : IsString (toUtf8 s) (quote s) := by
  obtain ⟨-, hbody⟩ := bodyFrom_of_scanStringFrom (scanString_quote s [])
  exact ⟨quoteBody s, rfl, hbody, unquote_quoteBody s⟩

theorem areElements_commaSep (h : ∀ w ∈ v :: xs, IsText w.toUtf8 w.text) :
    AreElements ((v :: xs).map Value.toUtf8) (Value.commaSep ((v :: xs).map Value.text)) := by
  induction xs generalizing v with
  | nil => simpa [Value.commaSep] using AreElements.last (h v List.mem_cons_self)
  | cons w xs ih =>
    have hrest := ih fun u hu => h u (List.mem_cons_of_mem _ hu)
    have hcons := AreElements.cons (h v List.mem_cons_self) hrest
    simpa [Value.commaSep] using hcons

/-- A member, and what it is written from. -/
def WrittenFrom (kv : Str × Value) (kx : Str × Bytes) : Prop :=
  kv.1 = toUtf8 kx.1 ∧ IsText kv.2 kx.2

theorem areMembers_commaSep {kv : Str × Value} {kx : Str × Bytes} {xs : List (Str × Bytes)}
    (hkv : WrittenFrom kv kx) (h : List.Forall₂ WrittenFrom m xs) :
    AreMembers (kv :: m) (Value.commaSep ((kx :: xs).map Value.memberText)) := by
  induction h generalizing kv kx with
  | nil =>
    have hlast := AreMembers.last blank_nil (isString_quote kx.1) blank_nil hkv.2
    rw [← hkv.1] at hlast
    simpa [Value.commaSep, Value.memberText] using hlast
  | cons hkw _ ih =>
    have hcons := AreMembers.cons blank_nil (isString_quote kx.1) blank_nil hkv.2 (ih hkw)
    rw [← hkv.1] at hcons
    simpa [Value.commaSep, Value.memberText] using hcons

/-- **What the writer writes is a text of the profile**, of the value with its strings
repaired. -/
theorem isText_text (v : Value) (h : Strict v.toUtf8) : IsText v.toUtf8 v.text := by
  induction v using Value.induction with
  | null => exact .null
  | bool b => cases b <;> exact .bool _
  | int i =>
    obtain _ | _ | hi | _ | _ | _ := h
    exact .int hi
  | str s => exact .str (isString_quote s)
  | arr xs ih =>
    rw [Value.toUtf8_arr] at h ⊢
    obtain _ | _ | _ | _ | hxs | _ := h
    rw [Value.text, Value.texts_eq]
    cases xs with
    | nil => exact .emptyArr blank_nil
    | cons v xs =>
      exact .arr (areElements_commaSep fun w hw => ih w hw (hxs _ (List.mem_map_of_mem hw)))
  | obj m ih =>
    rw [Value.toUtf8_obj] at h ⊢
    obtain _ | _ | _ | _ | _ | ⟨hk, -, hv⟩ := h
    rw [Value.text, Value.memberTexts_eq]
    have hwritten : ∀ kw ∈ m, WrittenFrom (toUtf8 kw.1, kw.2.toUtf8) (kw.1, kw.2.text) :=
      fun kw hkw => ⟨rfl, ih kw hkw (hv _ (List.mem_map_of_mem hkw))⟩
    cases m with
    | nil => exact .emptyObj blank_nil
    | cons kv m =>
      obtain ⟨hkv, hm⟩ := List.forall_mem_cons.mp hwritten
      refine .obj hk (areMembers_commaSep hkv ?_)
      rw [List.forall₂_map_left_iff, List.forall₂_map_right_iff, List.forall₂_same]
      exact hm

/-- **The strict parser inverts the writer**: the text of a value is accepted, and read as
that value with its strings repaired. -/
theorem parseStrict_text (h : Strict v.toUtf8) : parseStrict v.text = .ok v.toUtf8 :=
  parseStrict_eq_ok_iff.mpr ⟨v.text, [], by simp, isText_text v h, nofun⟩

/-! ### Nothing else is read -/

/-- What the parser reads at the text of the value, if anything, is the value. -/
def ReadsOnly (v : Value) : Prop :=
  ∀ (n : ℕ) (st : TokenState) (stk : List TokenState) (u : Bytes) (w : Value) (dec : Decoder),
    st.valueAllowed → EndsNumber u → parseValue n ⟨v.text ++ u, st, stk⟩ = .ok (w, dec) →
      w = v.toUtf8 ∧ dec = ⟨u, st.valueEnd, stk⟩

theorem readsOnly_elements (hxs : ∀ v ∈ xs, ReadsOnly v) {arr : List Value}
    (h : parseElements n arr ⟨elementsRest xs u, .arrayComma, st' :: stk⟩ = .ok (w, dec)) :
    w = .arr (arr ++ xs.map Value.toUtf8) ∧ dec = ⟨u, st'.valueEnd, stk⟩ := by
  induction xs generalizing n arr with
  | nil =>
    cases n with
    | zero => cases h
    | succ n =>
      rw [elementsRest_nil, parseElements_close n (Or.inr rfl)] at h
      cases h
      simp
  | cons v xs ih =>
    cases n with
    | zero => cases h
    | succ n =>
      rw [parseElements_comma] at h
      split at h
      · cases h
      · next value dec' hv =>
        obtain ⟨rfl, rfl⟩ := hxs v List.mem_cons_self _ _ _ _ _ _ rfl
          (endsNumber_elementsRest xs u) hv
        obtain ⟨rfl, rfl⟩ := ih (fun w hw => hxs w (List.mem_cons_of_mem _ hw)) h
        simp

/-- An array is read back if its elements are. -/
theorem readsOnly_arr (hxs : ∀ v ∈ xs, ReadsOnly v) : ReadsOnly (.arr xs) := by
  intro n st stk u w dec hst _ h
  cases n with
  | zero => cases h
  | succ n =>
    rw [Value.text, Value.texts_eq, List.cons_append, parseValue, Decoder.token,
      tokenFrom_lbracket stk _ hst] at h
    simp only at h
    rw [Value.toUtf8_arr]
    cases n with
    | zero => cases h
    | succ n =>
      cases xs with
      | nil =>
        rw [show Value.commaSep (([] : List Value).map Value.text) ++ [0x5d] ++ u = 0x5d :: u
          from rfl, parseElements_close n (Or.inl rfl)] at h
        cases h
        simp
      | cons v xs =>
        rw [elements_eq, parseElements, if_pos (more_text v _ _ _)] at h
        split at h
        · cases h
        · next value dec' hv =>
          obtain ⟨rfl, rfl⟩ := hxs v List.mem_cons_self _ _ _ _ _ _ rfl
            (endsNumber_elementsRest xs u) hv
          obtain ⟨rfl, rfl⟩ := readsOnly_elements (fun w hw => hxs w (List.mem_cons_of_mem _ hw)) h
          simp

theorem parseMembers_token {k : Str} (hmore : dec.more)
    (htok : dec.token = .ok (.str k, ⟨0x3a :: (v.text ++ u), .objectColon, stk⟩)) {dec' : Decoder}
    (h : parseMembers (n + 1) obj dec = .ok (w, dec')) :
    ∃ value dec'', parseValue n ⟨v.text ++ u, .objectValue, stk⟩ = .ok (value, dec'') ∧
      parseMembers n (obj ++ [(k, value)]) dec'' = .ok (w, dec') := by
  rw [parseMembers, if_pos hmore, htok] at h
  simp only [parseValue_colon] at h
  split_ifs at h
  split at h
  · cases h
  · next value dec'' hv => exact ⟨value, dec'', hv, h⟩

theorem readsOnly_members (hm : ∀ kv ∈ m, ReadsOnly kv.2)
    (h : parseMembers n obj ⟨membersRest m u, .objectComma, st' :: stk⟩ = .ok (w, dec)) :
    w = .obj (obj ++ m.map fun kv => (toUtf8 kv.1, kv.2.toUtf8)) ∧
      dec = ⟨u, st'.valueEnd, stk⟩ := by
  induction m generalizing n obj with
  | nil =>
    cases n with
    | zero => cases h
    | succ n =>
      rw [membersRest_nil, parseMembers_close n (Or.inr rfl)] at h
      cases h
      simp
  | cons kv m ih =>
    obtain ⟨k, v⟩ := kv
    cases n with
    | zero => cases h
    | succ n =>
      rw [membersRest_cons] at h
      obtain ⟨value, dec', hv, hrest⟩ := parseMembers_token
        (Decoder.more_cons rfl (by decide) (by decide) _ _ _)
        (by rw [Decoder.token, tokenFrom_comma_object, tokenFrom_key _ _ (Or.inr rfl)]) h
      obtain ⟨rfl, rfl⟩ := hm (k, v) List.mem_cons_self _ _ _ _ _ _ rfl
        (endsNumber_membersRest m u) hv
      obtain ⟨rfl, rfl⟩ := ih (fun kv h => hm kv (List.mem_cons_of_mem _ h)) hrest
      simp

/-- An object is read back if its members are. -/
theorem readsOnly_obj (hm : ∀ kv ∈ m, ReadsOnly kv.2) : ReadsOnly (.obj m) := by
  intro n st stk u w dec hst _ h
  cases n with
  | zero => cases h
  | succ n =>
    rw [Value.text, Value.memberTexts_eq, List.cons_append, parseValue, Decoder.token,
      tokenFrom_lbrace stk _ hst] at h
    simp only at h
    rw [Value.toUtf8_obj]
    cases n with
    | zero => cases h
    | succ n =>
      cases m with
      | nil =>
        rw [List.map_nil, List.map_nil, Value.commaSep, List.nil_append, List.singleton_append,
          parseMembers_close n (Or.inl rfl)] at h
        cases h
        simp
      | cons kv m =>
        obtain ⟨k, v⟩ := kv
        rw [members_eq] at h
        have hmore : Decoder.more ⟨quote k ++ 0x3a :: (v.text ++ membersRest m u), .objectStart,
            st :: stk⟩ = true := Decoder.more_cons rfl (by decide) (by decide) _ _ _
        obtain ⟨value, dec', hv, hrest⟩ := parseMembers_token hmore
          (by rw [Decoder.token, tokenFrom_key _ _ (Or.inl rfl)]) h
        obtain ⟨rfl, rfl⟩ := hm (k, v) List.mem_cons_self _ _ _ _ _ _ rfl
          (endsNumber_membersRest m u) hv
        obtain ⟨rfl, rfl⟩ := readsOnly_members (fun kv h => hm kv (List.mem_cons_of_mem _ h)) hrest
        simp

theorem parseNumber_eq_ok {i : ℤ} (h : parseNumber (formatInt i) = .ok w) : w = .int i := by
  unfold parseNumber at h
  split_ifs at h
  rw [parseInt_formatInt_eq] at h
  split_ifs at h
  exact (Except.ok.inj h).symm

/-- **The parser reads nothing but the value**, wherever a value may stand. -/
theorem readsOnly (v : Value) : ReadsOnly v := by
  induction v using Value.induction with
  | null =>
    intro n st stk u w dec hst _ h
    cases n with
    | zero => cases h
    | succ n =>
      rw [Value.text, parseValue, Decoder.token, tokenFrom_null stk u hst] at h
      cases h
      exact ⟨rfl, rfl⟩
  | bool b =>
    intro n st stk u w dec hst _ h
    cases n with
    | zero => cases h
    | succ n =>
      cases b
      · rw [Value.text, parseValue, Decoder.token, tokenFrom_false stk u hst] at h
        cases h
        exact ⟨rfl, rfl⟩
      · rw [Value.text, parseValue, Decoder.token, tokenFrom_true stk u hst] at h
        cases h
        exact ⟨rfl, rfl⟩
  | int i =>
    intro n st stk u w dec hst hu h
    cases n with
    | zero => cases h
    | succ n =>
      rw [Value.text, parseValue, Decoder.token, tokenFrom_int stk u hst i hu] at h
      obtain ⟨v, hv, hvw⟩ := map_eq_ok_iff.mp h
      cases hvw
      exact ⟨parseNumber_eq_ok hv, rfl⟩
  | str s =>
    intro n st stk u w dec hst _ h
    cases n with
    | zero => cases h
    | succ n =>
      rw [Value.text, parseValue, Decoder.token, tokenFrom_str stk u hst] at h
      cases h
      exact ⟨rfl, rfl⟩
  | arr xs ih => exact readsOnly_arr ih
  | obj m ih => exact readsOnly_obj ih

/-- **What the strict parser makes of a written text**: it accepts the texts of the values
that are of the profile once their strings are repaired, and reads them as these values. -/
theorem parseStrict_text_iff : parseStrict v.text = .ok w ↔ Strict v.toUtf8 ∧ w = v.toUtf8 := by
  refine ⟨fun h => ?_, fun ⟨hs, hw⟩ => hw ▸ parseStrict_text hs⟩
  obtain ⟨dec, hdec, -⟩ := parseStrict_eq_ok h
  rw [newDecoder, ← List.append_nil v.text] at hdec
  obtain ⟨rfl, -⟩ := readsOnly v _ _ _ [] _ _ rfl nofun hdec
  exact ⟨strict_of_parseStrict h, rfl⟩

end Canonical

end Iscp
