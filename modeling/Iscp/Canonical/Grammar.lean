import Iscp.Canonical.Parse

/-!
# The grammar of the canonical profile

`Iscp.Canonical.IsText` is the grammar of the canonical profile: the JSON texts of a value, with
white space around every token, integers in decimal form within `int64` as the only numbers, and
no two members of one name in an object. It is written without the parser; the strings are the
literals of `Iscp.Go.Json.IsString`.

What the parser reads is such a text of the value it returns (`Iscp.Canonical.text_of_parse`). The
proof follows the calls of the parser; a call that reads a value starts with the gap the decoder
owes to the token before it, so the loops hand the white space after an element back to it.
-/

namespace Iscp

namespace Canonical

open Go Go.Json

mutual

/-- **The texts of a value in the canonical profile.** -/
inductive IsText : Value → Bytes → Prop where
  | null : IsText .null (lit "null")
  | bool (b : Bool) : IsText (.bool b) (lit (if b then "true" else "false"))
  | int {i : ℤ} (hi : IsInt64 i) : IsText (.int i) (formatInt i)
  | str {s : Str} {x : Bytes} (h : IsString s x) : IsText (.str s) x
  | emptyArr {w : Bytes} (hw : Blank w) : IsText (.arr []) (0x5b :: (w ++ [0x5d]))
  | arr {xs : List Value} {x : Bytes} (h : AreElements xs x) :
      IsText (.arr xs) (0x5b :: (x ++ [0x5d]))
  | emptyObj {w : Bytes} (hw : Blank w) : IsText (.obj []) (0x7b :: (w ++ [0x7d]))
  | obj {m : List (Str × Value)} {x : Bytes} (hk : UniqueKeys m) (h : AreMembers m x) :
      IsText (.obj m) (0x7b :: (x ++ [0x7d]))
  | pad {v : Value} {w x w' : Bytes} (hw : Blank w) (h : IsText v x) (hw' : Blank w') :
      IsText v (w ++ (x ++ w'))

/-- The elements of an array, separated by commas. -/
inductive AreElements : List Value → Bytes → Prop where
  | last {v : Value} {x : Bytes} (h : IsText v x) : AreElements [v] x
  | cons {v : Value} {x : Bytes} {xs : List Value} {y : Bytes} (h : IsText v x)
      (hxs : AreElements xs y) : AreElements (v :: xs) (x ++ 0x2c :: y)

/-- The members of an object, separated by commas. -/
inductive AreMembers : List (Str × Value) → Bytes → Prop where
  | last {k : Str} {v : Value} {w x w' y : Bytes} (hw : Blank w) (hk : IsString k x)
      (hw' : Blank w') (h : IsText v y) : AreMembers [(k, v)] (w ++ (x ++ (w' ++ 0x3a :: y)))
  | cons {k : Str} {v : Value} {w x w' y : Bytes} {m : List (Str × Value)} {z : Bytes}
      (hw : Blank w) (hk : IsString k x) (hw' : Blank w') (h : IsText v y) (hm : AreMembers m z) :
      AreMembers ((k, v) :: m) (w ++ (x ++ (w' ++ 0x3a :: (y ++ 0x2c :: z))))

end

variable {v : Value} {x w : Bytes} {st st' : TokenState}

theorem IsText.blank_append (h : IsText v x) (hw : Blank w) : IsText v (w ++ x) := by
  simpa using IsText.pad hw h blank_nil

theorem IsText.append_blank (h : IsText v x) (hw : Blank w) :
    IsText v (x ++ w) := IsText.pad blank_nil h hw

theorem AreElements.blank_append {xs : List Value} (h : AreElements xs x) (hw : Blank w) :
    AreElements xs (w ++ x) := by
  cases h with
  | last h => exact .last (h.blank_append hw)
  | cons h hxs =>
    rw [← List.append_assoc]
    exact .cons (h.blank_append hw) hxs

theorem AreMembers.blank_append {m : List (Str × Value)} (h : AreMembers m x) (hw : Blank w) :
    AreMembers m (w ++ x) := by
  cases h with
  | last hw₁ hk hw₂ h =>
    rw [← List.append_assoc]
    exact .last (hw.append hw₁) hk hw₂ h
  | cons hw₁ hk hw₂ h hm =>
    rw [← List.append_assoc]
    exact .cons (hw.append hw₁) hk hw₂ h hm

/-! ### What is read is a text -/

/-- **A number the parser accepts** is an integer in decimal form. -/
theorem decimal_of_parseNumber {b : UInt8} {y : Bytes} (hb : b = 0x2d ∨ isDigit b = true)
    (h : parseNumber (b :: y) = .ok v) : ∃ i, v = .int i ∧ IsInt64 i ∧ formatInt i = b :: y := by
  unfold parseNumber at h
  split_ifs at h with hfloat hzero hneg
  split at h
  · cases h
  next i hi =>
  cases h
  rcases hb with rfl | hb
  · -- a sign, and digits of which the first is not zero
    rw [parseInt] at hi
    obtain ⟨n, hn, hi⟩ := Option.bind_eq_some_iff.mp hi
    split_ifs at hi with hle
    cases hi
    cases y with
    | nil => cases hn
    | cons c y =>
      have hc : c ≠ 0x30 := by
        rintro rfl
        exact hneg rfl
      obtain ⟨hformat, hne⟩ := formatNat_of_parseDigits hc hn
      have htext : formatInt (-(n : ℤ)) = 0x2d :: c :: y := by
        rw [formatInt, if_pos (by omega), Int.natAbs_neg, Int.natAbs_natCast, hformat]
      exact ⟨_, rfl, ⟨by omega, by omega⟩, htext⟩
  · rw [parseInt.eq_3 _ (fun t ht => ne_of_isDigit hb rfl (List.cons.inj ht).1)
      (fun t ht => ne_of_isDigit hb rfl (List.cons.inj ht).1)] at hi
    obtain ⟨n, hn, hi⟩ := Option.bind_eq_some_iff.mp hi
    split_ifs at hi with hlt
    cases hi
    have htext : formatInt (n : ℤ) = b :: y := by
      rw [formatInt, if_neg (by omega), Int.natAbs_natCast]
      by_cases hc : b = 0x30
      · -- a leading zero stands alone
        subst hc
        obtain rfl : y = [] := by
          by_contra hy
          exact hzero ⟨by simpa using List.length_pos_iff.mpr hy, rfl⟩
        obtain rfl : n = 0 := (Option.some.inj hn).symm
        rfl
      · exact (formatNat_of_parseDigits hc hn).1
    exact ⟨_, rfl, ⟨by omega, by omega⟩, htext⟩

theorem text_of_parseNumber {b : UInt8} {y : Bytes} (hb : b = 0x2d ∨ isDigit b = true)
    (h : parseNumber (b :: y) = .ok v) : IsText v (b :: y) := by
  obtain ⟨i, rfl, hi, htext⟩ := decimal_of_parseNumber hb h
  exact htext ▸ .int hi

/-- The states in which the parser asks for a value. -/
def ValueState (st : TokenState) : Prop := st.valueAllowed ∨ st = .arrayComma ∨ st = .objectColon

/-- What a successful call has read: a gap, a text of the value, and what is left. -/
def ReadsText (dec : Decoder) (v : Value) (dec' : Decoder) : Prop :=
  ∃ g st t u, dec.rest = g ++ (t ++ u) ∧ Gap dec.tokenState st g ∧ st.valueAllowed ∧ IsText v t ∧
    dec' = ⟨u, st.valueEnd, dec.tokenStack⟩

/-- What the loop over the elements has read: white space, or a gap and elements, and the closing
bracket. -/
def ReadsElements (arr : List Value) (s : Bytes) (st : TokenState) (v : Value) (u : Bytes) : Prop :=
  (∃ w, s = w ++ 0x5d :: u ∧ Blank w ∧ v = .arr arr) ∨
  ∃ g st' x xs, s = g ++ (x ++ 0x5d :: u) ∧ Gap st st' g ∧ st'.valueAllowed ∧ AreElements xs x ∧
    v = .arr (arr ++ xs)

/-- What the loop over the members has read. -/
def ReadsMembers (obj : List (Str × Value)) (s : Bytes) (st : TokenState) (v : Value) (u : Bytes) :
    Prop :=
  (∃ w, s = w ++ 0x7d :: u ∧ Blank w ∧ v = .obj obj) ∨
  ∃ g st' x m, s = g ++ (x ++ 0x7d :: u) ∧ Gap st st' g ∧ (st' = .objectStart ∨ st' = .objectKey) ∧
    AreMembers m x ∧ UniqueKeys (obj ++ m) ∧ v = .obj (obj ++ m)

theorem not_key_of_valueState {g : Bytes} (hg : Gap st st' g) (hst : ValueState st) :
    ¬(st' = .objectStart ∨ st' = .objectKey) := by
  rintro (rfl | rfl)
  · cases hg
    rcases hst with h | h | h <;> cases h
  · cases hg
    · rcases hst with h | h | h <;> cases h
    · rcases hst with h | h | h <;> cases h

section Step

variable {n : ℕ}
  (hvalue : ∀ {dec dec' : Decoder} {v : Value}, ValueState dec.tokenState →
    parseValue n dec = .ok (v, dec') → ReadsText dec v dec')
  (helements : ∀ {arr : List Value} {s : Bytes} {st st' : TokenState} {stk : List TokenState}
    {v : Value} {dec' : Decoder}, st = .arrayStart ∨ st = .arrayComma →
    parseElements n arr ⟨s, st, st' :: stk⟩ = .ok (v, dec') →
      ∃ u, dec' = ⟨u, st'.valueEnd, stk⟩ ∧ ReadsElements arr s st v u)
  (hmembers : ∀ {obj : List (Str × Value)} {s : Bytes} {st st' : TokenState}
    {stk : List TokenState} {v : Value} {dec' : Decoder}, UniqueKeys obj →
    st = .objectStart ∨ st = .objectComma →
    parseMembers n obj ⟨s, st, st' :: stk⟩ = .ok (v, dec') →
      ∃ u, dec' = ⟨u, st'.valueEnd, stk⟩ ∧ ReadsMembers obj s st v u)

variable {stk : List TokenState} {dec' : Decoder} {s : Bytes}

include helements in
theorem text_of_array {u : Bytes}
    (h : parseElements n [] ⟨u, .arrayStart, st :: stk⟩ = .ok (v, dec')) (hs : s = 0x5b :: u) :
    ∃ t u', s = t ++ u' ∧ IsText v t ∧ dec' = ⟨u', st.valueEnd, stk⟩ := by
  obtain ⟨u', rfl, hread⟩ := helements (Or.inl rfl) h
  rcases hread with ⟨w, rfl, hw, rfl⟩ | ⟨g, st', x, xs, rfl, hg, -, hxs, rfl⟩
  · exact ⟨_, u', by rw [hs]; simp, .emptyArr hw, rfl⟩
  · cases hg with
    | blank hw =>
      exact ⟨_, u', by rw [hs]; simp, .arr (hxs.blank_append hw), rfl⟩

include hmembers in
theorem text_of_object {u : Bytes}
    (h : parseMembers n [] ⟨u, .objectStart, st :: stk⟩ = .ok (v, dec')) (hs : s = 0x7b :: u) :
    ∃ t u', s = t ++ u' ∧ IsText v t ∧ dec' = ⟨u', st.valueEnd, stk⟩ := by
  have hnil : UniqueKeys ([] : List (Str × Value)) := List.nodup_nil
  obtain ⟨u', rfl, hread⟩ := hmembers hnil (Or.inl rfl) h
  rcases hread with ⟨w, rfl, hw, rfl⟩ | ⟨g, st', x, m, rfl, hg, -, hm, hk, rfl⟩
  · exact ⟨_, u', by rw [hs]; simp, .emptyObj hw, rfl⟩
  · cases hg with
    | blank hw =>
      exact ⟨_, u', by rw [hs]; simp, .obj hk (hm.blank_append hw), rfl⟩

include helements hmembers in
/-- The step of the induction for a value: what is read is a text of it. -/
theorem text_of_parseValue_succ {dec : Decoder} (hst : ValueState dec.tokenState)
    (h : parseValue (n + 1) dec = .ok (v, dec')) : ReadsText dec v dec' := by
  rw [parseValue] at h
  cases ht : dec.token with
  | error e =>
    rw [ht] at h
    cases h
  | ok td =>
    obtain ⟨tok, dec₁⟩ := td
    rw [ht] at h
    obtain ⟨g, st', t, u, hrest, hg, hread⟩ := reads_of_tokenFrom ht
    cases tok with
    | delim d =>
      cases d with
      | lbrace =>
        obtain ⟨rfl, hallow, rfl⟩ := hread
        obtain ⟨t', u', heq, htext, rfl⟩ := text_of_object hmembers h rfl
        exact ⟨g, st', t', u', by rw [hrest, ← heq]; rfl, hg, hallow, htext, rfl⟩
      | lbracket =>
        obtain ⟨rfl, hallow, rfl⟩ := hread
        obtain ⟨t', u', heq, htext, rfl⟩ := text_of_array helements h rfl
        exact ⟨g, st', t', u', by rw [hrest, ← heq]; rfl, hg, hallow, htext, rfl⟩
      | rbrace => cases h
      | rbracket => cases h
    | number x =>
      obtain ⟨rfl, ⟨b, y, rfl, hb⟩, hallow, rfl⟩ := hread
      obtain ⟨v', hv', heq⟩ := map_eq_ok_iff.mp h
      cases heq
      exact ⟨g, st', _, u, hrest, hg, hallow, text_of_parseNumber hb hv', rfl⟩
    | str s =>
      cases h
      obtain ⟨hs, ⟨hkey, -⟩ | ⟨hallow, rfl⟩⟩ := hread
      · exact absurd hkey (not_key_of_valueState hg hst)
      · exact ⟨g, st', t, u, hrest, hg, hallow, .str hs, rfl⟩
    | bool b =>
      cases h
      obtain ⟨rfl, hallow, rfl⟩ := hread
      exact ⟨g, st', _, u, hrest, hg, hallow, .bool b, rfl⟩
    | null =>
      cases h
      obtain ⟨rfl, hallow, rfl⟩ := hread
      exact ⟨g, st', _, u, hrest, hg, hallow, .null, rfl⟩

include hvalue helements in
/-- The step for the elements of an array. -/
theorem text_of_parseElements_succ {arr : List Value} (hst : st = .arrayStart ∨ st = .arrayComma)
    (h : parseElements (n + 1) arr ⟨s, st, st' :: stk⟩ = .ok (v, dec')) :
    ∃ u, dec' = ⟨u, st'.valueEnd, stk⟩ ∧ ReadsElements arr s st v u := by
  rw [parseElements] at h
  split_ifs at h
  · split at h
    · cases h
    next value dec₁ hval =>
    have hstate : ValueState st := by
      rcases hst with rfl | rfl
      · exact Or.inl rfl
      · exact Or.inr (Or.inl rfl)
    obtain ⟨g, st₁, t, u₁, hrest, hg, hallow, htext, rfl⟩ := hvalue hstate hval
    obtain rfl : s = g ++ (t ++ u₁) := hrest
    have hend : st₁.valueEnd = .arrayComma := by
      rcases hst with rfl | rfl
      · cases hg
        rfl
      · cases hg with
        | blank => cases hallow
        | element => rfl
    rw [hend] at h
    obtain ⟨u, rfl, hread⟩ := helements (Or.inr rfl) h
    refine ⟨u, rfl, Or.inr ?_⟩
    rcases hread with ⟨w, rfl, hw, rfl⟩ | ⟨g₂, st₂, x, xs, rfl, hg₂, hallow₂, hxs, rfl⟩
    · exact ⟨g, st₁, t ++ w, [value], by simp, hg, hallow, .last (htext.append_blank hw), rfl⟩
    · cases hg₂ with
      | blank => cases hallow₂
      | @element w w' hw hw' =>
        refine ⟨g, st₁, (t ++ w) ++ 0x2c :: (w' ++ x), value :: xs, by simp, hg, hallow, ?_,
          by simp⟩
        exact .cons (htext.append_blank hw) (hxs.blank_append hw')
  · split at h
    · cases h
    · next dec₁ ht =>
      cases h
      obtain ⟨g, st₁, t, u, rfl, hg, rfl, hclose, st₂, stk₂, hstk, rfl⟩ := reads_of_tokenFrom ht
      cases hstk
      cases hg with
      | blank hw => exact ⟨u, rfl, Or.inl ⟨g, rfl, hw, rfl⟩⟩
      | _ => simp at hclose
    · cases h

include hvalue hmembers in
/-- The step for the members of an object. -/
theorem text_of_parseMembers_succ {obj : List (Str × Value)} (hobj : UniqueKeys obj)
    (hst : st = .objectStart ∨ st = .objectComma)
    (h : parseMembers (n + 1) obj ⟨s, st, st' :: stk⟩ = .ok (v, dec')) :
    ∃ u, dec' = ⟨u, st'.valueEnd, stk⟩ ∧ ReadsMembers obj s st v u := by
  rw [parseMembers] at h
  split_ifs at h
  · split at h
    · cases h
    · next key dec₁ ht =>
      split_ifs at h with hkey
      split at h
      · cases h
      next value dec₂ hval =>
      obtain ⟨g, st₁, t, u₁, rfl, hg, hstr, hplace⟩ := reads_of_tokenFrom ht
      have hst₁ : (st₁ = .objectStart ∨ st₁ = .objectKey) ∧ ¬st₁.valueAllowed := by
        rcases hst with rfl | rfl
        · cases hg
          exact ⟨Or.inl rfl, by rintro ⟨⟩⟩
        · cases hg with
          | blank => rcases hplace with ⟨hk | hk, -⟩ | ⟨hk, -⟩ <;> cases hk
          | member => exact ⟨Or.inr rfl, by rintro ⟨⟩⟩
      obtain ⟨-, rfl⟩ := hplace.resolve_right fun hc => hst₁.2 hc.1
      obtain ⟨g₁, st₂, t₁, u₂, hrest, hg₁, hallow, htext, rfl⟩ := hvalue (Or.inr (Or.inr rfl)) hval
      obtain rfl : u₁ = g₁ ++ (t₁ ++ u₂) := hrest
      -- the value stands after the colon
      cases hg₁ with
      | blank => cases hallow
      | @value w w' hw hw' =>
        obtain ⟨u, rfl, hread⟩ := hmembers (uniqueKeys_append_singleton value hobj hkey)
          (Or.inr rfl) h
        refine ⟨u, rfl, Or.inr ?_⟩
        rcases hread with ⟨w₁, rfl, hw₁, rfl⟩ | ⟨g₂, st₃, x, m, rfl, hg₂, hst₃, hm, hk, rfl⟩
        · refine ⟨g, st₁, [] ++ (t ++ (w ++ 0x3a :: (w' ++ (t₁ ++ w₁)))), [(key, value)], by simp,
            hg, hst₁.1, ?_, uniqueKeys_append_singleton value hobj hkey, rfl⟩
          exact .last blank_nil hstr hw (htext.pad hw' hw₁)
        · cases hg₂ with
          | blank => rcases hst₃ with hc | hc <;> cases hc
          | @member w₁ w₁' hw₁ hw₁' =>
            refine ⟨g, st₁, [] ++ (t ++ (w ++ 0x3a :: ((w' ++ (t₁ ++ w₁)) ++ 0x2c :: (w₁' ++ x)))),
              (key, value) :: m, by simp, hg, hst₁.1, ?_, by simpa using hk, by simp⟩
            exact .cons blank_nil hstr hw (htext.pad hw' hw₁) (hm.blank_append hw₁')
    · cases h
  · split at h
    · cases h
    · next dec₁ ht =>
      cases h
      obtain ⟨g, st₁, t, u, rfl, hg, rfl, hclose, st₂, stk₂, hstk, rfl⟩ := reads_of_tokenFrom ht
      cases hstk
      cases hg with
      | blank hw => exact ⟨u, rfl, Or.inl ⟨g, rfl, hw, rfl⟩⟩
      | _ => simp at hclose
    · cases h

end Step

/-- **What the parser reads is a text of the value it returns**, by induction on the bound for
its calls. -/
theorem text_of_parse (n : ℕ) :
    (∀ {dec dec' : Decoder} {v : Value}, ValueState dec.tokenState →
      parseValue n dec = .ok (v, dec') → ReadsText dec v dec') ∧
    (∀ {arr : List Value} {s : Bytes} {st st' : TokenState} {stk : List TokenState}
      {v : Value} {dec' : Decoder}, st = .arrayStart ∨ st = .arrayComma →
      parseElements n arr ⟨s, st, st' :: stk⟩ = .ok (v, dec') →
        ∃ u, dec' = ⟨u, st'.valueEnd, stk⟩ ∧ ReadsElements arr s st v u) ∧
    (∀ {obj : List (Str × Value)} {s : Bytes} {st st' : TokenState}
      {stk : List TokenState} {v : Value} {dec' : Decoder}, UniqueKeys obj →
      st = .objectStart ∨ st = .objectComma →
      parseMembers n obj ⟨s, st, st' :: stk⟩ = .ok (v, dec') →
        ∃ u, dec' = ⟨u, st'.valueEnd, stk⟩ ∧ ReadsMembers obj s st v u) := by
  induction n with
  | zero =>
    refine ⟨fun _ h => ?_, fun _ h => ?_, fun _ _ h => ?_⟩ <;> cases h
  | succ n ih =>
    obtain ⟨hvalue, helements, hmembers⟩ := ih
    exact ⟨text_of_parseValue_succ helements hmembers, text_of_parseElements_succ hvalue helements,
      text_of_parseMembers_succ hvalue hmembers⟩

end Canonical

end Iscp
