import Iscp.Canonical.Write
import Iscp.Go.Json.Unmarshal

/-!
# Documents of the profile, level by level

A text the strict parser reads as a value is read by `json.Unmarshal` as well, and each level of it
shows the value (`Iscp.Canonical.exists_readNode`): the members are those of the value, in the order
of the document, and what is below them are texts of their values. So what is stored in the fields
of a struct can be said of the value (`Iscp.Canonical.given_of_text`), the order of its members
included.
-/

namespace Iscp

namespace Canonical

open Go Go.Json

/-! ### Reading for the syntax alone -/

/-- **What the parser reads is skipped** by the decoder. -/
theorem skip_of_parse (n : ℕ) :
    (∀ {dec dec' : Decoder} {v : Value}, parseValue n dec = .ok (v, dec') →
      dec.skipValue n = .ok dec') ∧
    (∀ {obj : List (Str × Value)} {dec dec' : Decoder} {v : Value},
      parseMembers n obj dec = .ok (v, dec') → dec.skipMembers n = .ok dec') ∧
    (∀ {arr : List Value} {dec dec' : Decoder} {v : Value},
      parseElements n arr dec = .ok (v, dec') → dec.skipElements n = .ok dec') := by
  induction n with
  | zero => refine ⟨fun h => ?_, fun h => ?_, fun h => ?_⟩ <;> cases h
  | succ n ih =>
    obtain ⟨hvalue, hmembers, helements⟩ := ih
    refine ⟨fun {dec dec' v} h => ?_, fun {obj dec dec' v} h => ?_, fun {arr dec dec' v} h => ?_⟩
    · rw [parseValue] at h
      rw [Decoder.skipValue]
      split at h
      · cases h
      · next ht => simpa only [ht] using hmembers h
      · next ht => simpa only [ht] using helements h
      · cases h
      · next ht =>
        obtain ⟨_, -, heq⟩ := map_eq_ok_iff.mp h
        simp only [ht, (Prod.mk.inj heq).2]
      all_goals
        next ht =>
        simp only [ht, (Prod.mk.inj (Except.ok.inj h)).2]
    · rw [parseMembers] at h
      rw [Decoder.skipMembers]
      split_ifs at h
      · split at h
        · cases h
        · next ht =>
          split_ifs at h
          split at h
          · cases h
          · next hv =>
            simpa only [ht, hvalue hv] using hmembers h
        · cases h
      · split at h
        · cases h
        · next ht => simp only [ht, (Prod.mk.inj (Except.ok.inj h)).2]
        · cases h
    · rw [parseElements] at h
      split_ifs at h with hmore
      · rw [Decoder.skipElements, if_pos hmore]
        split at h
        · cases h
        · next hv => simpa only [hvalue hv] using helements h
      · split at h
        · cases h
        · next ht =>
          rw [Decoder.skipElements, if_neg hmore, ht, (Prod.mk.inj (Except.ok.inj h)).2]
        · cases h

/-! ### The texts of values -/

/-- A text that starts with a value. -/
def Starts (v : Value) (t : Bytes) : Prop :=
  ∃ w b y, t = w ++ b :: y ∧ Blank w ∧ isSeparator b = false ∧ IsText v (b :: y)

variable {v : Value} {b : UInt8} {st' st : TokenState} {x : Bytes} {dec' dec : Decoder} {n : ℕ}
  {stk : List TokenState} {kv : Str × Value} {m m' : List (Str × Value)} {how : Matching}
  {name : String}

theorem starts_cons {y : Bytes} (hb : isSeparator b = false) (h : IsText v (b :: y)) :
    Starts v (b :: y) := ⟨[], b, y, rfl, blank_nil, hb, h⟩

theorem isSeparator_of_isDigit (h : isDigit b = true) : isSeparator b = false := by
  simp only [isDigit, decide_eq_true_eq, UInt8.le_iff_toNat_le] at h
  simp only [isSeparator, isSpace, ← UInt8.toNat_inj, Bool.or_eq_false_iff, decide_eq_false_iff_not]
  simp only [UInt8.reduceToNat] at h ⊢
  omega

theorem starts_int {i : ℤ} (hi : IsInt64 i) : Starts (.int i) (formatInt i) := by
  have htext : IsText (.int i) (formatInt i) := .int hi
  obtain h0 | ⟨b, s, hs | hs, hb, -⟩ := formatInt_cases i
  · rw [h0] at htext ⊢
    exact starts_cons rfl htext
  · rw [hs] at htext ⊢
    exact starts_cons (isSeparator_of_isDigit hb) htext
  · rw [hs] at htext ⊢
    exact starts_cons rfl htext

/-- **A text starts with its value**, after white space. -/
theorem IsText.starts {t : Bytes} (h : IsText v t) : Starts v t := by
  refine @IsText.rec (fun v t _ => Starts v t) (fun _ _ _ => True) (fun _ _ _ => True)
    (starts_cons rfl .null) (fun b => ?_) starts_int (fun hs => ?_)
    (fun hw => starts_cons rfl (.emptyArr hw)) (fun h _ => starts_cons rfl (.arr h))
    (fun hw => starts_cons rfl (.emptyObj hw)) (fun hk h _ => starts_cons rfl (.obj hk h))
    (fun hw _ hw' ih => ?_) (fun _ _ => trivial) (fun _ _ _ _ => trivial)
    (fun _ _ _ _ _ => trivial) (fun _ _ _ _ _ _ _ => trivial) v t h
  · have htext := IsText.bool b
    cases b
    · exact starts_cons rfl htext
    · exact starts_cons rfl htext
  · have htext := IsText.str hs
    obtain ⟨body, rfl, -⟩ := hs
    exact starts_cons rfl htext
  · obtain ⟨w₁, b, y, rfl, hw₁, hb, htext⟩ := ih
    exact ⟨_, b, y ++ _, by simp, hw.append hw₁, hb, htext.append_blank hw'⟩

theorem Blank.separators {w : Bytes} (h : Blank w) : ∀ b ∈ w, isSeparator b = true :=
  fun b hb => by simp [isSeparator, h b hb]

theorem Gap.separators {g : Bytes} (h : Gap st st' g) : ∀ b ∈ g, isSeparator b = true := by
  cases h with
  | blank hw => exact Blank.separators hw
  | element hw hw' | member hw hw' | value hw hw' =>
    exact List.forall_mem_append.mpr ⟨Blank.separators hw,
      List.forall_mem_cons.mpr ⟨rfl, Blank.separators hw'⟩⟩

theorem rawBetween_append {g : Bytes} (u : Bytes) (hg : ∀ b ∈ g, isSeparator b = true) {y : Bytes}
    (hx : x = b :: y) (hb : isSeparator b = false) : rawBetween (g ++ (x ++ u)) u = x := by
  have htake : (g ++ (x ++ u)).take ((g ++ (x ++ u)).length - u.length) = g ++ x := by
    rw [← List.append_assoc, List.length_append, Nat.add_sub_cancel, List.take_left']
    rfl
  rw [rawBetween, htake, List.dropWhile_append_of_pos hg, hx, List.dropWhile_cons_of_neg]
  simpa using hb

/-- **The text of a value the parser reads.** -/
theorem raw_of_parse (hst : ValueState dec.tokenState) (h : parseValue n dec = .ok (v, dec')) :
    ∃ x, dec.raw n = .ok (x, dec') ∧ IsText v x := by
  obtain ⟨g, st, t, u, hrest, hg, -, htext, rfl⟩ := (text_of_parse n).1 hst h
  obtain ⟨w, b, y, rfl, hw, hb, htext⟩ := htext.starts
  refine ⟨b :: y, ?_, htext⟩
  have hraw : rawBetween dec.rest u = b :: y := by
    rw [hrest, List.append_assoc, ← List.append_assoc]
    exact rawBetween_append u (List.forall_mem_append.mpr ⟨Gap.separators hg, Blank.separators hw⟩)
      rfl hb
  rw [Decoder.raw, (skip_of_parse n).1 h]
  simp only [Except.map, hraw]

/-- A member of a value, and its text. -/
def MemberText (kv : Str × Value) (kx : Str × Bytes) : Prop := kv.1 = kx.1 ∧ IsText kv.2 kx.2

/-- **The members of an object the parser reads**, and their texts. -/
theorem rawMembers_of_parse {obj : List (Str × Value)} {s : Bytes}
    (hst : st = .objectStart ∨ st = .objectComma)
    (h : parseMembers n obj ⟨s, st, st' :: stk⟩ = .ok (v, dec')) :
    ∃ m xs, v = .obj (obj ++ m) ∧ Decoder.rawMembers n ⟨s, st, st' :: stk⟩ = .ok (xs, dec') ∧
      List.Forall₂ MemberText m xs := by
  induction n generalizing obj s st with
  | zero => cases h
  | succ n ih =>
    rw [parseMembers] at h
    rw [Decoder.rawMembers]
    split_ifs at h
    · split at h
      · cases h
      · next key dec₁ ht =>
        split_ifs at h with hkey
        split at h
        · cases h
        next value dec₂ hval =>
        obtain ⟨g, st₁, t, u, -, hg, -, hplace⟩ := reads_of_tokenFrom ht
        have hdec₁ : dec₁ = ⟨u, .objectColon, st' :: stk⟩ := by
          rcases hplace with ⟨-, h⟩ | ⟨hallow, -⟩
          · exact h
          · rcases hst with rfl | rfl
            · cases hg
              cases hallow
            · cases hg <;> cases hallow
        subst hdec₁
        obtain ⟨x, hx, htext⟩ := raw_of_parse (Or.inr (Or.inr rfl)) hval
        obtain ⟨g', st₂, t', u', -, hg', hallow, -, rfl⟩ :=
          (text_of_parse n).1 (Or.inr (Or.inr rfl)) hval
        have hend : st₂.valueEnd = .objectComma := by
          cases hg' with
          | blank => cases hallow
          | value => rfl
        rw [hend] at h hx
        obtain ⟨m, xs, rfl, hxs, hall⟩ := ih (Or.inr rfl) h
        refine ⟨(key, value) :: m, (key, x) :: xs, by simp, ?_, .cons ⟨rfl, htext⟩ hall⟩
        simp only [ht]
        exact bind_eq_ok_iff.mpr ⟨_, hx, bind_eq_ok_iff.mpr ⟨_, hxs, rfl⟩⟩
      · cases h
    · split at h
      · cases h
      · next ht =>
        obtain ⟨rfl, rfl⟩ := Prod.mk.inj (Except.ok.inj h)
        exact ⟨[], [], by simp, by simp only [ht], .nil⟩
      · cases h

/-- **The elements of an array the parser reads**, and their texts. -/
theorem rawElements_of_parse {arr : List Value} {s : Bytes}
    (hst : st = .arrayStart ∨ st = .arrayComma)
    (h : parseElements n arr ⟨s, st, st' :: stk⟩ = .ok (v, dec')) :
    ∃ vs xs, v = .arr (arr ++ vs) ∧ Decoder.rawElements n ⟨s, st, st' :: stk⟩ = .ok (xs, dec') ∧
      List.Forall₂ IsText vs xs := by
  induction n generalizing arr s st with
  | zero => cases h
  | succ n ih =>
    rw [parseElements] at h
    split_ifs at h with hmore
    · rw [Decoder.rawElements, if_pos hmore]
      split at h
      · cases h
      next value dec₁ hval =>
      have hstate : ValueState (Decoder.mk s st (st' :: stk)).tokenState := by
        rcases hst with rfl | rfl
        · exact Or.inl rfl
        · exact Or.inr (Or.inl rfl)
      obtain ⟨x, hx, htext⟩ := raw_of_parse hstate hval
      obtain ⟨g, st₁, t, u, -, hg, hallow, -, rfl⟩ := (text_of_parse n).1 hstate hval
      have hend : st₁.valueEnd = .arrayComma := by
        rcases hst with rfl | rfl
        · cases hg
          rfl
        · cases hg with
          | blank => cases hallow
          | element => rfl
      rw [hend] at h hx
      obtain ⟨vs, xs, rfl, hxs, hall⟩ := ih (Or.inr rfl) h
      refine ⟨value :: vs, x :: xs, by simp, ?_, .cons htext hall⟩
      exact bind_eq_ok_iff.mpr ⟨_, hx, bind_eq_ok_iff.mpr ⟨_, hxs, rfl⟩⟩
    · split at h
      · cases h
      · next ht =>
        obtain ⟨rfl, rfl⟩ := Prod.mk.inj (Except.ok.inj h)
        exact ⟨[], [], by simp, by rw [Decoder.rawElements, if_neg hmore, ht], .nil⟩
      · cases h

/-! ### What a level shows -/

/-- **A level of a document shows a value**, with texts of what is below. -/
inductive Shows : Node → Value → Prop where
  | null : Shows .null .null
  | bool (b : Bool) : Shows (.bool b) (.bool b)
  | int {i : ℤ} (hi : IsInt64 i) : Shows (.number (formatInt i)) (.int i)
  | str {body : Bytes} {s : Str} (h : unquote body = some s) : Shows (.str body) (.str s)
  | arr {vs : List Value} {xs : List Bytes} (h : List.Forall₂ IsText vs xs) :
      Shows (.arr xs) (.arr vs)
  | obj {m : List (Str × Value)} {xs : List (Str × Bytes)} (h : List.Forall₂ MemberText m xs) :
      Shows (.obj xs) (.obj m)

/-- **What the parser reads, `json.Unmarshal` reads**, to the same place. -/
theorem exists_readNode (h : parseValue (2 * x.length + 1) (newDecoder x) = .ok (v, dec)) :
    ∃ node, readNode x = .ok (node, dec) ∧ Shows node v := by
  rw [parseValue] at h
  rw [readNode]
  cases ht : (newDecoder x).token with
  | error e =>
    rw [ht] at h
    cases h
  | ok td =>
    obtain ⟨tok, dec₁⟩ := td
    rw [ht] at h
    obtain ⟨g, st', t, u, hrest, hg, hread⟩ := reads_of_tokenFrom ht
    cases tok with
    | delim d =>
      cases d with
      | lbrace =>
        obtain ⟨rfl, -, rfl⟩ := hread
        obtain ⟨m, xs, rfl, hxs, hall⟩ := rawMembers_of_parse (Or.inl rfl) h
        exact ⟨.obj xs, by simp only [hxs]; rfl, .obj hall⟩
      | lbracket =>
        obtain ⟨rfl, -, rfl⟩ := hread
        obtain ⟨vs, xs, rfl, hxs, hall⟩ := rawElements_of_parse (Or.inl rfl) h
        exact ⟨.arr xs, by simp only [hxs]; rfl, .arr hall⟩
      | rbrace => cases h
      | rbracket => cases h
    | number y =>
      obtain ⟨w, hw, heq⟩ := map_eq_ok_iff.mp h
      obtain ⟨rfl, rfl⟩ := Prod.mk.inj heq
      obtain ⟨rfl, ⟨b, y, rfl, hb⟩, -⟩ := hread
      obtain ⟨i, rfl, hi, htext⟩ := decimal_of_parseNumber hb hw
      exact ⟨.number (b :: y), rfl, htext ▸ .int hi⟩
    | str s =>
      obtain ⟨rfl, rfl⟩ := Prod.mk.inj (Except.ok.inj h)
      obtain ⟨⟨body, rfl, -, hbody⟩, hplace⟩ := hread
      have hu : dec₁.rest = u := by
        rcases hplace with ⟨-, rfl⟩ | ⟨-, rfl⟩ <;> rfl
      have hraw : rawBetween x dec₁.rest = 0x22 :: (body ++ [0x22]) := by
        rw [hu, show x = _ from hrest]
        exact rawBetween_append u (Gap.separators hg) rfl rfl
      refine ⟨.str body, ?_, .str hbody⟩
      simp only [hraw, List.drop_one, List.tail_cons, List.dropLast_concat]
    | bool b =>
      obtain ⟨rfl, rfl⟩ := Prod.mk.inj (Except.ok.inj h)
      exact ⟨.bool b, rfl, .bool b⟩
    | null =>
      obtain ⟨rfl, rfl⟩ := Prod.mk.inj (Except.ok.inj h)
      exact ⟨.null, rfl, .null⟩

/-- **A text of the profile is read**, and shows its value. -/
theorem node_of_text (h : IsText v x) : ∃ n, node x = some n ∧ Shows n v := by
  obtain ⟨w, hw, hparse⟩ := parseValue_of_text h (u := []) nofun
  rw [List.append_nil, List.append_nil] at hparse
  obtain ⟨n, hn, hshows⟩ := exists_readNode hparse
  refine ⟨n, ?_, hshows⟩
  have hall : w.all isSpace = true := List.all_eq_true.mpr hw
  simp only [node, hn, hall, if_true]

/-- **A string is what stands between its quotes.** -/
theorem node_of_isString {s : Str} {body : Bytes} (h : IsString s (0x22 :: (body ++ [0x22]))) :
    node (0x22 :: (body ++ [0x22])) = some (.str body) := by
  obtain ⟨body', heq, hbody⟩ := h
  obtain rfl : body = body' := List.append_cancel_right (List.cons.inj heq).2
  obtain ⟨x, hx⟩ : ∃ x, x = (0x22 : UInt8) :: (body ++ [0x22]) := ⟨_, rfl⟩
  have htoken : (newDecoder x).token = .ok (.str s, ⟨[], .topValue, []⟩) := by
    have hdec : decodeString (body ++ [0x22]) = .ok (s, []) :=
      decodeString_eq_ok.mpr ⟨_, (List.append_nil _).symm, body, rfl, hbody⟩
    rw [newDecoder, Decoder.token, hx, tokenFrom_scalar [] _ rfl (by decide), decodeScalar,
      if_pos rfl, hdec]
    rfl
  have hraw : rawBetween x [] = x := by
    have h := rawBetween_append (g := []) [] (List.forall_mem_nil _) hx rfl
    rwa [List.append_nil] at h
  rw [← hx, node, readNode, htoken]
  simp only [hraw]
  simp [hx]

/-- **A stray bracket after the value makes a text unreadable.** -/
theorem node_of_stray (h : Stray x) : node x = none := by
  obtain ⟨v, t, b, u, rfl, htext, hb⟩ := h
  obtain ⟨w, -, hparse⟩ := parseValue_of_text htext (u := b :: u)
    fun c hc => Option.some.inj hc ▸ hb
  obtain ⟨n, hn, -⟩ := exists_readNode hparse
  have hall : (w ++ b :: u).all isSpace = false := by
    have hspace : isSpace b = false := by rcases hb with rfl | rfl <;> rfl
    simp [hspace]
  simp only [node, hn, hall]
  rfl

/-! ### What is stored in a field -/

/-- Whether a value is `null`. -/
def isNull : Value → Bool
  | .null => true
  | _ => false

/-- The values that are stored in a field. -/
def givenValues (how : Matching) (name : String) (m : List (Str × Value)) : List Value :=
  (how.values name m).filter (!isNull ·)

/-- The string a value is. -/
def asString : Value → Option Str
  | .str s => some s
  | _ => none

/-- The integer a value is. -/
def asInt : Value → Option ℤ
  | .int i => some i
  | _ => none

section Fields

variable {m : List (Str × Value)} {xs : List (Str × Bytes)} {how : Matching} {name : String}

theorem forall₂_values (how : Matching) (name : String) (h : List.Forall₂ MemberText m xs) :
    List.Forall₂ IsText (how.values name m) (how.values name xs) := by
  induction h with
  | nil => exact .nil
  | cons hkv _ ih =>
    obtain ⟨hkey, htext⟩ := hkv
    simp only [Matching.values, List.filter_cons, hkey]
    split_ifs
    · exact .cons htext ih
    · exact ih

variable {vs : List Value} {nodes : List Node} {α : Type}

theorem mapM_node {xs : List Bytes} (h : List.Forall₂ IsText vs xs) :
    ∃ nodes, xs.mapM node = some nodes ∧ List.Forall₂ Shows nodes vs := by
  induction h with
  | nil => exact ⟨[], rfl, .nil⟩
  | cons htext _ ih =>
    obtain ⟨n, hn, hshows⟩ := node_of_text htext
    obtain ⟨nodes, hnodes, hall⟩ := ih
    exact ⟨n :: nodes, by simp [hn, hnodes], .cons hshows hall⟩

theorem Shows.null_iff {n : Node} (h : Shows n v) : n = .null ↔ isNull v = true := by
  cases h <;> simp [isNull]

theorem forall₂_filter_null (h : List.Forall₂ Shows nodes vs) :
    List.Forall₂ Shows (nodes.filter (· ≠ .null)) (vs.filter (!isNull ·)) := by
  induction h with
  | nil => exact .nil
  | @cons n v _ _ hshows _ ih =>
    by_cases hn : n = .null
    · have hv := hshows.null_iff.mp hn
      rw [List.filter_cons_of_neg (by simpa using hn), List.filter_cons_of_neg (by simpa using hv)]
      exact ih
    · have hv : ¬isNull v = true := fun hv => hn (hshows.null_iff.mpr hv)
      rw [List.filter_cons_of_pos (by simpa using hn), List.filter_cons_of_pos (by simpa using hv)]
      exact .cons hshows ih

/-- **What is stored in a field** shows the values of the members. -/
theorem given_of_text (how : Matching) (name : String) (h : List.Forall₂ MemberText m xs) :
    ∃ nodes, given how name xs = some nodes ∧
      List.Forall₂ Shows nodes (givenValues how name m) := by
  obtain ⟨nodes, hnodes, hall⟩ := mapM_node (forall₂_values how name h)
  exact ⟨_, by rw [given, hnodes]; rfl, forall₂_filter_null hall⟩

theorem mapM_of_shows {read : Node → Option α} {readValue : Value → Option α}
    (hread : ∀ n ∈ nodes, ∀ v, Shows n v → read n = readValue v)
    (h : List.Forall₂ Shows nodes vs) : nodes.mapM read = vs.mapM readValue := by
  induction h with
  | nil => rfl
  | cons hshows _ ih =>
    obtain ⟨hn, hnodes⟩ := List.forall_mem_cons.mp hread
    rw [List.mapM_cons, List.mapM_cons, hn _ hshows, ih hnodes]

theorem field_of_text {read : Node → Option α} {readValue : Value → Option α}
    (hread : ∀ n v, Shows n v → read n = readValue v) (h : List.Forall₂ MemberText m xs) :
    field read how name xs = ((givenValues how name m).mapM readValue).map List.getLast? := by
  obtain ⟨nodes, hnodes, hall⟩ := given_of_text how name h
  rw [field, hnodes, ← mapM_of_shows (fun n _ => hread n) hall]
  exact Option.map_eq_bind.symm

theorem mapM_eq_some_iff {read : Value → Option α} {form : α → Value}
    (hread : ∀ v a, read v = some a ↔ v = form a) {l : List α} :
    vs.mapM read = some l ↔ vs = l.map form := by
  induction vs generalizing l with
  | nil => cases l <;> simp
  | cons v vs ih =>
    rw [List.mapM_cons]
    change (read v).bind (fun a => (vs.mapM read).bind fun l => some (a :: l)) = some l ↔ _
    simp only [Option.bind_eq_some_iff, hread, ih]
    constructor
    · rintro ⟨a, rfl, l, rfl, ⟨⟩⟩
      rfl
    · intro h
      cases l with
      | nil => cases h
      | cons a l =>
        obtain ⟨rfl, rfl⟩ := List.cons.inj h
        exact ⟨a, rfl, l, rfl, rfl⟩

/-- **What a document says of a field**: the last value that is stored in it, or the one it has
before. -/
def said (how : Matching) (name : String) (before : Value) (m : List (Str × Value)) : Value :=
  (givenValues how name m).getLast?.getD before

theorem exists_map_iff {form : α → Value} :
    (∃ l : List α, vs = l.map form) ↔ ∀ v ∈ vs, ∃ a, v = form a := by
  constructor
  · rintro ⟨l, rfl⟩ v hv
    obtain ⟨a, -, rfl⟩ := List.mem_map.mp hv
    exact ⟨a, rfl⟩
  · intro h
    induction vs with
    | nil => exact ⟨[], rfl⟩
    | cons v vs ih =>
      obtain ⟨⟨a, rfl⟩, hrest⟩ := List.forall_mem_cons.mp h
      obtain ⟨l, rfl⟩ := ih hrest
      exact ⟨a :: l, rfl⟩

/-- **What a field is read as**: everything that is stored in it fits, and the last is what the
document says. -/
theorem field_eq_some_iff {read : Node → Option α} {readValue : Value → Option α} {form : α → Value}
    (hread : ∀ n v, Shows n v → read n = readValue v)
    (hform : ∀ v a, readValue v = some a ↔ v = form a) (h : List.Forall₂ MemberText m xs)
    {before a : α} : (field read how name xs).map (·.getD before) = some a ↔
      (∀ v ∈ givenValues how name m, ∃ a, v = form a) ∧
        said how name (form before) m = form a := by
  have hinj {a a' : α} : form a = form a' ↔ a = a' := by
    rw [← hform, (hform (form a) a).mpr rfl, Option.some.injEq]
  have hlast (l : List α) : (l.map form).getLast?.getD (form before) =
      form (l.getLast?.getD before) := by
    rw [List.getLast?_map, Option.getD_map]
  rw [field_of_text hread h, Option.map_map, Option.map_eq_some_iff, ← exists_map_iff, said]
  simp only [mapM_eq_some_iff hform, Function.comp_apply]
  constructor
  · rintro ⟨l, hl, rfl⟩
    exact ⟨⟨l, hl⟩, by rw [hl, hlast]⟩
  · rintro ⟨⟨l, hl⟩, hsaid⟩
    rw [hl, hlast, hinj] at hsaid
    exact ⟨l, hl, hsaid⟩

theorem stringField_eq_some_iff (h : List.Forall₂ MemberText m xs) {s : Str} :
    stringField how name xs = some s ↔ (∀ v ∈ givenValues how name m, ∃ s, v = .str s) ∧
      said how name (.str []) m = .str s := by
  have hread : ∀ n v, Shows n v → n.string = asString v := by
    rintro n v (_ | _ | _ | hbody | _ | _)
    all_goals first | rfl | exact hbody
  have hform : ∀ v s, asString v = some s ↔ v = .str s := by
    intro v s
    cases v <;> simp [asString]
  exact field_eq_some_iff hread hform h

theorem intField_eq_some_iff (h : List.Forall₂ MemberText m xs) {i : ℤ} :
    intField how name xs = some i ↔ (∀ v ∈ givenValues how name m, ∃ i, v = .int i) ∧
      said how name (.int 0) m = .int i := by
  have hread : ∀ n v, Shows n v → n.int = asInt v := by
    rintro n v (_ | _ | hi | _ | _ | _)
    all_goals first | rfl | exact parseInt_formatInt hi
  have hform : ∀ v i, asInt v = some i ↔ v = .int i := by
    intro v i
    cases v <;> simp [asInt]
  exact field_eq_some_iff hread hform h

/-- The members of a value. -/
def members : Value → List (Str × Value)
  | .obj m => m
  | _ => []

/-- **The members of a struct in a field**: those of the objects that are stored in it. -/
def objects (how : Matching) (name : String) (m : List (Str × Value)) : List (Str × Value) :=
  (givenValues how name m).flatMap members

theorem mapM_members {l : List (List (Str × Value))} (h : List.Forall₂ Shows nodes (l.map .obj)) :
    ∃ xss, nodes.mapM Node.members = some xss ∧
      List.Forall₂ (List.Forall₂ MemberText) l xss := by
  induction l generalizing nodes with
  | nil =>
    cases h
    exact ⟨[], rfl, .nil⟩
  | cons m l ih =>
    obtain _ | ⟨hshows, hrest⟩ := h
    obtain _ | _ | _ | _ | _ | hm := hshows
    obtain ⟨xss, hxss, hall⟩ := ih hrest
    exact ⟨_ :: xss, by simp [Node.members, hxss], .cons hm hall⟩

theorem shows_of_members {n : Node} (h : Shows n v) (hn : n.members = some xs) :
    ∃ m, v = .obj m := by
  cases h with
  | obj => exact ⟨_, rfl⟩
  | _ => cases hn

/-- **A struct in a field is read** if everything that is stored in it is an object. -/
theorem structField_of_text (h : List.Forall₂ MemberText m xs)
    (hobjects : ∀ v ∈ givenValues how name m, ∃ m', v = .obj m') :
    ∃ xs', structField how name xs = some xs' ∧
      List.Forall₂ MemberText (objects how name m) xs' := by
  obtain ⟨nodes, hnodes, hall⟩ := given_of_text how name h
  obtain ⟨l, hl⟩ := exists_map_iff.mpr hobjects
  rw [hl] at hall
  obtain ⟨xss, hxss, hrel⟩ := mapM_members hall
  refine ⟨xss.flatten, ?_, ?_⟩
  · rw [structField, hnodes]
    exact (congrArg (Option.bind · fun objects => some objects.flatten) hxss).trans rfl
  · have hflat : objects how name m = l.flatten := by
      rw [objects, hl, List.flatMap_map, List.flatMap_def]
      exact congrArg List.flatten (List.map_id' l)
    rw [hflat]
    exact List.rel_flatten hrel

theorem forall_obj_of_structField (h : List.Forall₂ MemberText m xs) {xs' : List (Str × Bytes)}
    (hread : structField how name xs = some xs') :
    ∀ v ∈ givenValues how name m, ∃ m', v = .obj m' := by
  obtain ⟨nodes, hnodes, hall⟩ := given_of_text how name h
  rw [structField, hnodes] at hread
  obtain ⟨xss, hxss, -⟩ := Option.bind_eq_some_iff.mp
    (show (nodes.mapM Node.members).bind (fun l => some l.flatten) = some xs' from hread)
  clear hread hnodes
  generalize givenValues how name m = vs at hall
  induction hall generalizing xss with
  | nil => exact fun _ hv => absurd hv List.not_mem_nil
  | @cons n v nodes vs hshows _ ih =>
    rw [List.mapM_cons] at hxss
    obtain ⟨xs₁, hn, hxss⟩ := Option.bind_eq_some_iff.mp hxss
    obtain ⟨xss', hrest, -⟩ := Option.bind_eq_some_iff.mp hxss
    exact List.forall_mem_cons.mpr ⟨shows_of_members hshows hn, ih xss' hrest⟩

theorem mem_givenValues : v ∈ givenValues how name m ↔
    ∃ k, (k, v) ∈ m ∧ how.test name k = true ∧ isNull v = false := by
  simp only [givenValues, Matching.values, List.mem_filter, List.mem_map, Prod.exists,
    Bool.not_eq_true']
  constructor
  · rintro ⟨⟨k, _, ⟨hmem, htest⟩, rfl⟩, hnull⟩
    exact ⟨k, hmem, htest, hnull⟩
  · rintro ⟨k, hmem, htest, hnull⟩
    exact ⟨⟨k, v, ⟨hmem, htest⟩, rfl⟩, hnull⟩

theorem test_of_exact {key : Str} (h : Matching.exact.test name key = true) :
    how.test name key = true := by
  obtain rfl : key = lit name := by simpa [Matching.test] using h
  cases how <;> simp [Matching.test]

theorem givenValues_of_exact (h : v ∈ givenValues .exact name m) : v ∈ givenValues how name m := by
  obtain ⟨k, hmem, htest, hnull⟩ := mem_givenValues.mp h
  exact mem_givenValues.mpr ⟨k, hmem, test_of_exact htest, hnull⟩

theorem mem_objects :
    kv ∈ objects how name m ↔ ∃ v ∈ givenValues how name m, kv ∈ members v := List.mem_flatMap

end Fields

/-! ### The order of the canonical form -/

/-- The members of an object in the canonical form. -/
def sortedObject (m : List (Str × Value)) : List (Str × Value) := sortEntries (sortedMembers m)

theorem sorted_obj (m : List (Str × Value)) : sorted (.obj m) = .obj (sortedObject m) := by
  rw [sorted, sortedObject]

theorem mem_sortedObject : kv ∈ sortedObject m ↔ ∃ kw ∈ m, (kw.1, sorted kw.2) = kv := by
  rw [sortedObject, mem_sortEntries, sortedMembers_eq, List.mem_map]

theorem isNull_sorted (v : Value) : isNull (sorted v) = isNull v := by
  cases v <;> simp [sorted, isNull]

theorem mem_members_sorted :
    kv ∈ members (sorted v) ↔ ∃ kw ∈ members v, (kw.1, sorted kw.2) = kv := by
  cases v with
  | obj m => rw [sorted_obj, members, members, mem_sortedObject]
  | _ => simp [sorted, members]

/-- **In the canonical form the same is stored**, though maybe in another order. -/
theorem mem_givenValues_sorted (hm : ∀ kv, kv ∈ m' ↔ ∃ kw ∈ m, (kw.1, sorted kw.2) = kv) :
    v ∈ givenValues how name m' ↔ ∃ w ∈ givenValues how name m, sorted w = v := by
  simp only [mem_givenValues, hm]
  constructor
  · rintro ⟨k, ⟨kw, hmem, heq⟩, htest, hnull⟩
    obtain ⟨rfl, rfl⟩ := Prod.mk.inj heq
    exact ⟨kw.2, ⟨kw.1, hmem, htest, isNull_sorted _ ▸ hnull⟩, rfl⟩
  · rintro ⟨w, ⟨k, hmem, htest, hnull⟩, rfl⟩
    exact ⟨k, ⟨_, hmem, rfl⟩, htest, (isNull_sorted w).trans hnull⟩

theorem mem_objects_sorted (hm : ∀ kv, kv ∈ m' ↔ ∃ kw ∈ m, (kw.1, sorted kw.2) = kv)
    (kv : Str × Value) :
    kv ∈ objects how name m' ↔ ∃ kw ∈ objects how name m, (kw.1, sorted kw.2) = kv := by
  simp only [mem_objects, mem_givenValues_sorted hm]
  constructor
  · rintro ⟨_, ⟨w, hw, rfl⟩, hkv⟩
    obtain ⟨kw, hkw, rfl⟩ := mem_members_sorted.mp hkv
    exact ⟨kw, ⟨w, hw, hkw⟩, rfl⟩
  · rintro ⟨kw, ⟨w, hw, hkw⟩, rfl⟩
    exact ⟨_, ⟨w, hw, rfl⟩, mem_members_sorted.mpr ⟨kw, hkw, rfl⟩⟩

theorem IsText.parseStrict_eq (h : IsText v x) : parseStrict x = .ok v :=
  parseStrict_eq_ok_iff.mpr ⟨x, [], (List.append_nil x).symm, h, nofun⟩

theorem IsText.strict (h : IsText v x) : Strict v := strict_of_parseStrict h.parseStrict_eq

theorem isText_writeCanonical (h : Strict v) : IsText (sorted v) (writeCanonical v) := by
  have hsorted := strict_sorted h
  have htext := isText_text (sorted v) (by rwa [hsorted.toUtf8_eq])
  rwa [hsorted.toUtf8_eq, ← writeCanonical_eq_text] at htext

end Canonical

end Iscp
