import Iscp.Canonical.Nodes
import Iscp.Canonical.Struct
import Iscp.Go.Json.Record

/-!
# Structs of the profile

What JSON values the fields of a struct stand for (`Iscp.Canonical.Denotes`), and with it what a
struct says (`Iscp.Canonical.Denoted`): the members of the object it is written as. A struct that is
written and accepted by the strict parser says what the parser has read
(`Iscp.Canonical.denoted_of_parseStrict`), and it is read back from its text field by field
(`Iscp.Canonical.unmarshal_marshal`). It then says the same again, unless a time has an offset that
its text does not show (`Iscp.Canonical.Denoted.refreshed`).

A field may hold JSON that is text already. It need not be of the profile, and how it is compacted
is left open; `Iscp.Canonical.Compacts` is what is asked of it. The proofs rest on texts that are
read as a whole or not at all (`Iscp.Canonical.Whole`), so that an object that is accepted has been
read member by member as it was written.
-/

namespace Iscp

namespace Canonical

open Go Go.Json

/-! ### Objects written from texts -/

variable {w v : Value} {y : Bytes} {n : ℕ} {f : FieldValue} {xs : List (Str × Bytes)} {r : Record}
  {fields : List StructField} {m : List (Str × Value)} {compact : Bytes → Option Bytes}

section Objects

variable {m : List (Str × Value)} {xs : List (Str × Bytes)}

/-- **An object written from texts of its members** is a text of the object. -/
theorem isText_objectText (hk : UniqueKeys m) (h : List.Forall₂ WrittenFrom m xs) :
    IsText (.obj m) (objectText xs) := by
  cases h with
  | nil => exact .emptyObj blank_nil
  | cons hkv hm => exact .obj hk (areMembers_commaSep hkv hm)

/-- **A text that is read as a whole or not at all**, where it is the value of a member. -/
structure Whole (y : Bytes) : Prop where
  start : ∃ b s, y = b :: s ∧ isSeparator b = false
  rest : ∀ (n : ℕ) (stk : List TokenState) (u : Bytes) (v : Value) (dec : Decoder), EndsNumber u →
    parseValue n ⟨y ++ u, .objectValue, stk⟩ = .ok (v, dec) → dec.rest = u

theorem text_start (v : Value) : ∃ b s, v.text = b :: s ∧ isSeparator b = false := by
  cases v with
  | null => exact ⟨_, _, rfl, rfl⟩
  | bool b => cases b <;> exact ⟨_, _, rfl, rfl⟩
  | int i =>
    obtain h | ⟨b, s, h | h, hb, -⟩ := formatInt_cases i
    · exact ⟨_, _, h, rfl⟩
    · exact ⟨b, s, h, isSeparator_of_isDigit hb⟩
    · exact ⟨_, _, h, rfl⟩
  | str s => exact ⟨_, _, rfl, rfl⟩
  | arr xs => exact ⟨_, _, by rw [Value.text], rfl⟩
  | obj m => exact ⟨_, _, by rw [Value.text], rfl⟩

theorem whole_text (v : Value) : Whole v.text := by
  refine ⟨text_start v, fun n stk u w dec hu h => ?_⟩
  rw [(readsOnly v n _ stk u w dec rfl hu h).2]

/-- What follows the first member of an object that is written from texts. -/
def memberTextsRest (xs : List (Str × Bytes)) (u : Bytes) : Bytes :=
  (xs.map Value.memberText).flatMap (0x2c :: ·) ++ 0x7d :: u

theorem memberTextsRest_cons (kx : Str × Bytes) (xs : List (Str × Bytes)) (u : Bytes) :
    memberTextsRest (kx :: xs) u =
      0x2c :: (quote kx.1 ++ 0x3a :: (kx.2 ++ memberTextsRest xs u)) := by
  simp [memberTextsRest, Value.memberText]

theorem endsNumber_memberTextsRest (xs : List (Str × Bytes)) (u : Bytes) :
    EndsNumber (memberTextsRest xs u) := by
  cases xs with
  | nil => exact endsNumber_cons (by decide) _
  | cons kx xs =>
    rw [memberTextsRest_cons]
    exact endsNumber_cons (by decide) _

/-- The members of an object, as they are read. -/
def readMembers (xs : List (Str × Bytes)) : List (Str × Bytes) :=
  xs.map fun kx => (toUtf8 kx.1, kx.2)

variable {dec : Decoder} {obj : List (Str × Value)} {stk : List TokenState}

/-- **One member is read**, when its name has been: by the parser, and for its text. -/
theorem member_of_whole {k : Str} {u : Bytes} (hy : Whole y) (hu : EndsNumber u)
    (hmore : dec.more = true)
    (htok : dec.token = .ok (.str k, ⟨0x3a :: (y ++ u), .objectColon, stk⟩)) {dec' : Decoder}
    (h : parseMembers (n + 1) obj dec = .ok (w, dec')) :
    ∃ v, IsText v y ∧ parseMembers n (obj ++ [(k, v)]) ⟨u, .objectComma, stk⟩ = .ok (w, dec') ∧
      ∀ xs, Decoder.rawMembers n ⟨u, .objectComma, stk⟩ = .ok (xs, dec') →
        dec.rawMembers (n + 1) = .ok ((k, y) :: xs, dec') := by
  rw [parseMembers, if_pos hmore, htok] at h
  simp only at h
  split_ifs at h
  split at h
  · cases h
  next v dec₁ hv =>
  obtain ⟨g, st, t, u', hrest, hg, hallow, htext, rfl⟩ :=
    (text_of_parse n).1 (Or.inr (Or.inr rfl)) hv
  obtain rfl : u' = u := hy.rest n stk u v _ hu ((parseValue_colon n _ stk).symm.trans hv)
  cases hg with
  | blank => cases hallow
  | @value w₁ w₂ hw₁ hw₂ =>
    -- nothing stands in front of the colon
    obtain rfl : w₁ = [] := by
      cases w₁ with
      | nil => rfl
      | cons b w₁ =>
        have hb : b = 0x3a := (List.cons.inj (by simpa using hrest)).1.symm
        exact absurd (hw₁ b List.mem_cons_self) (by rw [hb]; decide)
    have hyt : y = w₂ ++ t := by simpa [← List.append_assoc] using hrest
    obtain ⟨b, s, hbs, hb⟩ := hy.start
    have hraw : Decoder.raw n ⟨0x3a :: (y ++ u'), .objectColon, stk⟩ =
        .ok (y, ⟨u', .objectComma, stk⟩) := by
      rw [Decoder.raw, (skip_of_parse n).1 hv]
      exact congrArg (fun x => Except.ok (x, _)) (rawBetween_append (g := [0x3a]) u'
        (List.forall_mem_singleton.mpr rfl) hbs hb)
    refine ⟨v, hyt ▸ htext.blank_append hw₂, h, fun xs hxs => ?_⟩
    rw [Decoder.rawMembers, htok]
    exact bind_eq_ok_iff.mpr ⟨_, hraw, bind_eq_ok_iff.mpr ⟨_, hxs, rfl⟩⟩

/-- **The members after the first one are read.** -/
theorem members_of_whole (hxs : ∀ kx ∈ xs, Whole kx.2) {st : TokenState} {u : Bytes}
    (h : parseMembers n obj ⟨memberTextsRest xs u, .objectComma, st :: stk⟩ = .ok (w, dec)) :
    ∃ m, w = .obj (obj ++ m) ∧ List.Forall₂ WrittenFrom m xs ∧ dec = ⟨u, st.valueEnd, stk⟩ ∧
      Decoder.rawMembers n ⟨memberTextsRest xs u, .objectComma, st :: stk⟩ =
        .ok (readMembers xs, dec) := by
  induction xs generalizing n obj with
  | nil =>
    cases n with
    | zero => cases h
    | succ n =>
      rw [memberTextsRest, List.map_nil, List.flatMap_nil, List.nil_append,
        parseMembers_close n (Or.inr rfl)] at h
      cases h
      refine ⟨[], by rw [List.append_nil], .nil, rfl, ?_⟩
      rw [memberTextsRest, List.map_nil, List.flatMap_nil, List.nil_append, Decoder.rawMembers,
        Decoder.token, tokenFrom_rbrace _ _ (Or.inr rfl)]
      rfl
  | cons kx xs ih =>
    cases n with
    | zero => cases h
    | succ n =>
      obtain ⟨hkx, hxs⟩ := List.forall_mem_cons.mp hxs
      rw [memberTextsRest_cons] at h ⊢
      obtain ⟨v, htext, hrest, hraw⟩ := member_of_whole hkx (endsNumber_memberTextsRest xs u)
        (Decoder.more_cons rfl (by decide) (by decide) _ _ _)
        (by rw [Decoder.token, tokenFrom_comma_object, tokenFrom_key _ _ (Or.inr rfl)]) h
      obtain ⟨m, rfl, hm, hdec, hmembers⟩ := ih hxs hrest
      exact ⟨(toUtf8 kx.1, v) :: m, by simp, .cons ⟨rfl, htext⟩ hm, hdec, hraw _ hmembers⟩

theorem object_of_whole (hxs : ∀ kx ∈ xs, Whole kx.2)
    (h : parseMembers n [] ⟨Value.commaSep (xs.map Value.memberText) ++ [0x7d], .objectStart,
      [.topValue]⟩ = .ok (w, dec)) :
    ∃ m, w = .obj m ∧ List.Forall₂ WrittenFrom m xs ∧ dec = ⟨[], .topValue, []⟩ ∧
      Decoder.rawMembers n ⟨Value.commaSep (xs.map Value.memberText) ++ [0x7d], .objectStart,
        [.topValue]⟩ = .ok (readMembers xs, dec) := by
  cases n with
  | zero => cases h
  | succ n =>
    cases xs with
    | nil =>
      rw [List.map_nil, Value.commaSep, List.nil_append, parseMembers_close n (Or.inl rfl)] at h
      cases h
      exact ⟨[], rfl, .nil, rfl, rfl⟩
    | cons kx xs =>
      obtain ⟨hkx, hxs⟩ := List.forall_mem_cons.mp hxs
      have htexts : Value.commaSep ((kx :: xs).map Value.memberText) ++ [0x7d] =
          quote kx.1 ++ 0x3a :: (kx.2 ++ memberTextsRest xs []) := by
        simp [memberTextsRest, Value.commaSep, Value.memberText]
      rw [htexts] at h ⊢
      have hmore : Decoder.more ⟨quote kx.1 ++ 0x3a :: (kx.2 ++ memberTextsRest xs []),
          .objectStart, [.topValue]⟩ = true := Decoder.more_cons rfl (by decide) (by decide) _ _ _
      obtain ⟨v, htext, hrest, hraw⟩ := member_of_whole hkx (endsNumber_memberTextsRest xs []) hmore
        (by rw [Decoder.token, tokenFrom_key _ _ (Or.inl rfl)]) h
      obtain ⟨m, rfl, hm, hdec, hmembers⟩ := members_of_whole hxs hrest
      exact ⟨(toUtf8 kx.1, v) :: m, rfl, .cons ⟨rfl, htext⟩ hm, hdec, hraw _ hmembers⟩

/-- **An object written from whole texts**, if it is accepted, has the members it was written
from. -/
theorem structOf_of_parseStrict (hxs : ∀ kx ∈ xs, Whole kx.2)
    (h : parseStrict (objectText xs) = .ok w) :
    ∃ m, w = .obj m ∧ List.Forall₂ WrittenFrom m xs ∧
      structOf (objectText xs) = some (readMembers xs) := by
  obtain ⟨dec, hparse, -⟩ := parseStrict_eq_ok h
  have htoken : (newDecoder (objectText xs)).token = .ok (.delim .lbrace,
      ⟨Value.commaSep (xs.map Value.memberText) ++ [0x7d], .objectStart, [.topValue]⟩) :=
    tokenFrom_lbrace [] _ rfl
  rw [parseValue, htoken] at hparse
  obtain ⟨m, rfl, hm, rfl, hraw⟩ := object_of_whole hxs hparse
  refine ⟨m, rfl, hm, ?_⟩
  have hnode : node (objectText xs) = some (.obj (readMembers xs)) := by
    rw [node, readNode, htoken]
    simp only [hraw, Except.map]
    rfl
  rw [structOf, hnode]
  rfl

end Objects

/-! ### The values of fields -/

/-- **What is known of how JSON is compacted**: a text of the profile is compacted to a text of the
same value, and only such a text is; what it is compacted to stands alone; a text with a stray
bracket is refused. -/
structure Compacts (compact : Bytes → Option Bytes) : Prop where
  text : ∀ {v : Value} {x : Bytes}, IsText v x → ∃ y, compact x = some y ∧ IsText v y
  of_text : ∀ {v : Value} {x y : Bytes}, compact x = some y → IsText v y → IsText v x
  whole : ∀ {x y : Bytes}, compact x = some y → Whole y
  stray : ∀ {x : Bytes}, Stray x → compact x = none

/-- **The JSON value of a field.** -/
inductive Denotes : FieldValue → Value → Prop where
  | plain {f : FieldValue} {p : Value} (hf : f.plain = some p) (hp : Strict p.toUtf8) :
      Denotes f p.toUtf8
  | raw {v : Value} {x : Bytes} (h : IsText v x) : Denotes (.raw (some x)) v

theorem isText_text_iff : IsText w v.text ↔ Strict v.toUtf8 ∧ w = v.toUtf8 := by
  constructor
  · intro h
    have hparse : parseStrict v.text = .ok w :=
      parseStrict_eq_ok_iff.mpr ⟨_, [], (List.append_nil _).symm, h, nofun⟩
    exact parseStrict_text_iff.mp hparse
  · rintro ⟨hs, rfl⟩
    exact isText_text v hs

section Values

variable {compact : Bytes → Option Bytes} (hc : Compacts compact)

include hc

theorem Denotes.exists_marshal (h : Denotes f v) : ∃ y, f.marshal compact = .ok y ∧ IsText v y := by
  cases h with
  | plain hf hp => exact ⟨_, FieldValue.marshal_of_plain hf compact, isText_text _ hp⟩
  | raw h =>
    obtain ⟨y, hy, htext⟩ := hc.text h
    exact ⟨y, by rw [FieldValue.marshal, hy], htext⟩

theorem whole_marshal (h : f.marshal compact = .ok y) : Whole y := by
  obtain ⟨p, -, rfl⟩ | ⟨x, -, hx⟩ := FieldValue.eq_of_marshal h
  · exact whole_text p
  · exact hc.whole hx

/-- **What is written for a field is a text of its value only.** -/
theorem denotes_of_text (h : f.marshal compact = .ok y) (hv : IsText v y) : Denotes f v := by
  obtain ⟨p, hp, rfl⟩ | ⟨x, rfl, hx⟩ := FieldValue.eq_of_marshal h
  · obtain ⟨hs, rfl⟩ := isText_text_iff.mp hv
    exact .plain hp hs
  · exact .raw (hc.of_text hx hv)

end Values

/-! ### What a struct says -/

/-- A field says a member: its name, and what its value denotes. -/
def Member (f : StructField) (kv : Str × Value) : Prop := kv.1 = lit f.name ∧ Denotes f.value kv.2

/-- **A struct says the members of an object**: those of its fields that are written. -/
def Denoted (r : Record) (m : List (Str × Value)) : Prop :=
  List.Forall₂ Member (r.filter StructField.shown) m

section Forall₂

variable {α β γ : Type} {R : α → β → Prop} {S : γ → β → Prop} {T : α → γ → Prop}

variable {l : List α} {k : List β} {j : List γ}

theorem forall₂_meet (hR : List.Forall₂ R l k) (hS : List.Forall₂ S j k)
    (h : ∀ a b c, R a b → S c b → T a c) : List.Forall₂ T l j := by
  induction hR generalizing j with
  | nil =>
    cases hS
    exact .nil
  | cons hab _ ih =>
    obtain _ | ⟨hcb, hrest⟩ := hS
    exact .cons (h _ _ _ hab hcb) (ih hrest)

theorem exists_forall₂ (hT : List.Forall₂ T l j) (h : ∀ a c, T a c → ∃ b, R a b ∧ S c b) :
    ∃ k, List.Forall₂ R l k ∧ List.Forall₂ S j k := by
  induction hT with
  | nil => exact ⟨[], .nil, .nil⟩
  | cons hac _ ih =>
    obtain ⟨b, hab, hcb⟩ := h _ _ hac
    obtain ⟨k, hl, hj⟩ := ih
    exact ⟨b :: k, .cons hab hl, .cons hcb hj⟩

theorem exists_left_of_mem (h : List.Forall₂ R l k) {b : β} (hb : b ∈ k) : ∃ a ∈ l, R a b := by
  induction h with
  | nil => cases hb
  | cons hab _ ih =>
    obtain rfl | hb := List.mem_cons.mp hb
    · exact ⟨_, List.mem_cons_self, hab⟩
    · obtain ⟨a, ha, hab⟩ := ih hb
      exact ⟨a, List.mem_cons_of_mem _ ha, hab⟩

end Forall₂

section Documents

variable {compact : Bytes → Option Bytes} (hc : Compacts compact)

include hc

theorem whole_of_writes (h : List.Forall₂ (Record.Writes compact) fields xs) :
    ∀ kx ∈ xs, Whole kx.2 := by
  intro kx hkx
  obtain ⟨f, -, -, hf⟩ := exists_left_of_mem h hkx
  exact whole_marshal hc hf

/-- **A struct that is written and accepted says what is read**, and its texts are found again. -/
theorem denoted_of_parseStrict
    (hxs : List.Forall₂ (Record.Writes compact) (r.filter StructField.shown) xs)
    (hw : parseStrict (objectText xs) = .ok w) :
    ∃ m, w = .obj m ∧ Denoted r m ∧ structOf (objectText xs) = some xs := by
  obtain ⟨m, rfl, hm, hstruct⟩ := structOf_of_parseStrict (whole_of_writes hc hxs) hw
  have hread : readMembers xs = xs := by
    refine (List.map_congr_left fun kx hkx => ?_).trans (List.map_id xs)
    obtain ⟨f, -, hname, -⟩ := exists_left_of_mem hxs hkx
    have hkey : toUtf8 kx.1 = kx.1 := by rw [hname, toUtf8_lit]
    exact Prod.ext hkey rfl
  refine ⟨m, rfl, forall₂_meet hxs hm fun f kx kv hf hkv => ⟨?_, ?_⟩,
    hstruct.trans (congrArg some hread)⟩
  · rw [hkv.1, hf.1, toUtf8_lit]
  · exact denotes_of_text hc hf.2 hkv.2

/-- **A struct that says the members of an object is written** as a text of it. -/
theorem Denoted.exists_marshal (h : Denoted r m) (hk : UniqueKeys m) :
    ∃ b, r.marshal compact = .ok b ∧ IsText (.obj m) b := by
  obtain ⟨xs, hxs, hm⟩ := exists_forall₂ (R := Record.Writes compact) (S := WrittenFrom) h
    fun f kv hkv => by
      obtain ⟨y, hy, htext⟩ := hkv.2.exists_marshal hc
      exact ⟨(lit f.name, y), ⟨rfl, hy⟩, hkv.1.trans (toUtf8_lit f.name).symm, htext⟩
  exact ⟨_, Record.marshal_eq_ok_iff.mpr ⟨xs, hxs, rfl⟩, isText_objectText hk hm⟩

end Documents

/-! ### Reading back -/

theorem node_quote (s : Str) : node (quote s) = some (.str (quoteBody s)) :=
  node_of_isString (isString_quote s)

theorem storeString_of_text {s : Str} {x : Bytes} (h : IsText (.str s) x) (before : Str) :
    storeString before x = some s := by
  obtain ⟨n, hn, hshows⟩ := node_of_text h
  cases hshows with
  | str hbody =>
    rw [storeString, hn]
    exact hbody

theorem mapM_storeString {l : List Str} {xs : List Bytes}
    (h : List.Forall₂ IsText (l.map .str) xs) : xs.mapM (storeString []) = some l := by
  induction l generalizing xs with
  | nil =>
    cases h
    rfl
  | cons s l ih =>
    obtain _ | ⟨hs, hl⟩ := h
    rw [List.mapM_cons, storeString_of_text hs, ih hl]
    rfl

section Lookup

variable {α : Type} {l : List (Str × α)} (name : String)

theorem values_eq_singleton (hl : (l.map fun kv => foldName kv.1).Nodup) {a : α}
    (ha : (lit name, a) ∈ l) : Matching.folded.values name l = [a] := by
  induction l with
  | nil => cases ha
  | cons kv l ih =>
    obtain ⟨hkv, hl⟩ := List.nodup_cons.mp hl
    obtain rfl | ha := List.mem_cons.mp ha
    · have hrest : l.filter (fun kv => Matching.folded.test name kv.1) = [] := by
        refine List.filter_eq_nil_iff.mpr fun kw hkw htest => hkv ?_
        have hfold : foldName kw.1 = foldName (lit name) := by simpa [Matching.test] using htest
        exact List.mem_map.mpr ⟨kw, hkw, hfold⟩
      rw [Matching.values, List.filter_cons_of_pos (by simp [Matching.test]), hrest]
      rfl
    · have hne : Matching.folded.test name kv.1 = false := by
        refine decide_eq_false fun hfold => hkv ?_
        exact List.mem_map.mpr ⟨_, ha, hfold.symm⟩
      rw [Matching.values, List.filter_cons_of_neg (by simp [hne])]
      exact ih hl ha

theorem values_eq_nil (h : ∀ kv ∈ l, foldName kv.1 ≠ foldName (lit name)) :
    Matching.folded.values name l = [] := by
  have hrest : l.filter (fun kv => Matching.folded.test name kv.1) = [] :=
    List.filter_eq_nil_iff.mpr fun kv hkv htest => h kv hkv (by simpa [Matching.test] using htest)
  rw [Matching.values, hrest, List.map_nil]

end Lookup

/-- **The fields of a struct of strings are read.** -/
theorem mapM_struct {fields : List (String × Str)}
    (hnames : (fields.map fun f => foldName (lit f.1)).Nodup)
    (h : List.Forall₂ MemberText (fields.map fun f => (lit f.1, .str (toUtf8 f.2))) xs) :
    ((fields.map fun f => (f.1, ([] : Str))).mapM fun f =>
      ((Matching.folded.values f.1 xs).foldlM storeString f.2).map (f.1, ·)) =
        some (fields.map fun f => (f.1, toUtf8 f.2)) := by
  have hread : ∀ f ∈ fields, (Matching.folded.values f.1 xs).foldlM storeString [] =
      some (toUtf8 f.2) := by
    intro f hf
    have hvalue := values_eq_singleton (l := fields.map fun f => (lit f.1, Value.str (toUtf8 f.2)))
      f.1 (by simpa [Function.comp_def] using hnames) (List.mem_map_of_mem hf)
    have hvalues := forall₂_values .folded f.1 h
    rw [hvalue] at hvalues
    obtain ⟨x, xs', htext, hnil, hxs⟩ := List.forall₂_cons_left_iff.mp hvalues
    rw [hxs, List.forall₂_nil_left_iff.mp hnil, List.foldlM_cons, storeString_of_text htext]
    rfl
  clear h hnames
  induction fields with
  | nil => rfl
  | cons f fields ih =>
    obtain ⟨hf, hfields⟩ := List.forall_mem_cons.mp hread
    rw [List.map_cons, List.mapM_cons, hf, ih hfields]
    rfl

theorem parseUint_formatInt (h : n < 2 ^ 64) : parseUint (formatInt n) = some n := by
  rw [formatInt, if_neg (by omega), Int.natAbs_natCast, parseUint, parseDigits_formatNat,
    Option.bind_some, if_pos h]

/-- The fields of a struct in a field have names of their own. -/
def Named (f : FieldValue) : Prop :=
  ∀ fields, f = .struct fields → (fields.map fun g => foldName (lit g.1)).Nodup

/-- **A field is read back** from its text. -/
theorem store_refreshed (hf : f.marshal compact = .ok y) (hv : Denotes f v) (htext : IsText v y)
    (hnames : Named f) : f.zero.store y = some (f.refreshed compact) := by
  obtain ⟨n, hn, hshows⟩ := node_of_text htext
  rw [FieldValue.store, hn, Option.bind_some]
  cases f with
  | string s =>
    obtain ⟨hp, -⟩ | _ := hv
    cases hp
    rw [Value.toUtf8] at hshows
    cases hshows with
    | str hbody => exact congrArg (Option.map _) hbody
  | int i =>
    obtain ⟨hp, -⟩ | _ := hv
    cases hp
    rw [Value.toUtf8] at hshows
    cases hshows with
    | int hi => exact congrArg (Option.map _) (parseInt_formatInt hi)
  | uint k =>
    obtain ⟨hp, -⟩ | _ := hv
    cases hp
    rw [Value.toUtf8] at hshows
    obtain _ | _ | hi := hshows
    exact congrArg (Option.map _) (parseUint_formatInt (by have := hi.2; omega))
  | time t =>
    rw [FieldValue.marshal] at hf
    split_ifs at hf with ht
    rw [← Except.ok.inj hf, node_quote,
      Time.quoteBody_of_timeText t.timeText_rfc3339Nano] at hn
    rw [← Option.some.inj hn]
    exact congrArg (Option.map _) (Time.parseStrictRFC3339_rfc3339Nano ht)
  | strings l =>
    cases l with
    | none =>
      obtain ⟨hp, -⟩ | _ := hv
      cases hp
      rw [Value.toUtf8] at hshows
      cases hshows
      rfl
    | some l =>
      obtain ⟨hp, -⟩ | _ := hv
      cases hp
      rw [Value.toUtf8_arr, List.map_map] at hshows
      obtain _ | _ | _ | _ | hxs := hshows
      have hread := mapM_storeString (l := l.map toUtf8)
        (by simpa [Function.comp_def, Value.toUtf8] using hxs)
      exact congrArg (fun l => (Option.map some l).map FieldValue.strings) hread
  | raw x =>
    cases x with
    | none => exact congrArg (fun x => some (FieldValue.raw (some x))) (Except.ok.inj hf).symm
    | some x =>
      rw [FieldValue.marshal] at hf
      split at hf
      · next hx =>
        rw [FieldValue.refreshed, hx, ← Except.ok.inj hf]
        rfl
      · cases hf
  | struct fields =>
    obtain ⟨hp, -⟩ | _ := hv
    cases hp
    rw [toUtf8_ofFields, repaired, List.map_map] at hshows
    obtain _ | _ | _ | _ | _ | hxs := hshows
    exact congrArg (Option.map _) (mapM_struct (hnames fields rfl) hxs)

/-- The names of a struct's fields are told apart. -/
structure WellNamed (r : Record) : Prop where
  names : (r.map fun f => foldName (lit f.name)).Nodup
  structs : ∀ f ∈ r, Named f.value

instance (f : FieldValue) : Decidable (Named f) :=
  match f with
  | .struct fields => decidable_of_iff (fields.map fun g => foldName (lit g.1)).Nodup
      ⟨fun h _ hf => FieldValue.struct.inj hf ▸ h, fun h => h fields rfl⟩
  | .string _ | .int _ | .uint _ | .time _ | .strings _ | .raw _ => isTrue nofun

instance (r : Record) : Decidable (WellNamed r) :=
  decidable_of_iff ((r.map fun f => foldName (lit f.name)).Nodup ∧ ∀ f ∈ r, Named f.value)
    ⟨fun h => ⟨h.1, h.2⟩, fun h => ⟨h.names, h.structs⟩⟩

/-- A field after it has been written and read; one that is not written is zero then. -/
def refreshedField (compact : Bytes → Option Bytes) (f : StructField) : StructField :=
  { f with value := if f.shown then f.value.refreshed compact else f.value.zero }

/-- **A struct after it has been written and read.** -/
def refreshed (compact : Bytes → Option Bytes) (r : Record) : Record :=
  r.map (refreshedField compact)

section ReadBack

variable {compact : Bytes → Option Bytes}

theorem map_fst_of_writes (h : List.Forall₂ (Record.Writes compact) fields xs) :
    xs.map Prod.fst = fields.map fun f => lit f.name := by
  induction h with
  | nil => rfl
  | cons hf _ ih => rw [List.map_cons, List.map_cons, ih, hf.1]

theorem nodup_foldName_of_writes (hr : WellNamed r)
    (hxs : List.Forall₂ (Record.Writes compact) (r.filter StructField.shown) xs) :
    (xs.map fun kv => foldName kv.1).Nodup := by
  have hmap : xs.map (fun kv => foldName kv.1) =
      (r.filter StructField.shown).map fun f => foldName (lit f.name) := by
    have h := congrArg (List.map foldName) (map_fst_of_writes hxs)
    simpa [Function.comp_def] using h
  rw [hmap]
  exact hr.names.sublist (List.filter_sublist.map _)

/-- **A struct is read back** from its text, field by field. -/
theorem unmarshal_marshal (hc : Compacts compact) (hr : WellNamed r) {b : Bytes}
    (hb : r.marshal compact = .ok b) (hw : parseStrict b = .ok w) :
    r.zero.unmarshal b = some (refreshed compact r) := by
  obtain ⟨xs, hxs, rfl⟩ := Record.marshal_eq_ok_iff.mp hb
  obtain ⟨m, -, hm, hstruct⟩ := denoted_of_parseStrict hc hxs hw
  refine Record.zero_unmarshal_eq hstruct fun f hf => ?_
  by_cases hshown : f.shown = true
  · -- its one member is read
    have hmem : f ∈ r.filter StructField.shown := List.mem_filter.mpr ⟨hf, hshown⟩
    obtain ⟨kx, hkx, hname, hy⟩ := exists_left_of_mem hxs.flip hmem
    obtain ⟨kv, -, -, hkv⟩ := exists_left_of_mem hm.flip hmem
    obtain ⟨y, hmarshal, htext⟩ := hkv.exists_marshal hc
    obtain rfl : kx.2 = y := Except.ok.inj (hy.symm.trans hmarshal)
    have hvalues := values_eq_singleton f.name (nodup_foldName_of_writes hr hxs)
      (show (lit f.name, kx.2) ∈ xs from hname ▸ hkx)
    rw [hvalues, List.foldlM_cons, store_refreshed hy hkv htext (hr.structs f hf), if_pos hshown]
    rfl
  · -- it has no member
    have hvalues : Matching.folded.values f.name xs = [] := by
      refine values_eq_nil f.name fun kx hkx hfold => hshown ?_
      obtain ⟨g, hg, hname, -⟩ := exists_left_of_mem hxs hkx
      obtain ⟨hg, hgshown⟩ := List.mem_filter.mp hg
      rw [hname] at hfold
      exact List.inj_on_of_nodup_map hr.names hg hf hfold ▸ hgshown
    rw [hvalues, List.foldlM_nil, if_neg hshown]
    rfl

end ReadBack

/-! ### Structs that come back as they were -/

/-- A time in the field shows its zone. -/
def ShowsZone (f : FieldValue) : Prop := ∀ t, f = .time t → t.ShowsZone

theorem toUtf8_ne_nil {s : Str} (h : s ≠ []) : toUtf8 s ≠ [] := by
  have hencode (c : Char) (l : List Char) : encode (c :: l) ≠ [] := by
    rw [encode_cons]
    exact List.append_ne_nil_of_left_ne_nil (utf8EncodeChar_ne_nil c) _
  cases s using rune_induction with
  | nil => exact absurd rfl h
  | scalar c t =>
    rw [toUtf8, runes_encode_append, List.map_cons]
    exact hencode _ _
  | invalid b t hb =>
    rw [toUtf8, runes_cons_of_decodeRune_eq_none hb, List.map_cons]
    exact hencode _ _

theorem Denotes.of_eq {p q : Value} (hf : f.plain = some q) (hq : q.toUtf8 = p.toUtf8)
    (hp : Strict p.toUtf8) : Denotes f p.toUtf8 := by
  rw [← hq] at hp ⊢
  exact .plain hf hp

/-- **A field denotes the same** after it has been written and read, if its zone is shown. -/
theorem Denotes.refreshed (hc : Compacts compact) (h : Denotes f v) (hzone : ShowsZone f) :
    Denotes (f.refreshed compact) v := by
  cases h with
  | raw hx =>
    obtain ⟨y, hy, htext⟩ := hc.text hx
    rw [FieldValue.refreshed, hy]
    exact .raw htext
  | @plain f p hf hp =>
    unfold FieldValue.plain at hf
    split at hf
    case h_4 t =>
      split_ifs at hf with ht
      cases hf
      refine .of_eq (if_pos (Time.marshals_minuteZone.mpr ht)) ?_ hp
      rw [Time.rfc3339Nano_minuteZone_iff.mpr (hzone t rfl)]
    case h_8 => cases hf
    all_goals cases hf
    · exact .of_eq rfl (by rw [Value.toUtf8, Value.toUtf8, toUtf8_idem]) hp
    · exact .of_eq rfl rfl hp
    · exact .of_eq rfl rfl hp
    · exact .of_eq rfl rfl hp
    · refine .of_eq rfl ?_ hp
      rw [Value.toUtf8_arr, Value.toUtf8_arr]
      simp [Function.comp_def, Value.toUtf8, toUtf8_idem]
    · exact .raw .null
    · exact .of_eq rfl (by
        simp [toUtf8_ofFields, repaired, Function.comp_def, Value.toUtf8, toUtf8_idem]) hp

theorem isEmpty_zero (h : f.isEmpty = true) : f.zero.isEmpty = true := by
  cases f with
  | time t => cases h
  | struct fields => cases h
  | _ => rfl

theorem isEmpty_refreshed (hc : Compacts compact) (h : Denotes f v) (hf : f.isEmpty = false) :
    (f.refreshed compact).isEmpty = false := by
  cases f with
  | string s =>
    have hs : s ≠ [] := by simpa [FieldValue.isEmpty] using hf
    simpa [FieldValue.refreshed, FieldValue.isEmpty] using toUtf8_ne_nil hs
  | strings l =>
    cases l with
    | none => cases hf
    | some l => simpa [FieldValue.refreshed, FieldValue.isEmpty] using hf
  | raw x =>
    cases x with
    | none => cases hf
    | some x =>
      obtain ⟨hp, -⟩ | hx := h
      · cases hp
      · obtain ⟨y, hy, htext⟩ := hc.text hx
        obtain ⟨w, b, s, rfl, -⟩ := htext.starts
        simp [FieldValue.refreshed, hy, FieldValue.isEmpty]
  | _ => exact hf

theorem shown_refreshedField (hc : Compacts compact) {f : StructField}
    (h : f.shown = true → ∃ v, Denotes f.value v) : (refreshedField compact f).shown = f.shown := by
  by_cases hshown : f.shown = true
  · obtain ⟨v, hv⟩ := h hshown
    simp only [refreshedField, if_pos hshown]
    simp only [StructField.shown, Bool.not_eq_true', Bool.and_eq_false_iff] at hshown ⊢
    rcases hshown with homit | hempty
    · simp [homit]
    · simp [hempty, isEmpty_refreshed hc hv hempty]
  · simp only [refreshedField, if_neg hshown]
    simp only [StructField.shown, Bool.not_eq_true', Bool.and_eq_false_iff, not_or,
      Bool.not_eq_false] at hshown ⊢
    simp [hshown, isEmpty_zero hshown.2]

/-- **A struct says the same** after it has been written and read, if the zones of its times are
shown. -/
theorem Denoted.refreshed (hc : Compacts compact) (h : Denoted r m)
    (hzone : ∀ f ∈ r, ShowsZone f.value) : Denoted (refreshed compact r) m := by
  have hfilter : r.filter (StructField.shown ∘ refreshedField compact) =
      r.filter StructField.shown := by
    refine List.filter_congr fun f hf => shown_refreshedField hc fun hshown => ?_
    obtain ⟨kv, -, -, hkv⟩ := exists_left_of_mem h.flip (List.mem_filter.mpr ⟨hf, hshown⟩)
    exact ⟨kv.2, hkv⟩
  have hgood : ∀ f ∈ r.filter StructField.shown, f.shown = true ∧ ShowsZone f.value := fun f hf =>
    ⟨(List.mem_filter.mp hf).2, hzone f (List.mem_filter.mp hf).1⟩
  rw [Denoted, Canonical.refreshed, List.filter_map, hfilter, List.forall₂_map_left_iff]
  refine ((List.forall₂_and_left _ _).mpr ⟨hgood, h⟩).imp ?_
  rintro f kv ⟨⟨hshown, hzone⟩, hname, hkv⟩
  refine ⟨hname, ?_⟩
  rw [refreshedField, if_pos hshown]
  exact hkv.refreshed hc hzone

/-! ### A way to compact -/

/-- **Compacting texts of the profile**: the text of the value. -/
def compactProfile (x : Bytes) : Option Bytes :=
  match parseStrict x, node x with
  | .ok v, some _ => some v.text
  | _, _ => none

/-- The profile's compacting is defined on texts of values and gives the text without blanks. -/
theorem compactProfile_eq_some_iff {x : Bytes} :
    compactProfile x = some y ↔ ∃ v, IsText v x ∧ y = v.text := by
  constructor
  · intro h
    unfold compactProfile at h
    split at h
    · next v n hparse hnode =>
      refine ⟨v, ?_, (Option.some.inj h).symm⟩
      obtain ⟨t, u, rfl, htext, hu⟩ := parseStrict_eq_ok_iff.mp hparse
      cases u with
      | nil => rwa [List.append_nil]
      | cons b u =>
        rw [node_of_stray ⟨v, t, b, u, rfl, htext, hu b rfl⟩] at hnode
        cases hnode
    · cases h
  · rintro ⟨v, htext, rfl⟩
    obtain ⟨n, hn, -⟩ := node_of_text htext
    have hparse : parseStrict x = .ok v :=
      parseStrict_eq_ok_iff.mpr ⟨x, [], (List.append_nil x).symm, htext, nofun⟩
    rw [compactProfile, hparse, hn]

theorem compacts_compactProfile : Compacts compactProfile where
  text h := ⟨_, compactProfile_eq_some_iff.mpr ⟨_, h, rfl⟩, by
    have htext := isText_text _ (h.strict.toUtf8_eq.symm ▸ h.strict)
    rwa [h.strict.toUtf8_eq] at htext⟩
  of_text hy hv := by
    obtain ⟨v, htext, rfl⟩ := compactProfile_eq_some_iff.mp hy
    obtain ⟨-, rfl⟩ := isText_text_iff.mp hv
    rwa [htext.strict.toUtf8_eq]
  whole hy := by
    obtain ⟨v, -, rfl⟩ := compactProfile_eq_some_iff.mp hy
    exact whole_text v
  stray h := by
    rw [compactProfile, node_of_stray h]
    cases parseStrict _ <;> rfl

end Canonical

end Iscp
