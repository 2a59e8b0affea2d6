import Iscp.Canonical.Records
import Iscp.Canonical.SignatureInput

/-!
# Signed structs on their way

A struct is signed over the canonical form of its JSON without the signature. Its verifier has
decoded it from JSON, and computes the signature input again from the struct it got.

Both inputs are the same if the struct says the same before and after
(`Iscp.Canonical.structInput_refreshed_iff`), which it does but for times with an offset their text
does not show. And the input says all that the struct says
(`Iscp.Canonical.same_of_structInput_eq`).
-/

namespace Iscp

namespace Canonical

open Go Go.Json

/-- The error of `json.Marshal`. -/
def marshalError : MarshalError → Error
  | .time t => .plain t.marshalErrorText
  | .rawMessage => .plain "json: error calling MarshalJSON for type json.RawMessage: %v"

/-- **The signature input of a struct**: `canonical.SignatureInput` of what `json.Marshal`
writes. -/
def structInput (compact : Bytes → Option Bytes) (t : Str) (r : Record) : Except Error Bytes := do
  let b ← (r.marshal compact).mapError marshalError
  signatureInput t b

/-- **The signature input of a struct without text in it.** -/
theorem structInput_of_plainMembers {compact : Bytes → Option Bytes} {t : Str} {r : Record}
    {s : Bytes} {fields : List (String × Value)} (h : r.TimesMarshal →
      (r.filter StructField.shown).mapM StructField.plainMember = some fields) :
    structInput compact t r = .ok s ↔
      r.TimesMarshal ∧ signatureInput t (Value.ofFields fields).text = .ok s := by
  simp only [structInput, bind_eq_ok_iff, mapError_eq_ok_iff]
  constructor
  · rintro ⟨b, hb, hs⟩
    have htimes := Record.timesMarshal_of_marshal hb
    obtain rfl := Except.ok.inj (hb.symm.trans (Record.marshal_of_plainMembers compact (h htimes)))
    exact ⟨htimes, hs⟩
  · rintro ⟨htimes, hs⟩
    exact ⟨_, Record.marshal_of_plainMembers compact (h htimes), hs⟩

/-- The signature input over the members of an object. -/
def membersInput (t : Str) (m : List (Str × Value)) : Bytes :=
  signaturePrefix ++ t ++ 0 :: writeCanonical (.obj (delete m (lit "signature")))

/-! ### What the input is over -/

variable {m : List (Str × Value)} {r' : Record}

section Input

variable {compact : Bytes → Option Bytes} (hc : Compacts compact) {t : Str} {r : Record} {s : Bytes}

include hc

/-- **The signature input of a struct is over what the struct says.** -/
theorem structInput_eq_ok_iff : structInput compact t r = .ok s ↔
    ∃ m, Denoted r m ∧ UniqueKeys m ∧ s = membersInput t m := by
  simp only [structInput, bind_eq_ok_iff, mapError_eq_ok_iff, signatureInput_eq_ok]
  constructor
  · rintro ⟨b, hb, m, hparse, rfl⟩
    obtain ⟨xs, hxs, rfl⟩ := Record.marshal_eq_ok_iff.mp hb
    obtain ⟨m', hm', hdenoted, -⟩ := denoted_of_parseStrict hc hxs hparse
    obtain rfl := Value.obj.inj hm'
    exact ⟨m, hdenoted, (strict_of_parseStrict hparse).uniqueKeys, rfl⟩
  · rintro ⟨m, hm, hk, rfl⟩
    obtain ⟨b, hb, htext⟩ := hm.exists_marshal hc hk
    exact ⟨b, hb, m, parseStrict_eq_ok_iff.mpr ⟨b, [], (List.append_nil b).symm, htext, nofun⟩, rfl⟩

/-- **The signature input binds the type and all that the struct says**, the signature apart. -/
theorem same_of_structInput_eq {t' : Str} (ht : 0 ∉ t) (ht' : 0 ∉ t') {m' : List (Str × Value)}
    (hm : Denoted r m) (hk : UniqueKeys m) (hm' : Denoted r' m') (hk' : UniqueKeys m')
    (h : membersInput t m = membersInput t' m') :
    t = t' ∧ Same (.obj (delete m (lit "signature"))) (.obj (delete m' (lit "signature"))) := by
  obtain ⟨b, -, htext⟩ := hm.exists_marshal hc hk
  obtain ⟨b', -, htext'⟩ := hm'.exists_marshal hc hk'
  rwa [membersInput, membersInput, List.append_assoc, List.append_assoc,
    List.append_cancel_left_eq, append_nul_inj ht ht',
    writeCanonical_eq_iff (strict_delete htext.strict _) (strict_delete htext'.strict _)] at h

end Input

/-! ### The names of a struct -/

theorem Denoted.exists_member {r : Record} (h : Denoted r m) {f : StructField} (hf : f ∈ r)
    (hshown : f.shown = true) : ∃ v, (lit f.name, v) ∈ m ∧ Denotes f.value v := by
  obtain ⟨kv, hkv, hname, hv⟩ := exists_left_of_mem h.flip (List.mem_filter.mpr ⟨hf, hshown⟩)
  exact ⟨kv.2, hname ▸ hkv, hv⟩

theorem eq_of_denotes_time {t : Time} {v : Value} (h : Denotes (.time t) v) :
    v = .str t.rfc3339Nano := by
  obtain ⟨hp, -⟩ | _ := h
  rw [FieldValue.plain] at hp
  split_ifs at hp
  rw [← Option.some.inj hp, Value.toUtf8, toUtf8_eq_self t.utf8_rfc3339Nano]

/-! ### The input after a transport -/

section Refreshed

variable {compact : Bytes → Option Bytes} (hc : Compacts compact) {t : Str} {r : Record} {s : Bytes}

include hc

/-- **The signature input after a transport is the one before just if the zones of all times are
shown.** -/
theorem structInput_refreshed_iff (ht : 0 ∉ t)
    (hsignature : ∀ f ∈ r, f.name = "signature" → ShowsZone f.value)
    (h : structInput compact t r = .ok s) :
    structInput compact t (refreshed compact r) = .ok s ↔ ∀ f ∈ r, ShowsZone f.value := by
  obtain ⟨m, hm, hk, rfl⟩ := (structInput_eq_ok_iff hc).mp h
  constructor
  · intro h f hf tm htm
    obtain ⟨m', hm', hk', heq⟩ := (structInput_eq_ok_iff hc).mp h
    by_cases hname : f.name = "signature"
    · exact hsignature f hf hname tm htm
    -- the texts of the time, before and after, are the same member
    have hsame := (same_of_structInput_eq hc ht ht hm hk hm' hk' heq).2
    have hshown : f.shown = true := by simp [StructField.shown, htm, FieldValue.isEmpty]
    obtain ⟨v, hv, hdenotes⟩ := hm.exists_member hf hshown
    have hvalue : (refreshedField compact f).value = .time tm.minuteZone := by
      rw [refreshedField, if_pos hshown, htm]
      rfl
    have hshown' : (refreshedField compact f).shown = true := by
      simp [StructField.shown, hvalue, FieldValue.isEmpty]
    obtain ⟨v', hv', hdenotes'⟩ := hm'.exists_member (List.mem_map_of_mem hf) hshown'
    rw [htm] at hdenotes
    rw [hvalue] at hdenotes'
    obtain rfl := eq_of_denotes_time hdenotes
    obtain rfl := eq_of_denotes_time hdenotes'
    have hkept (m : List (Str × Value)) {v : Value} (hv : (lit f.name, v) ∈ m) :
        (lit f.name, v) ∈ delete m (lit "signature") :=
      List.mem_filter.mpr ⟨hv, by simpa using hname⟩
    have hmember := hsame.member (hk'.sublist (List.filter_sublist.map _)) (hkept m hv)
      (hkept m' hv')
    exact Time.rfc3339Nano_minuteZone_iff.mp (by simpa [Same] using hmember.symm)
  · intro hzone
    exact (structInput_eq_ok_iff hc).mpr ⟨m, hm.refreshed hc hzone, hk, rfl⟩

end Refreshed

theorem Named.zero {f : FieldValue} (h : Named f) : Named f.zero := by
  intro fields hfields
  cases f with
  | struct fields' =>
    obtain rfl := FieldValue.struct.inj hfields
    simpa [Function.comp_def] using h fields' rfl
  | _ => cases hfields

theorem showsZone_zero (f : FieldValue) : ShowsZone f.zero := by
  rintro t ht
  cases f with
  | time t' =>
    obtain rfl := FieldValue.time.inj ht
    exact Or.inl rfl
  | _ => cases ht

theorem showsZone_refreshed (compact : Bytes → Option Bytes) (f : FieldValue) :
    ShowsZone (f.refreshed compact) := by
  rintro t ht
  cases f with
  | time t' =>
    obtain rfl := FieldValue.time.inj ht
    exact Time.rfc3339Nano_minuteZone_iff.mp (by rw [Time.minuteZone_minuteZone])
  | raw x => cases x <;> cases ht
  | _ => cases ht

/-- **A time that has been read shows its zone.** -/
theorem showsZone_refreshedField (compact : Bytes → Option Bytes) (f : StructField) :
    ShowsZone (refreshedField compact f).value := by
  rw [refreshedField]
  split_ifs
  · exact showsZone_refreshed compact f.value
  · exact showsZone_zero f.value

/-! ### The signature -/

/-- A field of the struct without its signature. -/
def unsignedField (f : StructField) : StructField :=
  if f.name = "signature" then { f with value := f.value.zero } else f

/-- **The struct without its signature.** -/
def unsigned (r : Record) : Record := r.map unsignedField

/-- The fields say the same, up to the order of members, or both are signatures. -/
def Alike (f f' : StructField) : Prop :=
  f'.name = f.name ∧ (f.name = "signature" ∧ (∃ v, Denotes f'.value v) ∨
    ∀ v, Denotes f.value v → ∃ v', Denotes f'.value v' ∧ sorted v' = sorted v)

theorem exists_of_alike {fields fields' : List StructField} (h : List.Forall₂ Member fields m)
    (hfields : List.Forall₂ Alike fields fields') :
    ∃ m', List.Forall₂ Member fields' m' ∧ m'.map Prod.fst = m.map Prod.fst ∧
      sortedMembers (delete m' (lit "signature")) = sortedMembers (delete m (lit "signature")) := by
  simp only [sortedMembers_eq]
  induction h generalizing fields' with
  | nil =>
    cases hfields
    exact ⟨[], .nil, rfl, rfl⟩
  | @cons f kv fields m hkv _ ih =>
    obtain _ | ⟨hf, hrest⟩ := hfields
    obtain ⟨m', hm', hnames, hsorted⟩ := ih hrest
    obtain ⟨hname, ⟨hsignature, v, hv⟩ | hsame⟩ := hf
    · have hkey : kv.1 = lit "signature" := hkv.1.trans (congrArg lit hsignature)
      refine ⟨(lit "signature", v) :: m', .cons ⟨by rw [hname, hsignature], hv⟩ hm', ?_, ?_⟩
      · rw [List.map_cons, hnames, List.map_cons, hkey]
      · simp only [delete, List.filter_cons, hkey] at hsorted ⊢
        simpa using hsorted
    · obtain ⟨v', hv', hvsorted⟩ := hsame kv.2 hkv.2
      refine ⟨(kv.1, v') :: m', .cons ⟨by rw [hname, hkv.1], hv'⟩ hm', ?_, ?_⟩
      · rw [List.map_cons, hnames, List.map_cons]
      · simp only [delete, List.filter_cons] at hsorted ⊢
        split_ifs
        · rw [List.map_cons, List.map_cons, hsorted, hvsorted]
        · exact hsorted

/-- A signature is a struct of strings. -/
def HasSignature (r : Record) : Prop :=
  ∀ f ∈ r, f.name = "signature" → ∃ fields, f.value = .struct fields

theorem exists_denotes_struct {fields : List (String × Str)} (h : Named (.struct fields)) :
    ∃ v, Denotes (.struct fields) v := by
  refine ⟨_, .plain rfl (strict_toUtf8_ofFields ?_ ?_)⟩
  · rw [List.map_map]
    refine List.Nodup.of_map (fun name => foldName (lit name)) ?_
    rw [List.map_map]
    exact h fields rfl
  · exact List.forall_mem_map.mpr fun f _ => strict_toUtf8_str f.2

section Unsigned

variable {compact : Bytes → Option Bytes} (hc : Compacts compact) {t : Str} {r : Record} {s : Bytes}

include hc in
/-- **Structs with fields alike have the same signature input.** -/
theorem structInput_of_alike
    (h : List.Forall₂ Alike (r.filter StructField.shown) (r'.filter StructField.shown))
    (hs : structInput compact t r = .ok s) : structInput compact t r' = .ok s := by
  obtain ⟨m, hm, hk, rfl⟩ := (structInput_eq_ok_iff hc).mp hs
  obtain ⟨m', hm', hnames, hsorted⟩ := exists_of_alike hm h
  refine (structInput_eq_ok_iff hc).mpr ⟨m', hm', ?_, ?_⟩
  · rw [UniqueKeys, hnames]
    exact hk
  · rw [membersInput, membersInput, writeCanonical_eq_text, writeCanonical_eq_text, sorted, sorted,
      hsorted]

theorem filter_unsigned (hs : HasSignature r) :
    (unsigned r).filter StructField.shown = (r.filter StructField.shown).map unsignedField := by
  rw [unsigned, List.filter_map]
  refine congrArg _ (List.filter_congr fun f hf => ?_)
  rw [Function.comp_apply, unsignedField]
  split_ifs with hname
  · obtain ⟨fields, hfields⟩ := hs f hf hname
    simp [StructField.shown, hfields, FieldValue.zero, FieldValue.isEmpty]
  · rfl

include hc

/-- **The signature input does not depend on the signature.** -/
theorem structInput_unsigned (hr : WellNamed r) (hs : HasSignature r) :
    structInput compact t (unsigned r) = .ok s ↔ structInput compact t r = .ok s := by
  have hdenotes : ∀ f ∈ r, f.name = "signature" →
      (∃ v, Denotes f.value v) ∧ ∃ v, Denotes f.value.zero v := by
    intro f hf hname
    obtain ⟨fields, hfields⟩ := hs f hf hname
    have hnamed := hr.structs f hf
    rw [hfields] at hnamed ⊢
    exact ⟨exists_denotes_struct hnamed, exists_denotes_struct hnamed.zero⟩
  have hcases : ∀ f ∈ r.filter StructField.shown,
      Alike f (unsignedField f) ∧ Alike (unsignedField f) f := by
    intro f hf
    have hmem := (List.mem_filter.mp hf).1
    rw [unsignedField]
    split_ifs with hname
    · obtain ⟨hsigned, hzero⟩ := hdenotes f hmem hname
      exact ⟨⟨rfl, Or.inl ⟨hname, hzero⟩⟩, rfl, Or.inl ⟨hname, hsigned⟩⟩
    · exact ⟨⟨rfl, Or.inr fun v hv => ⟨v, hv, rfl⟩⟩, rfl, Or.inr fun v hv => ⟨v, hv, rfl⟩⟩
  constructor
  · refine structInput_of_alike hc ?_
    rw [filter_unsigned hs, List.forall₂_map_left_iff, List.forall₂_same]
    exact fun f hf => (hcases f hf).2
  · refine structInput_of_alike hc ?_
    rw [filter_unsigned hs, List.forall₂_map_right_iff, List.forall₂_same]
    exact fun f hf => (hcases f hf).1

end Unsigned

end Canonical

end Iscp
