import Iscp.Canonical.SignatureInput

/-!
# Signing structs

The objects the program signs are Go structs: json.Marshal writes the struct, and
`Iscp.Canonical.signatureInput` makes the signature input of the text. Strings that are not
UTF-8 are repaired on the way, so this is as much as a signature can bind: the type, and
every field up to that repair (`Iscp.Canonical.signedBytes_binds`). The same holds of the
canonical form of a whole struct (`Iscp.Canonical.marshal_binds`).

A struct is given here by the list of its fields, names and values, in the order of its
declaration (`Iscp.Go.Json.Value.ofFields`).
-/

namespace Iscp

namespace Canonical

open Go Go.Json

variable {fields fields' : List (String × Value)}

/-- The members of a struct's JSON, after their strings have been repaired. -/
def repaired (fields : List (String × Value)) : List (Str × Value) :=
  fields.map fun f => (lit f.1, f.2.toUtf8)

theorem toUtf8_ofFields (fields : List (String × Value)) :
    (Value.ofFields fields).toUtf8 = .obj (repaired fields) := by
  simp [Value.ofFields, Value.toUtf8_obj, repaired]

variable {v : Value} {name : String} {m : List (Str × Value)} {b : Bytes}

theorem mem_repaired (h : (name, v) ∈ fields) : (lit name, v.toUtf8) ∈ repaired fields :=
  List.mem_map.mpr ⟨_, h, rfl⟩

theorem uniqueKeys_ofFields (hk : (fields.map Prod.fst).Nodup) :
    UniqueKeys (fields.map fun f => (lit f.1, f.2)) := by
  rw [UniqueKeys, List.map_map]
  simpa [Function.comp_def] using hk.map (f := lit) fun a b => lit_inj.mp

theorem uniqueKeys_repaired (hk : (fields.map Prod.fst).Nodup) : UniqueKeys (repaired fields) := by
  rw [UniqueKeys, repaired, List.map_map]
  simpa [Function.comp_def] using hk.map (f := lit) fun a b => lit_inj.mp

theorem strict_ofFields (hk : (fields.map Prod.fst).Nodup) (hv : ∀ f ∈ fields, Strict f.2) :
    Strict (Value.ofFields fields) :=
  .obj (uniqueKeys_ofFields hk) (List.forall_mem_map.mpr fun f _ => utf8_lit f.1)
    (List.forall_mem_map.mpr hv)

theorem strict_toUtf8_ofFields (hk : (fields.map Prod.fst).Nodup)
    (hv : ∀ f ∈ fields, Strict f.2.toUtf8) : Strict (Value.ofFields fields).toUtf8 := by
  rw [toUtf8_ofFields]
  exact .obj (uniqueKeys_repaired hk) (List.forall_mem_map.mpr fun f _ => utf8_lit f.1)
    (List.forall_mem_map.mpr hv)

theorem strict_toUtf8_str (s : Str) : Strict (Value.str s).toUtf8 := .str (utf8_toUtf8 s)

/-! ### Fields of structs that are the same -/

theorem Strict.uniqueKeys (h : Strict (.obj m)) : UniqueKeys m := by
  obtain _ | _ | _ | _ | _ | ⟨hkeys, -, -⟩ := h
  exact hkeys

theorem Same.member {m' : List (Str × Value)} (h : Same (.obj m) (.obj m')) (hm' : UniqueKeys m')
    {k : Str} {w : Value} (hv : (k, v) ∈ m) (hw : (k, w) ∈ m') : Same v w := by
  obtain ⟨w', hw', hsame⟩ := sameMembers_iff.mp h.2 (k, v) hv
  obtain rfl : w' = w := Option.some.inj (hw'.symm.trans ((lookup_eq_some_iff hm').mpr hw))
  exact hsame

/-- **Structs of one type with the same JSON are the same field by field.** -/
theorem Same.fieldwise (h : Same (.obj (repaired fields)) (.obj (repaired fields')))
    (hnames : fields.map Prod.fst = fields'.map Prod.fst)
    (hk : (fields'.map Prod.fst).Nodup) :
    List.Forall₂ (fun f f' => Same f.2.toUtf8 f'.2.toUtf8) fields fields' := by
  have hlength : fields.length = fields'.length := by
    rw [← List.length_map, hnames, List.length_map]
  refine List.forall₂_iff_get.mpr ⟨hlength, fun i hi hi' => ?_⟩
  have hname : (fields.get ⟨i, hi⟩).1 = (fields'.get ⟨i, hi'⟩).1 := by
    have := congrArg (fun l => l[i]?) hnames
    simpa [hi, hi'] using this
  exact h.member (uniqueKeys_repaired hk) (mem_repaired (fields.get_mem ⟨i, hi⟩))
    (hname ▸ mem_repaired (fields'.get_mem ⟨i, hi'⟩))

/-! ### Canonical forms -/

/-- **The canonical form of what json.Marshal wrote.** -/
theorem marshal_text_eq_ok : marshal (Value.ofFields fields).text = .ok b ↔
    Strict (Value.ofFields fields).toUtf8 ∧ writeCanonical (.obj (repaired fields)) = b := by
  rw [marshal, map_eq_ok_iff]
  constructor
  · rintro ⟨v, hv, rfl⟩
    obtain ⟨hs, rfl⟩ := parseStrict_text_iff.mp hv
    exact ⟨hs, by rw [toUtf8_ofFields]⟩
  · rintro ⟨hs, rfl⟩
    exact ⟨_, parseStrict_text hs, by rw [toUtf8_ofFields]⟩

/-- **What a canonical form binds**: every field. -/
theorem marshal_binds (h : marshal (Value.ofFields fields).text = .ok b)
    (h' : marshal (Value.ofFields fields').text = .ok b)
    (hnames : fields.map Prod.fst = fields'.map Prod.fst) :
    List.Forall₂ (fun f f' => Same f.2.toUtf8 f'.2.toUtf8) fields fields' := by
  obtain ⟨hs, rfl⟩ := marshal_text_eq_ok.mp h
  obtain ⟨hs', heq⟩ := marshal_text_eq_ok.mp h'
  rw [toUtf8_ofFields] at hs hs'
  have hkeys : (fields'.map Prod.fst).Nodup := by
    have := hs'.uniqueKeys
    rw [UniqueKeys, repaired, List.map_map] at this
    exact List.Nodup.of_map lit (by simpa [Function.comp_def] using this)
  exact ((writeCanonical_eq_iff hs hs').mp heq.symm).fieldwise hnames hkeys

/-- **What a canonical form binds, field by field**: a field of one struct is one of the other. -/
theorem exists_field_of_marshal (h : marshal (Value.ofFields fields).text = .ok b)
    (h' : marshal (Value.ofFields fields').text = .ok b) (hv : (name, v) ∈ fields) :
    ∃ w, (name, w) ∈ fields' ∧ Same v.toUtf8 w.toUtf8 := by
  obtain ⟨hs, rfl⟩ := marshal_text_eq_ok.mp h
  obtain ⟨hs', heq⟩ := marshal_text_eq_ok.mp h'
  rw [toUtf8_ofFields] at hs hs'
  obtain ⟨w, hw, hsame⟩ := sameMembers_iff.mp ((writeCanonical_eq_iff hs hs').mp heq.symm).2
    (lit name, v.toUtf8) (mem_repaired hv)
  obtain ⟨f, hf, heq⟩ := List.mem_map.mp ((lookup_eq_some_iff hs'.uniqueKeys).mp hw)
  obtain ⟨hname, rfl⟩ := Prod.mk.inj heq
  obtain rfl := lit_inj.mp hname
  exact ⟨f.2, hf, hsame⟩

theorem eq_of_perm_of_sublist {α β : Type} [DecidableEq α] {names : List α} (hnames : names.Nodup)
    {l l' : List (α × β)} (hl : (l.map Prod.fst).Sublist names)
    (hl' : (l'.map Prod.fst).Sublist names) (h : l.Perm l') : l = l' := by
  have hidx : names.Pairwise fun a b => names.idxOf a < names.idxOf b := by
    rw [List.pairwise_iff_getElem]
    intro i j hi hj hij
    rwa [hnames.idxOf_getElem i hi, hnames.idxOf_getElem j hj]
  have hpairwise {l : List (α × β)} (hl : (l.map Prod.fst).Sublist names) :
      l.Pairwise fun a b => names.idxOf a.1 < names.idxOf b.1 := by
    have := hidx.sublist hl
    rwa [List.pairwise_map] at this
  exact h.eq_of_pairwise (fun a b _ _ hab hba => absurd hba hab.asymm) (hpairwise hl)
    (hpairwise hl')

/-- **A struct can be read off its canonical form**: fields that may be left out are left out alike,
if all strings are UTF-8 and the values are written in the order of their names. -/
theorem fields_eq_of_marshal {names : List String} (hnames : names.Nodup)
    (hsub : (fields.map Prod.fst).Sublist names) (hsub' : (fields'.map Prod.fst).Sublist names)
    (hutf8 : ∀ f ∈ fields, f.2.toUtf8 = f.2) (hutf8' : ∀ f ∈ fields', f.2.toUtf8 = f.2)
    (hsorted : ∀ f ∈ fields, sorted f.2 = f.2) (hsorted' : ∀ f ∈ fields', sorted f.2 = f.2)
    (h : marshal (Value.ofFields fields).text = .ok b)
    (h' : marshal (Value.ofFields fields').text = .ok b) : fields = fields' := by
  obtain ⟨hs, rfl⟩ := marshal_text_eq_ok.mp h
  obtain ⟨hs', heq⟩ := marshal_text_eq_ok.mp h'
  rw [toUtf8_ofFields] at hs hs'
  have hplain {l : List (String × Value)} (hutf8 : ∀ f ∈ l, f.2.toUtf8 = f.2)
      (hsorted : ∀ f ∈ l, sorted f.2 = f.2) :
      sortedMembers (repaired l) = l.map fun f => (lit f.1, f.2) := by
    rw [sortedMembers_eq, repaired, List.map_map]
    refine List.map_congr_left fun f hf => ?_
    simp only [Function.comp_apply]
    rw [hutf8 f hf, hsorted f hf]
  have hsame := (sorted_eq_iff hs hs').mpr ((writeCanonical_eq_iff hs hs').mp heq.symm)
  rw [sorted, sorted, hplain hutf8 hsorted, hplain hutf8' hsorted', Value.obj.injEq,
    sortEntries_eq_iff (uniqueKeys_ofFields (hnames.sublist hsub))] at hsame
  refine eq_of_perm_of_sublist hnames hsub hsub' ?_
  exact (List.map_perm_map_iff fun a b hab => by
    obtain ⟨hname, hvalue⟩ := Prod.mk.inj hab
    exact Prod.ext (lit_inj.mp hname) hvalue).mp hsame

/-! ### Signature inputs -/

/-- The signature input of the struct with the given fields. -/
def signedBytes (t : Str) (fields : List (String × Value)) : Bytes :=
  signaturePrefix ++ t ++ 0 :: writeCanonical (.obj (delete (repaired fields) (lit "signature")))

/-- **The signature input of what json.Marshal wrote.** -/
theorem signatureInput_text_eq_ok {t : Str} :
    signatureInput t (Value.ofFields fields).text = .ok b ↔
      Strict (Value.ofFields fields).toUtf8 ∧ b = signedBytes t fields := by
  rw [signatureInput_eq_ok]
  constructor
  · rintro ⟨m, hm, rfl⟩
    obtain ⟨hs, hv⟩ := parseStrict_text_iff.mp hm
    rw [toUtf8_ofFields] at hv
    obtain rfl := Value.obj.inj hv
    exact ⟨hs, rfl⟩
  · rintro ⟨hs, rfl⟩
    exact ⟨_, (parseStrict_text hs).trans (by rw [toUtf8_ofFields]), rfl⟩

theorem signatureInput_text (t : Str) (h : Strict (Value.ofFields fields).toUtf8) :
    signatureInput t (Value.ofFields fields).text = .ok (signedBytes t fields) :=
  signatureInput_text_eq_ok.mpr ⟨h, rfl⟩

/-- **What a signature input binds**: the type, and every field but the signature. -/
theorem signedBytes_binds {t t' : Str} (ht : 0 ∉ t) (ht' : 0 ∉ t')
    (hf : Strict (Value.ofFields fields).toUtf8) (hf' : Strict (Value.ofFields fields').toUtf8)
    (h : signedBytes t fields = signedBytes t' fields') :
    t = t' ∧ ∀ name v w, name ≠ "signature" → (name, v) ∈ fields → (name, w) ∈ fields' →
      Same v.toUtf8 w.toUtf8 := by
  rw [toUtf8_ofFields] at hf hf'
  rw [signedBytes, signedBytes, List.append_assoc, List.append_assoc,
    List.append_cancel_left_eq, append_nul_inj ht ht',
    writeCanonical_eq_iff (strict_delete hf _) (strict_delete hf' _)] at h
  refine ⟨h.1, fun name v w hname hv hw => ?_⟩
  -- a field with another name than the signature's survives the deletion
  have hmem : ∀ {l : List (String × Value)} {x}, (name, x) ∈ l →
      (lit name, x.toUtf8) ∈ delete (repaired l) (lit "signature") := fun hx =>
    List.mem_filter.mpr ⟨mem_repaired hx, by simpa using hname⟩
  exact h.2.member (strict_delete hf' (lit "signature")).uniqueKeys (hmem hv) (hmem hw)

end Canonical

end Iscp
