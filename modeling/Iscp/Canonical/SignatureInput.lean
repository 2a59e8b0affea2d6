import Iscp.Go.Result
import Iscp.Canonical.Write

/-!
# Signature inputs

The bytes a signature is made over: a fixed prefix, the type of the object, a NUL, and the
canonical form of the object without its `signature` member. The parser has made an
ordinary JSON text of the object first, so the input does not depend on how the object was
written; that it depends on everything else is `Iscp.Canonical.signatureInput_eq_iff`: the
type can be read off a signature input, as long as it has no NUL in it, and the object can
be read off as a value.
-/

namespace Iscp

namespace Canonical

open Go Go.Json

/-- **`Marshal`**: the canonical form of a JSON text. -/
def marshal (input : Bytes) : Except Error Bytes := (parseStrict input).map writeCanonical

/-- **`MarshalValue`**: the canonical form of a value. -/
def marshalValue (value : Value) : Except Error Bytes := .ok (writeCanonical value)

/-- The bytes every signature input starts with. -/
def signaturePrefix : Bytes := lit "ISCP-V2-SIGNATURE\x00"

/-- `delete(obj, key)`. -/
def delete (obj : List (Str × Value)) (key : Str) : List (Str × Value) :=
  obj.filter fun kv => kv.1 ≠ key

/-- **`SignatureInput`.** -/
def signatureInput (objectType : Str) (input : Bytes) : Except Error Bytes := do
  match ← parseStrict input with
  | .obj obj =>
    let canon ← marshalValue (.obj (delete obj (lit "signature")))
    return signaturePrefix ++ objectType ++ 0 :: canon
  | _ => throw (.new .canonicalInvalid (lit "signed object must be a json object"))

/-! ### Taking a signature input apart -/

theorem signatureInput_eq_ok {t : Str} {x s : Bytes} : signatureInput t x = .ok s ↔
    ∃ m, parseStrict x = .ok (.obj m) ∧
      s = signaturePrefix ++ t ++ 0 :: writeCanonical (.obj (delete m (lit "signature"))) := by
  rw [signatureInput, bind_eq_ok_iff]
  constructor
  · rintro ⟨v, hv, h⟩
    cases v with
    | obj m => exact ⟨m, hv, (Except.ok.inj h).symm⟩
    | _ => cases h
  · rintro ⟨m, hm, rfl⟩
    exact ⟨_, hm, rfl⟩

theorem strict_delete {m : List (Str × Value)} (h : Strict (.obj m)) (k : Str) :
    Strict (.obj (delete m k)) := by
  obtain _ | _ | _ | _ | _ | ⟨hk, hu, hv⟩ := h
  refine .obj (List.Nodup.sublist (List.filter_sublist.map _) hk)
    (fun kv hkv => hu kv (List.mem_of_mem_filter hkv))
    fun kv hkv => hv kv (List.mem_of_mem_filter hkv)

/-- A part without the separator is determined by the whole, and so is the rest. -/
theorem append_nul_inj {t₁ t₂ c₁ c₂ : Bytes} (h₁ : 0 ∉ t₁) (h₂ : 0 ∉ t₂) :
    t₁ ++ 0 :: c₁ = t₂ ++ 0 :: c₂ ↔ t₁ = t₂ ∧ c₁ = c₂ := by
  refine ⟨fun h => ?_, fun ⟨ht, hc⟩ => by rw [ht, hc]⟩
  induction t₁ generalizing t₂ with
  | nil =>
    cases t₂ with
    | nil => exact ⟨rfl, (List.cons.inj h).2⟩
    | cons b t₂ => exact absurd ((List.cons.inj h).1 ▸ List.mem_cons_self) h₂
  | cons b t₁ ih =>
    cases t₂ with
    | nil => exact absurd ((List.cons.inj h).1 ▸ List.mem_cons_self) h₁
    | cons b' t₂ =>
      obtain ⟨rfl, htail⟩ := List.cons.inj h
      obtain ⟨rfl, hc⟩ := ih (fun h => h₁ (List.mem_cons_of_mem _ h))
        (fun h => h₂ (List.mem_cons_of_mem _ h)) htail
      exact ⟨rfl, hc⟩

/-- **Signature inputs are unambiguous**: for types without a NUL, two signature inputs are
equal if and only if the types are and the objects are the same value once their
`signature` members are removed. -/
theorem signatureInput_eq_iff {t₁ t₂ : Str} (ht₁ : 0 ∉ t₁) (ht₂ : 0 ∉ t₂) {x₁ x₂ s₁ s₂ : Bytes}
    (h₁ : signatureInput t₁ x₁ = .ok s₁) (h₂ : signatureInput t₂ x₂ = .ok s₂) :
    s₁ = s₂ ↔ t₁ = t₂ ∧ ∃ m₁ m₂, parseStrict x₁ = .ok (.obj m₁) ∧ parseStrict x₂ = .ok (.obj m₂) ∧
      Same (.obj (delete m₁ (lit "signature"))) (.obj (delete m₂ (lit "signature"))) := by
  obtain ⟨m₁, hm₁, rfl⟩ := signatureInput_eq_ok.mp h₁
  obtain ⟨m₂, hm₂, rfl⟩ := signatureInput_eq_ok.mp h₂
  have hs₁ := strict_delete (strict_of_parseStrict hm₁) (lit "signature")
  have hs₂ := strict_delete (strict_of_parseStrict hm₂) (lit "signature")
  rw [List.append_assoc, List.append_assoc, List.append_cancel_left_eq, append_nul_inj ht₁ ht₂,
    writeCanonical_eq_iff hs₁ hs₂]
  refine and_congr_right fun _ => ⟨fun h => ⟨m₁, m₂, hm₁, hm₂, h⟩, ?_⟩
  rintro ⟨n₁, n₂, hn₁, hn₂, h⟩
  obtain rfl := Value.obj.inj (Except.ok.inj (hm₁.symm.trans hn₁))
  obtain rfl := Value.obj.inj (Except.ok.inj (hm₂.symm.trans hn₂))
  exact h

/-- Two texts of one object, differing in the order of the members, in white space and in
the signature. -/
theorem signatureInput_eq_iff_reordered : ∃ s,
    signatureInput (lit "t") (lit "\x7b\"b\":1, \"a\":[\"x\"], \"signature\":null\x7d") = .ok s ∧
      signatureInput (lit "t") (lit "\x7b\"a\":[\"x\"],\"b\":1\x7d") = .ok s := by
  obtain ⟨s₁, h₁⟩ : ∃ s, signatureInput (lit "t")
    (lit "\x7b\"b\":1, \"a\":[\"x\"], \"signature\":null\x7d") = .ok s := ⟨_, rfl⟩
  obtain ⟨s₂, h₂⟩ : ∃ s, signatureInput (lit "t") (lit "\x7b\"a\":[\"x\"],\"b\":1\x7d") = .ok s :=
    ⟨_, rfl⟩
  have hsame : Same (.obj [(lit "b", .int 1), (lit "a", .arr [.str (lit "x")])])
      (.obj [(lit "a", .arr [.str (lit "x")]), (lit "b", .int 1)]) :=
    ⟨rfl, ⟨_, rfl, rfl⟩, ⟨_, rfl, rfl, trivial⟩, trivial⟩
  have heq : s₁ = s₂ := (signatureInput_eq_iff (by decide) (by decide) h₁ h₂).mpr
    ⟨rfl, [(lit "b", .int 1), (lit "a", .arr [.str (lit "x")]), (lit "signature", .null)],
      [(lit "a", .arr [.str (lit "x")]), (lit "b", .int 1)], rfl, rfl, hsame⟩
  exact ⟨s₁, h₁, heq ▸ h₂⟩

end Canonical

end Iscp
