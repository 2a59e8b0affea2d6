import Iscp.Identity

/-!
# Signed types

Ten structs of the program are signed, all of them in one way. The signature is the last field. The
signing function leaves it empty, computes the signature input of the struct, and puts the signature
over it in. The verifier empties the field again and computes the input once more, from a struct it
has decoded from JSON.

`Iscp.SignedType` is such a struct: how it is written and read, field by field, and the signature
input its functions compute. Going through JSON keeps the input just if all times of the struct show
their zone (`Iscp.SignedType.input_transport_iff`): an offset is written in hours and minutes, and
without its minutes it is gone. After the first time nothing changes any more
(`Iscp.SignedType.exists_transports`).
-/

namespace Iscp

open Go Go.Json Crypto Canonical Identity

/-- A signature, from the field of a struct. -/
def Identity.Signature.ofField : FieldValue → Option Signature
  | .struct [(_, alg), (_, kid), (_, value)] => some ⟨alg, kid, value⟩
  | _ => none

/-- The field of a struct that is its signature. -/
def Identity.Signature.field (s : Signature) : StructField := ⟨"signature", false, s.toField⟩

/-- **A signed type**: a struct with a signature as its last field, and the signature input that is
computed for it. -/
structure SignedType (α : Type) where
  /-- The name the signature input starts with. -/
  typeName : Str
  /-- The fields, the signature apart. -/
  body : α → Record
  signature : α → Signature
  /-- The struct with another signature. -/
  withSignature : α → Signature → α
  /-- The struct with the given fields and signature. -/
  ofFields : Record → Signature → Option α
  /-- `signatureInput`. -/
  input : (Bytes → Option Bytes) → α → Except Error Bytes
  /-- The empty struct. -/
  zero : α
  nul_notMem : 0 ∉ typeName
  zero_body : ∀ x, (body x).zero = body zero
  signature_zero : signature zero = noSignature
  wellNamed : WellNamed (body zero ++ [noSignature.field])
  body_withSignature : ∀ x s, body (withSignature x s) = body x
  signature_withSignature : ∀ x s, signature (withSignature x s) = s
  exists_ofFields : ∀ compact x s, ∃ y, ofFields (refreshed compact (body x)) s = some y ∧
    body y = refreshed compact (body x) ∧ signature y = s
  input_eq_ok : ∀ {compact x s}, input compact x = .ok s ↔
    structInput compact typeName (body x ++ [(signature x).field]) = .ok s

namespace SignedType

variable {α : Type} (K : SignedType α)

/-- The struct, with its signature. -/
def record (x : α) : Record := K.body x ++ [(K.signature x).field]

/-- The struct without its signature, which its functions compute the input of. -/
def unsigned (x : α) : α := K.withSignature x noSignature

/-- The struct that has been read into the fields. -/
def ofRecord (r : Record) : Option α := do
  let f ← r.getLast?
  let s ← Signature.ofField f.value
  K.ofFields r.dropLast s

/-- **`json.Unmarshal`** into a new struct. -/
def decode (b : Bytes) : Option α := do
  let r ← (K.record K.zero).unmarshal b
  K.ofRecord r

/-- The struct is written and read. -/
def transport (compact : Bytes → Option Bytes) (x : α) : Option α :=
  match (K.record x).marshal compact with
  | .ok b => K.decode b
  | .error _ => none

/-- The struct is written and read any number of times. -/
def transports (compact : Bytes → Option Bytes) : ℕ → α → Option α
  | 0, x => some x
  | n + 1, x => (K.transport compact x).bind (transports compact n)

/-- The times of the struct show their zones. -/
def ShowsZones (x : α) : Prop := ∀ f ∈ K.body x, ShowsZone f.value

/-- **The signature step of a verifier.** -/
def Passes (compact : Bytes → Option Bytes) (P : Primitives) (signer : DeviceIdentity)
    (x : α) : Prop :=
  ∃ pub sig input, decodeBase64URL signer.publicKey.pub = .ok (Ed25519PublicKey.key pub) ∧
    decodeBase64URL (K.signature x).value = .ok sig ∧
    K.input compact (K.unsigned x) = .ok input ∧ verify P pub input sig = true

/-- What verifiers do at their end. -/
def signatureStep (compact : Bytes → Option Bytes) (P : Primitives) (signer : DeviceIdentity)
    (x : α) (failure : Error) : Except Error Unit := do
  let pubBytes ← decodeBase64URL signer.publicKey.pub
  let pub ← ed25519PublicKeyFromBytes pubBytes
  let sig ← decodeBase64URL (K.signature x).value
  let input ← K.input compact (K.unsigned x)
  failIf (verify P pub input sig = false) failure

variable {x : α}

theorem signatureStep_eq_ok {compact : Bytes → Option Bytes} {P : Primitives}
    {signer : DeviceIdentity} {failure : Error} {u : Unit} :
    K.signatureStep compact P signer x failure = .ok u ↔ K.Passes compact P signer x := by
  simp only [signatureStep, bind_eq_ok_iff, failIf_eq_ok_iff, Bool.not_eq_false,
    ed25519PublicKeyFromBytes_eq_ok]
  constructor
  · rintro ⟨_, hpub, pub, rfl, sig, hsig, input, hinput, hverify⟩
    exact ⟨pub, sig, input, hpub, hsig, hinput, hverify⟩
  · rintro ⟨pub, sig, input, hpub, hsig, hinput, hverify⟩
    exact ⟨_, hpub, pub, rfl, sig, hsig, input, hinput, hverify⟩

/-- **The struct as a JSON value**, by its members. -/
def Encoded (compact : Bytes → Option Bytes) (x : α) (m : List (Str × Value)) : Prop :=
  ∃ b, (K.record x).marshal compact = .ok b ∧ parseStrict b = .ok (.obj m)

/-- **The signature survives**: however often the struct is written and read, its signature input
stays as it is, and the signature step passes. -/
def Survives (compact : Bytes → Option Bytes) (P : Primitives) (signer : DeviceIdentity)
    (x : α) : Prop :=
  ∀ n, ∃ y, K.transports compact n x = some y ∧
    K.input compact (K.unsigned y) = K.input compact (K.unsigned x) ∧ K.Passes compact P signer y

/-- **The signature input binds every field**: structs with one input are the same as JSON values,
but for the signature. -/
def Binds (compact : Bytes → Option Bytes) : Prop :=
  ∀ x y m m' s, K.Encoded compact x m → K.Encoded compact y m' →
    K.input compact (K.unsigned x) = .ok s → K.input compact (K.unsigned y) = .ok s →
    Same (.obj (delete m (lit "signature"))) (.obj (delete m' (lit "signature")))

/-! ### The fields of a signed type -/

theorem zero_record (x : α) : (K.record x).zero = K.record K.zero := by
  have hzero := K.zero_body x
  rw [Record.zero] at hzero
  rw [record, record, Record.zero, List.map_append, hzero, K.signature_zero]
  rfl

theorem wellNamed_of_zero {r : Record} (h : WellNamed r.zero) : WellNamed r := by
  obtain ⟨hnames, hstructs⟩ := h
  refine ⟨?_, fun f hf fields hfields => ?_⟩
  · rw [Record.zero, List.map_map] at hnames
    exact hnames
  · have hzero := hstructs _ (List.mem_map_of_mem hf)
    simpa [Function.comp_def] using hzero (fields.map fun g => (g.1, [])) (by simp [hfields,
      FieldValue.zero])

theorem wellNamed_record (x : α) : WellNamed (K.record x) := by
  refine wellNamed_of_zero ?_
  rw [K.zero_record, record, K.signature_zero]
  exact K.wellNamed

theorem name_ne_of_mem_body {f : StructField} (hf : f ∈ K.body x) : f.name ≠ "signature" := by
  intro hname
  have hnames := (K.wellNamed_record x).names
  rw [record, List.map_append] at hnames
  refine List.disjoint_of_nodup_append hnames (List.mem_map_of_mem hf) ?_
  rw [hname]
  exact List.mem_singleton.mpr rfl

theorem hasSignature_record (x : α) : HasSignature (K.record x) := by
  intro f hf hname
  obtain hf | hf := List.mem_append.mp hf
  · exact absurd hname (K.name_ne_of_mem_body hf)
  · obtain rfl := List.mem_singleton.mp hf
    exact ⟨_, rfl⟩

/-- **Emptying the signature** empties its field, and no other. -/
theorem record_unsigned (x : α) : K.record (K.unsigned x) = Canonical.unsigned (K.record x) := by
  have hbody : (K.body x).map unsignedField = K.body x := by
    refine (List.map_congr_left fun f hf => ?_).trans (List.map_id _)
    exact if_neg (K.name_ne_of_mem_body hf)
  rw [record, record, unsigned, K.body_withSignature, K.signature_withSignature,
    Canonical.unsigned, List.map_append, hbody]
  rfl

/-! ### The signature input of a signed type -/

section Input

variable {K} {compact : Bytes → Option Bytes} (hc : Compacts compact) {x : α} {s : Bytes}

include hc

theorem input_unsigned_eq_ok : K.input compact (K.unsigned x) = .ok s ↔
    structInput compact K.typeName (K.record x) = .ok s := by
  rw [K.input_eq_ok]
  change structInput compact K.typeName (K.record (K.unsigned x)) = .ok s ↔ _
  rw [K.record_unsigned, structInput_unsigned hc (K.wellNamed_record x) (K.hasSignature_record x)]

theorem exists_encoded (hx : K.input compact (K.unsigned x) = .ok s) :
    ∃ m, K.Encoded compact x m := by
  have hinput := (input_unsigned_eq_ok hc).mp hx
  simp only [structInput, bind_eq_ok_iff, mapError_eq_ok_iff, signatureInput_eq_ok] at hinput
  obtain ⟨b, hb, m, hparse, -⟩ := hinput
  exact ⟨m, b, hb, hparse⟩

theorem Encoded.input_eq {m : List (Str × Value)} (hm : K.Encoded compact x m)
    (hx : K.input compact (K.unsigned x) = .ok s) :
    Denoted (K.record x) m ∧ UniqueKeys m ∧ s = membersInput K.typeName m := by
  obtain ⟨b, hb, hparse⟩ := hm
  obtain ⟨xs, hxs, rfl⟩ := Record.marshal_eq_ok_iff.mp hb
  obtain ⟨m', hm', hdenoted, -⟩ := denoted_of_parseStrict hc hxs hparse
  obtain rfl := Value.obj.inj hm'
  have hk := (strict_of_parseStrict hparse).uniqueKeys
  have hinput : structInput compact K.typeName (K.record x) = .ok (membersInput K.typeName m) :=
    (structInput_eq_ok_iff hc).mpr ⟨m, hdenoted, hk, rfl⟩
  exact ⟨hdenoted, hk, Except.ok.inj (((input_unsigned_eq_ok hc).mp hx).symm.trans hinput)⟩

/-- **The signature input binds every field.** -/
theorem binds : K.Binds compact := by
  intro x y m m' s hm hm' hx hy
  obtain ⟨hdenoted, hk, rfl⟩ := hm.input_eq hc hx
  obtain ⟨hdenoted', hk', heq⟩ := hm'.input_eq hc hy
  exact (same_of_structInput_eq hc K.nul_notMem K.nul_notMem hdenoted hk hdenoted' hk' heq).2

end Input

/-! ### Going through JSON -/

section Transport

variable {K} {compact : Bytes → Option Bytes} (hc : Compacts compact) {x : α} {s : Bytes}

include hc

/-- **A struct that can be signed goes through JSON**: its fields and its signature come back as
they have been written. -/
theorem exists_transport (h : K.input compact (K.unsigned x) = .ok s) :
    ∃ y, K.transport compact x = some y ∧ K.body y = refreshed compact (K.body x) ∧
      (K.signature y).value = toUtf8 (K.signature x).value ∧
      structInput compact K.typeName (K.record y) =
        structInput compact K.typeName (refreshed compact (K.record x)) := by
  obtain ⟨m, b, hb, hparse⟩ := exists_encoded hc h
  have hread := unmarshal_marshal hc (K.wellNamed_record x) hb hparse
  rw [K.zero_record] at hread
  have hrefreshed : refreshed compact (K.record x) =
      refreshed compact (K.body x) ++ [refreshedField compact (K.signature x).field] := by
    rw [record, refreshed, List.map_append]
    rfl
  obtain ⟨y, hy, hbody, hsignature⟩ := K.exists_ofFields compact x
    ⟨toUtf8 (K.signature x).alg, toUtf8 (K.signature x).kid, toUtf8 (K.signature x).value⟩
  refine ⟨y, ?_, hbody, by rw [hsignature], ?_⟩
  · rw [transport, hb]
    change K.decode b = some y
    rw [decode, hread, hrefreshed]
    change K.ofRecord _ = some y
    rw [ofRecord, List.getLast?_concat, List.dropLast_concat]
    exact hy
  · have hrecord : K.record y = refreshed compact (K.record x) := by
      rw [hrefreshed, record, hbody, hsignature]
      rfl
    rw [hrecord]

/-- **The signature input after a transport is the one before just if all times show their
zones.** -/
theorem input_transport_iff {y : α} (h : K.input compact (K.unsigned x) = .ok s)
    (hy : K.transport compact x = some y) :
    K.input compact (K.unsigned y) = .ok s ↔ K.ShowsZones x := by
  obtain ⟨y', hy', -, -, hrecord⟩ := exists_transport hc h
  obtain rfl := Option.some.inj (hy'.symm.trans hy)
  have hsignature : ShowsZone (K.signature x).field.value := fun t ht => by cases ht
  rw [input_unsigned_eq_ok hc, hrecord, structInput_refreshed_iff hc K.nul_notMem ?_
    ((input_unsigned_eq_ok hc).mp h)]
  · simp only [record, List.mem_append, List.mem_singleton, or_imp, forall_and, forall_eq,
      hsignature, and_true]
    rfl
  · intro f hf hname
    obtain hf | hf := List.mem_append.mp hf
    · exact absurd hname (K.name_ne_of_mem_body hf)
    · exact List.mem_singleton.mp hf ▸ hsignature

theorem showsZones_of_transport {y : α} (h : K.input compact (K.unsigned x) = .ok s)
    (hy : K.transport compact x = some y) : K.ShowsZones y := by
  obtain ⟨y', hy', hbody, -⟩ := exists_transport hc h
  obtain rfl := Option.some.inj (hy'.symm.trans hy)
  intro f hf
  rw [hbody] at hf
  obtain ⟨g, -, rfl⟩ := List.mem_map.mp hf
  exact showsZone_refreshedField compact g

/-- **A struct goes through JSON any number of times**, with its signature input. -/
theorem exists_transports (h : K.input compact (K.unsigned x) = .ok s) (hx : K.ShowsZones x)
    (hvalue : Utf8 (K.signature x).value) (n : ℕ) :
    ∃ y, K.transports compact n x = some y ∧ K.input compact (K.unsigned y) = .ok s ∧
      (K.signature y).value = (K.signature x).value := by
  induction n generalizing x with
  | zero => exact ⟨x, rfl, h, rfl⟩
  | succ n ih =>
    obtain ⟨y, hy, -, hsignature, -⟩ := exists_transport hc h
    rw [toUtf8_eq_self hvalue] at hsignature
    obtain ⟨z, hz, hinput, hvalues⟩ := ih ((input_transport_iff hc h hy).mpr hx)
      (showsZones_of_transport hc h hy) (hsignature ▸ hvalue)
    exact ⟨z, by rw [transports, hy]; exact hz, hinput, hvalues.trans hsignature⟩

end Transport

/-! ### Signed structs -/

/-- **The struct has been signed** with the key of a device. -/
def SignedBy (compact : Bytes → Option Bytes) (P : Primitives) (signer : Device) (x : α) : Prop :=
  ∃ input, K.input compact (K.unsigned x) = .ok input ∧
    (K.signature x).value = base64URL (sign P signer.priv input)

variable {K} {compact : Bytes → Option Bytes} {P : Primitives}

/-- **The signature of a struct survives just if the times of the struct show their zones.** -/
theorem SignedBy.survives_iff_body (hc : Compacts compact) (hs : P.SignsVerifiably)
    {signer : Device} (hsigner : Made P signer) (hx : K.SignedBy compact P signer x) :
    K.Survives compact P signer.identity x ↔ K.ShowsZones x := by
  obtain ⟨input, hinput, hvalue⟩ := hx
  constructor
  · intro h
    obtain ⟨y, hy, hsame, -⟩ := h 1
    obtain ⟨y', hy', -⟩ := exists_transport hc hinput
    rw [transports, hy'] at hy
    cases hy
    exact (input_transport_iff hc hinput hy').mp (hsame.trans hinput)
  · intro hzones n
    obtain ⟨y, hy, hinput', hvalue'⟩ := exists_transports hc hinput hzones
      (hvalue ▸ utf8_base64URL _) n
    refine ⟨y, hy, hinput'.trans hinput.symm, publicKey signer.priv, _, input, hsigner.decode_pub,
      ?_, hinput', hsigner.verify_sign hs input⟩
    rw [hvalue', hvalue, decodeBase64URL_base64URL]

end SignedType

end Iscp
