import Iscp.Crypto
import Iscp.Go.Rfc3339
import Iscp.Canonical.Struct

/-!
# The audit chain

An entry of the audit log carries the hash of the entry before it. The hash of an entry is that of
the canonical form of its JSON, and what the canonical form binds is the JSON itself
(`Iscp.Audit.marshalJSON_eq_of_sameHash`), the hash of the entry before it included. So whoever
knows the hash of the last entry knows the whole chain (`Iscp.Audit.audit_chain_binds`): an entry
that is changed, left out, put in or moved shows, and so does the end of the log being cut off.

That the beginning shows too is owed to the first entry: it has no hash of another one, and this is
told from having one, because no hash is empty.
-/

namespace Iscp

/-! ### Chains -/

/-- **A chain, and its last element**: the first one is a first one, and each other one is linked to
the one before it. -/
inductive Chain {α : Type} (First : α → Prop) (Link : α → α → Prop) : List α → α → Prop where
  | single {e : α} (h : First e) : Chain First Link [e] e
  | snoc {l : List α} {p e : α} (h : Chain First Link l p) (hlink : Link p e) :
      Chain First Link (l ++ [e]) e

/-- **Chains agree if their last elements do**: of elements that agree both are first ones or both
are linked, and then the elements they are linked to agree. -/
theorem Chain.forall₂ {α : Type} {First : α → Prop} {Link : α → α → Prop} {Agree : α → α → Prop}
    (hfirst : ∀ {p e e'}, Agree e e' → First e → ¬Link p e')
    (hfirst' : ∀ {p e e'}, Agree e e' → Link p e → ¬First e')
    (hlink : ∀ {p p' e e'}, Agree e e' → Link p e → Link p' e' → Agree p p')
    {l l' : List α} {e e' : α} (h : Chain First Link l e) (h' : Chain First Link l' e')
    (hagree : Agree e e') : List.Forall₂ Agree l l' := by
  induction h generalizing l' e' with
  | single hone =>
    cases h' with
    | single hone' => exact .cons hagree .nil
    | snoc _ hlink' => exact absurd hlink' (hfirst hagree hone)
  | snoc h hlinked ih =>
    cases h' with
    | single hone' => exact absurd hone' (hfirst' hagree hlinked)
    | snoc h' hlinked' =>
      exact List.rel_append (ih h' (hlink hagree hlinked hlinked')) (.cons hagree .nil)

namespace Audit

open Go Go.Json Crypto Canonical

/-! ### Entries -/

/-- **`Entry`.** -/
structure Entry where
  domainID : Str
  eventType : Str
  actorID : Str
  subjectID : Str
  metadata : List (Str × Str)
  previousHash : Str
  createdAt : Time
  deriving DecidableEq

/-- A member that is left out if it is empty. -/
def omitEmpty (name : String) (s : Str) : List (String × Value) :=
  if s = [] then [] else [(name, .str s)]

/-- The JSON value of the metadata. -/
def Entry.metadataValue (e : Entry) : Value :=
  .obj (sortEntries (e.metadata.map fun kv => (kv.1, .str kv.2)))

/-- The members of an entry's JSON. -/
def Entry.fields (e : Entry) : List (String × Value) :=
  [("domain_id", .str e.domainID), ("event_type", .str e.eventType)] ++
    omitEmpty "actor_id" e.actorID ++ omitEmpty "subject_id" e.subjectID ++
    (if e.metadata = [] then [] else [("metadata", e.metadataValue)]) ++
    omitEmpty "previous_hash" e.previousHash ++
    [("created_at", .str e.createdAt.rfc3339Nano)]

/-- `json.Marshal` of an entry. -/
def Entry.marshalJSON (e : Entry) : Except Error Bytes := do
  failIf (¬e.createdAt.Marshals) (.plain e.createdAt.marshalErrorText)
  return (Value.ofFields e.fields).text

/-- **`HashEntry`.** -/
def hashEntry (P : Primitives) (e : Entry) : Except Error Bytes := do
  let b ← e.marshalJSON
  let canon ← marshal b
  return P.sha256 canon

/-- The names of the members of an entry. -/
def entryNames : List String :=
  ["domain_id", "event_type", "actor_id", "subject_id", "metadata", "previous_hash", "created_at"]

theorem map_fst_omitEmpty (name : String) (s : Str) :
    ((omitEmpty name s).map Prod.fst).Sublist [name] := by
  rw [omitEmpty]
  split_ifs
  · exact List.nil_sublist _
  · exact List.Sublist.refl _

theorem Entry.names_sublist (e : Entry) : (e.fields.map Prod.fst).Sublist entryNames := by
  have hmetadata : ((if e.metadata = [] then [] else [("metadata", e.metadataValue)]).map
      Prod.fst).Sublist ["metadata"] := by
    split_ifs
    · exact List.nil_sublist _
    · exact List.Sublist.refl _
  simp only [fields, List.map_append]
  exact ((((List.Sublist.refl ["domain_id", "event_type"]).append
    (map_fst_omitEmpty "actor_id" _)).append (map_fst_omitEmpty "subject_id" _)).append
    hmetadata).append (map_fst_omitEmpty "previous_hash" _) |>.append (List.Sublist.refl _)

/-- **The text of an entry is UTF-8.** -/
structure Entry.ValidText (e : Entry) : Prop where
  domainID : Utf8 e.domainID
  eventType : Utf8 e.eventType
  actorID : Utf8 e.actorID
  subjectID : Utf8 e.subjectID
  metadata : ∀ kv ∈ e.metadata, Utf8 kv.1 ∧ Utf8 kv.2
  previousHash : Utf8 e.previousHash

variable {f : String × Value}

theorem mem_omitEmpty {name : String} {s : Str} :
    f ∈ omitEmpty name s ↔ s ≠ [] ∧ f = (name, .str s) := by
  rw [omitEmpty]
  split_ifs with h
  · simp [h]
  · simp [h]

theorem Entry.mem_fields {e : Entry} (h : f ∈ e.fields) :
    (∃ s ∈ [e.domainID, e.eventType, e.actorID, e.subjectID, e.previousHash,
      e.createdAt.rfc3339Nano], f.2 = .str s) ∨ f.2 = e.metadataValue := by
  simp only [fields, List.mem_append, mem_omitEmpty, List.mem_cons, List.not_mem_nil,
    or_false] at h
  rcases h with (((((rfl | rfl) | ⟨-, rfl⟩) | ⟨-, rfl⟩) | h) | ⟨-, rfl⟩) | rfl
  case inl.inl.inr =>
    split_ifs at h
    · cases h
    · exact .inr (List.mem_singleton.mp h ▸ rfl)
  all_goals exact .inl ⟨_, by simp, rfl⟩

/-- **The values are written as they are**, and in the order of their names. -/
theorem Entry.ValidText.plain {e : Entry} (h : e.ValidText) :
    ∀ f ∈ e.fields, f.2.toUtf8 = f.2 ∧ sorted f.2 = f.2 := by
  intro f hf
  rcases Entry.mem_fields hf with ⟨s, hs, hf⟩ | hf
  · have hutf8 : Utf8 s := by
      simp only [List.mem_cons, List.not_mem_nil, or_false] at hs
      rcases hs with rfl | rfl | rfl | rfl | rfl | rfl
      · exact h.domainID
      · exact h.eventType
      · exact h.actorID
      · exact h.subjectID
      · exact h.previousHash
      · exact e.createdAt.utf8_rfc3339Nano
    rw [hf, Value.toUtf8, toUtf8_eq_self hutf8, sorted]
    exact ⟨rfl, rfl⟩
  · have hmetadata : ∀ kv ∈ sortEntries (e.metadata.map fun kv => (kv.1, Value.str kv.2)),
        (Go.toUtf8 kv.1, kv.2.toUtf8) = kv ∧ (kv.1, sorted kv.2) = kv := by
      intro kv hkv
      obtain ⟨kv, hmem, rfl⟩ := List.mem_map.mp (mem_sortEntries.mp hkv)
      obtain ⟨hk, hv⟩ := h.metadata kv hmem
      rw [Value.toUtf8, toUtf8_eq_self hk, toUtf8_eq_self hv, sorted]
      exact ⟨rfl, rfl⟩
    rw [hf, metadataValue, Value.toUtf8_obj, sorted, sortedMembers_eq,
      List.map_congr_left fun kv hkv => (hmetadata kv hkv).1,
      List.map_congr_left fun kv hkv => (hmetadata kv hkv).2, List.map_id', sortEntries_idem]
    exact ⟨rfl, rfl⟩

/-! ### Hashes -/

variable {P : Primitives} {e e' : Entry}

theorem hashEntry_eq_ok {d : Bytes} : hashEntry P e = .ok d ↔ e.createdAt.Marshals ∧
    ∃ canon, marshal (Value.ofFields e.fields).text = .ok canon ∧ P.sha256 canon = d := by
  simp only [hashEntry, Entry.marshalJSON, bind_eq_ok_iff, failIf_eq_ok_iff, exists_const, not_not]
  constructor
  · rintro ⟨_, ⟨hmarshals, ⟨⟩⟩, canon, hcanon, ⟨⟩⟩
    exact ⟨hmarshals, canon, hcanon, rfl⟩
  · rintro ⟨hmarshals, canon, hcanon, rfl⟩
    exact ⟨_, ⟨hmarshals, rfl⟩, canon, hcanon, rfl⟩

/-- **Two entries have one hash.** -/
def SameHash (P : Primitives) (e e' : Entry) : Prop :=
  ∃ d, hashEntry P e = .ok d ∧ hashEntry P e' = .ok d

theorem SameHash.symm (h : SameHash P e e') : SameHash P e' e := by
  obtain ⟨d, h, h'⟩ := h
  exact ⟨d, h', h⟩

theorem SameHash.exists_canonical (hinj : Function.Injective P.sha256) (h : SameHash P e e') :
    ∃ canon, marshal (Value.ofFields e.fields).text = .ok canon ∧
      marshal (Value.ofFields e'.fields).text = .ok canon := by
  obtain ⟨d, h, h'⟩ := h
  obtain ⟨-, canon, hcanon, rfl⟩ := hashEntry_eq_ok.mp h
  obtain ⟨-, canon', hcanon', hd⟩ := hashEntry_eq_ok.mp h'
  obtain rfl := hinj hd
  exact ⟨canon', hcanon, hcanon'⟩

/-- **A hash binds the JSON of an entry**, if its text is UTF-8. -/
theorem marshalJSON_eq_of_sameHash (hinj : Function.Injective P.sha256) (h : SameHash P e e')
    (htext : e.ValidText) (htext' : e'.ValidText) :
    ∃ b, e.marshalJSON = .ok b ∧ e'.marshalJSON = .ok b := by
  obtain ⟨canon, hcanon, hcanon'⟩ := h.exists_canonical hinj
  have hfields : e.fields = e'.fields :=
    fields_eq_of_marshal (by decide) e.names_sublist e'.names_sublist
      (fun f hf => (htext.plain f hf).1) (fun f hf => (htext'.plain f hf).1)
      (fun f hf => (htext.plain f hf).2) (fun f hf => (htext'.plain f hf).2) hcanon hcanon'
  obtain ⟨d, h, h'⟩ := h
  have hmarshal {e : Entry} (h : hashEntry P e = .ok d) :
      e.marshalJSON = .ok (Value.ofFields e.fields).text :=
    bind_eq_ok_iff.mpr ⟨(), failIf_eq_ok_iff.mpr (not_not.mpr (hashEntry_eq_ok.mp h).1), rfl⟩
  exact ⟨_, hmarshal h, hfields ▸ hmarshal h'⟩

theorem previousHash_mem_fields {v : Value} : ("previous_hash", v) ∈ e.fields ↔
    e.previousHash ≠ [] ∧ v = .str e.previousHash := by
  have hmetadata : ("previous_hash", v) ∉
      if e.metadata = [] then [] else [("metadata", e.metadataValue)] := by
    split_ifs <;> simp
  simp [Entry.fields, mem_omitEmpty, hmetadata]

/-- **A hash binds the hash of the entry before**, and whether there is one. -/
theorem SameHash.previousHash (hinj : Function.Injective P.sha256) (h : SameHash P e e')
    (hne : e.previousHash ≠ []) :
    e'.previousHash ≠ [] ∧ toUtf8 e.previousHash = toUtf8 e'.previousHash := by
  obtain ⟨canon, hcanon, hcanon'⟩ := h.exists_canonical hinj
  obtain ⟨w, hw, hsame⟩ := exists_field_of_marshal hcanon hcanon'
    (previousHash_mem_fields.mpr ⟨hne, rfl⟩)
  obtain ⟨hne', rfl⟩ := previousHash_mem_fields.mp hw
  exact ⟨hne', hsame⟩

/-! ### Chains of entries -/

/-- The first entry has no hash of another one. -/
def IsFirst (e : Entry) : Prop := e.previousHash = []

/-- An entry has the hash of the one before it. -/
def Follows (P : Primitives) (p e : Entry) : Prop :=
  ∃ d, hashEntry P p = .ok d ∧ e.previousHash = base64URL d

theorem Follows.previousHash_ne (hne : ∀ b, P.sha256 b ≠ []) {p : Entry} (h : Follows P p e) :
    e.previousHash ≠ [] := by
  obtain ⟨d, hd, hprevious⟩ := h
  obtain ⟨-, canon, -, rfl⟩ := hashEntry_eq_ok.mp hd
  rw [hprevious]
  exact fun hnil => hne canon (base64URL_injective (hnil.trans (show [] = base64URL [] from rfl)))

/-- **The last hash of a chain binds all of it**: chains whose last entries have one hash have the
same length, and entries with the same JSON. -/
theorem audit_chain_binds (hinj : Function.Injective P.sha256) (hne : ∀ b, P.sha256 b ≠ [])
    {l l' : List Entry} {e e' : Entry} (hchain : Chain IsFirst (Follows P) l e)
    (hchain' : Chain IsFirst (Follows P) l' e') (htext : ∀ x ∈ l, x.ValidText)
    (htext' : ∀ x ∈ l', x.ValidText) {d : Bytes} (h : hashEntry P e = .ok d)
    (h' : hashEntry P e' = .ok d) :
    l.length = l'.length ∧
      List.Forall₂ (fun x x' => ∃ b, x.marshalJSON = .ok b ∧ x'.marshalJSON = .ok b) l l' := by
  have hall : List.Forall₂ (SameHash P) l l' := by
    refine hchain.forall₂ ?_ ?_ ?_ hchain' ⟨d, h, h'⟩
    · intro p x x' hsame hfirst hfollows
      exact (hsame.symm.previousHash hinj (hfollows.previousHash_ne hne)).1 hfirst
    · intro p x x' hsame hfollows hfirst
      exact (hsame.previousHash hinj (hfollows.previousHash_ne hne)).1 hfirst
    · rintro p p' x x' hsame hfollows ⟨d', hd', hprevious'⟩
      obtain ⟨-, hbytes⟩ := hsame.previousHash hinj (hfollows.previousHash_ne hne)
      obtain ⟨d, hd, hprevious⟩ := hfollows
      rw [hprevious, hprevious', toUtf8_eq_self (utf8_base64URL _),
        toUtf8_eq_self (utf8_base64URL _)] at hbytes
      exact ⟨d, hd, base64URL_injective hbytes ▸ hd'⟩
  refine ⟨hall.length_eq, ?_⟩
  clear hchain hchain'
  induction hall with
  | nil => exact .nil
  | cons hsame _ ih =>
    rw [List.forall_mem_cons] at htext htext'
    exact .cons (marshalJSON_eq_of_sameHash hinj hsame htext.1 htext'.1) (ih htext.2 htext'.2)

/-- A login, logged after the entry of hash `previousHash`. -/
def exampleEntry (previousHash : Str) : Entry where
  domainID := lit "example.test"
  eventType := lit "login"
  actorID := lit "a"
  subjectID := []
  metadata := [(lit "ip", lit "::1")]
  previousHash := previousHash
  createdAt := ⟨0, 0⟩

theorem exists_hashEntry_exampleEntry (previousHash : Str) :
    ∃ d, hashEntry .transparent (exampleEntry previousHash) = .ok d := by
  have hnodup : ((exampleEntry previousHash).fields.map Prod.fst).Nodup :=
    (show entryNames.Nodup by decide).sublist (Entry.names_sublist _)
  have hmetadata : Strict (exampleEntry previousHash).metadataValue.toUtf8 := by
    refine (show Strict (.obj [(toUtf8 (lit "ip"), .str (toUtf8 (lit "::1")))]) from .obj ?_ ?_ ?_)
    · exact List.nodup_singleton _
    · simp
    · simpa using Strict.str (utf8_lit "::1")
  have hmarshals : (exampleEntry previousHash).createdAt.Marshals :=
    show Time.Marshals ⟨0, 0⟩ by decide
  refine ⟨_, hashEntry_eq_ok.mpr ⟨hmarshals, _, marshal_text_eq_ok.mpr
    ⟨strict_toUtf8_ofFields hnodup fun f hf => ?_, rfl⟩, rfl⟩⟩
  rcases Entry.mem_fields hf with ⟨s, -, hf⟩ | hf
  · rw [hf]
    exact strict_toUtf8_str s
  · rw [hf]
    exact hmetadata

theorem validText_exampleEntry {previousHash : Str} (h : Utf8 previousHash) :
    (exampleEntry previousHash).ValidText where
  domainID := utf8_lit _
  eventType := utf8_lit _
  actorID := utf8_lit _
  subjectID := utf8_lit ""
  metadata := by simp [exampleEntry]
  previousHash := h

/-- A chain of two entries has nothing but itself to be taken for. -/
theorem audit_chain_binds_two : ∃ d₀ d₁,
    hashEntry .transparent (exampleEntry []) = .ok d₀ ∧
    hashEntry .transparent (exampleEntry (base64URL d₀)) = .ok d₁ ∧
    ∀ l e, Chain IsFirst (Follows .transparent) l e → (∀ x ∈ l, x.ValidText) →
      hashEntry .transparent e = .ok d₁ → l.length = 2 := by
  obtain ⟨d₀, h₀⟩ := exists_hashEntry_exampleEntry []
  obtain ⟨d₁, h₁⟩ := exists_hashEntry_exampleEntry (base64URL d₀)
  have hchain : Chain IsFirst (Follows .transparent)
      [exampleEntry [], exampleEntry (base64URL d₀)] (exampleEntry (base64URL d₀)) :=
    Chain.snoc (Chain.single (show IsFirst (exampleEntry []) from rfl)) ⟨d₀, h₀, rfl⟩
  have htext : ∀ x ∈ [exampleEntry [], exampleEntry (base64URL d₀)], x.ValidText := by
    rintro x (_ | ⟨_, _ | ⟨_, ⟨⟩⟩⟩)
    · exact validText_exampleEntry (utf8_lit "")
    · exact validText_exampleEntry (utf8_base64URL _)
  refine ⟨d₀, d₁, h₀, h₁, fun l e hl hvalid he => ?_⟩
  exact (audit_chain_binds Primitives.sha256_injective_transparent
    (fun b => List.cons_ne_nil 0 b) hl hchain hvalid htext he h₁).1

end Audit

end Iscp
