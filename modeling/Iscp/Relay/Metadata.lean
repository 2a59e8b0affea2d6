import Iscp.Canonical.Nodes
import Iscp.Relay.Server

/-!
# The metadata of an envelope

An envelope is a JSON document, and it is read twice. The metadata the Relay checks and routes by
are read by `json.Unmarshal`, which takes the last member whose name is that of a field up to case
(`Iscp.Relay.metaFields`); the canonical form that is stored has the members in the order of their
names. So a document with members `sender_device_id` and `Sender_device_id` is routed by the one
that comes last, and the canonical form by the one that comes last in it.

The metadata are read if all members fit their fields, and are what the document says of them
(`Iscp.Relay.metaFields_eq_some_iff`). All readings say the same exactly if the members that count
are named plainly (`Iscp.Relay.tells_iff`).
-/

namespace Iscp

namespace Relay

open Go Go.Json Canonical Crypto Service

variable {J : Unmarshal} {cfg : Config}

/-! ### Reading the metadata -/

deriving instance DecidableEq for EnvelopeMeta

/-- **What `json.Unmarshal` makes of an envelope**, with one way or another to match names. -/
def metaFields (how : Matching) (x : Bytes) : Option EnvelopeMeta := do
  let m ← structOf x
  let domainID ← stringField how "domain_id" m
  let messageID ← stringField how "message_id" m
  let senderDeviceID ← stringField how "sender_device_id" m
  let recipientDeviceID ← stringField how "recipient_device_id" m
  let route ← structField how "route" m
  let ttlSeconds ← intField how "ttl_seconds" route
  let priority ← intField how "priority" route
  return ⟨domainID, messageID, senderDeviceID, recipientDeviceID, ttlSeconds, priority⟩

/-- The fields of an envelope that are strings. -/
def identifiers : List String :=
  ["domain_id", "message_id", "sender_device_id", "recipient_device_id"]

/-- The fields of a route, which are integers. -/
def numbers : List String := ["ttl_seconds", "priority"]

/-- **All that is stored in the fields fits them.** -/
structure Fits (how : Matching) (m : List (Str × Value)) : Prop where
  identifiers : ∀ name ∈ identifiers, ∀ v ∈ givenValues how name m, ∃ s, v = .str s
  route : ∀ v ∈ givenValues how "route" m, ∃ m', v = .obj m'
  numbers : ∀ name ∈ numbers, ∀ v ∈ givenValues how name (objects how "route" m), ∃ i, v = .int i

/-- **What a document says of the metadata.** -/
structure Tells (how : Matching) (m : List (Str × Value)) (e : EnvelopeMeta) : Prop where
  domainID : said how "domain_id" (.str []) m = .str e.domainID
  messageID : said how "message_id" (.str []) m = .str e.messageID
  senderDeviceID : said how "sender_device_id" (.str []) m = .str e.senderDeviceID
  recipientDeviceID : said how "recipient_device_id" (.str []) m = .str e.recipientDeviceID
  ttlSeconds : said how "ttl_seconds" (.int 0) (objects how "route" m) = .int e.ttlSeconds
  priority : said how "priority" (.int 0) (objects how "route" m) = .int e.priority

variable {m : List (Str × Value)} {e : EnvelopeMeta} {x : Bytes} {how : Matching}

/-- **The metadata are read** if all members fit, as what the document says. -/
theorem metaFields_eq_some_iff (h : IsText (.obj m) x) :
    metaFields how x = some e ↔ Fits how m ∧ Tells how m e := by
  obtain ⟨n, hn, hshows⟩ := node_of_text h
  obtain _ | _ | _ | _ | _ | @⟨_, xs, hm⟩ := hshows
  have hstruct : structOf x = some xs := by
    rw [structOf, hn]
    rfl
  rw [metaFields, hstruct]
  simp only [Option.bind_eq_bind, Option.bind_some, Option.bind_eq_some_iff,
    stringField_eq_some_iff hm]
  constructor
  · rintro ⟨domainID, h₁, messageID, h₂, sender, h₃, recipient, h₄, route, hroute, h⟩
    have hobjects := forall_obj_of_structField hm hroute
    obtain ⟨xs', hxs', hroute'⟩ := structField_of_text hm hobjects
    obtain rfl := Option.some.inj (hroute.symm.trans hxs')
    simp only [intField_eq_some_iff hroute'] at h
    obtain ⟨ttl, h₅, priority, h₆, ⟨⟩⟩ := h
    refine ⟨⟨?_, hobjects, ?_⟩, ⟨h₁.2, h₂.2, h₃.2, h₄.2, h₅.2, h₆.2⟩⟩
    · simp only [identifiers, List.forall_mem_cons]
      exact ⟨h₁.1, h₂.1, h₃.1, h₄.1, List.forall_mem_nil _⟩
    · simp only [numbers, List.forall_mem_cons]
      exact ⟨h₅.1, h₆.1, List.forall_mem_nil _⟩
  · rintro ⟨⟨hid, hobjects, hnum⟩, htells⟩
    obtain ⟨xs', hxs', hroute⟩ := structField_of_text hm hobjects
    refine ⟨_, ⟨hid _ (by decide), htells.domainID⟩, _, ⟨hid _ (by decide), htells.messageID⟩, _,
      ⟨hid _ (by decide), htells.senderDeviceID⟩, _, ⟨hid _ (by decide), htells.recipientDeviceID⟩,
      xs', hxs', ?_⟩
    simp only [intField_eq_some_iff hroute]
    exact ⟨_, ⟨hnum _ (by decide), htells.ttlSeconds⟩, _, ⟨hnum _ (by decide), htells.priority⟩,
      rfl⟩

/-- A document that is `null` has nothing to route it by. -/
theorem metaFields_null (h : IsText .null x) : metaFields how x = some ⟨[], [], [], [], 0, 0⟩ := by
  obtain ⟨n, hn, hshows⟩ := node_of_text h
  cases hshows
  rw [metaFields, structOf, hn]
  rfl

/-- What is read is an object, or `null`. -/
theorem null_or_obj_of_metaFields {v : Value} (h : IsText v x) (hread : metaFields how x = some e) :
    v = .null ∨ ∃ m, v = .obj m := by
  obtain ⟨n, hn, hshows⟩ := node_of_text h
  rw [metaFields, structOf, hn] at hread
  cases hshows with
  | null => exact .inl rfl
  | obj => exact .inr ⟨_, rfl⟩
  | _ => cases hread

/-! ### The same members in another order -/

theorem mem_objects_of_exact {name : String} {kv : Str × Value} (h : kv ∈ objects .exact name m) :
    kv ∈ objects .folded name m := by
  obtain ⟨v, hv, hkv⟩ := mem_objects.mp h
  exact mem_objects.mpr ⟨v, givenValues_of_exact hv, hkv⟩

theorem Fits.exact (h : Fits .folded m) : Fits .exact m := by
  refine ⟨fun name hname v hv => h.identifiers name hname v (givenValues_of_exact hv),
    fun v hv => h.route v (givenValues_of_exact hv), fun name hname v hv => ?_⟩
  obtain ⟨k, hmem, htest, hnull⟩ := mem_givenValues.mp hv
  exact h.numbers name hname v
    (mem_givenValues.mpr ⟨k, mem_objects_of_exact hmem, test_of_exact htest, hnull⟩)

theorem Fits.sorted (h : Fits .folded m) : Fits .folded (sortedObject m) := by
  have hm (kv : Str × Value) : kv ∈ sortedObject m ↔
      ∃ kw ∈ m, (kw.1, Canonical.sorted kw.2) = kv := mem_sortedObject
  refine ⟨fun name hname v hv => ?_, fun v hv => ?_, fun name hname v hv => ?_⟩
  · obtain ⟨w, hw, rfl⟩ := (mem_givenValues_sorted hm).mp hv
    obtain ⟨s, rfl⟩ := h.identifiers name hname w hw
    exact ⟨s, by rw [Canonical.sorted]⟩
  · obtain ⟨w, hw, rfl⟩ := (mem_givenValues_sorted hm).mp hv
    obtain ⟨m', rfl⟩ := h.route w hw
    exact ⟨_, sorted_obj m'⟩
  · obtain ⟨w, hw, rfl⟩ := (mem_givenValues_sorted (mem_objects_sorted hm)).mp hv
    obtain ⟨i, rfl⟩ := h.numbers name hname w hw
    exact ⟨i, by rw [Canonical.sorted]⟩

/-- **The members that count are named plainly**: for each field, the last of those whose names are
right up to case – in the order of the document, and in the order of their names – says what the one
of exactly the right name says. For the fields of the route these are members of all objects that
are a `route` up to case. -/
structure PlainlyNamed (m : List (Str × Value)) : Prop where
  identifiers : ∀ name ∈ identifiers,
    said .folded name (.str []) m = said .exact name (.str []) m ∧
      said .folded name (.str []) (sortedObject m) = said .exact name (.str []) m
  numbers : ∀ name ∈ numbers,
    said .folded name (.int 0) (objects .folded "route" m) =
        said .exact name (.int 0) (objects .exact "route" m) ∧
      said .folded name (.int 0) (objects .folded "route" (sortedObject m)) =
        said .exact name (.int 0) (objects .exact "route" m)

/-- The routing fields read from the document agree with the canonical form and with the exact names
iff the members are plainly named. -/
theorem tells_iff (h : Tells .folded m e) :
    Tells .folded (sortedObject m) e ∧ Tells .exact m e ↔ PlainlyNamed m := by
  constructor
  · rintro ⟨hsorted, hexact⟩
    refine ⟨?_, ?_⟩
    · simp only [identifiers, List.forall_mem_cons, h.domainID, h.messageID, h.senderDeviceID,
        h.recipientDeviceID, hsorted.domainID, hsorted.messageID, hsorted.senderDeviceID,
        hsorted.recipientDeviceID, hexact.domainID, hexact.messageID, hexact.senderDeviceID,
        hexact.recipientDeviceID, and_self, true_and]
      exact List.forall_mem_nil _
    · simp only [numbers, List.forall_mem_cons, h.ttlSeconds, h.priority, hsorted.ttlSeconds,
        hsorted.priority, hexact.ttlSeconds, hexact.priority, and_self, true_and]
      exact List.forall_mem_nil _
  · rintro ⟨hid, hnum⟩
    simp only [identifiers, List.forall_mem_cons] at hid
    simp only [numbers, List.forall_mem_cons] at hnum
    obtain ⟨h₁, h₂, h₃, h₄, -⟩ := hid
    obtain ⟨h₅, h₆, -⟩ := hnum
    have hexact : Tells .exact m e := ⟨h₁.1.symm.trans h.domainID, h₂.1.symm.trans h.messageID,
      h₃.1.symm.trans h.senderDeviceID, h₄.1.symm.trans h.recipientDeviceID,
      h₅.1.symm.trans h.ttlSeconds, h₆.1.symm.trans h.priority⟩
    exact ⟨⟨h₁.2.trans hexact.domainID, h₂.2.trans hexact.messageID,
      h₃.2.trans hexact.senderDeviceID, h₄.2.trans hexact.recipientDeviceID,
      h₅.2.trans hexact.ttlSeconds, h₆.2.trans hexact.priority⟩, hexact⟩

/-! ### What encoding/json is taken to do -/

/-- **`json.Unmarshal` reads envelopes** as encoding/json says. -/
def Unmarshal.ReadsEnvelopes (J : Unmarshal) : Prop :=
  ∀ x, (J.envelopeMeta x).toOption = metaFields .folded x

theorem Unmarshal.ReadsEnvelopes.eq_ok_iff (hJ : J.ReadsEnvelopes) :
    J.envelopeMeta x = .ok e ↔ metaFields .folded x = some e := by
  rw [← hJ, toOption_eq_some_iff]

theorem not_valid_empty : validateEnvelopeMeta cfg ⟨[], [], [], [], 0, 0⟩ ≠ .ok () := by
  intro h
  simp only [validateEnvelopeMeta, bind_eq_ok_iff, failIf_eq_ok_iff] at h
  obtain ⟨-, -, -, hid, -⟩ := h
  exact hid (.inl rfl)

theorem isText_of_read (hJ : J.ReadsEnvelopes) {raw canon : Bytes}
    (hread : J.envelopeMeta raw = .ok e) (hcanon : marshal raw = .ok canon) :
    ∃ v, IsText v raw ∧ writeCanonical v = canon := by
  obtain ⟨v, hv, rfl⟩ := map_eq_ok_iff.mp hcanon
  obtain ⟨t, u, rfl, htext, hu⟩ := parseStrict_eq_ok_iff.mp hv
  cases u with
  | nil => exact ⟨v, by rwa [List.append_nil], rfl⟩
  | cons b u =>
    have hnone := node_of_stray ⟨v, t, b, u, rfl, htext, hu b rfl⟩
    have hfields := hJ.eq_ok_iff.mp hread
    rw [metaFields, structOf, hnone] at hfields
    cases hfields

/-- A `json.Unmarshal` that reads envelopes. -/
def readsJson : Unmarshal where
  proof := fun _ => none
  envelopeMeta := fun x => match metaFields .folded x with
    | some e => .ok e
    | none => .error (.plain "json: cannot unmarshal %s into Go value of type %s")

theorem readsEnvelopes_readsJson : readsJson.ReadsEnvelopes := by
  intro x
  rw [readsJson]
  dsimp only
  cases metaFields .folded x <;> rfl

end Relay

end Iscp
