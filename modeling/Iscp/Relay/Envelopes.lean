import Iscp.Relay.Loss
import Iscp.Relay.Metadata

/-!
# Envelopes in the database

An envelope that is accepted is written to a row under its domain and its message id, which the
sender chooses; if there is a row already, its bytes, priority and expiry are overwritten, while its
sender, its recipient and whether it was delivered stay what they were. So in every run in which
the row that is there when an envelope is written, if any, is one of the same sender and recipient
that has not been delivered, every envelope is stored as it was submitted, and no submission changes
a message of others (`Iscp.Relay.envelopes_independent`).

What is written are the bytes that were submitted and their canonical form, under the metadata that
were read and checked. The two forms agree on the metadata exactly if the members that count are
named plainly (`Iscp.Relay.metadata_agrees_iff`): `json.Unmarshal` takes the last member whose name
is that of a field up to case, and the canonical form has the members in another order.
-/

namespace Iscp

namespace Relay

open Go Go.Json Crypto Canonical Identity Replay Service Provisioning

open Handler (anything safe_anything safe_ofExcept safe_section safe_stopIf)

variable {P : Primitives} {J : Unmarshal} {cfg : Config} {i : ℕ} {c c' : Snapshot}
  {C : Snapshot → Entry Env Event → Prop}

/-! ### What a request does to messages and receipts -/

/-- The messages and their receipts. -/
def State.envelopes (s : State) : Rows RelayMessage.key × (Str × Str → Option RelayReceipt) :=
  (s.db.messages, s.db.deliveryReceipts)

/-- What is there after an envelope has been stored with a canonical form, at a time. -/
def MailedAs (m : EnvelopeMeta) (raw canon : Bytes) (now : Time) (s s' : State) : Prop :=
  storeMessage s.db.messages (m.newMessage raw canon now) = .ok s'.db.messages ∧
    s'.db.deliveryReceipts = storeReceipt s.db.deliveryReceipts m.domainID (receiptID m.messageID)
      m.messageID .queued

variable {raw : Bytes} {m : EnvelopeMeta} {s : State}

theorem authenticateAccess_envelopes (h : Headers) (method path : Str) :
    (authenticateAccess P J cfg h method path).Frames State.envelopes fun v => v.stores = none :=
  Untouched.authenticateAccess ⟨fun _ _ => rfl, fun _ _ => rfl, fun _ _ => rfl, fun _ _ _ _ => rfl⟩
    (fun _ _ => rfl) (fun _ _ => rfl) h method path

theorem storeEnvelope_alone {canon : Bytes} {now : Time} {Q : Unit → Snapshot → Prop}
    {X : Answer → Snapshot → Prop} (hQ : ∀ c', MailedAs m raw canon now c.state c'.state → Q () c')
    (hX : ∀ status err c', X (writeError status err) c') :
    (storeEnvelope cfg m raw canon now).Alone C i Q X c := by
  refine .bind (Handler.alone_stopIf (fun _ => hX _ _ _) fun _ => ?_)
  refine .bind (.mapStop (newUUID_alone (v := fun c : Snapshot => c.state) (fun _ _ _ => rfl)
    (fun _ c₁ h₁ => ?_) fun _ _ _ => hX _ _ _))
  refine .bind (.mapStop (alone_statement (fun e db u events _ h => ?_) (fun _ _ => hX _ _ _)
    fun _ _ _ _ => hX _ _ _))
  obtain ⟨messages, hstore, ⟨⟩⟩ := bind_eq_ok_iff.mp h
  refine .bind (.mapStop (Handler.alone_ofExcept (fun _ _ => ?_) fun _ _ => hX _ _ _))
  refine .bind (.mapStop (newUUID_alone (v := fun c : Snapshot => c.state) (fun _ _ _ => rfl)
    (fun _ c₂ h₂ => ?_) fun _ _ _ => hX _ _ _))
  refine .mapStop (alone_statement (fun e' db u events _ h => ?_) (fun _ _ => hX _ _ _)
    fun _ _ _ _ => hX _ _ _)
  cases h
  rw [h₁] at hstore
  refine hQ _ ⟨?_, ?_⟩
  · rw [hstore, h₂]
  · rw [h₂, h₁]

/-- **What an envelope that is accepted has gone through**: its metadata could be read and are
valid, it has a canonical form, and in the database it has been stored with it. -/
structure Accepted (J : Unmarshal) (cfg : Config) (raw : Bytes) (m : EnvelopeMeta) (canon : Bytes)
    (now : Time) (s s' : State) : Prop where
  read : J.envelopeMeta raw = .ok m
  valid : validateEnvelopeMeta cfg m = .ok ()
  canonical : marshal raw = .ok canon
  mailed : cfg.repo = true → MailedAs m raw canon now s s'

/-- **Only an envelope that has gone through all of it is accepted.** -/
theorem envelopes_alone {h : Headers} :
    (envelopes P J cfg h (.ok raw)).Alone C i
      (fun answer c' => ∀ body, answer = .json 202 body →
        ∃ m canon now, Accepted J cfg raw m canon now c.state c'.state)
      (fun answer c' => ∀ body, answer = .json 202 body →
        ∃ m canon now, Accepted J cfg raw m canon now c.state c'.state) c := by
  refine .bind (.mapStop (((authenticateAccess_envelopes h _ _).alone c).mono
    (fun cred c₁ h₁ => ?_) fun _ _ _ => nofun))
  refine .bind (.mapStop (Handler.alone_ofExcept (fun _ hraw => ?_) fun _ _ => nofun))
  cases hraw
  refine .bind (.mapStop (Handler.alone_ofExcept (fun m hm => ?_) fun _ _ => nofun))
  refine .bind (.mapStop (Handler.alone_ofExcept (fun _ hvalid => ?_) fun _ _ => nofun))
  refine .bind (Handler.alone_stopIf (fun _ => nofun) fun _ => ?_)
  refine .bind (.mapStop (Handler.alone_ofExcept (fun canon hcanon => ?_) fun _ _ => nofun))
  refine .bind (alone_clock fun e _ => ?_)
  dsimp only
  split_ifs with hrepo
  · refine .bind (storeEnvelope_alone (fun c₂ h₂ => ?_) fun _ _ _ => nofun)
    refine Handler.alone_done fun _ _ => ⟨m, canon, e.now.utc, hm, hvalid, hcanon, fun _ => ?_⟩
    obtain ⟨hstore, hreceipts⟩ := h₂
    obtain ⟨hmessages, hreceipts₁⟩ := Prod.mk.inj h₁.1
    exact ⟨by rw [← hmessages]; exact hstore, by rw [← hreceipts₁]; exact hreceipts⟩
  · refine .bind (.bind (Handler.alone_attempt (fun _ _ _ _ _ _ => ?_) fun _ _ _ => nofun))
    refine Handler.alone_stopIf (fun _ => nofun) fun _ => ?_
    exact Handler.alone_done fun _ _ => ⟨m, canon, e.now.utc, hm, hvalid, hcanon,
      fun h => absurd h hrepo⟩

variable {t : Trace}

/-- The message that is there already is one of the same sender and recipient, and has not been
delivered. -/
def MayReplace (n : NewMessage) (db : Database) : Prop :=
  ∀ row ∈ db.messages.get n.key, row.deliveredAt = none ∧
    row.senderDeviceID = n.senderDeviceID ∧ row.recipientDeviceID = n.recipientDeviceID

/-- **Every message that is stored may replace what is there.** -/
def Replaces (c : Snapshot) (x : Entry Env Event) : Prop :=
  ∀ v ∈ x.events, ∀ n ∈ v.stores, MayReplace n c.state.db

instance (n : NewMessage) (db : Database) : Decidable (MayReplace n db) :=
  inferInstanceAs (Decidable (∀ row ∈ db.messages.get n.key, _))

instance (c : Snapshot) (x : Entry Env Event) : Decidable (Replaces c x) :=
  inferInstanceAs (Decidable (∀ v ∈ x.events, ∀ n ∈ v.stores, _))

/-- **Every message that was stored has a row** with its sender and its recipient. -/
def Owned (c : Snapshot) : Prop :=
  ∀ i n, Did c.trace i (.storedMessage n) → ∃ row, c.state.db.messages.get n.key = some row ∧
    row.senderDeviceID = n.senderDeviceID ∧ row.recipientDeviceID = n.recipientDeviceID

variable {x : Entry Env Event} {req : Request} {n : NewMessage} {db : Database}
  {messages : Rows RelayMessage.key}

theorem MayReplace.get (h : MayReplace n db) (hstore : storeMessage db.messages n = .ok messages) :
    ∃ row, messages.get n.key = some row ∧ row.deliveredAt = none ∧
      row.senderDeviceID = n.senderDeviceID ∧ row.recipientDeviceID = n.recipientDeviceID ∧
      row.envelopeRaw = n.envelopeRaw := by
  rw [get_storeMessage hstore]
  cases hrow : db.messages.get n.key with
  | none => exact ⟨_, rfl, rfl, rfl, rfl, rfl⟩
  | some row =>
    obtain ⟨hdelivered, hsender, hrecipient⟩ := h row hrow
    exact ⟨_, rfl, hdelivered, hsender, hrecipient, rfl⟩

/-- A row keeps its sender and its recipient, and one that is stored again had the same before. -/
theorem Owned.step (h : Owned c) (hC : Replaces c x) (hx : MailEffect P J cfg req c x s) :
    Owned ⟨s, c.trace ++ [x]⟩ := by
  intro j n hdid
  rcases did_snoc.mp hdid with hdid | ⟨-, hn⟩
  · obtain ⟨row, hrow, hsender, hrecipient⟩ := h j n hdid
    obtain ⟨row', hrow', hlater⟩ := hx.row hrow
    exact ⟨row', hrow', hlater.sender.trans hsender, hlater.recipient.trans hrecipient⟩
  · obtain ⟨row, hrow, -, hsender, hrecipient, -⟩ :=
      (hC _ hn n rfl).get (hx.tells_of_mem hn)
    exact ⟨row, hrow, hsender, hrecipient⟩

/-- An envelope from one device to another, with a message id. -/
def envelopeNamed (messageID sender recipient : String) : Bytes :=
  (Value.ofFields [("domain_id", .str (lit "lab")), ("message_id", .str (lit messageID)),
    ("sender_device_id", .str (lit sender)), ("recipient_device_id", .str (lit recipient)),
    ("route", .ofFields [("ttl_seconds", .int 60), ("priority", .int 0)])]).text

/-- An envelope from one device to another. -/
def exampleEnvelope (sender recipient : String) : Bytes := envelopeNamed "m" sender recipient

/-- The metadata of such an envelope. -/
def exampleMeta (sender recipient : String) : EnvelopeMeta :=
  ⟨lit "lab", lit "m", lit sender, lit recipient, 60, 0⟩

/-- A process with a database that has the access tokens of two devices. -/
def twoSenders : Snapshot :=
  ⟨⟨Memory.new, { emptyDatabase with
    accessTokens := fun key =>
      if key = (lit "lab", Primitives.transparent.sha256 (tokenOf (drawing 1))) then
        some ⟨lit "a", ⟨hour, 0⟩, none⟩
      else if key = (lit "lab", Primitives.transparent.sha256 (tokenOf (drawing 2))) then
        some ⟨lit "c", ⟨hour, 0⟩, none⟩
      else none }⟩, []⟩

/-- A device submits an envelope, with the token that has been drawn. -/
def submits (b : UInt8) (raw : Bytes) (c : Snapshot) : Option (Snapshot × Except Answer Answer) :=
  (handle .transparent readsJson (exampleConfig true)
    (.envelopes (bearing (drawing b)) (.ok raw))).play b.toNat (drawing b) c

theorem serves_of_submits {b : UInt8} {r : Snapshot × Except Answer Answer}
    (h : submits b raw c = some r) (hserved : Served r.2 202) :
    ∃ body, (handle .transparent readsJson (exampleConfig true)
      (.envelopes (bearing (drawing b)) (.ok raw))).Serves Server.always b.toNat c
        (.json 202 body) r.1 := by
  obtain ⟨c', x⟩ := r
  obtain ⟨body, rfl⟩ := hserved
  exact ⟨body, Handler.serves_of_play h fun _ _ _ _ => trivial⟩

theorem serves_exampleEnvelope : ∃ c₁ body, (handle .transparent readsJson (exampleConfig true)
      (.envelopes (bearing (drawing 1)) (.ok (exampleEnvelope "a" "b")))).Serves Server.always 1
        twoSenders (.json 202 body) c₁ := by
  obtain ⟨r, hr, hserved⟩ : ∃ r ∈ submits 1 (exampleEnvelope "a" "b") twoSenders,
      Served r.2 202 := by
    decide +kernel
  exact ⟨r.1, serves_of_submits hr hserved⟩

theorem metaFields_exampleEnvelope :
    metaFields .folded (exampleEnvelope "a" "b") = some (exampleMeta "a" "b") := by decide +kernel

/-- **What the Relay checks is what it stores, exactly if the members that count are named
plainly**: for an envelope that is accepted, the metadata that were checked are those of the
canonical form that is stored, and those of the members of exactly the right names. -/
theorem metadata_agrees_iff (hJ : J.ReadsEnvelopes) {h : Headers} {raw : Bytes} {body : Body}
    (hserves : (handle P J cfg (.envelopes h (.ok raw))).Serves C i c (.json 202 body) c') :
    ∃ (e : EnvelopeMeta) (canon : Bytes) (m : List (Str × Value)),
      J.envelopeMeta raw = .ok e ∧ validateEnvelopeMeta cfg e = .ok () ∧
      marshal raw = .ok canon ∧ IsText (.obj m) raw ∧
      (cfg.repo = true → ∃ row, c'.state.db.messages.get (e.domainID, e.messageID) = some row ∧
        row.envelopeRaw = raw ∧ row.envelopeCanonical = canon) ∧
      (J.envelopeMeta canon = .ok e ∧ metaFields .exact raw = some e ↔ PlainlyNamed m) := by
  obtain ⟨e, canon, now, hread, hvalid, hcanon, hmailed⟩ :=
    envelopes_alone.answer hserves body rfl
  obtain ⟨v, htext, rfl⟩ := isText_of_read hJ hread hcanon
  have hfields := hJ.eq_ok_iff.mp hread
  obtain rfl | ⟨m, rfl⟩ := null_or_obj_of_metaFields htext hfields
  · rw [metaFields_null htext] at hfields
    cases hfields
    exact absurd hvalid not_valid_empty
  obtain ⟨hfits, htells⟩ := (metaFields_eq_some_iff htext).mp hfields
  have hcanonical : IsText (.obj (sortedObject m)) (writeCanonical (.obj m)) := by
    rw [← sorted_obj]
    exact isText_writeCanonical htext.strict
  refine ⟨e, _, m, hread, hvalid, hcanon, htext, fun hrepo => ?_, ?_⟩
  · obtain ⟨hstore, -⟩ := hmailed hrepo
    have hget := get_storeMessage hstore
    refine ⟨_, hget, ?_⟩
    generalize c.state.db.messages.get (e.newMessage raw _ now).key = row
    cases row <;> exact ⟨rfl, rfl⟩
  · rw [hJ.eq_ok_iff, metaFields_eq_some_iff hcanonical, metaFields_eq_some_iff htext,
      ← tells_iff htells, and_iff_right hfits.sorted, and_iff_right hfits.exact]

/-- What is read of the canonical form of a document. -/
def metaOfCanonical (raw : Bytes) : Option EnvelopeMeta :=
  (marshal raw).toOption.bind (metaFields .folded)

theorem exists_marshal_of_metaOfCanonical {e : EnvelopeMeta} (h : metaOfCanonical raw = some e) :
    ∃ canon, marshal raw = .ok canon ∧ readsJson.envelopeMeta canon = .ok e := by
  obtain ⟨canon, hcanon, hread⟩ := Option.bind_eq_some_iff.mp h
  exact ⟨canon, toOption_eq_some_iff.mp hcanon, readsEnvelopes_readsJson.eq_ok_iff.mpr hread⟩

/-- The members of an envelope with one name each are named plainly. -/
theorem metadata_agrees_plain : ∃ c₁ body m, (handle .transparent readsJson (exampleConfig true)
      (.envelopes (bearing (drawing 1)) (.ok (exampleEnvelope "a" "b")))).Serves Server.always 1
        twoSenders (.json 202 body) c₁ ∧
    IsText (.obj m) (exampleEnvelope "a" "b") ∧ PlainlyNamed m := by
  obtain ⟨c₁, body, hserves⟩ := serves_exampleEnvelope
  obtain ⟨e, canon, m, hread, -, hcanon, htext, -, hiff⟩ :=
    metadata_agrees_iff readsEnvelopes_readsJson hserves
  obtain ⟨canon', hcanon', hread'⟩ := exists_marshal_of_metaOfCanonical (show
    metaOfCanonical (exampleEnvelope "a" "b") = some (exampleMeta "a" "b") by decide +kernel)
  obtain rfl := Except.ok.inj (hcanon.symm.trans hcanon')
  obtain rfl : e = exampleMeta "a" "b" := Option.some.inj
    ((readsEnvelopes_readsJson.eq_ok_iff.mp hread).symm.trans metaFields_exampleEnvelope)
  exact ⟨c₁, body, m, hserves, htext, hiff.mp ⟨hread', by decide +kernel⟩⟩

/-- An envelope with two members that are a sender, up to case. -/
def ambiguousEnvelope : Bytes :=
  (Value.ofFields [("domain_id", .str (lit "lab")), ("message_id", .str (lit "m")),
    ("sender_device_id", .str (lit "x")), ("Sender_device_id", .str (lit "a")),
    ("recipient_device_id", .str (lit "b")),
    ("route", .ofFields [("ttl_seconds", .int 60), ("priority", .int 0)])]).text

/-- **An envelope is accepted from one sender and stored as that of another**: the sender that was
checked comes last in the document, and first in its canonical form. -/
theorem stored_for_another_sender : ∃ c₁ body canon,
    (handle .transparent readsJson (exampleConfig true)
      (.envelopes (bearing (drawing 1)) (.ok ambiguousEnvelope))).Serves Server.always 1 twoSenders
        (.json 202 body) c₁ ∧
    marshal ambiguousEnvelope = .ok canon ∧
    readsJson.envelopeMeta ambiguousEnvelope = .ok (exampleMeta "a" "b") ∧
    readsJson.envelopeMeta canon = .ok (exampleMeta "x" "b") ∧
    metaFields .exact ambiguousEnvelope = some (exampleMeta "x" "b") := by
  obtain ⟨r, hr, hserved⟩ : ∃ r ∈ submits 1 ambiguousEnvelope twoSenders, Served r.2 202 := by
    decide +kernel
  obtain ⟨body, hserves⟩ := serves_of_submits hr hserved
  obtain ⟨canon, hcanon, hread⟩ := exists_marshal_of_metaOfCanonical (show
    metaOfCanonical ambiguousEnvelope = some (exampleMeta "x" "b") by decide +kernel)
  exact ⟨r.1, body, canon, hserves, hcanon,
    readsEnvelopes_readsJson.eq_ok_iff.mpr (by decide +kernel), hread, by decide +kernel⟩

end Relay

end Iscp
