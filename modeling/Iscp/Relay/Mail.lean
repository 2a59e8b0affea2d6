import Iscp.Handler.Rely
import Iscp.Relay.Frames

/-!
# What becomes of messages

An envelope is queued, or stored, by a request that has found an access token to be good; a
connection that has proven itself takes messages, and then writes them one by one. So where a
message is at a moment is read off what the connections have on record: each has taken some
messages (`Iscp.Relay.taken`), in an order, and has written a beginning of them
(`Iscp.Relay.delivered`), and the others remain (`Iscp.Relay.remaining`).

`Iscp.Relay.MailEffect` lists what a section may do to the messages, with or without a database,
and what its request has on record by then. Every handler has only these effects
(`Iscp.Relay.mail_hasEffects`).
-/

namespace Iscp

namespace Relay

open Go Crypto Identity Replay Service Provisioning

open Handler (abides_attempt abides_done abides_look abides_ofExcept abides_stop abides_stopIf
  frames_attempt frames_done frames_ite frames_look frames_note frames_ofExcept frames_stop
  frames_stopIf)

/-! ### What a connection has on record -/

/-- The messages a connection has taken, by one event. -/
def Event.taken : Event → List Queue.Message
  | .dequeued _ messages => messages
  | _ => []

/-- The messages that were written. -/
def Event.written : Event → List (Str × Bytes)
  | .sent (.message messageID envelope) => [(messageID, envelope)]
  | _ => []

/-- **The messages a request has taken**, by its own entries. -/
def taken (o : Trace) : List Queue.Message := o.flatMap fun x => x.events.flatMap Event.taken

/-- **The messages a request has written**, by its own entries. -/
def written (o : Trace) : List (Str × Bytes) := o.flatMap fun x => x.events.flatMap Event.written

/-- Those of the messages taken that were written: there are as many. -/
def delivered (o : Trace) : List Queue.Message := (taken o).take (written o).length

/-- Those of the messages taken that were not written. -/
def remaining (o : Trace) : List Queue.Message := (taken o).drop (written o).length

/-- A message as it is written. -/
def shown (m : Queue.Message) : Str × Bytes := (m.messageID, m.envelope)

theorem taken_snoc (o : Trace) (x : Entry Env Event) :
    taken (o ++ [x]) = taken o ++ x.events.flatMap Event.taken := by
  simp [taken]

theorem written_snoc (o : Trace) (x : Entry Env Event) :
    written (o ++ [x]) = written o ++ x.events.flatMap Event.written := by
  simp [written]

theorem delivered_append_remaining (o : Trace) : delivered o ++ remaining o = taken o :=
  List.take_append_drop ..

variable {x : Entry Env Event} {o o' : Trace} {v : Event}
  {f : Env → Database → Except Error (Database × α × List Event)} {domainID deviceID : Str}
  {hash : Bytes}

/-- **The next message is written.** -/
theorem deliver_snoc {m : Queue.Message} {rest : List Queue.Message}
    (hnext : remaining o = m :: rest) (hx : x.events = [.sent (.message m.messageID m.envelope)]) :
    taken (o ++ [x]) = taken o ∧ written (o ++ [x]) = written o ++ [shown m] ∧
      delivered (o ++ [x]) = delivered o ++ [m] ∧ remaining (o ++ [x]) = rest := by
  have htaken : taken (o ++ [x]) = taken o := by
    rw [taken_snoc, hx]
    simp [Event.taken]
  have hwritten : written (o ++ [x]) = written o ++ [shown m] := by
    rw [written_snoc, hx]
    rfl
  have hdrop : (taken o).drop (written o).length = m :: rest := hnext
  refine ⟨htaken, hwritten, ?_, ?_⟩
  · rw [delivered, delivered, htaken, hwritten, List.length_append, List.length_singleton,
      List.take_add, hdrop]
    rfl
  · rw [remaining, htaken, hwritten, List.length_append, List.length_singleton, ← List.drop_drop,
      hdrop]
    rfl

/-- **A request has gone on** without taking or writing a message. -/
structure Later (o o' : Trace) : Prop where
  trace : o <+: o'
  taken : taken o' = taken o
  written : written o' = written o

theorem Later.refl (o : Trace) : Later o o := ⟨List.prefix_refl o, rfl, rfl⟩

theorem Later.trans {o'' : Trace} (h : Later o o') (h' : Later o' o'') : Later o o'' :=
  ⟨h.trace.trans h'.trace, h'.taken.trans h.taken, h'.written.trans h.written⟩

theorem Later.remaining (h : Later o o') : remaining o' = remaining o := by
  rw [Relay.remaining, Relay.remaining, h.taken, h.written]

theorem Later.delivered (h : Later o o') : delivered o' = delivered o := by
  rw [Relay.delivered, Relay.delivered, h.taken, h.written]

/-- The events that say nothing of messages, nor of access tokens. -/
def Event.Quiet : Event → Prop
  | .queued _ | .storedMessage _ | .dequeued _ _ | .sent (.message _ _) | .recognized _ _ => False
  | _ => True

theorem Event.Quiet.taken (h : v.Quiet) : v.taken = [] := by
  cases v with
  | dequeued _ _ => exact h.elim
  | _ => rfl

theorem Event.Quiet.written (h : v.Quiet) : v.written = [] := by
  cases v with
  | sent frame =>
    cases frame with
    | message _ _ => exact h.elim
    | _ => rfl
  | _ => rfl

theorem later_of_events (h : ∀ v ∈ x.events, v.taken = [] ∧ v.written = []) :
    Later o (o ++ [x]) := by
  refine ⟨List.prefix_append _ _, ?_, ?_⟩
  · rw [taken_snoc, List.flatMap_eq_nil_iff.mpr fun v hv => (h v hv).1, List.append_nil]
  · rw [written_snoc, List.flatMap_eq_nil_iff.mpr fun v hv => (h v hv).2, List.append_nil]

theorem later_of_quiet (h : ∀ v ∈ x.events, v.Quiet) :
    Later o (o ++ [x]) := later_of_events fun v hv => ⟨(h v hv).taken, (h v hv).written⟩

theorem later_idle (o : Trace) (i : ℕ) (e : Env) : Later o (o ++ [⟨i, e, []⟩]) :=
  later_of_quiet (List.forall_mem_nil _)

/-! ### What a request has gone through -/

variable (P : Primitives) (J : Unmarshal) (cfg : Config)

/-- The requests that come with an access token. -/
def Request.Bears (h : Headers) : Request → Prop
  | .revokeAccess h' _ => h' = h
  | .envelopes h' _ => h' = h
  | _ => False

/-- **The sender has proven itself**, for the request it makes and the token it makes it with. -/
def AccessProven (h : Headers) (cred : Credential) (i : ℕ) (o : Trace) : Prop :=
  ∃ id proof now, Did o i (.looked cred.deviceID id) ∧ id.domainID = cred.domainID ∧
    Did o i (.used proof minute now true) ∧
    ProofVerified P id proof cfg.relayID (accessProofChallenge (lit "POST")
      (lit "/v2/relay/envelopes") (P.sha256 (bearerToken h))) now minute

/-- **What a request has gone through when it submits an envelope.** -/
structure Submission (h : Headers) (m : EnvelopeMeta) (raw : Bytes) (i : ℕ) (o : Trace) : Prop where
  read : J.envelopeMeta raw = .ok m
  valid : validateEnvelopeMeta cfg m = .ok ()
  canonical : ∃ canon, Canonical.marshal raw = .ok canon
  recognized : ∃ cred now, Did o i (.recognized cred now) ∧ cred.domainID = m.domainID ∧
    cred.deviceID = m.senderDeviceID ∧
    (cfg.repo = false → cfg.profileGate.profile = .production → AccessProven P cfg h cred i o)

/-- **What a connection has gone through when it is ready**: it has drawn a challenge and written
it, has found the identity of a device, and has checked a proof of the key that is there. -/
def Proven (id : DeviceIdentity) (i : ℕ) (o : Trace) : Prop :=
  ∃ y ∈ o, ∃ challenge proof now, challenge = base64URL y.env.token.1 ∧
    Did o i (.sent (.challenge challenge)) ∧ Did o i (.looked id.deviceID id) ∧
    Did o i (.used proof minute now true) ∧
    ProofVerified P id proof cfg.relayID challenge now minute

/-- The messages, in memory and in the database. -/
def State.mail (s : State) : Queue × Rows RelayMessage.key := (s.mem.queue, s.db.messages)

/-- **What a section may do to the messages.** -/
inductive MailEffect (req : Request) (c : Snapshot) (x : Entry Env Event) (s : State) : Prop where
  | quiet (hmail : s.mail = c.state.mail) (hx : ∀ v ∈ x.events, v.Quiet)
  /-- An access token is found to be good. -/
  | recognize {h : Headers} {cred : Credential} {now : Time} (hreq : req.Bears h)
      (hclock : ∃ y ∈ own x.thread c.trace, now = y.env.now.utc)
      (hfound : cfg.repo = false →
        c.state.mem.findAccess (P.sha256 (bearerToken h)) now = some cred)
      (hmail : s.mail = c.state.mail) (hx : x.events = [.recognized cred now])
  /-- What has expired is dropped. -/
  | snapshot {ties : ℕ → ℕ} {now : Time} (hrepo : cfg.repo = false)
      (hqueue : s.mem.queue = (c.state.mem.queue.snapshotMetadata ties now).1)
      (hrows : s.db.messages = c.state.db.messages) (hx : x.events = [])
  /-- An envelope is queued, unless it is too large. -/
  | submit {h : Headers} {m : EnvelopeMeta} {raw : Bytes} {now : Time} (hrepo : cfg.repo = false)
      (hreq : req = .envelopes h (.ok raw))
      (hsubmission : Submission P J cfg h m raw x.thread (own x.thread c.trace))
      (hqueue : s.mem.queue = (c.state.mem.queue.enqueue (m.message raw now) now).1)
      (hrows : s.db.messages = c.state.db.messages)
      (hx : x.events = if (c.state.mem.queue.enqueue (m.message raw now) now).2
        then [.queued (m.message raw now)] else [])
  /-- An envelope is stored. -/
  | store {h : Headers} {m : EnvelopeMeta} {raw canon : Bytes} {now : Time}
      (hrepo : cfg.repo = true) (hreq : req = .envelopes h (.ok raw))
      (hsubmission : Submission P J cfg h m raw x.thread (own x.thread c.trace))
      (hqueue : s.mem.queue = c.state.mem.queue)
      (hstore : storeMessage c.state.db.messages (m.newMessage raw canon now) = .ok s.db.messages)
      (hx : x.events = [.storedMessage (m.newMessage raw canon now)])
  /-- A connection takes messages from the queue, for the first time. -/
  | take {id : DeviceIdentity} {now : Time} (hrepo : cfg.repo = false)
      (hnone : taken (own x.thread c.trace) = [])
      (hproven : Proven P cfg id x.thread (own x.thread c.trace))
      (hready : Did (own x.thread c.trace) x.thread (.ready id))
      (hqueue : s.mem.queue =
        (c.state.mem.queue.dequeueFor x.env.ties id.domainID id.deviceID now 100).1)
      (hrows : s.db.messages = c.state.db.messages)
      (hx : x.events = [.dequeued id.deviceID
        (c.state.mem.queue.dequeueFor x.env.ties id.domainID id.deviceID now 100).2])
  /-- A connection claims messages, for the first time, at the time it has just read. -/
  | claim {id : DeviceIdentity} {now : Time} {claimed : List RelayMessage} (hrepo : cfg.repo = true)
      (hclock : ∃ y ∈ (own x.thread c.trace).getLast?, now = y.env.now.utc)
      (hnone : taken (own x.thread c.trace) = [])
      (hproven : Proven P cfg id x.thread (own x.thread c.trace))
      (hready : Did (own x.thread c.trace) x.thread (.ready id))
      (hqueue : s.mem.queue = c.state.mem.queue)
      (hclaim : claimPendingMessagesFor c.state.db.messages x.env id.domainID id.deviceID now minute
        100 = .ok (s.db.messages, claimed))
      (hx : x.events = [.dequeued id.deviceID (claimed.map RelayMessage.message)])
  /-- A connection writes the next message. -/
  | write {m : Queue.Message} {rest : List Queue.Message}
      (hnext : remaining (own x.thread c.trace) = m :: rest) (hmail : s.mail = c.state.mail)
      (hx : x.events = [.sent (.message m.messageID m.envelope)])
  /-- A message that was written is marked as delivered. -/
  | mark {m : Queue.Message} {now : Time} (hrepo : cfg.repo = true)
      (hm : m ∈ delivered (own x.thread c.trace)) (hqueue : s.mem.queue = c.state.mem.queue)
      (hrows : s.db.messages =
        markMessageDelivered c.state.db.messages m.domainID m.messageID now) (hx : x.events = [])

/-! ### Requests that have nothing to do with messages -/

section Quiet

variable {P J cfg} {ω α : Type}

/-- **A handler leaves the messages alone.** -/
def Quietly (p : Run ω α) : Prop := p.Frames State.mail Event.Quiet

theorem quietly_mutex {f : Env → State → Except ω (State × α × List Event)}
    (hf : ∀ e s s' a events, f e s = .ok (s', a, events) →
      s'.mail = s.mail ∧ ∀ v ∈ events, v.Quiet) : Quietly (mutex f) := frames_attempt hf

theorem quietly_statement
    (hf : ∀ e db db' a events, f e db = .ok (db', a, events) →
      db'.messages = db.messages ∧ ∀ v ∈ events, v.Quiet) : Quietly (statement domainID f) := by
  refine frames_statement fun e s db a events h => ?_
  obtain ⟨hrows, hevents⟩ := hf e s.db db a events h
  exact ⟨congrArg (s.mem.queue, ·) hrows, hevents⟩

theorem quiet_singleton (h : v.Quiet) : ∀ w ∈ [v], w.Quiet := by
  intro w hw
  rwa [List.mem_singleton.mp hw]

theorem untouched_mail : Untouched State.mail Event.Quiet :=
  ⟨fun _ _ => rfl, fun _ _ => rfl, fun _ _ => trivial, fun _ _ _ _ => trivial⟩

theorem credentialless_mail : Credentialless State.mail Event.Quiet :=
  ⟨fun _ _ => rfl, fun _ _ => rfl, fun _ _ _ => rfl, fun _ => trivial, fun _ => trivial,
    fun _ _ _ => trivial⟩

theorem bindIdentity_quietly (id : DeviceIdentity) : Quietly (bindIdentity P cfg id) :=
  credentialless_mail.bindIdentity (fun _ _ => rfl) (fun _ _ => rfl) (fun _ => trivial)
    (fun _ => trivial) (fun _ => trivial) id

theorem bindSelf_quietly (h : Headers) (req : BindSelfRequest) : Quietly (bindSelf P cfg h req) :=
  .bind (frames_stopIf _ _) fun _ => .bind (untouched_mail.verifyProof _ _ _ _ _).mapStop fun _ =>
    bindIdentity_quietly _

theorem consumeTicket_quietly (ticketID : Str) (maxUses : ℤ) :
    Quietly (consumeTicket ticketID maxUses) :=
  consumeTicket_frames (fun _ _ => rfl) (fun _ _ => trivial) _ _

theorem registerWithTicket_quietly (req : RegisterTicketRequest) :
    Quietly (registerWithTicket P cfg req) := by
  rw [registerWithTicket]
  split
  · rw [registerWithSignedTicket]
    split
    · exact frames_stop _
    · exact .bind frames_clock fun _ => .bind (frames_ofExcept _).mapStop fun _ =>
        .bind (frames_stopIf _ _) fun _ => .bind (frames_stopIf _ _) fun _ =>
        .bind (untouched_mail.verifyProof _ _ _ _ _).mapStop fun _ =>
        .bind (frames_ofExcept _).mapStop fun _ =>
        .bind (consumeTicket_quietly _ _).mapStop fun _ => bindIdentity_quietly _
  · exact .bind (frames_stopIf _ _) fun _ =>
      .bind (untouched_mail.verifyProof _ _ _ _ _).mapStop fun _ =>
      .bind (consumeTicket_quietly _ _).mapStop fun _ => bindIdentity_quietly _

theorem refreshAccess_quietly (refresh : Str) : Quietly (refreshAccess P cfg refresh) := by
  refine .bind (lookupRefresh_frames (fun _ _ => trivial) _).mapStop fun found => ?_
  split
  · exact frames_stop _
  · refine .bind (frames_stopIf _ _) fun _ => .bind (frames_look _) fun _ =>
      .bind (frames_stopIf _ _) fun _ => .bind (Handler.Frames.mapStop (.bind
      (quietly_mutex ?_) fun _ => frames_ite (.bind frames_clock fun _ =>
      quietly_statement ?_) (frames_done _))) fun _ =>
      .bind (credentialless_mail.issueCredentials _).mapStop fun _ => frames_done _
    · rintro e s s' a events ⟨⟩
      refine ⟨rfl, ?_⟩
      split_ifs <;> simp [Event.Quiet]
    · rintro e db db' a events ⟨⟩
      exact ⟨rfl, quiet_singleton trivial⟩

theorem lookupDevice_quietly (deviceID : Str) : Quietly (lookupDevice cfg deviceID) :=
  lookupDevice_frames (fun _ _ => trivial) deviceID

theorem revokeRowsAndUnlock_quietly (deviceID : Str) :
    Quietly (revokeRowsAndUnlock cfg deviceID) := by
  refine frames_ite (.bind (Handler.Frames.outcome (.bind frames_clock fun _ =>
    .bind (quietly_statement ?_) fun _ => .bind (quietly_statement ?_) fun _ =>
    quietly_statement ?_)) fun _ => .bind (frames_attempt ?_) fun _ =>
    (frames_ofExcept _).mapStop) (frames_done _)
  · rintro e db db' a events ⟨⟩
    exact ⟨rfl, quiet_singleton trivial⟩
  · rintro e db db' a events ⟨⟩
    exact ⟨rfl, quiet_singleton trivial⟩
  · rintro e db db' a events ⟨⟩
    exact ⟨rfl, quiet_singleton trivial⟩
  · rintro e s s' a events ⟨⟩
    exact ⟨rfl, List.forall_mem_nil _⟩

/-- What `revokeAccess` does when it is clear who asks. -/
theorem revoked_quietly (deviceID : Str) : Quietly (do
    mutex fun _ s => .ok ({ s with mem := { s.mem.revokeDevice deviceID with locked := cfg.repo } },
      (), [.revoked deviceID])
    revokeRowsAndUnlock cfg deviceID
    return .json 200 .revoked : Run Answer Answer) := by
  refine .bind (quietly_mutex ?_) fun _ => .bind (revokeRowsAndUnlock_quietly deviceID) fun _ =>
    frames_done _
  rintro e s s' a events ⟨⟩
  exact ⟨rfl, quiet_singleton trivial⟩

end Quiet

/-! ### The handlers -/

/-- Others may do anything to the state. -/
def anyState (_ _ : State) : Prop := True

/-- **The sections of a handler have these effects**, from its own record on: its result and its
early returns are as asserted of the record then. -/
def Mails (req : Request) (i : ℕ) {ω α : Type} (p : Run ω α) (Q : α → Trace → Prop)
    (X : ω → Trace → Prop) (o : Trace) : Prop :=
  ∀ s, p.Abides anyState (MailEffect P J cfg req) i (fun a _ o => Q a o) (fun r _ o => X r o) s o

section Mails

variable {P J cfg} {req : Request} {i : ℕ} {o : Trace} {ω ω' α β : Type} {Q Q' : α → Trace → Prop}
  {X X' : ω → Trace → Prop}

variable {p : Run ω α} {id : DeviceIdentity} {method : Str} {now : Time} {m : EnvelopeMeta}
  {raw : Bytes}

theorem Mails.mono (h : Mails P J cfg req i p Q X o) (hQ : ∀ a o, Q a o → Q' a o)
    (hX : ∀ r o, X r o → X' r o) : Mails P J cfg req i p Q' X' o :=
  fun s => (h s).mono (fun a _ o => hQ a o) fun r _ o => hX r o

theorem Mails.bind {f : α → Run ω β} {Q : β → Trace → Prop}
    (h : Mails P J cfg req i p (fun a o => Mails P J cfg req i (f a) Q X o) X o) :
    Mails P J cfg req i (p >>= f) Q X o :=
  fun s => .bind ((h s).mono (fun _ s _ h => h s) fun _ _ _ h => h)

theorem Mails.mapStop {g : ω → ω'} {X : ω' → Trace → Prop}
    (h : Mails P J cfg req i p Q (fun r o => X (g r) o) o) :
    Mails P J cfg req i (p.mapStop g) Q X o := fun s => (h s).mapStop

theorem Mails.outcome {Q : Except ω α → Trace → Prop} {X : ω' → Trace → Prop}
    (h : Mails P J cfg req i p (fun a o => Q (.ok a) o) (fun r o => Q (.error r) o) o) :
    Mails P J cfg req i (p.outcome : Run ω' _) Q X o := fun s => (h s).outcome

theorem mails_done {a : α} (h : Q a o) : Mails P J cfg req i (.done a) Q X o :=
  fun _ => abides_done h

theorem mails_stop {r : ω} (h : X r o) : Mails P J cfg req i (.stop r) Q X o :=
  fun _ => abides_stop h

theorem mails_stopIf {d : Prop} [Decidable d] {r : ω} {Q : Unit → Trace → Prop} (hstop : d → X r o)
    (hgo : ¬d → Q () o) : Mails P J cfg req i (.stopIf d r) Q X o :=
  fun _ => abides_stopIf hstop hgo

theorem mails_ofExcept {x : Except ω α} (hok : ∀ a, x = .ok a → Q a o)
    (herror : ∀ r, x = .error r → X r o) : Mails P J cfg req i (.ofExcept x) Q X o :=
  fun _ => abides_ofExcept hok herror

/-- **The rule for a section.** -/
theorem mails_attempt {enabled : State → Bool} {f : Env → State → Except ω (State × α × List Event)}
    (hok : ∀ (c : Snapshot) e s' a events, own i c.trace = o → f e c.state = .ok (s', a, events) →
      MailEffect P J cfg req c ⟨i, e, events⟩ s' ∧ Q a (o ++ [⟨i, e, events⟩]))
    (herror : ∀ s e r, f e s = .error r → X r (o ++ [⟨i, e, []⟩])) :
    Mails P J cfg req i (.attempt enabled f) Q X o :=
  fun _ => abides_attempt (fun c e s' a events _ ho _ h => hok c e s' a events ho h)
    fun c e r _ _ _ h => ⟨.quiet rfl (List.forall_mem_nil _), herror c.state e r h⟩

/-- **The rule for a statement.** -/
theorem mails_statement {X : Error → Trace → Prop}
    {f : Env → Database → Except Error (Database × α × List Event)}
    (hok : ∀ (c : Snapshot) e db a events, own i c.trace = o →
      f e c.state.db = .ok (db, a, events) →
      MailEffect P J cfg req c ⟨i, e, events⟩ { c.state with db := db } ∧
        Q a (o ++ [⟨i, e, events⟩])) (hX : ∀ r o', Later o o' → X r o') :
    Mails P J cfg req i (statement domainID f) Q X o := by
  refine .bind (mails_stopIf (fun _ => hX _ _ (.refl o)) fun _ => ?_)
  refine mails_attempt (fun c e s' a events ho h => ?_) fun _ e r _ => hX r _ (later_idle ..)
  split_ifs at h
  obtain ⟨⟨db, r⟩, hdb, ⟨⟩⟩ := bind_eq_ok_iff.mp h
  exact hok c e db a events ho hdb

/-- **The rule for reading what is given.** -/
theorem mails_ask {f : Env → α} (h : ∀ e, Q (f e) (o ++ [⟨i, e, []⟩])) :
    Mails P J cfg req i (.ask f) Q X o :=
  fun _ => abides_look fun _ e _ _ _ => ⟨.quiet rfl (List.forall_mem_nil _), h e⟩

/-- **The rule for a handler that leaves the messages alone.** -/
theorem mails_quietly (hp : Quietly p) (hQ : ∀ a o', Later o o' → Q a o')
    (hX : ∀ r o', Later o o' → X r o') : Mails P J cfg req i p Q X o := by
  intro s
  refine (Handler.Frames.abides (O := Later o) (fun _ => trivial) (fun _ _ _ _ _ => trivial)
    (fun c x s' hi hlater hmail hx => ?_) hp (.refl o)).mono (fun a _ o' h => hQ a o' h.2)
    fun r _ o' h => hX r o' h.2
  exact ⟨.quiet hmail hx, trivial, hlater.trans (later_of_quiet hx)⟩

theorem mails_checked (hp : Quietly p) (hsafe : p.Safe (fun _ _ _ => True) i Q' X' o)
    (hQ : ∀ a o', Later o o' → Q' a o' → Q a o') (hX : ∀ r o', Later o o' → X' r o' → X r o') :
    Mails P J cfg req i p Q X o := by
  intro s
  have hlater : Mails P J cfg req i p (fun _ => Later o) (fun _ => Later o) o :=
    mails_quietly hp (fun _ _ h => h) fun _ _ h => h
  exact (((hlater s).and hsafe.abides).weaken fun _ _ _ h => h.1).mono
    (fun a _ o' h => hQ a o' h.1 h.2) fun r _ o' h => hX r o' h.1 h.2

/-- **The rule for the check of a proof**, which leaves the messages alone. -/
theorem verifyProof_mails {proof : DeviceProof} {audience challenge : Str} {ttl : Duration}
    {Q : Unit → Trace → Prop} {X : Error → Trace → Prop}
    (hQ : ∀ now o', Later o o' → ProofVerified P id proof audience challenge now ttl →
      Did o' i (.used proof ttl now true) → Q () o') (hX : ∀ r o', Later o o' → X r o') :
    Mails P J cfg req i (verifyProof P cfg id proof audience challenge ttl) Q X o := by
  have hsafe : (verifyProof P cfg id proof audience challenge ttl).Safe (fun _ _ _ => True) i
      (fun _ o' => ∃ now, ProofVerified P id proof audience challenge now ttl ∧
        Did o' i (.used proof ttl now true)) Handler.anything o :=
    Service.verifyProof_safe (fun _ _ _ => trivial) (fun _ _ _ _ _ _ => trivial)
      (fun now o' _ hproof hused => ⟨now, hproof, hused⟩) fun _ _ _ => trivial
  refine mails_checked (untouched_mail.verifyProof ..) hsafe (fun _ o' h hchecked => ?_)
    fun r o' h _ => hX r o' h
  obtain ⟨now, hproof, hused⟩ := hchecked
  exact hQ now o' h hproof hused

theorem did_snoc_self {e : Env} {events : List Event} (hv : v ∈ events) :
    Did (o ++ [⟨i, e, events⟩]) i v := did_of_snoc (List.prefix_refl _) hv

/-- **The identity a proof is checked with** goes on record, if it is in memory. -/
theorem lookupIdentity_mails {Q : Option DeviceIdentity → Trace → Prop} {X : Error → Trace → Prop}
    (hQ : ∀ found o', Later o o' → (cfg.repo = false →
      ∀ id, found = some id → Did o' i (.looked deviceID id) ∧ id.domainID = domainID) → Q found o')
    (hX : ∀ r o', Later o o' → X r o') :
    Mails P J cfg req i (lookupIdentity cfg domainID deviceID) Q X o := by
  refine .bind (mails_attempt (fun c e s' found events _ h => ?_)
    fun _ e r _ => hX r _ (later_idle ..))
  cases h
  refine ⟨.quiet rfl (forall_mem_toList_map (fun _ => trivial) _), ?_⟩
  have hlater : Later o (o ++ [⟨i, e, List.map (Event.looked deviceID) _⟩]) :=
    later_of_quiet (forall_mem_toList_map (fun _ => trivial) ((c.state.mem.devices deviceID).filter
    fun id =>
      (c.state.mem.revoked deviceID).isNone && decide (id.domainID = domainID)))
  split
  · next id hid =>
    refine mails_done (hQ _ _ hlater fun _ id' hid' => ?_)
    cases hid'
    rw [hid]
    obtain ⟨-, hgood⟩ := Option.filter_eq_some_iff.mp hid
    rw [Bool.and_eq_true, decide_eq_true_eq] at hgood
    exact ⟨did_snoc_self (List.mem_singleton_self _), hgood.2⟩
  · split_ifs with hrepo
    · refine mails_quietly (quietly_statement ?_) (fun found o' h => hQ found o' (hlater.trans h)
        fun hmem => absurd hmem (by simp [hrepo])) fun r o' h => hX r o' (hlater.trans h)
      rintro e db db' a events ⟨⟩
      exact ⟨rfl, List.forall_mem_nil _⟩
    · exact mails_done (hQ _ _ hlater fun _ _ h => nomatch h)

/-- **The sender of an envelope has proven itself**, if it has to. -/
theorem verifyAccessProof_mails {h : Headers} {path : Str} {cred : Credential}
    {Q : Unit → Trace → Prop} {X : Error → Trace → Prop}
    (hQ : ∀ o', Later o o' → (cfg.repo = false → cfg.profileGate.profile = .production →
      ∃ id proof now, Did o' i (.looked cred.deviceID id) ∧ id.domainID = cred.domainID ∧
        Did o' i (.used proof minute now true) ∧ ProofVerified P id proof cfg.relayID
          (accessProofChallenge method path hash) now minute) → Q () o')
    (hX : ∀ r o', Later o o' → X r o') :
    Mails P J cfg req i (verifyAccessProof P J cfg h method path cred hash) Q X o := by
  rw [verifyAccessProof]
  split_ifs with hprofile
  · refine .bind (mails_stopIf (fun _ => hX _ _ (.refl o)) fun _ => ?_)
    refine .bind (mails_ofExcept (fun raw _ => ?_) fun r _ => hX _ _ (.refl o))
    split
    · exact mails_stop (hX _ _ (.refl o))
    · refine .bind (lookupIdentity_mails (fun found o₁ h₁ hlooked => ?_) hX)
      cases found with
      | none => exact mails_stop (hX _ _ h₁)
      | some id =>
        refine verifyProof_mails (fun now o₂ h₂ hproof hused => ?_)
          fun r o₂ h₂ => hX r o₂ (h₁.trans h₂)
        refine hQ o₂ (h₁.trans h₂) fun hrepo _ => ?_
        obtain ⟨hdid, hdomain⟩ := hlooked hrepo id rfl
        exact ⟨id, _, now, hdid.extend h₂.trace, hdomain, hused, hproof⟩
  · exact mails_done (hQ o (.refl o) fun _ h => absurd h hprofile)

theorem later_recognized {cred : Option Credential} {e : Env} :
    Later o (o ++ [⟨i, e, cred.toList.map fun cred => .recognized cred now⟩]) := by
  refine later_of_events fun v hv => ?_
  obtain ⟨cred, -, rfl⟩ := List.mem_map.mp hv
  exact ⟨rfl, rfl⟩

/-- **An access token is found** in memory under its hash, or else in the database. -/
theorem lookupAccess_mails {h : Headers} (hreq : req.Bears h)
    (hclock : ∃ y ∈ o, now = y.env.now.utc) {Q : Option Credential → Trace → Prop}
    {X : Error → Trace → Prop}
    (hQ : ∀ found o', Later o o' →
      (∀ cred, found = some cred → Did o' i (.recognized cred now)) → Q found o')
    (hX : ∀ r o', Later o o' → X r o') :
    Mails P J cfg req i (lookupAccess cfg (P.sha256 (bearerToken h)) now) Q X o := by
  have hclock' : ∀ {o'}, Later o o' → ∃ y ∈ o', now = y.env.now.utc := fun hlater =>
    hclock.imp fun _ hy => ⟨hlater.trace.subset hy.1, hy.2⟩
  refine .bind (mails_attempt (fun c e s' found events ho hf => ?_) fun _ e r _ =>
    hX r _ (later_idle ..))
  cases hf
  refine ⟨?_, ?_⟩
  · cases hfound : c.state.mem.findAccess (P.sha256 (bearerToken h)) now with
    | none => exact .quiet rfl (List.forall_mem_nil _)
    | some cred => exact .recognize hreq (ho ▸ hclock) (fun _ => hfound) rfl rfl
  have hlater : Later o (o ++ [⟨i, e, (c.state.mem.findAccess (P.sha256 (bearerToken h))
      now).toList.map fun cred => .recognized cred now⟩]) := later_recognized
  split_ifs with hnone
  · refine mails_statement (fun c e db found events ho hdb => ?_) fun r o' h' =>
      hX r o' (hlater.trans h')
    cases hdb
    refine ⟨?_, hQ _ _ (hlater.trans later_recognized) fun cred hcred => ?_⟩
    · cases hfound : c.state.db.getAccessByHash cfg.domainID (P.sha256 (bearerToken h)) now with
      | none => exact .quiet rfl (List.forall_mem_nil _)
      | some row =>
        exact .recognize hreq (ho ▸ hclock' hlater)
          (fun hrepo => absurd hrepo (by simp [hnone.2])) rfl
          rfl
    · rw [hcred]
      exact did_snoc_self (List.mem_singleton_self _)
  · refine mails_done (hQ _ _ hlater fun cred hcred => ?_)
    rw [hcred]
    exact did_snoc_self (List.mem_singleton_self _)

/-- **Whoever makes a request has a good access token**, and has proven itself if it has to. -/
theorem authenticateAccess_mails {h : Headers} (hreq : req.Bears h) {path : Str}
    {Q : Credential → Trace → Prop} {X : Error → Trace → Prop}
    (hQ : ∀ cred now o', Later o o' → Did o' i (.recognized cred now) →
      (cfg.repo = false → cfg.profileGate.profile = .production →
        ∃ id proof now, Did o' i (.looked cred.deviceID id) ∧ id.domainID = cred.domainID ∧
          Did o' i (.used proof minute now true) ∧ ProofVerified P id proof cfg.relayID
            (accessProofChallenge method path (P.sha256 (bearerToken h))) now minute) → Q cred o')
    (hX : ∀ r o', Later o o' → X r o') :
    Mails P J cfg req i (authenticateAccess P J cfg h method path) Q X o := by
  refine .bind (mails_stopIf (fun _ => hX _ _ (.refl o)) fun _ => ?_)
  refine .bind (mails_ask fun e => ?_)
  have h₁ : Later o (o ++ [⟨i, e, []⟩]) := later_idle ..
  refine .bind (lookupAccess_mails hreq ⟨_, List.mem_append_right _ (List.mem_singleton_self _),
    rfl⟩ (fun found o₂ h₂ hfound => ?_) fun r o₂ h₂ => hX r o₂ (h₁.trans h₂))
  cases found with
  | none => exact mails_stop (hX _ _ (h₁.trans h₂))
  | some cred =>
    refine .bind (verifyAccessProof_mails (fun o₃ h₃ hproven => ?_) fun r o₃ h₃ =>
      hX r o₃ (h₁.trans (h₂.trans h₃)))
    exact mails_done (hQ cred _ o₃ (h₁.trans (h₂.trans h₃)) ((hfound cred rfl).extend h₃.trace)
      hproven)

theorem revokeAccess_mails (h : Headers) (deviceID : Str) :
    Mails P J cfg (.revokeAccess h deviceID) i (revokeAccess P J cfg h deviceID)
      (fun _ _ => True) (fun _ _ => True) o := by
  have hreq : (Request.revokeAccess h deviceID).Bears h := rfl
  refine .bind (.bind (.outcome (authenticateAccess_mails hreq (fun cred now o₁ _ _ _ => ?_)
    fun r o₁ _ => ?_)))
  · refine mails_stopIf (fun _ => trivial) fun _ => ?_
    exact mails_quietly (revoked_quietly deviceID) (fun _ _ _ => trivial) fun _ _ _ => trivial
  · refine mails_stopIf (fun _ => trivial) fun _ => ?_
    exact mails_quietly (revoked_quietly deviceID) (fun _ _ _ => trivial) fun _ _ _ => trivial

theorem enqueueEnvelope_mails {h : Headers} (hreq : req = .envelopes h (.ok raw))
    (hrepo : cfg.repo = false) (hsubmission : Submission P J cfg h m raw i o) :
    Mails P J cfg req i (enqueueEnvelope m raw now) (fun _ _ => True) (fun _ _ => True) o := by
  refine .bind (mails_attempt (fun c e s' accepted events ho h => ?_) fun _ _ _ _ => trivial)
  cases h
  refine ⟨.submit hrepo hreq (ho ▸ hsubmission) rfl rfl rfl, ?_⟩
  exact mails_stopIf (fun _ => trivial) fun _ => trivial

theorem Submission.extend {h : Headers} (hs : Submission P J cfg h m raw i o) (ho : o <+: o') :
    Submission P J cfg h m raw i o' := by
  obtain ⟨cred, now, hdid, hdomain, hsender, hproven⟩ := hs.recognized
  refine ⟨hs.read, hs.valid, hs.canonical, cred, now, hdid.extend ho, hdomain, hsender,
    fun hrepo hprofile => ?_⟩
  obtain ⟨id, proof, now', hlooked, hid, hused, hverified⟩ := hproven hrepo hprofile
  exact ⟨id, proof, now', hlooked.extend ho, hid, hused.extend ho, hverified⟩

theorem storeEnvelope_mails {h : Headers} {canon : Bytes} (hreq : req = .envelopes h (.ok raw))
    (hrepo : cfg.repo = true) (hsubmission : Submission P J cfg h m raw i o) :
    Mails P J cfg req i (storeEnvelope cfg m raw canon now) (fun _ _ => True) (fun _ _ => True)
      o := by
  refine .bind (mails_stopIf (fun _ => trivial) fun _ => ?_)
  refine .bind (mails_quietly (Handler.Frames.mapStop (frames_newUUID _)) (fun _ o₁ h₁ => ?_)
    fun _ _ _ => trivial)
  refine .bind (.mapStop (mails_statement (fun c e db u events ho hdb => ?_) fun _ _ _ => trivial))
  obtain ⟨messages, hstore, ⟨⟩⟩ := bind_eq_ok_iff.mp hdb
  refine ⟨.store hrepo hreq (ho ▸ hsubmission.extend h₁.trace) rfl hstore rfl, ?_⟩
  refine mails_quietly ?_ (fun _ _ _ => trivial) fun _ _ _ => trivial
  refine .bind (frames_ofExcept _).mapStop fun _ => .bind (frames_newUUID _).mapStop fun _ =>
    Handler.Frames.mapStop (quietly_statement ?_)
  rintro e db db' a events ⟨⟩
  exact ⟨rfl, List.forall_mem_nil _⟩

/-- What the sections of a submission do to the mail. -/
theorem envelopes_mails (h : Headers) (body : Except Error Bytes) :
    Mails P J cfg (.envelopes h body) i (envelopes P J cfg h body) (fun _ _ => True)
      (fun _ _ => True) o := by
  have hreq : (Request.envelopes h body).Bears h := rfl
  refine .bind (.mapStop (authenticateAccess_mails hreq (fun cred now o₁ h₁ hdid hproven => ?_)
    fun _ _ _ => trivial))
  refine .bind (.mapStop (mails_ofExcept (fun raw hraw => ?_) fun _ _ => trivial))
  refine .bind (.mapStop (mails_ofExcept (fun m hm => ?_) fun _ _ => trivial))
  refine .bind (.mapStop (mails_ofExcept (fun _ hvalid => ?_) fun _ _ => trivial))
  refine .bind (mails_stopIf (fun _ => trivial) fun hsender => ?_)
  refine .bind (.mapStop (mails_ofExcept (fun canon hcanon => ?_) fun _ _ => trivial))
  rw [not_or, not_not, not_not] at hsender
  have hsubmission : Submission P J cfg h m raw i o₁ :=
    ⟨hm, hvalid, ⟨canon, hcanon⟩, cred, now, hdid, hsender.1, hsender.2, hproven⟩
  refine .bind (mails_ask fun e => ?_)
  have hsubmission' := hsubmission.extend (List.prefix_append o₁ [⟨i, e, []⟩])
  dsimp only
  split_ifs with hrepo
  · exact .bind ((storeEnvelope_mails (hraw ▸ rfl) hrepo hsubmission').mono
      (fun _ _ _ => mails_done trivial) fun _ _ _ => trivial)
  · exact .bind ((enqueueEnvelope_mails (hraw ▸ rfl) (Bool.not_eq_true _ |>.mp hrepo)
      hsubmission').mono
      (fun _ _ _ => mails_done trivial) fun _ _ _ => trivial)

theorem adminMessages_mails (h : Headers) :
    Mails P J cfg req i (adminMessages cfg h) (fun _ _ => True) (fun _ _ => True) o := by
  refine .bind (mails_stopIf (fun _ => trivial) fun _ => ?_)
  refine .bind (mails_ask fun e => .bind ?_)
  rw [pendingMetadata]
  split_ifs with hrepo
  · refine mails_quietly (Handler.Frames.mapStop (quietly_statement ?_))
      (fun _ _ _ => mails_done trivial) fun _ _ _ => trivial
    rintro e db db' a events ⟨⟩
    exact ⟨rfl, List.forall_mem_nil _⟩
  · refine mails_attempt (fun c e s' r events ho h => ?_) fun _ _ _ _ => trivial
    cases h
    exact ⟨.snapshot (Bool.not_eq_true _ |>.mp hrepo)
      (rfl : _ = (c.state.mem.queue.snapshotMetadata e.ties _).1) rfl rfl, mails_done trivial⟩

/-! ### Connections -/

/-- **A connection is over**: nothing remains, or a write has failed while something did. With a
database nothing is said. -/
def Finished (cfg : Config) (o : Trace) : Prop :=
  cfg.repo = false → remaining o = [] ∨
    ∃ o₁ x o₂, o = o₁ ++ x :: o₂ ∧ remaining o₁ ≠ [] ∧ x.env.writeFails = true

theorem Finished.later (h : Finished cfg o) (hlater : Later o o') : Finished cfg o' := by
  intro hrepo
  rcases h hrepo with hnone | ⟨o₁, x, o₂, rfl, hsome, hfails⟩
  · exact .inl (hlater.remaining.trans hnone)
  · obtain ⟨o₃, rfl⟩ := hlater.trace
    exact .inr ⟨o₁, x, o₂ ++ o₃, by simp, hsome, hfails⟩

theorem writeFrame_mails {frame : Frame} (hframe : (Event.sent frame).Quiet)
    {Q : Bool → Trace → Prop} (hQ : ∀ written o', Later o o' →
      (written = true → Did o' i (.sent frame)) → Q written o') :
    Mails P J cfg req i (writeFrame frame) Q X o := by
  refine mails_attempt (fun c e s' written events _ h => ?_) fun _ _ _ h => by cases h
  cases h
  have hquiet : ∀ v ∈ (if e.writeFails then [] else [Event.sent frame]), v.Quiet := by
    split_ifs
    · exact List.forall_mem_nil _
    · exact quiet_singleton hframe
  refine ⟨.quiet rfl hquiet, hQ _ _ (later_of_quiet hquiet) fun hwritten => ?_⟩
  rw [Bool.not_eq_true'] at hwritten
  rw [hwritten]
  exact did_snoc_self (List.mem_singleton_self _)

theorem markDelivered_mails {m : Queue.Message} (hm : m ∈ delivered o) {Q : Unit → Trace → Prop}
    {X : Answer → Trace → Prop} (hQ : ∀ o', Later o o' → Q () o') :
    Mails P J cfg req i (markDelivered cfg m) Q X o := by
  rw [markDelivered]
  split_ifs with hrepo
  · refine .bind (mails_ask fun e => ?_)
    have h₁ : Later o (o ++ [⟨i, e, []⟩]) := later_idle ..
    refine .bind (.outcome (.bind (mails_statement (fun c e db u events ho hdb => ?_)
      fun r o' h => mails_done (hQ o' (h₁.trans h)))))
    cases hdb
    have h₂ := h₁.trans (later_idle _ i e)
    refine ⟨.mark hrepo (by rw [ho, h₁.delivered]; exact hm) rfl rfl rfl, ?_⟩
    refine mails_quietly (quietly_statement ?_) (fun _ o' h => mails_done (hQ o' (h₂.trans h)))
      fun _ o' h => mails_done (hQ o' (h₂.trans h))
    rintro e db db' a events ⟨⟩
    exact ⟨rfl, List.forall_mem_nil _⟩
  · exact mails_done (hQ o (.refl o))

/-- **The messages are written in their order**, by induction on those that remain. -/
theorem deliverMessages_mails (messages : List Queue.Message) (n : ℕ)
    (hremaining : remaining o = messages) :
    Mails P J cfg req i (deliverMessages cfg messages n) (fun _ o => Finished cfg o)
      (fun _ o => Finished cfg o) o := by
  induction messages generalizing n o with
  | nil =>
    refine .bind (writeFrame_mails (by trivial) fun _ o' h _ => mails_done fun _ => .inl ?_)
    exact h.remaining.trans hremaining
  | cons m messages ih =>
    refine .bind (mails_attempt (fun c e s' written events ho h => ?_) fun _ _ _ h => by cases h)
    cases h
    cases hfails : e.writeFails with
    | true =>
      refine ⟨.quiet rfl (List.forall_mem_nil _), ?_⟩
      refine .bind (mails_stopIf (fun _ _ => .inr ?_) fun h => absurd rfl h)
      exact ⟨o, _, [], rfl, by rw [hremaining]; exact List.cons_ne_nil _ _, hfails⟩
    | false =>
      obtain ⟨-, -, hdelivered, hrest⟩ := deliver_snoc (x := ⟨i, e,
        [.sent (.message m.messageID m.envelope)]⟩) hremaining rfl
      refine ⟨.write (by rw [ho]; exact hremaining) rfl rfl, ?_⟩
      refine .bind (mails_stopIf (fun h => absurd h (by decide)) fun _ => ?_)
      have hm : m ∈ delivered (o ++ [⟨i, e, [.sent (.message m.messageID m.envelope)]⟩]) := by
        rw [hdelivered]
        simp
      refine .bind (markDelivered_mails hm fun o' h => ?_)
      exact ih _ (h.remaining.trans hrest)

/-- **A connection that has proven itself takes messages once**, and they remain. -/
theorem dequeueMessages_mails (hstart : Later [] o) (hproven : Proven P cfg id i o)
    (hready : Did o i (.ready id)) (hclock : ∃ y ∈ o.getLast?, now = y.env.now.utc)
    {Q : List Queue.Message → Trace → Prop} {X : Error → Trace → Prop}
    (hQ : ∀ messages o', remaining o' = messages → Q messages o')
    (hX : ∀ r o', Later o o' → X r o') :
    Mails P J cfg req i (dequeueMessages cfg id.domainID id.deviceID now 100) Q X o := by
  have hremaining : ∀ (e : Env) (messages : List Queue.Message),
      remaining (o ++ [⟨i, e, [.dequeued id.deviceID messages]⟩]) = messages := by
    intro e messages
    rw [remaining, taken_snoc, written_snoc, hstart.taken, hstart.written]
    simp [taken, written, Event.taken, Event.written]
  rw [dequeueMessages]
  split_ifs with hrepo
  · refine mails_attempt (fun c e s' messages events ho h => ?_) fun _ e r _ =>
      hX r _ (later_idle ..)
    obtain ⟨⟨rows, claimed⟩, hclaim, ⟨⟩⟩ := bind_eq_ok_iff.mp h
    subst ho
    exact ⟨.claim hrepo hclock hstart.taken hproven hready rfl hclaim rfl,
      hQ _ _ (hremaining ..)⟩
  · refine mails_attempt (fun c e s' messages events ho h => ?_) fun _ _ _ h => by cases h
    cases h
    subst ho
    exact ⟨.take (Bool.not_eq_true _ |>.mp hrepo) hstart.taken hproven hready rfl rfl rfl,
      hQ _ _ (hremaining ..)⟩

theorem Proven.extend (h : Proven P cfg id i o) (ho : o <+: o') : Proven P cfg id i o' := by
  obtain ⟨y, hy, challenge, proof, now, hchallenge, hsent, hlooked, hused, hproof⟩ := h
  exact ⟨y, ho.subset hy, challenge, proof, now, hchallenge, hsent.extend ho, hlooked.extend ho,
    hused.extend ho, hproof⟩

/-- **A connection that is ready** takes messages and writes them. -/
theorem deliver_mails (hstart : Later [] o) (hproven : Proven P cfg id i o)
    (hready : Did o i (.ready id)) :
    Mails P J cfg req i (deliver cfg id) (fun _ o => Finished cfg o) (fun _ o => Finished cfg o)
      o := by
  have hnothing : ∀ o', Later [] o' → Finished cfg o' := fun o' h _ => .inl (h.remaining.trans rfl)
  refine .bind (writeFrame_mails (by trivial) fun _ o₁ h₁ _ => .bind (mails_ask fun e => ?_))
  have h₂ := h₁.trans (later_idle o₁ i e)
  refine .bind (.outcome (dequeueMessages_mails (hstart.trans h₂) (hproven.extend h₂.trace)
    (hready.extend h₂.trace) ⟨_, List.getLast?_concat .., rfl⟩ (fun messages o₃ hremaining => ?_)
    fun r o₃ h₃ => ?_))
  · exact deliverMessages_mails messages 0 hremaining
  · refine .bind (writeFrame_mails (by trivial) fun _ o₄ h₄ _ => mails_stop ?_)
    exact hnothing o₄ (hstart.trans (h₂.trans (h₃.trans h₄)))

/-- What the sections of a connection do to the mail, once the device is proven. -/
theorem serveConnection_mails (hstart : Later [] o) (hproven : Proven P cfg id i o) :
    Mails P J cfg req i (serveConnection cfg id) (fun _ o => Finished cfg o)
      (fun _ o => Finished cfg o) o := by
  refine .bind (mails_ask fun e => .bind (mails_ask fun e' => ?_))
  have h₁ := (later_idle o i e).trans (later_idle _ i e')
  refine .bind (mails_attempt (fun c e s' u events _ h => ?_) fun _ _ _ h => by cases h)
  cases h
  refine ⟨.quiet rfl (quiet_singleton trivial), ?_⟩
  have h₂ := h₁.trans (later_of_quiet (x := ⟨i, e, [.ready id]⟩) (quiet_singleton trivial))
  have hclose : ∀ {connectionID o'}, Finished cfg o' → Mails P J cfg req i
      (closeConnection connectionID >>= fun _ => pure ended : Run Answer Answer)
      (fun _ o => Finished cfg o) (fun _ o => Finished cfg o) o' := by
    intro connectionID o' hfinished
    refine .bind (mails_attempt (fun c e s' u events _ h => ?_) fun _ _ _ h => by cases h)
    cases h
    exact ⟨.quiet rfl (List.forall_mem_nil _), mails_done (hfinished.later (later_idle ..))⟩
  exact .bind (.outcome ((deliver_mails (hstart.trans h₂) (hproven.extend h₂.trace)
    (did_snoc_self (List.mem_singleton_self _))).mono (fun _ _ => hclose) fun _ _ => hclose))

/-- **The identity of the device that connects** goes on record. -/
theorem lookupDevice_mails {Q : Option DeviceIdentity → Trace → Prop} {X : Answer → Trace → Prop}
    (hQ : ∀ found o', Later o o' →
      (∀ id, found = some id → Did o' i (.looked deviceID id)) → Q found o')
    (hX : ∀ r o', Later o o' → X r o') : Mails P J cfg req i (lookupDevice cfg deviceID) Q X o := by
  have hsafe : (lookupDevice cfg deviceID).Safe (fun _ _ _ => True) i
      (fun found o' => ∀ id, found = some id → Did o' i (.looked deviceID id)) Handler.anything o :=
    Handler.Safe.weaken (E := Effect P cfg req) (lookupDevice_safe fun found o' _ h => h)
      fun _ _ _ _ => trivial
  exact mails_checked (lookupDevice_quietly deviceID) hsafe hQ fun r o' h _ => hX r o' h

/-- **A connection draws a challenge, and serves whoever answers it.** -/
theorem connect_mails : Mails P J cfg req i (connect P cfg) (fun _ o => Finished cfg o)
    (fun _ o => Finished cfg o) [] := by
  have hnothing : ∀ o', Later [] o' → Finished cfg o' := fun o' h _ => .inl (h.remaining.trans rfl)
  have hrefuse : ∀ {error o'}, Later [] o' → Mails P J cfg req i (refuse error)
      (fun _ o => Finished cfg o) (fun _ o => Finished cfg o) o' := fun {_ _} h =>
    .bind (writeFrame_mails (by trivial) fun _ o' h' _ => mails_done (hnothing o' (h.trans h')))
  refine .bind (mails_ask fun e => ?_)
  have h₁ : Later [] ([] ++ [⟨i, e, []⟩]) := later_idle ..
  refine .bind (writeFrame_mails (by trivial) fun written o₂ h₂ hsent => ?_)
  refine .bind (mails_stopIf (fun _ => hnothing _ (h₁.trans h₂)) fun hwritten => ?_)
  rw [Bool.not_eq_false] at hwritten
  refine .bind (mails_ask fun e' => ?_)
  have h₃ := h₁.trans (h₂.trans (later_idle o₂ i e'))
  split
  · exact mails_done (hnothing _ h₃)
  · next proof _ =>
    refine .bind (lookupDevice_mails (fun found o₄ h₄ hlooked => ?_) fun _ o₄ h₄ =>
      hnothing _ (h₃.trans h₄))
    cases found with
    | none => exact hrefuse (h₃.trans h₄)
    | some id =>
      refine .bind (.outcome (verifyProof_mails (fun now o₅ h₅ hproof hused => ?_) fun r o₅ h₅ =>
        hrefuse (h₃.trans (h₄.trans h₅))))
      have htrace : o₂ <+: o₅ := (List.prefix_append _ _).trans (h₄.trace.trans h₅.trace)
      have hlooked₅ := (hlooked id rfl).extend h₅.trace
      rw [← hproof.deviceID] at hlooked₅
      refine serveConnection_mails (h₃.trans (h₄.trans h₅)) ⟨⟨i, e, []⟩, ?_, _, proof, now, rfl,
        (hsent hwritten).extend htrace, hlooked₅, hused, hproof⟩
      exact htrace.subset (h₂.trace.subset (List.mem_singleton_self _))

end Mails

/-! ### The server -/

section Server

variable {P J cfg} {C : Snapshot → Entry Env Event → Prop} {w : World}

/-- What is asserted of a request that is over. -/
def Over (cfg : Config) : Request → Trace → Prop
  | .connect, o => Finished cfg o
  | _, _ => True

/-- **Every handler has only these effects.** -/
theorem handle_mails (i : ℕ) (req : Request) : Mails P J cfg req i (handle P J cfg req)
    (fun _ o => Over cfg req o) (fun _ o => Over cfg req o) [] := by
  have hquiet : ∀ {p : Run Answer Answer}, Quietly p →
      Mails P J cfg req i p (fun _ _ => True) (fun _ _ => True) [] := fun hp =>
    mails_quietly hp (fun _ _ _ => trivial) fun _ _ _ => trivial
  have hadmin : ∀ {h f}, Quietly (requireAdmin cfg h >>= fun _ =>
      Handler.look (fun s => !s.mem.locked) f : Run Answer Answer) := fun {_ _} =>
    .bind (frames_stopIf _ _) fun _ => frames_look _
  cases req with
  | bindSelf h r => exact hquiet (bindSelf_quietly h r)
  | registerWithTicket r => exact hquiet (registerWithTicket_quietly r)
  | refreshAccess refresh => exact hquiet (refreshAccess_quietly refresh)
  | revokeAccess h d => exact revokeAccess_mails h d
  | envelopes h body => exact envelopes_mails h body
  | connect => exact connect_mails
  | adminDevices h => exact hquiet hadmin
  | adminConnections h => exact hquiet hadmin
  | adminMessages h => exact adminMessages_mails h

theorem mail_hasEffects :
    Server.HasEffects (Initial P cfg) (handle P J cfg) C (MailEffect P J cfg) :=
  Server.hasEffects_of_abides (S := anyState) (Q := fun _ req _ _ o => Over cfg req o)
    (fun _ => trivial) (fun _ _ _ _ _ => trivial) (fun _ _ _ _ _ => trivial)
    fun i req s => handle_mails i req s

/-- **A connection that is over** has written what it has taken, or a write has failed. -/
theorem finished_of_reachable (hw : (server P J cfg C).Reachable w) {i : ℕ} {answer : Answer}
    (h : w.threads i = some (.connect, .done answer) ∨
      w.threads i = some (.connect, .stop answer)) : Finished cfg (own i w.trace) := by
  have habides := Server.abides_of_reachable (S := anyState)
    (Q := fun _ req _ _ o => Over cfg req o) (fun _ => trivial) (fun _ _ _ _ _ => trivial)
    (fun _ _ _ _ _ => trivial) (fun i req s => handle_mails (P := P) (J := J) i req s) hw
  rcases h with h | h
  · obtain ⟨s, -, hp⟩ := habides i _ _ h
    exact hp.result
  · obtain ⟨s, -, hp⟩ := habides i _ _ h
    exact hp.returned

variable {req : Request} {c : Snapshot}

theorem MailEffect.own_cases {s : State} (h : MailEffect P J cfg req c x s) :
    Later (own x.thread c.trace) (own x.thread c.trace ++ [x]) ∨
      (∃ deviceID messages, taken (own x.thread c.trace) = [] ∧
        x.events = [.dequeued deviceID messages]) ∨
      ∃ m rest, remaining (own x.thread c.trace) = m :: rest ∧
        x.events = [.sent (.message m.messageID m.envelope)] := by
  cases h with
  | quiet _ hx => exact .inl (later_of_quiet hx)
  | recognize _ _ _ _ hx | store _ _ _ _ _ hx =>
    refine .inl (later_of_events fun v hv => ?_)
    rw [hx] at hv
    rw [List.mem_singleton.mp hv]
    exact ⟨rfl, rfl⟩
  | snapshot _ _ _ hx | mark _ _ _ _ hx =>
    refine .inl (later_of_events fun v hv => ?_)
    rw [hx] at hv
    exact absurd hv List.not_mem_nil
  | submit _ _ _ _ _ hx =>
    refine .inl (later_of_events fun v hv => ?_)
    rw [hx] at hv
    split_ifs at hv
    · rw [List.mem_singleton.mp hv]
      exact ⟨rfl, rfl⟩
    · exact absurd hv List.not_mem_nil
  | take _ hnone _ _ _ _ hx | claim _ _ hnone _ _ _ _ hx => exact .inr (.inl ⟨_, _, hnone, hx⟩)
  | write hnext _ hx => exact .inr (.inr ⟨_, _, hnext, hx⟩)

variable (P J cfg) in
/-- **What an event tells** of the messages, and of what its request has gone through. -/
def Event.Tells (req : Request) (c : Snapshot) (x : Entry Env Event) (s : State) : Event → Prop
  | .recognized cred now => ∃ h, req.Bears h ∧ (∃ y ∈ own x.thread c.trace, now = y.env.now.utc) ∧
    (cfg.repo = false → c.state.mem.findAccess (P.sha256 (bearerToken h)) now = some cred)
  | .queued msg => cfg.repo = false ∧ ∃ h m raw now, req = .envelopes h (.ok raw) ∧
    Submission P J cfg h m raw x.thread (own x.thread c.trace) ∧ msg = m.message raw now ∧
    s.mem.queue = (c.state.mem.queue.enqueue msg now).1
  | .storedMessage n => storeMessage c.state.db.messages n = .ok s.db.messages
  -- messages are taken from the queue, or from the database
  | .dequeued deviceID messages => ∃ id now, id.deviceID = deviceID ∧
    Relay.taken (own x.thread c.trace) = [] ∧ Proven P cfg id x.thread (own x.thread c.trace) ∧
    Did (own x.thread c.trace) x.thread (.ready id) ∧ x.events = [.dequeued deviceID messages] ∧
    ((cfg.repo = false ∧ s.db.messages = c.state.db.messages ∧ (s.mem.queue, messages) =
        c.state.mem.queue.dequeueFor x.env.ties id.domainID id.deviceID now 100) ∨
      (cfg.repo = true ∧ (∃ y ∈ (own x.thread c.trace).getLast?, now = y.env.now.utc) ∧
        s.mem.queue = c.state.mem.queue ∧ ∃ claimed,
        claimPendingMessagesFor c.state.db.messages x.env id.domainID id.deviceID now minute 100 =
          .ok (s.db.messages, claimed) ∧ messages = claimed.map RelayMessage.message))
  | .sent (.message messageID envelope) => ∃ m rest, remaining (own x.thread c.trace) = m :: rest ∧
    m.messageID = messageID ∧ m.envelope = envelope
  | _ => True

/-- **Every event of a section tells the truth.** -/
theorem MailEffect.tells_of_mem {s : State} (h : MailEffect P J cfg req c x s) (hv : v ∈ x.events) :
    v.Tells P J cfg req c x s := by
  have hsingle : ∀ {v'}, x.events = [v'] → v = v' := by
    intro v' hx
    rwa [hx, List.mem_singleton] at hv
  cases h with
  | quiet _ hx =>
    have hquiet := hx v hv
    cases v with
    | sent frame =>
      cases frame with
      | message _ _ => exact hquiet.elim
      | _ => trivial
    | queued _ | storedMessage _ | dequeued _ _ | recognized _ _ => exact hquiet.elim
    | _ => trivial
  | recognize hreq hclock hfound _ hx =>
    rw [hsingle hx]
    exact ⟨_, hreq, hclock, hfound⟩
  | snapshot _ _ _ hx | mark _ _ _ _ hx =>
    rw [hx] at hv
    exact absurd hv List.not_mem_nil
  | submit hrepo hreq hsubmission hqueue _ hx =>
    split_ifs at hx with haccepted
    · rw [hsingle hx]
      exact ⟨hrepo, _, _, _, _, hreq, hsubmission, rfl, hqueue⟩
    · rw [hx] at hv
      exact absurd hv List.not_mem_nil
  | store _ _ _ _ hstore hx =>
    rw [hsingle hx]
    exact hstore
  | take hrepo hnone hproven hready hqueue hrows hx =>
    rw [hsingle hx]
    exact ⟨_, _, rfl, hnone, hproven, hready, hx, .inl ⟨hrepo, hrows, Prod.ext hqueue rfl⟩⟩
  | claim hrepo hclock hnone hproven hready hqueue hclaim hx =>
    rw [hsingle hx]
    exact ⟨_, _, rfl, hnone, hproven, hready, hx, .inr ⟨hrepo, hclock, hqueue, _, hclaim, rfl⟩⟩
  | write hnext _ hx =>
    rw [hsingle hx]
    exact ⟨_, _, hnext, rfl, rfl⟩

/-- **What a connection has written is a beginning of what it has taken**, in that order. -/
theorem written_eq (hw : (server P J cfg C).Reachable w) (i : ℕ) :
    written (own i w.trace) = (delivered (own i w.trace)).map shown := by
  refine mail_hasEffects.invariant (I := fun c => ∀ i, written (own i c.trace) =
    (delivered (own i c.trace)).map shown) (fun _ _ _ => rfl) (fun req c x s hinv _ hx j => ?_) hw i
  rcases eq_or_ne x.thread j with rfl | hj
  · rw [own_snoc_self]
    have hinv := hinv x.thread
    rcases hx.own_cases with hlater | ⟨d, messages, hnone, hevents⟩ | ⟨m, rest, hnext, hevents⟩
    · rw [hlater.delivered, hlater.written, hinv]
    · have hwritten : written (own x.thread c.trace) = [] := by
        rw [hinv, delivered, hnone, List.take_nil, List.map_nil]
      rw [delivered, written_snoc, hwritten, hevents]
      rfl
    · obtain ⟨-, hwritten, hdelivered, -⟩ := deliver_snoc hnext hevents
      rw [hwritten, hdelivered, hinv, List.map_append]
      rfl
  · rw [own_snoc_of_ne _ hj]
    exact hinv j

end Server

end Relay

end Iscp
