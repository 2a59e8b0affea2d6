import Iscp.Queue.Order
import Iscp.Relay.Credentials
import Iscp.Relay.Mail
import Iscp.Relay.Requests

/-!
# Who may send what to whom

Without a database, every message that is written to a connection can be followed back in the
record: the connection has taken it from the queue after it had proven itself for the recipient; it
was queued by a request that had been found to bear a good access token of the sender; and that
token had been issued by this Relay (`Iscp.Relay.delivered_authorized`).

Two invariants carry this. The credentials in memory go back to those that were issued
(`Iscp.Relay.FromIssued`), and the messages in the queue and those that were taken go back to
those that were submitted (`Iscp.Relay.Routed`). What the requests have gone through by then is
read off the events at which the message changes hands.
-/

namespace Iscp

namespace Relay

open Go Crypto Identity Replay Service Provisioning

/-! ### Messages go back to envelopes -/

variable {msg : Queue.Message} {t : Trace}

section Routed

variable (P : Primitives) (J : Unmarshal) (cfg : Config)

/-- **A message was queued** from an envelope that could be read. -/
def FromEnvelope (t : Trace) (msg : Queue.Message) : Prop :=
  ∃ t₁ x m raw now, t₁ ++ [x] <+: t ∧ .queued (m.message raw now) ∈ x.events ∧
    J.envelopeMeta raw = .ok m ∧ msg = (m.message raw now).stamp now

/-- **A connection is good for a message**: it has proven itself as the recipient, in the domain of
the message, and is ready. -/
def GoodFor (msg : Queue.Message) (i : ℕ) (o : Trace) : Prop :=
  ∃ id : DeviceIdentity, id.domainID = msg.domainID ∧ id.deviceID = msg.recipientDeviceID ∧
    Proven P cfg id i o ∧ Did o i (.ready id)

/-- **Where messages come from.** -/
structure Routed (c : Snapshot) : Prop where
  queue : ∀ msg ∈ c.state.mem.queue.messages, FromEnvelope J c.trace msg
  handedOut : ∀ i, ∀ msg ∈ taken (own i c.trace),
    FromEnvelope J c.trace msg ∧ GoodFor P cfg msg i (own i c.trace)

variable {P J cfg} {req : Request} {c : Snapshot} {x : Entry Env Event} {s : State}

theorem FromEnvelope.extend {t' : Trace} (h : FromEnvelope J t msg) (ht : t <+: t') :
    FromEnvelope J t' msg := by
  obtain ⟨t₁, x, m, raw, now, ht₁, hrest⟩ := h
  exact ⟨t₁, x, m, raw, now, ht₁.trans ht, hrest⟩

theorem GoodFor.extend {i : ℕ} {o o' : Trace} (h : GoodFor P cfg msg i o) (ho : o <+: o') :
    GoodFor P cfg msg i o' := by
  obtain ⟨id, hdomain, hdevice, hproven, hready⟩ := h
  exact ⟨id, hdomain, hdevice, hproven.extend ho, hready.extend ho⟩

/-- A message of the queue was there before, or this section has queued it. -/
theorem MailEffect.mem_queue (h : MailEffect P J cfg req c x s)
    (hmsg : msg ∈ s.mem.queue.messages) : msg ∈ c.state.mem.queue.messages ∨
      ∃ m raw now, .queued (m.message raw now) ∈ x.events ∧ J.envelopeMeta raw = .ok m ∧
        msg = (m.message raw now).stamp now := by
  cases h with
  | quiet hmail _ | recognize _ _ _ hmail _ | write _ hmail _ =>
    rw [show s.mem.queue = c.state.mem.queue from congrArg Prod.fst hmail] at hmsg
    exact .inl hmsg
  | store _ _ _ hqueue _ _ | claim _ _ _ _ _ hqueue _ _ | mark _ _ hqueue _ _ =>
    rw [hqueue] at hmsg
    exact .inl hmsg
  | snapshot _ hqueue _ _ =>
    rw [hqueue] at hmsg
    exact .inl (List.mem_of_mem_filter hmsg)
  | take _ _ _ _ hqueue _ _ =>
    rw [hqueue] at hmsg
    exact .inl (Queue.mem_of_mem_left hmsg)
  | @submit h m raw now _ _ hsubmission hqueue _ hx =>
    rw [hqueue] at hmsg
    rcases c.state.mem.queue.enqueue_cases (m.message raw now) now with ⟨-, hq⟩ | ⟨haccepted, hq⟩
    · rw [hq] at hmsg
      exact .inl (List.mem_of_mem_filter hmsg)
    · rw [hq] at hmsg
      rcases List.mem_append.mp hmsg with hold | hnew
      · exact .inl (List.mem_of_mem_filter hold)
      · rw [if_pos haccepted] at hx
        exact .inr ⟨m, raw, now, mem_events hx, hsubmission.read, List.mem_singleton.mp hnew⟩

/-- One section keeps the messages routed. -/
theorem Routed.step (hrepo : cfg.repo = false) (h : Routed P J cfg c)
    (hx : MailEffect P J cfg req c x s) : Routed P J cfg ⟨s, c.trace ++ [x]⟩ := by
  have hpre : c.trace <+: c.trace ++ [x] := List.prefix_append _ _
  have htaken : ∀ j, taken (own j (c.trace ++ [x])) = taken (own j c.trace) →
      ∀ msg ∈ taken (own j (c.trace ++ [x])), FromEnvelope J (c.trace ++ [x]) msg ∧
        GoodFor P cfg msg j (own j (c.trace ++ [x])) := by
    intro j hj msg hmsg
    obtain ⟨hfrom, hgood⟩ := h.handedOut j msg (hj ▸ hmsg)
    exact ⟨hfrom.extend hpre, hgood.extend (hpre.filter _)⟩
  constructor
  · intro msg hmsg
    rcases hx.mem_queue hmsg with hold | ⟨m, raw, now, hqueued, hread, hmsg⟩
    · exact (h.queue msg hold).extend hpre
    · exact ⟨c.trace, x, m, raw, now, List.prefix_refl _, hqueued, hread, hmsg⟩
  · intro j
    rcases eq_or_ne x.thread j with rfl | hj
    · rcases hx.own_cases with hlater | ⟨d, messages, hnone, hevents⟩ | ⟨m, rest, hnext, hevents⟩
      · exact htaken _ (by rw [own_snoc_self, hlater.taken])
      · obtain ⟨id, now, -, -, hproven, hready, -, ⟨-, -, hqueue⟩ | ⟨hrepo', -⟩⟩ :=
          hx.tells_of_mem (mem_events hevents)
        · intro msg hmsg
          rw [own_snoc_self, taken_snoc, hnone, hevents] at hmsg
          rw [own_snoc_self]
          rw [List.nil_append, List.flatMap_singleton,
            show messages = _ from congrArg Prod.snd hqueue] at hmsg
          obtain ⟨hold, hdomain, hdevice⟩ := Queue.mem_of_mem_returned hmsg
          have hpre' := List.prefix_append (own x.thread c.trace) [x]
          exact ⟨(h.queue msg hold).extend hpre, id, hdomain.symm, hdevice.symm,
            hproven.extend hpre', hready.extend hpre'⟩
        · cases hrepo.symm.trans hrepo'
      · exact htaken _ (by rw [own_snoc_self, (deliver_snoc hnext hevents).1])
    · exact htaken j (by rw [own_snoc_of_ne _ hj])

end Routed

/-! ### What requests have gone through -/

section Requests

variable (P : Primitives) (J : Unmarshal) (cfg : Config) (C : Snapshot → Entry Env Event → Prop)

/-- **A request has authenticated** with an access token: it has found the token in memory under the
hash of what it bears, neither revoked nor, by its own clock, expired, and the Relay had issued the
token before. -/
def Authenticated (h : Headers) (cred : Credential) (i : ℕ) (t : Trace) : Prop :=
  ∃ (w : World) (x : Entry Env Event) (now : Time), (server P J cfg C).Reachable w ∧
    w.trace ++ [x] <+: t ∧ x.thread = i ∧ .recognized cred now ∈ x.events ∧
    (∃ y ∈ own i w.trace, now = y.env.now.utc) ∧
    w.state.mem.access (P.sha256 (bearerToken h)) = some cred ∧ cred.revoked = false ∧
    now.before cred.expiresAt = true ∧ AccessIssued w.trace cred

/-- **A message was submitted** by an authenticated sender: it was queued by a request, in the world
`w`, whose body it is, and which has authenticated with an access token of the sender. -/
def SubmittedBySender (w : World) (msg : Queue.Message) (t : Trace) : Prop :=
  ∃ (x : Entry Env Event) (t₁ : Trace) (h : Headers) (p : Run Answer Answer)
    (queued : Queue.Message)
    (now : Time) (cred : Credential), t₁ ++ [x] <+: t ∧
    w.threads x.thread = some (.envelopes h (.ok msg.envelope), p) ∧ .queued queued ∈ x.events ∧
    msg = queued.stamp now ∧ cred.deviceID = msg.senderDeviceID ∧ cred.domainID = msg.domainID ∧
    Authenticated P J cfg C h cred x.thread t₁

/-- **A connection was checked**: it is ready for a device, whose identity it has found in memory
when the device was not revoked, and it has proven that it has the key of this identity, for a
challenge of its own. -/
def Checked (id : DeviceIdentity) (i : ℕ) (t : Trace) : Prop :=
  Did t i (.ready id) ∧ Proven P cfg id i (own i t) ∧
    ∃ (w : World) (x : Entry Env Event), (server P J cfg C).Reachable w ∧ w.trace ++ [x] <+: t ∧
      x.thread = i ∧ .looked id.deviceID id ∈ x.events ∧
      w.state.mem.devices id.deviceID = some id ∧ w.state.mem.revoked id.deviceID = none

variable {P J cfg C} {w : World} {t : Trace} {i : ℕ}

theorem exists_split_of_did {v : Event} (hdid : Did t i v) (ht : t <+: w.trace) :
    ∃ t₁ x t₂, w.trace = t₁ ++ x :: t₂ ∧ t₁ ++ [x] <+: t ∧ x.thread = i ∧ v ∈ x.events := by
  obtain ⟨x, hx, hi, hv⟩ := hdid
  obtain ⟨t₁, t₂, rfl⟩ := List.append_of_mem hx
  obtain ⟨t₃, ht₃⟩ := ht
  exact ⟨t₁, x, t₂ ++ t₃, by rw [← ht₃]; simp, ⟨t₂, by simp⟩, hi, hv⟩

theorem authenticated_of_did (hrepo : cfg.repo = false) (hw : (server P J cfg C).Reachable w)
    (ht : t <+: w.trace) {h : Headers} {body : Except Error Bytes} {p : Run Answer Answer}
    (hthread : w.threads i = some (.envelopes h body, p)) {cred : Credential} {now : Time}
    (hdid : Did t i (.recognized cred now)) : Authenticated P J cfg C h cred i t := by
  obtain ⟨t₁, x, t₂, hsplit, hpre, rfl, hv⟩ := exists_split_of_did hdid ht
  obtain ⟨w₁, w₂, req, p', hw₁, rfl, -, heffect, -, -, -, hthread'⟩ :=
    mail_hasEffects.of_split hw hsplit
  obtain ⟨h', hbears, hclock, hfound⟩ := heffect.tells_of_mem hv
  cases hthread.symm.trans hthread'
  obtain rfl : h = h' := hbears
  obtain ⟨haccess, hgood⟩ := Option.filter_eq_some_iff.mp (hfound hrepo)
  obtain ⟨hrevoked, hbefore⟩ := (Bool.and_eq_true _ _).mp hgood
  have hrevoked : cred.revoked = false := by simpa using hrevoked
  refine ⟨w₁, x, now, hw₁, hpre, rfl, hv, hclock, haccess, hrevoked, hbefore, ?_⟩
  -- what is not revoked is what was issued
  obtain ⟨cred₀, hissued, rfl | rfl⟩ := (fromIssued_of_reachable hw₁).access _ _ haccess
  · exact hissued
  · cases hrevoked

theorem checked_of_did (hrepo : cfg.repo = false) (hw : (server P J cfg C).Reachable w)
    (ht : t <+: w.trace) {id : DeviceIdentity} (hproven : Proven P cfg id i (own i t))
    (hready : Did t i (.ready id)) : Checked P J cfg C id i t := by
  refine ⟨hready, hproven, ?_⟩
  obtain ⟨-, -, -, -, -, -, -, hlooked, -⟩ := hproven
  obtain ⟨t₁, x, t₂, hsplit, hpre, rfl, hv⟩ := exists_split_of_did (did_own.mp hlooked) ht
  obtain ⟨w₁, w₂, req, p, hw₁, rfl, -, heffect, -⟩ := effect_hasEffects.of_split hw hsplit
  obtain ⟨-, ⟨hdevice, hrevoked⟩ | ⟨hrepo', -⟩⟩ := heffect.says_of_mem hv
  · exact ⟨w₁, x, hw₁, hpre, rfl, hv, hdevice, hrevoked⟩
  · cases hrepo.symm.trans hrepo'

end Requests

/-! ### Main result -/

section Main

variable {P : Primitives} {J : Unmarshal} {cfg : Config} {C : Snapshot → Entry Env Event → Prop}
  {w : World}

theorem routed_of_reachable (hrepo : cfg.repo = false) (hw : (server P J cfg C).Reachable w) :
    Routed P J cfg w.config := by
  refine mail_hasEffects.invariant (I := Routed P J cfg) (fun s hs => ⟨?_, ?_⟩)
    (fun _ _ _ _ h _ hx => h.step hrepo hx) hw
  · intro msg hmsg
    rw [mem_of_initial hs] at hmsg
    exact absurd hmsg List.not_mem_nil
  · intro i msg hmsg
    exact absurd hmsg List.not_mem_nil

theorem EnvelopeMeta.stamp_message (m : EnvelopeMeta) (raw : Bytes) (now : Time) :
    (m.message raw now).stamp now = { m.message raw now with queuedAt := now } := if_pos rfl

/-- **A message that goes back to an envelope** was submitted by its sender, and is within the
bounds of the Relay. -/
theorem FromEnvelope.submitted (hrepo : cfg.repo = false) (hw : (server P J cfg C).Reachable w)
    (ht : t <+: w.trace) (h : FromEnvelope J t msg) :
    SubmittedBySender P J cfg C w msg t ∧ msg.domainID = cfg.domainID ∧
      (0 ≤ msg.priority ∧ msg.priority ≤ 9) ∧
      0 < msg.expiresAt.unixNano - msg.queuedAt.unixNano ∧
      msg.expiresAt.unixNano - msg.queuedAt.unixNano ≤ 24 * hour := by
  obtain ⟨t₁, x, m, raw, now, hpre, hv, hread, rfl⟩ := h
  obtain ⟨t₂, ht₂⟩ := hpre.trans ht
  obtain ⟨w₁, w₂, req, p, hw₁, rfl, -, heffect, -, -, -, hthread⟩ :=
    mail_hasEffects.of_split hw (show w.trace = t₁ ++ x :: t₂ by rw [← ht₂]; simp)
  obtain ⟨-, h, m', raw', now', rfl, hsubmission, hmessage, -⟩ := heffect.tells_of_mem hv
  -- the envelope is what the section says it is
  obtain rfl : raw = raw' := congrArg Queue.Message.envelope hmessage
  cases hread.symm.trans hsubmission.read
  obtain ⟨cred, now₁, hdid, hdomain, hsender, -⟩ := hsubmission.recognized
  rw [EnvelopeMeta.stamp_message]
  refine ⟨⟨x, w₁.trace, h, p, m.message raw now, now, cred, hpre, hthread, hv,
    (EnvelopeMeta.stamp_message ..).symm, hsender, hdomain, ?_⟩, ?_⟩
  · exact authenticated_of_did hrepo hw ((List.prefix_append _ _).trans (hpre.trans ht)) hthread
      (did_own.mp hdid)
  · have hvalid := hsubmission.valid
    simp only [validateEnvelopeMeta, bind_eq_ok_iff, failIf_eq_ok_iff, exists_const, not_not,
      not_or, not_le, not_lt] at hvalid
    obtain ⟨hdomain, -, httl, hpriority⟩ := hvalid
    have hlife : (now.add (m.ttlSeconds * second)).unixNano - now.unixNano =
        m.ttlSeconds * second := by
      simp [Time.add]
    change _ ∧ _ ∧ 0 < (now.add (m.ttlSeconds * second)).unixNano - now.unixNano ∧
      (now.add (m.ttlSeconds * second)).unixNano - now.unixNano ≤ 24 * hour
    rw [hlife]
    refine ⟨hdomain, hpriority, ?_, ?_⟩
    · simp only [second]
      omega
    · simp only [second, hour, minute]
      omega

/-- **Only what a sender may send goes to the recipient.** Without a database, every message that is
written to a connection was submitted by a request that had authenticated with an access token of
its sender, issued by this Relay and good at the time; it is of the domain of the Relay, of a
priority from 0 to 9 and of a lifetime of at most a day; and the connection had been checked as the
recipient of the message, in its domain. -/
theorem delivered_authorized (hrepo : cfg.repo = false) (hw : (server P J cfg C).Reachable w)
    {t t' : Trace} {z : Entry Env Event} (hz : w.trace = t ++ z :: t') {messageID : Str}
    {envelope : Bytes} (hsent : .sent (.message messageID envelope) ∈ z.events) :
    ∃ msg : Queue.Message, msg.messageID = messageID ∧ msg.envelope = envelope ∧
      SubmittedBySender P J cfg C w msg t ∧ msg.domainID = cfg.domainID ∧
      (0 ≤ msg.priority ∧ msg.priority ≤ 9) ∧
      (0 < msg.expiresAt.unixNano - msg.queuedAt.unixNano ∧
        msg.expiresAt.unixNano - msg.queuedAt.unixNano ≤ 24 * hour) ∧
      ∃ id : DeviceIdentity, id.deviceID = msg.recipientDeviceID ∧ id.domainID = msg.domainID ∧
        Checked P J cfg C id z.thread t := by
  obtain ⟨w₁, w₂, req, p, hw₁, rfl, -, heffect, -⟩ := mail_hasEffects.of_split hw hz
  obtain ⟨msg, rest, hnext, hmessageID, henvelope⟩ := heffect.tells_of_mem hsent
  have htaken : msg ∈ taken (own z.thread w₁.trace) :=
    List.mem_of_mem_drop (hnext ▸ List.mem_cons_self ..)
  obtain ⟨hfrom, id, hdomain, hdevice, hproven, hready⟩ :=
    (routed_of_reachable hrepo hw₁).handedOut z.thread msg htaken
  have ht : w₁.trace <+: w.trace := ⟨_, hz.symm⟩
  obtain ⟨hsubmitted, hdomain', hpriority, hlife⟩ := hfrom.submitted hrepo hw ht
  exact ⟨msg, hmessageID, henvelope, hsubmitted, hdomain', hpriority, hlife, id, hdevice, hdomain,
    checked_of_did hrepo hw ht hproven (did_own.mp hready)⟩

theorem exists_sent_of_written {messageID : Str} {envelope : Bytes}
    (h : (messageID, envelope) ∈ written t) :
    ∃ z ∈ t, .sent (.message messageID envelope) ∈ z.events := by
  obtain ⟨z, hz, hv⟩ := List.mem_flatMap.mp h
  obtain ⟨v, hv, hwritten⟩ := List.mem_flatMap.mp hv
  refine ⟨z, hz, ?_⟩
  cases v with
  | sent frame =>
    cases frame with
    | message _ _ =>
      cases List.mem_singleton.mp hwritten
      exact hv
    | _ => cases hwritten
  | _ => cases hwritten

/-- A device sends a message to itself. -/
theorem delivered_authorized_self : ∃ (w : World) (t t' : Trace) (z : Entry Env Event)
    (msg : Queue.Message) (id : DeviceIdentity),
    (server .transparent (readsAs ownEnvelope) (exampleConfig false) Server.always).Reachable w ∧
      w.trace = t ++ z :: t' ∧ .sent (.message (lit "m") (lit "0")) ∈ z.events ∧
      msg.messageID = lit "m" ∧
      SubmittedBySender .transparent (readsAs ownEnvelope) (exampleConfig false) Server.always w msg
        t ∧
      Checked .transparent (readsAs ownEnvelope) (exampleConfig false) Server.always id
        z.thread t := by
  obtain ⟨w, hw, hwritten⟩ := Option.map_eq_some_iff.mp (show (sendingToItself 13 0).map (fun w =>
    written w.trace) = some [(lit "m", lit "0")] by decide +kernel)
  obtain ⟨z, hz, hsent⟩ := exists_sent_of_written (t := w.trace)
    (hwritten ▸ List.mem_singleton_self _)
  obtain ⟨t, t', hsplit⟩ := List.append_of_mem hz
  have hreachable := reachable_of_sendingToItself (C := Server.always) (fun _ _ => trivial) hw
  obtain ⟨msg, hmessage, -, hsubmitted, -, -, -, id, -, -, hchecked⟩ :=
    delivered_authorized rfl hreachable hsplit hsent
  exact ⟨w, t, t', z, msg, id, hreachable, hsplit, hsent, hmessage, hsubmitted, hchecked⟩

end Main

end Relay

end Iscp
