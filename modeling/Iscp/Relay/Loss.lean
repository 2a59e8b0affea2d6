import Iscp.Relay.Leases
import Iscp.Relay.Mail
import Iscp.Relay.Requests

/-!
# Messages on dropped connections

A connection takes a batch of messages first and writes them one by one, and any write may fail.
What then becomes of the rest depends on where the messages are kept. The claim in the database
leaves the rows where they are: a message that was not written is still there, and may be claimed
again when the lease has run out. The queue in memory has lost the whole batch when it hands it
out, and nobody puts the rest back.

So with a database nothing is lost, whatever fails, as long as the row is left alone: nobody
stores another envelope under its key, and no other connection has the message at the same time
(`Iscp.Relay.LeftAlone`). In memory nothing is lost if the writes of messages do not fail
(`Iscp.Relay.taken_not_lost`). What carries the first half is that a message that was taken has
been written to the connection, or is held by its row (`Iscp.Relay.HeldByRow`).
-/

namespace Iscp

namespace Relay

open Go Crypto Identity Replay Service

/-- What is unique about a message. -/
def keyOf (m : Queue.Message) : Str × Str := (m.domainID, m.messageID)

section Rows

variable {P : Primitives} {J : Unmarshal} {cfg : Config} {req : Request} {c : Snapshot}
  {x : Entry Env Event} {s : State} {t t' t₂ : Trace} {m : Queue.Message} {i : ℕ} {key : Str × Str}

/-! ### What a section does to a row -/

/-- **What may become of a row** in a section: its sender and its recipient are the same, its
content is the same unless a message is stored under its key, and it is marked only by a request
that has written the message. -/
structure RowLater (c : Snapshot) (x : Entry Env Event) (key : Str × Str)
    (row row' : RelayMessage) : Prop where
  sender : row'.senderDeviceID = row.senderDeviceID
  recipient : row'.recipientDeviceID = row.recipientDeviceID
  content : row'.message = row.message ∨ ∃ n, .storedMessage n ∈ x.events ∧ n.key = key
  marked : row'.deliveredAt = row.deliveredAt ∨
    ∃ m ∈ delivered (own x.thread c.trace), keyOf m = key

theorem RowLater.refl (c : Snapshot) (x : Entry Env Event) (key : Str × Str) (row : RelayMessage) :
    RowLater c x key row row := ⟨rfl, rfl, .inl rfl, .inl rfl⟩

/-- **A row stays.** -/
theorem MailEffect.row (h : MailEffect P J cfg req c x s) {row : RelayMessage}
    (hrow : c.state.db.messages.get key = some row) :
    ∃ row', s.db.messages.get key = some row' ∧ RowLater c x key row row' := by
  have hsame : s.db.messages.get key = c.state.db.messages.get key →
      ∃ row', s.db.messages.get key = some row' ∧ RowLater c x key row row' := fun hget =>
    ⟨row, hget.trans hrow, .refl ..⟩
  have hrows : s.db.messages = c.state.db.messages →
      ∃ row', s.db.messages.get key = some row' ∧ RowLater c x key row row' := fun hrows =>
    hsame (by rw [hrows])
  cases h with
  | quiet hmail _ => exact hrows (Prod.ext_iff.mp hmail).2
  | recognize _ _ _ hmail _ => exact hrows (Prod.ext_iff.mp hmail).2
  | write _ hmail _ => exact hrows (Prod.ext_iff.mp hmail).2
  | snapshot _ _ h _ => exact hrows h
  | submit _ _ _ _ h _ => exact hrows h
  | take _ _ _ _ _ h _ => exact hrows h
  | @store _ m raw canon now _ _ _ _ hstore hx =>
    by_cases hkey : key = (m.newMessage raw canon now).key
    · subst hkey
      refine ⟨row.restore (m.newMessage raw canon now), ?_, rfl, rfl, .inr ⟨_, ?_, rfl⟩, .inl rfl⟩
      · rw [get_storeMessage hstore, hrow]
        rfl
      · rw [hx]
        exact List.mem_singleton_self _
    · exact hsame (get_storeMessage_of_ne hstore hkey)
  | @claim id now claimed _ _ _ _ _ _ hclaim _ =>
    have hclaims := claims_of_eq_ok hclaim
    by_cases hgot : ∃ m ∈ claimed, m.key = key
    · obtain ⟨m, hm, rfl⟩ := hgot
      obtain ⟨m₀, hget, -, rfl, hget'⟩ := hclaims.got m hm
      cases hrow.symm.trans hget
      exact ⟨_, hget', rfl, rfl, .inl rfl, .inl rfl⟩
    · exact hsame (hclaims.others key hgot)
  | @mark m now _ hm _ h _ =>
    by_cases hkey : key = (m.domainID, m.messageID)
    · subst hkey
      refine ⟨row.deliver now, ?_, rfl, rfl, .inl rfl, .inr ⟨m, hm, rfl⟩⟩
      rw [h, get_markMessageDelivered, hrow]
      rfl
    · exact hsame (by rw [h, get_markMessageDelivered_of_ne _ _ hkey])

/-! ### Messages are held by rows -/

theorem MailEffect.delivered_subset (h : MailEffect P J cfg req c x s) (i : ℕ) :
    delivered (own i c.trace) ⊆ delivered (own i (c.trace ++ [x])) := by
  rcases eq_or_ne x.thread i with rfl | hi
  · rw [own_snoc_self]
    rcases h.own_cases with hlater | ⟨d, messages, hnone, hevents⟩ | ⟨m, rest, hnext, hevents⟩
    · rw [hlater.delivered]
      exact List.Subset.refl _
    · rw [delivered, hnone, List.take_nil]
      exact List.nil_subset _
    · obtain ⟨-, -, hdelivered, -⟩ := deliver_snoc hnext hevents
      rw [hdelivered]
      exact List.subset_append_left ..
  · rw [own_snoc_of_ne _ hi]
    exact List.Subset.refl _

/-- **A message is held by a row** that has not been marked. -/
def HeldByRow (c : Snapshot) (m : Queue.Message) : Prop :=
  ∃ row, c.state.db.messages.get (keyOf m) = some row ∧ row.message = m ∧ row.deliveredAt = none

/-- **Others leave a message alone** in these sections of a run: no message is stored under its
key, and no connection that has it too is at work. -/
def LeftAlone (i : ℕ) (key : Str × Str) (t t₂ : Trace) : Prop :=
  ∀ y ∈ t₂, (∀ n, .storedMessage n ∈ y.events → n.key ≠ key) ∧
    (y.thread ≠ i → ∀ m ∈ taken (own y.thread t), keyOf m ≠ key)

theorem taken_mono (h : t <+: t') (i : ℕ) : taken (own i t) ⊆ taken (own i t') := by
  obtain ⟨t₂, rfl⟩ := h
  rw [own_append]
  simp [taken]

theorem LeftAlone.of_prefix {t₂' : Trace} (h : LeftAlone i key t' t₂') (ht : t <+: t')
    (ht₂ : t₂ <+: t₂') : LeftAlone i key t t₂ := fun y hy =>
  have ⟨hstored, htaken⟩ := h y (ht₂.subset hy)
  ⟨hstored, fun hi m hm => htaken hi m (taken_mono ht _ hm)⟩

/-- **The row holds the message**, unless its connection has written it. -/
theorem HeldByRow.step (h : HeldByRow c m) (hx : MailEffect P J cfg req c x s)
    (halone : LeftAlone i (keyOf m) c.trace [x])
    (hnodup : ((taken (own i c.trace)).map keyOf).Nodup) (hm : m ∈ taken (own i c.trace)) :
    m ∈ delivered (own i c.trace) ∨ HeldByRow ⟨s, c.trace ++ [x]⟩ m := by
  obtain ⟨hstored, hothers⟩ := halone x (List.mem_singleton_self x)
  obtain ⟨row, hrow, hcontent, hmarked⟩ := h
  obtain ⟨row', hrow', hlater⟩ := hx.row hrow
  rcases hlater.marked with hmarked' | ⟨m', hm', hkey⟩
  · have hcontent' := hlater.content.resolve_right fun ⟨n, hn, hkey⟩ => hstored n hn hkey
    exact .inr ⟨row', hrow', hcontent'.trans hcontent, hmarked'.trans hmarked⟩
  · have htaken := List.mem_of_mem_take hm'
    obtain rfl : x.thread = i := by
      by_contra hi
      exact hothers hi m' htaken hkey
    -- no connection takes two messages with one key
    obtain rfl := List.inj_on_of_nodup_map hnodup htaken hm hkey
    exact .inl hm'

/-- **What was taken was written or is held**, if it has been left alone since, and no message is
taken twice by one connection. -/
def TakenHeld (cfg : Config) (c : Snapshot) : Prop :=
  cfg.repo = true → (∀ i, ((taken (own i c.trace)).map keyOf).Nodup) ∧
    ∀ t₁ x t₂ d batch m, c.trace = t₁ ++ x :: t₂ → .dequeued d batch ∈ x.events → m ∈ batch →
      LeftAlone x.thread (keyOf m) c.trace t₂ →
      m ∈ delivered (own x.thread c.trace) ∨ HeldByRow c m

theorem mem_taken {d : Str} {batch : List Queue.Message} (hx : x ∈ t)
    (hd : .dequeued d batch ∈ x.events) (hm : m ∈ batch) : m ∈ taken (own x.thread t) :=
  List.mem_flatMap.mpr ⟨x, mem_own.mpr ⟨hx, rfl⟩, List.mem_flatMap.mpr ⟨_, hd, hm⟩⟩

theorem MailEffect.claimed (h : MailEffect P J cfg req c x s) (hrepo : cfg.repo = true) {d : Str}
    {batch : List Queue.Message} (hd : .dequeued d batch ∈ x.events) :
    (batch.map keyOf).Nodup ∧ ∀ m ∈ batch, HeldByRow ⟨s, c.trace ++ [x]⟩ m := by
  obtain ⟨id, now, -, -, -, -, -, ⟨hrepo', -⟩ | ⟨-, -, -, claimed, hclaim, rfl⟩⟩ :=
    h.tells_of_mem hd
  · cases hrepo'.symm.trans hrepo
  refine ⟨?_, fun m hm => ?_⟩
  · rw [List.map_map]
    exact nodup_claimed hclaim
  · obtain ⟨row, hrow, rfl⟩ := List.mem_map.mp hm
    obtain ⟨row₀, -, hclaimable, rfl, hget⟩ := (claims_of_eq_ok hclaim).got row hrow
    exact ⟨_, hget, rfl, hclaimable.2.2.1⟩

theorem MailEffect.nodup_taken (h : MailEffect P J cfg req c x s) (hrepo : cfg.repo = true)
    (hnodup : ((taken (own i c.trace)).map keyOf).Nodup) :
    ((taken (own i (c.trace ++ [x]))).map keyOf).Nodup := by
  rcases eq_or_ne x.thread i with rfl | hi
  · rw [own_snoc_self]
    rcases h.own_cases with hlater | ⟨d, messages, hnone, hevents⟩ | ⟨m, rest, hnext, hevents⟩
    · rwa [hlater.taken]
    · have htaken : taken (own x.thread c.trace ++ [x]) = messages := by
        rw [taken_snoc, hnone, hevents]
        exact List.append_nil messages
      rw [htaken]
      exact (h.claimed hrepo (hevents ▸ List.mem_singleton_self _)).1
    · rwa [(deliver_snoc hnext hevents).1]
  · rwa [own_snoc_of_ne _ hi]

/-- One section keeps every message taken either written or held by its row. -/
theorem TakenHeld.step (h : TakenHeld cfg c) (hx : MailEffect P J cfg req c x s) :
    TakenHeld cfg ⟨s, c.trace ++ [x]⟩ := by
  intro hrepo
  obtain ⟨hnodup, hheld⟩ := h hrepo
  refine ⟨fun i => hx.nodup_taken hrepo (hnodup i), ?_⟩
  intro t₁ y t₂ d batch m ht hd hm halone
  rcases snoc_eq_split.mp ht with ⟨rfl, rfl, rfl⟩ | ⟨t₂', rfl, ht'⟩
  · exact .inr ((hx.claimed hrepo hd).2 m hm)
  · have hprefix : c.trace <+: c.trace ++ [x] := List.prefix_append ..
    have hy : y ∈ c.trace := by simp [ht']
    have hlast : LeftAlone y.thread (keyOf m) c.trace [x] := fun z hz =>
      (halone.of_prefix hprefix (List.prefix_refl _)) z (List.mem_append_right _ hz)
    have hnow := hheld t₁ y t₂' d batch m ht' hd hm
      (halone.of_prefix hprefix (List.prefix_append ..))
    rcases hnow with hdelivered | hrow
    · exact .inl (hx.delivered_subset _ hdelivered)
    · exact (hrow.step hx hlast (hnodup _) (mem_taken hy hd hm)).imp_left
        fun hdelivered => hx.delivered_subset _ hdelivered

end Rows

/-! ### Main results -/

section Loss

variable {P : Primitives} {J : Unmarshal} {cfg : Config} {w : World} {i : ℕ} {m : Queue.Message}
  {x : Entry Env Event}

theorem takenHeld_of_reachable {C : Snapshot → Entry Env Event → Prop}
    (hw : (server P J cfg C).Reachable w) : TakenHeld cfg w.config :=
  mail_hasEffects.invariant (I := TakenHeld cfg)
    (fun _ _ _ => ⟨fun _ => List.nodup_nil, fun _ _ _ _ _ _ h => absurd h.symm (by simp)⟩)
    (fun _ _ _ _ h _ hx => h.step hx) hw

/-- Without a database, **the writes of messages do not fail**. -/
def WritesHold (cfg : Config) (c : Snapshot) (x : Entry Env Event) : Prop :=
  cfg.repo = false → remaining (own x.thread c.trace) ≠ [] → x.env.writeFails = false

theorem remaining_eq_nil (hw : (server P J cfg (WritesHold cfg)).Reachable w) {answer : Answer}
    (hover : w.threads i = some (.connect, .done answer) ∨
      w.threads i = some (.connect, .stop answer)) (hrepo : cfg.repo = false) :
    remaining (own i w.trace) = [] := by
  rcases finished_of_reachable hw hover hrepo with hnone | ⟨o₁, x, o₂, ho, hsome, hfails⟩
  · exact hnone
  · obtain ⟨t₁, t₂, ht, rfl, rfl, -⟩ := own_eq_split ho
    obtain ⟨w₁, -, -, -, -, rfl, hC, -⟩ := mail_hasEffects.of_split hw ht
    cases (hC hrepo hsome).symm.trans hfails

/-- **No message is lost on a connection that is over**: each message it has taken it has written,
or there is a database, and the row of the message is as it was when it was taken, and can be
claimed for the same device again as soon as its lease has run out and until it expires. With a
database this supposes that others leave the message alone from then on, and in memory that the
writes of messages do not fail. -/
theorem taken_not_lost (hw : (server P J cfg (WritesHold cfg)).Reachable w) {answer : Answer}
    (hover : w.threads x.thread = some (.connect, .done answer) ∨
      w.threads x.thread = some (.connect, .stop answer)) {t₁ t₂ : Trace} {d : Str}
    {batch : List Queue.Message} (ht : w.trace = t₁ ++ x :: t₂) (hd : .dequeued d batch ∈ x.events)
    (hm : m ∈ batch) (halone : cfg.repo = true → LeftAlone x.thread (keyOf m) w.trace t₂) :
    m ∈ delivered (own x.thread w.trace) ∧ shown m ∈ written (own x.thread w.trace) ∨
    cfg.repo = true ∧ ∃ row, w.state.db.messages.get (keyOf m) = some row ∧ row.message = m ∧
      row.deliveredAt = none ∧ ∀ now,
        (∀ t ∈ row.deliveryClaimedUntil, t.unixNano ≤ (timestamptz now).unixNano) →
        (timestamptz now).unixNano < row.expiresAt.unixNano →
        row.Claimable m.domainID m.recipientDeviceID now := by
  have hwritten : m ∈ delivered (own x.thread w.trace) →
      shown m ∈ written (own x.thread w.trace) := fun hm => by
    rw [written_eq hw]
    exact List.mem_map_of_mem hm
  cases hrepo : cfg.repo with
  | false =>
    have hx : x ∈ w.trace := by simp [ht]
    have htaken := mem_taken hx hd hm
    rw [← delivered_append_remaining, remaining_eq_nil hw hover hrepo, List.append_nil] at htaken
    exact .inl ⟨htaken, hwritten htaken⟩
  | true =>
    rcases (takenHeld_of_reachable hw hrepo).2 t₁ x t₂ d batch m ht hd hm (halone hrepo) with
      hdelivered | ⟨row, hrow, hcontent, hmarked⟩
    · exact .inl ⟨hdelivered, hwritten hdelivered⟩
    refine .inr ⟨rfl, row, hrow, hcontent, hmarked, fun now hlease hexpiry => ?_⟩
    have hdomain : row.domainID = m.domainID := congrArg Queue.Message.domainID hcontent
    have hrecipient : row.recipientDeviceID = m.recipientDeviceID :=
      congrArg Queue.Message.recipientDeviceID hcontent
    exact ⟨hdomain, hrecipient, hmarked, hexpiry, hlease⟩

/-- The message that an event stores. -/
def Event.stores : Event → Option NewMessage
  | .storedMessage n => some n
  | _ => none

/-- With a database a write fails, and the row is still there. -/
theorem taken_not_lost_row : ∃ (w : World) (m : Queue.Message) (answer : Answer)
    (x : Entry Env Event) (t₁ t₂ : Trace) (d : Str) (batch : List Queue.Message),
    (server .transparent unreadable (exampleConfig true)
      (WritesHold (exampleConfig true))).Reachable w ∧
      w.threads x.thread = some (.connect, .done answer) ∧ w.trace = t₁ ++ x :: t₂ ∧
      .dequeued d batch ∈ x.events ∧ m ∈ batch ∧ LeftAlone x.thread (keyOf m) w.trace t₂ ∧
      written (own x.thread w.trace) = [] ∧ HeldByRow w.config m := by
  obtain ⟨w, hw, hended, ⟨x, hx, hsome⟩, hnone, hquiet⟩ :
      ∃ w ∈ connecting ⟨[waiting (lit "x") 0], by decide⟩ 14 2, World.ended w 0 = true ∧
        (∃ x ∈ w.trace, x.events.flatMap Event.taken ≠ []) ∧ written (own 0 w.trace) = [] ∧
        ∀ y ∈ w.trace, y.thread = 0 ∧ ∀ v ∈ y.events, v.stores = none := by
    decide +kernel
  obtain ⟨answer, hthread⟩ := World.threads_of_ended hended
  obtain ⟨m, hm⟩ := List.exists_mem_of_ne_nil _ hsome
  obtain ⟨v, hv, hm⟩ := List.mem_flatMap.mp hm
  cases v with
  | dequeued d batch =>
    obtain ⟨t₁, t₂, ht⟩ := List.append_of_mem hx
    have hreachable := reachable_of_connecting (C := WritesHold (exampleConfig true))
      (fun _ _ => nofun) hw
    rw [← (hquiet x hx).1] at hthread hnone
    have halone : LeftAlone x.thread (keyOf m) w.trace t₂ := by
      intro y hy
      obtain ⟨hy₀, hstores⟩ := hquiet y (by simp [ht, hy])
      refine ⟨fun n hn => (nomatch hstores _ hn), fun hne => absurd ?_ hne⟩
      rw [hy₀, (hquiet x hx).1]
    rcases taken_not_lost hreachable (.inl hthread) ht hv hm fun _ => halone with
      ⟨-, hshown⟩ | ⟨-, row, hrow, hcontent, hmarked, -⟩
    · rw [hnone] at hshown
      exact absurd hshown List.not_mem_nil
    · exact ⟨w, m, answer, x, t₁, t₂, d, batch, hreachable, hthread, ht, hv, hm, halone, hnone, row,
        hrow, hcontent, hmarked⟩
  | _ => exact absurd hm List.not_mem_nil

/-- **A message is lost.** In memory a device sends itself a message and connects, and the write of
the message fails: the connection is over, no message was written to any connection, and the queue
is empty. -/
theorem taken_lost : ∃ (w : World) (m : Queue.Message) (answer : Answer),
    (server .transparent (readsAs ownEnvelope) (exampleConfig false) Server.always).Reachable w ∧
      w.threads 0 = some (.connect, .done answer) ∧ m ∈ taken (own 0 w.trace) ∧
      m ∉ delivered (own 0 w.trace) ∧ written w.trace = [] ∧ w.state.mem.queue.messages = [] := by
  obtain ⟨w, hw, hview⟩ := Option.map_eq_some_iff.mp (show (sendingToItself 12 2).map (fun w =>
      (World.ended w 0, (taken (own 0 w.trace)).length, (written (own 0 w.trace)).length,
        (written w.trace).length, w.state.mem.queue.messages.length)) = some (true, 1, 0, 0, 0) by
    decide +kernel)
  obtain ⟨hended, hrest⟩ := Prod.mk.inj hview
  obtain ⟨htaken, hrest⟩ := Prod.mk.inj hrest
  obtain ⟨hwritten, hrest⟩ := Prod.mk.inj hrest
  obtain ⟨hall, hqueue⟩ := Prod.mk.inj hrest
  obtain ⟨answer, hthread⟩ := World.threads_of_ended hended
  obtain ⟨m, hm⟩ := List.length_eq_one_iff.mp htaken
  refine ⟨w, m, answer, reachable_of_sendingToItself (fun _ _ => trivial) hw, hthread, ?_, ?_,
    List.length_eq_zero_iff.mp hall, List.length_eq_zero_iff.mp hqueue⟩
  · rw [hm]
    exact List.mem_singleton_self m
  · rw [delivered, hwritten, List.take_zero]
    exact List.not_mem_nil

end Loss

end Relay

end Iscp
