import Iscp.Queue.Order
import Iscp.Relay.Leases
import Iscp.Relay.Mail
import Iscp.Relay.Requests

/-!
# Delivery

Messages are to be delivered in the order of priority, the older ones first. The queue in memory
hands them out in this order. The claim in the database takes them in this order, but returns the
rows it has changed in any order, and `connect` writes them as they are returned: so the order is
kept where it does not matter, that is, where no two of the messages that may be claimed differ in
priority or age (`Iscp.Relay.priority_order_iff`).
-/

namespace Iscp

namespace Relay

open Go Crypto Identity Replay Service

/-! ### The order -/

/-- **Messages in the order of delivery**: by priority, the older ones first. -/
def InOrder (messages : List Queue.Message) : Prop :=
  messages.Pairwise fun m m' => m'.priority < m.priority ∨
    m.priority = m'.priority ∧ m.queuedAt.unixNano ≤ m'.queuedAt.unixNano

instance (messages : List Queue.Message) : Decidable (InOrder messages) :=
  inferInstanceAs (Decidable (List.Pairwise _ _))

/-- A claim can return a message: it may be claimed, and there is room in its counter. -/
def RelayMessage.Returnable (domainID recipient : Str) (now : Time) (m : RelayMessage) : Prop :=
  m.Claimable domainID recipient now ∧ m.deliveryAttempts + 1 < 2 ^ 31

instance (domainID recipient : Str) (now : Time) (m : RelayMessage) :
    Decidable (m.Returnable domainID recipient now) := inferInstanceAs (Decidable (_ ∧ _))

/-- **The messages a claim can return are of one priority and one age.** -/
def OneRank (messages : Rows RelayMessage.key) (domainID recipient : Str) (now : Time) : Prop :=
  ∀ m ∈ messages.list, ∀ m' ∈ messages.list, m.Returnable domainID recipient now →
    m'.Returnable domainID recipient now → m.message.rank = m'.message.rank

instance (messages : Rows RelayMessage.key) (domainID recipient : Str) (now : Time) :
    Decidable (OneRank messages domainID recipient now) :=
  inferInstanceAs (Decidable (∀ m ∈ messages.list, ∀ m' ∈ messages.list, _ → _ → _))

theorem answer_dequeueMessages (cfg : Config) (domainID recipient : Str) (now : Time) (limit : ℤ)
    (e : Env) (s : State) : (dequeueMessages cfg domainID recipient now limit).answer e s =
      some (if cfg.repo then
        (claimPendingMessagesFor s.db.messages e domainID recipient now minute limit).map
          fun r => r.2.map RelayMessage.message
      else .ok (s.mem.queue.dequeueFor e.ties domainID recipient now limit).2) := by
  rw [dequeueMessages]
  split_ifs
  · rw [Handler.answer_attempt]
    cases claimPendingMessagesFor s.db.messages e domainID recipient now minute limit <;> rfl
  · exact Handler.answer_attempt

section Claim

variable {messages : Rows RelayMessage.key} {domainID recipient : Str} {now : Time}
  {lease : Duration} {limit : ℤ}

/-- **A claim returns its messages in order** where it can return one only, or all are alike. -/
theorem inOrder_claimed {e : Env} {r : Rows RelayMessage.key × List RelayMessage}
    (hcond : limit ≤ 1 ∨ OneRank messages domainID recipient now)
    (h : claimPendingMessagesFor messages e domainID recipient now lease limit = .ok r) :
    InOrder (r.2.map RelayMessage.message) := by
  rw [InOrder, List.pairwise_map]
  refine (List.pairwise_map.mp (nodup_claimed h)).imp_of_mem fun {m m'} hm hm' hne => ?_
  obtain ⟨m₀, hm₀, hroom, rfl⟩ := mem_claimed h hm
  obtain ⟨m₀', hm₀', hroom', rfl⟩ := mem_claimed h hm'
  rcases hcond with hlimit | hrank
  · -- two different messages are pending, and one only may be taken
    have hlength : (pending messages e domainID recipient now limit.toNat).length ≤ 1 :=
      (List.length_take_le ..).trans (by omega)
    obtain ⟨m₁, hone⟩ := List.length_eq_one_iff.mp
      (hlength.antisymm (List.length_pos_of_mem hm₀))
    rw [hone, List.mem_singleton] at hm₀ hm₀'
    exact absurd (congrArg RelayMessage.key (hm₀.trans hm₀'.symm)) hne
  · have heq := hrank m₀ (mem_pending hm₀).1 m₀' (mem_pending hm₀').1
      ⟨(mem_pending hm₀).2, hroom⟩ ⟨(mem_pending hm₀').2, hroom'⟩
    obtain ⟨hpriority, hqueued⟩ := Prod.mk.inj heq
    exact .inr ⟨hpriority, hqueued.le⟩

/-- The locks that leave two messages free. -/
def lockedBut (m m' : RelayMessage) (key : Str × Str) : Bool := key ≠ m.key ∧ key ≠ m'.key

variable {m' m : RelayMessage}

theorem lockedBut_eq_false_iff {key : Str × Str} :
    lockedBut m m' key = false ↔ key = m.key ∨ key = m'.key := by
  rw [lockedBut, decide_eq_false_iff_not]
  tauto

theorem mem_pending_lockedBut {e : Env} (hm : m ∈ messages.list) (hm' : m' ∈ messages.list)
    (hclaim : m.Claimable domainID recipient now) (hclaim' : m'.Claimable domainID recipient now)
    (he : e.locks = lockedBut m m') {limit : ℕ} (hlimit : 2 ≤ limit) {m₀ : RelayMessage} :
    m₀ ∈ pending messages e domainID recipient now limit ↔ m₀ = m ∨ m₀ = m' := by
  have hfree : ∀ m₀, m₀ ∈ messages.list.filter (fun m₀ => m₀.Claimable domainID recipient now ∧
      e.locks m₀.key = false) ↔ m₀ = m ∨ m₀ = m' := by
    intro m₀
    rw [List.mem_filter, decide_eq_true_iff, he, lockedBut_eq_false_iff]
    constructor
    · rintro ⟨hmem, -, hkey | hkey⟩
      · exact .inl (List.inj_on_of_nodup_map messages.nodup hmem hm hkey)
      · exact .inr (List.inj_on_of_nodup_map messages.nodup hmem hm' hkey)
    · rintro (rfl | rfl)
      · exact ⟨hm, hclaim, .inl rfl⟩
      · exact ⟨hm', hclaim', .inr rfl⟩
  have hlength : (messages.list.filter (fun m₀ => m₀.Claimable domainID recipient now ∧
      e.locks m₀.key = false)).length ≤ 2 := by
    have hsub : messages.list.filter (fun m₀ => m₀.Claimable domainID recipient now ∧
        e.locks m₀.key = false) ⊆ [m, m'] := fun m₀ hm₀ => by simpa using (hfree m₀).mp hm₀
    exact (List.subperm_of_subset ((List.Nodup.of_map _ messages.nodup).filter _) hsub).length_le
  rw [pending, List.take_of_length_le, mem_sortSlice, hfree]
  rw [(sortSlice_perm ..).length_eq]
  exact hlength.trans hlimit

/-- **Any two messages may be returned, in either order**, if all others are locked. -/
theorem exists_claimed (hdomain : domainID ≠ []) (hrecipient : trimSpace recipient ≠ [])
    (hlease : 0 < lease) (hlimit : 1 < limit) (hm : m ∈ messages.list) (hm' : m' ∈ messages.list)
    (hne : m.key ≠ m'.key) (hreturn : m.Returnable domainID recipient now)
    (hreturn' : m'.Returnable domainID recipient now) :
    ∃ e r, claimPendingMessagesFor messages e domainID recipient now lease limit = .ok r ∧
      [m.claim (timestamptz (now.add lease)),
        m'.claim (timestamptz (now.add lease))].Sublist r.2 := by
  set t := timestamptz (now.add lease) with ht
  let e : Env := { exampleEnv ⟨0, 0⟩ with locks := lockedBut m m' }
  have hpending : ∀ m₀, m₀ ∈ pending messages e domainID recipient now limit.toNat ↔
      m₀ = m ∨ m₀ = m' := fun _ =>
    mem_pending_lockedBut hm hm' hreturn.1 hreturn'.1 rfl (by omega)
  let rows := (claimRows messages (pending messages e domainID recipient now limit.toNat)
    t).list.filter fun m₀ =>
      m₀.key ∈ (pending messages e domainID recipient now limit.toNat).map RelayMessage.key
  have hrows : ∀ m₀ ∈ messages.list, m₀ ∈ pending messages e domainID recipient now limit.toNat →
      m₀.claim t ∈ rows := by
    intro m₀ hmem hm₀
    have hkey := List.mem_map_of_mem (f := RelayMessage.key) hm₀
    exact List.mem_filter.mpr ⟨List.mem_map.mpr ⟨m₀, hmem, if_pos hkey⟩, decide_eq_true hkey⟩
  -- the rows are returned with the two in front
  have hfirst := List.perm_cons_erase (hrows m hm ((hpending m).mpr (.inl rfl)))
  have hne' : m'.claim t ≠ m.claim t := fun h => hne (congrArg RelayMessage.key h).symm
  have hsecond : m'.claim t ∈ rows.erase (m.claim t) :=
    (List.mem_erase_of_ne hne').mpr (hrows m' hm' ((hpending m').mpr (.inr rfl)))
  obtain ⟨order, horder⟩ := exists_shuffle_eq
    (hfirst.trans ((List.perm_cons_erase hsecond).cons _)).symm
  refine ⟨{ e with order := order }, _, (claimPendingMessagesFor_eq_ok_iff (by omega)).mpr
    ⟨hdomain, hrecipient, hlease, rfl, fun m₀ hm₀ => ?_, rfl⟩, ?_⟩
  · rcases (hpending m₀).mp hm₀ with rfl | rfl
    · exact hreturn.2
    · exact hreturn'.2
  · rw [← ht]
    change List.Sublist _ (shuffle order rows)
    rw [horder]
    exact List.sublist_append_left [_, _] _

/-- **A claim returns its messages in order, whatever the database does**, exactly where it can
return one only, or all are alike. -/
theorem forall_inOrder_claimed_iff (hlease : 0 < lease) :
    (∀ e r, claimPendingMessagesFor messages e domainID recipient now lease limit = .ok r →
      InOrder (r.2.map RelayMessage.message)) ↔
    domainID = [] ∨ trimSpace recipient = [] ∨ limit ≤ 1 ∨
      OneRank messages domainID recipient now := by
  constructor
  · intro h
    by_contra hnot
    simp only [not_or, not_le] at hnot
    obtain ⟨hdomain, hrecipient, hlimit, hrank⟩ := hnot
    refine hrank fun m hm m' hm' hreturn hreturn' => ?_
    by_cases hkey : m.key = m'.key
    · rw [List.inj_on_of_nodup_map messages.nodup hm hm' hkey]
    -- neither may go first, so neither goes before the other
    have hboth : ∀ {m m'}, m ∈ messages.list → m' ∈ messages.list → m.key ≠ m'.key →
        m.Returnable domainID recipient now → m'.Returnable domainID recipient now →
        m'.message.goesBefore m.message = false := by
      intro m m' hm hm' hkey hreturn hreturn'
      obtain ⟨e, r, hr, hsub⟩ :=
        exists_claimed hdomain hrecipient hlease hlimit hm hm' hkey hreturn hreturn'
      have hpair := (h e r hr).sublist (hsub.map _)
      rw [List.map_cons, List.map_singleton, List.pairwise_pair] at hpair
      exact Queue.goesBefore_eq_false_iff.mpr hpair
    exact Queue.rank_eq_of_goesBefore (hboth hm' hm (Ne.symm hkey) hreturn' hreturn)
      (hboth hm hm' hkey hreturn hreturn')
  · rintro (rfl | hrecipient | hcond) e r hr
    · simp [claimPendingMessagesFor, bind_eq_ok_iff, failIf_eq_ok_iff] at hr
    · simp [claimPendingMessagesFor, bind_eq_ok_iff, failIf_eq_ok_iff, hrecipient] at hr
    · exact inOrder_claimed hcond hr

end Claim

/-! ### What connections write -/

section Connections

variable {P : Primitives} {J : Unmarshal} {cfg : Config}

/-- **Whenever a device claims messages**, those it can be given at the time it has just read are of
one priority and one age. -/
def Alike (cfg : Config) (c : Snapshot) (x : Entry Env Event) : Prop :=
  cfg.repo = true → ∀ deviceID messages, .dequeued deviceID messages ∈ x.events →
    ∀ id, Did (own x.thread c.trace) x.thread (.ready id) → ∀ y ∈ (own x.thread c.trace).getLast?,
      OneRank c.state.db.messages id.domainID id.deviceID y.env.now.utc

/-- What a connection has taken is in order if every claim is made under `Alike`. -/
theorem inOrder_taken {w : World} (hw : (server P J cfg (Alike cfg)).Reachable w) (i : ℕ) :
    InOrder (taken (own i w.trace)) := by
  refine mail_hasEffects.invariant (I := fun c => ∀ i, InOrder (taken (own i c.trace)))
    (fun _ _ _ => .nil) (fun req c x s hinv hC hx j => ?_) hw i
  rcases eq_or_ne x.thread j with rfl | hj
  · rw [own_snoc_self]
    have hinv := hinv x.thread
    rcases hx.own_cases with hlater | ⟨d, messages, hnone, hevents⟩ | ⟨m, rest, hnext, hevents⟩
    · rwa [hlater.taken]
    · have htaken : taken (own x.thread c.trace ++ [x]) = messages := by
        rw [taken_snoc, hnone, hevents]
        exact List.append_nil messages
      have hd : .dequeued d messages ∈ x.events := by
        rw [hevents]
        exact List.mem_singleton_self _
      rw [htaken]
      obtain ⟨id, now, rfl, -, -, hready, -, hcases⟩ := hx.tells_of_mem hd
      obtain ⟨-, -, hqueue⟩ | ⟨hrepo, ⟨y, hy, rfl⟩, -, claimed, hclaim, rfl⟩ := hcases
      · rw [show messages = _ from congrArg Prod.snd hqueue]
        exact Queue.pairwise_dequeueFor ..
      · exact inOrder_claimed (.inr (hC hrepo _ _ hd id hready y hy)) hclaim
    · obtain ⟨htaken, -⟩ := deliver_snoc hnext hevents
      rwa [htaken]
  · rw [own_snoc_of_ne _ hj]
    exact hinv j

/-- **The order of delivery in either mode.** Whatever the database does, `dequeueMessages` returns
messages in order exactly if there is no database, or the arguments are refused, or one message may
be returned only, or all messages that may be returned are of one priority and one age. What a
connection writes is a beginning of what it was given; so it writes in order whenever messages are
claimed in these circumstances only. -/
theorem priority_order_iff (P : Primitives) (J : Unmarshal) (cfg : Config) :
    (∀ s domainID recipient now limit, (∀ e messages,
      (dequeueMessages cfg domainID recipient now limit).answer e s = some (.ok messages) →
        InOrder messages) ↔
      cfg.repo = false ∨ domainID = [] ∨ trimSpace recipient = [] ∨ limit ≤ 1 ∨
        OneRank s.db.messages domainID recipient now) ∧
    ∀ w, (server P J cfg (Alike cfg)).Reachable w → ∀ i, InOrder (delivered (own i w.trace)) ∧
      written (own i w.trace) = (delivered (own i w.trace)).map shown := by
  refine ⟨fun s domainID recipient now limit => ?_, fun w hw i => ⟨?_, written_eq hw i⟩⟩
  · simp only [answer_dequeueMessages]
    cases hrepo : cfg.repo with
    | false =>
      refine iff_of_true (fun e messages h => ?_) (.inl rfl)
      cases h
      exact Queue.pairwise_dequeueFor ..
    | true =>
      rw [or_iff_right (by decide), ← forall_inOrder_claimed_iff (by decide : 0 < minute)]
      refine forall_congr' fun e => ?_
      cases claimPendingMessagesFor s.db.messages e domainID recipient now minute limit with
      | error err => simp [Except.map]
      | ok r => simp [Except.map]
  · exact (inOrder_taken hw i).sublist (List.take_sublist ..)

/-- Two messages of one priority and one age are returned in order, whatever the database does. -/
theorem priority_order_two : let messages : Rows RelayMessage.key :=
      ⟨[waiting (lit "x") 5, waiting (lit "y") 5], by decide⟩
    (∀ m ∈ messages.list, m.Returnable (lit "lab") (lit "b") ⟨0, 0⟩) ∧
      ∀ e returned, (dequeueMessages (exampleConfig true) (lit "lab") (lit "b") ⟨0, 0⟩ 100).answer e
        ⟨Memory.new, databaseOf messages⟩ = some (.ok returned) → InOrder returned :=
  ⟨by decide, ((priority_order_iff .transparent unreadable (exampleConfig true)).1 _ _ _ _ _).mpr
    (.inr (.inr (.inr (.inr (by decide)))))⟩

/-- **An urgent message is written last.** Of two messages that wait for a device the one with the
lower priority was stored first, and the database returns the rows in the order they were stored;
the connection writes them as they come. -/
theorem priority_order_reversed : ∃ w : World,
    (server .transparent unreadable (exampleConfig true) Server.always).Reachable w ∧
      (taken (own 0 w.trace)).map (fun m => (m.messageID, m.priority)) =
        [(lit "low", 0), (lit "high", 9)] ∧
      written (own 0 w.trace) = [(lit "low", lit "low"), (lit "high", lit "high")] ∧
      ¬InOrder (taken (own 0 w.trace)) := by
  obtain ⟨w, hw, hview⟩ := Option.map_eq_some_iff.mp (show (connecting
      ⟨[waiting (lit "low") 0, waiting (lit "high") 9], by decide⟩ 20 0).map (fun w =>
      ((taken (own 0 w.trace)).map (fun m => (m.messageID, m.priority)), written (own 0 w.trace),
        decide (InOrder (taken (own 0 w.trace))))) = some ([(lit "low", 0), (lit "high", 9)],
      [(lit "low", lit "low"), (lit "high", lit "high")], false) by decide +kernel)
  obtain ⟨htaken, hrest⟩ := Prod.mk.inj hview
  obtain ⟨hwritten, horder⟩ := Prod.mk.inj hrest
  exact ⟨w, reachable_of_connecting (fun _ _ => trivial) hw, htaken, hwritten,
    of_decide_eq_false horder⟩

end Connections

end Relay

end Iscp
