import Iscp.Relay.Repository
import Iscp.Run

/-!
# Delivery leases

Any number of relays share the table of messages, each with a clock of its own. They store
messages, claim them for a recipient, and mark them as delivered, one statement at a time and
in any order; which rows are locked when a claim is made, and how ties fall, is left open
(`Iscp.Relay.statements`).

A claim holds a message until its lease runs out, in whole microseconds, as the column keeps
times: the next claim that gets the message is made no earlier
(`Iscp.Relay.leases_exclude`). What carries this is that the time in the row never gets
earlier while the message is not delivered (`Iscp.Relay.Held`).
-/

namespace Iscp

namespace Relay

open Go Replay Service

/-! ### Statements on one table -/

/-- A claim that has been made, with the messages it got. -/
structure Claim where
  domainID : Str
  recipient : Str
  now : Time
  lease : Duration
  returned : List RelayMessage

/-- The claim has got the message with a key. -/
def Claim.Got (c : Claim) (key : Str × Str) : Prop := ∃ m ∈ c.returned, m.key = key

instance (c : Claim) (key : Str × Str) : Decidable (c.Got key) :=
  inferInstanceAs (Decidable (∃ m ∈ c.returned, m.key = key))

/-- A statement that has been made. A message that is marked may be there or not. -/
inductive Done where
  | stored (m : NewMessage)
  | claimed (c : Claim)
  | marked (key : Str × Str) (present : Bool)

/-- The table, and the statements made on it. -/
structure Ledger where
  messages : Rows RelayMessage.key
  log : List Done

/-- A statement that is made. -/
inductive Statement where
  | store (m : NewMessage)
  | claim (e : Env) (domainID recipient : Str) (now : Time) (lease : Duration) (limit : ℤ)
  | mark (domainID messageID : Str) (now : Time)

/-- What a statement does, unless it fails. -/
def Ledger.next (w : Ledger) : Statement → Option Ledger
  | .store m => (storeMessage w.messages m).toOption.map fun messages =>
      ⟨messages, w.log ++ [.stored m]⟩
  | .claim e domainID recipient now lease limit =>
    (claimPendingMessagesFor w.messages e domainID recipient now lease limit).toOption.map fun r =>
      ⟨r.1, w.log ++ [.claimed ⟨domainID, recipient, now, lease, r.2⟩]⟩
  | .mark domainID messageID now =>
    some ⟨markMessageDelivered w.messages domainID messageID now,
      w.log ++ [.marked (domainID, messageID) (w.messages.get (domainID, messageID)).isSome]⟩

/-- **The statements of all relays**, on a table that is empty at first. -/
def statements : System Ledger Statement :=
  .ofNext (fun w => w.messages = Rows.empty ∧ w.log = []) Ledger.next

/-! ### What a claim gets -/

variable {messages : Rows RelayMessage.key} {m : RelayMessage} {key : Str × Str} {log : List Done}
  {d : Done} {w : Ledger}

theorem mem_pending {e : Env} {domainID recipient : Str} {now : Time} {limit : ℕ}
    (h : m ∈ pending messages e domainID recipient now limit) :
    m ∈ messages.list ∧ m.Claimable domainID recipient now := by
  have hm := List.mem_filter.mp (mem_sortSlice.mp (List.mem_of_mem_take h))
  exact ⟨hm.1, (of_decide_eq_true hm.2).1⟩

/-- **The effect of a claim**: some messages that may be claimed are claimed until the lease runs
out, and these are the ones returned. -/
structure Claims (messages messages' : Rows RelayMessage.key) (c : Claim) : Prop where
  /-- Leases take time. -/
  lease_pos : c.returned ≠ [] → 0 < c.lease
  /-- A message that is returned was claimable, and is what has become of it. -/
  got : ∀ m ∈ c.returned, ∃ m₀, messages.get m.key = some m₀ ∧
    m₀.Claimable c.domainID c.recipient c.now ∧
    m = m₀.claim (timestamptz (c.now.add c.lease)) ∧ messages'.get m.key = some m
  /-- The other messages are as before. -/
  others : ∀ key, ¬c.Got key → messages'.get key = messages.get key

section Claims

variable {messages : Rows RelayMessage.key} {e : Env} {domainID recipient : Str} {now : Time}
  {lease : Duration} {limit : ℤ} {r : Rows RelayMessage.key × List RelayMessage}

/-- The table after the messages of a list have been claimed. -/
def claimRows (messages : Rows RelayMessage.key) (claimed : List RelayMessage) (t : Time) :
    Rows RelayMessage.key :=
  messages.update (fun m => if m.key ∈ claimed.map RelayMessage.key then m.claim t else m)
    fun m => by split_ifs <;> rfl

theorem mem_claimRows {claimed : List RelayMessage} (hclaimed : ∀ m ∈ claimed, m ∈ messages.list)
    {t : Time} (hm : m ∈ (claimRows messages claimed t).list)
    (hkey : m.key ∈ claimed.map RelayMessage.key) : ∃ m₀ ∈ claimed, m = m₀.claim t := by
  obtain ⟨m₁, hm₁, rfl⟩ := List.mem_map.mp hm
  have hkey₁ : (if m₁.key ∈ claimed.map RelayMessage.key then m₁.claim t else m₁).key = m₁.key := by
    split_ifs <;> rfl
  rw [hkey₁] at hkey
  -- the row that was claimed is the one with this key
  obtain ⟨m₀, hm₀, hkey₀⟩ := List.mem_map.mp hkey
  obtain rfl : m₀ = m₁ := List.inj_on_of_nodup_map messages.nodup (hclaimed m₀ hm₀) hm₁ hkey₀
  exact ⟨m₀, hm₀, if_pos hkey⟩

theorem claimPendingMessagesFor_eq_ok_iff (hlimit : ¬limit ≤ 0) :
    claimPendingMessagesFor messages e domainID recipient now lease limit = .ok r ↔
      domainID ≠ [] ∧ trimSpace recipient ≠ [] ∧ 0 < lease ∧ e.sqlFails = false ∧
      (∀ m ∈ pending messages e domainID recipient now limit.toNat,
        m.deliveryAttempts + 1 < 2 ^ 31) ∧
      r = (claimRows messages (pending messages e domainID recipient now limit.toNat)
          (timestamptz (now.add lease)),
        shuffle e.order ((claimRows messages (pending messages e domainID recipient now limit.toNat)
          (timestamptz (now.add lease))).list.filter fun m =>
            m.key ∈
              (pending messages e domainID recipient now limit.toNat).map RelayMessage.key)) := by
  simp only [claimPendingMessagesFor, bind_eq_ok_iff, failIf_eq_ok_iff, exists_const, if_neg hlimit,
    not_le, not_exists, not_and, Bool.not_eq_true]
  rw [eq_comm (a := r)]
  exact and_congr_right fun _ => and_congr_right fun _ => and_congr_right fun _ =>
    and_congr_right fun _ => and_congr_right fun _ => ⟨Except.ok.inj, congrArg Except.ok⟩

theorem eq_of_claim_none (hlimit : limit ≤ 0)
    (h : claimPendingMessagesFor messages e domainID recipient now lease limit = .ok r) :
    r = (messages, []) := by
  simp only [claimPendingMessagesFor, bind_eq_ok_iff, failIf_eq_ok_iff, exists_const,
    if_pos hlimit] at h
  obtain ⟨-, -, ⟨⟩⟩ := h
  rfl

/-- **A message that is returned** was pending, and is what has become of it. -/
theorem mem_claimed
    (h : claimPendingMessagesFor messages e domainID recipient now lease limit = .ok r)
    (hm : m ∈ r.2) :
    ∃ m₀ ∈ pending messages e domainID recipient now limit.toNat,
      m₀.deliveryAttempts + 1 < 2 ^ 31 ∧ m = m₀.claim (timestamptz (now.add lease)) := by
  by_cases hlimit : limit ≤ 0
  · rw [eq_of_claim_none hlimit h] at hm
    exact absurd hm List.not_mem_nil
  obtain ⟨-, -, -, -, hattempts, rfl⟩ := (claimPendingMessagesFor_eq_ok_iff hlimit).mp h
  obtain ⟨hm, hclaimed⟩ := List.mem_filter.mp (mem_shuffle.mp hm)
  obtain ⟨m₀, hm₀, rfl⟩ :=
    mem_claimRows (fun _ hm => (mem_pending hm).1) hm (of_decide_eq_true hclaimed)
  exact ⟨m₀, hm₀, hattempts m₀ hm₀, rfl⟩

theorem nodup_claimed
    (h : claimPendingMessagesFor messages e domainID recipient now lease limit = .ok r) :
    (r.2.map RelayMessage.key).Nodup := by
  by_cases hlimit : limit ≤ 0
  · rw [eq_of_claim_none hlimit h]
    exact List.nodup_nil
  obtain ⟨-, -, -, -, -, rfl⟩ := (claimPendingMessagesFor_eq_ok_iff hlimit).mp h
  refine ((sortSlice_perm ..).map _).nodup_iff.mpr ?_
  exact (claimRows ..).nodup.sublist (List.filter_sublist.map _)

/-- What a successful claim does to the table. -/
theorem claims_of_eq_ok
    (h : claimPendingMessagesFor messages e domainID recipient now lease limit = .ok r) :
    Claims messages r.1 ⟨domainID, recipient, now, lease, r.2⟩ := by
  by_cases hlimit : limit ≤ 0
  · rw [eq_of_claim_none hlimit h]
    exact ⟨fun hne => absurd rfl hne, fun _ hm => absurd hm List.not_mem_nil, fun _ _ => rfl⟩
  have hgot := fun m (hm : m ∈ r.2) => mem_claimed h hm
  obtain ⟨-, -, hlease, -, -, rfl⟩ := (claimPendingMessagesFor_eq_ok_iff hlimit).mp h
  refine ⟨fun _ => hlease, fun m hm => ?_, fun key hkey => ?_⟩
  · obtain ⟨m₀, hm₀, -, rfl⟩ := hgot m hm
    obtain ⟨hmem, hclaimable⟩ := mem_pending hm₀
    have hget : messages.get m₀.key = some m₀ := Rows.get_eq_some_iff.mpr ⟨hmem, rfl⟩
    refine ⟨m₀, hget, hclaimable, rfl, ?_⟩
    change (claimRows messages _ _).get m₀.key = _
    rw [claimRows, Rows.get_update, hget, Option.map_some, if_pos (List.mem_map_of_mem hm₀)]
  · rw [claimRows, Rows.get_update]
    cases hget : messages.get key with
    | none => rfl
    | some m =>
      obtain ⟨hm, rfl⟩ := Rows.mem_of_get hget
      rw [Option.map_some, if_neg]
      intro hclaimed
      refine hkey ⟨m.claim (timestamptz (now.add lease)), mem_shuffle.mpr ?_, rfl⟩
      refine List.mem_filter.mpr ⟨List.mem_map.mpr ⟨m, hm, if_pos hclaimed⟩, ?_⟩
      exact decide_eq_true hclaimed

end Claims

/-! ### Leases -/

/-- **Two statements in the right order**: of two claims that get the same message the later one
is made when the lease of the first has run out, and no claim gets a message after it has been
marked. -/
def Done.Excludes : Done → Done → Prop
  | .claimed c, .claimed c' => ∀ key, c.Got key → c'.Got key →
      (timestamptz (c.now.add c.lease)).unixNano ≤ c'.now.unixNano
  | .marked key present, .claimed c => present = true → ¬c.Got key
  | _, _ => True

/-- The claims among the statements that got a message. -/
def claimsOf (key : Str × Str) (log : List Done) : ℕ :=
  log.countP fun d => match d with
    | .claimed c => c.Got key
    | _ => false

/-- **What a message is held by**, according to the statements on record. -/
structure Held (log : List Done) (key : Str × Str) (m : RelayMessage) : Prop where
  /-- No lease on record runs longer than the row says, unless the message is delivered. -/
  lease : m.deliveredAt = none → ∀ c, .claimed c ∈ log → c.Got key →
    ∃ t ∈ m.deliveryClaimedUntil, (timestamptz (c.now.add c.lease)).unixNano ≤ t.unixNano
  /-- A message that has been marked is delivered. -/
  marked : .marked key true ∈ log → m.deliveredAt ≠ none
  /-- Each claim is counted. -/
  attempts : m.deliveryAttempts = claimsOf key log
  /-- The column keeps whole microseconds. -/
  whole : 1000 ∣ m.expiresAt.unixNano

/-- **What holds of the table and the statements on record.** -/
structure Ledger.Inv (w : Ledger) : Prop where
  held : ∀ key m, w.messages.get key = some m → Held w.log key m
  /-- What is not there has never been claimed or marked. -/
  absent : ∀ key, w.messages.get key = none →
    (∀ c, .claimed c ∈ w.log → ¬c.Got key) ∧ .marked key true ∉ w.log ∧ claimsOf key w.log = 0
  ordered : w.log.Pairwise Done.Excludes
  own : ∀ c, .claimed c ∈ w.log → ∀ m ∈ c.returned, m.domainID = c.domainID ∧
    m.recipientDeviceID = c.recipient ∧ c.now.unixNano < m.expiresAt.unixNano

theorem timestamptz_le (t : Time) : (timestamptz t).unixNano ≤ t.unixNano := by
  simp only [timestamptz]
  omega

theorem dvd_timestamptz (t : Time) : 1000 ∣ (timestamptz t).unixNano := ⟨_, mul_comm _ _⟩

theorem timestamptz_mono {t u : Time} (h : t.unixNano ≤ u.unixNano) :
    (timestamptz t).unixNano ≤ (timestamptz u).unixNano := by
  simp only [timestamptz]
  omega

/-- A statement that has nothing to do with a message. -/
def Done.Spares (key : Str × Str) : Done → Prop
  | .claimed c => ¬c.Got key
  | .marked key' _ => key' ≠ key
  | .stored _ => True

theorem claimsOf_snoc_of_spares (hd : d.Spares key) :
    claimsOf key (log ++ [d]) = claimsOf key log := by
  rw [claimsOf, List.countP_append, List.countP_singleton, claimsOf]
  cases d with
  | claimed c =>
    have hc : ¬c.Got key := hd
    simp [hc]
  | _ => rfl

theorem claimsOf_snoc_of_got {c : Claim} (hc : c.Got key) :
    claimsOf key (log ++ [.claimed c]) = claimsOf key log + 1 := by
  rw [claimsOf, List.countP_append, List.countP_singleton, claimsOf]
  simp [hc]

theorem Held.snoc {m' : RelayMessage} (h : Held log key m) (hd : d.Spares key)
    (hdelivered : m'.deliveredAt = m.deliveredAt)
    (huntil : m'.deliveryClaimedUntil = m.deliveryClaimedUntil)
    (hattempts : m'.deliveryAttempts = m.deliveryAttempts) (hwhole : 1000 ∣ m'.expiresAt.unixNano) :
    Held (log ++ [d]) key m' := by
  refine ⟨fun hnone c hc hgot => ?_, fun hmarked => ?_, ?_, hwhole⟩
  · rw [huntil]
    rcases List.mem_append.mp hc with hc | hc
    · exact h.lease (hdelivered ▸ hnone) c hc hgot
    · obtain rfl := List.mem_singleton.mp hc
      exact absurd hgot hd
  · rw [hdelivered]
    rcases List.mem_append.mp hmarked with hc | hc
    · exact h.marked hc
    · obtain rfl := List.mem_singleton.mp hc
      exact absurd rfl hd
  · rw [hattempts, h.attempts, claimsOf_snoc_of_spares hd]

theorem absent_snoc (hw : w.Inv) (hnone : w.messages.get key = none) (hd : d.Spares key) :
    (∀ c, .claimed c ∈ w.log ++ [d] → ¬c.Got key) ∧ .marked key true ∉ w.log ++ [d] ∧
      claimsOf key (w.log ++ [d]) = 0 := by
  obtain ⟨hclaims, hmarks, hcount⟩ := hw.absent key hnone
  refine ⟨fun c hc => ?_, fun hm => ?_, (claimsOf_snoc_of_spares hd).trans hcount⟩
  · rcases List.mem_append.mp hc with hc | hc
    · exact hclaims c hc
    · obtain rfl := List.mem_singleton.mp hc
      exact hd
  · rcases List.mem_append.mp hm with hm | hm
    · exact hmarks hm
    · obtain rfl := List.mem_singleton.mp hm
      exact hd rfl

/-- Storing a message keeps the invariant of the leases. -/
theorem Ledger.Inv.store (hw : w.Inv) {m : NewMessage}
    (h : storeMessage w.messages m = .ok messages) :
    Ledger.Inv ⟨messages, w.log ++ [.stored m]⟩ := by
  refine ⟨fun key row hrow => ?_, fun key hnone => ?_, ?_, fun c hc => ?_⟩
  · by_cases hkey : key = m.key
    · subst hkey
      obtain rfl := Option.some.inj ((get_storeMessage h).symm.trans hrow)
      cases hold : w.messages.get m.key with
      | none =>
        obtain ⟨hclaims, hmarks, hcount⟩ := absent_snoc hw hold (d := .stored m) trivial
        exact ⟨fun _ c hc hgot => absurd hgot (hclaims c hc), fun h => absurd h hmarks, hcount.symm,
          dvd_timestamptz _⟩
      | some row => exact (hw.held _ row hold).snoc trivial rfl rfl rfl (dvd_timestamptz _)
    · have hheld := hw.held key row ((get_storeMessage_of_ne h hkey).symm.trans hrow)
      exact hheld.snoc trivial rfl rfl rfl hheld.whole
  · refine absent_snoc hw ?_ trivial
    by_cases hkey : key = m.key
    · subst hkey
      cases (get_storeMessage h).symm.trans hnone
    · exact (get_storeMessage_of_ne h hkey).symm.trans hnone
  · refine List.pairwise_append.mpr ⟨hw.ordered, List.pairwise_singleton _ _, ?_⟩
    rintro (_ | _ | _) - _ hd <;>
    · obtain rfl := List.mem_singleton.mp hd
      trivial
  · rcases List.mem_append.mp hc with hc | hc
    · exact hw.own c hc
    · cases List.mem_singleton.mp hc

/-- Claiming messages keeps it. -/
theorem Ledger.Inv.claim (hw : w.Inv) {c : Claim} (h : Claims w.messages messages c) :
    Ledger.Inv ⟨messages, w.log ++ [.claimed c]⟩ := by
  refine ⟨fun key row hrow => ?_, fun key hnone => ?_, ?_, fun c' hc' m hm => ?_⟩
  · by_cases hgot : c.Got key
    · obtain ⟨m, hm, rfl⟩ := hgot
      obtain ⟨m₀, hm₀, ⟨-, -, hdelivered, -, huntil⟩, hclaim, hget⟩ := h.got m hm
      obtain rfl := Option.some.inj (hget.symm.trans hrow)
      have hheld := hw.held _ m₀ hm₀
      have hpos := h.lease_pos (List.ne_nil_of_mem hm)
      refine ⟨fun _ c' hc' hgot' => ?_, fun hmarked => ?_, ?_, ?_⟩
      · rw [hclaim]
        refine ⟨_, rfl, ?_⟩
        rcases List.mem_append.mp hc' with hc' | hc'
        · -- the lease of an earlier claim has run out
          obtain ⟨t, ht, hle⟩ := hheld.lease hdelivered c' hc' hgot'
          refine (hle.trans (huntil t ht)).trans (timestamptz_mono ?_)
          exact le_add_of_nonneg_right hpos.le
        · obtain ⟨⟩ := List.mem_singleton.mp hc'
          exact le_rfl
      · rcases List.mem_append.mp hmarked with hmarked | hmarked
        · exact absurd hdelivered (hheld.marked hmarked)
        · cases List.mem_singleton.mp hmarked
      · rw [claimsOf_snoc_of_got ⟨m, hm, rfl⟩, ← hheld.attempts, hclaim]
        rfl
      · rw [hclaim]
        exact hheld.whole
    · have hheld := hw.held key row ((h.others key hgot).symm.trans hrow)
      exact hheld.snoc hgot rfl rfl rfl hheld.whole
  · have hgot : ¬c.Got key := by
      rintro ⟨m, hm, rfl⟩
      obtain ⟨-, -, -, -, hget⟩ := h.got m hm
      cases hget.symm.trans hnone
    exact absent_snoc hw ((h.others key hgot).symm.trans hnone) hgot
  · refine List.pairwise_append.mpr ⟨hw.ordered, List.pairwise_singleton _ _, fun d hd _ hc => ?_⟩
    obtain rfl := List.mem_singleton.mp hc
    cases d with
    | stored m => trivial
    | claimed c' =>
      rintro key hgot' ⟨m, hm, rfl⟩
      obtain ⟨m₀, hm₀, ⟨-, -, hdelivered, -, huntil⟩, -, -⟩ := h.got m hm
      obtain ⟨t, ht, hle⟩ := (hw.held _ m₀ hm₀).lease hdelivered c' hd hgot'
      exact (hle.trans (huntil t ht)).trans (timestamptz_le _)
    | marked key present =>
      rintro rfl ⟨m, hm, rfl⟩
      obtain ⟨m₀, hm₀, ⟨-, -, hdelivered, -, -⟩, -, -⟩ := h.got m hm
      exact (hw.held _ m₀ hm₀).marked hd hdelivered
  · rcases List.mem_append.mp hc' with hc' | hc'
    · exact hw.own c' hc' m hm
    · obtain ⟨⟩ := List.mem_singleton.mp hc'
      obtain ⟨m₀, hm₀, ⟨hdomain, hrecipient, -, hexpires, -⟩, rfl, -⟩ := h.got m hm
      refine ⟨hdomain, hrecipient, ?_⟩
      -- a whole microsecond that is later than the one the clock is in is later than the clock
      obtain ⟨k, hk⟩ := (hw.held _ m₀ hm₀).whole
      change (_ / 1000 * 1000 : ℤ) < _ at hexpires
      change _ < m₀.expiresAt.unixNano
      omega

/-- Marking a message delivered keeps it. -/
theorem Ledger.Inv.mark (hw : w.Inv) (domainID messageID : Str) (now : Time) :
    Ledger.Inv ⟨markMessageDelivered w.messages domainID messageID now,
      w.log ++ [.marked (domainID, messageID) (w.messages.get (domainID, messageID)).isSome]⟩ := by
  refine ⟨fun key row hrow => ?_, fun key hnone => ?_, ?_, fun c hc => ?_⟩
  · by_cases hkey : key = (domainID, messageID)
    · subst hkey
      rw [get_markMessageDelivered] at hrow
      obtain ⟨m, hm, rfl⟩ := Option.map_eq_some_iff.mp hrow
      have hheld := hw.held _ m hm
      refine ⟨nofun, fun _ => Option.some_ne_none _, ?_, hheld.whole⟩
      rw [claimsOf, List.countP_append, ← claimsOf, ← hheld.attempts]
      rfl
    · have hheld := hw.held key row ((get_markMessageDelivered_of_ne _ now hkey).symm.trans hrow)
      exact hheld.snoc (Ne.symm hkey) rfl rfl rfl hheld.whole
  · by_cases hkey : key = (domainID, messageID)
    · subst hkey
      rw [get_markMessageDelivered, Option.map_eq_none_iff] at hnone
      obtain ⟨hclaims, hmarks, hcount⟩ := hw.absent _ hnone
      rw [hnone]
      refine ⟨fun c hc => hclaims c ?_, fun hm => hmarks ?_, ?_⟩
      · exact (List.mem_append.mp hc).resolve_right fun hc => by cases List.mem_singleton.mp hc
      · exact (List.mem_append.mp hm).resolve_right fun hm => by cases List.mem_singleton.mp hm
      · rw [claimsOf, List.countP_append, ← claimsOf, hcount]
        rfl
    · rw [get_markMessageDelivered_of_ne _ now hkey] at hnone
      exact absent_snoc hw hnone (Ne.symm hkey)
  · refine List.pairwise_append.mpr ⟨hw.ordered, List.pairwise_singleton _ _, ?_⟩
    rintro (_ | _ | _) - _ hd <;>
    · obtain rfl := List.mem_singleton.mp hd
      trivial
  · refine hw.own c ((List.mem_append.mp hc).resolve_right fun hc => ?_)
    cases List.mem_singleton.mp hc

theorem Ledger.reachable_next {w' : Ledger} (hw : statements.Reachable w) (statement : Statement)
    (h : w.next statement = some w') : statements.Reachable w' := hw.step h

/-- The invariant holds after every run of the statements. -/
theorem inv_of_reachable (hw : statements.Reachable w) : w.Inv := by
  refine hw.invariant ?_ ?_
  · rintro ⟨messages, log⟩ ⟨rfl, rfl⟩
    refine ⟨?_, fun _ _ => ⟨?_, List.not_mem_nil, rfl⟩, .nil, ?_⟩
    · intro key m hm
      cases hm
    · intro c hc
      exact absurd hc List.not_mem_nil
    · intro c hc
      exact absurd hc List.not_mem_nil
  · rintro w statement w' - hw hstep
    cases statement with
    | store m =>
      obtain ⟨messages, hstore, rfl⟩ := Option.map_eq_some_iff.mp hstep
      exact hw.store (toOption_eq_some_iff.mp hstore)
    | claim e domainID recipient now lease limit =>
      obtain ⟨r, hclaim, rfl⟩ := Option.map_eq_some_iff.mp hstep
      exact hw.claim (claims_of_eq_ok (toOption_eq_some_iff.mp hclaim))
    | mark domainID messageID now =>
      cases hstep
      exact hw.mark domainID messageID now

/-- **Leases exclude each other**: whatever the relays' clocks show and however their statements
are interleaved, a message that a claim has got is got again only by a claim made when the lease
has run out, as the column keeps it; never after it has been marked; only for its own domain and
recipient, and before it expires. The counter of a message counts its claims. -/
theorem leases_exclude {w : Ledger} (hw : statements.Reachable w) :
    w.log.Pairwise Done.Excludes ∧
      (∀ c, .claimed c ∈ w.log → ∀ m ∈ c.returned, m.domainID = c.domainID ∧
        m.recipientDeviceID = c.recipient ∧ c.now.unixNano < m.expiresAt.unixNano) ∧
      ∀ key m, w.messages.get key = some m → m.deliveryAttempts = claimsOf key w.log :=
  have h := inv_of_reachable hw
  ⟨h.ordered, h.own, fun key m hm => (h.held key m hm).attempts⟩

/-- A message for a domain of its own. -/
def exampleMessage : NewMessage where
  domainID := lit "d"
  messageID := lit "m"
  senderDeviceID := lit "alice"
  recipientDeviceID := lit "bob"
  envelopeRaw := []
  envelopeCanonical := []
  priority := 0
  queuedAt := ⟨0, 0⟩
  expiresAt := ⟨hour, 0⟩

/-- A claim for the recipient of `Iscp.Relay.exampleMessage`, for a minute. -/
def exampleClaim (now : Time) : Statement :=
  .claim (exampleEnv now) (lit "d") (lit "bob") now minute 1

/-- A message is claimed, and got again two minutes later; once it is marked, nobody gets it. -/
theorem leases_exclude_example : ∃ w c c' c'', statements.Reachable w ∧
    w.log = [.stored exampleMessage, .claimed c, .claimed c',
      .marked exampleMessage.key true, .claimed c''] ∧
    c.Got exampleMessage.key ∧ c'.Got exampleMessage.key ∧ ¬c''.Got exampleMessage.key ∧
    w.log.Pairwise Done.Excludes ∧
      (∀ c, .claimed c ∈ w.log → ∀ m ∈ c.returned, m.domainID = c.domainID ∧
        m.recipientDeviceID = c.recipient ∧ c.now.unixNano < m.expiresAt.unixNano) ∧
      ∀ key m, w.messages.get key = some m → m.deliveryAttempts = claimsOf key w.log := by
  have hinit : statements.Reachable ⟨Rows.empty, []⟩ := .init ⟨rfl, rfl⟩
  have hstored := Ledger.reachable_next hinit (.store exampleMessage) rfl
  have hclaimed := Ledger.reachable_next hstored (exampleClaim ⟨500, 0⟩) rfl
  have hagain := Ledger.reachable_next hclaimed (exampleClaim ⟨2 * minute, 0⟩) rfl
  have hmarked := Ledger.reachable_next hagain (.mark (lit "d") (lit "m") ⟨2 * minute, 0⟩) rfl
  have hw := Ledger.reachable_next hmarked (exampleClaim ⟨4 * minute, 0⟩) rfl
  exact ⟨_, _, _, _, hw, rfl, by decide, by decide, by decide, leases_exclude hw⟩

/-- **Less than a microsecond is lost**: a message claimed for a minute at half a microsecond past
the hour is got again at a minute past the hour. -/
theorem lease_ends_early : ∃ w c c', statements.Reachable w ∧
    w.log = [.stored exampleMessage, .claimed c, .claimed c'] ∧
    c.Got exampleMessage.key ∧ c'.Got exampleMessage.key ∧
    c'.now.unixNano < (c.now.add c.lease).unixNano := by
  have hinit : statements.Reachable ⟨Rows.empty, []⟩ := .init ⟨rfl, rfl⟩
  have hstored := Ledger.reachable_next hinit (.store exampleMessage) rfl
  have hclaimed := Ledger.reachable_next hstored (exampleClaim ⟨500, 0⟩) rfl
  have hagain := Ledger.reachable_next hclaimed (exampleClaim ⟨minute, 0⟩) rfl
  exact ⟨_, _, _, hagain, rfl, by decide, by decide, by decide⟩

end Relay

end Iscp
