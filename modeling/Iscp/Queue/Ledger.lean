import Iscp.Queue
import Iscp.Run
import Mathlib.Algebra.BigOperators.Group.List.Basic
import Mathlib.Algebra.Order.BigOperators.Group.List
import Mathlib.Algebra.Order.Group.Multiset
import Mathlib.Tactic.Abel

/-!
# What becomes of queued messages

An account of the queue in memory. Each call takes some messages in, hands some out, and some
vanish: those that were there or came in, and are neither handed out nor there any more
(`Iscp.Queue.call`). Over all calls, what was taken in is what is still there, what was handed out
and what has vanished, each message once; and nothing vanishes unless it has expired, or is handed
out to anyone but its recipient (`Iscp.Queue.accepted_eq`).

The bytes the queue counts are those of the messages in it, never more than it allows, and a message
is refused only if it would not fit beside those that have not expired (`Iscp.Queue.quota`).
-/

namespace Iscp

open Go

namespace Queue

/-! ### Calls -/

/-- The calls of a queue. How the ties of a sort fall is part of a call. -/
inductive Op where
  | enqueue (msg : Message) (now : Time)
  | dequeueFor (ties : ℕ → ℕ) (domainID recipient : Str) (now : Time) (limit : ℤ)
  | snapshotMetadata (ties : ℕ → ℕ) (now : Time)

/-- The reading of the clock a call is made with. -/
def Op.now : Op → Time
  | .enqueue _ now | .dequeueFor _ _ _ now _ | .snapshotMetadata _ now => now

/-- A message, with the time it was queued at. -/
def Message.stamp (msg : Message) (now : Time) : Message :=
  if msg.queuedAt.unixNano = Time.zero.unixNano then { msg with queuedAt := now } else msg

/-- The queue after a call. -/
def after (q : Queue) : Op → Queue
  | .enqueue msg now => (q.enqueue msg now).1
  | .dequeueFor ties domainID recipient now limit =>
    (q.dequeueFor ties domainID recipient now limit).1
  | .snapshotMetadata ties now => (q.snapshotMetadata ties now).1

/-- The message for which `Enqueue` returns true. -/
def accepted (q : Queue) : Op → Multiset Message
  | .enqueue msg now => if (q.enqueue msg now).2 then {msg.stamp now} else 0
  | _ => 0

/-- The messages `DequeueFor` returns. -/
def returned (q : Queue) : Op → Multiset Message
  | .dequeueFor ties domainID recipient now limit =>
    (q.dequeueFor ties domainID recipient now limit).2
  | _ => 0

/-- What is known of a call. -/
structure Call where
  op : Op
  accepted : Multiset Message
  returned : Multiset Message
  dropped : Multiset Message

/-- **A call**: what is neither there any more nor returned was dropped. -/
def call (q : Queue) (op : Op) : Call where
  op := op
  accepted := q.accepted op
  returned := q.returned op
  dropped := ↑q.messages + q.accepted op - (↑(q.after op).messages + q.returned op)

/-- **The runs of a queue**, with all its calls. -/
def calls : System (Queue × List Call) Op :=
  .ofNext (fun s => ∃ maxBytes, s = (new maxBytes, []))
    fun s op => some (s.1.after op, s.2 ++ [s.1.call op])

/-! ### One call -/

variable {q : Queue}

/-- The messages that have expired. -/
def expired (q : Queue) (now : Time) : List Message :=
  q.messages.filter fun m => now.after m.expiresAt

theorem live_add_expired (q : Queue) (now : Time) :
    (q.live now : Multiset Message) + q.expired now = q.messages := by
  rw [Multiset.coe_add, Multiset.coe_eq_coe, live, expired]
  simpa using List.filter_append_perm (fun m : Message => !now.after m.expiresAt) q.messages

/-- `Enqueue`, by what it returns. -/
theorem enqueue_cases (q : Queue) (msg : Message) (now : Time) :
    ((q.enqueue msg now).2 = false ∧ (q.enqueue msg now).1 = q.keep (q.live now)) ∨
    ((q.enqueue msg now).2 = true ∧
      (q.enqueue msg now).1 = q.keep (q.live now ++ [msg.stamp now])) := by
  rw [enqueue]
  dsimp only
  by_cases hfull : (q.keep (q.live now)).maxBytes < msg.envelope.length ∨
      (q.keep (q.live now)).maxBytes < (q.keep (q.live now)).currentBytes + msg.envelope.length
  · rw [if_pos hfull]
    exact .inl ⟨rfl, rfl⟩
  · rw [if_neg hfull, ← Message.stamp]
    exact .inr ⟨rfl, by simp [keep]⟩

/-- What `DequeueFor` returns and what it leaves are the messages that have not expired. -/
theorem dequeueFor_add (q : Queue) (ties : ℕ → ℕ) (domainID recipient : Str) (now : Time)
    (limit : ℤ) :
    ((q.dequeueFor ties domainID recipient now limit).1.messages : Multiset Message) +
      (q.dequeueFor ties domainID recipient now limit).2 = q.live now := by
  set isFor := fun m : Message => decide (m.domainID = domainID ∧ m.recipientDeviceID = recipient)
  set matched := sortSlice (fun m m' => before m.priority m'.priority m.queuedAt m'.queuedAt) ties
    ((q.live now).filter isFor)
  have hmatched : matched.Perm ((q.live now).filter isFor) := sortSlice_perm ..
  have hsplit : ((q.live now).filter fun m => !isFor m) ++ (q.live now).filter isFor |>.Perm
      (q.live now) := List.perm_append_comm.trans (List.filter_append_perm isFor _)
  have hkept : (q.dequeueFor ties domainID recipient now limit).1.messages =
      ((q.live now).filter fun m => !isFor m) ++ matched.drop limit.toNat := by
    simp [dequeueFor, keep, isFor, matched]
  have hout : (q.dequeueFor ties domainID recipient now limit).2 = matched.take limit.toNat := rfl
  rw [hkept, hout, Multiset.coe_add, Multiset.coe_eq_coe, List.append_assoc]
  refine List.Perm.trans (.append_left _ ?_) hsplit
  refine List.perm_append_comm.trans ?_
  rw [List.take_append_drop]
  exact hmatched

/-- **What goes in comes out, stays or expires.** -/
theorem messages_add_accepted (q : Queue) (op : Op) :
    (q.messages : Multiset Message) + q.accepted op =
      ↑(q.after op).messages + q.returned op + q.expired op.now := by
  cases op with
  | enqueue msg now =>
    rw [← q.live_add_expired now]
    rcases q.enqueue_cases msg now with ⟨hfalse, hkeep⟩ | ⟨htrue, hkeep⟩
    · simp [accepted, after, returned, Op.now, hfalse, hkeep, keep]
    · simp only [accepted, after, returned, Op.now, htrue, hkeep, keep, if_true, add_zero,
        ← Multiset.coe_add, Multiset.coe_singleton]
      exact add_right_comm ..
  | dequeueFor ties domainID recipient now limit =>
    simp only [accepted, after, returned, add_zero, Op.now]
    rw [← q.live_add_expired now, q.dequeueFor_add ties domainID recipient now limit]
  | snapshotMetadata ties now =>
    simp only [accepted, after, returned, add_zero, Op.now]
    exact (q.live_add_expired now).symm

theorem dropped_call (q : Queue) (op : Op) : (q.call op).dropped = q.expired op.now := by
  rw [call, messages_add_accepted, add_tsub_cancel_left]

/-- **The account of a call.** -/
theorem call_balanced (q : Queue) (op : Op) :
    ↑q.messages + (q.call op).accepted =
      ↑(q.after op).messages + (q.call op).returned + (q.call op).dropped := by
  rw [dropped_call]
  exact q.messages_add_accepted op

/-- A message that is returned is for the recipient that asked, and has not expired. -/
def Call.Proper (call : Call) : Prop :=
  (∀ m ∈ call.returned, ∃ ties domainID recipient now limit,
    call.op = .dequeueFor ties domainID recipient now limit ∧ m.domainID = domainID ∧
    m.recipientDeviceID = recipient ∧ now.after m.expiresAt = false) ∧
  ∀ m ∈ call.dropped, call.op.now.after m.expiresAt = true

/-- Every call returns and drops only what it may. -/
theorem call_proper (q : Queue) (op : Op) : (q.call op).Proper := by
  constructor
  · intro m hm
    cases op with
    | dequeueFor ties domainID recipient now limit =>
      refine ⟨ties, domainID, recipient, now, limit, rfl, ?_⟩
      have hmem := List.mem_of_mem_take (Multiset.mem_coe.mp hm)
      simp only [mem_sortSlice, live, List.mem_filter, decide_eq_true_eq] at hmem
      obtain ⟨⟨-, hlive⟩, hdomain, hrecipient⟩ := hmem
      exact ⟨hdomain, hrecipient, by simpa using hlive⟩
    | _ => exact absurd hm (Multiset.notMem_zero m)
  · intro m hm
    rw [dropped_call, Multiset.mem_coe, expired, List.mem_filter] at hm
    exact hm.2

/-! ### Runs -/

/-- All messages that were taken in. -/
def totalAccepted (log : List Call) : Multiset Message := (log.map Call.accepted).sum

/-- All messages that were handed out. -/
def totalReturned (log : List Call) : Multiset Message := (log.map Call.returned).sum

/-- All messages that were dropped. -/
def totalDropped (log : List Call) : Multiset Message := (log.map Call.dropped).sum

/-- **The queue neither loses nor duplicates.** At every point what was taken in is what is queued,
what was returned and what was dropped; every message that was returned went to its recipient before
it expired, and every message that was dropped had expired. A call of `Enqueue` that returns false
adds nothing. -/
theorem accepted_eq {s : Queue × List Call} (h : calls.Reachable s) :
    totalAccepted s.2 = ↑s.1.messages + totalReturned s.2 + totalDropped s.2 ∧
    (∀ call ∈ s.2, call.Proper) ∧
    ∀ msg now, (s.1.enqueue msg now).2 = false →
      ((s.1.enqueue msg now).1.messages : Multiset Message) ≤ s.1.messages := by
  refine ⟨?_, ?_, fun msg now hfalse => ?_⟩
  · induction h with
    | init h =>
      obtain ⟨maxBytes, rfl⟩ := h
      rfl
    | @step s s' op _ hs ih =>
      obtain rfl := Option.some.inj hs
      have hcall := s.1.call_balanced op
      simp only [totalAccepted, totalReturned, totalDropped, List.map_append, List.sum_append,
        List.map_singleton, List.sum_singleton] at ih ⊢
      calc (s.2.map Call.accepted).sum + (s.1.call op).accepted
          = ↑s.1.messages + (s.1.call op).accepted + (s.2.map Call.returned).sum +
              (s.2.map Call.dropped).sum := by
            rw [ih]
            abel
        _ = _ := by
            rw [hcall]
            abel
  · induction h with
    | init h =>
      obtain ⟨maxBytes, rfl⟩ := h
      exact nofun
    | @step s s' op _ hs ih =>
      obtain rfl := Option.some.inj hs
      intro call hcall
      rcases List.mem_append.mp hcall with hcall | hcall
      · exact ih call hcall
      · rw [List.mem_singleton.mp hcall]
        exact s.1.call_proper op
  · rcases s.1.enqueue_cases msg now with ⟨-, hkeep⟩ | ⟨htrue, -⟩
    · rw [hkeep, Multiset.coe_le]
      exact List.filter_sublist.subperm
    · cases htrue.symm.trans hfalse

/-- A message from one device to another, of one byte. -/
def exampleMessage (messageID : Str) (expiresAt : ℤ) : Message :=
  ⟨lit "lab", messageID, lit "a", lit "b", [0], 0, ⟨expiresAt, 0⟩, Time.zero⟩

/-- Two messages are queued, one of which is delivered and the other of which expires. -/
theorem accepted_eq_two : ∃ s, calls.Reachable s ∧ totalReturned s.2 ≠ 0 ∧ totalDropped s.2 ≠ 0 ∧
    totalAccepted s.2 = ↑s.1.messages + totalReturned s.2 + totalDropped s.2 := by
  have h₀ : calls.Reachable (new 8, []) := .init ⟨8, rfl⟩
  have h₁ := h₀.step (a := .enqueue (exampleMessage (lit "1") 9) ⟨0, 0⟩) rfl
  have h₂ := h₁.step (a := .enqueue (exampleMessage (lit "2") 1) ⟨0, 0⟩) rfl
  have h₃ := h₂.step (a := .dequeueFor (fun _ => 0) (lit "lab") (lit "b") ⟨2, 0⟩ 100) rfl
  exact ⟨_, h₃, by decide, by decide, (accepted_eq h₃).1⟩

/-! ### The quota -/

/-- The bytes of messages. -/
def size (messages : List Message) : ℕ := (messages.map fun m => m.envelope.length).sum

theorem size_append (messages messages' : List Message) :
    size (messages ++ messages') = size messages + size messages' := by
  rw [size, List.map_append, List.sum_append]
  rfl

theorem size_live_le (q : Queue) (now : Time) : size (q.live now) ≤ size q.messages :=
  List.Sublist.sum_le_sum (List.filter_sublist.map _) fun _ _ => Nat.zero_le _

/-- What `DequeueFor` leaves takes no more than what had not expired. -/
theorem size_dequeueFor_le (q : Queue) (ties : ℕ → ℕ) (domainID recipient : Str) (now : Time)
    (limit : ℤ) :
    size (q.dequeueFor ties domainID recipient now limit).1.messages ≤ size (q.live now) := by
  have hperm := q.dequeueFor_add ties domainID recipient now limit
  rw [Multiset.coe_add, Multiset.coe_eq_coe] at hperm
  have hsize := (hperm.map fun m => m.envelope.length).sum_eq
  rw [← size, ← size, size_append] at hsize
  omega

/-- **`Enqueue` answers whether the message fits** beside those that have not expired. -/
theorem enqueue_eq_true_iff (q : Queue) (msg : Message) (now : Time) :
    (q.enqueue msg now).2 = true ↔
      (msg.envelope.length : ℤ) + size (q.live now) ≤ q.maxBytes := by
  have hmax : (q.keep (q.live now)).maxBytes = q.maxBytes := rfl
  have hcount : (q.keep (q.live now)).currentBytes = size (q.live now) := rfl
  rw [enqueue]
  dsimp only
  by_cases hfits : (msg.envelope.length : ℤ) + size (q.live now) ≤ q.maxBytes
  · rw [if_neg (by omega)]
    exact iff_of_true rfl hfits
  · rw [if_pos (by omega)]
    exact iff_of_false Bool.false_ne_true hfits

/-- **The count is right**, and within the limit. -/
structure Accounted (maxBytes : ℤ) (q : Queue) : Prop where
  limit : q.maxBytes = maxBytes
  count : q.currentBytes = size q.messages
  within : (size q.messages : ℤ) ≤ maxBytes

variable {maxBytes : ℤ}

theorem accounted_new (h : 0 ≤ maxBytes) : Accounted maxBytes (new maxBytes) := ⟨rfl, rfl, h⟩

variable {messages : List Message}

theorem Accounted.keep (h : Accounted maxBytes q) (hsize : (size messages : ℤ) ≤ maxBytes) :
    Accounted maxBytes (q.keep messages) :=
  ⟨h.limit, rfl, hsize⟩

theorem Accounted.size_le (h : Accounted maxBytes q) (hsize : size messages ≤ size q.messages) :
    (size messages : ℤ) ≤ maxBytes :=
  le_trans (Int.ofNat_le.mpr hsize) h.within

/-- `Enqueue` keeps the account of the bytes. -/
theorem Accounted.enqueue (h : Accounted maxBytes q) (msg : Message) (now : Time) :
    Accounted maxBytes (q.enqueue msg now).1 := by
  rcases q.enqueue_cases msg now with ⟨-, hkeep⟩ | ⟨htrue, hkeep⟩
  · rw [hkeep]
    exact h.keep (h.size_le (q.size_live_le now))
  · -- the stamp does not change the envelope
    have hlength : size [msg.stamp now] = msg.envelope.length := by
      rw [Message.stamp]
      split_ifs <;> rfl
    have hfits := (q.enqueue_eq_true_iff msg now).mp htrue
    rw [hkeep]
    refine h.keep ?_
    rw [size_append, hlength]
    have hlimit := h.limit
    omega

/-- **Every call keeps the count right.** -/
theorem Accounted.after (h : Accounted maxBytes q) (op : Op) : Accounted maxBytes (q.after op) := by
  cases op with
  | enqueue msg now => exact h.enqueue msg now
  | dequeueFor ties domainID recipient now limit =>
    exact h.keep (h.size_le ((q.size_dequeueFor_le ties domainID recipient now limit).trans
      (q.size_live_le now)))
  | snapshotMetadata ties now => exact h.keep (h.size_le (q.size_live_le now))

/-- **The quota.** Whatever is called and whenever, the count is that of the messages in the queue
and within the limit, and a message is accepted if and only if it fits beside those that have not
expired. -/
theorem quota (hmax : 0 ≤ maxBytes) {s : Queue × List Call}
    (h : calls.Leads (new maxBytes, []) s) :
    s.1.currentBytes = (s.1.messages.map fun m => m.envelope.length).sum ∧
    (s.1.currentBytes : ℤ) ≤ maxBytes ∧
    ∀ msg now, (s.1.enqueue msg now).2 = true ↔
      (msg.envelope.length : ℤ) + ((s.1.messages.filter fun m => !now.after m.expiresAt).map
        fun m => m.envelope.length).sum ≤ maxBytes := by
  have hacc : Accounted maxBytes s.1 := by
    refine h.keeps (Q := fun s => Accounted maxBytes s.1) (fun s op s' hs hstep => ?_)
      (accounted_new hmax)
    obtain rfl := Option.some.inj hstep
    exact hs.after op
  refine ⟨hacc.count, hacc.count ▸ hacc.within, fun msg now => ?_⟩
  rw [enqueue_eq_true_iff, hacc.limit]
  rfl

/-- In a queue of one byte a message fits once the one before it has expired, and not earlier. -/
theorem quota_one : ∃ s, calls.Leads (new 1, []) s ∧ s.1.currentBytes = 1 ∧
    (s.1.enqueue (exampleMessage (lit "2") 9) ⟨1, 0⟩).2 = false ∧
    (s.1.enqueue (exampleMessage (lit "2") 9) ⟨2, 0⟩).2 = true := by
  have h := System.Leads.refl.step (S := calls) (s := (new 1, []))
    (a := .enqueue (exampleMessage (lit "1") 1) ⟨0, 0⟩) rfl
  obtain ⟨-, -, hiff⟩ := quota (by decide) h
  refine ⟨_, h, rfl, ?_, (hiff _ _).mpr (by decide)⟩
  exact Bool.eq_false_iff.mpr fun htrue => absurd ((hiff _ _).mp htrue) (by decide)

end Queue

end Iscp
