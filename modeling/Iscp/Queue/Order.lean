import Iscp.Queue.Ledger

/-!
# The order of delivery

`DequeueFor` hands out the first messages of its recipient in the order of `Iscp.Queue.before` and
leaves the others where they are, behind the messages of everyone else (`Iscp.Queue.dequeueFor_eq`).
The load-bearing fact is that what is left for the recipient is the rest of a sorted list: where no
two messages tie, sorting it again changes nothing, and the queue is drained in the same order
whatever the limits are (`Iscp.Queue.drain_eq`). Together they make `Iscp.Queue.delivery_order`.
-/

namespace Iscp

open Go

namespace Queue

/-! ### The order -/

/-- **A message goes out before another.** -/
def Message.goesBefore (m m' : Message) : Bool :=
  before m.priority m'.priority m.queuedAt m'.queuedAt

variable {m m' : Message}

theorem goesBefore_iff : m.goesBefore m' = true ↔ m'.priority < m.priority ∨
    m.priority = m'.priority ∧ m.queuedAt.unixNano < m'.queuedAt.unixNano := by
  rw [Message.goesBefore, before]
  split_ifs with h
  · simp [h]
  · simp [h]

theorem goesBefore_eq_false_iff : m'.goesBefore m = false ↔
    m'.priority < m.priority ∨
      m.priority = m'.priority ∧ m.queuedAt.unixNano ≤ m'.queuedAt.unixNano := by
  rw [← Bool.not_eq_true, goesBefore_iff]
  omega

theorem weakOrder_goesBefore : WeakOrder Message.goesBefore where
  asymm h := by
    rw [goesBefore_iff] at h
    rw [goesBefore_eq_false_iff]
    omega
  trans h h' := by
    rw [goesBefore_eq_false_iff] at h h' ⊢
    omega

/-- What the order of delivery goes by. -/
def Message.rank (m : Message) : ℤ × ℤ := (m.priority, m.queuedAt.unixNano)

theorem rank_eq_of_goesBefore (h : m.goesBefore m' = false) (h' : m'.goesBefore m = false) :
    m.rank = m'.rank := by
  rw [goesBefore_eq_false_iff] at h h'
  exact Prod.ext (by change m.priority = m'.priority; omega)
    (by change m.queuedAt.unixNano = m'.queuedAt.unixNano; omega)

/-! ### One call -/

/-- Whether a message is for a recipient. -/
def Message.isFor (domainID recipient : Str) (m : Message) : Bool :=
  m.domainID = domainID ∧ m.recipientDeviceID = recipient

variable {q : Queue} {ties : ℕ → ℕ} {domainID recipient : Str} {now : Time} {limit : ℤ}

/-- The messages for a recipient that have not expired. -/
def matching (q : Queue) (domainID recipient : Str) (now : Time) : List Message :=
  (q.live now).filter (Message.isFor domainID recipient)

/-- The messages for a recipient in the order they go out. -/
def inOrder (q : Queue) (ties : ℕ → ℕ) (domainID recipient : Str) (now : Time) : List Message :=
  sortSlice Message.goesBefore ties (q.matching domainID recipient now)

/-- **What a call hands out and what it leaves.** -/
theorem dequeueFor_eq (q : Queue) (ties : ℕ → ℕ) (domainID recipient : Str) (now : Time)
    (limit : ℤ) : q.dequeueFor ties domainID recipient now limit =
      (q.keep (((q.live now).filter fun m => !m.isFor domainID recipient) ++
        (q.inOrder ties domainID recipient now).drop limit.toNat),
      (q.inOrder ties domainID recipient now).take limit.toNat) := by
  rw [dequeueFor]
  simp only [Message.isFor, decide_not]
  rfl

theorem inOrder_perm (q : Queue) (ties : ℕ → ℕ) (domainID recipient : Str) (now : Time) :
    (q.inOrder ties domainID recipient now).Perm (q.matching domainID recipient now) :=
  sortSlice_perm ..

theorem isFor_of_mem_inOrder (h : m ∈ q.inOrder ties domainID recipient now) :
    m.isFor domainID recipient = true :=
  (List.mem_filter.mp ((inOrder_perm ..).mem_iff.mp h)).2

theorem filter_isFor_dequeueFor :
    (q.dequeueFor ties domainID recipient now limit).1.messages.filter
      (Message.isFor domainID recipient) =
        (q.inOrder ties domainID recipient now).drop limit.toNat := by
  rw [dequeueFor_eq]
  change List.filter _ (_ ++ _) = _
  rw [List.filter_append, List.filter_filter, List.filter_eq_nil_iff.mpr (by simp),
    List.nil_append, List.filter_eq_self]
  exact fun m hm => isFor_of_mem_inOrder (List.mem_of_mem_drop hm)

/-- **The messages of others** that have not expired stay as they are. -/
theorem filter_not_isFor_dequeueFor :
    (q.dequeueFor ties domainID recipient now limit).1.messages.filter
      (fun m => !m.isFor domainID recipient) =
        (q.live now).filter fun m => !m.isFor domainID recipient := by
  rw [dequeueFor_eq]
  change List.filter _ (_ ++ _) = _
  have hnone : ((q.inOrder ties domainID recipient now).drop limit.toNat).filter
      (fun m => !m.isFor domainID recipient) = [] := by
    refine List.filter_eq_nil_iff.mpr fun m hm => ?_
    simp [isFor_of_mem_inOrder (List.mem_of_mem_drop hm)]
  rw [List.filter_append, hnone, List.append_nil, List.filter_filter]
  simp

theorem mem_of_mem_left (h : m ∈ (q.dequeueFor ties domainID recipient now limit).1.messages) :
    m ∈ q.messages := by
  have hlive : m ∈ (q.live now : Multiset Message) := by
    rw [← q.dequeueFor_add ties domainID recipient now limit]
    exact Multiset.mem_add.mpr (.inl h)
  exact List.mem_of_mem_filter (Multiset.mem_coe.mp hlive)

theorem mem_of_mem_returned (h : m ∈ (q.dequeueFor ties domainID recipient now limit).2) :
    m ∈ q.messages ∧ m.domainID = domainID ∧ m.recipientDeviceID = recipient := by
  rw [dequeueFor_eq] at h
  have hin := List.mem_of_mem_take h
  refine ⟨?_, of_decide_eq_true (isFor_of_mem_inOrder hin)⟩
  exact List.mem_of_mem_filter (List.mem_of_mem_filter ((inOrder_perm ..).mem_iff.mp hin))

/-- **What a call hands out is in order.** -/
theorem pairwise_dequeueFor (q : Queue) (ties : ℕ → ℕ) (domainID recipient : Str) (now : Time)
    (limit : ℤ) : (q.dequeueFor ties domainID recipient now limit).2.Pairwise fun m m' =>
      m'.priority < m.priority ∨
        m.priority = m'.priority ∧ m.queuedAt.unixNano ≤ m'.queuedAt.unixNano := by
  rw [dequeueFor_eq]
  refine ((pairwise_sortSlice weakOrder_goesBefore _ _).sublist (List.take_sublist ..)).imp ?_
  exact fun h => goesBefore_eq_false_iff.mp h

theorem goesBefore_of_left (hm : m ∈ (q.dequeueFor ties domainID recipient now limit).2)
    (hm' : m' ∈ (q.dequeueFor ties domainID recipient now limit).1.messages)
    (hfor : m'.isFor domainID recipient = true) : m'.goesBefore m = false := by
  have hleft : m' ∈ (q.inOrder ties domainID recipient now).drop limit.toNat := by
    rw [← filter_isFor_dequeueFor]
    exact List.mem_filter.mpr ⟨hm', hfor⟩
  have hsorted := pairwise_sortSlice weakOrder_goesBefore ties (q.matching domainID recipient now)
  rw [← List.take_append_drop limit.toNat (sortSlice ..)] at hsorted
  rw [dequeueFor_eq] at hm
  exact (List.pairwise_append.mp hsorted).2.2 m hm m' hleft

/-! ### Draining -/

/-- Calls one after the other, at one clock. -/
def drain (q : Queue) (domainID recipient : Str) (now : Time) : List ((ℕ → ℕ) × ℤ) → List Message
  | [] => []
  | (ties, limit) :: calls =>
    (q.dequeueFor ties domainID recipient now limit).2 ++
      drain (q.dequeueFor ties domainID recipient now limit).1 domainID recipient now calls

theorem live_dequeueFor : (q.dequeueFor ties domainID recipient now limit).1.live now =
    (q.dequeueFor ties domainID recipient now limit).1.messages := by
  refine List.filter_eq_self.mpr fun m hm => ?_
  have hadd := q.dequeueFor_add ties domainID recipient now limit
  have hlive : m ∈ q.live now := by
    rw [← Multiset.mem_coe, ← hadd]
    exact Multiset.mem_add.mpr (.inl hm)
  exact (List.mem_filter.mp hlive).2

theorem matching_dequeueFor :
    (q.dequeueFor ties domainID recipient now limit).1.matching domainID recipient now =
      (q.inOrder ties domainID recipient now).drop limit.toNat := by
  rw [matching, live_dequeueFor, filter_isFor_dequeueFor]

/-- No two messages for the recipient tie. -/
def NoTies (q : Queue) (domainID recipient : Str) (now : Time) : Prop :=
  ((q.matching domainID recipient now).map Message.rank).Nodup

instance : Decidable (q.NoTies domainID recipient now) :=
  inferInstanceAs (Decidable (List.Nodup _))

theorem sortSlice_inOrder_drop (h : q.NoTies domainID recipient now) (ties ties' : ℕ → ℕ) (n : ℕ) :
    sortSlice Message.goesBefore ties' ((q.inOrder ties domainID recipient now).drop n) =
      (q.inOrder ties domainID recipient now).drop n := by
  have hnodup : ((q.inOrder ties domainID recipient now).map Message.rank).Nodup :=
    ((inOrder_perm q ties domainID recipient now).map _).nodup_iff.mpr h
  refine (sortSlice_perm ..).eq_of_pairwise (fun m m' hm hm' hmm' hm'm => ?_)
    (pairwise_sortSlice weakOrder_goesBefore _ _)
    ((pairwise_sortSlice weakOrder_goesBefore _ _).sublist (List.drop_sublist ..))
  exact List.inj_on_of_nodup_map hnodup (List.mem_of_mem_drop (mem_sortSlice.mp hm))
    (List.mem_of_mem_drop hm') (rank_eq_of_goesBefore hm'm hmm')

theorem inOrder_eq (h : q.NoTies domainID recipient now) (ties ties' : ℕ → ℕ) :
    q.inOrder ties domainID recipient now = q.inOrder ties' domainID recipient now :=
  sortSlice_eq_of_perm weakOrder_goesBefore (.refl _) fun _ hm _ hm' hlt hgt =>
    List.inj_on_of_nodup_map h hm hm' (rank_eq_of_goesBefore hlt hgt)

/-- **The limits do not matter** where nothing ties: by induction on the calls, each of which finds
what the one before it has left. -/
theorem drain_eq {calls : List ((ℕ → ℕ) × ℤ)} (hpos : ∀ call ∈ calls, 0 < call.2)
    (h : q.NoTies domainID recipient now) (ties : ℕ → ℕ) :
    q.drain domainID recipient now calls =
      (q.inOrder ties domainID recipient now).take (calls.map Prod.snd).sum.toNat := by
  induction calls generalizing q with
  | nil => rfl
  | cons call calls ih =>
    obtain ⟨ties', limit⟩ := call
    obtain ⟨hlimit, hpos⟩ := List.forall_mem_cons.mp hpos
    have hleft :
        (q.dequeueFor ties' domainID recipient now limit).1.NoTies domainID recipient now := by
      rw [NoTies, matching_dequeueFor]
      refine List.Nodup.sublist ((List.drop_sublist ..).map _) ?_
      exact ((inOrder_perm q ties' domainID recipient now).map _).nodup_iff.mpr h
    have hsum : 0 ≤ (calls.map Prod.snd).sum := by
      refine List.sum_nonneg fun x hx => ?_
      obtain ⟨call, hcall, rfl⟩ := List.mem_map.mp hx
      exact (hpos call hcall).le
    have hrest : (q.dequeueFor ties' domainID recipient now limit).1.inOrder ties domainID recipient
        now = (q.inOrder ties domainID recipient now).drop limit.toNat := by
      rw [inOrder, matching_dequeueFor, sortSlice_inOrder_drop h, inOrder_eq h ties' ties]
    rw [drain, ih hpos hleft, hrest, dequeueFor_eq, List.map_cons, List.sum_cons,
      Int.toNat_add hlimit.le hsum, List.take_add, inOrder_eq h ties' ties]

/-! ### Main results -/

/-- **The order of delivery.** A call hands out as many of the messages for its recipient as it may,
in the order of priority and age, and leaves none that should have gone out before; the messages of
others stay as they are, in the order they are in; and where no two messages tie, calls one after
the other hand out what one call would. -/
theorem delivery_order (q : Queue) (ties : ℕ → ℕ) (domainID recipient : Str) (now : Time)
    (limit : ℤ) :
    ((q.dequeueFor ties domainID recipient now limit).2.length =
        min limit.toNat (q.matching domainID recipient now).length ∧
      (q.dequeueFor ties domainID recipient now limit).2.Subperm
        (q.matching domainID recipient now)) ∧
    ((q.dequeueFor ties domainID recipient now limit).2.Pairwise fun m m' =>
      m'.priority < m.priority ∨
        m.priority = m'.priority ∧ m.queuedAt.unixNano ≤ m'.queuedAt.unixNano) ∧
    (∀ m ∈ (q.dequeueFor ties domainID recipient now limit).2,
      ∀ m' ∈ (q.dequeueFor ties domainID recipient now limit).1.messages,
        m'.isFor domainID recipient = true → m'.goesBefore m = false) ∧
    (q.dequeueFor ties domainID recipient now limit).1.messages.filter
        (fun m => !m.isFor domainID recipient) =
      (q.messages.filter fun m => !m.isFor domainID recipient).filter
        (fun m => !now.after m.expiresAt) ∧
    (q.NoTies domainID recipient now → ∀ calls : List ((ℕ → ℕ) × ℤ), (∀ call ∈ calls, 0 < call.2) →
      q.drain domainID recipient now calls =
        (q.dequeueFor ties domainID recipient now (calls.map Prod.snd).sum).2) := by
  have hout : (q.dequeueFor ties domainID recipient now limit).2 =
      (q.inOrder ties domainID recipient now).take limit.toNat := by rw [dequeueFor_eq]
  have hperm := inOrder_perm q ties domainID recipient now
  refine ⟨⟨?_, ?_⟩, pairwise_dequeueFor .., fun m hm m' hm' => goesBefore_of_left hm hm', ?_,
    fun h calls hpos => ?_⟩
  · rw [hout, List.length_take, hperm.length_eq]
  · rw [hout]
    exact (List.take_sublist ..).subperm.trans hperm.subperm
  · rw [filter_not_isFor_dequeueFor, live, List.filter_filter, List.filter_filter]
    exact List.filter_congr fun m _ => Bool.and_comm _ _
  · rw [drain_eq hpos h ties, dequeueFor_eq]

/-- Of three messages the one with the higher priority goes out first, then the older one. -/
theorem delivery_order_three : ∃ q : Queue,
    (q.dequeueFor (fun _ => 0) (lit "lab") (lit "b") ⟨0, 0⟩ 2).2.map Message.messageID =
      [lit "urgent", lit "old"] ∧
    q.drain (lit "lab") (lit "b") ⟨0, 0⟩ [(fun _ => 0, 1), (fun _ => 1, 1)] =
      (q.dequeueFor (fun _ => 0) (lit "lab") (lit "b") ⟨0, 0⟩ 2).2 := by
  let message (messageID : Str) (priority queuedAt : ℤ) : Message :=
    { exampleMessage messageID 9 with priority := priority, queuedAt := ⟨queuedAt, 0⟩ }
  let q : Queue :=
    (new 8).keep [message (lit "new") 0 2, message (lit "old") 0 1, message (lit "urgent") 1 3]
  obtain ⟨-, -, -, -, hdrain⟩ := delivery_order q (fun _ => 0) (lit "lab") (lit "b") ⟨0, 0⟩ 2
  exact ⟨q, by decide, hdrain (by decide) _ (by decide)⟩

end Queue

end Iscp
