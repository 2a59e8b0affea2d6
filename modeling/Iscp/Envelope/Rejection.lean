import Iscp.Envelope.Channel

/-!
# Envelopes that are rejected

`Iscp.Envelope.decrypt` marks the sequence number of an envelope as received before it has
looked at anything the sender's key protects. Whoever knows the names in an envelope – the
relay does – can therefore use up a number the peer has not used yet: the envelope with that
number is rejected, and the genuine one after it is rejected too, as a duplicate.

Which deliveries do this is decided by the checks that come first
(`Iscp.Envelope.Addressed`): an envelope that passes them is marked, any other is not. So a
list of deliveries leaves the state as it was exactly if each envelope that passes them
repeats a number already received, and it leaves a genuine envelope deliverable exactly if
none of them carries its number (`Iscp.Envelope.rejected_iff`).
-/

namespace Iscp

namespace Envelope

open Go Crypto Session

/-- **The checks before the sequence number**: the envelope names the session and its two
devices. -/
structure Addressed (st : State) (env : SecureEnvelope) : Prop where
  type : env.type = typeSecureEnvelope
  sessionID : env.sessionID = st.sessionID
  domainID : env.domainID = st.domainID
  sender : env.senderDeviceID = st.peerDeviceID
  recipient : env.recipientDeviceID = st.localDeviceID

variable (P : Primitives)

/-- The state after some deliveries, whatever has become of each. -/
def deliver (st : State) (envs : List SecureEnvelope) : State :=
  envs.foldl (fun st env => (decrypt P st env).1) st

variable {P} {st peer : State} {env g : SecureEnvelope} {envs : List SecureEnvelope}

/-! ### One delivery -/

theorem decrypt_fst_of_not_addressed (h : ¬Addressed st env) : (decrypt P st env).1 = st := by
  unfold decrypt
  split_ifs with hready hbound hroute
  · rfl
  · rfl
  swap
  · rfl
  simp only [not_or, not_not, ne_eq] at hbound hroute
  exact absurd ⟨hbound.1, hbound.2.1, hbound.2.2, hroute.1, hroute.2⟩ h

theorem decrypt_fst_of_seen (hseen : env.sequence ∈ st.seenSeq) :
    (decrypt P st env).1 = st := by
  unfold decrypt State.markReceived
  split_ifs <;> rfl

theorem decrypt_fst_of_unseen (hready : st.ready = true) (h : Addressed st env)
    (hunseen : env.sequence ∉ st.seenSeq) :
    (decrypt P st env).1 = { st with seenSeq := env.sequence :: st.seenSeq } := by
  unfold decrypt
  rw [if_neg (by simp [hready]), if_neg (by simp [h.type, h.sessionID, h.domainID]),
    if_neg (by simp [h.sender, h.recipient]), State.markReceived, if_neg hunseen]

variable {seq : UInt64}

/-- **What a delivery puts on record**: the number of an envelope that is addressed. -/
theorem mem_seenSeq_decrypt (hready : st.ready = true) :
    seq ∈ (decrypt P st env).1.seenSeq ↔
      seq ∈ st.seenSeq ∨ Addressed st env ∧ env.sequence = seq := by
  by_cases h : Addressed st env
  · by_cases hseen : env.sequence ∈ st.seenSeq
    · rw [decrypt_fst_of_seen hseen]
      refine ⟨.inl, ?_⟩
      rintro (hseq | ⟨-, rfl⟩)
      · exact hseq
      · exact hseen
    · rw [decrypt_fst_of_unseen hready h hseen, List.mem_cons, or_comm, eq_comm,
        and_iff_right h]
  · rw [decrypt_fst_of_not_addressed h]
    exact ⟨.inl, fun hseq => hseq.resolve_right fun hseq => h hseq.1⟩

/-! ### Several deliveries -/

theorem exists_deliver_eq (st : State) (envs : List SecureEnvelope) :
    ∃ seen, deliver P st envs = { st with seenSeq := seen } := by
  induction envs generalizing st with
  | nil => exact ⟨st.seenSeq, rfl⟩
  | cons env envs ih =>
    obtain ⟨seen, hseen⟩ := ih (decrypt P st env).1
    refine ⟨seen, hseen.trans ?_⟩
    rcases decrypt_state (P := P) st env with h | h
    · rw [h]
    · rw [h]

theorem ready_deliver (hready : st.ready = true) : (deliver P st envs).ready = true := by
  obtain ⟨seen, h⟩ := exists_deliver_eq (P := P) st envs
  rw [h]
  exact hready

theorem crossed_deliver (hc : Crossed peer st) : Crossed peer (deliver P st envs) := by
  obtain ⟨seen, h⟩ := exists_deliver_eq (P := P) st envs
  rw [h]
  exact ⟨hc.sessionID, hc.domainID, hc.localDeviceID, hc.peerDeviceID, hc.transcriptHash,
    hc.sendKey, hc.receiveKey, hc.readyKey⟩

theorem addressed_decrypt : Addressed (decrypt P st env).1 g ↔ Addressed st g := by
  rcases decrypt_state (P := P) st env with h | h
  · rw [h]
  · rw [h]
    exact ⟨fun h => ⟨h.type, h.sessionID, h.domainID, h.sender, h.recipient⟩,
      fun h => ⟨h.type, h.sessionID, h.domainID, h.sender, h.recipient⟩⟩

/-- The sequence numbers seen are the earlier ones and those of the envelopes addressed to the
state. -/
theorem mem_seenSeq_deliver (hready : st.ready = true) :
    seq ∈ (deliver P st envs).seenSeq ↔
      seq ∈ st.seenSeq ∨ ∃ env ∈ envs, Addressed st env ∧ env.sequence = seq := by
  induction envs generalizing st with
  | nil => simp [deliver]
  | cons env envs ih =>
    have hready' : (decrypt P st env).1.ready = true := by
      rcases decrypt_state (P := P) st env with h | h
      · rw [h]
        exact hready
      · rw [h]
        exact hready
    have htail := ih hready'
    rw [mem_seenSeq_decrypt hready, or_assoc] at htail
    simp only [addressed_decrypt] at htail
    rw [List.exists_mem_cons_iff]
    exact htail

/-- **Deliveries that change nothing**: those of envelopes that are not addressed, or repeat
a number that is on record. -/
theorem deliver_eq_self_iff (hready : st.ready = true) :
    deliver P st envs = st ↔ ∀ env ∈ envs, Addressed st env → env.sequence ∈ st.seenSeq := by
  constructor
  · intro h env henv haddressed
    have hmem := (mem_seenSeq_deliver (P := P) hready).mpr (.inr ⟨env, henv, haddressed, rfl⟩)
    rwa [h] at hmem
  · intro h
    induction envs with
    | nil => rfl
    | cons env envs ih =>
      obtain ⟨henv, henvs⟩ := List.forall_mem_cons.mp h
      have hstep : (decrypt P st env).1 = st := by
        by_cases haddressed : Addressed st env
        · exact decrypt_fst_of_seen (henv haddressed)
        · exact decrypt_fst_of_not_addressed haddressed
      rw [deliver, List.foldl_cons, hstep]
      exact ih henvs

/-! ### Rejected deliveries -/

theorem Encrypted.decrypt_iff {messageID payloadType : Str} {route : Route}
    {plaintext ad : Bytes} (hopen : P.OpensSealed) (hready : st.ready = true)
    (hc : Crossed peer st) (hg : Encrypted P peer messageID payloadType route plaintext ad g) :
    (decrypt P st g).2 = .ok plaintext ↔ g.sequence ∉ st.seenSeq := by
  constructor
  · intro h
    obtain ⟨-, _, _, _, hd⟩ := decrypt_eq_ok.mp (Prod.ext (x := decrypt P st g) rfl h)
    exact hd.unseen
  · intro hunseen
    have hd := hg.decrypted hopen hc hready hunseen
    rw [decrypt_eq_ok.mpr ⟨rfl, _, _, _, hd⟩]

/-- **What rejected deliveries change.** After any finite sequence of deliveries, the state is
the one before them exactly if each envelope that names the session and its devices repeated a
sequence number already on record; and an envelope of the peer that had not been accepted
still decrypts to its plaintext exactly if none of them carried its sequence number. The
deliveries may be any; those that are all rejected are no exception. -/
theorem rejected_iff (hready : st.ready = true) (envs : List SecureEnvelope) :
    (deliver P st envs = st ↔ ∀ env ∈ envs, Addressed st env → env.sequence ∈ st.seenSeq) ∧
      (P.OpensSealed → ∀ (peer : State) (messageID payloadType : Str) (route : Route)
        (plaintext ad : Bytes) (g : SecureEnvelope), Crossed peer st →
        Encrypted P peer messageID payloadType route plaintext ad g →
        g.sequence ∉ st.seenSeq →
        ((decrypt P (deliver P st envs) g).2 = .ok plaintext ↔
          ∀ env ∈ envs, Addressed st env → env.sequence ≠ g.sequence)) := by
  refine ⟨deliver_eq_self_iff hready, ?_⟩
  intro hopen peer messageID payloadType route plaintext ad g hc hg hunseen
  rw [hg.decrypt_iff hopen (ready_deliver hready) (crossed_deliver hc),
    mem_seenSeq_deliver hready]
  constructor
  · intro h env henv haddressed hseq
    exact h (.inr ⟨env, henv, haddressed, hseq⟩)
  · rintro h (hseen | ⟨env, henv, haddressed, hseq⟩)
    · exact hunseen hseen
    · exact h env henv haddressed hseq

theorem exists_first : ∃ ad g, Encrypted Primitives.transparent (exampleWorld.state false)
    (lit "msg-1") (lit "text") ⟨lit "relay-a", 30, 1⟩ (lit "hello") ad g :=
  exists_encrypt rfl (List.length_replicate ..) (by decide) _ _ _ _

theorem crossed_example : Crossed (exampleWorld.state false) (exampleWorld.state true) :=
  ⟨rfl, rfl, rfl, rfl, rfl, rfl, rfl, rfl⟩

/-- An envelope of another type is rejected, and the genuine one decrypted after it. -/
theorem rejected_iff_type : ∃ ad g,
    Encrypted Primitives.transparent (exampleWorld.state false) (lit "msg-1") (lit "text")
      ⟨lit "relay-a", 30, 1⟩ (lit "hello") ad g ∧
    (∃ e, (decrypt Primitives.transparent (exampleWorld.state true)
      { g with type := [] }).2 = .error e) ∧
    deliver Primitives.transparent (exampleWorld.state true) [{ g with type := [] }] =
      exampleWorld.state true ∧
    (decrypt Primitives.transparent (deliver Primitives.transparent (exampleWorld.state true)
      [{ g with type := [] }]) g).2 = .ok (lit "hello") := by
  obtain ⟨ad, g, hg⟩ := exists_first
  have hiff := rejected_iff (P := Primitives.transparent)
    (rfl : (exampleWorld.state true).ready = true) [{ g with type := [] }]
  have hnot : ¬Addressed (exampleWorld.state true) { g with type := [] } := fun h =>
    have htype : ([] : Str) = typeSecureEnvelope := h.type
    absurd htype (by decide)
  refine ⟨ad, g, hg, ⟨_, rfl⟩, hiff.1.mpr ?_, (hiff.2 Primitives.opensSealed_transparent _ _ _ _
    _ _ g crossed_example hg List.not_mem_nil).mpr ?_⟩
  · rintro _ (_ | ⟨_, ⟨⟩⟩) h
    exact absurd h hnot
  · rintro _ (_ | ⟨_, ⟨⟩⟩) h
    exact absurd h hnot

/-- **A forgery uses up a number.** The genuine envelope with its ciphertext cut off is
rejected, and then the genuine envelope is. -/
theorem rejected_forgery : ∃ ad g,
    Encrypted Primitives.transparent (exampleWorld.state false) (lit "msg-1") (lit "text")
      ⟨lit "relay-a", 30, 1⟩ (lit "hello") ad g ∧
    (decrypt Primitives.transparent (exampleWorld.state true) g).2 = .ok (lit "hello") ∧
    (∃ e, (decrypt Primitives.transparent (exampleWorld.state true)
      { g with ciphertext := [] }).2 = .error e) ∧
    (decrypt Primitives.transparent (exampleWorld.state true) { g with ciphertext := [] }).1 ≠
      exampleWorld.state true ∧
    ∃ e, (decrypt Primitives.transparent (decrypt Primitives.transparent
      (exampleWorld.state true) { g with ciphertext := [] }).1 g).2 = .error e := by
  obtain ⟨ad, g, hg⟩ := exists_first
  have hd := hg.decrypted Primitives.opensSealed_transparent crossed_example rfl
    List.not_mem_nil
  have haddressed : Addressed (exampleWorld.state true) { g with ciphertext := [] } :=
    ⟨hd.type, hd.sessionID, hd.domainID, hd.sender, hd.recipient⟩
  have hstate := decrypt_fst_of_unseen (P := Primitives.transparent) rfl haddressed
    List.not_mem_nil
  -- no result is a plaintext if it cannot be the result of opening
  have hfails : ∀ {x : Except Error Bytes}, (∀ p, x ≠ .ok p) → ∃ e, x = .error e := by
    rintro (e | p) h
    · exact ⟨e, rfl⟩
    · exact absurd rfl (h p)
  refine ⟨ad, g, hg, ?_, hfails fun p hp => ?_, ?_, hfails fun p hp => ?_⟩
  · rw [decrypt_eq_ok.mpr ⟨rfl, _, _, _, hd⟩]
  · obtain ⟨-, nonce, ct, ad', hbad⟩ := decrypt_eq_ok.mp (Prod.ext rfl hp)
    obtain rfl : [] = ct := Except.ok.inj hbad.decodeCiphertext
    have hopened := hbad.opened
    simp [Primitives.transparent, exampleWorld] at hopened
  · rw [hstate]
    intro h
    exact absurd (congrArg State.seenSeq h) (List.cons_ne_nil _ _)
  · obtain ⟨-, _, _, _, hagain⟩ := decrypt_eq_ok.mp (Prod.ext rfl hp)
    rw [hstate] at hagain
    exact hagain.unseen List.mem_cons_self

end Envelope

end Iscp
