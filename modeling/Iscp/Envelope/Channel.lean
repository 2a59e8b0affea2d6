import Iscp.Envelope
import Iscp.Run

/-!
# The channel between two session states

Either side of a session encrypts what it likes, and is given envelopes by a network that
may deliver anything (`Iscp.Envelope.channel`): an envelope twice, out of order, back to its
sender, changed, or made up. The encryption is ideal (`Iscp.Envelope.Ideal`): nothing opens
that has not been sealed, with the key, nonce, additional data and ciphertext it is opened
with. No assumption is made on the two states; that the other side does accept what it is
sent, if they are the two sides of one session, is `Iscp.Envelope.Encrypted.decrypted`.

The histories of the calls that succeeded are not state of the program. What they have in
common is `Iscp.Envelope.received_once`.
-/

namespace Iscp

namespace Envelope

open Go Crypto Session

variable {P : Primitives}

/-- The two states, and the calls that succeeded: for either side the plaintexts it has
encrypted, with the envelopes, and those it has decrypted. -/
structure World where
  /-- The states of the two sides. -/
  state : Bool → State
  /-- What each side has encrypted. -/
  sent : Bool → List (Bytes × SecureEnvelope)
  /-- What each side has decrypted. -/
  received : Bool → List (Bytes × SecureEnvelope)

/-- The calls. -/
inductive Action where
  | encrypt (i : Bool) (messageID payloadType : Str) (route : Route) (plaintext : Bytes)
  | decrypt (i : Bool) (env : SecureEnvelope)

namespace World

variable (P)

/-- What a call of side `i` leaves behind: its state, and an entry of a history if the call
succeeded. -/
def next (w : World) : Action → World
  | .encrypt i messageID payloadType route plaintext =>
    match encrypt P (w.state i) messageID payloadType route plaintext with
    | (st, .error _) => { w with state := Function.update w.state i st }
    | (st, .ok env) => { w with
        state := Function.update w.state i st
        sent := Function.update w.sent i (w.sent i ++ [(plaintext, env)]) }
  | .decrypt i env =>
    match decrypt P (w.state i) env with
    | (st, .error _) => { w with state := Function.update w.state i st }
    | (st, .ok plaintext) => { w with
        state := Function.update w.state i st
        received := Function.update w.received i (w.received i ++ [(plaintext, env)]) }

/-- **What has been sealed**: an envelope shows the nonce, the ciphertext and the additional
data of the call that sealed it. -/
def Sealed (w : World) (key nonce ct ad : Bytes) : Prop :=
  ∃ j, ∃ p ∈ w.sent j, (w.state j).sendKey = key ∧ decodeBase64URL p.2.nonce = .ok nonce ∧
    decodeBase64URL p.2.ciphertext = .ok ct ∧ aad p.2 = .ok ad

/-- All text of the envelopes is UTF-8. -/
def Utf8 (w : World) : Prop :=
  ∀ i, (∀ p ∈ w.sent i, p.2.Utf8) ∧ ∀ p ∈ w.received i, p.2.Utf8

end World

variable (P)

/-- **Ideal encryption**: what opens has been sealed. -/
def Ideal (w : World) : Action → Prop
  | .encrypt .. => True
  | .decrypt i env => ∀ nonce ct ad, decodeBase64URL env.nonce = .ok nonce →
      decodeBase64URL env.ciphertext = .ok ct → aad env = .ok ad →
      (P.aeadOpen (w.state i).receiveKey nonce ct ad).isSome →
      w.Sealed (w.state i).receiveKey nonce ct ad

/-- **The channel**: all sequences of calls on two states, with ideal encryption. -/
def channel : System World Action :=
  (System.mk (fun w => ∀ i, w.sent i = [] ∧ w.received i = [])
    fun w a w' => w' = w.next P a).restrict (Ideal P)

variable {P}

/-! ### What a call leaves behind -/

variable {env : SecureEnvelope} {w : World} {plaintext ad nonce : Bytes} {i : Bool} {st st' : State}
  {payloadType messageID : Str} {route : Route} {p : Bytes × SecureEnvelope}

theorem World.next_encrypt
    (h : encrypt P (w.state i) messageID payloadType route plaintext = (st, .ok env)) :
    w.next P (.encrypt i messageID payloadType route plaintext) =
      ⟨Function.update w.state i st,
        Function.update w.sent i (w.sent i ++ [(plaintext, env)]), w.received⟩ := by
  simp only [next, h]

theorem World.next_decrypt (h : decrypt P (w.state i) env = (st, .ok plaintext)) :
    w.next P (.decrypt i env) =
      ⟨Function.update w.state i st, w.sent,
        Function.update w.received i (w.received i ++ [(plaintext, env)])⟩ := by
  simp only [next, h]

/-- A state some calls later: only the sequence numbers have changed, and none has been
forgotten. -/
def Later (st st' : State) : Prop :=
  ∃ seq seen, st.seenSeq ⊆ seen ∧ st' = { st with sendSeq := seq, seenSeq := seen }

theorem later_encrypt (st : State) (messageID payloadType : Str) (route : Route)
    (plaintext : Bytes) : Later st (encrypt P st messageID payloadType route plaintext).1 := by
  rcases encrypt_state (P := P) st messageID payloadType route plaintext with h | h
  · exact ⟨_, _, List.Subset.refl _, h⟩
  · exact ⟨_, _, List.Subset.refl _, h⟩

theorem later_decrypt (st : State) (env : SecureEnvelope) : Later st (decrypt P st env).1 := by
  rcases decrypt_state (P := P) st env with h | h
  · exact ⟨_, _, List.Subset.refl _, h⟩
  · exact ⟨_, _, List.subset_cons_self _ _, h⟩

/-- **The calls, by what they leave behind.** -/
theorem World.next_cases (w : World) (a : Action) :
    ∃ i st, Later (w.state i) st ∧ (w.next P a).state = Function.update w.state i st ∧
      (((w.next P a).sent = w.sent ∧ (w.next P a).received = w.received) ∨
      (∃ messageID payloadType route plaintext ad env,
        Encrypted P (w.state i) messageID payloadType route plaintext ad env ∧
        (w.next P a).sent = Function.update w.sent i (w.sent i ++ [(plaintext, env)]) ∧
        (w.next P a).received = w.received) ∨
      ∃ env nonce ct ad plaintext, a = .decrypt i env ∧
        Decrypted P (w.state i) env nonce ct ad plaintext ∧ env.sequence ∈ st.seenSeq ∧
        (w.next P a).sent = w.sent ∧
        (w.next P a).received =
          Function.update w.received i (w.received i ++ [(plaintext, env)])) := by
  cases a with
  | encrypt i messageID payloadType route plaintext =>
    have hlater := later_encrypt (P := P) (w.state i) messageID payloadType route plaintext
    rcases h : encrypt P (w.state i) messageID payloadType route plaintext with ⟨st, e | env⟩ <;>
      rw [h] at hlater
    · refine ⟨i, st, hlater, ?_, .inl ⟨?_, ?_⟩⟩ <;> simp only [next, h]
    · obtain ⟨-, ad, he⟩ := encrypt_eq_ok.mp h
      rw [next_encrypt h]
      exact ⟨i, st, hlater, rfl, .inr (.inl ⟨_, _, _, _, ad, env, he, rfl, rfl⟩)⟩
  | decrypt i env =>
    have hlater := later_decrypt (P := P) (w.state i) env
    rcases h : decrypt P (w.state i) env with ⟨st, e | plaintext⟩ <;> rw [h] at hlater
    · refine ⟨i, st, hlater, ?_, .inl ⟨?_, ?_⟩⟩ <;> simp only [next, h]
    · obtain ⟨hst, nonce, ct, ad, hd⟩ := decrypt_eq_ok.mp h
      rw [next_decrypt h]
      refine ⟨i, st, hlater, rfl,
        .inr (.inr ⟨env, nonce, ct, ad, plaintext, rfl, hd, ?_, rfl, rfl⟩)⟩
      rw [hst]
      exact List.mem_cons_self

/-! ### What holds in every world -/

/-- What a side has encrypted: the envelope names the side as its sender, and can be opened
with its key. -/
def Makes (P : Primitives) (st : State) (p : Bytes × SecureEnvelope) : Prop :=
  p.2.senderDeviceID = st.localDeviceID ∧ ∃ nonce ct ad, decodeBase64URL p.2.nonce = .ok nonce ∧
    decodeBase64URL p.2.ciphertext = .ok ct ∧ aad p.2 = .ok ad ∧
    P.aeadOpen st.sendKey nonce ct ad = some p.1

/-- One plaintext in one envelope, up to the text of the ciphertext. -/
def SameMessage (p q : Bytes × SecureEnvelope) : Prop :=
  p.1 = q.1 ∧ decodeBase64URL p.2.ciphertext = decodeBase64URL q.2.ciphertext ∧
    ∃ ad, aad p.2 = .ok ad ∧ aad q.2 = .ok ad

/-- What a side has decrypted: the sequence number is on record, the sender is the peer, and
the message is one that has been encrypted. -/
def Accepts (w : World) (st : State) (p : Bytes × SecureEnvelope) : Prop :=
  p.2.sequence ∈ st.seenSeq ∧ p.2.senderDeviceID = st.peerDeviceID ∧
    ∃ j, ∃ q ∈ w.sent j, SameMessage p q

/-- **What holds in every world.** -/
structure World.Inv (P : Primitives) (w : World) : Prop where
  sent : ∀ i, ∀ p ∈ w.sent i, Makes P (w.state i) p
  received : ∀ i, ∀ p ∈ w.received i, Accepts w (w.state i) p
  once : ∀ i, ((w.received i).map fun p => p.2.sequence).Nodup

theorem Later.makes (h : Later st st') (hp : Makes P st p) : Makes P st' p := by
  obtain ⟨seq, seen, -, rfl⟩ := h
  exact hp

theorem Accepts.mono {w' : World} (hp : Accepts w st p) (hst : Later st st')
    (hsent : ∀ j, w.sent j ⊆ w'.sent j) : Accepts w' st' p := by
  obtain ⟨hseen, hsender, j, q, hq, hsame⟩ := hp
  obtain ⟨seq, seen, hsub, rfl⟩ := hst
  exact ⟨hsub hseen, hsender, j, q, hsent j hq, hsame⟩

theorem Later.refl (st : State) : Later st st := ⟨_, _, List.Subset.refl _, rfl⟩

theorem later_update (h : Later (w.state i) st) (j : Bool) :
    Later (w.state j) (Function.update w.state i st j) := by
  rcases eq_or_ne j i with rfl | hne
  · rwa [Function.update_self]
  · rw [Function.update_of_ne hne]
    exact .refl _

theorem Encrypted.makes (hopen : P.OpensSealed)
    (h : Encrypted P st messageID payloadType route plaintext ad env) :
    Makes P st (plaintext, env) := by
  refine ⟨?_, State.nonceOf st.sendSeq, P.aeadSeal st.sendKey (State.nonceOf st.sendSeq) plaintext
    ad, ad, ?_, ?_, h.data, hopen _ _ _ _ h.keySize (length_nonceOf _)⟩
  · rw [h.eq]
    rfl
  · rw [h.eq]
    exact decodeBase64URL_base64URL _
  · rw [h.eq]
    exact decodeBase64URL_base64URL _

/-- **An authentic envelope is one that was made.** The receiver opens the envelope with the
nonce it finds in it; the ideal encryption makes this the nonce of a call that sealed, and the
plaintext the one that was sealed. -/
theorem World.Inv.sameMessage (hi : w.Inv P) {ct : Bytes}
    (hd : Decrypted P (w.state i) env nonce ct ad plaintext) (hideal : Ideal P w (.decrypt i env)) :
    ∃ j, ∃ q ∈ w.sent j, SameMessage (plaintext, env) q := by
  obtain ⟨j, q, hq, hkey, hnonce, hct, had⟩ := hideal nonce ct ad hd.decodeNonce
    hd.decodeCiphertext hd.data (by rw [hd.opened]; rfl)
  obtain ⟨-, nonce', ct', ad', hnonce', hct', had', hopened⟩ := hi.sent j q hq
  obtain rfl := Except.ok.inj (hnonce.symm.trans hnonce')
  obtain rfl := Except.ok.inj (hct.symm.trans hct')
  obtain rfl := Except.ok.inj (had.symm.trans had')
  rw [hkey, hd.opened] at hopened
  exact ⟨j, q, hq, Option.some.inj hopened, hd.decodeCiphertext.trans hct.symm, ad, hd.data, had⟩

/-- One call, at either end, keeps the invariant of the channel. -/
theorem World.Inv.next (hopen : P.OpensSealed) {a : Action} (hi : w.Inv P) (hideal : Ideal P w a) :
    (w.next P a).Inv P := by
  obtain ⟨i, st, hlater, hstate, hcases⟩ := w.next_cases (P := P) a
  have hlater' : ∀ j, Later (w.state j) ((w.next P a).state j) := fun j =>
    hstate ▸ later_update hlater j
  rcases hcases with ⟨hs, hr⟩ | ⟨_, _, _, plaintext, ad, env, he, hs, hr⟩ |
    ⟨env, nonce, ct, ad, plaintext, rfl, hd, hseen, hs, hr⟩
  · -- nothing has been sent or received
    refine ⟨fun j p hp => ?_, fun j p hp => ?_, fun j => ?_⟩
    · rw [hs] at hp
      exact (hlater' j).makes (hi.sent j p hp)
    · rw [hr] at hp
      exact (hi.received j p hp).mono (hlater' j) fun j => hs ▸ List.Subset.refl _
    · rw [hr]
      exact hi.once j
  · -- an envelope has been sent
    have hsub : ∀ j, w.sent j ⊆ (w.next P a).sent j := by
      intro j
      rw [hs]
      rcases eq_or_ne j i with rfl | hne
      · rw [Function.update_self]
        exact List.subset_append_left _ _
      · rw [Function.update_of_ne hne]
        exact List.Subset.refl _
    refine ⟨fun j p hp => (hlater' j).makes ?_, fun j p hp => ?_, fun j => ?_⟩
    · rw [hs] at hp
      rcases eq_or_ne j i with rfl | hne
      · rw [Function.update_self, List.mem_append, List.mem_singleton] at hp
        rcases hp with hp | rfl
        · exact hi.sent j p hp
        · exact he.makes hopen
      · rw [Function.update_of_ne hne] at hp
        exact hi.sent j p hp
    · rw [hr] at hp
      exact (hi.received j p hp).mono (hlater' j) hsub
    · rw [hr]
      exact hi.once j
  · -- an envelope has been received
    have hsub : ∀ j, w.sent j ⊆ (w.next P (.decrypt i env)).sent j := fun j =>
      hs ▸ List.Subset.refl _
    refine ⟨fun j p hp => ?_, fun j p hp => ?_, fun j => ?_⟩
    · rw [hs] at hp
      exact (hlater' j).makes (hi.sent j p hp)
    · rw [hr] at hp
      rcases eq_or_ne j i with rfl | hne
      · rw [Function.update_self, List.mem_append, List.mem_singleton] at hp
        rcases hp with hp | rfl
        · exact (hi.received j p hp).mono (hlater' j) hsub
        · obtain ⟨k, q, hq, hsame⟩ := hi.sameMessage hd hideal
          have hst : (w.next P (.decrypt j env)).state j = st := by
            rw [hstate, Function.update_self]
          obtain ⟨seq, seen, -, rfl⟩ := hlater
          rw [hst]
          exact ⟨hseen, hd.sender, k, q, hsub k hq, hsame⟩
      · rw [Function.update_of_ne hne] at hp
        exact (hi.received j p hp).mono (hlater' j) hsub
    · rw [hr]
      rcases eq_or_ne j i with rfl | hne
      · -- the sequence number of an envelope that was received before is on record
        rw [Function.update_self, List.map_append, List.map_singleton, List.nodup_append]
        refine ⟨hi.once j, List.nodup_singleton _, fun seq hseq seq' hseq' => ?_⟩
        obtain ⟨p, hp, rfl⟩ := List.mem_map.mp hseq
        rintro rfl
        rw [List.mem_singleton] at hseq'
        exact hd.unseen (hseq' ▸ (hi.received j p hp).1)
      · rw [Function.update_of_ne hne]
        exact hi.once j

theorem channel_inv (hopen : P.OpensSealed) (h : (channel P).Reachable w) : w.Inv P := by
  refine h.invariant (fun w hw => ?_) fun w a w' _ hi hs => ?_
  · refine ⟨fun i p hp => ?_, fun i p hp => ?_, fun i => ?_⟩
    · rw [(hw i).1] at hp
      cases hp
    · rw [(hw i).2] at hp
      cases hp
    · rw [(hw i).2]
      exact List.nodup_nil
  · obtain ⟨hideal, rfl⟩ := hs
    exact hi.next hopen hideal

/-! ### Delivery -/

theorem channel_encrypt (hw : (channel P).Reachable w)
    (he : Encrypted P (w.state i) messageID payloadType route plaintext ad env) :
    ∃ w', (channel P).Reachable w' ∧ w'.state = Function.update w.state i
        { w.state i with sendSeq := (w.state i).sendSeq + 1 } ∧
      w'.sent = Function.update w.sent i (w.sent i ++ [(plaintext, env)]) ∧
      w'.received = w.received := by
  have hnext := World.next_encrypt (encrypt_eq_ok.mpr ⟨rfl, ad, he⟩)
  have hideal : Ideal P w (.encrypt i messageID payloadType route plaintext) := trivial
  have hstep := hw.step ⟨hideal, rfl⟩
  rw [hnext] at hstep
  exact ⟨_, hstep, rfl, rfl, rfl⟩

theorem channel_decrypt (hw : (channel P).Reachable w) {ct : Bytes}
    (hd : Decrypted P (w.state i) env nonce ct ad plaintext) (hideal : Ideal P w (.decrypt i env)) :
    ∃ w', (channel P).Reachable w' ∧ w'.sent = w.sent ∧
      w'.received = Function.update w.received i (w.received i ++ [(plaintext, env)]) := by
  have hnext := World.next_decrypt (decrypt_eq_ok.mpr ⟨rfl, nonce, ct, ad, hd⟩)
  have hstep := hw.step ⟨hideal, rfl⟩
  rw [hnext] at hstep
  exact ⟨_, hstep, rfl, rfl⟩

/-- **A message gets through**: from every world in which the states are the two sides of one
session, and the next sequence number has not been used up by a forgery. -/
theorem channel_delivers (hopen : P.OpensSealed) (hw : (channel P).Reachable w)
    (hc : Crossed (w.state i) (w.state !i)) (hready : (w.state i).ready = true)
    (hready' : (w.state !i).ready = true) (hkey : (w.state i).sendKey.length = 32)
    (hseq : (w.state i).sendSeq.toNat < 2 ^ 63)
    (hunseen : (w.state i).sendSeq ∉ (w.state !i).seenSeq) (messageID payloadType : Str)
    (route : Route) (plaintext : Bytes) :
    ∃ ad env w', Encrypted P (w.state i) messageID payloadType route plaintext ad env ∧
      (channel P).Reachable w' ∧
      w'.sent = Function.update w.sent i (w.sent i ++ [(plaintext, env)]) ∧
      w'.received =
        Function.update w.received (!i) ((w.received !i) ++ [(plaintext, env)]) := by
  obtain ⟨ad, env, he⟩ := exists_encrypt (P := P) hready hkey hseq messageID payloadType route
    plaintext
  have hsequence : env.sequence = (w.state i).sendSeq := by
    rw [he.eq]
    rfl
  have hd := he.decrypted hopen hc hready' (hsequence ▸ hunseen)
  obtain ⟨w₁, hw₁, hstate, hsent, hreceived⟩ := channel_encrypt hw he
  have hother : w₁.state (!i) = w.state !i := by
    rw [hstate, Function.update_of_ne (Bool.not_ne_self i)]
  -- what is delivered is what has just been sealed
  have hideal : Ideal P w₁ (.decrypt (!i) env) := by
    intro nonce ct ad' hnonce hct had _
    refine ⟨i, (plaintext, env), ?_, ?_, hnonce, hct, had⟩
    · rw [hsent, Function.update_self]
      exact List.mem_append_right _ (List.mem_singleton_self _)
    · rw [hother, hstate, Function.update_self, hc.receiveKey]
  obtain ⟨w₂, hw₂, hsent₂, hreceived₂⟩ := channel_decrypt hw₁ (hother.symm ▸ hd) hideal
  exact ⟨ad, env, w₂, he, hw₂, hsent₂.trans hsent, hreceived ▸ hreceived₂⟩

/-! ### Authenticity -/

/-- **What a side accepts, the other side has sent, and it is accepted once.** In every run,
the envelopes a side has decrypted go back to calls of the other side, different ones to
different calls: what was decrypted is what the call encrypted, and the envelope is that of
the call up to the text of its ciphertext. (A device in a session with itself may have sent
what it receives; it has not if it never sends.) -/
theorem received_once (hopen : P.OpensSealed) {w : World} (hw : (channel P).Reachable w)
    (hu : w.Utf8) (i : Bool)
    (hself : w.sent i = [] ∨ (w.state i).localDeviceID ≠ (w.state i).peerDeviceID) :
    ∃ f : Fin (w.received i).length → Fin (w.sent !i).length, Function.Injective f ∧
      ∀ k, ((w.received i).get k).1 = ((w.sent !i).get (f k)).1 ∧
        ((w.received i).get k).2.header = ((w.sent !i).get (f k)).2.header ∧
        decodeBase64URL ((w.received i).get k).2.ciphertext =
          decodeBase64URL ((w.sent !i).get (f k)).2.ciphertext := by
  have hi := channel_inv hopen hw
  refine exists_injective_of_nodup (R := fun p q : Bytes × SecureEnvelope => p.1 = q.1 ∧
      p.2.header = q.2.header ∧
      decodeBase64URL p.2.ciphertext = decodeBase64URL q.2.ciphertext) (hi.once i)
    (fun p hp => ?_) ?_
  · obtain ⟨-, hsender, j, q, hq, hplain, hct, ad, had, had'⟩ := hi.received i p hp
    have hheader := aad_binds ((hu i).2 p hp) ((hu j).1 q hq) had had'
    -- the sender the envelope names is the one that made it
    have hj : j = !i := by
      rcases Bool.eq_or_eq_not j i with rfl | hj
      · rcases hself with hnil | hne
        · rw [hnil] at hq
          cases hq
        · have hsame : p.2.senderDeviceID = q.2.senderDeviceID :=
            (congrArg SecureEnvelope.senderDeviceID hheader :)
          exact absurd ((hi.sent j q hq).1.symm.trans (hsame.symm.trans hsender)) hne
      · exact hj
    subst hj
    exact ⟨q, hq, hplain, hheader, hct⟩
  · rintro p p' q ⟨-, hheader, -⟩ ⟨-, hheader', -⟩
    exact (congrArg SecureEnvelope.sequence (hheader.trans hheader'.symm) :)

/-- The two sides of a session, before anything has been sent. -/
def exampleWorld : World where
  state := fun i =>
    { sessionID := lit "session-1"
      domainID := lit "domain-a"
      localDeviceID := lit (if i then "device-b" else "device-a")
      peerDeviceID := lit (if i then "device-a" else "device-b")
      transcriptHash := []
      sendKey := List.replicate 32 (if i then 1 else 0)
      receiveKey := List.replicate 32 (if i then 0 else 1)
      readyKey := []
      ready := true
      sendSeq := 0
      seenSeq := [] }
  sent := fun _ => []
  received := fun _ => []

theorem received_once_delivered : ∃ w : World,
    (channel Primitives.transparent).Reachable w ∧ w.Utf8 ∧ (w.received true).length = 1 ∧
      ∃ f : Fin (w.received true).length → Fin (w.sent false).length, Function.Injective f ∧
        ∀ k, ((w.received true).get k).1 = ((w.sent false).get (f k)).1 ∧
          ((w.received true).get k).2.header = ((w.sent false).get (f k)).2.header ∧
          decodeBase64URL ((w.received true).get k).2.ciphertext =
            decodeBase64URL ((w.sent false).get (f k)).2.ciphertext := by
  have hinit : (channel Primitives.transparent).Reachable exampleWorld := .init fun _ => ⟨rfl, rfl⟩
  have hcrossed : Crossed (exampleWorld.state false) (exampleWorld.state !false) :=
    ⟨rfl, rfl, rfl, rfl, rfl, rfl, rfl, rfl⟩
  obtain ⟨ad, env, w, he, hw, hsent, hreceived⟩ := channel_delivers
    Primitives.opensSealed_transparent hinit hcrossed rfl rfl (List.length_replicate ..) (by decide)
    List.not_mem_nil (lit "msg-1") (lit "text") ⟨lit "relay-a", 30, 1⟩ (lit "hello")
  have henv : env.Utf8 := by
    rw [he.eq]
    exact ⟨utf8_lit _, utf8_lit _, utf8_lit _, utf8_lit _, utf8_lit _, utf8_lit _,
      utf8_base64URL _, utf8_lit _, utf8_lit _⟩
  have hu : w.Utf8 := by
    intro i
    rw [hsent, hreceived]
    cases i <;> simp [Function.update, exampleWorld, henv]
  have hself : w.sent true = [] := by
    rw [hsent]
    rfl
  refine ⟨w, hw, hu, ?_, received_once Primitives.opensSealed_transparent hw hu true (.inl hself)⟩
  rw [hreceived]
  rfl

end Envelope

end Iscp
