import Iscp.Envelope.Channel
import Iscp.Session.Network

/-!
# From the handshake to the exchange of messages

Two devices that have made hellos for each other agree on a session, tell each other so, and can
then exchange messages. The exchange is the channel of `Iscp.Envelope.Channel` with an honest
network: what is delivered is an envelope of the other side that has not been delivered before,
in any order (`Iscp.Envelope.exchange`).

Every envelope was made by a state that differs from the present one in its sequence numbers
only, and the sequence numbers of one side's envelopes are all different
(`Iscp.Envelope.Synced`); an envelope on its first delivery is therefore opened, and to what was
sealed in it. `Iscp.Envelope.handshake_agreement` puts the two halves together.
-/

namespace Iscp

namespace Envelope

open Go Crypto Session Identity

variable {P : Primitives}

/-- The two sides, with nothing sent. -/
def start (a b : State) : World where
  state := fun i => if i then b else a
  sent := fun _ => []
  received := fun _ => []

/-- A side encrypts with a sequence number below `2 ^ 63`, and is given an envelope of the other
side for the first time. -/
def FirstDelivery (w : World) : Action → Prop
  | .encrypt i .. => (w.state i).sendSeq.toNat < 2 ^ 63
  | .decrypt i env => ∃ p ∈ w.sent (!i), p.2 = env ∧ p ∉ w.received i

/-- **The exchange of messages**: all sequences of calls, in which either side encrypts what it
likes and every delivery is a first one. -/
def exchange (P : Primitives) (a b : State) : System World Action :=
  (System.mk (· = start a b) fun w action w' => w' = w.next P action).restrict FirstDelivery

/-! ### What holds in every world -/

/-- An envelope made by an earlier state of a side. -/
def Sent (P : Primitives) (st : State) (p : Bytes × SecureEnvelope) : Prop :=
  ∃ st₀ messageID payloadType route ad, Later st₀ st ∧ st₀.sendSeq.toNat < st.sendSeq.toNat ∧
    Encrypted P st₀ messageID payloadType route p.1 ad p.2

/-- **The two sides are in step.** -/
structure Synced (P : Primitives) (w : World) : Prop where
  crossed : ∀ i, Crossed (w.state i) (w.state !i)
  ready : ∀ i, (w.state i).ready = true
  keySize : ∀ i, (w.state i).sendKey.length = 32
  sent : ∀ i, ∀ p ∈ w.sent i, Sent P (w.state i) p
  numbered : ∀ i, ((w.sent i).map fun p => p.2.sequence).Nodup
  received : ∀ i, w.received i ⊆ w.sent (!i)
  seen : ∀ i, ∀ seq ∈ (w.state i).seenSeq, ∃ p ∈ w.received i, p.2.sequence = seq

variable {a b : State} {p : Bytes × SecureEnvelope} {w : World} {i : Bool}

theorem Later.trans {c : State} (h : Later a b) (h' : Later b c) : Later a c := by
  obtain ⟨seq, seen, hsub, rfl⟩ := h
  obtain ⟨seq', seen', hsub', rfl⟩ := h'
  exact ⟨seq', seen', fun x hx => hsub' (hsub hx), rfl⟩

theorem Later.crossed {a' b' : State} (ha : Later a a') (hb : Later b b') (h : Crossed a b) :
    Crossed a' b' := by
  obtain ⟨_, _, -, rfl⟩ := ha
  obtain ⟨_, _, -, rfl⟩ := hb
  exact { h with }

theorem Sent.sequence_lt {st : State} (h : Sent P st p) :
    p.2.sequence.toNat < st.sendSeq.toNat := by
  obtain ⟨st₀, _, _, _, _, -, hlt, he⟩ := h
  rw [he.eq]
  exact hlt

theorem Sent.mono {st st' : State} (h : Sent P st p) (hl : Later st st')
    (hle : st.sendSeq.toNat ≤ st'.sendSeq.toNat) : Sent P st' p := by
  obtain ⟨st₀, messageID, payloadType, route, ad, hl₀, hlt, he⟩ := h
  exact ⟨st₀, messageID, payloadType, route, ad, hl₀.trans hl, hlt.trans_le hle, he⟩

/-- **A first delivery is opened**: an envelope that has not been received has a sequence number
that has not been seen. -/
theorem Synced.decrypted (hopen : P.OpensSealed) (h : Synced P w) (hp : p ∈ w.sent i)
    (hnew : p ∉ w.received !i) : ∃ nonce ct ad, Decrypted P (w.state !i) p.2 nonce ct ad p.1 := by
  obtain ⟨st₀, _, _, _, ad, hl, -, he⟩ := h.sent i p hp
  have hcrossed : Crossed st₀ (w.state !i) := by
    obtain ⟨_, _, -, hst⟩ := hl
    have hc := h.crossed i
    rw [hst] at hc
    exact { hc with }
  refine ⟨_, _, ad, he.decrypted hopen hcrossed (h.ready !i) fun hseen => hnew ?_⟩
  obtain ⟨q, hq, hseq⟩ := h.seen (!i) _ hseen
  have hq' : q ∈ w.sent i := by simpa using h.received (!i) hq
  rwa [← List.inj_on_of_nodup_map (h.numbered i) hq' hp hseq]

/-- Sealing a payload keeps the two ends in step. -/
theorem Synced.encrypt (h : Synced P w) (hseq : (w.state i).sendSeq.toNat < 2 ^ 63)
    (messageID payloadType : Str) (route : Route) (plaintext : Bytes) :
    Synced P (w.next P (.encrypt i messageID payloadType route plaintext)) := by
  obtain ⟨ad, env, he⟩ := exists_encrypt (P := P) (h.ready i) (h.keySize i) hseq messageID
    payloadType route plaintext
  rw [World.next_encrypt (encrypt_eq_ok.mpr ⟨rfl, ad, he⟩)]
  have hsucc := toNat_succ hseq
  have hlater : Later (w.state i) { w.state i with sendSeq := (w.state i).sendSeq + 1 } :=
    ⟨_, _, List.Subset.refl _, rfl⟩
  have hstate := later_update hlater
  have hle : ∀ j, (w.state j).sendSeq.toNat ≤ (Function.update w.state i
      { w.state i with sendSeq := (w.state i).sendSeq + 1 } j).sendSeq.toNat := by
    intro j
    rcases eq_or_ne j i with rfl | hne
    · rw [Function.update_self, hsucc]
      exact Nat.le_succ _
    · rw [Function.update_of_ne hne]
  have hsub : ∀ j, w.sent j ⊆ Function.update w.sent i (w.sent i ++ [(plaintext, env)]) j := by
    intro j
    rcases eq_or_ne j i with rfl | hne
    · rw [Function.update_self]
      exact List.subset_append_left _ _
    · rw [Function.update_of_ne hne]
      exact List.Subset.refl _
  refine ⟨fun j => (hstate j).crossed (hstate !j) (h.crossed j), fun j => ?_, fun j => ?_,
    fun j p hp => ?_, fun j => ?_, fun j => List.Subset.trans (h.received j) (hsub !j),
    fun j => ?_⟩
  · obtain ⟨_, _, -, hst⟩ := hstate j
    simp only [hst, h.ready j]
  · obtain ⟨_, _, -, hst⟩ := hstate j
    simp only [hst, h.keySize j]
  · -- the new envelope is made by the state before the call
    rcases eq_or_ne j i with rfl | hne
    · simp only [Function.update_self, List.mem_append, List.mem_singleton] at hp ⊢
      rcases hp with hp | rfl
      · exact (h.sent j p hp).mono hlater (by simp only [hsucc]; omega)
      · exact ⟨_, _, _, _, ad, hlater, by simp only [hsucc]; omega, he⟩
    · simp only [Function.update_of_ne hne] at hp ⊢
      exact h.sent j p hp
  · rcases eq_or_ne j i with rfl | hne
    · -- its sequence number is above all those before it
      simp only [Function.update_self, List.map_append, List.map_singleton, List.nodup_append]
      refine ⟨h.numbered j, List.nodup_singleton _, fun a ha b hb hab => ?_⟩
      obtain ⟨p, hp, rfl⟩ := List.mem_map.mp ha
      have hlt := (h.sent j p hp).sequence_lt
      rw [hab, List.mem_singleton.mp hb, he.eq] at hlt
      exact absurd hlt (lt_irrefl _)
    · simp only [Function.update_of_ne hne]
      exact h.numbered j
  · rcases eq_or_ne j i with rfl | hne
    · simpa only [Function.update_self] using h.seen j
    · simpa only [Function.update_of_ne hne] using h.seen j

/-- Opening an envelope of the other end for the first time keeps them in step. -/
theorem Synced.decrypt (hopen : P.OpensSealed) (h : Synced P w) (hp : p ∈ w.sent (!i))
    (hnew : p ∉ w.received i) : Synced P (w.next P (.decrypt i p.2)) := by
  obtain ⟨nonce, ct, ad, hd⟩ := h.decrypted hopen hp (by simpa using hnew)
  rw [Bool.not_not] at hd
  rw [World.next_decrypt (decrypt_eq_ok.mpr ⟨rfl, nonce, ct, ad, hd⟩)]
  have hlater : Later (w.state i)
      { w.state i with seenSeq := p.2.sequence :: (w.state i).seenSeq } :=
    ⟨_, _, List.subset_cons_self _ _, rfl⟩
  have hstate := later_update hlater
  refine ⟨fun j => (hstate j).crossed (hstate !j) (h.crossed j), fun j => ?_, fun j => ?_,
    fun j q hq => ?_, h.numbered, fun j => ?_, fun j => ?_⟩
  · obtain ⟨_, _, -, hst⟩ := hstate j
    simp only [hst, h.ready j]
  · obtain ⟨_, _, -, hst⟩ := hstate j
    simp only [hst, h.keySize j]
  · refine (h.sent j q hq).mono (hstate j) (le_of_eq ?_)
    rcases eq_or_ne j i with rfl | hne
    · simp only [Function.update_self]
    · simp only [Function.update_of_ne hne]
  · rcases eq_or_ne j i with rfl | hne
    · simp only [Function.update_self]
      refine List.append_subset.mpr ⟨h.received j, List.cons_subset.mpr ⟨hp, List.nil_subset _⟩⟩
    · simp only [Function.update_of_ne hne]
      exact h.received j
  · rcases eq_or_ne j i with rfl | hne
    · simp only [Function.update_self, List.forall_mem_cons]
      refine ⟨⟨p, by simp, rfl⟩, fun seq hseq => ?_⟩
      obtain ⟨q, hq, hqs⟩ := h.seen j seq hseq
      exact ⟨q, List.mem_append_left _ hq, hqs⟩
    · simp only [Function.update_of_ne hne]
      exact h.seen j

/-- **The two sides stay in step.** -/
theorem exchange_synced (hopen : P.OpensSealed) (hc : Crossed a b)
    (hready : a.ready = true ∧ b.ready = true) (hseen : a.seenSeq = [] ∧ b.seenSeq = [])
    (hkey : a.sendKey.length = 32 ∧ b.sendKey.length = 32) (hw : (exchange P a b).Reachable w) :
    Synced P w := by
  refine hw.invariant (fun w hw => ?_) fun w action w' _ h hs => ?_
  · subst hw
    have hc' : Crossed b a := ⟨hc.sessionID.symm, hc.domainID.symm, hc.peerDeviceID.symm,
      hc.localDeviceID.symm, hc.transcriptHash.symm, hc.receiveKey.symm, hc.sendKey.symm,
      hc.readyKey.symm⟩
    refine ⟨?_, ?_, ?_, fun _ _ hp => (nomatch hp), fun _ => List.nodup_nil,
      fun _ => List.Subset.refl _, ?_⟩
    · intro i
      cases i
      · exact hc
      · exact hc'
    · intro i
      cases i
      · exact hready.1
      · exact hready.2
    · intro i
      cases i
      · exact hkey.1
      · exact hkey.2
    · intro i seq hseq
      have hnil : ((start a b).state i).seenSeq = [] := by
        cases i
        · exact hseen.1
        · exact hseen.2
      rw [hnil] at hseq
      cases hseq
  · obtain ⟨hfirst, rfl⟩ := hs
    cases action with
    | encrypt i messageID payloadType route plaintext => exact h.encrypt hfirst _ _ _ _
    | decrypt i env =>
      obtain ⟨p, hp, rfl, hnew⟩ := hfirst
      exact h.decrypt hopen hp hnew

/-! ### Agreement -/

/-- **Agreement of the handshake.** Two devices of one domain with different identifiers, whose
hellos name each other, both establish a state; the states are the two sides of one session with
a key for either direction, and either side accepts the ready message of the other. From then on,
as long as every delivery is a first one, every call to encrypt succeeds and every envelope is
decrypted to what was encrypted. -/
theorem handshake_agreement (hx : P.X25519Commutes) (hlabels : SeparatesLabels P)
    (hderives : Derives P) (hsign : P.SignsVerifiably) (hopen : P.OpensSealed)
    {dev dev' : Device} (hm : Made P dev) (hm' : Made P dev')
    (hne : dev.identity.deviceID ≠ dev'.identity.deviceID)
    (hdomain : dev.identity.domainID = dev'.identity.domainID) {rand rand' : Option Seed}
    {sessionID grantID grantID' : Str} {now now' : Time} {loc loc' : LocalHello}
    (hloc : createHello P dev rand sessionID dev'.identity.deviceID grantID now = .ok loc)
    (hloc' : createHello P dev' rand' sessionID dev.identity.deviceID grantID' now' = .ok loc')
    (hagree : ∀ pub, P.x25519 loc'.privateKey.key P.basepoint = some pub →
      (P.x25519 loc.privateKey.key pub).isSome) :
    ∃ a b ra rb a' b',
      establish P loc loc'.hello dev.identity dev'.identity = .ok a ∧
      establish P loc' loc.hello dev'.identity dev.identity = .ok b ∧
      a.transcriptHash = b.transcriptHash ∧ a.readyKey = b.readyKey ∧
      a.sendKey = b.receiveKey ∧ b.sendKey = a.receiveKey ∧ a.sendKey ≠ a.receiveKey ∧
      a.createReady P dev = .ok ra ∧ b.createReady P dev' = .ok rb ∧
      a.verifyReady P rb dev'.identity = .ok a' ∧ b.verifyReady P ra dev.identity = .ok b' ∧
      ∀ w, (exchange P a' b').Reachable w → ∀ i,
        (∀ messageID payloadType route plaintext, (w.state i).sendSeq.toNat < 2 ^ 63 →
          ∃ st env, encrypt P (w.state i) messageID payloadType route plaintext = (st, .ok env)) ∧
        ∀ p ∈ w.sent i, p ∉ w.received (!i) → ∃ st, decrypt P (w.state !i) p.2 = (st, .ok p.1) := by
  have hc := createHello_eq_ok hloc
  have hc' := createHello_eq_ok hloc'
  obtain ⟨hsession, hpeer⟩ := sessionID_of_createHello hloc
  obtain ⟨hsession', hpeer'⟩ := sessionID_of_createHello hloc'
  have hpair : Paired loc.hello loc'.hello :=
    ⟨hsession.trans hsession'.symm, by rw [hc.domainID, hc'.domainID, hdomain],
      hpeer.trans hc'.deviceID.symm, hpeer'.trans hc.deviceID.symm⟩
  obtain ⟨a, ha⟩ := exists_establish dev hsign hderives hm' hc' hpair hagree
  obtain ⟨b, hb⟩ := exists_establish dev' hsign hderives hm hc hpair.symm
    fun _ hpub => agree_symm hx hagree hc' hpub
  obtain ⟨hea, -, -, hseen⟩ := establish_eq_ok.mp ha
  obtain ⟨heb, -, -, hseen'⟩ := establish_eq_ok.mp hb
  have hcross : Crossed a b := crossed_of_paired hx hc hc' hpair hne ha hb
  have hcross' : Crossed b a := crossed_of_paired hx hc' hc hpair.symm hne.symm hb ha
  have hkey := hea.keySizes
  refine ⟨a, b, a.readyMessage P dev, b.readyMessage P dev', { a with ready := true },
    { b with ready := true }, ha, hb, hcross.transcriptHash.symm, hcross.readyKey.symm,
    hcross.receiveKey.symm, hcross.sendKey, hea.sendKey_ne hlabels, a.createReady_eq dev,
    b.createReady_eq dev', ?_, ?_, fun w hw i => ?_⟩
  · exact State.verifyReady_eq_ok.mpr ⟨readyVerified_of_crossed hsign hm' hcross, rfl⟩
  · exact State.verifyReady_eq_ok.mpr ⟨readyVerified_of_crossed hsign hm hcross', rfl⟩
  · have hcross₁ : Crossed { a with ready := true } { b with ready := true } := { hcross with }
    have hsynced : Synced P w := exchange_synced hopen hcross₁ ⟨rfl, rfl⟩
      ⟨hseen, hseen'⟩ ⟨hkey.1, hcross.sendKey ▸ hkey.2⟩ hw
    refine ⟨fun messageID payloadType route plaintext hseq => ?_, fun p hp hnew => ?_⟩
    · obtain ⟨ad, env, he⟩ := exists_encrypt (P := P) (hsynced.ready i) (hsynced.keySize i) hseq
        messageID payloadType route plaintext
      exact ⟨_, env, encrypt_eq_ok.mpr ⟨rfl, ad, he⟩⟩
    · obtain ⟨nonce, ct, ad, hd⟩ := hsynced.decrypted hopen hp hnew
      exact ⟨_, decrypt_eq_ok.mpr ⟨rfl, nonce, ct, ad, hd⟩⟩

/-- The two devices of the example. -/
theorem handshake_agreement_example : ∃ (loc loc' : LocalHello) (a b : State),
    establish Primitives.transparent loc loc'.hello (exampleDevices.device false).identity
      (exampleDevices.device true).identity = .ok a ∧
    establish Primitives.transparent loc' loc.hello (exampleDevices.device true).identity
      (exampleDevices.device false).identity = .ok b ∧
    a.sendKey = b.receiveKey ∧ a.sendKey ≠ a.receiveKey := by
  let H := exampleDevices
  obtain ⟨la, lb, _, _, hla, hlb, -⟩ := exampleSession
  obtain ⟨a, b, _, _, _, _, ha, hb, -, -, hkey, -, hkeys, -⟩ := handshake_agreement
    Primitives.x25519Commutes_transparent separatesLabels_transparent (fun _ _ _ => rfl)
    Primitives.signsVerifiably_transparent Primitives.opensSealed_transparent (H.made false)
    (H.made true) (by decide) rfl hla hlb fun _ _ => rfl
  exact ⟨la, lb, a, b, ha, hb, hkey, hkeys⟩

end Envelope

end Iscp
