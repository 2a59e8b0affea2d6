import Iscp.Session.Transcript

/-!
# Secure envelopes

A device sends a payload in a `Iscp.Envelope.SecureEnvelope`: the payload is encrypted with
the sending key of a session, and everything else the envelope says – who sends it, to whom,
how it is routed – is the additional data the encryption authenticates. The additional data
is the canonical form of the envelope without its ciphertext (`Iscp.Envelope.aad`), so it
binds every field (`Iscp.Envelope.aad_binds`).

The session state changes although a call fails: a sequence number is used up when an
envelope is made, and one that is received is received once, whether or not the envelope
turns out to be authentic. Either function therefore returns the state beside its result.
-/

namespace Iscp

namespace Envelope

open Go Go.Json Crypto Canonical Session

/-- `TypeSecureEnvelope`. -/
def typeSecureEnvelope : Str := lit "iscp.secure_envelope.v2"

/-- How a relay is to treat an envelope. -/
structure Route where
  relayID : Str
  ttlSeconds : Int64
  priority : Int64
  deriving DecidableEq

/-- **An envelope.** -/
@[ext] structure SecureEnvelope where
  type : Str
  domainID : Str
  messageID : Str
  sessionID : Str
  senderDeviceID : Str
  recipientDeviceID : Str
  sequence : UInt64
  nonce : Str
  payloadType : Str
  route : Route
  ciphertext : Str
  deriving DecidableEq

/-- The members of a route's JSON. -/
def Route.fields (r : Route) : List (String × Value) :=
  [("relay_id", .str r.relayID), ("ttl_seconds", .int r.ttlSeconds.toInt),
    ("priority", .int r.priority.toInt)]

/-- The members of an envelope's JSON. -/
def SecureEnvelope.fields (env : SecureEnvelope) : List (String × Value) :=
  [("type", .str env.type), ("domain_id", .str env.domainID), ("message_id", .str env.messageID),
    ("session_id", .str env.sessionID), ("sender_device_id", .str env.senderDeviceID),
    ("recipient_device_id", .str env.recipientDeviceID), ("sequence", .int env.sequence.toNat),
    ("nonce", .str env.nonce), ("payload_type", .str env.payloadType),
    ("route", .ofFields env.route.fields), ("ciphertext", .str env.ciphertext)]

/-- The envelope without its ciphertext. -/
def SecureEnvelope.header (env : SecureEnvelope) : SecureEnvelope := { env with ciphertext := [] }

/-- `aad`: the additional data of an envelope. -/
def aad (env : SecureEnvelope) : Except Error Bytes :=
  marshal (Value.ofFields env.header.fields).text

/-- The error of a session that is not ready. -/
def notReady : Error := .new .sessionInvalid (lit "session is not ready for payload delivery")

variable (P : Primitives)

/-- The envelope with the state's next sequence number, before anything is encrypted. -/
def unsealed (st : State) (messageID payloadType : Str) (route : Route) : SecureEnvelope where
  type := typeSecureEnvelope
  domainID := st.domainID
  messageID := messageID
  sessionID := st.sessionID
  senderDeviceID := st.localDeviceID
  recipientDeviceID := st.peerDeviceID
  sequence := st.nextSend.1
  nonce := base64URL st.nextSend.2.1
  payloadType := payloadType
  route := route
  ciphertext := []

/-- **`Encrypt`**: the state after the call, and the envelope. -/
def encrypt (st : State) (messageID payloadType : Str) (route : Route) (plaintext : Bytes) :
    State × Except Error SecureEnvelope :=
  if ¬st.ready then (st, .error notReady)
  else (st.nextSend.2.2, do
    let env := unsealed st messageID payloadType route
    let ad ← aad env
    let ct ← providerSeal P st.sendKey st.nextSend.2.1 plaintext ad
    return { env with ciphertext := base64URL ct })

/-- **`Decrypt`**: the state after the call, and the plaintext. -/
def decrypt (st : State) (env : SecureEnvelope) : State × Except Error Bytes :=
  if ¬st.ready then (st, .error notReady)
  else if env.type ≠ typeSecureEnvelope ∨ env.sessionID ≠ st.sessionID ∨
      env.domainID ≠ st.domainID then
    (st, .error (.new .envelopeInvalid (lit "envelope binding mismatch")))
  else if env.senderDeviceID ≠ st.peerDeviceID ∨ env.recipientDeviceID ≠ st.localDeviceID then
    (st, .error (.new .envelopeInvalid (lit "envelope route identity mismatch")))
  else match st.markReceived env.sequence with
    | .error e => (st, .error e)
    -- from here on the sequence number counts as received, whatever comes of the envelope
    | .ok st => (st, do
      let nonce ← decodeBase64URL env.nonce
      let ct ← decodeBase64URL env.ciphertext
      let ad ← aad env
      providerOpen P st.receiveKey nonce ct ad)

/-! ### What the additional data binds -/

/-- An envelope as it comes over the wire: all of its text is UTF-8. -/
structure SecureEnvelope.Utf8 (env : SecureEnvelope) : Prop where
  type : Go.Utf8 env.type
  domainID : Go.Utf8 env.domainID
  messageID : Go.Utf8 env.messageID
  sessionID : Go.Utf8 env.sessionID
  senderDeviceID : Go.Utf8 env.senderDeviceID
  recipientDeviceID : Go.Utf8 env.recipientDeviceID
  nonce : Go.Utf8 env.nonce
  payloadType : Go.Utf8 env.payloadType
  relayID : Go.Utf8 env.route.relayID

variable {env env' : SecureEnvelope} {b : Bytes}

theorem Route.strict_fields (r : Route) : Strict (Value.ofFields r.fields).toUtf8 := by
  have hint : ∀ i : Int64, Strict (Value.int i.toInt).toUtf8 := fun i =>
    .int ⟨by simpa using i.le_toInt, by simpa using i.toInt_lt⟩
  refine strict_toUtf8_ofFields (by simp [fields]) ?_
  simp only [fields, List.forall_mem_cons]
  exact ⟨strict_toUtf8_str _, hint _, hint _, nofun⟩

/-- An envelope has additional data as long as its sequence number is an `int64`. -/
theorem aad_eq_ok : aad env = .ok b ↔
    env.sequence.toNat < 2 ^ 63 ∧ writeCanonical (.obj (repaired env.header.fields)) = b := by
  rw [aad, marshal_text_eq_ok]
  refine and_congr_left fun _ => ⟨fun h => ?_, fun h => ?_⟩
  · rw [toUtf8_ofFields] at h
    obtain _ | _ | _ | _ | _ | ⟨-, -, hv⟩ := h
    have hseq : ("sequence", Value.int env.sequence.toNat) ∈ env.header.fields := by
      simp [SecureEnvelope.fields, SecureEnvelope.header]
    obtain _ | _ | ⟨-, hlt⟩ := hv _ (mem_repaired hseq)
    omega
  · refine strict_toUtf8_ofFields (by simp [SecureEnvelope.fields]) ?_
    simp only [SecureEnvelope.fields, List.forall_mem_cons]
    have hseq : Strict (Value.int env.sequence.toNat).toUtf8 := .int ⟨by omega, by omega⟩
    simp only [SecureEnvelope.header, strict_toUtf8_str, Route.strict_fields, hseq, true_and]
    nofun

theorem Route.eq_of_same {r r' : Route} (hu : Go.Utf8 r.relayID) (hu' : Go.Utf8 r'.relayID)
    (h : Same (Value.ofFields r.fields).toUtf8 (Value.ofFields r'.fields).toUtf8) : r = r' := by
  rw [toUtf8_ofFields, toUtf8_ofFields] at h
  have hfields := h.fieldwise (by simp [fields]) (by simp [fields])
  simp only [fields, List.forall₂_cons, List.forall₂_nil_left_iff, Value.toUtf8, Same,
    Int64.toInt_inj, toUtf8_eq_self hu, toUtf8_eq_self hu'] at hfields
  obtain ⟨hrelay, httl, hpriority, -⟩ := hfields
  cases r
  cases r'
  simp_all

/-- **The additional data binds every field** but the ciphertext. -/
theorem aad_binds (hu : env.Utf8) (hu' : env'.Utf8) (h : aad env = .ok b)
    (h' : aad env' = .ok b) : env.header = env'.header := by
  have hfields := marshal_binds h h' (by simp [SecureEnvelope.fields])
  simp only [SecureEnvelope.fields, SecureEnvelope.header, List.forall₂_cons,
    List.forall₂_nil_left_iff, Value.toUtf8, Same, toUtf8_eq_self hu.type,
    toUtf8_eq_self hu'.type, toUtf8_eq_self hu.domainID, toUtf8_eq_self hu'.domainID,
    toUtf8_eq_self hu.messageID, toUtf8_eq_self hu'.messageID, toUtf8_eq_self hu.sessionID,
    toUtf8_eq_self hu'.sessionID, toUtf8_eq_self hu.senderDeviceID,
    toUtf8_eq_self hu'.senderDeviceID, toUtf8_eq_self hu.recipientDeviceID,
    toUtf8_eq_self hu'.recipientDeviceID, toUtf8_eq_self hu.nonce, toUtf8_eq_self hu'.nonce,
    toUtf8_eq_self hu.payloadType, toUtf8_eq_self hu'.payloadType, Int.natCast_inj,
    UInt64.toNat_inj] at hfields
  obtain ⟨htype, hdomain, hmessage, hsession, hsender, hrecipient, hseq, hnonce, hpayload, hroute,
    -⟩ := hfields
  exact SecureEnvelope.ext htype hdomain hmessage hsession hsender hrecipient hseq hnonce hpayload
    (Route.eq_of_same hu.relayID hu'.relayID hroute) rfl

/-! ### Calls that succeed -/

/-- **What `Iscp.Envelope.encrypt` makes of the state and its arguments.** -/
structure Encrypted (st : State) (messageID payloadType : Str) (route : Route)
    (plaintext ad : Bytes) (env : SecureEnvelope) : Prop where
  ready : st.ready = true
  keySize : st.sendKey.length = 32
  data : aad env = .ok ad
  eq : env = { unsealed st messageID payloadType route with
    ciphertext := base64URL (P.aeadSeal st.sendKey (State.nonceOf st.sendSeq) plaintext ad) }

/-- **What an envelope has been checked for** when it has been decrypted. -/
structure Decrypted (st : State) (env : SecureEnvelope) (nonce ct ad plaintext : Bytes) :
    Prop where
  ready : st.ready = true
  type : env.type = typeSecureEnvelope
  sessionID : env.sessionID = st.sessionID
  domainID : env.domainID = st.domainID
  sender : env.senderDeviceID = st.peerDeviceID
  recipient : env.recipientDeviceID = st.localDeviceID
  unseen : env.sequence ∉ st.seenSeq
  decodeNonce : decodeBase64URL env.nonce = .ok nonce
  decodeCiphertext : decodeBase64URL env.ciphertext = .ok ct
  data : aad env = .ok ad
  keySize : st.receiveKey.length = 32
  nonceSize : nonce.length = 12
  opened : P.aeadOpen st.receiveKey nonce ct ad = some plaintext

variable {P} {st st' : State} {messageID payloadType : Str} {route : Route} {plaintext : Bytes}

theorem length_nonceOf (seq : UInt64) : (State.nonceOf seq).length = 12 := by
  simp [State.nonceOf]

/-- What a successful `Encrypt` gives, and the state it leaves. -/
theorem encrypt_eq_ok :
    encrypt P st messageID payloadType route plaintext = (st', .ok env) ↔
      st' = { st with sendSeq := st.sendSeq + 1 } ∧
        ∃ ad, Encrypted P st messageID payloadType route plaintext ad env := by
  unfold encrypt
  by_cases hr : st.ready = true
  · rw [if_neg (not_not.mpr hr)]
    simp only [Prod.mk.injEq, bind_eq_ok_iff, providerSeal_eq_ok]
    refine and_congr eq_comm ⟨?_, ?_⟩
    · rintro ⟨ad, had, _, ⟨hkey, -, rfl⟩, ⟨⟩⟩
      exact ⟨ad, hr, hkey, had, rfl⟩
    · rintro ⟨ad, h⟩
      refine ⟨ad, ?_, _, ⟨h.keySize, length_nonceOf _, rfl⟩, congrArg _ h.eq.symm⟩
      rw [← h.data, h.eq]
      rfl
  · rw [if_pos hr]
    simp only [Prod.mk.injEq, reduceCtorEq, and_false, false_iff]
    rintro ⟨-, ad, h⟩
    exact hr h.ready

/-- What a successful `Decrypt` has checked, and the state it leaves. -/
theorem decrypt_eq_ok : decrypt P st env = (st', .ok plaintext) ↔
    st' = { st with seenSeq := env.sequence :: st.seenSeq } ∧
      ∃ nonce ct ad, Decrypted P st env nonce ct ad plaintext := by
  unfold decrypt
  constructor
  · intro h
    split_ifs at h with hready hbound hroute
    · cases h
    · cases h
    swap
    · cases h
    rw [State.markReceived] at h
    split_ifs at h with hseen
    · cases h
    simp only [Prod.mk.injEq, bind_eq_ok_iff, providerOpen_eq_ok] at h
    obtain ⟨rfl, nonce, hnonce, ct, hct, ad, had, hkey, hsize, hopen⟩ := h
    simp only [not_or, not_not, ne_eq] at hbound hroute
    exact ⟨rfl, nonce, ct, ad, hready, hbound.1, hbound.2.1, hbound.2.2, hroute.1, hroute.2, hseen,
      hnonce, hct, had, hkey, hsize, hopen⟩
  · rintro ⟨rfl, nonce, ct, ad, h⟩
    rw [if_neg (by simp [h.ready]), if_neg (by simp [h.type, h.sessionID, h.domainID]),
      if_neg (by simp [h.sender, h.recipient]), State.markReceived, if_neg h.unseen]
    simp only [Prod.mk.injEq, true_and, bind_eq_ok_iff, providerOpen_eq_ok]
    exact ⟨nonce, h.decodeNonce, ct, h.decodeCiphertext, ad, h.data, h.keySize, h.nonceSize,
      h.opened⟩

theorem decrypt_state (st : State) (env : SecureEnvelope) : (decrypt P st env).1 = st ∨
    (decrypt P st env).1 = { st with seenSeq := env.sequence :: st.seenSeq } := by
  unfold decrypt State.markReceived
  split_ifs <;> first | exact .inl rfl | exact .inr rfl

theorem encrypt_state (st : State) (messageID payloadType : Str) (route : Route)
    (plaintext : Bytes) : (encrypt P st messageID payloadType route plaintext).1 = st ∨
    (encrypt P st messageID payloadType route plaintext).1 =
      { st with sendSeq := st.sendSeq + 1 } := by
  unfold encrypt
  split_ifs
  · exact .inr rfl
  · exact .inl rfl

theorem toNat_succ {seq : UInt64} (h : seq.toNat < 2 ^ 63) : (seq + 1).toNat = seq.toNat + 1 := by
  rw [UInt64.toNat_add]
  exact Nat.mod_eq_of_lt (by simp; omega)

/-! ### What is encrypted can be decrypted -/

/-- **A ready state encrypts**, for its first `2 ^ 63` calls. -/
theorem exists_encrypt (hready : st.ready = true) (hkey : st.sendKey.length = 32)
    (hseq : st.sendSeq.toNat < 2 ^ 63) (messageID payloadType : Str) (route : Route)
    (plaintext : Bytes) :
    ∃ ad env, Encrypted P st messageID payloadType route plaintext ad env := by
  obtain ⟨ad, had⟩ : ∃ ad, aad (unsealed st messageID payloadType route) = .ok ad :=
    ⟨_, aad_eq_ok.mpr ⟨hseq, rfl⟩⟩
  -- the ciphertext is no part of the data
  refine ⟨ad, { unsealed st messageID payloadType route with ciphertext := _ }, hready, hkey, ?_,
    rfl⟩
  exact had

/-- **The other side of the session decrypts what has been encrypted**, the first time it is
given the sequence number. -/
theorem Encrypted.decrypted {ad : Bytes} (hopen : P.OpensSealed) (hc : Crossed st st')
    (he : Encrypted P st messageID payloadType route plaintext ad env)
    (hready : st'.ready = true) (hunseen : env.sequence ∉ st'.seenSeq) :
    Decrypted P st' env (State.nonceOf st.sendSeq)
      (P.aeadSeal st.sendKey (State.nonceOf st.sendSeq) plaintext ad) ad plaintext := by
  have hkey : st'.receiveKey.length = 32 := hc.receiveKey ▸ he.keySize
  have henv := he.eq
  refine ⟨hready, ?_, ?_, ?_, ?_, ?_, hunseen, ?_, ?_, he.data, hkey, length_nonceOf _, ?_⟩
  · rw [henv]
    rfl
  · rw [henv, hc.sessionID]
    rfl
  · rw [henv, hc.domainID]
    rfl
  · rw [henv, hc.peerDeviceID]
    rfl
  · rw [henv, hc.localDeviceID]
    rfl
  · rw [henv]
    exact decodeBase64URL_base64URL _
  · rw [henv]
    exact decodeBase64URL_base64URL _
  · rw [hc.receiveKey]
    exact hopen _ _ _ _ he.keySize (length_nonceOf _)

end Envelope

end Iscp
