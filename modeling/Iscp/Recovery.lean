import Iscp.Crypto
import Iscp.Go.Result

/-!
# Credential recovery

A device that has lost its credentials gets new ones in a sealed block: the Relay makes a key pair
for this block alone, agrees with the wrap key of the client on a secret, and derives the key that
seals the credentials from the secret and the transcript. `Iscp.Recovery.sealWrapped` is its side,
`Iscp.Recovery.openWrapped` is the client's.

The client gets what was sealed, and nothing else opens: neither under another transcript, nor if
anything in the block has been changed (`Iscp.Recovery.recovery_roundtrip`). The info of HKDF is the
transcript with two keys behind it, without a delimiter; as the keys have 32 bytes, the transcript
can be told from them.

The transcript in turn names the device by its domain, its id and the thumbprint of its key, with a
NUL between them. A thumbprint has no NUL, but the ids may have any number: where the domain ends
can be told only if it is known how many it has (`Iscp.Recovery.transcript_inj`). Two devices can
therefore have one transcript (`Iscp.Recovery.opens_for_another`), and this is the only way a block
for one opens for the other (`Iscp.Recovery.recovery_binds_iff`).
-/

namespace Iscp

namespace Recovery

open Go Crypto

/-- `TypeWrappedCredentials`. -/
def typeWrappedCredentials : Str := lit "iscp.relay.credential_recovery.wrapped.v2"

/-- `TranscriptLabel`. -/
def transcriptLabel : Str := lit "iscp/v2/relay/credential-recovery"

/-- **`WrappedCredentials`.** -/
structure WrappedCredentials where
  type : Str
  ciphersuite : Str
  recoveryPublicKey : Str
  serverPublicKey : Str
  nonce : Str
  ciphertext : Str
  deriving DecidableEq

/-- **`Challenge`.** -/
def challenge (idempotencyKey wrapPublicKey : Str) : Str := idempotencyKey ++ 0 :: wrapPublicKey

/-- **`Transcript`.** -/
def transcript (domainID deviceID thumbprint : Str) : Bytes :=
  transcriptLabel ++ 0 :: domainID ++ 0 :: deviceID ++ 0 :: thumbprint

variable (P : Primitives)

/-- **`deriveKey`.** -/
def deriveKey (secret transcript clientPub serverPub : Bytes) : Except Error Bytes :=
  hkdf P secret [] (transcript ++ clientPub ++ serverPub) 32

/-- What the random source delivers for a nonce: 12 bytes. -/
abbrev Nonce := {b : Bytes // b.length = 12}

/-- **A call of `Seal`**: what it is given, and what it draws. -/
structure SealCall where
  wrapPublicKey : Str
  transcript : Bytes
  plaintext : Bytes
  seed : Option Seed
  nonce : Nonce

/-- **A call of `Open`.** -/
structure OpenCall where
  wrapped : WrappedCredentials
  wrapPriv : X25519PrivateKey
  wrapPublicKey : Str
  transcript : Bytes

/-- **`Seal`.** -/
def sealWrapped (c : SealCall) : Except Error WrappedCredentials := do
  let clientPubBytes ← (decodeBase64URL c.wrapPublicKey).mapError fun _ =>
    .new .keyInvalid (lit "recovery wrap key is not valid base64url")
  let clientPub ← x25519PublicKeyFromBytes clientPubBytes
  let (serverPriv, serverPub) ← generateSessionKey P c.seed
  let secret ← sharedSecret P serverPriv clientPub
  let key ← deriveKey P secret c.transcript clientPub.key serverPub.key
  let ciphertext ← providerSeal P key c.nonce.1 c.plaintext c.transcript
  return { type := typeWrappedCredentials
           ciphersuite := ciphersuiteV2
           recoveryPublicKey := c.wrapPublicKey
           serverPublicKey := base64URL serverPub.key
           nonce := base64URL c.nonce.1
           ciphertext := base64URL ciphertext }

/-- **`Open`.** -/
def openWrapped (c : OpenCall) : Except Error Bytes := do
  failIf (c.wrapped.type ≠ typeWrappedCredentials)
    (.new .schemaInvalid (lit "unexpected wrapped credential type"))
  failIf (c.wrapped.ciphersuite ≠ ciphersuiteV2)
    (.new .schemaInvalid (lit "unsupported wrapped credential ciphersuite"))
  failIf (c.wrapped.recoveryPublicKey ≠ c.wrapPublicKey)
    (.new .keyInvalid (lit "wrapped credential recovery key mismatch"))
  let serverPubBytes ← decodeBase64URL c.wrapped.serverPublicKey
  let serverPub ← x25519PublicKeyFromBytes serverPubBytes
  let clientPubBytes ← decodeBase64URL c.wrapPublicKey
  let secret ← sharedSecret P c.wrapPriv serverPub
  let key ← deriveKey P secret c.transcript clientPubBytes serverPubBytes
  let nonce ← decodeBase64URL c.wrapped.nonce
  let ciphertext ← decodeBase64URL c.wrapped.ciphertext
  providerOpen P key nonce ciphertext c.transcript

/-! ### What a call computes -/

/-- **What a call computes** before it seals or opens: the keys of the two sides, the secret they
agree on, and the key derived from it. -/
structure Agreement where
  clientPub : Bytes
  serverPub : X25519PublicKey
  secret : Bytes
  key : Bytes

/-- The info the key is derived with. -/
def Agreement.info (a : Agreement) (transcript : Bytes) : Bytes :=
  transcript ++ a.clientPub ++ a.serverPub.key

/-- **A call of `Seal` gets as far as sealing.** -/
structure SealCall.Derives (c : SealCall) (a : Agreement) : Prop where
  clientPub : decodeBase64URL c.wrapPublicKey = .ok a.clientPub
  agreed : ∃ serverPriv, generateSessionKey P c.seed = .ok (serverPriv, a.serverPub) ∧
    P.x25519 serverPriv.key a.clientPub = some a.secret
  key : P.hkdf a.secret [] (a.info c.transcript) 32 = some a.key

/-- **A call of `Open` gets as far as opening.** -/
structure OpenCall.Derives (c : OpenCall) (a : Agreement) (nonce ciphertext : Bytes) : Prop where
  type : c.wrapped.type = typeWrappedCredentials
  ciphersuite : c.wrapped.ciphersuite = ciphersuiteV2
  recoveryPublicKey : c.wrapped.recoveryPublicKey = c.wrapPublicKey
  serverPub : decodeBase64URL c.wrapped.serverPublicKey = .ok a.serverPub.key
  clientPub : decodeBase64URL c.wrapPublicKey = .ok a.clientPub
  agreed : P.x25519 c.wrapPriv.key a.serverPub.key = some a.secret
  key : P.hkdf a.secret [] (a.info c.transcript) 32 = some a.key
  nonce : decodeBase64URL c.wrapped.nonce = .ok nonce
  ciphertext : decodeBase64URL c.wrapped.ciphertext = .ok ciphertext

/-- The block `Seal` makes of what it has computed. -/
def SealCall.block (c : SealCall) (a : Agreement) : WrappedCredentials where
  type := typeWrappedCredentials
  ciphersuite := ciphersuiteV2
  recoveryPublicKey := c.wrapPublicKey
  serverPublicKey := base64URL a.serverPub.key
  nonce := base64URL c.nonce.1
  ciphertext := base64URL (P.aeadSeal a.key c.nonce.1 c.plaintext c.transcript)

variable {P}

variable {c : SealCall} {wrapped : WrappedCredentials} {plaintext nonce : Bytes} {a a' : Agreement}
  {priv : X25519PrivateKey} {t domainID deviceID domainID' deviceID' : Str}

/-- What a successful seal gives. -/
theorem seal_eq_ok_iff :
    sealWrapped P c = .ok wrapped ↔
      ∃ a, c.Derives P a ∧ a.clientPub.length = 32 ∧ wrapped = c.block P a := by
  simp only [sealWrapped, deriveKey, bind_eq_ok_iff, mapError_eq_ok_iff,
    x25519PublicKeyFromBytes_eq_ok, sharedSecret_eq_ok, hkdf_eq_ok, providerSeal_eq_ok]
  constructor
  · rintro ⟨_, hclient, clientPub, rfl, ⟨serverPriv, serverPub⟩, hserver, secret, hsecret, key,
      hkey, ct, ⟨-, -, rfl⟩, hwrapped⟩
    exact ⟨⟨clientPub.key, serverPub, secret, key⟩, ⟨hclient, ⟨serverPriv, hserver, hsecret⟩, hkey⟩,
      clientPub.size, (Except.ok.inj hwrapped).symm⟩
  · rintro ⟨a, h, hsize, rfl⟩
    obtain ⟨serverPriv, hserver, hsecret⟩ := h.agreed
    exact ⟨a.clientPub, h.clientPub, ⟨a.clientPub, hsize⟩, rfl, (serverPriv, a.serverPub), hserver,
      a.secret, hsecret, a.key, h.key, _, ⟨P.hkdf_size h.key, c.nonce.2, rfl⟩, rfl⟩

/-- What a successful open has derived and opened. -/
theorem open_eq_ok_iff {c : OpenCall} :
    openWrapped P c = .ok plaintext ↔ ∃ a nonce ciphertext, c.Derives P a nonce ciphertext ∧
      nonce.length = 12 ∧ P.aeadOpen a.key nonce ciphertext c.transcript = some plaintext := by
  simp only [openWrapped, deriveKey, bind_eq_ok_iff, failIf_eq_ok_iff, exists_const, not_not,
    x25519PublicKeyFromBytes_eq_ok, sharedSecret_eq_ok, hkdf_eq_ok, providerOpen_eq_ok, ne_eq]
  constructor
  · rintro ⟨htype, hsuite, hrecovery, _, hserver, serverPub, rfl, clientPub, hclient, secret,
      hsecret, key, hkey, nonce, hnonce, ciphertext, hciphertext, -, hlength, hopen⟩
    exact ⟨⟨clientPub, serverPub, secret, key⟩, nonce, ciphertext,
      ⟨htype, hsuite, hrecovery, hserver, hclient, hsecret, hkey, hnonce, hciphertext⟩, hlength,
      hopen⟩
  · rintro ⟨a, nonce, ciphertext, h, hlength, hopen⟩
    exact ⟨h.type, h.ciphersuite, h.recoveryPublicKey, a.serverPub.key, h.serverPub, a.serverPub,
      rfl, a.clientPub, h.clientPub, a.secret, h.agreed, a.key,
      h.key, nonce, h.nonce, ciphertext, h.ciphertext, P.hkdf_size h.key, hlength, hopen⟩

theorem SealCall.Derives.unique (h : c.Derives P a) (h' : c.Derives P a') : a = a' := by
  obtain ⟨serverPriv, hserver, hsecret⟩ := h.agreed
  obtain ⟨serverPriv', hserver', hsecret'⟩ := h'.agreed
  obtain ⟨clientPub, serverPub, secret, key⟩ := a
  obtain rfl : clientPub = a'.clientPub := Except.ok.inj (h.clientPub.symm.trans h'.clientPub)
  obtain ⟨rfl, rfl⟩ := Prod.mk.inj (Except.ok.inj (hserver.symm.trans hserver'))
  obtain rfl : secret = a'.secret := Option.some.inj (hsecret.symm.trans hsecret')
  obtain rfl : key = a'.key := Option.some.inj (h.key.symm.trans h'.key)
  rfl

theorem OpenCall.Derives.unique {c : OpenCall} {nonce' ct ct' : Bytes} (h : c.Derives P a nonce ct)
    (h' : c.Derives P a' nonce' ct') : a = a' ∧ nonce = nonce' ∧ ct = ct' := by
  obtain ⟨clientPub, serverPub, secret, key⟩ := a
  obtain rfl : clientPub = a'.clientPub := Except.ok.inj (h.clientPub.symm.trans h'.clientPub)
  obtain rfl : serverPub = a'.serverPub :=
    X25519PublicKey.ext (Except.ok.inj (h.serverPub.symm.trans h'.serverPub))
  obtain rfl : secret = a'.secret := Option.some.inj (h.agreed.symm.trans h'.agreed)
  obtain rfl : key = a'.key := Option.some.inj (h.key.symm.trans h'.key)
  exact ⟨rfl, Except.ok.inj (h.nonce.symm.trans h'.nonce),
    Except.ok.inj (h.ciphertext.symm.trans h'.ciphertext)⟩

/-! ### The round trip -/

/-- **The client computes what the Relay has computed**, if it has the private key. -/
theorem SealCall.Derives.opens (h : c.Derives P a) (hcommutes : P.X25519Commutes)
    (hpair : P.x25519 priv.key P.basepoint = some a.clientPub) :
    OpenCall.Derives P ⟨c.block P a, priv, c.wrapPublicKey, c.transcript⟩ a c.nonce.1
      (P.aeadSeal a.key c.nonce.1 c.plaintext c.transcript) where
  type := rfl
  ciphersuite := rfl
  recoveryPublicKey := rfl
  serverPub := decodeBase64URL_base64URL _
  clientPub := h.clientPub
  agreed := by
    obtain ⟨serverPriv, hserver, hsecret⟩ := h.agreed
    exact (hcommutes _ _ _ _ hpair (generateSessionKey_eq_ok P hserver)).trans hsecret
  key := h.key
  nonce := decodeBase64URL_base64URL _
  ciphertext := decodeBase64URL_base64URL _

/-- **What has been sealed is opened** with the private key of the wrap key. -/
theorem open_of_seal (hcommutes : P.X25519Commutes) (hopens : P.OpensSealed)
    (h : sealWrapped P c = .ok wrapped) {pub : X25519PublicKey}
    (hpair : P.x25519 priv.key P.basepoint = some pub.key)
    (hpub : decodeBase64URL c.wrapPublicKey = .ok pub.key) :
    openWrapped P ⟨wrapped, priv, c.wrapPublicKey, c.transcript⟩ = .ok c.plaintext := by
  obtain ⟨a, ha, -, rfl⟩ := seal_eq_ok_iff.mp h
  have hclient : pub.key = a.clientPub := Except.ok.inj (hpub.symm.trans ha.clientPub)
  exact open_eq_ok_iff.mpr ⟨a, c.nonce.1, _, ha.opens hcommutes (hclient ▸ hpair), c.nonce.2,
    hopens a.key c.nonce.1 c.plaintext c.transcript (P.hkdf_size ha.key) c.nonce.2⟩

/-- **Ideal encryption**, for a call of `Open` in a world in which one block has been sealed: what
is opened is what was sealed, with the same key, nonce and additional data. -/
def Ideal (P : Primitives) (s : SealCall) (o : OpenCall) : Prop :=
  ∀ a a' nonce ciphertext, s.Derives P a → o.Derives P a' nonce ciphertext →
    (P.aeadOpen a'.key nonce ciphertext o.transcript).isSome →
    a'.key = a.key ∧ nonce = s.nonce.1 ∧
      ciphertext = P.aeadSeal a.key s.nonce.1 s.plaintext s.transcript ∧
      o.transcript = s.transcript

/-- **HKDF tells the two calls apart**: it gives them one key only for one secret and one info. -/
def Separates (P : Primitives) (s : SealCall) (o : OpenCall) : Prop :=
  ∀ a a' nonce ciphertext, s.Derives P a → o.Derives P a' nonce ciphertext →
    a'.key = a.key → a'.secret = a.secret ∧ a'.info o.transcript = a.info s.transcript

/-- **A block says the same as another one**, apart from how the bytes are written down. -/
structure SameBlock (w w' : WrappedCredentials) : Prop where
  type : w.type = w'.type
  ciphersuite : w.ciphersuite = w'.ciphersuite
  recoveryPublicKey : w.recoveryPublicKey = w'.recoveryPublicKey
  serverPublicKey : decodeBase64URL w.serverPublicKey = decodeBase64URL w'.serverPublicKey
  nonce : decodeBase64URL w.nonce = decodeBase64URL w'.nonce
  ciphertext : decodeBase64URL w.ciphertext = decodeBase64URL w'.ciphertext

/-- **The round trip of a recovery.** The client opens what was sealed to its wrap key; and of all
blocks and transcripts only the block that was sealed, and the transcript it was sealed under,
open. -/
theorem recovery_roundtrip (hcommutes : P.X25519Commutes) (hopens : P.OpensSealed) {s : SealCall}
    {wrapped : WrappedCredentials} (h : sealWrapped P s = .ok wrapped) {priv : X25519PrivateKey}
    {pub : X25519PublicKey} (hpair : P.x25519 priv.key P.basepoint = some pub.key)
    (hpub : decodeBase64URL s.wrapPublicKey = .ok pub.key) :
    openWrapped P ⟨wrapped, priv, s.wrapPublicKey, s.transcript⟩ = .ok s.plaintext ∧
    ∀ wrapped' transcript',
      Ideal P s ⟨wrapped', priv, s.wrapPublicKey, transcript'⟩ →
      Separates P s ⟨wrapped', priv, s.wrapPublicKey, transcript'⟩ →
      (openWrapped P ⟨wrapped', priv, s.wrapPublicKey, transcript'⟩).isOk = true →
      transcript' = s.transcript ∧ SameBlock wrapped' wrapped := by
  refine ⟨open_of_seal hcommutes hopens h hpair hpub,
    fun wrapped' transcript' hideal hseparates hok => ?_⟩
  obtain ⟨a, ha, -, rfl⟩ := seal_eq_ok_iff.mp h
  obtain ⟨plaintext, hopen⟩ : ∃ plaintext,
      openWrapped P ⟨wrapped', priv, s.wrapPublicKey, transcript'⟩ = .ok plaintext := by
    cases hopen : openWrapped P ⟨wrapped', priv, s.wrapPublicKey, transcript'⟩ with
    | error e => rw [hopen] at hok; cases hok
    | ok plaintext => exact ⟨plaintext, rfl⟩
  obtain ⟨a', nonce, ciphertext, ha', -, hopened⟩ := open_eq_ok_iff.mp hopen
  obtain ⟨hkey, rfl, rfl, rfl⟩ := hideal a a' nonce ciphertext ha ha' (by rw [hopened]; rfl)
  obtain ⟨-, hinfo⟩ := hseparates a a' _ _ ha ha' hkey
  -- The keys at the end of the info have a fixed size.
  have hserver : a'.serverPub.key = a.serverPub.key :=
    (List.append_inj' hinfo (a'.serverPub.size.trans a.serverPub.size.symm)).2
  refine ⟨rfl, ha'.type, ha'.ciphersuite, ha'.recoveryPublicKey, ?_, ?_, ?_⟩
  · rw [ha'.serverPub, hserver]
    exact (decodeBase64URL_base64URL _).symm
  · rw [ha'.nonce]
    exact (decodeBase64URL_base64URL _).symm
  · rw [ha'.ciphertext]
    exact (decodeBase64URL_base64URL _).symm

/-- A call of `Seal` for a wrap key. -/
def exampleSeal (pub : X25519PublicKey) (transcript : Bytes) : SealCall where
  wrapPublicKey := base64URL pub.key
  transcript := transcript
  plaintext := lit "credentials"
  seed := some ⟨List.replicate 32 0, List.length_replicate⟩
  nonce := ⟨List.replicate 12 0, List.length_replicate⟩

theorem exists_example (transcript : Bytes) : ∃ (priv : X25519PrivateKey) (pub : X25519PublicKey),
    Primitives.transparent.x25519 priv.key Primitives.transparent.basepoint = some pub.key ∧
      ∃ a, (exampleSeal pub transcript).Derives .transparent a ∧ a.clientPub = pub.key := by
  obtain ⟨pub, hpub⟩ : ∃ pub : X25519PublicKey, Primitives.transparent.x25519
      (List.replicate 32 0) Primitives.transparent.basepoint = some pub.key :=
    ⟨⟨Primitives.mix (List.replicate 32 0) [9], Primitives.length_mix _ _⟩, rfl⟩
  obtain ⟨⟨serverPriv, serverPub⟩, hserver⟩ : ∃ keys, generateSessionKey .transparent
      (exampleSeal pub transcript).seed = .ok keys := ⟨_, rfl⟩
  obtain ⟨secret, hsecret⟩ : ∃ secret,
      Primitives.transparent.x25519 serverPriv.key pub.key = some secret := ⟨_, rfl⟩
  obtain ⟨key, hkey⟩ : ∃ key, Primitives.transparent.hkdf secret []
      (transcript ++ pub.key ++ serverPub.key) 32 = some key := ⟨_, rfl⟩
  exact ⟨⟨List.replicate 32 0, List.length_replicate⟩, pub, hpub, ⟨pub.key, serverPub, secret, key⟩,
    ⟨decodeBase64URL_base64URL _, ⟨serverPriv, hserver, hsecret⟩, hkey⟩, rfl⟩

/-- The client opens the block it is sent, and does not open it under another transcript. -/
theorem recovery_roundtrip_own : ∃ (s : SealCall) (wrapped : WrappedCredentials)
    (priv : X25519PrivateKey), s.transcript = [1] ∧ sealWrapped .transparent s = .ok wrapped ∧
      openWrapped .transparent ⟨wrapped, priv, s.wrapPublicKey, s.transcript⟩ = .ok s.plaintext ∧
      (openWrapped .transparent ⟨wrapped, priv, s.wrapPublicKey, [2]⟩).isOk = false := by
  obtain ⟨priv, pub, hpair, a, ha, hclient⟩ := exists_example [1]
  have hseal := seal_eq_ok_iff.mpr ⟨a, ha, hclient ▸ pub.size, rfl⟩
  obtain ⟨hopen, honly⟩ := recovery_roundtrip Primitives.x25519Commutes_transparent
    Primitives.opensSealed_transparent hseal hpair (decodeBase64URL_base64URL _)
  refine ⟨_, _, priv, rfl, hseal, hopen, Bool.eq_false_iff.mpr fun hok => ?_⟩
  have hsame : ([2] : Bytes) = [1] := (honly _ [2] ?_ ?_ hok).1
  · exact absurd hsame (by decide)
  · rintro a₁ a' nonce ct h₁ h' hsome
    obtain rfl := ha.unique h₁
    obtain rfl := Except.ok.inj (h'.ciphertext.symm.trans (decodeBase64URL_base64URL _))
    -- the transcript stands at the end of a ciphertext
    obtain ⟨t, ht⟩ : a'.key ++ nonce ++ [2] <:+
        (exampleSeal pub [1]).plaintext ++ (a.key ++ (exampleSeal pub [1]).nonce.1 ++ [1]) := by
      by_contra hnot
      rw [← List.isSuffixOf_iff_suffix] at hnot
      exact absurd hsome (by rw [Option.not_isSome_iff_eq_none]; exact if_neg hnot)
    exact absurd (congrArg List.getLast? ht) (by simp [← List.append_assoc])
  · rintro a₁ a' nonce ct h₁ h' hkey
    obtain rfl := ha.unique h₁
    -- and at the beginning of a key
    have hhead : a'.key.head? = some 2 := by rw [← Option.some.inj h'.key]; rfl
    have hhead' : a.key.head? = some 1 := by rw [← Option.some.inj ha.key]; rfl
    exact absurd (hhead.symm.trans ((congrArg List.head? hkey).trans hhead')) (by decide)

/-! ### Transcripts and challenges -/

section Separators

variable {α : Type} {x : α} {a b t t' : List α}

theorem append_cons_inj_of_notMem (ht : x ∉ t) (ht' : x ∉ t') :
    a ++ x :: t = b ++ x :: t' ↔ a = b ∧ t = t' := by
  refine ⟨fun h => ?_, fun ⟨ha, ht⟩ => ha ▸ ht ▸ rfl⟩
  induction a generalizing b with
  | nil =>
    cases b with
    | nil => exact ⟨rfl, (List.cons.inj h).2⟩
    | cons y b =>
      refine absurd ?_ ht
      rw [(List.cons.inj h).2]
      exact List.mem_append_right b List.mem_cons_self
  | cons y a ih =>
    cases b with
    | nil =>
      refine absurd ?_ ht'
      rw [← (List.cons.inj h).2]
      exact List.mem_append_right a List.mem_cons_self
    | cons z b =>
      obtain ⟨rfl, htail⟩ := List.cons.inj h
      obtain ⟨rfl, ht⟩ := ih htail
      exact ⟨rfl, ht⟩

theorem append_cons_inj_of_count [DecidableEq α] (hcount : a.count x = b.count x)
    (h : a ++ x :: t = b ++ x :: t') : a = b ∧ t = t' := by
  induction a generalizing b with
  | nil =>
    cases b with
    | nil => exact ⟨rfl, (List.cons.inj h).2⟩
    | cons y b =>
      obtain ⟨rfl, -⟩ := List.cons.inj h
      rw [List.count_nil, List.count_cons_self] at hcount
      omega
  | cons y a ih =>
    cases b with
    | nil =>
      obtain ⟨rfl, -⟩ := List.cons.inj h
      rw [List.count_nil, List.count_cons_self] at hcount
      omega
    | cons z b =>
      obtain ⟨rfl, htail⟩ := List.cons.inj h
      rw [List.count_cons, List.count_cons, Nat.add_right_cancel_iff] at hcount
      obtain ⟨rfl, ht⟩ := ih hcount htail
      exact ⟨rfl, ht⟩

end Separators

theorem zero_notMem_of_decodeBase64URL {s : Str} {data : Bytes}
    (h : decodeBase64URL s = .ok data) : 0 ∉ s := by
  rw [decodeBase64URL] at h
  split at h
  · cases h
  · next hdecode => exact Base64.zero_notMem_of_decodeString hdecode

/-- A text is the thumbprint of a key. -/
def IsThumbprint (P : Primitives) (t : Str) : Prop :=
  ∃ keyType pub, t = thumbprint P keyType pub

theorem IsThumbprint.zero_notMem (h : IsThumbprint P t) : 0 ∉ t := by
  obtain ⟨keyType, pub, rfl⟩ := h
  exact zero_notMem_of_decodeBase64URL (decodeBase64URL_base64URL _)

/-- **Equal transcripts** have equal thumbprints, and equal ids up to where the domain ends. -/
theorem transcript_inj {t' : Str} (ht : 0 ∉ t) (ht' : 0 ∉ t') :
    transcript domainID deviceID t = transcript domainID' deviceID' t' ↔
      domainID ++ 0 :: deviceID = domainID' ++ 0 :: deviceID' ∧ t = t' := by
  rw [transcript, transcript, append_cons_inj_of_notMem ht ht', List.append_assoc,
    List.append_assoc, List.append_cancel_left_eq, List.cons_append, List.cons_append,
    List.cons.injEq, and_iff_right rfl]

/-- **The domains of two devices can be told apart** from their transcripts: they have as many NULs
in their domains, or the transcripts are different anyway. -/
def Distinguishable (domainID deviceID t domainID' deviceID' t' : Str) : Prop :=
  domainID.count 0 = domainID'.count 0 ∨
    domainID ++ 0 :: deviceID ≠ domainID' ++ 0 :: deviceID' ∨ t ≠ t'

theorem distinguishable_iff {t' : Str} (ht : 0 ∉ t) (ht' : 0 ∉ t') :
    Distinguishable domainID deviceID t domainID' deviceID' t' ↔
      (transcript domainID deviceID t = transcript domainID' deviceID' t' →
        domainID = domainID' ∧ deviceID = deviceID' ∧ t = t') := by
  rw [transcript_inj ht ht', Distinguishable]
  constructor
  · rintro (hcount | hne | hne) ⟨hids, rfl⟩
    · obtain ⟨hdomain, hdevice⟩ := append_cons_inj_of_count hcount hids
      exact ⟨hdomain, hdevice, rfl⟩
    · exact absurd hids hne
    · exact absurd rfl hne
  · intro h
    by_cases hids : domainID ++ 0 :: deviceID = domainID' ++ 0 :: deviceID'
    · by_cases htt : t = t'
      · exact .inl (congrArg _ (h ⟨hids, htt⟩).1)
      · exact .inr (.inr htt)
    · exact .inr (.inl hids)

/-- **What a block and a challenge are bound to.** A block that is sealed for one device is opened
for another one only if they are the same – exactly if their domains can be told apart from their
transcripts. And a challenge says which idempotency key and which wrap key it is for. -/
theorem recovery_binds_iff (P : Primitives) :
    (P.X25519Commutes → P.OpensSealed →
      ∀ {s : SealCall} {wrapped : WrappedCredentials} {priv : X25519PrivateKey}
        {pub : X25519PublicKey} {domainID deviceID t domainID' deviceID' t' : Str},
      sealWrapped P s = .ok wrapped → P.x25519 priv.key P.basepoint = some pub.key →
      decodeBase64URL s.wrapPublicKey = .ok pub.key →
      s.transcript = transcript domainID deviceID t → IsThumbprint P t → IsThumbprint P t' →
      (∀ priv' wrapPublicKey',
        Ideal P s ⟨wrapped, priv', wrapPublicKey', transcript domainID' deviceID' t'⟩) →
      ((∀ priv' wrapPublicKey' plaintext,
        openWrapped P ⟨wrapped, priv', wrapPublicKey', transcript domainID' deviceID' t'⟩ =
          .ok plaintext → domainID = domainID' ∧ deviceID = deviceID' ∧ t = t') ↔
        Distinguishable domainID deviceID t domainID' deviceID' t')) ∧
    ∀ {key key' wrap wrap' : Str} {data data' : Bytes}, decodeBase64URL wrap = .ok data →
      decodeBase64URL wrap' = .ok data' → challenge key wrap = challenge key' wrap' →
      key = key' ∧ wrap = wrap' := by
  refine ⟨fun hcommutes hopens s wrapped priv pub domainID deviceID t domainID' deviceID' t' hseal
    hpair hpub htranscript ht ht' hideal => ?_, fun hwrap hwrap' h => ?_⟩
  · rw [distinguishable_iff ht.zero_notMem ht'.zero_notMem]
    constructor
    · intro h hsame
      have hopen := open_of_seal hcommutes hopens hseal hpair hpub
      rw [htranscript, hsame] at hopen
      exact h _ _ _ hopen
    · intro h priv' wrapPublicKey' plaintext hopen
      obtain ⟨a, ha, -⟩ := seal_eq_ok_iff.mp hseal
      obtain ⟨a', nonce, ciphertext, ha', -, hopened⟩ := open_eq_ok_iff.mp hopen
      obtain ⟨-, -, -, hsame⟩ := hideal _ _ a a' nonce ciphertext ha ha' (by rw [hopened]; rfl)
      exact h (htranscript.symm.trans hsame.symm)
  · exact (append_cons_inj_of_notMem (zero_notMem_of_decodeBase64URL hwrap)
      (zero_notMem_of_decodeBase64URL hwrap')).mp h

theorem transparent_key
    (h : Primitives.transparent.hkdf a.secret [] (a.info (transcript domainID deviceID t)) 32 =
      some a.key) : a.key = transcriptLabel.take 32 := by
  rw [← Option.some.inj h]
  have hinfo : a.info (transcript domainID deviceID t) ++ a.secret = transcriptLabel ++
      (0 :: domainID ++ 0 :: deviceID ++ 0 :: t ++ a.clientPub ++ a.serverPub.key ++ a.secret) := by
    simp [Agreement.info, transcript]
  rw [hinfo, Primitives.fill, List.append_assoc, List.take_append_of_le_length (by decide)]

theorem transparent_aad {key aad aad' : Bytes}
    (h : (Primitives.transparent.aeadOpen key nonce
      (Primitives.transparent.aeadSeal key nonce plaintext aad) aad').isSome)
    (hlength : aad'.length = aad.length) : aad' = aad := by
  simp only [Primitives.transparent, Option.isSome_ite, List.isSuffixOf_iff_suffix] at h
  obtain ⟨front, hfront⟩ := h
  have hends : (front ++ (key ++ nonce)) ++ aad' = (plaintext ++ (key ++ nonce)) ++ aad := by
    rw [List.append_assoc front, List.append_assoc plaintext]
    exact hfront
  exact (List.append_inj' hends hlength).2

/-- A block for one device does not open for another one. -/
theorem recovery_binds_other : ∃ (s : SealCall) (wrapped : WrappedCredentials),
    sealWrapped .transparent s = .ok wrapped ∧
      ∃ t, s.transcript = transcript (lit "d") (lit "a") t ∧
      ∀ priv' wrapPublicKey' plaintext, openWrapped .transparent
        ⟨wrapped, priv', wrapPublicKey', transcript (lit "d") (lit "b") t⟩ = .ok plaintext →
        lit "d" = lit "d" ∧ lit "a" = lit "b" ∧ t = t := by
  obtain ⟨t, ht⟩ : ∃ t, IsThumbprint .transparent t := ⟨_, lit "Ed25519", [], rfl⟩
  obtain ⟨priv, pub, hpair, a, ha, hclient⟩ := exists_example (transcript (lit "d") (lit "a") t)
  have hseal := seal_eq_ok_iff.mpr ⟨a, ha, hclient ▸ pub.size, rfl⟩
  refine ⟨_, _, hseal, t, rfl, ((recovery_binds_iff .transparent).1
    Primitives.x25519Commutes_transparent Primitives.opensSealed_transparent hseal hpair
    (decodeBase64URL_base64URL _) rfl ht ht fun priv' wrapPublicKey' => ?_).mpr (.inl rfl)⟩
  rintro a₁ a' nonce ct h₁ h' hopened
  obtain rfl := ha.unique h₁
  have hkey : a'.key = a.key := (transparent_key h'.key).trans (transparent_key ha.key).symm
  obtain rfl := Except.ok.inj ((decodeBase64URL_base64URL _).symm.trans h'.nonce)
  obtain rfl := Except.ok.inj ((decodeBase64URL_base64URL _).symm.trans h'.ciphertext)
  refine ⟨hkey, rfl, rfl, ?_⟩
  rw [hkey] at hopened
  exact transparent_aad hopened (by simp [exampleSeal, transcript]; rfl)

/-- **A block opens for another device**: the NUL in the domain of one is the end of the domain of
the other. -/
theorem opens_for_another : ∃ (s : SealCall) (wrapped : WrappedCredentials)
    (priv : X25519PrivateKey) (t : Str), IsThumbprint .transparent t ∧
      s.transcript = transcript [1, 0, 2] [3] t ∧ sealWrapped .transparent s = .ok wrapped ∧
      openWrapped .transparent ⟨wrapped, priv, s.wrapPublicKey, transcript [1] [2, 0, 3] t⟩ =
        .ok s.plaintext := by
  obtain ⟨t, ht⟩ : ∃ t, IsThumbprint .transparent t := ⟨_, lit "Ed25519", [], rfl⟩
  obtain ⟨priv, pub, hpair, a, ha, hclient⟩ := exists_example (transcript [1, 0, 2] [3] t)
  have hseal := seal_eq_ok_iff.mpr ⟨a, ha, hclient ▸ pub.size, rfl⟩
  have hopen := open_of_seal Primitives.x25519Commutes_transparent
    Primitives.opensSealed_transparent hseal hpair (decodeBase64URL_base64URL _)
  have hsame : transcript [1, 0, 2] [3] t = transcript [1] [2, 0, 3] t := by simp [transcript]
  refine ⟨_, _, priv, t, ht, rfl, hseal, ?_⟩
  rw [← hsame]
  exact hopen

end Recovery

end Iscp
