import Iscp.Errors
import Iscp.Go.Base64

/-!
# Cryptography

The functions of the crypto package, over the primitives it takes from libraries. The
primitives are a parameter of the whole development, `Iscp.Primitives`: of a primitive the
model knows the sizes its documentation promises and nothing else. What a result assumes
beyond that – that SHA-256 does not collide, that the two sides of an X25519 agreement
agree – is one of the predicates of the last section, and a hypothesis of the result.

Keys are byte strings of a fixed size, and carry their size.
-/

namespace Iscp

open Go

/-- **The primitives** the program takes from libraries. -/
structure Primitives where
  /-- SHA-256. -/
  sha256 : Bytes → Bytes
  /-- HMAC with SHA-256: key, data. -/
  hmacSha256 : Bytes → Bytes → Bytes
  /-- HKDF with SHA-256: secret, salt, info, length. -/
  hkdf : Bytes → Bytes → Bytes → ℕ → Option Bytes
  hkdf_size : ∀ {secret salt info n out}, hkdf secret salt info n = some out → out.length = n
  /-- X25519: scalar, point; there is no result at points of low order. -/
  x25519 : Bytes → Bytes → Option Bytes
  x25519_size : ∀ {k u s}, x25519 k u = some s → s.length = 32
  /-- The base point of X25519. -/
  basepoint : Bytes
  /-- The public key of an Ed25519 seed. -/
  ed25519Public : Bytes → Bytes
  ed25519Public_size : ∀ seed, (ed25519Public seed).length = 32
  /-- Ed25519 signing: private key, message. -/
  ed25519Sign : Bytes → Bytes → Bytes
  /-- Ed25519 verification: public key, message, signature. -/
  ed25519Verify : Bytes → Bytes → Bytes → Bool
  /-- ChaCha20-Poly1305: key, nonce, plaintext, additional data. -/
  aeadSeal : Bytes → Bytes → Bytes → Bytes → Bytes
  /-- Its inverse: key, nonce, ciphertext, additional data. -/
  aeadOpen : Bytes → Bytes → Bytes → Bytes → Option Bytes

/-- What a random source delivers for a key: 32 bytes. -/
abbrev Seed := {b : Bytes // b.length = 32}

/-- An Ed25519 private key: the seed, and the public key after it. -/
structure Ed25519PrivateKey where
  /-- The bytes of the key. -/
  key : Bytes
  size : key.length = 64

/-- An Ed25519 public key. -/
@[ext] structure Ed25519PublicKey where
  /-- The bytes of the key. -/
  key : Bytes
  size : key.length = 32
  deriving DecidableEq

/-- An X25519 private key. -/
structure X25519PrivateKey where
  /-- The bytes of the key. -/
  key : Bytes
  size : key.length = 32

variable {priv : Ed25519PrivateKey} {pub : Ed25519PublicKey} {b : Bytes}

/-- An X25519 public key. -/
@[ext] structure X25519PublicKey where
  /-- The bytes of the key. -/
  key : Bytes
  size : key.length = 32

namespace Crypto

/-- `CiphersuiteV2`. -/
def ciphersuiteV2 : Str := lit "ISCP_V2_X25519_HKDF_SHA256_CHACHA20POLY1305"

/-- `Base64URL`. -/
def base64URL (data : Bytes) : Str := Base64.encodeToString data

/-- `DecodeBase64URL`. -/
def decodeBase64URL (s : Str) : Except Error Bytes :=
  match Base64.decodeString s with
  | none => .error (.wrap .canonicalInvalid (lit "invalid base64url")
      (.plain "illegal base64 data at input byte %d"))
  | some b => .ok b

/-- `Ed25519PublicKeyFromBytes`. -/
def ed25519PublicKeyFromBytes (b : Bytes) : Except Error Ed25519PublicKey :=
  if h : b.length = 32 then .ok ⟨b, h⟩
  else .error (.new .keyInvalid (lit "invalid ed25519 public key size"))

/-- `X25519PublicKeyFromBytes`. -/
def x25519PublicKeyFromBytes (b : Bytes) : Except Error X25519PublicKey :=
  if h : b.length = 32 then .ok ⟨b, h⟩
  else .error (.new .keyInvalid (lit "invalid x25519 public key size"))

/-- `EqualMAC`. -/
def equalMAC (a b : Bytes) : Bool := a = b

variable (P : Primitives)

/-- `Ed25519PrivateKey.Public`: the second half of the private key. -/
def publicKey (k : Ed25519PrivateKey) : Ed25519PublicKey :=
  ⟨k.key.drop 32, by rw [List.length_drop, k.size]⟩

/-- `GenerateIdentityKey`, from what the random source delivers. -/
def generateIdentityKey : Option Seed → Except Error (Ed25519PrivateKey × Ed25519PublicKey)
  | none => .error (.wrap .keyInvalid (lit "generate ed25519 key") (.plain "EOF"))
  | some seed => .ok (⟨seed.1 ++ P.ed25519Public seed.1, by
        rw [List.length_append, seed.2, P.ed25519Public_size]⟩,
      ⟨P.ed25519Public seed.1, P.ed25519Public_size _⟩)

/-- The bits of a scalar that X25519 fixes. -/
def clamp (seed : Seed) : X25519PrivateKey :=
  ⟨(seed.1.modify 0 (· &&& 248)).modify 31 fun b => b &&& 127 ||| 64, by simp [seed.2]⟩

/-- `GenerateSessionKey`, from what the random source delivers. -/
def generateSessionKey : Option Seed → Except Error (X25519PrivateKey × X25519PublicKey)
  | none => .error (.wrap .keyInvalid (lit "generate x25519 private key") (.plain "EOF"))
  | some seed => match h : P.x25519 (clamp seed).key P.basepoint with
      | none => .error (.wrap .keyInvalid (lit "derive x25519 public key")
          (.plain "bad input point: low order point"))
      | some pub => .ok (clamp seed, ⟨pub, P.x25519_size h⟩)

/-- `Provider.Sign`. -/
def sign (priv : Ed25519PrivateKey) (message : Bytes) : Bytes := P.ed25519Sign priv.key message

/-- `Provider.Verify`. -/
def verify (pub : Ed25519PublicKey) (message signature : Bytes) : Bool :=
  P.ed25519Verify pub.key message signature

/-- `Provider.SharedSecret`. -/
def sharedSecret (priv : X25519PrivateKey) (pub : X25519PublicKey) : Except Error Bytes :=
  match P.x25519 priv.key pub.key with
  | none => .error (.wrap .keyInvalid (lit "x25519 agreement failed")
      (.plain "bad input point: low order point"))
  | some secret => .ok secret

/-- `Provider.HKDF`. -/
def hkdf (secret salt info : Bytes) (length : ℕ) : Except Error Bytes :=
  match P.hkdf secret salt info length with
  | none => .error (.wrap .keyInvalid (lit "hkdf derive failed") (.plain "EOF"))
  | some out => .ok out

/-- `Provider.Seal`: keys have 32 bytes, nonces 12. -/
def providerSeal (key nonce plaintext aad : Bytes) : Except Error Bytes :=
  if key.length ≠ 32 then
    .error (.wrap .envelopeInvalid (lit "create aead") (.plain "chacha20poly1305: bad key length"))
  else if nonce.length ≠ 12 then .error (.new .envelopeInvalid (lit "invalid nonce size"))
  else .ok (P.aeadSeal key nonce plaintext aad)

/-- `Provider.Open`. -/
def providerOpen (key nonce ciphertext aad : Bytes) : Except Error Bytes :=
  if key.length ≠ 32 then
    .error (.wrap .envelopeInvalid (lit "create aead") (.plain "chacha20poly1305: bad key length"))
  else if nonce.length ≠ 12 then .error (.new .envelopeInvalid (lit "invalid nonce size"))
  else match P.aeadOpen key nonce ciphertext aad with
    | none => .error (.wrap .envelopeInvalid (lit "aead authentication failed")
        (.plain "chacha20poly1305: message authentication failed"))
    | some plaintext => .ok plaintext

/-- `Thumbprint`. -/
def thumbprint (keyType : Str) (pub : Bytes) : Str :=
  base64URL (P.sha256 (lit "iscp/v2/thumbprint/" ++ keyType ++ 0 :: pub))

/-! ### Encoded bytes -/

@[simp] theorem decodeBase64URL_base64URL (data : Bytes) :
    decodeBase64URL (base64URL data) = .ok data := by
  rw [decodeBase64URL, base64URL, Base64.decodeString_encodeToString]

theorem base64URL_injective : Function.Injective base64URL := by
  intro a b h
  have := congrArg decodeBase64URL h
  rwa [decodeBase64URL_base64URL, decodeBase64URL_base64URL, Except.ok.injEq] at this

theorem utf8_base64URL (data : Bytes) : Utf8 (base64URL data) := Base64.utf8_encodeToString data

theorem ed25519PublicKeyFromBytes_eq_ok {k : Ed25519PublicKey} :
    ed25519PublicKeyFromBytes b = .ok k ↔ b = k.key := by
  rw [ed25519PublicKeyFromBytes]
  split_ifs with h
  · rw [Except.ok.injEq]
    exact ⟨fun h => h ▸ rfl, fun h => by cases k; subst h; rfl⟩
  · exact ⟨nofun, fun hb => absurd (hb ▸ k.size) h⟩

theorem x25519PublicKeyFromBytes_eq_ok {k : X25519PublicKey} :
    x25519PublicKeyFromBytes b = .ok k ↔ b = k.key := by
  rw [x25519PublicKeyFromBytes]
  split_ifs with h
  · rw [Except.ok.injEq]
    exact ⟨fun h => h ▸ rfl, fun h => by cases k; subst h; rfl⟩
  · exact ⟨nofun, fun hb => absurd (hb ▸ k.size) h⟩

/-- A key pair is made from a seed. -/
def KeyPair (P : Primitives) (priv : Ed25519PrivateKey) (pub : Ed25519PublicKey) : Prop :=
  ∃ seed, generateIdentityKey P (some seed) = .ok (priv, pub)

variable {r : Option Seed} {plaintext nonce key aad : Bytes}

theorem keyPair_of_generate (h : generateIdentityKey P r = .ok (priv, pub)) :
    KeyPair P priv pub := by
  cases r with
  | none => cases h
  | some seed => exact ⟨seed, h⟩

theorem KeyPair.publicKey_eq {P : Primitives} (h : KeyPair P priv pub) : publicKey priv = pub := by
  obtain ⟨seed, h⟩ := h
  cases h
  ext1
  simp [publicKey, seed.2]

theorem generateSessionKey_eq_ok {priv : X25519PrivateKey} {pub : X25519PublicKey}
    (h : generateSessionKey P r = .ok (priv, pub)) :
    P.x25519 priv.key P.basepoint = some pub.key := by
  cases r with
  | none => cases h
  | some seed =>
    rw [generateSessionKey] at h
    split at h
    · cases h
    · next hx =>
      cases h
      exact hx

theorem sharedSecret_eq_ok {priv : X25519PrivateKey} {pub : X25519PublicKey} {s : Bytes} :
    sharedSecret P priv pub = .ok s ↔ P.x25519 priv.key pub.key = some s := by
  rw [sharedSecret]
  split <;> simp [*]

theorem hkdf_eq_ok {secret salt info out : Bytes} {length : ℕ} :
    hkdf P secret salt info length = .ok out ↔ P.hkdf secret salt info length = some out := by
  rw [hkdf]
  split <;> simp [*]

theorem providerSeal_eq_ok {ct : Bytes} :
    providerSeal P key nonce plaintext aad = .ok ct ↔
      key.length = 32 ∧ nonce.length = 12 ∧ P.aeadSeal key nonce plaintext aad = ct := by
  rw [providerSeal]
  split_ifs with hkey hnonce <;> simp_all

theorem providerOpen_eq_ok {ct : Bytes} :
    providerOpen P key nonce ct aad = .ok plaintext ↔
      key.length = 32 ∧ nonce.length = 12 ∧ P.aeadOpen key nonce ct aad = some plaintext := by
  rw [providerOpen]
  split_ifs with hkey hnonce
  · simp [hkey]
  · simp [hnonce]
  · split <;> simp_all

theorem thumbprint_injective {P : Primitives} (h : Function.Injective P.sha256) (keyType : Str) :
    Function.Injective (thumbprint P keyType) := by
  intro a b hab
  exact (List.cons.inj (List.append_cancel_left (h (base64URL_injective hab)))).2

end Crypto

/-! ### Assumptions on the primitives -/

namespace Primitives

/-- The two sides of an agreement compute one secret. -/
def X25519Commutes (P : Primitives) : Prop :=
  ∀ a b A B, P.x25519 a P.basepoint = some A → P.x25519 b P.basepoint = some B →
    P.x25519 a B = P.x25519 b A

/-- What is signed with a private key is verified with its public key. -/
def SignsVerifiably (P : Primitives) : Prop :=
  ∀ (seed : Seed) (m : Bytes), P.ed25519Verify (P.ed25519Public seed.1) m
    (P.ed25519Sign (seed.1 ++ P.ed25519Public seed.1) m) = true

theorem SignsVerifiably.verify_sign {P : Primitives} (hs : P.SignsVerifiably)
    (h : Crypto.KeyPair P priv pub) (m : Bytes) :
    Crypto.verify P pub m (Crypto.sign P priv m) = true := by
  obtain ⟨seed, h⟩ := h
  cases h
  exact hs seed m

/-- What is sealed is opened with the same key, nonce and additional data. -/
def OpensSealed (P : Primitives) : Prop :=
  ∀ key nonce plaintext aad : Bytes, key.length = 32 → nonce.length = 12 →
    P.aeadOpen key nonce (P.aeadSeal key nonce plaintext aad) aad = some plaintext

/-! ### A model of the assumptions

Primitives that are easy to compute with and meet all assumptions at once, so that the
assumptions do not contradict each other. -/

/-- The first bytes, filled up with zeros. -/
def fill (n : ℕ) (b : Bytes) : Bytes := (b ++ List.replicate n 0).take n

theorem length_fill (n : ℕ) (b : Bytes) : (fill n b).length = n := by
  simp [fill]

theorem fill_of_length {n : ℕ} (h : b.length = n) : fill n b = b := by
  rw [fill, List.take_append_of_le_length (Nat.le_of_eq h.symm), ← h, List.take_length]

/-- The bytes of two keys, combined one by one. -/
def mix (a b : Bytes) : Bytes := List.zipWith (· ^^^ ·) (fill 32 a) (fill 32 b)

theorem length_mix (a b : Bytes) : (mix a b).length = 32 := by
  simp [mix, length_fill]

/-- **Transparent primitives**: a hash is the data with a zero in front, a signature is the message
with the public key in front, a ciphertext is the plaintext with everything it depends on behind. -/
def transparent : Primitives where
  sha256 := fun data => 0 :: data
  hmacSha256 := fun key data => key ++ data
  hkdf := fun secret _ info n => some (fill n (info ++ secret))
  hkdf_size := fun h => Option.some.inj h ▸ length_fill _ _
  x25519 := fun k u => some (mix k u)
  x25519_size := fun h => Option.some.inj h ▸ length_mix _ _
  basepoint := [9]
  ed25519Public := fill 32
  ed25519Public_size := length_fill 32
  ed25519Sign := fun priv m => priv.drop 32 ++ m
  ed25519Verify := fun pub m sig => sig = pub ++ m
  aeadSeal := fun key nonce plaintext aad => plaintext ++ (key ++ nonce ++ aad)
  aeadOpen := fun key nonce ciphertext aad =>
    if (key ++ nonce ++ aad).isSuffixOf ciphertext then
      some (ciphertext.take (ciphertext.length - (key ++ nonce ++ aad).length))
    else none

theorem zipWith_xor_left_comm (x y z : Bytes) :
    List.zipWith (· ^^^ ·) x (List.zipWith (· ^^^ ·) y z) =
      List.zipWith (· ^^^ ·) y (List.zipWith (· ^^^ ·) x z) := by
  induction x generalizing y z with
  | nil => cases y <;> simp
  | cons a x ih =>
    cases y with
    | nil => simp
    | cons b y =>
      cases z with
      | nil => simp
      | cons c z =>
        have hxor : a ^^^ (b ^^^ c) = b ^^^ (a ^^^ c) := by
          rw [← UInt8.xor_assoc, UInt8.xor_comm a b, UInt8.xor_assoc]
        simp [ih, hxor]

theorem mix_left_comm (a b c : Bytes) : mix a (mix b c) = mix b (mix a c) := by
  rw [mix, fill_of_length (length_mix b c), mix, zipWith_xor_left_comm, mix,
    fill_of_length (length_mix a c), mix]

theorem x25519Commutes_transparent : transparent.X25519Commutes := by
  rintro a b _ _ ⟨⟩ ⟨⟩
  exact congrArg some (mix_left_comm a b _)

theorem sha256_injective_transparent : Function.Injective transparent.sha256 :=
  fun _ _ h => (List.cons.inj h).2

theorem signsVerifiably_transparent : transparent.SignsVerifiably := by
  intro seed m
  simp [transparent, seed.2]

theorem opensSealed_transparent : transparent.OpensSealed := by
  intro key nonce plaintext aad _ _
  simp [transparent]

end Primitives

end Iscp
