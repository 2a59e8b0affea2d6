import Iscp.Handler.Basic
import Iscp.Identity
import Iscp.Replay

/-!
# What the two services share

The Trust Root and the Relay are servers of one kind: they have a configuration with a
profile, answer with JSON or with an error, ask an operator for a token, number their records
with UUIDs, and check device proofs with a memory for nonces. Their handlers are
`Iscp.Handler`s, with the environment `Iscp.Service.Env`: each reading of the clock and each
SQL statement is a section of its own, and so is each block under a mutex.

`Iscp.Service.verifyProof` is the check of a device proof. Its two ways of remembering a nonce
are told apart by whether there is a database; where the state keeps them is a
`Iscp.Service.NonceStore`.
-/

namespace Iscp

namespace Service

open Go Crypto Identity Replay

/-! ### Configuration -/

/-- The profiles a service may run in. -/
inductive Profile where
  | production
  | staging
  | localLab
  | other (name : Str)
  deriving DecidableEq

/-- What a profile allows. -/
structure Gate where
  profile : Profile
  allowUnsignedDescriptor : Bool
  allowBearerOnlyAccess : Bool
  allowPlaintextDebug : Bool
  allowDebugSecrets : Bool

/-- `DefaultGate`. -/
def defaultGate (profile : Profile) : Gate := ⟨profile, false, false, false, false⟩

/-- `ValidateGate`. -/
def validateGate (g : Gate) : Except Error Unit := do
  match g.profile with
  | .production | .staging =>
    failIf g.allowUnsignedDescriptor
      (.new .configInvalid (lit "profile forbids unsigned descriptors"))
    failIf g.allowBearerOnlyAccess
      (.new .configInvalid (lit "profile forbids bearer-only relay access"))
    failIf (g.allowPlaintextDebug ∨ g.allowDebugSecrets)
      (.new .configInvalid (lit "profile forbids plaintext debug secrets"))
  | .localLab =>
    failIf (g.allowPlaintextDebug ∧ ¬g.allowDebugSecrets)
      (.new .configInvalid (lit "plaintext debug requires allow_debug_secrets"))
  | .other _ => throw (.new .configInvalid (lit "unknown profile"))

/-! ### Requests and responses -/

/-- The headers a service looks at. -/
structure Headers where
  authorization : Str
  /-- `X-ISCP-Admin-Token`. -/
  adminToken : Str
  /-- `X-ISCP-Access-Proof`. -/
  accessProof : Str

/-- `bearerToken`. -/
def bearerToken (h : Headers) : Str :=
  let value := trimSpace h.authorization
  if value.length < 7 ∨ ¬equalFold (value.take 7) (lit "Bearer ") then []
  else trimSpace (value.drop 7)

/-- `adminAuthorized`: anybody is, if no token has been configured. -/
def adminAuthorized (adminToken : Str) (h : Headers) : Bool :=
  let expected := trimSpace adminToken
  if expected = [] then true
  else
    let token := if bearerToken h = [] then trimSpace h.adminToken else bearerToken h
    token ≠ [] ∧ token = expected

/-- The body of an error response. -/
structure ErrorResponse where
  code : Code
  message : Str
  retryable : Bool
  deriving DecidableEq

/-- What is told about an error: its code and message, or neither. -/
def errorResponse : Error → ErrorResponse
  | .new code message => ⟨code, message, false⟩
  | .wrap code message _ => ⟨code, message, false⟩
  | .retryable code message => ⟨code, message, true⟩
  | .plain _ => ⟨.accessInvalid, lit "request failed", false⟩

/-- **A response**: a status with a JSON body, or with an error. -/
inductive Response (β : Type) where
  | json (status : ℕ) (body : β)
  | error (status : ℕ) (err : ErrorResponse)

/-- `WriteError`. -/
def writeError {β : Type} (status : ℕ) (err : Error) : Response β :=
  .error status (errorResponse err)

/-! ### The environment -/

/-- **What a section is given**: the time, the random bytes it may draw, whether a statement
it makes fails, how the choices fall that are left open – the order of a map, of equal
elements, of rows –, and what becomes of what it sends to a client and the client to it. -/
structure Env where
  /-- `time.Now()`. -/
  now : Time
  /-- The bytes of a key, unless the source fails. -/
  seed : Option Seed
  /-- The bytes of a token; that the source fails is not noticed. -/
  token : Seed
  /-- The random part of a UUID, unless the source fails. -/
  uuid : Option {b : Bytes // b.length = 10}
  /-- Whether the database refuses the statement. -/
  sqlFails : Bool
  /-- The entry of a map that is met first. -/
  choice : ℕ
  /-- The order among elements that compare equal. -/
  ties : ℕ → ℕ
  /-- The order in which a statement returns its rows. -/
  order : ℕ → ℕ
  /-- The rows another statement has locked. -/
  locks : Str × Str → Bool
  /-- What the client sends, unless the connection is gone. -/
  message : Option DeviceProof
  /-- Whether the connection is gone when something is written to it. -/
  writeFails : Bool

variable {σ η : Type}

/-- `time.Now().UTC()`. -/
def clock {ω : Type} : Handler σ Env η ω Time := .ask fun e => e.now.utc

/-- The error of a statement that fails. -/
def sqlError : Error := .plain "SQL"

/-- **A statement**: it fails for a reason of the database, or for one of its own. -/
def sql {α : Type} (f : Env → σ → Except Error (σ × α × List η)) : Handler σ Env η Error α :=
  .attempt (fun _ => true) fun e s => if e.sqlFails then .error sqlError else f e s

/-! ### UUIDs -/

/-- The error of a random source that delivers nothing. -/
def randError : Error := .plain "crypto/rand"

/-- **`NewUUIDv7Like`**: 48 bits of time and 10 random bytes, six bits of which say what kind
of UUID it is. -/
def newUUIDv7Like (now : Time) (rand : Option {b : Bytes // b.length = 10}) :
    Except Error Bytes :=
  match rand with
  | none => .error randError
  | some r =>
    let ms := (now.unixNano / 1000000 % 2 ^ 64).toNat
    let time := (List.range 6).map fun i => UInt8.ofNat (ms / 256 ^ (5 - i))
    .ok (time ++ (r.1.modify 0 fun b => b &&& 0x0f ||| 0x70).modify 2 fun b => b &&& 0x3f ||| 0x80)

/-- `stringHex`. -/
def stringHex (b : Bytes) : Str :=
  b.flatMap fun v => [Json.hexDigit (v.toNat / 16), Json.hexDigit (v.toNat % 16)]

/-- `UUIDString`. -/
def uuidString (id : Bytes) : Str :=
  stringHex (id.take 4) ++ 0x2d :: stringHex ((id.drop 4).take 2) ++ 0x2d ::
    stringHex ((id.drop 6).take 2) ++ 0x2d :: stringHex ((id.drop 8).take 2) ++ 0x2d ::
    stringHex ((id.drop 10).take 6)

/-- A section draws an identifier for a row. -/
def newUUID (now : Time) : Handler σ Env η Error Str := do
  let rand ← .ask Env.uuid
  let id ← .ofExcept (newUUIDv7Like now rand)
  return uuidString id

/-! ### Device proofs -/

/-- Where a state keeps the nonces that have been used. -/
structure NonceStore (σ : Type) where
  /-- The cache in memory. -/
  cache : σ → Cache
  setCache : σ → Cache → σ
  /-- The table in the database. -/
  table : σ → Table
  setTable : σ → Table → σ

/-- `RequireDomain`. -/
def requireDomain (domainID : Str) : Handler σ Env η Error Unit :=
  .stopIf (domainID = []) (.new .storageInvalid (lit "domain_id is required"))

/-- `useProofNonce`: two statements. -/
def useProofNonce (P : Primitives) (N : NonceStore σ)
    (events : Bool → List η) (domainID deviceID audience nonce : Str) (expiresAt now : Time) :
    Handler σ Env η Error Bool := do
  requireDomain domainID
  .stopIf (trimSpace deviceID = [] ∨ trimSpace audience = [] ∨ trimSpace nonce = [])
    (.new .storageInvalid (lit "proof nonce scope is required"))
  sql fun _ s => .ok (N.setTable s ((N.table s).delete domainID now), (), [])
  sql fun _ s => match (N.table s).insert domainID deviceID
      (proofNonceStorageKey P audience nonce) expiresAt with
    | some t => .ok (N.setTable s t, true, events true)
    | none => .ok (s, false, events false)

/-- The key of a nonce in the cache. -/
def nonceKey (proof : DeviceProof) : Str :=
  proof.domainID ++ 0 :: (proof.deviceID ++ 0 :: (proof.audience ++ 0 :: proof.nonce))

/-- **The servers' `verifyProof`.** On record is each use of a nonce, with the proof, the time
it is good for, the reading of the clock, and whether the nonce was new. -/
def verifyProof (P : Primitives) (N : NonceStore σ) (repo : Bool)
    (used : DeviceProof → Duration → Time → Bool → η) (id : DeviceIdentity) (proof : DeviceProof)
    (audience challenge : Str) (ttl : Duration) : Handler σ Env η Error Unit := do
  .stopIf (trimSpace proof.nonce = []) (.new .replayDetected (lit "proof nonce is required"))
  let now ← clock
  .ofExcept (Identity.verifyProof P id proof audience challenge now ttl)
  let expiresAt := proof.issuedAt.add ttl
  let isNew ← if repo then
      useProofNonce P N (fun b => [used proof ttl now b]) proof.domainID proof.deviceID
        proof.audience proof.nonce expiresAt now
    else
      .attempt (fun _ => true) fun _ s =>
        let r := (N.cache s).use (nonceKey proof) expiresAt now
        .ok (N.setCache s r.1, r.2, [used proof ttl now r.2])
  .stopIf (isNew = false) (.new .replayDetected (lit "proof nonce replay detected"))

/-! ### What the check of a proof does -/

/-- **The effects of `Iscp.Service.verifyProof`**: a nonce is used in the cache, or in the table
of the database. -/
inductive NonceEffect (P : Primitives) (N : NonceStore σ) (repo : Bool)
    (used : DeviceProof → Duration → Time → Bool → η) (ttl : Duration) :
    σ → List η → σ → Prop where
  | use {s : σ} {id : DeviceIdentity} {proof : DeviceProof} {audience challenge : Str} {now : Time}
      {c : Cache} {isNew : Bool} (hrepo : repo = false)
      (hproof : ProofVerified P id proof audience challenge now ttl)
      (huse : (N.cache s).use (nonceKey proof) (proof.issuedAt.add ttl) now = (c, isNew)) :
      NonceEffect P N repo used ttl s [used proof ttl now isNew] (N.setCache s c)
  | delete {s : σ} {domainID : Str} {now : Time} (hrepo : repo = true) :
      NonceEffect P N repo used ttl s [] (N.setTable s ((N.table s).delete domainID now))
  | insert {s : σ} {id : DeviceIdentity} {proof : DeviceProof} {audience challenge : Str}
      {now : Time} {t : Table} (hrepo : repo = true)
      (hproof : ProofVerified P id proof audience challenge now ttl)
      (hinsert : (N.table s).insert proof.domainID proof.deviceID
        (proofNonceStorageKey P proof.audience proof.nonce) (proof.issuedAt.add ttl) = some t) :
      NonceEffect P N repo used ttl s [used proof ttl now true] (N.setTable s t)
  | refuse {s : σ} {id : DeviceIdentity} {proof : DeviceProof} {audience challenge : Str}
      {now : Time} (hrepo : repo = true)
      (hproof : ProofVerified P id proof audience challenge now ttl)
      (hinsert : (N.table s).insert proof.domainID proof.deviceID
        (proofNonceStorageKey P proof.audience proof.nonce) (proof.issuedAt.add ttl) = none) :
      NonceEffect P N repo used ttl s [used proof ttl now false] s

section Safe

variable {P : Primitives} {N : NonceStore σ} {repo : Bool}
  {used : DeviceProof → Duration → Time → Bool → η}
  {E : Config σ Env η → Entry Env η → σ → Prop} {i : ℕ} {t : List (Entry Env η)} {ω : Type}

/-- **The rule for the clock**: what it shows is on record. -/
theorem safe_reading {Q : Time → List (Entry Env η) → Prop} {X : ω → List (Entry Env η) → Prop}
    (hidle : ∀ s t' e, E ⟨s, t'⟩ ⟨i, e, []⟩ s)
    (hQ : ∀ now t', t <+: t' → (∃ y ∈ t', y.env.now.utc = now) → Q now t') :
    (clock : Handler σ Env η ω Time).Safe E i Q X t :=
  Handler.safe_look fun s t' e ht _ =>
    ⟨hidle s t' e, fun t'' ht' => hQ _ t'' (ht.trans ((List.prefix_append _ _).trans ht'))
      ⟨⟨i, e, []⟩, ht'.subset (List.mem_append_right t' (List.mem_singleton_self _)), rfl⟩⟩

theorem safe_clock {Q : Time → List (Entry Env η) → Prop} {X : ω → List (Entry Env η) → Prop}
    (hidle : ∀ s t' e, E ⟨s, t'⟩ ⟨i, e, []⟩ s) (hQ : ∀ now t', t <+: t' → Q now t') :
    (clock : Handler σ Env η ω Time).Safe E i Q X t :=
  safe_reading hidle fun now t' ht _ => hQ now t' ht

variable {X : Error → List (Entry Env η) → Prop}

/-- **The rule for a statement.** -/
theorem safe_sql {α : Type} {f : Env → σ → Except Error (σ × α × List η)}
    {Q : α → List (Entry Env η) → Prop} (hidle : ∀ s t' e, E ⟨s, t'⟩ ⟨i, e, []⟩ s)
    (hok : ∀ s t' e s' a events, t <+: t' → f e s = .ok (s', a, events) →
      E ⟨s, t'⟩ ⟨i, e, events⟩ s' ∧ ∀ t'', t' ++ [⟨i, e, events⟩] <+: t'' → Q a t'')
    (hX : ∀ r t', t <+: t' → X r t') : (sql f).Safe E i Q X t := by
  refine Handler.safe_attempt (fun s t' e s' a events ht _ h => ?_) fun s t' e r ht _ _ =>
    ⟨hidle s t' e, fun t'' ht' => hX r t'' (ht.trans ((List.prefix_append _ _).trans ht'))⟩
  split_ifs at h
  exact hok s t' e s' a events ht h

/-- **The rule for `Iscp.Service.verifyProof`**: what it has checked when it goes on. -/
theorem verifyProof_safe {id : DeviceIdentity} {proof : DeviceProof} {audience challenge : Str}
    {ttl : Duration} {Q : Unit → List (Entry Env η) → Prop}
    (hidle : ∀ s t' e, E ⟨s, t'⟩ ⟨i, e, []⟩ s)
    (hnonce : ∀ s t' e events s', NonceEffect P N repo used ttl s events s' →
      E ⟨s, t'⟩ ⟨i, e, events⟩ s')
    (hQ : ∀ now t', t <+: t' → ProofVerified P id proof audience challenge now ttl →
      Did t' i (used proof ttl now true) → Q () t') (hX : ∀ r t', t <+: t' → X r t') :
    (verifyProof P N repo used id proof audience challenge ttl).Safe E i Q X t := by
  refine .bind (Handler.safe_stopIf (fun _ => hX _) fun _ t₁ ht₁ => ?_)
  refine .bind (safe_clock hidle fun now t₂ ht₂ => ?_)
  have hX₂ : ∀ r t', t₂ <+: t' → X r t' := fun r t' ht => hX r t' (ht₁.trans (ht₂.trans ht))
  refine .bind (Handler.safe_ofExcept (fun _ hok t₃ ht₃ => ?_) fun r _ => hX₂ r)
  have hproof := verifyProof_eq_ok.mp hok
  have hX₃ : ∀ r t', t₃ <+: t' → X r t' := fun r t' ht => hX₂ r t' (ht₃.trans ht)
  -- whatever the store, it goes on record whether the nonce was new
  have hlast : ∀ isNew t', t₃ <+: t' → Did t' i (used proof ttl now isNew) →
      (Handler.stopIf (isNew = false) (.new .replayDetected (lit "proof nonce replay detected")) :
        Handler σ Env η Error Unit).Safe E i Q X t' := by
    intro isNew t' ht hdid
    refine Handler.safe_stopIf (fun _ t'' ht'' => hX₃ _ t'' (ht.trans ht'')) fun hnew t'' ht'' => ?_
    rw [Bool.not_eq_false] at hnew
    subst hnew
    exact hQ now t'' (ht₁.trans (ht₂.trans (ht₃.trans (ht.trans ht'')))) hproof (hdid.extend ht'')
  cases repo with
  | false =>
    refine .bind (Handler.safe_attempt (fun s t₄ e s' isNew events ht₄ _ h => ?_) nofun)
    cases h
    exact ⟨hnonce _ _ _ _ _ (.use rfl hproof rfl), fun t₅ ht₅ =>
      hlast _ t₅ (ht₄.trans ((List.prefix_append _ _).trans ht₅)) (did_of_snoc ht₅ (by simp))⟩
  | true =>
    refine .bind (.bind (Handler.safe_stopIf (fun _ => hX₃ _) fun _ t₄ ht₄ => ?_))
    have hX₄ : ∀ r t', t₄ <+: t' → X r t' := fun r t' ht => hX₃ r t' (ht₄.trans ht)
    refine .bind (Handler.safe_stopIf (fun _ => hX₄ _) fun _ t₅ ht₅ => ?_)
    have hX₅ : ∀ r t', t₅ <+: t' → X r t' := fun r t' ht => hX₄ r t' (ht₅.trans ht)
    refine .bind (safe_sql hidle (fun s t₆ e s' u events ht₆ h => ?_) hX₅)
    cases h
    refine ⟨hnonce _ _ _ _ _ (.delete rfl), fun t₇ ht₇ => ?_⟩
    have ht₅₇ := ht₆.trans ((List.prefix_append _ _).trans ht₇)
    refine safe_sql hidle (fun s t₈ e s' isNew events ht₈ h => ?_) fun r t' ht =>
      hX₅ r t' (ht₅₇.trans ht)
    have hdid : ∀ t₉, t₈ ++ [⟨i, e, [used proof ttl now isNew]⟩] <+: t₉ → _ := fun t₉ ht₉ =>
      hlast isNew t₉ (ht₄.trans (ht₅.trans (ht₅₇.trans (ht₈.trans
        ((List.prefix_append _ _).trans ht₉))))) (did_of_snoc ht₉ (by simp))
    split at h
    · next T hT =>
      cases h
      exact ⟨hnonce _ _ _ _ _ (.insert rfl hproof hT), hdid⟩
    · next hT =>
      cases h
      exact ⟨hnonce _ _ _ _ _ (.refuse rfl hproof hT), hdid⟩

theorem newUUID_safe {now : Time} {Q : Str → List (Entry Env η) → Prop}
    (hidle : ∀ s t' e, E ⟨s, t'⟩ ⟨i, e, []⟩ s) (hQ : ∀ id t', t <+: t' → Q (uuidString id) t')
    (hX : ∀ r t', t <+: t' → X r t') :
    (newUUID now : Handler σ Env η Error Str).Safe E i Q X t := by
  refine .bind (Handler.safe_look fun s t₁ e ht₁ _ => ⟨hidle s t₁ e, fun t₂ ht₂ => ?_⟩)
  have ht := ht₁.trans ((List.prefix_append _ _).trans ht₂)
  refine .bind (Handler.safe_ofExcept (fun id _ t₃ ht₃ => ?_)
    fun r _ t₃ ht₃ => hX r t₃ (ht.trans ht₃))
  exact Handler.safe_done fun t₄ ht₄ => hQ _ t₄ (ht.trans (ht₃.trans ht₄))

end Safe

/-- `randomToken`. -/
def randomToken {ω : Type} : Handler σ Env η ω Str := .ask fun e => base64URL e.token.1

end Service

end Iscp
