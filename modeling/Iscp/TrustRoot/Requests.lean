import Iscp.TrustRoot.Effects

/-!
# Runs of the Trust Root

Runs that can be evaluated: a Trust Root of the lab is started without a database, and actions are
taken one after the other (`Iscp.TrustRoot.running`). What such a run leads to is computed, and that
it is a run of the server follows from that (`Iscp.TrustRoot.reachable_of_running`).
-/

namespace Iscp

namespace TrustRoot

open Go Crypto Identity Keyring Service Trust

deriving instance DecidableEq for Ed25519PrivateKey, Key, Event, AuthorizeRequest,
  RevocationItem, AuditEvent, AuditEntry, DeviceStatusResponse, Body, Response

/-- A request without headers. -/
def noHeaders : Headers := ⟨[], [], []⟩

/-- A server of the lab that asks nobody for a token. -/
def exampleConfig : Config := ⟨lit "lab", lit "root", defaultGate .localLab, [], false⟩

/-- A server of the lab with a database. -/
def databaseConfig : Config := ⟨lit "lab", lit "root", defaultGate .localLab, [], true⟩

theorem length_exampleSeed (b : UInt8) : (List.replicate 32 b).length = 32 := List.length_replicate

theorem length_zeros : (List.replicate 10 (0 : UInt8)).length = 10 := List.length_replicate

/-- One byte, 32 times. -/
def exampleSeed (b : UInt8) : Seed := ⟨List.replicate 32 b, length_exampleSeed b⟩

/-- The first moment of 1970, and nothing fails. -/
def exampleEnv : Env where
  now := ⟨0, 0⟩
  seed := some (exampleSeed 0)
  token := exampleSeed 0
  uuid := some ⟨List.replicate 10 0, length_zeros⟩
  sqlFails := false
  choice := 0
  ties := fun _ => 0
  order := fun _ => 0
  locks := fun _ => false
  message := none
  writeFails := false

/-- The clock shows this many milliseconds, and nothing fails. -/
def envAt (ms : ℤ) : Env := { exampleEnv with now := ⟨ms * 1000000, 0⟩ }

/-- The row of a device, in an epoch. -/
def rowAt (status : Status) (epoch : ℤ) : TrustDevice := ⟨zeroIdentity, status, epoch + 1, epoch⟩

/-- A database with one device. -/
def oneDevice (row : TrustDevice) (revocations : List TrustRevocation) : Database where
  devices := Function.update (fun _ => none) (lit "lab", lit "a") (some row)
  grants := fun _ => none
  revocations := revocations
  popReplayCache := fun _ => none

/-- A database with no rows. -/
def emptyDatabase : Database := ⟨fun _ => none, fun _ => none, [], fun _ => none⟩

variable {C : Snapshot → Entry Env Event → Prop} [∀ c x, Decidable (C c x)]

variable (C) in
/-- What actions make of a Trust Root that has just been started, if they are possible. -/
def running (as : List (Server.Action Env Request)) : Option World :=
  (new .transparent exampleConfig emptyDatabase exampleEnv).toOption.bind fun s =>
    as.foldlM (Server.World.nextIf (handle .transparent exampleConfig) C) ⟨s, [], fun _ => none⟩

variable {as : List (Server.Action Env Request)}

theorem reachable_of_running {w : World} (h : running C as = some w) :
    (server .transparent exampleConfig C).Reachable w := by
  obtain ⟨s, hs, hw⟩ := Option.bind_eq_some_iff.mp h
  have hinit : Initial .transparent exampleConfig s := ⟨_, exampleEnv, toOption_eq_some_iff.mp hs⟩
  exact (Server.leads_of_foldlM hw).reachable (.init ⟨hinit, rfl, rfl⟩)

/-- A request comes in, and `n` sections of it are run. -/
def serves (i : ℕ) (req : Request) (n : ℕ) : List (Server.Action Env Request) :=
  .start i req :: List.replicate n (.run i exampleEnv)

/-- A request comes in at this time, and `n` sections of it are run. -/
def servesAt (ms : ℤ) (i : ℕ) (req : Request) (n : ℕ) : List (Server.Action Env Request) :=
  .start i req :: List.replicate n (.run i (envAt ms))

/-- A device of the lab proves itself, to be entered. -/
def submission (deviceID : Str) (nonce : String) (b : UInt8) : Option SubmitRequest := do
  let dev ← (newDevice .transparent (some (exampleSeed b)) (lit "lab") deviceID ⟨0, 0⟩).toOption
  let proof ← (dev.createProof .transparent (lit "root") (lit "0") (lit nonce) ⟨0, 0⟩).toOption
  return ⟨dev.identity, proof⟩

/-- The request of the example, for the permissions given. -/
def exampleRequest (deviceID : Str) (permissions : List Str) : AuthorizeRequest :=
  ⟨deviceID, lit "relay", permissions, lit "relay", 0⟩

variable (C) in
/-- A device is entered and authorized, and then these actions are taken. -/
def authorizing (permissions : List Str) (as : List (Server.Action Env Request)) : Option World :=
  (submission (lit "a") "1" 1).bind fun req => running C (serves 0 (.submitDevice req) 3 ++
    serves 1 (.authorizeDevice noHeaders (exampleRequest (lit "a") permissions)) 6 ++ as)

theorem reachable_of_authorizing {permissions : List Str} {w : World}
    (h : authorizing C permissions as = some w) :
    (server .transparent exampleConfig C).Reachable w := by
  obtain ⟨req, -, hw⟩ := Option.bind_eq_some_iff.mp h
  exact reachable_of_running hw

/-- The grant that is issued. -/
def Event.entered : Event → Option Grant
  | .issued grant => some grant
  | _ => none

theorem Event.eq_of_entered {v : Event} {grant : Grant} (h : v.entered = some grant) :
    v = .issued grant := by
  unfold Event.entered at h
  split at h <;> simp_all

end TrustRoot

end Iscp
