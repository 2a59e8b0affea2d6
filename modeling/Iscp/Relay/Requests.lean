import Iscp.Relay.Effects
import Iscp.Service.Alone

/-!
# Runs of the Relay

Runs that can be evaluated: a Relay of the lab is started, and actions are taken one after the
other (`Iscp.Relay.reached`). What such a run leads to is computed, and that it is a run of the
server follows from that (`Iscp.Relay.reachable_of_reached`).
-/

namespace Iscp

namespace Relay

open Go Crypto Identity Replay Service Provisioning

variable {P : Primitives} {J : Unmarshal} {cfg : Config}

deriving instance DecidableEq for Headers, BindSelfRequest, RegisterTicketRequest,
  Request, Origin, Frame, NewMessage, Event

/-- The token that is drawn. -/
def tokenOf (e : Env) : Str := base64URL e.token.1

/-- A Relay of the lab that asks nobody for a token. -/
def exampleConfig (repo : Bool) : Config :=
  ⟨lit "lab", lit "relay", defaultGate .localLab, [], [], none, repo⟩

/-- No text is read as anything. -/
def unreadable : Unmarshal := ⟨fun _ => none, fun _ => .error (.plain "JSON")⟩

/-- A request without headers. -/
def noHeaders : Headers := ⟨[], [], []⟩

/-- A database with no rows. -/
def emptyDatabase : Database :=
  ⟨fun _ => none, fun _ => none, fun _ => none, fun _ => none, .empty, fun _ => none⟩

theorem length_bytesOf (b : UInt8) : (List.replicate 32 b).length = 32 := List.length_replicate

/-- One byte, 32 times. -/
def bytesOf (b : UInt8) : Seed := ⟨List.replicate 32 b, length_bytesOf b⟩

/-- Nothing fails, and these bytes are drawn. -/
def drawing (b : UInt8) : Env := { exampleEnv ⟨0, 0⟩ with token := bytesOf b }

theorem initial_lab (hgate : cfg.profileGate = defaultGate .localLab) (db : Database) :
    Initial P cfg ⟨Memory.new, db⟩ := by
  refine ⟨db, { exampleEnv ⟨0, 0⟩ with seed := some (bytesOf 0) }, ?_⟩
  simp only [new, newDevice, generateIdentityKey, hgate]
  rfl

/-- What actions make of a Relay that has just been started, if they are possible. -/
def reached (J : Unmarshal) (cfg : Config) (db : Database)
    (as : List (Server.Action Env Request)) : Option World :=
  as.foldlM (Server.World.next (handle .transparent J cfg)) ⟨⟨Memory.new, db⟩, [], fun _ => none⟩

variable {C : Snapshot → Entry Env Event → Prop} {w : World} {as : List (Server.Action Env Request)}
  {x : Except Answer Answer}

theorem reachable_of_reached {db : Database} (hinit : Initial .transparent cfg ⟨Memory.new, db⟩)
    (hC : ∀ a ∈ as, ∀ (w : World) x, w.entry a = some x → C w.config x)
    (h : reached J cfg db as = some w) : (server .transparent J cfg C).Reachable w :=
  (System.leads_restrict_of_foldlM hC h).reachable (.init ⟨hinit, rfl, rfl⟩)

/-- A request comes in, and `n` sections of it are run. -/
def serves (i : ℕ) (req : Request) (e : Env) (n : ℕ) : List (Server.Action Env Request) :=
  .start i req :: List.replicate n (.run i e)

/-- A device of the lab, and a proof it makes for the Relay. -/
def exampleProof (deviceID challenge nonce : Str) (b : UInt8) :
    Option (DeviceIdentity × DeviceProof) := do
  let dev ← (newDevice .transparent (some (bytesOf b)) (lit "lab") deviceID ⟨0, 0⟩).toOption
  let proof ← (dev.createProof .transparent (lit "relay") challenge nonce ⟨0, 0⟩).toOption
  return (dev.identity, proof)

/-- A message in the database that waits for a device. -/
def waiting (messageID : Str) (priority : ℤ) : RelayMessage where
  domainID := lit "lab"
  messageID := messageID
  senderDeviceID := lit "a"
  recipientDeviceID := lit "b"
  envelopeRaw := messageID
  envelopeCanonical := messageID
  priority := priority
  queuedAt := ⟨0, 0⟩
  expiresAt := ⟨second, 0⟩
  deliveredAt := none
  deliveryClaimedUntil := none
  deliveryAttempts := 0

/-- A database with messages only. -/
def databaseOf (messages : Rows RelayMessage.key) : Database :=
  { emptyDatabase with messages := messages }

/-- Messages wait for a device, which connects; `n` sections of the connection are run, and then
`n'` more, in which writes fail. -/
def connecting (messages : Rows RelayMessage.key) (n n' : ℕ) : Option World :=
  (exampleProof (lit "b") (tokenOf (drawing 0)) (lit "1") 2).bind fun dev =>
    reached unreadable (exampleConfig true) ((databaseOf messages).insertDevice dev.1 .active)
      (serves 0 .connect { drawing 0 with message := some dev.2 } n ++
        List.replicate n' (.run 0 { drawing 0 with writeFails := true }))

theorem reachable_of_connecting {messages : Rows RelayMessage.key} {n n' : ℕ} (hC : ∀ c x, C c x)
    (h : connecting messages n n' = some w) :
    (server .transparent unreadable (exampleConfig true) C).Reachable w := by
  obtain ⟨dev, -, hw⟩ := Option.bind_eq_some_iff.mp h
  exact reachable_of_reached (initial_lab rfl _) (fun _ _ _ _ _ => hC _ _) hw

/-- Every envelope is one of this kind. -/
def readsAs (m : EnvelopeMeta) : Unmarshal := ⟨fun _ => none, fun _ => .ok m⟩

/-- An envelope from a device to itself. -/
def ownEnvelope : EnvelopeMeta := ⟨lit "lab", lit "m", lit "a", lit "a", 60, 0⟩

/-- The access token of a device that has bound itself. -/
def bearing (e : Env) : Headers := ⟨lit "Bearer " ++ tokenOf e, [], []⟩

/-- Without a database a device binds itself, sends an envelope to itself and connects; `n` sections
of the connection are run, and then `n'` more, in which writes fail. -/
def sendingToItself (n n' : ℕ) : Option World :=
  (exampleProof (lit "a") (lit "0") (lit "1") 1).bind fun dev =>
    (exampleProof (lit "a") (tokenOf (drawing 0)) (lit "2") 1).bind fun dev' =>
      reached (readsAs ownEnvelope) (exampleConfig false) emptyDatabase
        (serves 1 (.bindSelf noHeaders ⟨dev.1, dev.2⟩) (drawing 1) 8 ++
          serves 2 (.envelopes (bearing (drawing 1)) (.ok (lit "0"))) (drawing 2) 4 ++
          serves 0 .connect { drawing 0 with message := some dev'.2 } n ++
          List.replicate n' (.run 0 { drawing 0 with writeFails := true }))

theorem reachable_of_sendingToItself {n n' : ℕ} (hC : ∀ c x, C c x)
    (h : sendingToItself n n' = some w) :
    (server .transparent (readsAs ownEnvelope) (exampleConfig false) C).Reachable w := by
  obtain ⟨dev, -, h⟩ := Option.bind_eq_some_iff.mp h
  obtain ⟨dev', -, hw⟩ := Option.bind_eq_some_iff.mp h
  exact reachable_of_reached (initial_lab rfl _) (fun _ _ _ _ _ => hC _ _) hw

/-- A connection that has come to its end. -/
def World.ended (w : World) (i : ℕ) : Bool :=
  match w.threads i with
  | some (.connect, .done _) => true
  | _ => false

theorem World.threads_of_ended {i : ℕ} (h : World.ended w i = true) :
    ∃ answer, w.threads i = some (.connect, .done answer) := by
  rw [World.ended] at h
  split at h
  · next answer hthread => exact ⟨answer, hthread⟩
  · cases h

/-- A request has been answered with this status. -/
def World.Answers (w : World) (i : ℕ) (req : Request) (status : ℕ) : Prop :=
  ∃ body, w.threads i = some (req, .done (.json status body))

instance (w : World) (i : ℕ) (req : Request) (status : ℕ) :
    Decidable (World.Answers w i req status) :=
  decidable_of_iff ((match w.threads i with
    | some (req', .done (.json status' _)) => decide (req' = req ∧ status' = status)
    | _ => false) = true) (by
      unfold World.Answers
      split <;> simp_all)

/-- A request has been refused with this status. -/
def World.Refuses (w : World) (i : ℕ) (req : Request) (status : ℕ) : Prop :=
  ∃ err, w.threads i = some (req, .stop (.error status err))

instance (w : World) (i : ℕ) (req : Request) (status : ℕ) :
    Decidable (World.Refuses w i req status) :=
  decidable_of_iff ((match w.threads i with
    | some (req', .stop (.error status' _)) => decide (req' = req ∧ status' = status)
    | _ => false) = true) (by
      unfold World.Refuses
      split <;> simp_all)

/-- A request was served with this status. -/
def Served (x : Except Answer Answer) (status : ℕ) : Prop := ∃ body, x = .ok (.json status body)

instance (x : Except Answer Answer) (status : ℕ) : Decidable (Served x status) :=
  decidable_of_iff ((match x with
    | .ok (.json status' _) => decide (status' = status)
    | _ => false) = true) (by
      unfold Served
      split <;> simp_all)

/-- Whether two results are seen to be the same. -/
def sameResult : Except Answer Answer → Except Answer Answer → Bool
  | .ok (.json status .revoked), .ok (.json status' .revoked) => status = status'
  | .error (.error status err), .error (.error status' err') => status = status' ∧ err = err'
  | _, _ => false

theorem eq_of_sameResult {x' : Except Answer Answer} (h : sameResult x x' = true) : x = x' := by
  unfold sameResult at h
  split at h <;> simp_all

/-- A request has come to this end. -/
def World.Ends (w : World) (i : ℕ) (req : Request) (x : Except Answer Answer) : Bool :=
  match w.threads i with
  | some (req', .done r) => req' = req ∧ sameResult (.ok r) x
  | some (req', .stop r) => req' = req ∧ sameResult (.error r) x
  | _ => false

theorem World.threads_of_ends {i : ℕ} {req : Request} (h : World.Ends w i req x = true) :
    w.threads i = some (req, .ofExcept x) := by
  rw [World.Ends] at h
  split at h
  · next hthread =>
    obtain ⟨rfl, hx⟩ := of_decide_eq_true h
    rw [hthread, ← eq_of_sameResult hx]
    rfl
  · next hthread =>
    obtain ⟨rfl, hx⟩ := of_decide_eq_true h
    rw [hthread, ← eq_of_sameResult hx]
    rfl
  · cases h

/-- The identity that is admitted. -/
def Event.admits : Event → Option DeviceIdentity
  | .admitted id => some id
  | _ => none

/-- Without a database a device binds itself, and then these actions are taken. -/
def binding (as : List (Server.Action Env Request)) : Option World :=
  (exampleProof (lit "a") (lit "0") (lit "1") 1).bind fun dev =>
    reached unreadable (exampleConfig false) emptyDatabase
      (serves 0 (.bindSelf noHeaders ⟨dev.1, dev.2⟩) (drawing 0) 8 ++ as)

theorem reachable_of_binding (h : binding as = some w)
    (hC : ∀ c x, c.trace ++ [x] <+: w.trace → C c x) :
    (server .transparent unreadable (exampleConfig false) C).Reachable w := by
  obtain ⟨dev, -, hw⟩ := Option.bind_eq_some_iff.mp h
  exact Server.reachable_of_trace
    (reachable_of_reached (C := Server.always) (initial_lab rfl _) (fun _ _ _ _ _ => trivial) hw) hC

end Relay

end Iscp
