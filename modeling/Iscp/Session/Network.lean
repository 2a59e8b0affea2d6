import Iscp.Run
import Iscp.Session.Agreement

/-!
# Honest devices on a hostile network

Any number of honest devices make hellos, establish states, and create and verify ready
messages, in any order and as often as they like (`Iscp.Session.network`). Every message a
device is given comes from the network, and may be anything: a message of another device,
an old one, a changed one, one that was never sent. The one thing the network cannot do is
sign: a message whose signature verifies with the key of an honest device has been signed
by a holder of that key before (`Iscp.Session.Unforged`).

The world keeps a record of what the devices have signed and of the states they have
created ready messages for. Neither is state of the program; the first is what the
assumption on signatures is about, the second what `Iscp.Session.ready_authenticated` says.
-/

namespace Iscp

namespace Session

open Go Crypto Canonical Identity

variable {P : Primitives} {ι : Type}

/-- **Honest devices**: made by `Iscp.Identity.newDevice`, with different identifiers. -/
structure Honest (P : Primitives) (ι : Type) where
  /-- The devices. -/
  device : ι → Device
  made : ∀ i, Made P (device i)
  distinct : ∀ i j, (device i).identity.deviceID = (device j).identity.deviceID → i = j

/-- A state of a device, with the identity it was established with. -/
structure Entry (ι : Type) where
  /-- The device. -/
  owner : ι
  /-- The state. -/
  state : State
  /-- The identity given to `Iscp.Session.establish`. -/
  remoteID : DeviceIdentity

/-- What the devices hold, and what they have done. -/
structure World (ι : Type) where
  /-- The hellos the devices have made. -/
  hellos : List (ι × LocalHello)
  /-- The states they have established. -/
  states : List (Entry ι)
  /-- What has been signed, and by whom. -/
  signed : List (ι × Bytes)
  /-- The states ready messages have been created for. -/
  readied : List (ι × State)

/-- What a device may be made to do. Messages come from the wire, so their text is UTF-8. -/
inductive Action (ι : Type) where
  | createHello (i : ι) (rand : Option Seed) (sessionID peerDeviceID grantID : Str) (now : Time)
  | establish (i : ι) (k : ℕ) (remote : {h : Hello // h.Utf8}) (remoteID : DeviceIdentity)
  | createReady (i : ι) (k : ℕ)
  | verifyReady (i : ι) (k : ℕ) (ready : {r : Ready // r.Utf8}) (remoteID : DeviceIdentity)

/-- The world before anything has happened. -/
def World.empty : World ι := ⟨[], [], [], []⟩

/-! ### What holds in every world -/

/-- A state comes from a hello of its device and a hello from the wire. -/
def Sound (H : Honest P ι) (owner : ι) (remoteID : DeviceIdentity) (s : State) : Prop :=
  ∃ loc remote, HelloCreated P (H.device owner) loc ∧ remote.Utf8 ∧
    Established P loc remote (H.device owner).identity remoteID s

/-- **What holds in every world**: hellos and states are sound, and what has been signed is
a hello, or the ready message of a state on record. -/
structure World.Inv (H : Honest P ι) (w : World ι) : Prop where
  hellos : ∀ p ∈ w.hellos, HelloCreated P (H.device p.1) p.2
  states : ∀ e ∈ w.states, Sound H e.owner e.remoteID e.state
  readied : ∀ p ∈ w.readied, ∃ remoteID, Sound H p.1 remoteID p.2
  signed : ∀ p ∈ w.signed, (∃ h : Hello, p.2 = signedBytes typeHello h.fields) ∨
    ∃ s : State, (p.1, s) ∈ w.readied ∧ p.2 = signedBytes typeReady (s.unsignedReady P).fields

variable {H : Honest P ι} {remoteID : DeviceIdentity} {w w' : World ι} {a : Action ι}

theorem Sound.setReady {owner : ι} {s : State} (h : Sound H owner remoteID s) :
    Sound H owner remoteID { s with ready := true } := by
  obtain ⟨loc, remote, hc, hu, he⟩ := h
  exact ⟨loc, remote, hc, hu, { he with }⟩

theorem World.inv_empty (H : Honest P ι) : World.empty.Inv H :=
  ⟨nofun, nofun, nofun, nofun⟩

/-- A ready message signed by an honest device tells of a session that device has established. -/
theorem World.Inv.ready_of_signed (hi : w.Inv H) {j : ι} {k : ι} {r : Ready} (hu : r.Utf8)
    (hj : r.deviceID = (H.device j).identity.deviceID) {th : Bytes}
    (hth : decodeBase64URL r.transcriptHash = .ok th)
    (hs : (k, signedBytes typeReady r.unsigned.fields) ∈ w.signed) :
    ∃ s remoteID, (j, s) ∈ w.readied ∧ Sound H j remoteID s ∧ s.transcriptHash = th := by
  rcases hi.signed _ hs with ⟨h, hh⟩ | ⟨s, hs, heq⟩
  · exact absurd hh.symm (signedBytes_hello_ne_ready _ _)
  obtain ⟨-, hdev, hhash⟩ := ready_bound heq
  obtain ⟨remoteID, loc, remote, hc, hur, he⟩ := hi.readied _ hs
  have hk : j = k := by
    refine H.distinct j k ?_
    have hlocal : s.localDeviceID = (H.device k).identity.deviceID :=
      he.localDeviceID.trans hc.deviceID
    have hul : Go.Utf8 s.localDeviceID := he.localDeviceID ▸ (he.utf8_local hur).2.2
    rw [← hj, ← hlocal, ← toUtf8_eq_self hu.deviceID, ← toUtf8_eq_self hul]
    exact hdev
  subst hk
  refine ⟨s, remoteID, hs, ⟨loc, remote, hc, hur, he⟩, ?_⟩
  have hbase : r.transcriptHash = base64URL s.transcriptHash := by
    rw [← toUtf8_eq_self hu.transcriptHash, ← toUtf8_eq_self (utf8_base64URL s.transcriptHash)]
    exact hhash
  rw [hbase, decodeBase64URL_base64URL] at hth
  exact Except.ok.inj hth

/-- A message was signed by a holder of every honest key its signature verifies with. -/
def World.Authentic (H : Honest P ι) (w : World ι) (message : Bytes) (signature : Str) : Prop :=
  ∀ sig j, decodeBase64URL signature = .ok sig →
    verify P (publicKey (H.device j).priv) message sig = true →
      ∃ j', publicKey (H.device j').priv = publicKey (H.device j).priv ∧ (j', message) ∈ w.signed

theorem World.authentic_transparent {H : Honest Primitives.transparent ι} {i : ι} {m : Bytes}
    (hm : (i, m) ∈ w.signed) :
    w.Authentic H m (base64URL (sign Primitives.transparent (H.device i).priv m)) := by
  intro sig j hsig hverify
  obtain rfl := Except.ok.inj ((decodeBase64URL_base64URL _).symm.trans hsig)
  refine ⟨i, Ed25519PublicKey.ext ?_, hm⟩
  exact List.append_cancel_right (of_decide_eq_true hverify)

/-! ### Calls -/

variable [DecidableEq ι]

/-- **One call.** A call that fails changes nothing; a device can only use its own hellos
and states. -/
def World.next (H : Honest P ι) (w : World ι) : Action ι → Option (World ι)
  | .createHello i rand sessionID peerDeviceID grantID now =>
    match createHello P (H.device i) rand sessionID peerDeviceID grantID now with
    | .error _ => some w
    | .ok lh => some { w with
        hellos := w.hellos ++ [(i, lh)]
        signed := w.signed ++ [(i, signedBytes typeHello lh.hello.unsigned.fields)] }
  | .establish i k remote remoteID =>
    match w.hellos[k]? with
    | none => none
    | some (owner, lh) =>
      if owner = i then
        match establish P lh remote.1 (H.device i).identity remoteID with
        | .error _ => some w
        | .ok s => some { w with states := w.states ++ [⟨i, s, remoteID⟩] }
      else none
  | .createReady i k =>
    match w.states[k]? with
    | none => none
    | some e =>
      if e.owner = i then
        match e.state.createReady P (H.device i) with
        | .error _ => some w
        | .ok _ => some { w with
            signed := w.signed ++ [(i, signedBytes typeReady (e.state.unsignedReady P).fields)]
            readied := w.readied ++ [(i, e.state)] }
      else none
  | .verifyReady i k ready remoteID =>
    match w.states[k]? with
    | none => none
    | some e =>
      if e.owner = i then
        match e.state.verifyReady P ready.1 remoteID with
        | .error _ => some w
        | .ok s => some { w with states := w.states.set k { e with state := s } }
      else none

/-- **No forgery**: what a call is given is authentic. -/
def Unforged (H : Honest P ι) (w : World ι) : Action ι → Prop
  | .establish _ _ remote _ =>
    w.Authentic H (signedBytes typeHello remote.1.unsigned.fields)
      remote.1.signature.value
  | .verifyReady _ _ ready _ =>
    w.Authentic H (signedBytes typeReady ready.1.unsigned.fields)
      ready.1.signature.value
  | _ => True

/-- **The network**: all interleavings of all calls, without forgeries. -/
def network (H : Honest P ι) : System (World ι) (Action ι) :=
  (System.ofNext (· = World.empty) (World.next H)).restrict (Unforged H)

theorem network_empty (H : Honest P ι) : (network H).Reachable World.empty := .init rfl

theorem network_call (h : (network H).Reachable w) (hn : w.next H a = some w')
    (hu : Unforged H w a) : (network H).Reachable w' := h.step ⟨hu, hn⟩

/-! ### What a call leaves behind -/

/-- **The calls, by what they leave behind.** -/
theorem World.next_cases (h : w.next H a = some w') :
    w' = w ∨
    (∃ i lh, HelloCreated P (H.device i) lh ∧ w' = { w with
      hellos := w.hellos ++ [(i, lh)]
      signed := w.signed ++ [(i, signedBytes typeHello lh.hello.unsigned.fields)] }) ∨
    (∃ i lh remote remoteID s, (i, lh) ∈ w.hellos ∧ remote.Utf8 ∧
      Established P lh remote (H.device i).identity remoteID s ∧
      w' = { w with states := w.states ++ [⟨i, s, remoteID⟩] }) ∨
    (∃ e ∈ w.states, w' = { w with
      signed := w.signed ++
        [(e.owner, signedBytes typeReady (e.state.unsignedReady P).fields)]
      readied := w.readied ++ [(e.owner, e.state)] }) ∨
    ∃ k e, w.states[k]? = some e ∧
      w' = { w with
        states := w.states.set k { e with state := { e.state with ready := true } } } := by
  cases a with
  | createHello i rand sessionID peerDeviceID grantID now =>
    rw [next] at h
    split at h
    · exact Or.inl (Option.some.inj h).symm
    · next lh hlh =>
      exact Or.inr (Or.inl ⟨i, lh, createHello_eq_ok hlh, (Option.some.inj h).symm⟩)
  | establish i k remote remoteID =>
    rw [next] at h
    split at h
    · cases h
    · next owner lh hk =>
      split_ifs at h with hi
      subst hi
      split at h
      · exact Or.inl (Option.some.inj h).symm
      · next s hs =>
        exact Or.inr (Or.inr (Or.inl ⟨owner, lh, remote.1, remoteID, s,
          List.mem_of_getElem? hk, remote.2, (establish_eq_ok.mp hs).1, (Option.some.inj h).symm⟩))
  | createReady i k =>
    rw [next] at h
    split at h
    · cases h
    · next e hk =>
      split_ifs at h with hi
      subst hi
      split at h
      · exact Or.inl (Option.some.inj h).symm
      · exact Or.inr (Or.inr (Or.inr (Or.inl
          ⟨e, List.mem_of_getElem? hk, (Option.some.inj h).symm⟩)))
  | verifyReady i k ready remoteID =>
    rw [next] at h
    split at h
    · cases h
    · next e hk =>
      split_ifs at h
      split at h
      · exact Or.inl (Option.some.inj h).symm
      · next s hs =>
        obtain ⟨-, rfl⟩ := State.verifyReady_eq_ok.mp hs
        exact Or.inr (Or.inr (Or.inr (Or.inr ⟨k, e, hk, (Option.some.inj h).symm⟩)))

/-- One action, the adversary's included, keeps the invariant. -/
theorem World.Inv.next (hi : w.Inv H) (h : w.next H a = some w') : w'.Inv H := by
  rcases World.next_cases h with rfl | ⟨i, lh, hc, rfl⟩ | ⟨i, lh, remote, remoteID, s, hmem, hu,
    he, rfl⟩ | ⟨e, hmem, rfl⟩ | ⟨k, e, hk, rfl⟩
  · exact hi
  · refine ⟨?_, hi.states, hi.readied, ?_⟩
    · rw [List.forall_mem_append, List.forall_mem_singleton]
      exact ⟨hi.hellos, hc⟩
    · rw [List.forall_mem_append, List.forall_mem_singleton]
      exact ⟨hi.signed, Or.inl ⟨_, rfl⟩⟩
  · refine ⟨hi.hellos, ?_, hi.readied, hi.signed⟩
    rw [List.forall_mem_append, List.forall_mem_singleton]
    exact ⟨hi.states, lh, remote, hi.hellos _ hmem, hu, he⟩
  · refine ⟨hi.hellos, hi.states, ?_, ?_⟩
    · rw [List.forall_mem_append, List.forall_mem_singleton]
      exact ⟨hi.readied, e.remoteID, hi.states e hmem⟩
    · rw [List.forall_mem_append, List.forall_mem_singleton]
      refine ⟨fun p hp => (hi.signed p hp).imp_right ?_, Or.inr ⟨e.state, by simp, rfl⟩⟩
      rintro ⟨s, hs, heq⟩
      exact ⟨s, List.mem_append_left _ hs, heq⟩
  · refine ⟨hi.hellos, fun e' he' => ?_, hi.readied, hi.signed⟩
    rcases List.mem_or_eq_of_mem_set he' with hmem | rfl
    · exact hi.states e' hmem
    · exact (hi.states e (List.mem_of_getElem? hk)).setReady

theorem network_inv {H : Honest P ι} {w : World ι} (h : (network H).Reachable w) : w.Inv H :=
  h.invariant (fun _ hw => hw ▸ World.inv_empty H) fun _ _ _ _ hi hs => hi.next hs.2

/-! ### Calls that succeed -/

section Succeed

variable {H : Honest P ι} {w : World ι} {i : ι} {k : ℕ}

variable {lh : LocalHello} {e : Entry ι}

theorem World.next_createHello {rand : Option Seed} {sessionID peer grant : Str} {now : Time}
    (h : createHello P (H.device i) rand sessionID peer grant now = .ok lh) :
    w.next H (.createHello i rand sessionID peer grant now) = some { w with
      hellos := w.hellos ++ [(i, lh)]
      signed := w.signed ++ [(i, signedBytes typeHello lh.hello.unsigned.fields)] } := by
  simp only [next, h]

theorem World.next_establish (hk : w.hellos[k]? = some (i, lh)) {remote : {h : Hello // h.Utf8}}
    {s : State} (h : establish P lh remote.1 (H.device i).identity remoteID = .ok s) :
    w.next H (.establish i k remote remoteID) =
      some { w with states := w.states ++ [⟨i, s, remoteID⟩] } := by
  simp only [next, hk, h, if_true]

theorem World.next_createReady (hk : w.states[k]? = some e) :
    w.next H (.createReady e.owner k) = some { w with
      signed := w.signed ++ [(e.owner, signedBytes typeReady (e.state.unsignedReady P).fields)]
      readied := w.readied ++ [(e.owner, e.state)] } := by
  simp only [next, hk, State.createReady_eq, if_true]

theorem World.next_verifyReady (hk : w.states[k]? = some e) {ready : {r : Ready // r.Utf8}}
    (h : ReadyVerified P e.state ready.1 remoteID) :
    w.next H (.verifyReady e.owner k ready remoteID) = some { w with
      states := w.states.set k { e with state := { e.state with ready := true } } } := by
  simp only [next, hk, State.verifyReady_eq_ok.mpr ⟨h, rfl⟩, if_true]

end Succeed

/-! ### A run -/

/-- The seed of a device in the example. -/
def exampleSeed (b : UInt8) : Seed := ⟨List.replicate 32 b, List.length_replicate⟩

/-- A device whose private key repeats one byte. -/
def exampleDevice (b : UInt8) (deviceID : Str) : Device where
  priv := ⟨List.replicate 64 b, List.length_replicate⟩
  identity := {
    type := typeDeviceIdentity
    domainID := lit "domain"
    deviceID := deviceID
    publicKey := {
      kty := lit "Ed25519"
      usage := lit "identity-signature"
      kid := Crypto.thumbprint Primitives.transparent (lit "Ed25519") (List.replicate 32 b)
      pub := base64URL (List.replicate 32 b) }
    createdAt := ⟨0, 0⟩
    metadata := [] }

/-- The two devices of the example. -/
def exampleDevices : Honest Primitives.transparent Bool where
  device b := if b then exampleDevice 2 (lit "b") else exampleDevice 1 (lit "a")
  made := by
    intro b
    cases b
    · exact ⟨exampleSeed 1, lit "domain", lit "a", ⟨0, 0⟩, rfl⟩
    · exact ⟨exampleSeed 2, lit "domain", lit "b", ⟨0, 0⟩, rfl⟩
  distinct := by decide

/-- The hello of a device of the example, for the other one. -/
def exampleHello (i : Bool) : Except Error LocalHello :=
  createHello Primitives.transparent (exampleDevices.device i)
    (some (exampleSeed (if i then 4 else 3)))
    (lit "session") (exampleDevices.device !i).identity.deviceID (lit "grant") ⟨0, 0⟩

/-- **The two devices establish a session.** -/
theorem exampleSession : ∃ (la lb : LocalHello) (sa sb : State),
    exampleHello false = .ok la ∧ exampleHello true = .ok lb ∧ la.hello.Utf8 ∧ lb.hello.Utf8 ∧
    establish Primitives.transparent la lb.hello (exampleDevices.device false).identity
      (exampleDevices.device true).identity = .ok sa ∧
    establish Primitives.transparent lb la.hello (exampleDevices.device true).identity
      (exampleDevices.device false).identity = .ok sb ∧ Crossed sa sb := by
  let H := exampleDevices
  obtain ⟨la, hla, hlas, hlap⟩ := exists_createHello (P := Primitives.transparent) (H.device false)
    (exampleSeed 3) (lit "session") (lit "b") (lit "grant") ⟨0, 0⟩ rfl (by decide)
  obtain ⟨lb, hlb, hlbs, hlbp⟩ := exists_createHello (P := Primitives.transparent) (H.device true)
    (exampleSeed 4) (lit "session") (lit "a") (lit "grant") ⟨0, 0⟩ rfl (by decide)
  have hca := createHello_eq_ok hla
  have hcb := createHello_eq_ok hlb
  have hua : la.hello.Utf8 := utf8_of_createHello hla (utf8_lit _) (utf8_lit _) (utf8_lit _)
    (utf8_lit _) (utf8_lit _) (utf8_base64URL _)
  have hub : lb.hello.Utf8 := utf8_of_createHello hlb (utf8_lit _) (utf8_lit _) (utf8_lit _)
    (utf8_lit _) (utf8_lit _) (utf8_base64URL _)
  have hpair : Paired la.hello lb.hello :=
    ⟨hlas.trans hlbs.symm, hca.domainID.trans hcb.domainID.symm, hlap.trans hcb.deviceID.symm,
      hlbp.trans hca.deviceID.symm⟩
  have hderives : Derives Primitives.transparent := fun _ _ _ => rfl
  have hsign := Primitives.signsVerifiably_transparent
  obtain ⟨sa, hsa⟩ := exists_establish (H.device false) hsign hderives (H.made true) hcb hpair
    fun _ _ => rfl
  obtain ⟨sb, hsb⟩ := exists_establish (H.device true) hsign hderives (H.made false) hca
    hpair.symm fun _ _ => rfl
  exact ⟨la, lb, sa, sb, hla, hlb, hua, hub, hsa, hsb, crossed_of_paired
    Primitives.x25519Commutes_transparent hca hcb hpair (by decide) hsa hsb⟩

/-- **A run of the two devices**, up to the step in which the first one becomes ready. -/
theorem exampleRun : ∃ (w w' : World Bool) (ready : {r : Ready // r.Utf8}) (e e' : Entry Bool),
    (network exampleDevices).Reachable w ∧
    (network exampleDevices).step w
      (.verifyReady false 0 ready (exampleDevices.device true).identity) w' ∧
    w.states[0]? = some e ∧ w'.states[0]? = some e' ∧
    e.remoteID = (exampleDevices.device true).identity ∧ e.state.ready = false ∧
    e'.state.ready = true := by
  let H := exampleDevices
  obtain ⟨la, lb, sa, sb, hla, hlb, hua, hub, hsa, hsb, hx⟩ := exampleSession
  have hca := createHello_eq_ok hla
  have hcb := createHello_eq_ok hlb
  have hsign := Primitives.signsVerifiably_transparent
  have hfresh := (establish_eq_ok.mp hsa).2.1
  let ea : Entry Bool := ⟨false, sa, (H.device true).identity⟩
  let eb : Entry Bool := ⟨true, sb, (H.device false).identity⟩
  -- the six calls of the run
  have h1 := network_call (network_empty H) (World.next_createHello hla) trivial
  have h2 := network_call h1 (World.next_createHello hlb) trivial
  have h3 := network_call (a := .establish false 0 ⟨lb.hello, hub⟩ (H.device true).identity) h2
    (World.next_establish rfl hsa) (by
      rw [Unforged, hcb.signed]
      exact World.authentic_transparent (by simp [World.empty]))
  have h4 := network_call (a := .establish true 1 ⟨la.hello, hua⟩ (H.device false).identity) h3
    (World.next_establish rfl hsb) (by
      rw [Unforged, hca.signed]
      exact World.authentic_transparent (by simp [World.empty]))
  have h5 := network_call h4 (World.next_createReady (k := 1) (e := eb) rfl) trivial
  have hready : ReadyVerified Primitives.transparent ea.state
      (sb.readyMessage Primitives.transparent (H.device true)) (H.device true).identity :=
    readyVerified_of_crossed hsign (H.made true) hx
  have huready : (sb.readyMessage Primitives.transparent (H.device true)).Utf8 := by
    have he := (establish_eq_ok.mp hsb).1
    exact State.utf8_readyMessage (he.sessionID ▸ hub.sessionID) (he.localDeviceID ▸ hub.deviceID)
      (utf8_base64URL _)
  refine ⟨_, _, ⟨_, huready⟩, ea, _, h5, ⟨?_, World.next_verifyReady (e := ea) rfl hready⟩,
    rfl, rfl, rfl, hfresh, rfl⟩
  exact World.authentic_transparent (by simp [eb])

/-! ### Authentication -/

/-- **Handshake authentication.** Whenever a state that device `i` has established with the
identity of the honest device `j` becomes ready, by a ready message verified with that
identity, `j` has created a ready message for the other side of the same session. -/
theorem ready_authenticated (H : Honest P ι) (hsha : Function.Injective P.sha256)
    (hx : P.X25519Commutes) {w w' : World ι} (hw : (network H).Reachable w) {i j : ι}
    (hij : i ≠ j) {k : ℕ} {ready : {r : Ready // r.Utf8}}
    (hstep : (network H).step w (.verifyReady i k ready (H.device j).identity) w')
    {e e' : Entry ι} (he : w.states[k]? = some e) (he' : w'.states[k]? = some e')
    (hid : e.remoteID = (H.device j).identity) (hbefore : e.state.ready = false)
    (hafter : e'.state.ready = true) :
    ∃ s', (j, s') ∈ w.readied ∧ Crossed e.state s' := by
  obtain ⟨hauth, hnext⟩ := hstep
  replace hnext : w.next H (.verifyReady i k ready (H.device j).identity) = some w' := hnext
  have hi := network_inv hw
  simp only [World.next, he] at hnext
  split_ifs at hnext with howner
  split at hnext
  · -- a call that fails leaves the state as it was
    obtain rfl := Option.some.inj hnext
    rw [he] at he'
    obtain rfl := Option.some.inj he'
    rw [hbefore] at hafter
    cases hafter
  · next s hs =>
    obtain ⟨hv, -⟩ := State.verifyReady_eq_ok.mp hs
    obtain ⟨loc, remote, hc, hu, hest⟩ := hi.states e (List.mem_of_getElem? he)
    rw [hid] at hest
    -- the signature is `j`'s, so that `j` has created a ready message with this hash
    obtain ⟨pub, sig, hpub, hsig, hverify⟩ := hv.signed
    obtain rfl : publicKey (H.device j).priv = pub :=
      Ed25519PublicKey.ext (Except.ok.inj ((H.made j).decode_pub.symm.trans hpub))
    obtain ⟨j', -, hsigned⟩ := hauth sig j hsig hverify
    have hdevice : ready.1.deviceID = (H.device j).identity.deviceID :=
      hv.deviceID.trans (hest.peerDeviceID.trans hest.verified.deviceID)
    obtain ⟨s', remoteID, hs', ⟨loc', remote', hc', hu', hest'⟩, hth⟩ :=
      hi.ready_of_signed ready.2 hdevice hv.hash hsigned
    -- the two states have one transcript hash
    refine ⟨s', hs', hest.crossed hsha hx hc hc' hest' hu hu' ?_ ?_ hth.symm⟩
    · rw [hc.deviceID, hest.verified.deviceID, howner]
      exact fun h => hij (H.distinct i j h)
    · rw [hc'.deviceID, hest.verified.deviceID]

theorem ready_authenticated_example : ∃ (w : World Bool) (e : Entry Bool) (s' : State),
    (network exampleDevices).Reachable w ∧ w.states[0]? = some e ∧ (true, s') ∈ w.readied ∧
      Crossed e.state s' := by
  obtain ⟨w, w', ready, e, e', hw, hstep, he, he', hid, hbefore, hafter⟩ := exampleRun
  obtain ⟨s', hs', hx⟩ := ready_authenticated exampleDevices Primitives.sha256_injective_transparent
    Primitives.x25519Commutes_transparent hw (by decide) hstep he he' hid hbefore hafter
  exact ⟨w, e, s', hw, he, hs', hx⟩

end Session

end Iscp
