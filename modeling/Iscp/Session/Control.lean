import Iscp.Session.Handshake

/-!
# Control frames

Outside of the envelopes of a session, a device can ask its peer for a new handshake (a reopen) and
tell it that a session is over (a close). The two frames are built alike, and so are the functions
that make and check them; `Iscp.Session.ControlKind` holds what tells them apart.

A frame is good for the time it says, which is at most half a minute, and the receiver allows the
sender's clock to be ahead by five seconds. What the sender makes is good for exactly this long from
the second its clock shows; what anybody makes is accepted only at times less than 35 seconds apart;
and no frame is accepted as one of the other kind (`Iscp.Session.control_window`).
-/

namespace Iscp

namespace Session

open Go Go.Json Crypto Canonical Identity

/-- **The kinds of control frames.** -/
inductive ControlKind where
  | reopen
  | close
  deriving DecidableEq

namespace ControlKind

/-- `TypeReopen` and `TypeClose`. -/
def type : ControlKind → Str
  | reopen => lit "iscp.session.reopen.v1"
  | close => lit "iscp.session.close.v1"

/-- What the error texts call a frame. -/
def name : ControlKind → String
  | reopen => "reopen"
  | close => "close"

/-- The JSON name of the id of a frame. -/
def idName : ControlKind → String
  | reopen => "request_id"
  | close => "session_id"

/-- The JSON name of the cause of a frame. -/
def causeName : ControlKind → String
  | reopen => "cause"
  | close => "reason"

/-- `validCause` and `validCloseReason`: the causes a frame may have. -/
def causes : ControlKind → List Str
  | reopen => [lit "runtime_started", lit "foreground_recovery"]
  | close => [lit "shutdown", lit "superseded", lit "revoked", lit "error"]

end ControlKind

/-- `ControlFrameMaxTTL`. -/
def controlFrameMaxTTL : Duration := 30 * second

/-- `ControlFrameClockSkew`. -/
def controlFrameClockSkew : Duration := 5 * second

/-- **A control frame**: `id` is the request or the session, `cause` the cause or the reason. -/
structure ControlFrame (kind : ControlKind) where
  type : Str
  id : Str
  domainID : Str
  deviceID : Str
  peerDeviceID : Str
  relayID : Str
  cause : Str
  issuedAt : Time
  expiresAt : Time
  nonce : Str
  signature : Signature
  deriving DecidableEq

/-- **`Reopen`.** -/
abbrev Reopen := ControlFrame .reopen

/-- **`Close`.** -/
abbrev Close := ControlFrame .close

variable {kind : ControlKind}

/-- The members of a frame's JSON. -/
def ControlFrame.fields (f : ControlFrame kind) : List (String × Value) :=
  [("type", .str f.type), (kind.idName, .str f.id), ("domain_id", .str f.domainID),
    ("device_id", .str f.deviceID), ("peer_device_id", .str f.peerDeviceID),
    ("relay_id", .str f.relayID), (kind.causeName, .str f.cause),
    ("issued_at", .str f.issuedAt.rfc3339Nano), ("expires_at", .str f.expiresAt.rfc3339Nano),
    ("nonce", .str f.nonce), ("signature", f.signature.toValue)]

/-- `signatureInput` of a frame. -/
def controlInput (f : ControlFrame kind) : Except Error Bytes := do
  failIf (¬f.issuedAt.Marshals ∨ ¬f.expiresAt.Marshals)
    (marshalTimeError [f.issuedAt, f.expiresAt])
  signatureInput kind.type (Value.ofFields f.fields).text

/-- `t.Truncate(time.Second)`. -/
def truncateSecond (t : Time) : Time := t.add (-((t.unixNano - Time.zero.unixNano) % second))

/-- What the random source delivers for a nonce: 16 bytes. -/
abbrev ControlNonce := {b : Bytes // b.length = 16}

variable (P : Primitives)

/-- **A frame is created**, of either kind. -/
def createFrame (kind : ControlKind) (dev : Device) (rand : ControlNonce)
    (id peerDeviceID relayID cause : Str) (now : Time) : Except Error (ControlFrame kind) := do
  failIf (cause ∉ kind.causes) (.new .sessionInvalid
    (lit ("unsupported session " ++ kind.name ++ " " ++ kind.causeName)))
  let issued := truncateSecond now.utc
  let frame : ControlFrame kind := {
    type := kind.type
    id := id
    domainID := dev.identity.domainID
    deviceID := dev.identity.deviceID
    peerDeviceID := peerDeviceID
    relayID := relayID
    cause := cause
    issuedAt := issued
    expiresAt := issued.add controlFrameMaxTTL
    nonce := base64URL rand.1
    signature := noSignature }
  let input ← controlInput frame
  return { frame with
    signature := ⟨lit "Ed25519", dev.identity.publicKey.kid, base64URL (sign P dev.priv input)⟩ }

/-- **`CreateReopen`.** -/
def createReopen : Device → ControlNonce → Str → Str → Str → Str → Time → Except Error Reopen :=
  createFrame P .reopen

/-- **`CreateClose`.** -/
def createClose : Device → ControlNonce → Str → Str → Str → Str → Time → Except Error Close :=
  createFrame P .close

/-- `ReopenVerifyOptions`. -/
structure ReopenVerifyOptions where
  localDeviceID : Str
  domainID : Str
  relayID : Str
  now : Time

/-- **`verifyControlWindow`.** -/
def verifyControlWindow (issuedAt expiresAt now : Time) : Except Error Unit :=
  failIf (issuedAt.after (now.utc.add controlFrameClockSkew) ∨ ¬expiresAt.after now.utc ∨
      expiresAt.before issuedAt ∨ expiresAt.sub issuedAt > controlFrameMaxTTL)
    (.new .signatureInvalid (lit "session control frame is outside its allowed time window"))

/-- **`verifyControlSignature`.** -/
def verifyControlSignature (frame : ControlFrame kind) (sender : DeviceIdentity) :
    Except Error Unit := do
  let pubBytes ← decodeBase64URL sender.publicKey.pub
  let pub ← ed25519PublicKeyFromBytes pubBytes
  let sigBytes ← decodeBase64URL frame.signature.value
  let input ← controlInput ({ frame with signature := noSignature } : ControlFrame kind)
  failIf (verify P pub input sigBytes = false)
    (.new .signatureInvalid (lit "session control frame signature verification failed"))

/-- **A frame is verified**, of either kind. -/
def verifyFrame (frame : ControlFrame kind) (sender : DeviceIdentity)
    (opts : ReopenVerifyOptions) : Except Error Unit := do
  failIf (frame.type ≠ kind.type)
    (.new .sessionInvalid (lit ("invalid session " ++ kind.name ++ " type")))
  failIf (frame.cause ∉ kind.causes) (.new .sessionInvalid
    (lit ("unsupported session " ++ kind.name ++ " " ++ kind.causeName)))
  failIf (frame.domainID ≠ opts.domainID ∨ sender.domainID ≠ opts.domainID)
    (.new .trustInvalid (lit ("session " ++ kind.name ++ " domain mismatch")))
  failIf (frame.deviceID ≠ sender.deviceID)
    (.new .trustInvalid (lit ("session " ++ kind.name ++ " identity mismatch")))
  failIf (frame.peerDeviceID ≠ opts.localDeviceID)
    (.new .trustInvalid (lit ("session " ++ kind.name ++ " is not addressed to this device")))
  failIf (frame.relayID ≠ opts.relayID)
    (.new .trustInvalid (lit ("session " ++ kind.name ++ " relay constraint mismatch")))
  verifyControlWindow frame.issuedAt frame.expiresAt opts.now
  failIf (frame.signature.kid ≠ sender.publicKey.kid)
    (.new .trustInvalid (lit ("session " ++ kind.name ++ " identity mismatch")))
  verifyControlSignature P frame sender

/-- **`VerifyReopen`.** -/
def verifyReopen : Reopen → DeviceIdentity → ReopenVerifyOptions → Except Error Unit :=
  verifyFrame P

/-- **`VerifyClose`.** -/
def verifyClose : Close → DeviceIdentity → ReopenVerifyOptions → Except Error Unit :=
  verifyFrame P

/-! ### What success says -/

variable {P}

theorem ControlFrame.strict_fields (f : ControlFrame kind) :
    Strict (Value.ofFields f.fields).toUtf8 := by
  refine strict_toUtf8_ofFields ?_ ?_
  · cases kind <;> simp [fields, ControlKind.idName, ControlKind.causeName]
  · simp [fields, strict_toUtf8_str, Signature.strict_toValue]

variable {f frame : ControlFrame kind} {now : Time} {peerDeviceID relayID cause : Str}
  {dev : Device}

theorem controlInput_eq_ok {input : Bytes} : controlInput f = .ok input ↔
    (f.issuedAt.Marshals ∧ f.expiresAt.Marshals) ∧ input = signedBytes kind.type f.fields := by
  simp only [controlInput, bind_eq_ok_iff, failIf_eq_ok_iff, exists_const, not_or, not_not,
    signatureInput_text_eq_ok, f.strict_fields, true_and]

/-- **The window of a frame**, for the receiver. -/
structure InWindow (issuedAt expiresAt now : ℤ) : Prop where
  issued : issuedAt - 5 * second ≤ now
  notExpired : now < expiresAt
  ordered : issuedAt ≤ expiresAt
  short : expiresAt ≤ issuedAt + 30 * second

/-- What the check of a control frame's times accepts. -/
theorem verifyControlWindow_eq_ok {issuedAt expiresAt : Time} {u : Unit} :
    verifyControlWindow issuedAt expiresAt now = .ok u ↔
      InWindow issuedAt.unixNano expiresAt.unixNano now.unixNano := by
  have hsub : controlFrameMaxTTL < expiresAt.sub issuedAt ↔
      ¬expiresAt.unixNano ≤ issuedAt.unixNano + 30 * second := by
    rw [Time.lt_sub_iff (by decide) (by decide), controlFrameMaxTTL, not_le]
    exact lt_sub_iff_add_lt'
  simp only [verifyControlWindow, failIf_eq_ok_iff, not_or, not_not, Time.after_iff,
    Time.before_iff, Time.unixNano_add, Time.unixNano_utc, gt_iff_lt, hsub]
  rw [controlFrameClockSkew]
  constructor
  · rintro ⟨hissued, hexpired, hordered, hshort⟩
    exact ⟨by omega, by omega, by omega, by omega⟩
  · rintro ⟨hissued, hexpired, hordered, hshort⟩
    exact ⟨by omega, by omega, by omega, by omega⟩

/-- The frame without its signature, as it is signed. -/
def ControlFrame.unsigned (f : ControlFrame kind) : ControlFrame kind :=
  { f with signature := noSignature }

/-- **What a verified frame has been checked for.** -/
structure FrameVerified (P : Primitives) (frame : ControlFrame kind) (sender : DeviceIdentity)
    (opts : ReopenVerifyOptions) : Prop where
  type : frame.type = kind.type
  cause : frame.cause ∈ kind.causes
  domainID : frame.domainID = opts.domainID
  senderDomain : sender.domainID = opts.domainID
  deviceID : frame.deviceID = sender.deviceID
  peerDeviceID : frame.peerDeviceID = opts.localDeviceID
  relayID : frame.relayID = opts.relayID
  window : InWindow frame.issuedAt.unixNano frame.expiresAt.unixNano opts.now.unixNano
  kid : frame.signature.kid = sender.publicKey.kid
  marshals : frame.issuedAt.Marshals ∧ frame.expiresAt.Marshals
  signed : ∃ pub sig, decodeBase64URL sender.publicKey.pub = .ok pub.key ∧
    decodeBase64URL frame.signature.value = .ok sig ∧
    verify P pub (signedBytes kind.type frame.unsigned.fields) sig = true

theorem verifyFrame_eq_ok {sender : DeviceIdentity} {opts : ReopenVerifyOptions} {u : Unit} :
    verifyFrame P frame sender opts = .ok u ↔ FrameVerified P frame sender opts := by
  simp only [verifyFrame, verifyControlSignature, bind_eq_ok_iff, failIf_eq_ok_iff, exists_const,
    ne_eq, not_or, not_not, verifyControlWindow_eq_ok, ed25519PublicKeyFromBytes_eq_ok,
    controlInput_eq_ok, Bool.not_eq_false]
  constructor
  · rintro ⟨h1, h2, ⟨h3, h4⟩, h5, h6, h7, h8, h9, _, h10, pub, rfl, sig, h11, _, ⟨h12, rfl⟩, h13⟩
    exact ⟨h1, h2, h3, h4, h5, h6, h7, h8, h9, h12, pub, sig, h10, h11, h13⟩
  · rintro ⟨h1, h2, h3, h4, h5, h6, h7, h8, h9, h12, pub, sig, h10, h11, h13⟩
    exact ⟨h1, h2, ⟨h3, h4⟩, h5, h6, h7, h8, h9, _, h10, pub, rfl, sig, h11, _, ⟨h12, rfl⟩, h13⟩

/-- **What a created frame is made of.** -/
structure FrameCreated (P : Primitives) (dev : Device) (id peerDeviceID relayID cause : Str)
    (now : Time) (frame : ControlFrame kind) : Prop where
  type : frame.type = kind.type
  cause : frame.cause ∈ kind.causes
  domainID : frame.domainID = dev.identity.domainID
  deviceID : frame.deviceID = dev.identity.deviceID
  peerDeviceID : frame.peerDeviceID = peerDeviceID
  relayID : frame.relayID = relayID
  issuedAt : frame.issuedAt = truncateSecond now.utc
  expiresAt : frame.expiresAt = frame.issuedAt.add controlFrameMaxTTL
  kid : frame.signature.kid = dev.identity.publicKey.kid
  marshals : frame.issuedAt.Marshals ∧ frame.expiresAt.Marshals
  signed : frame.signature.value =
    base64URL (sign P dev.priv (signedBytes kind.type frame.unsigned.fields))

theorem createFrame_eq_ok {rand : ControlNonce} {id : Str}
    (h : createFrame P kind dev rand id peerDeviceID relayID cause now = .ok frame) :
    FrameCreated P dev id peerDeviceID relayID cause now frame := by
  simp only [createFrame, bind_eq_ok_iff, failIf_eq_ok_iff, exists_const, not_not,
    controlInput_eq_ok] at h
  obtain ⟨hcause, _, ⟨hmarshals, rfl⟩, hframe⟩ := h
  cases hframe
  exact ⟨rfl, hcause, rfl, rfl, rfl, rfl, rfl, rfl, rfl, hmarshals, rfl⟩

/-! ### Windows -/

/-- The start of the second a clock shows. -/
def floorSecond (t : Time) : ℤ := t.unixNano / second * second

theorem unixNano_truncateSecond (t : Time) : (truncateSecond t).unixNano = floorSecond t := by
  have hzero : Time.zero.unixNano = -62135596800 * 1000000000 := rfl
  rw [truncateSecond, Time.unixNano_add, floorSecond, hzero, second]
  omega

/-- **When the receiver accepts a frame it is sent**: from five seconds before the second the
sender's clock showed, until half a minute after. -/
theorem FrameCreated.verified_iff {pub : Ed25519PublicKey} {id : Str}
    (h : FrameCreated P dev id peerDeviceID relayID cause now frame) (hs : P.SignsVerifiably)
    (hkey : KeyPair P dev.priv pub)
    (hpub : decodeBase64URL dev.identity.publicKey.pub = .ok pub.key) (v : Time) :
    FrameVerified P frame dev.identity ⟨peerDeviceID, dev.identity.domainID, relayID, v⟩ ↔
      floorSecond now - 5 * second ≤ v.unixNano ∧ v.unixNano < floorSecond now + 30 * second := by
  have hissued : frame.issuedAt.unixNano = floorSecond now := by
    rw [h.issuedAt, unixNano_truncateSecond]
    rfl
  have hexpires : frame.expiresAt.unixNano = floorSecond now + 30 * second := by
    rw [h.expiresAt, Time.unixNano_add, hissued, controlFrameMaxTTL]
  have hwindow : InWindow frame.issuedAt.unixNano frame.expiresAt.unixNano v.unixNano ↔
      floorSecond now - 5 * second ≤ v.unixNano ∧ v.unixNano < floorSecond now + 30 * second := by
    rw [hissued, hexpires]
    refine ⟨fun h => ⟨h.issued, h.notExpired⟩, fun h => ⟨h.1, h.2, ?_, le_refl _⟩⟩
    rw [second]
    omega
  rw [← hwindow]
  refine ⟨FrameVerified.window, fun hin => ⟨h.type, h.cause, h.domainID, rfl, h.deviceID,
    h.peerDeviceID, h.relayID, hin, h.kid, h.marshals, pub, _, hpub, ?_,
    hs.verify_sign hkey _⟩⟩
  rw [h.signed, decodeBase64URL_base64URL]

/-- **A frame is not accepted for long**, whatever it says. -/
theorem InWindow.close_together {issuedAt expiresAt now now' : ℤ}
    (h : InWindow issuedAt expiresAt now) (h' : InWindow issuedAt expiresAt now') :
    |now - now'| < 35 * second := by
  have := h.issued
  have := h.notExpired
  have := h.short
  have := h'.issued
  have := h'.notExpired
  rw [abs_lt, second] at *
  constructor <;> omega

/-- **One signature, one message**: what unforgeable signatures rule out. -/
def SignsOneMessage (P : Primitives) : Prop :=
  ∀ pub m m' sig, P.ed25519Verify pub m sig = true → P.ed25519Verify pub m' sig = true → m = m'

theorem signsOneMessage_transparent : SignsOneMessage .transparent := by
  intro pub m m' sig h h'
  exact List.append_cancel_left ((of_decide_eq_true h).symm.trans (of_decide_eq_true h'))

theorem kind_of_signedBytes {kind' : ControlKind} {f' : ControlFrame kind'}
    (h : signedBytes kind.type f.fields = signedBytes kind'.type f'.fields) : kind = kind' := by
  have hnul : ∀ kind : ControlKind, 0 ∉ kind.type := fun kind => by cases kind <;> decide
  have htype := (signedBytes_binds (hnul kind) (hnul kind') f.strict_fields f'.strict_fields h).1
  cases kind <;> cases kind' <;> first | rfl | exact absurd htype (by decide)

/-- **The window of control frames.** What a device makes is accepted from five seconds before the
second its clock showed until half a minute after; two times at which a frame is accepted, whoever
made it, are less than 35 seconds apart; and a frame is never accepted as one of another kind,
neither as it is nor with its signature put into a frame of that kind. -/
theorem control_window (hs : P.SignsVerifiably) (hone : SignsOneMessage P) :
    (∀ (kind : ControlKind) (dev : Device) (pub : Ed25519PublicKey), KeyPair P dev.priv pub →
      decodeBase64URL dev.identity.publicKey.pub = .ok pub.key →
      ∀ (rand : ControlNonce) (id peerDeviceID relayID cause : Str) (c v : Time)
        (frame : ControlFrame kind),
      createFrame P kind dev rand id peerDeviceID relayID cause c = .ok frame →
      (verifyFrame P frame dev.identity ⟨peerDeviceID, dev.identity.domainID, relayID, v⟩ = .ok () ↔
        floorSecond c - 5 * second ≤ v.unixNano ∧ v.unixNano < floorSecond c + 30 * second)) ∧
    (∀ (kind : ControlKind) (frame : ControlFrame kind) (sender sender' : DeviceIdentity)
      (opts opts' : ReopenVerifyOptions), verifyFrame P frame sender opts = .ok () →
      verifyFrame P frame sender' opts' = .ok () →
      |opts.now.unixNano - opts'.now.unixNano| < 35 * second) ∧
    ∀ (kind kind' : ControlKind), kind ≠ kind' → ∀ (frame : ControlFrame kind)
      (frame' : ControlFrame kind') (sender sender' : DeviceIdentity)
      (opts opts' : ReopenVerifyOptions), verifyFrame P frame sender opts = .ok () →
      verifyFrame P frame' sender' opts' = .ok () →
      frame.type ≠ frame'.type ∧ (sender.publicKey.pub = sender'.publicKey.pub →
        decodeBase64URL frame.signature.value ≠ decodeBase64URL frame'.signature.value) := by
  refine ⟨fun kind dev pub hkey hpub rand id peerDeviceID relayID cause c v frame hcreate => ?_,
    fun kind frame sender sender' opts opts' h h' => ?_,
    fun kind kind' hne frame frame' sender sender' opts opts' h h' => ⟨fun htype => ?_,
      fun hpub hsig => ?_⟩⟩
  · rw [verifyFrame_eq_ok]
    exact (createFrame_eq_ok hcreate).verified_iff hs hkey hpub v
  · exact (verifyFrame_eq_ok.mp h).window.close_together (verifyFrame_eq_ok.mp h').window
  · have hkinds : kind.type = kind'.type :=
      (verifyFrame_eq_ok.mp h).type.symm.trans (htype.trans (verifyFrame_eq_ok.mp h').type)
    cases kind <;> cases kind' <;> first | exact hne rfl | exact absurd hkinds (by decide)
  · obtain ⟨pub, sig, hkey, hvalue, hverify⟩ := (verifyFrame_eq_ok.mp h).signed
    obtain ⟨pub', sig', hkey', hvalue', hverify'⟩ := (verifyFrame_eq_ok.mp h').signed
    rw [← hpub, hkey, Except.ok.injEq] at hkey'
    rw [← hsig, hvalue, Except.ok.injEq] at hvalue'
    obtain rfl : pub = pub' := Ed25519PublicKey.ext hkey'
    obtain rfl := hvalue'
    exact hne (kind_of_signedBytes (hone pub.key _ _ sig hverify hverify'))

/-- A frame is accepted when it is made. -/
theorem control_window_now : ∃ (dev : Device) (frame : Reopen),
    createReopen .transparent dev ⟨List.replicate 16 0, List.length_replicate⟩ (lit "r") (lit "b")
      (lit "relay") (lit "runtime_started") ⟨0, 0⟩ = .ok frame ∧
    verifyReopen .transparent frame dev.identity
      ⟨lit "b", dev.identity.domainID, lit "relay", ⟨0, 0⟩⟩ = .ok () := by
  obtain ⟨⟨priv, pub⟩, hkeys⟩ : ∃ keys, generateIdentityKey .transparent
      (some ⟨List.replicate 32 0, List.length_replicate⟩) = .ok keys := ⟨_, rfl⟩
  let dev : Device := ⟨⟨typeDeviceIdentity, lit "lab", lit "a",
    ⟨lit "Ed25519", lit "identity-signature", [], base64URL pub.key⟩, ⟨0, 0⟩, []⟩, priv⟩
  obtain ⟨frame, hframe⟩ : ∃ frame, createFrame .transparent .reopen dev
      ⟨List.replicate 16 0, List.length_replicate⟩ (lit "r") (lit "b") (lit "relay")
      (lit "runtime_started") ⟨0, 0⟩ = .ok frame := by
    simp only [createFrame, bind_eq_ok_iff, failIf_eq_ok_iff, exists_const, controlInput_eq_ok]
    exact ⟨_, by decide, _, ⟨by decide, rfl⟩, rfl⟩
  have hwindow := (control_window Primitives.signsVerifiably_transparent
    signsOneMessage_transparent).1 .reopen dev pub (keyPair_of_generate _ hkeys)
    (decodeBase64URL_base64URL _) _ _ _ _ _ ⟨0, 0⟩ ⟨0, 0⟩ frame hframe
  exact ⟨dev, frame, hframe, hwindow.mpr (by decide)⟩

end Session

end Iscp
