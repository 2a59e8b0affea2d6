import Iscp.Signed.Kinds

/-!
# Signatures that survive

The ten signed types together: what their signing functions make and what their verifiers accept.

A signature survives being written and read just if the times of the struct show their zones
(`Iscp.Kind.survives_iff`). Six of the ten signing functions put a time in UTC into the struct, or
none. The other four sign the times they are given, with the zones they are in. An offset with less
than a minute in it, as local mean times have, is then signed as `+00:00` and verified as `Z`.
-/

namespace Iscp

open Go Go.Json Crypto Canonical Identity

/-- **The signed types.** -/
inductive Kind where
  | deviceProof
  | grant
  | pairingTicket
  | pairingTicketV3
  | bundle
  | hello
  | ready
  | reopen
  | close
  | signedDescriptor
  deriving DecidableEq

namespace Kind

/-- The documents of a kind. -/
def Object : Kind → Type
  | deviceProof => DeviceProof
  | grant => Trust.Grant
  | pairingTicket => Provisioning.PairingTicket
  | pairingTicketV3 => Provisioning.PairingTicketV3
  | bundle => Provisioning.Bundle
  | hello => Session.Hello
  | ready => Session.Ready
  | reopen => Session.Reopen
  | close => Session.Close
  | signedDescriptor => Descriptor.SignedDescriptor

/-- How it is written, read and signed. -/
def signedType : (kind : Kind) → SignedType kind.Object
  | deviceProof => Identity.deviceProof
  | grant => Trust.grant
  | pairingTicket => Provisioning.pairingTicket
  | pairingTicketV3 => Provisioning.pairingTicketV3
  | bundle => Provisioning.bundle
  | hello => Session.hello
  | ready => Session.ready
  | reopen => Session.controlFrame .reopen
  | close => Session.controlFrame .close
  | signedDescriptor => Descriptor.signedDescriptor

/-- The times in a document. -/
def times : (kind : Kind) → kind.Object → List Time
  | deviceProof, x => [x.issuedAt]
  | grant, x => [x.notBefore, x.expiresAt]
  | pairingTicket, x => [x.issuedAt, x.expiresAt]
  | pairingTicketV3, x => [x.issuedAt, x.expiresAt]
  | bundle, x => [x.issuedAt, x.expiresAt]
  | hello, x => [x.issuedAt]
  | ready, _ => []
  | reopen, x => [x.issuedAt, x.expiresAt]
  | close, x => [x.issuedAt, x.expiresAt]
  | signedDescriptor, x => [x.signedAt]

section

variable (compact : Bytes → Option Bytes) (P : Primitives)

/-- **What the signing functions make.** -/
def Signs (signer : Device) : (kind : Kind) → kind.Object → Prop
  | deviceProof, x => ∃ audience challenge nonce now,
      signer.createProof P audience challenge nonce now = .ok x
  | grant, x => ∃ g, Trust.signGrant P signer g = .ok x
  | pairingTicket, x => ∃ t, Provisioning.signTicket P signer t = .ok x
  | pairingTicketV3, x => ∃ t, Provisioning.signTicketV3 P signer t = .ok x
  | bundle, x => ∃ b, Provisioning.signBundle compact P signer b = .ok x
  | hello, x => ∃ rand sessionID peerDeviceID grantID now priv,
      Session.createHello P signer rand sessionID peerDeviceID grantID now = .ok ⟨x, priv⟩
  | ready, x => ∃ st : Session.State, st.createReady P signer = .ok x
  | reopen, x => ∃ rand id peerDeviceID relayID cause now,
      Session.createReopen P signer rand id peerDeviceID relayID cause now = .ok x
  | close, x => ∃ rand id peerDeviceID relayID cause now,
      Session.createClose P signer rand id peerDeviceID relayID cause now = .ok x
  | signedDescriptor, x => ∃ descriptorType raw now,
      Descriptor.sign compact P signer descriptorType raw now = .ok x

/-- **What the verifiers accept**, with some expectation and at some time. Of descriptors those are
meant that have a signature at all. -/
def Accepts (signer : DeviceIdentity) : (kind : Kind) → kind.Object → Prop
  | deviceProof, x => ∃ audience challenge now ttl,
      verifyProof P signer x audience challenge now ttl = .ok ()
  | grant, x => ∃ opts, Trust.verifyGrant P x signer opts = .ok ()
  | pairingTicket, x => ∃ now, Provisioning.verifyTicket P x signer now = .ok ()
  | pairingTicketV3, x => ∃ now, Provisioning.verifyTicketV3 P x signer now = .ok ()
  | bundle, x => ∃ channel loc now,
      Provisioning.applyBundle compact P channel loc x signer now = .ok ()
  | hello, x => Session.verifyHello P x signer = .ok ()
  | ready, x => ∃ st st' : Session.State, st.verifyReady P x signer = .ok st'
  | reopen, x => ∃ opts, Session.verifyReopen P x signer opts = .ok ()
  | close, x => ∃ opts, Session.verifyClose P x signer opts = .ok ()
  | signedDescriptor, x => x.signature.value ≠ [] ∧ ∃ gate now,
      Descriptor.verify compact P x signer gate now = .ok ()

end

variable {compact : Bytes → Option Bytes} {P : Primitives}

variable {signer : Device} {kind : Kind}

/-- **A signing function signs the input of the struct without its signature.** -/
theorem signedBy_of_signs (kind : Kind) {x : kind.Object} (h : kind.Signs compact P signer x) :
    kind.signedType.SignedBy compact P signer x := by
  cases kind with
  | deviceProof =>
    obtain ⟨audience, challenge, nonce, now, h⟩ := h
    obtain ⟨input, hinput, ⟨⟩⟩ := bind_eq_ok_iff.mp h
    exact ⟨input, hinput, rfl⟩
  | grant | pairingTicket | pairingTicketV3 | bundle | ready =>
    obtain ⟨given, h⟩ := h
    obtain ⟨input, hinput, ⟨⟩⟩ := bind_eq_ok_iff.mp h
    exact ⟨input, hinput, rfl⟩
  | hello =>
    obtain ⟨rand, sessionID, peerDeviceID, grantID, now, priv, h⟩ := h
    obtain ⟨keys, -, h⟩ := bind_eq_ok_iff.mp h
    obtain ⟨input, hinput, ⟨⟩⟩ := bind_eq_ok_iff.mp h
    exact ⟨input, hinput, rfl⟩
  | reopen | close =>
    obtain ⟨rand, id, peerDeviceID, relayID, cause, now, h⟩ := h
    obtain ⟨_, -, h⟩ := bind_eq_ok_iff.mp h
    obtain ⟨input, hinput, ⟨⟩⟩ := bind_eq_ok_iff.mp h
    exact ⟨input, hinput, rfl⟩
  | signedDescriptor =>
    obtain ⟨descriptorType, raw, now, h⟩ := h
    obtain ⟨input, hinput, ⟨⟩⟩ := bind_eq_ok_iff.mp h
    exact ⟨input, hinput, rfl⟩

/-- **A verifier that accepts has passed the signature step.** -/
theorem passes_of_accepts (kind : Kind) {signer : DeviceIdentity} {x : kind.Object}
    (h : kind.Accepts compact P signer x) : kind.signedType.Passes compact P signer x := by
  cases kind with
  | deviceProof =>
    obtain ⟨audience, challenge, now, ttl, h⟩ := h
    simp only [verifyProof, bind_eq_ok_iff, failIf_eq_ok_iff, Bool.not_eq_false,
      ed25519PublicKeyFromBytes_eq_ok] at h
    obtain ⟨-, -, -, -, -, -, -, -, _, hpub, -, -, -, -, pub, rfl, sig, hsig, input, hinput,
      hverify⟩ := h
    exact ⟨pub, sig, input, hpub, hsig, hinput, hverify⟩
  | grant =>
    obtain ⟨opts, h⟩ := h
    iterate 8 obtain ⟨_, -, h⟩ := bind_eq_ok_iff.mp h
    exact (SignedType.signatureStep_eq_ok _).mp h
  | pairingTicket =>
    obtain ⟨now, h⟩ := h
    iterate 2 obtain ⟨_, -, h⟩ := bind_eq_ok_iff.mp h
    exact (SignedType.signatureStep_eq_ok _).mp h
  | pairingTicketV3 =>
    obtain ⟨now, h⟩ := h
    iterate 7 obtain ⟨_, -, h⟩ := bind_eq_ok_iff.mp h
    exact (SignedType.signatureStep_eq_ok _).mp h
  | bundle =>
    obtain ⟨channel, loc, now, h⟩ := h
    iterate 5 obtain ⟨_, -, h⟩ := bind_eq_ok_iff.mp h
    exact (SignedType.signatureStep_eq_ok _).mp h
  | hello =>
    change Session.verifyHello _ _ _ = _ at h
    iterate 3 obtain ⟨_, -, h⟩ := bind_eq_ok_iff.mp h
    exact (SignedType.signatureStep_eq_ok _).mp h
  | ready =>
    obtain ⟨st, st', h⟩ := h
    simp only [Session.State.verifyReady, bind_eq_ok_iff, failIf_eq_ok_iff, Bool.not_eq_false,
      ed25519PublicKeyFromBytes_eq_ok] at h
    obtain ⟨-, -, _, -, -, -, _, -, -, -, _, hpub, pub, rfl, sig, hsig, input, hinput, -, hverify,
      -⟩ := h
    exact ⟨pub, sig, input, hpub, hsig, hinput, hverify⟩
  | reopen | close =>
    obtain ⟨opts, h⟩ := h
    iterate 8 obtain ⟨_, -, h⟩ := bind_eq_ok_iff.mp h
    exact (SignedType.signatureStep_eq_ok _).mp h
  | signedDescriptor =>
    obtain ⟨hvalue, gate, now, h⟩ := h
    obtain ⟨-, ⟨hnil, -⟩ | ⟨hsigned, -⟩⟩ := Descriptor.verify_eq_ok.mp h
    · exact absurd hnil hvalue
    · exact hsigned.verified

/-- **What passes with the signature of a struct has its signature input.** -/
theorem input_eq_of_passes (hs : P.SignsVerifiably) (hone : Session.SignsOneMessage P) {α β : Type}
    {K : SignedType α} {K' : SignedType β} (hsigner : Made P signer) {x : α}
    (hx : K.SignedBy compact P signer x) {y : β}
    (hvalue : (K'.signature y).value = (K.signature x).value)
    (hy : K'.Passes compact P signer.identity y) :
    ∃ input, K.input compact (K.unsigned x) = .ok input ∧
      K'.input compact (K'.unsigned y) = .ok input := by
  obtain ⟨input, hinput, hsigned⟩ := hx
  obtain ⟨pub, sig, input', hpub, hsig, hinput', hverify⟩ := hy
  have hkey := Except.ok.inj (hpub.symm.trans hsigner.decode_pub)
  rw [hvalue, hsigned, decodeBase64URL_base64URL] at hsig
  cases hsig
  have hverify' := hsigner.verify_sign hs input
  rw [verify, ← hkey] at hverify'
  obtain rfl := hone _ _ _ _ hverify hverify'
  exact ⟨input', hinput, hinput'⟩

theorem showsZones_iff (kind : Kind) {x : kind.Object} :
    kind.signedType.ShowsZones x ↔ ∀ t ∈ kind.times x, t.ShowsZone := by
  cases kind <;>
    simp [SignedType.ShowsZones, signedType, times, ShowsZone, Identity.deviceProof,
      DeviceProof.body, Trust.grant, Trust.Grant.body, Provisioning.pairingTicket,
      Provisioning.PairingTicket.body, Provisioning.pairingTicketV3,
      Provisioning.PairingTicketV3.body, Provisioning.bundle, Provisioning.Bundle.body,
      Session.hello, Session.Hello.body, Session.ready, Session.Ready.body, Session.controlFrame,
      Session.ControlFrame.body, Descriptor.signedDescriptor, Descriptor.SignedDescriptor.body]

/-- **The signature of a struct survives just if the times of the struct show their zones**, and it
binds every field. -/
theorem survives_iff (hc : Compacts compact) (hs : P.SignsVerifiably) (kind : Kind)
    {signer : Device} (hsigner : Made P signer) {x : kind.Object}
    (hx : kind.Signs compact P signer x) :
    (kind.signedType.Survives compact P signer.identity x ↔ ∀ t ∈ kind.times x, t.ShowsZone) ∧
      kind.signedType.Binds compact := by
  rw [← showsZones_iff kind]
  exact ⟨(signedBy_of_signs kind hx).survives_iff_body hc hs hsigner, SignedType.binds hc⟩

/-- A grant for a second, in a zone. -/
def exampleGrant (zone : ℤ) : Trust.Grant where
  type := []
  grantID := lit "g"
  issuer := []
  subjectDeviceID := lit "a"
  audience := lit "b"
  confirmationThumbprint := []
  permissions := some [lit "send"]
  relayConstraints := []
  notBefore := ⟨0, zone⟩
  expiresAt := ⟨second, zone⟩
  revocationEpoch := 0
  signature := noSignature

/-- What a grant is verified with. -/
def exampleOptions : Trust.VerifyOptions where
  audience := lit "b"
  subjectDeviceID := lit "a"
  confirmationThumbprint := []
  permission := lit "send"
  relayID := []
  currentRevocationEpoch := 0
  now := ⟨0, 0⟩

theorem matches_exampleGrant (zone : ℤ) : Trust.Matches (exampleGrant zone) exampleOptions where
  notBefore := le_rfl
  notExpired := show (0 : ℤ) < second by decide
  audience := rfl
  subject := rfl
  confirmation := rfl
  permission := List.mem_singleton.mpr rfl
  relay h := absurd rfl h
  epoch := UInt64.le_refl _

/-- A grant in UTC is verified wherever it has been. -/
theorem survives_iff_utc : ∃ (signer : Device) (g : Trust.Grant),
    Kind.grant.Signs compactProfile .transparent signer g ∧
    Kind.grant.signedType.Survives compactProfile .transparent signer.identity g ∧
    Kind.grant.signedType.Binds compactProfile := by
  obtain ⟨signer, hsigner⟩ := exists_made .transparent
  have hsignable : (exampleGrant 0).Signable := ⟨by decide, by decide, by decide⟩
  obtain ⟨g, hg⟩ := Trust.exists_signGrant (P := .transparent) signer hsignable
  obtain ⟨hsurvives, hbinds⟩ := survives_iff compacts_compactProfile
    Primitives.signsVerifiably_transparent .grant hsigner ⟨exampleGrant 0, hg⟩
  refine ⟨signer, g, ⟨_, hg⟩, hsurvives.mpr ?_, hbinds⟩
  rw [(Trust.signed_of_signGrant hg).2]
  exact List.forall_mem_cons.mpr ⟨Or.inl rfl, List.forall_mem_singleton.mpr (Or.inl rfl)⟩

/-- **A grant in a zone 30 seconds east of UTC** is signed and accepted, and is not accepted any
more once it has been written and read. -/
theorem seconds_are_lost : ∃ (issuer : Device) (g got : Trust.Grant) (opts : Trust.VerifyOptions),
    Made .transparent issuer ∧ Trust.signGrant .transparent issuer (exampleGrant 30) = .ok g ∧
    Trust.verifyGrant .transparent g issuer.identity opts = .ok () ∧
    Trust.grant.transport compactProfile g = some got ∧
    Trust.verifyGrant .transparent got issuer.identity opts ≠ .ok () := by
  obtain ⟨issuer, hissuer⟩ := exists_made .transparent
  have hsignable : (exampleGrant 30).Signable := ⟨by decide, by decide, by decide⟩
  obtain ⟨g, hg⟩ := Trust.exists_signGrant (P := .transparent) issuer hsignable
  obtain ⟨hsigned, hfields⟩ := Trust.signed_of_signGrant hg
  have hs := Primitives.signsVerifiably_transparent
  have hby : Trust.grant.SignedBy compactProfile .transparent issuer g :=
    signedBy_of_signs .grant ⟨exampleGrant 30, hg⟩
  obtain ⟨input, hinput, hvalue⟩ := hby
  obtain ⟨got, hgot, -, hvalue', -⟩ := SignedType.exists_transport compacts_compactProfile hinput
  refine ⟨issuer, g, got, exampleOptions, hissuer, hg, ?_, hgot, fun h => ?_⟩
  · refine (hsigned.verifyGrant_eq_ok hs hissuer.keyPair hissuer.pub_eq).mpr ?_
    rw [hfields]
    exact { matches_exampleGrant 30 with }
  · -- it would have the signature input it had before
    have hpasses : Trust.grant.Passes compactProfile .transparent issuer.identity got :=
      passes_of_accepts .grant ⟨exampleOptions, h⟩
    rw [toUtf8_eq_self (hvalue ▸ utf8_base64URL _)] at hvalue'
    obtain ⟨input', hinput₁, hinput₂⟩ := input_eq_of_passes hs Session.signsOneMessage_transparent
      hissuer ⟨input, hinput, hvalue⟩ hvalue' hpasses
    have hzones := (SignedType.input_transport_iff compacts_compactProfile hinput₁ hgot).mp hinput₂
    have hzone : g.notBefore.ShowsZone :=
      (showsZones_iff .grant).mp hzones _ List.mem_cons_self
    rw [show g.notBefore = (exampleGrant 30).notBefore by rw [hfields]] at hzone
    exact absurd hzone (by decide)

end Kind

end Iscp
