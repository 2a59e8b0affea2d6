import Iscp.Session.Handshake

/-!
# What the transcript hash binds

Two devices that have established a state with the same transcript hash have seen the same
two hellos – as far as JSON shows them. The argument goes back from the hash to the
document, from the document to the two hellos in it, and from the order they stand in to
which device made which: `Iscp.Session.hellos_crossed`. The rest of the state follows, since
all of it is derived from the hellos: `Iscp.Session.Established.crossed`.

Local text may be any byte string. What comes over the wire has been decoded from JSON, and
is UTF-8 (`Iscp.Session.Hello.Utf8`); a state is established only where local text and text
from the wire agree, so that what the document says about the session is UTF-8 as well.
-/

namespace Iscp

namespace Session

open Go Go.Json Crypto Canonical Identity

/-- A hello as it comes over the wire: all of its text is UTF-8. -/
structure Hello.Utf8 (h : Hello) : Prop where
  type : Go.Utf8 h.type
  sessionID : Go.Utf8 h.sessionID
  domainID : Go.Utf8 h.domainID
  deviceID : Go.Utf8 h.deviceID
  peerDeviceID : Go.Utf8 h.peerDeviceID
  ciphersuite : Go.Utf8 h.ciphersuite
  ephemeralPublicKey : Go.Utf8 h.ephemeralPublicKey
  grantID : Go.Utf8 h.grantID
  alg : Go.Utf8 h.signature.alg
  kid : Go.Utf8 h.signature.kid
  value : Go.Utf8 h.signature.value

/-- A ready message as it comes over the wire: all of its text is UTF-8. -/
structure Ready.Utf8 (r : Ready) : Prop where
  type : Go.Utf8 r.type
  sessionID : Go.Utf8 r.sessionID
  deviceID : Go.Utf8 r.deviceID
  transcriptHash : Go.Utf8 r.transcriptHash
  readyMAC : Go.Utf8 r.readyMAC
  alg : Go.Utf8 r.signature.alg
  kid : Go.Utf8 r.signature.kid
  value : Go.Utf8 r.signature.value

/-! ### Hellos that look alike -/

/-- **Two hellos look alike** when their JSON reads the same. -/
def Alike (h h' : Hello) : Prop := Same (mustJSONMap h) (mustJSONMap h')

/-- What hellos that look alike have in common. -/
structure SameText (h h' : Hello) : Prop where
  sessionID : toUtf8 h.sessionID = toUtf8 h'.sessionID
  domainID : toUtf8 h.domainID = toUtf8 h'.domainID
  deviceID : toUtf8 h.deviceID = toUtf8 h'.deviceID
  ephemeralPublicKey : toUtf8 h.ephemeralPublicKey = toUtf8 h'.ephemeralPublicKey

variable {h' a b : Hello} {aID bID : DeviceIdentity}

theorem Alike.sameText {h : Hello} (ha : Alike h h') (hm : h.issuedAt.Marshals)
    (hm' : h'.issuedAt.Marshals) : SameText h h' := by
  rw [Alike, mustJSONMap, mustJSONMap, if_pos hm, if_pos hm', toUtf8_ofFields,
    toUtf8_ofFields] at ha
  have hfield : ∀ {name : String} {a b : Str}, (name, .str a) ∈ h.fields →
      (name, .str b) ∈ h'.fields → toUtf8 a = toUtf8 b := fun hv hw =>
    ha.member (uniqueKeys_repaired (by simp [Hello.fields])) (mem_repaired hv) (mem_repaired hw)
  refine ⟨?_, ?_, ?_, ?_⟩
  · exact @hfield "session_id" _ _ (by simp [Hello.fields]) (by simp [Hello.fields])
  · exact @hfield "domain_id" _ _ (by simp [Hello.fields]) (by simp [Hello.fields])
  · exact @hfield "device_id" _ _ (by simp [Hello.fields]) (by simp [Hello.fields])
  · exact @hfield "ephemeral_public_key" _ _ (by simp [Hello.fields]) (by simp [Hello.fields])

theorem strict_mustJSONMap (h : Hello) : Strict (mustJSONMap h) := by
  rw [mustJSONMap]
  split_ifs
  · exact h.strict_fields
  · exact .obj List.nodup_nil nofun nofun

theorem Alike.symm {h : Hello} (ha : Alike h h') : Alike h' h := by
  have hs := strict_mustJSONMap h
  have hs' := strict_mustJSONMap h'
  exact (sorted_eq_iff hs' hs).mp ((sorted_eq_iff hs hs').mpr ha).symm

/-! ### The document -/

variable {P : Primitives}

theorem utf8_mustThumbprint (id : DeviceIdentity) : Go.Utf8 (mustThumbprint P id) := by
  rw [mustThumbprint]
  split
  · next tp htp =>
    simp only [Identity.thumbprint, bind_eq_ok_iff] at htp
    obtain ⟨pub, -, htp⟩ := htp
    exact Except.ok.inj htp ▸ utf8_base64URL _
  · exact utf8_encode []

theorem sortPair_cases {α : Type} (key : α → Str) (a b : α) :
    sortPair key a b = (a, b) ∨ sortPair key a b = (b, a) := by
  rw [sortPair]
  split_ifs
  · exact Or.inr rfl
  · exact Or.inl rfl

theorem strict_transcript (hs : Go.Utf8 a.sessionID) (hd : Go.Utf8 a.domainID)
    (haID : Go.Utf8 aID.deviceID) (hbID : Go.Utf8 bID.deviceID) :
    Strict (transcript P a b aID bID) := by
  have hids : Go.Utf8 (sortPair DeviceIdentity.deviceID aID bID).1.deviceID ∧
      Go.Utf8 (sortPair DeviceIdentity.deviceID aID bID).2.deviceID := by
    rcases sortPair_cases DeviceIdentity.deviceID aID bID with h | h <;> rw [h]
    · exact ⟨haID, hbID⟩
    · exact ⟨hbID, haID⟩
  refine strict_ofFields (by simp) ?_
  simp only [List.forall_mem_cons, List.not_mem_nil, false_imp_iff, implies_true, and_true]
  exact ⟨.str (utf8_lit _), .str hs, .str hd, .str (utf8_lit _), strict_mustJSONMap _,
    strict_mustJSONMap _, .str hids.1, .str hids.2, .str (utf8_mustThumbprint _),
    .str (utf8_mustThumbprint _)⟩

/-- **The document binds both hellos**, in their order. -/
theorem alike_of_transcript_eq {a' b' : Hello} {aID' bID' : DeviceIdentity}
    (hs : Strict (transcript P a b aID bID)) (hs' : Strict (transcript P a' b' aID' bID'))
    (h : writeCanonical (transcript P a b aID bID) =
      writeCanonical (transcript P a' b' aID' bID')) :
    Alike (sortPair Hello.deviceID a b).1 (sortPair Hello.deviceID a' b').1 ∧
      Alike (sortPair Hello.deviceID a b).2 (sortPair Hello.deviceID a' b').2 := by
  rw [writeCanonical_eq_iff hs hs'] at h
  obtain _ | _ | _ | _ | _ | ⟨hkeys, -, -⟩ := hs'
  refine ⟨h.member hkeys (k := lit "hello_a") ?_ ?_, h.member hkeys (k := lit "hello_b") ?_ ?_⟩
  all_goals simp

/-! ### Which hello is whose -/

theorem lt_of_not_lt_of_ne {a b : Str} (h : ¬a < b) (hne : a ≠ b) : b < a := by
  by_contra hc
  exact hne (List.le_antisymm (List.not_lt.mp hc) (List.not_lt.mp h))

theorem directionLabels_swap {a b : Str} (h : a ≠ b) :
    directionLabels b a = (directionLabels a b).swap := by
  rw [directionLabels, directionLabels]
  by_cases hab : a < b
  · rw [if_pos hab, if_neg (List.not_lt.mpr (List.le_of_lt hab))]
    rfl
  · rw [if_neg hab, if_pos (lt_of_not_lt_of_ne hab h)]
    rfl

/-- **The hellos are crossed.** Of two pairs of hellos that look alike in their order, in
which the first of the second pair carries the identifier of the second of the first pair,
and the first pair carries two identifiers, the first of either looks like the second of
the other. -/
theorem hellos_crossed {a' b' : Hello}
    (h1 : Alike (sortPair Hello.deviceID a b).1 (sortPair Hello.deviceID a' b').1)
    (h2 : Alike (sortPair Hello.deviceID a b).2 (sortPair Hello.deviceID a' b').2)
    (hkey : ∀ x ∈ [a, b], ∀ y ∈ [a', b'], Alike x y → x.deviceID = y.deviceID)
    (hne : a.deviceID ≠ b.deviceID) (hb : a'.deviceID = b.deviceID) : Alike b a' ∧ Alike a b' := by
  rcases sortPair_cases Hello.deviceID a b with hs | hs <;>
    rcases sortPair_cases Hello.deviceID a' b' with hs' | hs' <;>
    rw [hs, hs'] at h1 h2
  · have := hkey a (by simp) a' (by simp) h1
    exact absurd (this.trans hb) hne
  · exact ⟨h2, h1⟩
  · exact ⟨h1, h2⟩
  · have := hkey a (by simp) a' (by simp) h2
    exact absurd (this.trans hb) hne

section Crossed

variable {dev dev' : Device} {loc loc' : LocalHello} {remote remote' : Hello}
  {remoteID remoteID' : DeviceIdentity} {s s' : State}

theorem Established.utf8_local {localID : DeviceIdentity}
    (he : Established P loc remote localID remoteID s) (hu : remote.Utf8) :
    Go.Utf8 loc.hello.sessionID ∧ Go.Utf8 loc.hello.domainID ∧ Go.Utf8 loc.hello.deviceID :=
  ⟨he.sameSession ▸ hu.sessionID, he.sameDomain ▸ hu.domainID, he.namedByPeer ▸ hu.peerDeviceID⟩

theorem Established.strict_transcript (hc : HelloCreated P dev loc)
    (he : Established P loc remote dev.identity remoteID s) (hu : remote.Utf8) :
    Strict (transcript P loc.hello remote dev.identity remoteID) := by
  obtain ⟨hs, hd, hdev⟩ := he.utf8_local hu
  exact Session.strict_transcript hs hd (hc.deviceID ▸ hdev) (he.verified.deviceID ▸ hu.deviceID)

/-- Sessions with the same transcript hash were established on the same two hellos. -/
theorem Established.sameText (hsha : Function.Injective P.sha256)
    (hc : HelloCreated P dev loc) (hc' : HelloCreated P dev' loc')
    (he : Established P loc remote dev.identity remoteID s)
    (he' : Established P loc' remote' dev'.identity remoteID' s')
    (hu : remote.Utf8) (hu' : remote'.Utf8) (hne : loc.hello.deviceID ≠ remote.deviceID)
    (hpeer : loc'.hello.deviceID = remote.deviceID) (hth : s.transcriptHash = s'.transcriptHash) :
    SameText remote loc'.hello ∧ SameText loc.hello remote' := by
  rw [he.hash, he'.hash] at hth
  obtain ⟨h1, h2⟩ := alike_of_transcript_eq (he.strict_transcript hc hu)
    (he'.strict_transcript hc' hu') (hsha hth)
  obtain ⟨-, -, hdev⟩ := he.utf8_local hu
  obtain ⟨-, -, hdev'⟩ := he'.utf8_local hu'
  have hmarshals : ∀ x ∈ [loc.hello, remote], x.issuedAt.Marshals ∧ Go.Utf8 x.deviceID := by
    simp [hc.marshals, he.verified.marshals, hdev, hu.deviceID]
  have hmarshals' : ∀ x ∈ [loc'.hello, remote'], x.issuedAt.Marshals ∧ Go.Utf8 x.deviceID := by
    simp [hc'.marshals, he'.verified.marshals, hdev', hu'.deviceID]
  -- hellos that look alike carry one identifier, since both identifiers are UTF-8
  have hkey : ∀ x ∈ [loc.hello, remote], ∀ y ∈ [loc'.hello, remote'], Alike x y →
      x.deviceID = y.deviceID := by
    intro x hx y hy hxy
    obtain ⟨hmx, hux⟩ := hmarshals x hx
    obtain ⟨hmy, huy⟩ := hmarshals' y hy
    have := (hxy.sameText hmx hmy).deviceID
    rwa [toUtf8_eq_self hux, toUtf8_eq_self huy] at this
  obtain ⟨hx, hy⟩ := hellos_crossed h1 h2 hkey hne hpeer
  exact ⟨hx.sameText he.verified.marshals hc'.marshals,
    hy.sameText hc.marshals he'.verified.marshals⟩

theorem decode_ephemeral {h : Hello} (hst : SameText h h') (hu : h.Utf8)
    {pub rpub : X25519PublicKey} (hp : h'.ephemeralPublicKey = base64URL pub.key)
    (hr : decodeBase64URL h.ephemeralPublicKey = .ok rpub.key) : rpub = pub := by
  have := hst.ephemeralPublicKey
  rw [hp, toUtf8_eq_self hu.ephemeralPublicKey, toUtf8_eq_self (utf8_base64URL pub.key)] at this
  rw [this, decodeBase64URL_base64URL] at hr
  exact (X25519PublicKey.ext (Except.ok.inj hr)).symm

theorem SameText.symm {h : Hello} (hst : SameText h h') : SameText h' h :=
  ⟨hst.sessionID.symm, hst.domainID.symm, hst.deviceID.symm, hst.ephemeralPublicKey.symm⟩

/-- What two states of one session have to do with each other. -/
structure Crossed (s s' : State) : Prop where
  sessionID : s'.sessionID = s.sessionID
  domainID : s'.domainID = s.domainID
  localDeviceID : s'.localDeviceID = s.peerDeviceID
  peerDeviceID : s'.peerDeviceID = s.localDeviceID
  transcriptHash : s'.transcriptHash = s.transcriptHash
  sendKey : s'.sendKey = s.receiveKey
  receiveKey : s'.receiveKey = s.sendKey
  readyKey : s'.readyKey = s.readyKey

/-- **States with one transcript hash are the two sides of one session.** -/
theorem Established.crossed (hsha : Function.Injective P.sha256) (hx : P.X25519Commutes)
    (hc : HelloCreated P dev loc) (hc' : HelloCreated P dev' loc')
    (he : Established P loc remote dev.identity remoteID s)
    (he' : Established P loc' remote' dev'.identity remoteID' s')
    (hu : remote.Utf8) (hu' : remote'.Utf8) (hne : loc.hello.deviceID ≠ remote.deviceID)
    (hpeer : loc'.hello.deviceID = remote.deviceID) (hth : s.transcriptHash = s'.transcriptHash) :
    Crossed s s' := by
  obtain ⟨hst, hst'⟩ := he.sameText hsha hc hc' he' hu hu' hne hpeer hth
  obtain ⟨hus, hud, hudev⟩ := he.utf8_local hu
  have hsession : loc.hello.sessionID = remote'.sessionID := by
    have := hst'.sessionID
    rwa [toUtf8_eq_self hus, toUtf8_eq_self hu'.sessionID] at this
  have hdomain : loc.hello.domainID = remote'.domainID := by
    have := hst'.domainID
    rwa [toUtf8_eq_self hud, toUtf8_eq_self hu'.domainID] at this
  have hdevice : loc.hello.deviceID = remote'.deviceID := by
    have := hst'.deviceID
    rwa [toUtf8_eq_self hudev, toUtf8_eq_self hu'.deviceID] at this
  -- the two secrets are the two sides of one agreement
  obtain ⟨pub, hpub, heph⟩ := hc.ephemeral
  obtain ⟨pub', hpub', heph'⟩ := hc'.ephemeral
  obtain ⟨rpub, secret, hrpub, hsecret, hsend, hrecv, hrdy⟩ := he.keys
  obtain ⟨rpub', secret', hrpub', hsecret', hsend', hrecv', hrdy'⟩ := he'.keys
  obtain rfl := decode_ephemeral hst hu heph' hrpub
  obtain rfl := decode_ephemeral hst'.symm hu' heph hrpub'
  obtain rfl : secret = secret' := by
    rw [hx _ _ _ _ hpub hpub', hsecret'] at hsecret
    exact (Option.some.inj hsecret).symm
  rw [← hth] at hsend' hrecv' hrdy'
  rw [hpeer, ← hdevice, directionLabels_swap hne] at hsend' hrecv'
  exact {
    sessionID := by rw [he'.sessionID, he'.sameSession, he.sessionID, hsession]
    domainID := by rw [he'.domainID, he'.sameDomain, he.domainID, hdomain]
    localDeviceID := by rw [he'.localDeviceID, hpeer, he.peerDeviceID]
    peerDeviceID := by rw [he'.peerDeviceID, ← hdevice, he.localDeviceID]
    transcriptHash := hth.symm
    sendKey := Option.some.inj (hsend'.symm.trans hrecv)
    receiveKey := Option.some.inj (hrecv'.symm.trans hsend)
    readyKey := Option.some.inj (hrdy'.symm.trans hrdy) }

end Crossed

end Session

end Iscp
