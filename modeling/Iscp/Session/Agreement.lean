import Iscp.Session.Transcript

/-!
# Agreement

What `Iscp.Session.Established.crossed` assumes does happen: two devices that have made
hellos for each other, and hand them over unchanged, establish the two sides of one session,
and accept each other's ready messages. This is the converse of the checks: every one of
them passes on what the other side has made.
-/

namespace Iscp

namespace Session

open Go Crypto Canonical Identity

variable {P : Primitives} {dev dev' : Device} {loc loc' : LocalHello}

theorem HelloCreated.verified (hs : P.SignsVerifiably) (hm : Made P dev)
    (hc : HelloCreated P dev loc) : HelloVerified P loc.hello dev.identity where
  type := hc.type
  deviceID := hc.deviceID
  domainID := hc.domainID
  ciphersuite := hc.ciphersuite
  marshals := hc.marshals
  signed := ⟨publicKey dev.priv, _, hm.decode_pub, by rw [hc.signed, decodeBase64URL_base64URL],
    hm.verify_sign hs _⟩

theorem exists_createHello (dev : Device) (seed : Seed) (sessionID peer grant : Str) (now : Time)
    (hx : (P.x25519 (clamp seed).key P.basepoint).isSome) (hn : now.utc.Marshals) :
    ∃ lh, createHello P dev (some seed) sessionID peer grant now = .ok lh ∧
      lh.hello.sessionID = sessionID ∧ lh.hello.peerDeviceID = peer := by
  obtain ⟨pub, hpub⟩ := Option.isSome_iff_exists.mp hx
  have hkey : generateSessionKey P (some seed) = .ok (clamp seed, ⟨pub, P.x25519_size hpub⟩) := by
    rw [generateSessionKey]
    split
    · next hnone => cases hnone.symm.trans hpub
    · next pub' hpub' =>
      obtain rfl := Option.some.inj (hpub'.symm.trans hpub)
      rfl
  unfold createHello
  exact ⟨_, bind_eq_ok_iff.mpr ⟨_, hkey, bind_eq_ok_iff.mpr
    ⟨_, helloInput_eq_ok.mpr ⟨hn, rfl⟩, rfl⟩⟩, rfl, rfl⟩

variable {sessionID grant peer : Str} {now : Time} {rand : Option Seed} {s : State}
  {remoteID localID : DeviceIdentity} {remote : Hello}

theorem sessionID_of_createHello (h : createHello P dev rand sessionID peer grant now = .ok loc) :
    loc.hello.sessionID = sessionID ∧ loc.hello.peerDeviceID = peer := by
  simp only [createHello, bind_eq_ok_iff] at h
  obtain ⟨_, -, _, -, ⟨⟩⟩ := h
  exact ⟨rfl, rfl⟩

theorem privateKey_of_createHello {seed : Seed}
    (h : createHello P dev (some seed) sessionID peer grant now = .ok loc) :
    loc.privateKey = clamp seed := by
  simp only [createHello, bind_eq_ok_iff] at h
  obtain ⟨⟨priv, pub⟩, hkey, _, -, ⟨⟩⟩ := h
  rw [generateSessionKey] at hkey
  split at hkey
  · cases hkey
  · exact (Prod.mk.inj (Except.ok.inj hkey)).1.symm

theorem utf8_of_createHello (h : createHello P dev rand sessionID peer grant now = .ok loc)
    (hs : Utf8 sessionID) (hp : Utf8 peer) (hg : Utf8 grant) (hdom : Utf8 dev.identity.domainID)
    (hdev : Utf8 dev.identity.deviceID) (hkid : Utf8 dev.identity.publicKey.kid) :
    loc.hello.Utf8 := by
  simp only [createHello, bind_eq_ok_iff] at h
  obtain ⟨_, -, _, -, ⟨⟩⟩ := h
  exact ⟨utf8_lit _, hs, hdom, hdev, hp, utf8_lit _, utf8_base64URL _, hg, utf8_lit _, hkid,
    utf8_base64URL _⟩

/-- The hellos of two devices name each other. -/
structure Paired (a b : Hello) : Prop where
  sessionID : a.sessionID = b.sessionID
  domainID : a.domainID = b.domainID
  names : a.peerDeviceID = b.deviceID
  named : b.peerDeviceID = a.deviceID

theorem Paired.symm {a b : Hello} (h : Paired a b) : Paired b a :=
  ⟨h.sessionID.symm, h.domainID.symm, h.named, h.names⟩

/-- Keys of 32 bytes can be derived from every secret. -/
def Derives (P : Primitives) : Prop := ∀ secret salt info, (P.hkdf secret salt info 32).isSome

/-- **Either side establishes a state**, unless the keys agree on nothing. -/
theorem exists_establish (dev : Device) (hs : P.SignsVerifiably) (hk : Derives P)
    (hm' : Made P dev') (hc' : HelloCreated P dev' loc') (hp : Paired loc.hello loc'.hello)
    (hagree : ∀ pub, P.x25519 loc'.privateKey.key P.basepoint = some pub →
      (P.x25519 loc.privateKey.key pub).isSome) :
    ∃ s, establish P loc loc'.hello dev.identity dev'.identity = .ok s := by
  obtain ⟨pub, hpub, heph⟩ := hc'.ephemeral
  obtain ⟨secret, hsecret⟩ := Option.isSome_iff_exists.mp (hagree _ hpub)
  let th := P.sha256 (writeCanonical (transcript P loc.hello loc'.hello dev.identity dev'.identity))
  let labels := directionLabels loc.hello.deviceID loc'.hello.deviceID
  obtain ⟨okm, hokm⟩ := Option.isSome_iff_exists.mp
    (hk secret th (lit "iscp/v2/session/" ++ labels.1))
  obtain ⟨rkm, hrkm⟩ := Option.isSome_iff_exists.mp
    (hk secret th (lit "iscp/v2/session/" ++ labels.2))
  obtain ⟨rdy, hrdy⟩ := Option.isSome_iff_exists.mp (hk secret th (lit "iscp/v2/session/ready"))
  refine ⟨⟨loc.hello.sessionID, loc.hello.domainID, loc.hello.deviceID, loc'.hello.deviceID, th,
    okm, rkm, rdy, false, 0, []⟩, establish_eq_ok.mpr ⟨?_, rfl, rfl, rfl⟩⟩
  exact {
    sessionID := rfl
    domainID := rfl
    localDeviceID := rfl
    peerDeviceID := rfl
    sameSession := hp.sessionID
    sameDomain := hp.domainID
    namesPeer := hp.names
    namedByPeer := hp.named
    verified := hc'.verified hs hm'
    hash := rfl
    keys := ⟨pub, secret, by rw [heph, decodeBase64URL_base64URL], hsecret, hokm, hrkm, hrdy⟩ }

theorem agree_symm (hx : P.X25519Commutes)
    (h : ∀ pub, P.x25519 loc'.privateKey.key P.basepoint = some pub →
      (P.x25519 loc.privateKey.key pub).isSome)
    (hc' : HelloCreated P dev' loc') {pub : Bytes}
    (hpub : P.x25519 loc.privateKey.key P.basepoint = some pub) :
    (P.x25519 loc'.privateKey.key pub).isSome := by
  obtain ⟨pub', hpub', -⟩ := hc'.ephemeral
  rw [← hx _ _ _ _ hpub hpub']
  exact h _ hpub'

theorem Established.keySizes (he : Established P loc remote localID remoteID s) :
    s.sendKey.length = 32 ∧ s.receiveKey.length = 32 := by
  obtain ⟨_, _, -, -, hsend, hrecv, -⟩ := he.keys
  exact ⟨P.hkdf_size hsend, P.hkdf_size hrecv⟩

theorem sortPair_comm {α : Type} {key : α → Str} {a b : α} (h : key a ≠ key b) :
    sortPair key b a = sortPair key a b := by
  rw [sortPair, sortPair]
  by_cases hab : key a < key b
  · rw [if_pos hab, if_neg (List.not_lt.mpr (List.le_of_lt hab))]
  · rw [if_neg hab, if_pos (lt_of_not_lt_of_ne hab h)]

theorem transcript_comm {a b : Hello} {aID bID : DeviceIdentity} (hp : Paired a b)
    (hne : a.deviceID ≠ b.deviceID) (hID : aID.deviceID ≠ bID.deviceID) :
    transcript P b a bID aID = transcript P a b aID bID := by
  simp only [transcript, sortPair_comm hne, sortPair_comm hID, hp.sessionID, hp.domainID]

theorem HelloCreated.x25519_ephemeral (hc : HelloCreated P dev loc) {pub : X25519PublicKey}
    (h : decodeBase64URL loc.hello.ephemeralPublicKey = .ok pub.key) :
    P.x25519 loc.privateKey.key P.basepoint = some pub.key := by
  obtain ⟨pub', hpub', heph⟩ := hc.ephemeral
  rw [heph, decodeBase64URL_base64URL] at h
  rw [hpub', Except.ok.inj h]

/-- **Both sides of a session are crossed.** -/
theorem crossed_of_paired (hx : P.X25519Commutes) (hc : HelloCreated P dev loc)
    (hc' : HelloCreated P dev' loc') (hp : Paired loc.hello loc'.hello)
    (hne : dev.identity.deviceID ≠ dev'.identity.deviceID) {s' : State}
    (hs : establish P loc loc'.hello dev.identity dev'.identity = .ok s)
    (hs' : establish P loc' loc.hello dev'.identity dev.identity = .ok s') : Crossed s s' := by
  have he := (establish_eq_ok.mp hs).1
  have he' := (establish_eq_ok.mp hs').1
  have hne' : loc.hello.deviceID ≠ loc'.hello.deviceID := by
    rwa [hc.deviceID, hc'.deviceID]
  have hth : s'.transcriptHash = s.transcriptHash := by
    rw [he.hash, he'.hash, transcript_comm hp hne' hne]
  -- the two secrets are the two sides of one agreement
  obtain ⟨pub, secret, hpub, hsecret, hsend, hrecv, hrdy⟩ := he.keys
  obtain ⟨pub', secret', hpub', hsecret', hsend', hrecv', hrdy'⟩ := he'.keys
  obtain rfl : secret = secret' := by
    rw [hx _ _ _ _ (hc.x25519_ephemeral hpub') (hc'.x25519_ephemeral hpub), hsecret'] at hsecret
    exact (Option.some.inj hsecret).symm
  rw [hth] at hsend' hrecv' hrdy'
  rw [directionLabels_swap hne'] at hsend' hrecv'
  exact {
    sessionID := by rw [he'.sessionID, he.sessionID, hp.sessionID]
    domainID := by rw [he'.domainID, he.domainID, hp.domainID]
    localDeviceID := by rw [he'.localDeviceID, he.peerDeviceID]
    peerDeviceID := by rw [he'.peerDeviceID, he.localDeviceID]
    transcriptHash := hth
    sendKey := Option.some.inj (hsend'.symm.trans hrecv)
    receiveKey := Option.some.inj (hrecv'.symm.trans hsend)
    readyKey := Option.some.inj (hrdy'.symm.trans hrdy) }

/-- The labels keys are derived with. -/
def keyLabels : List Bytes :=
  [lit "iscp/v2/session/low-to-high", lit "iscp/v2/session/high-to-low",
    lit "iscp/v2/session/ready"]

/-- Keys derived with different labels differ. -/
def SeparatesLabels (P : Primitives) : Prop :=
  ∀ secret salt key, ∀ a ∈ keyLabels, ∀ b ∈ keyLabels, P.hkdf secret salt a 32 = some key →
    P.hkdf secret salt b 32 = some key → a = b

theorem separatesLabels_transparent : SeparatesLabels Primitives.transparent := by
  intro secret salt key a ha b hb hka hkb
  -- the labels differ within their first 17 bytes, which the key begins with
  have htake : ∀ c ∈ keyLabels, Primitives.transparent.hkdf secret salt c 32 = some key →
      key.take 17 = c.take 17 := by
    intro c hc hk
    have hlen : 17 ≤ c.length := by
      simp only [keyLabels, List.mem_cons, List.not_mem_nil, or_false] at hc
      rcases hc with rfl | rfl | rfl <;> decide
    rw [← Option.some.inj hk, Primitives.fill, List.take_take, List.append_assoc]
    exact List.take_append_of_le_length hlen
  have hab : a.take 17 = b.take 17 := (htake a ha hka).symm.trans (htake b hb hkb)
  simp only [keyLabels, List.mem_cons, List.not_mem_nil, or_false] at ha hb
  rcases ha with rfl | rfl | rfl <;> rcases hb with rfl | rfl | rfl <;>
    first | rfl | exact absurd hab (by decide)

theorem Established.sendKey_ne (hl : SeparatesLabels P)
    (he : Established P loc remote localID remoteID s) : s.sendKey ≠ s.receiveKey := by
  obtain ⟨pub, secret, -, -, hsend, hrecv, -⟩ := he.keys
  intro heq
  rw [← heq] at hrecv
  rw [directionLabels] at hsend hrecv
  split_ifs at hsend hrecv
  · exact absurd (hl _ _ _ _ (by decide) _ (by decide) hsend hrecv) (by decide)
  · exact absurd (hl _ _ _ _ (by decide) _ (by decide) hsend hrecv) (by decide)

/-- The ready message a state creates. -/
def State.readyMessage (P : Primitives) (s : State) (dev : Device) : Ready :=
  { s.unsignedReady P with
    signature := ⟨lit "Ed25519", dev.identity.publicKey.kid,
      base64URL (sign P dev.priv (signedBytes typeReady (s.unsignedReady P).fields))⟩ }

theorem State.createReady_eq (s : State) (dev : Device) :
    s.createReady P dev = .ok (s.readyMessage P dev) := by
  rw [createReady, readyInput_eq]
  rfl

theorem State.utf8_readyMessage (hs : Utf8 s.sessionID) (hl : Utf8 s.localDeviceID)
    (hkid : Utf8 dev.identity.publicKey.kid) : (s.readyMessage P dev).Utf8 :=
  ⟨utf8_lit _, hs, hl, utf8_base64URL _, utf8_base64URL _, utf8_lit _, hkid, utf8_base64URL _⟩

/-- **The other side accepts the ready message.** -/
theorem readyVerified_of_crossed (hs : P.SignsVerifiably) (hm' : Made P dev') {s' : State}
    (hx : Crossed s s') : ReadyVerified P s (s'.readyMessage P dev') dev'.identity where
  type := rfl
  sessionID := hx.sessionID
  deviceID := hx.localDeviceID
  hash := by
    rw [← hx.transcriptHash]
    exact decodeBase64URL_base64URL _
  mac := by
    rw [← hx.readyKey]
    exact decodeBase64URL_base64URL _
  signed := ⟨publicKey dev'.priv, _, hm'.decode_pub, decodeBase64URL_base64URL _,
    hm'.verify_sign hs _⟩

end Session

end Iscp
