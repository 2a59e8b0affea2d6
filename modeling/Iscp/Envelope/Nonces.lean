import Iscp.Envelope
import Iscp.Session.Network

/-!
# Keys and nonces

A nonce is the sequence number of an envelope, and every state counts from zero. So no nonce is
used twice with one key exactly as long as no two states send with one key. The keys of a state
are derived from the transcript of its two hellos; the ephemeral key in the local one is fresh, so
two states with one sending key come from the same local hello and from remote hellos that read
the same (`Iscp.Envelope.Nonces.same_origin`).

Nothing keeps a device from establishing two such states: `Establish` neither marks the local
hello as used nor remembers the remote one. A remote hello that is delivered twice gives two
states with one key, and both count from zero (`Iscp.Envelope.Nonces.nonce_reused`). Without such
a repetition no pair of key and nonce is used twice (`Iscp.Envelope.Nonces.nonce_unique`).
-/

namespace Iscp

namespace Envelope

namespace Nonces

open Go Crypto Canonical Session Identity

variable {P : Primitives} {ι : Type}

/-- A state, and the hellos it comes from. -/
structure Entry (ι : Type) where
  /-- The device. -/
  owner : ι
  /-- The place of its hello among the hellos made. -/
  hello : ℕ
  /-- The hello from the wire. -/
  remote : {h : Hello // h.Utf8}
  /-- The identity given to `Iscp.Session.establish`. -/
  remoteID : DeviceIdentity
  /-- The state. -/
  state : State

/-- What the devices hold. The inputs of HKDF and the pairs of key and nonce are on record for the
statements below. -/
structure World (ι : Type) where
  /-- The hellos the devices have made. -/
  hellos : List (ι × LocalHello)
  /-- The states they have established. -/
  states : List (Entry ι)
  /-- What keys have been derived from: secret, salt and label. -/
  derived : List (Bytes × Bytes × Bytes)
  /-- The keys and nonces of the envelopes that have been made. -/
  used : List (Bytes × Bytes)

/-- What a device may be made to do. What it is given comes from the wire. -/
inductive Action (ι : Type) where
  | createHello (i : ι) (rand : Option Seed) (sessionID peerDeviceID grantID : Str) (now : Time)
  | establish (k : ℕ) (remote : {h : Hello // h.Utf8}) (remoteID : DeviceIdentity)
  | verifyReady (k : ℕ) (ready : Ready) (remoteID : DeviceIdentity)
  | encrypt (k : ℕ) (messageID payloadType : Str) (route : Route) (plaintext : Bytes)

/-- The world before anything has happened. -/
def World.empty : World ι := ⟨[], [], [], []⟩

variable (P)

/-- What `Iscp.Session.establish` derives its keys from. -/
def keyInputs (loc : LocalHello) (remote : Hello) (localID remoteID : DeviceIdentity) :
    List (Bytes × Bytes × Bytes) :=
  match decodeBase64URL remote.ephemeralPublicKey with
  | .error _ => []
  | .ok pub => match P.x25519 loc.privateKey.key pub with
      | none => []
      | some secret =>
        let th := P.sha256 (writeCanonical (transcript P loc.hello remote localID remoteID))
        let labels := directionLabels loc.hello.deviceID remote.deviceID
        [(secret, th, lit "iscp/v2/session/" ++ labels.1),
          (secret, th, lit "iscp/v2/session/" ++ labels.2),
          (secret, th, lit "iscp/v2/session/ready")]

/-- **HKDF does not collide** on these inputs. -/
def CollisionFree (inputs : List (Bytes × Bytes × Bytes)) : Prop :=
  ∀ x ∈ inputs, ∀ y ∈ inputs, P.hkdf x.1 x.2.1 x.2.2 32 = P.hkdf y.1 y.2.1 y.2.2 32 → x = y

variable (dev : ι → Device)

/-- **One call.** A call that fails changes no more than the state it is made on. -/
def World.next (w : World ι) : Action ι → Option (World ι)
  | .createHello i rand sessionID peerDeviceID grantID now =>
    match createHello P (dev i) rand sessionID peerDeviceID grantID now with
    | .error _ => some w
    | .ok lh => some { w with hellos := w.hellos ++ [(i, lh)] }
  | .establish k remote remoteID =>
    match w.hellos[k]? with
    | none => none
    | some (i, lh) => match establish P lh remote.1 (dev i).identity remoteID with
        | .error _ => some w
        | .ok s => some { w with
            states := w.states ++ [⟨i, k, remote, remoteID, s⟩]
            derived := w.derived ++ keyInputs P lh remote.1 (dev i).identity remoteID }
  | .verifyReady k ready remoteID =>
    match w.states[k]? with
    | none => none
    | some e => match e.state.verifyReady P ready remoteID with
        | .error _ => some w
        | .ok s => some { w with states := w.states.set k { e with state := s } }
  | .encrypt k messageID payloadType route plaintext =>
    match w.states[k]? with
    | none => none
    | some e => match encrypt P e.state messageID payloadType route plaintext with
        | (s, .error _) => some { w with states := w.states.set k { e with state := s } }
        | (s, .ok _) => some { w with
            states := w.states.set k { e with state := s }
            used := w.used ++ [(e.state.sendKey, e.state.nextSend.2.1)] }

/-- Ephemeral keys are fresh, and a state encrypts fewer than `2 ^ 63` times. -/
def Fresh (w : World ι) : Action ι → Prop
  | .createHello i rand sessionID peerDeviceID grantID now =>
    ∀ lh, createHello P (dev i) rand sessionID peerDeviceID grantID now = .ok lh →
      ∀ p ∈ w.hellos, p.2.hello.ephemeralPublicKey ≠ lh.hello.ephemeralPublicKey
  | .encrypt k .. => ∀ e, w.states[k]? = some e → e.state.sendSeq.toNat < 2 ^ 63
  | _ => True

/-- **The calls of all devices**, in any order. -/
def calls : System (World ι) (Action ι) :=
  (System.ofNext (· = World.empty) (World.next P dev)).restrict (Fresh P dev)

/-- No state is established again from a local hello and a remote one that reads like one it has
been established with before. -/
def Once (w : World ι) : Action ι → Prop
  | .establish k remote _ => ∀ e ∈ w.states, e.hello = k → ¬Alike e.remote.1 remote.1
  | _ => True

variable {P dev}

/-! ### Nonces -/

theorem eq_of_bytes_eq {n a b : ℕ} (ha : a < 256 ^ n) (hb : b < 256 ^ n)
    (h : ∀ k < n, a / 256 ^ k % 256 = b / 256 ^ k % 256) : a = b := by
  induction n generalizing a b with
  | zero => omega
  | succ n ih =>
    have hlow : a % 256 = b % 256 := by simpa using h 0 (Nat.succ_pos n)
    have hhigh : a / 256 = b / 256 := by
      refine ih (by omega) (by omega) fun k hk => ?_
      have := h (k + 1) (Nat.succ_lt_succ hk)
      rwa [pow_succ', ← Nat.div_div_eq_div_mul, ← Nat.div_div_eq_div_mul] at this
    omega

theorem nonceOf_injective : Function.Injective State.nonceOf := by
  intro a b h
  have hbytes : ∀ i < 8, UInt8.ofNat (a.toNat / 256 ^ (7 - i)) =
      UInt8.ofNat (b.toNat / 256 ^ (7 - i)) := by
    simpa [List.map_inj_left] using List.append_cancel_left h
  rw [← UInt64.toNat_inj]
  refine eq_of_bytes_eq (n := 8) (by simpa using a.toNat_lt) (by simpa using b.toNat_lt)
    fun k hk => ?_
  have := congrArg UInt8.toNat (hbytes (7 - k) (by omega))
  rwa [UInt8.toNat_ofNat', UInt8.toNat_ofNat', Nat.sub_sub_self (by omega)] at this

/-! ### Where keys come from -/

section Origin

variable {i i' : ι} {loc loc' : LocalHello} {remote remote' : Hello}
  {remoteID remoteID' : DeviceIdentity} {s s' : State}

theorem mem_keyInputs {localID : DeviceIdentity}
    (he : Established P loc remote localID remoteID s) :
    ∃ secret, (secret, s.transcriptHash, lit "iscp/v2/session/" ++
        (directionLabels loc.hello.deviceID remote.deviceID).1) ∈
          keyInputs P loc remote localID remoteID ∧
      P.hkdf secret s.transcriptHash (lit "iscp/v2/session/" ++
        (directionLabels loc.hello.deviceID remote.deviceID).1) 32 = some s.sendKey := by
  obtain ⟨pub, secret, hpub, hsecret, hsend, -⟩ := he.keys
  refine ⟨secret, ?_, hsend⟩
  simp only [keyInputs, hpub, hsecret, he.hash]
  exact List.mem_cons_self

/-- **Two states with one transcript and one sending label** come from hellos that read the same
on either side. The order of the hellos in the transcript does not say which of them is the local
one, but the label does. -/
theorem alike_of_label (hsha : Function.Injective P.sha256)
    (hc : HelloCreated P (dev i) loc) (hc' : HelloCreated P (dev i') loc')
    (he : Established P loc remote (dev i).identity remoteID s)
    (he' : Established P loc' remote' (dev i').identity remoteID' s')
    (hu : remote.Utf8) (hu' : remote'.Utf8) (hth : s.transcriptHash = s'.transcriptHash)
    (hlabel : (directionLabels loc.hello.deviceID remote.deviceID).1 =
      (directionLabels loc'.hello.deviceID remote'.deviceID).1) :
    Alike loc.hello loc'.hello ∧ Alike remote remote' := by
  rw [he.hash, he'.hash] at hth
  obtain ⟨h1, h2⟩ := alike_of_transcript_eq (he.strict_transcript hc hu)
    (he'.strict_transcript hc' hu') (hsha hth)
  obtain ⟨-, -, hdev⟩ := he.utf8_local hu
  obtain ⟨-, -, hdev'⟩ := he'.utf8_local hu'
  -- crossed hellos have crossed identifiers, which only one device on both sides can have
  have hdevice : ∀ {x y : Hello}, Alike x y → x.issuedAt.Marshals → y.issuedAt.Marshals →
      Go.Utf8 x.deviceID → Go.Utf8 y.deviceID → x.deviceID = y.deviceID := by
    intro x y hxy hmx hmy hux huy
    have := (hxy.sameText hmx hmy).deviceID
    rwa [toUtf8_eq_self hux, toUtf8_eq_self huy] at this
  have hcross : Alike loc.hello remote' → Alike remote loc'.hello →
      loc.hello.deviceID = remote'.deviceID ∧ remote.deviceID = loc'.hello.deviceID :=
    fun hx hy => ⟨hdevice hx hc.marshals he'.verified.marshals hdev hu'.deviceID,
      hdevice hy he.verified.marshals hc'.marshals hu.deviceID hdev'⟩
  have hlt : ∀ a b : Str, (directionLabels a b).1 = lit "low-to-high" ↔ a < b := by
    intro a b
    rw [directionLabels]
    split_ifs with h
    · exact iff_of_true rfl h
    · exact iff_of_false (by decide) h
  rw [sortPair, sortPair] at h1 h2
  split_ifs at h1 h2 with hs hs' hs'
  · exact ⟨h2, h1⟩
  · obtain ⟨hd, hd'⟩ := hcross h2 h1
    rw [← hd, ← hd'] at hs' hlabel
    have hnot : ¬loc.hello.deviceID < remote.deviceID := List.not_lt.mpr (List.le_of_lt hs)
    exact absurd ((hlt _ _).mp (hlabel.trans ((hlt _ _).mpr hs))) hnot
  · obtain ⟨hd, hd'⟩ := hcross h1 h2
    rw [← hd, ← hd'] at hs' hlabel
    have hnot : ¬remote.deviceID < loc.hello.deviceID := hs
    exact absurd ((hlt _ _).mp (hlabel.symm.trans ((hlt _ _).mpr hs'))) hnot
  · exact ⟨h1, h2⟩

end Origin

/-! ### What holds in every world -/

/-- **What holds in every world.** -/
structure World.Inv (P : Primitives) (dev : ι → Device) (w : World ι) : Prop where
  created : ∀ p ∈ w.hellos, HelloCreated P (dev p.1) p.2
  fresh : (w.hellos.map fun p => p.2.hello.ephemeralPublicKey).Nodup
  states : ∀ e ∈ w.states, ∃ lh, w.hellos[e.hello]? = some (e.owner, lh) ∧
    Established P lh e.remote.1 (dev e.owner).identity e.remoteID e.state ∧
    keyInputs P lh e.remote.1 (dev e.owner).identity e.remoteID ⊆ w.derived
  once : ∀ {j k : ℕ} {e e' : Entry ι}, w.states[j]? = some e → w.states[k]? = some e' →
    e.hello = e'.hello → Alike e.remote.1 e'.remote.1 → j = k
  used : ∀ p ∈ w.used, ∃ (k : ℕ) (e : Entry ι) (seq : UInt64), w.states[k]? = some e ∧
    p = (e.state.sendKey, State.nonceOf seq) ∧ seq.toNat < e.state.sendSeq.toNat
  nodup : CollisionFree P w.derived → w.used.Nodup

variable {w w' : World ι} {e : Entry ι} {s : State} {k : ℕ} {lh : LocalHello} {i : ι}
  {remoteID : DeviceIdentity} {a : Action ι}

/-- **States with one sending key come from the same hellos.** -/
theorem same_origin (hsha : Function.Injective P.sha256) (hi : w.Inv P dev)
    (hfree : CollisionFree P w.derived) {e' : Entry ι} (he : e ∈ w.states) (he' : e' ∈ w.states)
    (hkey : e.state.sendKey = e'.state.sendKey) :
    e.hello = e'.hello ∧ Alike e.remote.1 e'.remote.1 := by
  obtain ⟨loc, hloc, hest, hsub⟩ := hi.states e he
  obtain ⟨loc', hloc', hest', hsub'⟩ := hi.states e' he'
  have hc := hi.created _ (List.mem_of_getElem? hloc)
  have hc' := hi.created _ (List.mem_of_getElem? hloc')
  obtain ⟨secret, hmem, hk⟩ := mem_keyInputs hest
  obtain ⟨secret', hmem', hk'⟩ := mem_keyInputs hest'
  have heq := hfree _ (hsub hmem) _ (hsub' hmem') (by rw [hk, hk', hkey])
  obtain ⟨-, hrest⟩ := Prod.mk.inj heq
  obtain ⟨hth, hinfo⟩ := Prod.mk.inj hrest
  obtain ⟨hl, hr⟩ := alike_of_label hsha hc hc' hest hest' e.remote.2 e'.remote.2 hth
    (List.append_cancel_left hinfo)
  refine ⟨?_, hr⟩
  -- local hellos that read the same have one ephemeral key, which was made once
  obtain ⟨pub, -, heph⟩ := hc.ephemeral
  obtain ⟨pub', -, heph'⟩ := hc'.ephemeral
  have hsame := (hl.sameText hc.marshals hc'.marshals).ephemeralPublicKey
  rw [heph, heph', toUtf8_eq_self (utf8_base64URL _), toUtf8_eq_self (utf8_base64URL _), ← heph,
    ← heph'] at hsame
  have hlt : e.hello < w.hellos.length := (List.getElem?_eq_some_iff.mp hloc).1
  refine (List.getElem?_inj (by rwa [List.length_map]) hi.fresh).mp ?_
  rw [List.getElem?_map, List.getElem?_map, hloc, hloc']
  exact congrArg some hsame

theorem CollisionFree.mono {l l' : List (Bytes × Bytes × Bytes)} (h : CollisionFree P (l ++ l')) :
    CollisionFree P l := fun x hx y hy =>
  h x (List.mem_append_left _ hx) y (List.mem_append_left _ hy)

theorem World.inv_empty : World.empty.Inv P dev where
  created := nofun
  fresh := List.nodup_nil
  states := nofun
  once := fun h => (nomatch h)
  used := nofun
  nodup := fun _ => List.nodup_nil

/-- A state may be replaced by one with the same keys that has counted further. -/
theorem World.Inv.set (hi : w.Inv P dev) (hk : w.states[k]? = some e)
    (hest : ∀ {lh remote localID remoteID}, Established P lh remote localID remoteID e.state →
      Established P lh remote localID remoteID s) (hkey : s.sendKey = e.state.sendKey)
    (hseq : e.state.sendSeq.toNat ≤ s.sendSeq.toNat) :
    World.Inv P dev { w with states := w.states.set k { e with state := s } } := by
  have hlt : k < w.states.length := (List.getElem?_eq_some_iff.mp hk).1
  -- whatever stands in the new list stands for an old entry with the same hellos
  have hold : ∀ {j : ℕ} {e' : Entry ι}, (w.states.set k { e with state := s })[j]? = some e' →
      ∃ e₀, w.states[j]? = some e₀ ∧ e'.hello = e₀.hello ∧ e'.remote = e₀.remote := by
    intro j e' hj
    rw [List.getElem?_set] at hj
    split_ifs at hj with hjk
    · subst hjk
      cases hj
      exact ⟨e, hk, rfl, rfl⟩
    · exact ⟨e', hj, rfl, rfl⟩
  refine ⟨hi.created, hi.fresh, fun e' he' => ?_, fun {j l a b} hj hl hhello halike => ?_,
    fun p hp => ?_, hi.nodup⟩
  · rcases List.mem_or_eq_of_mem_set he' with hmem | rfl
    · exact hi.states e' hmem
    · obtain ⟨lh, hlh, h, hsub⟩ := hi.states e (List.mem_of_getElem? hk)
      exact ⟨lh, hlh, hest h, hsub⟩
  · obtain ⟨a₀, ha₀, haeq, hareq⟩ := hold hj
    obtain ⟨b₀, hb₀, hbeq, hbreq⟩ := hold hl
    exact hi.once ha₀ hb₀ (haeq ▸ hbeq ▸ hhello) (hareq ▸ hbreq ▸ halike)
  · obtain ⟨j, e₀, seq, hj, hpeq, hlt'⟩ := hi.used p hp
    by_cases hjk : k = j
    · subst hjk
      obtain rfl := Option.some.inj (hk.symm.trans hj)
      refine ⟨k, { e with state := s }, seq, ?_, by simpa [hkey] using hpeq, hlt'.trans_le hseq⟩
      simp [List.getElem?_set_self hlt]
    · exact ⟨j, e₀, seq, by rw [List.getElem?_set_ne hjk]; exact hj, hpeq, hlt'⟩

theorem World.Inv.createHello (hi : w.Inv P dev) (hc : HelloCreated P (dev i) lh)
    (hfresh : ∀ p ∈ w.hellos, p.2.hello.ephemeralPublicKey ≠ lh.hello.ephemeralPublicKey) :
    World.Inv P dev { w with hellos := w.hellos ++ [(i, lh)] } := by
  refine ⟨?_, ?_, fun e he => ?_, hi.once, hi.used, hi.nodup⟩
  · rw [List.forall_mem_append, List.forall_mem_singleton]
    exact ⟨hi.created, hc⟩
  · rw [List.map_append, List.map_singleton, List.nodup_append]
    refine ⟨hi.fresh, List.nodup_singleton _, fun a ha b hb => ?_⟩
    obtain ⟨p, hp, rfl⟩ := List.mem_map.mp ha
    rw [List.mem_singleton.mp hb]
    exact hfresh p hp
  · obtain ⟨loc, hloc, hrest⟩ := hi.states e he
    exact ⟨loc, List.getElem?_append_left (List.getElem?_eq_some_iff.mp hloc).1 ▸ hloc, hrest⟩

/-- A new session keeps the invariant if its hello has not met that of the peer before. -/
theorem World.Inv.establish (hi : w.Inv P dev) {remote : {h : Hello // h.Utf8}}
    (hk : w.hellos[k]? = some (i, lh))
    (hest : Established P lh remote.1 (dev i).identity remoteID s)
    (honce : ∀ e ∈ w.states, e.hello = k → ¬Alike e.remote.1 remote.1) :
    World.Inv P dev { w with
      states := w.states ++ [⟨i, k, remote, remoteID, s⟩]
      derived := w.derived ++ keyInputs P lh remote.1 (dev i).identity remoteID } := by
  -- an entry of the longer list is an old one, or the new one at its end
  let new : Entry ι := ⟨i, k, remote, remoteID, s⟩
  have hold : ∀ {j : ℕ} {e : Entry ι}, (w.states ++ [new])[j]? = some e →
      w.states[j]? = some e ∨ j = w.states.length ∧ e = new := by
    intro j e hj
    rcases lt_trichotomy j w.states.length with hlt | rfl | hgt
    · rw [List.getElem?_append_left hlt] at hj
      exact Or.inl hj
    · rw [List.getElem?_append_right le_rfl, Nat.sub_self] at hj
      exact Or.inr ⟨rfl, (Option.some.inj hj).symm⟩
    · rw [List.getElem?_eq_none (by simp; omega)] at hj
      cases hj
  refine ⟨hi.created, hi.fresh, ?_, fun {j l a b} hj hl hhello halike => ?_, fun p hp => ?_,
    fun hfree => hi.nodup hfree.mono⟩
  · rw [List.forall_mem_append, List.forall_mem_singleton]
    refine ⟨fun e he => ?_, lh, hk, hest, List.subset_append_right _ _⟩
    obtain ⟨loc, hloc, hest₀, hsub⟩ := hi.states e he
    exact ⟨loc, hloc, hest₀, fun x hx => List.mem_append_left _ (hsub hx)⟩
  · rcases hold hj with hj | ⟨rfl, rfl⟩ <;> rcases hold hl with hl | ⟨rfl, rfl⟩
    · exact hi.once hj hl hhello halike
    · exact absurd halike (honce a (List.mem_of_getElem? hj) hhello)
    · exact absurd halike.symm (honce b (List.mem_of_getElem? hl) hhello.symm)
    · rfl
  · obtain ⟨j, e, seq, hj, hrest⟩ := hi.used p hp
    have hlt := (List.getElem?_eq_some_iff.mp hj).1
    exact ⟨j, e, seq, by rw [List.getElem?_append_left hlt]; exact hj, hrest⟩

/-- Sealing keeps the invariant: the number it takes is new for its key. -/
theorem World.Inv.encrypt (hsha : Function.Injective P.sha256) (hi : w.Inv P dev)
    (hk : w.states[k]? = some e) (hseq : e.state.sendSeq.toNat < 2 ^ 63) :
    World.Inv P dev { w with
      states := w.states.set k { e with state := e.state.nextSend.2.2 }
      used := w.used ++ [(e.state.sendKey, e.state.nextSend.2.1)] } := by
  have hsucc := toNat_succ hseq
  have hset := hi.set (s := e.state.nextSend.2.2) hk (fun h => { h with }) rfl
    (by simp only [State.nextSend, hsucc]; omega)
  have hlt : k < w.states.length := (List.getElem?_eq_some_iff.mp hk).1
  refine ⟨hset.created, hset.fresh, hset.states, hset.once, ?_, fun hfree => ?_⟩
  · rw [List.forall_mem_append, List.forall_mem_singleton]
    refine ⟨hset.used, k, { e with state := e.state.nextSend.2.2 }, e.state.sendSeq, ?_, rfl, ?_⟩
    · simp [List.getElem?_set_self hlt]
    · simp only [State.nextSend, hsucc]
      omega
  · rw [List.nodup_append]
    refine ⟨hi.nodup hfree, List.nodup_singleton _, fun p hp q hq => ?_⟩
    rw [List.mem_singleton.mp hq]
    rintro rfl
    obtain ⟨j, e', seq, hj, heq, hlt'⟩ := hi.used _ hp
    obtain ⟨hkey, hnonce⟩ := Prod.mk.inj heq
    obtain ⟨hhello, halike⟩ := same_origin hsha hi hfree (List.mem_of_getElem? hk)
      (List.mem_of_getElem? hj) hkey
    obtain rfl := hi.once hk hj hhello halike
    obtain rfl := Option.some.inj (hk.symm.trans hj)
    rw [← nonceOf_injective hnonce] at hlt'
    exact absurd hlt' (lt_irrefl _)

/-- One call keeps the invariant of the sessions. -/
theorem World.Inv.next (hsha : Function.Injective P.sha256) (hi : w.Inv P dev)
    (hfresh : Fresh P dev w a) (honce : Once w a) (h : w.next P dev a = some w') :
    w'.Inv P dev := by
  cases a with
  | createHello i rand sessionID peerDeviceID grantID now =>
    rw [World.next] at h
    split at h
    · cases h
      exact hi
    · next lh hlh =>
      cases h
      exact hi.createHello (createHello_eq_ok hlh) (hfresh lh hlh)
  | establish k remote remoteID =>
    rw [World.next] at h
    split at h
    · cases h
    · next i lh hk =>
      split at h
      · cases h
        exact hi
      · next s hs =>
        cases h
        exact hi.establish hk (establish_eq_ok.mp hs).1 honce
  | verifyReady k ready remoteID =>
    rw [World.next] at h
    split at h
    · cases h
    · next e hk =>
      split at h
      · cases h
        exact hi
      · next s hs =>
        obtain ⟨-, rfl⟩ := State.verifyReady_eq_ok.mp hs
        cases h
        exact hi.set hk (fun h => { h with }) rfl le_rfl
  | encrypt k messageID payloadType route plaintext =>
    rw [World.next] at h
    split at h
    · cases h
    · next e hk =>
      have hseq := hfresh e hk
      split at h
      · next s err hs =>
        cases h
        rcases encrypt_state (P := P) e.state messageID payloadType route plaintext with hst | hst
        · rw [hs] at hst
          obtain rfl : s = e.state := hst
          exact hi.set hk id rfl le_rfl
        · rw [hs] at hst
          obtain rfl : s = { e.state with sendSeq := e.state.sendSeq + 1 } := hst
          exact hi.set hk (fun h => { h with }) rfl (by simp only [toNat_succ hseq]; omega)
      · next s env hs =>
        obtain ⟨rfl, -⟩ := encrypt_eq_ok.mp hs
        cases h
        exact hi.encrypt hsha hk hseq

/-! ### A run -/

theorem collisionFree_keyInputs (hl : SeparatesLabels P) (hd : Derives P) (loc : LocalHello)
    (remote : Hello) (localID remoteID : DeviceIdentity) :
    CollisionFree P (keyInputs P loc remote localID remoteID) := by
  have hinputs : ∃ secret th, ∀ x ∈ keyInputs P loc remote localID remoteID,
      x.1 = secret ∧ x.2.1 = th ∧ x.2.2 ∈ keyLabels := by
    unfold keyInputs
    split
    · exact ⟨[], [], nofun⟩
    · split
      · exact ⟨[], [], nofun⟩
      · next secret _ =>
        refine ⟨secret, P.sha256 (writeCanonical (transcript P loc.hello remote localID remoteID)),
          ?_⟩
        simp only [List.forall_mem_cons, directionLabels, true_and]
        split_ifs <;> exact ⟨by decide, by decide, by decide, nofun⟩
  obtain ⟨secret, th, hall⟩ := hinputs
  intro x hx y hy heq
  obtain ⟨h1, h2, h3⟩ := hall x hx
  obtain ⟨h1', h2', h3'⟩ := hall y hy
  obtain ⟨key, hkey⟩ := Option.isSome_iff_exists.mp (hd x.1 x.2.1 x.2.2)
  have hkey' := heq.symm.trans hkey
  rw [h1, h2] at hkey
  rw [h1', h2'] at hkey'
  exact Prod.ext (h1.trans h1'.symm)
    (Prod.ext (h2.trans h2'.symm) (hl _ _ _ _ h3 _ h3' hkey hkey'))

section Succeed

variable {w : World ι} {k : ℕ}

theorem calls_step {C : World ι → Action ι → Prop} (hw : ((calls P dev).restrict C).Reachable w)
    (hC : C w a) (hf : Fresh P dev w a) (hn : w.next P dev a = some w') :
    ((calls P dev).restrict C).Reachable w' :=
  hw.step ⟨hC, hf, hn⟩

theorem World.next_createHello {rand : Option Seed} {sessionID peer grant : Str} {now : Time}
    (h : createHello P (dev i) rand sessionID peer grant now = .ok lh) :
    w.next P dev (.createHello i rand sessionID peer grant now) =
      some { w with hellos := w.hellos ++ [(i, lh)] } := by
  simp only [next, h]

theorem World.next_establish (hk : w.hellos[k]? = some (i, lh)) {remote : {h : Hello // h.Utf8}}
    (h : establish P lh remote.1 (dev i).identity remoteID = .ok s) :
    w.next P dev (.establish k remote remoteID) = some { w with
      states := w.states ++ [⟨i, k, remote, remoteID, s⟩]
      derived := w.derived ++ keyInputs P lh remote.1 (dev i).identity remoteID } := by
  simp only [next, hk, h]

theorem World.next_verifyReady (hk : w.states[k]? = some e) {ready : Ready}
    (h : ReadyVerified P e.state ready remoteID) :
    w.next P dev (.verifyReady k ready remoteID) = some { w with
      states := w.states.set k { e with state := { e.state with ready := true } } } := by
  simp only [next, hk, State.verifyReady_eq_ok.mpr ⟨h, rfl⟩]

theorem World.next_encrypt (hk : w.states[k]? = some e) {messageID payloadType : Str}
    {route : Route} {plaintext ad : Bytes} {env : SecureEnvelope}
    (h : Encrypted P e.state messageID payloadType route plaintext ad env) :
    w.next P dev (.encrypt k messageID payloadType route plaintext) = some { w with
      states := w.states.set k { e with state := e.state.nextSend.2.2 }
      used := w.used ++ [(e.state.sendKey, e.state.nextSend.2.1)] } := by
  simp only [next, hk, encrypt_eq_ok.mpr ⟨rfl, ad, h⟩]
  rfl

end Succeed

section Example

/-- The devices of the example. -/
abbrev exampleDev : Bool → Device := exampleDevices.device

variable {la lb : LocalHello} {C : World Bool → Action Bool → Prop}

theorem ephemeral_ne (hla : exampleHello false = .ok la) (hlb : exampleHello true = .ok lb) :
    la.hello.ephemeralPublicKey ≠ lb.hello.ephemeralPublicKey := by
  obtain ⟨pub, hpub, heph⟩ := (createHello_eq_ok hla).ephemeral
  obtain ⟨pub', hpub', heph'⟩ := (createHello_eq_ok hlb).ephemeral
  rw [privateKey_of_createHello hla] at hpub
  rw [privateKey_of_createHello hlb] at hpub'
  rw [heph, heph', ← Option.some.inj hpub, ← Option.some.inj hpub']
  exact fun h => absurd (base64URL_injective h) (by decide)

/-- A session is established, and stands at the end of the list. -/
theorem example_state {sa sb : State} (hub : lb.hello.Utf8)
    (hsa : establish Primitives.transparent la lb.hello (exampleDev false).identity
      (exampleDev true).identity = .ok sa) (hx : Crossed sa sb) {w : World Bool}
    (hw : ((calls Primitives.transparent exampleDev).restrict C).Reachable w)
    (hhello : w.hellos[0]? = some (false, la))
    (honce : C w (.establish 0 ⟨lb.hello, hub⟩ (exampleDev true).identity))
    (hany : ∀ w k ready id, C w (.verifyReady k ready id)) :
    ∃ w' e, ((calls Primitives.transparent exampleDev).restrict C).Reachable w' ∧
      w'.hellos = w.hellos ∧
      w'.derived = w.derived ++ keyInputs Primitives.transparent la lb.hello
        (exampleDev false).identity (exampleDev true).identity ∧ w'.used = w.used ∧
      w'.states[w.states.length]? = some e ∧ e.state = { sa with ready := true } := by
  have hready := readyVerified_of_crossed Primitives.signsVerifiably_transparent
    (exampleDevices.made true) hx
  let e : Entry Bool := ⟨false, 0, ⟨lb.hello, hub⟩, (exampleDev true).identity, sa⟩
  have hlast : ∀ x : Entry Bool, (w.states ++ [x])[w.states.length]? = some x := by simp
  have hset : ∀ x y : Entry Bool, (w.states ++ [x]).set w.states.length y = w.states ++ [y] := by
    simp
  have h1 := calls_step hw honce trivial (World.next_establish hhello hsa)
  have h2 := calls_step h1 (hany ..) trivial (World.next_verifyReady (hlast e) hready)
  rw [hset] at h2
  exact ⟨_, _, h2, rfl, rfl, rfl, hlast _, rfl⟩

/-- An envelope is made with the nonce that comes next. -/
theorem example_encrypt {w : World Bool} {e : Entry Bool} {k : ℕ}
    (hw : ((calls Primitives.transparent exampleDev).restrict C).Reachable w)
    (hk : w.states[k]? = some e) (hready : e.state.ready = true)
    (hkey : e.state.sendKey.length = 32) (hseq : e.state.sendSeq.toNat < 2 ^ 63)
    (hany : ∀ w k m t r p, C w (.encrypt k m t r p)) :
    ∃ w', ((calls Primitives.transparent exampleDev).restrict C).Reachable w' ∧
      w'.hellos = w.hellos ∧ w'.derived = w.derived ∧
      w'.used = w.used ++ [(e.state.sendKey, e.state.nextSend.2.1)] ∧
      w'.states[k]? = some { e with state := e.state.nextSend.2.2 } := by
  obtain ⟨ad, env, henc⟩ := exists_encrypt (P := Primitives.transparent) hready hkey hseq
    (lit "message") (lit "text") ⟨lit "relay", 30, 1⟩ (lit "hello")
  have hfresh : Fresh Primitives.transparent exampleDev w
      (.encrypt k (lit "message") (lit "text") ⟨lit "relay", 30, 1⟩ (lit "hello")) := by
    intro e' he'
    rwa [← Option.some.inj (hk.symm.trans he')]
  refine ⟨_, calls_step hw (hany ..) hfresh (World.next_encrypt hk henc), rfl, rfl, rfl, ?_⟩
  obtain ⟨hlt, -⟩ := List.getElem?_eq_some_iff.mp hk
  exact List.getElem?_set_self hlt

theorem example_hellos (hla : exampleHello false = .ok la) (hlb : exampleHello true = .ok lb)
    (hany : ∀ w i rand s p g now, C w (.createHello i rand s p g now)) :
    ((calls Primitives.transparent exampleDev).restrict C).Reachable
      ⟨[(false, la), (true, lb)], [], [], []⟩ := by
  have h0 : ((calls Primitives.transparent exampleDev).restrict C).Reachable World.empty :=
    .init rfl
  have h1 := calls_step h0 (hany _ _ _ _ _ _ _) (fun _ _ => nofun)
    (World.next_createHello (i := false) hla)
  refine calls_step h1 (hany _ _ _ _ _ _ _) (fun lh hlh p hp => ?_)
    (World.next_createHello (i := true) hlb)
  obtain rfl := Except.ok.inj (hlb.symm.trans hlh)
  obtain rfl := List.mem_singleton.mp hp
  exact ephemeral_ne hla hlb

end Example

/-- **No nonce is used twice with one key**, in every run in which no state is established a
second time from the same hellos. -/
theorem nonce_unique (hsha : Function.Injective P.sha256) {w : World ι}
    (hw : ((calls P dev).restrict Once).Reachable w) (hfree : CollisionFree P w.derived) :
    w.used.Nodup := by
  have hi : w.Inv P dev := hw.invariant (fun _ h => h ▸ World.inv_empty)
    fun _ _ _ _ hi hs => hi.next hsha hs.2.1 hs.1 hs.2.2
  exact hi.nodup hfree

/-- A run in which two envelopes are made, one after the other, with one key. -/
theorem nonce_unique_example : ∃ (w : World Bool) (key : Bytes),
    ((calls Primitives.transparent exampleDev).restrict Once).Reachable w ∧
      w.used = [(key, State.nonceOf 0), (key, State.nonceOf 1)] ∧ w.used.Nodup := by
  obtain ⟨la, lb, sa, sb, hla, hlb, -, hub, hsa, -, hx⟩ := exampleSession
  obtain ⟨he, -, hseq, -⟩ := establish_eq_ok.mp hsa
  have h := example_hellos (C := Once) hla hlb fun _ _ _ _ _ _ _ => trivial
  obtain ⟨w₁, e, hw₁, -, hderived₁, hused₁, hk, hstate⟩ := example_state (C := Once) hub hsa hx h
    rfl nofun fun _ _ _ _ => trivial
  obtain ⟨w₂, hw₂, -, hderived₂, hused₂, hk₂⟩ := example_encrypt hw₁ hk (by rw [hstate])
    (by rw [hstate]; exact he.keySizes.1) (by rw [hstate, hseq]; decide) fun _ _ _ _ _ _ => trivial
  obtain ⟨w, hw, -, hderived, hused, -⟩ := example_encrypt hw₂ hk₂ (by simp only [hstate]; rfl)
    (by simp only [hstate]; exact he.keySizes.1)
    (by simp only [hstate, State.nextSend, hseq]; decide) fun _ _ _ _ _ _ => trivial
  refine ⟨w, sa.sendKey, hw, ?_, nonce_unique Primitives.sha256_injective_transparent hw ?_⟩
  · rw [hused, hused₂, hused₁, hstate]
    simp only [State.nextSend, hseq]
    rfl
  · rw [hderived, hderived₂, hderived₁]
    exact collisionFree_keyInputs separatesLabels_transparent (fun _ _ _ => rfl) _ _ _ _

/-- **A hello that is delivered twice** makes the first device use one nonce twice with one
key. -/
theorem nonce_reused : ∃ w : World Bool,
    (calls Primitives.transparent exampleDev).Reachable w ∧
      CollisionFree Primitives.transparent w.derived ∧ ¬w.used.Nodup := by
  obtain ⟨la, lb, sa, sb, hla, hlb, -, hub, hsa, -, hx⟩ := exampleSession
  obtain ⟨he, -, hseq, -⟩ := establish_eq_ok.mp hsa
  let C : World Bool → Action Bool → Prop := fun _ _ => True
  -- either session makes its first envelope
  have hfirst : ∀ {w : World Bool},
      ((calls Primitives.transparent exampleDev).restrict C).Reachable w →
      w.hellos[0]? = some (false, la) →
      ∃ w', ((calls Primitives.transparent exampleDev).restrict C).Reachable w' ∧
        w'.hellos = w.hellos ∧
        w'.derived = w.derived ++ keyInputs Primitives.transparent la lb.hello
          (exampleDev false).identity (exampleDev true).identity ∧
        w'.used = w.used ++ [(sa.sendKey, State.nonceOf 0)] := by
    intro w hw hhello
    obtain ⟨w₁, e, hw₁, hhellos₁, hderived₁, hused₁, hk, hstate⟩ := example_state (C := C) hub hsa
      hx hw hhello trivial fun _ _ _ _ => trivial
    obtain ⟨w₂, hw₂, hhellos₂, hderived₂, hused₂, -⟩ := example_encrypt hw₁ hk (by rw [hstate])
      (by rw [hstate]; exact he.keySizes.1) (by rw [hstate, hseq]; decide)
      fun _ _ _ _ _ _ => trivial
    refine ⟨w₂, hw₂, hhellos₂.trans hhellos₁, hderived₂.trans hderived₁, ?_⟩
    rw [hused₂, hused₁, hstate]
    simp only [State.nextSend, hseq]
  have h := example_hellos (C := C) hla hlb fun _ _ _ _ _ _ _ => trivial
  obtain ⟨w₁, hw₁, hhellos, hderived₁, hused₁⟩ := hfirst h rfl
  obtain ⟨w, hw, -, hderived, hused⟩ := hfirst hw₁ (by rw [hhellos]; rfl)
  refine ⟨w, hw.of_restrict, fun x hx y hy => ?_, by simp [hused, hused₁]⟩
  -- the second state derives its keys from the same inputs
  rw [hderived, hderived₁, List.nil_append, List.mem_append, or_self] at hx hy
  exact collisionFree_keyInputs separatesLabels_transparent (fun _ _ _ => rfl) _ _ _ _ x hx y hy

end Nonces

end Envelope

end Iscp
