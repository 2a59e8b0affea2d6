import Iscp.Go.BigEndian
import Iscp.Service

/-!
# Identifiers

Two kinds of identifiers stand for something else. The key identifier of an identity stands for a
key: it is the thumbprint of the key type and the key, put together with a NUL between them. Either
part may contain a NUL, but a proof is accepted only for keys of 32 bytes, so the last NUL that
counts is at a known place (`Iscp.Identity.kid_identifies`).

The UUID of a row stands for the moment it was made. Rows are listed in the order of the text of
their UUIDs, and this is the order of the bytes (`Iscp.Service.uuidString_lt_iff`), which begin with
the milliseconds (`Iscp.Service.uuid_order`).
-/

namespace Iscp

/-! ### Keys -/

namespace Identity

open Go Crypto

variable {P : Primitives}

theorem thumbprint_inj (hinj : Function.Injective P.sha256) {kty kty' : Str} {pub pub' : Bytes}
    (hlength : pub.length = pub'.length)
    (h : Crypto.thumbprint P kty pub = Crypto.thumbprint P kty' pub') :
    kty = kty' ∧ pub = pub' := by
  have hinput := hinj (base64URL_injective h)
  rw [List.append_assoc, List.append_assoc] at hinput
  -- what follows the key type has the same length on both sides
  obtain ⟨hkty, hpub⟩ := List.append_inj' (List.append_cancel_left hinput)
    (by rw [List.length_cons, List.length_cons, hlength])
  exact ⟨hkty, (List.cons.inj hpub).2⟩

/-- **Key identifiers identify keys**: two identities that have passed a check of a proof, whatever
their key types are, have the same key if they have the same key identifier. -/
theorem kid_identifies (hinj : Function.Injective P.sha256) {id id' : DeviceIdentity}
    {proof proof' : DeviceProof} {audience audience' challenge challenge' : Str} {now now' : Time}
    {ttl ttl' : Duration} (h : verifyProof P id proof audience challenge now ttl = .ok ())
    (h' : verifyProof P id' proof' audience' challenge' now' ttl' = .ok ())
    (hkid : id.publicKey.kid = id'.publicKey.kid) :
    id.publicKey.kty = id'.publicKey.kty ∧ ∃ pub, decodeBase64URL id.publicKey.pub = .ok pub ∧
      decodeBase64URL id'.publicKey.pub = .ok pub := by
  obtain ⟨pub, -, -, hpub, hthumb, -⟩ := (verifyProof_eq_ok.mp h).signed
  obtain ⟨pub', -, -, hpub', hthumb', -⟩ := (verifyProof_eq_ok.mp h').signed
  obtain ⟨hkty, hkey⟩ := thumbprint_inj hinj (pub.size.trans pub'.size.symm)
    (hthumb.symm.trans (hkid.trans hthumb'))
  refine ⟨hkty, pub.key, hpub, ?_⟩
  rw [hkey]
  exact hpub'

/-- Two devices with one key. -/
theorem kid_identifies_shared : ∃ (a b : Device) (proof proof' : DeviceProof),
    a.identity.deviceID ≠ b.identity.deviceID ∧
      verifyProof .transparent a.identity proof (lit "relay") (lit "0") ⟨0, 0⟩ minute = .ok () ∧
      verifyProof .transparent b.identity proof' (lit "root") (lit "1") ⟨0, 0⟩ minute = .ok () ∧
      a.identity.publicKey.kid = b.identity.publicKey.kid ∧
      a.identity.publicKey.kty = b.identity.publicKey.kty ∧ ∃ pub,
        decodeBase64URL a.identity.publicKey.pub = .ok pub ∧
        decodeBase64URL b.identity.publicKey.pub = .ok pub := by
  have hmade : ∀ deviceID, ∃ dev, Made .transparent dev ∧ dev.identity.deviceID = deviceID ∧
      dev.identity.publicKey.kid = Crypto.thumbprint .transparent (lit "Ed25519")
        (Primitives.transparent.ed25519Public (List.replicate 32 0)) := fun deviceID =>
    ⟨_, ⟨⟨List.replicate 32 0, List.length_replicate⟩, lit "lab", deviceID, ⟨0, 0⟩, rfl⟩, rfl, rfl⟩
  obtain ⟨a, ha, haID, hakid⟩ := hmade (lit "a")
  obtain ⟨b, hb, hbID, hbkid⟩ := hmade (lit "b")
  have hproves : ∀ {dev : Device}, Made .transparent dev → ∀ audience challenge, ∃ proof,
      verifyProof .transparent dev.identity proof audience challenge ⟨0, 0⟩ minute = .ok () := by
    intro dev hdev audience challenge
    obtain ⟨proof, -, -, -, hproof⟩ := hdev.exists_createProof
      Primitives.signsVerifiably_transparent audience challenge (lit "1")
      (show (⟨0, 0⟩ : Time).utc.Marshals by decide) minute (by decide)
    exact ⟨proof, verifyProof_eq_ok.mpr hproof⟩
  obtain ⟨proof, hproof⟩ := hproves ha (lit "relay") (lit "0")
  obtain ⟨proof', hproof'⟩ := hproves hb (lit "root") (lit "1")
  have hkid := hakid.trans hbkid.symm
  refine ⟨a, b, proof, proof', ?_, hproof, hproof', hkid,
    kid_identifies Primitives.sha256_injective_transparent hproof hproof' hkid⟩
  rw [haID, hbID]
  decide

end Identity

/-! ### UUIDs -/

namespace Service

open Go

/-- `UUIDTimePrefix`. -/
def uuidTimePrefix (id : Bytes) : UInt64 :=
  UInt64.ofNat (bigEndian (List.replicate 2 0 ++ id.take 6))

/-- `now.UnixMilli()`. -/
def unixMilli (now : Time) : ℤ := now.unixNano / 1000000

theorem hexDigit_lt_iff {n m : ℕ} (hn : n < 16) (hm : m < 16) :
    Json.hexDigit n < Json.hexDigit m ↔ n < m := by
  have hall : ∀ n m : Fin 16, Json.hexDigit n < Json.hexDigit m ↔ n < m := by decide
  exact hall ⟨n, hn⟩ ⟨m, hm⟩

theorem hexDigit_inj {n m : ℕ} (hn : n < 16) (hm : m < 16) :
    Json.hexDigit n = Json.hexDigit m ↔ n = m := by
  have hall : ∀ n m : Fin 16, Json.hexDigit n = Json.hexDigit m ↔ n = m := by decide
  exact (hall ⟨n, hn⟩ ⟨m, hm⟩).trans Fin.mk.inj_iff

theorem stringHex_cons (v : UInt8) (b : Bytes) : stringHex (v :: b) =
    Json.hexDigit (v.toNat / 16) :: Json.hexDigit (v.toNat % 16) :: stringHex b := rfl

/-- **Text in hexadecimal compares as the bytes do.** -/
theorem stringHex_append_lt_iff {b b' : Bytes} (h : b.length = b'.length) (s s' : Str) :
    stringHex b ++ s < stringHex b' ++ s' ↔ b < b' ∨ (b = b' ∧ s < s') := by
  induction b generalizing b' with
  | nil =>
    obtain rfl := List.length_eq_zero_iff.mp h.symm
    simp [stringHex]
  | cons v b ih =>
    cases b' with
    | nil => cases h
    | cons w b' =>
      have hv := v.toNat_lt
      have hw := w.toNat_lt
      rw [stringHex_cons, stringHex_cons, List.cons_append, List.cons_append, List.cons_append,
        List.cons_append, List.cons_lt_cons_iff, List.cons_lt_cons_iff, ih (Nat.succ.inj h),
        hexDigit_lt_iff (by omega) (by omega), hexDigit_lt_iff (by omega) (by omega),
        hexDigit_inj (by omega) (by omega), hexDigit_inj (by omega) (by omega),
        List.cons_lt_cons_iff, List.cons.injEq, UInt8.lt_iff_toNat_lt, ← UInt8.toNat_inj]
      generalize v.toNat = n at hv ⊢
      generalize w.toNat = m at hw ⊢
      have hdiv : n / 16 = m / 16 ∧ n % 16 = m % 16 ↔ n = m := by omega
      have hlt : n / 16 < m / 16 ∨ (n / 16 = m / 16 ∧ n % 16 < m % 16) ↔ n < m := by omega
      rw [← hlt, ← hdiv]
      tauto

theorem lt_iff_take_drop (n : ℕ) {b b' : Bytes} (h : b.length = b'.length) :
    b < b' ↔ b.take n < b'.take n ∨ (b.take n = b'.take n ∧ b.drop n < b'.drop n) := by
  have hlength : (b.take n).length = (b'.take n).length := by simp [h]
  have hpieces := append_lt_append_iff hlength (b.drop n) (b'.drop n)
  rwa [List.take_append_drop, List.take_append_drop] at hpieces

variable {id id' : Bytes}

/-- **The text of UUIDs is in the order of their bytes.** -/
theorem uuidString_lt_iff (h : id.length = 16) (h' : id'.length = 16) :
    uuidString id < uuidString id' ↔ id < id' := by
  have hlength : ∀ n m, ((id.drop n).take m).length = ((id'.drop n).take m).length := by
    simp [h, h']
  have hfirst : (id.take 4).length = (id'.take 4).length := hlength 0 4
  have hlast : ∀ b : Bytes, b.length = 16 → (b.drop 10).take 6 = b.drop 10 := fun b hb =>
    List.take_of_length_le (by simp [hb])
  have htext : stringHex ((id.drop 10).take 6) < stringHex ((id'.drop 10).take 6) ↔
      id.drop 10 < id'.drop 10 := by
    have hend := stringHex_append_lt_iff (hlength 10 6) [] []
    rw [List.append_nil, List.append_nil, hlast id h, hlast id' h'] at hend
    rw [hlast id h, hlast id' h', hend]
    simp
  simp only [uuidString, List.append_assoc, List.cons_append]
  rw [stringHex_append_lt_iff hfirst, cons_lt_cons_self_iff,
    stringHex_append_lt_iff (hlength 4 2), cons_lt_cons_self_iff,
    stringHex_append_lt_iff (hlength 6 2), cons_lt_cons_self_iff,
    stringHex_append_lt_iff (hlength 8 2), cons_lt_cons_self_iff, htext]
  -- the bytes, cut in the same places
  have hcut : ∀ n m, id.drop n < id'.drop n ↔ (id.drop n).take m < (id'.drop n).take m ∨
      ((id.drop n).take m = (id'.drop n).take m ∧ id.drop (n + m) < id'.drop (n + m)) := by
    intro n m
    rw [lt_iff_take_drop m (by simp [h, h']), List.drop_drop, List.drop_drop]
  have hwhole : id < id' ↔ _ := hcut 0 4
  rw [hwhole, hcut (0 + 4) 2, hcut (0 + 4 + 2) 2, hcut (0 + 4 + 2 + 2) 2]
  rfl

theorem uuidString_inj (h : id.length = 16) (h' : id'.length = 16)
    (heq : uuidString id = uuidString id') : id = id' := by
  refine List.le_antisymm (fun hlt => ?_) fun hlt => ?_
  · have htext := (uuidString_lt_iff h' h).mpr hlt
    rw [heq] at htext
    exact List.lt_irrefl _ htext
  · have htext := (uuidString_lt_iff h h').mpr hlt
    rw [heq] at htext
    exact List.lt_irrefl _ htext

/-- **What a UUID is made of**: six bytes that are the milliseconds, and ten others. -/
theorem newUUIDv7Like_eq_ok {now : Time} {rand : Option {b : Bytes // b.length = 10}}
    (hlow : 0 ≤ unixMilli now) (hhigh : unixMilli now < 2 ^ 48)
    (h : newUUIDv7Like now rand = .ok id) :
    id.length = 16 ∧ bigEndian (id.take 6) = (unixMilli now).toNat := by
  cases rand with
  | none => cases h
  | some r =>
    cases h
    refine ⟨by simp [r.2], ?_⟩
    rw [List.take_left' (by simp)]
    have hms : (now.unixNano / 1000000 % 2 ^ 64).toNat = (unixMilli now).toNat := by
      rw [unixMilli] at hlow hhigh ⊢
      omega
    rw [hms]
    have hlt : (unixMilli now).toNat < 2 ^ 48 := by omega
    generalize (unixMilli now).toNat = ms at hlt ⊢
    simp only [List.range, List.range.loop, List.map_cons, List.map_nil, bigEndian, List.foldl_cons,
      List.foldl_nil, UInt8.toNat_ofNat']
    omega

/-- **The order of UUIDs.** The text of UUIDs says what they are, and is in the order of their
bytes; the milliseconds can be read off a UUID; so the text of UUIDs is in the order of the
milliseconds they were made in, whatever the random bytes are. -/
theorem uuid_order :
    (∀ id id' : Bytes, id.length = 16 → id'.length = 16 → uuidString id = uuidString id' →
      id = id') ∧
    (∀ id id' : Bytes, id.length = 16 → id'.length = 16 → id < id' →
      uuidString id < uuidString id') ∧
    (∀ now rand id, 0 ≤ unixMilli now → unixMilli now < 2 ^ 48 →
      newUUIDv7Like now rand = .ok id → ((uuidTimePrefix id).toNat : ℤ) = unixMilli now) ∧
    ∀ now now' rand rand' id id', 0 ≤ unixMilli now → unixMilli now < unixMilli now' →
      unixMilli now' < 2 ^ 48 → newUUIDv7Like now rand = .ok id →
      newUUIDv7Like now' rand' = .ok id' → uuidString id < uuidString id' := by
  refine ⟨fun id id' => uuidString_inj, fun id id' h h' => (uuidString_lt_iff h h').mpr, ?_, ?_⟩
  · intro now rand id hlow hhigh hid
    obtain ⟨-, hms⟩ := newUUIDv7Like_eq_ok hlow hhigh hid
    have hzeros : bigEndian (List.replicate 2 0 ++ id.take 6) = bigEndian (id.take 6) := rfl
    rw [uuidTimePrefix, hzeros, hms, UInt64.toNat_ofNat']
    omega
  · intro now now' rand rand' id id' hlow hlt hhigh hid hid'
    obtain ⟨hlength, hms⟩ := newUUIDv7Like_eq_ok hlow (hlt.trans hhigh) hid
    obtain ⟨hlength', hms'⟩ := newUUIDv7Like_eq_ok (hlow.trans hlt.le) hhigh hid'
    rw [uuidString_lt_iff hlength hlength', lt_iff_take_drop 6 (hlength.trans hlength'.symm)]
    refine .inl ((bigEndian_lt_iff (by simp [hlength, hlength'])).mp ?_)
    rw [hms, hms']
    omega

/-- Two UUIDs, the one made in the first millisecond of 1970 and with the largest random bytes. -/
theorem uuid_order_first : ∃ id id' : Bytes,
    newUUIDv7Like ⟨0, 0⟩ (some ⟨List.replicate 10 255, List.length_replicate⟩) = .ok id ∧
      newUUIDv7Like ⟨1000000, 0⟩ (some ⟨List.replicate 10 0, List.length_replicate⟩) = .ok id' ∧
      uuidString id < uuidString id' := by
  obtain ⟨id, hid⟩ : ∃ id, newUUIDv7Like ⟨0, 0⟩
    (some ⟨List.replicate 10 255, List.length_replicate⟩) = .ok id := ⟨_, rfl⟩
  obtain ⟨id', hid'⟩ : ∃ id', newUUIDv7Like ⟨1000000, 0⟩
    (some ⟨List.replicate 10 0, List.length_replicate⟩) = .ok id' := ⟨_, rfl⟩
  obtain ⟨-, -, -, horder⟩ := uuid_order
  exact ⟨id, id', hid, hid', horder _ _ _ _ _ _ (by decide) (by decide) (by decide) hid hid'⟩

end Service

end Iscp
