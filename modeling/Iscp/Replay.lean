import Iscp.Go.Strings
import Iscp.Go.Time
import Iscp.Crypto

/-!
# Nonces that have been used

A proof carries a nonce, and a server remembers the nonces of the proofs it has accepted
until the proofs have expired. It does so in memory (`Iscp.Replay.Cache`) or in a table of a
database (`Iscp.Replay.Table`), two statements for each nonce.

The cache forgets an entry once its time is past, and overlooks it already at its time. The
time of an entry that is there never gets earlier, as long as no nonce is used with a time
that is past already (`Iscp.Replay.Cache.use_le`).
-/

namespace Iscp

namespace Replay

open Go

/-! ### In memory -/

/-- **The cache**: the keys that have been used, each with its time. -/
abbrev Cache := Map Time

/-- What is left of a cache without the entries whose time is past. -/
def Cache.evict (c : Cache) (now : Time) : Cache :=
  fun key => (c key).filter fun exp => !now.after exp

/-- **`Cache.Use`**: the cache after it, and whether the key may be used. -/
def Cache.use (c : Cache) (key : Str) (expiresAt now : Time) : Cache × Bool :=
  match c.evict now key with
  | some exp =>
    if now.before exp then (c.evict now, false) else ((c.evict now).set key expiresAt, true)
  | none => ((c.evict now).set key expiresAt, true)

theorem Cache.evict_eq_some {c : Cache} {now exp : Time} {key : Str} :
    c.evict now key = some exp ↔ c key = some exp ∧ now.unixNano ≤ exp.unixNano := by
  rw [evict, Option.filter_eq_some_iff, Bool.not_eq_true', ← Bool.not_eq_true, Time.after_iff,
    not_lt]

/-- **The two outcomes**: a key is refused while its time has not come, and entered with a
new time otherwise. -/
theorem Cache.use_cases (c : Cache) (key : Str) (expiresAt now : Time) :
    ((∃ exp, c key = some exp ∧ now.unixNano < exp.unixNano) ∧
      c.use key expiresAt now = (c.evict now, false)) ∨
    ((∀ exp, c key = some exp → exp.unixNano ≤ now.unixNano) ∧
      c.use key expiresAt now = ((c.evict now).set key expiresAt, true)) := by
  rw [use]
  split
  · next exp h =>
    obtain ⟨hc, hle⟩ := evict_eq_some.mp h
    split_ifs with hb
    · exact .inl ⟨⟨exp, hc, Time.before_iff.mp hb⟩, rfl⟩
    · refine .inr ⟨fun exp' hc' => ?_, rfl⟩
      obtain rfl := Option.some.inj (hc.symm.trans hc')
      exact not_lt.mp fun hlt => hb (Time.before_iff.mpr hlt)
  · next h =>
    refine .inr ⟨fun exp hc => le_of_lt (not_le.mp fun hle => ?_), rfl⟩
    rw [evict_eq_some.mpr ⟨hc, hle⟩] at h
    cases h

/-- **What an entry becomes**: its time is past, or it is still there with a time that is no
earlier. -/
theorem Cache.use_le {c : Cache} {key k : Str} {expiresAt now exp : Time} (h : c k = some exp)
    (hexp : now.unixNano ≤ expiresAt.unixNano) :
    exp.unixNano < now.unixNano ∨
      ∃ exp', (c.use key expiresAt now).1 k = some exp' ∧ exp.unixNano ≤ exp'.unixNano := by
  rcases lt_or_ge exp.unixNano now.unixNano with hlt | hge
  · exact .inl hlt
  refine .inr ?_
  have hk : c.evict now k = some exp := evict_eq_some.mpr ⟨h, hge⟩
  rcases c.use_cases key expiresAt now with ⟨-, huse⟩ | ⟨hpast, huse⟩ <;> rw [huse]
  · exact ⟨exp, hk, le_refl _⟩
  · rcases eq_or_ne k key with rfl | hne
    · exact ⟨expiresAt, Map.set_self .., (hpast exp h).trans hexp⟩
    · exact ⟨exp, (Map.set_of_ne _ hne _).trans hk, le_refl _⟩

/-! ### In a database -/

/-- A time as a `timestamptz` column keeps it, in whole microseconds. -/
def timestamptz (t : Time) : Time := { t with unixNano := t.unixNano / 1000 * 1000 }

/-- **The table**: for domain, device and nonce the time they expire. -/
abbrev Table := Str × Str × Str → Option Time

/-- `DELETE … WHERE domain_id=$1 AND expires_at <= $2`. -/
def Table.delete (t : Table) (domainID : Str) (now : Time) : Table := fun key =>
  (t key).filter fun exp => !(key.1 = domainID ∧ exp.unixNano ≤ (timestamptz now).unixNano)

/-- `INSERT`: the table after it, unless the key is there already. -/
def Table.insert (t : Table) (domainID deviceID nonce : Str) (expiresAt : Time) : Option Table :=
  match t (domainID, deviceID, nonce) with
  | some _ => none
  | none => some (Function.update t (domainID, deviceID, nonce) (some (timestamptz expiresAt)))

/-- `proofNonceStorageKey`. -/
def proofNonceStorageKey (P : Primitives) (audience nonce : Str) : Str :=
  Crypto.base64URL (P.sha256 (audience ++ 0 :: nonce))

end Replay

end Iscp
