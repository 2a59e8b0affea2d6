import Iscp.Expiry
import Iscp.Service.Alone

/-!
# Two stores for nonces

A server remembers the nonces of the proofs it has accepted in a cache, or in a table of its
database. The cache forgets what is past in all domains and overlooks what is due; the table
forgets what is due in the domain of the proof, and refuses what is still there. Either store
simulates the same ledger (`Iscp.Service.cache_simulates`, `Iscp.Service.table_simulates`), so
the two give the same verdict on every use, and accept a nonce again exactly when the time that
came with its last acceptance has been reached (`Iscp.Service.stores_agree`).

What a use is for – domain, device, audience and nonce – is one string in the cache and three
columns in the table, the last of them a hash. The names must not contain the byte `0`, which
separates them.
-/

namespace Iscp

namespace Service

open Go Crypto Identity Replay Expiry

/-- What a nonce is for: domain, device and audience, and the nonce itself. -/
abbrev Names := Str × Str × Str × Str

/-- No name contains the byte that separates them. -/
def Separated (k : Names) : Prop := 0 ∉ k.1 ∧ 0 ∉ k.2.1 ∧ 0 ∉ k.2.2.1 ∧ 0 ∉ k.2.2.2

/-- Names that can be told apart when they are joined. -/
abbrev Scope := {k : Names // Separated k}

/-- What a proof names. -/
def names (proof : DeviceProof) : Names :=
  (proof.domainID, proof.deviceID, proof.audience, proof.nonce)

/-- **A use of a nonce**: a proof none of whose names is blank or contains the separator, and the
times of its expiry and its use, which a database can keep. -/
structure NonceUse where
  proof : DeviceProof
  expiresAt : Time
  now : Time
  domain_ne : trimSpace proof.domainID ≠ []
  device_ne : trimSpace proof.deviceID ≠ []
  audience_ne : trimSpace proof.audience ≠ []
  nonce_ne : trimSpace proof.nonce ≠ []
  separated : Separated (names proof)
  expiresAt_exact : (timestamptz expiresAt).unixNano = expiresAt.unixNano
  now_exact : (timestamptz now).unixNano = now.unixNano

/-- The scope of a use. -/
def NonceUse.scope (u : NonceUse) : Scope := ⟨names u.proof, u.separated⟩

/-- The use, as far as a ledger is concerned. -/
def NonceUse.abs (u : NonceUse) : Use Scope := ⟨u.scope, u.expiresAt.unixNano, u.now.unixNano⟩

/-- `Cache.Use`, with the key of `verifyProof`. -/
def cacheUse (c : Cache) (u : NonceUse) : Cache × Bool :=
  c.use (nonceKey u.proof) u.expiresAt u.now

/-- A store that is a table only. -/
def tableStore : NonceStore Table := ⟨fun _ _ => none, fun t _ => t, id, fun _ t => t⟩

/-- `useProofNonce`, as `verifyProof` calls it. -/
def useNonce (P : Primitives) (u : NonceUse) : Handler Table Env Unit Error Bool :=
  useProofNonce P tableStore (fun _ => []) u.proof.domainID u.proof.deviceID u.proof.audience
    u.proof.nonce u.expiresAt u.now

/-- No statement fails for a reason of the database. -/
def SqlHolds (_ : Config Table Env Unit) (x : Entry Env Unit) : Prop := x.env.sqlFails = false

/-- **Uses of nonces in a table**, one after the other, each run to its end without a failure of
the database, and the verdicts they return. -/
inductive TableVerdicts (P : Primitives) : Table → List NonceUse → List Bool → Prop where
  | nil {t : Table} : TableVerdicts P t [] []
  | cons {t : Table} {u : NonceUse} {us : List NonceUse} {b : Bool} {bs : List Bool}
      {c : Config Table Env Unit} (hrun : (useNonce P u).Runs SqlHolds 0 ⟨t, []⟩ (.done b) c)
      (hrest : TableVerdicts P c.state us bs) : TableVerdicts P t (u :: us) (b :: bs)

variable {P : Primitives}

/-! ### The table, statement by statement -/

/-- The key of the row of a use. -/
def NonceUse.row (P : Primitives) (u : NonceUse) : Str × Str × Str :=
  (u.proof.domainID, u.proof.deviceID, proofNonceStorageKey P u.proof.audience u.proof.nonce)

/-- What the two statements do together. -/
def tableUse (P : Primitives) (t : Table) (u : NonceUse) : Table × Bool :=
  match t.delete u.proof.domainID u.now (u.row P) with
  | some _ => (t.delete u.proof.domainID u.now, false)
  | none => (Function.update (t.delete u.proof.domainID u.now) (u.row P)
      (some (timestamptz u.expiresAt)), true)

theorem NonceUse.domainID_ne (u : NonceUse) : u.proof.domainID ≠ [] := by
  intro h
  exact u.domain_ne (by rw [h]; rfl)

theorem NonceUse.scoped (u : NonceUse) : ¬(trimSpace u.proof.deviceID = [] ∨
    trimSpace u.proof.audience = [] ∨ trimSpace u.proof.nonce = []) := by
  rintro (h | h | h)
  · exact u.device_ne h
  · exact u.audience_ne h
  · exact u.nonce_ne h

theorem insert_eq (t : Table) (u : NonceUse) :
    (match (t.delete u.proof.domainID u.now).insert u.proof.domainID u.proof.deviceID
        (proofNonceStorageKey P u.proof.audience u.proof.nonce) u.expiresAt with
      | some t' => .ok (t', true, [])
      | none => .ok (t.delete u.proof.domainID u.now, false, []) :
        Except Error (Table × Bool × List Unit)) =
      .ok ((tableUse P t u).1, (tableUse P t u).2, []) := by
  rw [Table.insert, tableUse, NonceUse.row]
  cases t.delete u.proof.domainID u.now _ <;> rfl

/-- **A use run to its end** does what the two statements do, and gives a verdict. -/
theorem useNonce_alone (u : NonceUse) (i : ℕ) (c : Config Table Env Unit) :
    (useNonce P u).Alone SqlHolds i (fun b c' => (c'.state, b) = tableUse P c.state u)
      (fun _ _ => False) c := by
  refine .bind (Handler.alone_stopIf (fun h => absurd h u.domainID_ne) fun _ => ?_)
  refine .bind (Handler.alone_stopIf (fun h => absurd h u.scoped) fun _ => ?_)
  have hholds : ∀ {e : Env}, SqlHolds c ⟨i, e, []⟩ → e.sqlFails ≠ true := fun {e} h => by
    rw [show e.sqlFails = false from h]
    exact Bool.false_ne_true
  refine .bind (alone_sql (fun e s' _ events _ _ h => ?_) fun e r hC h => ?_)
  · cases h
    refine alone_sql (fun e s' b events _ _ h => ?_) fun e r hC h => ?_
    · obtain ⟨rfl, rfl, -⟩ : (tableUse P c.state u).1 = s' ∧ (tableUse P c.state u).2 = b ∧
          ([] : List Unit) = events := by
        simpa using (insert_eq c.state u).symm.trans h
      rfl
    · rcases h with h | h
      · exact hholds hC h
      · cases (insert_eq c.state u).symm.trans h
  · rcases h with h | h
    · exact hholds hC h
    · cases h

theorem useNonce_runs (u : NonceUse) {e : Env} (he : e.sqlFails = false) (t : Table) :
    ∃ trace, (useNonce P u).Runs SqlHolds 0 ⟨t, []⟩ (.done (tableUse P t u).2)
      ⟨(tableUse P t u).1, trace⟩ := by
  refine ⟨[⟨0, e, []⟩] ++ [⟨0, e, []⟩], ?_⟩
  refine (Handler.runs_stopIf u.domainID_ne).seq ((Handler.runs_stopIf u.scoped).seq ?_)
  exact (runs_sql e he rfl he).seq (runs_sql e he (insert_eq t u) he)

/-- **The verdicts of the table** are those of the two statements. -/
theorem tableVerdicts_iff {e : Env} (he : e.sqlFails = false) {t : Table} {us : List NonceUse}
    {bs : List Bool} : TableVerdicts P t us bs ↔ bs = verdicts (tableUse P) t us := by
  constructor
  · intro h
    induction h with
    | nil => rfl
    | cons hrun hrest ih =>
      have huse := (useNonce_alone _ 0 _).result hrun
      rw [verdicts, ← huse, ih]
  · rintro rfl
    induction us generalizing t with
    | nil => exact .nil
    | cons u us ih =>
      obtain ⟨trace, hrun⟩ := useNonce_runs u he t
      exact .cons hrun ih

/-! ### Names that are joined -/

/-- The key of some names in the cache. -/
def joined (k : Names) : Str := k.1 ++ 0 :: (k.2.1 ++ 0 :: (k.2.2.1 ++ 0 :: k.2.2.2))

/-- The columns of some names in the table. -/
def columns (P : Primitives) (k : Names) : Str × Str × Str :=
  (k.1, k.2.1, proofNonceStorageKey P k.2.2.1 k.2.2.2)

theorem joined_injective : Function.Injective fun k : Scope => joined k.1 := by
  rintro ⟨⟨d, v, a, n⟩, hd, hv, ha, _⟩ ⟨⟨d', v', a', n'⟩, hd', hv', ha', _⟩ h
  obtain ⟨rfl, h⟩ := (Canonical.append_nul_inj hd hd').mp h
  obtain ⟨rfl, h⟩ := (Canonical.append_nul_inj hv hv').mp h
  obtain ⟨rfl, rfl⟩ := (Canonical.append_nul_inj ha ha').mp h
  rfl

theorem columns_injective (hsha : Function.Injective P.sha256) :
    Function.Injective fun k : Scope => columns P k.1 := by
  rintro ⟨⟨d, v, a, n⟩, hd, hv, ha, _⟩ ⟨⟨d', v', a', n'⟩, hd', hv', ha', _⟩ h
  obtain ⟨rfl, h⟩ := Prod.mk.inj h
  obtain ⟨rfl, h⟩ := Prod.mk.inj h
  obtain ⟨rfl, rfl⟩ := (Canonical.append_nul_inj ha ha').mp (hsha (base64URL_injective h))
  rfl

/-! ### The stores and the ledger -/

/-- A cache as a ledger. -/
def cacheView (c : Cache) : Ledger Scope := fun k => (c (joined k.1)).map Time.unixNano

/-- A table as a ledger. -/
def tableView (P : Primitives) (t : Table) : Ledger Scope :=
  fun k => (t (columns P k.1)).map Time.unixNano

theorem agree_evict (c : Cache) (now : Time) :
    Agree now.unixNano (cacheView (c.evict now)) (cacheView c) := by
  intro k e he
  simp only [cacheView, Option.map_eq_some_iff, Cache.evict_eq_some]
  constructor
  · rintro ⟨exp, ⟨hexp, -⟩, rfl⟩
    exact ⟨exp, hexp, rfl⟩
  · rintro ⟨exp, hexp, rfl⟩
    exact ⟨exp, ⟨hexp, he.le⟩, rfl⟩

theorem cacheView_set (c : Cache) (k : Scope) (exp : Time) :
    cacheView (c.set (joined k.1) exp) = Function.update (cacheView c) k (some exp.unixNano) := by
  funext k'
  rcases eq_or_ne k' k with rfl | hne
  · simp [cacheView]
  · rw [Function.update_of_ne hne, cacheView, Map.set_of_ne _ (joined_injective.ne hne)]
    rfl

/-- **The cache simulates the ledger.** -/
theorem cache_simulates : Simulates cacheView NonceUse.abs cacheUse := by
  intro c m u hagree
  have hkey : nonceKey u.proof = joined u.scope.1 := rfl
  have hverdict := (hagree.any_eq u.scope).symm
  rw [cacheUse, hkey]
  rcases c.use_cases (joined u.scope.1) u.expiresAt u.now with ⟨⟨exp, hexp, hlt⟩, huse⟩ |
    ⟨hpast, huse⟩
  · have hlive : (m u.abs.key).any (fun e => u.abs.now < e) = true := by
      rw [show m u.abs.key = m u.scope from rfl, hverdict]
      simp [cacheView, hexp, hlt, NonceUse.abs]
    rw [huse, Ledger.use_false hlive]
    exact ⟨rfl, fun k e he => (agree_evict c u.now k e he).trans (hagree k e he)⟩
  · have hdead : (m u.abs.key).any (fun e => u.abs.now < e) = false := by
      rw [show m u.abs.key = m u.scope from rfl, hverdict]
      simp only [cacheView, Option.any_map, Option.any_eq_false]
      intro exp hexp
      exact decide_eq_false (not_lt.mpr (hpast exp hexp))
    rw [huse, Ledger.use_true hdead, cacheView_set]
    refine ⟨rfl, Agree.update (fun k e he => ?_) u.scope (some u.expiresAt.unixNano)⟩
    exact (agree_evict c u.now k e he).trans (hagree k e he)

theorem delete_eq_some {t : Table} {domainID : Str} {now exp : Time} {key : Str × Str × Str} :
    t.delete domainID now key = some exp ↔ t key = some exp ∧
      ¬(key.1 = domainID ∧ exp.unixNano ≤ (timestamptz now).unixNano) := by
  rw [Table.delete, Option.filter_eq_some_iff, Bool.not_eq_true', decide_eq_false_iff_not]

theorem agree_delete (t : Table) (u : NonceUse) : Agree u.now.unixNano
    (tableView P (t.delete u.proof.domainID u.now)) (tableView P t) := by
  intro k e he
  simp only [tableView, Option.map_eq_some_iff, delete_eq_some, u.now_exact]
  constructor
  · rintro ⟨exp, ⟨hexp, -⟩, rfl⟩
    exact ⟨exp, hexp, rfl⟩
  · rintro ⟨exp, hexp, rfl⟩
    exact ⟨exp, ⟨hexp, fun h => absurd h.2 (not_le.mpr he)⟩, rfl⟩

theorem tableView_update (hsha : Function.Injective P.sha256) (t : Table) (k : Scope) (exp : Time) :
    tableView P (Function.update t (columns P k.1) (some exp)) =
      Function.update (tableView P t) k (some exp.unixNano) := by
  funext k'
  rcases eq_or_ne k' k with rfl | hne
  · simp [tableView]
  · rw [Function.update_of_ne hne, tableView,
      Function.update_of_ne ((columns_injective hsha).ne hne)]
    rfl

/-- **The table simulates the ledger.** -/
theorem table_simulates (hsha : Function.Injective P.sha256) :
    Simulates (tableView P) NonceUse.abs (tableUse P) := by
  intro t m u hagree
  have hrow : u.row P = columns P u.scope.1 := rfl
  have hverdict := (hagree.any_eq u.scope).symm
  have hdelete : ∀ k e, u.now.unixNano < e →
      (tableView P (t.delete u.proof.domainID u.now) k = some e ↔ m k = some e) := fun k e he =>
    (agree_delete t u k e he).trans (hagree k e he)
  rw [tableUse, hrow]
  cases hfound : t.delete u.proof.domainID u.now (columns P u.scope.1) with
  | some exp =>
    obtain ⟨hexp, hlive⟩ := delete_eq_some.mp hfound
    rw [u.now_exact] at hlive
    have hlive' : (m u.abs.key).any (fun e => u.abs.now < e) = true := by
      rw [show m u.abs.key = m u.scope from rfl, hverdict]
      simp only [tableView, hexp, Option.map_some, Option.any_some]
      exact decide_eq_true (not_le.mp fun hle => hlive ⟨rfl, hle⟩)
    rw [Ledger.use_false hlive']
    exact ⟨rfl, hdelete⟩
  | none =>
    have hdead : (m u.abs.key).any (fun e => u.abs.now < e) = false := by
      rw [show m u.abs.key = m u.scope from rfl, hverdict]
      simp only [tableView, Option.any_map, Option.any_eq_false]
      intro exp hexp
      refine decide_eq_false fun hlt => ?_
      have hkept : t.delete u.proof.domainID u.now (columns P u.scope.1) = some exp := by
        refine delete_eq_some.mpr ⟨hexp, fun h => absurd h.2 ?_⟩
        rw [u.now_exact]
        exact not_le.mpr hlt
      rw [hfound] at hkept
      cases hkept
    simp only [Ledger.use_true hdead, tableView_update hsha]
    rw [u.expiresAt_exact]
    exact ⟨trivial, Agree.update hdelete u.scope (some u.expiresAt.unixNano)⟩

/-! ### The verdicts -/

theorem length_zeros : (List.replicate 32 (0 : UInt8)).length = 32 := List.length_replicate

/-- An environment in which nothing fails. -/
def plainEnv : Env where
  now := ⟨0, 0⟩
  seed := none
  token := ⟨List.replicate 32 0, length_zeros⟩
  uuid := none
  sqlFails := false
  choice := 0
  ties := fun _ => 0
  order := fun _ => 0
  locks := fun _ => false
  message := none
  writeFails := false

/-- **The two stores agree.** On every sequence of uses in which no clock runs backwards, the cache
and the table, both empty at first, give the same verdicts; and a nonce is accepted exactly when
it has not been accepted before, or the time that came with its last acceptance has been
reached. -/
theorem stores_agree (hsha : Function.Injective P.sha256) {us : List NonceUse}
    (hclock : us.Pairwise fun u u' => u.now.unixNano ≤ u'.now.unixNano) :
    (∀ bs, TableVerdicts P (fun _ => none) us bs ↔ bs = verdicts cacheUse (fun _ => none) us) ∧
      ∀ us₁ u us₂, us = us₁ ++ u :: us₂ →
        ((verdicts cacheUse (fun _ => none) us)[us₁.length]? = some true ↔
          ∀ last, lastAccepted NonceUse.scope us₁ (verdicts cacheUse (fun _ => none) us₁) u.scope =
            some last → last.expiresAt.unixNano ≤ u.now.unixNano) := by
  have hcache : ∀ us : List NonceUse,
      (us.Pairwise fun u u' => u.now.unixNano ≤ u'.now.unixNano) →
      verdicts cacheUse (fun _ => none) us =
        verdicts (fun m u => Ledger.use m u.abs) (fun _ => none) us := fun us hus =>
    cache_simulates.verdicts_eq hus fun _ _ _ _ _ => Iff.rfl
  refine ⟨fun bs => ?_, ?_⟩
  · have htable := (table_simulates hsha).verdicts_eq hclock (s := fun _ => none)
      (m := fun _ => none) fun _ _ _ _ _ => Iff.rfl
    rw [tableVerdicts_iff (e := plainEnv) rfl, htable, hcache us hclock]
  · rintro us₁ u us₂ rfl
    have hbefore := (List.pairwise_append.mp hclock).1
    rw [hcache _ hclock, getElem?_verdicts, Option.some.injEq, Ledger.use_snd, after_ledger,
      hcache us₁ hbefore, Option.or_none]
    constructor
    · intro h last hlast
      exact h _ (Option.map_eq_some_iff.mpr ⟨last, hlast, rfl⟩)
    · intro h e he
      obtain ⟨last, hlast, rfl⟩ := Option.map_eq_some_iff.mp he
      exact h last hlast

/-- One nonce, used `k` microseconds after 1970 began, and good for two more. -/
def exampleUse (k : ℕ) : NonceUse where
  proof := ⟨[], lit "lab", lit "device-a", lit "relay", [], lit "1", ⟨0, 0⟩, noSignature⟩
  expiresAt := ⟨1000 * (k + 2), 0⟩
  now := ⟨1000 * k, 0⟩
  domain_ne := by decide
  device_ne := by decide
  audience_ne := by decide
  nonce_ne := by decide
  separated := ⟨by decide, by decide, by decide, by decide⟩
  expiresAt_exact := by
    simp only [timestamptz]
    omega
  now_exact := by
    simp only [timestamptz]
    omega

/-- It is refused before its time, and accepted again at its time. -/
theorem stores_agree_again : TableVerdicts .transparent (fun _ => none)
    [exampleUse 0, exampleUse 1, exampleUse 2] [true, false, true] :=
  ((stores_agree Primitives.sha256_injective_transparent (by decide)).1 _).mpr (by decide)

end Service

end Iscp
