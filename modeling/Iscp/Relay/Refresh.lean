import Iscp.Relay.Credentials
import Iscp.Relay.Requests

/-!
# How often a refresh token is exchanged

`refreshAccess` looks a refresh token up, revokes it and makes a new pair, in sections of their
own. Between the first and the second another request may do the same: whether a token was still
good when it was revoked is not looked at, neither in memory nor in the database.

A token is exchanged once, if that does not happen (`Iscp.Relay.Undisturbed`) and if no token is
drawn that has been presented before (`Iscp.Relay.FreshTokens`):
`Iscp.Relay.refresh_exchanged_once`. The invariant is that a token that has been spent is revoked
wherever it is kept, so that it is not found any more.
-/

namespace Iscp

namespace Relay

open Go Crypto Identity Replay Service Provisioning

/-! ### Tokens that are revoked -/

/-- A refresh token is revoked in memory, if it is there. -/
def Memory.RefreshRevoked (m : Memory) (hash : Bytes) : Prop :=
  ∀ cred, m.refresh hash = some cred → cred.revoked = true

/-- A refresh token is revoked in the database, if it is there. -/
def Database.RefreshRevoked (db : Database) (domainID : Str) (hash : Bytes) : Prop :=
  ∀ row, db.refreshTokens (domainID, hash) = some row → row.revokedAt ≠ none

theorem Memory.refreshRevoked_markRefresh (m : Memory) (hash : Bytes) :
    (m.markRefresh hash).RefreshRevoked hash := by
  intro cred hcred
  rw [refresh_markRefresh] at hcred
  obtain ⟨cred', -, rfl⟩ := Option.map_eq_some_iff.mp hcred
  rw [if_pos rfl]

variable {hash : Bytes}

theorem Memory.RefreshRevoked.markRefresh {m : Memory} (h : m.RefreshRevoked hash) (hash' : Bytes) :
    (m.markRefresh hash').RefreshRevoked hash := by
  intro cred hcred
  rw [Memory.refresh_markRefresh] at hcred
  obtain ⟨cred', hcred', rfl⟩ := Option.map_eq_some_iff.mp hcred
  split_ifs
  · rfl
  · exact h cred' hcred'

theorem Memory.RefreshRevoked.revokeDevice {m : Memory} (h : m.RefreshRevoked hash)
    (deviceID : Str) : (m.revokeDevice deviceID).RefreshRevoked hash := by
  intro cred hcred
  obtain ⟨cred', hcred', rfl⟩ := Option.map_eq_some_iff.mp hcred
  rw [Credential.revokeFor]
  split_ifs
  · rfl
  · exact h cred' hcred'

theorem Database.RefreshRevoked.map {db db' : Database} {domainID : Str}
    (h : db.RefreshRevoked domainID hash) {f : RelayCredential → RelayCredential}
    (hf : ∀ row, row.revokedAt ≠ none → (f row).revokedAt ≠ none)
    (hdb : db'.refreshTokens (domainID, hash) = (db.refreshTokens (domainID, hash)).map f) :
    db'.RefreshRevoked domainID hash := by
  intro row hrow
  obtain ⟨row', hrow', rfl⟩ := Option.map_eq_some_iff.mp (hdb.symm.trans hrow)
  exact hf row' (h row' hrow')

theorem Database.refreshRevoked_revokeRefreshByHash (db : Database) (domainID : Str) (hash : Bytes)
    (now : Time) : (db.revokeRefreshByHash domainID hash now).RefreshRevoked domainID hash := by
  intro row hrow
  obtain ⟨row', -, rfl⟩ := Option.map_eq_some_iff.mp hrow
  rw [if_pos rfl]
  exact row'.revokedAt_revoke now

variable {P : Primitives} {J : Unmarshal} {cfg : Config} {req : Request} {c : Snapshot}
  {x : Entry Env Event} {s : State}

/-- A refresh token that is revoked in memory stays revoked unless it is issued again. -/
theorem Effect.refreshRevoked (h : Effect P cfg req c x s) (hs : c.state.mem.RefreshRevoked hash)
    (hfresh : ∀ origin access refresh, .issued origin access refresh ∈ x.events →
      refresh.hash ≠ hash) : s.mem.RefreshRevoked hash := by
  rcases h.refresh_cases with hsame | ⟨origin, access, refresh, hv⟩ | ⟨hash', hv⟩ | ⟨deviceID, hv⟩
  · rw [Memory.RefreshRevoked, hsame]
    exact hs
  · obtain ⟨-, -, -, -, -, -, rfl⟩ := h.says_of_mem hv
    intro cred hcred
    refine hs cred ?_
    rw [← hcred]
    exact (Map.set_of_ne _ (hfresh _ _ _ hv).symm _).symm
  · obtain ⟨-, rfl⟩ := h.says_of_mem hv
    exact hs.markRefresh hash'
  · obtain ⟨-, rfl⟩ := h.says_of_mem hv
    exact hs.revokeDevice deviceID

/-- A row of a refresh token that is revoked stays revoked unless it is written again. -/
theorem Effect.rowRevoked (h : Effect P cfg req c x s)
    (hs : c.state.db.RefreshRevoked cfg.domainID hash) (hfresh : .keptRefresh hash ∉ x.events) :
    s.db.RefreshRevoked cfg.domainID hash := by
  rcases h.refreshTokens_cases with hsame | ⟨hash', hv⟩ | ⟨hash', hv⟩ | ⟨deviceID, hv⟩
  · rw [Database.RefreshRevoked, hsame]
    exact hs
  · obtain ⟨origin, expiresAt, db, -, -, hdb, rfl⟩ := h.says_of_mem hv
    obtain ⟨tokens, htokens, ⟨⟩⟩ := bind_eq_ok_iff.mp hdb
    obtain ⟨_, -, ⟨⟩⟩ := bind_eq_ok_iff.mp htokens
    intro row hrow
    refine hs row ?_
    rw [← hrow]
    refine (Function.update_of_ne (fun hkey => hfresh ?_) _ _).symm
    rw [(Prod.mk.inj hkey).2]
    exact hv
  · rcases h.says_of_mem hv with ⟨-, hmarked⟩ | ⟨-, -, now, rfl⟩
    · obtain ⟨-, rfl⟩ := h.says_of_mem hmarked
      exact hs
    · refine hs.map (fun row hrow => ?_) rfl
      split_ifs
      · exact row.revokedAt_revoke now
      · exact hrow
  · obtain ⟨-, now, rfl⟩ := h.says_of_mem hv
    refine hs.map (fun row hrow => ?_) rfl
    split_ifs
    · exact row.revokedAt_revoke now
    · exact hrow

/-! ### Runs -/

/-- **No token is drawn that has been presented before.** -/
def FreshTokens (c : Snapshot) (x : Entry Env Event) : Prop :=
  ∀ hash, (.keptRefresh hash ∈ x.events ∨
      ∃ origin access refresh, .issued origin access refresh ∈ x.events ∧ refresh.hash = hash) →
    ∀ i cred, ¬Did c.trace i (.found hash cred)

/-- **No other request exchanges a token** from when a request has found it to when it revokes
it. -/
def Undisturbed (c : Snapshot) (x : Entry Env Event) : Prop :=
  ∀ hash, .spent hash ∈ x.events → ∀ t₁ z t₂ cred, c.trace = t₁ ++ z :: t₂ →
    z.thread = x.thread → .found hash cred ∈ z.events → ∀ i, Did t₂ i (.spent hash) → i = x.thread

/-- **What holds of the tokens that have been spent.** -/
structure Spent (cfg : Config) (c : Snapshot) : Prop where
  marked : ∀ i hash, Did c.trace i (.marked hash) →
    (∃ cred, Did c.trace i (.found hash cred)) ∧ c.state.mem.RefreshRevoked hash
  spent : ∀ i hash, Did c.trace i (.spent hash) → Did c.trace i (.marked hash) ∧
    (cfg.repo = true → c.state.db.RefreshRevoked cfg.domainID hash)
  gone : ∀ t₁ z t₂ hash cred i, c.trace = t₁ ++ z :: t₂ → .found hash cred ∈ z.events →
    ¬Did t₁ i (.spent hash)
  once : ∀ i j hash, Did c.trace i (.spent hash) → Did c.trace j (.spent hash) → i = j
  issued : ∀ i hash cred access refresh,
    Did c.trace i (.issued (.refreshed hash cred) access refresh) → Did c.trace i (.spent hash)

theorem Spent.not_found (hc : Spent cfg c) (h : Effect P cfg req c x s) {cred : Credential}
    (hv : .found hash cred ∈ x.events) (i : ℕ) : ¬Did c.trace i (.spent hash) := by
  intro hspent
  obtain ⟨hmarked, hrow⟩ := hc.spent i hash hspent
  obtain ⟨-, ⟨hfound, hgood⟩ | ⟨hrepo, now, row, hfound, -⟩⟩ := h.says_of_mem hv
  · rw [(hc.marked i hash hmarked).2 cred hfound] at hgood
    cases hgood
  · obtain ⟨hget, hgood⟩ := Option.filter_eq_some_iff.mp hfound
    exact hrow hrepo row hget (of_decide_eq_true hgood).1

theorem Spent.exists_found (hc : Spent cfg c) (h : Effect P cfg req c x s)
    (hv : .spent hash ∈ x.events) : ∃ cred, Did c.trace x.thread (.found hash cred) := by
  rcases h.says_of_mem hv with ⟨-, hmarked⟩ | ⟨-, hmarked, -⟩
  · exact (h.says_of_mem hmarked).1
  · exact (hc.marked _ _ hmarked).1

/-- **A token that is spent has not been spent by another request.** -/
theorem Spent.eq_of_spent (hc : Spent cfg c) (h : Effect P cfg req c x s) (hx : Undisturbed c x)
    (hv : .spent hash ∈ x.events) {i : ℕ} (hi : Did c.trace i (.spent hash)) : i = x.thread := by
  obtain ⟨cred, z, hz, hthread, hfound⟩ := hc.exists_found h hv
  obtain ⟨t₁, t₂, ht⟩ := List.append_of_mem hz
  obtain ⟨y, hy, rfl, hspent⟩ := hi
  -- not before the request has found it, and not after that
  rw [ht, List.mem_append, List.mem_cons] at hy
  rcases hy with hy | rfl | hy
  · exact absurd ⟨y, hy, rfl, hspent⟩ (hc.gone t₁ z t₂ hash cred y.thread ht hfound)
  · exact hthread
  · exact hx hash hv t₁ z t₂ cred ht hthread hfound y.thread ⟨y, hy, rfl, hspent⟩

/-- One section keeps what holds of the spent tokens. -/
theorem Spent.step (hc : Spent cfg c) (h : Effect P cfg req c x s) (hfresh : FreshTokens c x)
    (hx : Undisturbed c x) : Spent cfg ⟨s, c.trace ++ [x]⟩ := by
  -- no token like one that has been found is drawn
  have hmem : ∀ {i hash cred}, Did c.trace i (.found hash cred) → c.state.mem.RefreshRevoked hash →
      s.mem.RefreshRevoked hash := fun hfound hrevoked => h.refreshRevoked hrevoked
    fun origin access refresh hv heq =>
      hfresh _ (.inr ⟨origin, access, refresh, hv, heq⟩) _ _ hfound
  refine ⟨fun i hash hi => ?_, fun i hash hi => ?_, fun t₁ z t₂ hash cred i ht hv => ?_,
    fun i j hash hi hj => ?_, fun i hash cred access refresh hi => ?_⟩
  · rcases did_snoc.mp hi with hi | ⟨rfl, hv⟩
    · obtain ⟨⟨cred, hfound⟩, hrevoked⟩ := hc.marked i hash hi
      exact ⟨⟨cred, did_snoc.mpr (.inl hfound)⟩, hmem hfound hrevoked⟩
    · obtain ⟨⟨cred, hfound⟩, rfl⟩ := h.says_of_mem hv
      exact ⟨⟨cred, did_snoc.mpr (.inl hfound)⟩, Memory.refreshRevoked_markRefresh _ hash⟩
  · rcases did_snoc.mp hi with hi | ⟨rfl, hv⟩
    · obtain ⟨hmarked, hrow⟩ := hc.spent i hash hi
      obtain ⟨cred, hfound⟩ := (hc.marked i hash hmarked).1
      exact ⟨did_snoc.mpr (.inl hmarked), fun hrepo => h.rowRevoked (hrow hrepo) fun hv =>
        hfresh hash (.inl hv) i cred hfound⟩
    · rcases h.says_of_mem hv with ⟨hrepo, hmarked⟩ | ⟨-, hmarked, now, rfl⟩
      · refine ⟨did_snoc.mpr (.inr ⟨rfl, hmarked⟩), fun hrepo' => ?_⟩
        cases hrepo.symm.trans hrepo'
      · exact ⟨did_snoc.mpr (.inl hmarked), fun _ =>
          Database.refreshRevoked_revokeRefreshByHash _ _ hash now⟩
  · rcases snoc_eq_split.mp ht with ⟨rfl, rfl, -⟩ | ⟨t₂', -, ht'⟩
    · exact hc.not_found h hv i
    · exact hc.gone t₁ z t₂' hash cred i ht' hv
  · rcases did_snoc.mp hi with hi | ⟨rfl, hvi⟩ <;> rcases did_snoc.mp hj with hj | ⟨rfl, hvj⟩
    · exact hc.once i j hash hi hj
    · exact hc.eq_of_spent h hx hvj hi
    · exact (hc.eq_of_spent h hx hvi hj).symm
    · rfl
  · rcases did_snoc.mp hi with hi | ⟨rfl, hv⟩
    · exact did_snoc.mpr (.inl (hc.issued i hash cred access refresh hi))
    · obtain ⟨-, ⟨-, hspent⟩, -⟩ := h.says_of_mem hv
      exact did_snoc.mpr (.inl hspent)

theorem spent_of_reachable
    (hc : (sections P cfg fun c x => FreshTokens c x ∧ Undisturbed c x).Reachable c) :
    Spent cfg c := by
  refine hc.invariant ?_ ?_
  · rintro ⟨s, t⟩ ⟨-, rfl⟩
    have hnone : ∀ i v, ¬Did ([] : Trace) i v := fun _ _ ⟨_, hx, _⟩ => List.not_mem_nil hx
    exact ⟨fun i _ h => (hnone i _ h).elim, fun i _ h => (hnone i _ h).elim,
      fun t₁ z t₂ _ _ _ ht => absurd ht.symm (by simp), fun i _ _ h => (hnone i _ h).elim,
      fun i _ _ _ _ h => (hnone i _ h).elim⟩
  · rintro c x ⟨s, t⟩ - hc ⟨⟨hfresh, hx⟩, rfl, req, hE⟩
    exact hc.step hE hfresh hx

/-- The later of two events draws the token the earlier one has found, or spends the one the
earlier one has spent. -/
def Event.clashes : Event → Event → Bool
  | .found hash _, .keptRefresh hash' | .spent hash, .spent hash' => hash = hash'
  | .found hash _, .issued _ _ refresh => hash = refresh.hash
  | _, _ => false

/-- No event of a section clashes with one of the section before. -/
def Apart (y x : Entry Env Event) : Prop := ∀ v ∈ y.events, ∀ v' ∈ x.events, ¬v.clashes v'

instance : DecidableRel Apart := fun _ _ => inferInstanceAs (Decidable (∀ _ ∈ _, _))

theorem undisturbed_of_apart {t : Trace} (ht : t.Pairwise Apart) (hx : c.trace ++ [x] <+: t) :
    FreshTokens c x ∧ Undisturbed c x := by
  refine ⟨?_, ?_⟩
  · rintro hash hv i cred ⟨y, hy, -, hfound⟩
    have hapart := rel_of_pairwise ht hx hy _ hfound
    rcases hv with hv | ⟨origin, access, refresh, hv, rfl⟩ <;>
      exact hapart _ hv (by simp [Event.clashes])
  · rintro hash hv t₁ z t₂ cred hsplit - - i ⟨y, hy, -, hspent⟩
    have hmem : y ∈ c.trace := by simp [hsplit, hy]
    exact absurd (by simp [Event.clashes]) (rel_of_pairwise ht hx hmem _ hspent _ hv)

/-! ### Main results -/

/-- **A refresh token is exchanged once**, if no other request exchanges it in between: two
requests that have made credentials for it, or that were answered with credentials, are the same. -/
theorem refresh_exchanged_once {w : World}
    (hw : (server P J cfg fun c x => FreshTokens c x ∧ Undisturbed c x).Reachable w) {i j : ℕ} :
    (∀ hash cred cred' access access' refresh refresh',
      Did w.trace i (.issued (.refreshed hash cred) access refresh) →
      Did w.trace j (.issued (.refreshed hash cred') access' refresh') → i = j) ∧
    ∀ token body body', w.threads i = some (.refreshAccess token, .done (.json 200 body)) →
      w.threads j = some (.refreshAccess token, .done (.json 200 body')) →
      i = j ∧ body = body' := by
  have hs := sound hw
  have hspent := spent_of_reachable hs.reachable
  refine ⟨fun hash cred cred' access access' refresh refresh' hi hj => ?_,
    fun token body body' hi hj => ?_⟩
  · exact hspent.once i j hash (hspent.issued _ _ _ _ _ hi) (hspent.issued _ _ _ _ _ hj)
  · obtain ⟨-, hspenti⟩ : _ ∧ Did w.trace i (.spent (P.sha256 token)) := hs.result (.inl hi)
    obtain ⟨-, hspentj⟩ : _ ∧ Did w.trace j (.spent (P.sha256 token)) := hs.result (.inl hj)
    obtain rfl := hspent.once i j _ hspenti hspentj
    rw [hi] at hj
    cases hj
    exact ⟨rfl, rfl⟩

/-- A device exchanges its refresh token, and is refused when it presents it again; then it
exchanges the token it was given for it. -/
theorem refresh_exchanged_once_bound : ∃ w token token' body body' err,
    (server .transparent unreadable (exampleConfig false)
      fun c x => FreshTokens c x ∧ Undisturbed c x).Reachable w ∧
    w.threads 1 = some (.refreshAccess token, .done (.json 200 body)) ∧
    w.threads 2 = some (.refreshAccess token, .stop (.error 401 err)) ∧
    w.threads 3 = some (.refreshAccess token', .done (.json 200 body')) ∧
    (∀ i body'', w.threads i = some (.refreshAccess token, .done (.json 200 body'')) →
      i = 1 ∧ body'' = body) ∧
    ∀ i body'', w.threads i = some (.refreshAccess token', .done (.json 200 body'')) →
      i = 3 ∧ body'' = body' := by
  obtain ⟨w, hw, ⟨body, h₁⟩, ⟨err, h₂⟩, ⟨body', h₃⟩, hapart⟩ : ∃ w ∈ binding
      (serves 1 (.refreshAccess (tokenOf (drawing 0))) (drawing 1) 7 ++
        serves 2 (.refreshAccess (tokenOf (drawing 0))) (drawing 2) 1 ++
        serves 3 (.refreshAccess (tokenOf (drawing 1))) (drawing 3) 7),
      World.Answers w 1 (.refreshAccess (tokenOf (drawing 0))) 200 ∧
        World.Refuses w 2 (.refreshAccess (tokenOf (drawing 0))) 401 ∧
        World.Answers w 3 (.refreshAccess (tokenOf (drawing 1))) 200 ∧
        w.trace.Pairwise Apart := by
    decide +kernel
  have hreachable := reachable_of_binding hw fun c x hx => undisturbed_of_apart hapart hx
  exact ⟨w, _, _, body, body', err, hreachable, h₁, h₂, h₃,
    fun i body'' hi => (refresh_exchanged_once hreachable).2 _ _ _ hi h₁,
    fun i body'' hi => (refresh_exchanged_once hreachable).2 _ _ _ hi h₃⟩

/-- **A refresh token is exchanged twice**: both requests have found it before either revokes
it. -/
theorem refresh_exchanged_twice : ∃ w token body body',
    (server .transparent unreadable (exampleConfig false) Server.always).Reachable w ∧
    w.threads 1 = some (.refreshAccess token, .done (.json 200 body)) ∧
    w.threads 2 = some (.refreshAccess token, .done (.json 200 body')) := by
  obtain ⟨w, hw, ⟨body, h₁⟩, body', h₂⟩ : ∃ w ∈ binding
      (serves 1 (.refreshAccess (tokenOf (drawing 0))) (drawing 1) 2 ++
        serves 2 (.refreshAccess (tokenOf (drawing 0))) (drawing 2) 7 ++
        List.replicate 5 (.run 1 (drawing 1))),
      World.Answers w 1 (.refreshAccess (tokenOf (drawing 0))) 200 ∧
        World.Answers w 2 (.refreshAccess (tokenOf (drawing 0))) 200 := by
    decide +kernel
  exact ⟨w, _, body, body', reachable_of_binding hw fun _ _ _ => trivial, h₁, h₂⟩

end Relay

end Iscp
