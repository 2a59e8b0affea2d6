import Iscp.Relay.Refusal

/-!
# Replicas

Several Relays with one database. Each has its own memory, and asks it first: an access token, a
refresh token and the identity of a device are looked for in the database only when they are not in
memory. A device is revoked in the database and in the memory of the one replica that serves the
request, so another replica that has a credential of the device in its memory goes on to accept it.

If no other replica has an identity of the device or a credential of it that is good, revocation
reaches all replicas: none lets the device in, until it is bound again
(`Iscp.Relay.revocation_reaches_replicas`).
-/

namespace Iscp

namespace Relay

open Go Crypto Identity Replay Service Provisioning

/-- **Replicas**: the memory of each, the database they share, and the record. -/
structure Cluster where
  mems : ℕ → Memory
  db : Database
  trace : Trace

/-- What one replica sees. -/
def Cluster.snapshot (K : Cluster) (j : ℕ) : Snapshot := ⟨⟨K.mems j, K.db⟩, K.trace⟩

/-- What a replica has made of what it has seen. -/
def Cluster.put (K : Cluster) (j : ℕ) (c : Snapshot) : Cluster :=
  ⟨Function.update K.mems j c.state.mem, c.state.db, c.trace⟩

variable (P : Primitives) (J : Unmarshal) (cfg : Config)

/-- **The runs of the replicas**: each request is served by one of them, and each section meets the
condition. -/
def cluster (C : Snapshot → Entry Env Event → Prop) : System Cluster (ℕ × Request × Answer) where
  init := fun K => (∀ j, Initial P cfg ⟨K.mems j, K.db⟩) ∧ K.trace = []
  step := fun K a K' => ∃ i c, (∀ y ∈ K.trace, y.thread ≠ i) ∧
    (handle P J cfg a.2.1).Serves C i (K.snapshot a.1) a.2.2 c ∧ K' = K.put a.1 c

/-- **The device is not bound again.** -/
def Unbound (deviceID : Str) (_ : Snapshot) (x : Entry Env Event) : Prop :=
  ∀ id, .admitted id ∈ x.events → id.deviceID ≠ deviceID

variable {P J cfg} {C : Snapshot → Entry Env Event → Prop} {req : Request} {c c' : Snapshot}
  {x : Entry Env Event} {s : State} {deviceID : Str} {i : ℕ} {r : Answer}

theorem Cluster.mems_put_self (K : Cluster) (j : ℕ) (c : Snapshot) :
    (K.put j c).mems j = c.state.mem := Function.update_self ..

theorem Cluster.mems_put_of_ne (K : Cluster) {j k : ℕ} (hk : k ≠ j) (c : Snapshot) :
    (K.put j c).mems k = K.mems k := Function.update_of_ne hk ..

/-! ### The request that revokes a device -/

/-- **What an event of a request has brought about holds when it has been answered**, if the request
does not undo it. -/
theorem holds_of_did {v : Event} {Q : State → Prop} (hi : ∀ y ∈ c.trace, y.thread ≠ i)
    (h : (handle P J cfg req).Serves C i c r c') (hdid : Did c'.trace i v)
    (hmakes : ∀ c x s, Effect P cfg req c x s → v ∈ x.events → Q s)
    (hkeeps : ∀ c x s, Effect P cfg req c x s → Q c.state → Q s) : Q c'.state := by
  refine (Handler.keeps_of_serves (handle_safe i req c.trace) h
    (R := fun c => Did c.trace i v → Q c.state) ?_ ?_).1 hdid
  · intro c x s hc _ _ hE hdid
    rcases did_snoc.mp hdid with hdid | ⟨-, hv⟩
    · exact hkeeps c x s hE (hc hdid)
    · exact hmakes c x s hE hv
  · rintro ⟨y, hy, hthread, -⟩
    exact absurd hthread (hi y hy)

/-- **A request that has revoked a device has shut it out**, of its replica and of the database. -/
theorem shut_of_revokeAccess (hrepo : cfg.repo = true) {h : Headers} {body : Body}
    (hi : ∀ y ∈ c.trace, y.thread ≠ i)
    (hserves : (handle P J cfg (.revokeAccess h deviceID)).Serves C i c (.json 200 body) c') :
    c'.state.mem.Shut deviceID ∧ c'.state.db.Shut cfg.domainID deviceID := by
  have hreq : (Request.revokeAccess h deviceID).Revokes deviceID := rfl
  obtain ⟨-, hrevoked, hrows⟩ := Handler.keeps_of_serves
    (handle_safe i (.revokeAccess h deviceID) c.trace) hserves (R := fun _ => True)
    (fun _ _ _ _ _ _ _ => trivial) trivial
  obtain ⟨hrow, haccess, hrefresh⟩ := hrows hrepo
  have hmem : c'.state.mem.Closed deviceID ∧ c'.state.mem.revoked deviceID ≠ none := by
    refine holds_of_did (Q := fun s => s.mem.Closed deviceID ∧ s.mem.revoked deviceID ≠ none) hi
      hserves hrevoked (fun c x s hE hv => ?_) fun c x s hE hs => ?_
    · obtain ⟨-, rfl⟩ := hE.says_of_mem hv
      have hclosed := c.state.mem.closed_revokeDevice deviceID
      exact ⟨⟨hclosed.access, hclosed.refresh⟩, c.state.mem.revoked_revokeDevice deviceID⟩
    · exact ⟨hE.closed hs.1 fun _ _ _ hv => absurd hreq ((hE.says_of_mem hv).1 deviceID),
        hE.revoked_ne_none hs.2⟩
  refine ⟨⟨hmem.1, .inr hmem.2⟩, ?_, ?_, ?_⟩
  · refine holds_of_did (Q := fun s => RowRevoked cfg.domainID deviceID s.db.devices) hi hserves
      hrow (fun c x s hE hv => ?_) fun c x s hE hs => ?_
    · obtain ⟨-, rfl⟩ := hE.says_of_mem hv
      intro row hrow
      obtain ⟨row', -, rfl⟩ := Option.map_eq_some_iff.mp hrow
      rw [if_pos rfl]
    · exact hE.rowRevoked_of_ne hs fun _ hv =>
        absurd hreq ((hE.says_of_mem hv).1.not_revokes deviceID)
  · refine holds_of_did (Q := fun s => TokensRevoked cfg.domainID deviceID s.db.accessTokens) hi
      hserves haccess (fun c x s hE hv => ?_) fun c x s hE hs => ?_
    · obtain ⟨-, now, rfl⟩ := hE.says_of_mem hv
      exact tokensRevoked_revoke _ _ _ _
    · exact hE.accessRevoked hs fun _ hnot _ => absurd hreq (hnot deviceID)
  · refine holds_of_did (Q := fun s => TokensRevoked cfg.domainID deviceID s.db.refreshTokens) hi
      hserves hrefresh (fun c x s hE hv => ?_) fun c x s hE hs => ?_
    · obtain ⟨-, now, rfl⟩ := hE.says_of_mem hv
      exact tokensRevoked_revoke _ _ _ _
    · exact hE.refreshTokensRevoked hs fun _ hnot _ => absurd hreq (hnot deviceID)

/-! ### Main results -/

/-- The device is shut out of all replicas. -/
def Cluster.Shut (K : Cluster) (cfg : Config) (deviceID : Str) : Prop :=
  (∀ j, (K.mems j).Shut deviceID) ∧ K.db.Shut cfg.domainID deviceID

variable {K : Cluster}

/-- **One more request**, served by any replica. -/
theorem Cluster.Shut.step (hrepo : cfg.repo = true) {K' : Cluster} (hK : K.Shut cfg deviceID)
    {a : ℕ × Request × Answer}
    (h : (cluster P J cfg fun c x => C c x ∧ Unbound deviceID c x).step K a K') :
    NotLetIn deviceID K.trace K'.trace ∧ K'.Shut cfg deviceID := by
  obtain ⟨i, c, hi, hserves, rfl⟩ := h
  obtain ⟨ht, hs⟩ := (Handler.keeps_of_serves (handle_safe i a.2.1 K.trace) hserves
    (R := fun c => NotLetIn deviceID K.trace c.trace ∧ Relay.Shut cfg c.state deviceID)
    (fun c x s ⟨ht, hs⟩ hC hthread hE => ht.step (hthread ▸ hi) hs hE hC.2)
    ⟨.refl _, hK.1 a.1, fun _ => hK.2⟩).1
  refine ⟨ht, fun k => ?_, hs.db hrepo⟩
  rcases eq_or_ne k a.1 with rfl | hk
  · rw [Cluster.mems_put_self]
    exact hs.mem
  · rw [Cluster.mems_put_of_ne _ hk]
    exact hK.1 k

/-- **Revocation reaches all replicas**, if no other one has an identity of the device or a
credential of it that is good: once a replica has answered that the device is revoked, none lets it
in, as long as it is not bound again. -/
theorem revocation_reaches_replicas (hrepo : cfg.repo = true) {K K₁ K₂ : Cluster} {j : ℕ}
    {h : Headers} {body : Body}
    (hrevoke : (cluster P J cfg C).step K (j, .revokeAccess h deviceID, .json 200 body) K₁)
    (hothers : ∀ k, k ≠ j → (K.mems k).Shut deviceID)
    (hleads : (cluster P J cfg fun c x => C c x ∧ Unbound deviceID c x).Leads K₁ K₂) :
    NotLetIn deviceID K₁.trace K₂.trace := by
  obtain ⟨i, c, hi, hserves, rfl⟩ := hrevoke
  obtain ⟨hmem, hdb⟩ := shut_of_revokeAccess hrepo hi hserves
  have hK : (K.put j c).Shut cfg deviceID := by
    refine ⟨fun k => ?_, hdb⟩
    rcases eq_or_ne k j with rfl | hk
    · rw [Cluster.mems_put_self]
      exact hmem
    · rw [Cluster.mems_put_of_ne _ hk]
      exact hothers k hk
  refine (hleads.keeps (Q := fun K' => NotLetIn deviceID (K.put j c).trace K'.trace ∧
    K'.Shut cfg deviceID) ?_ ⟨.refl _, hK⟩).1
  rintro K₁ a K₂ ⟨ht, hK₁⟩ hstep
  obtain ⟨ht', hK₂⟩ := hK₁.step hrepo hstep
  exact ⟨ht.trans ht', hK₂⟩

/-! ### A token in the memory of another replica -/

/-- No statement fails. -/
def NoFailure (_ : Snapshot) (x : Entry Env Event) : Prop := x.env.sqlFails = false

/-- The row of a token that is good for a day. -/
def exampleRow : RelayCredential := ⟨lit "a", ⟨24 * hour, 0⟩, none⟩

/-- The hash of a token that is drawn. -/
def hashOf (b : UInt8) : Bytes := Primitives.transparent.sha256 (tokenOf (drawing b))

/-- The database has a refresh token of a device. -/
def exampleDatabase : Database :=
  { emptyDatabase with
    refreshTokens := Function.update (fun _ => none) (lit "lab", hashOf 0) (some exampleRow) }

/-- Replicas that have just been started. -/
def exampleCluster : Cluster := ⟨fun _ => Memory.new, exampleDatabase, []⟩

theorem reachable_exampleCluster :
    (cluster .transparent unreadable (exampleConfig true) NoFailure).Reachable exampleCluster :=
  .init ⟨fun _ => initial_lab rfl _, rfl⟩

/-- A request is served by a replica. -/
def Cluster.serving (K : Cluster) (j i : ℕ) (req : Request) :
    Option (Cluster × Except Answer Answer) :=
  (Handler.serve (handle .transparent unreadable (exampleConfig true)) i (drawing i.toUInt8) req
    (K.snapshot j)).map fun r => (K.put j r.1, r.2)

theorem Cluster.step_of_serving {j : ℕ} {r : Cluster × Except Answer Answer}
    (h : K.serving j i req = some r) (hC : ∀ c₁, ∀ x ∈ r.1.trace, C c₁ x) :
    (cluster .transparent unreadable (exampleConfig true) C).step K
      (j, req, Handler.reply r.2) r.1 := by
  obtain ⟨⟨c, x⟩, hserve, rfl⟩ := Option.map_eq_some_iff.mp h
  obtain ⟨hi, hserves⟩ := Handler.serves_of_serve (C := C) hserve
    fun c₁ y _ hy => hC c₁ y (hy.subset (by simp))
  exact ⟨i, c, hi, hserves, rfl⟩

/-- A device is revoked, and presents its refresh token to another replica. -/
theorem revocation_reaches_second_replica : ∃ K K₁ K₂ token answer,
    (cluster .transparent unreadable (exampleConfig true) NoFailure).Reachable K ∧
    (cluster .transparent unreadable (exampleConfig true) NoFailure).step K
      (0, .revokeAccess noHeaders (lit "a"), .json 200 .revoked) K₁ ∧
    (cluster .transparent unreadable (exampleConfig true)
      fun c x => NoFailure c x ∧ Unbound (lit "a") c x).step
        K₁ (1, .refreshAccess token, answer) K₂ ∧
    NotLetIn (lit "a") K₁.trace K₂.trace := by
  obtain ⟨⟨K₁, x⟩, h₁, hx, r₂, h₂, hfails, hfails', hadmits⟩ :
      ∃ r₁ ∈ exampleCluster.serving 0 0 (.revokeAccess noHeaders (lit "a")),
        sameResult r₁.2 (.ok (.json 200 .revoked)) ∧
        ∃ r₂ ∈ r₁.1.serving 1 1 (.refreshAccess (tokenOf (drawing 0))),
          (∀ y ∈ r₁.1.trace, y.env.sqlFails = false) ∧ (∀ y ∈ r₂.1.trace, y.env.sqlFails = false) ∧
            ∀ y ∈ r₂.1.trace, ∀ v ∈ y.events, v.admits = none := by
    decide +kernel
  obtain rfl := eq_of_sameResult hx
  have hrevoke := Cluster.step_of_serving (C := NoFailure) h₁ fun _ => hfails
  have hstep := Cluster.step_of_serving (C := fun c x => NoFailure c x ∧ Unbound (lit "a") c x) h₂
    fun _ y hy => ⟨hfails' y hy, fun id hv => nomatch hadmits y hy _ hv⟩
  exact ⟨_, K₁, _, _, _, reachable_exampleCluster, hrevoke, hstep,
    revocation_reaches_replicas rfl hrevoke (fun k _ => ⟨⟨nofun, nofun⟩, .inl rfl⟩)
      (.step .refl hstep)⟩

/-- **Another replica goes on to exchange tokens of a device that has been revoked.** -/
theorem revocation_misses_replica : ∃ K K₁ K₂ token body,
    (cluster .transparent unreadable (exampleConfig true) NoFailure).Reachable K ∧
    (cluster .transparent unreadable (exampleConfig true) NoFailure).step K
      (0, .revokeAccess noHeaders (lit "a"), .json 200 .revoked) K₁ ∧
    (cluster .transparent unreadable (exampleConfig true)
      fun c x => NoFailure c x ∧ Unbound (lit "a") c x).step K₁
      (1, .refreshAccess token, .json 200 body) K₂ ∧ ¬NotLetIn (lit "a") K₁.trace K₂.trace := by
  -- the other replica has the refresh token in its memory
  obtain ⟨r₀, h₀, ⟨K₁, x⟩, h₁, hx, ⟨K₂, x'⟩, h₂, ⟨body, rfl⟩, hfails₀, hfails₁, hfails₂, hadmits,
      hletsIn⟩ :
      ∃ r₀ ∈ exampleCluster.serving 1 1 (.refreshAccess (tokenOf (drawing 0))),
        ∃ r₁ ∈ r₀.1.serving 0 0 (.revokeAccess noHeaders (lit "a")),
        sameResult r₁.2 (.ok (.json 200 .revoked)) ∧
        ∃ r₂ ∈ r₁.1.serving 1 2 (.refreshAccess (tokenOf (drawing 1))), Served r₂.2 200 ∧
          (∀ y ∈ r₀.1.trace, y.env.sqlFails = false) ∧ (∀ y ∈ r₁.1.trace, y.env.sqlFails = false) ∧
          (∀ y ∈ r₂.1.trace, y.env.sqlFails = false) ∧
          (∀ y ∈ r₂.1.trace, ∀ v ∈ y.events, v.admits = none) ∧
            ∃ y ∈ r₂.1.trace.drop r₁.1.trace.length, ∃ v ∈ y.events, v.LetsIn (lit "a") := by
    decide +kernel
  obtain rfl := eq_of_sameResult hx
  exact ⟨_, K₁, K₂, _, body,
    reachable_exampleCluster.step (Cluster.step_of_serving h₀ fun _ => hfails₀),
    Cluster.step_of_serving h₁ fun _ => hfails₁, Cluster.step_of_serving h₂ fun _ y hy =>
      ⟨hfails₂ y hy, fun id hv => nomatch hadmits y hy _ hv⟩, not_notLetIn hletsIn⟩

end Relay

end Iscp
