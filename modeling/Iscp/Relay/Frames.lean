import Iscp.Relay.Alone

/-!
# What the handlers of the Relay leave alone

The parts the handlers of the Relay are made of, for every view of the state that does not show what
the part changes, and every property of events that those of the part have: who authenticates with
an access token uses a nonce, or has a token marked that has expired, and who binds an identity
changes devices and credentials.
-/

namespace Iscp.Relay

open Go Crypto Identity Replay Service Provisioning

open Handler (frames_attempt frames_done frames_ite frames_look frames_note frames_ofExcept
  frames_stop frames_stopIf)

variable {P : Primitives} {J : Unmarshal} {cfg : Config} {τ : Type} {v : State → τ}
  {N : Event → Prop}

theorem forall_mem_toList_map {α : Type} {f : α → Event} (hf : ∀ a, N (f a)) (found : Option α) :
    ∀ w ∈ found.toList.map f, N w := by
  intro w hw
  obtain ⟨a, -, rfl⟩ := List.mem_map.mp hw
  exact hf a

/-! ### Lookups -/

theorem lookupIdentity_frames (hlooked : ∀ d id, N (.looked d id)) (domainID deviceID : Str) :
    (lookupIdentity cfg domainID deviceID).Frames v N := by
  refine .bind (frames_attempt ?_) fun found => ?_
  · rintro e s s' a events ⟨⟩
    exact ⟨rfl, forall_mem_toList_map (hlooked deviceID) _⟩
  split
  · exact frames_done _
  · refine frames_ite (frames_statement ?_) (frames_done _)
    rintro e s db a events ⟨⟩
    exact ⟨rfl, List.forall_mem_nil _⟩

theorem lookupDevice_frames (hlooked : ∀ d id, N (.looked d id)) (deviceID : Str) :
    (lookupDevice cfg deviceID).Frames v N := by
  refine .bind (frames_attempt ?_) fun ⟨known, revoked⟩ => frames_ite (.bind
    (Handler.Frames.outcome (frames_statement ?_)) fun _ => frames_done _) (frames_done _)
  · rintro e s s' a events ⟨⟩
    refine ⟨rfl, ?_⟩
    split_ifs
    · exact List.forall_mem_nil _
    · exact forall_mem_toList_map (hlooked deviceID) _
  · rintro e s db a events ⟨⟩
    exact ⟨rfl, forall_mem_toList_map (hlooked deviceID) _⟩

theorem lookupRefresh_frames (hfound : ∀ hash cred, N (.found hash cred)) (hash : Bytes) :
    (lookupRefresh cfg hash).Frames v N := by
  refine .bind (frames_attempt ?_) fun found => frames_ite (.bind frames_clock fun _ =>
    frames_statement ?_) (frames_done _)
  · rintro e s s' a events ⟨⟩
    exact ⟨rfl, forall_mem_toList_map (hfound hash) _⟩
  · rintro e s db a events ⟨⟩
    exact ⟨rfl, forall_mem_toList_map (hfound hash) _⟩

/-! ### Authentication -/

/-- **Nothing of this depends on the nonces** that have been used, nor does it say anything of the
lookups and proofs of a request. -/
structure Untouched (v : State → τ) (N : Event → Prop) : Prop where
  cache : ∀ s cache, v (nonceStore.setCache s cache) = v s
  table : ∀ s table, v (nonceStore.setTable s table) = v s
  looked : ∀ d id, N (.looked d id)
  used : ∀ proof ttl now isNew, N (.used proof ttl now isNew)

theorem Untouched.verifyProof (h : Untouched v N) (id : DeviceIdentity) (proof : DeviceProof)
    (audience challenge : Str) (ttl : Duration) :
    (verifyProof P cfg id proof audience challenge ttl).Frames v N :=
  verifyProof_frames h.cache h.table h.used _ _ _ _ _

theorem Untouched.verifyAccessProof (hv : Untouched v N) (h : Headers) (method path : Str)
    (cred : Credential) (hash : Bytes) :
    (verifyAccessProof P J cfg h method path cred hash).Frames v N := by
  refine frames_ite (.bind (frames_stopIf _ _) fun _ => .bind (frames_ofExcept _) fun raw => ?_)
    (frames_done _)
  split
  · exact frames_stop _
  · refine .bind (lookupIdentity_frames hv.looked _ _) fun found => ?_
    split
    · exact frames_stop _
    · exact hv.verifyProof _ _ _ _ _

/-- **Authentication** leaves alone what does not depend on the access tokens in memory either. -/
theorem Untouched.authenticateAccess (hv : Untouched v N)
    (haccess : ∀ s access, v { s with mem := { s.mem with access := access } } = v s)
    (hrecognized : ∀ cred now, N (.recognized cred now)) (h : Headers) (method path : Str) :
    (authenticateAccess P J cfg h method path).Frames v N := by
  refine .bind (frames_stopIf _ _) fun _ => .bind frames_clock fun now =>
    .bind (.bind (frames_attempt ?_) fun _ => frames_ite (frames_statement ?_) (frames_done _))
    fun found => ?_
  · rintro e s s' a events ⟨⟩
    exact ⟨haccess .., forall_mem_toList_map (hrecognized · now) _⟩
  · rintro e s db a events ⟨⟩
    exact ⟨rfl, forall_mem_toList_map (hrecognized · now) _⟩
  · split
    · exact frames_stop _
    · exact .bind (hv.verifyAccessProof _ _ _ _ _) fun _ => frames_done _

/-! ### Credentials -/

theorem persistDevice_frames
    (hdevices : ∀ s devices, v { s with db := { s.db with devices := devices } } = v s)
    (hstored : ∀ id, N (.stored id)) (id : DeviceIdentity) :
    (persistDevice P cfg id).Frames v N := by
  refine frames_ite (.bind (frames_ofExcept _) fun _ => .bind (frames_ofExcept _) fun _ =>
    .bind frames_clock fun _ => .bind (frames_newUUID _) fun _ => frames_statement ?_)
    (frames_done _)
  rintro e s db a events ⟨⟩
  exact ⟨hdevices .., List.forall_mem_singleton.mpr (hstored id)⟩

theorem consumeTicket_frames
    (htickets : ∀ s tickets, v { s with mem := { s.mem with tickets := tickets } } = v s)
    (hconsumed : ∀ ticketID maxUses, N (.consumed ticketID maxUses)) (ticketID : Str)
    (maxUses : ℤ) : (consumeTicket ticketID maxUses).Frames v N := by
  refine frames_attempt fun e s s' a events h => ?_
  split at h
  · cases h
    exact ⟨htickets .., List.forall_mem_singleton.mpr (hconsumed ..)⟩
  · cases h

/-- **Nothing of this depends on credentials**, in memory or in their tables, nor does it say
anything of credentials that are issued. -/
structure Credentialless (v : State → τ) (N : Event → Prop) : Prop where
  accessRows : ∀ s tokens, v { s with db := { s.db with accessTokens := tokens } } = v s
  refreshRows : ∀ s tokens, v { s with db := { s.db with refreshTokens := tokens } } = v s
  issue : ∀ s access refresh, v { s with mem := s.mem.issue access refresh } = v s
  keptAccess : ∀ cred, N (.keptAccess cred)
  keptRefresh : ∀ hash, N (.keptRefresh hash)
  issued : ∀ origin access refresh, N (.issued origin access refresh)

theorem Credentialless.issueCredentials (h : Credentialless v N) (origin : Origin) :
    (issueCredentials P cfg origin).Frames v N := by
  refine .bind frames_clock fun _ => .bind (frames_look _) fun _ => .bind (frames_look _) fun _ =>
    .bind (frames_ite (.bind (frames_newUUID _) fun _ => .bind (frames_newUUID _) fun _ =>
      .bind (frames_statement ?_) fun _ => frames_statement ?_) (frames_done _))
    fun _ => frames_attempt ?_
  · intro e s db a events hf
    obtain ⟨_, hdb, ⟨⟩⟩ := bind_eq_ok_iff.mp hf
    obtain ⟨_, -, ⟨⟩⟩ := bind_eq_ok_iff.mp hdb
    exact ⟨h.accessRows .., List.forall_mem_singleton.mpr (h.keptAccess _)⟩
  · intro e s db a events hf
    obtain ⟨_, hdb, ⟨⟩⟩ := bind_eq_ok_iff.mp hf
    obtain ⟨_, -, ⟨⟩⟩ := bind_eq_ok_iff.mp hdb
    exact ⟨h.refreshRows .., List.forall_mem_singleton.mpr (h.keptRefresh _)⟩
  · rintro e s s' a events ⟨⟩
    exact ⟨h.issue .., List.forall_mem_singleton.mpr (h.issued ..)⟩

theorem Credentialless.bindIdentity (h : Credentialless v N)
    (hrows : ∀ s devices, v { s with db := { s.db with devices := devices } } = v s)
    (hdevices : ∀ s devices, v { s with mem := { s.mem with devices := devices } } = v s)
    (hadmitted : ∀ id, N (.admitted id)) (hstored : ∀ id, N (.stored id))
    (hbound : ∀ id, N (.bound id)) (id : DeviceIdentity) :
    (bindIdentity P cfg id).Frames v N := by
  refine .bind (frames_note (List.forall_mem_singleton.mpr (hadmitted id))) fun _ =>
    .bind (persistDevice_frames hrows hstored id).mapStop fun _ =>
    .bind (h.issueCredentials (.bound id)).mapStop fun ⟨_, _⟩ => .bind (frames_attempt ?_) fun _ =>
    frames_done _
  rintro e s s' a events ⟨⟩
  exact ⟨hdevices .., List.forall_mem_singleton.mpr (hbound id)⟩

end Iscp.Relay
