import Iscp.TrustRoot.Frames
import Iscp.TrustRoot.Requests

/-!
# The revocation feed, page by page

What has been revoked is handed out in pages: a request names the identifier of the last item it
has seen, and gets the items after it, up to a limit, with a cursor for the next page if there is
one. In memory the items are a log that only grows (`Iscp.TrustRoot.feed_of_step`), and a page
starts after the item the cursor names. So a reader that follows the cursors has a beginning of the
log at every moment, and all of it when there is no further cursor
(`Iscp.TrustRoot.feed_read_exactly`) – however the limits change, and whatever has been revoked in
the meantime.
-/

namespace Iscp

namespace TrustRoot

open Go Crypto Identity Keyring Service Trust

open Handler (anything done_bind frames_attempt frames_done frames_look frames_note frames_ofExcept
  frames_stopIf safe_attempt safe_done safe_mapStop safe_stopIf safe_try)

variable {P : Primitives} {cfg : Config} {C : Snapshot → Entry Env Event → Prop}

/-! ### How the feed grows -/

/-- **What a section may do to the feed**: an item is added to the log, or a row with a new
identifier to the table. Either identifier is a UUID. -/
inductive FeedEffect (s s' : State) : Prop where
  | keep (hlog : s'.revocationLog = s.revocationLog) (hrows : s'.db.revocations = s.db.revocations)
  | log (id : Bytes) {item : RevocationItem} (hid : item.revocationID = uuidString id)
      (hlog : s'.revocationLog = s.revocationLog ++ [item])
      (hrows : s'.db.revocations = s.db.revocations)
  | row (id : Bytes) {row : TrustRevocation} (hid : row.id = uuidString id)
      (hnew : ∀ r ∈ s.db.revocations, r.id ≠ row.id)
      (hlog : s'.revocationLog = s.revocationLog)
      (hrows : s'.db.revocations = s.db.revocations ++ [row])

/-- The revocations, in memory and in the database. -/
def State.feed (s : State) : List RevocationItem × List TrustRevocation :=
  (s.revocationLog, s.db.revocations)

variable {s : State} {db' db : Database} {domainID cursor : Str} {w : World}
  {items read rest : List RevocationItem}

theorem FeedEffect.of_feed {s' : State} (h : s'.feed = s.feed) : FeedEffect s s' :=
  .keep (congrArg Prod.fst h) (congrArg Prod.snd h)

theorem Database.addRevocation_eq_ok {row : TrustRevocation} (h : db.addRevocation row = .ok db') :
    (∀ r ∈ db.revocations, r.id ≠ row.id) ∧ db'.revocations = db.revocations ++ [row] := by
  obtain ⟨_, hnew, ⟨⟩⟩ := bind_eq_ok_iff.mp h
  exact ⟨fun r hr hid => failIf_eq_ok_iff.mp hnew ⟨r, hr, .inl hid⟩, rfl⟩

theorem Database.revokeDevice_revocations {d : Str} (h : db.revokeDevice domainID d = .ok db') :
    db'.revocations = db.revocations := by
  rw [revokeDevice] at h
  split at h
  · cases h
    rfl
  · obtain ⟨_, -, h⟩ := bind_eq_ok_iff.mp h
    obtain ⟨_, -, ⟨⟩⟩ := bind_eq_ok_iff.mp h
    rfl

theorem Database.revokeGrant_revocations {g : Str} {now : Time}
    (h : db.revokeGrant domainID g now = .ok db') : db'.revocations = db.revocations := by
  rw [revokeGrant] at h
  split at h
  · cases h
  · obtain ⟨_, -, ⟨⟩⟩ := bind_eq_ok_iff.mp h
    rfl

theorem Database.authorizeDevice_revocations {d : Str} {row : TrustDevice}
    (h : db.authorizeDevice domainID d = .ok (db', row)) : db'.revocations = db.revocations := by
  rw [authorizeDevice] at h
  split at h
  · cases h
  · obtain ⟨_, -, h⟩ := bind_eq_ok_iff.mp h
    obtain ⟨_, -, ⟨⟩⟩ := bind_eq_ok_iff.mp h
    rfl

section Safe

variable {i : ℕ} {t : Trace} {α ω : Type} {Q : α → Trace → Prop}

/-- The effects on the feed, as effects of sections. -/
abbrev Feeds (c : Snapshot) (_ : Entry Env Event) (s : State) : Prop := FeedEffect c.state s

theorem feeds_idle (s : State) (t : Trace) (e : Env) : Feeds ⟨s, t⟩ ⟨i, e, []⟩ s := .of_feed rfl

theorem feeds_of_frames {p : Run ω α} (hp : p.Frames State.feed fun _ => True)
    (hQ : ∀ a t', t <+: t' → Q a t') : p.Safe Feeds i Q anything t :=
  hp.safe (fun _ _ _ _ _ hv _ => .of_feed hv) hQ fun _ _ _ => trivial

/-- **A statement that adds a row at most** extends the feed. -/
theorem feeds_statement (id : Bytes) {f : Env → Database → Except Error (Database × Unit)}
    (hf : ∀ e db db', f e db = .ok (db', ()) →
      db' = db ∨ ∃ row : TrustRevocation, row.id = uuidString id ∧ db.addRevocation row = .ok db') :
    (statement domainID f).Safe Feeds i (fun _ _ => True) anything t := by
  refine .bind (safe_stopIf (fun _ _ _ => trivial) fun _ t₁ _ => ?_)
  refine safe_sql feeds_idle (fun s t₂ e s' a events _ h => ⟨?_, fun _ _ => trivial⟩)
    fun _ _ _ => trivial
  obtain ⟨⟨db, a'⟩, hdb, ⟨⟩⟩ := bind_eq_ok_iff.mp h
  rcases hf e s.db db hdb with rfl | ⟨row, hid, hadd⟩
  · exact .keep rfl rfl
  · obtain ⟨hnew, hrows⟩ := Database.addRevocation_eq_ok hadd
    exact .row id hid hnew rfl hrows

theorem repoRevokeDevice_feeds (id : Bytes) (deviceID reason : Str) (now : Time) :
    (repoRevokeDevice cfg (uuidString id) deviceID reason now).Safe Feeds i (fun _ _ => True)
      anything t := by
  rw [repoRevokeDevice]
  refine .bind (feeds_of_frames (frames_statement fun e s db _ h => ?_) fun _ t₁ _ => ?_)
  · obtain ⟨_, hrevoke, ⟨⟩⟩ := bind_eq_ok_iff.mp h
    exact congrArg (_, ·) (Database.revokeDevice_revocations hrevoke)
  · refine feeds_statement id fun _ db db' hdb => ?_
    split at hdb
    · cases hdb
      exact .inl rfl
    · obtain ⟨_, hadd, ⟨⟩⟩ := bind_eq_ok_iff.mp hdb
      exact .inr ⟨_, rfl, hadd⟩

theorem repoRevokeGrant_feeds (id : Bytes) (grantID reason : Str) (now : Time) :
    (repoRevokeGrant cfg (uuidString id) grantID reason now).Safe Feeds i (fun _ _ => True)
      anything t := by
  rw [repoRevokeGrant]
  refine .bind (feeds_of_frames (frames_statement fun e s db _ h => ?_) fun _ t₁ _ => ?_)
  · obtain ⟨_, hrevoke, ⟨⟩⟩ := bind_eq_ok_iff.mp h
    exact congrArg (_, ·) (Database.revokeGrant_revocations hrevoke)
  · refine feeds_statement id fun _ db db' hdb => ?_
    split at hdb
    · cases hdb
      exact .inl rfl
    · obtain ⟨_, hadd, ⟨⟩⟩ := bind_eq_ok_iff.mp hdb
      exact .inr ⟨_, rfl, hadd⟩

theorem revokeDevice_feeds (h : Headers) (deviceID reason : Str) :
    (revokeDevice cfg h deviceID reason).Safe Feeds i anything anything t := by
  rw [revokeDevice]
  refine .bind (feeds_of_frames (frames_stopIf _ _) fun _ t₁ _ => ?_)
  refine .bind (feeds_of_frames (frames_look _) fun now t₂ _ => ?_)
  refine .bind (safe_mapStop (fun _ _ => trivial) (newUUID_safe feeds_idle (fun id t₃ _ => ?_)
    fun _ _ _ => trivial))
  refine .bind (safe_attempt (fun s t₄ e s' record events _ _ h => ?_)
    fun s t₄ e _ _ _ _ => ⟨feeds_idle s t₄ e, fun _ _ => trivial⟩)
  obtain ⟨_, -, ⟨⟩⟩ := bind_eq_ok_iff.mp h
  refine ⟨.log id rfl rfl rfl, fun t₅ _ => ?_⟩
  dsimp only
  split_ifs
  · exact .bind (safe_mapStop (fun _ _ => trivial) ((repoRevokeDevice_feeds id _ _ _).mono
      (fun _ t₆ _ _ => feeds_of_frames (.bind (frames_look _) fun _ => frames_done _)
        fun _ _ _ => trivial) fun _ _ _ _ => trivial))
  · exact safe_done fun _ _ => trivial

theorem revokeGrant_feeds (h : Headers) (grantID reason : Str) :
    (revokeGrant cfg h grantID reason).Safe Feeds i anything anything t := by
  rw [revokeGrant]
  refine .bind (feeds_of_frames (frames_stopIf _ _) fun _ t₁ _ => ?_)
  refine .bind (feeds_of_frames (frames_look _) fun now t₂ _ => ?_)
  refine .bind (feeds_of_frames (frames_look _) fun found t₃ _ => ?_)
  refine .bind (feeds_of_frames (frames_stopIf _ _) fun _ t₄ _ => ?_)
  refine .bind (safe_mapStop (fun _ _ => trivial) (newUUID_safe feeds_idle (fun id t₅ _ => ?_)
    fun _ _ _ => trivial))
  have hrest : ∀ t', (do
      mutex fun _ s =>
        .ok ({ s with
            revokedGrants := s.revokedGrants.set grantID ()
            revocationLog := s.revocationLog ++
              [⟨uuidString id, cfg.domainID, .grant grantID, reason, now⟩]
            audit := s.audit ++ [⟨.grantRevoke, grantID, now⟩] }, (), [.revokedGrant grantID])
      let raw ← (Handler.ofExcept (found.getD zeroGrant).marshalJSON).mapStop (writeError 500)
      return .json 200 (.grantStatus .revoked raw) : Run Answer Answer).Safe Feeds i anything
        anything t' := by
    intro t'
    refine .bind (safe_attempt (fun s t₆ e s' u events _ _ h => ?_)
      fun _ _ _ _ _ _ h => by cases h)
    cases h
    exact ⟨.log id rfl rfl rfl, fun t₇ _ => .bind (safe_mapStop (fun _ _ => trivial)
      (safe_try fun _ _ _ _ => safe_done fun _ _ => trivial))⟩
  dsimp only
  split_ifs
  · exact .bind (safe_mapStop (fun _ _ => trivial) ((repoRevokeGrant_feeds id _ _ _).mono
      (fun _ t₆ _ _ => hrest t₆) fun _ _ _ _ => trivial))
  · exact hrest _

theorem authorizeDevice_feeds (h : Headers) (req : AuthorizeRequest) :
    (authorizeDevice P cfg h req).Safe Feeds i anything anything t := by
  rw [authorizeDevice]
  refine feeds_of_frames ?_ fun _ _ _ => trivial
  refine .bind (frames_stopIf _ _) fun _ =>
    .bind (checkDevice_frames (fun _ _ => rfl) (fun _ _ => trivial) _) fun record =>
    .bind (authorizedRecord_frames (fun s d db row h => ?_) _ _).mapStop fun record =>
    .bind (frames_ofExcept _).mapStop fun rule => .bind (frames_look _) fun now =>
    .bind (activeSigner_frames fun _ => trivial).mapStop fun signer =>
    .bind (frames_ofExcept _).mapStop fun grant =>
    .bind (frames_note fun _ _ => trivial) fun _ =>
    .bind (persistGrant_frames (fun _ _ _ => rfl) _).mapStop fun _ => frames_attempt ?_
  · exact congrArg (_, ·) (Database.authorizeDevice_revocations h)
  · rintro e s _ _ _ ⟨⟩
    exact ⟨rfl, fun _ _ => trivial⟩

/-- **Every handler has only these effects on the feed.** -/
theorem handle_feeds (req : Request) : (handle P cfg req).Safe Feeds i anything anything t := by
  cases req with
  | submitDevice req =>
    exact feeds_of_frames (submitDevice_frames (fun _ _ => rfl) (fun _ _ => rfl) (fun _ _ => rfl)
      (fun _ _ _ => rfl) (fun _ _ _ _ => trivial) (fun _ => trivial) req) fun _ _ _ => trivial
  | authorizeDevice h req => exact authorizeDevice_feeds h req
  | verifyGrant req =>
    exact feeds_of_frames (verifyGrant_frames (fun _ _ => trivial) req) fun _ _ _ => trivial
  | deviceStatus d dom => exact feeds_of_frames (deviceStatus_frames d dom) fun _ _ _ => trivial
  | grantStatus g dom => exact feeds_of_frames (grantStatus_frames g dom) fun _ _ _ => trivial
  | revokeGrant h g reason => exact revokeGrant_feeds h g reason
  | revokeDevice h d reason => exact revokeDevice_feeds h d reason
  | rotateKeys h =>
    exact feeds_of_frames (rotateKeys_frames (fun _ _ => rfl) (fun _ _ => rfl) (fun _ => trivial)
      (fun _ => trivial) h) fun _ _ _ => trivial
  | adminAudit h => exact feeds_of_frames (adminAudit_frames h) fun _ _ _ => trivial
  | revocations q => exact feeds_of_frames (serveRevocations_frames q) fun _ _ _ => trivial

end Safe

/-- **A step of the server adds at most one item to the feed.** -/
theorem feed_of_step {w' : World} {a : Server.Action Env Request}
    (hw : (server P cfg C).Reachable w) (hstep : (server P cfg C).step w a w') :
    FeedEffect w.state w'.state := by
  have hsound : w.Sound (Initial P cfg) Feeds C fun _ _ _ _ => True :=
    Server.simulation (fun _ req _ _ => handle_feeds req) hw
  rcases hsound.step hstep with hsame | ⟨x, -, -, heffect⟩
  · exact .of_feed (congrArg (fun c : Snapshot => c.state.feed) hsame)
  · exact heffect

/-! ### The log -/

theorem uuidString_ne_nil (id : Bytes) : uuidString id ≠ [] := by
  simp [uuidString]

/-- **The identifiers in the log** are not empty. -/
theorem revocationID_ne_nil (hw : (server P cfg C).Reachable w) :
    ∀ item ∈ w.state.revocationLog, item.revocationID ≠ [] := by
  induction hw with
  | init hinit =>
    obtain ⟨_, _, _, -, -, -, hs⟩ := initial_cases hinit.1
    rw [hs]
    exact List.forall_mem_nil _
  | step hw hstep ih =>
    rcases feed_of_step hw hstep with ⟨hlog, -⟩ | ⟨id, hid, hlog, -⟩ | ⟨_, -, -, hlog, -⟩
    · rwa [hlog]
    · rw [hlog]
      intro item hitem
      rcases List.mem_append.mp hitem with hitem | hitem
      · exact ih item hitem
      · rw [List.mem_singleton.mp hitem, hid]
        exact uuidString_ne_nil id
    · rwa [hlog]

/-- **The log only grows.** -/
theorem log_prefix {w' : World} (hw : (server P cfg C).Reachable w)
    (h : (server P cfg C).Leads w w') : w.state.revocationLog <+: w'.state.revocationLog := by
  refine h.stable (Q := fun w' => w.state.revocationLog <+: w'.state.revocationLog) ?_ hw
    (List.prefix_refl _)
  intro w₁ a w₂ hw₁ hbefore hstep
  rcases feed_of_step hw₁ hstep with ⟨hlog, -⟩ | ⟨id, hid, hlog, -⟩ | ⟨_, -, -, hlog, -⟩
  · rwa [hlog]
  · rw [hlog]
    exact hbefore.trans (List.prefix_append _ _)
  · rwa [hlog]

/-! ### A page of the log -/

theorem lastID_ne_nil (hne : items ≠ []) (hids : ∀ item ∈ items, item.revocationID ≠ []) :
    lastID items ≠ [] := by
  rw [lastID, List.getLast?_eq_getLast_of_ne_nil hne]
  exact hids _ (List.getLast_mem hne)

theorem pageStart_append (hne : read ≠ []) (hids : ∀ item ∈ read, item.revocationID ≠ [])
    (hnodup : ((read ++ rest).map (·.revocationID)).Nodup) :
    pageStart (read ++ rest) (lastID read) = read.length := by
  obtain ⟨before, last, rfl⟩ := (List.eq_nil_or_concat' read).resolve_left hne
  have hlast : lastID (before ++ [last]) = last.revocationID := by simp [lastID]
  -- no other item has the identifier of the last one
  have hbefore : before.findIdx? (fun item => item.revocationID = last.revocationID) = none := by
    rw [List.findIdx?_eq_none_iff]
    intro item hitem
    rw [List.append_assoc, List.map_append, List.nodup_append] at hnodup
    have hdistinct := hnodup.2.2 item.revocationID (List.mem_map_of_mem hitem) last.revocationID
      (by simp)
    exact decide_eq_false hdistinct
  rw [pageStart, if_neg (hlast ▸ hids last (by simp)), hlast, List.append_assoc,
    List.findIdx?_append, hbefore]
  simp [List.findIdx?_cons]

/-- **What a page adds to what has been read**, and when it is the last. -/
theorem logPage_append {limit : ℕ}
    (hcursor : read = [] ∧ cursor = [] ∨ read ≠ [] ∧ cursor = lastID read) (hlimit : 0 < limit)
    (hids : ∀ item ∈ read ++ rest, item.revocationID ≠ [])
    (hnodup : ((read ++ rest).map (·.revocationID)).Nodup) :
    (logPage (read ++ rest) cursor limit).1 = rest.take limit ∧
      ((logPage (read ++ rest) cursor limit).2 = [] ↔ rest.take limit = rest) ∧
      ((logPage (read ++ rest) cursor limit).2 ≠ [] → rest.take limit ≠ [] ∧
        (logPage (read ++ rest) cursor limit).2 = lastID (rest.take limit)) := by
  have hstart : pageStart (read ++ rest) cursor = read.length := by
    rcases hcursor with ⟨rfl, rfl⟩ | ⟨hne, rfl⟩
    · rfl
    · exact pageStart_append hne (fun item hitem => hids item (List.mem_append_left _ hitem)) hnodup
  have hitems : ((read ++ rest).drop read.length).take limit = rest.take limit := by
    rw [List.drop_left]
  have hpage : logPage (read ++ rest) cursor limit = (rest.take limit,
      if (rest.take limit).length = limit ∧
        read.length + (rest.take limit).length < (read ++ rest).length
      then lastID (rest.take limit) else []) := by
    simp only [logPage, hstart, hitems]
  rw [hpage]
  refine ⟨rfl, ?_⟩
  dsimp only
  rcases lt_or_ge limit rest.length with hlt | hge
  · -- there is more
    have hlength : (rest.take limit).length = limit := List.length_take_of_le hlt.le
    have hne : rest.take limit ≠ [] := by
      intro hnil
      rw [hnil] at hlength
      exact absurd hlength.symm (Nat.ne_of_gt hlimit)
    rw [if_pos ⟨hlength, by rw [hlength, List.length_append]; omega⟩]
    refine ⟨iff_of_false (lastID_ne_nil hne fun item hitem => hids item
      (List.mem_append_right _ (List.mem_of_mem_take hitem))) fun hall => ?_, fun _ => ⟨hne, rfl⟩⟩
    rw [hall] at hlength
    omega
  · have hall : rest.take limit = rest := List.take_of_length_le hge
    rw [hall, if_neg (by rw [List.length_append]; omega)]
    exact ⟨iff_of_true rfl rfl, fun h => absurd rfl h⟩

/-! ### Reading the log -/

/-- **A page is handed out** for a cursor: the items, and the cursor of the next page. -/
def Page (cfg : Config) (s : State) (cursor : Str) (items : List RevocationItem) (next : Str) :
    Prop :=
  ∃ e domainID limit n, domainScopeMismatch cfg domainID = false ∧ pageLimit limit = .ok n ∧
    (serveRevocations cfg ⟨domainID, limit, cursor⟩).answer e s =
      some (.ok (.json 200 (.revocations items next)))

/-- **A reader follows the feed**: it starts without a cursor, and asks for the next page as long as
it is given a cursor, of a log that anything may have been added to in the meantime. What is said is
in which state the last page was handed out, the cursor that came with it, and the items of all
pages. -/
inductive Follows (cfg : Config) : State → Str → List RevocationItem → Prop where
  | first {s : State} {items : List RevocationItem} {next : Str}
      (hpage : Page cfg s [] items next) : Follows cfg s next items
  | next {s s' : State} {cursor : Str} {read items : List RevocationItem} {next : Str}
      (h : Follows cfg s cursor read) (hcursor : cursor ≠ [])
      (hgrown : s.revocationLog <+: s'.revocationLog) (hpage : Page cfg s' cursor items next) :
      Follows cfg s' next (read ++ items)

theorem pageLimit_range {raw : Str} {n : ℕ} (h : pageLimit raw = .ok n) : 0 < n ∧ n ≤ 200 := by
  simp only [pageLimit] at h
  split_ifs at h
  · cases h
    decide
  · split at h
    · cases h
    · split_ifs at h with hrange
      cases h
      omega

theorem Page.eq_logPage (hrepo : cfg.repo = false) {next : Str} (h : Page cfg s cursor items next) :
    ∃ limit, 0 < limit ∧ logPage s.revocationLog cursor limit = (items, next) := by
  obtain ⟨e, domainID, limit, n, hdomain, hlimit, hanswer⟩ := h
  refine ⟨n, (pageLimit_range hlimit).1, ?_⟩
  simp only [serveRevocations, hdomain, hrepo, hlimit, Handler.ofExcept, Handler.answer,
    Handler.look, done_bind, Handler.play, Bool.false_eq_true, if_false, if_true,
    Option.map_some, Option.some.injEq, Except.ok.injEq, Response.json.injEq,
    Body.revocations.injEq, true_and] at hanswer
  exact Prod.ext hanswer.1 hanswer.2

/-- A reader that follows the cursors has read a beginning of the log, all of it once it is told
none. -/
theorem Follows.read_prefix (hrepo : cfg.repo = false) (h : Follows cfg s cursor read)
    (hids : (s.revocationLog.map (·.revocationID)).Nodup)
    (hne : ∀ item ∈ s.revocationLog, item.revocationID ≠ []) :
    read <+: s.revocationLog ∧ (cursor = [] ↔ read = s.revocationLog) ∧
      (cursor ≠ [] → read ≠ [] ∧ cursor = lastID read) := by
  induction h with
  | @first s items next hpage =>
    obtain ⟨limit, hpos, hlog⟩ := hpage.eq_logPage hrepo
    have hcursor : ([] : List RevocationItem) = [] ∧ ([] : Str) = [] ∨
        ([] : List RevocationItem) ≠ [] ∧ ([] : Str) = lastID [] := .inl ⟨rfl, rfl⟩
    obtain ⟨hitems, hlast, hnext⟩ := logPage_append hcursor hpos hne hids
    rw [List.nil_append, hlog] at hitems hlast hnext
    dsimp only at hitems hlast hnext
    rw [hitems]
    exact ⟨List.take_prefix _ _, hlast, hnext⟩
  | @next s s' cursor read items next h hcursor hgrown hpage ih =>
    -- the cursor is that of the last item read, as long as there is one
    obtain ⟨hread, -, hlastID⟩ := ih (hids.sublist (hgrown.sublist.map _)) fun item hitem =>
      hne item (hgrown.subset hitem)
    obtain ⟨rest, hrest⟩ := hread.trans hgrown
    obtain ⟨limit, hpos, hlog⟩ := hpage.eq_logPage hrepo
    rw [← hrest] at hlog hids hne ⊢
    obtain ⟨hitems, hlast, hnext⟩ := logPage_append (.inr (hlastID hcursor)) hpos hne hids
    rw [hlog] at hitems hlast hnext
    dsimp only at hitems hlast hnext
    rw [hitems, List.prefix_append_right_inj, List.append_cancel_left_eq]
    refine ⟨List.take_prefix _ _, hlast, fun hsome => ?_⟩
    obtain ⟨htake, hid⟩ := hnext hsome
    refine ⟨List.append_ne_nil_of_right_ne_nil _ htake, hid.trans ?_⟩
    rw [lastID, lastID, List.getLast?_append_of_ne_nil _ htake]

/-- **The feed is read exactly.** At every moment a reader that follows the cursors has, page
after page, a beginning of the log, in order, with no gap and nothing twice; and there is no
further cursor exactly when it has all of the log there was when the last page was handed out. In a
run of the server no identifier is the empty text, and the log only grows. -/
theorem feed_read_exactly (hrepo : cfg.repo = false) :
    (∀ s cursor read, Follows cfg s cursor read →
      (s.revocationLog.map (·.revocationID)).Nodup →
      (∀ item ∈ s.revocationLog, item.revocationID ≠ []) →
      read <+: s.revocationLog ∧ (cursor = [] ↔ read = s.revocationLog)) ∧
    (∀ w w' : World, (server P cfg C).Reachable w → (server P cfg C).Leads w w' →
      (∀ item ∈ w.state.revocationLog, item.revocationID ≠ []) ∧
        w.state.revocationLog <+: w'.state.revocationLog) := by
  refine ⟨fun s cursor read h hids hne => ?_, fun w w' hw hleads =>
    ⟨revocationID_ne_nil hw, log_prefix hw hleads⟩⟩
  obtain ⟨hbefore, hlast, -⟩ := h.read_prefix hrepo hids hne
  exact ⟨hbefore, hlast⟩

set_option synthInstance.maxSize 512 in
/-- Two devices are revoked, and a reader is given a page of one item; one of the devices is revoked
again, and the next page has what is left. -/
theorem feed_read_exactly_one : ∃ (w w' : World) (cursor : Str) (x y z : RevocationItem),
    (server .transparent exampleConfig Server.always).Reachable w ∧
      (server .transparent exampleConfig Server.always).Leads w w' ∧
      Follows exampleConfig w.state cursor [x] ∧ cursor ≠ [] ∧
      ([x] <+: w.state.revocationLog ∧ (cursor = [] ↔ [x] = w.state.revocationLog)) ∧
      Follows exampleConfig w'.state [] [x, y, z] ∧
      ([x, y, z] <+: w'.state.revocationLog ∧
        (([] : Str) = [] ↔ [x, y, z] = w'.state.revocationLog)) := by
  obtain ⟨req, -, req', -, w, hw, w', hw', x, -, y, -, z, -, hlog, hlog', hids, hpage, hpage'⟩ :
      ∃ req ∈ submission (lit "a") "1" 1, ∃ req' ∈ submission (lit "b") "2" 2,
        ∃ w ∈ running Server.always (serves 0 (.submitDevice req) 3 ++
          serves 1 (.submitDevice req') 3 ++
          servesAt 1 2 (.revokeDevice noHeaders (lit "a") []) 3 ++
          servesAt 2 3 (.revokeDevice noHeaders (lit "b") []) 3),
        ∃ w' ∈ (servesAt 3 4 (.revokeDevice noHeaders (lit "a") []) 3).foldlM
          (Server.World.nextIf (handle .transparent exampleConfig) Server.always) w,
        ∃ x ∈ w'.state.revocationLog[0]?, ∃ y ∈ w'.state.revocationLog[1]?,
        ∃ z ∈ w'.state.revocationLog[2]?, w.state.revocationLog = [x, y] ∧
          w'.state.revocationLog = [x, y, z] ∧ ([x, y, z].map (·.revocationID)).Nodup ∧
          (serveRevocations exampleConfig ⟨[], lit "1", []⟩).answer exampleEnv w.state =
            some (.ok (.json 200 (.revocations [x] x.revocationID))) ∧
          (serveRevocations exampleConfig ⟨[], lit "5", x.revocationID⟩).answer exampleEnv
            w'.state = some (.ok (.json 200 (.revocations [y, z] []))) := by
    decide +kernel
  have hreachable := reachable_of_running hw
  have hleads : (server .transparent exampleConfig Server.always).Leads w w' :=
    Server.leads_of_foldlM hw'
  obtain ⟨hreads, hruns⟩ := feed_read_exactly (P := .transparent)
    (C := Server.always) (rfl : exampleConfig.repo = false)
  obtain ⟨hnonempty, hgrown⟩ := hruns _ _ hreachable hleads
  have hnonempty' := (hruns _ _ (hleads.reachable hreachable) .refl).1
  have hfirst : Follows exampleConfig w.state x.revocationID [x] :=
    .first ⟨exampleEnv, [], lit "1", 1, rfl, rfl, hpage⟩
  have hcursor : x.revocationID ≠ [] := hnonempty x (by rw [hlog]; exact List.mem_cons_self)
  have hnext : Follows exampleConfig w'.state [] [x, y, z] :=
    .next hfirst hcursor hgrown ⟨exampleEnv, [], lit "5", 5, rfl, rfl, hpage'⟩
  refine ⟨w, w', _, x, y, z, hreachable, hleads, hfirst, hcursor, hreads _ _ _ hfirst ?_ hnonempty,
    hnext, hreads _ _ _ hnext ?_ hnonempty'⟩
  · rw [hlog]
    exact hids.sublist (((List.sublist_append_left [x, y] [z]).map _))
  · rwa [hlog']

end TrustRoot

end Iscp
