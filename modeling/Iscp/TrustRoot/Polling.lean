import Iscp.TrustRoot.Pages

/-!
# A reader that polls the feed

In a database the feed is a table, and a page is the rows after an identifier, in the order of the
identifiers. A request draws the identifier of its row before it enters the row, so that a row may
come into the table behind rows with greater identifiers – and behind a reader that has seen them.

A reader starts without a cursor and asks again and again for what comes after the last item it
has, while the server serves requests (`Iscp.TrustRoot.polling`). A row that is ahead of the reader
when it comes into the table is returned to it exactly once, by the first poll whose page is not
full at the latest; a row that is not is never returned (`Iscp.TrustRoot.polled_once_iff`). The
second case is possible: of two requests that revoke a device, the one that draws its identifier
first may be the one that enters its row last (`Iscp.TrustRoot.polled_never`).
-/

namespace Iscp

namespace TrustRoot

open Go Crypto Identity Keyring Service Trust

/-- **A reader of the feed**, beside the world of the server. -/
structure Polled where
  /-- The server. -/
  world : World
  /-- The identifier of the last item that was received. -/
  cursor : Str
  /-- The items of all pages. -/
  received : List RevocationItem

/-- The server goes on, or the reader asks for a page. -/
inductive PollAction where
  | serve (a : Server.Action Env Request)
  | poll (e : Env) (domainID limit : Str)

section Definitions

variable (P : Primitives) (cfg : Config)

/-- **A poll**: the reader asks for what comes after the last item it has. -/
def Polled.poll (f : Polled) (e : Env) (domainID limit : Str) : Polled :=
  match (serveRevocations cfg ⟨domainID, limit, f.cursor⟩).answer e f.world.state with
  | some (.ok (.json 200 (.revocations items _))) =>
    ⟨f.world, if items = [] then f.cursor else lastID items, f.received ++ items⟩
  | _ => f

/-- What an action does, if it is possible. The reader asks for the domain of the server. -/
def Polled.next (f : Polled) : PollAction → Option Polled
  | .serve a => (f.world.next (handle P cfg) a).map fun w => ⟨w, f.cursor, f.received⟩
  | .poll e domainID limit =>
    if domainScopeMismatch cfg domainID then none else some (f.poll cfg e domainID limit)

/-- A table with its primary key, a column of UUIDs. -/
def Keyed (rows : List TrustRevocation) : Prop :=
  (rows.map (·.id)).Nodup ∧ ∀ r ∈ rows, ∃ id, r.id = uuidString id

/-- **The server and the reader**, from the start of both. -/
def polling : System Polled PollAction :=
  .ofNext (fun f => (server P cfg Server.always).init f.world ∧
    Keyed f.world.state.db.revocations ∧ f.cursor = [] ∧ f.received = []) (Polled.next P cfg)

end Definitions

variable {P : Primitives} {cfg : Config}

/-- The rows the reader polls. -/
def Polled.rows (f : Polled) : List TrustRevocation := f.world.state.db.revocations

/-! ### The order of the identifiers -/

theorem str_lt_of_not_lt {a b : Str} (h : ¬b < a) (hne : a ≠ b) : a < b := by
  by_contra hnot
  exact hne (List.le_antisymm (List.not_lt.mp h) (List.not_lt.mp hnot))

theorem weakOrder_id : WeakOrder fun r r' : TrustRevocation => decide (r.id < r'.id) where
  asymm h := by
    simp only [decide_eq_true_eq, decide_eq_false_iff_not] at h ⊢
    exact List.lt_asymm h
  trans h h' := by
    simp only [decide_eq_false_iff_not, List.not_lt] at h h' ⊢
    exact List.le_trans h h'

theorem mem_revocationsAfter {db : Database} {domainID cursor : Str} {ties : ℕ → ℕ}
    {r : TrustRevocation} : r ∈ db.revocationsAfter domainID cursor ties ↔
      r ∈ db.revocations ∧ r.domainID = domainID ∧ (cursor = [] ∨ cursor < r.id) := by
  rw [Database.revocationsAfter, mem_sortSlice, List.mem_filter, decide_eq_true_eq]

/-- The rows after a cursor come in the order of their IDs. -/
theorem pairwise_revocationsAfter {db : Database} (hkeyed : Keyed db.revocations)
    (domainID cursor : Str) (ties : ℕ → ℕ) :
    (db.revocationsAfter domainID cursor ties).Pairwise fun r r' => r.id < r'.id := by
  have hsorted := pairwise_sortSlice weakOrder_id ties
    (db.revocations.filter fun r => r.domainID = domainID ∧ (cursor = [] ∨ cursor < r.id))
  have hdistinct :
      (db.revocationsAfter domainID cursor ties).Pairwise fun r r' => r.id ≠ r'.id := by
    have hperm := (sortSlice_perm (fun r r' : TrustRevocation => decide (r.id < r'.id)) ties
      (db.revocations.filter fun r => r.domainID = domainID ∧ (cursor = [] ∨ cursor < r.id))).map
      (·.id)
    refine List.pairwise_map.mp (hperm.nodup_iff.mpr ?_)
    exact hkeyed.1.sublist (List.filter_sublist.map _)
  refine (hsorted.and hdistinct).imp fun h => ?_
  exact str_lt_of_not_lt (of_decide_eq_false h.1) h.2

/-! ### The cursor -/

theorem lastID_append (read items : List RevocationItem) :
    lastID (read ++ items) = if items = [] then lastID read else lastID items := by
  split_ifs with hitems
  · rw [hitems, List.append_nil]
  · rw [lastID, lastID, List.getLast?_append_of_ne_nil _ hitems]

theorem not_lastID_lt {rows : List TrustRevocation}
    (hsorted : rows.Pairwise fun r r' => r.id < r'.id) {r : TrustRevocation} (hr : r ∈ rows) :
    ¬lastID (rows.map TrustRevocation.item) < r.id := by
  obtain ⟨before, last, rfl⟩ := (List.eq_nil_or_concat' rows).resolve_left (List.ne_nil_of_mem hr)
  have hlast : lastID ((before ++ [last]).map TrustRevocation.item) = last.id := by
    simp [lastID, TrustRevocation.item]
  rw [hlast]
  rcases List.mem_append.mp hr with hr | hr
  · exact List.lt_asymm
      ((List.pairwise_append.mp hsorted).2.2 r hr last (List.mem_singleton_self _))
  · rw [List.mem_singleton.mp hr]
    exact List.lt_irrefl _

theorem lastID_mem {rows : List TrustRevocation} (hne : rows ≠ []) :
    ∃ r ∈ rows, lastID (rows.map TrustRevocation.item) = r.id := by
  refine ⟨rows.getLast hne, List.getLast_mem hne, ?_⟩
  rw [lastID, List.getLast?_map, List.getLast?_eq_getLast_of_ne_nil hne]
  rfl

/-! ### A page of the table -/

/-- **What a page of the table is.** -/
theorem rows_of_answer (hrepo : cfg.repo = true) {q : RevocationsQuery} {e : Env} {s : State}
    {items : List RevocationItem} {next : Str}
    (hdomain : domainScopeMismatch cfg q.domainID = false)
    (h : (serveRevocations cfg q).answer e s = some (.ok (.json 200 (.revocations items next)))) :
    ∃ n, pageLimit q.limit = .ok n ∧ items =
      ((s.db.revocationsAfter cfg.domainID q.cursor e.ties).take n).map TrustRevocation.item := by
  rw [serveRevocations, hdomain, hrepo] at h
  simp only [Bool.false_eq_true, if_false, if_true] at h
  cases hlimit : pageLimit q.limit with
  | error r =>
    rw [hlimit] at h
    cases h
  | ok n =>
    refine ⟨n, rfl, ?_⟩
    have hle : ¬(n = 0 ∨ 200 < n) := by
      have := pageLimit_range hlimit
      omega
    rw [hlimit] at h
    cases hrows : listRevocations cfg e s.db q.cursor n with
    | error err =>
      simp [Handler.ofExcept, Handler.answer, Handler.look, Handler.play, hrows] at h
    | ok rows =>
      obtain ⟨_, -, hrows'⟩ := bind_eq_ok_iff.mp hrows
      obtain ⟨_, -, ⟨⟩⟩ := bind_eq_ok_iff.mp hrows'
      simp only [Handler.ofExcept, Handler.answer, Handler.look, Handler.play, Handler.mapStop,
        hrows, Handler.done_bind, Handler.atomic_bind, Handler.pure_eq, if_true, Option.map_some,
        Option.some.injEq, Except.ok.injEq, Response.json.injEq, Body.revocations.injEq,
        true_and] at h
      rw [← h.1, if_neg hle]

/-- **A poll, by what it returns**: nothing, or the rows after the cursor up to a limit. -/
theorem Polled.poll_cases (hrepo : cfg.repo = true) (f : Polled) (e : Env) {domainID : Str}
    (limit : Str) (hdomain : domainScopeMismatch cfg domainID = false) :
    f.poll cfg e domainID limit = f ∨ ∃ n page, page =
      (f.world.state.db.revocationsAfter cfg.domainID f.cursor e.ties).take n ∧
      f.poll cfg e domainID limit = ⟨f.world, if page = [] then f.cursor else
        lastID (page.map TrustRevocation.item), f.received ++ page.map TrustRevocation.item⟩ := by
  rw [Polled.poll]
  split
  · next items _ hanswer =>
    obtain ⟨n, -, hitems⟩ := rows_of_answer hrepo (q := ⟨domainID, limit, f.cursor⟩) hdomain hanswer
    refine .inr ⟨n, _, rfl, ?_⟩
    rw [hitems]
    simp only [List.map_eq_nil_iff]
  · exact .inl rfl

theorem Polled.world_poll (f : Polled) (e : Env) (domainID limit : Str) :
    (f.poll cfg e domainID limit).world = f.world := by
  rw [Polled.poll]
  split <;> rfl

theorem Polled.poll_of_next {f f' : Polled} {e : Env} {domainID limit : Str}
    (h : f.next P cfg (.poll e domainID limit) = some f') :
    domainScopeMismatch cfg domainID = false ∧ f' = f.poll cfg e domainID limit := by
  rw [Polled.next] at h
  split_ifs at h with hdomain
  exact ⟨Bool.eq_false_iff.mpr hdomain, (Option.some.inj h).symm⟩

/-! ### What a reader has -/

/-- **What holds of the reader at every moment**: what it has received are rows of the table, in
the order of the identifiers, and the cursor is the last of them. -/
structure Polled.Sound (cfg : Config) (f : Polled) : Prop where
  keyed : Keyed f.rows
  rows : ∃ rows : List TrustRevocation, f.received = rows.map TrustRevocation.item ∧
    (∀ r ∈ rows, r ∈ f.rows ∧ r.domainID = cfg.domainID) ∧
    rows.Pairwise fun r r' => r.id < r'.id
  cursor : f.cursor = lastID f.received

theorem Polled.serve_cases {f f' : Polled} (hf : (server P cfg Server.always).Reachable f.world)
    {a : Server.Action Env Request} (h : f.next P cfg (.serve a) = some f') :
    (server P cfg Server.always).Reachable f'.world ∧ f'.cursor = f.cursor ∧
      f'.received = f.received ∧ (f'.rows = f.rows ∨ ∃ id r, r.id = uuidString id ∧
        (∀ r' ∈ f.rows, r'.id ≠ r.id) ∧ f'.rows = f.rows ++ [r]) := by
  obtain ⟨w, hw, rfl⟩ := Option.map_eq_some_iff.mp h
  have hstep : (server P cfg Server.always).step f.world a w := ⟨fun _ _ => trivial, hw⟩
  refine ⟨hf.step hstep, rfl, rfl, ?_⟩
  rcases feed_of_step hf hstep with ⟨-, hrows⟩ | ⟨_, -, -, hrows⟩ | ⟨id, hid, hnew, -, hrows⟩
  · exact .inl hrows
  · exact .inl hrows
  · exact .inr ⟨id, _, hid, hnew, hrows⟩

theorem Keyed.append {rows : List TrustRevocation} (h : Keyed rows) {r : TrustRevocation}
    {id : Bytes} (hid : r.id = uuidString id) (hnew : ∀ r' ∈ rows, r'.id ≠ r.id) :
    Keyed (rows ++ [r]) := by
  refine ⟨?_, fun r' hr' => ?_⟩
  · rw [List.map_append, List.nodup_append]
    refine ⟨h.1, List.nodup_singleton _, fun x hx y hy => ?_⟩
    obtain ⟨r', hr', rfl⟩ := List.mem_map.mp hx
    rw [List.mem_singleton.mp hy]
    exact hnew r' hr'
  · rcases List.mem_append.mp hr' with hr' | hr'
    · exact h.2 r' hr'
    · rw [List.mem_singleton.mp hr']
      exact ⟨id, hid⟩

/-- A step of the server keeps what holds of the reader. -/
theorem Polled.Sound.serve {f f' : Polled} (hs : f.Sound cfg)
    (hf : (server P cfg Server.always).Reachable f.world) {a : Server.Action Env Request}
    (h : f.next P cfg (.serve a) = some f') : f'.Sound cfg := by
  obtain ⟨-, hcursor, hreceived, hrows⟩ := Polled.serve_cases hf h
  have hsubset : ∀ r ∈ f.rows, r ∈ f'.rows := by
    rcases hrows with hrows | ⟨_, _, -, -, hrows⟩ <;> rw [hrows]
    · exact fun r hr => hr
    · exact fun r hr => List.mem_append_left _ hr
  obtain ⟨rows, heq, hmem, hsorted⟩ := hs.rows
  refine ⟨?_, ⟨rows, hreceived.trans heq, fun r hr => ?_, hsorted⟩, ?_⟩
  · rcases hrows with hrows | ⟨id, r, hid, hnew, hrows⟩ <;> rw [hrows]
    · exact hs.keyed
    · exact hs.keyed.append hid hnew
  · exact ⟨hsubset r (hmem r hr).1, (hmem r hr).2⟩
  · rw [hcursor, hreceived]
    exact hs.cursor

theorem Polled.Sound.page {f : Polled} (hs : f.Sound cfg) {e : Env} {n : ℕ}
    {page : List TrustRevocation} (hpage : page =
      (f.world.state.db.revocationsAfter cfg.domainID f.cursor e.ties).take n) :
    (∀ r ∈ page, r ∈ f.rows ∧ r.domainID = cfg.domainID ∧ (f.cursor = [] ∨ f.cursor < r.id)) ∧
      page.Pairwise fun r r' => r.id < r'.id := by
  subst hpage
  exact ⟨fun r hr => mem_revocationsAfter.mp (List.mem_of_mem_take hr),
    (pairwise_revocationsAfter hs.keyed ..).sublist (List.take_sublist ..)⟩

theorem Polled.Sound.received_eq_nil {f : Polled} (hs : f.Sound cfg) (hcursor : f.cursor = []) :
    f.received = [] := by
  obtain ⟨rows, heq, hmem, -⟩ := hs.rows
  by_contra hne
  rw [heq, List.map_eq_nil_iff] at hne
  obtain ⟨r, hr, hlast⟩ := lastID_mem hne
  obtain ⟨id, hid⟩ := hs.keyed.2 r (hmem r hr).1
  refine uuidString_ne_nil id ?_
  rw [← hid, ← hlast, ← heq, ← hs.cursor, hcursor]

/-- A poll keeps it. -/
theorem Polled.Sound.poll (hrepo : cfg.repo = true) {f : Polled} (hs : f.Sound cfg) {e : Env}
    {domainID limit : Str} (hdomain : domainScopeMismatch cfg domainID = false) :
    (f.poll cfg e domainID limit).Sound cfg := by
  rcases f.poll_cases hrepo e limit hdomain with heq | ⟨n, page, hpage, heq⟩
  · rwa [heq]
  rw [heq]
  obtain ⟨hmem', hsorted'⟩ := hs.page hpage
  obtain ⟨rows, hreceived, hmem, hsorted⟩ := hs.rows
  refine ⟨hs.keyed, ⟨rows ++ page, ?_, fun r hr => ?_, ?_⟩, ?_⟩
  · rw [hreceived, List.map_append]
  · rcases List.mem_append.mp hr with hr | hr
    · exact hmem r hr
    · exact ⟨(hmem' r hr).1, (hmem' r hr).2.1⟩
  · refine List.pairwise_append.mpr ⟨hsorted, hsorted', fun r hr r' hr' => ?_⟩
    have hcursor : f.cursor < r'.id := by
      refine (hmem' r' hr').2.2.resolve_left fun hnil => ?_
      rw [hs.received_eq_nil hnil, eq_comm, List.map_eq_nil_iff] at hreceived
      rw [hreceived] at hr
      exact absurd hr List.not_mem_nil
    have hle := not_lastID_lt hsorted hr
    rw [← hreceived, ← hs.cursor, List.not_lt] at hle
    exact List.lt_of_le_of_lt hle hcursor
  · simp only [lastID_append, List.map_eq_nil_iff, hs.cursor]

/-- It holds after every run of the server with the reader. -/
theorem polling_sound (hrepo : cfg.repo = true) {f : Polled} (h : (polling P cfg).Reachable f) :
    (server P cfg Server.always).Reachable f.world ∧ f.Sound cfg := by
  induction h with
  | init hinit =>
    obtain ⟨hworld, hkeyed, hcursor, hreceived⟩ := hinit
    refine ⟨.init hworld, hkeyed, ⟨[], hreceived, List.forall_mem_nil _, .nil⟩, ?_⟩
    rw [hcursor, hreceived]
    rfl
  | @step f f' a _ hstep ih =>
    cases a with
    | serve a => exact ⟨(Polled.serve_cases ih.1 hstep).1, ih.2.serve ih.1 hstep⟩
    | poll e domainID limit =>
      obtain ⟨hdomain, heq⟩ := Polled.poll_of_next hstep
      rw [heq, Polled.world_poll]
      exact ⟨ih.1, ih.2.poll hrepo hdomain⟩

/-! ### What becomes of a row -/

/-- A row is ahead of the reader, or was received. -/
def Polled.Ahead (cfg : Config) (r : TrustRevocation) (f : Polled) : Prop :=
  r ∈ f.rows ∧ r.domainID = cfg.domainID ∧
    (r.item ∈ f.received ∨ f.cursor = [] ∨ f.cursor < r.id)

/-- A row has been passed by, and was not received. -/
def Polled.Passed (r : TrustRevocation) (f : Polled) : Prop :=
  r.item ∉ f.received ∧ f.cursor ≠ [] ∧ ¬f.cursor < r.id

/-- **A row that is ahead is in the page**, or behind the page in the table. -/
theorem Polled.Ahead.page {f : Polled} (hs : f.Sound cfg) {r : TrustRevocation}
    (h : f.Ahead cfg r) {e : Env} {n : ℕ} {page : List TrustRevocation} (hpage : page =
      (f.world.state.db.revocationsAfter cfg.domainID f.cursor e.ties).take n) :
    r.item ∈ f.received ∨ r ∈ page ∨
      (n ≤ page.length ∧ (f.cursor = [] ∨ f.cursor < r.id) ∧ ∀ r' ∈ page, r'.id < r.id) := by
  obtain ⟨hr, hdomain, hreceived | hcursor⟩ := h
  · exact .inl hreceived
  refine .inr ?_
  have hmem : r ∈ f.world.state.db.revocationsAfter cfg.domainID f.cursor e.ties :=
    mem_revocationsAfter.mpr ⟨hr, hdomain, hcursor⟩
  have hsorted := pairwise_revocationsAfter hs.keyed cfg.domainID f.cursor e.ties
  rw [← List.take_append_drop n (Database.revocationsAfter ..)] at hmem hsorted
  rw [← hpage] at hmem hsorted
  refine (List.mem_append.mp hmem).imp_right fun hdrop => ⟨?_, hcursor, fun r' hr' => ?_⟩
  · have hlt := List.length_pos_of_mem hdrop
    rw [List.length_drop] at hlt
    rw [hpage, List.length_take]
    omega
  · exact (List.pairwise_append.mp hsorted).2.2 r' hr' r hdrop

/-- A row that is ahead of the reader, or was received, stays so. -/
theorem Polled.Ahead.step (hrepo : cfg.repo = true) {r : TrustRevocation} {f f' : Polled}
    {a : PollAction} (hf : (polling P cfg).Reachable f) (h : f.Ahead cfg r)
    (hstep : (polling P cfg).step f a f') : f'.Ahead cfg r := by
  obtain ⟨hworld, hs⟩ := polling_sound hrepo hf
  cases a with
  | serve a =>
    obtain ⟨-, hcursor, hreceived, hrows⟩ := Polled.serve_cases hworld hstep
    rw [Polled.Ahead, hcursor, hreceived]
    refine ⟨?_, h.2⟩
    rcases hrows with hrows | ⟨_, _, -, -, hrows⟩ <;> rw [hrows]
    · exact h.1
    · exact List.mem_append_left _ h.1
  | poll e domainID limit =>
    obtain ⟨hdomain, rfl⟩ := Polled.poll_of_next hstep
    rcases f.poll_cases hrepo e limit hdomain with heq | ⟨n, page, hpage, heq⟩
    · rwa [heq]
    rw [heq]
    refine ⟨h.1, h.2.1, ?_⟩
    rcases h.page hs hpage with hreceived | hpage' | ⟨-, hcursor, hbehind⟩
    · exact .inl (List.mem_append_left _ hreceived)
    · exact .inl (List.mem_append_right _ (List.mem_map_of_mem hpage'))
    · refine .inr ?_
      dsimp only
      split_ifs with hnil
      · exact hcursor
      · obtain ⟨r', hr', hlast⟩ := lastID_mem hnil
        rw [hlast]
        exact .inr (hbehind r' hr')

/-- A row that was passed by stays so. -/
theorem Polled.Passed.step (hrepo : cfg.repo = true) {r : TrustRevocation} {f f' : Polled}
    {a : PollAction} (hf : (polling P cfg).Reachable f) (h : f.Passed r)
    (hstep : (polling P cfg).step f a f') : f'.Passed r := by
  obtain ⟨hworld, hs⟩ := polling_sound hrepo hf
  cases a with
  | serve a =>
    obtain ⟨-, hcursor, hreceived, -⟩ := Polled.serve_cases hworld hstep
    rwa [Polled.Passed, hcursor, hreceived]
  | poll e domainID limit =>
    obtain ⟨hdomain, rfl⟩ := Polled.poll_of_next hstep
    rcases f.poll_cases hrepo e limit hdomain with heq | ⟨n, page, hpage, heq⟩
    · rwa [heq]
    obtain ⟨hmem, -⟩ := hs.page hpage
    obtain ⟨hreceived, hne, hnot⟩ := h
    -- every row of the page is after the cursor, and so after this one
    have hafter : ∀ r' ∈ page, r.id < r'.id := fun r' hr' =>
      List.lt_of_le_of_lt (List.not_lt.mp hnot) ((hmem r' hr').2.2.resolve_left hne)
    rw [heq]
    refine ⟨fun hmem' => ?_, ?_⟩
    · rcases List.mem_append.mp hmem' with hmem' | hmem'
      · exact hreceived hmem'
      · obtain ⟨r', hr', hitem⟩ := List.mem_map.mp hmem'
        have hid : r'.id = r.id := congrArg RevocationItem.revocationID hitem
        exact List.lt_irrefl _ (hid ▸ hafter r' hr')
    · dsimp only
      split_ifs with hnil
      · exact ⟨hne, hnot⟩
      · obtain ⟨r', hr', hlast⟩ := lastID_mem hnil
        rw [hlast]
        obtain ⟨id, hid⟩ := hs.keyed.2 r' (hmem r' hr').1
        exact ⟨hid ▸ uuidString_ne_nil id, List.lt_asymm (hafter r' hr')⟩

/-- **A row comes into the table**: it is there at the start, or a step enters it. -/
inductive Entered (P : Primitives) (cfg : Config) (r : TrustRevocation) (f : Polled) : Prop where
  | start (hinit : (polling P cfg).init f) (hr : r ∈ f.rows)
  | step {f₀ : Polled} {a : PollAction} (h₀ : (polling P cfg).Reachable f₀)
      (hstep : (polling P cfg).step f₀ a f) (hold : r ∉ f₀.rows) (hr : r ∈ f.rows)

theorem Entered.reachable {r : TrustRevocation} {f : Polled} (h : Entered P cfg r f) :
    (polling P cfg).Reachable f := by
  rcases h with ⟨hinit, -⟩ | ⟨h₀, hstep, -, -⟩
  · exact .init hinit
  · exact h₀.step hstep

theorem Entered.mem {r : TrustRevocation} {f : Polled} (h : Entered P cfg r f) : r ∈ f.rows := by
  rcases h with ⟨-, hr⟩ | ⟨-, -, -, hr⟩ <;> exact hr

theorem Entered.not_received (hrepo : cfg.repo = true) {r : TrustRevocation} {f : Polled}
    (h : Entered P cfg r f) : r.item ∉ f.received := by
  rcases h with ⟨⟨-, -, -, hreceived⟩, -⟩ | @⟨f₀, a, h₀, hstep, hold, hr⟩
  · rw [hreceived]
    exact List.not_mem_nil
  · obtain ⟨hworld, hs⟩ := polling_sound hrepo h₀
    cases a with
    | poll e domainID limit =>
      obtain ⟨-, rfl⟩ := Polled.poll_of_next hstep
      rw [Polled.rows, Polled.world_poll] at hr
      exact absurd hr hold
    | serve a =>
      obtain ⟨-, -, hreceived, hrows | ⟨id, r', -, hnew, hrows⟩⟩ := Polled.serve_cases hworld hstep
      · rw [hrows] at hr
        exact absurd hr hold
      · rw [hrows, List.mem_append, or_iff_right hold, List.mem_singleton] at hr
        subst hr
        obtain ⟨rows, heq, hmem, -⟩ := hs.rows
        rw [hreceived, heq]
        intro hitem
        obtain ⟨r', hr', hitem⟩ := List.mem_map.mp hitem
        exact hnew r' (hmem r' hr').1 (congrArg RevocationItem.revocationID hitem)

/-- **Which rows a reader is given.** Whenever a row has come into the table, and later a poll
returns a page that is not full: the reader has been given the row exactly once if it was ahead of
the cursor when it came in, and not otherwise. -/
theorem polled_once_iff (hrepo : cfg.repo = true) {r : TrustRevocation} {f₁ f₂ f₃ : Polled}
    (h₁ : Entered P cfg r f₁) (h₂ : (polling P cfg).Leads f₁ f₂) {e : Env} {domainID limit : Str}
    (h₃ : (polling P cfg).step f₂ (.poll e domainID limit) f₃) {n : ℕ} {items : List RevocationItem}
    {next : Str} (hlimit : pageLimit limit = .ok n)
    (hpage : (serveRevocations cfg ⟨domainID, limit, f₂.cursor⟩).answer e f₂.world.state =
      some (.ok (.json 200 (.revocations items next)))) (hnotFull : items.length < n) :
    (r.item ∈ f₃.received ∧ (f₃.received.map (·.revocationID)).count r.id = 1) ↔
      r.domainID = cfg.domainID ∧ (f₁.cursor = [] ∨ f₁.cursor < r.id) := by
  have hf₂ := h₂.reachable h₁.reachable
  obtain ⟨-, hs₃⟩ := polling_sound hrepo (hf₂.step h₃)
  obtain ⟨rows, hreceived, hmem, hsorted⟩ := hs₃.rows
  refine ⟨fun ⟨hitem, _⟩ => ⟨?_, ?_⟩, fun ⟨hdomain, hcursor⟩ => ?_⟩
  · rw [hreceived] at hitem
    obtain ⟨r', hr', heq⟩ := List.mem_map.mp hitem
    exact (congrArg RevocationItem.domainID heq).symm.trans (hmem r' hr').2
  · by_contra hnot
    rw [not_or] at hnot
    have hpassed : f₂.Passed r := h₂.stable (fun f a f' hf h hstep => h.step hrepo hf hstep)
      h₁.reachable ⟨h₁.not_received hrepo, hnot⟩
    exact (hpassed.step hrepo hf₂ h₃).1 hitem
  · have hahead : f₂.Ahead cfg r := h₂.stable (fun f a f' hf h hstep => h.step hrepo hf hstep)
      h₁.reachable ⟨h₁.mem, hdomain, .inr hcursor⟩
    -- the last page has all that is after the cursor
    have hitem : r.item ∈ f₃.received := by
      obtain ⟨hscope, rfl⟩ := Polled.poll_of_next h₃
      obtain ⟨n', hlimit', hitems⟩ := rows_of_answer hrepo (q := ⟨domainID, limit, f₂.cursor⟩)
        hscope hpage
      obtain rfl : n = n' := Except.ok.inj (hlimit.symm.trans hlimit')
      rw [hitems, List.length_map] at hnotFull
      have hpoll : (f₂.poll cfg e domainID limit).received = f₂.received ++ items := by
        simp only [Polled.poll, hpage]
      rw [hpoll, hitems]
      rcases hahead.page (polling_sound hrepo hf₂).2 rfl with hold | hrow | ⟨hfull, -⟩
      · exact List.mem_append_left _ hold
      · exact List.mem_append_right _ (List.mem_map_of_mem hrow)
      · exact absurd hnotFull (Nat.not_lt.mpr hfull)
    refine ⟨hitem, List.count_eq_one_of_mem ?_ (List.mem_map_of_mem hitem)⟩
    rw [hreceived, List.map_map]
    refine List.pairwise_map.mpr (hsorted.imp fun {r r'} hlt (heq : r.id = r'.id) => ?_)
    exact List.lt_irrefl _ (heq ▸ hlt)

/-! ### Two requests and a reader -/

/-- What some actions lead to, from the start of a server whose database has one device. -/
def reached (as : List PollAction) : Option Polled :=
  match new .transparent databaseConfig (oneDevice (rowAt .authorized 0) []) exampleEnv with
  | .ok s => as.foldlM (Polled.next .transparent databaseConfig) ⟨⟨s, [], fun _ => none⟩, [], []⟩
  | .error _ => none

theorem reachable_of_reached {as : List PollAction} {f : Polled} (h : reached as = some f) :
    (polling .transparent databaseConfig).Reachable f := by
  rw [reached] at h
  split at h
  · next s hs =>
    have hkeyed : Keyed s.db.revocations := by
      rw [db_of_new hs]
      exact ⟨.nil, List.forall_mem_nil _⟩
    exact (System.leads_of_foldlM h).reachable (.init ⟨⟨⟨_, _, hs⟩, rfl, rfl⟩, hkeyed, rfl, rfl⟩)
  · cases h

theorem reached_append (as bs : List PollAction) : reached (as ++ bs) =
    (reached as).bind fun f => bs.foldlM (Polled.next .transparent databaseConfig) f := by
  simp only [reached]
  split
  · rw [List.foldlM_append]
    rfl
  · rfl

/-- The device is to be revoked, and `n` sections of the request are run. -/
def revokes (i : ℕ) (ms : ℤ) (n : ℕ) : List PollAction :=
  .serve (.start i (.revokeDevice noHeaders (lit "a") [])) ::
    List.replicate n (.serve (.run i (envAt ms)))

/-- The reader asks for a page of the default length. -/
def pollAll : PollAction := .poll exampleEnv [] []

/-- The identifiers of the page the reader is given next, if it is given one. -/
def Polled.pageIDs (f : Polled) : Option (List Str) :=
  match (serveRevocations databaseConfig ⟨[], [], f.cursor⟩).answer exampleEnv f.world.state with
  | some (.ok (.json 200 (.revocations items _))) => some (items.map (·.revocationID))
  | _ => none

theorem page_of_pageIDs {f : Polled} {ids : List Str} (h : f.pageIDs = some ids) :
    ∃ items next, items.map (·.revocationID) = ids ∧
      (serveRevocations databaseConfig ⟨[], [], f.cursor⟩).answer exampleEnv f.world.state =
        some (.ok (.json 200 (.revocations items next))) := by
  rw [Polled.pageIDs] at h
  split at h
  · next items next hanswer => exact ⟨items, next, Option.some.inj h, hanswer⟩
  · cases h

/-- **A row is entered by an action**, others are taken, and the reader asks for a page: what they
lead to can be computed. -/
theorem exists_polled (as bs : List PollAction) (a : PollAction) (before after : List (Str × Str))
    (cursor : Str) (page received : List Str) (row : Str × Str)
    (hbefore : (reached as).map (·.rows.map fun r => (r.domainID, r.id)) = some before)
    (hafter : (reached (as ++ [a])).map (fun f =>
      (f.rows.map fun r => (r.domainID, r.id), f.cursor)) = some (after, cursor))
    (hpage : (reached (as ++ [a] ++ bs)).map Polled.pageIDs = some (some page))
    (hreceived : (reached (as ++ [a] ++ bs ++ [pollAll])).map (·.received.map (·.revocationID)) =
      some received) (hold : row ∉ before) (hnew : row ∈ after) :
    ∃ r f₁ f₂ f₃ items next, (r.domainID, r.id) = row ∧ Entered .transparent databaseConfig r f₁ ∧
      f₁.cursor = cursor ∧ bs.foldlM (Polled.next .transparent databaseConfig) f₁ = some f₂ ∧
      (polling .transparent databaseConfig).step f₂ pollAll f₃ ∧
      (serveRevocations databaseConfig ⟨[], [], f₂.cursor⟩).answer exampleEnv f₂.world.state =
        some (.ok (.json 200 (.revocations items next))) ∧ items.length = page.length ∧
      f₃.received.map (·.revocationID) = received := by
  obtain ⟨f₀, hf₀, rfl⟩ := Option.map_eq_some_iff.mp hbefore
  obtain ⟨f₁, hf₁, hview⟩ := Option.map_eq_some_iff.mp hafter
  obtain ⟨rfl, rfl⟩ := Prod.mk.inj hview
  obtain ⟨f₂, hf₂, hids⟩ := Option.map_eq_some_iff.mp hpage
  obtain ⟨f₃, hf₃, rfl⟩ := Option.map_eq_some_iff.mp hreceived
  obtain ⟨items, next, rfl, hanswer⟩ := page_of_pageIDs hids
  obtain ⟨r, hr, rfl⟩ := List.mem_map.mp hnew
  have hstep : f₀.next .transparent databaseConfig a = some f₁ := by
    rw [reached_append, hf₀] at hf₁
    simpa using hf₁
  refine ⟨r, f₁, f₂, f₃, items, next, rfl, .step (reachable_of_reached hf₀) hstep (fun hmem => ?_)
    hr, rfl, ?_, ?_, hanswer, (List.length_map _).symm, rfl⟩
  · exact hold (List.mem_map_of_mem hmem)
  · rwa [reached_append, hf₁] at hf₂
  · rw [reached_append, hf₂] at hf₃
    simpa [polling, System.ofNext] using hf₃

/-- The identifier that is drawn at a moment. -/
def idAt (ms : ℤ) : Str :=
  match newUUIDv7Like (envAt ms).now (envAt ms).uuid with
  | .ok id => uuidString id
  | .error _ => []

/-- A device is revoked three times, and the reader asks after each of them: it is given the second
row once, between the others. -/
theorem polled_once_alone : ∃ (r : TrustRevocation) (f₁ f₂ f₃ : Polled),
    Entered .transparent databaseConfig r f₁ ∧ r.id = idAt 2 ∧ f₁.cursor = idAt 1 ∧
      (polling .transparent databaseConfig).Leads f₁ f₂ ∧
      (polling .transparent databaseConfig).step f₂ pollAll f₃ ∧
      f₃.received.map (·.revocationID) = [idAt 1, idAt 2, idAt 3] ∧
      r.item ∈ f₃.received ∧ (f₃.received.map (·.revocationID)).count r.id = 1 := by
  obtain ⟨r, f₁, f₂, f₃, items, next, hrow, hentered, hcursor, hleads, hstep, hpage, hlength,
      hreceived⟩ :=
    exists_polled (revokes 0 1 6 ++ [pollAll] ++ revokes 1 2 4) (pollAll :: revokes 2 3 6)
      (.serve (.run 1 (envAt 2))) [(lit "lab", idAt 1)] [(lit "lab", idAt 1), (lit "lab", idAt 2)]
      (idAt 1) [idAt 3] [idAt 1, idAt 2, idAt 3] (lit "lab", idAt 2) (by decide +kernel)
      (by decide +kernel) (by decide +kernel) (by decide +kernel) (by decide) (by decide)
  obtain ⟨hdomain, hid⟩ := Prod.mk.inj hrow
  have hleads' : (polling .transparent databaseConfig).Leads f₁ f₂ := System.leads_of_foldlM hleads
  refine ⟨r, f₁, f₂, f₃, hentered, hid, hcursor, hleads', hstep, hreceived,
    (polled_once_iff rfl hentered hleads' hstep (rfl : pageLimit [] = .ok 100) hpage ?_).mpr
      ⟨hdomain, .inr ?_⟩⟩
  · rw [hlength]
    decide
  · rw [hcursor, hid]
    decide

/-- **A request is overtaken, and its row is never returned.** The first request draws its
identifier, the second draws a greater one and enters its row, the reader asks, and then the first
enters its row: the reader asks again, is given an empty page, and does not have the row. -/
theorem polled_never : ∃ (r : TrustRevocation) (f₁ f₂ : Polled) (next : Str),
    Entered .transparent databaseConfig r f₁ ∧ r.domainID = databaseConfig.domainID ∧
      (polling .transparent databaseConfig).step f₁ pollAll f₂ ∧
      (serveRevocations databaseConfig ⟨[], [], f₁.cursor⟩).answer exampleEnv f₁.world.state =
        some (.ok (.json 200 (.revocations [] next))) ∧
      r.item ∉ f₂.received := by
  obtain ⟨r, f₁, _, f₂, items, next, hrow, hentered, hcursor, ⟨⟩, hstep, hpage, hlength,
      hreceived⟩ :=
    exists_polled (revokes 0 1 3 ++ revokes 1 2 6 ++ [pollAll, .serve (.run 0 (envAt 3))]) []
      (.serve (.run 0 (envAt 3))) [(lit "lab", idAt 2)] [(lit "lab", idAt 2), (lit "lab", idAt 1)]
      (idAt 2) [] [idAt 2] (lit "lab", idAt 1) (by decide +kernel) (by decide +kernel)
      (by decide +kernel) (by decide +kernel) (by decide) (by decide)
  obtain rfl := List.length_eq_zero_iff.mp hlength
  refine ⟨r, f₁, f₂, next, hentered, congrArg Prod.fst hrow, hstep, hpage, fun hmem => ?_⟩
  have hmem' := List.mem_map_of_mem (f := (·.revocationID)) hmem
  rw [hreceived, show r.item.revocationID = idAt 1 from congrArg Prod.snd hrow] at hmem'
  exact absurd hmem' (by decide)

end TrustRoot

end Iscp
