import Iscp.Errors
import Iscp.Go.Float
import Iscp.Go.Result
import Iscp.Go.Strings
import Iscp.Go.Time

/-!
# Conformance reports

`Run` executes the suites of conformance cases and writes a report: the cases of each suite with
their statuses, and counters of them at two levels. `ValidateRelease` decides from such a report
whether a release may be made.

It decides from the counters and never looks at a case. The report of a run is counted as it is
written (`Iscp.Conformance.counted_run`), so it is accepted exactly if every case has passed. A
report from a file may say anything: one with failed cases in it is accepted, if its counters do
not say so (`Iscp.Conformance.failed_cases_accepted`). What has to hold of an accepted report for it
to be what the gate takes it for is `Iscp.Conformance.Faithful`
(`Iscp.Conformance.release_fullyPassing_iff`).
-/

namespace Iscp

namespace Conformance

open Go

/-! ### Reports -/

/-- `ReportType`. -/
def reportType : Str := lit "iscp.conformance.report.v2"

/-- `StatusPass`. -/
def statusPass : Str := lit "pass"

/-- `StatusFail`. -/
def statusFail : Str := lit "fail"

/-- `StatusSkip`. -/
def statusSkip : Str := lit "skip"

/-- `PriorityP0`. -/
def priorityP0 : Str := lit "P0"

/-- `PriorityP1`. -/
def priorityP1 : Str := lit "P1"

/-- **`CaseReport`.** -/
structure CaseReport where
  id : Str
  name : Str
  status : Str
  durationMS : ℤ
  error : Str
  skipReason : Str
  evidence : Map Str

/-- **`SuiteReport`.** -/
structure SuiteReport where
  id : Str
  name : Str
  priority : Str
  required : Bool
  caseCount : ℤ
  passed : ℤ
  failed : ℤ
  skipped : ℤ
  durationMS : ℤ
  cases : List CaseReport

/-- **`Summary`.** -/
structure Summary where
  suiteCount : ℤ
  caseCount : ℤ
  passed : ℤ
  failed : ℤ
  skipped : ℤ
  deriving DecidableEq

/-- **`Report`.** -/
structure Report where
  type : Str
  version : Str
  protocol : Str
  generatedAt : Time
  durationMS : ℤ
  result : Str
  releaseDecision : Str
  summary : Summary
  endpoints : Map Str
  residualRisks : List Str
  suites : List SuiteReport

/-! ### Validation -/

/-- The suites `ValidateP0` requires. -/
def requiredSuites : List Str := [lit "p0_core", lit "p0_security_negative"]

/-- What `ValidateP0` checks of a suite it requires. -/
def checkRequired (suite : SuiteReport) : Except Error Unit := do
  failIf (suite.caseCount = 0) (.plain "%s has no cases")
  failIf (0 < suite.failed) (.plain "%s has failed cases")
  failIf (0 < suite.skipped) (.plain "%s has skipped P0 cases")

/-- **`ValidateP0`.** -/
def validateP0 (report : Report) : Except Error Unit := do
  failIf (report.type ≠ reportType) (.plain "unexpected conformance report type %q")
  failIf (report.summary.caseCount = 0) (.plain "conformance report has no executed cases")
  report.suites.forM fun suite =>
    if suite.id ∈ requiredSuites then checkRequired suite else .ok ()
  failIf (∃ id ∈ requiredSuites, ∀ suite ∈ report.suites, suite.id ≠ id)
    (.plain "missing required suite %s")

/-- The part of the cases of a suite that have passed. -/
def SuiteReport.rate (suite : SuiteReport) : ℚ :=
  float64 (float64 suite.passed / float64 suite.caseCount)

/-- What `ValidateRelease` checks of every suite. -/
def checkSuite (suite : SuiteReport) : Except Error Unit := do
  failIf (suite.caseCount = 0) (.plain "%s has no cases")
  failIf (0 < suite.failed) (.plain "%s has failed cases")
  failIf (suite.priority = priorityP1 ∧ (0 < suite.skipped ∨ suite.rate < float64 (95 / 100)))
    (.plain "%s P1 pass rate %.2f with %d skipped")

/-- **`ValidateRelease`.** -/
def validateRelease (report : Report) : Except Error Unit := do
  validateP0 report
  failIf (report.releaseDecision ≠ lit "go" ∨ report.result ≠ statusPass)
    (.plain "release decision is %s with result %s")
  report.suites.forM checkSuite

variable {suite : SuiteReport} {report report' : Report} {suites : List SuiteReport}
  {risks : List Str}

theorem checkRequired_eq_ok_iff : checkRequired suite = .ok () ↔
    suite.caseCount ≠ 0 ∧ suite.failed ≤ 0 ∧ suite.skipped ≤ 0 := by
  simp only [checkRequired, bind_eq_ok_iff, failIf_eq_ok_iff, exists_const, not_lt, ne_eq]

theorem checkSuite_eq_ok_iff : checkSuite suite = .ok () ↔
    suite.caseCount ≠ 0 ∧ suite.failed ≤ 0 ∧
      (suite.priority = priorityP1 → suite.skipped ≤ 0 ∧ float64 (95 / 100) ≤ suite.rate) := by
  simp only [checkSuite, bind_eq_ok_iff, failIf_eq_ok_iff, exists_const, not_lt, ne_eq, not_and,
    not_or]

/-- What `ValidateP0` accepts. -/
theorem validateP0_eq_ok_iff : validateP0 report = .ok () ↔
    report.type = reportType ∧ report.summary.caseCount ≠ 0 ∧
      (∀ suite ∈ report.suites, suite.id ∈ requiredSuites →
        suite.caseCount ≠ 0 ∧ suite.failed ≤ 0 ∧ suite.skipped ≤ 0) ∧
      ∀ id ∈ requiredSuites, ∃ suite ∈ report.suites, suite.id = id := by
  have hcheck (suite : SuiteReport) :
      (if suite.id ∈ requiredSuites then checkRequired suite else .ok ()) = .ok () ↔
        (suite.id ∈ requiredSuites →
          suite.caseCount ≠ 0 ∧ suite.failed ≤ 0 ∧ suite.skipped ≤ 0) := by
    split_ifs with hid
    · rw [checkRequired_eq_ok_iff]
      exact ⟨fun h _ => h, fun h => h hid⟩
    · exact iff_of_true rfl fun h => absurd h hid
  simp only [validateP0, bind_eq_ok_iff, failIf_eq_ok_iff, exists_const, forM_eq_ok_iff, hcheck,
    not_not, not_exists, not_and, not_forall, ne_eq, exists_prop]

theorem validateRelease_eq_ok_iff : validateRelease report = .ok () ↔
    validateP0 report = .ok () ∧ report.releaseDecision = lit "go" ∧ report.result = statusPass ∧
      ∀ suite ∈ report.suites, checkSuite suite = .ok () := by
  simp only [validateRelease, bind_eq_ok_iff, failIf_eq_ok_iff, exists_const, forM_eq_ok_iff,
    not_or, not_not, ne_eq, and_assoc]
  exact ⟨fun ⟨_, h⟩ => h, fun h => ⟨(), h⟩⟩

/-! ### Runs -/

/-- A `caseDef`, without what it runs. -/
structure CaseDef where
  id : Str
  name : Str

/-- How a case that has not passed has ended. -/
inductive CaseError where
  /-- A `skipError`. -/
  | skip (reason : Str)
  /-- Any other error, by its text. -/
  | other (text : Str)

/-- `Options`, as far as the report shows them. -/
structure Options where
  version : Str
  relayEndpoint : Str
  trustEndpoint : Str
  now : Time

/-- **What happens in a run**: what the cases return, what is left of the text of an error, what
the clock says, and how long things take. -/
structure Execution where
  perform : CaseDef → Map Str × Option CaseError
  redactString : Str → Str
  now : Time
  caseMS : CaseDef → ℤ
  suiteMS : Str → ℤ
  totalMS : ℤ

/-- **`runCase`.** -/
def runCase (x : Execution) (c : CaseDef) : CaseReport :=
  let out : CaseReport := ⟨c.id, c.name, statusPass, x.caseMS c, [], [], (x.perform c).1⟩
  match (x.perform c).2 with
  | none => out
  | some (.skip reason) => { out with status := statusSkip, skipReason := reason }
  | some (.other text) => { out with status := statusFail, error := x.redactString text }

/-- How many cases have ended in this way. -/
def count (status : Str) (cases : List CaseReport) : ℤ := cases.countP fun c => c.status = status

/-- **`runSuite`.** -/
def runSuite (x : Execution) (id name priority : Str) (required : Bool) (defs : List CaseDef) :
    SuiteReport :=
  let cases := defs.map (runCase x)
  ⟨id, name, priority, required, cases.length, count statusPass cases, count statusFail cases,
    count statusSkip cases, x.suiteMS id, cases⟩

/-- **`summarize`.** -/
def summarize (suites : List SuiteReport) : Summary where
  suiteCount := suites.length
  caseCount := (suites.map SuiteReport.caseCount).sum
  passed := (suites.map SuiteReport.passed).sum
  failed := (suites.map SuiteReport.failed).sum
  skipped := (suites.map SuiteReport.skipped).sum

/-- The cases of the suite `p0_core`. -/
def p0CoreCases : List CaseDef :=
  [⟨lit "P0-CORE-001", lit "device proof verifies with audience and challenge"⟩,
    ⟨lit "P0-CORE-002", lit "signed relay descriptor verifies and pins"⟩,
    ⟨lit "P0-CORE-003", lit "trust grant verifies all required bindings"⟩,
    ⟨lit "P0-CORE-004", lit "session ready confirms transcript and keys"⟩,
    ⟨lit "P0-CORE-005", lit "secure envelope round trips after ready"⟩,
    ⟨lit "P0-CORE-006", lit "provisioning ticket and bundle verify"⟩,
    ⟨lit "P0-CORE-007", lit "pairing ticket v3 binds purpose and grant roles"⟩,
    ⟨lit "P0-CORE-008", lit "session reopen control frame verifies"⟩,
    ⟨lit "P0-CORE-009", lit "credential recovery sealed blob round trips"⟩]

/-- The cases of the suite `p0_security_negative`. -/
def p0SecurityCases : List CaseDef :=
  [⟨lit "P0-SEC-001", lit "production profile rejects unsafe toggles"⟩,
    ⟨lit "P0-SEC-002", lit "production profile rejects unsigned descriptor"⟩,
    ⟨lit "P0-SEC-003", lit "proof with wrong challenge is rejected"⟩,
    ⟨lit "P0-SEC-004", lit "grant wrong audience is rejected"⟩,
    ⟨lit "P0-SEC-005", lit "grant wrong confirmation thumbprint is rejected"⟩,
    ⟨lit "P0-SEC-006", lit "grant missing permission is rejected"⟩,
    ⟨lit "P0-SEC-007", lit "grant wrong relay is rejected"⟩,
    ⟨lit "P0-SEC-008", lit "grant below revocation epoch is rejected"⟩,
    ⟨lit "P0-SEC-009", lit "expired grant is rejected"⟩,
    ⟨lit "P0-SEC-010", lit "payload before session.ready is rejected"⟩,
    ⟨lit "P0-SEC-011", lit "envelope AAD tamper is rejected"⟩,
    ⟨lit "P0-SEC-012", lit "envelope replay is rejected"⟩,
    ⟨lit "P0-SEC-013", lit "expired pairing ticket is rejected"⟩,
    ⟨lit "P0-SEC-014", lit "bundle binding mismatch is rejected"⟩,
    ⟨lit "P0-SEC-015", lit "bundle before local channel ready is rejected"⟩,
    ⟨lit "P0-SEC-016", lit "logs redact secret-bearing fields"⟩,
    ⟨lit "P0-SEC-017", lit "identity with forged kid is rejected"⟩,
    ⟨lit "P0-SEC-018", lit "ticket consumed by its grant audience is rejected"⟩,
    ⟨lit "P0-SEC-019", lit "session reopen outside window is rejected"⟩,
    ⟨lit "P0-SEC-020", lit "recovery blob bound to another identity fails to open"⟩]

/-- The cases of the suite `p1_feature`. -/
def p1FeatureCases : List CaseDef :=
  [⟨lit "P1-FEAT-001", lit "audit hash-chain changes with previous hash"⟩,
    ⟨lit "P1-FEAT-002", lit "offline queue honors TTL and priority metadata"⟩]

/-- The cases of the suite `service_interop`. -/
def serviceInteropCases : List CaseDef :=
  [⟨lit "P1-SVC-001", lit "relay endpoint exposes health and version"⟩,
    ⟨lit "P1-SVC-002", lit "trust root endpoint exposes health and version"⟩,
    ⟨lit "P1-SVC-003", lit "relay bind refresh revoke and opaque envelope receipt"⟩,
    ⟨lit "P1-SVC-004", lit "trust submit authorize verify and revoke workflow"⟩]

/-- The cases of the suite `cli_workflow`. -/
def cliWorkflowCases : List CaseDef :=
  [⟨lit "P1-CLI-001", lit "CLI local E2E demo completes without plaintext output"⟩,
    ⟨lit "P1-CLI-002", lit "CLI local workflow commands perform real SDK operations"⟩]

/-- The suites that are run, in this order. -/
def runSuites (x : Execution) : List SuiteReport :=
  [runSuite x (lit "p0_core") (lit "P0 Core") priorityP0 true p0CoreCases,
    runSuite x (lit "p0_security_negative") (lit "P0 Security Negative") priorityP0 true
      p0SecurityCases,
    runSuite x (lit "p1_feature") (lit "P1 Feature") priorityP1 false p1FeatureCases,
    runSuite x (lit "service_interop") (lit "Service Interoperability") priorityP1 false
      serviceInteropCases,
    runSuite x (lit "cli_workflow") (lit "CLI Workflow") priorityP1 false cliWorkflowCases]

/-- A report that is not to be released. -/
def Report.noGo (report : Report) (risks : List Str) : Report :=
  { report with
    releaseDecision := lit "no-go"
    residualRisks := report.residualRisks ++ risks }

/-- A report that has failed, for these risks. -/
def Report.failed (report : Report) (risks : List Str) : Report :=
  { report.noGo risks with result := statusFail }

/-- What a suite means for the report. -/
def Report.assess (report : Report) (suite : SuiteReport) : Report :=
  if suite.caseCount = 0 then report.failed [suite.id ++ lit " has no cases"] else
  let report := if 0 < suite.failed then report.failed [] else report
  let report := if suite.priority = priorityP0 ∧ 0 < suite.skipped then
      report.failed [suite.id ++ lit " skipped required P0 cases"] else report
  if suite.priority = priorityP1 ∧ 0 < suite.skipped then
    report.noGo [suite.id ++ lit " has skipped P1 cases"] else report

/-- **`Run`.** -/
def run (opts : Options) (x : Execution) : Report :=
  let suites := runSuites x
  let now := if opts.now.unixNano = Time.zero.unixNano then x.now.utc else opts.now
  let report : Report :=
    { type := reportType
      version := if opts.version = [] then lit "0.1.0-dev" else opts.version
      protocol := lit "v2"
      generatedAt := now.utc
      durationMS := x.totalMS
      result := statusPass
      releaseDecision := lit "go"
      summary := summarize suites
      endpoints := (Map.set (fun _ => none) (lit "relay") opts.relayEndpoint).set
        (lit "trust_root") opts.trustEndpoint
      residualRisks := []
      suites := suites }
  let report := suites.foldl Report.assess report
  if report.summary.caseCount = 0 then report.failed [lit "no conformance cases executed"]
  else report

/-! ### Counters -/

/-- **The counters of a suite** are those of its cases. -/
structure SuiteReport.Counted (suite : SuiteReport) : Prop where
  caseCount : suite.caseCount = suite.cases.length
  passed : suite.passed = count statusPass suite.cases
  failed : suite.failed = count statusFail suite.cases
  skipped : suite.skipped = count statusSkip suite.cases

/-- The cases of all suites. -/
def Report.cases (report : Report) : List CaseReport := report.suites.flatMap SuiteReport.cases

/-- **The counters of a report** are those of its cases. -/
structure Report.Counted (report : Report) : Prop where
  suites : ∀ suite ∈ report.suites, suite.Counted
  summary : report.summary =
    ⟨report.suites.length, report.cases.length, count statusPass report.cases,
      count statusFail report.cases, count statusSkip report.cases⟩

theorem count_flatMap (status : Str) (suites : List SuiteReport) :
    count status (suites.flatMap SuiteReport.cases) =
      (suites.map fun suite => count status suite.cases).sum := by
  induction suites with
  | nil => rfl
  | cons suite suites ih =>
    rw [List.flatMap_cons, List.map_cons, List.sum_cons, ← ih]
    simp only [count, List.countP_append, Nat.cast_add]

theorem length_flatMap (suites : List SuiteReport) :
    ((suites.flatMap SuiteReport.cases).length : ℤ) =
      (suites.map fun suite => (suite.cases.length : ℤ)).sum := by
  induction suites with
  | nil => rfl
  | cons suite suites ih =>
    rw [List.flatMap_cons, List.map_cons, List.sum_cons, ← ih, List.length_append, Nat.cast_add]

theorem summarize_eq (h : ∀ suite ∈ suites, suite.Counted) :
    summarize suites =
      ⟨suites.length, (suites.flatMap SuiteReport.cases).length,
        count statusPass (suites.flatMap SuiteReport.cases),
        count statusFail (suites.flatMap SuiteReport.cases),
        count statusSkip (suites.flatMap SuiteReport.cases)⟩ := by
  rw [summarize, length_flatMap, count_flatMap, count_flatMap, count_flatMap,
    List.map_congr_left fun suite hs => (h suite hs).caseCount,
    List.map_congr_left fun suite hs => (h suite hs).passed,
    List.map_congr_left fun suite hs => (h suite hs).failed,
    List.map_congr_left fun suite hs => (h suite hs).skipped]

theorem count_eq_zero_iff {status : Str} {cases : List CaseReport} :
    count status cases ≤ 0 ↔ ∀ c ∈ cases, c.status ≠ status := by
  simp [count]

theorem runCase_status (x : Execution) (c : CaseDef) :
    (runCase x c).status ∈ [statusPass, statusFail, statusSkip] := by
  rw [runCase]
  rcases (x.perform c).2 with _ | (_ | _) <;> simp

theorem counted_runSuite (x : Execution) (id name priority : Str) (required : Bool)
    (defs : List CaseDef) : (runSuite x id name priority required defs).Counted :=
  ⟨rfl, rfl, rfl, rfl⟩

variable {x : Execution}

theorem counted_of_mem_runSuites (h : suite ∈ runSuites x) : suite.Counted := by
  simp only [runSuites, List.mem_cons, List.not_mem_nil, or_false] at h
  rcases h with rfl | rfl | rfl | rfl | rfl <;> exact counted_runSuite ..

/-! ### The decision of a run -/

/-- **The report is a go.** -/
def Report.Go (report : Report) : Prop :=
  report.result = statusPass ∧ report.releaseDecision = lit "go"

theorem Report.not_go_noGo (report : Report) (risks : List Str) : ¬(report.noGo risks).Go := by
  rintro ⟨-, h⟩
  exact absurd h (show lit "no-go" ≠ lit "go" by decide)

theorem Report.not_go_failed (report : Report) (risks : List Str) : ¬(report.failed risks).Go :=
  report.not_go_noGo risks ∘ fun h => absurd h.1 (show statusFail ≠ statusPass by decide)

/-- **A suite stands in the way of no release.** -/
def SuiteReport.Fine (suite : SuiteReport) : Prop :=
  suite.caseCount ≠ 0 ∧ suite.failed ≤ 0 ∧
    (suite.priority = priorityP0 ∨ suite.priority = priorityP1 → suite.skipped ≤ 0)

theorem Report.go_ite_noGo {c : Prop} [Decidable c] :
    (if c then report'.noGo risks else report).Go ↔ ¬c ∧ report.Go := by
  split_ifs with h
  · exact iff_of_false (report'.not_go_noGo risks) fun hand => hand.1 h
  · exact ⟨fun hgo => ⟨h, hgo⟩, fun hand => hand.2⟩

theorem Report.go_ite_failed {c : Prop} [Decidable c] :
    (if c then report'.failed risks else report).Go ↔ ¬c ∧ report.Go := by
  split_ifs with h
  · exact iff_of_false (report'.not_go_failed risks) fun hand => hand.1 h
  · exact ⟨fun hgo => ⟨h, hgo⟩, fun hand => hand.2⟩

theorem Report.go_assess_iff : (report.assess suite).Go ↔ report.Go ∧ suite.Fine := by
  simp only [assess, go_ite_noGo, go_ite_failed, SuiteReport.Fine, not_and, not_lt, or_imp, ne_eq]
  tauto

theorem Report.foldl_assess_kept (suites : List SuiteReport) (report : Report) :
    (suites.foldl assess report).type = report.type ∧
      (suites.foldl assess report).summary = report.summary ∧
      (suites.foldl assess report).suites = report.suites := by
  induction suites generalizing report with
  | nil => exact ⟨rfl, rfl, rfl⟩
  | cons suite suites ih =>
    have hkept : (report.assess suite).type = report.type ∧
        (report.assess suite).summary = report.summary ∧
        (report.assess suite).suites = report.suites := by
      rw [assess]
      split_ifs <;> exact ⟨rfl, rfl, rfl⟩
    obtain ⟨htype, hsummary, hsuites⟩ := ih (report.assess suite)
    rw [List.foldl_cons, htype, hsummary, hsuites]
    exact hkept

theorem Report.go_foldl_assess_iff :
    (suites.foldl assess report).Go ↔ report.Go ∧ ∀ suite ∈ suites, suite.Fine := by
  induction suites generalizing report with
  | nil => simp
  | cons suite suites ih =>
    rw [List.foldl_cons, ih, go_assess_iff, List.forall_mem_cons, and_assoc]

theorem run_kept (opts : Options) (x : Execution) : (run opts x).type = reportType ∧
    (run opts x).summary = summarize (runSuites x) ∧ (run opts x).suites = runSuites x := by
  simp only [run]
  split_ifs
  all_goals exact Report.foldl_assess_kept ..

theorem go_run_iff {opts : Options} : (run opts x).Go ↔
    (∀ suite ∈ runSuites x, suite.Fine) ∧ (summarize (runSuites x)).caseCount ≠ 0 := by
  simp only [run, Report.go_ite_failed, Report.go_foldl_assess_iff,
    (Report.foldl_assess_kept _ _).2.1]
  exact ⟨fun h => ⟨h.2.2, h.1⟩, fun h => ⟨h.2, ⟨rfl, rfl⟩, h.1⟩⟩

/-! ### The release gate -/

/-- **A report in which everything has passed**: the required suites are there, every suite has a
case, every case has passed, and the counters say so. -/
structure FullyPassing (report : Report) : Prop where
  required : ∀ id ∈ requiredSuites, ∃ suite ∈ report.suites, suite.id = id
  nonempty : ∀ suite ∈ report.suites, suite.cases ≠ []
  passed : ∀ suite ∈ report.suites, ∀ c ∈ suite.cases, c.status = statusPass
  counted : report.Counted

/-- **A report that can be judged by its counters**: they are those of its cases, no case has a
status that is not counted, and no suite whose skipped cases the gate does not look at has one. -/
structure Faithful (report : Report) : Prop where
  counted : report.Counted
  statuses : ∀ suite ∈ report.suites, ∀ c ∈ suite.cases,
    c.status ∈ [statusPass, statusFail, statusSkip]
  others : ∀ suite ∈ report.suites, suite.priority ≠ priorityP1 → suite.id ∉ requiredSuites →
    ∀ c ∈ suite.cases, c.status ≠ statusSkip

theorem FullyPassing.faithful (h : FullyPassing report) : Faithful report where
  counted := h.counted
  statuses suite hs c hc := by rw [h.passed suite hs c hc]; exact List.mem_cons_self
  others suite hs _ _ c hc := by rw [h.passed suite hs c hc]; decide

/-- A faithful report that passes the release check has passed in everything. -/
theorem Faithful.fullyPassing (h : Faithful report) (hvalid : validateRelease report = .ok ()) :
    FullyPassing report := by
  obtain ⟨hp0, -, -, hsuites⟩ := validateRelease_eq_ok_iff.mp hvalid
  obtain ⟨-, -, hchecked, hrequired⟩ := validateP0_eq_ok_iff.mp hp0
  refine ⟨hrequired, fun suite hs hnil => ?_, fun suite hs c hc => ?_, h.counted⟩
  · obtain ⟨hcount, -, -⟩ := checkSuite_eq_ok_iff.mp (hsuites suite hs)
    rw [(h.counted.suites suite hs).caseCount, hnil] at hcount
    exact hcount rfl
  · obtain ⟨-, hfailed, hp1⟩ := checkSuite_eq_ok_iff.mp (hsuites suite hs)
    have hcounted := h.counted.suites suite hs
    have hnotfailed : c.status ≠ statusFail :=
      count_eq_zero_iff.mp (hcounted.failed ▸ hfailed) c hc
    have hnotskipped : c.status ≠ statusSkip := by
      have hskipped (hle : suite.skipped ≤ 0) : c.status ≠ statusSkip :=
        count_eq_zero_iff.mp (hcounted.skipped ▸ hle) c hc
      by_cases hpriority : suite.priority = priorityP1
      · exact hskipped (hp1 hpriority).1
      · by_cases hid : suite.id ∈ requiredSuites
        · exact hskipped (hchecked suite hs hid).2.2
        · exact h.others suite hs hpriority hid c hc
    simpa [hnotfailed, hnotskipped] using h.statuses suite hs c hc

theorem counted_run (opts : Options) (x : Execution) : (run opts x).Counted := by
  obtain ⟨-, hsummary, hsuites⟩ := run_kept opts x
  have hcounted : ∀ suite ∈ runSuites x, suite.Counted := fun _ => counted_of_mem_runSuites
  constructor
  · rw [hsuites]
    exact hcounted
  · rw [hsummary, summarize_eq hcounted, Report.cases, hsuites]

/-- **The report of a run can be judged by its counters.** -/
theorem faithful_run (opts : Options) (x : Execution) : Faithful (run opts x) := by
  obtain ⟨-, -, hsuites⟩ := run_kept opts x
  refine ⟨counted_run opts x, fun suite hs c hc => ?_, fun suite hs hpriority hid => ?_⟩
  · rw [hsuites] at hs
    simp only [runSuites, List.mem_cons, List.not_mem_nil, or_false] at hs
    rcases hs with rfl | rfl | rfl | rfl | rfl
    all_goals
      obtain ⟨d, -, rfl⟩ := List.mem_map.mp hc
      exact runCase_status x d
  · rw [hsuites] at hs
    simp only [runSuites, List.mem_cons, List.not_mem_nil, or_false] at hs
    rcases hs with rfl | rfl | rfl | rfl | rfl
    · exact absurd List.mem_cons_self hid
    · exact absurd (List.mem_cons_of_mem _ List.mem_cons_self) hid
    all_goals exact absurd rfl hpriority

theorem float64_rate_le : float64 (95 / 100) ≤ 1 := by
  decide +kernel

/-- **A suite whose cases have all passed** is what every check wants. -/
theorem SuiteReport.Counted.of_passed (h : suite.Counted) (hne : suite.cases ≠ [])
    (hpassed : ∀ c ∈ suite.cases, c.status = statusPass) :
    suite.caseCount ≠ 0 ∧ suite.failed ≤ 0 ∧ suite.skipped ≤ 0 ∧
      float64 (95 / 100) ≤ suite.rate := by
  have hlength : 0 < suite.cases.length := List.length_pos_iff.mpr hne
  have hcount : suite.caseCount ≠ 0 := by
    rw [h.caseCount]
    omega
  refine ⟨hcount, ?_, ?_, ?_⟩
  · rw [h.failed, count_eq_zero_iff]
    intro c hc
    rw [hpassed c hc]
    decide
  · rw [h.skipped, count_eq_zero_iff]
    intro c hc
    rw [hpassed c hc]
    decide
  · -- All have passed, so the rate is one.
    have hall : suite.passed = suite.caseCount := by
      rw [h.passed, h.caseCount, count, List.countP_eq_length.mpr]
      exact fun c hc => decide_eq_true (hpassed c hc)
    have hpos : 0 < float64 suite.caseCount := by
      refine float64_pos ?_
      rw [h.caseCount]
      exact_mod_cast hlength
    rw [rate, hall, div_self hpos.ne', float64_one]
    exact float64_rate_le

/-- **An accepted report is fully passing** exactly if it can be judged by its counters; and the
report of a run is accepted exactly if every suite has a case and every case has passed. -/
theorem release_fullyPassing_iff (report : Report) (opts : Options) (x : Execution) :
    (validateRelease report = .ok () → (FullyPassing report ↔ Faithful report)) ∧
    (validateRelease (run opts x) = .ok () ↔
      ∀ suite ∈ (run opts x).suites, suite.cases ≠ [] ∧
        ∀ c ∈ suite.cases, c.status = statusPass) := by
  refine ⟨fun hvalid => ⟨FullyPassing.faithful, fun h => h.fullyPassing hvalid⟩,
    fun hvalid suite hs => ?_, fun h => ?_⟩
  · have hfull := (faithful_run opts x).fullyPassing hvalid
    exact ⟨hfull.nonempty suite hs, hfull.passed suite hs⟩
  · obtain ⟨htype, hsummary, hsuites⟩ := run_kept opts x
    have hfine : ∀ suite ∈ (run opts x).suites, suite.caseCount ≠ 0 ∧ suite.failed ≤ 0 ∧
        suite.skipped ≤ 0 ∧ float64 (95 / 100) ≤ suite.rate := fun suite hs =>
      ((counted_run opts x).suites suite hs).of_passed (h suite hs).1 (h suite hs).2
    have hcases : (run opts x).summary.caseCount ≠ 0 := by
      rw [hsummary]
      exact show (37 : ℤ) ≠ 0 by decide
    obtain ⟨hresult, hdecision⟩ : (run opts x).Go := by
      refine go_run_iff.mpr ⟨fun suite hs => ?_, hsummary ▸ hcases⟩
      obtain ⟨hcount, hfailed, hskipped, -⟩ := hfine suite (hsuites ▸ hs)
      exact ⟨hcount, hfailed, fun _ => hskipped⟩
    refine validateRelease_eq_ok_iff.mpr ⟨validateP0_eq_ok_iff.mpr ⟨htype, hcases, ?_, ?_⟩,
      hdecision, hresult, fun suite hs => ?_⟩
    · intro suite hs _
      obtain ⟨hcount, hfailed, hskipped, -⟩ := hfine suite hs
      exact ⟨hcount, hfailed, hskipped⟩
    · rw [hsuites]
      simp [requiredSuites, runSuites, runSuite]
    · obtain ⟨hcount, hfailed, hskipped, hrate⟩ := hfine suite hs
      exact checkSuite_eq_ok_iff.mpr ⟨hcount, hfailed, fun _ => ⟨hskipped, hrate⟩⟩

/-- A run in which every case passes. -/
theorem release_fullyPassing_run : ∃ report, validateRelease report = .ok () ∧
    FullyPassing report ∧ ∃ opts x, report = run opts x := by
  let opts : Options := ⟨lit "test", [], [], ⟨0, 0⟩⟩
  let x : Execution := ⟨fun _ => (fun _ => none, none), id, ⟨0, 0⟩, fun _ => 0, fun _ => 0, 0⟩
  have hvalid : validateRelease (run opts x) = .ok () := by
    refine (release_fullyPassing_iff (run opts x) opts x).2.mpr ?_
    rw [(run_kept opts x).2.2]
    intro suite hs
    simp only [runSuites, List.mem_cons, List.not_mem_nil, or_false] at hs
    rcases hs with rfl | rfl | rfl | rfl | rfl
    all_goals
      refine ⟨List.cons_ne_nil _ _, fun c hc => ?_⟩
      obtain ⟨d, -, rfl⟩ := List.mem_map.mp hc
      rfl
  exact ⟨_, hvalid, ((release_fullyPassing_iff _ opts x).1 hvalid).mpr (faithful_run opts x), opts,
    x, rfl⟩

/-- **Failed cases are accepted** if the counters say that they have passed: the two required
suites have one case each, which has failed. -/
theorem failed_cases_accepted : ∃ report, validateRelease report = .ok () ∧
    ¬FullyPassing report ∧
    ∀ suite ∈ report.suites, ∀ c ∈ suite.cases, c.status = statusFail := by
  let failing : CaseReport := ⟨lit "c", lit "case", statusFail, 0, lit "error", [], fun _ => none⟩
  let suite (id : Str) : SuiteReport := ⟨id, id, priorityP0, true, 1, 1, 0, 0, 0, [failing]⟩
  let report : Report := ⟨reportType, lit "test", lit "v2", ⟨0, 0⟩, 0, statusPass, lit "go",
    ⟨2, 2, 2, 0, 0⟩, fun _ => none, [], requiredSuites.map suite⟩
  have hcases : ∀ suite ∈ report.suites, ∀ c ∈ suite.cases, c.status = statusFail := by
    intro s hs c hc
    obtain ⟨id, -, rfl⟩ := List.mem_map.mp hs
    obtain rfl := List.mem_singleton.mp hc
    rfl
  refine ⟨report, rfl, fun h => ?_, hcases⟩
  have hpassed := h.passed (suite (lit "p0_core")) List.mem_cons_self failing List.mem_cons_self
  exact absurd hpassed (show statusFail ≠ statusPass by decide)

end Conformance

end Iscp
