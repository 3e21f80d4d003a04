import HardwareTest.Runner.Rules

/-!
# The outcome of a test run

What becomes of the exit code of a test subprocess that has ended by itself.  `Surroundings` is
everything the procedure meets after that: the files it finds, what ReportPortal answers and how the
publication goes; `_execute_test_run` is evaluated in it.

* `ReportsHarmless` — the surroundings in which the reporting does not reach the catch-all handler;
* `outcome_kept_iff` — exactly in those the terminal state has the exit code and its status.
-/

namespace HardwareTest.Runner

open HardwareTest.Lib HardwareTest.Python

/-- How `run` goes for the publisher: its start raises, the timeout fires while it starts, its output
raises, the timeout fires while it writes or before it ends, or it ends. -/
inductive Publication
  | refused (error : PyError)
  | unconnected
  | unread (error : PyError)
  | hanging
  | unended (output : Text)
  | ended (output : Text) (exitCode : ℤ)

/-- What the publisher's `_run_with_timeout` returns or raises. -/
def Publication.outcome : Publication → Except PyError ProcessResult
  | .refused e => .error e
  | .unread e => .error e
  | .unconnected => .error (.timeoutError [])
  | .hanging => .error (.timeoutError [])
  | .unended _ => .error (.timeoutError [])
  | .ended output exitCode => .ok ⟨exitCode, output⟩

/-- `run` for the publisher raises `TimeoutError`. -/
def Publication.timesOut (p : Publication) : Bool :=
  match p.outcome with
  | .error (.timeoutError _) => true
  | _ => false

/-- What the procedure meets: the test subprocess with its exit code, and the reporting side.  Nobody
cancels, and the timeout of the test subprocess does not fire. -/
structure Surroundings where
  output : Text
  exitCode : ℤ
  page : LaunchPage
  files : ℕ → FileSystem
  publication : Publication
  stop : Text → Except PyError Unit
  time : ℕ

/-- What has happened: the subprocesses started, the looks at the file system, the states written. -/
structure Progress where
  started : ℕ
  looks : ℕ
  written : List OperationState

/-- The answers of the surroundings. -/
def Surroundings.handle (env : Surroundings) : (op : Op) → Progress → op.Answer × Progress
  | .call (.write state), s =>
    if state.dumpable then (.ok (), { s with written := s.written ++ [state] })
    else (.error digitsError, s)
  | .call .now, s => (env.time, s)
  | .call .cancelRequested, s => (false, s)
  | .call .fileSystem, s => (env.files s.looks, { s with looks := s.looks + 1 })
  | .call (.popen _ _), s =>
    match s.started, env.publication with
    | n + 1, .refused e => (.error e, { s with started := n + 1 })
    | n, _ => (.ok n, { s with started := n + 1 })
  | .call (.setProcess _), s => ((), s)
  | .call .terminateProcess, s => ((), s)
  | .call (.popenStop container), s => (env.stop container, s)
  | .await (.connected pid), s =>
    match pid, env.publication with
    | _ + 1, .unconnected => (.error .expired, s)
    | _, _ => (.ok (), s)
  | .await (.output pid), s =>
    match pid, env.publication with
    | 0, _ => (.ok env.output, s)
    | _, .unread e => (.error (.raised e), s)
    | _, .unended output => (.ok output, s)
    | _, .ended output _ => (.ok output, s)
    | _, _ => (.error .expired, s)
  | .await (.exitStatus pid), s =>
    match pid, env.publication with
    | 0, _ => (.ok env.exitCode, s)
    | _, .ended _ exitCode => (.ok exitCode, s)
    | _, _ => (.error .expired, s)
  | .await .stopped, s => (.ok (), s)
  | .await .launches, s => (.ok env.page, s)

/-- The status of a completed test run. -/
def statusOf (exitCode : ℤ) : OperationStatus := if exitCode = 0 then .passed else .failed

/-- The states written end with one terminal state, with the exit code and its status. -/
def OutcomeKept (exitCode : ℤ) (written : List OperationState) : Prop :=
  ∃ before last, written = before ++ [last] ∧ (∀ state ∈ before, state.status.isTerminal = false) ∧
    last.status = statusOf exitCode ∧ last.exitCode = some exitCode

/-! ## When the reporting is harmless -/

section Conditions

variable (settings : Settings) (env : Surroundings) (runDirectory : PurePath)

/-- The JUnit path stays inside the session directory, and the sums in the report can be written. -/
def JunitHarmless (files : FileSystem) : Prop :=
  ∀ path, settings.junitPath = some path →
    ∃ file, files.resolveReportPath runDirectory path.path = .ok file ∧
      ∀ summary, files.isFile file = true → files.readJunitSummary file = some summary →
        summary.writable = true

/-- The results path stays inside the session directory, and a publisher that timed out can be
stopped. -/
def AllureHarmless (operationId : Text) (files : FileSystem) : Prop :=
  ∀ path, settings.allureResultsPath = some path →
    ∃ results, files.resolveReportPath runDirectory path.path = .ok results ∧
      (files.isDir results = true → env.publication.timesOut = true →
        env.stop (Settings.publisherContainer operationId) = .ok ())

/-- The look at the file system with which the publication begins. -/
def allureLook : ℕ := if settings.junitPath.isSome then 2 else 1

/-- **The reporting is harmless**: there is no session directory, or both reports are. -/
def ReportsHarmless (operationId : Text) : Prop :=
  (env.files 0).isDir runDirectory = true →
    JunitHarmless settings runDirectory (env.files 1) ∧
      (settings.allureEnabled = true →
        AllureHarmless settings env runDirectory operationId (env.files (allureLook settings)))

end Conditions

/-! ## Evaluation -/

section Evaluation

variable (env : Surroundings)

@[simp] theorem eval_await (a : Await) (s : Progress) :
    (await a).eval env.handle s = env.handle (.await a) s := by
  unfold await
  rw [Program.eval_call, Program.eval_ofExcept]

@[simp] theorem eval_write (state : OperationState) (s : Progress) :
    (write state).eval env.handle s = if state.dumpable then
      (.ok (), { s with written := s.written ++ [state] }) else (.error (.raised digitsError), s) := by
  unfold write ofAnswer
  rw [Program.eval_call, Program.eval_ofExcept]
  simp only [Surroundings.handle]
  split <;> rfl

theorem eval_fileSystem {α : Type} (f : FileSystem → Work α) (s : Progress) :
    (fileSystem >>= f).eval env.handle s
      = (f (env.files s.looks)).eval env.handle { s with looks := s.looks + 1 } := by
  rw [Program.eval_bind]
  rfl

theorem eval_cancelRequested {α : Type} (f : Bool → Work α) (s : Progress) :
    (cancelRequested >>= f).eval env.handle s = (f false).eval env.handle s := by
  rw [Program.eval_bind]
  rfl

theorem resolveReportPath_raises {files : FileSystem} {runDirectory path : PurePath} {e : PyException}
    (h : files.resolveReportPath runDirectory path = .error e) :
    ∃ message, e = .raised (.exception message) := by
  unfold FileSystem.resolveReportPath at h
  dsimp only at h
  split at h
  · cases h
    exact ⟨_, rfl⟩
  · cases h

/-- The test subprocess. -/
theorem eval_testSubprocess (command : Command) (environment : Environment) {s : Progress}
    (hs : s.started = 0) : (runWithTimeout command environment).eval env.handle s
      = (.ok ⟨env.exitCode, env.output⟩, { s with started := 1 }) := by
  obtain ⟨started, looks, written⟩ := s
  cases hs
  rfl

/-- The publisher. -/
theorem eval_publisher (command : Command) (environment : Environment) {s : Progress}
    (hs : s.started = 1) : ∃ started, (runWithTimeout command environment).eval env.handle s
      = (env.publication.outcome.mapError .raised, { s with started := started }) := by
  obtain ⟨started, looks, written⟩ := s
  cases hs
  obtain ⟨output, exitCode, page, files, publication, stop, time⟩ := env
  cases publication with
  | refused e => exact ⟨1, rfl⟩
  | unconnected => exact ⟨2, rfl⟩
  | unread e => exact ⟨2, rfl⟩
  | hanging => exact ⟨2, rfl⟩
  | unended output => exact ⟨2, rfl⟩
  | ended output exitCode => exact ⟨2, rfl⟩

theorem eval_finish (state : OperationState) (status : OperationStatus) (exitCode : Option ℤ)
    (updates : Updates) (s : Progress) :
    (finish state status exitCode updates).eval env.handle s
      = (write (state.finished status env.time exitCode updates)).eval env.handle s := by
  unfold finish
  rw [Program.eval_bind]
  rfl

theorem eval_reportUpdates (settings : Settings) (state : OperationState) (s : Progress) :
    ∃ updates, updates.summary = none ∧
      (reportUpdates settings state).eval env.handle s = (.ok updates, s) := by
  unfold reportUpdates
  split
  · refine ⟨readReportportalResult settings state.operationId env.page, ?_, ?_⟩
    · unfold readReportportalResult
      split
      · rfl
      · split
        · rfl
        · split <;> rfl
    · rw [Program.eval_bind]
      rfl
  · exact ⟨{}, rfl, rfl⟩

/-- `_read_summary` raises when the JUnit path leaves the session directory; otherwise what it returns
can be written exactly when the report is harmless. -/
theorem eval_readSummary (settings : Settings) (runDirectory : PurePath) (s : Progress) :
    ∃ r, (readSummary settings runDirectory).eval env.handle s
        = (r, { s with looks := s.looks + if settings.junitPath.isSome then 1 else 0 }) ∧
      match r with
      | .ok summary => JunitHarmless settings runDirectory (env.files s.looks) ↔
          ∀ x, summary.1 = some x → x.writable = true
      | .error e => ¬JunitHarmless settings runDirectory (env.files s.looks) ∧
          ∃ message, e = .raised (.exception message) := by
  unfold readSummary JunitHarmless
  split
  · rename_i hpath
    exact ⟨.ok (none, none), by simp [hpath], by simp [hpath]⟩
  rename_i path hpath
  rw [eval_fileSystem, Program.eval_bind, Program.eval_ofExcept]
  simp only [hpath, Option.isSome_some, if_true, Option.some.injEq, forall_eq']
  cases hfile : (env.files s.looks).resolveReportPath runDirectory path.path with
  | error e =>
    exact ⟨.error e, rfl, by simp, resolveReportPath_raises hfile⟩
  | ok file =>
    dsimp only
    cases hisFile : (env.files s.looks).isFile file with
    | false =>
      rw [Bool.not_false, if_pos rfl]
      refine ⟨_, rfl, fun _ x hx => (nomatch hx), fun _ => ⟨file, rfl, fun x hf _ => ?_⟩⟩
      rw [hisFile] at hf
      cases hf
    | true =>
      rw [Bool.not_true, if_neg Bool.false_ne_true]
      cases hread : (env.files s.looks).readJunitSummary file with
      | none =>
        refine ⟨_, rfl, fun _ x hx => (nomatch hx), fun _ => ⟨file, rfl, fun x _ hx => ?_⟩⟩
        rw [hread] at hx
        cases hx
      | some summary =>
        refine ⟨_, rfl, ?_, fun h => ⟨file, rfl, fun x _ hx => ?_⟩⟩
        · rintro ⟨file', hfile', h⟩ x hx
          cases hfile'
          cases hx
          exact h summary hisFile hread
        · exact h x (hread ▸ hx)

theorem eval_cancelProcess (container : Text) (s : Progress) :
    (cancelProcess (some container)).eval env.handle s
      = ((env.stop container).mapError .raised, s) := by
  unfold cancelProcess
  rw [Program.eval_bind]
  unfold popenStop ofAnswer
  rw [Program.eval_call, Program.eval_ofExcept]
  simp only [Surroundings.handle]
  cases env.stop container with
  | ok _ => rfl
  | error e => rfl

/-- What the publisher's handlers return or raise. -/
theorem eval_runPublisher (state : OperationState) (command : Command) (token : Text) {s : Progress}
    (hs : s.started = 1) : ∃ r started, (runPublisher state command token).eval env.handle s
        = (r, { s with started := started }) ∧
      match r with
      | .ok updates => (env.publication.timesOut = true →
          env.stop (Settings.publisherContainer state.operationId) = .ok ()) ∧ updates.summary = none
      | .error e => env.publication.timesOut = true ∧ ∃ error, e = .raised error ∧
          env.stop (Settings.publisherContainer state.operationId) = .error error := by
  obtain ⟨started, hrun⟩ :=
    eval_publisher env command (some [("ALLURE_ACCESS_TOKEN", token)]) hs
  unfold runPublisher Publication.timesOut
  rw [Program.eval_tryCatch, Program.eval_bind, hrun]
  cases env.publication.outcome with
  | ok result =>
    by_cases hcode : result.exitCode ≠ 0
    · simp only [Except.mapError, if_pos hcode]
      exact ⟨_, started, rfl, (nomatch ·), rfl⟩
    · simp only [Except.mapError, if_neg hcode]
      exact ⟨_, started, rfl, (nomatch ·), rfl⟩
  | error e =>
    cases e with
    | exception message => exact ⟨_, started, rfl, (nomatch ·), rfl⟩
    | timeoutError message =>
      simp only [Except.mapError, Program.eval_bind, eval_cancelProcess]
      cases hstop : env.stop (Settings.publisherContainer state.operationId) with
      | ok _ => exact ⟨_, started, rfl, fun _ => rfl, rfl⟩
      | error e => exact ⟨_, started, rfl, trivial, e, rfl, rfl⟩

/-- **The publication** raises exactly when it is harmful; it writes no terminal state. -/
theorem eval_publishAllure {settings : Settings} (state : OperationState) (runDirectory : PurePath)
    {s : Progress} (hs : s.started = 1) (hallure : settings.allureEnabled = true)
    (hopen : state.status.isTerminal = false) (hsummary : state.summary = none) :
    ∃ r t extra, (publishAllure settings state runDirectory).eval env.handle s = (r, t) ∧
      t.written = s.written ++ extra ∧ (∀ st ∈ extra, st.status.isTerminal = false) ∧
      match r with
      | .ok updates => updates.summary = none ∧
          AllureHarmless settings env runDirectory state.operationId (env.files s.looks)
      | .error e => (∃ error, e = .raised error) ∧
          ¬AllureHarmless settings env runDirectory state.operationId (env.files s.looks) := by
  obtain ⟨htoken, hpath⟩ := settings.allure_complete hallure
  obtain ⟨path, hpath⟩ := Option.isSome_iff_exists.mp hpath
  unfold publishAllure AllureHarmless
  simp only [hpath, Option.some.injEq, forall_eq']
  rw [eval_fileSystem, Program.eval_bind, Program.eval_ofExcept]
  cases hresults : (env.files s.looks).resolveReportPath runDirectory path.path with
  | error e =>
    obtain ⟨message, rfl⟩ := resolveReportPath_raises hresults
    exact ⟨_, _, [], rfl, by simp, by simp, ⟨_, rfl⟩, by simp⟩
  | ok results =>
    simp only [Except.ok.injEq, exists_eq_left']
    cases hdir : (env.files s.looks).isDir results with
    | false => exact ⟨_, _, [], rfl, by simp, by simp, rfl, by simp⟩
    | true =>
      obtain ⟨token, htoken⟩ : ∃ token, settings.allureAccessToken = some token := by
        cases h : settings.allureAccessToken with
        | none =>
          rw [h] at htoken
          cases htoken
        | some token => exact ⟨token, rfl⟩
      have hcommand : ∃ command, settings.publishAllure state.operationId runDirectory = .ok command := by
        unfold Settings.publishAllure
        rw [hpath]
        exact ⟨_, rfl⟩
      obtain ⟨command, hcommand⟩ := hcommand
      let publishing : OperationState :=
        { state with containerName := some (Settings.publisherContainer state.operationId) }
      have hdump : publishing.dumpable = true := by
        simp [publishing, OperationState.dumpable, hsummary]
      obtain ⟨r, started, hrun, hr⟩ := eval_runPublisher env state command token
        (s := { s with looks := s.looks + 1, written := s.written ++ [publishing] }) hs
      refine ⟨r, ⟨started, s.looks + 1, s.written ++ [publishing]⟩, [publishing], ?_, rfl,
        by simpa [publishing] using hopen, ?_⟩
      · rw [Bool.not_true, if_neg Bool.false_ne_true, Program.eval_bind, eval_write, if_pos hdump]
        simp only [htoken, hcommand]
        exact hrun
      · cases r with
        | ok updates => exact ⟨hr.2, fun _ => hr.1⟩
        | error e =>
          obtain ⟨htimes, error, he, hstop⟩ := hr
          refine ⟨⟨error, he⟩, fun h => ?_⟩
          rw [h rfl htimes] at hstop
          cases hstop

/-- The final write of a state without a summary of its own. -/
theorem eval_finish_kept {state : OperationState} (exitCode : ℤ) (updates : Updates) {s : Progress}
    (hsummary : state.summary = none) (hs : ∀ st ∈ s.written, st.status.isTerminal = false) :
    ∃ r t, (finish state (statusOf exitCode) (some exitCode) updates).eval env.handle s = (r, t) ∧
      match r with
      | .ok _ => (∀ x, updates.summary = some x → x.writable = true) ∧ OutcomeKept exitCode t.written
      | .error e => (¬∀ x, updates.summary = some x → x.writable = true) ∧
          (∃ error, e = .raised error) ∧ t = s := by
  have hdump : (state.finished (statusOf exitCode) env.time (some exitCode) updates).dumpable = true ↔
      ∀ x, updates.summary = some x → x.writable = true := by
    unfold OperationState.dumpable OperationState.finished
    rw [hsummary]
    cases updates.summary with
    | none => simp
    | some x => simp
  rw [eval_finish, eval_write]
  split
  · rename_i h
    exact ⟨_, _, rfl, hdump.mp h, s.written, _, rfl, hs, rfl, rfl⟩
  · rename_i h
    exact ⟨_, _, rfl, fun hall => h (hdump.mpr hall), ⟨_, rfl⟩, rfl⟩

/-- **The part after the test subprocess** writes its outcome exactly when the reporting is harmless;
otherwise it raises before it has written a terminal state. -/
theorem eval_concludeTestRun {settings : Settings} {state : OperationState} (directory : PurePath)
    (result : ProcessResult) {report : Updates} (hreport : report.summary = none)
    (hopen : state.status.isTerminal = false) (hsummary : state.summary = none) :
    ∃ r t, (concludeTestRun settings state directory result report).eval env.handle ⟨1, 0, []⟩ = (r, t) ∧
      match r with
      | .ok _ => ReportsHarmless settings env directory state.operationId ∧
          OutcomeKept result.exitCode t.written
      | .error e => ¬ReportsHarmless settings env directory state.operationId ∧
          (∃ error, e = .raised error) ∧ ∀ st ∈ t.written, st.status.isTerminal = false := by
  unfold concludeTestRun ReportsHarmless
  rw [eval_cancelRequested, if_neg Bool.false_ne_true]
  dsimp only
  rw [eval_fileSystem]
  cases hdir : (env.files 0).isDir directory with
  | false =>
    rw [Bool.not_false, if_pos rfl]
    obtain ⟨r, t, heval, hr⟩ := eval_finish_kept env result.exitCode report (s := ⟨1, 1, []⟩) hsummary (by simp)
    refine ⟨r, t, heval, ?_⟩
    cases r with
    | ok _ => exact ⟨(nomatch ·), hr.2⟩
    | error e => exact absurd (fun x hx => by rw [hreport] at hx; cases hx) hr.1
  | true =>
    rw [Bool.not_true, if_neg Bool.false_ne_true, Program.eval_bind]
    simp only [forall_const]
    obtain ⟨r, hread, hr⟩ := eval_readSummary env settings directory ⟨1, 1, []⟩
    rw [hread]
    cases r with
    | error e =>
      obtain ⟨message, rfl⟩ := hr.2
      exact ⟨_, _, rfl, fun h => hr.1 h.1, ⟨_, rfl⟩, by simp⟩
    | ok summary =>
      dsimp only
      cases hallure : settings.allureEnabled with
      | false =>
        rw [if_neg Bool.false_ne_true]
        have hwritten : ∀ st ∈ ([] : List OperationState), st.status.isTerminal = false := by simp
        obtain ⟨rf, t, heval, hrf⟩ := eval_finish_kept env result.exitCode
          ({ report with
            artifactDirectory := some directory.toText, summary := summary.1, junitMessage := summary.2 })
          (s := ⟨1, 1 + if settings.junitPath.isSome then 1 else 0, []⟩) hsummary hwritten
        refine ⟨rf, t, heval, ?_⟩
        cases rf with
        | ok _ => exact ⟨⟨hr.mpr hrf.1, (nomatch ·)⟩, hrf.2⟩
        | error e =>
          obtain ⟨hharm, herror, rfl⟩ := hrf
          exact ⟨fun h => hharm (hr.mp h.1), herror, hwritten⟩
      | true =>
        rw [if_pos rfl, Program.eval_bind]
        have hlook : (1 + if settings.junitPath.isSome then 1 else 0) = allureLook settings := by
          unfold allureLook
          split <;> rfl
        rw [hlook]
        obtain ⟨r, t, extra, hpublish, hwritten, hextra, hrp⟩ :=
          eval_publishAllure env state directory (s := ⟨1, allureLook settings, []⟩) rfl hallure hopen
            hsummary
        rw [List.nil_append] at hwritten
        rw [hpublish]
        cases r with
        | error e =>
          exact ⟨_, _, rfl, fun h => hrp.2 (h.2 rfl), hrp.1, hwritten ▸ hextra⟩
        | ok published =>
          dsimp only
          rw [eval_cancelRequested, if_neg Bool.false_ne_true]
          obtain ⟨rf, u, heval, hrf⟩ := eval_finish_kept env result.exitCode
            ({ report.update published with
              artifactDirectory := some directory.toText, summary := summary.1, junitMessage := summary.2 })
            (s := t) hsummary (hwritten ▸ hextra)
          refine ⟨rf, u, heval, ?_⟩
          cases rf with
          | ok _ => exact ⟨⟨hr.mpr hrf.1, fun _ => hrp.2⟩, hrf.2⟩
          | error e =>
            obtain ⟨hharm, herror, rfl⟩ := hrf
            exact ⟨fun h => hharm (hr.mp h.1), herror, hwritten ▸ hextra⟩

/-- A state that the handlers write is not the outcome. -/
theorem not_outcomeKept_finish {state : OperationState} {status : OperationStatus} {updates : Updates}
    {exitCode : ℤ} {s : Progress} (hstatus : status ≠ statusOf exitCode)
    (hs : ¬OutcomeKept exitCode s.written) :
    ¬OutcomeKept exitCode ((finish state status none updates).eval env.handle s).2.written := by
  rw [eval_finish, eval_write]
  split
  · rintro ⟨before, last, hwritten, -, hlast, -⟩
    obtain ⟨-, hlast'⟩ := List.append_inj' hwritten rfl
    cases hlast'
    exact hstatus hlast
  · exact hs

theorem not_outcomeKept {exitCode : ℤ} {written : List OperationState}
    (h : ∀ st ∈ written, st.status.isTerminal = false) : ¬OutcomeKept exitCode written := by
  rintro ⟨before, last, rfl, -, hlast, -⟩
  have hopen := h last (by simp)
  rw [hlast] at hopen
  unfold statusOf at hopen
  split at hopen <;> cases hopen

theorem eval_allocatedDirectory {α : Type} (expected : PurePath) (f : Option Text → Work α)
    (s : Progress) : ∃ directory, (allocatedDirectory expected >>= f).eval env.handle s
      = (f directory).eval env.handle { s with looks := s.looks + 1 } := by
  unfold allocatedDirectory
  rw [Program.eval_bind, eval_fileSystem]
  exact ⟨_, rfl⟩

theorem statusOf_ne {status : OperationStatus} {exitCode : ℤ} (h : status ≠ .passed ∧ status ≠ .failed) :
    status ≠ statusOf exitCode := by
  unfold statusOf
  split
  · exact h.1
  · exact h.2

/-- A test run from its start: what it writes has the outcome exactly when the reporting is harmless. -/
theorem eval_executeTestRun {settings : Settings} {state : OperationState} {command : Command}
    {runId : Text} (hrun : state.runId = some runId) (hopen : state.status.isTerminal = false)
    (hsummary : state.summary = none) :
    OutcomeKept env.exitCode
        ((executeTestRun settings state command).eval env.handle ⟨0, 0, []⟩).2.written ↔
      ReportsHarmless settings env (settings.artifactsDirectory.child runId) state.operationId := by
  unfold executeTestRun
  rw [hrun]
  dsimp only
  obtain ⟨report, hreport, hupdates⟩ := eval_reportUpdates env settings state ⟨1, 0, []⟩
  obtain ⟨r, t, hconclude, hr⟩ := eval_concludeTestRun env
    (settings.artifactsDirectory.child runId) ⟨env.exitCode, env.output⟩ hreport hopen hsummary
  rw [Program.eval_tryCatch, Program.eval_bind, eval_testSubprocess env command _ rfl]
  dsimp only
  rw [Program.eval_bind, hupdates]
  dsimp only
  rw [hconclude]
  cases r with
  | ok _ => exact ⟨fun _ => hr.1, fun _ => hr.2⟩
  | error e =>
    obtain ⟨hharm, ⟨error, rfl⟩, hwritten⟩ := hr
    refine ⟨fun h => absurd h ?_, fun h => absurd h hharm⟩
    have hbefore : ¬OutcomeKept env.exitCode t.written := not_outcomeKept hwritten
    cases error with
    | exception message =>
      obtain ⟨directory, heval⟩ := eval_allocatedDirectory env (settings.artifactsDirectory.child runId)
        (fun directory => finish state .infrastructureError none
          { message := some message, artifactDirectory := directory }) t
      show ¬OutcomeKept env.exitCode (Program.eval env.handle (_ >>= _) t).2.written
      rw [heval]
      exact not_outcomeKept_finish env (statusOf_ne (by decide)) hbefore
    | timeoutError message =>
      show ¬OutcomeKept env.exitCode (Program.eval env.handle (_ >>= _) t).2.written
      obtain ⟨r, hcancel⟩ : ∃ r, (cancelProcess state.containerName).eval env.handle t = (r, t) := by
        cases state.containerName with
        | none => exact ⟨.ok (), rfl⟩
        | some container => exact ⟨_, eval_cancelProcess env container t⟩
      rw [Program.eval_bind, hcancel]
      cases r with
      | error e => exact hbefore
      | ok _ =>
        obtain ⟨report, -, hreport⟩ := eval_reportUpdates env settings state t
        dsimp only
        rw [Program.eval_bind, hreport]
        obtain ⟨directory, heval⟩ := eval_allocatedDirectory env (settings.artifactsDirectory.child runId)
          (fun directory => finish state .timedOut none
            { report with
              message := some "Hardware test run timed out", artifactDirectory := directory }) t
        dsimp only
        rw [heval]
        exact not_outcomeKept_finish env (statusOf_ne (by decide)) hbefore

end Evaluation

/-- **The exit code of a test run is kept exactly when the reporting is harmless.** -/
theorem outcome_kept_iff {settings : Settings} {image stand scenario : Text} {hex : OperationHex}
    {time : ℕ} {state : OperationState} {work : Work Unit}
    (hprepare : (Request.run image stand scenario).prepare settings hex time = .ok (state, work))
    (env : Surroundings) :
    OutcomeKept env.exitCode (work.eval env.handle ⟨0, 0, []⟩).2.written ↔
      ReportsHarmless settings env (settings.artifactsDirectory.child state.operationId)
        state.operationId := by
  simp only [Request.prepare] at hprepare
  split at hprepare
  · cases hprepare
  · cases hprepare
    exact eval_executeTestRun env rfl rfl rfl

/-- A passed run: pytest exits with zero, and every subprocess and `docker stop` goes well. -/
def sampleSurroundings (files : FileSystem) : Surroundings where
  output := []
  exitCode := 0
  page := none
  files _ := files
  publication := .ended [] 0
  stop _ := .ok ()
  time := 0

theorem sampleRun_prepared : ∃ state work,
    (Request.run "sha256:0" "stand" "scenario").prepare .default (sampleHex 'a') 0 = .ok (state, work) :=
  ⟨_, _, rfl⟩

theorem outcome_kept_iff_sample : ∃ state work,
    (Request.run "sha256:0" "stand" "scenario").prepare .default (sampleHex 'a') 0 = .ok (state, work) ∧
      OutcomeKept 0
        (work.eval (sampleSurroundings (Answers.plain.files 0)).handle ⟨0, 0, []⟩).2.written := by
  obtain ⟨state, work, hprepare⟩ := sampleRun_prepared
  exact ⟨state, work, hprepare, (outcome_kept_iff hprepare (sampleSurroundings _)).mpr (nomatch ·)⟩

/-- A session directory in which `reports` is a symbolic link to a directory outside. -/
def linkedReports : FileSystem where
  resolve path := if "reports".toList ∈ path.parts then ⟨true, ["tmp", "junit.xml"]⟩ else path
  isDir _ := true
  isFile _ := true
  parse _ := none

/-- **A passed run becomes an infrastructure error.**  The report path leaves the session directory, and
the exit code zero is not recorded. -/
theorem passed_run_loses_exit_code : ∃ state work,
    (Request.run "sha256:0" "stand" "scenario").prepare .default (sampleHex 'a') 0 = .ok (state, work) ∧
      (work.eval (sampleSurroundings linkedReports).handle ⟨0, 0, []⟩).2.written.map
        (fun st => (st.status, st.exitCode)) = [(.infrastructureError, none)] ∧
      ¬OutcomeKept 0 (work.eval (sampleSurroundings linkedReports).handle ⟨0, 0, []⟩).2.written := by
  have hwritten : ((Request.run "sha256:0" "stand" "scenario").prepare .default (sampleHex 'a')
      0).toOption.map (fun p => (p.2.eval (sampleSurroundings linkedReports).handle ⟨0, 0, []⟩).2.written.map
        fun st => (st.status, st.exitCode)) = some [(.infrastructureError, none)] := by decide +kernel
  obtain ⟨state, work, hprepare⟩ := sampleRun_prepared
  rw [hprepare] at hwritten
  replace hwritten : (work.eval (sampleSurroundings linkedReports).handle ⟨0, 0, []⟩).2.written.map
      (fun st => (st.status, st.exitCode)) = [(.infrastructureError, none)] := Option.some.inj hwritten
  refine ⟨state, work, hprepare, hwritten, ?_⟩
  rintro ⟨before, last, heq, -, hstatus, -⟩
  rw [heq] at hwritten
  have happend : before.map (fun st => (st.status, st.exitCode)) ++ [(last.status, last.exitCode)]
      = [] ++ [(.infrastructureError, none)] := (List.map_append ..).symm.trans hwritten
  obtain ⟨-, hlast⟩ := List.append_inj' happend rfl
  have hlast' := (Prod.mk.inj (List.cons.inj hlast).1).1
  rw [hstatus] at hlast'
  cases hlast'

end HardwareTest.Runner
