import HardwareTest.Lib.Program
import HardwareTest.Runner.DockerCommands
import HardwareTest.Runner.Reporting

/-!
# The procedures of the coordinator

`AsyncioProcessRunner.run` and `.cancel`, and the coroutines that `OperationCoordinator` starts, as
programs over what they ask of the event loop, the operating system and the state store.  An await is
a call whose answer may be an exception: the one a subprocess raises, or the cancellation of the task.

`asyncio.create_subprocess_exec` starts the process at once (`popen`) and then awaits the connection
of its pipes, so the process exists before `run` has stored it.
-/

namespace HardwareTest.Runner

open HardwareTest.Lib HardwareTest.Python

/-- What a procedure waits for. -/
inductive Await
  | connected (pid : ℕ)
  | output (pid : ℕ)
  | exitStatus (pid : ℕ)
  | stopped
  | launches
  deriving DecidableEq

/-- What an await gives when it does not raise. -/
abbrev Await.Value : Await → Type
  | .connected _ => Unit
  | .output _ => Text
  | .exitStatus _ => ℤ
  | .stopped => Unit
  | .launches => LaunchPage

/-- What a procedure asks for without waiting. -/
inductive Call
  | write (state : OperationState)
  | now
  | cancelRequested
  | fileSystem
  | popen (command : Command) (environment : Environment)
  | setProcess (process : Option ℕ)
  | terminateProcess
  | popenStop (container : Text)

abbrev Call.Answer : Call → Type
  | .write _ => Except PyError Unit
  | .now => ℕ
  | .cancelRequested => Bool
  | .fileSystem => FileSystem
  | .popen _ _ => Except PyError ℕ
  | .setProcess _ => Unit
  | .terminateProcess => Unit
  | .popenStop _ => Except PyError Unit

inductive Op
  | call (c : Call)
  | await (a : Await)

abbrev Op.Answer : Op → Type
  | .call c => c.Answer
  | .await a => Except PyException a.Value

abbrev Work (α : Type) := Program Op Op.Answer PyException α

/-- Going on with an answer that may be an error. -/
def ofAnswer {α : Type} (r : Except PyError α) : Work α := .ofExcept (r.mapError .raised)

/-- Awaiting, with what it raises. -/
def await (a : Await) : Work a.Value := .call (.await a) .ofExcept

/-- `state_store.write`. -/
def write (state : OperationState) : Work Unit := .call (.call (.write state)) ofAnswer

/-- `datetime.now(UTC)`. -/
def now : Work ℕ := .call (.call .now) .pure

/-- `self._cancel_requested`. -/
def cancelRequested : Work Bool := .call (.call .cancelRequested) .pure

/-- The file system at this moment. -/
def fileSystem : Work FileSystem := .call (.call .fileSystem) .pure

/-- The start of a subprocess. -/
def popen (command : Command) (environment : Environment) : Work ℕ :=
  .call (.call (.popen command environment)) ofAnswer

/-- `self._process = process`. -/
def setProcess (process : Option ℕ) : Work Unit := .call (.call (.setProcess process)) .pure

/-- `process.terminate()`, when there is a process and it has not ended. -/
def terminateProcess : Work Unit := .call (.call .terminateProcess) .pure

/-- The start of `docker stop`. -/
def popenStop (container : Text) : Work Unit := .call (.call (.popenStop container)) ofAnswer

/-! ## The process runner -/

structure ProcessResult where
  exitCode : ℤ
  output : Text
  deriving DecidableEq

/-- `asyncio.create_subprocess_exec`. -/
def createSubprocess (command : Command) (environment : Environment) : Work ℕ := do
  let pid ← popen command environment
  await (.connected pid)
  return pid

/-- `AsyncioProcessRunner.run`.  Awaiting `output` stands for the loop that reads and logs the lines. -/
def runProcess (command : Command) (environment : Environment) : Work ProcessResult := do
  let process ← createSubprocess command environment
  setProcess (some process)
  Program.tryFinally (do
      let output ← await (.output process)
      let exitCode ← await (.exitStatus process)
      return ⟨exitCode, output⟩)
    (setProcess none)

/-- `AsyncioProcessRunner.cancel`. -/
def cancelProcess (containerName : Option Text) : Work Unit := do
  match containerName with
  | none => pure ()
  | some container =>
    popenStop container
    await .stopped
  terminateProcess

/-! ## The coordinator -/

/-- `_run_with_timeout`: the timeout context turns its own cancellation into a `TimeoutError`. -/
def runWithTimeout (command : Command) (environment : Environment) : Work ProcessResult :=
  (runProcess command environment).tryCatch fun
    | .expired => .throw (.raised (.timeoutError []))
    | e => .throw e

/-- `_finish`. -/
def finish (state : OperationState) (status : OperationStatus) (exitCode : Option ℤ)
    (updates : Updates) : Work Unit := do
  let time ← now
  write (state.finished status time exitCode updates)

/-- `_execute_image_operation`. -/
def executeImageOperation (state : OperationState) (command : Command) (reference : Text) : Work Unit :=
  Program.tryCatch (do
      let result ← runWithTimeout command none
      if ← cancelRequested then
        finish state .cancelled (some result.exitCode) {}
      else if result.exitCode ≠ 0 then
        finish state .failed (some result.exitCode) {}
      else
        let inspect ← runWithTimeout (Settings.inspectImage reference) none
        if inspect.exitCode ≠ 0 ∨ strip inspect.output = [] then
          finish state .infrastructureError (some inspect.exitCode)
            { message := some "The prepared image could not be inspected" }
        else
          finish state .succeeded (some 0)
            { imageReference := some reference
              imageDigest := (splitlines (strip inspect.output)).getLast? })
    fun
      | .raised (.timeoutError _) => do
        cancelProcess none
        finish state .timedOut none { message := some "Image operation timed out" }
      | .raised (.exception message) =>
        finish state .infrastructureError none { message := some message }
      -- a cancellation is no `Exception`
      | e => .throw e

/-- `_allocated_directory`. -/
def allocatedDirectory (expected : PurePath) : Work (Option Text) := do
  let files ← fileSystem
  return if files.isDir expected then some expected.toText else none

/-- `_read_summary`. -/
def readSummary (settings : Settings) (runDirectory : PurePath) :
    Work (Option TestSummary × Option Text) := do
  match settings.junitPath with
  | none => return (none, none)
  | some junitPath =>
    let files ← fileSystem
    let junitFile ← Program.ofExcept (files.resolveReportPath runDirectory junitPath.path)
    if !files.isFile junitFile then
      return (none, some "The configured JUnit report was not created")
    match files.readJunitSummary junitFile with
    | some summary => return (some summary, none)
    | none => return (none, some "The configured JUnit report could not be read")

/-- The report fields of a publication that failed. -/
def reportFailed (message : Text) : Updates :=
  { reportStatus := some .failed, reportMessage := some message }

/-- The publication itself, with its own handlers. -/
def runPublisher (state : OperationState) (command : Command) (token : Text) : Work Updates :=
  Program.tryCatch (do
      let result ← runWithTimeout command (some [("ALLURE_ACCESS_TOKEN", token)])
      if result.exitCode ≠ 0 then
        return reportFailed "Allure publication failed; inspect the operation log"
      return { reportStatus := some .published, reportUrl := publishedReportUrl result.output })
    fun
      | .raised (.timeoutError _) => do
        cancelProcess (some (Settings.publisherContainer state.operationId))
        return reportFailed "Allure publication timed out"
      | .raised (.exception _) => return reportFailed "Allure publication failed; inspect the operation log"
      | e => .throw e

/-- `_publish_allure`. -/
def publishAllure (settings : Settings) (state : OperationState) (runDirectory : PurePath) :
    Work Updates := do
  match settings.allureResultsPath with
  | none => return reportFailed "Allure results are disabled"
  | some resultsPath =>
    let files ← fileSystem
    let resultsDirectory ← Program.ofExcept (files.resolveReportPath runDirectory resultsPath.path)
    if !files.isDir resultsDirectory then
      return reportFailed "The test image did not create Allure results"
    write { state with containerName := some (Settings.publisherContainer state.operationId) }
    match settings.allureAccessToken with
    | none => return reportFailed "Allure access token is unavailable"
    | some token =>
      match settings.publishAllure state.operationId runDirectory with
      | .error message => .throw (.raised (.exception message))
      | .ok command => runPublisher state command token

/-- The ReportPortal lookup, when it is enabled. -/
def reportUpdates (settings : Settings) (state : OperationState) : Work Updates := do
  if settings.reportportalEnabled then
    let page ← await .launches
    return readReportportalResult settings state.operationId page
  else return {}

/-- The environment of the test subprocess. -/
def testEnvironment (settings : Settings) : Environment :=
  match settings.reportportalEnabled, settings.reportportalApiKey with
  | true, some token => some [("RP_API_KEY", token)]
  | _, _ => none

/-- The part of `_execute_test_run` after the test subprocess has ended and ReportPortal was asked. -/
def concludeTestRun (settings : Settings) (state : OperationState) (expectedDirectory : PurePath)
    (result : ProcessResult) (report : Updates) : Work Unit := do
  if ← cancelRequested then
    let directory ← allocatedDirectory expectedDirectory
    finish state .cancelled (some result.exitCode) { report with artifactDirectory := directory }
  else
    let status : OperationStatus := if result.exitCode = 0 then .passed else .failed
    let files ← fileSystem
    if !files.isDir expectedDirectory then
      finish state status (some result.exitCode) report
    else
      let (summary, junitMessage) ← readSummary settings expectedDirectory
      let directory := some expectedDirectory.toText
      if settings.allureEnabled then
        let published ← publishAllure settings state expectedDirectory
        let report := report.update published
        if ← cancelRequested then
          finish state .cancelled (some result.exitCode)
            { report with artifactDirectory := directory, summary := summary }
        else
          finish state status (some result.exitCode)
            { report with
              artifactDirectory := directory, summary := summary, junitMessage := junitMessage }
      else
        finish state status (some result.exitCode)
          { report with
            artifactDirectory := directory, summary := summary, junitMessage := junitMessage }

/-- `_execute_test_run`. -/
def executeTestRun (settings : Settings) (state : OperationState) (command : Command) : Work Unit := do
  match state.runId with
  | none => .throw (.raised (.exception "test operation has no pytest run identity"))
  | some runId =>
    let expectedDirectory := settings.artifactsDirectory.child runId
    Program.tryCatch (do
        let result ← runWithTimeout command (testEnvironment settings)
        let report ← reportUpdates settings state
        concludeTestRun settings state expectedDirectory result report)
      fun
        | .raised (.timeoutError _) => do
          cancelProcess state.containerName
          let report ← reportUpdates settings state
          let directory ← allocatedDirectory expectedDirectory
          finish state .timedOut none
            { report with
              message := some "Hardware test run timed out", artifactDirectory := directory }
        | .raised (.exception message) => do
          let directory ← allocatedDirectory expectedDirectory
          finish state .infrastructureError none
            { message := some message, artifactDirectory := directory }
        | e => .throw e

end HardwareTest.Runner
