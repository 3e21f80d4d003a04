import HardwareTest.Runner.Settings

/-!
# Reports

What the service reads after a run: the report files below the session directory, and the launch that
ReportPortal shows for the operation.  The file system and the answer of ReportPortal belong to the
environment; what the service makes of them is here.
-/

namespace HardwareTest.Runner

open HardwareTest.Python

/-- An error that code can raise and `except Exception` catches. -/
inductive PyError
  | timeoutError (message : Text)
  | exception (message : Text)
  deriving DecidableEq

/-- What can leave an await: an error, or a cancellation of the task.  `expired` is the cancellation
with which a timeout context interrupts the await, `cancelled` one from outside the task. -/
inductive PyException
  | raised (error : PyError)
  | expired
  | cancelled
  deriving DecidableEq

/-- An element of an XML document. -/
inductive Element
  | mk (tag : Text) (attrib : List (Text × Text)) (children : List Element)

namespace Element

def tag : Element → Text
  | mk tag _ _ => tag

def children : Element → List Element
  | mk _ _ children => children

/-- `element.attrib.get(name)`. -/
def get (name : Text) : Element → Option Text
  | mk _ attrib _ => (attrib.find? fun a => a.1 = name).map Prod.snd

end Element

/-- What the service sees of the file system at one moment: `Path.resolve`, `is_dir`, `is_file`, and
the root of the XML document in a file, `none` when it cannot be read or parsed. -/
structure FileSystem where
  resolve : PurePath → PurePath
  isDir : PurePath → Bool
  isFile : PurePath → Bool
  parse : PurePath → Option Element

namespace FileSystem

variable (files : FileSystem)

/-- `resolve_report_path`. -/
def resolveReportPath (runDirectory relativePath : PurePath) : Except PyException PurePath :=
  let root := files.resolve runDirectory
  let path := files.resolve (root.join relativePath)
  if !path.isRelativeTo root || decide (path = root) then
    .error (.raised (.exception "report path escapes the session directory"))
  else .ok path

/-- `sum(int(suite.attrib.get(name, 0)) for suite in suites)`. -/
def sumOf (name : Text) (suites : List Element) : Option ℤ :=
  suites.foldlM (fun total suite => do
    let value ← match suite.get name with
      | some text => int text
      | none => some 0
    return total + value) 0

/-- `read_junit_summary`; `none` stands for an exception. -/
def readJunitSummary (junitFile : PurePath) : Option TestSummary := do
  let root ← files.parse junitFile
  let suites := if root.tag = "testsuite".toList then [root]
    else root.children.filter fun child => child.tag = "testsuite".toList
  let total ← sumOf "tests" suites
  let failures ← sumOf "failures" suites
  let errors ← sumOf "errors" suites
  let skipped ← sumOf "skipped" suites
  return {
    total := total
    passed := max (total - failures - errors - skipped) 0
    failed := failures
    errors := errors
    skipped := skipped }

end FileSystem

/-! ## ReportPortal -/

/-- A launch as ReportPortal describes it. -/
structure Launch where
  id : ℕ
  name : Text
  status : Text
  deriving DecidableEq

/-- The launches ReportPortal answered with, or `none` when the request or its validation raised. -/
abbrev LaunchPage := Option (List Launch)

/-- `launches_url`. -/
def launchesUrl (settings : Settings) : Option Text :=
  if !settings.reportportalEnabled then none
  else settings.reportportalPublicUrl.map fun url =>
    rstrip (· == '/') url ++ "/ui/#".toList ++ settings.reportportalProject ++ "/launches/all".toList

/-- The launch of this operation, when there is exactly one. -/
def findLaunch (operationId : Text) (page : List Launch) : Option Launch :=
  match page.filter fun launch => launch.name = operationId with
  | [launch] => some launch
  | _ => none

/-- `read_reportportal_result`. -/
def readReportportalResult (settings : Settings) (operationId : Text) (page : LaunchPage) : Updates :=
  if !settings.reportportalEnabled then {}
  else match page with
    | none =>
      { reportportalStatus := some .unavailable
        reportportalMessage := some "Could not read ReportPortal launch; check service access" }
    | some launches =>
      match findLaunch operationId launches with
      | none =>
        { reportportalStatus := some .unavailable
          reportportalMessage := some "No ReportPortal launch was found for this operation" }
      | some launch =>
        let finished := ["PASSED", "FAILED", "SKIPPED", "WARN", "INFO"].any
          fun status => status.toList = launch.status
        { reportportalStatus := some (if finished then .finished else .incomplete)
          reportportalUrl := some ((launchesUrl settings).getD "None" ++ "/".toList
            ++ Nat.toDigits 10 launch.id)
          reportportalMessage := some (if finished then
              "ReportPortal launch finished; delivery of every log is not verified"
            else "ReportPortal launch is still running or was interrupted").toList }

/-- The URLs in a text, `https?://[^\s]+` from left to right. -/
def urlsFrom : ℕ → Text → List Text
  | _, [] => []
  | skip + 1, _ :: s => urlsFrom skip s
  | 0, c :: s =>
    let scheme : Text := if "https://".toList <+: c :: s then "https://" else "http://"
    let rest := ((c :: s).drop scheme.length).takeWhile fun d => !isSpace d
    if scheme <+: c :: s ∧ rest ≠ [] then
      (scheme ++ rest) :: urlsFrom (scheme.length + rest.length - 1) s
    else urlsFrom 0 s

/-- `_published_report_url`. -/
def publishedReportUrl (output : Text) : Option Text :=
  (urlsFrom 0 output).getLast?.map fun url => rstrip (fun c => ".,;)\"]'".toList.contains c) url

end HardwareTest.Runner
