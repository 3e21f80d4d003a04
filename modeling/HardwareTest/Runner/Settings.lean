import HardwareTest.Runner.Models

/-!
# Paths and settings

A path is its parts, as `pathlib` keeps them.  The settings are those that the coordinator and the
command builder read; what validation establishes about them is part of the record.
-/

namespace HardwareTest.Runner

open HardwareTest.Python

/-- A pure path: whether it is absolute, and its parts. -/
structure PurePath where
  absolute : Bool
  parts : List Text
  deriving DecidableEq

namespace PurePath

/-- `a / b`: an absolute path on the right takes the place of the left. -/
def join (a b : PurePath) : PurePath :=
  if b.absolute then b else ⟨a.absolute, a.parts ++ b.parts⟩

/-- `a / name` for a single name. -/
def child (a : PurePath) (name : Text) : PurePath := ⟨a.absolute, a.parts ++ [name]⟩

/-- `path.is_relative_to(root)`. -/
def isRelativeTo (path root : PurePath) : Bool :=
  path.absolute == root.absolute && decide (root.parts <+: path.parts)

def parent (path : PurePath) : PurePath := ⟨path.absolute, path.parts.dropLast⟩

def name (path : PurePath) : Text := path.parts.getLastD []

/-- `Path(text)`. -/
def ofText (text : Text) : PurePath where
  absolute := decide (text.head? = some '/')
  parts := (text.splitOn '/').filter fun part => decide (part ≠ [] ∧ part ≠ ['.'])

/-- `str(path)`. -/
def toText (path : PurePath) : Text :=
  let joined := List.intercalate ['/'] path.parts
  if path.absolute then '/' :: joined else if path.parts = [] then ['.'] else joined

/-- A text that is one name. -/
theorem ofText_name {text : Text} (hne : text ≠ []) (hslash : '/' ∉ text) (hdot : text ≠ ".".toList) :
    ofText text = ⟨false, [text]⟩ := by
  obtain ⟨c, rest, rfl⟩ := List.exists_cons_of_ne_nil hne
  have hfirst : c ≠ '/' := fun heq => hslash (heq ▸ List.mem_cons_self)
  rw [ofText, List.splitOn_eq_singleton hslash, List.filter_cons_of_pos]
  · rw [List.filter_nil, List.head?_cons, decide_eq_false fun heq => hfirst (Option.some.inj heq)]
  · exact decide_eq_true ⟨hne, hdot⟩

end PurePath

/-- A report path as `validate_report_path` accepts it: a relative path below the session directory. -/
structure ReportPath where
  path : PurePath
  relative : path.absolute = false
  inside : ("..".toList) ∉ path.parts
  nonempty : path.parts ≠ []

/-- `validate_report_path`. -/
def validateReportPath (value : PurePath) : Except String ReportPath :=
  if h : value.absolute = false ∧ ("..".toList) ∉ value.parts ∧ value.parts ≠ [] then
    .ok ⟨value, h.1, h.2.1, h.2.2⟩
  else .error "report paths must be relative descendants of the session directory"

/-- `_has_secret_value`. -/
def hasSecretValue (value : Option Text) : Bool :=
  match value with
  | none => false
  | some secret => decide (secret ≠ [])

structure Settings where
  frameworkSource : PurePath
  frameworkDockerfile : PurePath
  inventoryFile : PurePath
  artifactsDirectory : PurePath
  junitPath : Option ReportPath
  allureResultsPath : Option ReportPath
  envFile : Option PurePath
  knownHostsFile : Option PurePath
  dockerNetwork : Option Text
  dockerDevices : List Text
  allowedImagePrefixes : List Text
  allureEnabled : Bool
  allurePublisherImage : Text
  allureAccessToken : Option Text
  allureRepository : Text
  reportportalEnabled : Bool
  reportportalEndpoint : Option Text
  reportportalPublicUrl : Option Text
  reportportalProject : Text
  reportportalApiKey : Option Text
  /-- `validate_allure_settings`. -/
  allure_complete : allureEnabled = true →
    hasSecretValue allureAccessToken = true ∧ allureResultsPath.isSome = true
  /-- `validate_reportportal_settings`. -/
  reportportal_complete : reportportalEnabled = true →
    reportportalEndpoint.isSome = true ∧ reportportalPublicUrl.isSome = true ∧
      reportportalProject ≠ [] ∧ hasSecretValue reportportalApiKey = true

/-- The settings when nothing is configured. -/
def Settings.default : Settings where
  frameworkSource := ⟨true, ["opt", "hardware-runner", "framework"]⟩
  frameworkDockerfile := ⟨true, ["opt", "hardware-runner", "framework", "Dockerfile"]⟩
  inventoryFile := ⟨true, ["opt", "hardware-runner", "inventory", "stands.yaml"]⟩
  artifactsDirectory := ⟨true, ["opt", "hardware-runner", "artifacts"]⟩
  junitPath := some ⟨⟨false, ["reports", "junit.xml"]⟩, rfl, by decide, by decide⟩
  allureResultsPath := some ⟨⟨false, ["allure-results"]⟩, rfl, by decide, by decide⟩
  envFile := none
  knownHostsFile := none
  dockerNetwork := none
  dockerDevices := []
  allowedImagePrefixes := ["sha256:"]
  allureEnabled := false
  allurePublisherImage := "local/allure-publisher:3.17.0"
  allureAccessToken := none
  allureRepository := "pytest-hardware-template"
  reportportalEnabled := false
  reportportalEndpoint := none
  reportportalPublicUrl := none
  reportportalProject := []
  reportportalApiKey := none
  allure_complete := by simp
  reportportal_complete := by simp

end HardwareTest.Runner
