import HardwareTest.Auth.Session
import HardwareTest.Equipment.Loader
import HardwareTest.Runner.Requests

/-!
# Choosing a sequence of markers

A sequence of markers is given on the command line, or by the name of a scenario file.  An option is a
string of code points, which may hold surrogates; an option that was not supplied is `none`.

* `validateMarkers`, `ScenarioConfig` — the model of a scenario, which has valid markers only;
* `parseMarkerSequence`, `loadScenario` — the two ways to give one;
* `getMarkerSequence` — how the plugin decides between them;
* `marker_selection_iff` — when a selection that was supplied is not ignored.
-/

namespace HardwareTest.Plugin

open HardwareTest.Lib HardwareTest.Lib.Json HardwareTest.Python HardwareTest.Equipment
open HardwareTest.Runner (PurePath isAlphanumeric matchesName)
open HardwareTest.Auth (characters toStr)

/-! ## Scenarios -/

/-- `_SCENARIO_NAME_PATTERN.fullmatch`. -/
def scenarioNameMatches (value : Text) : Bool := matchesName "_-".toList value

/-- `_MARKER_NAME_PATTERN.fullmatch`. -/
def markerNameMatches (value : Text) : Bool :=
  match value with
  | [] => false
  | c :: rest =>
    (isAlphanumeric c && !(decide (0x30 ≤ c.toNat ∧ c.toNat ≤ 0x39)) || c == '_') &&
      rest.all fun d => isAlphanumeric d || d == '_'

/-- The loop of `_first_duplicate`, with what it has seen. -/
def firstDuplicate : List Text → List Text → Option Text
  | _, [] => none
  | seen, value :: values => if value ∈ seen then some value else firstDuplicate (value :: seen) values

/-- A value repeats another, or a value that was seen before. -/
theorem firstDuplicate_eq_none_iff {seen values : List Text} :
    firstDuplicate seen values = none ↔ values.Nodup ∧ ∀ value ∈ values, value ∉ seen := by
  induction values generalizing seen with
  | nil => simp [firstDuplicate]
  | cons value values ih =>
    rw [firstDuplicate, List.nodup_cons]
    by_cases hseen : value ∈ seen
    · rw [if_pos hseen]
      constructor
      · intro h
        cases h
      · exact fun h => absurd hseen (h.2 value List.mem_cons_self)
    · rw [if_neg hseen, ih]
      constructor
      · rintro ⟨hnodup, hnew⟩
        refine ⟨⟨fun hmem => hnew value hmem List.mem_cons_self, hnodup⟩, ?_⟩
        exact List.forall_mem_cons.mpr ⟨hseen, fun v hv hmem => hnew v hv (List.mem_cons_of_mem _ hmem)⟩
      · rintro ⟨⟨hvalue, hnodup⟩, hnew⟩
        refine ⟨hnodup, fun v hv hmem => ?_⟩
        rcases List.mem_cons.mp hmem with rfl | hmem
        · exact hvalue hv
        · exact hnew v (List.mem_cons_of_mem _ hv) hmem

/-- A sequence of markers: some names, each valid and none twice. -/
structure Markers where
  names : List Text
  nonempty : names ≠ []
  valid : ∀ name ∈ names, markerNameMatches name = true
  distinct : names.Nodup

/-- `validate_markers`. -/
def validateMarkers (values : List Text) : Except Text Markers :=
  let markers := values.map strip
  if hnil : markers = [] then .error "must contain at least one marker"
  else
    match hinvalid : markers.find? fun marker => !markerNameMatches marker with
    | some invalid => .error ("contains invalid marker name '".toList ++ invalid ++ "'".toList)
    | none =>
      match hduplicate : firstDuplicate [] markers with
      | some duplicate => .error ("contains duplicate marker '".toList ++ duplicate ++ "'".toList)
      | none => .ok
        { names := markers
          nonempty := hnil
          valid := fun name hname => by
            have hfind := List.find?_eq_none.mp hinvalid name hname
            rwa [Bool.not_eq_true, Bool.not_eq_false'] at hfind
          distinct := (firstDuplicate_eq_none_iff.mp hduplicate).1 }

/-- The stripped values are a sequence of markers. -/
def NamesMarkers (values : List Text) : Prop :=
  values ≠ [] ∧ (∀ value ∈ values, markerNameMatches (strip value) = true) ∧ (values.map strip).Nodup

/-- The markers are the stripped values. -/
theorem names_of_validateMarkers {values : List Text} {markers : Markers}
    (h : validateMarkers values = .ok markers) : markers.names = values.map strip := by
  rw [validateMarkers] at h
  split at h
  · cases h
  · split at h
    · cases h
    · split at h
      · cases h
      · rw [← Except.ok.inj h]

/-- **The validator** accepts the values that name markers. -/
theorem validateMarkers_ok_iff {values : List Text} :
    (∃ markers, validateMarkers values = .ok markers) ↔ NamesMarkers values := by
  constructor
  · rintro ⟨markers, h⟩
    have hnames := names_of_validateMarkers h
    refine ⟨?_, ?_, hnames ▸ markers.distinct⟩
    · rintro rfl
      exact markers.nonempty hnames
    · intro value hvalue
      exact markers.valid _ (hnames ▸ List.mem_map_of_mem hvalue)
  · rintro ⟨hnil, hvalid, hnodup⟩
    have hfind : ((values.map strip).find? fun marker => !markerNameMatches marker) = none := by
      rw [List.find?_eq_none]
      intro marker hmarker
      obtain ⟨value, hvalue, rfl⟩ := List.mem_map.mp hmarker
      rw [hvalid value hvalue]
      decide
    have hduplicate : firstDuplicate [] (values.map strip) = none :=
      firstDuplicate_eq_none_iff.mpr ⟨hnodup, fun _ _ => List.not_mem_nil⟩
    rw [validateMarkers, dif_neg (by rwa [List.map_eq_nil_iff])]
    split
    · rename_i invalid hinvalid
      rw [hfind] at hinvalid
      cases hinvalid
    · split
      · rename_i duplicate hd
        rw [hduplicate] at hd
        cases hd
      · exact ⟨_, rfl⟩

/-- A named sequence of markers. -/
structure ScenarioConfig where
  name : Text
  markers : Markers
  name_valid : scenarioNameMatches name = true

/-- `validate_name`. -/
def validateName (value : Text) : Except Text { name : Text // scenarioNameMatches name = true } :=
  if h : scenarioNameMatches value = true then .ok ⟨value, h⟩
  else .error "must contain only letters, numbers, underscores, and hyphens"

/-- What is wrong with a field. -/
structure FieldError where
  field : Text
  message : Text
  deriving DecidableEq

/-- What the model leaves to the validation library: the documents that `str` and `list[str]` accept, with
the values they become, and the text of the errors. -/
structure ScenarioSchema where
  string : Yaml → Option Text
  strings : Yaml → Option (List Text)
  report : List FieldError → Str

/-- A field that has to be there, of the type that `accept` tells. -/
def typedField {V : Type} (fields : List (Scalar × Yaml)) (name : String) (accept : Yaml → Option V) :
    Except Text V :=
  match field fields name with
  | none => .error "missing"
  | some value =>
    match accept value with
    | none => .error "type"
    | some v => .ok v

/-- Both fields are validated, and all errors are reported. -/
def ScenarioConfig.build (name : Except Text { name : Text // scenarioNameMatches name = true })
    (markers : Except Text Markers) (forbidden : List FieldError) :
    Except (List FieldError) ScenarioConfig :=
  match name, markers, forbidden with
  | .ok name, .ok markers, [] => .ok ⟨name.1, markers, name.2⟩
  | name, markers, forbidden =>
    let nameErrors := match name with
      | .ok _ => []
      | .error message => [⟨"name", message⟩]
    let markersErrors := match markers with
      | .ok _ => []
      | .error message => [⟨"markers", message⟩]
    .error (nameErrors ++ markersErrors ++ forbidden)

/-- `ScenarioConfig.model_validate`. -/
def ScenarioConfig.validate (schema : ScenarioSchema) : Yaml → Except (List FieldError) ScenarioConfig
  | .map fields =>
    build (typedField fields "name" schema.string >>= validateName)
      (typedField fields "markers" schema.strings >>= validateMarkers)
      (if onlyFields ["name", "markers"] fields then [] else [⟨[], "extra_forbidden"⟩])
  | _ => .error [⟨[], "model_type"⟩]

/-! ## The two ways to give a sequence -/

/-- How a selection fails: a `ScenarioError` with its message, or an exception that is passed on. -/
inductive ScenarioFailure
  | scenarioError (message : Str)
  | raised (exception : Str)
  deriving DecidableEq

/-- The markers of `value.split(",")`: a part with a surrogate is no `str` for the model. -/
def commaMarkers (value : Str) : Except Text Markers :=
  match (value.splitOn 44).mapM characters with
  | none => .error "string_unicode"
  | some values => validateMarkers values

/-- `parse_marker_sequence`. -/
def parseMarkerSequence (schema : ScenarioSchema) (value : Str) : Except ScenarioFailure (List Text) :=
  match ScenarioConfig.build (validateName "command-line".toList) (commaMarkers value) [] with
  | .error errors => .error (.scenarioError (codes "Invalid marker sequence: " ++ schema.report errors))
  | .ok scenario => .ok scenario.markers.names

/-- What reading and parsing a scenario file gives: an `OSError`, a `YAMLError`, a `ValueError` (a
`UnicodeDecodeError`, say), another exception, or the document. -/
inductive ScenarioSource
  | osError (error : Str)
  | yamlError (error : Str)
  | valueError (error : Str)
  | raised (exception : Str)
  | document (doc : Yaml)

section Load

variable (schema : ScenarioSchema) (files : PurePath → ScenarioSource) (rootpath : PurePath)

/-- The file of a scenario. -/
def scenarioPath (name : Text) : PurePath :=
  ((rootpath.child "test-runs".toList).child "scenarios".toList).child (name ++ ".yaml".toList)

/-- A message about the scenario `name` in its file. -/
def scenarioMessage (start : String) (name : Text) (place : String) (error : Str) : ScenarioFailure :=
  .scenarioError (codes start ++ toStr name ++ codes place ++ toStr (scenarioPath rootpath name).toText
    ++ codes "': " ++ error)

/-- What `load_scenario` does with the document of the file. -/
def checkScenario (name : Text) (doc : Yaml) : Except ScenarioFailure ScenarioConfig :=
  match ScenarioConfig.validate schema doc.construct with
  | .error errors =>
    .error (scenarioMessage rootpath "Invalid scenario '" name "' at '" (schema.report errors))
  | .ok scenario =>
    if scenario.name ≠ name then
      .error (.scenarioError (codes "Scenario file '" ++ toStr (scenarioPath rootpath name).toText
        ++ codes "' declares name '" ++ toStr scenario.name ++ codes "', expected '" ++ toStr name ++ codes "'"))
    else .ok scenario

/-- The part of `load_scenario` after the name was checked. -/
def readScenario (name : Text) : Except ScenarioFailure ScenarioConfig :=
  match files (scenarioPath rootpath name) with
  | .osError error => .error (scenarioMessage rootpath "Cannot read scenario '" name "' from '" error)
  | .yamlError error => .error (scenarioMessage rootpath "Invalid YAML in scenario '" name "' at '" error)
  | .valueError error => .error (scenarioMessage rootpath "Invalid scenario '" name "' at '" error)
  | .raised exception => .error (.raised exception)
  | .document doc => checkScenario schema rootpath name doc

/-- `load_scenario`. -/
def loadScenario (name : Str) : Except ScenarioFailure ScenarioConfig :=
  match (characters name).filter scenarioNameMatches with
  | none => .error (.scenarioError (codes "Invalid scenario name '" ++ name
      ++ codes "': use only letters, numbers, underscores, and hyphens"))
  | some name => readScenario schema files rootpath name

end Load

/-! ## The decision of the plugin -/

/-- What the plugin raises: a `pytest.UsageError`, or an exception that is passed on. -/
inductive ConfigureError
  | usageError (message : Str)
  | raised (exception : Str)
  deriving DecidableEq

/-- `except ScenarioError`. -/
def asUsageError : ScenarioFailure → ConfigureError
  | .scenarioError message => .usageError message
  | .raised exception => .raised exception

/-- An option that is supplied and not empty. -/
def truthy : Option Str → Option Str
  | none => none
  | some [] => none
  | some (c :: value) => some (c :: value)

section Decide

variable (schema : ScenarioSchema) (files : PurePath → ScenarioSource) (rootpath : PurePath)

/-- `_get_marker_sequence`. -/
def getMarkerSequence (markerSequence scenarioName : Option Str) : Except ConfigureError (List Text) :=
  match truthy markerSequence, truthy scenarioName with
  | some _, some _ => .error (.usageError (codes "--marker-sequence and --scenario cannot be used together"))
  | some value, none => (parseMarkerSequence schema value).mapError asUsageError
  | none, some name => ((loadScenario schema files rootpath name).map (·.markers.names)).mapError asUsageError
  | none, none => .ok []

/-- `_validate_registered_markers`: `registered` are the names that the configuration declares. -/
def validateRegisteredMarkers (registered : List Text) (markerSequence : List Text) :
    Except ConfigureError Unit :=
  match markerSequence.find? fun marker => decide (marker ∉ registered) with
  | none => .ok ()
  | some marker => .error (.usageError (codes "Marker '" ++ toStr marker ++ codes "' is not registered. "
      ++ codes "Register it in [tool.pytest.ini_options].markers."))

/-- The start of `pytest_configure`: the sequence that is stored, with which the run stops at the first
failure; without one the whole suite runs. -/
def configureSelection (registered : List Text) (markerSequence scenarioName : Option Str) :
    Except ConfigureError (Option (List Text)) := do
  let markers ← getMarkerSequence schema files rootpath markerSequence scenarioName
  if markers = [] then return none
  else
    validateRegisteredMarkers registered markers
    return some markers

end Decide

/-! ## What the two ways give -/

/-- The parts of a value between its commas name markers. -/
def SequenceNames (value : Str) : Prop :=
  ∃ values, (value.splitOn 44).mapM characters = some values ∧ NamesMarkers values

theorem commaMarkers_ok_iff {value : Str} :
    (∃ markers, commaMarkers value = .ok markers) ↔ SequenceNames value := by
  rw [commaMarkers]
  cases hvalues : (value.splitOn 44).mapM characters with
  | none =>
    constructor
    · rintro ⟨markers, hok⟩
      cases hok
    · rintro ⟨values, hsome, -⟩
      rw [hvalues] at hsome
      cases hsome
  | some values =>
    constructor
    · exact fun hok => ⟨values, hvalues, validateMarkers_ok_iff.mp hok⟩
    · rintro ⟨values', hsome, hnames⟩
      rw [hvalues] at hsome
      obtain rfl := Option.some.inj hsome
      exact validateMarkers_ok_iff.mpr hnames

/-- What is done with the markers: they are returned, or their error is reported. -/
theorem parseMarkerSequence_eq (schema : ScenarioSchema) (value : Str) :
    (∀ markers, commaMarkers value = .ok markers → parseMarkerSequence schema value = .ok markers.names) ∧
    ∀ error, commaMarkers value = .error error →
      ∃ message, parseMarkerSequence schema value = .error (.scenarioError message) := by
  have hname : validateName "command-line".toList = .ok ⟨"command-line".toList, by decide⟩ := by
    rw [validateName, dif_pos (by decide)]
  rw [parseMarkerSequence, hname]
  constructor
  · intro markers hmarkers
    rw [hmarkers]
    rfl
  · intro error herror
    rw [herror]
    exact ⟨_, rfl⟩

/-- A value is refused, or its markers are returned. -/
theorem parseMarkerSequence_cases (schema : ScenarioSchema) (value : Str) :
    (¬SequenceNames value ∧ ∃ message, parseMarkerSequence schema value = .error (.scenarioError message)) ∨
    (SequenceNames value ∧ ∃ markers : Markers, parseMarkerSequence schema value = .ok markers.names) := by
  obtain ⟨hok, herror⟩ := parseMarkerSequence_eq schema value
  rw [← commaMarkers_ok_iff]
  cases hmarkers : commaMarkers value with
  | error error => exact .inl ⟨by simp, herror error hmarkers⟩
  | ok markers => exact .inr ⟨⟨markers, rfl⟩, markers, hok markers hmarkers⟩

section Cases

variable (schema : ScenarioSchema) (files : PurePath → ScenarioSource) (rootpath : PurePath)

/-- The document is a scenario of this name. -/
def IsScenario (name : Text) (doc : Yaml) : Prop :=
  ∃ scenario, ScenarioConfig.validate schema doc.construct = .ok scenario ∧ scenario.name = name

/-- The file of the name holds a scenario of this name. -/
def FileHolds (name : Str) : Prop :=
  ∃ name' ∈ (characters name).filter scenarioNameMatches, ∃ doc,
    files (scenarioPath rootpath name') = .document doc ∧ IsScenario schema name' doc

/-- Reading the file of the name raises an exception that the loader does not catch. -/
def FileRaises (name : Str) : Prop :=
  ∃ name' ∈ (characters name).filter scenarioNameMatches, ∃ exception,
    files (scenarioPath rootpath name') = .raised exception

theorem checkScenario_cases (name : Text) (doc : Yaml) :
    (IsScenario schema name doc ∧ ∃ scenario, checkScenario schema rootpath name doc = .ok scenario) ∨
    (¬IsScenario schema name doc ∧
      ∃ message, checkScenario schema rootpath name doc = .error (.scenarioError message)) := by
  rw [checkScenario, IsScenario]
  cases ScenarioConfig.validate schema doc.construct with
  | error errors => exact .inr ⟨by simp, _, rfl⟩
  | ok scenario =>
    by_cases hsame : scenario.name = name
    · exact .inl ⟨⟨scenario, rfl, hsame⟩, scenario, if_neg (not_not.mpr hsame)⟩
    · exact .inr ⟨by simpa using hsame, _, if_pos hsame⟩

/-- The loader returns what the file holds, and refuses everything that raises what it catches. -/
theorem readScenario_cases (name : Text) :
    (∃ doc, files (scenarioPath rootpath name) = .document doc ∧ IsScenario schema name doc ∧
      ∃ scenario, readScenario schema files rootpath name = .ok scenario) ∨
    (∃ exception, files (scenarioPath rootpath name) = .raised exception ∧
      readScenario schema files rootpath name = .error (.raised exception)) ∨
    ((∀ doc, files (scenarioPath rootpath name) = .document doc → ¬IsScenario schema name doc) ∧
      (∀ exception, files (scenarioPath rootpath name) ≠ .raised exception) ∧
      ∃ message, readScenario schema files rootpath name = .error (.scenarioError message)) := by
  rw [readScenario]
  cases files (scenarioPath rootpath name) with
  | osError error => exact .inr (.inr ⟨nofun, nofun, _, rfl⟩)
  | yamlError error => exact .inr (.inr ⟨nofun, nofun, _, rfl⟩)
  | valueError error => exact .inr (.inr ⟨nofun, nofun, _, rfl⟩)
  | raised exception => exact .inr (.inl ⟨exception, rfl, rfl⟩)
  | document doc =>
    rcases checkScenario_cases schema rootpath name doc with ⟨his, scenario, hok⟩ | ⟨hno, message, herror⟩
    · exact .inl ⟨doc, rfl, his, scenario, hok⟩
    · refine .inr (.inr ⟨?_, nofun, message, herror⟩)
      intro doc' hdoc
      rwa [← ScenarioSource.document.inj hdoc]

/-- A name is refused, its file raises, or its scenario is returned. -/
theorem loadScenario_cases (name : Str) :
    (FileHolds schema files rootpath name ∧ ¬FileRaises files rootpath name ∧
      ∃ scenario, loadScenario schema files rootpath name = .ok scenario) ∨
    (FileRaises files rootpath name ∧
      ∃ exception, loadScenario schema files rootpath name = .error (.raised exception)) ∨
    (¬FileHolds schema files rootpath name ∧ ¬FileRaises files rootpath name ∧
      ∃ message, loadScenario schema files rootpath name = .error (.scenarioError message)) := by
  rw [loadScenario, FileHolds, FileRaises]
  cases (characters name).filter scenarioNameMatches with
  | none => exact .inr (.inr ⟨by simp, by simp, _, rfl⟩)
  | some name' =>
    simp only [Option.mem_def, Option.some.injEq, exists_eq_left']
    rcases readScenario_cases schema files rootpath name' with
      ⟨doc, hdoc, hscenario, scenario, hok⟩ | ⟨exception, hraised, herror⟩ | ⟨hno, hcaught, message, herror⟩
    · refine .inl ⟨⟨doc, hdoc, hscenario⟩, ?_, scenario, hok⟩
      rintro ⟨exception, hraised⟩
      rw [hdoc] at hraised
      cases hraised
    · exact .inr (.inl ⟨⟨exception, hraised⟩, exception, herror⟩)
    · refine .inr (.inr ⟨?_, ?_, message, herror⟩)
      · rintro ⟨doc, hdoc, hscenario⟩
        exact hno doc hdoc hscenario
      · rintro ⟨exception, hraised⟩
        exact hcaught exception hraised

/-! ## Selections that are not ignored -/

/-- What is promised for the options that were supplied: a usage error, always when both were; or a
sequence of markers; and the empty sequence only when neither was. -/
def NotIgnored (markerSequence scenarioName : Option Str) (result : Except ConfigureError (List Text)) : Prop :=
  (∃ message, result = .error (.usageError message)) ∨
  ((∃ markers : Markers, result = .ok markers.names) ∧ (markerSequence = none ∨ scenarioName = none)) ∨
  (result = .ok [] ∧ markerSequence = none ∧ scenarioName = none)

/-- **When the promise is kept**: an empty string is supplied only together with a value of the other option
that is refused, and the scenario file that is read raises nothing but what the loader catches. -/
def Heeded (markerSequence scenarioName : Option Str) : Prop :=
  match markerSequence, scenarioName with
  | none, none => True
  | some value, none => value ≠ []
  | none, some name => name ≠ [] ∧ ¬FileRaises files rootpath name
  | some value, some name =>
    (value ≠ [] ∧ name ≠ []) ∨ (value ≠ [] ∧ name = [] ∧ ¬SequenceNames value) ∨
      (value = [] ∧ name ≠ [] ∧ ¬FileHolds schema files rootpath name ∧ ¬FileRaises files rootpath name)

theorem truthy_of_ne_nil {value : Str} (h : value ≠ []) : truthy (some value) = some value := by
  cases value with
  | nil => exact absurd rfl h
  | cons c value => rfl

/-- The empty sequence is promised for no options only. -/
theorem notIgnored_nil_iff {markerSequence scenarioName : Option Str} :
    NotIgnored markerSequence scenarioName (.ok []) ↔ markerSequence = none ∧ scenarioName = none := by
  constructor
  · rintro (⟨message, h⟩ | ⟨⟨markers, h⟩, -⟩ | ⟨-, h⟩)
    · cases h
    · exact absurd (Except.ok.inj h).symm markers.nonempty
    · exact h
  · exact fun h => .inr (.inr ⟨rfl, h⟩)

theorem notIgnored_markers_iff {markerSequence scenarioName : Option Str} (markers : Markers) :
    NotIgnored markerSequence scenarioName (.ok markers.names) ↔
      markerSequence = none ∨ scenarioName = none := by
  constructor
  · rintro (⟨message, h⟩ | ⟨-, h⟩ | ⟨-, h, -⟩)
    · cases h
    · exact h
    · exact .inl h
  · exact fun h => .inr (.inl ⟨⟨markers, rfl⟩, h⟩)

theorem notIgnored_usageError (markerSequence scenarioName : Option Str) (message : Str) :
    NotIgnored markerSequence scenarioName (.error (.usageError message)) := .inl ⟨message, rfl⟩

theorem not_notIgnored_raised (markerSequence scenarioName : Option Str) (exception : Str) :
    ¬NotIgnored markerSequence scenarioName (.error (.raised exception)) := by
  rintro (⟨message, h⟩ | ⟨⟨markers, h⟩, -⟩ | ⟨h, -⟩) <;> cases h

/-- A value of `--marker-sequence` alone counts. -/
theorem notIgnored_sequence_iff {value : Str} (hvalue : value ≠ []) {scenarioName : Option Str}
    (hname : truthy scenarioName = none) :
    NotIgnored (some value) scenarioName (getMarkerSequence schema files rootpath (some value) scenarioName) ↔
      scenarioName = none ∨ ¬SequenceNames value := by
  rw [getMarkerSequence, truthy_of_ne_nil hvalue, hname]
  rcases parseMarkerSequence_cases schema value with ⟨hno, message, herror⟩ | ⟨hnames, markers, hok⟩
  · show NotIgnored _ _ ((parseMarkerSequence schema value).mapError asUsageError) ↔ _
    rw [herror]
    exact iff_of_true (notIgnored_usageError _ _ message) (.inr hno)
  · show NotIgnored _ _ ((parseMarkerSequence schema value).mapError asUsageError) ↔ _
    rw [hok]
    show NotIgnored _ _ (.ok markers.names) ↔ _
    rw [notIgnored_markers_iff]
    simp [hnames]

/-- A value of `--scenario` alone counts. -/
theorem notIgnored_scenario_iff {name : Str} (hname : name ≠ []) {markerSequence : Option Str}
    (hvalue : truthy markerSequence = none) :
    NotIgnored markerSequence (some name) (getMarkerSequence schema files rootpath markerSequence (some name)) ↔
      ¬FileRaises files rootpath name ∧
        (markerSequence = none ∨ ¬FileHolds schema files rootpath name) := by
  rw [getMarkerSequence, truthy_of_ne_nil hname, hvalue]
  rcases loadScenario_cases schema files rootpath name with
    ⟨hholds, hraises, scenario, hok⟩ | ⟨hraises, exception, herror⟩ | ⟨hno, hraises, message, herror⟩
  · show NotIgnored _ _ (((loadScenario schema files rootpath name).map _).mapError asUsageError) ↔ _
    rw [hok]
    show NotIgnored _ _ (.ok scenario.markers.names) ↔ _
    rw [notIgnored_markers_iff]
    simp [hholds, hraises]
  · show NotIgnored _ _ (((loadScenario schema files rootpath name).map _).mapError asUsageError) ↔ _
    rw [herror]
    exact iff_of_false (not_notIgnored_raised _ _ exception) fun h => h.1 hraises
  · show NotIgnored _ _ (((loadScenario schema files rootpath name).map _).mapError asUsageError) ↔ _
    rw [herror]
    exact iff_of_true (notIgnored_usageError _ _ message) ⟨hraises, .inr hno⟩

/-- **A marker selection that was supplied is not ignored** if and only if no empty string was supplied next
to nothing or to a value that is accepted, and no foreign exception comes out of the scenario file. -/
theorem marker_selection_iff (markerSequence scenarioName : Option Str) :
    NotIgnored markerSequence scenarioName
        (getMarkerSequence schema files rootpath markerSequence scenarioName) ↔
      Heeded schema files rootpath markerSequence scenarioName := by
  cases markerSequence with
  | none =>
    cases scenarioName with
    | none => exact iff_of_true (notIgnored_nil_iff.mpr ⟨rfl, rfl⟩) trivial
    | some name =>
      show _ ↔ name ≠ [] ∧ ¬FileRaises files rootpath name
      by_cases hname : name = []
      · subst hname
        show NotIgnored none (some []) (.ok []) ↔ _
        simp [notIgnored_nil_iff]
      · rw [notIgnored_scenario_iff schema files rootpath hname rfl]
        simp [hname]
  | some value =>
    cases scenarioName with
    | none =>
      show _ ↔ value ≠ []
      by_cases hvalue : value = []
      · subst hvalue
        show NotIgnored (some []) none (.ok []) ↔ _
        simp [notIgnored_nil_iff]
      · rw [notIgnored_sequence_iff schema files rootpath hvalue rfl]
        simp [hvalue]
    | some name =>
      show _ ↔ (value ≠ [] ∧ name ≠ []) ∨ (value ≠ [] ∧ name = [] ∧ ¬SequenceNames value) ∨
        (value = [] ∧ name ≠ [] ∧ ¬FileHolds schema files rootpath name ∧ ¬FileRaises files rootpath name)
      by_cases hvalue : value = [] <;> by_cases hname : name = []
      · subst hvalue hname
        show NotIgnored (some []) (some []) (.ok []) ↔ _
        simp [notIgnored_nil_iff]
      · subst hvalue
        rw [notIgnored_scenario_iff schema files rootpath hname rfl]
        simp [hname, and_comm]
      · subst hname
        rw [notIgnored_sequence_iff schema files rootpath hvalue rfl]
        simp [hvalue]
      · rw [getMarkerSequence, truthy_of_ne_nil hvalue, truthy_of_ne_nil hname]
        simp [hvalue, hname, notIgnored_usageError]

/-- The whole suite is configured to run exactly when the sequence is empty. -/
theorem configureSelection_none_iff (registered : List Text) (markerSequence scenarioName : Option Str) :
    configureSelection schema files rootpath registered markerSequence scenarioName = .ok none ↔
      getMarkerSequence schema files rootpath markerSequence scenarioName = .ok [] := by
  rw [configureSelection]
  cases getMarkerSequence schema files rootpath markerSequence scenarioName with
  | error e =>
    constructor <;>
    · intro h
      cases h
  | ok markers =>
    show (if markers = [] then Except.ok none else _) = _ ↔ _
    by_cases hnil : markers = []
    · rw [if_pos hnil, hnil]
      exact iff_of_true rfl rfl
    · rw [if_neg hnil]
      constructor
      · intro h
        cases hvalid : validateRegisteredMarkers registered markers with
        | error e =>
          rw [hvalid] at h
          cases h
        | ok _ =>
          rw [hvalid] at h
          cases h
      · exact fun h => absurd (Except.ok.inj h) hnil

end Cases

/-- Strings are accepted as they are. -/
def plainSchema : ScenarioSchema where
  string := stringField
  strings := listField
  report _ := codes "1 validation error for ScenarioConfig"

/-- **An empty sequence runs everything**: with `--marker-sequence ""` the plugin raises no usage error and
stores no sequence. -/
theorem empty_sequence_runs_everything :
    getMarkerSequence plainSchema (fun _ => .osError (codes "No such file")) ⟨true, ["project"]⟩ (some []) none
        = .ok [] ∧
      configureSelection plainSchema (fun _ => .osError (codes "No such file")) ⟨true, ["project"]⟩
        ["smoke"] (some []) none = .ok none ∧
      ¬NotIgnored (some []) none (getMarkerSequence plainSchema (fun _ => .osError (codes "No such file"))
        ⟨true, ["project"]⟩ (some []) none) := by
  refine ⟨rfl, rfl, fun h => ?_⟩
  cases (notIgnored_nil_iff.mp h).1

end HardwareTest.Plugin
