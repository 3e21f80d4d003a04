import HardwareTest.Lib.Template
import HardwareTest.Runner.DockerCommands

/-!
# Requests in the Docker commands

What a client sends to pull an image and to run tests, as the request models accept it, and where it
ends up in the argument vectors of Docker.  A vector is written here as a list of words with fields, one
field for each value that may differ between two runs of one service.

* `RunTestsRequest`, `PullImageRequest` — the accepted requests;
* `dockerWords`, `pytestWords` — the vector of `run_tests` before and after the image;
* `runTests_eq` — the command builder fills in these words;
* `requests_keep_options` — two requests get the same options.
-/

namespace HardwareTest.Runner

open HardwareTest.Lib HardwareTest.Lib.Template HardwareTest.Python

/-! ## Request models -/

/-- `[A-Za-z0-9]`. -/
def isAlphanumeric (c : Char) : Bool :=
  let n := c.toNat
  decide ((0x30 ≤ n ∧ n ≤ 0x39) ∨ (0x41 ≤ n ∧ n ≤ 0x5A) ∨ (0x61 ≤ n ∧ n ≤ 0x7A))

/-- `^[A-Za-z0-9][A-Za-z0-9…]*$` with the characters that may follow the first.  The dollar of the
validator's regular expressions matches at the very end only. -/
def matchesName (more : List Char) (value : Text) : Bool :=
  match value with
  | [] => false
  | c :: rest => isAlphanumeric c && rest.all fun d => isAlphanumeric d || more.contains d

/-- `NAME_PATTERN`. -/
def namePattern (value : Text) : Bool := matchesName "_.-".toList value

/-- `SCENARIO_PATTERN`. -/
def scenarioPattern (value : Text) : Bool := matchesName "_-".toList value

structure PullImageRequest where
  reference : Text
  reference_length : 1 ≤ reference.length ∧ reference.length ≤ 512

structure RunTestsRequest where
  image : Text
  stand : Text
  scenario : Text
  image_length : 1 ≤ image.length ∧ image.length ≤ 512
  stand_length : stand.length ≤ 128
  stand_pattern : namePattern stand = true
  scenario_length : scenario.length ≤ 128
  scenario_pattern : scenarioPattern scenario = true

/-- What the validation of a request reports: the field, and the kind of the error. -/
structure FieldError where
  field : String
  kind : String
  deriving DecidableEq

/-- `Field(min_length=..., max_length=...)`. -/
def checkLength (field : String) (least most : ℕ) (value : Text) : List FieldError :=
  if value.length < least then [⟨field, "string_too_short"⟩]
  else if most < value.length then [⟨field, "string_too_long"⟩]
  else []

/-- `Field(pattern=..., max_length=...)`: the length is checked first. -/
def checkPattern (field : String) (pattern : Text → Bool) (most : ℕ) (value : Text) : List FieldError :=
  if most < value.length then [⟨field, "string_too_long"⟩]
  else if pattern value then []
  else [⟨field, "string_pattern_mismatch"⟩]

theorem checkLength_eq_nil {field : String} {least most : ℕ} {value : Text} :
    checkLength field least most value = [] ↔ least ≤ value.length ∧ value.length ≤ most := by
  unfold checkLength
  split_ifs <;> simp <;> omega

theorem checkPattern_eq_nil {field : String} {pattern : Text → Bool} {most : ℕ} {value : Text} :
    checkPattern field pattern most value = [] ↔ value.length ≤ most ∧ pattern value = true := by
  unfold checkPattern
  split_ifs with hlong hmatch
  · simp
    omega
  · simp [hmatch]
    omega
  · simp [hmatch]

/-- The validation of the body of `/v1/images/pull`. -/
def PullImageRequest.validate (reference : Text) : Except (List FieldError) PullImageRequest :=
  if h : checkLength "reference" 1 512 reference = [] then .ok ⟨reference, checkLength_eq_nil.mp h⟩
  else .error (checkLength "reference" 1 512 reference)

/-- The validation of the body of `/v1/runs`: the errors of all fields are reported. -/
def RunTestsRequest.validate (image stand scenario : Text) : Except (List FieldError) RunTestsRequest :=
  if h : checkLength "image" 1 512 image = [] ∧ checkPattern "stand" namePattern 128 stand = [] ∧
      checkPattern "scenario" scenarioPattern 128 scenario = [] then
    .ok
      { image := image
        stand := stand
        scenario := scenario
        image_length := checkLength_eq_nil.mp h.1
        stand_length := (checkPattern_eq_nil.mp h.2.1).1
        stand_pattern := (checkPattern_eq_nil.mp h.2.1).2
        scenario_length := (checkPattern_eq_nil.mp h.2.2).1
        scenario_pattern := (checkPattern_eq_nil.mp h.2.2).2 }
  else
    .error (checkLength "image" 1 512 image ++ checkPattern "stand" namePattern 128 stand
      ++ checkPattern "scenario" scenarioPattern 128 scenario)

/-- The accepted requests are those that validation returns. -/
theorem PullImageRequest.validate_reference (request : PullImageRequest) :
    PullImageRequest.validate request.reference = .ok request :=
  dif_pos (checkLength_eq_nil.mpr request.reference_length)

theorem RunTestsRequest.validate_fields (request : RunTestsRequest) :
    RunTestsRequest.validate request.image request.stand request.scenario = .ok request :=
  dif_pos ⟨checkLength_eq_nil.mpr request.image_length,
    checkPattern_eq_nil.mpr ⟨request.stand_length, request.stand_pattern⟩,
    checkPattern_eq_nil.mpr ⟨request.scenario_length, request.scenario_pattern⟩⟩

/-! ## What the patterns exclude -/

/-- A value that is one word for the shell of every program, and no option: it has no white space and
does not begin with a hyphen. -/
structure Plain (value : Text) : Prop where
  nonempty : value ≠ []
  unspaced : ∀ c ∈ value, isSpace c = false
  no_hyphen : value.head? ≠ some '-'

theorem not_isSpace_of_isAlphanumeric {c : Char} (h : isAlphanumeric c = true) : isSpace c = false := by
  simp only [isAlphanumeric, decide_eq_true_eq] at h
  simp only [isSpace, decide_eq_false_iff_not]
  omega

/-- A name is plain when no white space may follow its first character. -/
theorem plain_of_matchesName {more : List Char} (hmore : more.any isSpace = false) {value : Text}
    (h : matchesName more value = true) : Plain value := by
  cases value with
  | nil => cases h
  | cons c rest =>
    rw [matchesName, Bool.and_eq_true, List.all_eq_true] at h
    obtain ⟨hfirst, hrest⟩ := h
    refine ⟨List.cons_ne_nil c rest, ?_, ?_⟩
    · intro d hd
      rcases List.mem_cons.mp hd with rfl | hd
      · exact not_isSpace_of_isAlphanumeric hfirst
      · have hboth := hrest d hd
        rw [Bool.or_eq_true] at hboth
        rcases hboth with halnum | hcontains
        · exact not_isSpace_of_isAlphanumeric halnum
        · exact Bool.eq_false_of_not_eq_true (List.any_eq_false.mp hmore d (List.contains_iff_mem.mp hcontains))
    · show some c ≠ some '-'
      intro heq
      rw [Option.some.inj heq] at hfirst
      exact absurd hfirst (by decide)

theorem imageReferenceMatches_eq (reference : Text) :
    imageReferenceMatches reference = matchesName "._/:@+-".toList reference := rfl

theorem RunTestsRequest.plain_stand (request : RunTestsRequest) : Plain request.stand :=
  plain_of_matchesName (by decide) request.stand_pattern

theorem RunTestsRequest.plain_scenario (request : RunTestsRequest) : Plain request.scenario :=
  plain_of_matchesName (by decide) request.scenario_pattern

/-- An image that passes the policy of the server matches the pattern of references. -/
theorem plain_of_validateRemoteImage {settings : Settings} {reference : Text}
    (h : settings.validateRemoteImage reference = .ok ()) : Plain reference := by
  rw [Settings.validateRemoteImage] at h
  split_ifs at h with hmatch
  rw [Bool.not_eq_true', Bool.not_eq_false, imageReferenceMatches_eq] at hmatch
  exact plain_of_matchesName (by decide) hmatch

/-! ## The words of the vector -/

/-- What differs between the vectors of two runs. -/
inductive Field
  | operationId
  | runId
  | image
  | stand
  | scenario
  deriving DecidableEq

/-- A field that the request chooses. -/
def Field.requested : Field → Bool
  | .image | .stand | .scenario => true
  | .operationId | .runId => false

abbrev Words := List (Word Field Char)

/-- A word that is the same in every vector. -/
def literal (argument : String) : Word Field Char := .const argument.toList

/-- Words that are the same in every vector. -/
def constants (arguments : Command) : Words := arguments.map Word.const

/-- The values of the fields for one request. -/
def RunTestsRequest.value (request : RunTestsRequest) (operationId runId : Text) : Field → Text
  | .operationId => operationId
  | .runId => runId
  | .image => request.image
  | .stand => request.stand
  | .scenario => request.scenario

def PullImageRequest.value (request : PullImageRequest) : Field → Text
  | .image => request.reference
  | .operationId | .runId | .stand | .scenario => []

section Templates

variable (settings : Settings)

/-- The options of `docker run` that only the settings decide. -/
def dockerOptions : Command :=
  let envFile : Command := match settings.envFile with
    | some path => ["--env-file", path.toText]
    | none => []
  let knownHosts : Command := match settings.knownHostsFile with
    | some path => ["--volume", path.toText ++ ":/root/.ssh/known_hosts:ro".toList]
    | none => []
  let network : Command := match settings.dockerNetwork with
    | some network => ["--network", network]
    | none => []
  let devices : Command := settings.dockerDevices.flatMap fun device => ["--device".toList, device]
  let apiKey : Command := if settings.reportportalEnabled then ["--env", "RP_API_KEY"] else []
  envFile ++ knownHosts ++ network ++ devices ++ apiKey

/-- The vector before the image. -/
def dockerWords : Words :=
  let head : Words :=
    [literal "docker", literal "run", literal "--rm", literal "--name",
      [.fixed "hardware-test-run-".toList, .field .operationId], literal "--label",
      [.fixed "test-runner.operation-id=".toList, .field .operationId], literal "--pull", literal "never",
      literal "--env", literal "AGENT_NO_ANALYTICS=1", literal "--volume",
      .const (settings.inventoryFile.parent.toText ++ ":/runtime/inventory:ro".toList), literal "--volume",
      .const (settings.artifactsDirectory.toText ++ ":/app/artifacts".toList)]
  head ++ constants (dockerOptions settings)

/-- The option of `pytest` for Allure. -/
def allureWords : Words :=
  match settings.allureEnabled, settings.allureResultsPath with
  | true, some results =>
    [literal "--alluredir",
      [.fixed "/app/artifacts/".toList, .field .runId,
        .fixed ('/' :: List.intercalate ['/'] results.path.parts)]]
  | _, _ => []

/-- The options of `pytest` for ReportPortal. -/
def reportportalWords : Words :=
  if settings.reportportalEnabled then
    [literal "--reportportal", literal "--rp-endpoint", .const (settings.reportportalEndpoint.getD "None"),
      literal "--rp-project", .const settings.reportportalProject, literal "--rp-launch", .var .operationId,
      literal "--rp-launch-description",
      [.fixed "stand=".toList, .field .stand, .fixed "; scenario=".toList, .field .scenario,
        .fixed "; image=".toList, .field .image],
      literal "--mute-logger", literal "pytest_reportportal.service", literal "-o",
      literal "rp_log_level=INFO", literal "-o", literal "rp_client_type=SYNC", literal "-o",
      literal "rp_connect_timeout=5", literal "-o", literal "rp_read_timeout=10", literal "-o",
      literal "rp_api_retries=0", literal "-o",
      [.fixed "rp_launch_attributes=stand:".toList, .field .stand, .fixed " scenario:".toList,
        .field .scenario, .fixed " operation:".toList, .field .operationId]]
  else []

/-- The command in the container, after the image. -/
def pytestWords : Words :=
  [literal "uv", literal "run", literal "pytest", literal "tests/hardware", literal "--run-id", .var .runId,
    literal "--artifacts-root", literal "/app/artifacts", literal "--scenario", .var .scenario,
    literal "--inventory", .const ("/runtime/inventory/".toList ++ settings.inventoryFile.name),
    literal "--stand", .var .stand]
    ++ allureWords settings ++ reportportalWords settings

/-- The whole vector of `run_tests`. -/
def runWords : Words := dockerWords settings ++ .var .image :: pytestWords settings

end Templates

/-- The vector of `pull_image` before the image, after which nothing comes. -/
def pullWords : Words := [literal "docker", literal "pull"]

/-- The fields that the word at a position carries. -/
def carried (words : Words) (i : ℕ) : List Field := ((words[i]?).map Word.fields).getD []

@[simp] theorem fill_literal (value : Field → Text) (argument : String) :
    (literal argument).fill value = argument.toList := Word.fill_const value argument.toList

theorem fill_constants (value : Field → Text) (arguments : Command) :
    fill value (constants arguments) = arguments := fill_const value arguments

theorem fill_fixed_field (value : Field → Text) (s : List Char) (f : Field) :
    Word.fill value [.fixed s, .field f] = s ++ value f := by
  show s ++ (value f ++ []) = s ++ value f
  rw [List.append_nil]

/-- The path of the Allure results, written out. -/
theorem toText_allurePath (runId : Text) (results : ReportPath) :
    (((PurePath.mk true ["app", "artifacts"]).child runId).join results.path).toText
      = "/app/artifacts/".toList ++ runId ++ '/' :: List.intercalate ['/'] results.path.parts := by
  obtain ⟨part, parts, hparts⟩ := List.exists_cons_of_ne_nil results.nonempty
  rw [PurePath.join, results.relative, hparts]
  simp [PurePath.child, PurePath.toText, List.intercalate, List.intersperse]

theorem allureArguments_eq {settings : Settings} (value : Field → Text) :
    settings.allureArguments (value .runId) = .ok (fill value (allureWords settings)) := by
  rw [Settings.allureArguments, allureWords]
  rcases henabled : settings.allureEnabled with _ | _
  · rfl
  · obtain ⟨results, hresults⟩ := Option.isSome_iff_exists.mp (settings.allure_complete henabled).2
    rw [hresults]
    show Except.ok ["--alluredir".toList, _] = Except.ok ["--alluredir".toList, _]
    rw [toText_allurePath]
    simp only [Word.fill_cons, Word.fill_nil, Part.fill_fixed, Part.fill_field, List.append_assoc,
      List.append_nil]

theorem reportportalArguments_eq {settings : Settings} (value : Field → Text) :
    settings.reportportalArguments (value .operationId) (value .image) (value .stand) (value .scenario)
      = fill value (reportportalWords settings) := by
  rw [Settings.reportportalArguments, reportportalWords]
  split
  · simp only [fill_cons, fill_nil, fill_literal, Word.fill_const, Word.fill_var, Word.fill_cons,
      Word.fill_nil, Part.fill_fixed, Part.fill_field, List.append_assoc, List.append_nil]
  · rfl

theorem fill_dockerWords {settings : Settings} (value : Field → Text) :
    fill value (dockerWords settings)
      = ["docker".toList, "run".toList, "--rm".toList, "--name".toList,
          Settings.runContainer (value .operationId), "--label".toList,
          "test-runner.operation-id=".toList ++ value .operationId, "--pull".toList, "never".toList,
          "--env".toList, "AGENT_NO_ANALYTICS=1".toList, "--volume".toList,
          settings.inventoryFile.parent.toText ++ ":/runtime/inventory:ro".toList, "--volume".toList,
          settings.artifactsDirectory.toText ++ ":/app/artifacts".toList] ++ dockerOptions settings := by
  show fill value (_ ++ constants (dockerOptions settings)) = _
  rw [fill_append, fill_constants]
  simp only [fill_cons, fill_nil, fill_literal, Word.fill_const, fill_fixed_field]
  rfl

theorem fill_pytestWords {settings : Settings} (value : Field → Text) :
    fill value (pytestWords settings)
      = ["uv".toList, "run".toList, "pytest".toList, "tests/hardware".toList, "--run-id".toList,
          value .runId, "--artifacts-root".toList, "/app/artifacts".toList, "--scenario".toList,
          value .scenario, "--inventory".toList, "/runtime/inventory/".toList ++ settings.inventoryFile.name,
          "--stand".toList, value .stand]
        ++ fill value (allureWords settings) ++ fill value (reportportalWords settings) := by
  rw [pytestWords, fill_append, fill_append]
  simp only [fill_cons, fill_nil, fill_literal, Word.fill_const, Word.fill_var]

/-- **The command builder fills in the words.** -/
theorem runTests_eq {settings : Settings} (value : Field → Text)
    (h : settings.validateRemoteImage (value .image) = .ok ()) :
    settings.runTests (value .operationId) (value .runId) (value .image) (value .stand) (value .scenario)
      = .ok (fill value (runWords settings)) := by
  rw [Settings.runTests, h]
  show (settings.allureArguments (value .runId)).bind _ = _
  rw [allureArguments_eq value, reportportalArguments_eq value]
  show Except.ok _ = Except.ok _
  rw [runWords, fill_append, fill_cons, fill_dockerWords, fill_pytestWords, dockerOptions]
  simp only [List.append_assoc, List.cons_append, List.nil_append, Word.fill_var]
  all_goals rfl

theorem pullImage_eq {settings : Settings} (value : Field → Text)
    (h : settings.validateRemoteImage (value .image) = .ok ()) :
    settings.pullImage (value .image) = .ok (fill value (pullWords ++ [.var .image])) := by
  rw [Settings.pullImage, h, pullWords, fill_append]
  show Except.ok _ = Except.ok _
  simp only [fill_cons, fill_nil, fill_literal, Word.fill_var]
  rfl

/-! ## Where the fields stand -/

theorem mem_carried {words : Words} {i : ℕ} {w : Word Field Char} {f : Field} (hw : words[i]? = some w) :
    f ∈ carried words i ↔ f ∈ w.fields := by
  rw [carried, hw]
  rfl

theorem exists_of_mem_carried {words : Words} {i : ℕ} {f : Field} (h : f ∈ carried words i) :
    ∃ w, words[i]? = some w ∧ f ∈ w.fields := by
  rcases hw : words[i]? with _ | w
  · rw [carried, hw] at h
    exact absurd h List.not_mem_nil
  · exact ⟨w, rfl, (mem_carried hw).mp h⟩

/-- Words before the image carry the identifier of the operation and nothing else. -/
theorem fields_dockerWords {settings : Settings} :
    ∀ w ∈ dockerWords settings, ∀ f ∈ w.fields, f = Field.operationId := by
  rw [dockerWords]
  refine List.forall_mem_append.mpr ⟨?_, ?_⟩
  · simp [literal]
  · intro w hw
    obtain ⟨s, -, rfl⟩ := List.mem_map.mp hw
    exact fun f hf => absurd hf List.not_mem_nil

/-- A word that carries a value of the request does not begin with a hyphen. -/
def NoOption (value : Field → Text) (w : Word Field Char) : Prop :=
  (∃ f ∈ w.fields, f.requested = true) → (w.fill value).head? ≠ some '-'

theorem NoOption.of_fields {value : Field → Text} {w : Word Field Char}
    (h : ∀ f ∈ w.fields, f.requested = false) : NoOption value w := by
  rintro ⟨f, hf, hrequested⟩
  rw [h f hf] at hrequested
  cases hrequested

theorem NoOption.of_head {value : Field → Text} {p : Part Field Char} {w : Word Field Char} {c : Char}
    (h : (p.fill value).head? = some c) (hc : c ≠ '-') : NoOption value (p :: w) := by
  intro _
  rw [Word.head_fill value w h]
  exact fun heq => hc (Option.some.inj heq)

theorem NoOption.var {value : Field → Text} {f : Field} (h : Plain (value f)) :
    NoOption value (.var f) := by
  intro _
  rw [Word.fill_var]
  exact h.no_hyphen

theorem noOption_const (value : Field → Text) (argument : Text) : NoOption value (.const argument) :=
  .of_fields (by simp)

theorem noOption_literal (value : Field → Text) (argument : String) : NoOption value (literal argument) :=
  noOption_const value argument.toList

theorem noOption_dockerWords {settings : Settings} (value : Field → Text) :
    ∀ w ∈ dockerWords settings, NoOption value w := by
  intro w hw
  refine .of_fields fun f hf => ?_
  rw [fields_dockerWords w hw f hf]
  rfl

theorem noOption_allureWords {settings : Settings} (value : Field → Text) :
    ∀ w ∈ allureWords settings, NoOption value w := by
  rw [allureWords]
  split
  · refine List.forall_mem_cons.mpr ⟨noOption_literal value _, List.forall_mem_singleton.mpr ?_⟩
    exact .of_fields (by simp [Field.requested])
  · exact fun w hw => absurd hw List.not_mem_nil

/-- The description and the attributes of a launch begin with their own text. -/
theorem noOption_reportportalWords {settings : Settings} (value : Field → Text) :
    ∀ w ∈ reportportalWords settings, NoOption value w := by
  rw [reportportalWords]
  split
  · have hdescription (w : Word Field Char) : NoOption value (.fixed "stand=".toList :: w) :=
      .of_head (c := 's') rfl (by decide)
    have hattributes (w : Word Field Char) :
        NoOption value (.fixed "rp_launch_attributes=stand:".toList :: w) :=
      .of_head (c := 'r') rfl (by decide)
    have hoperation : NoOption value (.var .operationId) := .of_fields (by simp [Field.requested])
    simp only [List.forall_mem_cons, noOption_literal, noOption_const, hoperation, hdescription,
      hattributes, List.not_mem_nil, false_imp_iff, implies_true, and_self]
  · exact fun w hw => absurd hw List.not_mem_nil

theorem noOption_pytestWords {settings : Settings} {value : Field → Text} (hstand : Plain (value .stand))
    (hscenario : Plain (value .scenario)) : ∀ w ∈ pytestWords settings, NoOption value w := by
  have hrun : NoOption value (.var .runId) := .of_fields (by simp [Field.requested])
  rw [pytestWords]
  refine List.forall_mem_append.mpr ⟨List.forall_mem_append.mpr ⟨?_, noOption_allureWords value⟩,
    noOption_reportportalWords value⟩
  simp only [List.forall_mem_cons, noOption_literal, noOption_const, hrun, NoOption.var hstand,
    NoOption.var hscenario, List.not_mem_nil, false_imp_iff, implies_true, and_self]

/-! ## Two requests -/

/-- Two vectors that have the same options: both fill in `front`, the image and `back`. -/
structure SameOptions (front back : Words) (value value' : Field → Text) (command command' : Command) :
    Prop where
  length_eq : command.length = command'.length
  /-- They differ only where a word carries a field that differs. -/
  same : ∀ i, (∀ f ∈ carried (front ++ .var .image :: back) i, value f = value' f) →
    command[i]? = command'[i]?
  /-- Before the image, no field but the identifier of the operation is carried. -/
  before : ∀ i < front.length, ∀ f ∈ carried (front ++ .var .image :: back) i, f = .operationId
  image : command[front.length]? = some (value .image) ∧ command'[front.length]? = some (value' .image)
  /-- An element that carries something of a request is no option. -/
  no_option : ∀ i element, (∃ f ∈ carried (front ++ .var .image :: back) i, f.requested = true) →
    command[i]? = some element ∨ command'[i]? = some element → element.head? ≠ some '-'

theorem getElem?_fill_image (front back : Words) (value : Field → Text) :
    (fill value (front ++ .var .image :: back))[front.length]? = some (value .image) := by
  rw [getElem?_fill, List.getElem?_append_right (Nat.le_refl _), Nat.sub_self, List.getElem?_cons_zero,
    Option.map_some, Word.fill_var]

theorem head_of_getElem?_fill {words : Words} {value : Field → Text} (h : ∀ w ∈ words, NoOption value w)
    {i : ℕ} {element : Text} (hcarried : ∃ f ∈ carried words i, f.requested = true)
    (helement : (fill value words)[i]? = some element) : element.head? ≠ some '-' := by
  obtain ⟨f, hf, hrequested⟩ := hcarried
  obtain ⟨w, hw, hfields⟩ := exists_of_mem_carried hf
  rw [getElem?_fill, hw] at helement
  rw [← Option.some.inj helement]
  exact h w (List.mem_of_getElem? hw) ⟨f, hfields, hrequested⟩

/-- **Words filled in twice have the same options.** -/
theorem sameOptions_fill {front back : Words} {value value' : Field → Text}
    (hfront : ∀ w ∈ front, ∀ f ∈ w.fields, f = Field.operationId)
    (h : ∀ w ∈ front ++ .var .image :: back, NoOption value w)
    (h' : ∀ w ∈ front ++ .var .image :: back, NoOption value' w) :
    SameOptions front back value value' (fill value (front ++ .var .image :: back))
      (fill value' (front ++ .var .image :: back)) := by
  obtain ⟨hlength, hagree⟩ := fill_agree value value' (front ++ .var .image :: back)
  refine ⟨hlength, ?_, ?_, ⟨getElem?_fill_image front back value, getElem?_fill_image front back value'⟩, ?_⟩
  · intro i hsame
    rcases hw : (front ++ .var .image :: back)[i]? with _ | w
    · rw [getElem?_fill, getElem?_fill, hw]
      rfl
    · exact hagree i w hw fun f hf => hsame f ((mem_carried hw).mpr hf)
  · intro i hi f hf
    obtain ⟨w, hw, hfields⟩ := exists_of_mem_carried hf
    rw [List.getElem?_append_left hi] at hw
    exact hfront w (List.mem_of_getElem? hw) f hfields
  · rintro i element hcarried (helement | helement)
    · exact head_of_getElem?_fill h hcarried helement
    · exact head_of_getElem?_fill h' hcarried helement

theorem noOption_runWords {settings : Settings} {value : Field → Text} (himage : Plain (value .image))
    (hstand : Plain (value .stand)) (hscenario : Plain (value .scenario)) :
    ∀ w ∈ runWords settings, NoOption value w :=
  List.forall_mem_append.mpr ⟨noOption_dockerWords value,
    List.forall_mem_cons.mpr ⟨.var himage, noOption_pytestWords hstand hscenario⟩⟩

theorem noOption_pullWords {value : Field → Text} (himage : Plain (value .image)) :
    ∀ w ∈ pullWords ++ [.var .image], NoOption value w := by
  simp only [pullWords, List.cons_append, List.nil_append, List.forall_mem_cons, noOption_literal,
    NoOption.var himage, List.not_mem_nil, false_imp_iff, implies_true, and_self]

/-- **Requests cannot influence the options of Docker.**  Two accepted requests to run tests are turned
into vectors with the same options, whatever the identifiers of the operations and of the runs, and so
are two accepted requests to pull an image.  What a request chooses is one word each, and no option. -/
theorem requests_keep_options (settings : Settings) :
    (∀ (request request' : RunTestsRequest) (operationId operationId' runId runId' : Text),
      settings.validateRemoteImage request.image = .ok () →
      settings.validateRemoteImage request'.image = .ok () →
      ∃ command command',
        settings.runTests operationId runId request.image request.stand request.scenario = .ok command ∧
        settings.runTests operationId' runId' request'.image request'.stand request'.scenario
          = .ok command' ∧
        SameOptions (dockerWords settings) (pytestWords settings) (request.value operationId runId)
          (request'.value operationId' runId') command command' ∧
        Plain request.image ∧ Plain request.stand ∧ Plain request.scenario) ∧
    ∀ request request' : PullImageRequest,
      settings.validateRemoteImage request.reference = .ok () →
      settings.validateRemoteImage request'.reference = .ok () →
      ∃ command command',
        settings.pullImage request.reference = .ok command ∧
        settings.pullImage request'.reference = .ok command' ∧
        SameOptions pullWords [] request.value request'.value command command' ∧
        Plain request.reference := by
  refine ⟨?_, ?_⟩
  · intro request request' operationId operationId' runId runId' himage himage'
    have hplain := plain_of_validateRemoteImage himage
    have hplain' := plain_of_validateRemoteImage himage'
    refine ⟨_, _, runTests_eq (request.value operationId runId) himage,
      runTests_eq (request'.value operationId' runId') himage', ?_, hplain, request.plain_stand,
      request.plain_scenario⟩
    exact sameOptions_fill fields_dockerWords
      (noOption_runWords hplain request.plain_stand request.plain_scenario)
      (noOption_runWords hplain' request'.plain_stand request'.plain_scenario)
  · intro request request' himage himage'
    have hplain := plain_of_validateRemoteImage himage
    refine ⟨_, _, pullImage_eq request.value himage, pullImage_eq request'.value himage', ?_, hplain⟩
    exact sameOptions_fill (by simp [pullWords, literal]) (noOption_pullWords hplain)
      (noOption_pullWords (plain_of_validateRemoteImage himage'))

/-- Settings that allow the images of one registry. -/
def registrySettings : Settings := { Settings.default with allowedImagePrefixes := ["registry/"] }

/-- A request for the scenario `smoke` on `lab`. -/
def smokeRequest : RunTestsRequest where
  image := "registry/tests:1"
  stand := "lab"
  scenario := "smoke"
  image_length := by decide
  stand_length := by decide
  stand_pattern := by decide
  scenario_length := by decide
  scenario_pattern := by decide

/-- Another image, stand and scenario. -/
def nightlyRequest : RunTestsRequest where
  image := "registry/tests@sha256:0"
  stand := "bench.2"
  scenario := "nightly-all"
  image_length := by decide
  stand_length := by decide
  stand_pattern := by decide
  scenario_length := by decide
  scenario_pattern := by decide

theorem requests_keep_options_sample :
    ∃ command command',
      registrySettings.runTests "1" "run-1" smokeRequest.image smokeRequest.stand smokeRequest.scenario
        = .ok command ∧
      registrySettings.runTests "2" "run-2" nightlyRequest.image nightlyRequest.stand
        nightlyRequest.scenario = .ok command' ∧
      command.length = command'.length ∧ command[15]? = some smokeRequest.image := by
  obtain ⟨command, command', hrun, hrun', hsame, -⟩ := (requests_keep_options registrySettings).1
    smokeRequest nightlyRequest "1" "2" "run-1" "run-2" (by decide) (by decide)
  exact ⟨command, command', hrun, hrun', hsame.length_eq, hsame.image.1⟩

end HardwareTest.Runner
