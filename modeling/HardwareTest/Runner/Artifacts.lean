import HardwareTest.Runner.Reporting

/-!
# Artifact downloads

The two routes that send a report file: below the directory of the current operation, and below a
directory that the request names.

* `resolveArtifact`, `resolveRunDirectory` — the lookup of a file and of a directory;
* `artifact`, `historicalArtifact` — the two routes;
* `artifact_contained` — the current route sends files below the artifacts directory only;
* `downloads_contained_iff` — when the other route also stays in one directory of a run.
-/

namespace HardwareTest.Runner

open HardwareTest.Python

/-- The settings with the other two report paths. -/
structure ArtifactSettings extends Settings where
  pytestLogPath : Option ReportPath
  htmlPath : Option ReportPath

/-- `configured_artifacts`. -/
def configuredArtifacts (settings : ArtifactSettings) : List (Text × ReportPath) :=
  [("pytest.log".toList, settings.pytestLogPath), ("junit.xml".toList, settings.junitPath),
    ("report.html".toList, settings.htmlPath)].filterMap fun e => e.2.map fun path => (e.1, path)

/-- What a request for a file ends with: the file, and the name under which it is offered, the status
404 with its detail, or an exception. -/
inductive Download
  | file (path : PurePath) (filename : Option Text)
  | notFound (detail : Text)
  | raised (error : PyException)
  deriving DecidableEq

section Routes

variable (files : FileSystem) (settings : ArtifactSettings)

/-- `resolve_artifact`. -/
def resolveArtifact (runDirectory : PurePath) (name : Text) : Except PyException (Option PurePath) :=
  match (configuredArtifacts settings).lookup name with
  | none => .ok none
  | some relativePath => do
    let path ← files.resolveReportPath runDirectory relativePath.path
    return if files.isFile path then some path else none

/-- `resolve_run_directory`. -/
def resolveRunDirectory (artifactsDirectory : PurePath) (runId : Text) : Option PurePath :=
  let root := files.resolve artifactsDirectory
  let path := files.resolve (root.join (.ofText runId))
  if path.parent = root ∧ files.isDir path = true then some path else none

/-- `_current_artifact_directory`. -/
def currentArtifactDirectory (state : Option OperationState) : Except Text PurePath :=
  match state.bind OperationState.artifactDirectory with
  | none => .error "the current operation has no artifacts".toList
  | some directory =>
    let path := files.resolve (.ofText directory)
    let artifactsRoot := files.resolve settings.artifactsDirectory
    if !path.isRelativeTo artifactsRoot || !files.isDir path then
      .error "artifact directory is unavailable".toList
    else .ok path

/-- The answer with the file that is found in a directory. -/
def sendArtifact (runDirectory : PurePath) (name : Text) : Download :=
  match resolveArtifact files settings runDirectory name with
  | .error e => .raised e
  | .ok none => .notFound "artifact not found".toList
  | .ok (some path) => .file path (if name = "report.html".toList then none else some name)

/-- `artifact`: a file of the current operation. -/
def artifact (state : Option OperationState) (name : Text) : Download :=
  match currentArtifactDirectory files settings state with
  | .error detail => .notFound detail
  | .ok runDirectory => sendArtifact files settings runDirectory name

/-- `historical_artifact`: a file of a retained run. -/
def historicalArtifact (runId name : Text) : Download :=
  match resolveRunDirectory files settings.artifactsDirectory runId with
  | none => .notFound "artifact run not found".toList
  | some runDirectory => sendArtifact files settings runDirectory name

end Routes

/-! ## Containment -/

/-- `Path.resolve` gives the canonical path: it is absolute, and free of links. -/
structure Canonical (files : FileSystem) : Prop where
  absolute : ∀ path, (files.resolve path).absolute = true
  resolved : ∀ path, files.resolve (files.resolve path) = files.resolve path

/-- `path` lies strictly below `root`. -/
def PurePath.Below (path root : PurePath) : Prop := path.isRelativeTo root = true ∧ path ≠ root

theorem isRelativeTo_iff {path root : PurePath} :
    path.isRelativeTo root = true ↔ path.absolute = root.absolute ∧ root.parts <+: path.parts := by
  rw [PurePath.isRelativeTo, Bool.and_eq_true, beq_iff_eq, decide_eq_true_eq]

theorem isRelativeTo_trans {a b c : PurePath} (hab : a.isRelativeTo b = true) (hbc : b.isRelativeTo c = true) :
    a.isRelativeTo c = true := by
  obtain ⟨habs, hparts⟩ := isRelativeTo_iff.mp hab
  obtain ⟨habs', hparts'⟩ := isRelativeTo_iff.mp hbc
  exact isRelativeTo_iff.mpr ⟨habs.trans habs', hparts'.trans hparts⟩

theorem isRelativeTo_antisymm {a b : PurePath} (hab : a.isRelativeTo b = true) (hba : b.isRelativeTo a = true) :
    a = b := by
  obtain ⟨habs, hparts⟩ := isRelativeTo_iff.mp hab
  obtain ⟨-, hparts'⟩ := isRelativeTo_iff.mp hba
  obtain ⟨absolute, parts⟩ := a
  obtain ⟨absolute', parts'⟩ := b
  obtain rfl : absolute = absolute' := habs
  obtain rfl : parts = parts' := hparts'.eq_of_length (le_antisymm hparts'.length_le hparts.length_le)
  rfl

/-- Strictly below something that lies below the root is strictly below the root. -/
theorem PurePath.Below.trans {a b c : PurePath} (hab : a.Below b) (hbc : b.isRelativeTo c = true) : a.Below c := by
  refine ⟨isRelativeTo_trans hab.1 hbc, ?_⟩
  rintro rfl
  exact hab.2 (isRelativeTo_antisymm hab.1 hbc)

theorem isRelativeTo_child (root : PurePath) (name : Text) : (root.child name).isRelativeTo root = true :=
  isRelativeTo_iff.mpr ⟨rfl, [name], rfl⟩

/-- A path whose parent is the root is one of its children, or both are the root of the file system. -/
theorem child_of_parent {path root : PurePath} (h : path.parent = root) :
    (∃ name, path = root.child name) ∨ path.parts = [] ∧ path = root := by
  obtain ⟨absolute, parts⟩ := path
  subst h
  rcases List.eq_nil_or_concat parts with rfl | ⟨init, name, rfl⟩
  · exact .inr ⟨rfl, rfl⟩
  · left
    refine ⟨name, ?_⟩
    simp [PurePath.parent, PurePath.child]

theorem parent_of_parts_nil {root : PurePath} (h : root.parts = []) : root.parent = root := by
  obtain ⟨absolute, parts⟩ := root
  obtain rfl : parts = [] := h
  rfl

theorem parts_nil_of_parent {root : PurePath} (h : root.parent = root) : root.parts = [] := by
  have hlength := congrArg (fun path => path.parts.length) h
  simp only [PurePath.parent, List.length_dropLast] at hlength
  exact List.eq_nil_of_length_eq_zero (by omega)

section Containment

variable {files : FileSystem} {settings : ArtifactSettings} {runDirectory path : PurePath} {name : Text}

theorem resolveReportPath_iff {relativePath : PurePath} :
    files.resolveReportPath runDirectory relativePath = .ok path ↔
      path = files.resolve ((files.resolve runDirectory).join relativePath) ∧
        path.Below (files.resolve runDirectory) := by
  simp only [FileSystem.resolveReportPath]
  split
  · rename_i houtside
    rw [Bool.or_eq_true, Bool.not_eq_true', decide_eq_true_eq] at houtside
    constructor
    · nofun
    · rintro ⟨rfl, hrelative, hne⟩
      rcases houtside with h | h
      · rw [hrelative] at h
        cases h
      · exact absurd h hne
  · rename_i hinside
    rw [Bool.or_eq_true, not_or, Bool.not_eq_true', Bool.not_eq_false, decide_eq_true_eq] at hinside
    constructor
    · rintro ⟨⟩
      exact ⟨rfl, hinside⟩
    · rintro ⟨rfl, -⟩
      rfl

/-- A file that is found is strictly below the resolved directory. -/
theorem resolveArtifact_iff :
    resolveArtifact files settings runDirectory name = .ok (some path) ↔
      ∃ relativePath, (configuredArtifacts settings).lookup name = some relativePath ∧
        path = files.resolve ((files.resolve runDirectory).join relativePath.path) ∧
        path.Below (files.resolve runDirectory) ∧ files.isFile path = true := by
  rw [resolveArtifact]
  cases (configuredArtifacts settings).lookup name with
  | none =>
    constructor
    · nofun
    · rintro ⟨_, ⟨⟩, _⟩
  | some relativePath =>
    constructor
    · intro h
      cases hreport : files.resolveReportPath runDirectory relativePath.path with
      | error e =>
        simp only [hreport] at h
        cases h
      | ok found =>
        simp only [hreport] at h
        change Except.ok (if _ then _ else _) = _ at h
        split at h
        · rename_i hfile
          cases h
          obtain ⟨hpath, hbelow⟩ := resolveReportPath_iff.mp hreport
          exact ⟨relativePath, rfl, hpath, hbelow, hfile⟩
        · cases h
    · rintro ⟨_, ⟨⟩, hpath, hbelow, hfile⟩
      simp only [resolveReportPath_iff.mpr ⟨hpath, hbelow⟩]
      show Except.ok (if _ then _ else _) = _
      rw [if_pos hfile]

theorem sendArtifact_file {filename : Option Text}
    (h : sendArtifact files settings runDirectory name = .file path filename) :
    resolveArtifact files settings runDirectory name = .ok (some path) := by
  rw [sendArtifact] at h
  split at h
  · cases h
  · cases h
  · rename_i found hfound
    cases h
    exact hfound

theorem sendArtifact_of_found (h : resolveArtifact files settings runDirectory name = .ok (some path)) :
    ∃ filename, sendArtifact files settings runDirectory name = .file path filename := by
  rw [sendArtifact, h]
  exact ⟨_, rfl⟩

/-- A file that is sent from a resolved directory is strictly below it. -/
theorem below_of_sendArtifact (hfiles : Canonical files) (hdirectory : files.resolve runDirectory = runDirectory)
    {filename : Option Text} (h : sendArtifact files settings runDirectory name = .file path filename) :
    files.resolve path = path ∧ path.Below runDirectory := by
  obtain ⟨relativePath, -, rfl, hbelow, -⟩ := resolveArtifact_iff.mp (sendArtifact_file h)
  rw [hdirectory] at hbelow ⊢
  exact ⟨hfiles.resolved _, hbelow⟩

/-- The directory of the current operation is resolved, and not outside the artifacts directory. -/
theorem currentArtifactDirectory_ok {state : Option OperationState}
    (h : currentArtifactDirectory files settings state = .ok runDirectory) :
    (∃ directory, runDirectory = files.resolve directory) ∧
      runDirectory.isRelativeTo (files.resolve settings.artifactsDirectory) = true := by
  rw [currentArtifactDirectory] at h
  split at h
  · cases h
  · rename_i directory _
    dsimp only at h
    split at h
    · cases h
    · rename_i hinside
      cases h
      rw [Bool.or_eq_true, not_or, Bool.not_eq_true', Bool.not_eq_false] at hinside
      exact ⟨⟨_, rfl⟩, hinside.1⟩

/-- **The current route** sends only files strictly below the artifacts directory. -/
theorem artifact_contained (hfiles : Canonical files) {state : Option OperationState} {filename : Option Text}
    (h : artifact files settings state name = .file path filename) :
    (files.resolve path).Below (files.resolve settings.artifactsDirectory) := by
  rw [artifact] at h
  split at h
  · cases h
  · rename_i runDirectory hcurrent
    obtain ⟨⟨directory, hdirectory⟩, hrelative⟩ := currentArtifactDirectory_ok hcurrent
    have hresolved : files.resolve runDirectory = runDirectory := by
      rw [hdirectory, hfiles.resolved]
    obtain ⟨hpath, hbelow⟩ := below_of_sendArtifact hfiles hresolved h
    rw [hpath]
    exact hbelow.trans hrelative

theorem resolveRunDirectory_iff {artifactsDirectory : PurePath} {runId : Text} :
    resolveRunDirectory files artifactsDirectory runId = some runDirectory ↔
      runDirectory = files.resolve ((files.resolve artifactsDirectory).join (.ofText runId)) ∧
        runDirectory.parent = files.resolve artifactsDirectory ∧ files.isDir runDirectory = true := by
  rw [resolveRunDirectory]
  split
  · rename_i hdirectory
    constructor
    · rintro ⟨⟩
      exact ⟨rfl, hdirectory⟩
    · rintro ⟨rfl, -⟩
      rfl
  · rename_i hdirectory
    constructor
    · nofun
    · rintro ⟨rfl, h⟩
      exact absurd h hdirectory

/-- **Downloads stay inside.**  Let `root` be the artifacts directory and `runDirectory` what the run of
the request resolves to.  The current route sends only files strictly below `root`; the route of the
retained runs sends only files strictly below `root`, from one child directory of it, unless `root` is the
root of the file system, the run resolves to `root` itself, and the file is found there. -/
theorem downloads_contained_iff (files : FileSystem) (hfiles : Canonical files) (settings : ArtifactSettings)
    (state : Option OperationState) (runId name : Text) :
    let root := files.resolve settings.artifactsDirectory
    let runDirectory := files.resolve (root.join (.ofText runId))
    ((∀ path filename, artifact files settings state name = .file path filename →
        (files.resolve path).Below root) ∧
      (∀ path filename, historicalArtifact files settings runId name = .file path filename →
        (files.resolve path).Below root ∧ (∃ child, runDirectory = root.child child) ∧
          (files.resolve path).Below runDirectory)) ↔
    ¬(root.parts = [] ∧ runDirectory = root ∧ files.isDir root = true ∧
      ∃ relativePath, (configuredArtifacts settings).lookup name = some relativePath ∧
        files.isFile (files.resolve (root.join relativePath.path)) = true ∧
        files.resolve (root.join relativePath.path) ≠ root) := by
  intro root runDirectory
  have hroot : files.resolve root = root := hfiles.resolved _
  constructor
  · rintro ⟨-, hhistorical⟩ ⟨hparts, hsame, hdir, relativePath, hlookup, hfile, hne⟩
    have hrun : resolveRunDirectory files settings.artifactsDirectory runId = some root :=
      resolveRunDirectory_iff.mpr ⟨hsame.symm, (parent_of_parts_nil hparts).trans rfl, hdir⟩
    have hfound : resolveArtifact files settings root name
        = .ok (some (files.resolve (root.join relativePath.path))) := by
      refine resolveArtifact_iff.mpr ⟨relativePath, hlookup, by rw [hroot], ⟨?_, ?_⟩, hfile⟩
      · rw [hroot]
        exact isRelativeTo_iff.mpr ⟨(hfiles.absolute _).trans (hfiles.absolute _).symm, hparts ▸ List.nil_prefix⟩
      · rw [hroot]
        exact hne
    obtain ⟨filename, hsend⟩ := sendArtifact_of_found hfound
    have hdownload : historicalArtifact files settings runId name
        = .file (files.resolve (root.join relativePath.path)) filename := by
      rw [historicalArtifact, hrun]
      exact hsend
    obtain ⟨-, ⟨child, hchild⟩, -⟩ := hhistorical _ _ hdownload
    have hlong := congrArg PurePath.parts (hsame.symm.trans hchild)
    rw [PurePath.child, hparts] at hlong
    cases hlong
  · intro hnot
    refine ⟨fun path filename h => artifact_contained hfiles h, fun path filename h => ?_⟩
    rw [historicalArtifact] at h
    split at h
    · cases h
    · rename_i directory hdirectory
      obtain ⟨rfl, hparent, hdir⟩ := resolveRunDirectory_iff.mp hdirectory
      obtain ⟨hpath, hbelow⟩ := below_of_sendArtifact hfiles (hfiles.resolved _) h
      rw [hpath]
      rcases child_of_parent hparent with ⟨child, hchild⟩ | ⟨hempty, hsame⟩
      · refine ⟨hbelow.trans ?_, ⟨child, hchild⟩, hbelow⟩
        show runDirectory.isRelativeTo root = true
        rw [show runDirectory = root.child child from hchild]
        exact isRelativeTo_child root child
      · obtain ⟨relativePath, hlookup, heq, hbelow', hfile⟩ := resolveArtifact_iff.mp (sendArtifact_file h)
        rw [hfiles.resolved] at heq hbelow'
        rw [hsame] at heq hbelow' hempty hdir
        refine absurd ⟨hempty, hsame, hdir, relativePath, hlookup, ?_, ?_⟩ hnot
        · exact heq ▸ hfile
        · exact heq ▸ hbelow'.2

end Containment

/-! ## Files without links -/

/-- The parts of a path, where `..` takes the part before it away. -/
def collapse (parts : List Text) : List Text :=
  parts.foldl (fun kept part => if part = "..".toList then kept.dropLast else kept ++ [part]) []

theorem collapse_concat (parts : List Text) (part : Text) :
    collapse (parts ++ [part])
      = if part = "..".toList then (collapse parts).dropLast else collapse parts ++ [part] := by
  rw [collapse, List.foldl_append]
  rfl

theorem not_mem_collapse (parts : List Text) : "..".toList ∉ collapse parts := by
  induction parts using List.reverseRecOn with
  | nil => exact List.not_mem_nil
  | append_singleton parts part ih =>
    rw [collapse_concat]
    split
    · exact fun h => ih (List.mem_of_mem_dropLast h)
    · rename_i hpart
      rw [List.mem_append, List.mem_singleton]
      rintro (h | h)
      · exact ih h
      · exact hpart h.symm

theorem collapse_of_not_mem {parts : List Text} (h : "..".toList ∉ parts) : collapse parts = parts := by
  induction parts using List.reverseRecOn with
  | nil => rfl
  | append_singleton parts part ih =>
    rw [List.mem_append, List.mem_singleton, not_or] at h
    rw [collapse_concat, if_neg (Ne.symm h.2), ih h.1]

/-- A file system without links, and with `/` as the working directory. -/
def plainFiles (directories regular : List PurePath) : FileSystem where
  resolve path := ⟨true, collapse path.parts⟩
  isDir path := decide (path ∈ directories)
  isFile path := decide (path ∈ regular)
  parse _ := none

theorem canonical_plainFiles (directories regular : List PurePath) : Canonical (plainFiles directories regular) where
  absolute _ := rfl
  resolved path := congrArg (PurePath.mk true) (collapse_of_not_mem (not_mem_collapse path.parts))

/-- The default settings with an artifacts directory and a log. -/
def sampleArtifactSettings (artifactsDirectory : PurePath) : ArtifactSettings where
  toSettings := { Settings.default with artifactsDirectory := artifactsDirectory }
  pytestLogPath := some ⟨⟨false, ["pytest.log"]⟩, rfl, by decide, by decide⟩
  htmlPath := none

/-- The log of a retained run. -/
theorem downloads_contained_iff_sample :
    let runDirectory : PurePath := ⟨true, ["artifacts", "run-1"]⟩
    let log : PurePath := ⟨true, ["artifacts", "run-1", "pytest.log"]⟩
    let files := plainFiles [runDirectory] [log]
    let settings := sampleArtifactSettings ⟨true, ["artifacts"]⟩
    historicalArtifact files settings "run-1" "pytest.log" = .file log (some "pytest.log") ∧
      (files.resolve log).Below runDirectory := by
  intro runDirectory log files settings
  have hsent : historicalArtifact files settings "run-1" "pytest.log" = .file log (some "pytest.log") := by
    decide +kernel
  have hcontained := (downloads_contained_iff files (canonical_plainFiles _ _) settings none "run-1"
    "pytest.log").mpr fun h => absurd h.1 (by decide +kernel)
  exact ⟨hsent, (hcontained.2 _ _ hsent).2.2⟩

/-- **The root of the file system as a run.**  When the artifacts directory is `/`, the run `.` is `/`
itself, and a file beside the directories of the runs is sent. -/
theorem historicalArtifact_of_root :
    let root : PurePath := ⟨true, []⟩
    let log : PurePath := ⟨true, ["pytest.log"]⟩
    let files := plainFiles [root] [log]
    let settings := sampleArtifactSettings root
    Canonical files ∧ historicalArtifact files settings "." "pytest.log" = .file log (some "pytest.log") ∧
      ¬ ∃ child, files.resolve ((files.resolve settings.artifactsDirectory).join (.ofText ".")) = root.child child := by
  intro root log files settings
  refine ⟨canonical_plainFiles _ _, by decide +kernel, ?_⟩
  rintro ⟨child, hchild⟩
  have hroot : files.resolve ((files.resolve settings.artifactsDirectory).join (.ofText ".")) = root := by
    decide +kernel
  have hparts : [] = [child] := congrArg PurePath.parts (hroot.symm.trans hchild)
  cases hparts

end HardwareTest.Runner
