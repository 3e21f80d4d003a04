import HardwareTest.Lib.Program
import HardwareTest.Plugin.MarkerGrammar
import HardwareTest.Python.Timestamp

/-!
# The directory of a session

`pytest_configure` allocates the directory of a session: it checks the run id, resolves the root of
the artifacts, makes it with its parents where they are missing, and makes the directory of the session
in it, which must not be there yet.

* `pytestConfigure` — the hook as a program over the calls of the file system;
* `configure_completed` — what a session that completes has done;
* `configure_failed` — a session that fails has published nothing.
-/

namespace HardwareTest.Plugin

open HardwareTest.Lib HardwareTest.Lib.Json HardwareTest.Python
open HardwareTest.Python.Timestamp HardwareTest.Runner HardwareTest.Auth

/-! ## Run ids -/

/-- `_RUN_ID_PATTERN.fullmatch`. -/
def runIdMatches (value : Text) : Bool := matchesName "_.-".toList value && decide (value.length ≤ 128)

structure RunId where
  text : Text
  accepted : runIdMatches text = true

/-- `strftime("%Y-%m-%d_%H-%M-%S_%f")` of the local time. -/
def generatedId (now : DateTime) : Str :=
  pad 4 now.year ++ 45 :: (pad 2 now.month ++ 45 :: (pad 2 now.day ++ 95 :: (pad 2 now.hour ++ 45 ::
    (pad 2 now.minute ++ 45 :: (pad 2 now.second ++ 95 :: pad 6 now.microsecond)))))

/-- What a session is configured with. -/
structure SessionConfig where
  schema : ScenarioSchema
  files : PurePath → ScenarioSource
  registered : List Text
  markerSequence : Option Str
  scenario : Option Str
  rootpath : PurePath
  runId : Option Str
  artifactsRoot : Option PurePath
  now : DateTime

/-- The run id that is supplied, or else generated. -/
def SessionConfig.givenId (config : SessionConfig) : Str := config.runId.getD (generatedId config.now)

/-- The root of the artifacts, before it is resolved. -/
def SessionConfig.givenRoot (config : SessionConfig) : PurePath :=
  config.rootpath.join (config.artifactsRoot.getD ⟨false, ["artifacts".toList]⟩)

/-! ## The calls of the file system -/

/-- A resolved path: the names from the root of the file system. -/
abbrev Place := List Text

/-- An `OSError`: whether it is a `FileNotFoundError`, and its text. -/
structure OsError where
  notFound : Bool
  message : Str
  deriving DecidableEq

inductive DirectoryCall
  | resolve (path : PurePath)
  | mkdir (path : Place)
  | isDir (path : Place)
  | publish (directory : Place)

abbrev DirectoryCall.Answer : DirectoryCall → Type
  | .resolve _ => Except OsError Place
  | .mkdir _ => Except OsError Unit
  | .isDir _ => Bool
  | .publish _ => Unit

inductive SessionError
  | configure (error : ConfigureError)
  | osError (error : OsError)
  deriving DecidableEq

abbrev SessionM (α : Type) := Program DirectoryCall DirectoryCall.Answer SessionError α

/-- `pytest.UsageError`. -/
def usageError (message : Str) : SessionError := .configure (.usageError message)

/-! ## Directories -/

/-- The last handler of `Path.mkdir`: a directory that exists may be in order. -/
def existing (path : Place) (existOk : Bool) (error : OsError) : SessionM Unit :=
  if existOk then
    .call (.isDir path) fun
      | true => pure ()
      | false => .throw (.osError error)
  else .throw (.osError error)

/-- `path.mkdir(exist_ok=…)`. -/
def mkdir (path : Place) (existOk : Bool) : SessionM Unit :=
  .call (.mkdir path) fun
    | .ok () => pure ()
    | .error error => if error.notFound then .throw (.osError error) else existing path existOk error

/-- `path.mkdir(parents=True, exist_ok=True)`, with the names of the path from its last to its first. -/
def mkdirParents : List Text → SessionM Unit
  | [] => mkdir [] true
  | name :: above =>
    .call (.mkdir (name :: above).reverse) fun
      | .ok () => pure ()
      | .error error =>
        if error.notFound then do
          mkdirParents above
          mkdir (name :: above).reverse true
        else existing (name :: above).reverse true error

/-- `path.resolve()`. -/
def resolve (path : PurePath) : SessionM Place :=
  .call (.resolve path) fun r => .ofExcept (r.mapError .osError)

/-! ## The hook -/

def invalidRunId : SessionError :=
  usageError (codes "Invalid --run-id: use 1-128 ASCII letters, digits, dots, underscores or hyphens, "
    ++ codes "starting with a letter or digit")

/-- The check of the run id. -/
def checkRunId (value : Str) : Except SessionError RunId :=
  match characters value with
  | none => .error invalidRunId
  | some text => if h : runIdMatches text = true then .ok ⟨text, h⟩ else .error invalidRunId

/-- `root / run_id`. -/
def runDirectory (root : Place) (name : RunId) : Place :=
  ((⟨true, root⟩ : PurePath).join (.ofText name.text)).parts

/-- The body of the `try`. -/
def allocate (root runDir : Place) : SessionM Unit := do
  mkdirParents root.reverse
  let resolved ← resolve ⟨true, runDir⟩
  if resolved.dropLast ≠ root then
    .throw (usageError (codes "Session directory must stay within the artifacts root"))
  else mkdir runDir false

/-- `except OSError`. -/
def cannotCreate (runDir : Place) : SessionError → SessionError
  | .osError error => usageError (codes "Cannot create new session directory '"
      ++ toStr (PurePath.toText ⟨true, runDir⟩) ++ codes "': " ++ error.message)
  | .configure error => .configure error

/-- `pytest_configure`. -/
def pytestConfigure (config : SessionConfig) : SessionM Unit := do
  let _ ← .ofExcept ((configureSelection config.schema config.files config.rootpath config.registered
    config.markerSequence config.scenario).mapError .configure)
  let name ← .ofExcept (checkRunId config.givenId)
  let root ← resolve config.givenRoot
  let runDir := runDirectory root name
  (allocate root runDir).tryCatch fun error => .throw (cannotCreate runDir error)
  .call (.publish runDir) pure

/-! ## Names -/

theorem RunId.chars (name : RunId) : name.text ≠ [] ∧ '/' ∉ name.text ∧ name.text ≠ ".".toList := by
  obtain ⟨text, haccepted⟩ := name
  rw [runIdMatches, Bool.and_eq_true] at haccepted
  cases text with
  | nil => cases haccepted.1
  | cons c rest =>
    obtain ⟨hfirst, hrest⟩ := Bool.and_eq_true_iff.mp haccepted.1
    refine ⟨List.cons_ne_nil c rest, ?_, ?_⟩
    · intro hslash
      rcases List.mem_cons.mp hslash with rfl | hslash
      · exact absurd hfirst (by decide)
      · exact absurd (List.all_eq_true.mp hrest '/' hslash) (by decide)
    · rintro heq
      cases heq
      exact absurd hfirst (by decide)

/-- **The directory of a session** is a child of the root, with the run id as its name. -/
theorem runDirectory_eq (root : Place) (name : RunId) : runDirectory root name = root ++ [name.text] := by
  obtain ⟨hne, hslash, hdot⟩ := name.chars
  rw [runDirectory, PurePath.ofText_name hne hslash hdot]
  rfl

theorem toStr_of_checkRunId {value : Str} {name : RunId} (h : checkRunId value = .ok name) :
    toStr name.text = value := by
  unfold checkRunId at h
  split at h
  · cases h
  · rename_i text htext
    split at h
    · cases h
      exact toStr_of_characters htext
    · cases h

/-- An ASCII letter or digit. -/
def IsAlphanumeric (c : ℕ) : Prop := (48 ≤ c ∧ c ≤ 57) ∨ (65 ≤ c ∧ c ≤ 90) ∨ (97 ≤ c ∧ c ≤ 122)

/-- 1-128 letters, digits, dots, underscores or hyphens, starting with a letter or digit. -/
def IsRunId : Str → Prop
  | [] => False
  | c :: rest => IsAlphanumeric c ∧ (∀ d ∈ rest, IsAlphanumeric d ∨ d = 95 ∨ d = 46 ∨ d = 45) ∧
    rest.length + 1 ≤ 128

theorem runIdMatches_iff (text : Text) : runIdMatches text = true ↔ IsRunId (toStr text) := by
  rw [runIdMatches, Bool.and_eq_true, decide_eq_true_iff]
  cases text with
  | nil => exact iff_of_false (fun h => Bool.noConfusion h.1) id
  | cons c rest =>
    have hfirst : isAlphanumeric c = true ↔ IsAlphanumeric c.toNat := decide_eq_true_iff
    have hmore : ∀ d : Char, (isAlphanumeric d || "_.-".toList.contains d) = true ↔
        IsAlphanumeric d.toNat ∨ d.toNat = 95 ∨ d.toNat = 46 ∨ d.toNat = 45 := by
      intro d
      have hd : isAlphanumeric d = true ↔ IsAlphanumeric d.toNat := decide_eq_true_iff
      have hpoint : ∀ e : Char, d = e ↔ d.toNat = e.toNat := fun e => Char.toNat_inj.symm
      rw [Bool.or_eq_true, hd, List.contains_iff_mem]
      show _ ∨ d ∈ ['_', '.', '-'] ↔ _
      rw [List.mem_cons, List.mem_cons, List.mem_singleton, hpoint, hpoint, hpoint]
      rfl
    show (isAlphanumeric c && rest.all fun d => isAlphanumeric d || "_.-".toList.contains d) = true ∧
        rest.length + 1 ≤ 128 ↔ IsAlphanumeric c.toNat ∧
      (∀ d ∈ rest.map Char.toNat, IsAlphanumeric d ∨ d = 95 ∨ d = 46 ∨ d = 45) ∧
        (rest.map Char.toNat).length + 1 ≤ 128
    rw [Bool.and_eq_true, hfirst, List.all_eq_true, List.length_map, List.forall_mem_map, and_assoc]
    simp only [hmore]

/-- **The run ids** are those of the pattern. -/
theorem checkRunId_iff (value : Str) : (∃ name, checkRunId value = .ok name) ↔ IsRunId value := by
  constructor
  · rintro ⟨name, h⟩
    rw [← toStr_of_checkRunId h]
    exact (runIdMatches_iff name.text).mp name.accepted
  · intro h
    have hvalid : ∀ c ∈ value, c.isValidChar := by
      intro c hc
      cases value with
      | nil => cases hc
      | cons first rest =>
        unfold IsRunId IsAlphanumeric at h
        rcases List.mem_cons.mp hc with rfl | hc
        · exact .inl (by omega)
        · have hmore := h.2.1 c hc
          exact .inl (by omega)
    obtain ⟨text, htext⟩ := exists_characters hvalid
    have haccepted : runIdMatches text = true := by
      rw [runIdMatches_iff, toStr_of_characters htext]
      exact h
    exact ⟨⟨text, haccepted⟩, by rw [checkRunId, htext]; exact dif_pos haccepted⟩

/-- A run id that is generated is accepted. -/
theorem checkRunId_generatedId (now : DateTime) : ∃ name, checkRunId (generatedId now) = .ok name := by
  have hdigits : ∀ width n, ∀ c ∈ pad width n, IsAlphanumeric c := fun width n c hc =>
    .inl (of_decide_eq_true (isDigit_pad width n c hc))
  have hyear : pad 4 now.year = (48 + now.year / 10 / 10 / 10 % 10) :: (pad 4 now.year).tail := rfl
  rw [checkRunId_iff, generatedId, hyear]
  refine ⟨?_, ?_, ?_⟩
  · exact hdigits 4 now.year _ List.mem_cons_self
  · have hrest : ∀ c ∈ (pad 4 now.year).tail, IsAlphanumeric c := fun c hc =>
      hdigits 4 now.year c (List.mem_of_mem_tail hc)
    show ∀ d ∈ (pad 4 now.year).tail ++ 45 :: _, _
    simp only [List.forall_mem_append, List.forall_mem_cons]
    grind
  · simp [length_pad]

/-! ## The calls of a session -/

abbrev SessionTrace := List (Sigma DirectoryCall.Answer)

/-- The directories that a session has published. -/
def published (trace : SessionTrace) : List Place :=
  trace.filterMap fun x => match x.1 with
    | .resolve _ => none
    | .mkdir _ => none
    | .isDir _ => none
    | .publish directory => some directory

theorem published_append (t u : SessionTrace) : published (t ++ u) = published t ++ published u :=
  List.filterMap_append

/-- A call that publishes no directory. -/
def DirectoryCall.Silent : DirectoryCall → Prop
  | .resolve _ => True
  | .mkdir _ => True
  | .isDir _ => True
  | .publish _ => False

theorem published_silent {trace : SessionTrace} (h : ∀ call ∈ trace, call.1.Silent) :
    published trace = [] := by
  rw [published, List.filterMap_eq_nil_iff]
  rintro ⟨call, x⟩ hcall
  cases call with
  | resolve path => rfl
  | mkdir path => rfl
  | isDir path => rfl
  | publish directory => exact (h _ hcall).elim

section Silent

open DirectoryCall Program

theorem only_existing (path : Place) (existOk : Bool) (error : OsError) :
    (existing path existOk error).Only Silent := by
  unfold existing
  split
  · refine ⟨trivial, fun found => ?_⟩
    cases found with
    | true => trivial
    | false => trivial
  · trivial

theorem only_mkdir (path : Place) (existOk : Bool) : (mkdir path existOk).Only Silent := by
  refine ⟨trivial, fun made => ?_⟩
  cases made with
  | ok _ => trivial
  | error error =>
    dsimp only
    split
    · trivial
    · exact only_existing _ _ _

theorem only_mkdirParents (names : List Text) : (mkdirParents names).Only Silent := by
  induction names with
  | nil => exact only_mkdir [] true
  | cons name above ih =>
    refine ⟨trivial, fun made => ?_⟩
    cases made with
    | ok _ => trivial
    | error error =>
      dsimp only
      split
      · exact ih.bind fun _ => only_mkdir _ _
      · exact only_existing _ _ _

theorem only_resolve (path : PurePath) : (resolve path).Only Silent :=
  ⟨trivial, fun _ => only_ofExcept _⟩

theorem only_allocate (root runDir : Place) : (allocate root runDir).Only Silent := by
  refine (only_mkdirParents _).bind fun _ => (only_resolve _).bind fun resolved => ?_
  split
  · trivial
  · exact only_mkdir _ _

end Silent

/-- A `mkdir` that may not find its directory and returns has made it. -/
theorem runs_mkdir {path : Place} {trace : SessionTrace}
    (h : Program.Runs (mkdir path false) trace (.ok ())) : ⟨.mkdir path, .ok ()⟩ ∈ trace := by
  cases h with
  | call made h =>
    cases made with
    | ok _ => exact List.mem_cons_self
    | error error =>
      dsimp only at h
      split at h
      · cases h
      · cases h

theorem runs_allocate {root runDir : Place} {trace : SessionTrace}
    (h : Program.Runs (allocate root runDir) trace (.ok ())) : ⟨.mkdir runDir, .ok ()⟩ ∈ trace := by
  obtain ⟨parents, trace, _, rfl, -, h⟩ := h.bind_ok
  obtain ⟨resolved, trace, place, rfl, -, h⟩ := h.bind_ok
  split at h
  · cases h
  · exact List.mem_append_right _ (List.mem_append_right _ (runs_mkdir h))

theorem runs_resolve {path : PurePath} {trace : SessionTrace} {place : Place}
    (h : Program.Runs (resolve path) trace (.ok place)) : trace = [⟨.resolve path, .ok place⟩] := by
  cases h with
  | call r h =>
    obtain ⟨rfl, hr⟩ := Program.Runs.ofExcept h
    cases r with
    | ok found =>
      cases hr
      rfl
    | error e => cases hr

/-- What a session has done when it has its directory. -/
structure Allocated (config : SessionConfig) (trace : SessionTrace) (root : Place) (name : RunId) : Prop where
  named : checkRunId config.givenId = .ok name
  resolved : ⟨.resolve config.givenRoot, .ok root⟩ ∈ trace
  created : ⟨.mkdir (root ++ [name.text]), .ok ()⟩ ∈ trace
  published : published trace = [root ++ [name.text]]

section Configure

variable {config : SessionConfig} {trace : SessionTrace}

/-- **A session that completes** has made its directory in the resolved root, and published that. -/
theorem configure_completed (h : Program.Runs (pytestConfigure config) trace (.ok ())) :
    ∃ root name, Allocated config trace root name := by
  obtain ⟨selected, trace, _, rfl, hselected, h⟩ := h.bind_ok
  obtain ⟨checked, trace, name, rfl, hchecked, h⟩ := h.bind_ok
  obtain ⟨found, trace, root, rfl, hfound, h⟩ := h.bind_ok
  obtain ⟨allocated, trace, _, rfl, hallocated, h⟩ := h.bind_ok
  cases h with
  | call _ h =>
    cases h
    rcases hallocated.tryCatch with ⟨_, hmade, -⟩ | ⟨first, rest, e, rfl, -, hthrow⟩
    · have hname := (Program.Runs.ofExcept hchecked).2
      have hcreated := runs_allocate hmade
      have hsilent := published_silent ((only_allocate _ _).runs hmade)
      rw [(Program.Runs.ofExcept hselected).1, (Program.Runs.ofExcept hchecked).1, runs_resolve hfound,
        List.nil_append, List.nil_append]
      rw [runDirectory_eq] at hcreated
      refine ⟨root, name, hname.symm, ?_, ?_, ?_⟩
      · exact List.mem_cons_self
      · exact List.mem_append_right _ (List.mem_append_left _ hcreated)
      · rw [published_append, published_append, hsilent]
        exact congrArg (fun place => [place]) (runDirectory_eq root name)
    · cases hthrow

/-- **A session that fails** has published nothing. -/
theorem configure_failed {e : SessionError} (h : Program.Runs (pytestConfigure config) trace (.error e)) :
    published trace = [] := by
  rcases h.bind with ⟨selected, trace, _, rfl, hselected, h⟩ | ⟨e, hselected, -⟩
  · rcases h.bind with ⟨checked, trace, name, rfl, hchecked, h⟩ | ⟨e, hchecked, -⟩
    · rw [(Program.Runs.ofExcept hselected).1, (Program.Runs.ofExcept hchecked).1, List.nil_append,
        List.nil_append]
      rcases h.bind with ⟨found, trace, root, rfl, hfound, h⟩ | ⟨e, hfound, -⟩
      · rw [published_append, published_silent ((only_resolve _).runs hfound), List.nil_append]
        rcases h.bind with ⟨allocated, trace, _, rfl, -, h⟩ | ⟨e, hallocated, -⟩
        · cases h with
          | call _ h => cases h
        · have hallocate : ((allocate root (runDirectory root name)).tryCatch fun error =>
              .throw (cannotCreate (runDirectory root name) error)).Only DirectoryCall.Silent :=
            (only_allocate _ _).tryCatch fun _ => trivial
          exact published_silent (hallocate.runs hallocated)
      · exact published_silent ((only_resolve _).runs hfound)
    · rw [(Program.Runs.ofExcept hselected).1, (Program.Runs.ofExcept hchecked).1]
      rfl
  · rw [(Program.Runs.ofExcept hselected).1]
    rfl

end Configure

end HardwareTest.Plugin
