import HardwareTest.Lib.Options
import HardwareTest.Plugin.RunDirectory

/-!
# What Docker and pytest read

A vector that is handed to `docker run` is read twice: Docker takes its options from it and finds the
image and the command behind them, and in the container `pytest` reads its options from that command.
Which words are options is the business of these programs; what is relied on is said here.

* `DockerRun`, `PytestArguments` — what is relied on;
* `ContainerRun` — the container that Docker makes of a vector;
* `ContainerRun.hosts` — where a path of the container lies on the host;
* `sessionConfig` — what a session is configured with by its command line.
-/

namespace HardwareTest.Runner

open HardwareTest.Lib HardwareTest.Lib.Options HardwareTest.Python

/-! ## Paths and their texts -/

namespace PurePath

/-- The parts are names, as `Path` keeps them. -/
def Normal (path : PurePath) : Prop := ∀ part ∈ path.parts, part ≠ [] ∧ '/' ∉ part ∧ part ≠ ".".toList

instance (path : PurePath) : Decidable path.Normal :=
  inferInstanceAs (Decidable (∀ part ∈ path.parts, part ≠ [] ∧ '/' ∉ part ∧ part ≠ ".".toList))

theorem filter_parts {path : PurePath} (h : path.Normal) :
    (path.parts.filter fun part => decide (part ≠ [] ∧ part ≠ ['.'])) = path.parts :=
  List.filter_eq_self.mpr fun part hpart => decide_eq_true ⟨(h part hpart).1, (h part hpart).2.2⟩

/-- **The text of an absolute path** is read as the path. -/
theorem ofText_toText {path : PurePath} (h : path.Normal) (habsolute : path.absolute = true) :
    ofText path.toText = path := by
  obtain ⟨absolute, parts⟩ := path
  subst habsolute
  have hsplit : ((⟨true, parts⟩ : PurePath).toText.splitOn '/').filter
      (fun part => decide (part ≠ [] ∧ part ≠ ['.'])) = parts := by
    have hcons : (⟨true, parts⟩ : PurePath).toText = [] ++ '/' :: List.intercalate ['/'] parts := rfl
    rw [hcons, List.splitOn_append_cons_self_of_not_mem List.not_mem_nil, List.filter_cons_of_neg (by decide)]
    rcases parts with _ | ⟨part, parts⟩
    · rfl
    · rw [List.splitOn_intercalate '/' (fun part hpart => (h part hpart).2.1) (List.cons_ne_nil part parts)]
      exact filter_parts h
  simp only [ofText, hsplit]
  rfl

/-- A path below an absolute one. -/
theorem Normal.join {path below : PurePath} (h : path.Normal) (hbelow : below.Normal) :
    (path.join below).Normal := by
  rw [PurePath.join]
  split
  · exact hbelow
  · exact List.forall_mem_append.mpr ⟨h, hbelow⟩

theorem Normal.child {path : PurePath} (h : path.Normal) {name : Text}
    (hname : name ≠ [] ∧ '/' ∉ name ∧ name ≠ ".".toList) : (path.child name).Normal :=
  List.forall_mem_append.mpr ⟨h, List.forall_mem_singleton.mpr hname⟩

/-- A character that separates nothing in a path is in its text only when it is in one of its parts. -/
theorem not_mem_toText {path : PurePath} {c : Char} (hslash : c ≠ '/') (hdot : c ≠ '.')
    (h : ∀ part ∈ path.parts, c ∉ part) : c ∉ path.toText := by
  have hjoined : ∀ parts : List Text, (∀ part ∈ parts, c ∉ part) → c ∉ List.intercalate ['/'] parts := by
    intro parts hparts
    induction parts with
    | nil => exact List.not_mem_nil
    | cons part parts ih =>
      obtain ⟨hpart, hparts⟩ := List.forall_mem_cons.mp hparts
      cases parts with
      | nil => simpa [List.intercalate, List.intersperse] using hpart
      | cons next parts =>
        have hcons : List.intercalate ['/'] (part :: next :: parts)
            = part ++ '/' :: List.intercalate ['/'] (next :: parts) := rfl
        rw [hcons, List.mem_append, List.mem_cons]
        rintro (hmem | hmem | hmem)
        · exact hpart hmem
        · exact hslash hmem
        · exact ih hparts hmem
  rw [toText]
  split
  · exact fun hmem => (List.mem_cons.mp hmem).elim hslash (hjoined path.parts h)
  · split
    · exact fun hmem => hdot (List.mem_singleton.mp hmem)
    · exact hjoined path.parts h

end PurePath

/-! ## Mounts -/

/-- A mount, as the option `--volume` writes it. -/
structure Mount where
  source : Text
  target : Text
  mode : Option Text
  deriving DecidableEq

/-- `HOST:CONTAINER[:MODE]`. -/
def Mount.ofText (spec : Text) : Option Mount :=
  match spec.splitOn ':' with
  | [source, target] => some ⟨source, target, none⟩
  | [source, target, mode] => some ⟨source, target, some mode⟩
  | _ => none

/-- Where a path of the container lies on the host, when it is below the target. -/
def Mount.host (mount : Mount) (path : PurePath) : Option PurePath :=
  let target := PurePath.ofText mount.target
  if path.isRelativeTo target then
    some ((PurePath.ofText mount.source).join ⟨false, path.parts.drop target.parts.length⟩)
  else none

/-- A directory or file of the host that Docker can mount: an absolute path without a colon. -/
structure Mountable (path : PurePath) : Prop where
  absolute : path.absolute = true
  normal : path.Normal
  no_colon : ∀ part ∈ path.parts, ':' ∉ part

namespace Mountable

theorem not_mem {path : PurePath} (h : Mountable path) : ':' ∉ path.toText :=
  PurePath.not_mem_toText (by decide) (by decide) h.no_colon

theorem parent {path : PurePath} (h : Mountable path) : Mountable path.parent :=
  ⟨h.absolute, fun part hpart => h.normal part (List.mem_of_mem_dropLast hpart),
    fun part hpart => h.no_colon part (List.mem_of_mem_dropLast hpart)⟩

theorem child {path : PurePath} (h : Mountable path) {name : Text}
    (hname : name ≠ [] ∧ '/' ∉ name ∧ name ≠ ".".toList) (hcolon : ':' ∉ name) : Mountable (path.child name) :=
  ⟨h.absolute, h.normal.child hname,
    List.forall_mem_append.mpr ⟨h.no_colon, List.forall_mem_singleton.mpr hcolon⟩⟩

theorem join {path below : PurePath} (h : Mountable path) (hrelative : below.absolute = false)
    (hnormal : below.Normal) (hcolon : ∀ part ∈ below.parts, ':' ∉ part) : Mountable (path.join below) := by
  refine ⟨?_, h.normal.join hnormal, ?_⟩
  · rw [PurePath.join, hrelative]
    exact h.absolute
  · rw [PurePath.join, hrelative]
    exact List.forall_mem_append.mpr ⟨h.no_colon, hcolon⟩

/-- **A mountable path** is read from its mount. -/
theorem ofText_mount {path : PurePath} (h : Mountable path) (target : Text) (htarget : ':' ∉ target) :
    Mount.ofText (path.toText ++ ':' :: target) = some ⟨path.toText, target, none⟩ := by
  rw [Mount.ofText, List.splitOn_append_cons_self_of_not_mem h.not_mem, List.splitOn_eq_singleton htarget]

theorem ofText_mount_mode {path : PurePath} (h : Mountable path) (target mode : Text) (htarget : ':' ∉ target)
    (hmode : ':' ∉ mode) : Mount.ofText (path.toText ++ ':' :: (target ++ ':' :: mode))
      = some ⟨path.toText, target, some mode⟩ := by
  rw [Mount.ofText, List.splitOn_append_cons_self_of_not_mem h.not_mem,
    List.splitOn_append_cons_self_of_not_mem htarget, List.splitOn_eq_singleton hmode]

/-- What is below the target lies below the source. -/
theorem host_eq {path : PurePath} (h : Mountable path) (target : Text) (mode : Option Text) (parts : List Text)
    (htarget : PurePath.ofText target = ⟨true, parts⟩) (rest : List Text) :
    Mount.host ⟨path.toText, target, mode⟩ ⟨true, parts ++ rest⟩ = some (path.join ⟨false, rest⟩) := by
  have hbelow : (⟨true, parts ++ rest⟩ : PurePath).isRelativeTo ⟨true, parts⟩ = true := by
    simp [PurePath.isRelativeTo]
  simp only [Mount.host, htarget, hbelow, if_true, PurePath.ofText_toText h.normal h.absolute,
    List.drop_left]

end Mountable

/-- A path that is not below the target of a mount. -/
theorem Mount.host_apart (source target : Text) (mode : Option Text) (first other : Text) (parts rest : List Text)
    (htarget : PurePath.ofText target = ⟨true, first :: parts⟩) (h : first ≠ other) :
    Mount.host ⟨source, target, mode⟩ ⟨true, other :: rest⟩ = none := by
  have hapart : (⟨true, other :: rest⟩ : PurePath).isRelativeTo ⟨true, first :: parts⟩ = false := by
    simp [PurePath.isRelativeTo, h]
  simp only [Mount.host, htarget, hapart, Bool.false_eq_true, if_false]

/-! ## Docker -/

/-- The options of `docker run` that are used, all with a value. -/
def dockerRunOptions : List Text :=
  ["--name".toList, "--label".toList, "--pull".toList, "--env".toList, "--volume".toList,
    "--env-file".toList, "--network".toList, "--device".toList, "--workdir".toList]

/-- `docker run` reads its options up to the image; `--rm` has no value, and the word after the name of
another option is its value, whatever it is. -/
structure DockerRun (docker : Convention Text) : Prop where
  rm : docker.kind "--rm".toList = .flag "--rm".toList
  option : ∀ name ∈ dockerRunOptions, docker.kind name = .option name
  operand : ∀ word, word.head? ≠ some '-' → docker.kind word = .operand
  isValue : ∀ word, docker.isValue word = true
  front : docker.interspersed = false

/-- A program that knows its options from two tables. -/
def tabulated (flags options : List Text) (isValue : Text → Bool) (interspersed : Bool) : Convention Text where
  kind word :=
    if word.head? ≠ some '-' then .operand
    else if word = "--".toList then .terminator
    else if word ∈ flags then .flag word
    else if word ∈ options then .option word
    else .refused
  isValue := isValue
  interspersed := interspersed

theorem tabulated_operand (flags options : List Text) (isValue : Text → Bool) (interspersed : Bool) {word : Text}
    (h : word.head? ≠ some '-') : (tabulated flags options isValue interspersed).kind word = .operand :=
  if_pos h

/-- `docker run`, as far as its options are used here. -/
def dockerCli : Convention Text := tabulated ["--rm".toList] dockerRunOptions (fun _ => true) false

theorem dockerRun_dockerCli : DockerRun dockerCli where
  rm := by decide
  option := by decide
  operand _ h := tabulated_operand _ _ _ _ h
  isValue _ := rfl
  front := rfl

/-- A container that runs in the foreground. -/
structure ContainerRun where
  options : List (Item Text)
  image : Text
  command : Command

namespace ContainerRun

/-- What Docker makes of a vector. -/
def read (docker : Convention Text) : Command → Option ContainerRun
  | program :: verb :: words =>
    if program = "docker".toList ∧ verb = "run".toList then
      match Options.read docker words with
      | none => none
      | some items =>
        match operands items with
        | image :: command => some ⟨items.filter Item.isOption, image, command⟩
        | [] => none
    else none
  | _ => none

variable (run : ContainerRun)

def mounts : List Mount := (values "--volume".toList run.options).filterMap Mount.ofText

/-- Where a path of the container lies on the host, once for each mount that it is below. -/
def hosts (path : PurePath) : List PurePath := run.mounts.filterMap fun mount => mount.host path

end ContainerRun

/-- An option that Docker takes. -/
def IsDockerOption : Item Text → Prop
  | .flag name => name = "--rm".toList
  | .option name _ => name ∈ dockerRunOptions
  | .operand _ => False

/-- **A vector of options, an image and a command** is read as these. -/
theorem ContainerRun.read_line {docker : Convention Text} (h : DockerRun docker) {options : List (Item Text)}
    (hoptions : ∀ item ∈ options, IsDockerOption item) {image : Text} (himage : image.head? ≠ some '-')
    (command : Command) :
    ContainerRun.read docker ("docker".toList :: "run".toList :: (line options ++ image :: command))
      = some ⟨options, image, command⟩ := by
  have htakes : ∀ item ∈ options, docker.Takes item := by
    intro item hitem
    have hoption := hoptions item hitem
    cases item with
    | flag name =>
      have hname : name = "--rm".toList := hoption
      rw [hname]
      exact h.rm
    | option name value => exact ⟨h.option name hoption, h.isValue value⟩
    | operand word => exact hoption.elim
  have hisOption : ∀ item ∈ options, item.isOption = true := by
    intro item hitem
    cases item with
    | flag name => rfl
    | option name value => rfl
    | operand word => exact (hoptions _ hitem).elim
  have hread := Options.read_line_operand htakes (h.operand image himage) h.front command
  simp only [ContainerRun.read, and_self, if_true, hread, operands_append, operands_options hisOption,
    operands_operands, List.nil_append, List.filter_append, List.filter_eq_self.mpr hisOption,
    filter_isOption_operands, List.append_nil]

/-! ## pytest -/

/-- The options of `pytest` that are used with a value. -/
def pytestOptions : List Text :=
  ["--run-id".toList, "--artifacts-root".toList, "--scenario".toList, "--inventory".toList, "--stand".toList,
    "--alluredir".toList, "--rp-endpoint".toList, "--rp-project".toList, "--rp-launch".toList,
    "--rp-launch-description".toList, "--mute-logger".toList, "-o".toList]

/-- `pytest` takes options before and after its operands; a word that begins with a hyphen need not be a
value. -/
structure PytestArguments (pytest : Convention Text) : Prop where
  flag : pytest.kind "--reportportal".toList = .flag "--reportportal".toList
  option : ∀ name ∈ pytestOptions, pytest.kind name = .option name
  operand : ∀ word, word.head? ≠ some '-' → pytest.kind word = .operand
  isValue : ∀ word, word.head? ≠ some '-' → pytest.isValue word = true
  interspersed : pytest.interspersed = true

/-- `pytest`, as far as its options are used here. -/
def pytestCli : Convention Text :=
  tabulated ["--reportportal".toList] pytestOptions (fun word => decide (word.head? ≠ some '-')) true

theorem pytestArguments_pytestCli : PytestArguments pytestCli where
  flag := by decide
  option := by decide
  operand _ h := tabulated_operand _ _ _ _ h
  isValue _ h := decide_eq_true h
  interspersed := rfl

/-- What `pytest` reads when it is started with `uv run`. -/
def pytestRead (pytest : Convention Text) : Command → Option (List (Item Text))
  | program :: verb :: name :: words =>
    if program = "uv".toList ∧ verb = "run".toList ∧ name = "pytest".toList then Options.read pytest words
    else none
  | _ => none

/-- An item that `pytest` takes. -/
def IsPytestItem : Item Text → Prop
  | .flag name => name = "--reportportal".toList
  | .option name value => name ∈ pytestOptions ∧ value.head? ≠ some '-'
  | .operand word => word.head? ≠ some '-'

theorem pytestRead_line {pytest : Convention Text} (h : PytestArguments pytest) {items : List (Item Text)}
    (hitems : ∀ item ∈ items, IsPytestItem item) :
    pytestRead pytest ("uv".toList :: "run".toList :: "pytest".toList :: line items) = some items := by
  have htakes : ∀ item ∈ items, pytest.Takes item := by
    intro item hitem
    have htaken := hitems item hitem
    cases item with
    | flag name =>
      have hname : name = "--reportportal".toList := htaken
      rw [hname]
      exact h.flag
    | option name value => exact ⟨h.option name htaken.1, h.isValue value htaken.2⟩
    | operand word => exact ⟨h.operand word htaken, h.interspersed⟩
  simp only [pytestRead, and_self, if_true, Options.read_line htakes]

open HardwareTest.Plugin HardwareTest.Auth in
/-- The configuration of a session: what the command line says in place of what it may say, in a container
that is `base` otherwise. -/
def sessionConfig (base : SessionConfig) (items : List (Options.Item Text)) : SessionConfig :=
  { base with
    markerSequence := (value? "--marker-sequence".toList items).map toStr
    scenario := (value? "--scenario".toList items).map toStr
    runId := (value? "--run-id".toList items).map toStr
    artifactsRoot := (value? "--artifacts-root".toList items).map PurePath.ofText }

end HardwareTest.Runner
