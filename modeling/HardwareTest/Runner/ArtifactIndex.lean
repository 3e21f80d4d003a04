import Mathlib.Data.List.Sort
import HardwareTest.Lib.Yaml
import HardwareTest.Runner.Artifacts

/-!
# The index of the retained runs

The route that lists what can be downloaded from the runs below the artifacts directory.  It goes through
the entries of that directory and looks at their report files, whatever a run has left there.

* `listArtifacts`, `listArtifactRuns` — the files of one run, and the runs;
* `IndexAgrees` — the index is given, lists what can be downloaded, each run once and the newest first;
* `index_agrees_iff` — when that is so;
* `escaping_report_breaks_index` — one link out of a run, and no run is listed.
-/

namespace HardwareTest.Runner

open HardwareTest.Python HardwareTest.Lib

/-- A loop that appends what some of the items give. -/
theorem filterMapM_of_ok {α β ε : Type} {f : α → Except ε (Option β)} {g : α → Option β} {items : List α}
    (h : ∀ a ∈ items, f a = .ok (g a)) : items.filterMapM f = .ok (items.filterMap g) := by
  induction items with
  | nil => rfl
  | cons a items ih =>
    obtain ⟨ha, hitems⟩ := List.forall_mem_cons.mp h
    rw [List.filterMapM_cons, List.filterMap_cons, ha, ih hitems]
    cases g a with
    | none => rfl
    | some b => rfl

theorem ok_of_filterMapM {α β ε : Type} {f : α → Except ε (Option β)} {items : List α} {out : List β}
    (h : items.filterMapM f = .ok out) : ∀ a ∈ items, ∃ o, f a = .ok o := by
  induction items generalizing out with
  | nil => nofun
  | cons a items ih =>
    rw [List.filterMapM_cons] at h
    cases ha : f a with
    | error e =>
      rw [ha] at h
      cases h
    | ok o =>
      refine List.forall_mem_cons.mpr ⟨⟨o, ha⟩, ?_⟩
      rw [ha] at h
      cases hrest : items.filterMapM f with
      | error e =>
        rw [hrest] at h
        cases o with
        | none => cases h
        | some b => cases h
      | ok rest => exact ih hrest

theorem filterMapM_eq_ok_iff {α β ε : Type} {f : α → Except ε (Option β)} {items : List α} {out : List β} :
    items.filterMapM f = .ok out ↔
      (∀ a ∈ items, ∃ o, f a = .ok o) ∧ out = items.filterMap fun a => (f a).toOption.join := by
  have hok (hall : ∀ a ∈ items, ∃ o, f a = .ok o) :
      items.filterMapM f = .ok (items.filterMap fun a => (f a).toOption.join) := by
    refine filterMapM_of_ok fun a ha => ?_
    obtain ⟨o, ho⟩ := hall a ha
    rw [ho]
    rfl
  constructor
  · intro h
    have hall := ok_of_filterMapM h
    exact ⟨hall, Except.ok.inj (h.symm.trans (hok hall))⟩
  · rintro ⟨hall, rfl⟩
    exact hok hall

/-- Items that keep their keys keep the order of the keys. -/
theorem map_filterMap_sublist {α β κ : Type} {g : α → Option β} {k : α → κ} {key : β → κ}
    (h : ∀ a b, g a = some b → key b = k a) {items : List α} :
    ((items.filterMap g).map key).Sublist (items.map k) := by
  induction items with
  | nil => exact List.Sublist.slnil
  | cons a items ih =>
    cases ha : g a with
    | none =>
      rw [List.filterMap_cons_none ha]
      exact ih.cons (k a)
    | some b =>
      rw [List.filterMap_cons_some ha, List.map_cons, List.map_cons, h a b ha]
      exact ih.cons_cons (k a)

/-! ## The directories -/

/-- A name that an entry of a directory can have. -/
def IsName (name : Text) : Prop :=
  name ≠ [] ∧ '/' ∉ name ∧ name ≠ ".".toList ∧ name ≠ "..".toList

instance (name : Text) : Decidable (IsName name) := inferInstanceAs (Decidable (_ ∧ _))

/-- The file system with the entries of its directories, the sizes of its files, and the times of the
last changes in microseconds since 1970.  `surrogate` tells the characters that stand for the bytes of a
name that is not Unicode. -/
structure FileTree extends FileSystem where
  iterdir : PurePath → Except PyException (List Text)
  size : PurePath → ℕ
  mtime : PurePath → ℤ
  surrogate : Char → Bool
  canonical : Canonical toFileSystem
  /-- A path is resolved from the left. -/
  resolve_child : ∀ path name, resolve (path.child name) = resolve ((resolve path).child name)
  resolve_parent : ∀ path, resolve (path.child "..".toList) = (resolve path).parent
  iterdir_names : ∀ path names, iterdir path = .ok names → names.Nodup ∧ ∀ name ∈ names, IsName name
  /-- A name that is not in a directory leads to no directory. -/
  iterdir_complete : ∀ path names name, iterdir path = .ok names → IsName name →
    isDir (resolve (path.child name)) = true → name ∈ names
  surrogate_ascii : ∀ c : Char, c.toNat < 128 → surrogate c = false

/-- A field of type `str` of a response. -/
def FileTree.validText (tree : FileTree) (text : Text) : Except PyException Text :=
  if text.any tree.surrogate then
    .error (.raised (.exception
      "Input should be a valid string, unable to parse raw data as a unicode string"))
  else .ok text

/-- `datetime.fromtimestamp(timestamp, UTC)`: the years 1 to 9999. -/
def fromTimestamp (timestamp : ℤ) : Except PyException ℤ :=
  if -62135596800000000 ≤ timestamp ∧ timestamp < 253402300800000000 then .ok timestamp
  else .error (.raised (.exception "year is out of range"))

structure ArtifactItem where
  name : Text
  size : ℕ
  downloadUrl : Text
  deriving DecidableEq

structure ArtifactRun where
  runId : Text
  modifiedAt : ℤ
  items : List ArtifactItem
  deriving DecidableEq

section Index

variable (tree : FileTree) (settings : ArtifactSettings)

/-- The loop of `list_artifacts`, at one report. -/
def artifactItem (runDirectory : PurePath) (urlPrefix : Text) (entry : Text × ReportPath) :
    Except PyException (Option ArtifactItem) := do
  let path ← tree.resolveReportPath runDirectory entry.2.path
  if tree.isFile path then
    let name ← tree.validText entry.1
    let downloadUrl ← tree.validText (urlPrefix ++ '/' :: entry.1)
    return some ⟨name, tree.size path, downloadUrl⟩
  else return none

/-- `list_artifacts`. -/
def listArtifacts (runDirectory : PurePath) (urlPrefix : Text) : Except PyException (List ArtifactItem) :=
  (configuredArtifacts settings).filterMapM (artifactItem tree runDirectory urlPrefix)

/-- The loop of `list_artifact_runs`, at one path. -/
def artifactRun (root path : PurePath) : Except PyException (Option ArtifactRun) := do
  let resolved := tree.resolve path
  if !tree.isDir path || decide (resolved.parent ≠ root) then return none
  let items ← listArtifacts tree settings path ("/v1/artifact-runs/".toList ++ path.name)
  if items = [] then return none
  let modifiedAt ← fromTimestamp (tree.mtime path)
  let runId ← tree.validText path.name
  return some ⟨runId, modifiedAt, items⟩

/-- `list_artifact_runs`. -/
def listArtifactRuns : Except PyException (List ArtifactRun) := do
  let root := tree.resolve settings.artifactsDirectory
  let names ← tree.iterdir settings.artifactsDirectory
  let runs ← names.filterMapM fun name => artifactRun tree settings root (settings.artifactsDirectory.child name)
  return runs.insertionSort fun a b => b.modifiedAt ≤ a.modifiedAt

end Index

/-! ## One run -/

/-- The names of the configured reports, in their order. -/
theorem configuredArtifacts_sublist (settings : ArtifactSettings) :
    ((configuredArtifacts settings).map Prod.fst).Sublist
      ["pytest.log".toList, "junit.xml".toList, "report.html".toList] := by
  refine map_filterMap_sublist (k := Prod.fst) fun e e' h => ?_
  obtain ⟨path, -, rfl⟩ := Option.map_eq_some_iff.mp h
  rfl

theorem configuredArtifacts_keys (settings : ArtifactSettings) :
    ((configuredArtifacts settings).map Prod.fst).Nodup :=
  (configuredArtifacts_sublist settings).nodup (by decide)

theorem configuredArtifacts_ascii {settings : ArtifactSettings} {entry : Text × ReportPath}
    (h : entry ∈ configuredArtifacts settings) : ∀ c ∈ entry.1, c.toNat < 128 := by
  have hnames : ∀ name ∈ ["pytest.log".toList, "junit.xml".toList, "report.html".toList],
      ∀ c ∈ name, c.toNat < 128 := by
    simp
  exact hnames entry.1 ((configuredArtifacts_sublist settings).subset (List.mem_map_of_mem h))

section Run

variable {tree : FileTree} {settings : ArtifactSettings}

theorem validText_ok_iff {text out : Text} :
    tree.validText text = .ok out ↔ text.any tree.surrogate = false ∧ out = text := by
  rw [FileTree.validText]
  cases text.any tree.surrogate with
  | true => exact ⟨nofun, nofun⟩
  | false => exact ⟨fun h => ⟨rfl, (Except.ok.inj h).symm⟩, fun h => congrArg Except.ok h.2.symm⟩

theorem any_surrogate_ascii {text : Text} (h : ∀ c ∈ text, c.toNat < 128) : text.any tree.surrogate = false :=
  List.any_eq_false.mpr fun c hc => by
    rw [tree.surrogate_ascii c (h c hc)]
    exact Bool.false_ne_true

theorem any_surrogate_append {text rest : Text} (h : ∀ c ∈ text, c.toNat < 128) :
    (text ++ rest).any tree.surrogate = rest.any tree.surrogate := by
  rw [List.any_append, any_surrogate_ascii h, Bool.false_or]

theorem fromTimestamp_ok_iff {timestamp out : ℤ} :
    fromTimestamp timestamp = .ok out ↔
      (-62135596800000000 ≤ timestamp ∧ timestamp < 253402300800000000) ∧ out = timestamp := by
  rw [fromTimestamp]
  split
  · rename_i h
    exact ⟨fun heq => ⟨h, (Except.ok.inj heq).symm⟩, fun heq => congrArg Except.ok heq.2.symm⟩
  · rename_i h
    exact ⟨nofun, fun heq => absurd heq.1 h⟩

/-- The report file of a resolved directory, as the list and the download resolve it. -/
def FileTree.report (tree : FileTree) (runDirectory : PurePath) (entry : Text × ReportPath) : PurePath :=
  tree.resolve (runDirectory.join entry.2.path)

theorem artifactItem_ok_iff {directory : PurePath} {urlPrefix : Text} {entry : Text × ReportPath}
    (hentry : ∀ c ∈ entry.1, c.toNat < 128) {out : Option ArtifactItem} :
    let path := tree.report (tree.resolve directory) entry
    artifactItem tree directory urlPrefix entry = .ok out ↔
      path.Below (tree.resolve directory) ∧
        (tree.isFile path = true → urlPrefix.any tree.surrogate = false) ∧
        out = if tree.isFile path = true then some ⟨entry.1, tree.size path, urlPrefix ++ '/' :: entry.1⟩
          else none := by
  intro path
  have hname : entry.1.any tree.surrogate = false := any_surrogate_ascii hentry
  have hurl : (urlPrefix ++ '/' :: entry.1).any tree.surrogate = urlPrefix.any tree.surrogate := by
    rw [List.any_append, List.any_cons, hname, tree.surrogate_ascii '/' (by decide), Bool.or_false,
      Bool.or_false]
  rw [artifactItem]
  cases hreport : tree.resolveReportPath directory entry.2.path with
  | error e =>
    constructor
    · nofun
    · rintro ⟨hbelow, -⟩
      rw [resolveReportPath_iff.mpr ⟨rfl, hbelow⟩] at hreport
      cases hreport
  | ok found =>
    obtain ⟨rfl, hbelow⟩ := resolveReportPath_iff.mp hreport
    show (if tree.isFile path then _ else _) = _ ↔ _
    by_cases hfile : tree.isFile path = true
    · rw [if_pos hfile, if_pos hfile, validText_ok_iff.mpr ⟨hname, rfl⟩]
      cases hvalid : tree.validText (urlPrefix ++ '/' :: entry.1) with
      | error e =>
        constructor
        · nofun
        · rintro ⟨-, h, -⟩
          rw [validText_ok_iff.mpr ⟨hurl.trans (h hfile), rfl⟩] at hvalid
          cases hvalid
      | ok url =>
        obtain ⟨hclean, rfl⟩ := validText_ok_iff.mp hvalid
        exact ⟨fun h => ⟨hbelow, fun _ => hurl.symm.trans hclean, (Except.ok.inj h).symm⟩,
          fun h => congrArg Except.ok h.2.2.symm⟩
    · rw [if_neg hfile, if_neg hfile]
      exact ⟨fun h => ⟨hbelow, fun h => absurd h hfile, (Except.ok.inj h).symm⟩,
        fun h => congrArg Except.ok h.2.2.symm⟩

/-- The items of the reports that are files. -/
def FileTree.items (tree : FileTree) (settings : ArtifactSettings) (runDirectory : PurePath) (urlPrefix : Text) :
    List ArtifactItem :=
  (configuredArtifacts settings).filterMap fun entry =>
    let path := tree.report runDirectory entry
    if tree.isFile path = true then some ⟨entry.1, tree.size path, urlPrefix ++ '/' :: entry.1⟩ else none

/-- A run has a report that can be downloaded. -/
def FileTree.HasReport (tree : FileTree) (settings : ArtifactSettings) (runDirectory : PurePath) : Prop :=
  ∃ entry ∈ configuredArtifacts settings, tree.isFile (tree.report runDirectory entry) = true

theorem mem_items {runDirectory : PurePath} {urlPrefix : Text} {item : ArtifactItem} :
    item ∈ tree.items settings runDirectory urlPrefix ↔
      ∃ entry ∈ configuredArtifacts settings, tree.isFile (tree.report runDirectory entry) = true ∧
        ⟨entry.1, tree.size (tree.report runDirectory entry), urlPrefix ++ '/' :: entry.1⟩ = item := by
  simp only [FileTree.items, List.mem_filterMap, Option.ite_none_right_eq_some, Option.some.injEq]

theorem items_ne_nil {runDirectory : PurePath} {urlPrefix : Text} :
    tree.items settings runDirectory urlPrefix ≠ [] ↔ tree.HasReport settings runDirectory := by
  constructor
  · intro h
    obtain ⟨item, hitem⟩ := List.exists_mem_of_ne_nil _ h
    obtain ⟨entry, hentry, hfile, -⟩ := mem_items.mp hitem
    exact ⟨entry, hentry, hfile⟩
  · rintro ⟨entry, hentry, hfile⟩
    exact List.ne_nil_of_mem (mem_items.mpr ⟨entry, hentry, hfile, rfl⟩)

theorem listArtifacts_ok_iff {directory : PurePath} {urlPrefix : Text} {items : List ArtifactItem} :
    let run := tree.resolve directory
    listArtifacts tree settings directory urlPrefix = .ok items ↔
      (∀ entry ∈ configuredArtifacts settings, (tree.report run entry).Below run) ∧
        (tree.HasReport settings run → urlPrefix.any tree.surrogate = false) ∧
        items = tree.items settings run urlPrefix := by
  intro run
  have hok (hinside : ∀ entry ∈ configuredArtifacts settings, (tree.report run entry).Below run)
      (hclean : tree.HasReport settings run → urlPrefix.any tree.surrogate = false) :
      listArtifacts tree settings directory urlPrefix = .ok (tree.items settings run urlPrefix) :=
    filterMapM_of_ok fun entry hentry => (artifactItem_ok_iff (configuredArtifacts_ascii hentry)).mpr
      ⟨hinside entry hentry, fun hfile => hclean ⟨entry, hentry, hfile⟩, rfl⟩
  constructor
  · intro h
    have hall (entry) (hentry : entry ∈ configuredArtifacts settings) :
        (tree.report run entry).Below run ∧
          (tree.isFile (tree.report run entry) = true → urlPrefix.any tree.surrogate = false) := by
      obtain ⟨o, ho⟩ := ok_of_filterMapM h entry hentry
      obtain ⟨hbelow, hclean, -⟩ := (artifactItem_ok_iff (configuredArtifacts_ascii hentry)).mp ho
      exact ⟨hbelow, hclean⟩
    have hinside entry hentry := (hall entry hentry).1
    have hclean : tree.HasReport settings run → urlPrefix.any tree.surrogate = false := by
      rintro ⟨entry, hentry, hfile⟩
      exact (hall entry hentry).2 hfile
    exact ⟨hinside, hclean, Except.ok.inj (h.symm.trans (hok hinside hclean))⟩
  · rintro ⟨hinside, hclean, rfl⟩
    exact hok hinside hclean

end Run

section Entries

variable (tree : FileTree) (settings : ArtifactSettings) (name : Text)

/-- The directory that an entry of the artifacts directory resolves to. -/
def runOf : PurePath := tree.resolve (settings.artifactsDirectory.child name)

/-- The index looks into an entry when it is a directory, and directly in the artifacts directory. -/
def IsRun : Prop :=
  tree.isDir (settings.artifactsDirectory.child name) = true ∧
    (runOf tree settings name).parent = tree.resolve settings.artifactsDirectory

/-- The URL under which the files of an entry are listed. -/
def runUrl : Text := "/v1/artifact-runs/".toList ++ name

variable {tree settings name}

theorem name_child (path : PurePath) (name : Text) : (path.child name).name = name := by
  simp [PurePath.name, PurePath.child]

theorem any_surrogate_runUrl : (runUrl name).any tree.surrogate = name.any tree.surrogate := by
  have hliteral : ∀ c ∈ "/v1/artifact-runs/".toList, c.toNat < 128 := by simp
  exact any_surrogate_append hliteral

theorem artifactRun_of_not_isRun (h : ¬IsRun tree settings name) :
    artifactRun tree settings (tree.resolve settings.artifactsDirectory) (settings.artifactsDirectory.child name)
      = .ok none := by
  rw [artifactRun]
  refine if_pos ?_
  rw [Bool.or_eq_true, Bool.not_eq_true', decide_eq_true_eq, ← Bool.not_eq_true]
  exact Classical.not_and_iff_not_or_not.mp h

theorem artifactRun_ok_iff (h : IsRun tree settings name) {out : Option ArtifactRun} :
    let run := runOf tree settings name
    let path := settings.artifactsDirectory.child name
    artifactRun tree settings (tree.resolve settings.artifactsDirectory) path = .ok out ↔
      (∀ entry ∈ configuredArtifacts settings, (tree.report run entry).Below run) ∧
        (tree.HasReport settings run → name.any tree.surrogate = false ∧
          -62135596800000000 ≤ tree.mtime path ∧ tree.mtime path < 253402300800000000) ∧
        out = if tree.items settings run (runUrl name) = [] then none
          else some ⟨name, tree.mtime path, tree.items settings run (runUrl name)⟩ := by
  intro run path
  have hrun : (!tree.isDir path || decide ((tree.resolve path).parent ≠ tree.resolve settings.artifactsDirectory))
      = false := by
    rw [Bool.or_eq_false_iff, Bool.not_eq_false', decide_eq_false_iff_not, not_not]
    exact h
  have hbody : artifactRun tree settings (tree.resolve settings.artifactsDirectory) path
      = (listArtifacts tree settings path (runUrl name) >>= fun items =>
          if items = [] then .ok none
          else fromTimestamp (tree.mtime path) >>= fun modifiedAt =>
            tree.validText name >>= fun runId => .ok (some ⟨runId, modifiedAt, items⟩)) := by
    rw [artifactRun, hrun, name_child]
    rfl
  rw [hbody]
  cases hlist : listArtifacts tree settings path (runUrl name) with
  | error e =>
    constructor
    · nofun
    · rintro ⟨hinside, hserved, -⟩
      rw [listArtifacts_ok_iff.mpr ⟨hinside, fun h => any_surrogate_runUrl.trans (hserved h).1, rfl⟩] at hlist
      cases hlist
  | ok items =>
    obtain ⟨hinside, hclean, rfl⟩ := listArtifacts_ok_iff.mp hlist
    show (if tree.items settings run (runUrl name) = [] then _ else _) = _ ↔ _
    by_cases hempty : tree.items settings run (runUrl name) = []
    · rw [if_pos hempty, if_pos hempty]
      have hnone : ¬tree.HasReport settings run := fun h => items_ne_nil.mpr h hempty
      exact ⟨fun h => ⟨hinside, fun h => absurd h hnone, (Except.ok.inj h).symm⟩,
        fun h => congrArg Except.ok h.2.2.symm⟩
    · rw [if_neg hempty, if_neg hempty]
      have hreport : tree.HasReport settings run := items_ne_nil.mp hempty
      have hname : name.any tree.surrogate = false := any_surrogate_runUrl.symm.trans (hclean hreport)
      rw [validText_ok_iff.mpr ⟨hname, rfl⟩]
      cases htime : fromTimestamp (tree.mtime path) with
      | error e =>
        constructor
        · nofun
        · rintro ⟨-, hserved, -⟩
          rw [fromTimestamp_ok_iff.mpr ⟨(hserved hreport).2, rfl⟩] at htime
          cases htime
      | ok modifiedAt =>
        obtain ⟨hrange, rfl⟩ := fromTimestamp_ok_iff.mp htime
        exact ⟨fun h => ⟨hinside, fun _ => ⟨hname, hrange⟩, (Except.ok.inj h).symm⟩,
          fun h => congrArg Except.ok h.2.2.symm⟩

end Entries

/-! ## The index and the downloads -/

/-- `runs` lists the file `name` of the run `runId`. -/
def Listed (runs : List ArtifactRun) (runId name : Text) : Prop :=
  ∃ run ∈ runs, run.runId = runId ∧ ∃ item ∈ run.items, item.name = name

/-- `resolve_run_directory`, followed by `resolve_artifact`, returns a file. -/
def Downloadable (files : FileSystem) (settings : ArtifactSettings) (runId name : Text) : Prop :=
  ∃ runDirectory path, resolveRunDirectory files settings.artifactsDirectory runId = some runDirectory ∧
    resolveArtifact files settings runDirectory name = .ok (some path)

/-- A segment of the path of a URL, as the routes take their parameters. -/
def IsSegment (text : Text) : Prop := text ≠ [] ∧ '/' ∉ text

/-- An index that agrees with the downloads. -/
structure FaithfulIndex (tree : FileTree) (settings : ArtifactSettings) (runs : List ArtifactRun) : Prop where
  downloadable : ∀ runId name, Listed runs runId name → Downloadable tree.toFileSystem settings runId name
  listed : ∀ runId name, IsSegment runId → Downloadable tree.toFileSystem settings runId name →
    Listed runs runId name
  once : (runs.map ArtifactRun.runId).Nodup
  newestFirst : runs.Pairwise fun a b => b.modifiedAt ≤ a.modifiedAt

/-- The index is returned, and agrees with the downloads. -/
def IndexAgrees (tree : FileTree) (settings : ArtifactSettings) : Prop :=
  ∃ runs, listArtifactRuns tree settings = .ok runs ∧ FaithfulIndex tree settings runs

/-- What the index needs of an entry of the artifacts directory.  The last two fields fail only where the
system and `Path.resolve` follow a link differently. -/
structure Regular (tree : FileTree) (settings : ArtifactSettings) (name : Text) : Prop where
  /-- Every configured report of a run resolves to strictly below the run. -/
  inside : IsRun tree settings name → ∀ entry ∈ configuredArtifacts settings,
    (tree.report (runOf tree settings name) entry).Below (runOf tree settings name)
  /-- The name and the time of a run with a report can be given. -/
  given : IsRun tree settings name → tree.HasReport settings (runOf tree settings name) →
    name.any tree.surrogate = false ∧ -62135596800000000 ≤ tree.mtime (settings.artifactsDirectory.child name) ∧
      tree.mtime (settings.artifactsDirectory.child name) < 253402300800000000
  resolved : IsRun tree settings name → tree.HasReport settings (runOf tree settings name) →
    tree.isDir (runOf tree settings name) = true
  seen : (runOf tree settings name).parent = tree.resolve settings.artifactsDirectory →
    tree.isDir (runOf tree settings name) = true → ∀ entry ∈ configuredArtifacts settings,
    (tree.report (runOf tree settings name) entry).Below (runOf tree settings name) →
    tree.isFile (tree.report (runOf tree settings name) entry) = true →
    tree.isDir (settings.artifactsDirectory.child name) = true

section Agreement

variable {tree : FileTree} {settings : ArtifactSettings} {runId name : Text}

theorem downloadable_iff :
    let root := tree.resolve settings.artifactsDirectory
    let run := tree.resolve (root.join (.ofText runId))
    Downloadable tree.toFileSystem settings runId name ↔
      run.parent = root ∧ tree.isDir run = true ∧ ∃ entry ∈ configuredArtifacts settings, entry.1 = name ∧
        (tree.report run entry).Below run ∧ tree.isFile (tree.report run entry) = true := by
  intro root run
  have hrun : tree.resolve run = run := tree.canonical.resolved _
  constructor
  · rintro ⟨runDirectory, path, hdirectory, hpath⟩
    obtain ⟨rfl, hparent, hdir⟩ := resolveRunDirectory_iff.mp hdirectory
    obtain ⟨relativePath, hlookup, rfl, hbelow, hfile⟩ := resolveArtifact_iff.mp hpath
    rw [show tree.resolve (tree.resolve _) = run from hrun] at hbelow hfile
    exact ⟨hparent, hdir, (name, relativePath), mem_of_lookup hlookup, rfl, hbelow, hfile⟩
  · rintro ⟨hparent, hdir, entry, hentry, rfl, hbelow, hfile⟩
    refine ⟨run, tree.report run entry, resolveRunDirectory_iff.mpr ⟨rfl, hparent, hdir⟩,
      resolveArtifact_iff.mpr ⟨entry.2, lookup_of_mem (configuredArtifacts_keys settings) hentry, ?_, ?_, hfile⟩⟩
    · rw [hrun]
      rfl
    · rw [hrun]
      exact hbelow

/-- The run of a request is the run of the entry with that name. -/
theorem resolve_join_ofText (h : IsName runId) :
    tree.resolve ((tree.resolve settings.artifactsDirectory).join (.ofText runId))
      = runOf tree settings runId := by
  rw [PurePath.ofText_name h.1 h.2.1 h.2.2.1]
  exact (tree.resolve_child _ _).symm

/-- `.` and `..` lead to a child of the root in the root of the file system only, and there to itself. -/
theorem resolve_join_dots (hsegment : IsSegment runId) (hname : ¬IsName runId) :
    let root := tree.resolve settings.artifactsDirectory
    let run := tree.resolve (root.join (.ofText runId))
    run.parent = root → root.parts = [] ∧ run = root := by
  intro root run hparent
  have hroot : tree.resolve root = root := tree.canonical.resolved _
  have hdots : runId = ".".toList ∨ runId = "..".toList := by
    by_contra h
    rw [not_or] at h
    exact hname ⟨hsegment.1, hsegment.2, h.1, h.2⟩
  rcases hdots with rfl | rfl
  · have hrun : run = root := by
      have hjoin : root.join (.ofText ".".toList) = root :=
        congrArg (PurePath.mk root.absolute) (List.append_nil _)
      rw [show run = tree.resolve (root.join (.ofText ".".toList)) from rfl, hjoin, hroot]
    rw [hrun] at hparent
    exact ⟨parts_nil_of_parent hparent, hrun⟩
  · have hrun : run = root.parent := by
      have h := tree.resolve_parent root
      rw [hroot] at h
      exact h
    have hparts : root.parts.dropLast.dropLast = root.parts := by
      rw [hrun] at hparent
      exact congrArg PurePath.parts hparent
    have hempty : root.parts = [] := List.eq_nil_of_length_eq_zero (by
      have hlength := congrArg List.length hparts
      rw [List.length_dropLast, List.length_dropLast] at hlength
      omega)
    exact ⟨hempty, hrun.trans (parent_of_parts_nil hempty)⟩

/-- What the index gives for an entry. -/
def entryRun (tree : FileTree) (settings : ArtifactSettings) (name : Text) : ArtifactRun where
  runId := name
  modifiedAt := tree.mtime (settings.artifactsDirectory.child name)
  items := tree.items settings (runOf tree settings name) (runUrl name)

theorem listArtifactRuns_ok_iff {runs : List ArtifactRun} :
    let entry name := artifactRun tree settings (tree.resolve settings.artifactsDirectory)
      (settings.artifactsDirectory.child name)
    listArtifactRuns tree settings = .ok runs ↔
      ∃ names, tree.iterdir settings.artifactsDirectory = .ok names ∧ (∀ name ∈ names, ∃ o, entry name = .ok o) ∧
        runs = (names.filterMap fun name => (entry name).toOption.join).insertionSort
          fun a b => b.modifiedAt ≤ a.modifiedAt := by
  intro entry
  rw [listArtifactRuns]
  cases hnames : tree.iterdir settings.artifactsDirectory with
  | error e =>
    constructor
    · nofun
    · rintro ⟨names, ⟨⟩, -⟩
  | ok names =>
    show (names.filterMapM entry >>= fun runs => .ok (runs.insertionSort _)) = _ ↔ _
    constructor
    · intro h
      cases hloop : names.filterMapM entry with
      | error e =>
        rw [hloop] at h
        cases h
      | ok out =>
        rw [hloop] at h
        cases h
        obtain ⟨hall, rfl⟩ := filterMapM_eq_ok_iff.mp hloop
        exact ⟨names, rfl, hall, rfl⟩
    · rintro ⟨_, ⟨⟩, hall, rfl⟩
      rw [filterMapM_eq_ok_iff.mpr ⟨hall, rfl⟩]
      rfl

/-- The loop gives an entry that is a run with a report, and no other. -/
theorem artifactRun_some_iff {run : ArtifactRun} {out : Option ArtifactRun}
    (h : artifactRun tree settings (tree.resolve settings.artifactsDirectory)
      (settings.artifactsDirectory.child name) = .ok out) :
    out = some run ↔
      IsRun tree settings name ∧ tree.HasReport settings (runOf tree settings name) ∧
        run = entryRun tree settings name := by
  by_cases hrun : IsRun tree settings name
  · obtain ⟨-, -, rfl⟩ := (artifactRun_ok_iff hrun).mp h
    by_cases hempty : tree.items settings (runOf tree settings name) (runUrl name) = []
    · rw [if_pos hempty]
      exact ⟨nofun, fun h => absurd hempty (items_ne_nil.mpr h.2.1)⟩
    · rw [if_neg hempty]
      exact ⟨fun h => ⟨hrun, items_ne_nil.mp hempty, (Option.some.inj h).symm⟩,
        fun h => congrArg some h.2.2.symm⟩
  · rw [artifactRun_of_not_isRun hrun] at h
    cases h
    exact ⟨nofun, fun h => absurd h.1 hrun⟩

theorem artifactRun_ok_iff_regular :
    (∃ out, artifactRun tree settings (tree.resolve settings.artifactsDirectory)
        (settings.artifactsDirectory.child name) = .ok out) ↔
      (IsRun tree settings name → (∀ entry ∈ configuredArtifacts settings,
          (tree.report (runOf tree settings name) entry).Below (runOf tree settings name)) ∧
        (tree.HasReport settings (runOf tree settings name) → name.any tree.surrogate = false ∧
          -62135596800000000 ≤ tree.mtime (settings.artifactsDirectory.child name) ∧
          tree.mtime (settings.artifactsDirectory.child name) < 253402300800000000)) := by
  constructor
  · rintro ⟨out, h⟩ hrun
    obtain ⟨hinside, hgiven, -⟩ := (artifactRun_ok_iff hrun).mp h
    exact ⟨hinside, hgiven⟩
  · intro h
    by_cases hrun : IsRun tree settings name
    · exact ⟨_, (artifactRun_ok_iff hrun).mpr ⟨(h hrun).1, (h hrun).2, rfl⟩⟩
    · exact ⟨none, artifactRun_of_not_isRun hrun⟩

theorem mem_listArtifactRuns {runs : List ArtifactRun} {names : List Text}
    (h : listArtifactRuns tree settings = .ok runs)
    (hnames : tree.iterdir settings.artifactsDirectory = .ok names) {run : ArtifactRun} :
    run ∈ runs ↔ ∃ name ∈ names, IsRun tree settings name ∧ tree.HasReport settings (runOf tree settings name) ∧
      run = entryRun tree settings name := by
  obtain ⟨_, hnames', hall, rfl⟩ := listArtifactRuns_ok_iff.mp h
  obtain rfl := Except.ok.inj (hnames.symm.trans hnames')
  rw [List.mem_insertionSort, List.mem_filterMap]
  refine exists_congr fun name => and_congr_right fun hname => ?_
  obtain ⟨out, hout⟩ := hall name hname
  rw [hout]
  exact artifactRun_some_iff hout

/-- **Each run once.** -/
theorem nodup_listArtifactRuns {runs : List ArtifactRun} (h : listArtifactRuns tree settings = .ok runs) :
    (runs.map ArtifactRun.runId).Nodup := by
  obtain ⟨names, hnames, -, rfl⟩ := listArtifactRuns_ok_iff.mp h
  have hid (name : Text) (run : ArtifactRun)
      (hrun : (artifactRun tree settings (tree.resolve settings.artifactsDirectory)
        (settings.artifactsDirectory.child name)).toOption.join = some run) : run.runId = id name := by
    cases hentry : artifactRun tree settings (tree.resolve settings.artifactsDirectory)
        (settings.artifactsDirectory.child name) with
    | error e =>
      rw [hentry] at hrun
      cases hrun
    | ok out =>
      rw [hentry] at hrun
      obtain ⟨-, -, rfl⟩ := (artifactRun_some_iff hentry).mp hrun
      rfl
  rw [((List.perm_insertionSort _ _).map _).nodup_iff]
  apply (map_filterMap_sublist hid).nodup
  rw [List.map_id]
  exact (tree.iterdir_names _ _ hnames).1

/-- **The newest first.** -/
theorem pairwise_listArtifactRuns {runs : List ArtifactRun} (h : listArtifactRuns tree settings = .ok runs) :
    runs.Pairwise fun a b => b.modifiedAt ≤ a.modifiedAt := by
  obtain ⟨names, -, -, rfl⟩ := listArtifactRuns_ok_iff.mp h
  have : Std.Total fun a b : ArtifactRun => b.modifiedAt ≤ a.modifiedAt := ⟨fun a b => le_total _ _⟩
  have : IsTrans ArtifactRun fun a b => b.modifiedAt ≤ a.modifiedAt := ⟨fun a b c hab hbc => hbc.trans hab⟩
  exact List.pairwise_insertionSort _ _

/-- A report in the root of the file system, which is the artifacts directory: the run `.` can be
downloaded, and is no entry. -/
def RootReport (tree : FileTree) (settings : ArtifactSettings) : Prop :=
  let root := tree.resolve settings.artifactsDirectory
  root.parts = [] ∧ tree.isDir root = true ∧ ∃ entry ∈ configuredArtifacts settings,
    (tree.report root entry).Below root ∧ tree.isFile (tree.report root entry) = true

section Faithful

variable {runs : List ArtifactRun} {names : List Text} (hruns : listArtifactRuns tree settings = .ok runs)
  (hnames : tree.iterdir settings.artifactsDirectory = .ok names)
include hruns hnames

/-- Where the index agrees with the downloads, the entries are regular. -/
theorem regular_of_faithful (hfaithful : FaithfulIndex tree settings runs) :
    ∀ name ∈ names, Regular tree settings name := by
  intro name hmem
  have hname := (tree.iterdir_names _ _ hnames).2 name hmem
  obtain ⟨_, hnames', hall, -⟩ := listArtifactRuns_ok_iff.mp hruns
  obtain rfl := Except.ok.inj (hnames.symm.trans hnames')
  have hregular := artifactRun_ok_iff_regular.mp (hall name hmem)
  refine ⟨fun hrun => (hregular hrun).1, fun hrun => (hregular hrun).2, fun hrun hreport => ?_,
    fun hparent hdir entry hentry hbelow hfile => ?_⟩
  · -- the run is listed with one of its files, and so that file is found
    have hlisted := (mem_listArtifactRuns hruns hnames).mpr ⟨name, hmem, hrun, hreport, rfl⟩
    obtain ⟨entry, hentry, hfile⟩ := hreport
    have hitem : Listed runs name entry.1 :=
      ⟨_, hlisted, rfl, _, mem_items.mpr ⟨entry, hentry, hfile, rfl⟩, rfl⟩
    obtain ⟨-, hdir, -⟩ := downloadable_iff.mp (hfaithful.downloadable _ _ hitem)
    rw [resolve_join_ofText hname] at hdir
    exact hdir
  · have hfound : Downloadable tree.toFileSystem settings name entry.1 := by
      refine downloadable_iff.mpr ?_
      rw [resolve_join_ofText hname]
      exact ⟨hparent, hdir, entry, hentry, rfl, hbelow, hfile⟩
    obtain ⟨run, hlisted, hid, -⟩ := hfaithful.listed _ _ ⟨hname.1, hname.2.1⟩ hfound
    obtain ⟨name', -, hrun, -, rfl⟩ := (mem_listArtifactRuns hruns hnames).mp hlisted
    obtain rfl : name' = name := hid
    exact hrun.1

theorem not_rootReport_of_faithful (hfaithful : FaithfulIndex tree settings runs) : ¬RootReport tree settings := by
  rintro ⟨hparts, hdir, entry, hentry, hbelow, hfile⟩
  have hdot : tree.resolve ((tree.resolve settings.artifactsDirectory).join (.ofText ".".toList))
      = tree.resolve settings.artifactsDirectory := by
    have hjoin : (tree.resolve settings.artifactsDirectory).join (.ofText ".".toList)
        = tree.resolve settings.artifactsDirectory := congrArg (PurePath.mk _) (List.append_nil _)
    rw [hjoin]
    exact tree.canonical.resolved _
  have hfound : Downloadable tree.toFileSystem settings ".".toList entry.1 := by
    refine downloadable_iff.mpr ?_
    rw [hdot]
    exact ⟨parent_of_parts_nil hparts, hdir, entry, hentry, rfl, hbelow, hfile⟩
  obtain ⟨run, hlisted, hid, -⟩ := hfaithful.listed _ _ ⟨by decide, by decide⟩ hfound
  obtain ⟨name, hmem, -, -, rfl⟩ := (mem_listArtifactRuns hruns hnames).mp hlisted
  exact ((tree.iterdir_names _ _ hnames).2 name hmem).2.2.1 hid

/-- An index of regular entries agrees with the downloads. -/
theorem faithful_of_regular (hregular : ∀ name ∈ names, Regular tree settings name)
    (hroot : ¬RootReport tree settings) : FaithfulIndex tree settings runs := by
  have hname := (tree.iterdir_names _ _ hnames).2
  refine ⟨?_, ?_, nodup_listArtifactRuns hruns, pairwise_listArtifactRuns hruns⟩
  · rintro runId file ⟨run, hmem, rfl, item, hitem, rfl⟩
    obtain ⟨name, hmem', hrun, hreport, rfl⟩ := (mem_listArtifactRuns hruns hnames).mp hmem
    obtain ⟨entry, hentry, hfile, rfl⟩ := mem_items.mp hitem
    refine downloadable_iff.mpr ?_
    rw [show (entryRun tree settings name).runId = name from rfl, resolve_join_ofText (hname name hmem')]
    exact ⟨hrun.2, (hregular name hmem').resolved hrun hreport, entry, hentry, rfl,
      (hregular name hmem').inside hrun entry hentry, hfile⟩
  · intro runId file hsegment hfound
    obtain ⟨hparent, hdir, entry, hentry, rfl, hbelow, hfile⟩ := downloadable_iff.mp hfound
    by_cases hisName : IsName runId
    · rw [resolve_join_ofText hisName] at hparent hdir hbelow hfile
      have hmem : runId ∈ names := tree.iterdir_complete _ _ _ hnames hisName hdir
      have hrun : IsRun tree settings runId :=
        ⟨(hregular runId hmem).seen hparent hdir entry hentry hbelow hfile, hparent⟩
      exact ⟨_, (mem_listArtifactRuns hruns hnames).mpr ⟨runId, hmem, hrun, ⟨entry, hentry, hfile⟩, rfl⟩, rfl,
        _, mem_items.mpr ⟨entry, hentry, hfile, rfl⟩, rfl⟩
    · obtain ⟨hparts, hsame⟩ := resolve_join_dots hsegment hisName hparent
      rw [hsame] at hdir hbelow hfile
      exact absurd ⟨hparts, hdir, entry, hentry, hbelow, hfile⟩ hroot

end Faithful

end Agreement

/-! ## Files with a link -/

/-- Directories and files below `/`, and one link: its path and what it leads to. -/
structure Layout where
  directories : List (List Text)
  regular : List (List Text)
  link : List Text
  target : List Text
  mtime : Text → ℤ
  outside : ¬link <+: target
  plain : "..".toList ∉ target
  nodup : (directories ++ regular ++ [link]).Nodup
  names : ∀ node ∈ directories ++ regular ++ [link], node ≠ [] → IsName (node.getLastD [])

namespace Layout

variable (layout : Layout)

def nodes : List (List Text) := layout.directories ++ layout.regular ++ [layout.link]

/-- One part of a path more. -/
def follow (kept : List Text) (part : Text) : List Text :=
  if part = "..".toList then kept.dropLast
  else if kept ++ [part] = layout.link then layout.target
  else kept ++ [part]

def walk (parts : List Text) : List Text := parts.foldl layout.follow []

theorem walk_concat (parts : List Text) (part : Text) :
    layout.walk (parts ++ [part]) = layout.follow (layout.walk parts) part := by
  rw [walk, List.foldl_append]
  rfl

/-- What is walked has no `..`, and does not go through the link. -/
theorem walk_plain (parts : List Text) :
    "..".toList ∉ layout.walk parts ∧ ¬layout.link <+: layout.walk parts := by
  induction parts using List.reverseRecOn with
  | nil =>
    refine ⟨List.not_mem_nil, fun h => layout.outside ?_⟩
    rw [List.prefix_nil.mp h]
    exact List.nil_prefix
  | append_singleton parts part ih =>
    rw [walk_concat, follow]
    split
    · exact ⟨fun h => ih.1 (List.mem_of_mem_dropLast h), fun h => ih.2 (h.trans (List.dropLast_prefix _))⟩
    · rename_i hpart
      split
      · exact ⟨layout.plain, layout.outside⟩
      · rename_i hlink
        constructor
        · rw [List.mem_append, List.mem_singleton, not_or]
          exact ⟨ih.1, Ne.symm hpart⟩
        · intro h
          rcases List.prefix_concat_iff.mp h with heq | hprefix
          · exact hlink heq.symm
          · exact ih.2 hprefix

theorem walk_of_plain {parts : List Text} (hdots : "..".toList ∉ parts) (hlink : ¬layout.link <+: parts) :
    layout.walk parts = parts := by
  induction parts using List.reverseRecOn with
  | nil => rfl
  | append_singleton parts part ih =>
    rw [List.mem_append, List.mem_singleton, not_or] at hdots
    rw [walk_concat, ih hdots.1 fun h => hlink (h.trans (List.prefix_append _ _)), follow,
      if_neg (Ne.symm hdots.2), if_neg]
    rintro heq
    exact hlink (heq ▸ List.prefix_rfl)

theorem walk_walk (parts : List Text) : layout.walk (layout.walk parts) = layout.walk parts :=
  layout.walk_of_plain (layout.walk_plain parts).1 (layout.walk_plain parts).2

/-- The names of the nodes in a directory. -/
def entries (parts : List Text) : List Text :=
  (layout.nodes.filter fun node => decide (node ≠ [] ∧ node.dropLast = parts)).map fun node => node.getLastD []

theorem eq_concat {node : List Text} (h : node ≠ []) : node = node.dropLast ++ [node.getLastD []] := by
  rw [List.getLastD_eq_getLast?, List.getLast?_eq_getLast_of_ne_nil h]
  exact (List.dropLast_append_getLast h).symm

theorem mem_entries {parts : List Text} {name : Text} :
    name ∈ layout.entries parts ↔ parts ++ [name] ∈ layout.nodes := by
  rw [entries, List.mem_map]
  constructor
  · rintro ⟨node, hmem, rfl⟩
    obtain ⟨hnode, hparts⟩ := List.mem_filter.mp hmem
    obtain ⟨hne, rfl⟩ := of_decide_eq_true hparts
    rw [← eq_concat hne]
    exact hnode
  · intro h
    refine ⟨parts ++ [name], List.mem_filter.mpr ⟨h, ?_⟩, ?_⟩
    · simp
    · simp

theorem nodup_entries (parts : List Text) : (layout.entries parts).Nodup := by
  refine List.Nodup.map_on ?_ (layout.nodup.filter _)
  intro node hnode node' hnode' heq
  obtain ⟨hne, hparts⟩ := of_decide_eq_true (List.mem_filter.mp hnode).2
  obtain ⟨hne', hparts'⟩ := of_decide_eq_true (List.mem_filter.mp hnode').2
  rw [eq_concat hne, eq_concat hne', hparts, hparts', heq]

theorem isName_of_mem_entries {parts : List Text} {name : Text} (h : name ∈ layout.entries parts) :
    IsName name := by
  obtain ⟨node, hmem, rfl⟩ := List.mem_map.mp h
  obtain ⟨hnode, hparts⟩ := List.mem_filter.mp hmem
  exact layout.names node hnode (of_decide_eq_true hparts).1

theorem mem_entries_of_walk {parts : List Text} {name : Text} (hname : IsName name)
    (h : layout.walk (parts ++ [name]) ∈ layout.directories) : name ∈ layout.entries (layout.walk parts) := by
  rw [mem_entries, nodes]
  rw [walk_concat, follow, if_neg hname.2.2.2] at h
  split at h
  · rename_i hlink
    rw [hlink]
    exact List.mem_append_right _ (List.mem_singleton_self _)
  · exact List.mem_append_left _ (List.mem_append_left _ h)

def tree : FileTree where
  resolve path := ⟨true, layout.walk path.parts⟩
  isDir path := decide (layout.walk path.parts ∈ layout.directories)
  isFile path := decide (layout.walk path.parts ∈ layout.regular)
  parse _ := none
  iterdir path :=
    if layout.walk path.parts ∈ layout.directories then .ok (layout.entries (layout.walk path.parts))
    else .error (.raised (.exception "No such file or directory"))
  size _ := 0
  mtime path := layout.mtime path.name
  surrogate _ := false
  canonical := ⟨fun _ => rfl, fun path => congrArg (PurePath.mk true) (layout.walk_walk path.parts)⟩
  resolve_child path name := by
    refine congrArg (PurePath.mk true) ?_
    show layout.walk (path.parts ++ [name]) = layout.walk (layout.walk path.parts ++ [name])
    rw [walk_concat, walk_concat, walk_walk]
  resolve_parent path := by
    refine congrArg (PurePath.mk true) ?_
    show layout.walk (path.parts ++ ["..".toList]) = (layout.walk path.parts).dropLast
    rw [walk_concat]
    exact if_pos rfl
  iterdir_names path names h := by
    split at h
    · cases h
      exact ⟨layout.nodup_entries _, fun name hname => layout.isName_of_mem_entries hname⟩
    · cases h
  iterdir_complete path names name h hname hdir := by
    split at h
    · cases h
      apply layout.mem_entries_of_walk hname
      rw [← walk_walk]
      exact of_decide_eq_true hdir
    · cases h
  surrogate_ascii _ _ := rfl

end Layout

/-- Two runs; the newer has a log, and the older a link out of its directory in the place of the log. -/
def escapingRuns : Layout where
  directories := [[], ["artifacts"], ["artifacts", "run-1"], ["artifacts", "run-2"]]
  regular := [["artifacts", "run-2", "pytest.log"], ["etc", "passwd"]]
  link := ["artifacts", "run-1", "pytest.log"]
  target := ["etc", "passwd"]
  mtime _ := 0
  outside := by decide +kernel
  plain := by decide +kernel
  nodup := by decide +kernel
  names := by decide +kernel

/-- Two runs with a log each, and a link to the newer. -/
def linkedRuns : Layout where
  directories := [[], ["artifacts"], ["artifacts", "run-1"], ["artifacts", "run-2"]]
  regular := [["artifacts", "run-1", "pytest.log"], ["artifacts", "run-2", "pytest.log"]]
  link := ["artifacts", "latest"]
  target := ["artifacts", "run-2"]
  mtime name := if name = "run-1".toList then 1 else 2
  outside := by decide +kernel
  plain := by decide +kernel
  nodup := by decide +kernel
  names := by decide +kernel

example : (listArtifactRuns linkedRuns.tree (sampleArtifactSettings ⟨true, ["artifacts"]⟩)).map
    (fun runs => runs.map ArtifactRun.runId) = .ok ["run-2", "latest", "run-1"] := by
  decide +kernel

end HardwareTest.Runner
