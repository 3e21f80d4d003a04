import HardwareTest.Lib.JsonFile
import HardwareTest.Lib.Transition
import HardwareTest.Lib.Yaml
import HardwareTest.Python.Float
import HardwareTest.Python.Timestamp
import HardwareTest.Runner.Models

/-!
# The state file

The state of the service is one JSON document, which is written to a second file and renamed into place.

* `modelDump`, `modelValidate` — the fields of a state in a document, and back;
* `step` — one operation of a write on the two files;
* `read`, `perform` — what is read, and calls one after the other, each of which may stop at any operation;
* `state_file_consistent` — what is read is the last state that was written to its end.
-/

namespace HardwareTest.Runner

open HardwareTest.Lib HardwareTest.Python
open HardwareTest.Lib.Json (Str codes Value IsScalar Scalar rawString iterencode encodeChunks encodeUtf8
  decodeStrict)

/-! ## The fields -/

/-- What pydantic does with the values of single fields; `T` are the timestamps. -/
structure Pydantic (T : Type) where
  formatDatetime : T → Str
  validateDatetime : JsonValue → Option T
  validateInt : JsonValue → Option ℤ
  validateStr : JsonValue → Option Str
  format_ascii : ∀ t, ∀ c ∈ formatDatetime t, c ≤ 126
  /-- The ISO 8601 text of a timestamp is read as an equal timestamp. -/
  datetime_format : ∀ t, validateDatetime (.str (formatDatetime t)) = some t
  int_int : ∀ n, validateInt (.int n) = some n
  str_str : ∀ s, validateStr (.str s) = some s

def OperationType.value : OperationType → Str
  | .buildImage => codes "build_image"
  | .pullImage => codes "pull_image"
  | .runTests => codes "run_tests"

def OperationStatus.value : OperationStatus → Str
  | .building => codes "building"
  | .pulling => codes "pulling"
  | .running => codes "running"
  | .succeeded => codes "succeeded"
  | .passed => codes "passed"
  | .failed => codes "failed"
  | .cancelled => codes "cancelled"
  | .timedOut => codes "timed_out"
  | .infrastructureError => codes "infrastructure_error"
  | .interrupted => codes "interrupted"

def ReportStatus.value : ReportStatus → Str
  | .published => codes "published"
  | .failed => codes "failed"

def ReportPortalStatus.value : ReportPortalStatus → Str
  | .finished => codes "finished"
  | .incomplete => codes "incomplete"
  | .unavailable => codes "unavailable"

/-- `OperationState` with all of its fields, as a file holds it.  A string may have surrogates. -/
structure StoredState (T : Type) where
  schemaVersion : ℤ
  operationId : Str
  runId : Option Str
  operationType : OperationType
  status : OperationStatus
  createdAt : T
  startedAt : T
  finishedAt : Option T
  imageReference : Option Str
  imageDigest : Option Str
  stand : Option Str
  scenario : Option Str
  containerName : Option Str
  exitCode : Option ℤ
  artifactDirectory : Option Str
  summary : Option TestSummary
  junitMessage : Option Str
  reportStatus : Option ReportStatus
  reportUrl : Option Str
  reportMessage : Option Str
  reportportalStatus : Option ReportPortalStatus
  reportportalUrl : Option Str
  reportportalMessage : Option Str
  message : Option Str

/-- A value that may be `None`. -/
def orNull {α : Type} (dump : α → JsonValue) : Option α → JsonValue
  | none => .null
  | some a => dump a

def TestSummary.modelDump (summary : TestSummary) : JsonValue :=
  .dict [(codes "total", .int summary.total), (codes "passed", .int summary.passed),
    (codes "failed", .int summary.failed), (codes "errors", .int summary.errors),
    (codes "skipped", .int summary.skipped)]

section Fields

variable {T : Type} (py : Pydantic T)

/-- `state.model_dump(mode="json")`. -/
def modelDump (s : StoredState T) : List (Str × JsonValue) :=
  [(codes "schema_version", .int s.schemaVersion),
    (codes "operation_id", .str s.operationId),
    (codes "run_id", orNull .str s.runId),
    (codes "operation_type", .str s.operationType.value),
    (codes "status", .str s.status.value),
    (codes "created_at", .str (py.formatDatetime s.createdAt)),
    (codes "started_at", .str (py.formatDatetime s.startedAt)),
    (codes "finished_at", orNull (fun t => .str (py.formatDatetime t)) s.finishedAt),
    (codes "image_reference", orNull .str s.imageReference),
    (codes "image_digest", orNull .str s.imageDigest),
    (codes "stand", orNull .str s.stand),
    (codes "scenario", orNull .str s.scenario),
    (codes "container_name", orNull .str s.containerName),
    (codes "exit_code", orNull .int s.exitCode),
    (codes "artifact_directory", orNull .str s.artifactDirectory),
    (codes "summary", orNull TestSummary.modelDump s.summary),
    (codes "junit_message", orNull .str s.junitMessage),
    (codes "report_status", orNull (fun r => .str r.value) s.reportStatus),
    (codes "report_url", orNull .str s.reportUrl),
    (codes "report_message", orNull .str s.reportMessage),
    (codes "reportportal_status", orNull (fun r => .str r.value) s.reportportalStatus),
    (codes "reportportal_url", orNull .str s.reportportalUrl),
    (codes "reportportal_message", orNull .str s.reportportalMessage),
    (codes "message", orNull .str s.message)]

def fieldNames : List Str :=
  ["schema_version", "operation_id", "run_id", "operation_type", "status", "created_at", "started_at",
    "finished_at", "image_reference", "image_digest", "stand", "scenario", "container_name", "exit_code",
    "artifact_directory", "summary", "junit_message", "report_status", "report_url", "report_message",
    "reportportal_status", "reportportal_url", "reportportal_message", "message"].map codes

/-- A field of a model; without a default it is required. -/
def field {α : Type} (ms : List (Str × JsonValue)) (name : String) (default : Option α)
    (validate : JsonValue → Option α) : Option α :=
  match get ms (codes name) with
  | none => default
  | some v => validate v

def nullable {α : Type} (validate : JsonValue → Option α) : JsonValue → Option (Option α)
  | .null => some none
  | v => (validate v).map some

/-- A member of an enumeration, by its value. -/
def member {α : Type} (members : List α) (value : α → Str) : JsonValue → Option α
  | .str s => members.find? fun a => decide (value a = s)
  | _ => none

def TestSummary.modelValidate : JsonValue → Option TestSummary
  | .dict ms => do
    let total ← field ms "total" (some 0) py.validateInt
    let passed ← field ms "passed" (some 0) py.validateInt
    let failed ← field ms "failed" (some 0) py.validateInt
    let errors ← field ms "errors" (some 0) py.validateInt
    let skipped ← field ms "skipped" (some 0) py.validateInt
    return ⟨total, passed, failed, errors, skipped⟩
  | _ => none

/-- `OperationState.model_validate`, which forbids other fields; `none` is the `ValidationError`. -/
def modelValidate : JsonValue → Option (StoredState T)
  | .dict ms =>
    if ∀ m ∈ ms, m.1 ∈ fieldNames then do
      let schemaVersion ← field ms "schema_version" (some 1) py.validateInt
      let operationId ← field ms "operation_id" none py.validateStr
      let runId ← field ms "run_id" (some none) (nullable py.validateStr)
      let operationType ← field ms "operation_type" none
        (member [.buildImage, .pullImage, .runTests] OperationType.value)
      let status ← field ms "status" none
        (member [.building, .pulling, .running, .succeeded, .passed, .failed, .cancelled, .timedOut,
          .infrastructureError, .interrupted] OperationStatus.value)
      let createdAt ← field ms "created_at" none py.validateDatetime
      let startedAt ← field ms "started_at" none py.validateDatetime
      let finishedAt ← field ms "finished_at" (some none) (nullable py.validateDatetime)
      let imageReference ← field ms "image_reference" (some none) (nullable py.validateStr)
      let imageDigest ← field ms "image_digest" (some none) (nullable py.validateStr)
      let stand ← field ms "stand" (some none) (nullable py.validateStr)
      let scenario ← field ms "scenario" (some none) (nullable py.validateStr)
      let containerName ← field ms "container_name" (some none) (nullable py.validateStr)
      let exitCode ← field ms "exit_code" (some none) (nullable py.validateInt)
      let artifactDirectory ← field ms "artifact_directory" (some none) (nullable py.validateStr)
      let summary ← field ms "summary" (some none) (nullable (TestSummary.modelValidate py))
      let junitMessage ← field ms "junit_message" (some none) (nullable py.validateStr)
      let reportStatus ← field ms "report_status" (some none)
        (nullable (member [.published, .failed] ReportStatus.value))
      let reportUrl ← field ms "report_url" (some none) (nullable py.validateStr)
      let reportMessage ← field ms "report_message" (some none) (nullable py.validateStr)
      let reportportalStatus ← field ms "reportportal_status" (some none)
        (nullable (member [.finished, .incomplete, .unavailable] ReportPortalStatus.value))
      let reportportalUrl ← field ms "reportportal_url" (some none) (nullable py.validateStr)
      let reportportalMessage ← field ms "reportportal_message" (some none) (nullable py.validateStr)
      let message ← field ms "message" (some none) (nullable py.validateStr)
      return {
        schemaVersion, operationId, runId, operationType, status, createdAt, startedAt, finishedAt,
        imageReference, imageDigest, stand, scenario, containerName, exitCode, artifactDirectory, summary,
        junitMessage, reportStatus, reportUrl, reportMessage, reportportalStatus, reportportalUrl,
        reportportalMessage, message }
    else none
  | _ => none

/-! ## The fields are read back -/

theorem field_of_mem {α : Type} {ms : List (Str × JsonValue)} (hkeys : (ms.map Prod.fst).Nodup) {name : String}
    {v : JsonValue} (h : (codes name, v) ∈ ms) (default : Option α) (validate : JsonValue → Option α) :
    field ms name default validate = validate v := by
  have hget : Python.get ms (codes name) = some v := lookup_of_mem hkeys h
  simp only [field, hget]

theorem nullable_of_ne {α : Type} {validate : JsonValue → Option α} {v : JsonValue} (h : v ≠ .null) :
    nullable validate v = (validate v).map some := by
  rw [nullable]
  exact h

theorem nullable_orNull {α : Type} {dump : α → JsonValue} {validate : JsonValue → Option α}
    (hdump : ∀ a, dump a ≠ .null) (h : ∀ a, validate (dump a) = some a) (o : Option α) :
    nullable validate (orNull dump o) = some o := by
  cases o with
  | none => rfl
  | some a =>
    rw [orNull, nullable_of_ne (hdump a), h a]
    rfl

/-! Every member of an enumeration is found by its value. -/

theorem OperationType.member_value (a : OperationType) :
    member [.buildImage, .pullImage, .runTests] value (.str a.value) = some a := by
  cases a <;> decide +kernel

theorem OperationStatus.member_value (a : OperationStatus) :
    member [.building, .pulling, .running, .succeeded, .passed, .failed, .cancelled, .timedOut,
      .infrastructureError, .interrupted] value (.str a.value) = some a := by
  cases a <;> decide +kernel

theorem ReportStatus.member_value (a : ReportStatus) :
    member [.published, .failed] value (.str a.value) = some a := by
  cases a <;> decide +kernel

theorem ReportPortalStatus.member_value (a : ReportPortalStatus) :
    member [.finished, .incomplete, .unavailable] value (.str a.value) = some a := by
  cases a <;> decide +kernel

theorem TestSummary.modelValidate_modelDump (summary : TestSummary) :
    TestSummary.modelValidate py summary.modelDump = some summary := by
  have hkeys : (["total", "passed", "failed", "errors", "skipped"].map codes).Nodup := by decide +kernel
  have hfield {ms : List (Str × JsonValue)} (hms : summary.modelDump = .dict ms) {name : String} {n : ℤ}
      (hmem : (codes name, Value.int n) ∈ ms) : field ms name (some 0) py.validateInt = some n := by
    cases hms
    refine (field_of_mem ?_ hmem _ _).trans (py.int_int n)
    exact hkeys
  rw [TestSummary.modelDump, TestSummary.modelValidate, hfield rfl (n := summary.total) (by simp),
    hfield rfl (n := summary.passed) (by simp), hfield rfl (n := summary.failed) (by simp),
    hfield rfl (n := summary.errors) (by simp), hfield rfl (n := summary.skipped) (by simp)]
  rfl

theorem modelDump_keys (s : StoredState T) : (modelDump py s).map Prod.fst = fieldNames := rfl

theorem nodup_fieldNames : fieldNames.Nodup := by decide +kernel

/-- **What is dumped is validated**, and gives the same state. -/
theorem modelValidate_modelDump (s : StoredState T) : modelValidate py (.dict (modelDump py s)) = some s := by
  have hextra : ∀ m ∈ modelDump py s, m.1 ∈ fieldNames := fun m hm => by
    rw [← modelDump_keys py s]
    exact List.mem_map_of_mem hm
  have hfield {α : Type} {name : String} {v : JsonValue} {a : α} (default : Option α)
      {validate : JsonValue → Option α} (hmem : (codes name, v) ∈ modelDump py s) (hv : validate v = some a) :
      field (modelDump py s) name default validate = some a := by
    refine (field_of_mem ?_ hmem default validate).trans hv
    rw [modelDump_keys]
    exact nodup_fieldNames
  have hstr {name : String} {o : Option Str} (hmem : (codes name, orNull .str o) ∈ modelDump py s) :
      field (modelDump py s) name (some none) (nullable py.validateStr) = some o :=
    hfield _ hmem (nullable_orNull (fun a => by nofun) py.str_str o)
  rw [modelValidate, if_pos hextra,
    hfield _ (a := s.schemaVersion) (by simp [modelDump]) (py.int_int _),
    hfield _ (a := s.operationId) (by simp [modelDump]) (py.str_str _),
    hstr (o := s.runId) (by simp [modelDump]),
    hfield _ (a := s.operationType) (by simp [modelDump]) s.operationType.member_value,
    hfield _ (a := s.status) (by simp [modelDump]) s.status.member_value,
    hfield _ (a := s.createdAt) (by simp [modelDump]) (py.datetime_format _),
    hfield _ (a := s.startedAt) (by simp [modelDump]) (py.datetime_format _),
    hfield _ (a := s.finishedAt) (by simp [modelDump]) (nullable_orNull (fun a => by nofun) py.datetime_format _),
    hstr (o := s.imageReference) (by simp [modelDump]),
    hstr (o := s.imageDigest) (by simp [modelDump]),
    hstr (o := s.stand) (by simp [modelDump]),
    hstr (o := s.scenario) (by simp [modelDump]),
    hstr (o := s.containerName) (by simp [modelDump]),
    hfield _ (a := s.exitCode) (by simp [modelDump]) (nullable_orNull (fun a => by nofun) py.int_int _),
    hstr (o := s.artifactDirectory) (by simp [modelDump]),
    hfield _ (a := s.summary) (by simp [modelDump])
      (nullable_orNull (fun a => by nofun) (TestSummary.modelValidate_modelDump py) _),
    hstr (o := s.junitMessage) (by simp [modelDump]),
    hfield _ (a := s.reportStatus) (by simp [modelDump])
      (nullable_orNull (fun a => by nofun) ReportStatus.member_value _),
    hstr (o := s.reportUrl) (by simp [modelDump]),
    hstr (o := s.reportMessage) (by simp [modelDump]),
    hfield _ (a := s.reportportalStatus) (by simp [modelDump])
      (nullable_orNull (fun a => by nofun) ReportPortalStatus.member_value _),
    hstr (o := s.reportportalUrl) (by simp [modelDump]),
    hstr (o := s.reportportalMessage) (by simp [modelDump]),
    hstr (o := s.message) (by simp [modelDump])]
  rfl

/-! ## What can be written -/

def TestSummary.integers (summary : TestSummary) : List ℤ :=
  [summary.total, summary.passed, summary.failed, summary.errors, summary.skipped]

def StoredState.integers (s : StoredState T) : List ℤ :=
  s.schemaVersion :: s.exitCode.toList ++ s.summary.toList.flatMap TestSummary.integers

def StoredState.strings (s : StoredState T) : List Str :=
  s.operationId :: [s.runId, s.imageReference, s.imageDigest, s.stand, s.scenario, s.containerName,
    s.artifactDirectory, s.junitMessage, s.reportUrl, s.reportMessage, s.reportportalUrl,
    s.reportportalMessage, s.message].flatMap Option.toList

/-- The integers of a state have at most as many digits as the interpreter writes. -/
def StoredState.Short (s : StoredState T) : Prop := ∀ n ∈ s.integers, n.natAbs < 10 ^ Json.maxStrDigits

/-- No string of a state has a surrogate. -/
def StoredState.NoSurrogates (s : StoredState T) : Prop := ∀ t ∈ s.strings, Scalar t

section Written

variable {p : ℕ → Prop}

theorem writtenMembers_iff (ms : List (Str × JsonValue)) :
    Json.WrittenMembers p ms ↔ ∀ m ∈ ms, (∀ c ∈ rawString m.1, p c) ∧ m.2.Written p := by
  induction ms with
  | nil => exact iff_of_true trivial nofun
  | cons m ms ih =>
    rw [List.forall_mem_cons, ← ih, and_assoc]
    exact Iff.rfl

theorem written_orNull {α : Type} {dump : α → JsonValue} {o : Option α} :
    (orNull dump o).Written p ↔ ∀ a ∈ o.toList, (dump a).Written p := by
  cases o with
  | none => exact iff_of_true trivial nofun
  | some a =>
    show _ ↔ ∀ b ∈ [a], _
    rw [List.forall_mem_singleton]
    exact Iff.rfl

variable (hp : ∀ c, c = 10 ∨ 32 ≤ c ∧ c ≤ 126 → p c)
include hp

theorem written_ascii {t : Str} (h : ∀ c ∈ t, c ≤ 126) : ∀ c ∈ rawString t, p c := fun c hc =>
  hp c (.inr ⟨(Json.mem_rawString hc).1, (Json.mem_rawString hc).2.elim id (h c)⟩)

theorem writtenMembers_of_ascii {ms : List (Str × JsonValue)}
    (hkeys : ∀ key ∈ ms.map Prod.fst, ∀ c ∈ key, c ≤ 126) :
    Json.WrittenMembers p ms ↔ ∀ v ∈ ms.map Prod.snd, v.Written p := by
  rw [writtenMembers_iff, List.forall_mem_map]
  exact forall₂_congr fun m hm => and_iff_right (written_ascii hp (hkeys m.1 (List.mem_map_of_mem hm)))

theorem written_summary (summary : TestSummary) :
    summary.modelDump.Written p ↔ ∀ n ∈ summary.integers, n.natAbs < 10 ^ Json.maxStrDigits := by
  have hkeys : ∀ name ∈ ["total", "passed", "failed", "errors", "skipped"].map codes, ∀ c ∈ name, c ≤ 126 := by
    decide +kernel
  have hvalues : summary.modelDump.Written p ↔
      ∀ v ∈ summary.integers.map (Value.int (F := PyFloat)), v.Written p := writtenMembers_of_ascii hp hkeys
  rw [hvalues, List.forall_mem_map]
  exact Iff.rfl

/-- **What a state is written as**: all of it is, of characters with `p`, exactly when its integers are short
and its strings are written so. -/
theorem written_modelDump (s : StoredState T) :
    (Value.dict (modelDump py s)).Written p ↔ s.Short ∧ ∀ t ∈ s.strings, ∀ c ∈ rawString t, p c := by
  have hkeys : ∀ key ∈ (modelDump py s).map Prod.fst, ∀ c ∈ key, c ≤ 126 := by
    rw [modelDump_keys]
    decide +kernel
  have hdatetime (t : T) : (∀ c ∈ rawString (py.formatDatetime t), p c) ↔ True :=
    iff_true_intro (written_ascii hp (py.format_ascii t))
  have htype (a : OperationType) : (∀ c ∈ rawString a.value, p c) ↔ True :=
    iff_true_intro (written_ascii hp (by cases a <;> decide +kernel))
  have hstatus (a : OperationStatus) : (∀ c ∈ rawString a.value, p c) ↔ True :=
    iff_true_intro (written_ascii hp (by cases a <;> decide +kernel))
  have hreport (a : ReportStatus) : (∀ c ∈ rawString a.value, p c) ↔ True :=
    iff_true_intro (written_ascii hp (by cases a <;> decide +kernel))
  have hportal (a : ReportPortalStatus) : (∀ c ∈ rawString a.value, p c) ↔ True :=
    iff_true_intro (written_ascii hp (by cases a <;> decide +kernel))
  have hstr (t : Str) : (Value.str (F := PyFloat) t).Written p ↔ ∀ c ∈ rawString t, p c := Iff.rfl
  have hint (n : ℤ) : (Value.int (F := PyFloat) n).Written p ↔ n.natAbs < 10 ^ Json.maxStrDigits := Iff.rfl
  refine (writtenMembers_of_ascii hp hkeys).trans ?_
  simp only [modelDump, List.map_cons, List.map_nil, List.forall_mem_cons, written_orNull, hstr, hint,
    written_summary hp, hdatetime, htype, hstatus, hreport, hportal, StoredState.Short, StoredState.integers,
    StoredState.strings, List.flatMap_cons, List.flatMap_nil, List.forall_mem_append, List.cons_append,
    implies_true, true_and, and_true, List.forall_mem_flatMap, List.not_mem_nil, false_imp_iff]
  constructor
  · rintro ⟨hschema, hid, hrun, himage, hdigest, hstand, hscenario, hname, hexit, hdirectory, hsummary, hrest⟩
    exact ⟨⟨hschema, hexit, hsummary⟩, hid, hrun, himage, hdigest, hstand, hscenario, hname, hdirectory, hrest⟩
  · rintro ⟨⟨hschema, hexit, hsummary⟩, hid, hrun, himage, hdigest, hstand, hscenario, hname, hdirectory, hrest⟩
    exact ⟨hschema, hid, hrun, himage, hdigest, hstand, hscenario, hname, hexit, hdirectory, hsummary, hrest⟩

end Written

theorem plain_orNull {α : Type} {dump : α → JsonValue} (h : ∀ a, (dump a).Plain) (o : Option α) :
    (orNull dump o).Plain := by
  cases o with
  | none => trivial
  | some a => exact h a

theorem plainMembers_iff (ms : List (Str × JsonValue)) : Json.PlainMembers ms ↔ ∀ m ∈ ms, m.2.Plain := by
  induction ms with
  | nil => exact iff_of_true trivial nofun
  | cons m ms ih =>
    rw [List.forall_mem_cons, ← ih]
    exact Iff.rfl

theorem plain_modelDump (s : StoredState T) : (Value.dict (modelDump py s)).Plain := by
  have hsummary (summary : TestSummary) : summary.modelDump.Plain := by
    refine ⟨⟨trivial, trivial, trivial, trivial, trivial, trivial⟩, ?_⟩
    show (["total", "passed", "failed", "errors", "skipped"].map codes).Nodup
    decide +kernel
  have hstr (t : Str) : (Value.str (F := PyFloat) t).Plain := trivial
  have hint (n : ℤ) : (Value.int (F := PyFloat) n).Plain := trivial
  constructor
  · rw [plainMembers_iff, modelDump]
    simp only [List.forall_mem_cons, hstr, hint, plain_orNull, hsummary, implies_true, List.not_mem_nil,
      false_imp_iff, and_true]
  · rw [modelDump_keys]
    exact nodup_fieldNames

theorem depthMembers_le {d : ℕ} {ms : List (Str × JsonValue)} (h : ∀ m ∈ ms, m.2.depth ≤ d) :
    Json.depthMembers ms ≤ d := by
  induction ms with
  | nil => exact Nat.zero_le d
  | cons m ms ih =>
    obtain ⟨hm, hms⟩ := List.forall_mem_cons.mp h
    exact max_le hm (ih hms)

theorem depth_orNull {α : Type} {dump : α → JsonValue} (h : ∀ a, (dump a).depth ≤ 1) (o : Option α) :
    (orNull dump o).depth ≤ 1 := by
  cases o with
  | none => exact Nat.zero_le 1
  | some a => exact h a

/-- The objects of a state are nested once. -/
theorem depth_modelDump (s : StoredState T) : (Value.dict (modelDump py s)).depth ≤ 2 := by
  have hstr (t : Str) : (Value.str (F := PyFloat) t).depth ≤ 1 := Nat.zero_le 1
  have hint (n : ℤ) : (Value.int (F := PyFloat) n).depth ≤ 1 := Nat.zero_le 1
  have hsummary (summary : TestSummary) : summary.modelDump.depth ≤ 1 := le_refl 1
  refine Nat.succ_le_succ (depthMembers_le ?_)
  rw [modelDump]
  simp only [List.forall_mem_cons, hstr, hint, depth_orNull, hsummary, implies_true, List.not_mem_nil,
    false_imp_iff, and_true]

end Fields

/-! ## The states of the service -/

section Service

variable {T : Type} (clock : ℕ → T)

/-- The code points of a text. -/
def points (t : Text) : Str := t.map Char.toNat

/-- A state of the service in the file: its strings have no surrogates. -/
def OperationState.stored (state : OperationState) : StoredState T where
  schemaVersion := 1
  operationId := points state.operationId
  runId := state.runId.map points
  operationType := state.operationType
  status := state.status
  createdAt := clock state.createdAt
  startedAt := clock state.startedAt
  finishedAt := state.finishedAt.map clock
  imageReference := state.imageReference.map points
  imageDigest := state.imageDigest.map points
  stand := state.stand.map points
  scenario := state.scenario.map points
  containerName := state.containerName.map points
  exitCode := state.exitCode
  artifactDirectory := state.artifactDirectory.map points
  summary := state.summary
  junitMessage := state.junitMessage.map points
  reportStatus := state.reportStatus
  reportUrl := state.reportUrl.map points
  reportMessage := state.reportMessage.map points
  reportportalStatus := state.reportportalStatus
  reportportalUrl := state.reportportalUrl.map points
  reportportalMessage := state.reportportalMessage.map points
  message := state.message.map points

theorem scalar_points (t : Text) : Scalar (points t) := by
  intro c hc
  obtain ⟨d, -, rfl⟩ := List.mem_map.mp hc
  rcases d.valid with h | ⟨hlow, hhigh⟩
  · exact Or.inl h
  · exact Or.inr ⟨hlow, hhigh⟩

theorem stored_noSurrogates (state : OperationState) : (state.stored clock).NoSurrogates := by
  simp only [StoredState.NoSurrogates, StoredState.strings, OperationState.stored, List.flatMap_cons,
    List.flatMap_nil, List.forall_mem_cons, List.forall_mem_append]
  simp [scalar_points]

/-- An exit status never has as many digits; with one that is short, `dumpable` says that all integers are. -/
theorem stored_short_iff {state : OperationState}
    (hexit : ∀ n ∈ state.exitCode, n.natAbs < 10 ^ Json.maxStrDigits) :
    (state.stored clock).Short ↔ state.dumpable = true := by
  have hversion : (1 : ℤ).natAbs < 10 ^ Json.maxStrDigits := Nat.one_lt_pow (by decide) (by decide)
  have hexit' : ∀ n ∈ state.exitCode.toList, n.natAbs < 10 ^ Json.maxStrDigits := fun n hn =>
    hexit n (Option.mem_toList.mp hn)
  have hshort : (state.stored clock).Short ↔
      ∀ n ∈ state.summary.toList.flatMap TestSummary.integers, n.natAbs < 10 ^ Json.maxStrDigits := by
    rw [StoredState.Short, StoredState.integers, List.forall_mem_append, List.forall_mem_cons]
    exact and_iff_right ⟨hversion, hexit'⟩
  rw [hshort, OperationState.dumpable]
  cases state.summary with
  | none => exact iff_of_true nofun rfl
  | some summary =>
    have hdigits : Json.maxStrDigits = maxStrDigits := rfl
    show (∀ n ∈ summary.integers ++ [], _) ↔ summary.writable = true
    simp only [List.append_nil, TestSummary.integers, List.forall_mem_cons, List.not_mem_nil, false_imp_iff,
      implies_true, and_true, TestSummary.writable, Bool.and_eq_true, Runner.writable, decide_eq_true_eq,
      and_assoc, hdigits]

end Service

namespace StateStore

/-! ## The files -/

/-- The temporary file and the state file, `current.json.tmp` and `current.json`. -/
structure Disk where
  temporary : Option (List UInt8)
  current : Option (List UInt8)
  deriving DecidableEq

/-- Where a call of `StateStore.write` is: at its begin, in the `with` statement with the pieces that
`json.dump` still has to write and the bytes that the stream holds back, after it, or at its end. -/
inductive Phase
  | called
  | streaming (todo : List (Option Str)) (buffer : List UInt8)
  | synced
  | replaced
  deriving DecidableEq

structure Config where
  phase : Phase
  disk : Disk
  deriving DecidableEq

/-- The operations of a call. `flush n` hands `n` bytes of the stream to the system, which the stream may do
at any time, and does when it is closed. -/
inductive Operation
  | openTemporary
  | writePiece
  | flush (n : ℕ)
  | sync
  | replace

/-- One operation of a call that writes `chunks`.  A piece that is missing, or cannot be encoded, raises:
no operation goes on from there but those of closing the stream. -/
def step (chunks : List (Option Str)) (c : Config) (op : Operation) : Option Config :=
  match c.phase, op with
  | .called, .openTemporary => some ⟨.streaming chunks [], { c.disk with temporary := some [] }⟩
  | .streaming (some piece :: todo) buffer, .writePiece =>
    (encodeUtf8 piece).map fun bytes => ⟨.streaming todo (buffer ++ bytes), c.disk⟩
  | .streaming todo buffer, .flush n =>
    some ⟨.streaming todo (buffer.drop n),
      { c.disk with temporary := c.disk.temporary.map fun bytes => bytes ++ buffer.take n }⟩
  | .streaming [] [], .sync => some ⟨.synced, c.disk⟩
  | .synced, .replace => some ⟨.replaced, ⟨none, c.disk.temporary⟩⟩
  | _, _ => none

/-- Why a state is not read. -/
inductive ReadError
  | unicodeDecodeError
  | validationError
  deriving DecidableEq

/-- The newlines of a text file as they are read. -/
def translateNewlines : Str → Str
  | [] => []
  | 13 :: 10 :: s => 10 :: translateNewlines s
  | 13 :: s => 10 :: translateNewlines s
  | c :: s => c :: translateNewlines s

theorem translateNewlines_of_not_mem {s : Str} (h : ∀ c ∈ s, c ≠ 13) : translateNewlines s = s := by
  induction s with
  | nil => rfl
  | cons c s ih =>
    obtain ⟨hc, hs⟩ := List.forall_mem_cons.mp h
    rw [translateNewlines, ih hs]
    · exact fun _ heq _ => hc heq
    · exact hc

section Store

variable {T : Type} (py : Pydantic T)

/-- What `write` sends to the stream. -/
def fileChunks (s : StoredState T) : List (Option Str) :=
  iterencode 2 0 (Value.dict (modelDump py s)) ++ [some (codes "\n")]

/-- `StateStore.read`. -/
def read (disk : Disk) : Except ReadError (Option (StoredState T)) :=
  match disk.current with
  | none => .ok none
  | some bytes =>
    match decodeStrict bytes with
    | none => .error .unicodeDecodeError
    | some content =>
      match Json.loads 200 (translateNewlines content) with
      | .error _ => .error .validationError
      | .ok v =>
        match modelValidate py v with
        | none => .error .validationError
        | some s => .ok (some s)

/-- A document that was written to its end is read as the state that was written. -/
theorem read_written {s : StoredState T} {bytes : List UInt8} (h : encodeChunks (fileChunks py s) = some bytes)
    (temporary : Option (List UInt8)) : read py ⟨temporary, some bytes⟩ = .ok (some s) := by
  obtain ⟨a, c, hdocument, -, -⟩ := Json.encodeChunks_append_iff.mp h
  have hwritten : (Value.dict (modelDump py s)).Written IsScalar :=
    (Json.encodeChunks_iterencode 2 0 _).mp ⟨a, hdocument⟩
  have htext : Json.text (fileChunks py s) = Json.text (iterencode 2 0 (Value.dict (modelDump py s))) ++ [10] :=
    Json.text_append _ _
  have hnewlines : translateNewlines (Json.text (fileChunks py s)) = Json.text (fileChunks py s) := by
    have hcr : ∀ c, c = 10 ∨ 32 ≤ c ∧ c ≤ 126 → c ≠ 13 := by omega
    have hdump : (Value.dict (modelDump py s)).Written (· ≠ 13) :=
      (written_modelDump py hcr s).mpr ⟨((written_modelDump py Json.isScalar_printed s).mp hwritten).1,
        fun t _ c hc => by
          have := (Json.mem_rawString hc).1
          omega⟩
    refine translateNewlines_of_not_mem fun c hc => ?_
    rw [htext, List.mem_append, List.mem_singleton] at hc
    rcases hc with hc | rfl
    · exact Json.mem_text ((Json.given_iterencode hcr 2 0 _).mpr hdump) c hc
    · decide
  have hloads : Json.loads 200 (Json.text (fileChunks py s)) = .ok (Value.dict (modelDump py s)) := by
    rw [htext]
    exact Json.loads_text 2 0 (Json.regular_of_written _ (plain_modelDump py s) hwritten)
      ((depth_modelDump py s).trans (by decide)) (by decide)
  simp only [read, Json.decodeStrict_encodeUtf8 (Json.encodeUtf8_text h), hnewlines, hloads,
    modelValidate_modelDump py s]

/-- The file of a state is written to its end exactly when its integers are short and its strings have no
surrogates. -/
theorem encodeChunks_fileChunks (s : StoredState T) :
    (∃ bytes, encodeChunks (fileChunks py s) = some bytes) ↔ s.Short ∧ s.NoSurrogates := by
  have hstrings : s.NoSurrogates ↔ ∀ t ∈ s.strings, ∀ c ∈ rawString t, IsScalar c :=
    forall₂_congr fun t _ => (Json.scalar_rawString t).symm
  rw [hstrings, ← written_modelDump py Json.isScalar_printed s, ← Json.encodeChunks_iterencode 2 0]
  constructor
  · rintro ⟨bytes, h⟩
    obtain ⟨a, c, ha, -, -⟩ := Json.encodeChunks_append_iff.mp h
    exact ⟨a, ha⟩
  · rintro ⟨a, ha⟩
    exact ⟨a ++ [10], Json.encodeChunks_append_iff.mpr ⟨a, [10], ha, by decide +kernel, rfl⟩⟩

end Store

/-! ## One call -/

section Call

variable {chunks : List (Option Str)}

/-- What holds in the course of a call: the state file is untouched until it is replaced, by all of the
bytes of the document. -/
def Progress (chunks : List (Option Str)) (before : Disk) (c : Config) : Prop :=
  match c.phase with
  | .called => c.disk = before
  | .streaming todo buffer => c.disk.current = before.current ∧ ∃ done bytes, done ++ todo = chunks ∧
      c.disk.temporary = some bytes ∧ encodeChunks done = some (bytes ++ buffer)
  | .synced => c.disk.current = before.current ∧ ∃ bytes, encodeChunks chunks = some bytes ∧
      c.disk.temporary = some bytes
  | .replaced => ∃ bytes, encodeChunks chunks = some bytes ∧ c.disk = ⟨none, some bytes⟩

theorem progress_step {before : Disk} {c c' : Config} {op : Operation} (h : Progress chunks before c)
    (hstep : step chunks c op = some c') : Progress chunks before c' := by
  obtain ⟨phase, disk⟩ := c
  unfold step at hstep
  split at hstep
  · -- the temporary file is empty, also when an earlier call has left it
    next hphase =>
    obtain rfl : phase = .called := hphase
    cases hstep
    obtain rfl : disk = before := h
    exact ⟨rfl, [], [], rfl, rfl, rfl⟩
  · next piece todo buffer hphase =>
    obtain rfl : phase = .streaming (some piece :: todo) buffer := hphase
    obtain ⟨hcurrent, done, bytes, hdone, htemporary, hbytes⟩ := h
    obtain ⟨more, hmore, rfl⟩ := Option.map_eq_some_iff.mp hstep
    refine ⟨hcurrent, done ++ [some piece], bytes, ?_, htemporary, ?_⟩
    · rw [List.append_assoc]
      exact hdone
    · refine Json.encodeChunks_append_iff.mpr ⟨bytes ++ buffer, more, hbytes, ?_, List.append_assoc _ _ _⟩
      exact Json.encodeChunks_cons_iff.mpr ⟨piece, more, [], rfl, hmore, rfl, List.append_nil _⟩
  · next todo buffer n hphase =>
    obtain rfl : phase = .streaming todo buffer := hphase
    cases hstep
    obtain ⟨hcurrent, done, bytes, hdone, htemporary, hbytes⟩ := h
    refine ⟨hcurrent, done, bytes ++ buffer.take n, hdone,
      congrArg (Option.map fun bytes => bytes ++ buffer.take n) htemporary, ?_⟩
    rw [List.append_assoc, List.take_append_drop]
    exact hbytes
  · next hphase =>
    obtain rfl : phase = .streaming [] [] := hphase
    cases hstep
    obtain ⟨hcurrent, done, bytes, hdone, htemporary, hbytes⟩ := h
    rw [List.append_nil] at hbytes hdone
    exact ⟨hcurrent, bytes, hdone ▸ hbytes, htemporary⟩
  · next hphase =>
    obtain rfl : phase = .synced := hphase
    cases hstep
    obtain ⟨-, bytes, hbytes, htemporary⟩ := h
    exact ⟨bytes, hbytes, congrArg (Disk.mk none) htemporary⟩
  · cases hstep

theorem progress_run {before : Disk} {c : Config} {ops : List Operation}
    (h : Transition.run (step chunks) ⟨.called, before⟩ ops = some c) : Progress chunks before c := by
  have hstart : Progress chunks before ⟨.called, before⟩ := rfl
  exact Transition.run_invariant (fun _ _ _ hc hstep => progress_step hc hstep) hstart h

theorem run_pieces {todo : List (Option Str)} {bytes : List UInt8} (h : encodeChunks todo = some bytes)
    (buffer : List UInt8) (disk : Disk) :
    Transition.run (step chunks) ⟨.streaming todo buffer, disk⟩ (List.replicate todo.length .writePiece)
      = some ⟨.streaming [] (buffer ++ bytes), disk⟩ := by
  induction todo generalizing buffer bytes with
  | nil =>
    cases h
    rw [List.append_nil]
    rfl
  | cons chunk todo ih =>
    obtain ⟨piece, a, c, rfl, ha, hc, rfl⟩ := Json.encodeChunks_cons_iff.mp h
    have hpiece : step chunks ⟨.streaming (some piece :: todo) buffer, disk⟩ .writePiece
        = some ⟨.streaming todo (buffer ++ a), disk⟩ := by
      show (encodeUtf8 piece).map _ = _
      rw [ha]
      rfl
    rw [List.length_cons, List.replicate_succ, Transition.run, hpiece, ← List.append_assoc]
    exact ih hc (buffer ++ a)

/-- **A document that can be written is written**, when no operation fails. -/
theorem write_completes {bytes : List UInt8} (h : encodeChunks chunks = some bytes) (before : Disk) :
    ∃ ops, Transition.run (step chunks) ⟨.called, before⟩ ops = some ⟨.replaced, ⟨none, some bytes⟩⟩ := by
  have hpieces : Transition.run (step chunks) ⟨.streaming chunks [], { before with temporary := some [] }⟩
      (List.replicate chunks.length .writePiece)
      = some ⟨.streaming [] bytes, { before with temporary := some [] }⟩ := run_pieces h [] _
  have hclose : Transition.run (step chunks) ⟨.streaming [] bytes, { before with temporary := some [] }⟩
      [.flush bytes.length, .sync, .replace] = some ⟨.replaced, ⟨none, some bytes⟩⟩ := by
    have hflush : step chunks ⟨.streaming [] bytes, { before with temporary := some [] }⟩ (.flush bytes.length)
        = some ⟨.streaming [] [], { before with temporary := some bytes }⟩ := by
      show some _ = _
      rw [List.drop_length, List.take_length]
      rfl
    rw [Transition.run, hflush]
    rfl
  exact ⟨.openTemporary :: (List.replicate chunks.length .writePiece ++ [.flush bytes.length, .sync, .replace]),
    Transition.run_trans hpieces hclose⟩

end Call

/-! ## One call after the other -/

section History

variable {T : Type} (py : Pydantic T)

/-- A call of `write`, and the operations it came to before it returned, raised, or died with the process. -/
structure Attempt (T : Type) where
  state : StoredState T
  operations : List Operation

/-- A call after others, of which `h.2` is the last that was written to its end. -/
def perform (h : Disk × Option (StoredState T)) (a : Attempt T) : Option (Disk × Option (StoredState T)) :=
  (Transition.run (step (fileChunks py a.state)) ⟨.called, h.1⟩ a.operations).map fun c =>
    (c.disk, if c.phase = .replaced then some a.state else h.2)

/-- A call that does not come to its end leaves what is read, and one that does is read. -/
theorem read_of_run {s : StoredState T} {before : Disk} {c : Config} {ops : List Operation}
    (h : Transition.run (step (fileChunks py s)) ⟨.called, before⟩ ops = some c) :
    read py c.disk = if c.phase = .replaced then .ok (some s) else read py before := by
  obtain ⟨phase, disk⟩ := c
  have hprogress := progress_run h
  have hcurrent (hsame : disk.current = before.current) : read py disk = read py before := by
    rw [read, read, hsame]
  cases phase with
  | called => exact congrArg (read py) hprogress
  | streaming todo buffer => exact hcurrent hprogress.1
  | synced => exact hcurrent hprogress.1
  | replaced =>
    obtain ⟨bytes, hbytes, rfl⟩ := hprogress
    exact read_written py hbytes none

theorem perform_step {h h' : Disk × Option (StoredState T)} {a : Attempt T} (hread : read py h.1 = .ok h.2)
    (hstep : perform py h a = some h') : read py h'.1 = .ok h'.2 := by
  obtain ⟨c, hc, rfl⟩ := Option.map_eq_some_iff.mp hstep
  rw [read_of_run py hc, hread]
  split
  · rfl
  · rfl

/-- **The state file.**  A state with short integers and without surrogates can be written, and when a write
of it has come to its end, it is read back.  After calls one after the other, each of which may end at any
operation, the last state that was written to its end is read, or `None` when there is none. -/
theorem state_file_consistent :
    (∀ s : StoredState T, s.Short → s.NoSurrogates → ∀ before : Disk,
      (∃ ops disk, Transition.run (step (fileChunks py s)) ⟨.called, before⟩ ops = some ⟨.replaced, disk⟩) ∧
      ∀ ops disk, Transition.run (step (fileChunks py s)) ⟨.called, before⟩ ops = some ⟨.replaced, disk⟩ →
        read py disk = .ok (some s)) ∧
    ∀ before : Disk, before.current = none → ∀ attempts disk last,
      Transition.run (perform py) (before, none) attempts = some (disk, last) → read py disk = .ok last := by
  constructor
  · intro s hshort hstrings before
    obtain ⟨bytes, hbytes⟩ := (encodeChunks_fileChunks py s).mpr ⟨hshort, hstrings⟩
    obtain ⟨ops, hops⟩ := write_completes hbytes before
    exact ⟨⟨ops, _, hops⟩, fun ops disk h => (read_of_run py h).trans (if_pos rfl)⟩
  · intro before hbefore attempts disk last h
    have hread : read py before = .ok none := by
      rw [read, hbefore]
    exact Transition.run_invariant (I := fun h : Disk × Option (StoredState T) => read py h.1 = .ok h.2)
      (fun _ _ _ hh hstep => perform_step py hh hstep) hread h

end History

/-- **The guard of a write**: a state of the service is written to its end exactly when it is `dumpable`. -/
theorem stored_write_completes_iff {T : Type} (py : Pydantic T) (clock : ℕ → T) {state : OperationState}
    (hexit : ∀ n ∈ state.exitCode, n.natAbs < 10 ^ Json.maxStrDigits) (before : Disk) :
    (∃ ops disk, Transition.run (step (fileChunks py (state.stored clock))) ⟨.called, before⟩ ops
        = some ⟨.replaced, disk⟩) ↔ state.dumpable = true := by
  rw [← stored_short_iff clock hexit]
  constructor
  · rintro ⟨ops, disk, h⟩
    obtain ⟨bytes, hbytes, -⟩ := progress_run h
    exact ((encodeChunks_fileChunks py _).mp ⟨bytes, hbytes⟩).1
  · intro hshort
    obtain ⟨bytes, hbytes⟩ := (encodeChunks_fileChunks py _).mpr ⟨hshort, stored_noSurrogates clock state⟩
    obtain ⟨ops, hops⟩ := write_completes hbytes before
    exact ⟨ops, _, hops⟩

/-! ## A number that is too long -/

/-- What pydantic makes of the timestamps of the service, and of integers and strings as they are. -/
def utcPydantic : Pydantic Timestamp.UtcTime where
  formatDatetime := Timestamp.format
  validateDatetime
    | .str s => Timestamp.parse s
    | _ => none
  validateInt
    | .int n => some n
    | _ => none
  validateStr
    | .str s => some s
    | _ => none
  format_ascii := Timestamp.format_ascii
  datetime_format := Timestamp.parse_format
  int_int _ := rfl
  str_str _ := rfl

/-- A test run whose reports count `total` tests. -/
def countedState (total : ℤ) : StoredState Timestamp.UtcTime where
  schemaVersion := 1
  operationId := codes "run-1"
  runId := none
  operationType := .runTests
  status := .passed
  createdAt := ⟨⟨2026, 1, 2, 3, 4, 5, 600⟩, by decide⟩
  startedAt := ⟨⟨2026, 1, 2, 3, 4, 5, 600⟩, by decide⟩
  finishedAt := none
  imageReference := none
  imageDigest := none
  stand := none
  scenario := none
  containerName := none
  exitCode := some 0
  artifactDirectory := none
  summary := some ⟨total, total, 0, 0, 0⟩
  junitMessage := none
  reportStatus := none
  reportUrl := none
  reportMessage := none
  reportportalStatus := none
  reportportalUrl := none
  reportportalMessage := none
  message := none

/-- A state with three tests is written and read back. -/
theorem state_file_consistent_sample :
    ∃ ops disk, Transition.run (step (fileChunks utcPydantic (countedState 3))) ⟨.called, ⟨none, none⟩⟩ ops
        = some ⟨.replaced, disk⟩ ∧ read utcPydantic disk = .ok (some (countedState 3)) := by
  have hshort : (countedState 3).Short := by
    show ∀ n ∈ ([1, 0, 3, 3, 0, 0, 0] : List ℤ), _
    decide +kernel
  have hstrings : (countedState 3).NoSurrogates := by
    show ∀ t ∈ [codes "run-1"], Scalar t
    decide +kernel
  obtain ⟨⟨ops, disk, hwrite⟩, hread⟩ := (state_file_consistent utcPydantic).1 _ hshort hstrings ⟨none, none⟩
  exact ⟨ops, disk, hwrite, hread ops disk hwrite⟩

theorem not_short_countedState {total : ℤ} (h : 10 ^ Json.maxStrDigits ≤ total.natAbs) :
    ¬(countedState total).Short :=
  fun hshort => absurd (hshort total (List.mem_append_right _ List.mem_cons_self)) (not_lt_of_ge h)

/-- **A total of 4301 digits** has no string with a surrogate in its state, and however the write goes, the
state is not read afterwards. -/
theorem long_total_lost :
    let s := countedState (10 ^ Json.maxStrDigits)
    s.NoSurrogates ∧ ∀ ops c,
      Transition.run (step (fileChunks utcPydantic s)) ⟨.called, ⟨none, none⟩⟩ ops = some c →
        read utcPydantic c.disk = .ok none := by
  intro s
  have habs (k : ℕ) : ((10 : ℤ) ^ k).natAbs = 10 ^ k := Int.natAbs_pow 10 k
  have hlong : ¬s.Short := not_short_countedState (habs Json.maxStrDigits).ge
  constructor
  · show ∀ t ∈ [codes "run-1"], Scalar t
    decide +kernel
  · intro ops c h
    refine (read_of_run utcPydantic h).trans (if_neg fun hphase => hlong ?_)
    have hprogress := progress_run h
    rw [Progress, hphase] at hprogress
    obtain ⟨bytes, hbytes, -⟩ := hprogress
    exact ((encodeChunks_fileChunks utcPydantic s).mp ⟨bytes, hbytes⟩).1

end StateStore

end HardwareTest.Runner
