import HardwareTest.Python.Text

/-!
# The records of the test-runner service

An operation is recorded as one `OperationState`, which is written whole at every change.  Times are
counted from a fixed origin.
-/

namespace HardwareTest.Runner

open HardwareTest.Python

instance : Coe String Text := ⟨String.toList⟩

inductive OperationType
  | buildImage
  | pullImage
  | runTests
  deriving DecidableEq

inductive OperationStatus
  | building
  | pulling
  | running
  | succeeded
  | passed
  | failed
  | cancelled
  | timedOut
  | infrastructureError
  | interrupted
  deriving DecidableEq

/-- `OperationStatus.is_terminal`. -/
def OperationStatus.isTerminal : OperationStatus → Bool
  | .building | .pulling | .running => false
  | .succeeded | .passed | .failed | .cancelled | .timedOut | .infrastructureError | .interrupted => true

inductive ReportStatus
  | published
  | failed
  deriving DecidableEq

inductive ReportPortalStatus
  | finished
  | incomplete
  | unavailable
  deriving DecidableEq

structure TestSummary where
  total : ℤ
  passed : ℤ
  failed : ℤ
  errors : ℤ
  skipped : ℤ
  deriving DecidableEq

structure OperationState where
  operationId : Text
  runId : Option Text
  operationType : OperationType
  status : OperationStatus
  createdAt : ℕ
  startedAt : ℕ
  finishedAt : Option ℕ
  imageReference : Option Text
  imageDigest : Option Text
  stand : Option Text
  scenario : Option Text
  containerName : Option Text
  exitCode : Option ℤ
  artifactDirectory : Option Text
  summary : Option TestSummary
  junitMessage : Option Text
  reportStatus : Option ReportStatus
  reportUrl : Option Text
  reportMessage : Option Text
  reportportalStatus : Option ReportPortalStatus
  reportportalUrl : Option Text
  reportportalMessage : Option Text
  message : Option Text
  deriving DecidableEq

/-- `OperationState.started`, at the given time. -/
def OperationState.started (operationId : Text) (operationType : OperationType)
    (status : OperationStatus) (now : ℕ) (runId imageReference stand scenario containerName message :
      Option Text) : OperationState where
  operationId := operationId
  runId := runId
  operationType := operationType
  status := status
  createdAt := now
  startedAt := now
  finishedAt := none
  imageReference := imageReference
  imageDigest := none
  stand := stand
  scenario := scenario
  containerName := containerName
  exitCode := none
  artifactDirectory := none
  summary := none
  junitMessage := none
  reportStatus := none
  reportUrl := none
  reportMessage := none
  reportportalStatus := none
  reportportalUrl := none
  reportportalMessage := none
  message := message

/-- The keyword arguments that `_finish` passes on to `model_copy`.  An argument that is not given, or
given as `None`, leaves the field as it is: those given as `None` are `None` in the copied state. -/
structure Updates where
  imageReference : Option Text := none
  imageDigest : Option Text := none
  artifactDirectory : Option Text := none
  summary : Option TestSummary := none
  junitMessage : Option Text := none
  reportStatus : Option ReportStatus := none
  reportUrl : Option Text := none
  reportMessage : Option Text := none
  reportportalStatus : Option ReportPortalStatus := none
  reportportalUrl : Option Text := none
  reportportalMessage : Option Text := none
  message : Option Text := none

/-- `dict.update`: what the second gives takes the place of what the first gave. -/
def Updates.update (a b : Updates) : Updates where
  imageReference := b.imageReference.or a.imageReference
  imageDigest := b.imageDigest.or a.imageDigest
  artifactDirectory := b.artifactDirectory.or a.artifactDirectory
  summary := b.summary.or a.summary
  junitMessage := b.junitMessage.or a.junitMessage
  reportStatus := b.reportStatus.or a.reportStatus
  reportUrl := b.reportUrl.or a.reportUrl
  reportMessage := b.reportMessage.or a.reportMessage
  reportportalStatus := b.reportportalStatus.or a.reportportalStatus
  reportportalUrl := b.reportportalUrl.or a.reportportalUrl
  reportportalMessage := b.reportportalMessage.or a.reportportalMessage
  message := b.message.or a.message

/-- The copy that `_finish` writes. -/
def OperationState.finished (state : OperationState) (status : OperationStatus) (now : ℕ)
    (exitCode : Option ℤ) (updates : Updates) : OperationState :=
  { state with
    status := status
    finishedAt := some now
    exitCode := exitCode
    containerName := none
    imageReference := updates.imageReference.or state.imageReference
    imageDigest := updates.imageDigest.or state.imageDigest
    artifactDirectory := updates.artifactDirectory.or state.artifactDirectory
    summary := updates.summary.or state.summary
    junitMessage := updates.junitMessage.or state.junitMessage
    reportStatus := updates.reportStatus.or state.reportStatus
    reportUrl := updates.reportUrl.or state.reportUrl
    reportMessage := updates.reportMessage.or state.reportMessage
    reportportalStatus := updates.reportportalStatus.or state.reportportalStatus
    reportportalUrl := updates.reportportalUrl.or state.reportportalUrl
    reportportalMessage := updates.reportportalMessage.or state.reportportalMessage
    message := updates.message.or state.message }

/-- An integer that `int.__repr__` writes. -/
def writable (n : ℤ) : Bool := decide (n.natAbs < 10 ^ maxStrDigits)

/-- A summary whose numbers can be written. -/
def TestSummary.writable (s : TestSummary) : Bool :=
  Runner.writable s.total && Runner.writable s.passed && Runner.writable s.failed
    && Runner.writable s.errors && Runner.writable s.skipped

/-- Whether `json.dump` writes a state.  Only the sums of a JUnit report can have more digits than the
interpreter writes; an exit status never has. -/
def OperationState.dumpable (state : OperationState) : Bool :=
  match state.summary with
  | none => true
  | some summary => summary.writable

@[simp] theorem OperationState.finished_operationId (state : OperationState) (status : OperationStatus)
    (now : ℕ) (exitCode : Option ℤ) (updates : Updates) :
    (state.finished status now exitCode updates).operationId = state.operationId := rfl

@[simp] theorem OperationState.finished_status (state : OperationState) (status : OperationStatus)
    (now : ℕ) (exitCode : Option ℤ) (updates : Updates) :
    (state.finished status now exitCode updates).status = status := rfl

@[simp] theorem OperationState.finished_exitCode (state : OperationState) (status : OperationStatus)
    (now : ℕ) (exitCode : Option ℤ) (updates : Updates) :
    (state.finished status now exitCode updates).exitCode = exitCode := rfl

@[simp] theorem OperationState.finished_containerName (state : OperationState)
    (status : OperationStatus) (now : ℕ) (exitCode : Option ℤ) (updates : Updates) :
    (state.finished status now exitCode updates).containerName = none := rfl

end HardwareTest.Runner
