import HardwareTest.Lib.Transition
import HardwareTest.Lib.Utf8
import HardwareTest.Runner.Worker

/-!
# The service

One event loop runs the task of the active operation and the requests that start, cancel and stop it.
A `World` holds what they share, the subprocesses and the written states; an `Event` is one thing that
happens: a request reaches the coordinator, a subprocess writes or exits, an awaiting coroutine goes
on.  A coroutine runs undisturbed from one await to the next (`advance`), so the interleavings of the
service are the lists of events.

* `advance` — the task up to its next await;
* `World.start`, `World.cancel`, `World.shutdown`, `World.markInterrupted` — the requests;
* `step` — one event.
-/

namespace HardwareTest.Runner

open HardwareTest.Lib HardwareTest.Python

/-- A subprocess that `run` created.  `stopIssued` and `stopReached` say that `docker stop` was issued
for its container, and that the container existed then. -/
structure Subprocess where
  operation : Text
  command : Command
  environment : Environment
  exited : Option ℤ
  terminated : Bool
  containerUp : Bool
  stopIssued : Bool
  stopReached : Bool
  deriving DecidableEq

namespace Subprocess

def container (p : Subprocess) : Option Text := containerOf p.command

/-- Told to stop: `terminate` was called on it, or `docker stop` issued for its container. -/
def told (p : Subprocess) : Bool := p.terminated || p.stopIssued

/-- Signalled: `terminate` was called on it, or `docker stop` issued for its existing container. -/
def signalled (p : Subprocess) : Bool := p.terminated || p.stopReached

def alive (p : Subprocess) : Bool := p.exited.isNone

end Subprocess

/-- The task of an operation: not begun, at an await, or done. -/
inductive Task
  | created (work : Work Unit)
  | suspended (a : Await) (k : Except PyException a.Value → Work Unit)
  | finished (result : Except PyException Unit)

/-- `task.done()`. -/
def Task.done : Task → Bool
  | .finished _ => true
  | _ => false

/-- The state of the service and its environment.

`captured` is the output that the reading loop has collected, `aborting` the cancellation for which a
starting subprocess is being killed, and `cancelling` says that `task.cancel()` was called.  `canceller`
and `stopper` are the operations for which a `cancel` and a `shutdown` wait for `docker stop`; the
first holds the lock.  `accepted` lists the operations for which `cancel` has returned. -/
structure World where
  clock : ℕ
  history : List OperationState
  log : Text
  operation : Text
  task : Option Task
  cancelling : Bool
  captured : Text
  aborting : Option PyException
  cancelRequested : Bool
  process : Option ℕ
  subprocesses : List Subprocess
  canceller : Option Text
  stopper : Option Text
  accepted : List Text

/-- The service when its state directory is empty. -/
def World.fresh : World where
  clock := 0
  history := []
  log := []
  operation := []
  task := none
  cancelling := false
  captured := []
  aborting := none
  cancelRequested := false
  process := none
  subprocesses := []
  canceller := none
  stopper := none
  accepted := []

/-- What the environment answers to the calls that do not wait: the file system at each look, and
whether a subprocess and a `docker stop` can be started. -/
structure Answers where
  files : ℕ → FileSystem
  popen : Except PyError Unit
  stop : Except PyError Unit

/-- Every subprocess starts, and nothing is found in the file system. -/
def Answers.plain : Answers where
  files _ :=
    { resolve := id
      isDir := fun _ => false
      isFile := fun _ => false
      parse := fun _ => none }
  popen := .ok ()
  stop := .ok ()

namespace World

/-- `state_store.read()`: the state written last. -/
def current (w : World) : Option OperationState := w.history.getLast?

/-- `self._task is not None and not self._task.done()`. -/
def busy (w : World) : Bool :=
  match w.task with
  | none => false
  | some task => !task.done

def modifySubprocess (w : World) (pid : ℕ) (f : Subprocess → Subprocess) : World :=
  { w with subprocesses := w.subprocesses.modify pid f }

/-- `process.terminate()` on a process that has not ended. -/
def kill (w : World) (pid : ℕ) : World :=
  w.modifySubprocess pid fun p => if p.alive then { p with terminated := true } else p

/-- The end of `AsyncioProcessRunner.cancel`. -/
def terminateProcess (w : World) : World :=
  match w.process with
  | none => w
  | some pid => w.kill pid

/-- `docker stop` is issued for a container. -/
def stopContainer (w : World) (container : Text) : World :=
  { w with subprocesses := w.subprocesses.map fun p =>
      if p.container = some container ∧ p.alive then
        { p with stopIssued := true, stopReached := p.stopReached || p.containerUp }
      else p }

end World

/-- What `json.dump` raises for an integer with too many digits. -/
def digitsError : PyError :=
  .exception ("Exceeds the limit (4300 digits) for integer string conversion; ".toList
    ++ "use sys.set_int_max_str_digits() to increase the limit".toList)

/-- A call of the task; `n` counts the calls of this stretch. -/
def World.perform (answers : Answers) (n : ℕ) (w : World) : (c : Call) → c.Answer × World
  | .write state =>
    if state.dumpable then (.ok (), { w with history := w.history ++ [state] })
    else (.error digitsError, w)
  | .now => (w.clock, w)
  | .cancelRequested => (w.cancelRequested, w)
  | .fileSystem => (answers.files n, w)
  | .popen command environment =>
    match answers.popen with
    | .ok () =>
      (.ok w.subprocesses.length,
        { w with subprocesses := w.subprocesses ++ [{
            operation := w.operation
            command := command
            environment := environment
            exited := none
            terminated := false
            containerUp := false
            stopIssued := false
            stopReached := false }] })
    | .error e => (.error e, w)
  | .setProcess process => ((), { w with process := process })
  | .terminateProcess => ((), w.terminateProcess)
  | .popenStop container =>
    match answers.stop with
    | .ok () => (.ok (), w.stopContainer container)
    | .error e => (.error e, w)

/-- The task runs up to its next await. -/
def advance (answers : Answers) : ℕ → Work Unit → World → World
  | _, .pure (), w => { w with task := some (.finished (.ok ())) }
  | _, .throw e, w => { w with task := some (.finished (.error e)) }
  | n, .call (.call c) k, w =>
    advance answers (n + 1) (k (w.perform answers n c).1) (w.perform answers n c).2
  | _, .call (.await a) k, w =>
    { w with task := some (.suspended a k), captured := [], aborting := none }

/-! ## The requests -/

/-- `uuid4().hex`, as the suffix of an operation identifier. -/
structure OperationHex where
  digits : Text
  length_eq : digits.length = 32
  isHex : ∀ c ∈ digits, c ∈ "0123456789abcdef".toList
  deriving DecidableEq

/-- The identifier that has the same digit throughout. -/
def sampleHex (c : Char) (h : c ∈ "0123456789abcdef".toList := by decide) : OperationHex where
  digits := List.replicate 32 c
  length_eq := rfl
  isHex _ hd := List.eq_of_mem_replicate hd ▸ h

def hexA : OperationHex := sampleHex 'a'

def hexB : OperationHex := sampleHex 'b'

inductive Request
  | build (revision : Text)
  | pull (reference : Text)
  | run (image stand scenario : Text)
  deriving DecidableEq

/-- What a start request raises. -/
inductive StartError
  | runnerBusy (state : OperationState)
  | invalidImageReference (message : String)
  | runtimeError (message : String)

/-- `_new_id`. -/
def Request.newId (request : Request) (hex : OperationHex) : Text :=
  match request with
  | .build _ => "build-".toList ++ hex.digits
  | .pull _ => "pull-".toList ++ hex.digits
  | .run .. => "run-".toList ++ hex.digits

/-- What `start_build`, `start_pull` and `start_run` prepare: the first state of the operation and its
coroutine. -/
def Request.prepare (settings : Settings) (request : Request) (hex : OperationHex) (time : ℕ) :
    Except StartError (OperationState × Work Unit) :=
  let operationId := request.newId hex
  match request with
  | .build revision =>
    let state := OperationState.started operationId .buildImage .building time none none none none none
      (some ("Building configured checkout revision '".toList ++ revision ++ "'".toList))
    .ok (state, executeImageOperation state (settings.buildImage operationId)
      (Settings.localBuildReference operationId))
  | .pull reference =>
    match settings.pullImage reference with
    | .error message => .error (.invalidImageReference message)
    | .ok command =>
      let state := OperationState.started operationId .pullImage .pulling time none (some reference)
        none none none none
      .ok (state, executeImageOperation state command reference)
  | .run image stand scenario =>
    match settings.runTests operationId operationId image stand scenario with
    | .error message => .error (.invalidImageReference message)
    | .ok command =>
      let state := OperationState.started operationId .runTests .running time (some operationId)
        (some image) (some stand) (some scenario) (some (Settings.runContainer operationId)) none
      .ok (state, executeTestRun settings state command)

namespace World

/-- `_start`, under the lock. -/
def start (w : World) (state : OperationState) (work : Work Unit) : Except StartError World :=
  if w.busy then
    match w.current with
    | none => .error (.runtimeError "active task has no state")
    | some current => .error (.runnerBusy current)
  else
    .ok { w with
      cancelRequested := false
      log := []
      history := w.history ++ [state]
      operation := state.operationId
      task := some (.created work)
      cancelling := false
      captured := []
      aborting := none }

/-- The state that `cancel` finds active, or `none` for `NoActiveOperationError`. -/
def cancellable (w : World) : Option OperationState :=
  match w.current, w.task with
  | some state, some _ => if state.status.isTerminal then none else some state
  | _, _ => none

/-- `cancel` up to its `docker stop`, or to its end when the operation has no container. -/
def cancel (w : World) (launch : Except PyError Unit) : World :=
  match w.cancellable with
  | none => w
  | some state =>
    let w := { w with cancelRequested := true }
    match state.containerName with
    | none => { w.terminateProcess with accepted := state.operationId :: w.accepted }
    | some container =>
      match launch with
      | .error _ => w
      | .ok () => { w.stopContainer container with canceller := some state.operationId }

/-- `cancel` after its `docker stop`. -/
def cancelStopped (w : World) (operationId : Text) : World :=
  { w.terminateProcess with accepted := operationId :: w.accepted, canceller := none }

/-- `shutdown` up to its `docker stop`, or to the cancellation of the task. -/
def shutdown (w : World) (launch : Except PyError Unit) : World :=
  if !w.busy then w
  else
    match w.current.bind fun state => state.containerName with
    | none => { w.terminateProcess with cancelling := true }
    | some container =>
      match launch with
      | .error _ => w
      | .ok () => { w.stopContainer container with stopper := some w.operation }

/-- `shutdown` after its `docker stop`: the task it found is cancelled. -/
def shutdownStopped (w : World) (operationId : Text) : World :=
  let w := { w.terminateProcess with stopper := none }
  if w.operation = operationId ∧ w.busy then { w with cancelling := true } else w

/-- `mark_interrupted`. -/
def markInterrupted (w : World) : World :=
  match w.current with
  | none => w
  | some state =>
    if state.status.isTerminal then w
    else
      { w with history := w.history ++ [{ state with
          status := .interrupted
          message := some "The service restarted while the operation was active" }] }

/-- A new service on the same state directory. -/
def restart (w : World) : World :=
  { w with
    operation := []
    task := none
    cancelling := false
    captured := []
    aborting := none
    cancelRequested := false
    process := none
    canceller := none
    stopper := none }.markInterrupted

end World

/-! ## Events -/

/-- How an awaiting task goes on. -/
inductive Resumption
  | begin
  | ready
  | overlong
  | logFails (error : PyError)
  | eof
  | exited
  | stopped
  | launches (page : LaunchPage)
  | timeout
  | aborted
  | cancelled

inductive Event
  | tick
  | start (request : Request) (hex : OperationHex) (time : ℕ)
  | cancel (launch : Except PyError Unit)
  | cancelStopped
  | shutdown (launch : Except PyError Unit)
  | shutdownStopped
  | restart
  | containerUp (pid : ℕ)
  | exit (pid : ℕ) (code : ℤ)
  | line (bytes : List UInt8)
  | resume (r : Resumption) (answers : Answers)

/-- The longest line, without its end, that the reader of a subprocess accepts. -/
def lineLimit : ℕ := 65536

/-- What `readline` returns: one line of the output, or what is left of it before its end. -/
def IsLine (bytes : List UInt8) : Prop :=
  bytes ≠ [] ∧ 10 ∉ bytes.dropLast ∧ (bytes.filter (· ≠ 10)).length ≤ lineLimit

instance (bytes : List UInt8) : Decidable (IsLine bytes) := inferInstanceAs (Decidable (_ ∧ _ ∧ _))

/-- `MAX_CAPTURED_OUTPUT`. -/
def maxCapturedOutput : ℕ := 65536

/-- What `readline` raises for a longer line. -/
def overlongError : PyError := .exception "Separator is not found, and chunk exceed the limit"

/-- What an await is answered with, when the environment answers it so. -/
def World.answer (w : World) : (a : Await) → Resumption → Option (Except PyException a.Value)
  | .connected _, .ready => if w.aborting = none then some (.ok ()) else none
  | .connected pid, .aborted =>
    match w.aborting, (w.subprocesses[pid]?).bind Subprocess.exited with
    | some cause, some _ => some (.error cause)
    | _, _ => none
  | .connected _, .cancelled => if w.aborting = none then none else some (.error .cancelled)
  | .output _, .overlong => some (.error (.raised overlongError))
  | .output _, .logFails e => some (.error (.raised e))
  | .output _, .eof => some (.ok w.captured)
  | .output _, .timeout => some (.error .expired)
  | .output _, .cancelled => some (.error .cancelled)
  | .exitStatus pid, .exited => ((w.subprocesses[pid]?).bind Subprocess.exited).map .ok
  | .exitStatus _, .timeout => some (.error .expired)
  | .exitStatus _, .cancelled => some (.error .cancelled)
  | .stopped, .stopped => some (.ok ())
  | .stopped, .cancelled => some (.error .cancelled)
  | .launches, .launches page => some (.ok page)
  | .launches, .cancelled => some (.error .cancelled)
  | _, _ => none

/-- The cancellation that kills a starting subprocess. -/
def abortCause : Resumption → Option PyException
  | .timeout => some .expired
  | .cancelled => some .cancelled
  | _ => none

/-- Whether the task goes on with a cancellation from outside. -/
def Resumption.cancels : Resumption → Bool
  | .cancelled => true
  | _ => false

/-- What a task that goes on runs: its coroutine from the start, or from the await that is answered. -/
def World.continuation (w : World) (r : Resumption) : Option (Work Unit) :=
  match w.task, r with
  | some (.created work), .begin => some work
  | some (.suspended a k), r => (w.answer a r).map k
  | _, _ => none

/-- A task goes on.  When `task.cancel()` was called, only with a cancellation. -/
def World.resume (w : World) (r : Resumption) (answers : Answers) : Option World :=
  if r.cancels ≠ w.cancelling then none
  else
    match w.continuation r with
    | some work => some (advance answers 0 work w)
    | none =>
      match w.task, r with
      -- a task that is cancelled before it began never runs
      | some (.created _), .cancelled => some { w with task := some (.finished (.error .cancelled)) }
      | some (.suspended (.connected pid) _), r =>
        match w.aborting, abortCause r with
        | none, some cause => some { w.kill pid with aborting := some cause }
        | _, _ => none
      | _, _ => none

/-- One event, when it can happen. -/
def step (settings : Settings) (w : World) : Event → Option World
  | .tick => some { w with clock := w.clock + 1 }
  | .start request hex time =>
    -- the lock is free, and identifiers are never drawn twice
    if w.canceller ≠ none ∨ ∃ state ∈ w.history, state.operationId = request.newId hex then none
    else
      match request.prepare settings hex time with
      | .error _ => some w
      | .ok (state, work) =>
        match w.start state work with
        | .error _ => some w
        | .ok w' => some w'
  | .cancel launch => if w.canceller = none then some (w.cancel launch) else none
  | .cancelStopped => w.canceller.map w.cancelStopped
  | .shutdown launch => if w.stopper = none then some (w.shutdown launch) else none
  | .shutdownStopped => w.stopper.map w.shutdownStopped
  | .restart => some w.restart
  | .containerUp pid =>
    some (w.modifySubprocess pid fun p => if p.alive then { p with containerUp := true } else p)
  | .exit pid code =>
    some (w.modifySubprocess pid fun p => if p.alive then { p with exited := some code } else p)
  | .line bytes =>
    match w.task with
    | some (.suspended (.output _) _) =>
      if IsLine bytes ∧ ¬w.cancelling then
        let text := Utf8.decode bytes
        let output := w.captured ++ text
        some { w with
          log := w.log ++ text
          captured := output.drop (output.length - maxCapturedOutput) }
      else none
    | _ => none
  | .resume r answers => w.resume r answers

end HardwareTest.Runner
