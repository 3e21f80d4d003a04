import HardwareTest.Runner.Service

/-!
# Rules for the procedures of the coordinator

A specification says what the proof allows each call and each await of a procedure.  The rules here
carry it through the parts that every procedure is made of, and from a procedure to the world: what the
specification gives for a call, the world has to keep (`Contract.upheld_advance`).
-/

namespace HardwareTest.Runner

open HardwareTest.Lib HardwareTest.Python

/-! ## The calls -/

section Calls

variable {S : Type} (spec : Program.Spec Op Op.Answer S)

@[simp] theorem wp_ofAnswer {α : Type} (r : Except PyError α) (Q : Except PyException α → S → Prop) :
    Program.wp spec (ofAnswer r) Q = Q (r.mapError .raised) := Program.wp_ofExcept spec Q _

@[simp] theorem wp_await (a : Await) (Q : Except PyException a.Value → S → Prop) :
    Program.wp spec (await a) Q = spec.wp (.await a) fun r => Q r := by
  unfold await
  rw [Program.wp_call]
  congr 1
  funext r
  exact Program.wp_ofExcept spec Q r

@[simp] theorem wp_write (state : OperationState) (Q : Except PyException Unit → S → Prop) :
    Program.wp spec (write state) Q
      = spec.wp (.call (.write state)) fun r => Q (r.mapError .raised) := by
  unfold write
  rw [Program.wp_call]
  congr 1
  funext r
  exact wp_ofAnswer spec r Q

@[simp] theorem wp_popen (command : Command) (environment : Environment)
    (Q : Except PyException ℕ → S → Prop) :
    Program.wp spec (popen command environment) Q
      = spec.wp (.call (.popen command environment)) fun r => Q (r.mapError .raised) := by
  unfold popen
  rw [Program.wp_call]
  congr 1
  funext r
  exact wp_ofAnswer spec r Q

@[simp] theorem wp_popenStop (container : Text) (Q : Except PyException Unit → S → Prop) :
    Program.wp spec (popenStop container) Q
      = spec.wp (.call (.popenStop container)) fun r => Q (r.mapError .raised) := by
  unfold popenStop
  rw [Program.wp_call]
  congr 1
  funext r
  exact wp_ofAnswer spec r Q

@[simp] theorem wp_now (Q : Except PyException ℕ → S → Prop) :
    Program.wp spec now Q = spec.wp (.call .now) fun r => Q (.ok r) := rfl

@[simp] theorem wp_cancelRequested (Q : Except PyException Bool → S → Prop) :
    Program.wp spec cancelRequested Q = spec.wp (.call .cancelRequested) fun r => Q (.ok r) := rfl

@[simp] theorem wp_fileSystem (Q : Except PyException FileSystem → S → Prop) :
    Program.wp spec fileSystem Q = spec.wp (.call .fileSystem) fun r => Q (.ok r) := rfl

@[simp] theorem wp_setProcess (process : Option ℕ) (Q : Except PyException Unit → S → Prop) :
    Program.wp spec (setProcess process) Q = spec.wp (.call (.setProcess process)) fun r => Q (.ok r) :=
  rfl

@[simp] theorem wp_terminateProcess (Q : Except PyException Unit → S → Prop) :
    Program.wp spec terminateProcess Q = spec.wp (.call .terminateProcess) fun r => Q (.ok r) := rfl

end Calls

/-! ## The subprocesses -/

section Subprocesses

variable {S : Type} {spec : Program.Spec Op Op.Answer S}

/-- **The way through `run`.**  What the specification has to give at each of its steps: the process is
started, connected, stored, read, awaited, and the slot is cleared on every way out. -/
theorem wp_runProcess {command : Command} {environment : Environment}
    {Q : Except PyException ProcessResult → S → Prop} {s : S}
    (h : spec.wp (.call (.popen command environment)) (fun r s => match r with
      | .error e => Q (.error (.raised e)) s
      | .ok pid => spec.wp (.await (.connected pid)) (fun r s => match r with
        | .error e => Q (.error e) s
        | .ok _ => spec.wp (.call (.setProcess (some pid))) (fun _ s =>
          spec.wp (.await (.output pid)) (fun r s => match r with
            | .error e => spec.wp (.call (.setProcess none)) (fun _ s => Q (.error e) s) s
            | .ok output => spec.wp (.await (.exitStatus pid)) (fun r s => match r with
              | .error e => spec.wp (.call (.setProcess none)) (fun _ s => Q (.error e) s) s
              | .ok exitCode =>
                spec.wp (.call (.setProcess none)) (fun _ s => Q (.ok ⟨exitCode, output⟩) s) s) s) s)
          s) s) s) :
    Program.wp spec (runProcess command environment) Q s := by
  unfold runProcess createSubprocess
  simp only [Program.wp_bind, wp_popen]
  refine spec.mono ?_ h
  intro r s hr
  cases r with
  | error e => exact hr
  | ok pid =>
    simp only [Except.mapError, Program.wp_pure, wp_setProcess]
    refine spec.mono ?_ hr
    intro r s hr
    cases r with
    | error e => exact hr
    | ok _ =>
      refine spec.mono ?_ hr
      intro _ s hr
      simp only [Program.wp_tryFinally, Program.wp_bind, Program.wp_pure, wp_setProcess]
      refine spec.mono ?_ hr
      intro r s hr
      cases r with
      | error e => exact hr
      | ok output =>
        refine spec.mono ?_ hr
        intro r s hr
        cases r with
        | error e => exact hr
        | ok exitCode => exact hr

/-- What the timeout context makes of an exception. -/
def PyException.timed : PyException → PyException
  | .expired => .raised (.timeoutError [])
  | e => e

/-- The timeout context. -/
theorem wp_runWithTimeout {command : Command} {environment : Environment}
    {Q : Except PyException ProcessResult → S → Prop} {s : S}
    (h : Program.wp spec (runProcess command environment) (fun r => Q (r.mapError .timed)) s) :
    Program.wp spec (runWithTimeout command environment) Q s := by
  unfold runWithTimeout
  rw [Program.wp_tryCatch]
  refine Program.wp_mono ?_ h
  intro r s hr
  cases r with
  | ok result => exact hr
  | error e => cases e <;> exact hr

end Subprocesses

/-! ## What an await can be answered with -/

/-- The errors that an await can raise: a timeout interrupts only the awaits of a subprocess, and only
reading its output raises an error of its own. -/
def Await.Allows : (a : Await) → Except PyException a.Value → Prop
  | _, .ok _ => True
  | .connected _, .error e => e = .expired ∨ e = .cancelled
  | .output _, .error _ => True
  | .exitStatus _, .error e => e = .expired ∨ e = .cancelled
  | .stopped, .error e => e = .cancelled
  | .launches, .error e => e = .cancelled

/-- A start that is being aborted is aborted by a cancellation, from outside only when there was one. -/
def World.AbortsByCancellation (w : World) : Prop :=
  ∀ cause, w.aborting = some cause → cause = .expired ∨ cause = .cancelled ∧ w.cancelling = true

theorem World.answer_allows {w : World} (hw : w.AbortsByCancellation) {a : Await} {r : Resumption}
    {x : Except PyException a.Value} (h : w.answer a r = some x) : a.Allows x := by
  cases x with
  | ok v => cases a <;> trivial
  | error e =>
    cases a with
    | output pid => trivial
    | connected pid =>
      cases r <;> simp only [World.answer] at h <;> try cases h
      · split at h <;> cases h
      · split at h
        · rename_i cause _ hcause _
          cases h
          exact (hw _ hcause).imp id And.left
        · cases h
      · split at h
        · cases h
        · cases h
          exact .inr rfl
    | exitStatus pid =>
      cases r <;> simp only [World.answer] at h <;> try cases h
      · obtain ⟨_, _, h⟩ := Option.map_eq_some_iff.mp h
        cases h
      · exact .inl rfl
      · exact .inr rfl
    | stopped => cases r <;> cases h; rfl
    | launches => cases r <;> cases h; rfl

/-- An await is cancelled from outside only when the task was. -/
theorem World.cancelling_of_answer {w : World} (hw : w.AbortsByCancellation) {a : Await}
    {r : Resumption} (hr : r.cancels = w.cancelling) (h : w.answer a r = some (.error .cancelled)) :
    w.cancelling = true := by
  cases r with
  | cancelled => exact hr.symm
  | aborted =>
    cases a <;> simp only [World.answer] at h <;> try cases h
    split at h
    · rename_i cause _ hcause _
      cases h
      rcases hw _ hcause with hc | ⟨-, hc⟩
      · cases hc
      · exact hc
    · cases h
  | begin => cases a <;> cases h
  | ready =>
    cases a <;> simp only [World.answer] at h <;> try cases h
    split at h <;> cases h
  | exited =>
    cases a <;> simp only [World.answer] at h <;> try cases h
    obtain ⟨_, _, h⟩ := Option.map_eq_some_iff.mp h
    cases h
  | overlong => cases a <;> cases h
  | logFails e => cases a <;> cases h
  | eof => cases a <;> cases h
  | stopped => cases a <;> cases h
  | launches page => cases a <;> cases h
  | timeout => cases a <;> cases h

/-- A `TimeoutError`, or the cancellation that becomes one. -/
def PyException.isTimeout : PyException → Bool
  | .expired => true
  | .raised (.timeoutError _) => true
  | _ => false

/-- What `run` raises when the task goes on so. -/
def Resumption.raises : Resumption → Option PyException
  | .overlong => some (.raised overlongError)
  | .logFails e => some (.raised e)
  | .timeout => some .expired
  | _ => none

/-- The exit status arrives. -/
def Resumption.exits : Resumption → Bool
  | .exited => true
  | _ => false

/-- The subprocess whose output or exit status is awaited. -/
def World.watched (w : World) : Option Subprocess :=
  match w.task with
  | some (.suspended (.output pid) _) => w.subprocesses[pid]?
  | some (.suspended (.exitStatus pid) _) => w.subprocesses[pid]?
  | _ => none

theorem raises_of_answer {w : World} {pid : ℕ} {r : Resumption} {e : PyException}
    (h : w.answer (.output pid) r = some (.error e) ∨ w.answer (.exitStatus pid) r = some (.error e)) :
    r.raises = some e ∨ e = .cancelled := by
  rcases h with h | h
  · cases r <;> cases h
    · exact .inl rfl
    · exact .inl rfl
    · exact .inl rfl
    · exact .inr rfl
  · cases r with
    | exited =>
      obtain ⟨_, _, h⟩ := Option.map_eq_some_iff.mp h
      cases h
    | timeout =>
      cases h
      exact .inl rfl
    | cancelled =>
      cases h
      exact .inr rfl
    | _ => cases h

/-! ## What the operations of the world change -/

/-- Terminating the stored process marks subprocesses, and nothing else. -/
theorem terminateProcess_eq (w : World) :
    ∃ ps, w.terminateProcess = { w with subprocesses := ps } := by
  unfold World.terminateProcess
  split
  · exact ⟨w.subprocesses, rfl⟩
  · exact ⟨_, rfl⟩

/-- A call of the task writes states, starts and marks subprocesses, and sets the stored process. -/
theorem perform_eq (answers : Answers) (n : ℕ) (w : World) (op : Call) :
    ∃ history ps process, (w.perform answers n op).2
      = { w with history := history, subprocesses := ps, process := process } := by
  cases op with
  | write state =>
    simp only [World.perform]
    split
    · exact ⟨_, _, _, rfl⟩
    · exact ⟨_, _, _, rfl⟩
  | now => exact ⟨_, _, _, rfl⟩
  | cancelRequested => exact ⟨_, _, _, rfl⟩
  | fileSystem => exact ⟨_, _, _, rfl⟩
  | setProcess process => exact ⟨_, _, _, rfl⟩
  | terminateProcess =>
    obtain ⟨ps, hps⟩ := terminateProcess_eq w
    exact ⟨_, ps, _, hps⟩
  | popen command environment =>
    simp only [World.perform]
    split
    · exact ⟨_, _, _, rfl⟩
    · exact ⟨_, _, _, rfl⟩
  | popenStop container =>
    simp only [World.perform]
    split
    · exact ⟨_, _, _, rfl⟩
    · exact ⟨_, _, _, rfl⟩

/-- A stretch of the task leaves the rest of the world as it is. -/
theorem advance_eq (answers : Answers) (n : ℕ) (work : Work Unit) (w : World) :
    ∃ history ps process task captured aborting, advance answers n work w
      = { w with
          history := history, subprocesses := ps, process := process, task := some task,
          captured := captured, aborting := aborting } ∧ (aborting = none ∨ aborting = w.aborting) := by
  induction work generalizing n w with
  | pure a => exact ⟨_, _, _, _, _, _, rfl, .inr rfl⟩
  | throw e => exact ⟨_, _, _, _, _, _, rfl, .inr rfl⟩
  | call op k ih =>
    cases op with
    | await a => exact ⟨_, _, _, _, _, _, rfl, .inl rfl⟩
    | call op =>
      obtain ⟨history, ps, process, heq⟩ := perform_eq answers n w op
      obtain ⟨history', ps', process', task, captured, aborting, heq', hab⟩ :=
        ih (w.perform answers n op).1 (n + 1) (w.perform answers n op).2
      refine ⟨history', ps', process', task, captured, aborting, ?_, ?_⟩
      · rw [advance, heq', heq]
      · rwa [heq] at hab

/-! ## The steps -/

/-- A start request does nothing, or begins the operation that it prepared. -/
theorem step_start {settings : Settings} {w w' : World} {request : Request} {hex : OperationHex}
    {time : ℕ} (h : step settings w (.start request hex time) = some w') :
    w' = w ∨ ∃ state work, request.prepare settings hex time = .ok (state, work) ∧
      w.start state work = .ok w' ∧ w.canceller = none ∧
      ∀ st ∈ w.history, st.operationId ≠ request.newId hex := by
  simp only [step] at h
  split at h
  · cases h
  rename_i hguard
  rw [not_or, not_not, not_exists] at hguard
  split at h
  · cases h
    exact .inl rfl
  · rename_i state work hprepare
    split at h
    · cases h
      exact .inl rfl
    · rename_i w₁ hstart
      cases h
      exact .inr ⟨state, work, hprepare, hstart, hguard.1, fun st hst heq => hguard.2 st ⟨hst, heq⟩⟩

/-- A start request begins what it prepared, when the lock is free and no task is active. -/
theorem step_start_ok {settings : Settings} {w w' : World} {request : Request} {hex : OperationHex}
    {time : ℕ} {state : OperationState} {work : Work Unit} (hlock : w.canceller = none)
    (hnew : ∀ st ∈ w.history, st.operationId ≠ request.newId hex)
    (hprepare : request.prepare settings hex time = .ok (state, work)) (hstart : w.start state work = .ok w') :
    step settings w (.start request hex time) = some w' := by
  have hfree : ¬(w.canceller ≠ none ∨ ∃ st ∈ w.history, st.operationId = request.newId hex) := by
    rintro (hheld | ⟨st, hst, hid⟩)
    · exact hheld hlock
    · exact hnew st hst hid
  rw [step, if_neg hfree, hprepare]
  dsimp only
  rw [hstart]

/-- An accepted start finds no task running. -/
theorem start_ok {w w' : World} {state : OperationState} {work : Work Unit}
    (h : w.start state work = .ok w') : w.busy = false ∧ w' = { w with
      cancelRequested := false
      log := []
      history := w.history ++ [state]
      operation := state.operationId
      task := some (.created work)
      cancelling := false
      captured := []
      aborting := none } := by
  unfold World.start at h
  split at h
  · split at h <;> cases h
  · rename_i hbusy
    cases h
    exact ⟨by simpa using hbusy, rfl⟩

/-- **What a start request prepares**: the first state of its operation, and one of the two procedures. -/
theorem prepare_ok {settings : Settings} {request : Request} {hex : OperationHex} {time : ℕ}
    {state : OperationState} {work : Work Unit}
    (h : request.prepare settings hex time = .ok (state, work)) :
    state.operationId = request.newId hex ∧ state.status.isTerminal = false ∧ state.summary = none ∧
      ((∃ command reference, work = executeImageOperation state command reference ∧
          state.containerName = none ∧ containerOf command = none) ∨
        ∃ command, work = executeTestRun settings state command ∧
          state.runId = some state.operationId ∧
          state.containerName = some (Settings.runContainer state.operationId) ∧
          containerOf command = some (Settings.runContainer state.operationId)) := by
  cases request with
  | build revision =>
    cases h
    exact ⟨rfl, rfl, rfl, .inl ⟨_, _, rfl, rfl, containerOf_buildImage _ _⟩⟩
  | pull reference =>
    simp only [Request.prepare] at h
    split at h
    · cases h
    · rename_i command hcommand
      cases h
      exact ⟨rfl, rfl, rfl, .inl ⟨_, _, rfl, rfl, containerOf_pullImage hcommand⟩⟩
  | run image stand scenario =>
    simp only [Request.prepare] at h
    split at h
    · cases h
    · rename_i command hcommand
      cases h
      exact ⟨rfl, rfl, rfl, .inr ⟨_, rfl, rfl, rfl, containerOf_runTests hcommand⟩⟩

/-- **What a restart does**: it forgets the task and what concerns it, and records the current state
once more, as `INTERRUPTED`, when it is not terminal. -/
theorem restart_eq (w : World) : ∃ added, w.restart = { w with
      history := w.history ++ added
      operation := []
      task := none
      cancelling := false
      captured := []
      aborting := none
      cancelRequested := false
      process := none
      canceller := none
      stopper := none } ∧
    ∀ st ∈ added, st.status = .interrupted ∧ ∃ last, w.current = some last ∧
      st.operationId = last.operationId ∧ st.containerName = last.containerName := by
  unfold World.restart World.markInterrupted
  split
  · exact ⟨[], by rw [List.append_nil], fun _ hst => nomatch hst⟩
  · rename_i last hlast
    split
    · exact ⟨[], by rw [List.append_nil], fun _ hst => nomatch hst⟩
    · refine ⟨_, rfl, fun st hst => ?_⟩
      rw [List.mem_singleton.mp hst]
      exact ⟨rfl, last, hlast, rfl, rfl⟩

/-! ## How a task goes on -/

/-- **What a resumption can do**: begin the task or answer its await, end it before it began, or kill
the subprocess that it is starting. -/
theorem resume_cases {w w' : World} {r : Resumption} {answers : Answers}
    (h : w.resume r answers = some w') : r.cancels = w.cancelling ∧
      ((∃ work, w.continuation r = some work ∧ w' = advance answers 0 work w) ∨
        (∃ work, w.task = some (.created work) ∧ r = .cancelled ∧
          w' = { w with task := some (.finished (.error .cancelled)) }) ∨
        ∃ pid k cause, w.task = some (.suspended (.connected pid) k) ∧ w.aborting = none ∧
          abortCause r = some cause ∧ w' = { w.kill pid with aborting := some cause }) := by
  unfold World.resume at h
  split_ifs at h with hcancels
  refine ⟨not_not.mp hcancels, ?_⟩
  split at h
  · rename_i work hwork
    exact .inl ⟨work, hwork, (Option.some.inj h).symm⟩
  · split at h
    · rename_i htask _
      exact .inr (.inl ⟨_, htask, rfl, (Option.some.inj h).symm⟩)
    · rename_i pid k htask _
      split at h
      · rename_i cause hab hcause
        exact .inr (.inr ⟨pid, k, cause, htask, hab, hcause, (Option.some.inj h).symm⟩)
      · cases h
    · cases h

/-- A task goes on from its beginning, or from an await that is answered. -/
theorem continuation_cases {w : World} {r : Resumption} {work : Work Unit}
    (h : w.continuation r = some work) : (w.task = some (.created work) ∧ r = .begin) ∨
      ∃ a k x, w.task = some (.suspended a k) ∧ w.answer a r = some x ∧ work = k x := by
  unfold World.continuation at h
  split at h
  · rename_i work' htask
    cases h
    exact .inl ⟨htask, rfl⟩
  · rename_i a k htask
    obtain ⟨x, hx, rfl⟩ := Option.map_eq_some_iff.mp h
    exact .inr ⟨a, k, x, htask, hx, rfl⟩
  · cases h

/-- What the task leaves as it is when it goes on. -/
structure Onward (w w' : World) : Prop where
  operation : w'.operation = w.operation
  requested : w'.cancelRequested = w.cancelRequested
  cancelling : w'.cancelling = w.cancelling
  canceller : w'.canceller = w.canceller
  accepted : w'.accepted = w.accepted
  task : ∃ task, w'.task = some task

/-- The task only adds to the written states. -/
theorem advance_history (answers : Answers) (n : ℕ) (work : Work Unit) (w : World) :
    ∃ added, (advance answers n work w).history = w.history ++ added := by
  induction work generalizing n w with
  | pure a => exact ⟨[], by simp [advance]⟩
  | throw e => exact ⟨[], by simp [advance]⟩
  | call op k ih =>
    cases op with
    | await a => exact ⟨[], by simp [advance]⟩
    | call c =>
      have hperform : ∃ added, (w.perform answers n c).2.history = w.history ++ added := by
        cases c with
        | write state =>
          simp only [World.perform]
          split
          · exact ⟨[state], rfl⟩
          · exact ⟨[], by simp⟩
        | popen command environment =>
          simp only [World.perform]
          split <;> exact ⟨[], by simp⟩
        | popenStop container =>
          simp only [World.perform]
          split
          · exact ⟨[], by simp [World.stopContainer]⟩
          · exact ⟨[], by simp⟩
        | terminateProcess =>
          obtain ⟨ps, hps⟩ := terminateProcess_eq w
          exact ⟨[], by simp [World.perform, hps]⟩
        | now => exact ⟨[], by simp [World.perform]⟩
        | cancelRequested => exact ⟨[], by simp [World.perform]⟩
        | fileSystem => exact ⟨[], by simp [World.perform]⟩
        | setProcess process => exact ⟨[], by simp [World.perform]⟩
      obtain ⟨added, hadded⟩ := hperform
      obtain ⟨more, hmore⟩ := ih (w.perform answers n c).1 (n + 1) (w.perform answers n c).2
      exact ⟨added ++ more, by rw [advance, hmore, hadded, List.append_assoc]⟩

theorem onward_advance (answers : Answers) (n : ℕ) (work : Work Unit) (w : World) :
    Onward w (advance answers n work w) := by
  obtain ⟨_, _, _, _, _, _, heq, -⟩ := advance_eq answers n work w
  rw [heq]
  exact ⟨rfl, rfl, rfl, rfl, rfl, _, rfl⟩

theorem resume_onward {w w' : World} {r : Resumption} {answers : Answers}
    (h : w.resume r answers = some w') : Onward w w' := by
  obtain ⟨-, ⟨work, -, rfl⟩ | ⟨work, -, -, rfl⟩ | ⟨pid, k, cause, htask, -, -, rfl⟩⟩ := resume_cases h
  · exact onward_advance answers 0 work w
  · exact ⟨rfl, rfl, rfl, rfl, rfl, _, rfl⟩
  · exact ⟨rfl, rfl, rfl, rfl, rfl, _, htask⟩

/-! ## What happens beside the task -/

/-- What time makes of a subprocess: what has happened to it stays so. -/
structure Subprocess.Later (p q : Subprocess) : Prop where
  operation : q.operation = p.operation
  command : q.command = p.command
  exited : q.alive = true → p.alive = true
  terminated : p.terminated = true → q.terminated = true
  stopIssued : p.stopIssued = true → q.stopIssued = true
  stopReached : p.stopReached = true → q.stopReached = true

theorem Subprocess.Later.refl (p : Subprocess) : p.Later p := ⟨rfl, rfl, id, id, id, id⟩

theorem Subprocess.Later.trans {p q r : Subprocess} (h : p.Later q) (h' : q.Later r) : p.Later r :=
  ⟨h'.operation.trans h.operation, h'.command.trans h.command, h.exited ∘ h'.exited,
    h'.terminated ∘ h.terminated, h'.stopIssued ∘ h.stopIssued, h'.stopReached ∘ h.stopReached⟩

/-- Subprocess for subprocess. -/
def LaterAll (ps qs : List Subprocess) : Prop := List.Forall₂ Subprocess.Later ps qs

theorem laterAll_refl (ps : List Subprocess) : LaterAll ps ps :=
  List.forall₂_same.mpr fun p _ => .refl p

theorem LaterAll.trans {ps qs rs : List Subprocess} (h : LaterAll ps qs) (h' : LaterAll qs rs) :
    LaterAll ps rs := by
  induction h generalizing rs with
  | nil => exact h'
  | cons hpq _ ih =>
    cases h' with
    | cons hqr hrest => exact .cons (hpq.trans hqr) (ih hrest)

theorem laterAll_map {f : Subprocess → Subprocess} (hf : ∀ p : Subprocess, p.Later (f p)) (ps : List Subprocess) :
    LaterAll ps (ps.map f) := by
  induction ps with
  | nil => exact .nil
  | cons p ps ih => exact .cons (hf p) ih

theorem laterAll_modify {f : Subprocess → Subprocess} (hf : ∀ p : Subprocess, p.Later (f p)) (pid : ℕ)
    (ps : List Subprocess) : LaterAll ps (ps.modify pid f) := by
  induction ps generalizing pid with
  | nil =>
    rw [List.modify_nil]
    exact .nil
  | cons p ps ih =>
    cases pid with
    | zero => exact .cons (hf p) (laterAll_refl ps)
    | succ pid => exact .cons (.refl p) (ih pid)

theorem LaterAll.getElem? {ps qs : List Subprocess} (h : LaterAll ps qs) {pid : ℕ} {q : Subprocess}
    (hq : qs[pid]? = some q) : ∃ p, ps[pid]? = some p ∧ p.Later q := by
  induction h generalizing pid with
  | nil => cases hq
  | cons hpq _ ih =>
    cases pid with
    | zero =>
      cases hq
      exact ⟨_, rfl, hpq⟩
    | succ pid => exact ih hq

theorem LaterAll.getElem?_left {ps qs : List Subprocess} (h : LaterAll ps qs) {pid : ℕ} {p : Subprocess}
    (hp : ps[pid]? = some p) : ∃ q, qs[pid]? = some q ∧ p.Later q := by
  induction h generalizing pid with
  | nil => cases hp
  | cons hpq _ ih =>
    cases pid with
    | zero =>
      cases hp
      exact ⟨_, rfl, hpq⟩
    | succ pid => exact ih hp

theorem LaterAll.mem {ps qs : List Subprocess} (h : LaterAll ps qs) {q : Subprocess} (hq : q ∈ qs) :
    ∃ p ∈ ps, p.Later q := by
  obtain ⟨pid, hq⟩ := List.getElem?_of_mem hq
  obtain ⟨p, hp, hpq⟩ := h.getElem? hq
  exact ⟨p, List.mem_of_getElem? hp, hpq⟩

/-- What an event beside the task leaves as it is. -/
structure Aside (w w' : World) : Prop where
  history : w'.history = w.history
  operation : w'.operation = w.operation
  task : w'.task = w.task
  process : w'.process = w.process
  aborting : w'.aborting = w.aborting
  cancelling : w.cancelling = true → w'.cancelling = true
  requested : w.cancelRequested = true → w'.cancelRequested = true
  subprocesses : LaterAll w.subprocesses w'.subprocesses

theorem Aside.refl (w : World) : Aside w w := ⟨rfl, rfl, rfl, rfl, rfl, id, id, laterAll_refl _⟩

theorem Aside.trans {u v w : World} (h : Aside u v) (h' : Aside v w) : Aside u w :=
  ⟨h'.history.trans h.history, h'.operation.trans h.operation, h'.task.trans h.task,
    h'.process.trans h.process, h'.aborting.trans h.aborting, h'.cancelling ∘ h.cancelling,
    h'.requested ∘ h.requested, h.subprocesses.trans h'.subprocesses⟩

/-- What else the world holds does not matter here. -/
theorem Aside.unrelated {u v : World} (h : Aside u v) (clock : ℕ) (log captured : Text)
    (canceller stopper : Option Text) (accepted : List Text) :
    Aside u { v with
      clock := clock, log := log, captured := captured, canceller := canceller, stopper := stopper,
      accepted := accepted } :=
  ⟨h.history, h.operation, h.task, h.process, h.aborting, h.cancelling, h.requested, h.subprocesses⟩

/-- `task.cancel()`. -/
theorem Aside.cancelTask {u v : World} (h : Aside u v) : Aside u { v with cancelling := true } :=
  ⟨h.history, h.operation, h.task, h.process, h.aborting, fun _ => rfl, h.requested, h.subprocesses⟩

theorem aside_modifySubprocess (w : World) (pid : ℕ) {f : Subprocess → Subprocess}
    (hf : ∀ p : Subprocess, p.Later (f p)) : Aside w (w.modifySubprocess pid f) :=
  ⟨rfl, rfl, rfl, rfl, rfl, id, id, laterAll_modify hf pid _⟩

theorem aside_kill (w : World) (pid : ℕ) : Aside w (w.kill pid) := by
  refine aside_modifySubprocess w pid fun p => ?_
  split
  · exact ⟨rfl, rfl, id, fun _ => rfl, id, id⟩
  · exact .refl p

theorem aside_terminateProcess (w : World) : Aside w w.terminateProcess := by
  unfold World.terminateProcess
  split
  · exact .refl w
  · exact aside_kill w _

theorem aside_stopContainer (w : World) (container : Text) : Aside w (w.stopContainer container) := by
  refine ⟨rfl, rfl, rfl, rfl, rfl, id, id, laterAll_map (fun p => ?_) _⟩
  split
  · exact ⟨rfl, rfl, id, id, fun _ => rfl, fun h => by simp [h]⟩
  · exact .refl p

/-- A call of the task marks subprocesses, or starts one of its operation. -/
theorem perform_subprocesses (answers : Answers) (n : ℕ) (w : World) (c : Call) :
    LaterAll w.subprocesses (w.perform answers n c).2.subprocesses ∨
      ∃ command environment p, c = .popen command environment ∧
        (w.perform answers n c).2.subprocesses = w.subprocesses ++ [p] ∧ p.operation = w.operation := by
  cases c with
  | popen command environment =>
    simp only [World.perform]
    split
    · exact .inr ⟨command, environment, _, rfl, rfl, rfl⟩
    · exact .inl (laterAll_refl _)
  | write state =>
    refine .inl ?_
    simp only [World.perform]
    split <;> exact laterAll_refl _
  | popenStop container =>
    refine .inl ?_
    simp only [World.perform]
    split
    · exact (aside_stopContainer w container).subprocesses
    · exact laterAll_refl _
  | terminateProcess => exact .inl (aside_terminateProcess w).subprocesses
  | now => exact .inl (laterAll_refl _)
  | cancelRequested => exact .inl (laterAll_refl _)
  | fileSystem => exact .inl (laterAll_refl _)
  | setProcess process => exact .inl (laterAll_refl _)

/-- The events beside the task: the requests but a start, the clock, and what the subprocesses do. -/
def Event.aside : Event → Bool
  | .start .. | .restart | .resume .. => false
  | _ => true

/-- **Beside the task**, requests only mark subprocesses, and time lets them exit. -/
theorem step_aside {settings : Settings} {w w' : World} {e : Event} (he : e.aside = true)
    (h : step settings w e = some w') : Aside w w' := by
  cases e with
  | start => cases he
  | restart => cases he
  | resume => cases he
  | tick =>
    cases h
    exact (Aside.refl w).unrelated _ _ _ _ _ _
  | containerUp pid =>
    cases h
    refine aside_modifySubprocess w pid fun p => ?_
    split
    · exact ⟨rfl, rfl, id, id, id, id⟩
    · exact .refl p
  | exit pid code =>
    cases h
    refine aside_modifySubprocess w pid fun p => ?_
    split
    · rename_i hp
      exact ⟨rfl, rfl, fun _ => hp, id, id, id⟩
    · exact .refl p
  | line bytes =>
    simp only [step] at h
    split at h
    · split_ifs at h
      cases h
      exact (Aside.refl w).unrelated _ _ _ _ _ _
    · cases h
  | cancel launch =>
    simp only [step] at h
    split_ifs at h
    cases h
    unfold World.cancel
    split
    · exact .refl w
    · have hset : Aside w { w with cancelRequested := true } :=
        ⟨rfl, rfl, rfl, rfl, rfl, id, fun _ => rfl, laterAll_refl _⟩
      dsimp only
      split
      · exact (hset.trans (aside_terminateProcess _)).unrelated _ _ _ _ _ _
      · split
        · exact hset
        · exact (hset.trans (aside_stopContainer _ _)).unrelated _ _ _ _ _ _
  | cancelStopped =>
    obtain ⟨x, -, rfl⟩ := Option.map_eq_some_iff.mp h
    exact (aside_terminateProcess w).unrelated _ _ _ _ _ _
  | shutdown launch =>
    simp only [step] at h
    split_ifs at h
    cases h
    unfold World.shutdown
    split
    · exact .refl w
    · split
      · exact (aside_terminateProcess w).cancelTask
      · split
        · exact .refl w
        · exact (aside_stopContainer w _).unrelated _ _ _ _ _ _
  | shutdownStopped =>
    obtain ⟨x, -, rfl⟩ := Option.map_eq_some_iff.mp h
    have hterm : Aside w { w.terminateProcess with stopper := none } :=
      (aside_terminateProcess w).unrelated _ _ _ _ _ _
    unfold World.shutdownStopped
    dsimp only
    split
    · exact hterm.cancelTask
    · exact hterm

/-- What is written stays. -/
theorem step_history {settings : Settings} {w w' : World} {e : Event}
    (h : step settings w e = some w') : ∃ added, w'.history = w.history ++ added := by
  by_cases he : e.aside = true
  · exact ⟨[], by rw [(step_aside he h).history, List.append_nil]⟩
  cases e with
  | start request hex time =>
    rcases step_start h with rfl | ⟨state, work, -, hstart, -, -⟩
    · exact ⟨[], by simp⟩
    · obtain ⟨-, rfl⟩ := start_ok hstart
      exact ⟨[state], rfl⟩
  | restart =>
    cases h
    unfold World.restart World.markInterrupted
    split
    · exact ⟨[], by simp⟩
    · split
      · exact ⟨[], by simp⟩
      · exact ⟨_, rfl⟩
  | resume r answers =>
    obtain ⟨-, ⟨work, -, rfl⟩ | ⟨work, -, -, rfl⟩ | ⟨pid, k, cause, -, -, -, rfl⟩⟩ := resume_cases h
    · exact advance_history answers 0 work w
    · exact ⟨[], by simp⟩
    · exact ⟨[], by simp [World.kill, World.modifySubprocess]⟩
  | _ => exact absurd rfl he

/-! ## Aborted starts -/

/-- What a stretch of the task leaves of an aborted start. -/
theorem advance_aborts {answers : Answers} {n : ℕ} {work : Work Unit} {w : World}
    (hw : w.AbortsByCancellation) : (advance answers n work w).AbortsByCancellation := by
  obtain ⟨_, _, _, _, _, aborting, heq, hab⟩ := advance_eq answers n work w
  rw [heq]
  rcases hab with rfl | rfl
  · exact fun cause hc => by cases hc
  · exact hw

/-- Along every run a start is aborted only by a cancellation. -/
theorem step_aborts {settings : Settings} {w w' : World} {e : Event} (hw : w.AbortsByCancellation)
    (h : step settings w e = some w') : w'.AbortsByCancellation := by
  by_cases he : e.aside = true
  · have hside := step_aside he h
    intro cause hc
    rw [hside.aborting] at hc
    exact (hw cause hc).imp id fun hc => ⟨hc.1, hside.cancelling hc.2⟩
  cases e with
  | start request hex time =>
    rcases step_start h with rfl | ⟨state, work, -, hstart, -, -⟩
    · exact hw
    · obtain ⟨-, rfl⟩ := start_ok hstart
      exact fun cause hc => by cases hc
  | restart =>
    cases h
    intro cause hcause
    unfold World.restart World.markInterrupted at hcause
    split at hcause
    · cases hcause
    · split at hcause <;> cases hcause
  | resume r answers =>
    obtain ⟨hr, ⟨work, -, rfl⟩ | ⟨work, -, -, rfl⟩ | ⟨pid, k, cause, -, -, hcause, rfl⟩⟩ :=
      resume_cases h
    · exact advance_aborts hw
    · exact hw
    · intro c hc
      cases hc
      cases r <;> cases hcause
      · exact .inl rfl
      · exact .inr ⟨rfl, hr.symm⟩
  | _ => exact absurd rfl he

/-! ## The calls of a stretch -/

/-- Every call of a stretch of the task satisfies `P` where it is made, with its answer. -/
def Calls (P : World → (c : Call) → c.Answer → Prop) (answers : Answers) :
    ℕ → Work Unit → World → Prop
  | n, .call (.call c) k, w =>
    P w c (w.perform answers n c).1 ∧
      Calls P answers (n + 1) (k (w.perform answers n c).1) (w.perform answers n c).2
  | _, _, _ => True

theorem calls_of_forall {P : World → (c : Call) → c.Answer → Prop} (hP : ∀ w c x, P w c x)
    {answers : Answers} {n : ℕ} {work : Work Unit} {w : World} : Calls P answers n work w := by
  induction work generalizing n w with
  | pure a => trivial
  | throw e => trivial
  | call op k ih =>
    cases op with
    | await a => trivial
    | call c => exact ⟨hP _ _ _, ih _⟩

theorem Calls.mono {P Q : World → (c : Call) → c.Answer → Prop} (hPQ : ∀ w c x, P w c x → Q w c x)
    {answers : Answers} {n : ℕ} {work : Work Unit} {w : World} (h : Calls P answers n work w) :
    Calls Q answers n work w := by
  induction work generalizing n w with
  | pure a => trivial
  | throw e => trivial
  | call op k ih =>
    cases op with
    | await a => trivial
    | call c => exact ⟨hPQ _ _ _ h.1, ih _ h.2⟩

/-- Every call of the task, when it goes on so, satisfies `P`. -/
def World.ResumeCalls (P : World → (c : Call) → c.Answer → Prop) (w : World) (r : Resumption)
    (answers : Answers) : Prop :=
  ∀ work, w.continuation r = some work → Calls P answers 0 work w

section Decide

variable {P : World → (c : Call) → c.Answer → Prop} [∀ w c x, Decidable (P w c x)] {answers : Answers}

instance Calls.decidable : ∀ n work w, Decidable (Calls P answers n work w)
  | _, .pure _, _ => isTrue trivial
  | _, .throw _, _ => isTrue trivial
  | _, .call (.await _) _, _ => isTrue trivial
  | n, .call (.call c) k, w =>
    have := Calls.decidable (n + 1) (k (w.perform answers n c).1) (w.perform answers n c).2
    inferInstanceAs (Decidable (_ ∧ _))

instance (w : World) (r : Resumption) : Decidable (w.ResumeCalls P r answers) :=
  match h : w.continuation r with
  | none => isTrue fun work hwork => by simp [h] at hwork
  | some work => decidable_of_iff (Calls P answers 0 work w)
      ⟨fun hc work' hw => Option.some.inj (h.symm.trans hw) ▸ hc, fun hc => hc work h⟩

end Decide

/-! ## From a procedure to the world -/

/-- A contract between the tasks and the world, over a state `S` of the proof: what a procedure may do
(`spec`) and how it may end (`post`), what the world then is (`holds`), and how others may change it
while the task waits (`rely`). -/
structure Contract (S : Type) where
  spec : Program.Spec Op Op.Answer S
  post : Except PyException Unit → S → Prop
  holds : World → S → Prop
  rely : S → S → Prop
  rely_trans : ∀ {s t u : S}, rely s t → rely t u → rely s u
  await_rely : ∀ {a : Await} {K : Except PyException a.Value → S → Prop} {s t : S}, rely s t →
    spec.wp (.await a) K s → spec.wp (.await a) K t
  post_rely : ∀ {r : Except PyException Unit} {s t : S}, rely s t → post r s → post r t
  frame : ∀ {w : World} {s : S} (task : Option Task) (captured : Text) (aborting : Option PyException),
    holds w s → holds { w with task := task, captured := captured, aborting := aborting } s

namespace Contract

variable {S : Type} (c : Contract S)

/-- What a task still has to do meets the contract. -/
def Met (s : S) : Task → Prop
  | .created work => ∀ t, c.rely s t → Program.wp c.spec work c.post t
  | .suspended a k => Program.wp c.spec (.call (.await a) k) c.post s
  | .finished r => c.post r s

/-- The task of the world, if there is one, meets the contract. -/
def Upheld (w : World) : Prop := ∀ task, w.task = some task → ∃ s, c.holds w s ∧ c.Met s task

variable {c}

theorem Met.rely {s t : S} {task : Task} (h : c.Met s task) (hst : c.rely s t) : c.Met t task := by
  cases task with
  | created work => exact fun u htu => h u (c.rely_trans hst htu)
  | suspended a k => exact c.await_rely hst h
  | finished r => exact c.post_rely hst h

/-- What others do while the task waits. -/
theorem Upheld.others {w w' : World} (h : c.Upheld w) (htask : w'.task = w.task)
    (hchange : ∀ s, c.holds w s → ∃ t, c.holds w' t ∧ c.rely s t) : c.Upheld w' := by
  intro task ht
  obtain ⟨s, hs, hmet⟩ := h task (htask ▸ ht)
  obtain ⟨t, ht', hrely⟩ := hchange s hs
  exact ⟨t, ht', hmet.rely hrely⟩

/-- A contract that says less of the world. -/
theorem Upheld.mono {holds : World → S → Prop}
    (frame : ∀ {w : World} {s : S} (task : Option Task) (captured : Text) (aborting : Option PyException),
      holds w s → holds { w with task := task, captured := captured, aborting := aborting } s)
    {w : World} (h : c.Upheld w) (hholds : ∀ s, c.holds w s → holds w s) :
    Upheld { c with holds := holds, frame := frame } w := by
  intro task ht
  obtain ⟨s, hs, hmet⟩ := h task ht
  refine ⟨s, hholds s hs, ?_⟩
  cases task <;> exact hmet

section Stretches

variable {P : World → (c : Call) → c.Answer → Prop} {answers : Answers}
  (hcall : ∀ n w s op K, c.holds w s → P w op (w.perform answers n op).1 → c.spec.wp (.call op) K s →
    ∃ t, c.holds (w.perform answers n op).2 t ∧ K (w.perform answers n op).1 t)

include hcall

/-- **A stretch of a task keeps the contract.**  When every call of the world does what the
specification says, the task comes to its end with the postcondition, or to an await with the
precondition of what is left. -/
theorem upheld_advance {work : Work Unit} {n : ℕ} {w : World} {s : S} (hs : c.holds w s)
    (hcalls : Calls P answers n work w) (hwork : Program.wp c.spec work c.post s) :
    c.Upheld (advance answers n work w) := by
  induction work generalizing n w s with
  | pure a =>
    intro task ht
    cases ht
    exact ⟨s, c.frame _ _ _ hs, hwork⟩
  | throw e =>
    intro task ht
    cases ht
    exact ⟨s, c.frame _ _ _ hs, hwork⟩
  | call op k ih =>
    cases op with
    | await a =>
      intro task ht
      cases ht
      exact ⟨s, c.frame _ _ _ hs, hwork⟩
    | call op =>
      obtain ⟨hP, hrest⟩ := hcalls
      obtain ⟨t, ht, hk⟩ := hcall n w s op _ hs hP hwork
      exact ih _ ht hrest hk

/-- **A task that goes on keeps the contract.** -/
theorem Upheld.resume {w w' : World} {r : Resumption} (h : c.Upheld w) (hrefl : ∀ s, c.rely s s)
    (hcalls : w.ResumeCalls P r answers)
    (hawait : ∀ s a k x, w.task = some (.suspended a k) → c.holds w s → w.answer a r = some x →
      ∀ K, c.spec.wp (.await a) K s → ∃ t, c.holds w t ∧ K x t)
    (hbegin : ∀ s work, w.task = some (.created work) → c.holds w s → r = .cancelled →
      c.post (.error .cancelled) s)
    (hkill : ∀ s pid, c.holds w s → c.holds (w.kill pid) s)
    (hw : w.resume r answers = some w') : c.Upheld w' := by
  obtain ⟨-, ⟨work, hwork, rfl⟩ | ⟨work, htask, hr, rfl⟩ | ⟨pid, k, cause, htask, -, -, rfl⟩⟩ :=
    resume_cases hw
  · rcases continuation_cases hwork with ⟨htask, -⟩ | ⟨a, k, x, htask, hx, rfl⟩
    · obtain ⟨s, hs, hmet⟩ := h _ htask
      exact upheld_advance hcall hs (hcalls _ hwork) (hmet s (hrefl s))
    · obtain ⟨s, hs, hmet⟩ := h _ htask
      obtain ⟨t, ht, hk⟩ := hawait s a k x htask hs hx _ hmet
      exact upheld_advance hcall ht (hcalls _ hwork) hk
  · obtain ⟨s, hs, hmet⟩ := h _ htask
    intro task ht
    cases ht
    exact ⟨s, c.frame _ _ _ hs, hbegin s work htask hs hr⟩
  · obtain ⟨s, hs, hmet⟩ := h _ htask
    intro task ht
    have heq : task = _ := Option.some.inj (ht.symm.trans htask)
    subst heq
    exact ⟨s, c.frame _ _ _ (hkill s pid hs), hmet⟩

end Stretches

end Contract

end HardwareTest.Runner
