import HardwareTest.Auth.Handlers
import HardwareTest.Runner.Reach

/-!
# Secrets

Two services whose settings differ only in their secrets run in step.  The secrets are masked: a mask
replaces each by a placeholder, in the settings and in the environments of the containers' subprocesses,
and every step commutes with it.  What the mask keeps is then the same in both runs.

* `Settings.mask`, `maskWork`, `World.mask` — the mask of the settings, of a procedure and of the world;
* `mask_step` — one event, under the mask;
* `World.issued` — the argument vectors that an event issues, among which are those of all subprocesses
  (`commands_sublist_issued`);
* `secrets_reach_only_environments` — what two runs share.
-/

namespace HardwareTest.Runner

open HardwareTest.Lib HardwareTest.Python

/-! ## The settings -/

/-- A secret that is set is replaced; whether it is set and empty can still be seen. -/
def maskSecret : Option Text → Option Text
  | none => none
  | some secret => some (if secret = [] then [] else "**********")

@[simp] theorem hasSecretValue_maskSecret (value : Option Text) :
    hasSecretValue (maskSecret value) = hasSecretValue value := by
  cases value with
  | none => rfl
  | some secret =>
    by_cases h : secret = []
    · simp [maskSecret, hasSecretValue, h]
    · simp [maskSecret, hasSecretValue, h]

@[simp] theorem maskSecret_maskSecret (value : Option Text) :
    maskSecret (maskSecret value) = maskSecret value := by
  cases value with
  | none => rfl
  | some secret =>
    by_cases h : secret = []
    · simp [maskSecret, h]
    · simp [maskSecret, h]

/-- The settings of the coordinator without its secrets. -/
def Settings.mask (settings : Settings) : Settings :=
  { settings with
    allureAccessToken := maskSecret settings.allureAccessToken
    reportportalApiKey := maskSecret settings.reportportalApiKey
    allure_complete := fun h => by
      rw [hasSecretValue_maskSecret]
      exact settings.allure_complete h
    reportportal_complete := fun h => by
      rw [hasSecretValue_maskSecret]
      exact settings.reportportal_complete h }

/-- The settings of the service: of the coordinator, of the router and of the OIDC client. -/
structure ServiceSettings where
  coordinator : Settings
  router : Auth.RouterSettings
  oidcClientSecret : Option Text
  client_secret_set : router.authMode = .keycloak ∨ router.authMode = .keycloakUiLocalApi →
    hasSecretValue oidcClientSecret = true

/-- The settings of the router without its secrets. -/
def maskRouter (settings : Auth.RouterSettings) : Auth.RouterSettings :=
  { settings with
    authPassword := maskSecret settings.authPassword
    authSessionSecret := maskSecret settings.authSessionSecret
    authApiToken := maskSecret settings.authApiToken
    secret_set := fun h => by
      rw [hasSecretValue_maskSecret]
      exact settings.secret_set h
    token_unset := fun h => by
      rw [hasSecretValue_maskSecret]
      exact settings.token_unset h
    token_set := fun h => by
      rw [hasSecretValue_maskSecret]
      exact settings.token_set h
    credentials_set := fun h => by
      rw [hasSecretValue_maskSecret]
      exact settings.credentials_set h }

/-- The settings of the service without its secrets. -/
def ServiceSettings.mask (settings : ServiceSettings) : ServiceSettings where
  coordinator := settings.coordinator.mask
  router := maskRouter settings.router
  oidcClientSecret := maskSecret settings.oidcClientSecret
  client_secret_set h := by
    rw [hasSecretValue_maskSecret]
    exact settings.client_secret_set h

/-! ## The procedures -/

/-- The environment of a container's subprocess is left out, that of any other subprocess is kept. -/
def maskEnvironment (command : Command) (environment : Environment) : Environment :=
  match containerOf command with
  | some _ => none
  | none => environment

@[simp] theorem maskEnvironment_maskEnvironment (command : Command) (environment : Environment) :
    maskEnvironment command (maskEnvironment command environment) = maskEnvironment command environment := by
  unfold maskEnvironment
  cases containerOf command <;> rfl

/-- A call, with the environment of the subprocess that it starts masked. -/
def callMasked {α : Type} : (op : Op) → (op.Answer → Work α) → Work α
  | .call (.popen command environment), k =>
    .call (.call (.popen command (maskEnvironment command environment))) k
  | op, k => .call op k

/-- A procedure, with the environments of the subprocesses that it starts masked. -/
def maskWork {α : Type} : Work α → Work α
  | .pure a => .pure a
  | .throw e => .throw e
  | .call op k => callMasked op fun r => maskWork (k r)

section Procedures

variable {α β : Type}

/-- What is done after a call is done after the masked call. -/
theorem callMasked_comp (F : Work α → Work β) (hF : ∀ op k, F (.call op k) = .call op fun r => F (k r))
    (op : Op) (k : op.Answer → Work α) :
    F (callMasked op k) = callMasked op fun r => F (k r) := by
  cases op with
  | await a => exact hF _ _
  | call c => cases c <;> exact hF _ _

theorem maskWork_callMasked (op : Op) (k : op.Answer → Work α) :
    maskWork (callMasked op k) = callMasked op fun r => maskWork (k r) := by
  cases op with
  | await a => rfl
  | call c =>
    cases c with
    | popen command environment =>
      show Program.call (Op.call (.popen command (maskEnvironment command (maskEnvironment command
        environment)))) _ = _
      rw [maskEnvironment_maskEnvironment]
      rfl
    | _ => rfl

@[simp] theorem maskWork_maskWork (p : Work α) : maskWork (maskWork p) = maskWork p := by
  induction p with
  | pure a => rfl
  | throw e => rfl
  | call op k ih =>
    show maskWork (callMasked op fun r => maskWork (k r)) = callMasked op fun r => maskWork (k r)
    rw [maskWork_callMasked]
    exact congrArg (callMasked op) (funext ih)

theorem maskWork_bind (p : Work α) (f : α → Work β) :
    maskWork (p >>= f) = maskWork p >>= fun a => maskWork (f a) := by
  show maskWork (p.bind f) = (maskWork p).bind fun a => maskWork (f a)
  induction p with
  | pure a => rfl
  | throw e => rfl
  | call op k ih =>
    show callMasked op (fun r => maskWork ((k r).bind f)) = (callMasked op fun r => maskWork (k r)).bind _
    rw [callMasked_comp (fun p => p.bind _) (fun _ _ => rfl)]
    exact congrArg (callMasked op) (funext ih)

theorem maskWork_tryCatch (p : Work α) (handler : PyException → Work α) :
    maskWork (p.tryCatch handler) = (maskWork p).tryCatch fun e => maskWork (handler e) := by
  induction p with
  | pure a => rfl
  | throw e => rfl
  | call op k ih =>
    show callMasked op (fun r => maskWork ((k r).tryCatch handler))
      = (callMasked op fun r => maskWork (k r)).tryCatch _
    rw [callMasked_comp (fun p => p.tryCatch _) (fun _ _ => rfl)]
    exact congrArg (callMasked op) (funext ih)

theorem maskWork_runWithTimeout {command : Command} {container : Text}
    (hcommand : containerOf command = some container) (environment environment' : Environment) :
    maskWork (runWithTimeout command environment) = maskWork (runWithTimeout command environment') := by
  have hmask : ∀ e, maskEnvironment command e = none := fun e => by
    unfold maskEnvironment
    rw [hcommand]
  have hpopen : ∀ e, maskWork (popen command e) = maskWork (popen command none) := fun e => by
    show Program.call (Op.call (.popen command (maskEnvironment command e))) _
      = Program.call (Op.call (.popen command (maskEnvironment command none))) _
    rw [hmask, hmask]
  unfold runWithTimeout runProcess createSubprocess
  simp only [maskWork_tryCatch, maskWork_bind]
  rw [hpopen environment, hpopen environment']

end Procedures

section Coordinator

variable (settings : Settings)

theorem maskWork_runPublisher {command : Command} {container : Text}
    (hcommand : containerOf command = some container) (state : OperationState) (token token' : Text) :
    maskWork (runPublisher state command token) = maskWork (runPublisher state command token') := by
  unfold runPublisher
  rw [maskWork_tryCatch, maskWork_tryCatch, maskWork_bind, maskWork_bind,
    maskWork_runWithTimeout hcommand (some [("ALLURE_ACCESS_TOKEN", token)])
      (some [("ALLURE_ACCESS_TOKEN", token')])]

/-- A publication uses the access token in the environment of the publisher only. -/
theorem maskWork_publishAllure (state : OperationState) (runDirectory : PurePath) :
    maskWork (publishAllure settings.mask state runDirectory)
      = maskWork (publishAllure settings state runDirectory) := by
  have hpath : settings.mask.allureResultsPath = settings.allureResultsPath := rfl
  have htoken : settings.mask.allureAccessToken = maskSecret settings.allureAccessToken := rfl
  have hcommand : settings.mask.publishAllure = settings.publishAllure := rfl
  unfold publishAllure
  rw [hpath, htoken, hcommand]
  cases settings.allureResultsPath with
  | none => rfl
  | some resultsPath =>
    simp only [maskWork_bind]
    congr 1
    funext files
    congr 1
    funext directory
    by_cases hdir : files.isDir directory = true
    · simp only [hdir, Bool.not_true, Bool.false_eq_true, if_false, maskWork_bind]
      congr 1
      funext _
      cases settings.allureAccessToken with
      | none => rfl
      | some token =>
        simp only [maskSecret]
        cases hpublish : settings.publishAllure state.operationId runDirectory with
        | error message => rfl
        | ok command => exact maskWork_runPublisher (containerOf_publishAllure hpublish) state _ _
    · simp only [hdir]
      rfl

theorem maskWork_concludeTestRun (state : OperationState) (expectedDirectory : PurePath)
    (result : ProcessResult) (report : Updates) :
    maskWork (concludeTestRun settings.mask state expectedDirectory result report)
      = maskWork (concludeTestRun settings state expectedDirectory result report) := by
  have hallure : settings.mask.allureEnabled = settings.allureEnabled := rfl
  have hsummary : readSummary settings.mask = readSummary settings := rfl
  unfold concludeTestRun
  rw [hallure, hsummary]
  simp only [maskWork_bind]
  congr 1
  funext requested
  cases requested with
  | true => rfl
  | false =>
    simp only [Bool.false_eq_true, if_false, maskWork_bind]
    congr 1
    funext files
    by_cases hdir : files.isDir expectedDirectory = true
    · simp only [hdir, Bool.not_true, Bool.false_eq_true, if_false, maskWork_bind]
      congr 1
      funext summary
      by_cases hallure : settings.allureEnabled = true
      · simp only [hallure, if_true, maskWork_bind]
        rw [maskWork_publishAllure]
      · simp only [hallure]
        rfl
    · simp only [hdir]
      rfl

/-- **A test run uses the secrets in the environments of its containers only.** -/
theorem maskWork_executeTestRun (state : OperationState) {command : Command} {container : Text}
    (hcommand : containerOf command = some container) :
    maskWork (executeTestRun settings.mask state command)
      = maskWork (executeTestRun settings state command) := by
  have hdirectory : settings.mask.artifactsDirectory = settings.artifactsDirectory := rfl
  have hreport : reportUpdates settings.mask = reportUpdates settings := rfl
  unfold executeTestRun
  rw [hdirectory, hreport]
  cases state.runId with
  | none => rfl
  | some runId =>
    simp only [maskWork_tryCatch, maskWork_bind, maskWork_concludeTestRun]
    rw [maskWork_runWithTimeout hcommand (testEnvironment settings.mask) (testEnvironment settings)]

end Coordinator

/-! ## The world -/

def Subprocess.mask (p : Subprocess) : Subprocess :=
  { p with environment := maskEnvironment p.command p.environment }

def Task.mask : Task → Task
  | .created work => .created (maskWork work)
  | .suspended a k => .suspended a fun r => maskWork (k r)
  | .finished result => .finished result

/-- The world with the environments of the containers' subprocesses masked, of those that were started
and of those that the task is still going to start. -/
def World.mask (w : World) : World :=
  { w with
    task := w.task.map Task.mask
    subprocesses := w.subprocesses.map Subprocess.mask }

@[simp] theorem Subprocess.mask_mask (p : Subprocess) : p.mask.mask = p.mask := by
  show { p with environment := maskEnvironment p.command (maskEnvironment p.command p.environment) } = _
  rw [maskEnvironment_maskEnvironment]
  rfl

@[simp] theorem Task.mask_mask (task : Task) : task.mask.mask = task.mask := by
  cases task with
  | created work => exact congrArg Task.created (maskWork_maskWork work)
  | suspended a k => exact congrArg (Task.suspended a) (funext fun r => maskWork_maskWork (k r))
  | finished result => rfl

@[simp] theorem World.mask_mask (w : World) : w.mask.mask = w.mask := by
  simp [World.mask, Function.comp_def]

theorem map_mask_modify {f : Subprocess → Subprocess} (hf : ∀ p, (f p).mask = f p.mask)
    (ps : List Subprocess) (pid : ℕ) :
    (ps.modify pid f).map Subprocess.mask = (ps.map Subprocess.mask).modify pid f := by
  induction ps generalizing pid with
  | nil => cases pid <;> rfl
  | cons p ps ih =>
    cases pid with
    | zero => simp [hf]
    | succ pid => simp [ih]

namespace World

variable (w : World)

theorem mask_modifySubprocess (pid : ℕ) {f : Subprocess → Subprocess} (hf : ∀ p, (f p).mask = f p.mask) :
    (w.modifySubprocess pid f).mask = w.mask.modifySubprocess pid f := by
  show { w with task := w.task.map Task.mask, subprocesses := (w.subprocesses.modify pid f).map _ } = _
  rw [map_mask_modify hf]
  rfl

theorem mask_kill (pid : ℕ) : (w.kill pid).mask = w.mask.kill pid := by
  refine w.mask_modifySubprocess pid fun p => ?_
  show Subprocess.mask (if p.alive then _ else _) = if p.alive then _ else _
  split <;> rfl

theorem mask_terminateProcess : w.terminateProcess.mask = w.mask.terminateProcess := by
  have hprocess : w.mask.process = w.process := rfl
  unfold World.terminateProcess
  rw [hprocess]
  cases w.process with
  | none => rfl
  | some pid => exact w.mask_kill pid

theorem mask_stopContainer (container : Text) :
    (w.stopContainer container).mask = w.mask.stopContainer container := by
  show { w with task := w.task.map Task.mask, subprocesses := List.map _ (List.map _ _) }
    = { w with task := w.task.map Task.mask, subprocesses := List.map _ (List.map _ _) }
  rw [List.map_map, List.map_map]
  congr 2
  funext p
  show Subprocess.mask (if p.container = some container ∧ p.alive then _ else _)
    = if p.container = some container ∧ p.alive then _ else _
  split <;> rfl

end World

section Stretch

variable (answers : Answers)

/-- A masked call in the masked world is answered as the call is in the world, for all that is computed
along the stretch without looking at environments. -/
theorem stretch_callMasked {β : Type} {F : ℕ → Work Unit → World → β} {G : Call → β → β}
    (hF : ∀ n c k w, F n (.call (.call c) k) w
      = G c (F (n + 1) (k (w.perform answers n c).1) (w.perform answers n c).2))
    (hG : ∀ command e e', G (.popen command e) = G (.popen command e'))
    (n : ℕ) (c : Call) (k : c.Answer → Work Unit) (w : World) :
    F n (callMasked (.call c) k) w.mask
      = G c (F (n + 1) (k (w.perform answers n c).1) (w.perform answers n c).2.mask) := by
  cases c with
  | write state =>
    refine (hF n (.write state) k w.mask).trans ?_
    by_cases h : state.dumpable = true
    · simp only [World.perform, h]
      rfl
    · simp only [World.perform, h]
      rfl
  | popen command environment =>
    refine (hF n (.popen command (maskEnvironment command environment)) k w.mask).trans ?_
    rw [hG command _ environment]
    have hlength : w.mask.subprocesses.length = w.subprocesses.length := List.length_map _
    cases h : answers.popen with
    | ok u =>
      simp only [World.perform, h, hlength]
      congr 2
      show World.mk _ _ _ _ _ _ _ _ _ _ (w.subprocesses.map Subprocess.mask ++ [_]) _ _ _
        = World.mk _ _ _ _ _ _ _ _ _ _ ((w.subprocesses ++ [_]).map Subprocess.mask) _ _ _
      rw [List.map_append]
      rfl
    | error e => simp only [World.perform, h]
  | popenStop container =>
    refine (hF n (.popenStop container) k w.mask).trans ?_
    cases h : answers.stop with
    | ok u =>
      simp only [World.perform, h]
      rw [w.mask_stopContainer container]
    | error e => simp only [World.perform, h]
  | terminateProcess =>
    refine (hF n .terminateProcess k w.mask).trans ?_
    show G _ (F (n + 1) (k ()) w.mask.terminateProcess) = _
    rw [← w.mask_terminateProcess]
    rfl
  | now => exact hF n .now k w.mask
  | cancelRequested => exact hF n .cancelRequested k w.mask
  | fileSystem => exact hF n .fileSystem k w.mask
  | setProcess process => exact hF n (.setProcess process) k w.mask

theorem mask_advance (n : ℕ) (work : Work Unit) (w : World) :
    (advance answers n work w).mask = advance answers n (maskWork work) w.mask := by
  induction work generalizing n w with
  | pure u => rfl
  | throw e => rfl
  | call op k ih =>
    cases op with
    | await a => rfl
    | call c =>
      refine (ih _ _ _).trans (Eq.symm ?_)
      exact stretch_callMasked answers (G := fun _ v => v) (fun _ _ _ _ => rfl) (fun _ _ _ => rfl) n c
        (fun r => maskWork (k r)) w

end Stretch

namespace World

variable (w : World)

theorem exited_mask (pid : ℕ) :
    (w.mask.subprocesses[pid]?).bind Subprocess.exited = (w.subprocesses[pid]?).bind Subprocess.exited := by
  show ((w.subprocesses.map Subprocess.mask)[pid]?).bind _ = _
  rw [List.getElem?_map]
  cases w.subprocesses[pid]? <;> rfl

theorem answer_mask (a : Await) (r : Resumption) : w.mask.answer a r = w.answer a r := by
  cases a with
  | connected pid =>
    cases r with
    | aborted =>
      simp only [World.answer, exited_mask]
      rfl
    | _ => rfl
  | exitStatus pid =>
    cases r with
    | exited =>
      simp only [World.answer, exited_mask]
    | _ => rfl
  | _ => cases r <;> rfl

theorem continuation_mask (r : Resumption) :
    w.mask.continuation r = (w.continuation r).map maskWork := by
  have htask : w.mask.task = w.task.map Task.mask := rfl
  unfold World.continuation
  rw [htask]
  cases w.task with
  | none => rfl
  | some task =>
    cases task with
    | created work => cases r <;> rfl
    | suspended a k =>
      simp only [Option.map_some, Task.mask, answer_mask]
      cases w.answer a r <;> rfl
    | finished result => rfl

theorem mask_resume (r : Resumption) (answers : Answers) :
    (w.resume r answers).map mask = w.mask.resume r answers := by
  have htask : w.mask.task = w.task.map Task.mask := rfl
  have hcancelling : w.mask.cancelling = w.cancelling := rfl
  have haborting : w.mask.aborting = w.aborting := rfl
  unfold World.resume
  rw [hcancelling, haborting, htask, continuation_mask]
  by_cases hcancels : r.cancels ≠ w.cancelling
  · rw [if_pos hcancels, if_pos hcancels]
    rfl
  · rw [if_neg hcancels, if_neg hcancels]
    cases w.continuation r with
    | some work => exact congrArg some (mask_advance answers 0 work w)
    | none =>
      cases htask : w.task with
      | none => rfl
      | some task =>
        cases task with
        | created work =>
          cases r with
          | cancelled => rfl
          | _ => rfl
        | suspended a k =>
          cases a with
          | connected pid =>
            cases w.aborting with
            | some cause => rfl
            | none =>
              have hkill := w.mask_kill pid
              cases r with
              | timeout =>
                exact congrArg (fun v : World => some { v with aborting := some .expired }) hkill
              | cancelled =>
                exact congrArg (fun v : World => some { v with aborting := some .cancelled }) hkill
              | _ => rfl
          | _ => rfl
        | finished result => rfl

@[simp] theorem busy_mask : w.mask.busy = w.busy := by
  have htask : w.mask.task = w.task.map Task.mask := rfl
  unfold World.busy
  rw [htask]
  cases w.task with
  | none => rfl
  | some task => cases task <;> rfl

@[simp] theorem cancellable_mask : w.mask.cancellable = w.cancellable := by
  have hcurrent : w.mask.current = w.current := rfl
  have htask : w.mask.task = w.task.map Task.mask := rfl
  unfold World.cancellable
  rw [hcurrent, htask]
  cases w.current with
  | none => rfl
  | some state => cases w.task <;> rfl

theorem mask_cancel (launch : Except PyError Unit) : (w.cancel launch).mask = w.mask.cancel launch := by
  unfold World.cancel
  rw [cancellable_mask]
  cases w.cancellable with
  | none => rfl
  | some state =>
    cases hcontainer : state.containerName with
    | none =>
      simp only [hcontainer]
      exact congrArg (fun v : World => { v with accepted := state.operationId :: w.accepted })
        (mask_terminateProcess { w with cancelRequested := true })
    | some container =>
      simp only [hcontainer]
      cases launch with
      | error e => rfl
      | ok u =>
        exact congrArg (fun v : World => { v with canceller := some state.operationId })
          (mask_stopContainer { w with cancelRequested := true } container)

theorem mask_cancelStopped (operationId : Text) :
    (w.cancelStopped operationId).mask = w.mask.cancelStopped operationId :=
  congrArg (fun v : World => { v with accepted := operationId :: w.accepted, canceller := none })
    w.mask_terminateProcess

theorem mask_shutdown (launch : Except PyError Unit) :
    (w.shutdown launch).mask = w.mask.shutdown launch := by
  have hcurrent : w.mask.current = w.current := rfl
  unfold World.shutdown
  rw [busy_mask, hcurrent]
  by_cases hbusy : w.busy = true
  · simp only [hbusy, Bool.not_true, Bool.false_eq_true, if_false]
    cases w.current.bind fun state => state.containerName with
    | none => exact congrArg (fun v : World => { v with cancelling := true }) w.mask_terminateProcess
    | some container =>
      cases launch with
      | error e => rfl
      | ok u =>
        exact congrArg (fun v : World => { v with stopper := some w.operation })
          (w.mask_stopContainer container)
  · simp only [hbusy]
    rfl

theorem mask_shutdownStopped (operationId : Text) :
    (w.shutdownStopped operationId).mask = w.mask.shutdownStopped operationId := by
  have hcancel : ∀ v : World, (if v.operation = operationId ∧ v.busy then { v with cancelling := true }
      else v).mask = if v.mask.operation = operationId ∧ v.mask.busy then { v.mask with cancelling := true }
        else v.mask := by
    intro v
    rw [busy_mask]
    show _ = if v.operation = operationId ∧ v.busy then _ else _
    split <;> rfl
  refine (hcancel { w.terminateProcess with stopper := none }).trans ?_
  have hterminate : World.mask { w.terminateProcess with stopper := none }
      = { w.mask.terminateProcess with stopper := none } :=
    congrArg (fun v : World => { v with stopper := none }) w.mask_terminateProcess
  rw [hterminate]
  rfl

theorem mask_restart : w.restart.mask = w.mask.restart := by
  have hcurrent : ∀ v : World, v.mask.current = v.current := fun _ => rfl
  have hmark : ∀ v : World, v.markInterrupted.mask = v.mask.markInterrupted := by
    intro v
    unfold World.markInterrupted
    rw [hcurrent]
    cases v.current with
    | none => rfl
    | some state =>
      by_cases h : state.status.isTerminal = true
      · simp only [h]
        rfl
      · simp only [h]
        rfl
  exact hmark _

theorem mask_start (state : OperationState) (work : Work Unit) :
    (w.start state work).map mask = w.mask.start state (maskWork work) := by
  have hcurrent : w.mask.current = w.current := rfl
  unfold World.start
  rw [busy_mask, hcurrent]
  by_cases hbusy : w.busy = true
  · simp only [hbusy, if_true]
    cases w.current <;> rfl
  · simp only [hbusy]
    rfl

end World

/-! ## Runs -/

/-- **What a start request prepares uses the secrets in environments only.** -/
theorem mask_prepare (settings : Settings) (request : Request) (hex : OperationHex) (time : ℕ) :
    (request.prepare settings.mask hex time).map (Prod.map id maskWork)
      = (request.prepare settings hex time).map (Prod.map id maskWork) := by
  cases request with
  | build revision => rfl
  | pull reference => rfl
  | run image stand scenario =>
    have hcommand : settings.mask.runTests = settings.runTests := rfl
    simp only [Request.prepare]
    rw [hcommand]
    cases hrun : settings.runTests ((Request.run image stand scenario).newId hex)
        ((Request.run image stand scenario).newId hex) image stand scenario with
    | error message => rfl
    | ok command =>
      show Except.ok (_, maskWork (executeTestRun settings.mask _ command))
        = Except.ok (_, maskWork (executeTestRun settings _ command))
      rw [maskWork_executeTestRun settings _ (containerOf_runTests hrun)]

/-- One event, as it looks under the mask. -/
def stepMasked (settings : Settings) (w : World) (e : Event) : Option World :=
  (step settings w e).map World.mask

/-- Two results that look the same under maps are the same error, or values that look the same. -/
theorem except_of_map_eq {ε α β γ : Type*} {f : α → γ} {g : β → γ} {x : Except ε α} {y : Except ε β}
    (h : x.map f = y.map g) :
    (∃ e, x = .error e ∧ y = .error e) ∨ ∃ a b, x = .ok a ∧ y = .ok b ∧ f a = g b := by
  cases x with
  | error e =>
    cases y with
    | error e' =>
      cases h
      exact .inl ⟨e, rfl, rfl⟩
    | ok b => cases h
  | ok a =>
    cases y with
    | error e => cases h
    | ok b => exact .inr ⟨a, b, rfl, rfl, Except.ok.inj h⟩

theorem mask_step_start (settings : Settings) (w : World) (request : Request) (hex : OperationHex)
    (time : ℕ) : stepMasked settings w (.start request hex time)
      = stepMasked settings.mask w.mask (.start request hex time) := by
  have hcanceller : w.mask.canceller = w.canceller := rfl
  have hhistory : w.mask.history = w.history := rfl
  have hprepare := mask_prepare settings request hex time
  simp only [stepMasked, step]
  rw [hcanceller, hhistory]
  by_cases hrefused : w.canceller ≠ none ∨ ∃ state ∈ w.history, state.operationId = request.newId hex
  · rw [if_pos hrefused, if_pos hrefused]
  · rw [if_neg hrefused, if_neg hrefused]
    rcases except_of_map_eq hprepare with ⟨e, hm, hs⟩ | ⟨⟨state', work'⟩, ⟨state, work⟩, hm, hs, heq⟩
    · rw [hs, hm]
      exact congrArg some w.mask_mask.symm
    · rw [hs, hm]
      obtain ⟨hstate, hwork⟩ := Prod.mk.inj heq
      have hstart : (w.start state work).map World.mask
          = (w.mask.start state' work').map World.mask := by
        rw [World.mask_start, World.mask_start, World.mask_mask, hwork]
        exact congrArg (fun st => w.mask.start st (maskWork work)) hstate.symm
      rcases except_of_map_eq hstart with ⟨e, hl, hr⟩ | ⟨v, v', hl, hr, hv⟩
      · simp only [hl, hr]
        exact congrArg some w.mask_mask.symm
      · simp only [hl, hr]
        exact congrArg some hv

/-- **One event under the mask**: what the masked settings make of the masked world. -/
theorem mask_step (settings : Settings) (w : World) (e : Event) :
    (step settings w e).map World.mask = stepMasked settings.mask w.mask e := by
  unfold stepMasked
  cases e with
  | tick => exact congrArg (fun v : World => some { v with clock := w.clock + 1 }) w.mask_mask.symm
  | start request hex time => exact mask_step_start settings w request hex time
  | cancel launch =>
    show Option.map _ (if w.canceller = none then _ else none)
      = Option.map _ (if w.canceller = none then _ else none)
    split
    · simp [← World.mask_cancel]
    · rfl
  | cancelStopped =>
    show Option.map _ (w.canceller.map _) = Option.map _ (w.canceller.map _)
    cases w.canceller <;> simp [← World.mask_cancelStopped]
  | shutdown launch =>
    show Option.map _ (if w.stopper = none then _ else none)
      = Option.map _ (if w.stopper = none then _ else none)
    split
    · simp [← World.mask_shutdown]
    · rfl
  | shutdownStopped =>
    show Option.map _ (w.stopper.map _) = Option.map _ (w.stopper.map _)
    cases w.stopper <;> simp [← World.mask_shutdownStopped]
  | restart =>
    show some w.restart.mask = some w.mask.restart.mask
    rw [← World.mask_restart, World.mask_mask]
  | containerUp pid =>
    show some (w.modifySubprocess pid _).mask = some (w.mask.modifySubprocess pid _).mask
    rw [← w.mask_modifySubprocess pid fun p => ?_, World.mask_mask]
    show Subprocess.mask (if p.alive then _ else _) = if p.alive then _ else _
    split <;> rfl
  | exit pid code =>
    show some (w.modifySubprocess pid _).mask = some (w.mask.modifySubprocess pid _).mask
    rw [← w.mask_modifySubprocess pid fun p => ?_, World.mask_mask]
    show Subprocess.mask (if p.alive then _ else _) = if p.alive then _ else _
    split <;> rfl
  | line bytes =>
    have hline : ∀ v : World, v.mask.task = v.task.map Task.mask := fun _ => rfl
    cases htask : w.task with
    | none =>
      have hmask : w.mask.task = none := by rw [hline, htask]; rfl
      simp only [step, htask, hmask]
    | some task =>
      have hmask : w.mask.task = some task.mask := by rw [hline, htask]; rfl
      simp only [step, htask, hmask]
      cases task with
      | suspended a k =>
        cases a with
        | output pid =>
          show Option.map _ (if IsLine bytes ∧ ¬w.cancelling then _ else none)
            = Option.map _ (if IsLine bytes ∧ ¬w.cancelling then _ else none)
          split
          · simp only [Option.map_some, World.mask, List.map_map, Function.comp_def,
              Subprocess.mask_mask, Task.mask_mask]
          · rfl
        | _ => rfl
      | _ => rfl
  | resume r answers =>
    show (w.resume r answers).map _ = (w.mask.resume r answers).map _
    rw [← World.mask_resume, Option.map_map]
    cases w.resume r answers with
    | none => rfl
    | some v => exact congrArg some v.mask_mask.symm

/-! ## What is issued -/

/-- `docker stop`. -/
def stopCommand (container : Text) : Command := ["docker", "stop", container]

/-- The argument vector with which a call starts a subprocess, whether or not the start succeeds. -/
def Call.issued : Call → List Command
  | .popen command _ => [command]
  | .popenStop container => [stopCommand container]
  | _ => []

/-- The argument vectors that the task issues up to its next await. -/
def issuedBy (answers : Answers) : ℕ → Work Unit → World → List Command
  | n, .call (.call c) k, w =>
    c.issued ++ issuedBy answers (n + 1) (k (w.perform answers n c).1) (w.perform answers n c).2
  | _, .call (.await _) _, _ => []
  | _, .pure _, _ => []
  | _, .throw _, _ => []

/-- The argument vectors that an event issues, in their order. -/
def World.issued (w : World) : Event → List Command
  | .cancel _ =>
    match w.cancellable.bind fun state => state.containerName with
    | none => []
    | some container => [stopCommand container]
  | .shutdown _ =>
    if !w.busy then []
    else
      match w.current.bind fun state => state.containerName with
      | none => []
      | some container => [stopCommand container]
  | .resume r answers =>
    match w.continuation r with
    | none => []
    | some work => issuedBy answers 0 work w
  | _ => []

/-- The argument vectors of the subprocesses that `run` created. -/
def World.commands (w : World) : List Command := w.subprocesses.map Subprocess.command

theorem commands_later {w w' : World} (h : LaterAll w.subprocesses w'.subprocesses) :
    w'.commands = w.commands := by
  have hmap : ∀ {ps qs : List Subprocess}, LaterAll ps qs →
      qs.map Subprocess.command = ps.map Subprocess.command := by
    intro ps qs hlater
    induction hlater with
    | nil => rfl
    | cons hpq _ ih => rw [List.map_cons, List.map_cons, hpq.command, ih]
  exact hmap h

/-- What has changed `w` into `w'` created subprocesses with argument vectors among `issued`. -/
def Launches (w w' : World) (issued : List Command) : Prop :=
  ∃ launched, w'.commands = w.commands ++ launched ∧ launched.Sublist issued

theorem launches_none {w w' : World} (h : w'.commands = w.commands) (issued : List Command) :
    Launches w w' issued :=
  ⟨[], by rw [List.append_nil, h], List.nil_sublist _⟩

theorem launches_perform (answers : Answers) (n : ℕ) (w : World) (c : Call) :
    Launches w (w.perform answers n c).2 c.issued := by
  cases c with
  | write state =>
    apply launches_none
    simp only [World.perform]
    split <;> rfl
  | popen command environment =>
    simp only [World.perform]
    split
    · exact ⟨[command], by simp [World.commands], .refl _⟩
    · exact launches_none rfl _
  | popenStop container =>
    apply launches_none
    simp only [World.perform]
    split
    · exact commands_later (aside_stopContainer w container).subprocesses
    · rfl
  | terminateProcess => exact launches_none (commands_later (aside_terminateProcess w).subprocesses) _
  | now => exact launches_none rfl _
  | cancelRequested => exact launches_none rfl _
  | fileSystem => exact launches_none rfl _
  | setProcess process => exact launches_none rfl _

theorem launches_advance (answers : Answers) (n : ℕ) (work : Work Unit) (w : World) :
    Launches w (advance answers n work w) (issuedBy answers n work w) := by
  induction work generalizing n w with
  | pure u => exact launches_none rfl _
  | throw e => exact launches_none rfl _
  | call op k ih =>
    cases op with
    | await a => exact launches_none rfl _
    | call c =>
      obtain ⟨first, hfirst, hissued⟩ := launches_perform answers n w c
      obtain ⟨rest, hrest, hissuedRest⟩ := ih (w.perform answers n c).1 (n + 1) (w.perform answers n c).2
      refine ⟨first ++ rest, ?_, hissued.append hissuedRest⟩
      rw [← List.append_assoc, ← hfirst]
      exact hrest

theorem launches_step {settings : Settings} {w w' : World} {e : Event}
    (h : step settings w e = some w') : Launches w w' (w.issued e) := by
  by_cases he : e.aside = true
  · exact launches_none (commands_later (step_aside he h).subprocesses) _
  · cases e with
    | start request hex time =>
      apply launches_none
      simp only [step] at h
      split_ifs at h
      split at h
      · cases h
        rfl
      · split at h
        · cases h
          rfl
        · rename_i hstart
          cases h
          rw [(start_ok hstart).2]
          rfl
    | restart =>
      cases h
      obtain ⟨_, heq, _⟩ := restart_eq w
      rw [heq]
      exact launches_none rfl _
    | resume r answers =>
      obtain ⟨_, ⟨work, hwork, rfl⟩ | ⟨_, _, _, rfl⟩ | ⟨pid, _, _, _, _, _, rfl⟩⟩ := resume_cases h
      · simp only [World.issued, hwork]
        exact launches_advance answers 0 work w
      · exact launches_none rfl _
      · exact launches_none (commands_later (aside_kill w pid).subprocesses) _
    | _ => exact absurd rfl he

/-- **Every subprocess was issued**, and in the order in which the service has them. -/
theorem commands_sublist_issued {settings : Settings} {events : List Event} {w : World}
    (hrun : Transition.run (step settings) .fresh events = some w) :
    w.commands.Sublist (Transition.trace (step settings) World.issued .fresh events) := by
  obtain ⟨launched, hlaunched, hissued⟩ :=
    Transition.run_gains (g := World.commands) (fun _ _ _ => launches_step) hrun
  rw [hlaunched]
  exact hissued

/-! ## The mask and what is issued -/

theorem issuedBy_mask (answers : Answers) (n : ℕ) (work : Work Unit) (w : World) :
    issuedBy answers n (maskWork work) w.mask = issuedBy answers n work w := by
  induction work generalizing n w with
  | pure u => rfl
  | throw e => rfl
  | call op k ih =>
    cases op with
    | await a => rfl
    | call c =>
      refine (stretch_callMasked answers (F := issuedBy answers) (G := fun c l => c.issued ++ l)
        (fun _ _ _ _ => rfl) (fun _ _ _ => rfl) n c (fun r => maskWork (k r)) w).trans ?_
      exact congrArg (c.issued ++ ·) (ih _ _ _)

/-- The mask keeps what is issued. -/
theorem issued_mask (w : World) (e : Event) : w.mask.issued e = w.issued e := by
  have hcurrent : w.mask.current = w.current := rfl
  cases e with
  | cancel launch =>
    simp only [World.issued]
    rw [World.cancellable_mask]
  | shutdown launch =>
    simp only [World.issued]
    rw [World.busy_mask, hcurrent]
  | resume r answers =>
    simp only [World.issued]
    rw [World.continuation_mask]
    cases w.continuation r with
    | none => rfl
    | some work => exact issuedBy_mask answers 0 work w
  | _ => rfl

/-! ## Two runs -/

/-- Two subprocesses that differ in nothing but the environment of a test or a publisher. -/
structure Subprocess.SameButEnvironment (p q : Subprocess) : Prop where
  rest : q = { p with environment := q.environment }
  container : q.environment ≠ p.environment →
    p.container = some (Settings.runContainer p.operation) ∨
      p.container = some (Settings.publisherContainer p.operation)

/-- Two worlds in which the same states were written, and the same subprocesses started up to the
environments of tests and publishers. -/
structure World.SameButEnvironments (w v : World) : Prop where
  history : w.history = v.history
  subprocesses : List.Forall₂ Subprocess.SameButEnvironment w.subprocesses v.subprocesses

/-- What has the same mask differs in the environment only, and only where there is a container. -/
theorem sameButEnvironment_of_mask {p q : Subprocess} (hnames : Names p.operation p.container)
    (hmask : p.mask = q.mask) : p.SameButEnvironment q := by
  have hcommand : q.command = p.command := (congrArg Subprocess.command hmask).symm
  constructor
  · obtain ⟨⟩ := p
    obtain ⟨⟩ := q
    simp only [Subprocess.mask, Subprocess.mk.injEq] at hmask ⊢
    tauto
  · intro hdiffer
    rcases hnames with hnone | hcontainer
    · have henvironment := congrArg Subprocess.environment hmask
      simp only [Subprocess.mask, maskEnvironment, hcommand] at henvironment
      rw [show containerOf p.command = none from hnone] at henvironment
      exact absurd henvironment.symm hdiffer
    · exact hcontainer

theorem sameButEnvironments_of_mask {ps qs : List Subprocess}
    (hnames : ∀ p ∈ ps, Names p.operation p.container)
    (hmask : ps.map Subprocess.mask = qs.map Subprocess.mask) :
    List.Forall₂ Subprocess.SameButEnvironment ps qs := by
  induction ps generalizing qs with
  | nil =>
    cases qs with
    | nil => exact .nil
    | cons q qs => cases hmask
  | cons p ps ih =>
    cases qs with
    | nil => cases hmask
    | cons q qs =>
      obtain ⟨hpq, hrest⟩ := List.cons.inj hmask
      exact .cons (sameButEnvironment_of_mask (hnames p List.mem_cons_self) hpq)
        (ih (fun p' hp' => hnames p' (List.mem_cons_of_mem p hp')) hrest)

/-- A run under the mask. -/
theorem mask_run (settings : Settings) (events : List Event) :
    (Transition.run (step settings) .fresh events).map World.mask
      = Transition.run (stepMasked settings.mask) .fresh events :=
  Transition.run_map (mask_step settings) .fresh events

theorem mask_trace (settings : Settings) (events : List Event) :
    Transition.trace (step settings) World.issued .fresh events
      = Transition.trace (stepMasked settings.mask) World.issued .fresh events :=
  Transition.trace_map (mask_step settings) issued_mask .fresh events

/-- **Secrets reach only environments.**  Under settings that differ only in the values of secrets that
are set, the same events issue the same argument vectors in the same order, and write the same states;
the subprocesses differ only in the environments of tests and publishers. -/
theorem secrets_reach_only_environments {s t : ServiceSettings} (hmask : s.mask = t.mask)
    (events : List Event) :
    Transition.trace (step s.coordinator) World.issued .fresh events
        = Transition.trace (step t.coordinator) World.issued .fresh events ∧
      Option.Rel World.SameButEnvironments (Transition.run (step s.coordinator) .fresh events)
        (Transition.run (step t.coordinator) .fresh events) := by
  have hcoordinator : s.coordinator.mask = t.coordinator.mask := congrArg ServiceSettings.coordinator hmask
  have hrun : (Transition.run (step s.coordinator) .fresh events).map World.mask
      = (Transition.run (step t.coordinator) .fresh events).map World.mask := by
    rw [mask_run, mask_run, hcoordinator]
  refine ⟨by rw [mask_trace, mask_trace, hcoordinator], ?_⟩
  cases hw : Transition.run (step s.coordinator) .fresh events with
  | none =>
    cases hv : Transition.run (step t.coordinator) .fresh events with
    | none => exact .none
    | some v =>
      rw [hw, hv] at hrun
      cases hrun
  | some w =>
    cases hv : Transition.run (step t.coordinator) .fresh events with
    | none =>
      rw [hw, hv] at hrun
      cases hrun
    | some v =>
      rw [hw, hv] at hrun
      have hworld : w.mask = v.mask := Option.some.inj hrun
      have hhistory : w.mask.history = v.mask.history := by rw [hworld]
      have hsubprocesses : w.mask.subprocesses = v.mask.subprocesses := by rw [hworld]
      exact .some ⟨hhistory,
        sameButEnvironments_of_mask (conducting_of_run hw).proper.containers hsubprocesses⟩

/-- A service with a password login that reports to ReportPortal, with secrets that end in `suffix`. -/
def sampleService (suffix : Text) : ServiceSettings where
  coordinator :=
    { Settings.default with
      reportportalEnabled := true
      reportportalEndpoint := some "https://internal.example/rp"
      reportportalPublicUrl := some "https://reports.example"
      reportportalProject := "hardware_tests"
      reportportalApiKey := some ('k' :: suffix)
      reportportal_complete := fun _ => ⟨rfl, rfl, by decide, by simp [hasSecretValue]⟩ }
  router :=
    { Auth.localSettings with
      authSessionSecret := some ('s' :: suffix)
      secret_set := fun _ => by simp [hasSecretValue]
      authUsername := some "operator"
      authPassword := some ('p' :: suffix)
      authCookieSecure := true
      credentials_set := fun _ => by simp [hasSecretValue] }
  oidcClientSecret := none
  client_secret_set h := by simp [Auth.localSettings] at h

/-- A run that starts its container and is then cancelled. -/
def sampleSecretRun : List Event :=
  [.start (.run "sha256:0" "stand" "scenario") hexA 0, .resume .begin .plain,
    .resume .ready .plain, .cancel (.ok ())]

theorem secrets_reach_only_environments_sample :
    let s := sampleService "alpha"
    let t := sampleService "beta"
    ((Transition.run (step s.coordinator) .fresh sampleSecretRun).map fun w =>
        w.subprocesses.map Subprocess.environment) = some [some [("RP_API_KEY".toList, "kalpha".toList)]] ∧
      ((Transition.run (step t.coordinator) .fresh sampleSecretRun).map fun w =>
        w.subprocesses.map Subprocess.environment) = some [some [("RP_API_KEY".toList, "kbeta".toList)]] ∧
      Transition.trace (step s.coordinator) World.issued .fresh sampleSecretRun
        = Transition.trace (step t.coordinator) World.issued .fresh sampleSecretRun ∧
      Option.Rel World.SameButEnvironments (Transition.run (step s.coordinator) .fresh sampleSecretRun)
        (Transition.run (step t.coordinator) .fresh sampleSecretRun) := by
  intro s t
  have hmask : s.mask = t.mask := rfl
  exact ⟨by decide +kernel, by decide +kernel, secrets_reach_only_environments hmask sampleSecretRun⟩

end HardwareTest.Runner
