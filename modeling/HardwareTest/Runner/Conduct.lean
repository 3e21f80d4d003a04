import HardwareTest.Runner.Cancellation

/-!
# What a task does with its subprocesses

The subprocess that the task runs, the slot in which `run` keeps it for `cancel`, and the demand of a
cancellation.

* `conduct` — what a procedure may do with them;
* `wp_conduct_executeImageOperation`, `wp_conduct_executeTestRun` — the two procedures keep to it;
* `Conduct.Holds` — what that says of the world: slot and subprocess belong to the operation.
-/

namespace HardwareTest.Runner

open HardwareTest.Lib HardwareTest.Python

/-- The containers that operation `X` may use. -/
def Names (X : Text) (container : Option Text) : Prop :=
  container = none ∨ container = some (Settings.runContainer X) ∨
    container = some (Settings.publisherContainer X)

/-- Containers of different operations have different names. -/
theorem Names.eq {X Y container : Text} (hX : Names X (some container)) (hY : Names Y (some container)) :
    X = Y := by
  rcases hX with h | hX | hX
  · cases h
  · rcases hY with h | hY | hY
    · cases h
    · exact List.append_cancel_left (Option.some.inj (hX.symm.trans hY))
    · exact absurd (Option.some.inj (hX.symm.trans hY)) (runContainer_ne_publisherContainer X Y)
  · rcases hY with h | hY | hY
    · cases h
    · exact absurd (Option.some.inj (hY.symm.trans hX)) (runContainer_ne_publisherContainer Y X)
    · exact List.append_cancel_left (Option.some.inj (hX.symm.trans hY))

/-- How far a cancellation has got: `accepted` when `cancel` has returned. -/
inductive Demand
  | none
  | requested
  | accepted
  deriving DecidableEq

/-- A subprocess was asked for or not, the demand of a cancellation, whether the task was cancelled from
outside, the subprocess that may be alive, and the slot. -/
structure Conduct where
  begun : Bool
  demand : Demand
  cancelled : Bool
  running : Option ℕ
  slot : Option ℕ

namespace Conduct

/-- Others change the demand; when the work `halts` with it, `cancel` does not return before the
procedure has begun. -/
def Rely (halts : Prop) (s t : Conduct) : Prop :=
  t.begun = s.begun ∧ t.cancelled = s.cancelled ∧ t.running = s.running ∧ t.slot = s.slot ∧
    (halts → s.begun = false → s.demand ≠ .accepted → t.demand ≠ .accepted)

theorem Rely.refl {halts : Prop} (s : Conduct) : Rely halts s s := ⟨rfl, rfl, rfl, rfl, fun _ _ h => h⟩

theorem Rely.trans {halts : Prop} {s t u : Conduct} (h : Rely halts s t) (h' : Rely halts t u) :
    Rely halts s u :=
  ⟨h'.1.trans h.1, h'.2.1.trans h.2.1, h'.2.2.1.trans h.2.2.1, h'.2.2.2.1.trans h.2.2.2.1,
    fun hh hb hd => h'.2.2.2.2 hh (h.1.trans hb) (h.2.2.2.2 hh hb hd)⟩

/-- While its output and its exit status are awaited the subprocess is in the slot. -/
def Awaits (s : Conduct) : Await → Prop
  | .connected pid => s.running = some pid ∧ s.slot = none
  | .output pid => s.running = some pid ∧ s.slot = some pid
  | .exitStatus pid => s.running = some pid ∧ s.slot = some pid
  | .stopped => s.slot = none
  | .launches => s.slot = none

/-- What an answer leaves: a subprocess with an exit status is not alive. -/
def after (s : Conduct) : (a : Await) → Except PyException a.Value → Conduct
  | .exitStatus _, .ok _ => { s with running := none }
  | _, .error .cancelled => { s with cancelled := true }
  | _, _ => s

end Conduct

/-- The task of operation `X` runs one subprocess at a time, keeps no other in the slot, starts none once
`cancel` has returned (when the work `halts` with it), and does nothing any more when it is cancelled. -/
def conduct (halts : Prop) (X : Text) : Program.Spec Op Op.Answer Conduct where
  wp op := match op with
    | .call (.write state) => fun K s => s.cancelled = false ∧ state.operationId = X ∧
        Names X state.containerName ∧ (state.status = .cancelled → s.demand ≠ .none) ∧ ∀ r, K r s
    | .call (.popen command _) => fun K s => s.cancelled = false ∧ s.running = none ∧
        (halts → s.demand ≠ .accepted) ∧ Names X (containerOf command) ∧
        (∀ pid, K (.ok pid) { s with begun := true, running := some pid }) ∧
        ∀ e, K (.error e) { s with begun := true }
    | .call (.setProcess process) => fun K s => (∀ pid, process = some pid → s.running = some pid) ∧
        K () { s with slot := process }
    | .call .cancelRequested => fun K s => K (decide (s.demand ≠ .none)) s
    | .call _ => fun K s => ∀ r, K r s
    | .await a => fun K s => s.begun = true ∧ s.cancelled = false ∧ s.Awaits a ∧
        ∀ r t, s.Rely halts t → K r (t.after a r)
  mono := by
    intro op P Q s hPQ h
    cases op with
    | await a => exact ⟨h.1, h.2.1, h.2.2.1, fun r t hst => hPQ _ _ (h.2.2.2 r t hst)⟩
    | call c =>
      cases c with
      | write state => exact ⟨h.1, h.2.1, h.2.2.1, h.2.2.2.1, fun r => hPQ _ _ (h.2.2.2.2 r)⟩
      | popen command environment =>
        exact ⟨h.1, h.2.1, h.2.2.1, h.2.2.2.1, fun pid => hPQ _ _ (h.2.2.2.2.1 pid),
          fun e => hPQ _ _ (h.2.2.2.2.2 e)⟩
      | setProcess process => exact ⟨h.1, hPQ _ _ h.2⟩
      | cancelRequested => exact hPQ _ _ h
      | popenStop container => exact fun r => hPQ _ _ (h r)
      | now => exact fun r => hPQ _ _ (h r)
      | fileSystem => exact fun r => hPQ _ _ (h r)
      | terminateProcess => exact fun r => hPQ _ _ (h r)

/-! ## The procedures -/

section Procedures

variable {halts : Prop} {X : Text} {α β : Type}

/-- A subprocess may be started. -/
structure Ready (halts : Prop) (s : Conduct) : Prop where
  slot : s.slot = none
  running : s.running = none
  cancelled : s.cancelled = false
  demand : halts → s.demand ≠ .accepted

/-- The slot is empty, and a task that was cancelled is on its way out. -/
structure Resting (r : Except PyException α) (s : Conduct) : Prop where
  slot : s.slot = none
  begun : s.begun = true
  cancelled : s.cancelled = true → r = .error .cancelled

/-- As `Resting`; what returned has left no subprocess. -/
def Rested (r : Except PyException α) (s : Conduct) : Prop :=
  Resting r s ∧ ((∃ a, r = .ok a) → s.running = none)

theorem Resting.error {e : PyException} {s : Conduct}
    (h : Resting (.error e : Except PyException α) s) : Resting (.error e : Except PyException β) s := by
  refine ⟨h.slot, h.begun, fun hs => ?_⟩
  cases h.cancelled hs
  rfl

theorem Resting.uncancelled {r : Except PyException α} {s : Conduct} (h : Resting r s)
    (hr : r ≠ .error .cancelled) : s.cancelled = false := by
  cases hs : s.cancelled with
  | false => rfl
  | true => exact absurd (h.cancelled hs) hr

theorem resting_of {r : Except PyException α} {s : Conduct} (hslot : s.slot = none)
    (hbegun : s.begun = true) (hs : s.cancelled = false) : Resting r s := by
  refine ⟨hslot, hbegun, fun h => ?_⟩
  rw [hs] at h
  cases h

theorem rested_error {e : PyException} {s : Conduct} (h : Resting (.error e : Except PyException α) s) :
    Rested (.error e : Except PyException α) s := ⟨h, fun ⟨_, he⟩ => nomatch he⟩

/-- What `run` leaves when an await raises. -/
theorem rested_raised {a : Await} {e : PyException} {s : Conduct} (hbegun : s.begun = true)
    (hs : s.cancelled = false) :
    Rested (.error e.timed : Except PyException α) { s.after a (.error e) with slot := none } := by
  refine rested_error ⟨rfl, ?_, ?_⟩
  · cases a <;> cases e <;> exact hbegun
  · intro h
    cases e with
    | cancelled => rfl
    | expired =>
      have hfalse : s.cancelled = true := by cases a <;> exact h
      rw [hs] at hfalse
      cases hfalse
    | raised e =>
      have hfalse : s.cancelled = true := by cases a <;> exact h
      rw [hs] at hfalse
      cases hfalse

theorem wp_conduct_runWithTimeout {command : Command} {environment : Environment} {s : Conduct}
    (hs : Ready halts s) (hcommand : Names X (containerOf command)) :
    Program.wp (conduct halts X) (runWithTimeout command environment) Rested s := by
  apply wp_runWithTimeout
  apply wp_runProcess
  refine ⟨hs.cancelled, hs.running, hs.demand, hcommand, ?_, ?_⟩
  · intro pid
    refine ⟨rfl, hs.cancelled, ⟨rfl, hs.slot⟩, ?_⟩
    intro r t ht
    obtain ⟨hbegun, hcancelled, hrunning, hslot, -⟩ := ht
    cases r with
    | error e =>
      have hempty : (t.after (.connected pid) (.error e)).slot = none := by
        cases e <;> exact hslot.trans hs.slot
      have hrested := @rested_raised ProcessResult (.connected pid) e t hbegun
        (hcancelled.trans hs.cancelled)
      rw [← hempty] at hrested
      exact hrested
    | ok _ =>
      refine ⟨(fun pid' h => h ▸ hrunning), hbegun, hcancelled.trans hs.cancelled, ⟨hrunning, rfl⟩, ?_⟩
      intro r u hu
      obtain ⟨hbegun', hcancelled', hrunning', hslot', -⟩ := hu
      have hu : u.cancelled = false := hcancelled'.trans (hcancelled.trans hs.cancelled)
      cases r with
      | error e => exact ⟨(fun _ h => nomatch h), rested_raised (hbegun'.trans hbegun) hu⟩
      | ok output =>
        refine ⟨hbegun'.trans hbegun, hu, ⟨hrunning'.trans hrunning, hslot'⟩, ?_⟩
        intro r v hv
        obtain ⟨hbegun'', hcancelled'', -, -, -⟩ := hv
        have hv : v.cancelled = false := hcancelled''.trans hu
        have hbegun : v.begun = true := hbegun''.trans (hbegun'.trans hbegun)
        cases r with
        | error e => exact ⟨(fun _ h => nomatch h), rested_raised hbegun hv⟩
        | ok exitCode => exact ⟨(fun _ h => nomatch h), resting_of rfl hbegun hv, fun _ => rfl⟩
  · exact fun e => rested_error (resting_of hs.slot rfl hs.cancelled)

theorem wp_conduct_cancelProcess {container : Option Text} {s : Conduct}
    (hs : Resting (.ok () : Except PyException Unit) s) :
    Program.wp (conduct halts X) (cancelProcess container) Resting s := by
  have huncancelled : s.cancelled = false := hs.uncancelled (fun h => nomatch h)
  unfold cancelProcess
  cases container with
  | none => exact fun _ => hs
  | some container =>
    rw [Program.wp_bind, Program.wp_bind, wp_popenStop]
    intro r
    cases r with
    | error e => exact resting_of hs.slot hs.begun huncancelled
    | ok _ =>
      refine (congrFun (wp_await _ _ _) _).mpr ⟨hs.begun, huncancelled, hs.slot, ?_⟩
      intro r t ht
      obtain ⟨hbegun, hcancelled, -, hslot, -⟩ := ht
      cases r with
      | ok _ =>
        exact fun _ => resting_of (hslot.trans hs.slot) (hbegun.trans hs.begun)
          (hcancelled.trans huncancelled)
      | error e =>
        cases e with
        | cancelled => exact ⟨hslot.trans hs.slot, hbegun.trans hs.begun, fun _ => rfl⟩
        | expired =>
          exact resting_of (hslot.trans hs.slot) (hbegun.trans hs.begun) (hcancelled.trans huncancelled)
        | raised e =>
          exact resting_of (hslot.trans hs.slot) (hbegun.trans hs.begun) (hcancelled.trans huncancelled)

/-- `_finish` writes a state of its operation, which has no container any more. -/
theorem wp_conduct_finish {state : OperationState} {status : OperationStatus} {exitCode : Option ℤ}
    {updates : Updates} {s : Conduct} (hs : s.cancelled = false) (hstate : state.operationId = X)
    (hstatus : status = .cancelled → s.demand ≠ .none) :
    Program.wp (conduct halts X) (finish state status exitCode updates) (fun _ t => t = s) s := by
  unfold finish
  rw [Program.wp_bind]
  intro time
  exact (congrFun (wp_write _ _ _) _).mpr ⟨hs, hstate, .inl rfl, hstatus, fun _ => rfl⟩

theorem resting_finish {state : OperationState} {status : OperationStatus} {exitCode : Option ℤ}
    {updates : Updates} {r : Except PyException α} {s : Conduct} (hs : Resting r s)
    (hr : r ≠ .error .cancelled) (hstate : state.operationId = X)
    (hstatus : status = .cancelled → s.demand ≠ .none) :
    Program.wp (conduct halts X) (finish state status exitCode updates) Resting s := by
  have huncancelled := hs.uncancelled hr
  refine Program.wp_mono ?_ (wp_conduct_finish huncancelled hstate hstatus)
  rintro r t rfl
  exact resting_of hs.slot hs.begun huncancelled

/-- What returned may end with any status but `CANCELLED`. -/
theorem finish_of_ok {state : OperationState} {status : OperationStatus} {exitCode : Option ℤ}
    {updates : Updates} {a : α} {s : Conduct} (hs : Resting (.ok a) s) (hstate : state.operationId = X)
    (hstatus : status ≠ .cancelled) :
    Program.wp (conduct halts X) (finish state status exitCode updates) Resting s :=
  resting_finish hs (fun h => nomatch h) hstate fun h => absurd h hstatus

/-- An error may be handled by ending with any status but `CANCELLED`. -/
theorem finish_of_raised {state : OperationState} {status : OperationStatus} {exitCode : Option ℤ}
    {updates : Updates} {e : PyError} {s : Conduct}
    (hs : Resting (.error (.raised e) : Except PyException α) s) (hstate : state.operationId = X)
    (hstatus : status ≠ .cancelled) :
    Program.wp (conduct halts X) (finish state status exitCode updates) (fun _ t => t.slot = none) s :=
  Program.wp_mono (fun _ _ h => h.slot)
    (resting_finish hs (fun h => nomatch h) hstate fun h => absurd h hstatus)

/-- Another subprocess may be started when the flag was read and is not set. -/
theorem ready_of_flag {a : α} {s : Conduct} (hs : Rested (.ok a) s)
    (h : ¬decide (s.demand ≠ .none) = true) : Ready halts s := by
  refine ⟨hs.1.slot, hs.2 ⟨a, rfl⟩, hs.1.uncancelled (fun h => nomatch h), fun _ hd => h ?_⟩
  rw [hd]
  rfl

/-- **An image operation** keeps to it. -/
theorem wp_conduct_executeImageOperation {state : OperationState} {command : Command}
    {reference : Text} {s : Conduct} (hs : Ready halts s) (hstate : state.operationId = X)
    (hcommand : containerOf command = none) :
    Program.wp (conduct halts X) (executeImageOperation state command reference)
      (fun _ t => t.slot = none) s := by
  refine Program.wp_handle (R := Resting) ?_ (fun _ _ h => h.slot) ?_
  · refine Program.wp_seq (wp_conduct_runWithTimeout hs (.inl hcommand)) ?_ (fun _ _ h => h.1.error)
    intro result t ht
    rw [Program.wp_bind, wp_cancelRequested]
    show Program.wp (conduct halts X) _ Resting t
    split
    · rename_i hflag
      exact resting_finish ht.1 (fun h => nomatch h) hstate fun _ => of_decide_eq_true hflag
    · rename_i hflag
      split
      · exact finish_of_ok ht.1 hstate (fun h => nomatch h)
      · refine Program.wp_seq
          (wp_conduct_runWithTimeout (ready_of_flag ht hflag) (.inl (containerOf_inspectImage _))) ?_
          (fun _ _ h => h.1.error)
        intro inspect u hu
        split
        · exact finish_of_ok hu.1 hstate (fun h => nomatch h)
        · exact finish_of_ok hu.1 hstate (fun h => nomatch h)
  · intro e t ht
    cases e with
    | expired => exact ht.slot
    | cancelled => exact ht.slot
    | raised e =>
      cases e with
      | exception message => exact finish_of_raised ht hstate (fun h => nomatch h)
      | timeoutError message =>
        refine Program.wp_seq (wp_conduct_cancelProcess ?_) ?_ (fun _ _ h => h.slot)
        · exact resting_of ht.slot ht.begun (ht.uncancelled (fun h => nomatch h))
        · intro _ u hu
          exact Program.wp_mono (fun _ _ h => h.slot)
            (finish_of_ok hu hstate (fun h => nomatch h))

/-- Looking at files changes nothing. -/
theorem wp_conduct_resolve {files : FileSystem} {runDirectory path : PurePath} {s : Conduct} :
    Program.wp (conduct halts X) (Program.ofExcept (files.resolveReportPath runDirectory path))
      (fun _ t => t = s) s := by
  rw [Program.wp_ofExcept]

theorem wp_conduct_readSummary {settings : Settings} {runDirectory : PurePath} {s : Conduct} :
    Program.wp (conduct halts X) (readSummary settings runDirectory) (fun _ t => t = s) s := by
  unfold readSummary
  split
  · rfl
  · rw [Program.wp_bind, wp_fileSystem]
    intro files
    refine Program.wp_seq wp_conduct_resolve ?_ (fun _ _ h => h)
    rintro junitFile t rfl
    split
    · rfl
    · split
      · rfl
      · rfl

theorem wp_conduct_reportUpdates {settings : Settings} {state : OperationState} {a : α} {s : Conduct}
    (hs : Resting (.ok a) s) :
    Program.wp (conduct halts X) (reportUpdates settings state)
      (fun r t => Resting r t ∧ t.running = s.running) s := by
  have huncancelled : s.cancelled = false := hs.uncancelled (fun h => nomatch h)
  unfold reportUpdates
  split
  · rw [Program.wp_bind, wp_await]
    refine ⟨hs.begun, huncancelled, hs.slot, ?_⟩
    intro r t ht
    obtain ⟨hbegun, hcancelled, hrunning, hslot, -⟩ := ht
    cases r with
    | ok page =>
      exact ⟨resting_of (hslot.trans hs.slot) (hbegun.trans hs.begun) (hcancelled.trans huncancelled),
        hrunning⟩
    | error e =>
      cases e with
      | cancelled => exact ⟨⟨hslot.trans hs.slot, hbegun.trans hs.begun, fun _ => rfl⟩, hrunning⟩
      | expired =>
        exact ⟨resting_of (hslot.trans hs.slot) (hbegun.trans hs.begun) (hcancelled.trans huncancelled),
          hrunning⟩
      | raised e =>
        exact ⟨resting_of (hslot.trans hs.slot) (hbegun.trans hs.begun) (hcancelled.trans huncancelled),
          hrunning⟩
  · exact ⟨resting_of hs.slot hs.begun huncancelled, rfl⟩

theorem wp_conduct_runPublisher {state : OperationState} {command : Command} {token : Text}
    {s : Conduct} (hs : Ready halts s)
    (hcommand : containerOf command = some (Settings.publisherContainer X)) :
    Program.wp (conduct halts X) (runPublisher state command token) Resting s := by
  refine Program.wp_handle (R := Resting) ?_ (fun _ _ h => h) ?_
  · refine Program.wp_seq (wp_conduct_runWithTimeout hs (.inr (.inr hcommand))) ?_
      (fun _ _ h => h.1.error)
    intro result t ht
    have huncancelled := ht.1.uncancelled (fun h => nomatch h)
    split
    · exact resting_of ht.1.slot ht.1.begun huncancelled
    · exact resting_of ht.1.slot ht.1.begun huncancelled
  · intro e t ht
    cases e with
    | expired => exact ht
    | cancelled => exact ht
    | raised e =>
      have huncancelled := ht.uncancelled (fun h => nomatch h)
      cases e with
      | exception message => exact resting_of ht.slot ht.begun huncancelled
      | timeoutError message =>
        refine Program.wp_seq (wp_conduct_cancelProcess (resting_of ht.slot ht.begun huncancelled)) ?_
          (fun _ _ h => h.error)
        exact fun _ u hu => resting_of hu.slot hu.begun (hu.uncancelled (fun h => nomatch h))

theorem wp_conduct_publishAllure {settings : Settings} {state : OperationState}
    {runDirectory : PurePath} {s : Conduct} (hs : Ready halts s) (hbegun : s.begun = true)
    (hstate : state.operationId = X) (hstatus : state.status.isTerminal = false) :
    Program.wp (conduct halts X) (publishAllure settings state runDirectory) Resting s := by
  have hrest : ∀ r : Except PyException Updates, Resting r s :=
    fun r => resting_of hs.slot hbegun hs.cancelled
  unfold publishAllure
  split
  · exact hrest _
  · rw [Program.wp_bind, wp_fileSystem]
    intro files
    refine Program.wp_seq wp_conduct_resolve ?_ (fun e t h => h ▸ hrest _)
    rintro resultsDirectory t rfl
    split
    · exact hrest _
    · rw [Program.wp_bind, wp_write]
      refine ⟨hs.cancelled, hstate, .inr (.inr (by rw [hstate])), ?_, ?_⟩
      · intro hcancelled
        have hopen : state.status = .cancelled := hcancelled
        rw [hopen] at hstatus
        cases hstatus
      · intro r
        cases r with
        | error e => exact hrest _
        | ok _ =>
          dsimp only [Except.mapError]
          split
          · exact hrest _
          · split
            · exact hrest _
            · rename_i command hcommand
              refine wp_conduct_runPublisher hs ?_
              rw [containerOf_publishAllure hcommand, hstate]

theorem wp_conduct_concludeTestRun {settings : Settings} {state : OperationState}
    {expectedDirectory : PurePath} {result : ProcessResult} {report : Updates} {s : Conduct}
    (hs : Rested (.ok result) s) (hstate : state.operationId = X)
    (hstatus : state.status.isTerminal = false) :
    Program.wp (conduct halts X) (concludeTestRun settings state expectedDirectory result report)
      Resting s := by
  have hresult : (if result.exitCode = 0 then OperationStatus.passed else .failed) ≠ .cancelled := by
    split <;> exact fun h => nomatch h
  unfold concludeTestRun
  rw [Program.wp_bind, wp_cancelRequested]
  show Program.wp (conduct halts X) _ Resting s
  split
  · rename_i hflag
    unfold allocatedDirectory
    rw [Program.wp_bind, Program.wp_bind, wp_fileSystem]
    intro files
    exact resting_finish hs.1 (fun h => nomatch h) hstate fun _ => of_decide_eq_true hflag
  · rename_i hflag
    have hready : Ready halts s := ready_of_flag hs hflag
    rw [Program.wp_bind, wp_fileSystem]
    intro files
    dsimp only
    split
    · exact finish_of_ok hs.1 hstate hresult
    · refine Program.wp_seq wp_conduct_readSummary ?_
        (fun e t h => h ▸ resting_of hs.1.slot hs.1.begun hready.cancelled)
      rintro summary t rfl
      split
      · refine Program.wp_seq (wp_conduct_publishAllure hready hs.1.begun hstate hstatus) ?_
          (fun _ _ h => h.error)
        intro published u hu
        rw [Program.wp_bind, wp_cancelRequested]
        show Program.wp (conduct halts X) _ Resting u
        split
        · rename_i hflag
          exact resting_finish hu (fun h => nomatch h) hstate fun _ => of_decide_eq_true hflag
        · exact finish_of_ok hu hstate hresult
      · exact finish_of_ok hs.1 hstate hresult

/-- **A test run** keeps to it. -/
theorem wp_conduct_executeTestRun {settings : Settings} {state : OperationState} {command : Command}
    {s : Conduct} (hs : Ready halts s) (hstate : state.operationId = X)
    (hstatus : state.status.isTerminal = false)
    (hcommand : containerOf command = some (Settings.runContainer X)) :
    Program.wp (conduct halts X) (executeTestRun settings state command) (fun _ t => t.slot = none) s := by
  unfold executeTestRun
  split
  · exact hs.slot
  · refine Program.wp_handle (R := Resting) ?_ (fun _ _ h => h.slot) ?_
    · refine Program.wp_seq (wp_conduct_runWithTimeout hs (.inr (.inl hcommand))) ?_
        (fun _ _ h => h.1.error)
      intro result t ht
      refine Program.wp_seq (wp_conduct_reportUpdates ht.1) ?_ (fun _ _ h => h.1.error)
      intro report u hu
      refine wp_conduct_concludeTestRun ⟨?_, fun _ => hu.2.trans (ht.2 ⟨result, rfl⟩)⟩ hstate hstatus
      exact resting_of hu.1.slot hu.1.begun (hu.1.uncancelled (fun h => nomatch h))
    · intro e t ht
      cases e with
      | expired => exact ht.slot
      | cancelled => exact ht.slot
      | raised e =>
        cases e with
        | exception message =>
          unfold allocatedDirectory
          rw [Program.wp_bind, Program.wp_bind, wp_fileSystem]
          intro files
          exact finish_of_raised ht hstate (fun h => nomatch h)
        | timeoutError message =>
          refine Program.wp_seq (wp_conduct_cancelProcess ?_) ?_ (fun _ _ h => h.slot)
          · exact resting_of ht.slot ht.begun (ht.uncancelled (fun h => nomatch h))
          · intro _ u hu
            refine Program.wp_seq (wp_conduct_reportUpdates hu) ?_ (fun _ _ h => h.1.slot)
            intro report v hv
            unfold allocatedDirectory
            rw [Program.wp_bind, Program.wp_bind, wp_fileSystem]
            intro files
            show Program.wp (conduct halts X) (finish state .timedOut none _) _ v
            exact Program.wp_mono (fun _ _ h => h.slot)
              (finish_of_ok hv.1 hstate (fun h => nomatch h))

end Procedures

/-! ## The world -/

/-- The demand of a cancellation of `X`. -/
def World.demand (w : World) (X : Text) : Demand :=
  if X ∈ w.accepted then .accepted else if w.cancelRequested = true then .requested else .none

theorem demand_eq_accepted {w : World} {X : Text} : w.demand X = .accepted ↔ X ∈ w.accepted := by
  unfold World.demand
  split
  · rename_i hX
    exact ⟨fun _ => hX, fun _ => rfl⟩
  · rename_i hX
    split
    · exact ⟨(fun h => nomatch h), fun h => absurd h hX⟩
    · exact ⟨(fun h => nomatch h), fun h => absurd h hX⟩

theorem demand_ne_none {w : World} {X : Text} (hX : X ∈ w.accepted → w.cancelRequested = true) :
    decide (w.demand X ≠ .none) = w.cancelRequested := by
  unfold World.demand
  split
  · rename_i haccepted
    rw [hX haccepted]
    rfl
  · split
    · rename_i hrequested
      rw [hrequested]
      rfl
    · rename_i hrequested
      rw [Bool.not_eq_true] at hrequested
      rw [hrequested]
      rfl

/-- Every container bears the name of its operation, which is recorded; when accepted work `halts`, its
subprocesses are signalled. -/
structure Proper (halts : Prop) (w : World) : Prop where
  containers : ∀ p ∈ w.subprocesses, Names p.operation p.container
  states : ∀ st ∈ w.history, Names st.operationId st.containerName
  known : ∀ p ∈ w.subprocesses, ∃ st ∈ w.history, st.operationId = p.operation
  signalled : halts → ∀ p ∈ w.subprocesses, p.operation ∈ w.accepted → p.alive = true →
    p.signalled = true

theorem Subprocess.Later.container {p q : Subprocess} (h : p.Later q) : q.container = p.container :=
  congrArg containerOf h.command

theorem Subprocess.Later.signalled {p q : Subprocess} (h : p.Later q) (hp : p.signalled = true) :
    q.signalled = true := by
  unfold Subprocess.signalled at hp ⊢
  rw [Bool.or_eq_true] at hp ⊢
  exact hp.imp h.terminated h.stopReached

theorem Proper.later {halts : Prop} {w w' : World} (h : Proper halts w)
    (hhistory : w'.history = w.history) (haccepted : w'.accepted = w.accepted)
    (hlater : LaterAll w.subprocesses w'.subprocesses) : Proper halts w' := by
  constructor
  · intro q hq
    obtain ⟨p, hp, hpq⟩ := hlater.mem hq
    rw [hpq.operation, hpq.container]
    exact h.containers p hp
  · rw [hhistory]
    exact h.states
  · intro q hq
    obtain ⟨p, hp, hpq⟩ := hlater.mem hq
    rw [hhistory, hpq.operation]
    exact h.known p hp
  · intro hh q hq hX halive
    obtain ⟨p, hp, hpq⟩ := hlater.mem hq
    rw [haccepted, hpq.operation] at hX
    exact hpq.signalled (h.signalled hh p hp hX (hpq.exited halive))

/-- The contract in the world: every subprocess of the operation that is alive is the running one. -/
structure Conduct.Holds (halts : Prop) (X : Text) (w : World) (s : Conduct) : Prop where
  operation : w.operation = X
  demand : s.demand = w.demand X
  process : w.process = s.slot
  owned : ∀ pid, s.slot = some pid ∨ s.running = some pid →
    ∃ p, w.subprocesses[pid]? = some p ∧ p.operation = X
  running : ∀ pid p, w.subprocesses[pid]? = some p → p.operation = X → p.alive = true →
    s.running = some pid
  requested : w.Cancels X → w.cancelRequested = true
  flagged : ∀ st ∈ w.history, st.operationId = X → st.status = .cancelled → w.cancelRequested = true
  recorded : ∃ st ∈ w.history, st.operationId = X
  proper : Proper halts w

namespace Conduct.Holds

variable {halts : Prop} {X : Text} {w : World} {s : Conduct}

/-- Whether the procedure has begun, and whether it was cancelled, is its own. -/
theorem congr {t : Conduct} (h : Conduct.Holds halts X w s) (hdemand : t.demand = s.demand)
    (hrunning : t.running = s.running) (hslot : t.slot = s.slot) : Conduct.Holds halts X w t := by
  refine ⟨h.operation, hdemand.trans h.demand, h.process.trans hslot.symm, ?_, ?_, h.requested, h.flagged,
    h.recorded, h.proper⟩
  · rw [hrunning, hslot]
    exact h.owned
  · rw [hrunning]
    exact h.running

/-- Subprocesses are marked. -/
theorem later {ps : List Subprocess} (h : Conduct.Holds halts X w s)
    (hlater : LaterAll w.subprocesses ps) : Conduct.Holds halts X { w with subprocesses := ps } s := by
  refine ⟨h.operation, h.demand, h.process, ?_, ?_, h.requested, h.flagged, h.recorded,
    h.proper.later rfl rfl hlater⟩
  · intro pid hpid
    obtain ⟨p, hp, hX⟩ := h.owned pid hpid
    obtain ⟨q, hq, hpq⟩ := hlater.getElem?_left hp
    exact ⟨q, hq, hpq.operation.trans hX⟩
  · intro pid q hq hX halive
    obtain ⟨p, hp, hpq⟩ := hlater.getElem? hq
    exact h.running pid p hp (hpq.operation ▸ hX) (hpq.exited halive)

/-- A state is written. -/
theorem write {state : OperationState} (h : Conduct.Holds halts X w s) (hstate : state.operationId = X)
    (hcontainer : Names X state.containerName) (hstatus : state.status = .cancelled → s.demand ≠ .none) :
    Conduct.Holds halts X { w with history := w.history ++ [state] } s := by
  have hrequested : s.demand ≠ .none → w.cancelRequested = true := by
    intro hd
    rw [← demand_ne_none fun hX => h.requested (.inl hX), ← h.demand]
    exact decide_eq_true hd
  obtain ⟨hcontainers, hstates, hknown, hsignalled⟩ := h.proper
  refine ⟨h.operation, h.demand, h.process, h.owned, h.running, h.requested, ?_,
    ⟨state, by simp, hstate⟩, hcontainers, ?_, ?_, hsignalled⟩
  · intro st hst hX hcancelled
    rcases List.mem_append.mp hst with hst | hst
    · exact h.flagged st hst hX hcancelled
    · rw [List.mem_singleton.mp hst] at hcancelled
      exact hrequested (hstatus hcancelled)
  · intro st hst
    rcases List.mem_append.mp hst with hst | hst
    · exact hstates st hst
    · rw [List.mem_singleton.mp hst, hstate]
      exact hcontainer
  · intro p hp
    obtain ⟨st, hst, hX⟩ := hknown p hp
    exact ⟨st, List.mem_append_left _ hst, hX⟩

/-- A subprocess is started. -/
theorem popen {p : Subprocess} (h : Conduct.Holds halts X w s) (hrunning : s.running = none)
    (hdemand : halts → s.demand ≠ .accepted) (hX : p.operation = X) (hcontainer : Names X p.container) :
    Conduct.Holds halts X { w with subprocesses := w.subprocesses ++ [p] }
      { s with begun := true, running := some w.subprocesses.length } := by
  obtain ⟨hcontainers, hstates, hknown, hsignalled⟩ := h.proper
  refine ⟨h.operation, h.demand, h.process, ?_, ?_, h.requested, h.flagged, h.recorded, ?_, hstates, ?_, ?_⟩
  · intro pid hpid
    rcases hpid with hpid | hpid
    · obtain ⟨q, hq, hqX⟩ := h.owned pid (.inl hpid)
      have hlt : pid < w.subprocesses.length := (List.getElem?_eq_some_iff.mp hq).1
      exact ⟨q, by rw [← hq]; exact List.getElem?_append_left hlt, hqX⟩
    · cases hpid
      exact ⟨p, List.getElem?_concat_length, hX⟩
  · intro pid q hq hqX halive
    rcases Nat.lt_trichotomy pid w.subprocesses.length with hlt | rfl | hgt
    · rw [List.getElem?_append_left hlt] at hq
      have hsome := h.running pid q hq hqX halive
      rw [hrunning] at hsome
      cases hsome
    · rfl
    · rw [List.getElem?_eq_none (by simp; omega)] at hq
      cases hq
  · intro q hq
    rcases List.mem_append.mp hq with hq | hq
    · exact hcontainers q hq
    · rw [List.mem_singleton.mp hq, hX]
      exact hcontainer
  · intro q hq
    rcases List.mem_append.mp hq with hq | hq
    · exact hknown q hq
    · rw [List.mem_singleton.mp hq, hX]
      exact h.recorded
  · intro hh q hq hqX halive
    rcases List.mem_append.mp hq with hq | hq
    · exact hsignalled hh q hq hqX halive
    · rw [List.mem_singleton.mp hq, hX] at hqX
      exact absurd (h.demand.trans (demand_eq_accepted.mpr hqX)) (hdemand hh)

/-- The slot is set. -/
theorem setProcess {process : Option ℕ} (h : Conduct.Holds halts X w s)
    (hprocess : ∀ pid, process = some pid → s.running = some pid) :
    Conduct.Holds halts X { w with process := process } { s with slot := process } := by
  refine ⟨h.operation, h.demand, rfl, ?_, h.running, h.requested, h.flagged, h.recorded, ?_⟩
  · intro pid hpid
    rcases hpid with hpid | hpid
    · exact h.owned pid (.inr (hprocess pid hpid))
    · exact h.owned pid (.inr hpid)
  · exact ⟨h.proper.containers, h.proper.states, h.proper.known, h.proper.signalled⟩

end Conduct.Holds

def conductContract (halts : Prop) (X : Text) : Contract Conduct where
  spec := conduct halts X
  post _ s := s.slot = none
  holds := Conduct.Holds halts X
  rely := Conduct.Rely halts
  rely_trans := Conduct.Rely.trans
  await_rely := by
    intro a K s t hst h
    refine ⟨hst.1.trans h.1, hst.2.1.trans h.2.1, ?_, fun r u htu => h.2.2.2 r u (hst.trans htu)⟩
    have hawaits := h.2.2.1
    cases a with
    | connected pid => exact ⟨hst.2.2.1.trans hawaits.1, hst.2.2.2.1.trans hawaits.2⟩
    | output pid => exact ⟨hst.2.2.1.trans hawaits.1, hst.2.2.2.1.trans hawaits.2⟩
    | exitStatus pid => exact ⟨hst.2.2.1.trans hawaits.1, hst.2.2.2.1.trans hawaits.2⟩
    | stopped => exact hst.2.2.2.1.trans hawaits
    | launches => exact hst.2.2.2.1.trans hawaits
  post_rely hst h := hst.2.2.2.1.trans h
  frame _ _ _ h := ⟨h.operation, h.demand, h.process, h.owned, h.running, h.requested, h.flagged, h.recorded,
    ⟨h.proper.containers, h.proper.states, h.proper.known, h.proper.signalled⟩⟩

/-- **The calls of the world** are those of the contract, and cancel nothing. -/
theorem conduct_call {halts : Prop} {X : Text} {answers : Answers} (n : ℕ) (w : World) (s : Conduct)
    (c : Call) (K : c.Answer → Conduct → Prop) (hs : Conduct.Holds halts X w s)
    (h : (conduct halts X).wp (.call c) K s) :
    ∃ t, Conduct.Holds halts X (w.perform answers n c).2 t ∧ t.cancelled = s.cancelled ∧
      K (w.perform answers n c).1 t := by
  cases c with
  | write state =>
    obtain ⟨-, hstate, hcontainer, hstatus, hK⟩ := h
    simp only [World.perform]
    split
    · exact ⟨s, hs.write hstate hcontainer hstatus, rfl, hK _⟩
    · exact ⟨s, hs, rfl, hK _⟩
  | popen command environment =>
    obtain ⟨-, hrunning, hdemand, hcontainer, hok, herror⟩ := h
    cases hpopen : answers.popen with
    | error e =>
      simp only [World.perform, hpopen]
      exact ⟨{ s with begun := true }, hs.congr rfl rfl rfl, rfl, herror e⟩
    | ok _ =>
      simp only [World.perform, hpopen]
      exact ⟨_, hs.popen hrunning hdemand hs.operation hcontainer, rfl, hok _⟩
  | setProcess process => exact ⟨_, hs.setProcess h.1, rfl, h.2⟩
  | cancelRequested =>
    refine ⟨s, hs, rfl, ?_⟩
    simp only [World.perform]
    rw [← demand_ne_none fun hX => hs.requested (.inl hX), ← hs.demand]
    exact h
  | terminateProcess =>
    have hlater := (aside_terminateProcess w).subprocesses
    obtain ⟨ps, hps⟩ := terminateProcess_eq w
    simp only [World.perform, hps] at hlater ⊢
    exact ⟨s, hs.later hlater, rfl, h _⟩
  | popenStop container =>
    simp only [World.perform]
    split
    · exact ⟨s, hs.later (aside_stopContainer w container).subprocesses, rfl, h _⟩
    · exact ⟨s, hs, rfl, h _⟩
  | now => exact ⟨s, hs, rfl, h _⟩
  | fileSystem => exact ⟨s, hs, rfl, h _⟩

/-- **The answers of the world** leave what the contract says: a subprocess whose exit status arrives has
exited. -/
theorem conduct_answer {halts : Prop} {X : Text} {w : World} {s : Conduct} {r : Resumption} {a : Await}
    {x : Except PyException a.Value} (hs : Conduct.Holds halts X w s) (hawaits : s.Awaits a)
    (hx : w.answer a r = some x) : Conduct.Holds halts X w (s.after a x) := by
  cases x with
  | error e => cases a <;> cases e <;> exact hs.congr rfl rfl rfl
  | ok v =>
    cases a with
    | connected pid => exact hs
    | output pid => exact hs
    | stopped => exact hs
    | launches => exact hs
    | exitStatus pid =>
      refine ⟨hs.operation, hs.demand, hs.process, ?_, ?_, hs.requested, hs.flagged, hs.recorded, hs.proper⟩
      · intro pid' hpid
        rcases hpid with hpid | hpid
        · exact hs.owned pid' (.inl hpid)
        · cases hpid
      · intro pid' p hp hX halive
        have hsome := hs.running pid' p hp hX halive
        rw [hawaits.1] at hsome
        cases hsome
        cases r <;> simp only [World.answer] at hx <;> try cases hx
        rw [hp] at hx
        obtain ⟨code, hcode, -⟩ := Option.map_eq_some_iff.mp hx
        have hexited : p.exited = some code := hcode
        unfold Subprocess.alive at halive
        rw [hexited] at halive
        cases halive

end HardwareTest.Runner
