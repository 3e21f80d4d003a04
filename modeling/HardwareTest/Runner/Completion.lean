import HardwareTest.Runner.Reach

/-!
# Operations come to an end

The task of an operation waits for its subprocesses, for `docker stop` and for ReportPortal, each time for
something that comes without its doing.

* `executeImageOperation_awaits`, `executeTestRun_awaits` — how often a task waits at most;
* `Remaining` — how often a task can still go on, which every step of it lowers;
* `resumptions_bounded` — over every run, the tasks go on at most so often for every start;
* `slot_always_freed` — from every reachable state the slot and the lock come free by themselves.
-/

namespace HardwareTest.Runner

open HardwareTest.Lib HardwareTest.Python

/-! ## How often a task waits -/

/-- An await. -/
def Op.IsAwait : Op → Prop
  | .await _ => True
  | .call _ => False

/-- The task of an operation waits at most so often. -/
def mostAwaits : ℕ := 10

section Awaits

variable {n : ℕ} {settings : Settings} {state : OperationState}

/-- What is answered at once. -/
theorem call_awaits {α : Type} {c : Call} {k : c.Answer → Work α} (hk : ∀ x, (k x).AtMost Op.IsAwait n) :
    (Program.call (.call c) k : Work α).AtMost Op.IsAwait n := Program.atMost_other id hk

theorem await_awaits (a : Await) : (await a).AtMost Op.IsAwait 1 :=
  Program.atMost_one fun x => Program.atMost_ofExcept x

theorem write_awaits (state : OperationState) : (write state).AtMost Op.IsAwait 0 :=
  call_awaits fun _ => Program.atMost_ofExcept _

theorem finish_awaits {status : OperationStatus} {exitCode : Option ℤ} {updates : Updates} :
    (finish state status exitCode updates).AtMost Op.IsAwait 0 :=
  call_awaits fun _ => write_awaits _

theorem cancelRequested_awaits : cancelRequested.AtMost Op.IsAwait 0 :=
  call_awaits fun _ => Program.atMost_pure _

theorem fileSystem_awaits : fileSystem.AtMost Op.IsAwait 0 := call_awaits fun _ => Program.atMost_pure _

theorem runWithTimeout_awaits (command : Command) (environment : Environment) :
    (runWithTimeout command environment).AtMost Op.IsAwait 3 := by
  have hcreate : (createSubprocess command environment).AtMost Op.IsAwait 1 := by
    refine call_awaits fun r => ?_
    cases r with
    | error e => trivial
    | ok pid => exact (await_awaits (.connected pid)).bind (n := 0) fun _ => Program.atMost_pure pid
  have hrun : (runProcess command environment).AtMost Op.IsAwait (1 + 2) := by
    refine hcreate.bind fun pid => call_awaits fun _ => ?_
    refine Program.AtMost.tryFinally (m := 2) (n := 0) ?_ (call_awaits fun _ => Program.atMost_pure ())
    exact (await_awaits (.output pid)).bind (n := 1) fun output =>
      (await_awaits (.exitStatus pid)).bind (n := 0) fun exitCode => Program.atMost_pure _
  refine hrun.tryCatch (n := 0) fun e => ?_
  cases e <;> trivial

theorem cancelProcess_awaits (container : Option Text) : (cancelProcess container).AtMost Op.IsAwait 1 := by
  cases container with
  | none => exact call_awaits fun _ => Program.atMost_pure ()
  | some container =>
    refine call_awaits fun r => ?_
    cases r with
    | error e => trivial
    | ok _ => exact (await_awaits .stopped).bind (n := 0) fun _ => call_awaits fun _ => Program.atMost_pure ()

theorem executeImageOperation_awaits (command : Command) (reference : Text) :
    (executeImageOperation state command reference).AtMost Op.IsAwait mostAwaits := by
  refine Program.AtMost.tryCatch (m := 6) (n := 4) ?_ fun e => ?_
  · refine (runWithTimeout_awaits command none).bind (n := 3) fun result => ?_
    refine cancelRequested_awaits.bind_none fun flag => ?_
    split_ifs
    · exact finish_awaits.mono (Nat.zero_le 3)
    · exact finish_awaits.mono (Nat.zero_le 3)
    · refine (runWithTimeout_awaits _ none).bind (n := 0) fun inspect => ?_
      split_ifs
      · exact finish_awaits
      · exact finish_awaits
  · cases e with
    | raised e =>
      cases e with
      | timeoutError _ =>
        exact ((cancelProcess_awaits none).bind fun _ => finish_awaits).mono (by omega)
      | exception message => exact finish_awaits.mono (by omega)
    | _ => trivial

theorem allocatedDirectory_awaits (expected : PurePath) : (allocatedDirectory expected).AtMost Op.IsAwait 0 :=
  fileSystem_awaits.bind_none fun _ => Program.atMost_pure _

theorem readSummary_awaits (runDirectory : PurePath) : (readSummary settings runDirectory).AtMost Op.IsAwait 0 := by
  rw [readSummary]
  split
  · trivial
  · refine fileSystem_awaits.bind_none fun files => (Program.atMost_ofExcept _).bind_none fun junitFile => ?_
    split_ifs
    · trivial
    · split <;> trivial

theorem reportUpdates_awaits : (reportUpdates settings state).AtMost Op.IsAwait 1 := by
  rw [reportUpdates]
  split_ifs
  · exact (await_awaits .launches).bind (n := 0) fun _ => Program.atMost_pure _
  · trivial

theorem runPublisher_awaits (command : Command) (token : Text) :
    (runPublisher state command token).AtMost Op.IsAwait 4 := by
  refine Program.AtMost.tryCatch (m := 3) (n := 1) ?_ fun e => ?_
  · refine (runWithTimeout_awaits command _).bind (n := 0) fun result => ?_
    split_ifs <;> trivial
  · cases e with
    | raised e =>
      cases e with
      | timeoutError _ => exact (cancelProcess_awaits _).bind (n := 0) fun _ => Program.atMost_pure _
      | exception message => trivial
    | _ => trivial

theorem publishAllure_awaits (runDirectory : PurePath) :
    (publishAllure settings state runDirectory).AtMost Op.IsAwait 4 := by
  rw [publishAllure]
  split
  · trivial
  · refine fileSystem_awaits.bind_none fun files => (Program.atMost_ofExcept _).bind_none fun resultsDirectory => ?_
    split_ifs
    · trivial
    · refine (write_awaits _).bind_none fun _ => ?_
      split
      · trivial
      · split
        · trivial
        · exact runPublisher_awaits _ _

theorem concludeTestRun_awaits (expectedDirectory : PurePath) (result : ProcessResult) (report : Updates) :
    (concludeTestRun settings state expectedDirectory result report).AtMost Op.IsAwait 4 := by
  have hfinish : ∀ {status : OperationStatus} {exitCode : Option ℤ} {updates : Updates},
      (finish state status exitCode updates).AtMost Op.IsAwait 4 := finish_awaits.mono (Nat.zero_le 4)
  refine cancelRequested_awaits.bind_none fun flag => ?_
  by_cases hflag : flag = true
  · rw [if_pos hflag]
    exact (allocatedDirectory_awaits _).bind_none fun _ => hfinish
  · rw [if_neg hflag]
    refine fileSystem_awaits.bind_none fun files => ?_
    split
    · exact hfinish
    · refine (readSummary_awaits _).bind_none fun ⟨summary, junitMessage⟩ => ?_
      dsimp only
      split
      · refine (publishAllure_awaits _).bind (n := 0) fun published => ?_
        refine cancelRequested_awaits.bind_none fun flag => ?_
        split
        · exact finish_awaits
        · exact finish_awaits
      · exact hfinish

theorem executeTestRun_awaits (command : Command) :
    (executeTestRun settings state command).AtMost Op.IsAwait mostAwaits := by
  rw [executeTestRun]
  split
  · trivial
  · refine Program.AtMost.tryCatch (m := 8) (n := 2) ?_ fun e => ?_
    · exact (runWithTimeout_awaits command _).bind (n := 5) fun result =>
        reportUpdates_awaits.bind (n := 4) fun report => concludeTestRun_awaits _ result report
    · cases e with
      | raised e =>
        cases e with
        | timeoutError _ =>
          exact (cancelProcess_awaits _).bind (n := 1) fun _ => reportUpdates_awaits.bind (n := 0) fun _ =>
            (allocatedDirectory_awaits _).bind_none fun _ => finish_awaits
        | exception message =>
          exact ((allocatedDirectory_awaits _).bind_none fun _ => finish_awaits).mono (Nat.zero_le 2)
      | _ => trivial

/-- **The task of every request** waits at most so often. -/
theorem prepare_awaits {request : Request} {hex : OperationHex} {time : ℕ} {work : Work Unit}
    (h : request.prepare settings hex time = .ok (state, work)) : work.AtMost Op.IsAwait mostAwaits := by
  obtain ⟨-, -, -, ⟨command, reference, rfl, -, -⟩ | ⟨command, rfl, -, -, -⟩⟩ := prepare_ok h
  · exact executeImageOperation_awaits command reference
  · exact executeTestRun_awaits command

end Awaits

/-! ## How often a task goes on -/

/-- A task that has not ended can still go on at most so often: twice for each await, since a start that is
aborted goes on once more, and once to begin. -/
def Task.Remaining (aborting : Bool) (n : ℕ) : Task → Prop
  | .created work => ∃ m, work.AtMost Op.IsAwait m ∧ 2 * m + 1 ≤ n
  | .suspended _ k => ∃ m, (∀ x, (k x).AtMost Op.IsAwait m) ∧ 2 * m + (if aborting then 1 else 2) ≤ n
  | .finished _ => True

/-- The task of the world can still go on at most so often. -/
def World.Remaining (w : World) (n : ℕ) : Prop := ∀ task ∈ w.task, task.Remaining w.aborting.isSome n

/-- The most often that a task goes on. -/
def mostResumptions : ℕ := 2 * mostAwaits + 1

def Event.resumes : Event → Bool
  | .resume .. => true
  | _ => false

def Event.starts : Event → Bool
  | .start .. => true
  | _ => false

section Remaining

variable {settings : Settings} {w w' : World} {n : ℕ}

theorem Task.Remaining.mono {aborting : Bool} {task : Task} {m : ℕ} (h : task.Remaining aborting m) (hmn : m ≤ n) :
    task.Remaining aborting n := by
  cases task with
  | created work => exact h.imp fun _ hm => ⟨hm.1, hm.2.trans hmn⟩
  | suspended a k => exact h.imp fun _ hm => ⟨hm.1, hm.2.trans hmn⟩
  | finished r => trivial

/-- A stretch of the task. -/
theorem remaining_advance (answers : Answers) (i : ℕ) {work : Work Unit} {m : ℕ}
    (h : work.AtMost Op.IsAwait m) (w : World) : (advance answers i work w).Remaining (2 * m) := by
  induction work generalizing i w with
  | pure a =>
    rintro task ⟨⟩
    trivial
  | throw e =>
    rintro task ⟨⟩
    trivial
  | call op k ih =>
    cases op with
    | call c =>
      obtain ⟨-, hk⟩ | ⟨hpos, hk⟩ := h
      · exact ih _ _ (hk _) _
      · exact ih _ _ ((hk _).mono (Nat.sub_le m 1)) _
    | await a =>
      obtain ⟨hop, -⟩ | ⟨hpos, hk⟩ := h
      · exact absurd trivial hop
      · rintro task ⟨⟩
        refine ⟨m - 1, hk, ?_⟩
        show 2 * (m - 1) + 2 ≤ 2 * m
        omega

/-- **Every time the task goes on** it can go on once less. -/
theorem remaining_resume {r : Resumption} {answers : Answers} (hw : w.Remaining n)
    (h : w.resume r answers = some w') : 0 < n ∧ w'.Remaining (n - 1) := by
  obtain ⟨-, ⟨work, hwork, rfl⟩ | ⟨work, htask, -, rfl⟩ | ⟨pid, k, cause, htask, hab, -, rfl⟩⟩ := resume_cases h
  · have hstretch : ∃ m, work.AtMost Op.IsAwait m ∧ 2 * m + 1 ≤ n := by
      rcases continuation_cases hwork with ⟨htask, -⟩ | ⟨a, k, x, htask, -, rfl⟩
      · exact hw _ htask
      · obtain ⟨m, hk, hm⟩ := hw _ htask
        refine ⟨m, hk x, ?_⟩
        split_ifs at hm <;> omega
    obtain ⟨m, hm, hn⟩ := hstretch
    refine ⟨by omega, fun task htask => ?_⟩
    exact (remaining_advance answers 0 hm w task htask).mono (by omega)
  · obtain ⟨m, -, hm⟩ := hw _ htask
    refine ⟨by omega, ?_⟩
    rintro task ⟨⟩
    trivial
  · obtain ⟨m, hk, hm⟩ := hw _ htask
    rw [hab] at hm
    change 2 * m + 2 ≤ n at hm
    refine ⟨by omega, fun task ht => ?_⟩
    have heq : task = .suspended (.connected pid) k := Option.some.inj (ht.symm.trans htask)
    rw [heq]
    refine ⟨m, hk, ?_⟩
    show 2 * m + 1 ≤ n - 1
    omega

/-- Everything but a start and a step of the task leaves it as it is, or drops it. -/
theorem remaining_step {e : Event} (hw : w.Remaining n) (hstart : e.starts = false) (hresume : e.resumes = false)
    (h : step settings w e = some w') : w'.Remaining n := by
  by_cases he : e.aside = true
  · have hside := step_aside he h
    intro task htask
    rw [hside.aborting]
    exact hw task (hside.task ▸ htask)
  cases e with
  | start request hex time => cases hstart
  | resume r answers => cases hresume
  | restart =>
    cases h
    obtain ⟨added, heq, -⟩ := restart_eq w
    rw [heq]
    intro task htask
    cases htask
  | _ => exact absurd rfl he

/-- A start that is accepted begins anew. -/
theorem remaining_start {request : Request} {hex : OperationHex} {time : ℕ} (hw : w.Remaining n)
    (h : step settings w (.start request hex time) = some w') : w'.Remaining n ∨ w'.Remaining mostResumptions := by
  rcases step_start h with rfl | ⟨state, work, hprepare, hstart, -, -⟩
  · exact .inl hw
  · obtain ⟨-, rfl⟩ := start_ok hstart
    right
    rintro task ⟨⟩
    exact ⟨mostAwaits, prepare_awaits hprepare, le_rfl⟩

/-- From any state. -/
theorem resumptions_le {events : List Event} (hw : w.Remaining n)
    (hrun : Transition.run (step settings) w events = some w') :
    events.countP Event.resumes ≤ n + mostResumptions * events.countP Event.starts := by
  induction events generalizing w n with
  | nil => exact Nat.zero_le _
  | cons e events ih =>
    obtain ⟨v, hv, hrest⟩ := Transition.run_cons hrun
    by_cases hresume : e.resumes = true
    · cases e with
      | resume r answers =>
        obtain ⟨hpos, hless⟩ := remaining_resume hw hv
        have hle := ih hless hrest
        simp only [List.countP_cons, Event.resumes, Event.starts, if_true, Bool.false_eq_true, if_false,
          Nat.add_zero]
        omega
      | _ => cases hresume
    by_cases hstart : e.starts = true
    · cases e with
      | start request hex time =>
        simp only [List.countP_cons, Event.resumes, Event.starts, if_true, Bool.false_eq_true, if_false,
          Nat.mul_add, Nat.mul_one, Nat.add_zero]
        rcases remaining_start hw hv with hsame | hnew
        · have hle := ih hsame hrest
          omega
        · have hle := ih hnew hrest
          omega
      | _ => cases hstart
    · rw [Bool.not_eq_true] at hresume hstart
      have hle := ih (remaining_step hw hstart hresume hv) hrest
      simp only [List.countP_cons, hresume, hstart, Bool.false_eq_true, if_false]
      omega

end Remaining

/-! ## How a task goes on -/

/-- What the environment does by itself: a subprocess exits, an await is answered, but not by a timeout, and
`docker stop` ends. -/
def Event.byItself : Event → Prop
  | .exit _ _ => True
  | .resume r _ => r ≠ .timeout
  | .cancelStopped => True
  | _ => False

/-- The subprocess that an await is about. -/
def Await.process : Await → Option ℕ
  | .connected pid | .output pid | .exitStatus pid => some pid
  | .stopped | .launches => none

/-- The subprocess that the task waits for. -/
def World.awaited (w : World) : Option ℕ :=
  match w.task with
  | some (.suspended a _) => a.process
  | _ => none

section Progress

variable {settings : Settings} {w w' : World}

theorem awaited_exists {halts : Prop} (hw : Conducting halts w) {pid : ℕ} (hpid : w.awaited = some pid) :
    ∃ p, w.subprocesses[pid]? = some p := by
  unfold World.awaited at hpid
  split at hpid
  · rename_i a k htask
    obtain ⟨s, hs, hmet⟩ := hw.upheld _ htask
    have hawaits : s.Awaits a := hmet.2.2.1
    have hrunning : s.running = some pid := by
      cases a with
      | connected pid' | output pid' | exitStatus pid' =>
        cases hpid
        exact hawaits.1
      | stopped | launches => cases hpid
    obtain ⟨p, hp, -⟩ := hs.owned pid (.inr hrunning)
    exact ⟨p, hp⟩
  · cases hpid

/-- A task whose await is answered goes on. -/
theorem resume_answered {a : Await} {k : Except PyException a.Value → Work Unit} {r : Resumption}
    {x : Except PyException a.Value} (htask : w.task = some (.suspended a k)) (hr : r.cancels = w.cancelling)
    (hx : w.answer a r = some x) (answers : Answers) :
    w.resume r answers = some (advance answers 0 (k x) w) := by
  have hcontinuation : w.continuation r = some (k x) := by
    unfold World.continuation
    rw [htask]
    exact congrArg (Option.map k) hx
  unfold World.resume
  rw [if_neg (not_not.mpr hr), hcontinuation]

/-- **A task that waits goes on** when the subprocess it waits for has exited, and without a timeout. -/
theorem resumable (hbusy : w.busy = true)
    (hexited : ∀ pid, w.awaited = some pid → ∃ code, (w.subprocesses[pid]?).bind Subprocess.exited = some code) :
    ∃ r, r ≠ .timeout ∧ ∀ answers, ∃ w', w.resume r answers = some w' := by
  unfold World.busy at hbusy
  unfold World.awaited at hexited
  split at hbusy
  · cases hbusy
  rename_i task htask
  rw [htask] at hexited
  cases task with
  | finished r => cases hbusy
  | created work =>
    cases hcancelling : w.cancelling with
    | true =>
      have hr : Resumption.cancels .cancelled = w.cancelling := hcancelling.symm
      refine ⟨.cancelled, (fun h => by cases h), fun answers => ⟨{ w with task := some (.finished (.error .cancelled)) }, ?_⟩⟩
      unfold World.resume World.continuation
      rw [if_neg (not_not.mpr hr), htask]
    | false =>
      have hr : Resumption.cancels .begin = w.cancelling := hcancelling.symm
      refine ⟨.begin, (fun h => by cases h), fun answers => ⟨advance answers 0 work w, ?_⟩⟩
      unfold World.resume World.continuation
      rw [if_neg (not_not.mpr hr), htask]
  | suspended a k =>
    cases hcancelling : w.cancelling with
    | true =>
      -- every await is cancelled at once, but a start that is not aborted yet
      have hr : Resumption.cancels .cancelled = w.cancelling := hcancelling.symm
      refine ⟨.cancelled, (fun h => by cases h), fun answers => ?_⟩
      have hanswered : ∀ {x}, w.answer a .cancelled = some x → ∃ w', w.resume .cancelled answers = some w' :=
        fun hx => ⟨_, resume_answered htask hr hx answers⟩
      cases a with
      | connected pid =>
        cases hab : w.aborting with
        | some cause => exact hanswered (x := .error .cancelled) (by rw [World.answer, if_neg (by simp [hab])])
        | none =>
          refine ⟨{ w.kill pid with aborting := some .cancelled }, ?_⟩
          unfold World.resume World.continuation
          rw [if_neg (not_not.mpr hr), htask]
          simp only [World.answer, hab, if_true, Option.map_none, abortCause]
      | output pid | exitStatus pid | stopped | launches => exact hanswered rfl
    | false =>
      have hanswered : ∀ {r x}, w.answer a r = some x → r.cancels = false → r ≠ .timeout →
          ∃ r, r ≠ .timeout ∧ ∀ answers, ∃ w', w.resume r answers = some w' :=
        fun hx hr hne => ⟨_, hne, fun answers => ⟨_, resume_answered htask (hr.trans hcancelling.symm) hx answers⟩⟩
      cases a with
      | connected pid =>
        cases hab : w.aborting with
        | none => exact hanswered (r := .ready) (by rw [World.answer, if_pos hab]) rfl fun h => by cases h
        | some cause =>
          obtain ⟨code, hcode⟩ := hexited pid rfl
          exact hanswered (r := .aborted) (x := .error cause) (by simp only [World.answer, hab, hcode]) rfl fun h => by cases h
      | output pid => exact hanswered (r := .eof) rfl rfl fun h => by cases h
      | exitStatus pid =>
        obtain ⟨code, hcode⟩ := hexited pid rfl
        have hx : w.answer (.exitStatus pid) .exited = some (.ok code) := by
          simp only [World.answer, hcode, Option.map_some]
        exact hanswered hx rfl fun h => by cases h
      | stopped => exact hanswered (r := .stopped) rfl rfl fun h => by cases h
      | launches => exact hanswered (r := .launches none) rfl rfl fun h => by cases h

/-- An exit, when it is not there yet. -/
theorem exit_awaited (settings : Settings) (pid : ℕ) {p : Subprocess} (hp : w.subprocesses[pid]? = some p) :
    ∃ v, step settings w (.exit pid 0) = some v ∧ v.task = w.task ∧
      ∃ code, (v.subprocesses[pid]?).bind Subprocess.exited = some code := by
  refine ⟨_, rfl, rfl, ?_⟩
  simp only [World.modifySubprocess, List.getElem?_modify, hp, if_true, Option.map_eq_map, Option.map_some,
    Option.bind_some]
  split
  · exact ⟨0, rfl⟩
  · rename_i hdead
    simp only [Subprocess.alive, Option.isNone_iff_eq_none] at hdead
    exact Option.ne_none_iff_exists'.mp hdead

/-- **A busy service goes on** by itself, after an exit at most. -/
theorem goes_on (settings : Settings) (hw : Conducting False w) (hbusy : w.busy = true) : ∃ es w',
    (∀ e ∈ es, e.byItself) ∧ es.length ≤ 2 ∧ Transition.run (step settings) w es = some w' ∧
    ∀ n, w.Remaining n → 0 < n ∧ w'.Remaining (n - 1) := by
  cases hawaited : w.awaited with
  | none =>
    obtain ⟨r, hr, hresume⟩ := resumable hbusy (by simp [hawaited])
    obtain ⟨w', hw'⟩ := hresume .plain
    exact ⟨[.resume r .plain], w', by simpa [Event.byItself] using hr, by simp, Transition.run_single hw',
      fun n hn => remaining_resume hn hw'⟩
  | some pid =>
    obtain ⟨p, hp⟩ := awaited_exists hw hawaited
    obtain ⟨v, hv, htask, hexited⟩ := exit_awaited settings pid hp
    have hbusy' : v.busy = true := by rw [World.busy, htask]; exact hbusy
    have hawaited' : v.awaited = some pid := by rw [World.awaited, htask]; exact hawaited
    obtain ⟨r, hr, hresume⟩ := resumable hbusy' fun pid' hpid => by
      rw [hawaited'] at hpid
      cases hpid
      exact hexited
    obtain ⟨w', hw'⟩ := hresume .plain
    refine ⟨[.exit pid 0, .resume r .plain], w', ?_, by simp, ?_, fun n hn => ?_⟩
    · simpa [Event.byItself] using hr
    · exact Transition.run_trans (Transition.run_single hv) (Transition.run_single (e := Event.resume r .plain) hw')
    · exact remaining_resume (remaining_step hn rfl rfl hv) hw'

/-- What the service does by itself ends with a free slot. -/
theorem comes_free (settings : Settings) {n : ℕ} (hw : Conducting False w) (hremaining : w.Remaining n) : ∃ es v,
    (∀ e ∈ es, e.byItself) ∧ es.length ≤ 2 * n ∧ Transition.run (step settings) w es = some v ∧ v.busy = false := by
  induction n generalizing w with
  | zero =>
    cases hbusy : w.busy with
    | false => exact ⟨[], w, nofun, Nat.zero_le _, rfl, hbusy⟩
    | true =>
      obtain ⟨es, w', -, -, -, hless⟩ := goes_on settings hw hbusy
      exact absurd (hless 0 hremaining).1 (lt_irrefl 0)
  | succ n ih =>
    cases hbusy : w.busy with
    | false => exact ⟨[], w, nofun, Nat.zero_le _, rfl, hbusy⟩
    | true =>
      obtain ⟨es, w', hes, hlength, hrun, hless⟩ := goes_on settings hw hbusy
      have hw' : Conducting False w' := Transition.run_invariant
        (fun _ _ _ hv h => conducting_step hv (fun hf => hf.elim) h) hw hrun
      obtain ⟨es', v, hes', hlength', hrun', hfree⟩ := ih hw' (hless _ hremaining).2
      refine ⟨es ++ es', v, fun e he => ?_, ?_, Transition.run_trans hrun hrun', hfree⟩
      · exact (List.mem_append.mp he).elim (hes e) (hes' e)
      · rw [List.length_append]
        omega

/-- A reachable task can go on at most so often. -/
theorem remaining_of_run {events : List Event} (hrun : Transition.run (step settings) .fresh events = some w) :
    w.Remaining mostResumptions := by
  have hfresh : World.fresh.Remaining mostResumptions := fun task htask => by cases htask
  refine Transition.run_invariant (I := fun u => u.Remaining mostResumptions) (fun u e u' hu h => ?_) hfresh hrun
  cases e with
  | start request hex time => exact (remaining_start hu h).elim id id
  | resume r answers =>
    intro task htask
    exact ((remaining_resume hu h).2 task htask).mono (Nat.sub_le _ _)
  | _ => exact remaining_step hu rfl rfl h

/-- **The slot always comes free.**  From every reachable state, what the service does by itself, without any
timeout and in a bounded number of steps, ends with a free slot and a free lock, and then every request
that can be prepared under a new identifier is started. -/
theorem slot_always_freed {events : List Event} (hrun : Transition.run (step settings) .fresh events = some w) :
    ∃ es v, (∀ e ∈ es, e.byItself) ∧ es.length ≤ 2 * mostResumptions + 1 ∧
      Transition.run (step settings) w es = some v ∧ v.busy = false ∧ v.canceller = none ∧
      ∀ request hex time state work, request.prepare settings hex time = .ok (state, work) →
        (∀ st ∈ v.history, st.operationId ≠ request.newId hex) →
        ∃ u, step settings v (.start request hex time) = some u ∧ u.busy = true ∧
          u.operation = request.newId hex := by
  obtain ⟨es, v, hes, hlength, hrun', hfree⟩ := comes_free settings (conducting_of_run hrun)
    (remaining_of_run hrun)
  have hlocked : ∃ es v, (∀ e ∈ es, e.byItself) ∧ es.length ≤ 2 * mostResumptions + 1 ∧
      Transition.run (step settings) w es = some v ∧ v.busy = false ∧ v.canceller = none := by
    cases hlock : v.canceller with
    | none => exact ⟨es, v, hes, hlength.trans (Nat.le_succ _), hrun', hfree, hlock⟩
    | some X =>
      have hstopped : step settings v .cancelStopped = some (v.cancelStopped X) := by rw [step, hlock]; rfl
      have htask : (v.cancelStopped X).task = v.task := (step_aside rfl hstopped).task
      refine ⟨es ++ [.cancelStopped], v.cancelStopped X, fun e he => ?_, ?_,
        Transition.run_trans hrun' (Transition.run_single hstopped), ?_, rfl⟩
      · rcases List.mem_append.mp he with he | he
        · exact hes e he
        · rw [List.mem_singleton.mp he]
          trivial
      · rw [List.length_append, List.length_singleton]
        omega
      · rw [World.busy, htask]
        exact hfree
  obtain ⟨es, v, hes, hlength, hrun', hfree, hlock⟩ := hlocked
  refine ⟨es, v, hes, hlength, hrun', hfree, hlock, fun request hex time state work hprepare hnew => ?_⟩
  have hstart : v.start state work = .ok { v with
      cancelRequested := false
      log := []
      history := v.history ++ [state]
      operation := state.operationId
      task := some (.created work)
      cancelling := false
      captured := []
      aborting := none } := by
    rw [World.start, if_neg (by simp [hfree])]
  exact ⟨_, step_start_ok hlock hnew hprepare hstart, rfl, (prepare_ok hprepare).1⟩

/-- A build that is being cancelled makes room for the next one. -/
theorem slot_always_freed_sample : ∃ w v,
    Transition.run (step .default) .fresh (sampleCancelledBuild.take 4) = some w ∧ w.busy = true ∧
    (∃ es, (∀ e ∈ es, e.byItself) ∧ Transition.run (step .default) w es = some v) ∧
    v.busy = false ∧ v.canceller = none := by
  have hbusy : (Transition.run (step .default) .fresh (sampleCancelledBuild.take 4)).map World.busy
      = some true := by
    decide +kernel
  obtain ⟨w, hw, hbusy⟩ := Option.map_eq_some_iff.mp hbusy
  obtain ⟨es, v, hes, -, hrun, hfree, hlock, -⟩ := slot_always_freed hw
  exact ⟨w, v, hw, hbusy, ⟨es, hes, hrun⟩, hfree, hlock⟩

end Progress

end HardwareTest.Runner
