import HardwareTest.Runner.History

/-!
# No subprocess is left behind

A subprocess that `run` created has exited or was told to stop before the terminal state of its
operation is written, unless `run` raises while it is running and nobody stops it.

* `custody` — the subprocess a procedure may leave running, and what it has to do about it;
* `Event.Stoppable` — the steps in which `run` does not raise over a running subprocess for good;
* `settled_when_terminal` — in every run of such steps.
-/

namespace HardwareTest.Runner

open HardwareTest.Lib HardwareTest.Python

/-- A subprocess has exited, or was told to stop. -/
def Subprocess.Settled (p : Subprocess) : Prop := p.alive = false ∨ p.told = true

instance (p : Subprocess) : Decidable p.Settled := inferInstanceAs (Decidable (_ ∨ _))

theorem Subprocess.Settled.later {p q : Subprocess} (h : p.Settled) (hpq : p.Later q) : q.Settled := by
  rcases h with h | h
  · refine .inl ?_
    cases hq : q.alive with
    | false => rfl
    | true => exact absurd (hpq.exited hq) (by simp [h])
  · refine .inr ?_
    unfold Subprocess.told at h ⊢
    rw [Bool.or_eq_true] at h ⊢
    exact h.imp hpq.terminated hpq.stopIssued

/-- The terminal state is written or not, and the subprocess, with its command, that may be running with
nobody having told it to stop. -/
structure Custody where
  ended : Bool
  running : Option (ℕ × Command)

namespace Custody

def settle (s : Custody) : Custody := { s with running := none }

/-- `docker stop` settles the subprocess whose container it names. -/
def stop (s : Custody) (container : Text) : Custody :=
  match s.running with
  | some (_, command) => if containerOf command = some container then s.settle else s
  | none => s

/-- What is awaited belongs to the running subprocess. -/
def Awaits (s : Custody) : Await → Prop
  | .connected pid => ∃ command, s.running = some (pid, command)
  | .output pid => ∃ command, s.running = some (pid, command)
  | .exitStatus pid => ∃ command, s.running = some (pid, command)
  | _ => True

/-- The subprocess runs a container. -/
def InContainer (s : Custody) : Prop :=
  ∃ pid command container, s.running = some (pid, command) ∧ containerOf command = some container

/-- What an exception leaves: a settled subprocess, or a running one when the task is cancelled from
outside, or when a timeout interrupts the wait for a container. -/
def Left (s : Custody) (e : PyException) (t : Custody) : Prop :=
  t = s.settle ∨ (t = s ∧ (e = .cancelled ∨ (s.InContainer ∧ e.isTimeout = true)))

/-- What an answer leaves. -/
def After (s : Custody) : (a : Await) → Except PyException a.Value → Custody → Prop
  | .connected _, .ok _, t => t = s
  | .connected _, .error e, t => t = s.settle ∨ (t = s ∧ e = .cancelled)
  | .output _, .ok _, t => t = s
  | .output _, .error e, t => s.Left e t
  | .exitStatus _, .ok _, t => t = s.settle
  | .exitStatus _, .error e, t => s.Left e t
  | .stopped, _, t => t = s
  | .launches, _, t => t = s

end Custody

/-- The task of operation `X` has one subprocess at a time, and writes a terminal state only when it is
settled. -/
def custody (X : Text) : Program.Spec Op Op.Answer Custody where
  wp op := match op with
    | .call (.write state) => fun K s => s.ended = false ∧ state.operationId = X ∧
        (state.status.isTerminal = true → s.running = none) ∧
        K (.ok ()) { s with ended := state.status.isTerminal } ∧ ∀ e, K (.error e) s
    | .call (.popen command _) => fun K s => s.ended = false ∧ s.running = none ∧
        (∀ pid, K (.ok pid) { s with running := some (pid, command) }) ∧ ∀ e, K (.error e) s
    | .call (.popenStop container) => fun K s => ∀ r, K r (s.stop container)
    | .call _ => fun K s => ∀ r, K r s
    | .await a => fun K s => s.ended = false ∧ s.Awaits a ∧ ∀ r t, a.Allows r → s.After a r t → K r t
  mono := by
    intro op P Q s hPQ h
    cases op with
    | await a => exact ⟨h.1, h.2.1, fun r t ha ht => hPQ r t (h.2.2 r t ha ht)⟩
    | call c =>
      cases c with
      | write state =>
        exact ⟨h.1, h.2.1, h.2.2.1, hPQ _ _ h.2.2.2.1, fun e => hPQ _ _ (h.2.2.2.2 e)⟩
      | popen command environment =>
        exact ⟨h.1, h.2.1, fun pid => hPQ _ _ (h.2.2.1 pid), fun e => hPQ _ _ (h.2.2.2 e)⟩
      | popenStop container => exact fun r => hPQ _ _ (h r)
      | now => exact fun r => hPQ _ _ (h r)
      | cancelRequested => exact fun r => hPQ _ _ (h r)
      | fileSystem => exact fun r => hPQ _ _ (h r)
      | setProcess process => exact fun r => hPQ _ _ (h r)
      | terminateProcess => exact fun r => hPQ _ _ (h r)

/-! ## The procedures -/

section Procedures

variable {X : Text} {α : Type}

/-- Nothing is left running, except by a task that is cancelled from outside. -/
def Cleared (r : Except PyException α) (s : Custody) : Prop :=
  r = .error .cancelled ∨ s.running = none

/-- No terminal state is written, and nothing is left running. -/
def Clear (r : Except PyException α) (s : Custody) : Prop :=
  s.ended = false ∧ r ≠ .error .expired ∧ Cleared r s

/-- What `_run_with_timeout` leaves: nothing, or a container that a timeout has interrupted. -/
def Ran (command : Command) (r : Except PyException α) (s : Custody) : Prop :=
  Clear r s ∨ (s.ended = false ∧ ∃ pid container message, s.running = some (pid, command) ∧
    containerOf command = some container ∧ r = .error (.raised (.timeoutError message)))

/-- What the body of a procedure leaves: nothing when it returns. -/
def Left (command : Command) (r : Except PyException Unit) (s : Custody) : Prop :=
  match r with
  | .ok _ => s.running = none
  | .error e => Ran command (.error e : Except PyException Unit) s

theorem Clear.error {β : Type} {e : PyException} {s : Custody}
    (h : Clear (.error e : Except PyException α) s) : Clear (.error e : Except PyException β) s := by
  obtain ⟨hs, hexpired, hclear⟩ := h
  refine ⟨hs, fun he => hexpired ?_, hclear.imp (fun he => ?_) id⟩
  · cases he
    rfl
  · cases he
    rfl

theorem Ran.error {β : Type} {command : Command} {e : PyException} {s : Custody}
    (h : Ran command (.error e : Except PyException α) s) :
    Ran command (.error e : Except PyException β) s := by
  refine h.imp Clear.error ?_
  rintro ⟨hs, pid, container, message, hrunning, hcontainer, he⟩
  cases he
  exact ⟨hs, pid, container, message, hrunning, hcontainer, rfl⟩

/-- What has returned has left nothing. -/
theorem Ran.ok {command : Command} {a : α} {s : Custody}
    (h : Ran command (.ok a : Except PyException α) s) : s.ended = false ∧ s.running = none := by
  rcases h with ⟨hs, -, hclear | hclear⟩ | ⟨-, pid, container, message, -, -, he⟩
  · cases hclear
  · exact ⟨hs, hclear⟩
  · cases he

theorem Clear.ok {a : α} {s : Custody} (h : Clear (.ok a : Except PyException α) s) :
    s.ended = false ∧ s.running = none := ⟨h.1, h.2.2.resolve_left (nomatch ·)⟩

theorem clear_ok {a : α} {s : Custody} (hs : s.ended = false) (hrunning : s.running = none) :
    Clear (.ok a : Except PyException α) s := ⟨hs, by simp, .inr hrunning⟩

theorem clear_raised {e : PyError} {s : Custody} (hs : s.ended = false) (hrunning : s.running = none) :
    Clear (.error (.raised e) : Except PyException α) s := ⟨hs, by simp, .inr hrunning⟩

theorem ran_timed {command : Command} {e : PyException} {s t : Custody} {pid : ℕ}
    (hs : s.ended = false) (hrunning : s.running = some (pid, command)) (ht : s.Left e t) :
    Ran command (.error e.timed : Except PyException α) t := by
  rcases ht with rfl | ⟨rfl, rfl | ⟨⟨pid', command', container, hrunning', hcontainer⟩, htimeout⟩⟩
  · refine .inl ⟨hs, ?_, .inr rfl⟩
    cases e <;> simp [PyException.timed]
  · exact .inl ⟨hs, by simp [PyException.timed], .inl rfl⟩
  · rw [hrunning] at hrunning'
    cases hrunning'
    cases e with
    | raised e =>
      cases e with
      | timeoutError message => exact .inr ⟨hs, pid, container, message, hrunning, hcontainer, rfl⟩
      | exception message => cases htimeout
    | expired => exact .inr ⟨hs, pid, container, [], hrunning, hcontainer, rfl⟩
    | cancelled => cases htimeout

theorem wp_custody_runWithTimeout {command : Command} {environment : Environment} {s : Custody}
    (hs : s.ended = false) (hrunning : s.running = none) :
    Program.wp (custody X) (runWithTimeout command environment) (Ran command) s := by
  apply wp_runWithTimeout
  apply wp_runProcess
  refine ⟨hs, hrunning, ?_, fun e => .inl (clear_raised hs hrunning)⟩
  intro pid
  let started : Custody := { s with running := some (pid, command) }
  refine ⟨hs, ⟨command, rfl⟩, ?_⟩
  intro r t _ ht
  cases r with
  | error e =>
    exact ran_timed (s := started) hs rfl (ht.imp id fun h => ⟨h.1, .inl h.2⟩)
  | ok _ =>
    cases ht
    intro _
    refine ⟨hs, ⟨command, rfl⟩, ?_⟩
    intro r t _ ht
    cases r with
    | error e => exact fun _ => ran_timed (s := started) hs rfl ht
    | ok output =>
      cases ht
      refine ⟨hs, ⟨command, rfl⟩, ?_⟩
      intro r t _ ht
      cases r with
      | error e => exact fun _ => ran_timed (s := started) hs rfl ht
      | ok exitCode =>
        cases ht
        exact fun _ => .inl (clear_ok hs rfl)

/-- `cancel` settles the container it stops, whether `docker stop` starts or not. -/
theorem wp_custody_cancelProcess {container : Text} {s : Custody} (hs : s.ended = false)
    (hrunning : s.running = none ∨
      ∃ pid command, s.running = some (pid, command) ∧ containerOf command = some container) :
    Program.wp (custody X) (cancelProcess (some container)) Clear s := by
  have hstop : s.stop container = s.settle := by
    rcases hrunning with hnone | ⟨pid, command, hsome, hcontainer⟩
    · obtain ⟨ended, running⟩ := s
      cases hnone
      rfl
    · simp [Custody.stop, hsome, hcontainer]
  unfold cancelProcess
  rw [Program.wp_bind, wp_popenStop]
  intro r
  rw [hstop]
  cases r with
  | error e => exact clear_raised hs rfl
  | ok _ =>
    show Program.wp (custody X) (await .stopped >>= _) _ _
    rw [Program.wp_bind, wp_await]
    refine ⟨hs, trivial, ?_⟩
    intro r t ha ht
    cases ht
    cases r with
    | ok _ => exact fun _ => clear_ok hs rfl
    | error e =>
      have he : e = .cancelled := ha
      subst he
      exact ⟨hs, by simp, .inl rfl⟩

theorem wp_custody_finish {state : OperationState} {status : OperationStatus} {exitCode : Option ℤ}
    {updates : Updates} {s : Custody} (hs : s.ended = false) (hrunning : s.running = none)
    (hstate : state.operationId = X) :
    Program.wp (custody X) (finish state status exitCode updates)
      (fun r t => t.running = none ∧ ∀ e, r = .error e → t.ended = false ∧ e ≠ .expired) s := by
  unfold finish
  rw [Program.wp_bind]
  intro time
  refine (congrFun (wp_write _ _ _) _).mpr ⟨hs, hstate, fun _ => hrunning, ⟨hrunning, fun _ he => nomatch he⟩, ?_⟩
  intro e
  refine ⟨hrunning, fun e' he => ?_⟩
  cases he
  exact ⟨hs, by simp⟩

theorem left_finish {command : Command} {state : OperationState} {status : OperationStatus}
    {exitCode : Option ℤ} {updates : Updates} {s : Custody} (hs : s.ended = false ∧ s.running = none)
    (hstate : state.operationId = X) :
    Program.wp (custody X) (finish state status exitCode updates) (Left command) s := by
  refine Program.wp_mono ?_ (wp_custody_finish hs.1 hs.2 hstate)
  rintro r t ⟨hrunning, herror⟩
  cases r with
  | ok _ => exact hrunning
  | error e => exact .inl ⟨(herror e rfl).1, by simpa using (herror e rfl).2, .inr hrunning⟩

theorem cleared_finish {state : OperationState} {status : OperationStatus} {exitCode : Option ℤ}
    {updates : Updates} {s : Custody} (hs : s.ended = false ∧ s.running = none)
    (hstate : state.operationId = X) :
    Program.wp (custody X) (finish state status exitCode updates) Cleared s :=
  Program.wp_mono (fun _ _ h => .inr h.1) (wp_custody_finish hs.1 hs.2 hstate)

/-- **An image operation** leaves nothing running. -/
theorem wp_custody_executeImageOperation {state : OperationState} {command : Command} {reference : Text}
    {s : Custody} (hs : s.ended = false ∧ s.running = none) (hstate : state.operationId = X)
    (hcommand : containerOf command = none) :
    Program.wp (custody X) (executeImageOperation state command reference) Cleared s := by
  refine Program.wp_handle (R := Left command) ?_ (fun _ _ h => .inr h) ?_
  · refine Program.wp_seq (wp_custody_runWithTimeout hs.1 hs.2) ?_ (fun _ _ h => h.error)
    intro result t ht
    rw [Program.wp_bind, wp_cancelRequested]
    intro requested
    dsimp only
    split
    · exact left_finish ht.ok hstate
    · split
      · exact left_finish ht.ok hstate
      · refine Program.wp_seq (wp_custody_runWithTimeout ht.ok.1 ht.ok.2) ?_ ?_
        · intro inspect u hu
          split
          · exact left_finish hu.ok hstate
          · exact left_finish hu.ok hstate
        · intro e u hu
          rcases hu with hu | ⟨-, pid, container, message, -, hcontainer, -⟩
          · exact .inl hu.error
          · cases hcontainer
  · intro e t ht
    rcases ht with ⟨hended, hexpired, hclear⟩ | ⟨-, pid, container, message, -, hcontainer, -⟩
    · cases e with
      | expired => exact absurd rfl hexpired
      | cancelled => exact .inl rfl
      | raised e =>
        have hnone : t.running = none := hclear.resolve_left (by simp)
        cases e with
        | exception message => exact cleared_finish ⟨hended, hnone⟩ hstate
        | timeoutError message =>
          show Program.wp (custody X) (terminateProcess >>= _) _ _
          rw [Program.wp_bind]
          exact fun _ => cleared_finish ⟨hended, hnone⟩ hstate
    · rw [hcommand] at hcontainer
      cases hcontainer

theorem wp_custody_resolve {files : FileSystem} {runDirectory path : PurePath} {s : Custody}
    (hs : s.ended = false ∧ s.running = none) :
    Program.wp (custody X) (Program.ofExcept (files.resolveReportPath runDirectory path)) Clear s := by
  rw [Program.wp_ofExcept]
  unfold FileSystem.resolveReportPath
  dsimp only
  split
  · exact clear_raised hs.1 hs.2
  · exact clear_ok hs.1 hs.2

theorem wp_custody_readSummary {settings : Settings} {runDirectory : PurePath} {s : Custody}
    (hs : s.ended = false ∧ s.running = none) :
    Program.wp (custody X) (readSummary settings runDirectory) Clear s := by
  unfold readSummary
  split
  · exact clear_ok hs.1 hs.2
  · rw [Program.wp_bind, wp_fileSystem]
    intro files
    refine Program.wp_seq (wp_custody_resolve hs) ?_ (fun _ _ h => h.error)
    intro junitFile t ht
    split
    · exact clear_ok ht.ok.1 ht.ok.2
    · split
      · exact clear_ok ht.ok.1 ht.ok.2
      · exact clear_ok ht.ok.1 ht.ok.2

theorem wp_custody_reportUpdates {settings : Settings} {state : OperationState} {s : Custody}
    (hs : s.ended = false ∧ s.running = none) :
    Program.wp (custody X) (reportUpdates settings state) Clear s := by
  unfold reportUpdates
  split
  · rw [Program.wp_bind, wp_await]
    refine ⟨hs.1, trivial, ?_⟩
    intro r t ha ht
    cases ht
    cases r with
    | ok page => exact clear_ok hs.1 hs.2
    | error e =>
      have he : e = .cancelled := ha
      subst he
      exact ⟨hs.1, by simp, .inl rfl⟩
  · exact clear_ok hs.1 hs.2

theorem wp_custody_runPublisher {state : OperationState} {command : Command} {token : Text} {s : Custody}
    (hs : s.ended = false ∧ s.running = none)
    (hcommand : containerOf command = some (Settings.publisherContainer state.operationId)) :
    Program.wp (custody X) (runPublisher state command token) Clear s := by
  refine Program.wp_handle (R := Ran command) ?_ (fun _ _ h => clear_ok h.ok.1 h.ok.2) ?_
  · refine Program.wp_seq (wp_custody_runWithTimeout hs.1 hs.2) ?_ (fun _ _ h => h.error)
    intro result t ht
    split
    · exact .inl (clear_ok ht.ok.1 ht.ok.2)
    · exact .inl (clear_ok ht.ok.1 ht.ok.2)
  · intro e t ht
    -- what a timeout has interrupted is the publisher's container
    have hstopped : ∀ message, e = .raised (.timeoutError message) →
        t.ended = false ∧ (t.running = none ∨ ∃ pid command, t.running = some (pid, command) ∧
          containerOf command = some (Settings.publisherContainer state.operationId)) := by
      rintro message rfl
      rcases ht with ⟨hended, -, hclear⟩ | ⟨hended, pid, container, -, hrunning, -, -⟩
      · exact ⟨hended, .inl (hclear.resolve_left (by simp))⟩
      · exact ⟨hended, .inr ⟨pid, command, hrunning, hcommand⟩⟩
    cases e with
    | raised e =>
      cases e with
      | timeoutError message =>
        obtain ⟨hended, hrunning⟩ := hstopped message rfl
        refine Program.wp_seq (wp_custody_cancelProcess hended hrunning) ?_ (fun _ _ h => h.error)
        exact fun _ u hu => clear_ok hu.ok.1 hu.ok.2
      | exception message =>
        rcases ht with ⟨hended, -, hclear⟩ | ⟨-, pid, container, message', -, -, he⟩
        · exact clear_ok hended (hclear.resolve_left (by simp))
        · cases he
    | expired =>
      rcases ht with ⟨-, hexpired, -⟩ | ⟨-, pid, container, message', -, -, he⟩
      · exact absurd rfl hexpired
      · cases he
    | cancelled =>
      rcases ht with ht | ⟨-, pid, container, message', -, -, he⟩
      · exact ht
      · cases he

theorem wp_custody_publishAllure {settings : Settings} {state : OperationState}
    {runDirectory : PurePath} {s : Custody} (hs : s.ended = false ∧ s.running = none)
    (hstate : state.operationId = X) (hstatus : state.status.isTerminal = false) :
    Program.wp (custody X) (publishAllure settings state runDirectory) Clear s := by
  unfold publishAllure
  split
  · exact clear_ok hs.1 hs.2
  · rw [Program.wp_bind, wp_fileSystem]
    intro files
    refine Program.wp_seq (wp_custody_resolve hs) ?_ (fun _ _ h => h.error)
    intro resultsDirectory t ht
    split
    · exact clear_ok ht.ok.1 ht.ok.2
    · rw [Program.wp_bind, wp_write]
      refine ⟨ht.ok.1, hstate, fun _ => ht.ok.2, ?_, fun e => clear_raised ht.ok.1 ht.ok.2⟩
      dsimp only [Except.mapError]
      split
      · exact clear_ok hstatus ht.ok.2
      · split
        · exact clear_raised hstatus ht.ok.2
        · rename_i command hcommand
          exact wp_custody_runPublisher ⟨hstatus, ht.ok.2⟩ (containerOf_publishAllure hcommand)

theorem wp_custody_concludeTestRun {settings : Settings} {state : OperationState}
    {expectedDirectory : PurePath} {result : ProcessResult} {report : Updates} {command : Command}
    {s : Custody} (hs : s.ended = false ∧ s.running = none) (hstate : state.operationId = X)
    (hstatus : state.status.isTerminal = false) :
    Program.wp (custody X) (concludeTestRun settings state expectedDirectory result report)
      (Left command) s := by
  unfold concludeTestRun
  rw [Program.wp_bind, wp_cancelRequested]
  intro requested
  dsimp only
  split
  · unfold allocatedDirectory
    rw [Program.wp_bind, Program.wp_bind, wp_fileSystem]
    exact fun files => left_finish hs hstate
  · rw [Program.wp_bind, wp_fileSystem]
    intro files
    dsimp only
    split
    · exact left_finish hs hstate
    · refine Program.wp_seq (wp_custody_readSummary hs) ?_ (fun _ _ h => .inl h.error)
      intro summary t ht
      split
      · refine Program.wp_seq (wp_custody_publishAllure ht.ok hstate hstatus) ?_
          (fun _ _ h => .inl h.error)
        intro published u hu
        rw [Program.wp_bind, wp_cancelRequested]
        intro requested
        dsimp only
        split
        · exact left_finish hu.ok hstate
        · exact left_finish hu.ok hstate
      · exact left_finish ht.ok hstate

/-- **A test run** leaves nothing running. -/
theorem wp_custody_executeTestRun {settings : Settings} {state : OperationState} {command : Command}
    {runId container : Text} {s : Custody} (hs : s.ended = false ∧ s.running = none)
    (hstate : state.operationId = X) (hstatus : state.status.isTerminal = false)
    (hrun : state.runId = some runId) (hname : state.containerName = some container)
    (hcommand : containerOf command = some container) :
    Program.wp (custody X) (executeTestRun settings state command) Cleared s := by
  unfold executeTestRun
  rw [hrun]
  dsimp only
  refine Program.wp_handle (R := Left command) ?_ (fun _ _ h => .inr h) ?_
  · refine Program.wp_seq (wp_custody_runWithTimeout hs.1 hs.2) ?_ (fun _ _ h => h.error)
    intro result t ht
    refine Program.wp_seq (wp_custody_reportUpdates ht.ok) ?_ (fun _ _ h => .inl h.error)
    exact fun report u hu => wp_custody_concludeTestRun hu.ok hstate hstatus
  · intro e t ht
    cases e with
    | raised e =>
      cases e with
      | timeoutError message =>
        -- what a timeout has interrupted is the container of the test run
        have hstopped : t.ended = false ∧ (t.running = none ∨
            ∃ pid command, t.running = some (pid, command) ∧ containerOf command = some container) := by
          rcases ht with ⟨hended, -, hclear⟩ | ⟨hended, pid, _, _, hrunning, -, -⟩
          · exact ⟨hended, .inl (hclear.resolve_left (by simp))⟩
          · exact ⟨hended, .inr ⟨pid, command, hrunning, hcommand⟩⟩
        dsimp only
        rw [hname]
        refine Program.wp_seq (wp_custody_cancelProcess hstopped.1 hstopped.2) ?_
          (fun _ _ h => h.error.2.2)
        intro _ u hu
        refine Program.wp_seq (wp_custody_reportUpdates hu.ok) ?_ (fun _ _ h => h.error.2.2)
        intro report v hv
        unfold allocatedDirectory
        rw [Program.wp_bind, Program.wp_bind, wp_fileSystem]
        exact fun files => cleared_finish hv.ok hstate
      | exception message =>
        have hclear : t.ended = false ∧ t.running = none := by
          rcases ht with ⟨hended, -, hclear⟩ | ⟨-, pid, _, _, -, -, he⟩
          · exact ⟨hended, hclear.resolve_left (by simp)⟩
          · cases he
        unfold allocatedDirectory
        dsimp only
        rw [Program.wp_bind, Program.wp_bind, wp_fileSystem]
        exact fun files => cleared_finish hclear hstate
    | expired =>
      rcases ht with ⟨-, hexpired, -⟩ | ⟨-, pid, _, _, -, -, he⟩
      · exact absurd rfl hexpired
      · cases he
    | cancelled => exact .inl rfl

end Procedures

/-! ## The world -/

/-- The subprocesses of an operation whose terminal state is written are settled, and every subprocess
belongs to an operation that is recorded. -/
structure Orderly (w : World) : Prop where
  settled : ∀ st ∈ w.history, st.status.isTerminal = true → st.status ≠ .interrupted →
    ∀ p ∈ w.subprocesses, p.operation = st.operationId → p.Settled
  known : ∀ p ∈ w.subprocesses, ∃ st ∈ w.history, st.operationId = p.operation

/-- The contract in the world: what is not settled is the running subprocess.  When no task was ever
cancelled from outside (`calm`), no other operation has left a subprocess. -/
structure Custody.Holds (calm : Prop) (X : Text) (w : World) (s : Custody) : Prop where
  operation : w.operation = X
  orderly : Orderly w
  opened : ∃ st ∈ w.history, st.operationId = X
  ended : ∀ st ∈ w.history, st.operationId = X → st.status.isTerminal = true → s.ended = true
  running : ∀ pid p, w.subprocesses[pid]? = some p → p.operation = X → ¬p.Settled →
    ∃ command, s.running = some (pid, command)
  command : ∀ pid command, s.running = some (pid, command) →
    ∃ p, w.subprocesses[pid]? = some p ∧ p.command = command
  others : calm → ∀ p ∈ w.subprocesses, p.operation ≠ X → p.Settled

theorem Orderly.later {w w' : World} (h : Orderly w) (hhistory : w'.history = w.history)
    (hlater : LaterAll w.subprocesses w'.subprocesses) : Orderly w' := by
  constructor
  · intro st hst hterminal hstatus q hq hX
    obtain ⟨p, hp, hpq⟩ := hlater.mem hq
    exact (h.settled st (hhistory ▸ hst) hterminal hstatus p hp (hpq.operation ▸ hX)).later hpq
  · intro q hq
    obtain ⟨p, hp, hpq⟩ := hlater.mem hq
    obtain ⟨st, hst, hX⟩ := h.known p hp
    exact ⟨st, hhistory ▸ hst, hX.trans hpq.operation.symm⟩

theorem Custody.Holds.later {calm : Prop} {X : Text} {w w' : World} {s : Custody} (h : Custody.Holds calm X w s)
    (hoperation : w'.operation = w.operation) (hhistory : w'.history = w.history)
    (hlater : LaterAll w.subprocesses w'.subprocesses) : Custody.Holds calm X w' s := by
  refine ⟨hoperation.trans h.operation, h.orderly.later hhistory hlater, hhistory ▸ h.opened,
    hhistory ▸ h.ended, ?_, ?_, ?_⟩
  · intro pid q hq hX hsettled
    obtain ⟨p, hp, hpq⟩ := hlater.getElem? hq
    exact h.running pid p hp (hpq.operation ▸ hX) fun hp' => hsettled (hp'.later hpq)
  · intro pid command hrunning
    obtain ⟨p, hp, hcommand⟩ := h.command pid command hrunning
    obtain ⟨q, hq, hpq⟩ := hlater.getElem?_left hp
    exact ⟨q, hq, hpq.command.trans hcommand⟩
  · intro hcalm q hq hX
    obtain ⟨p, hp, hpq⟩ := hlater.mem hq
    exact (h.others hcalm p hp (hpq.operation ▸ hX)).later hpq

/-- A running subprocess that is settled need not be kept. -/
theorem Custody.Holds.settle {calm : Prop} {X : Text} {w : World} {s : Custody} (h : Custody.Holds calm X w s)
    (hsettled : ∀ pid p command, s.running = some (pid, command) → w.subprocesses[pid]? = some p →
      p.Settled) : Custody.Holds calm X w s.settle := by
  refine ⟨h.operation, h.orderly, h.opened, h.ended, ?_, (fun _ _ hnone => nomatch hnone),
    h.others⟩
  intro pid p hp hX hp'
  obtain ⟨command, hrunning⟩ := h.running pid p hp hX hp'
  exact absurd (hsettled pid p command hrunning hp) hp'

/-- A state is written. -/
theorem Custody.Holds.write {calm : Prop} {X : Text} {w : World} {s : Custody} (h : Custody.Holds calm X w s)
    {state : OperationState} (hended : s.ended = false) (hstate : state.operationId = X)
    (hrunning : state.status.isTerminal = true → s.running = none) :
    Custody.Holds calm X { w with history := w.history ++ [state] }
      { s with ended := state.status.isTerminal } := by
  refine ⟨h.operation, ⟨?_, ?_⟩, ⟨state, by simp, hstate⟩, ?_, h.running, h.command, h.others⟩
  · intro st hst hterminal hstatus p hp hX
    rcases List.mem_append.mp hst with hst | hst
    · exact h.orderly.settled st hst hterminal hstatus p hp hX
    · rw [List.mem_singleton.mp hst] at hterminal hX
      by_contra hsettled
      obtain ⟨pid, hpid⟩ := List.getElem?_of_mem hp
      obtain ⟨command, hsome⟩ := h.running pid p hpid (hX.trans hstate) hsettled
      rw [hrunning hterminal] at hsome
      cases hsome
  · intro p hp
    obtain ⟨st, hst, hX⟩ := h.orderly.known p hp
    exact ⟨st, List.mem_append_left _ hst, hX⟩
  · intro st hst hX hterminal
    rcases List.mem_append.mp hst with hst | hst
    · have htrue := h.ended st hst hX hterminal
      rw [hended] at htrue
      cases htrue
    · rw [List.mem_singleton.mp hst] at hterminal
      exact hterminal

/-- A subprocess is started. -/
theorem Custody.Holds.popen {calm : Prop} {X : Text} {w : World} {s : Custody} (h : Custody.Holds calm X w s)
    {p : Subprocess} {command : Command} (hended : s.ended = false) (hrunning : s.running = none)
    (hoperation : p.operation = w.operation) (hcommand : p.command = command) :
    Custody.Holds calm X { w with subprocesses := w.subprocesses ++ [p] }
      { s with running := some (w.subprocesses.length, command) } := by
  refine ⟨h.operation, ⟨?_, ?_⟩, h.opened, h.ended, ?_, ?_, ?_⟩
  · intro st hst hterminal hstatus q hq hX
    rcases List.mem_append.mp hq with hq | hq
    · exact h.orderly.settled st hst hterminal hstatus q hq hX
    · rw [List.mem_singleton.mp hq, hoperation, h.operation] at hX
      have htrue := h.ended st hst hX.symm hterminal
      rw [hended] at htrue
      cases htrue
  · intro q hq
    rcases List.mem_append.mp hq with hq | hq
    · exact h.orderly.known q hq
    · rw [List.mem_singleton.mp hq, hoperation, h.operation]
      exact h.opened
  · intro pid q hq hX hsettled
    rcases Nat.lt_trichotomy pid w.subprocesses.length with hlt | rfl | hgt
    · rw [List.getElem?_append_left hlt] at hq
      obtain ⟨command, hsome⟩ := h.running pid q hq hX hsettled
      rw [hrunning] at hsome
      cases hsome
    · exact ⟨command, rfl⟩
    · rw [List.getElem?_eq_none (by simp; omega)] at hq
      cases hq
  · intro pid command' hsome
    cases hsome
    exact ⟨p, by simp, hcommand⟩
  · intro hcalm q hq hX
    rcases List.mem_append.mp hq with hq | hq
    · exact h.others hcalm q hq hX
    · rw [List.mem_singleton.mp hq, hoperation, h.operation] at hX
      exact absurd rfl hX

/-- A container is stopped, or nothing runs in it. -/
theorem Custody.Holds.stopped {calm : Prop} {X : Text} {w : World} {s : Custody} (h : Custody.Holds calm X w s)
    {container : Text} (hsettled : ∀ p ∈ w.subprocesses, p.container = some container → p.Settled) :
    Custody.Holds calm X w (s.stop container) := by
  unfold Custody.stop
  split
  · rename_i pid command hrunning
    split
    · rename_i hcontainer
      refine h.settle fun pid' p command' hsome hp => ?_
      rw [hrunning] at hsome
      cases hsome
      obtain ⟨p', hp', hcommand⟩ := h.command pid command hrunning
      rw [hp] at hp'
      cases hp'
      exact hsettled p (List.mem_of_getElem? hp) (by rw [Subprocess.container, hcommand, hcontainer])
    · exact h
  · exact h

def custodyContract (calm : Prop) (X : Text) : Contract Custody where
  spec := custody X
  post := Cleared
  holds := Custody.Holds calm X
  rely := Eq
  rely_trans := Eq.trans
  await_rely hst h := hst ▸ h
  post_rely hst h := hst ▸ h
  frame _ _ _ h := ⟨h.operation, ⟨h.orderly.settled, h.orderly.known⟩, h.opened, h.ended, h.running, h.command,
    h.others⟩

/-- `docker stop` starts, unless every subprocess in the container is settled. -/
def StopIssued (w : World) : (c : Call) → c.Answer → Prop
  | .popenStop container, r =>
    r = .ok () ∨ ∀ p ∈ w.subprocesses, p.container = some container → p.Settled
  | _, _ => True

theorem custody_call {calm : Prop} {X : Text} {answers : Answers} (n : ℕ) (w : World) (s : Custody) (c : Call)
    (K : c.Answer → Custody → Prop) (hs : Custody.Holds calm X w s)
    (hstop : StopIssued w c (w.perform answers n c).1) (h : (custody X).wp (.call c) K s) :
    ∃ t, Custody.Holds calm X (w.perform answers n c).2 t ∧ K (w.perform answers n c).1 t := by
  cases c with
  | write state =>
    obtain ⟨hended, hstate, hrunning, hok, herror⟩ := h
    by_cases hdump : state.dumpable = true
    · simp only [World.perform, if_pos hdump]
      exact ⟨_, hs.write hended hstate hrunning, hok⟩
    · simp only [World.perform, if_neg hdump]
      exact ⟨s, hs, herror _⟩
  | popen command environment =>
    obtain ⟨hended, hrunning, hok, herror⟩ := h
    cases hpopen : answers.popen with
    | error e =>
      simp only [World.perform, hpopen]
      exact ⟨s, hs, herror e⟩
    | ok _ =>
      simp only [World.perform, hpopen]
      exact ⟨_, hs.popen hended hrunning rfl rfl, hok _⟩
  | popenStop container =>
    cases hstopped : answers.stop with
    | error e =>
      simp only [World.perform, hstopped] at hstop ⊢
      exact ⟨_, hs.stopped (hstop.resolve_left fun h => by cases h), h _⟩
    | ok _ =>
      simp only [World.perform, hstopped]
      have hside := aside_stopContainer w container
      refine ⟨_, (hs.later hside.operation hside.history hside.subprocesses).stopped ?_, h _⟩
      intro q hq hcontainer
      obtain ⟨p, hp, rfl⟩ := List.mem_map.mp hq
      split at hcontainer
      · rename_i hp
        rw [if_pos hp]
        exact .inr (by simp [Subprocess.told])
      · rename_i hp
        rw [if_neg hp]
        exact .inl (by simpa [hcontainer] using hp)
  | terminateProcess =>
    have hside := aside_terminateProcess w
    exact ⟨s, hs.later hside.operation hside.history hside.subprocesses, h _⟩
  | now => exact ⟨s, hs, h _⟩
  | cancelRequested => exact ⟨s, hs, h _⟩
  | fileSystem => exact ⟨s, hs, h _⟩
  | setProcess process => exact ⟨s, hs.later rfl rfl (laterAll_refl _), h _⟩

/-! ## The steps -/

/-- **A step in which nothing is left behind.**  When `run` raises over a subprocess that is not settled,
it is a timeout over a container, and its `docker stop` starts. -/
def Event.Stoppable (w : World) : Event → Prop
  | .resume r answers =>
    (match w.watched, r.raises with
      | some p, some e => p.Settled ∨ (p.container.isSome = true ∧ e.isTimeout = true)
      | _, _ => True) ∧
    w.ResumeCalls StopIssued r answers
  | _ => True

instance (w : World) (c : Call) (x : c.Answer) : Decidable (StopIssued w c x) :=
  match c, x with
  | .popenStop _, _ => inferInstanceAs (Decidable (_ ∨ _))
  | .write _, _ => isTrue trivial
  | .now, _ => isTrue trivial
  | .cancelRequested, _ => isTrue trivial
  | .fileSystem, _ => isTrue trivial
  | .popen _ _, _ => isTrue trivial
  | .setProcess _, _ => isTrue trivial
  | .terminateProcess, _ => isTrue trivial

instance (w : World) (e : Event) : Decidable (e.Stoppable w) :=
  match e with
  | .resume r _ =>
    have : Decidable (match w.watched, r.raises with
        | some p, some e => p.Settled ∨ (p.container.isSome = true ∧ e.isTimeout = true)
        | _, _ => True) :=
      match w.watched, r.raises with
      | some _, some _ => inferInstanceAs (Decidable (_ ∨ _))
      | none, _ => isTrue trivial
      | some _, none => isTrue trivial
    inferInstanceAs (Decidable (_ ∧ _))
  | .tick => isTrue trivial
  | .start _ _ _ => isTrue trivial
  | .cancel _ => isTrue trivial
  | .cancelStopped => isTrue trivial
  | .shutdown _ => isTrue trivial
  | .shutdownStopped => isTrue trivial
  | .restart => isTrue trivial
  | .containerUp _ => isTrue trivial
  | .exit _ _ => isTrue trivial
  | .line _ => isTrue trivial

/-- The task is not cancelled from outside. -/
def Event.calm : Event → Bool
  | .shutdown _ => false
  | .shutdownStopped => false
  | .restart => false
  | _ => true

/-- **The answers of the world** leave what the contract says. -/
theorem custody_answer {calm : Prop} {X : Text} {w : World} {s : Custody} {r : Resumption} {a : Await}
    {k : Except PyException a.Value → Work Unit} {x : Except PyException a.Value}
    (hs : Custody.Holds calm X w s) (htask : w.task = some (.suspended a k))
    (hawaits : s.Awaits a) (hx : w.answer a r = some x)
    (hraise : match w.watched, r.raises with
      | some p, some e => p.Settled ∨ (p.container.isSome = true ∧ e.isTimeout = true)
      | _, _ => True) :
    ∃ t, Custody.Holds calm X w t ∧ s.After a x t := by
  -- what is raised over the output or the exit status of the running subprocess
  have hleft : ∀ {pid e}, w.watched = w.subprocesses[pid]? → (∃ command, s.running = some (pid, command)) →
      (r.raises = some e ∨ e = .cancelled) → ∃ t, Custody.Holds calm X w t ∧ s.Left e t := by
    rintro pid e hwatched ⟨command, hrunning⟩ hraises
    obtain ⟨p, hp, hcommand⟩ := hs.command pid command hrunning
    rcases hraises with hraises | rfl
    · rw [hwatched, hp, hraises] at hraise
      rcases hraise with hsettled | ⟨hcontainer, htimeout⟩
      · refine ⟨s.settle, hs.settle fun pid' p' command' hsome hp' => ?_, .inl rfl⟩
        rw [hrunning] at hsome
        cases hsome
        rw [hp] at hp'
        cases hp'
        exact hsettled
      · obtain ⟨container, hcontainer⟩ := Option.isSome_iff_exists.mp hcontainer
        refine ⟨s, hs, .inr ⟨rfl, .inr ⟨⟨pid, command, container, hrunning, ?_⟩, htimeout⟩⟩⟩
        rw [← hcommand]
        exact hcontainer
    · exact ⟨s, hs, .inr ⟨rfl, .inl rfl⟩⟩
  -- a subprocess that has exited is settled
  have hexited : ∀ {pid code}, (∃ command, s.running = some (pid, command)) →
      (w.subprocesses[pid]?).bind Subprocess.exited = some code → Custody.Holds calm X w s.settle := by
    rintro pid code ⟨command, hrunning⟩ hcode
    refine hs.settle fun pid' p' command' hsome hp' => ?_
    rw [hrunning] at hsome
    cases hsome
    rw [hp'] at hcode
    exact .inl (by simp [Subprocess.alive, show p'.exited = some code from hcode])
  cases a with
  | stopped => exact ⟨s, hs, rfl⟩
  | launches => exact ⟨s, hs, rfl⟩
  | connected pid =>
    cases x with
    | ok _ => exact ⟨s, hs, rfl⟩
    | error e =>
      cases r <;> simp only [World.answer] at hx <;> try cases hx
      · split at hx <;> cases hx
      · split at hx
        · rename_i cause code _ hcode
          exact ⟨s.settle, hexited hawaits hcode, .inl rfl⟩
        · cases hx
      · split at hx
        · cases hx
        · cases hx
          exact ⟨s, hs, .inr ⟨rfl, rfl⟩⟩
  | output pid =>
    cases x with
    | ok _ => exact ⟨s, hs, rfl⟩
    | error e =>
      exact hleft (by rw [World.watched, htask]) hawaits (raises_of_answer (.inl hx))
  | exitStatus pid =>
    cases x with
    | ok code =>
      cases r <;> simp only [World.answer] at hx <;> try cases hx
      obtain ⟨code', hcode, -⟩ := Option.map_eq_some_iff.mp hx
      exact ⟨s.settle, hexited hawaits hcode, rfl⟩
    | error e =>
      exact hleft (by rw [World.watched, htask]) hawaits (raises_of_answer (.inr hx))

/-- What every step keeps. -/
structure InCustody (calm : Prop) (w : World) : Prop where
  kept : Kept True w
  orderly : Orderly w
  upheld : (custodyContract calm w.operation).Upheld w
  quiet : calm → w.cancelling = false ∧ (w.task = none → w.subprocesses = [])

/-- **When the task is done, nothing runs that nobody has stopped.** -/
theorem InCustody.settled {calm : Prop} {w : World} (hw : InCustody calm w) (hcalm : calm)
    (hbusy : w.busy = false) : ∀ p ∈ w.subprocesses, p.Settled := by
  obtain ⟨hcancelling, hnone⟩ := hw.quiet hcalm
  intro p hp
  cases htask : w.task with
  | none =>
    rw [hnone htask] at hp
    cases hp
  | some task =>
    cases task with
    | created work => simp [World.busy, htask, Task.done] at hbusy
    | suspended a k => simp [World.busy, htask, Task.done] at hbusy
    | finished r =>
      obtain ⟨s, hs, hcleared⟩ := hw.upheld _ htask
      have hrunning : s.running = none := by
        refine hcleared.resolve_left ?_
        rintro rfl
        obtain ⟨t, ht, hended⟩ := hw.kept.upheld _ htask
        have htrue : w.cancelling = true := ht.cancelling.trans hended
        rw [hcancelling] at htrue
        cases htrue
      by_cases hX : p.operation = w.operation
      · by_contra hsettled
        obtain ⟨pid, hpid⟩ := List.getElem?_of_mem hp
        obtain ⟨command, hsome⟩ := hs.running pid p hpid hX hsettled
        rw [hrunning] at hsome
        cases hsome
      · exact hs.others hcalm p hp hX

theorem terminateProcess_cancelling (w : World) : w.terminateProcess.cancelling = w.cancelling := by
  obtain ⟨ps, hps⟩ := terminateProcess_eq w
  rw [hps]

/-- Beside the task, only `shutdown` cancels it. -/
theorem calm_cancelling {settings : Settings} {w w' : World} {e : Event} (he : e.aside = true)
    (hcalm : e.calm = true) (h : step settings w e = some w') : w'.cancelling = w.cancelling := by
  cases e with
  | start => cases he
  | restart => cases he
  | resume => cases he
  | shutdown => cases hcalm
  | shutdownStopped => cases hcalm
  | tick => cases h; rfl
  | containerUp pid => cases h; rfl
  | exit pid code => cases h; rfl
  | cancelStopped =>
    obtain ⟨x, -, rfl⟩ := Option.map_eq_some_iff.mp h
    exact terminateProcess_cancelling w
  | line bytes =>
    simp only [step] at h
    split at h
    · split_ifs at h
      cases h
      rfl
    · cases h
  | cancel launch =>
    simp only [step] at h
    split_ifs at h
    cases h
    unfold World.cancel
    split
    · rfl
    · dsimp only
      split
      · exact terminateProcess_cancelling { w with cancelRequested := true }
      · split <;> rfl

theorem inCustody_step {calm : Prop} {settings : Settings} {w w' : World} {e : Event}
    (hw : InCustody calm w) (hstop : e.Stoppable w) (hcalm : calm → e.calm = true)
    (h : step settings w e = some w') : InCustody calm w' := by
  have hkept := kept_step hw.kept (.inl trivial) h
  by_cases he : e.aside = true
  · have hside := step_aside he h
    refine ⟨hkept, hw.orderly.later hside.history hside.subprocesses, ?_, fun hc => ⟨?_, ?_⟩⟩
    · rw [hside.operation]
      refine hw.upheld.others hside.task fun s hs => ?_
      exact ⟨s, hs.later hside.operation hside.history hside.subprocesses, rfl⟩
    · exact (calm_cancelling he (hcalm hc) h).trans (hw.quiet hc).1
    · intro hnone
      have hlater := hside.subprocesses
      rw [(hw.quiet hc).2 (hside.task ▸ hnone)] at hlater
      exact List.forall₂_nil_left_iff.mp hlater
  cases e with
  | start request hex time =>
    rcases step_start h with rfl | ⟨state, work, hprepare, hstart, -, hfresh⟩
    · exact hw
    · obtain ⟨hbusy, rfl⟩ := start_ok hstart
      obtain ⟨hid, hstatus, -, hwork⟩ := prepare_ok hprepare
      rw [← hid] at hfresh
      have horderly : Orderly { w with history := w.history ++ [state] } := by
        constructor
        · intro st hst hterminal hinterrupted p hp hX
          rcases List.mem_append.mp hst with hst | hst
          · exact hw.orderly.settled st hst hterminal hinterrupted p hp hX
          · rw [List.mem_singleton.mp hst, hstatus] at hterminal
            cases hterminal
        · intro p hp
          obtain ⟨st, hst, hX⟩ := hw.orderly.known p hp
          exact ⟨st, List.mem_append_left _ hst, hX⟩
      have hnew : ∀ p ∈ w.subprocesses, p.operation ≠ state.operationId := by
        intro p hp hX
        obtain ⟨st, hst, hst'⟩ := hw.orderly.known p hp
        exact hfresh st hst (hst'.trans hX)
      refine ⟨hkept, ⟨horderly.settled, horderly.known⟩, ?_, fun _ => ⟨rfl, fun hnone => nomatch hnone⟩⟩
      intro task ht
      cases ht
      refine ⟨⟨false, none⟩, ⟨rfl, ⟨horderly.settled, horderly.known⟩, ⟨state, by simp, rfl⟩, ?_, ?_, ?_, ?_⟩,
        ?_⟩
      · intro st hst hX hterminal
        rcases List.mem_append.mp hst with hst | hst
        · exact absurd hX (hfresh st hst)
        · rw [List.mem_singleton.mp hst, hstatus] at hterminal
          cases hterminal
      · intro pid p hp hX _
        exact absurd hX (hnew p (List.mem_of_getElem? hp))
      · exact fun pid command hsome => nomatch hsome
      · exact fun hc p hp _ => hw.settled hc hbusy p hp
      · rintro t rfl
        rcases hwork with ⟨command, reference, rfl, -, hcommand⟩ | ⟨command, rfl, hrun, hname, hcommand⟩
        · exact wp_custody_executeImageOperation ⟨rfl, rfl⟩ rfl hcommand
        · exact wp_custody_executeTestRun ⟨rfl, rfl⟩ rfl hstatus hrun hname hcommand
  | restart =>
    refine ⟨hkept, ?_, ?_, fun hc => nomatch hcalm hc⟩
    · cases h
      unfold World.restart World.markInterrupted
      split
      · exact ⟨hw.orderly.settled, hw.orderly.known⟩
      · split
        · exact ⟨hw.orderly.settled, hw.orderly.known⟩
        · constructor
          · intro st hst hterminal hinterrupted p hp hX
            rcases List.mem_append.mp hst with hst | hst
            · exact hw.orderly.settled st hst hterminal hinterrupted p hp hX
            · rw [List.mem_singleton.mp hst] at hinterrupted
              exact absurd rfl hinterrupted
          · intro p hp
            obtain ⟨st, hst, hX⟩ := hw.orderly.known p hp
            exact ⟨st, List.mem_append_left _ hst, hX⟩
    · cases h
      intro task ht
      unfold World.restart World.markInterrupted at ht
      split at ht
      · cases ht
      · split at ht <;> cases ht
  | resume r answers =>
    have honward := resume_onward h
    obtain ⟨hraise, hcalls⟩ := hstop
    have hupheld : (custodyContract calm w.operation).Upheld w' := by
      refine hw.upheld.resume custody_call (fun s => rfl) hcalls ?_ ?_ ?_ h
      · intro s a k x htask hs hx K hK
        obtain ⟨t, ht, hafter⟩ := custody_answer hs htask hK.2.1 hx hraise
        exact ⟨t, ht, hK.2.2 x t (World.answer_allows hw.kept.aborts hx) hafter⟩
      · exact fun _ _ _ _ _ => .inl rfl
      · intro s pid hs
        have hside := aside_kill w pid
        exact hs.later hside.operation hside.history hside.subprocesses
    obtain ⟨task, htask⟩ := honward.task
    rw [← honward.operation] at hupheld
    obtain ⟨s, hs, -⟩ := hupheld task htask
    refine ⟨hkept, hs.orderly, hupheld, fun hc => ⟨honward.cancelling.trans (hw.quiet hc).1, ?_⟩⟩
    intro hnone
    rw [htask] at hnone
    cases hnone
  | _ => exact absurd rfl he

theorem inCustody_fresh (calm : Prop) : InCustody calm .fresh where
  kept := kept_fresh True
  orderly := ⟨(fun _ hst => nomatch hst), (fun _ hp => nomatch hp)⟩
  upheld := fun _ ht => nomatch ht
  quiet := fun _ => ⟨rfl, fun _ => rfl⟩

/-- **No subprocess is left behind.**  In every run in which `run` raises over no running subprocess for
good, the subprocesses of an operation with a terminal state have exited or were told to stop; and when
the service was not shut down, a new operation is accepted only when all subprocesses have. -/
theorem settled_when_terminal {settings : Settings} {events : List Event} {w : World}
    (hrun : Transition.run (step settings) .fresh events = some w)
    (hstop : Transition.Meets (step settings) (fun v e => e.Stoppable v) .fresh events) :
    (∀ st ∈ w.history, st.status.isTerminal = true → st.status ≠ .interrupted →
      ∀ p ∈ w.subprocesses, p.operation = st.operationId → p.alive = false ∨ p.told = true) ∧
    ((∀ e ∈ events, e.calm = true) → ∀ request hex time w',
      step settings w (.start request hex time) = some w' → w'.history ≠ w.history →
      ∀ p ∈ w.subprocesses, p.alive = false ∨ p.told = true) := by
  constructor
  · have hw : InCustody False w := Transition.run_invariant_of_meets
      (fun v e v' hv he h => inCustody_step hv he False.elim h) (inCustody_fresh False) hstop hrun
    exact hw.orderly.settled
  · intro hcalm request hex time w' hstart hnew
    have hw : InCustody True w := Transition.run_invariant_of_meets
      (fun v e v' hv he h => inCustody_step hv he.1 (fun _ => he.2) h) (inCustody_fresh True)
      (hstop.and hcalm) hrun
    rcases step_start hstart with rfl | ⟨state, work, -, hstart, -, -⟩
    · exact absurd rfl hnew
    · exact hw.settled trivial (start_ok hstart).1

/-- A test run that times out, and whose container is stopped. -/
def sampleTimedOutRun : List Event :=
  [.start (.run "sha256:0" "stand" "scenario") hexA 0, .resume .begin .plain,
    .resume .ready .plain, .containerUp 0, .resume .timeout .plain, .resume .stopped .plain]

theorem settled_when_terminal_sample : ∃ w,
    Transition.run (step .default) .fresh sampleTimedOutRun = some w ∧
      (∃ st ∈ w.history, st.status = .timedOut) ∧
      ∀ st ∈ w.history, st.status.isTerminal = true → st.status ≠ .interrupted →
        ∀ p ∈ w.subprocesses, p.operation = st.operationId → p.alive = false ∨ p.told = true := by
  have htimed : (Transition.run (step .default) .fresh sampleTimedOutRun).map
      (fun w => decide (∃ st ∈ w.history, st.status = .timedOut)) = some true := by decide +kernel
  obtain ⟨w, hw, htimed⟩ := Option.map_eq_some_iff.mp htimed
  exact ⟨w, hw, of_decide_eq_true htimed, (settled_when_terminal hw (by decide +kernel)).1⟩

/-- **A build that times out is left running.**  Its terminal state is written while its subprocess is
running and nobody has told it to stop, and the next operation is accepted. -/
theorem timed_out_build_left_running : ∃ events w,
    Transition.run (step .default) .fresh events = some w ∧ (∀ e ∈ events, e.calm = true) ∧
      (∃ st ∈ w.history, st.status = .timedOut ∧ ∃ p ∈ w.subprocesses, p.operation = st.operationId ∧
        p.alive = true ∧ p.told = false) ∧
      ∃ request hex time w', step .default w (.start request hex time) = some w' ∧
        w'.history ≠ w.history := by
  let events : List Event :=
    [.start (.build "main") (sampleHex 'a') 0, .resume .begin .plain, .resume .ready .plain,
      .resume .timeout .plain]
  have hleft : (Transition.run (step .default) .fresh events).map (fun w =>
      (decide (∃ st ∈ w.history, st.status = .timedOut ∧ ∃ p ∈ w.subprocesses,
          p.operation = st.operationId ∧ p.alive = true ∧ p.told = false),
        (step .default w (.start (.build "main") (sampleHex 'b') 1)).map
          fun w' => decide (w'.history ≠ w.history))) = some (true, some true) := by decide +kernel
  obtain ⟨w, hw, hleft⟩ := Option.map_eq_some_iff.mp hleft
  obtain ⟨hleft, hnext⟩ := Prod.mk.inj hleft
  obtain ⟨w', hw', hnext⟩ := Option.map_eq_some_iff.mp hnext
  exact ⟨events, w, hw, by decide, of_decide_eq_true hleft, _, _, _, w', hw', of_decide_eq_true hnext⟩

end HardwareTest.Runner
