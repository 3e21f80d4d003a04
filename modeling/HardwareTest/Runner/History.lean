import HardwareTest.Lib.Grouped
import HardwareTest.Runner.Rules

/-!
# The record of an operation

The states that the service writes, over every run: each operation is recorded as a sequence of states
that are not terminal, then at most one that is, and no other operation comes between them.

* `lifecycle` — what a procedure may write, and how it may end;
* `wp_executeImageOperation`, `wp_executeTestRun` — the two procedures keep to it;
* `history_grouped` — the records of every run;
* `one_final_state` — and exactly one terminal state for a task that ends by itself.
-/

namespace HardwareTest.Runner

open HardwareTest.Lib HardwareTest.Python

/-- Written states in order, as the records of operations. -/
abbrev Recorded (history : List OperationState) : Prop :=
  Grouped OperationState.operationId (fun state => state.status.isTerminal) history

/-- How far an operation has got: whether its terminal state is written, and whether its task was
cancelled from outside. -/
structure Life where
  ended : Bool
  cancelled : Bool

/-- Others can only cancel the task. -/
def Life.Rely (s t : Life) : Prop := t.ended = s.ended ∧ (s.cancelled = true → t.cancelled = true)

/-- The task of operation `X` writes only states of `X`, and nothing after a terminal one; then it does
not wait any more.  Writes and the start of `docker stop` raise only when `raises` says so. -/
def lifecycle (raises : Prop) (X : Text) : Program.Spec Op Op.Answer Life where
  wp op := match op with
    | .call (.write state) => fun K s => s.ended = false ∧ state.operationId = X ∧
        K (.ok ()) { s with ended := state.status.isTerminal } ∧ (raises → ∀ e, K (.error e) s)
    | .call (.popenStop _) => fun K s => K (.ok ()) s ∧ (raises → ∀ e, K (.error e) s)
    | .call _ => fun K s => ∀ r, K r s
    | .await a => fun K s => s.ended = false ∧ ∀ r t, s.Rely t → a.Allows r →
        (r = .error .cancelled → t.cancelled = true) → K r t
  mono := by
    intro op P Q s hPQ h
    cases op with
    | await a => exact ⟨h.1, fun r t hst ha hc => hPQ r t (h.2 r t hst ha hc)⟩
    | call c =>
      cases c with
      | write state => exact ⟨h.1, h.2.1, hPQ _ _ h.2.2.1, fun hr e => hPQ _ _ (h.2.2.2 hr e)⟩
      | popenStop container => exact ⟨hPQ _ _ h.1, fun hr e => hPQ _ _ (h.2 hr e)⟩
      | now => exact fun r => hPQ _ _ (h r)
      | cancelRequested => exact fun r => hPQ _ _ (h r)
      | fileSystem => exact fun r => hPQ _ _ (h r)
      | popen command environment => exact fun r => hPQ _ _ (h r)
      | setProcess process => exact fun r => hPQ _ _ (h r)
      | terminateProcess => exact fun r => hPQ _ _ (h r)

/-- The end of a task: with a terminal state, or cancelled from outside. -/
def Ended (raises : Prop) (r : Except PyException Unit) (s : Life) : Prop :=
  match r with
  | .ok _ => s.ended = true
  | .error .cancelled => s.cancelled = true
  | .error _ => raises

/-! ## The procedures -/

section Procedures

variable {raises : Prop} {X : Text} {α β : Type}

/-- No terminal state is written yet, and what is raised is an error, or the cancellation from outside
there was. -/
def Underway (r : Except PyException α) (s : Life) : Prop :=
  s.ended = false ∧ r ≠ .error .expired ∧ (r = .error .cancelled → s.cancelled = true)

/-- As `Underway`, and an error is raised only when `raises` says so. -/
def Steady (raises : Prop) (r : Except PyException α) (s : Life) : Prop :=
  Underway r s ∧ ∀ e, r = .error (.raised e) → raises

/-- The terminal state is written, or nothing is and an exception is on its way. -/
def Closing (r : Except PyException Unit) (s : Life) : Prop :=
  match r with
  | .ok _ => s.ended = true
  | .error e => Underway (.error e : Except PyException Unit) s

theorem underway_ok {a : α} {s : Life} (hs : s.ended = false) :
    Underway (.ok a : Except PyException α) s := ⟨hs, by simp, by simp⟩

theorem underway_raised {e : PyError} {s : Life} (hs : s.ended = false) :
    Underway (.error (.raised e) : Except PyException α) s := ⟨hs, by simp, by simp⟩

theorem Underway.error {e : PyException} {s : Life} (h : Underway (.error e : Except PyException α) s) :
    Underway (.error e : Except PyException β) s := by
  refine ⟨h.1, ?_, ?_⟩
  · intro he
    cases he
    exact h.2.1 rfl
  · intro he
    cases he
    exact h.2.2 rfl

theorem steady_ok {a : α} {s : Life} (hs : s.ended = false) :
    Steady raises (.ok a : Except PyException α) s := ⟨underway_ok hs, by simp⟩

/-- What a steady part raises may end the task. -/
theorem Steady.ended {e : PyException} {s : Life} (h : Steady raises (.error e : Except PyException α) s) :
    Ended raises (.error e) s := by
  cases e with
  | raised e => exact h.2 e rfl
  | expired => exact absurd rfl h.1.2.1
  | cancelled => exact h.1.2.2 rfl

theorem underway_timed {e : PyException} {s : Life} (hs : s.ended = false)
    (hc : e = .cancelled → s.cancelled = true) :
    Underway (.error e.timed : Except PyException α) s := by
  cases e with
  | raised e => exact underway_raised hs
  | expired => exact underway_raised hs
  | cancelled => exact ⟨hs, by simp [PyException.timed], fun _ => hc rfl⟩

theorem wp_lifecycle_runWithTimeout {command : Command} {environment : Environment} {s : Life}
    (hs : s.ended = false) :
    Program.wp (lifecycle raises X) (runWithTimeout command environment) Underway s := by
  apply wp_runWithTimeout
  apply wp_runProcess
  intro r
  cases r with
  | error e => exact underway_raised hs
  | ok pid =>
    refine ⟨hs, ?_⟩
    intro r t hst _ hc
    have ht : t.ended = false := hst.1.trans hs
    cases r with
    | error e => exact underway_timed ht fun he => hc (he ▸ rfl)
    | ok _ =>
      intro _
      refine ⟨ht, ?_⟩
      intro r u htu _ hc
      have hu : u.ended = false := htu.1.trans ht
      cases r with
      | error e => exact fun _ => underway_timed hu fun he => hc (he ▸ rfl)
      | ok output =>
        refine ⟨hu, ?_⟩
        intro r v huv _ hc
        have hv : v.ended = false := huv.1.trans hu
        cases r with
        | error e => exact fun _ => underway_timed hv fun he => hc (he ▸ rfl)
        | ok exitCode => exact fun _ => underway_ok hv

theorem wp_lifecycle_cancelProcess {container : Option Text} {s : Life} (hs : s.ended = false) :
    Program.wp (lifecycle raises X) (cancelProcess container) (Steady raises) s := by
  unfold cancelProcess
  cases container with
  | none => exact fun _ => steady_ok hs
  | some container =>
    rw [Program.wp_bind, Program.wp_bind, wp_popenStop]
    refine ⟨?_, fun hr e => ⟨underway_raised hs, fun _ _ => hr⟩⟩
    refine (congrFun (wp_await _ _ _) _).mpr ⟨hs, ?_⟩
    intro r t hst ha hc
    have ht : t.ended = false := hst.1.trans hs
    cases r with
    | ok _ => exact fun _ => steady_ok ht
    | error e =>
      have he : e = .cancelled := ha
      subst he
      exact ⟨⟨ht, by simp, fun _ => hc rfl⟩, by simp⟩

/-- `_finish` writes a terminal state of its operation. -/
theorem wp_lifecycle_finish {state : OperationState} {status : OperationStatus} {exitCode : Option ℤ}
    {updates : Updates} {s : Life} (hs : s.ended = false) (hstate : state.operationId = X)
    (hstatus : status.isTerminal = true) :
    Program.wp (lifecycle raises X) (finish state status exitCode updates)
      (fun r t => (r = .ok () ∧ t.ended = true) ∨
        (t.ended = false ∧ raises ∧ ∃ e, r = .error (.raised e))) s := by
  unfold finish
  rw [Program.wp_bind]
  intro time
  refine (congrFun (wp_write _ _ _) _).mpr ⟨hs, hstate, .inl ⟨rfl, hstatus⟩, ?_⟩
  exact fun hr e => .inr ⟨hs, hr, e, rfl⟩

theorem closing_finish {state : OperationState} {status : OperationStatus} {exitCode : Option ℤ}
    {updates : Updates} {s : Life} (hs : s.ended = false) (hstate : state.operationId = X)
    (hstatus : status.isTerminal = true) :
    Program.wp (lifecycle raises X) (finish state status exitCode updates) Closing s := by
  refine Program.wp_mono ?_ (wp_lifecycle_finish hs hstate hstatus)
  rintro r t (⟨rfl, ht⟩ | ⟨ht, -, e, rfl⟩)
  · exact ht
  · exact underway_raised ht

theorem ended_finish {state : OperationState} {status : OperationStatus} {exitCode : Option ℤ}
    {updates : Updates} {s : Life} (hs : s.ended = false) (hstate : state.operationId = X)
    (hstatus : status.isTerminal = true) :
    Program.wp (lifecycle raises X) (finish state status exitCode updates) (Ended raises) s := by
  refine Program.wp_mono ?_ (wp_lifecycle_finish hs hstate hstatus)
  rintro r t (⟨rfl, ht⟩ | ⟨-, hr, e, rfl⟩)
  · exact ht
  · exact hr

/-- **An image operation** ends with a terminal state, or cancelled from outside. -/
theorem wp_executeImageOperation {state : OperationState} {command : Command} {reference : Text}
    {s : Life} (hs : s.ended = false) (hstate : state.operationId = X) :
    Program.wp (lifecycle raises X) (executeImageOperation state command reference) (Ended raises) s := by
  refine Program.wp_handle (R := Closing) ?_ (fun _ _ h => h) ?_
  · refine Program.wp_seq (wp_lifecycle_runWithTimeout hs) ?_ (fun _ _ h => h.error)
    intro result t ht
    rw [Program.wp_bind, wp_cancelRequested]
    intro requested
    dsimp only
    split
    · exact closing_finish ht.1 hstate rfl
    · split
      · exact closing_finish ht.1 hstate rfl
      · refine Program.wp_seq (wp_lifecycle_runWithTimeout ht.1) ?_ (fun _ _ h => h.error)
        intro inspect u hu
        split
        · exact closing_finish hu.1 hstate rfl
        · exact closing_finish hu.1 hstate rfl
  · intro e t ht
    cases e with
    | expired => exact absurd rfl ht.2.1
    | cancelled => exact ht.2.2 rfl
    | raised e =>
      cases e with
      | exception message => exact ended_finish ht.1 hstate rfl
      | timeoutError message =>
        refine Program.wp_seq (wp_lifecycle_cancelProcess ht.1) ?_ ?_
        · exact fun _ u hu => ended_finish hu.1.1 hstate rfl
        · exact fun e u hu => hu.ended

theorem wp_lifecycle_resolve {files : FileSystem} {runDirectory path : PurePath} {s : Life}
    (hs : s.ended = false) :
    Program.wp (lifecycle raises X) (Program.ofExcept (files.resolveReportPath runDirectory path))
      Underway s := by
  rw [Program.wp_ofExcept]
  unfold FileSystem.resolveReportPath
  dsimp only
  split
  · exact underway_raised hs
  · exact underway_ok hs

theorem wp_lifecycle_readSummary {settings : Settings} {runDirectory : PurePath} {s : Life}
    (hs : s.ended = false) :
    Program.wp (lifecycle raises X) (readSummary settings runDirectory) Underway s := by
  unfold readSummary
  split
  · exact underway_ok hs
  · rw [Program.wp_bind, wp_fileSystem]
    intro files
    refine Program.wp_seq (wp_lifecycle_resolve hs) ?_ (fun _ _ h => h.error)
    intro junitFile t ht
    split
    · exact underway_ok ht.1
    · split
      · exact underway_ok ht.1
      · exact underway_ok ht.1

theorem wp_lifecycle_reportUpdates {settings : Settings} {state : OperationState} {s : Life}
    (hs : s.ended = false) :
    Program.wp (lifecycle raises X) (reportUpdates settings state) (Steady raises) s := by
  unfold reportUpdates
  split
  · rw [Program.wp_bind, wp_await]
    refine ⟨hs, ?_⟩
    intro r t hst ha hc
    have ht : t.ended = false := hst.1.trans hs
    cases r with
    | ok page => exact steady_ok ht
    | error e =>
      have he : e = .cancelled := ha
      subst he
      exact ⟨⟨ht, by simp, fun _ => hc rfl⟩, by simp⟩
  · exact steady_ok hs

theorem wp_lifecycle_runPublisher {state : OperationState} {command : Command} {token : Text} {s : Life}
    (hs : s.ended = false) :
    Program.wp (lifecycle raises X) (runPublisher state command token) Underway s := by
  refine Program.wp_handle (R := Underway) ?_ (fun _ _ h => h) ?_
  · refine Program.wp_seq (wp_lifecycle_runWithTimeout hs) ?_ (fun _ _ h => h.error)
    intro result t ht
    split
    · exact underway_ok ht.1
    · exact underway_ok ht.1
  · intro e t ht
    cases e with
    | expired => exact absurd rfl ht.2.1
    | cancelled => exact ht
    | raised e =>
      cases e with
      | exception message => exact underway_ok ht.1
      | timeoutError message =>
        refine Program.wp_seq (wp_lifecycle_cancelProcess ht.1) ?_ ?_
        · exact fun _ u hu => underway_ok hu.1.1
        · exact fun e u hu => hu.1.error

/-- The publication writes one more state that is not terminal. -/
theorem wp_lifecycle_publishAllure {settings : Settings} {state : OperationState}
    {runDirectory : PurePath} {s : Life} (hs : s.ended = false) (hstate : state.operationId = X)
    (hstatus : state.status.isTerminal = false) :
    Program.wp (lifecycle raises X) (publishAllure settings state runDirectory) Underway s := by
  unfold publishAllure
  split
  · exact underway_ok hs
  · rw [Program.wp_bind, wp_fileSystem]
    intro files
    refine Program.wp_seq (wp_lifecycle_resolve hs) ?_ (fun _ _ h => h.error)
    intro resultsDirectory t ht
    split
    · exact underway_ok ht.1
    · rw [Program.wp_bind, wp_write]
      refine ⟨ht.1, hstate, ?_, fun _ e => underway_raised ht.1⟩
      dsimp only [Except.mapError]
      split
      · exact underway_ok hstatus
      · split
        · exact underway_raised hstatus
        · exact wp_lifecycle_runPublisher hstatus

theorem wp_lifecycle_concludeTestRun {settings : Settings} {state : OperationState}
    {expectedDirectory : PurePath} {result : ProcessResult} {report : Updates} {s : Life}
    (hs : s.ended = false) (hstate : state.operationId = X) (hstatus : state.status.isTerminal = false) :
    Program.wp (lifecycle raises X) (concludeTestRun settings state expectedDirectory result report)
      Closing s := by
  have hresult : (if result.exitCode = 0 then OperationStatus.passed else .failed).isTerminal = true := by
    split <;> rfl
  unfold concludeTestRun
  rw [Program.wp_bind, wp_cancelRequested]
  intro requested
  dsimp only
  split
  · unfold allocatedDirectory
    rw [Program.wp_bind, Program.wp_bind, wp_fileSystem]
    exact fun files => closing_finish hs hstate rfl
  · rw [Program.wp_bind, wp_fileSystem]
    intro files
    dsimp only
    split
    · exact closing_finish hs hstate hresult
    · refine Program.wp_seq (wp_lifecycle_readSummary hs) ?_ (fun _ _ h => h.error)
      intro summary t ht
      split
      · refine Program.wp_seq (wp_lifecycle_publishAllure ht.1 hstate hstatus) ?_ (fun _ _ h => h.error)
        intro published u hu
        rw [Program.wp_bind, wp_cancelRequested]
        intro requested
        dsimp only
        split
        · exact closing_finish hu.1 hstate rfl
        · exact closing_finish hu.1 hstate hresult
      · exact closing_finish ht.1 hstate hresult

/-- **A test run** ends with a terminal state, or cancelled from outside. -/
theorem wp_executeTestRun {settings : Settings} {state : OperationState} {command : Command} {s : Life}
    (hs : s.ended = false) (hstate : state.operationId = X) (hstatus : state.status.isTerminal = false)
    {runId : Text} (hrun : state.runId = some runId) :
    Program.wp (lifecycle raises X) (executeTestRun settings state command) (Ended raises) s := by
  unfold executeTestRun
  split
  · rename_i hnone
    rw [hnone] at hrun
    cases hrun
  · refine Program.wp_handle (R := Closing) ?_ (fun _ _ h => h) ?_
    · refine Program.wp_seq (wp_lifecycle_runWithTimeout hs) ?_ (fun _ _ h => h.error)
      intro result t ht
      refine Program.wp_seq (wp_lifecycle_reportUpdates ht.1) ?_ (fun _ _ h => h.1.error)
      exact fun report u hu => wp_lifecycle_concludeTestRun hu.1.1 hstate hstatus
    · intro e t ht
      cases e with
      | expired => exact absurd rfl ht.2.1
      | cancelled => exact ht.2.2 rfl
      | raised e =>
        cases e with
        | exception message =>
          unfold allocatedDirectory
          rw [Program.wp_bind, Program.wp_bind, wp_fileSystem]
          exact fun files => ended_finish ht.1 hstate rfl
        | timeoutError message =>
          refine Program.wp_seq (wp_lifecycle_cancelProcess ht.1) ?_ (fun e u hu => hu.ended)
          intro _ u hu
          refine Program.wp_seq (wp_lifecycle_reportUpdates hu.1.1) ?_ (fun e v hv => hv.ended)
          intro report v hv
          unfold allocatedDirectory
          rw [Program.wp_bind, Program.wp_bind, wp_fileSystem]
          exact fun files => ended_finish hv.1.1 hstate rfl

end Procedures

/-! ## The world -/

/-- The contract in the world: the states written so far, the last of them of operation `X`. -/
structure Life.Holds (X : Text) (w : World) (s : Life) : Prop where
  operation : w.operation = X
  recorded : Recorded w.history
  current : ∃ last, w.current = some last ∧ last.operationId = X ∧ last.status.isTerminal = s.ended
  cancelling : w.cancelling = s.cancelled

theorem Life.Holds.congr {X : Text} {w w' : World} {s : Life} (h : Life.Holds X w s)
    (hoperation : w'.operation = w.operation) (hhistory : w'.history = w.history)
    (hcancelling : w'.cancelling = w.cancelling) : Life.Holds X w' s := by
  refine ⟨hoperation.trans h.operation, ?_, ?_, hcancelling.trans h.cancelling⟩
  · rw [hhistory]
    exact h.recorded
  · unfold World.current
    rw [hhistory]
    exact h.current

def lifeContract (raises : Prop) (X : Text) : Contract Life where
  spec := lifecycle raises X
  post := Ended raises
  holds := Life.Holds X
  rely := Life.Rely
  rely_trans h h' := ⟨h'.1.trans h.1, fun hc => h'.2 (h.2 hc)⟩
  await_rely hst h :=
    ⟨hst.1.trans h.1, fun r u htu ha hc => h.2 r u ⟨htu.1.trans hst.1, fun hs => htu.2 (hst.2 hs)⟩ ha hc⟩
  post_rely := by
    intro r s t hst h
    cases r with
    | ok _ => exact hst.1.trans h
    | error e =>
      cases e with
      | cancelled => exact hst.2 h
      | raised e => exact h
      | expired => exact h
  frame _ _ _ h := h.congr rfl rfl rfl

/-- A write and a start of `docker stop` that do not raise. -/
def Unraised : (c : Call) → c.Answer → Prop
  | .write _, r => r = .ok ()
  | .popenStop _, r => r = .ok ()
  | _, _ => True

/-- **The calls of the world** are those of the contract. -/
theorem life_call {raises : Prop} {X : Text} {answers : Answers} (n : ℕ) (w : World) (s : Life) (c : Call)
    (K : c.Answer → Life → Prop) (hs : Life.Holds X w s) (hraise : raises ∨ Unraised c (w.perform answers n c).1)
    (h : (lifecycle raises X).wp (.call c) K s) :
    ∃ t, Life.Holds X (w.perform answers n c).2 t ∧ K (w.perform answers n c).1 t := by
  cases c with
  | write state =>
    obtain ⟨hended, hstate, hok, herror⟩ := h
    obtain ⟨last, hlast, hlastX, hopen⟩ := hs.current
    by_cases hdump : state.dumpable = true
    · simp only [World.perform, if_pos hdump]
      refine ⟨{ s with ended := state.status.isTerminal }, ⟨hs.operation, ?_, ?_, hs.cancelling⟩, hok⟩
      · exact hs.recorded.continued hlast (hopen.trans hended) (hstate.trans hlastX.symm)
      · exact ⟨state, List.getLast?_concat, hstate, rfl⟩
    · simp only [World.perform, if_neg hdump] at hraise ⊢
      refine ⟨s, hs, herror (hraise.resolve_right fun hr => ?_) _⟩
      cases hr
  | popenStop container =>
    cases hstop : answers.stop with
    | ok _ =>
      simp only [World.perform, hstop]
      exact ⟨s, hs.congr rfl rfl rfl, h.1⟩
    | error e =>
      simp only [World.perform, hstop] at hraise ⊢
      refine ⟨s, hs, h.2 (hraise.resolve_right fun hr => ?_) e⟩
      cases hr
  | popen command environment =>
    simp only [World.perform]
    split
    · exact ⟨s, hs.congr rfl rfl rfl, h _⟩
    · exact ⟨s, hs, h _⟩
  | terminateProcess =>
    have hside := aside_terminateProcess w
    obtain ⟨ps, hps⟩ := terminateProcess_eq w
    refine ⟨s, hs.congr hside.operation hside.history ?_, h _⟩
    simp only [World.perform, hps]
  | now => exact ⟨s, hs, h _⟩
  | cancelRequested => exact ⟨s, hs, h _⟩
  | fileSystem => exact ⟨s, hs, h _⟩
  | setProcess process => exact ⟨s, hs.congr rfl rfl rfl, h _⟩

/-- What every step keeps: the records are in turn, and the task keeps its contract. -/
structure Kept (raises : Prop) (w : World) : Prop where
  recorded : Recorded w.history
  aborts : w.AbortsByCancellation
  upheld : (lifeContract raises w.operation).Upheld w

/-- What the store and the runner do in a step: no write and no start of `docker stop` raises. -/
def Event.Unraised (w : World) : Event → Prop
  | .cancel launch => launch = .ok ()
  | .shutdown launch => launch = .ok ()
  | .resume r answers => w.ResumeCalls (fun _ => Runner.Unraised) r answers
  | _ => True

instance (c : Call) (x : c.Answer) : Decidable (Unraised c x) :=
  match c, x with
  | .write _, _ => inferInstanceAs (Decidable (_ = _))
  | .popenStop _, _ => inferInstanceAs (Decidable (_ = _))
  | .now, _ => isTrue trivial
  | .cancelRequested, _ => isTrue trivial
  | .fileSystem, _ => isTrue trivial
  | .popen _ _, _ => isTrue trivial
  | .setProcess _, _ => isTrue trivial
  | .terminateProcess, _ => isTrue trivial

instance (w : World) (e : Event) : Decidable (e.Unraised w) :=
  match e with
  | .cancel _ => inferInstanceAs (Decidable (_ = _))
  | .shutdown _ => inferInstanceAs (Decidable (_ = _))
  | .resume r answers => inferInstanceAs (Decidable (w.ResumeCalls _ r answers))
  | .tick => isTrue trivial
  | .start _ _ _ => isTrue trivial
  | .cancelStopped => isTrue trivial
  | .shutdownStopped => isTrue trivial
  | .restart => isTrue trivial
  | .containerUp _ => isTrue trivial
  | .exit _ _ => isTrue trivial
  | .line _ => isTrue trivial

theorem kept_step {raises : Prop} {settings : Settings} {w w' : World} {e : Event} (hw : Kept raises w)
    (hraise : raises ∨ e.Unraised w) (h : step settings w e = some w') : Kept raises w' := by
  have haborts := step_aborts hw.aborts h
  by_cases he : e.aside = true
  · have hside := step_aside he h
    refine ⟨hside.history ▸ hw.recorded, haborts, ?_⟩
    rw [hside.operation]
    refine hw.upheld.others hside.task fun s hs => ?_
    refine ⟨{ s with cancelled := w'.cancelling }, ⟨?_, ?_, ?_, rfl⟩, rfl, ?_⟩
    · exact hside.operation.trans hs.operation
    · exact hside.history ▸ hs.recorded
    · unfold World.current
      rw [hside.history]
      exact hs.current
    · exact fun hc => hside.cancelling (hs.cancelling.trans hc)
  cases e with
  | start request hex time =>
    rcases step_start h with rfl | ⟨state, work, hprepare, hstart, -, hfresh⟩
    · exact hw
    · obtain ⟨-, rfl⟩ := start_ok hstart
      obtain ⟨hid, hstatus, -, hwork⟩ := prepare_ok hprepare
      have hrecorded : Recorded (w.history ++ [state]) :=
        hw.recorded.opened (fun st hst => hid ▸ hfresh st hst) hstatus
      refine ⟨hrecorded, haborts, ?_⟩
      intro task ht
      cases ht
      refine ⟨⟨false, false⟩, ⟨rfl, hrecorded, ⟨state, List.getLast?_concat, rfl, hstatus⟩, rfl⟩, ?_⟩
      intro t ht
      rcases hwork with ⟨command, reference, rfl, -, -⟩ | ⟨command, rfl, hrun, -, -⟩
      · exact wp_executeImageOperation ht.1 rfl
      · exact wp_executeTestRun ht.1 rfl hstatus hrun
  | restart =>
    cases h
    have hrecorded : Recorded w.restart.history := by
      unfold World.restart World.markInterrupted
      split
      · exact hw.recorded
      · rename_i state hstate
        split
        · exact hw.recorded
        · rename_i hopen
          exact hw.recorded.continued hstate (by simpa using hopen) rfl
    refine ⟨hrecorded, haborts, ?_⟩
    intro task ht
    unfold World.restart World.markInterrupted at ht
    split at ht
    · cases ht
    · split at ht <;> cases ht
  | resume r answers =>
    obtain ⟨hr, -⟩ := resume_cases h
    have hcalls : w.ResumeCalls (fun _ c x => raises ∨ Runner.Unraised c x) r answers := by
      intro work hwork
      rcases hraise with hraises | hun
      · exact calls_of_forall fun _ _ _ => .inl hraises
      · exact (hun work hwork).mono fun _ _ _ => .inr
    have hupheld : (lifeContract raises w.operation).Upheld w' := by
      refine hw.upheld.resume life_call (fun s => ⟨rfl, id⟩) hcalls ?_ ?_ ?_ h
      · intro s a k x _ hs hx K hK
        refine ⟨s, hs, hK.2 x s ⟨rfl, id⟩ (World.answer_allows hw.aborts hx) ?_⟩
        rintro rfl
        exact hs.cancelling.symm.trans (World.cancelling_of_answer hw.aborts hr hx)
      · rintro s work - hs rfl
        exact hs.cancelling.symm.trans hr.symm
      · exact fun s pid hs => hs.congr rfl rfl rfl
    have honward := resume_onward h
    obtain ⟨task, htask⟩ := honward.task
    rw [← honward.operation] at hupheld
    obtain ⟨s, hs, -⟩ := hupheld task htask
    exact ⟨hs.recorded, haborts, hupheld⟩
  | _ => exact absurd rfl he

/-- The task adds only states of its own operation. -/
theorem resume_other {settings : Settings} {w w' : World} {r : Resumption} {answers : Answers}
    (hw : Kept True w) (h : step settings w (.resume r answers) = some w') {st : OperationState}
    (hst : st ∈ w'.history) (hother : st.operationId ≠ w.operation) : st ∈ w.history := by
  let own : World → Life → Prop := fun v s =>
    Life.Holds w.operation v s ∧ ∀ st ∈ v.history, st.operationId ≠ w.operation → st ∈ w.history
  let contract : Contract Life :=
    { lifeContract True w.operation with
      holds := own
      frame := fun _ _ _ h => ⟨h.1.congr rfl rfl rfl, h.2⟩ }
  have hupheld : contract.Upheld w :=
    hw.upheld.mono (fun _ _ _ h => ⟨h.1.congr rfl rfl rfl, h.2⟩) fun s hs => ⟨hs, fun st hst _ => hst⟩
  have hafter : contract.Upheld w' := by
    refine hupheld.resume (P := fun _ _ _ => True) ?_ (fun s => ⟨rfl, id⟩)
      (fun _ _ => calls_of_forall fun _ _ _ => trivial) ?_ ?_ ?_ h
    · intro n v s c K hs _ hK
      obtain ⟨t, ht, hKt⟩ := life_call n v s c K hs.1 (.inl trivial) hK
      refine ⟨t, ⟨ht, ?_⟩, hKt⟩
      cases c with
      | write state =>
        simp only [World.perform]
        split
        · intro st hst hother
          rcases List.mem_append.mp hst with hst | hst
          · exact hs.2 st hst hother
          · rw [List.mem_singleton.mp hst] at hother
            exact absurd hK.2.1 hother
        · exact hs.2
      | terminateProcess => exact (aside_terminateProcess v).history ▸ hs.2
      | popen command environment =>
        simp only [World.perform]
        split <;> exact hs.2
      | popenStop container =>
        simp only [World.perform]
        split <;> exact hs.2
      | now => exact hs.2
      | cancelRequested => exact hs.2
      | fileSystem => exact hs.2
      | setProcess process => exact hs.2
    · intro s a k x _ hs hx K hK
      refine ⟨s, hs, hK.2 x s ⟨rfl, id⟩ (World.answer_allows hw.aborts hx) ?_⟩
      rintro rfl
      exact hs.1.cancelling.symm.trans (World.cancelling_of_answer hw.aborts (resume_cases h).1 hx)
    · rintro s work - hs rfl
      exact hs.1.cancelling.symm.trans (resume_cases h).1.symm
    · exact fun s pid hs => ⟨hs.1.congr rfl rfl rfl, hs.2⟩
  obtain ⟨task, htask⟩ := (resume_onward h).task
  obtain ⟨s, hs, -⟩ := hafter task htask
  exact hs.2 st hst hother

/-- An operation that is done gets no further terminal state, but `INTERRUPTED` by a restart. -/
theorem step_other {settings : Settings} {w w' : World} {e : Event} (hw : Kept True w)
    (h : step settings w e = some w') {st : OperationState} (hst : st ∈ w'.history)
    (hother : st.operationId ≠ w.operation) (hterminal : st.status.isTerminal = true)
    (hstatus : st.status ≠ .interrupted) : st ∈ w.history := by
  by_cases he : e.aside = true
  · exact (step_aside he h).history ▸ hst
  cases e with
  | start request hex time =>
    rcases step_start h with rfl | ⟨state, work, hprepare, hstart, -, -⟩
    · exact hst
    · obtain ⟨-, rfl⟩ := start_ok hstart
      obtain ⟨-, hopen, -, -⟩ := prepare_ok hprepare
      rcases List.mem_append.mp hst with hst | hst
      · exact hst
      · rw [List.mem_singleton.mp hst, hopen] at hterminal
        cases hterminal
  | restart =>
    cases h
    unfold World.restart World.markInterrupted at hst
    split at hst
    · exact hst
    · split at hst
      · exact hst
      · rcases List.mem_append.mp hst with hst | hst
        · exact hst
        · rw [List.mem_singleton.mp hst] at hstatus
          exact absurd rfl hstatus
  | resume r answers => exact resume_other hw h hst hother
  | _ => exact absurd rfl he

theorem kept_fresh (raises : Prop) : Kept raises .fresh :=
  ⟨.nil, (fun _ hc => by cases hc), (fun _ ht => by cases ht)⟩

/-- **The records of every run.**  Whatever the store and the runner raise, the records of an operation
stand together, and only the last of them may be terminal. -/
theorem history_grouped {settings : Settings} {events : List Event} {w : World}
    (hrun : Transition.run (step settings) .fresh events = some w) : Recorded w.history :=
  (Transition.run_invariant (I := Kept True) (fun _ _ _ hw h => kept_step hw (.inl trivial) h)
    (kept_fresh True) hrun).recorded

/-- **Exactly one final state per operation**, when no write and no start of `docker stop` raises. -/
theorem one_final_state {settings : Settings} {events : List Event} {w : World}
    (hrun : Transition.run (step settings) .fresh events = some w)
    (hraise : Transition.Meets (step settings) (fun v e => e.Unraised v) .fresh events) :
    (∀ X, (∃ state ∈ w.history, state.operationId = X) →
      ∃ before started ended after, w.history = before ++ (started ++ ended) ++ after ∧
        (∀ state ∈ before, state.operationId ≠ X) ∧ (∀ state ∈ after, state.operationId ≠ X) ∧
        started ≠ [] ∧
        (∀ state ∈ started, state.operationId = X ∧ state.status.isTerminal = false) ∧
        ended.length ≤ 1 ∧ ∀ state ∈ ended, state.operationId = X ∧ state.status.isTerminal = true) ∧
    ∀ r, w.task = some (.finished r) → w.cancelling = false → r = .ok () ∧
      (w.history.filter fun state =>
        state.operationId = w.operation ∧ state.status.isTerminal = true).length = 1 := by
  have hkept : Kept False w := Transition.run_invariant_of_meets
    (fun v e v' hv he h => kept_step hv (.inr he) h) (kept_fresh False) hraise hrun
  refine ⟨fun X hX => hkept.recorded.split hX, ?_⟩
  intro r htask hcancelling
  obtain ⟨s, hs, hended⟩ := hkept.upheld _ htask
  cases r with
  | ok _ =>
    obtain ⟨last, hlast, hlastX, hterminal⟩ := hs.current
    have hlast' : last.status.isTerminal = true := hterminal.trans hended
    exact ⟨rfl, hkept.recorded.filter_final_length
      ⟨last, List.mem_of_getLast? hlast, hlastX, hlast'⟩⟩
  | error e =>
    cases e with
    | cancelled =>
      have htrue : w.cancelling = true := hs.cancelling.trans hended
      rw [hcancelling] at htrue
      cases htrue
    | raised e => exact hended.elim
    | expired => exact hended.elim

/-- A build with its inspection, both ending well. -/
def sampleBuild : List Event :=
  [.start (.build "main") hexA 0, .resume .begin .plain, .resume .ready .plain,
    .resume .eof .plain, .exit 0 0, .resume .exited .plain, .resume .ready .plain,
    .line (Utf8.encode "sha256:0"), .resume .eof .plain, .exit 1 0, .resume .exited .plain]

theorem one_final_state_sample :
    ∃ w, Transition.run (step .default) .fresh sampleBuild = some w ∧
      (w.history.filter fun state =>
        state.operationId = w.operation ∧ state.status.isTerminal = true).length = 1 := by
  have hdone : (Transition.run (step .default) .fresh sampleBuild).map
      (fun w => (w.task.map Task.done, w.cancelling)) = some (some true, false) := by decide +kernel
  obtain ⟨w, hw, hdone⟩ := Option.map_eq_some_iff.mp hdone
  obtain ⟨hdone, hcancelling⟩ := Prod.mk.inj hdone
  obtain ⟨task, htask, hdone⟩ := Option.map_eq_some_iff.mp hdone
  cases task with
  | finished r => exact ⟨w, hw, ((one_final_state hw (by decide +kernel)).2 r htask hcancelling).2⟩
  | created work => cases hdone
  | suspended a k => cases hdone

end HardwareTest.Runner
