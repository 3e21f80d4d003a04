import HardwareTest.Runner.Rules

/-!
# The fields of a record

What the fields of every written state say of each other, over every run.

* `Consistent` — the status against the type, the exit code, the image, the summary and the container;
* `writing` — the specification of procedures that write only states with some property;
* `wp_writing_executeImageOperation`, `wp_writing_executeTestRun` — the two procedures write consistent
  states;
* `consistent_of_run` — and so does every run of the service.
-/

namespace HardwareTest.Runner

open HardwareTest.Lib HardwareTest.Python

/-- The fields of a state agree with its status. -/
structure Consistent (settings : Settings) (state : OperationState) : Prop where
  passed : state.status = .passed → state.operationType = .runTests ∧ state.exitCode = some 0
  failed : state.status = .failed → ∃ code, state.exitCode = some code ∧ code ≠ 0
  succeeded : state.status = .succeeded → state.operationType ≠ .runTests ∧ state.exitCode = some 0 ∧
    state.imageReference.isSome ∧ ∃ digest, state.imageDigest = some digest ∧ digest ≠ []
  digest : state.imageDigest.isSome → state.status = .succeeded
  runId : state.runId = if state.operationType = .runTests then some state.operationId else none
  summary : state.summary.isSome → state.operationType = .runTests ∧ ∃ runId,
    state.runId = some runId ∧
      state.artifactDirectory = some (settings.artifactsDirectory.child runId).toText
  container : state.status.isTerminal = true → state.status ≠ .interrupted → state.containerName = none

/-- A state with which an operation begins, or goes on. -/
structure Begun (state : OperationState) : Prop where
  status : state.status.isTerminal = false
  runId : state.runId = if state.operationType = .runTests then some state.operationId else none
  digest : state.imageDigest = none
  summary : state.summary = none

variable {settings : Settings} {state : OperationState}

theorem Begun.consistent (h : Begun state) : Consistent settings state := by
  have hopen := h.status
  refine ⟨fun hs => ?_, fun hs => ?_, fun hs => ?_, fun hd => ?_, h.runId, fun hs => ?_, fun hs => ?_⟩
  · rw [hs] at hopen
    cases hopen
  · rw [hs] at hopen
    cases hopen
  · rw [hs] at hopen
    cases hopen
  · rw [h.digest] at hd
    cases hd
  · rw [h.summary] at hs
    cases hs
  · rw [hs] at hopen
    cases hopen

/-- What a summary may come with. -/
def SummaryPlaced (settings : Settings) (state : OperationState) (updates : Updates) : Prop :=
  updates.summary.isSome → state.operationType = .runTests ∧ ∃ runId, state.runId = some runId ∧
    updates.artifactDirectory = some (settings.artifactsDirectory.child runId).toText

/-- `_finish` keeps the fields in agreement, when the result and the updates agree with the status. -/
theorem Begun.finished (h : Begun state) {status : OperationStatus} {time : ℕ} {exitCode : Option ℤ}
    {updates : Updates} (hsummary : SummaryPlaced settings state updates)
    (hdigest : updates.imageDigest.isSome → status = .succeeded)
    (hpassed : status = .passed → state.operationType = .runTests ∧ exitCode = some 0)
    (hfailed : status = .failed → ∃ code, exitCode = some code ∧ code ≠ 0)
    (hsucceeded : status = .succeeded → state.operationType ≠ .runTests ∧ exitCode = some 0 ∧
      updates.imageReference.isSome ∧ ∃ digest, updates.imageDigest = some digest ∧ digest ≠ []) :
    Consistent settings (state.finished status time exitCode updates) := by
  refine ⟨hpassed, hfailed, fun hs => ?_, fun hd => hdigest ?_, h.runId, fun hs => ?_, fun _ _ => rfl⟩
  · obtain ⟨htype, hcode, himage, digest, hdigest, hnonempty⟩ := hsucceeded hs
    refine ⟨htype, hcode, ?_, digest, ?_, hnonempty⟩
    · obtain ⟨reference, hreference⟩ := Option.isSome_iff_exists.mp himage
      show (updates.imageReference.or state.imageReference).isSome
      rw [hreference]
      rfl
    · show updates.imageDigest.or state.imageDigest = some digest
      rw [hdigest]
      rfl
  · have hkept : (updates.imageDigest.or state.imageDigest).isSome := hd
    rw [h.digest, Option.or_none] at hkept
    exact hkept
  · have hkept : (updates.summary.or state.summary).isSome := hs
    rw [h.summary, Option.or_none] at hkept
    obtain ⟨htype, runId, hrun, hdirectory⟩ := hsummary hkept
    refine ⟨htype, runId, hrun, ?_⟩
    show updates.artifactDirectory.or state.artifactDirectory = _
    rw [hdirectory]
    rfl

/-- Updates that concern reports only. -/
def Updates.Reports (updates : Updates) : Prop := updates.imageDigest = none ∧ updates.summary = none

theorem Updates.Reports.update {a b : Updates} (ha : a.Reports) (hb : b.Reports) : (a.update b).Reports := by
  refine ⟨?_, ?_⟩
  · show b.imageDigest.or a.imageDigest = none
    rw [ha.1, hb.1]
    rfl
  · show b.summary.or a.summary = none
    rw [ha.2, hb.2]
    rfl

theorem reports_readReportportalResult (operationId : Text) (page : LaunchPage) :
    (readReportportalResult settings operationId page).Reports := by
  rw [readReportportalResult.eq_def]
  split
  · exact ⟨rfl, rfl⟩
  · split
    · exact ⟨rfl, rfl⟩
    · split
      · exact ⟨rfl, rfl⟩
      · exact ⟨rfl, rfl⟩

/-- An end that is no result: cancelled, timed out, or an error of the infrastructure. -/
theorem Begun.stopped (h : Begun state) {status : OperationStatus} {time : ℕ} {exitCode : Option ℤ}
    {updates : Updates} (hstatus : status = .cancelled ∨ status = .timedOut ∨ status = .infrastructureError)
    (hdigest : updates.imageDigest = none) (hsummary : SummaryPlaced settings state updates) :
    Consistent settings (state.finished status time exitCode updates) := by
  refine h.finished hsummary (fun hd => ?_) (fun hs => ?_) (fun hs => ?_) (fun hs => ?_)
  · rw [hdigest] at hd
    cases hd
  · rw [hs] at hstatus
    rcases hstatus with h | h | h <;> cases h
  · rw [hs] at hstatus
    rcases hstatus with h | h | h <;> cases h
  · rw [hs] at hstatus
    rcases hstatus with h | h | h <;> cases h

/-- The result of a test run. -/
theorem Begun.tested (h : Begun state) (htype : state.operationType = .runTests) {time : ℕ} {exitCode : ℤ}
    {updates : Updates} (hdigest : updates.imageDigest = none) (hsummary : SummaryPlaced settings state updates) :
    Consistent settings
      (state.finished (if exitCode = 0 then .passed else .failed) time (some exitCode) updates) := by
  refine h.finished hsummary (fun hd => ?_) (fun hs => ⟨htype, ?_⟩) (fun hs => ⟨exitCode, rfl, ?_⟩)
    (fun hs => ?_)
  · rw [hdigest] at hd
    cases hd
  · by_contra hcode
    rw [if_neg fun hzero => hcode (congrArg some hzero)] at hs
    cases hs
  · intro hzero
    rw [if_pos hzero] at hs
    cases hs
  · split at hs <;> cases hs

theorem summaryPlaced_none {updates : Updates} (h : updates.summary = none) :
    SummaryPlaced settings state updates := by
  intro hs
  rw [h] at hs
  cases hs

/-! ## The digest -/

theorem isSpace_of_isLineBoundary {c : Char} (h : isLineBoundary c = true) : isSpace c = true := by
  simp only [isLineBoundary, decide_eq_true_eq] at h
  simp only [isSpace, decide_eq_true_eq]
  omega

/-- The last line of a text whose last character ends no line is not empty. -/
theorem getLast?_splitlinesFrom {c : Char} (hc : isLineBoundary c = false) (line s : Text) :
    ∃ last, (splitlinesFrom line (s ++ [c])).getLast? = some last ∧ last ≠ [] := by
  have hshort : ∀ line : Text, splitlinesFrom line [c] = [(c :: line).reverse] := by
    intro line
    rw [splitlinesFrom, hc]
    · rfl
    · exact fun _ _ h => nomatch h
  have hlonger : ∀ (first : Text) (rest : List Text) (last : Text), rest.getLast? = some last →
      (first :: rest).getLast? = some last := by
    intro first rest last h
    rw [List.getLast?_cons, h]
    rfl
  -- a line feed after a carriage return is not the last character
  have hnext : ∀ {d : Char} (s : Text), (∀ rest, d = '\r' → s = '\n' :: rest → False) →
      ∀ rest, d = '\r' → s ++ [c] = '\n' :: rest → False := by
    intro d s h rest hd hs
    cases s with
    | nil =>
      rw [(List.cons.inj hs).1] at hc
      cases hc
    | cons e s => exact h s hd (congrArg (· :: s) (List.cons.inj hs).1)
  induction line, s using splitlinesFrom.induct with
  | case1 => exact ⟨_, congrArg List.getLast? (hshort []), by simp⟩
  | case2 line => exact ⟨_, congrArg List.getLast? (hshort line), by simp⟩
  | case3 line s ih =>
    obtain ⟨last, hlast, hnonempty⟩ := ih
    refine ⟨last, ?_, hnonempty⟩
    rw [List.cons_append, List.cons_append, splitlinesFrom]
    exact hlonger _ _ _ hlast
  | case4 line d s hcrlf hd ih =>
    obtain ⟨last, hlast, hnonempty⟩ := ih
    refine ⟨last, ?_, hnonempty⟩
    rw [List.cons_append, splitlinesFrom, if_pos hd]
    · exact hlonger _ _ _ hlast
    · exact hnext s hcrlf
  | case5 line d s hcrlf hd ih =>
    obtain ⟨last, hlast, hnonempty⟩ := ih
    refine ⟨last, ?_, hnonempty⟩
    rw [List.cons_append, splitlinesFrom, if_neg hd]
    · exact hlast
    · exact hnext s hcrlf

/-- A stripped text that is not empty ends with a character that is no white space. -/
theorem strip_eq_concat {s : Text} (h : strip s ≠ []) : ∃ t c, strip s = t ++ [c] ∧ isSpace c = false := by
  have hdrop : (s.dropWhile isSpace).reverse.dropWhile isSpace ≠ [] :=
    fun hnil => h (congrArg List.reverse hnil)
  obtain ⟨c, t, ht⟩ := List.exists_cons_of_ne_nil hdrop
  refine ⟨t.reverse, c, ?_, ?_⟩
  · show ((s.dropWhile isSpace).reverse.dropWhile isSpace).reverse = _
    rw [ht, List.reverse_cons]
  · have hhead := List.head_dropWhile_not isSpace hdrop
    simpa [ht] using hhead

/-- The digest that is read from the output of an inspection is not empty. -/
theorem digest_of_strip {output : Text} (h : strip output ≠ []) :
    ∃ digest, (splitlines (strip output)).getLast? = some digest ∧ digest ≠ [] := by
  obtain ⟨t, c, hstrip, hc⟩ := strip_eq_concat h
  have hboundary : isLineBoundary c = false := by
    by_contra hb
    rw [isSpace_of_isLineBoundary (Bool.eq_true_of_not_eq_false hb)] at hc
    cases hc
  rw [hstrip]
  exact getLast?_splitlinesFrom hboundary [] t

/-! ## The procedures -/

/-- Every state that is written satisfies `P`. -/
def writing (P : OperationState → Prop) : Program.Spec Op Op.Answer Unit where
  wp op := match op with
    | .call (.write state) => fun K _ => P state ∧ ∀ r, K r ()
    | .call _ => fun K _ => ∀ r, K r ()
    | .await _ => fun K _ => ∀ r, K r ()
  mono := by
    intro op P Q s hPQ h
    cases op with
    | await a => exact fun r => hPQ _ _ (h r)
    | call c =>
      cases c with
      | write state => exact ⟨h.1, fun r => hPQ _ _ (h.2 r)⟩
      | now => exact fun r => hPQ _ _ (h r)
      | cancelRequested => exact fun r => hPQ _ _ (h r)
      | fileSystem => exact fun r => hPQ _ _ (h r)
      | popen command environment => exact fun r => hPQ _ _ (h r)
      | setProcess process => exact fun r => hPQ _ _ (h r)
      | terminateProcess => exact fun r => hPQ _ _ (h r)
      | popenStop container => exact fun r => hPQ _ _ (h r)

/-- Nothing more is asked of the end. -/
abbrev anyEnd {α : Type} (_ : Except PyException α) (_ : Unit) : Prop := True

/-- What is returned satisfies `R`. -/
def Returning {α : Type} (R : α → Prop) (r : Except PyException α) (_ : Unit) : Prop :=
  ∀ a, r = .ok a → R a

theorem returning_error {α : Type} {R : α → Prop} {e : PyException} {s : Unit} :
    Returning R (.error e) s := nofun

theorem returning_ok {α : Type} {R : α → Prop} {a : α} {s : Unit} (h : R a) : Returning R (.ok a) s := by
  rintro b ⟨⟩
  exact h

section Procedures

variable {P : OperationState → Prop}

theorem wp_writing_runWithTimeout {command : Command} {environment : Environment} :
    Program.wp (writing P) (runWithTimeout command environment) anyEnd () := by
  apply wp_runWithTimeout
  apply wp_runProcess
  intro r
  cases r with
  | error e => trivial
  | ok pid =>
    intro r
    cases r with
    | error e => trivial
    | ok _ =>
      intro _ r
      cases r with
      | error e => exact fun _ => trivial
      | ok output =>
        intro r
        cases r with
        | error e => exact fun _ => trivial
        | ok exitCode => exact fun _ => trivial

theorem wp_writing_cancelProcess {container : Option Text} :
    Program.wp (writing P) (cancelProcess container) anyEnd () := by
  unfold cancelProcess
  cases container with
  | none => exact fun _ => trivial
  | some container =>
    rw [Program.wp_bind, Program.wp_bind, wp_popenStop]
    intro r
    cases r with
    | error e => trivial
    | ok _ =>
      refine (congrFun (wp_await _ _ _) _).mpr ?_
      intro r
      cases r with
      | error e => trivial
      | ok _ => exact fun _ => trivial

theorem wp_writing_finish {status : OperationStatus} {exitCode : Option ℤ} {updates : Updates}
    (h : ∀ time, P (state.finished status time exitCode updates)) :
    Program.wp (writing P) (finish state status exitCode updates) anyEnd () := by
  unfold finish
  rw [Program.wp_bind]
  intro time
  exact (congrFun (wp_write _ _ _) _).mpr ⟨h time, fun _ => trivial⟩

/-- **An image operation** writes consistent states. -/
theorem wp_writing_executeImageOperation (hstate : Begun state) (htype : state.operationType ≠ .runTests)
    {command : Command} {reference : Text} :
    Program.wp (writing (Consistent settings)) (executeImageOperation state command reference) anyEnd () := by
  refine Program.wp_handle (R := anyEnd) ?_ (fun _ _ _ => trivial) ?_
  · refine Program.wp_seq wp_writing_runWithTimeout ?_ (fun _ _ _ => trivial)
    intro result _ _
    rw [Program.wp_bind, wp_cancelRequested]
    intro requested
    dsimp only
    split
    · exact wp_writing_finish fun time => hstate.stopped (.inl rfl) rfl (summaryPlaced_none rfl)
    · split
      · rename_i hcode
        refine wp_writing_finish fun time => hstate.finished (summaryPlaced_none rfl) nofun nofun
          (fun _ => ⟨result.exitCode, rfl, hcode⟩) nofun
      · refine Program.wp_seq wp_writing_runWithTimeout ?_ (fun _ _ _ => trivial)
        intro inspect _ _
        split
        · exact wp_writing_finish fun time => hstate.stopped (.inr (.inr rfl)) rfl (summaryPlaced_none rfl)
        · rename_i hinspect
          rw [not_or] at hinspect
          obtain ⟨digest, hdigest, hnonempty⟩ := digest_of_strip hinspect.2
          refine wp_writing_finish fun time => hstate.finished (summaryPlaced_none rfl) (fun _ => rfl) nofun nofun
            fun _ => ⟨htype, rfl, rfl, digest, hdigest, hnonempty⟩
  · intro e _ _
    cases e with
    | expired => trivial
    | cancelled => trivial
    | raised e =>
      cases e with
      | exception message =>
        exact wp_writing_finish fun time => hstate.stopped (.inr (.inr rfl)) rfl (summaryPlaced_none rfl)
      | timeoutError message =>
        refine Program.wp_seq wp_writing_cancelProcess ?_ (fun _ _ _ => trivial)
        intro _ _ _
        exact wp_writing_finish fun time => hstate.stopped (.inr (.inl rfl)) rfl (summaryPlaced_none rfl)

theorem wp_writing_reportUpdates :
    Program.wp (writing P) (reportUpdates settings state) (Returning Updates.Reports) () := by
  unfold reportUpdates
  split
  · rw [Program.wp_bind, wp_await]
    intro r
    cases r with
    | error e => exact returning_error
    | ok page => exact returning_ok (reports_readReportportalResult _ _)
  · exact returning_ok ⟨rfl, rfl⟩

/-- Looking at files writes nothing. -/
theorem wp_writing_resolve {files : FileSystem} {runDirectory path : PurePath} :
    Program.wp (writing P) (Program.ofExcept (files.resolveReportPath runDirectory path)) anyEnd () := by
  rw [Program.wp_ofExcept]
  trivial

theorem wp_writing_readSummary {runDirectory : PurePath} :
    Program.wp (writing P) (readSummary settings runDirectory) anyEnd () := by
  unfold readSummary
  split
  · trivial
  · rw [Program.wp_bind, wp_fileSystem]
    intro files
    refine Program.wp_seq wp_writing_resolve ?_ (fun _ _ _ => trivial)
    intro junitFile _ _
    split
    · trivial
    · split <;> trivial

theorem wp_writing_runPublisher {command : Command} {token : Text} :
    Program.wp (writing P) (runPublisher state command token) (Returning Updates.Reports) () := by
  refine Program.wp_handle (R := Returning Updates.Reports) ?_ (fun _ _ h => h) ?_
  · refine Program.wp_seq wp_writing_runWithTimeout ?_ (fun _ _ _ => returning_error)
    intro result _ _
    split
    · exact returning_ok ⟨rfl, rfl⟩
    · exact returning_ok ⟨rfl, rfl⟩
  · intro e _ _
    cases e with
    | expired => exact returning_error
    | cancelled => exact returning_error
    | raised e =>
      cases e with
      | exception message => exact returning_ok ⟨rfl, rfl⟩
      | timeoutError message =>
        refine Program.wp_seq wp_writing_cancelProcess ?_ (fun _ _ _ => returning_error)
        exact fun _ _ _ => returning_ok ⟨rfl, rfl⟩

/-- The publication writes the state with another container. -/
theorem wp_writing_publishAllure {runDirectory : PurePath}
    (hP : ∀ container, P { state with containerName := container }) :
    Program.wp (writing P) (publishAllure settings state runDirectory) (Returning Updates.Reports) () := by
  unfold publishAllure
  split
  · exact returning_ok ⟨rfl, rfl⟩
  · rw [Program.wp_bind, wp_fileSystem]
    intro files
    refine Program.wp_seq wp_writing_resolve ?_ (fun _ _ _ => returning_error)
    intro resultsDirectory _ _
    split
    · exact returning_ok ⟨rfl, rfl⟩
    · rw [Program.wp_bind, wp_write]
      refine ⟨hP _, fun r => ?_⟩
      cases r with
      | error e => exact returning_error
      | ok _ =>
        dsimp only [Except.mapError]
        split
        · exact returning_ok ⟨rfl, rfl⟩
        · split
          · exact returning_error
          · exact wp_writing_runPublisher

theorem Begun.withContainer (h : Begun state) (container : Option Text) :
    Begun { state with containerName := container } := ⟨h.status, h.runId, h.digest, h.summary⟩

/-- A summary comes with the directory of the run. -/
theorem summaryPlaced_run (htype : state.operationType = .runTests) {runId : Text}
    (hrun : state.runId = some runId) {updates : Updates}
    (h : updates.artifactDirectory = some (settings.artifactsDirectory.child runId).toText) :
    SummaryPlaced settings state updates := fun _ => ⟨htype, runId, hrun, h⟩

theorem wp_writing_concludeTestRun (hstate : Begun state) (htype : state.operationType = .runTests)
    {runId : Text} (hrun : state.runId = some runId) {result : ProcessResult} {report : Updates}
    (hreport : report.Reports) :
    Program.wp (writing (Consistent settings))
      (concludeTestRun settings state (settings.artifactsDirectory.child runId) result report) anyEnd () := by
  unfold concludeTestRun
  rw [Program.wp_bind, wp_cancelRequested]
  intro requested
  dsimp only
  split
  · unfold allocatedDirectory
    rw [Program.wp_bind, Program.wp_bind, wp_fileSystem]
    exact fun files => wp_writing_finish fun time =>
      hstate.stopped (.inl rfl) hreport.1 (summaryPlaced_none hreport.2)
  · rw [Program.wp_bind, wp_fileSystem]
    intro files
    dsimp only
    split
    · exact wp_writing_finish fun time => hstate.tested htype hreport.1 (summaryPlaced_none hreport.2)
    · refine Program.wp_seq wp_writing_readSummary ?_ (fun _ _ _ => trivial)
      intro summary _ _
      split
      · refine Program.wp_seq (wp_writing_publishAllure fun container => (hstate.withContainer container).consistent)
          ?_ (fun _ _ _ => trivial)
        intro published _ hpublished
        have hupdated := hreport.update (hpublished published rfl)
        rw [Program.wp_bind, wp_cancelRequested]
        intro requested
        dsimp only
        split
        · exact wp_writing_finish fun time =>
            hstate.stopped (.inl rfl) hupdated.1 (summaryPlaced_run htype hrun rfl)
        · exact wp_writing_finish fun time =>
            hstate.tested htype hupdated.1 (summaryPlaced_run htype hrun rfl)
      · exact wp_writing_finish fun time => hstate.tested htype hreport.1 (summaryPlaced_run htype hrun rfl)

/-- **A test run** writes consistent states. -/
theorem wp_writing_executeTestRun (hstate : Begun state) (htype : state.operationType = .runTests)
    {command : Command} :
    Program.wp (writing (Consistent settings)) (executeTestRun settings state command) anyEnd () := by
  unfold executeTestRun
  split
  · trivial
  · rename_i runId hrun
    refine Program.wp_handle (R := anyEnd) ?_ (fun _ _ _ => trivial) ?_
    · refine Program.wp_seq wp_writing_runWithTimeout ?_ (fun _ _ _ => trivial)
      intro result _ _
      refine Program.wp_seq wp_writing_reportUpdates ?_ (fun _ _ _ => trivial)
      intro report _ hreport
      exact wp_writing_concludeTestRun hstate htype hrun (hreport report rfl)
    · intro e _ _
      cases e with
      | expired => trivial
      | cancelled => trivial
      | raised e =>
        cases e with
        | exception message =>
          unfold allocatedDirectory
          rw [Program.wp_bind, Program.wp_bind, wp_fileSystem]
          exact fun files => wp_writing_finish fun time =>
            hstate.stopped (.inr (.inr rfl)) rfl (summaryPlaced_none rfl)
        | timeoutError message =>
          refine Program.wp_seq wp_writing_cancelProcess ?_ (fun _ _ _ => trivial)
          intro _ _ _
          refine Program.wp_seq wp_writing_reportUpdates ?_ (fun _ _ _ => trivial)
          intro report _ hreport
          have hreports := hreport report rfl
          unfold allocatedDirectory
          rw [Program.wp_bind, Program.wp_bind, wp_fileSystem]
          exact fun files => wp_writing_finish fun time =>
            hstate.stopped (.inr (.inl rfl)) hreports.1 (summaryPlaced_none hreports.2)

end Procedures

/-! ## The world -/

/-- The contract of a task in a world whose written states all satisfy `P`. -/
def writingContract (P : OperationState → Prop) : Contract Unit where
  spec := writing P
  post := anyEnd
  holds w _ := ∀ st ∈ w.history, P st
  rely _ _ := True
  rely_trans _ _ := trivial
  await_rely _ h := h
  post_rely _ h := h
  frame _ _ _ h := h

/-- The calls of the world are those of the contract. -/
theorem writing_call {P : OperationState → Prop} {answers : Answers} (n : ℕ) (w : World) (s : Unit) (c : Call)
    (K : c.Answer → Unit → Prop) (hs : ∀ st ∈ w.history, P st) (_ : True)
    (h : (writing P).wp (.call c) K s) :
    ∃ t, (∀ st ∈ (w.perform answers n c).2.history, P st) ∧ K (w.perform answers n c).1 t := by
  cases c with
  | write state =>
    refine ⟨(), ?_, h.2 _⟩
    simp only [World.perform]
    split
    · intro st hst
      rcases List.mem_append.mp hst with hst | hst
      · exact hs st hst
      · exact List.mem_singleton.mp hst ▸ h.1
    · exact hs
  | popen command environment =>
    refine ⟨(), ?_, h _⟩
    simp only [World.perform]
    split
    · exact hs
    · exact hs
  | popenStop container =>
    refine ⟨(), ?_, h _⟩
    simp only [World.perform]
    split
    · exact hs
    · exact hs
  | terminateProcess => exact ⟨(), (aside_terminateProcess w).history.symm ▸ hs, h _⟩
  | now => exact ⟨(), hs, h _⟩
  | cancelRequested => exact ⟨(), hs, h _⟩
  | fileSystem => exact ⟨(), hs, h _⟩
  | setProcess process => exact ⟨(), hs, h _⟩

/-- What every step keeps: the states are consistent, and the task goes on to write only such. -/
structure Consistently (settings : Settings) (w : World) : Prop where
  consistent : ∀ st ∈ w.history, Consistent settings st
  upheld : (writingContract (Consistent settings)).Upheld w

theorem begun_started {operationId : Text} {operationType : OperationType} {status : OperationStatus} {now : ℕ}
    {runId imageReference stand scenario containerName message : Option Text}
    (hstatus : status.isTerminal = false)
    (hrun : runId = if operationType = .runTests then some operationId else none) :
    Begun (.started operationId operationType status now runId imageReference stand scenario containerName
      message) := ⟨hstatus, hrun, rfl, rfl⟩

/-- What a start request prepares begins an operation. -/
theorem begun_of_prepare {request : Request} {hex : OperationHex} {time : ℕ} {work : Work Unit}
    (h : request.prepare settings hex time = .ok (state, work)) : Begun state ∧
      Program.wp (writing (Consistent settings)) work anyEnd () := by
  cases request with
  | build revision =>
    cases h
    exact ⟨begun_started rfl rfl, wp_writing_executeImageOperation (begun_started rfl rfl)
      (show OperationType.buildImage ≠ .runTests by decide)⟩
  | pull reference =>
    simp only [Request.prepare] at h
    split at h
    · cases h
    · cases h
      exact ⟨begun_started rfl rfl, wp_writing_executeImageOperation (begun_started rfl rfl)
        (show OperationType.pullImage ≠ .runTests by decide)⟩
  | run image stand scenario =>
    simp only [Request.prepare] at h
    split at h
    · cases h
    · cases h
      exact ⟨begun_started rfl rfl, wp_writing_executeTestRun (begun_started rfl rfl) rfl⟩

/-- The state that a restart records agrees with itself, as the state before does. -/
theorem Consistent.interrupted (h : Consistent settings state) (hopen : state.status.isTerminal = false)
    (message : Option Text) : Consistent settings { state with status := .interrupted, message := message } := by
  refine ⟨nofun, nofun, nofun, fun hd => ?_, h.runId, h.summary, fun _ hs => absurd rfl hs⟩
  rw [h.digest hd] at hopen
  cases hopen

theorem consistently_step {w w' : World} {e : Event} (hw : Consistently settings w)
    (h : step settings w e = some w') : Consistently settings w' := by
  by_cases he : e.aside = true
  · have hside := step_aside he h
    refine ⟨hside.history ▸ hw.consistent, ?_⟩
    exact hw.upheld.others hside.task fun s hs => ⟨s, fun st hst => hs st (hside.history ▸ hst), trivial⟩
  cases e with
  | start request hex time =>
    rcases step_start h with rfl | ⟨state, work, hprepare, hstart, -, -⟩
    · exact hw
    · obtain ⟨-, rfl⟩ := start_ok hstart
      obtain ⟨hbegun, hwork⟩ := begun_of_prepare hprepare
      have hconsistent : ∀ st ∈ w.history ++ [state], Consistent settings st := by
        intro st hst
        rcases List.mem_append.mp hst with hst | hst
        · exact hw.consistent st hst
        · exact List.mem_singleton.mp hst ▸ hbegun.consistent
      refine ⟨hconsistent, ?_⟩
      rintro task ⟨⟩
      exact ⟨(), hconsistent, fun _ _ => hwork⟩
  | restart =>
    cases h
    have hconsistent : ∀ st ∈ w.restart.history, Consistent settings st := by
      unfold World.restart World.markInterrupted
      split
      · exact hw.consistent
      · rename_i last hlast
        split
        · exact hw.consistent
        · rename_i hopen
          intro st hst
          rcases List.mem_append.mp hst with hst | hst
          · exact hw.consistent st hst
          · rw [List.mem_singleton.mp hst]
            exact (hw.consistent last (List.mem_of_getLast? hlast)).interrupted
              (Bool.eq_false_of_not_eq_true hopen) _
    refine ⟨hconsistent, ?_⟩
    obtain ⟨added, heq, -⟩ := restart_eq w
    intro task ht
    rw [heq] at ht
    cases ht
  | resume r answers =>
    have hupheld := hw.upheld.resume writing_call (fun _ => trivial)
      (fun work _ => calls_of_forall fun _ _ _ => trivial)
      (fun s a k x _ hs _ K hK => ⟨s, hs, hK x⟩) (fun _ _ _ _ _ => trivial) (fun _ _ hs => hs) h
    obtain ⟨task, htask⟩ := (resume_onward h).task
    obtain ⟨_, hs, -⟩ := hupheld task htask
    exact ⟨hs, hupheld⟩
  | _ => exact absurd rfl he

theorem consistently_fresh : Consistently settings .fresh :=
  ⟨(fun _ hst => absurd hst List.not_mem_nil), (fun _ ht => by cases ht)⟩

/-- **Every record is consistent.**  After every run of the service, with any requests, results of
subprocesses, cancellations, timeouts, errors and restarts, the fields of every state that was written
agree. -/
theorem consistent_of_run {events : List Event} {w : World}
    (hrun : Transition.run (step settings) .fresh events = some w) :
    ∀ state ∈ w.history, Consistent settings state :=
  (Transition.run_invariant (I := Consistently settings) (fun _ _ _ hw h => consistently_step hw h)
    consistently_fresh hrun).consistent

/-- A build that succeeds, and a test run that the restart of the service interrupts. -/
def sampleInterruptedRun : List Event :=
  [.start (.build "main") hexA 0, .resume .begin .plain, .resume .ready .plain,
    .resume .eof .plain, .exit 0 0, .resume .exited .plain, .resume .ready .plain,
    .line (Utf8.encode "sha256:0"), .resume .eof .plain, .exit 1 0, .resume .exited .plain,
    .start (.run "sha256:0" "stand" "scenario") hexB 0, .resume .begin .plain, .restart]

theorem consistent_of_run_sample : ∃ w,
    Transition.run (step .default) .fresh sampleInterruptedRun = some w ∧
      w.history.map OperationState.status = [.building, .succeeded, .running, .interrupted] ∧
      ∀ state ∈ w.history, Consistent .default state := by
  have hstatuses : (Transition.run (step .default) .fresh sampleInterruptedRun).map
      (fun w => w.history.map OperationState.status)
      = some [.building, .succeeded, .running, .interrupted] := by decide +kernel
  obtain ⟨w, hw, hstatuses⟩ := Option.map_eq_some_iff.mp hstatuses
  exact ⟨w, hw, hstatuses, consistent_of_run hw⟩

end HardwareTest.Runner
