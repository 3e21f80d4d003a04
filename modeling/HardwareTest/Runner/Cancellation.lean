import HardwareTest.Runner.History

/-!
# Accepted cancellations

After `cancel` has returned for an operation, the terminal state written for it is `CANCELLED`, unless
the procedure does not come to look at the flag again.

* `obedience` — what a procedure may write once the flag is set;
* `Event.Decisive` — the steps after which it still looks at the flag, or has no need to;
* `cancel_decides` — in every run of such steps.
-/

namespace HardwareTest.Runner

open HardwareTest.Lib HardwareTest.Python

/-- The image inspection. -/
def Inspects (command : Command) : Prop :=
  command.take 3 = ["docker".toList, "image".toList, "inspect".toList]

instance (command : Command) : Decidable (Inspects command) := inferInstanceAs (Decidable (_ = _))

/-- The publication of operation `X`. -/
def Publishes (X : Text) (command : Command) : Prop :=
  containerOf command = some (Settings.publisherContainer X)

instance (X : Text) (command : Command) : Decidable (Publishes X command) :=
  inferInstanceAs (Decidable (_ = _))

/-- The terminal state is written or not, the flag is set or not, and the subprocess started last. -/
structure Intent where
  ended : Bool
  requested : Bool
  latest : Option (ℕ × Command)

namespace Intent

/-- Others can only set the flag. -/
def Rely (s t : Intent) : Prop :=
  t.ended = s.ended ∧ t.latest = s.latest ∧ (s.requested = true → t.requested = true)

def start (s : Intent) (pid : ℕ) (command : Command) : Intent := { s with latest := some (pid, command) }

/-- What is awaited belongs to the latest subprocess; nothing waits for `docker stop`. -/
def Awaits (s : Intent) : Await → Prop
  | .connected pid => ∃ command, s.latest = some (pid, command)
  | .output pid => ∃ command, s.latest = some (pid, command)
  | .exitStatus pid => ∃ command, s.latest = some (pid, command)
  | .stopped => False
  | .launches => True

/-- The answers that leave the flag its say: no timeout; when it is set, no error but of the publication,
and no inspection that ends. -/
def Permits (X : Text) (s : Intent) : (a : Await) → Except PyException a.Value → Prop
  | .output _, .error e => e = .cancelled ∨ ∃ message, e = .raised (.exception message) ∧
      (s.requested = true → ∀ pid command, s.latest = some (pid, command) → Publishes X command)
  | .exitStatus _, .ok _ =>
      s.requested = true → ∀ pid command, s.latest = some (pid, command) → ¬Inspects command
  | _, .error e => e = .cancelled
  | _, .ok _ => True

end Intent

/-- The task of operation `X` writes no terminal state but `CANCELLED` once the flag is set. -/
def obedience (X : Text) : Program.Spec Op Op.Answer Intent where
  wp op := match op with
    | .call (.write state) => fun K s => s.ended = false ∧ state.operationId = X ∧
        (state.status.isTerminal = true → s.requested = true → state.status = .cancelled) ∧
        K (.ok ()) { s with ended := state.status.isTerminal } ∧
        (s.requested = false → ∀ message, K (.error (.exception message)) s)
    | .call (.popen command _) => fun K s => s.ended = false ∧ (∀ pid, K (.ok pid) (s.start pid command)) ∧
        (s.requested = false → ∀ message, K (.error (.exception message)) s)
    | .call (.popenStop _) => fun _ _ => False
    | .call .cancelRequested => fun K s => K s.requested s
    | .call _ => fun K s => ∀ r, K r s
    | .await a => fun K s => s.ended = false ∧ s.Awaits a ∧ ∀ r t, s.Rely t → t.Permits X a r → K r t
  mono := by
    intro op P Q s hPQ h
    cases op with
    | await a => exact ⟨h.1, h.2.1, fun r t hst hr => hPQ r t (h.2.2 r t hst hr)⟩
    | call c =>
      cases c with
      | write state =>
        exact ⟨h.1, h.2.1, h.2.2.1, hPQ _ _ h.2.2.2.1, fun hs m => hPQ _ _ (h.2.2.2.2 hs m)⟩
      | popen command environment =>
        exact ⟨h.1, fun pid => hPQ _ _ (h.2.1 pid), fun hs m => hPQ _ _ (h.2.2 hs m)⟩
      | popenStop container => exact h
      | cancelRequested => exact hPQ _ _ h
      | now => exact fun r => hPQ _ _ (h r)
      | fileSystem => exact fun r => hPQ _ _ (h r)
      | setProcess process => exact fun r => hPQ _ _ (h r)
      | terminateProcess => exact fun r => hPQ _ _ (h r)

/-! ## The procedures -/

section Procedures

variable {X : Text} {α β : Type}

/-- What has returned has written no terminal state. -/
def Open (r : Except PyException α) (s : Intent) : Prop :=
  s.ended = false ∧ ∀ e, r = .error e → e = .cancelled ∨
    ∃ message, e = .raised (.exception message) ∧ s.requested = false

/-- What `_run_with_timeout` returns or raises. -/
def Watched (X : Text) (command : Command) (r : Except PyException α) (s : Intent) : Prop :=
  s.ended = false ∧ match r with
    | .ok _ => s.requested = true → ¬Inspects command
    | .error e => e = .cancelled ∨
        ∃ message, e = .raised (.exception message) ∧ (s.requested = true → Publishes X command)

theorem Open.error {e : PyException} {s : Intent} (h : Open (.error e : Except PyException α) s) :
    Open (.error e : Except PyException β) s := by
  refine ⟨h.1, fun e' he' => h.2 e' ?_⟩
  cases he'
  rfl

theorem open_ok {a : α} {s : Intent} (hs : s.ended = false) : Open (.ok a : Except PyException α) s :=
  ⟨hs, fun _ he => nomatch he⟩

theorem open_raised {message : Text} {s : Intent} (hs : s.ended = false) (hr : s.requested = false) :
    Open (.error (.raised (.exception message)) : Except PyException α) s := by
  refine ⟨hs, fun e he => .inr ?_⟩
  cases he
  exact ⟨message, rfl, hr⟩

theorem open_cancelled {s : Intent} (hs : s.ended = false) :
    Open (.error .cancelled : Except PyException α) s := by
  refine ⟨hs, fun e he => .inl ?_⟩
  cases he
  rfl

/-- An error of a subprocess that does not publish was raised before the flag was set. -/
theorem Watched.open {command : Command} {e : PyException} {s : Intent}
    (h : Watched X command (.error e : Except PyException α) s) (hcommand : ¬Publishes X command) :
    Open (.error e : Except PyException β) s := by
  obtain ⟨hs, rfl | ⟨message, rfl, hr⟩⟩ := h
  · exact open_cancelled hs
  · exact open_raised hs (by simpa using fun hreq => hcommand (hr hreq))

theorem wp_obedience_runWithTimeout {command : Command} {environment : Environment} {s : Intent}
    (hs : s.ended = false) :
    Program.wp (obedience X) (runWithTimeout command environment) (Watched X command) s := by
  apply wp_runWithTimeout
  apply wp_runProcess
  refine ⟨hs, ?_, fun hr message => ⟨hs, .inr ⟨message, rfl, fun hreq => ?_⟩⟩⟩
  · intro pid
    refine ⟨hs, ⟨command, rfl⟩, ?_⟩
    intro r t ht hpermit
    have htended : t.ended = false := ht.1.trans hs
    cases r with
    | error e =>
      have he : e = .cancelled := hpermit
      subst he
      exact ⟨htended, .inl rfl⟩
    | ok _ =>
      intro _
      refine ⟨htended, ⟨command, ht.2.1⟩, ?_⟩
      intro r u hu hpermit
      have huended : u.ended = false := hu.1.trans htended
      have hulatest : u.latest = some (pid, command) := hu.2.1.trans ht.2.1
      cases r with
      | error e =>
        intro _
        rcases hpermit with rfl | ⟨message, rfl, hpub⟩
        · exact ⟨huended, .inl rfl⟩
        · exact ⟨huended, .inr ⟨message, rfl, fun hreq => hpub hreq pid command hulatest⟩⟩
      | ok output =>
        refine ⟨huended, ⟨command, hulatest⟩, ?_⟩
        intro r v hv hpermit
        have hvended : v.ended = false := hv.1.trans huended
        cases r with
        | error e =>
          intro _
          have he : e = .cancelled := hpermit
          subst he
          exact ⟨hvended, .inl rfl⟩
        | ok exitCode =>
          exact fun _ => ⟨hvended, fun hreq => hpermit hreq pid command (hv.2.1.trans hulatest)⟩
  · rw [hr] at hreq
    cases hreq

theorem wp_obedience_finish {state : OperationState} {status : OperationStatus} {exitCode : Option ℤ}
    {updates : Updates} {s : Intent} (hs : s.ended = false) (hstate : state.operationId = X)
    (hstatus : s.requested = true → status = .cancelled) :
    Program.wp (obedience X) (finish state status exitCode updates)
      (fun r t => ∀ e, r = .error e → Open r t) s := by
  unfold finish
  rw [Program.wp_bind]
  intro time
  refine (congrFun (wp_write _ _ _) _).mpr ⟨hs, hstate, fun _ => hstatus, (fun _ he => nomatch he), ?_⟩
  exact fun hr message e he => open_raised hs hr

/-- What the body of a procedure leaves. -/
def Leaves (r : Except PyException Unit) (s : Intent) : Prop := ∀ e, r = .error e → Open r s

theorem leaves_open {e : PyException} {s : Intent} (h : Open (.error e : Except PyException Unit) s) :
    Leaves (.error e) s := fun _ _ => h

/-- **An image operation** heeds the flag. -/
theorem wp_obedience_executeImageOperation {state : OperationState} {command : Command}
    {reference : Text} {s : Intent} (hs : s.ended = false) (hstate : state.operationId = X)
    (hcommand : containerOf command = none) :
    Program.wp (obedience X) (executeImageOperation state command reference) (fun _ _ => True) s := by
  have hmain : ¬Publishes X command := by simp [Publishes, hcommand]
  have hinspect : ¬Publishes X (Settings.inspectImage reference) := by
    simp [Publishes, containerOf_inspectImage]
  refine Program.wp_handle (R := Leaves) ?_ (fun _ _ _ => trivial) ?_
  · refine Program.wp_seq (wp_obedience_runWithTimeout hs) ?_ (fun _ _ h => leaves_open (h.open hmain))
    intro result t ht
    rw [Program.wp_bind, wp_cancelRequested]
    show Program.wp (obedience X) _ Leaves t
    split
    · exact wp_obedience_finish ht.1 hstate fun _ => rfl
    · rename_i hr
      split
      · exact wp_obedience_finish ht.1 hstate fun h => absurd h hr
      · refine Program.wp_seq (wp_obedience_runWithTimeout ht.1) ?_
          (fun _ _ h => leaves_open (h.open hinspect))
        intro inspect u hu
        have hr : ¬u.requested = true := fun h => hu.2 h rfl
        split
        · exact wp_obedience_finish hu.1 hstate fun h => absurd h hr
        · exact wp_obedience_finish hu.1 hstate fun h => absurd h hr
  · intro e t ht
    obtain ⟨hended, he⟩ := ht e rfl
    rcases he e rfl with rfl | ⟨message, rfl, hr⟩
    · trivial
    · refine Program.wp_mono (fun _ _ _ => trivial) (wp_obedience_finish hended hstate fun h => ?_)
      rw [hr] at h
      cases h

theorem wp_obedience_resolve {files : FileSystem} {runDirectory path : PurePath} {s : Intent}
    (hs : s.ended = false) (hr : s.requested = false) :
    Program.wp (obedience X) (Program.ofExcept (files.resolveReportPath runDirectory path))
      (fun r t => Open r t ∧ t.requested = false) s := by
  rw [Program.wp_ofExcept]
  unfold FileSystem.resolveReportPath
  dsimp only
  split
  · exact ⟨open_raised hs hr, hr⟩
  · exact ⟨open_ok hs, hr⟩

theorem wp_obedience_readSummary {settings : Settings} {runDirectory : PurePath} {s : Intent}
    (hs : s.ended = false) (hr : s.requested = false) :
    Program.wp (obedience X) (readSummary settings runDirectory)
      (fun r t => Open r t ∧ t.requested = false) s := by
  unfold readSummary
  split
  · exact ⟨open_ok hs, hr⟩
  · rw [Program.wp_bind, wp_fileSystem]
    intro files
    refine Program.wp_seq (wp_obedience_resolve hs hr) ?_ (fun _ _ h => ⟨h.1.error, h.2⟩)
    intro junitFile t ht
    split
    · exact ⟨open_ok ht.1.1, ht.2⟩
    · split
      · exact ⟨open_ok ht.1.1, ht.2⟩
      · exact ⟨open_ok ht.1.1, ht.2⟩

theorem wp_obedience_reportUpdates {settings : Settings} {state : OperationState} {s : Intent}
    (hs : s.ended = false) :
    Program.wp (obedience X) (reportUpdates settings state) Open s := by
  unfold reportUpdates
  split
  · rw [Program.wp_bind, wp_await]
    refine ⟨hs, trivial, ?_⟩
    intro r t ht hpermit
    cases r with
    | ok page => exact open_ok (ht.1.trans hs)
    | error e =>
      have he : e = .cancelled := hpermit
      subst he
      exact open_cancelled (ht.1.trans hs)
  · exact open_ok hs

/-- The publication raises nothing that the flag would have to wait for. -/
theorem wp_obedience_runPublisher {state : OperationState} {command : Command} {token : Text}
    {s : Intent} (hs : s.ended = false) :
    Program.wp (obedience X) (runPublisher state command token) Open s := by
  refine Program.wp_handle
    (R := fun r t => t.ended = false ∧ ∀ e, r = .error e → e = .cancelled ∨ ∃ m, e = .raised (.exception m))
    ?_ (fun _ _ h => open_ok h.1) ?_
  · refine Program.wp_seq (wp_obedience_runWithTimeout hs) ?_ ?_
    · intro result t ht
      split
      · exact ⟨ht.1, fun _ he => nomatch he⟩
      · exact ⟨ht.1, fun _ he => nomatch he⟩
    · intro e t ht
      refine ⟨ht.1, fun e' he => ?_⟩
      cases he
      exact ht.2.imp id fun ⟨message, he, _⟩ => ⟨message, he⟩
  · intro e t ht
    rcases ht.2 e rfl with rfl | ⟨message, rfl⟩
    · exact open_cancelled ht.1
    · exact open_ok ht.1

theorem wp_obedience_publishAllure {settings : Settings} {state : OperationState}
    {runDirectory : PurePath} {s : Intent} (hs : s.ended = false) (hr : s.requested = false)
    (hstate : state.operationId = X) (hstatus : state.status.isTerminal = false) :
    Program.wp (obedience X) (publishAllure settings state runDirectory) Open s := by
  unfold publishAllure
  split
  · exact open_ok hs
  · rw [Program.wp_bind, wp_fileSystem]
    intro files
    refine Program.wp_seq (wp_obedience_resolve hs hr) ?_ (fun _ _ h => h.1.error)
    rintro resultsDirectory t ⟨ht, htr⟩
    split
    · exact open_ok ht.1
    · rw [Program.wp_bind, wp_write]
      refine ⟨ht.1, hstate, fun h => ?_, ?_, fun _ message => open_raised ht.1 htr⟩
      · have hopen : state.status.isTerminal = true := h
        rw [hstatus] at hopen
        cases hopen
      · dsimp only [Except.mapError]
        split
        · exact open_ok hstatus
        · split
          · exact open_raised hstatus htr
          · exact wp_obedience_runPublisher hstatus

theorem wp_obedience_concludeTestRun {settings : Settings} {state : OperationState}
    {expectedDirectory : PurePath} {result : ProcessResult} {report : Updates} {s : Intent}
    (hs : s.ended = false) (hstate : state.operationId = X) (hstatus : state.status.isTerminal = false) :
    Program.wp (obedience X) (concludeTestRun settings state expectedDirectory result report) Leaves s := by
  unfold concludeTestRun
  rw [Program.wp_bind, wp_cancelRequested]
  show Program.wp (obedience X) _ Leaves s
  split
  · unfold allocatedDirectory
    rw [Program.wp_bind, Program.wp_bind, wp_fileSystem]
    exact fun files => wp_obedience_finish hs hstate fun _ => rfl
  · rename_i hr
    have hr' : s.requested = false := by simpa using hr
    rw [Program.wp_bind, wp_fileSystem]
    intro files
    dsimp only
    split
    · exact wp_obedience_finish hs hstate fun h => absurd h hr
    · refine Program.wp_seq (wp_obedience_readSummary hs hr') ?_ (fun _ _ h => leaves_open h.1.error)
      rintro summary t ⟨ht, htr⟩
      split
      · refine Program.wp_seq (wp_obedience_publishAllure ht.1 htr hstate hstatus) ?_
          (fun _ _ h => leaves_open h.error)
        intro published u hu
        rw [Program.wp_bind, wp_cancelRequested]
        show Program.wp (obedience X) _ Leaves u
        split
        · exact wp_obedience_finish hu.1 hstate fun _ => rfl
        · rename_i hur
          exact wp_obedience_finish hu.1 hstate fun h => absurd h hur
      · refine wp_obedience_finish ht.1 hstate fun h => ?_
        rw [htr] at h
        cases h

/-- **A test run** heeds the flag. -/
theorem wp_obedience_executeTestRun {settings : Settings} {state : OperationState} {command : Command}
    {runId : Text} {s : Intent} (hs : s.ended = false) (hstate : state.operationId = X)
    (hstatus : state.status.isTerminal = false) (hrun : state.runId = some runId)
    (hcommand : ¬Publishes X command) :
    Program.wp (obedience X) (executeTestRun settings state command) (fun _ _ => True) s := by
  unfold executeTestRun
  rw [hrun]
  dsimp only
  refine Program.wp_handle (R := Leaves) ?_ (fun _ _ _ => trivial) ?_
  · refine Program.wp_seq (wp_obedience_runWithTimeout hs) ?_
      (fun _ _ h => leaves_open (h.open hcommand))
    intro result t ht
    refine Program.wp_seq (wp_obedience_reportUpdates ht.1) ?_ (fun _ _ h => leaves_open h.error)
    exact fun report u hu => wp_obedience_concludeTestRun hu.1 hstate hstatus
  · intro e t ht
    obtain ⟨hended, he⟩ := ht e rfl
    rcases he e rfl with rfl | ⟨message, rfl, hr⟩
    · trivial
    · unfold allocatedDirectory
      dsimp only
      rw [Program.wp_bind, Program.wp_bind, wp_fileSystem]
      intro files
      show Program.wp (obedience X) (finish state .infrastructureError none _) _ t
      refine Program.wp_mono (fun _ _ _ => trivial) (wp_obedience_finish hended hstate fun h => ?_)
      rw [hr] at h
      cases h

end Procedures

/-! ## The world -/

/-- `cancel` has returned for operation `X`, or waits for its `docker stop`. -/
def World.Cancels (w : World) (X : Text) : Prop := X ∈ w.accepted ∨ w.canceller = some X

/-- The terminal state of `X`, if there is one, is `CANCELLED`, or `INTERRUPTED` by a restart. -/
def World.Obeyed (w : World) (X : Text) : Prop :=
  ∀ st ∈ w.history, st.operationId = X → st.status.isTerminal = true → st.status ≠ .interrupted →
    st.status = .cancelled

/-- The contract in the world. -/
structure Intent.Holds (X : Text) (w : World) (s : Intent) : Prop where
  operation : w.operation = X
  requested : w.cancelRequested = s.requested
  ended : ∀ st ∈ w.history, st.operationId = X → st.status.isTerminal = true → s.ended = true
  latest : ∀ pid command, s.latest = some (pid, command) →
    ∃ p, w.subprocesses[pid]? = some p ∧ p.command = command ∧ p.operation = X
  obeyed : w.Cancels X → s.requested = true ∧ w.Obeyed X

def intentContract (X : Text) : Contract Intent where
  spec := obedience X
  post _ _ := True
  holds := Intent.Holds X
  rely := Intent.Rely
  rely_trans h h' := ⟨h'.1.trans h.1, h'.2.1.trans h.2.1, h'.2.2 ∘ h.2.2⟩
  await_rely := by
    intro a K s t hst h
    refine ⟨hst.1.trans h.1, ?_, ?_⟩
    · have hawaits := h.2.1
      unfold Intent.Awaits at hawaits ⊢
      rw [hst.2.1]
      exact hawaits
    · exact fun r u htu hr =>
        h.2.2 r u ⟨htu.1.trans hst.1, htu.2.1.trans hst.2.1, htu.2.2 ∘ hst.2.2⟩ hr
  post_rely _ h := h
  frame _ _ _ h := ⟨h.operation, h.requested, h.ended, h.latest, h.obeyed⟩

/-- A subprocess starts, or raises no `TimeoutError` and before the flag was set; once it is set, no
write raises. -/
def Heeded (w : World) : (c : Call) → c.Answer → Prop
  | .popen _ _, .error (.timeoutError _) => False
  | .popen _ _, .error (.exception _) => w.cancelRequested = false
  | .write _, .error _ => w.cancelRequested = false
  | _, _ => True

theorem Intent.Holds.later {X : Text} {w w' : World} {s : Intent} (h : Intent.Holds X w s)
    (hoperation : w'.operation = w.operation) (hrequested : w'.cancelRequested = w.cancelRequested)
    (hhistory : w'.history = w.history) (hcancels : w'.Cancels X → w.Cancels X)
    (hlater : LaterAll w.subprocesses w'.subprocesses) : Intent.Holds X w' s := by
  refine ⟨hoperation.trans h.operation, hrequested.trans h.requested, hhistory ▸ h.ended, ?_, ?_⟩
  · intro pid command hlatest
    obtain ⟨p, hp, hcommand, hX⟩ := h.latest pid command hlatest
    obtain ⟨q, hq, hpq⟩ := hlater.getElem?_left hp
    exact ⟨q, hq, hpq.command.trans hcommand, hpq.operation.trans hX⟩
  · intro hc
    obtain ⟨hreq, hobeyed⟩ := h.obeyed (hcancels hc)
    refine ⟨hreq, ?_⟩
    unfold World.Obeyed
    rw [hhistory]
    exact hobeyed

theorem intent_call {X : Text} {answers : Answers} (n : ℕ) (w : World) (s : Intent) (c : Call)
    (K : c.Answer → Intent → Prop) (hs : Intent.Holds X w s)
    (hheed : Heeded w c (w.perform answers n c).1) (h : (obedience X).wp (.call c) K s) :
    ∃ t, Intent.Holds X (w.perform answers n c).2 t ∧ K (w.perform answers n c).1 t := by
  cases c with
  | write state =>
    obtain ⟨hended, hstate, hstatus, hok, herror⟩ := h
    by_cases hdump : state.dumpable = true
    · simp only [World.perform, if_pos hdump]
      refine ⟨{ s with ended := state.status.isTerminal },
        ⟨hs.operation, hs.requested, ?_, hs.latest, fun hc => ⟨(hs.obeyed hc).1, ?_⟩⟩, hok⟩
      · intro st hst hX hterminal
        rcases List.mem_append.mp hst with hst | hst
        · have htrue := hs.ended st hst hX hterminal
          rw [hended] at htrue
          cases htrue
        · rw [List.mem_singleton.mp hst] at hterminal
          exact hterminal
      · intro st hst hX hterminal hinterrupted
        rcases List.mem_append.mp hst with hst | hst
        · exact (hs.obeyed hc).2 st hst hX hterminal hinterrupted
        · rw [List.mem_singleton.mp hst] at hterminal ⊢
          exact hstatus hterminal (hs.obeyed hc).1
    · simp only [World.perform, if_neg hdump] at hheed ⊢
      exact ⟨s, hs, herror (hs.requested.symm.trans hheed) _⟩
  | popen command environment =>
    obtain ⟨hended, hok, herror⟩ := h
    cases hpopen : answers.popen with
    | error e =>
      simp only [World.perform, hpopen] at hheed ⊢
      cases e with
      | timeoutError message => exact hheed.elim
      | exception message => exact ⟨s, hs, herror (hs.requested.symm.trans hheed) message⟩
    | ok _ =>
      simp only [World.perform, hpopen]
      refine ⟨s.start w.subprocesses.length command,
        ⟨hs.operation, hs.requested, hs.ended, ?_, hs.obeyed⟩, hok _⟩
      intro pid command' hlatest
      cases hlatest
      exact ⟨_, List.getElem?_concat_length, rfl, hs.operation⟩
  | popenStop container => exact h.elim
  | terminateProcess =>
    have hside := aside_terminateProcess w
    obtain ⟨ps, hps⟩ := terminateProcess_eq w
    refine ⟨s, hs.later hside.operation ?_ hside.history ?_ hside.subprocesses, h _⟩
    · simp only [World.perform, hps]
    · simp only [World.perform, hps]
      exact id
  | now => exact ⟨s, hs, h _⟩
  | cancelRequested =>
    refine ⟨s, hs, ?_⟩
    simp only [World.perform, hs.requested]
    exact h
  | fileSystem => exact ⟨s, hs, h _⟩
  | setProcess process => exact ⟨s, hs.later rfl rfl rfl id (laterAll_refl _), h _⟩

/-- **A step that lets the flag decide.**  No timeout fires; once the flag is set, `run` raises nothing
but for the publisher, no image inspection ends, subprocesses start and states are written. -/
def Event.Decisive (w : World) : Event → Prop
  | .resume r answers =>
    (∀ e ∈ r.raises, e.isTimeout = false) ∧
    (w.cancelRequested = true → ∀ p ∈ w.watched,
      (r.raises.isSome = true → Publishes p.operation p.command) ∧
      (r.exits = true → ¬Inspects p.command)) ∧
    w.ResumeCalls Heeded r answers
  | _ => True

instance (w : World) (c : Call) (x : c.Answer) : Decidable (Heeded w c x) :=
  match c, x with
  | .popen _ _, .error (.timeoutError _) => isFalse id
  | .popen _ _, .error (.exception _) => inferInstanceAs (Decidable (_ = _))
  | .popen _ _, .ok _ => isTrue trivial
  | .write _, .error _ => inferInstanceAs (Decidable (_ = _))
  | .write _, .ok _ => isTrue trivial
  | .now, _ => isTrue trivial
  | .cancelRequested, _ => isTrue trivial
  | .fileSystem, _ => isTrue trivial
  | .setProcess _, _ => isTrue trivial
  | .terminateProcess, _ => isTrue trivial
  | .popenStop _, _ => isTrue trivial

instance (w : World) (e : Event) : Decidable (e.Decisive w) :=
  match e with
  | .resume _ _ => inferInstanceAs (Decidable (_ ∧ _ ∧ _))
  | .tick => isTrue trivial
  | .start _ _ _ => isTrue trivial
  | .cancel _ => isTrue trivial
  | .cancelStopped => isTrue trivial
  | .shutdown _ => isTrue trivial
  | .shutdownStopped => isTrue trivial
  | .restart => isTrue trivial
  | .containerUp _ => isTrue trivial
  | .exit _ _ => isTrue trivial
  | .line _ => isTrue trivial

/-- A start is aborted only from outside. -/
def World.AbortedOutside (w : World) : Prop := ∀ cause ∈ w.aborting, cause = .cancelled

/-- **The answers of the world** are those that the contract permits. -/
theorem intent_answer {X : Text} {w : World} {s : Intent} {r : Resumption} {answers : Answers} {a : Await}
    {k : Except PyException a.Value → Work Unit} {x : Except PyException a.Value}
    (hs : Intent.Holds X w s) (habort : w.AbortedOutside) (htask : w.task = some (.suspended a k))
    (hawaits : s.Awaits a) (hx : w.answer a r = some x)
    (hdecisive : Event.Decisive w (.resume r answers)) : s.Permits X a x := by
  obtain ⟨htimeout, hwatched, -⟩ := hdecisive
  cases a with
  | stopped => exact hawaits.elim
  | launches => cases r <;> cases hx <;> trivial
  | connected pid =>
    cases x with
    | ok _ => trivial
    | error e =>
      cases r <;> simp only [World.answer] at hx <;> try cases hx
      · split at hx <;> cases hx
      · split at hx
        · rename_i cause _ hcause _
          cases hx
          exact habort _ hcause
        · cases hx
      · split at hx
        · cases hx
        · cases hx
          rfl
  | output pid =>
    cases x with
    | ok _ => trivial
    | error e =>
      rcases raises_of_answer (.inl hx) with hraises | rfl
      · have he := htimeout e hraises
        cases e with
        | expired => cases he
        | cancelled => exact .inl rfl
        | raised e =>
          cases e with
          | timeoutError message => cases he
          | exception message =>
            refine .inr ⟨message, rfl, fun hreq pid' command hlatest => ?_⟩
            obtain ⟨command', hawaits⟩ := hawaits
            rw [hawaits] at hlatest
            cases hlatest
            obtain ⟨p, hp, hcommand, hX⟩ := hs.latest pid command hawaits
            have hpub := (hwatched (hs.requested.trans hreq) p
              (by rw [World.watched, htask]; exact hp)).1 (by rw [hraises]; rfl)
            rwa [hX, hcommand] at hpub
      · exact .inl rfl
  | exitStatus pid =>
    cases x with
    | error e =>
      rcases raises_of_answer (.inr hx) with hraises | rfl
      · have he := htimeout e hraises
        cases r <;> simp only [World.answer] at hx <;> try cases hx
        · obtain ⟨_, _, hx⟩ := Option.map_eq_some_iff.mp hx
          cases hx
        · cases he
        · rfl
      · rfl
    | ok code =>
      intro hreq pid' command hlatest
      obtain ⟨command', hawaits⟩ := hawaits
      rw [hawaits] at hlatest
      cases hlatest
      obtain ⟨p, hp, hcommand, -⟩ := hs.latest pid command hawaits
      have hexits : r.exits = true := by
        cases r with
        | exited => rfl
        | _ => cases hx
      have hinspects := (hwatched (hs.requested.trans hreq) p
        (by rw [World.watched, htask]; exact hp)).2 hexits
      rwa [hcommand] at hinspects

/-- What `cancel` finds active is the current state, when it is not terminal. -/
theorem cancellable_cases {w : World} {state : OperationState} (h : w.cancellable = some state) :
    w.current = some state ∧ state.status.isTerminal = false ∧ ∃ task, w.task = some task := by
  unfold World.cancellable at h
  split at h
  · rename_i current task hcurrent htask
    split at h
    · cases h
    · rename_i hopen
      cases h
      exact ⟨hcurrent, by simpa using hopen, task, htask⟩
  · cases h

/-- It belongs to the operation of the task, which has no terminal state. -/
theorem cancellable_spec {w : World} (hw : Kept True w) {state : OperationState}
    (h : w.cancellable = some state) : state.operationId = w.operation ∧
      ∀ st ∈ w.history, st.operationId = w.operation → st.status.isTerminal = false := by
  obtain ⟨hcurrent, hopen, task, htask⟩ := cancellable_cases h
  obtain ⟨s, hs, -⟩ := hw.upheld task htask
  obtain ⟨last, hlast, hlastX, -⟩ := hs.current
  rw [hcurrent] at hlast
  cases hlast
  refine ⟨hlastX, fun st hst hX => ?_⟩
  exact hw.recorded.final_eq_false hcurrent hopen hst (hX.trans hlastX.symm)

/-- The two steps of a `cancel`. -/
def Event.ofCancel : Event → Bool
  | .cancel _ => true
  | .cancelStopped => true
  | _ => false

/-- Beside the task and `cancel`, nothing concerns a cancellation. -/
theorem step_uncancelled {settings : Settings} {w w' : World} {e : Event} (he : e.aside = true)
    (hcancel : e.ofCancel = false) (h : step settings w e = some w') :
    w'.accepted = w.accepted ∧ w'.canceller = w.canceller ∧ w'.cancelRequested = w.cancelRequested := by
  obtain ⟨ps, hps⟩ := terminateProcess_eq w
  cases e with
  | start => cases he
  | restart => cases he
  | resume => cases he
  | cancel => cases hcancel
  | cancelStopped => cases hcancel
  | tick => cases h; exact ⟨rfl, rfl, rfl⟩
  | containerUp pid => cases h; exact ⟨rfl, rfl, rfl⟩
  | exit pid code => cases h; exact ⟨rfl, rfl, rfl⟩
  | line bytes =>
    simp only [step] at h
    split at h
    · split_ifs at h
      cases h
      exact ⟨rfl, rfl, rfl⟩
    · cases h
  | shutdown launch =>
    simp only [step] at h
    split_ifs at h
    cases h
    unfold World.shutdown
    rw [hps]
    split
    · exact ⟨rfl, rfl, rfl⟩
    · split
      · exact ⟨rfl, rfl, rfl⟩
      · split <;> exact ⟨rfl, rfl, rfl⟩
  | shutdownStopped =>
    obtain ⟨x, -, rfl⟩ := Option.map_eq_some_iff.mp h
    unfold World.shutdownStopped
    rw [hps]
    dsimp only
    split <;> exact ⟨rfl, rfl, rfl⟩

/-- **What `cancel` can do at once**: find no active operation; terminate the subprocess and return; or
start `docker stop`, which may fail. -/
theorem step_cancel {settings : Settings} {w w' : World} {launch : Except PyError Unit}
    (h : step settings w (.cancel launch) = some w') : w.canceller = none ∧
      ((w.cancellable = none ∧ w' = w) ∨ ∃ state, w.cancellable = some state ∧
        ((state.containerName = none ∧ w' = { w.terminateProcess with
            cancelRequested := true, accepted := state.operationId :: w.accepted }) ∨
          ∃ container, state.containerName = some container ∧
            (w' = { w with cancelRequested := true } ∨ w' = { w.stopContainer container with
              cancelRequested := true, canceller := some state.operationId }))) := by
  simp only [step] at h
  split_ifs at h with hfree
  cases h
  refine ⟨hfree, ?_⟩
  unfold World.cancel
  cases hstate : w.cancellable with
  | none => exact .inl ⟨rfl, rfl⟩
  | some state =>
    refine .inr ⟨state, rfl, ?_⟩
    dsimp only
    cases hname : state.containerName with
    | none =>
      refine .inl ⟨rfl, ?_⟩
      unfold World.terminateProcess
      dsimp only
      split <;> rfl
    | some container =>
      refine .inr ⟨container, rfl, ?_⟩
      cases launch with
      | error e => exact .inl rfl
      | ok _ => exact .inr rfl

/-- **What `cancel` does after its `docker stop`.** -/
theorem step_cancelStopped {settings : Settings} {w w' : World}
    (h : step settings w .cancelStopped = some w') : ∃ X, w.canceller = some X ∧
      w' = { w.terminateProcess with accepted := X :: w.accepted, canceller := none } := by
  obtain ⟨X, hX, rfl⟩ := Option.map_eq_some_iff.mp h
  obtain ⟨ps, hps⟩ := terminateProcess_eq w
  exact ⟨X, hX, by simp only [World.cancelStopped, hps]⟩

/-- Beside the task, only `cancel` of an active operation is new. -/
theorem cancels_aside {settings : Settings} {w w' : World} {e : Event} (he : e.aside = true)
    (h : step settings w e = some w') {X : Text} (hX : w'.Cancels X) :
    w.Cancels X ∨ (w'.cancelRequested = true ∧ ∃ state, w.cancellable = some state ∧
      state.operationId = X) := by
  cases hcancel : e.ofCancel with
  | false =>
    obtain ⟨haccepted, hcanceller, -⟩ := step_uncancelled he hcancel h
    refine .inl ?_
    unfold World.Cancels at hX ⊢
    rwa [haccepted, hcanceller] at hX
  | true =>
    obtain ⟨ps, hps⟩ := terminateProcess_eq w
    cases e with
    | cancel launch =>
      obtain ⟨-, ⟨-, rfl⟩ | ⟨state, hstate, ⟨-, rfl⟩ | ⟨container, -, rfl | rfl⟩⟩⟩ := step_cancel h
      · exact .inl hX
      · rcases hX with hX | hX
        · rcases List.mem_cons.mp hX with rfl | hX
          · exact .inr ⟨rfl, state, hstate, rfl⟩
          · exact .inl (.inl hX)
        · rw [hps] at hX
          exact .inl (.inr hX)
      · exact .inl hX
      · rcases hX with hX | hX
        · exact .inl (.inl hX)
        · exact .inr ⟨rfl, state, hstate, Option.some.inj hX⟩
    | cancelStopped =>
      obtain ⟨Y, hY, rfl⟩ := step_cancelStopped h
      rcases hX with hX | hX
      · rcases List.mem_cons.mp hX with rfl | hX
        · exact .inl (.inr hY)
        · exact .inl (.inl hX)
      · cases hX
    | _ => cases hcancel

/-- A start, a restart and the task cancel nothing. -/
theorem cancels_other {settings : Settings} {w w' : World} {e : Event} (he : ¬e.aside = true)
    (h : step settings w e = some w') {X : Text} (hX : w'.Cancels X) : w.Cancels X := by
  cases e with
  | start request hex time =>
    rcases step_start h with rfl | ⟨state, work, -, hstart, -, -⟩
    · exact hX
    · obtain ⟨-, rfl⟩ := start_ok hstart
      exact hX
  | restart =>
    cases h
    refine .inl ?_
    unfold World.Cancels World.restart World.markInterrupted at hX
    split at hX
    · exact hX.resolve_right (nomatch ·)
    · split at hX <;> exact hX.resolve_right (nomatch ·)
  | resume r answers =>
    have honward := resume_onward h
    unfold World.Cancels at hX ⊢
    rwa [honward.accepted, honward.canceller] at hX
  | _ => exact absurd rfl he

/-- **Every step**: only `cancel` of an active operation is new. -/
theorem cancels_step {settings : Settings} {w w' : World} {e : Event} (h : step settings w e = some w')
    {X : Text} (hX : w'.Cancels X) : w.Cancels X ∨ (w'.cancelRequested = true ∧
      ∃ state, w.cancellable = some state ∧ state.operationId = X) := by
  by_cases he : e.aside = true
  · exact cancels_aside he h hX
  · exact .inl (cancels_other he h hX)

/-- What is cancelled is recorded. -/
theorem cancels_known {settings : Settings} {w w' : World} {e : Event}
    (hknown : ∀ X, w.Cancels X → ∃ st ∈ w.history, st.operationId = X)
    (h : step settings w e = some w') {X : Text} (hX : w'.Cancels X) :
    ∃ st ∈ w'.history, st.operationId = X := by
  obtain ⟨added, hadded⟩ := step_history h
  rw [hadded]
  rcases cancels_step h hX with hX | ⟨-, state, hstate, rfl⟩
  · obtain ⟨st, hst, hstX⟩ := hknown X hX
    exact ⟨st, List.mem_append_left _ hst, hstX⟩
  · obtain ⟨hcurrent, -, -⟩ := cancellable_cases hstate
    exact ⟨state, List.mem_append_left _ (List.mem_of_getLast? hcurrent), rfl⟩

/-- What every step keeps, for operation `X`. -/
structure Heeding (X : Text) (w : World) : Prop where
  kept : Kept True w
  known : ∀ Y, w.Cancels Y → ∃ st ∈ w.history, st.operationId = Y
  obeyed : w.Cancels X → w.Obeyed X
  aborted : w.operation = X → w.AbortedOutside
  upheld : w.operation = X → (intentContract X).Upheld w

theorem heeding_aside {X : Text} {settings : Settings} {w w' : World} {e : Event} (hw : Heeding X w)
    (he : e.aside = true) (h : step settings w e = some w') : Heeding X w' := by
  have hside := step_aside he h
  -- what is newly cancelled is the operation of the task, which has no terminal state
  have hnew : ∀ Y, w'.Cancels Y → w.Cancels Y ∨ (w'.cancelRequested = true ∧ Y = w.operation ∧
      ∀ st ∈ w.history, st.operationId = Y → st.status.isTerminal = false) := by
    intro Y hY
    rcases cancels_aside he h hY with hY | ⟨hreq, state, hstate, rfl⟩
    · exact .inl hY
    · obtain ⟨hop, hopen⟩ := cancellable_spec hw.kept hstate
      exact .inr ⟨hreq, hop, fun st hst hX => hopen st hst (hX.trans hop)⟩
  have hobeyed : w'.Cancels X → w'.Obeyed X := by
    intro hX
    unfold World.Obeyed
    rw [hside.history]
    rcases hnew X hX with hX | ⟨-, -, hopen⟩
    · exact hw.obeyed hX
    · intro st hst hstX hterminal
      rw [hopen st hst hstX] at hterminal
      cases hterminal
  refine ⟨kept_step hw.kept (.inl trivial) h, fun Y hY => cancels_known hw.known h hY, hobeyed, ?_, ?_⟩
  · intro hop cause hcause
    rw [hside.aborting] at hcause
    exact hw.aborted (hside.operation ▸ hop) cause hcause
  · intro hop
    refine (hw.upheld (hside.operation ▸ hop)).others hside.task fun s hs => ?_
    refine ⟨{ s with requested := w'.cancelRequested }, ⟨hop, rfl, ?_, ?_, ?_⟩, rfl, rfl, ?_⟩
    · rw [hside.history]
      exact hs.ended
    · intro pid command hlatest
      obtain ⟨p, hp, hcommand, hX⟩ := hs.latest pid command hlatest
      obtain ⟨q, hq, hpq⟩ := hside.subprocesses.getElem?_left hp
      exact ⟨q, hq, hpq.command.trans hcommand, hpq.operation.trans hX⟩
    · intro hX
      refine ⟨?_, hobeyed hX⟩
      rcases hnew X hX with hX | ⟨hreq, -, -⟩
      · exact hside.requested (hs.requested.trans (hs.obeyed hX).1)
      · exact hreq
    · exact fun hreq => hside.requested (hs.requested.trans hreq)

theorem runContainer_ne_publisherContainer (X Y : Text) :
    Settings.runContainer X ≠ Settings.publisherContainer Y := by
  intro h
  have hhead : some 'h' = some 'a' := congrArg List.head? h
  cases hhead

theorem heeding_step {X : Text} {settings : Settings} {w w' : World} {e : Event} (hw : Heeding X w)
    (hdecisive : w.operation = X → e.Decisive w) (h : step settings w e = some w') : Heeding X w' := by
  by_cases he : e.aside = true
  · exact heeding_aside hw he h
  have hkept := kept_step hw.kept (.inl trivial) h
  have hknown : ∀ Y, w'.Cancels Y → ∃ st ∈ w'.history, st.operationId = Y :=
    fun Y hY => cancels_known hw.known h hY
  have hcancels : ∀ Y, w'.Cancels Y → w.Cancels Y := fun Y hY => cancels_other he h hY
  cases e with
  | start request hex time =>
    rcases step_start h with rfl | ⟨state, work, hprepare, hstart, -, hfresh⟩
    · exact hw
    · obtain ⟨-, rfl⟩ := start_ok hstart
      obtain ⟨hid, hstatus, -, hwork⟩ := prepare_ok hprepare
      rw [← hid] at hfresh
      refine ⟨hkept, hknown, ?_, (fun _ cause hcause => nomatch hcause), ?_⟩
      · intro hX st hst hstX hterminal hinterrupted
        rcases List.mem_append.mp hst with hst | hst
        · exact hw.obeyed hX st hst hstX hterminal hinterrupted
        · rw [List.mem_singleton.mp hst, hstatus] at hterminal
          cases hterminal
      · rintro rfl task ht
        cases ht
        refine ⟨⟨false, false, none⟩, ⟨rfl, rfl, ?_, (fun pid command hlatest => nomatch hlatest), ?_⟩, ?_⟩
        · intro st hst hX hterminal
          rcases List.mem_append.mp hst with hst | hst
          · exact absurd hX (hfresh st hst)
          · rw [List.mem_singleton.mp hst, hstatus] at hterminal
            cases hterminal
        · intro hX
          obtain ⟨st, hst, hstX⟩ := hw.known _ hX
          exact absurd hstX (hfresh st hst)
        · intro t ht
          rcases hwork with ⟨command, reference, rfl, -, hcommand⟩ | ⟨command, rfl, hrun, -, hcommand⟩
          · exact wp_obedience_executeImageOperation ht.1 rfl hcommand
          · refine wp_obedience_executeTestRun ht.1 rfl hstatus hrun ?_
            unfold Publishes
            rw [hcommand, Option.some.injEq]
            exact runContainer_ne_publisherContainer _ _
  | restart =>
    refine ⟨hkept, hknown, ?_, ?_, ?_⟩
    · intro hX st hst hstX hterminal hinterrupted
      refine hw.obeyed (hcancels X hX) st ?_ hstX hterminal hinterrupted
      cases h
      unfold World.restart World.markInterrupted at hst
      split at hst
      · exact hst
      · split at hst
        · exact hst
        · rcases List.mem_append.mp hst with hst | hst
          · exact hst
          · rw [List.mem_singleton.mp hst] at hinterrupted
            exact absurd rfl hinterrupted
    · cases h
      intro _ cause hcause
      unfold World.restart World.markInterrupted at hcause
      split at hcause
      · cases hcause
      · split at hcause <;> cases hcause
    · cases h
      intro _ task ht
      unfold World.restart World.markInterrupted at ht
      split at ht
      · cases ht
      · split at ht <;> cases ht
  | resume r answers =>
    have honward := resume_onward h
    have hupheld : w.operation = X → (intentContract X).Upheld w' := by
      intro hop
      have hd := hdecisive hop
      refine (hw.upheld hop).resume intent_call (fun s => ⟨rfl, rfl, id⟩) hd.2.2 ?_
        (fun _ _ _ _ _ => trivial) ?_ h
      · intro s a k x htask hs hx K hK
        exact ⟨s, hs, hK.2.2 x s ⟨rfl, rfl, id⟩
          (intent_answer hs (hw.aborted hop) htask hK.2.1 hx hd)⟩
      · intro s pid hs
        have hside := aside_kill w pid
        exact hs.later hside.operation rfl hside.history id hside.subprocesses
    refine ⟨hkept, hknown, ?_, ?_,
      fun hop => hupheld (honward.operation ▸ hop)⟩
    · intro hX
      by_cases hop : w.operation = X
      · obtain ⟨task, htask⟩ := honward.task
        obtain ⟨s, hs, -⟩ := hupheld hop task htask
        exact (hs.obeyed hX).2
      · intro st hst hstX hterminal hinterrupted
        have hold := step_other hw.kept h hst (fun hst' => hop (hst'.symm.trans hstX)) hterminal hinterrupted
        exact hw.obeyed (hcancels X hX) st hold hstX hterminal hinterrupted
    · intro hop
      rw [honward.operation] at hop
      obtain ⟨hraises, -, -⟩ := hdecisive hop
      obtain ⟨-, ⟨work, -, rfl⟩ | ⟨work, -, -, rfl⟩ | ⟨pid, k, cause, -, -, hcause, rfl⟩⟩ := resume_cases h
      · obtain ⟨_, _, _, _, _, aborting, heq, hab⟩ := advance_eq answers 0 work w
        rw [heq]
        rcases hab with rfl | rfl
        · exact fun cause hc => nomatch hc
        · exact hw.aborted hop
      · exact hw.aborted hop
      · intro c hc
        cases hc
        cases r <;> cases hcause
        · cases hraises _ rfl
        · rfl
  | _ => exact absurd rfl he

theorem heeding_fresh (X : Text) : Heeding X .fresh where
  kept := kept_fresh True
  known _ hY := by rcases hY with hY | hY <;> cases hY
  obeyed hX := by rcases hX with hX | hX <;> cases hX
  aborted _ := fun _ hcause => nomatch hcause
  upheld _ := fun _ ht => nomatch ht

/-- **An accepted cancellation decides the outcome.**  In every run whose steps, while `X` is the
operation, let the flag decide: once `cancel` has returned for `X`, its terminal state is `CANCELLED`. -/
theorem cancel_decides {settings : Settings} {events : List Event} {w : World} {X : Text}
    (hrun : Transition.run (step settings) .fresh events = some w)
    (hdecisive : Transition.Meets (step settings) (fun v e => v.operation = X → e.Decisive v)
      .fresh events) (hX : X ∈ w.accepted) :
    ∀ st ∈ w.history, st.operationId = X → st.status.isTerminal = true → st.status ≠ .interrupted →
      st.status = .cancelled :=
  (Transition.run_invariant_of_meets (I := Heeding X)
    (fun _ _ _ hv he h => heeding_step hv he h) (heeding_fresh X) hdecisive hrun).obeyed (.inl hX)

/-- The identifier of the sample build. -/
def sampleId : Text := (Request.build "main").newId hexA

/-- A build that is cancelled while its subprocess runs. -/
def sampleCancelledBuild : List Event :=
  [.start (.build "main") hexA 0, .resume .begin .plain, .resume .ready .plain,
    .cancel (.ok ()), .exit 0 (-15), .resume .eof .plain, .resume .exited .plain]

theorem cancel_decides_sample : ∃ w,
    Transition.run (step .default) .fresh sampleCancelledBuild = some w ∧
      (∃ st ∈ w.history, st.operationId = sampleId ∧ st.status.isTerminal = true) ∧
      ∀ st ∈ w.history, st.operationId = sampleId → st.status.isTerminal = true →
        st.status ≠ .interrupted → st.status = .cancelled := by
  have hend : (Transition.run (step .default) .fresh sampleCancelledBuild).map (fun w =>
      (decide (∃ st ∈ w.history, st.operationId = sampleId ∧ st.status.isTerminal = true),
        decide (sampleId ∈ w.accepted))) = some (true, true) := by decide +kernel
  obtain ⟨w, hw, hend⟩ := Option.map_eq_some_iff.mp hend
  obtain ⟨hend, haccepted⟩ := Prod.mk.inj hend
  exact ⟨w, hw, of_decide_eq_true hend,
    cancel_decides hw (by decide +kernel) (of_decide_eq_true haccepted)⟩

/-- The timeout of a subprocess fires. -/
def Event.timeoutFires : Event → Bool
  | .resume .timeout _ => true
  | _ => false

/-- **A cancelled build succeeds.**  `cancel` returns while the image inspection is awaited, and the flag
is not looked at again. -/
theorem cancelled_build_succeeds : ∃ events w,
    Transition.run (step .default) .fresh events = some w ∧
      (∀ e ∈ events, e.timeoutFires = false) ∧ sampleId ∈ w.accepted ∧
      ∃ st ∈ w.history, st.operationId = sampleId ∧ st.status = .succeeded := by
  let events : List Event :=
    [.start (.build "main") (sampleHex 'a') 0, .resume .begin .plain, .resume .ready .plain,
      .resume .eof .plain, .exit 0 0, .resume .exited .plain, .resume .ready .plain,
      .line (Utf8.encode "sha256:0"), .resume .eof .plain, .exit 1 0, .cancel (.ok ()),
      .resume .exited .plain]
  have hend : (Transition.run (step .default) .fresh events).map (fun w =>
      (decide (sampleId ∈ w.accepted),
        decide (∃ st ∈ w.history, st.operationId = sampleId ∧ st.status = .succeeded)))
      = some (true, true) := by decide +kernel
  obtain ⟨w, hw, hend⟩ := Option.map_eq_some_iff.mp hend
  obtain ⟨haccepted, hsucceeded⟩ := Prod.mk.inj hend
  exact ⟨events, w, hw, by decide, of_decide_eq_true haccepted, of_decide_eq_true hsucceeded⟩

end HardwareTest.Runner
