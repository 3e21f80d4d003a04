import HardwareTest.Runner.Conduct
import HardwareTest.Runner.Reach

/-!
# The shutdown of the service

`shutdown` stops the container of the active operation, then cancels its task; the next start of the
service records what it finds unfinished as `INTERRUPTED`.

* `Event.InTime` — the operation is still unfinished when `shutdown` comes to cancel its task;
* `shutdown_interrupts` — then it is recorded as interrupted.
-/

namespace HardwareTest.Runner

open HardwareTest.Lib HardwareTest.Python

/-- The current state is one of operation `X`, and not terminal. -/
def World.Active (w : World) (X : Text) : Prop :=
  ∃ st, w.current = some st ∧ st.operationId = X ∧ st.status.isTerminal = false

/-- On a given world this can be evaluated. -/
instance (w : World) (X : Text) : Decidable (w.Active X) :=
  match h : w.current with
  | none => isFalse fun ⟨st, hst, _⟩ => by
      rw [h] at hst
      cases hst
  | some st => decidable_of_iff (st.operationId = X ∧ st.status.isTerminal = false)
      ⟨fun hst => ⟨st, h, hst⟩, fun ⟨st', hst', hX⟩ => by
        rw [h] at hst'
        cases hst'
        exact hX⟩

/-- **A shutdown in time.**  Operation `X` has no terminal state when `shutdown` is called, and none when
its `docker stop` has ended and it goes on to cancel the task. -/
def Event.InTime (X : Text) (w : World) : Event → Prop
  | .shutdown _ => w.Active X
  | .shutdownStopped => w.Active X
  | _ => True

instance (X : Text) (w : World) (e : Event) : Decidable (e.InTime X w) :=
  match e with
  | .shutdown _ => inferInstanceAs (Decidable (w.Active X))
  | .shutdownStopped => inferInstanceAs (Decidable (w.Active X))
  | .tick => isTrue trivial
  | .start _ _ _ => isTrue trivial
  | .cancel _ => isTrue trivial
  | .cancelStopped => isTrue trivial
  | .restart => isTrue trivial
  | .containerUp _ => isTrue trivial
  | .exit _ _ => isTrue trivial
  | .line _ => isTrue trivial
  | .resume _ _ => isTrue trivial

/-- Another operation begins, or another service. -/
def Event.renews : Event → Bool
  | .start .. => true
  | .restart => true
  | _ => false

/-! ## A task that is cancelled -/

/-- Only a write changes what is written. -/
theorem perform_history (answers : Answers) (n : ℕ) (w : World) (c : Call) :
    (∃ state, c = .write state) ∨ (w.perform answers n c).2.history = w.history := by
  cases c with
  | write state => exact .inl ⟨state, rfl⟩
  | popen command environment =>
    refine .inr ?_
    simp only [World.perform]
    split <;> rfl
  | popenStop container =>
    refine .inr ?_
    simp only [World.perform]
    split <;> rfl
  | terminateProcess => exact .inr (aside_terminateProcess w).history
  | now => exact .inr rfl
  | cancelRequested => exact .inr rfl
  | fileSystem => exact .inr rfl
  | setProcess process => exact .inr rfl

theorem answer_cancelled {w : World} {a : Await} {x : Except PyException a.Value}
    (hx : w.answer a .cancelled = some x) : x = .error .cancelled := by
  cases a with
  | connected pid =>
    simp only [World.answer] at hx
    split at hx
    · cases hx
    · exact (Option.some.inj hx).symm
  | output pid => exact (Option.some.inj hx).symm
  | exitStatus pid => exact (Option.some.inj hx).symm
  | stopped => exact (Option.some.inj hx).symm
  | launches => exact (Option.some.inj hx).symm

/-- **A task that is cancelled** from outside writes nothing more. -/
theorem cancelled_resume {halts : Prop} {w w' : World} {r : Resumption} {answers : Answers}
    (hw : Conducting halts w) (hcancelling : w.cancelling = true)
    (h : w.resume r answers = some w') : w'.history = w.history := by
  obtain ⟨hr, ⟨work, hwork, rfl⟩ | ⟨work, -, -, rfl⟩ | ⟨pid, k, cause, -, -, -, rfl⟩⟩ := resume_cases h
  · rw [hcancelling] at hr
    have hcancelled : r = .cancelled := by
      cases r with
      | cancelled => rfl
      | _ => cases hr
    subst hcancelled
    rcases continuation_cases hwork with ⟨-, hbegin⟩ | ⟨a, k, x, htask, hx, rfl⟩
    · cases hbegin
    obtain rfl := answer_cancelled hx
    obtain ⟨s, hs, hmet⟩ := hw.upheld _ htask
    let own : World → Conduct → Prop := fun v t =>
      Conduct.Holds halts w.operation v t ∧ t.cancelled = true ∧ v.history = w.history
    let contract : Contract Conduct :=
      { conductContract halts w.operation with
        holds := own
        frame := fun _ _ _ h => ⟨(conductContract halts w.operation).frame _ _ _ h.1, h.2⟩ }
    have hcall : ∀ n v t c K, own v t → True → contract.spec.wp (.call c) K t →
        ∃ u, own (v.perform answers n c).2 u ∧ K (v.perform answers n c).1 u := by
      intro n v t c K ht _ hK
      obtain ⟨hholds, htcancelled, hhistory⟩ := ht
      obtain ⟨u, hu, hucancelled, hKu⟩ := conduct_call n v t c K hholds hK
      refine ⟨u, ⟨hu, hucancelled.trans htcancelled, ?_⟩, hKu⟩
      rcases perform_history answers n v c with ⟨state, rfl⟩ | hsame
      · -- a cancelled task may not write
        have hfalse : t.cancelled = false := hK.1
        rw [htcancelled] at hfalse
        cases hfalse
      · exact hsame.trans hhistory
    have hafter : contract.Upheld (advance answers 0 (k (.error .cancelled)) w) := by
      have hstart : own w (s.after a (.error .cancelled)) := by
        refine ⟨conduct_answer hs hmet.2.2.1 hx, ?_, rfl⟩
        cases a <;> rfl
      exact Contract.upheld_advance (P := fun _ _ _ => True) hcall hstart
        (calls_of_forall fun _ _ _ => trivial) (hmet.2.2.2 _ s (.refl s))
    obtain ⟨task, htask⟩ := (onward_advance answers 0 (k (.error .cancelled)) w).task
    obtain ⟨t, ht, -⟩ := hafter task htask
    exact ht.2.2
  · rfl
  · rfl

/-- Only a task that is not done goes on. -/
theorem busy_of_resume {w w' : World} {r : Resumption} {answers : Answers}
    (h : w.resume r answers = some w') : w.busy = true := by
  unfold World.busy
  obtain ⟨-, ⟨work, hwork, -⟩ | ⟨work, htask, -, -⟩ | ⟨pid, k, cause, htask, -⟩⟩ := resume_cases h
  · rcases continuation_cases hwork with ⟨htask, -⟩ | ⟨a, k, x, htask, -, -⟩
    · rw [htask]
      rfl
    · rw [htask]
      rfl
  · rw [htask]
    rfl
  · rw [htask]
    rfl

theorem resume_stopper {w w' : World} {r : Resumption} {answers : Answers}
    (h : w.resume r answers = some w') : w'.stopper = w.stopper := by
  obtain ⟨-, ⟨work, -, rfl⟩ | ⟨work, -, -, rfl⟩ | ⟨pid, k, cause, -, -, -, rfl⟩⟩ := resume_cases h
  · obtain ⟨_, _, _, _, _, _, heq, -⟩ := advance_eq answers 0 work w
    rw [heq]
  · rfl
  · rfl

/-! ## The steps of a shutdown -/

/-- The shutdown waits for `docker stop`, or it has cancelled the task of an operation that has no
terminal state; so it has when the task was done by itself. -/
def World.Shutting (w : World) (X : Text) : Prop :=
  w.stopper = some w.operation ∨ (w.Active X ∧ (w.cancelling = true ∨ w.busy = false))

theorem World.Active.congr {w w' : World} {X : Text} (h : w.Active X)
    (hhistory : w'.history = w.history) : w'.Active X := by
  unfold World.Active World.current
  rw [hhistory]
  exact h

/-- **The call of `shutdown`**, which does not fail to start `docker stop`. -/
theorem shutting_of_shutdown {settings : Settings} {w w' : World} {X : Text} (hw : w.Active X)
    (h : step settings w (.shutdown (.ok ())) = some w') : w'.Shutting X := by
  simp only [step] at h
  split_ifs at h
  cases h
  unfold World.shutdown
  split
  · rename_i hbusy
    refine .inr ⟨hw, .inr ?_⟩
    simpa using hbusy
  · split
    · exact .inr ⟨hw.congr (aside_terminateProcess w).history, .inl rfl⟩
    · exact .inl rfl

/-- The two steps of a `shutdown`. -/
def Event.ofShutdown : Event → Bool
  | .shutdown _ => true
  | .shutdownStopped => true
  | _ => false

/-- Beside the task and `shutdown`, nobody else waits for its `docker stop`. -/
theorem stopper_aside {settings : Settings} {w w' : World} {e : Event} (he : e.aside = true)
    (hshutdown : e.ofShutdown = false) (h : step settings w e = some w') : w'.stopper = w.stopper := by
  obtain ⟨ps, hps⟩ := terminateProcess_eq w
  cases e with
  | start => cases he
  | restart => cases he
  | resume => cases he
  | shutdown => cases hshutdown
  | shutdownStopped => cases hshutdown
  | tick => cases h; rfl
  | containerUp pid => cases h; rfl
  | exit pid code => cases h; rfl
  | line bytes =>
    simp only [step] at h
    split at h
    · split_ifs at h
      cases h
      rfl
    · cases h
  | cancel launch =>
    obtain ⟨-, ⟨-, rfl⟩ | ⟨state, -, ⟨-, rfl⟩ | ⟨container, -, rfl | rfl⟩⟩⟩ := step_cancel h
    · rfl
    · rw [hps]
    · rfl
    · rfl
  | cancelStopped =>
    obtain ⟨X, -, rfl⟩ := step_cancelStopped h
    rw [hps]

/-- **Beside the task**, a shutdown in time goes on. -/
theorem shutting_aside {settings : Settings} {w w' : World} {e : Event} {X : Text}
    (hw : w.Shutting X) (hin : e.InTime X w) (he : e.aside = true) (h : step settings w e = some w') :
    w'.Shutting X := by
  have hside := step_aside he h
  have hbusy : w'.busy = w.busy := by
    unfold World.busy
    rw [hside.task]
  rcases hw with hstopper | ⟨hactive, hdone⟩
  · cases hshutdown : e.ofShutdown with
    | false =>
      refine .inl ?_
      rw [stopper_aside he hshutdown h, hside.operation]
      exact hstopper
    | true =>
      cases e with
      | shutdown launch =>
        simp only [step] at h
        rw [if_neg (by simp [hstopper])] at h
        cases h
      | shutdownStopped =>
        refine .inr ⟨World.Active.congr hin hside.history, ?_⟩
        by_cases hb : w.busy = true
        · refine .inl ?_
          obtain ⟨Y, hY, rfl⟩ := Option.map_eq_some_iff.mp h
          have hop : w.operation = Y := Option.some.inj (hstopper.symm.trans hY)
          obtain ⟨ps, hps⟩ := terminateProcess_eq w
          unfold World.shutdownStopped
          rw [hps]
          dsimp only
          rw [if_pos ⟨hop, hb⟩]
        · rw [Bool.not_eq_true] at hb
          exact .inr (hbusy.trans hb)
      | _ => cases hshutdown
  · exact .inr ⟨hactive.congr hside.history, hdone.imp hside.cancelling hbusy.trans⟩

/-- **Every step** of a shutdown in time. -/
theorem shutting_step {halts : Prop} {settings : Settings} {w w' : World} {e : Event} {X : Text}
    (hconduct : Conducting halts w) (hw : w.Shutting X) (hin : e.InTime X w) (hrenews : e.renews = false)
    (h : step settings w e = some w') : w'.Shutting X := by
  by_cases he : e.aside = true
  · exact shutting_aside hw hin he h
  cases e with
  | start => cases hrenews
  | restart => cases hrenews
  | resume r answers =>
    have honward := resume_onward h
    rcases hw with hstopper | ⟨hactive, hcancelling | hidle⟩
    · refine .inl ?_
      rw [resume_stopper h, honward.operation]
      exact hstopper
    · have hhistory := cancelled_resume hconduct hcancelling h
      exact .inr ⟨hactive.congr hhistory, .inl (honward.cancelling.trans hcancelling)⟩
    · rw [busy_of_resume h] at hidle
      cases hidle
  | _ => exact absurd rfl he

/-- A new service interrupts what is active. -/
theorem interrupted_of_active {w : World} {X : Text} (hw : w.Active X) :
    ∃ st, w.restart.current = some st ∧ st.operationId = X ∧ st.status = .interrupted := by
  obtain ⟨last, hlast, hX, hopen⟩ := hw
  unfold World.restart World.markInterrupted
  split
  · rename_i hnone
    rw [show w.current = none from hnone] at hlast
    cases hlast
  · rename_i st hst
    have heq : last = st := Option.some.inj (hlast.symm.trans hst)
    subst heq
    rw [if_neg (by simp [hopen])]
    exact ⟨_, List.getLast?_concat, hX, rfl⟩

/-- **A shutdown is not an outcome.**  Whatever happens between the call of `shutdown` and its return, when
`X` has no terminal state as it is called and as it comes to cancel the task, the next start of the service
leaves `X` as `INTERRUPTED`. -/
theorem shutdown_interrupts {settings : Settings} {events later : List Event} {w v : World} {X : Text}
    (hrun : Transition.run (step settings) .fresh events = some w)
    (hshutdown : Transition.run (step settings) w (.shutdown (.ok ()) :: later) = some v)
    (hlater : ∀ e ∈ later, e.renews = false)
    (hin : Transition.Meets (step settings) (fun u e => e.InTime X u) w (.shutdown (.ok ()) :: later))
    (hreturned : v.stopper = none) :
    ∃ st, v.restart.current = some st ∧ st.operationId = X ∧ st.status = .interrupted := by
  obtain ⟨w', hstep, hrest⟩ := Transition.run_cons hshutdown
  have hconduct := conducting_step (conducting_of_run hrun) (fun hf => hf.elim) hstep
  have hbegun : w'.Shutting X := shutting_of_shutdown hin.1 hstep
  have hend : Conducting False v ∧ v.Shutting X := by
    refine Transition.run_invariant_of_meets (I := fun u => Conducting False u ∧ u.Shutting X) ?_
      ⟨hconduct, hbegun⟩ ((hin.2 w' hstep).and hlater) hrest
    intro u e u' hu he h
    exact ⟨conducting_step hu.1 (fun hf => hf.elim) h, shutting_step hu.1 hu.2 he.1 he.2 h⟩
  rcases hend.2 with hstopper | ⟨hactive, -⟩
  · rw [hreturned] at hstopper
    cases hstopper
  · exact interrupted_of_active hactive

/-- The identifier of the sample test run. -/
def sampleRunId : Text := (Request.run "sha256:0" "stand" "scenario").newId hexA

/-- A test run whose subprocess runs. -/
def sampleRunningTest : List Event :=
  [.start (.run "sha256:0" "stand" "scenario") hexA 0, .resume .begin .plain,
    .resume .ready .plain, .containerUp 0]

/-- Its subprocess exits while `shutdown` waits, and the task does not go on before it is cancelled. -/
def sampleShutdown : List Event :=
  [.exit 0 143, .resume .eof .plain, .shutdownStopped, .resume .cancelled .plain]

theorem shutdown_interrupts_sample : ∃ w v,
    Transition.run (step .default) .fresh sampleRunningTest = some w ∧
      (∃ p ∈ w.subprocesses, p.operation = sampleRunId ∧ p.alive = true) ∧
      Transition.run (step .default) w (.shutdown (.ok ()) :: sampleShutdown) = some v ∧
      ∃ st, v.restart.current = some st ∧ st.operationId = sampleRunId ∧ st.status = .interrupted := by
  have halive : (Transition.run (step .default) .fresh sampleRunningTest).map (fun w =>
      (decide (∃ p ∈ w.subprocesses, p.operation = sampleRunId ∧ p.alive = true),
        decide (Transition.Meets (step .default) (fun u e => e.InTime sampleRunId u) w
          (.shutdown (.ok ()) :: sampleShutdown)))) = some (true, true) := by decide +kernel
  have hend : (Transition.run (step .default) .fresh
      (sampleRunningTest ++ .shutdown (.ok ()) :: sampleShutdown)).map (fun v => v.stopper)
      = some none := by decide +kernel
  obtain ⟨w, hw, halive⟩ := Option.map_eq_some_iff.mp halive
  obtain ⟨halive, hin⟩ := Prod.mk.inj halive
  obtain ⟨v, hv, hreturned⟩ := Option.map_eq_some_iff.mp hend
  obtain ⟨w', hw', hshutdown⟩ := Transition.run_append hv
  rw [hw] at hw'
  cases hw'
  exact ⟨w, v, hw, of_decide_eq_true halive, hshutdown,
    shutdown_interrupts hw hshutdown (by decide) (of_decide_eq_true hin) hreturned⟩

/-- **A shutdown that fails a test run.**  While `shutdown` waits for its `docker stop`, the subprocess
exits and the task records what it makes of the exit; the next start leaves that as it is. -/
theorem shutdown_fails_run : ∃ later w v,
    Transition.run (step .default) .fresh sampleRunningTest = some w ∧
      (∃ p ∈ w.subprocesses, p.operation = sampleRunId ∧ p.alive = true) ∧
      Transition.run (step .default) w (.shutdown (.ok ()) :: later) = some v ∧
      (∀ e ∈ later, e.renews = false) ∧ v.stopper = none ∧ v.busy = false ∧
      ∃ st, v.restart.current = some st ∧ st.operationId = sampleRunId ∧ st.status = .failed := by
  let later : List Event := [.exit 0 143, .resume .eof .plain, .resume .exited .plain, .shutdownStopped]
  have halive : (Transition.run (step .default) .fresh sampleRunningTest).map (fun w =>
      decide (∃ p ∈ w.subprocesses, p.operation = sampleRunId ∧ p.alive = true)) = some true := by
    decide +kernel
  have hend : (Transition.run (step .default) .fresh
      (sampleRunningTest ++ .shutdown (.ok ()) :: later)).map (fun v => (v.stopper, v.busy,
        v.restart.current.map fun st => (decide (st.operationId = sampleRunId), st.status)))
      = some (none, false, some (true, .failed)) := by decide +kernel
  obtain ⟨w, hw, halive⟩ := Option.map_eq_some_iff.mp halive
  obtain ⟨v, hv, hend⟩ := Option.map_eq_some_iff.mp hend
  obtain ⟨hstopper, hend⟩ := Prod.mk.inj hend
  obtain ⟨hbusy, hend⟩ := Prod.mk.inj hend
  obtain ⟨st, hst, hend⟩ := Option.map_eq_some_iff.mp hend
  obtain ⟨hX, hfailed⟩ := Prod.mk.inj hend
  obtain ⟨w', hw', hshutdown⟩ := Transition.run_append hv
  rw [hw] at hw'
  cases hw'
  exact ⟨later, w, v, hw, of_decide_eq_true halive, hshutdown, by decide, hstopper, hbusy, st, hst,
    of_decide_eq_true hX, hfailed⟩

end HardwareTest.Runner
