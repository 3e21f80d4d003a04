import HardwareTest.Runner.Conduct

/-!
# What a cancellation reaches

`cancel` finds the subprocess of the operation in a slot that the task fills and empties between its
awaits, and waits for `docker stop` while the task goes on.

* `Conducting` — what every step keeps: slot and demand are those of the operation of the task;
* `Event.Noticed` — a `cancel` that finds every subprocess of its operation;
* `cancel_stops_work` — in every run of such steps the work of a cancelled operation has an end;
* `cancel_touches_own` — in every run, a `cancel` concerns only the operation whose state it read.
-/

namespace HardwareTest.Runner

open HardwareTest.Lib HardwareTest.Python

/-! ## The steps of a `cancel` -/

/-- The operation for which `cancel` returns in this step. -/
def Event.returns (w : World) : Event → Option Text
  | .cancel _ => w.cancellable.bind fun state =>
      if state.containerName = none then some state.operationId else none
  | .cancelStopped => w.canceller
  | _ => none

/-- The task has begun to run, or will not. -/
def World.begun (w : World) : Bool :=
  match w.task with
  | some (.created _) => false
  | _ => true

/-- **A `cancel` that misses nothing.**  When it returns, the task has begun, and the slot is not empty
while a subprocess of the operation is alive that was not signalled before. -/
def Event.Noticed (w : World) (e : Event) : Prop :=
  ∀ X ∈ e.returns w, w.begun = true ∧
    (w.process = none → ∀ p ∈ w.subprocesses, p.operation = X → p.alive = true → p.signalled = true)

instance (w : World) (e : Event) : Decidable (e.Noticed w) :=
  match h : e.returns w with
  | none => isTrue fun X hX => by
      rw [h] at hX
      cases hX
  | some X => decidable_of_iff
      (w.begun = true ∧ (w.process = none → ∀ p ∈ w.subprocesses, p.operation = X → p.alive = true →
        p.signalled = true))
      ⟨fun hn Y hY => by
        rw [h] at hY
        cases hY
        exact hn, fun hn => hn X h⟩

/-- A `cancel` that returns has terminated the subprocess in the slot. -/
theorem step_returns {settings : Settings} {w w' : World} {e : Event} {X : Text}
    (hX : e.returns w = some X) (h : step settings w e = some w') :
    w'.accepted = X :: w.accepted ∧ w'.subprocesses = w.terminateProcess.subprocesses := by
  cases e with
  | cancel launch =>
    obtain ⟨-, ⟨hnone, -⟩ | ⟨state, hstate, hcases⟩⟩ := step_cancel h
    · simp [Event.returns, hnone] at hX
    · simp only [Event.returns, hstate, Option.bind_some] at hX
      rcases hcases with ⟨hname, rfl⟩ | ⟨container, hname, -⟩
      · rw [if_pos hname] at hX
        cases hX
        exact ⟨rfl, rfl⟩
      · rw [hname, if_neg (by simp)] at hX
        cases hX
  | cancelStopped =>
    obtain ⟨Y, hY, rfl⟩ := step_cancelStopped h
    have heq : Y = X := Option.some.inj (hY.symm.trans hX)
    exact ⟨by rw [heq], rfl⟩
  | _ => cases hX

/-- Every other step accepts nothing. -/
theorem step_returns_none {settings : Settings} {w w' : World} {e : Event} (hnone : e.returns w = none)
    (h : step settings w e = some w') : w'.accepted = w.accepted := by
  by_cases he : e.aside = true
  · cases hcancel : e.ofCancel with
    | false => exact (step_uncancelled he hcancel h).1
    | true =>
      cases e with
      | cancel launch =>
        obtain ⟨-, ⟨-, rfl⟩ | ⟨state, hstate, ⟨hname, -⟩ | ⟨container, -, rfl | rfl⟩⟩⟩ := step_cancel h
        · rfl
        · simp [Event.returns, hstate, hname] at hnone
        · rfl
        · rfl
      | cancelStopped =>
        obtain ⟨Y, hY, -⟩ := step_cancelStopped h
        rw [Event.returns, hY] at hnone
        cases hnone
      | _ => cases hcancel
  · cases e with
    | start request hex time =>
      rcases step_start h with rfl | ⟨state, work, -, hstart, -, -⟩
      · rfl
      · obtain ⟨-, rfl⟩ := start_ok hstart
        rfl
    | restart =>
      cases h
      unfold World.restart World.markInterrupted
      split
      · rfl
      · split <;> rfl
    | resume r answers => exact (resume_onward h).accepted
    | _ => exact absurd rfl he

/-! ## Every step -/

/-- What every step keeps: the slot and the demand of a cancellation are those of the operation of the
task, and whoever waits with the lock cancels that operation. -/
structure Conducting (halts : Prop) (w : World) : Prop where
  kept : Kept True w
  known : ∀ X, w.Cancels X → ∃ st ∈ w.history, st.operationId = X
  held : ∀ X, w.canceller = some X → w.operation = X
  proper : Proper halts w
  idle : (∀ a k, w.task ≠ some (.suspended a k)) → w.process = none
  upheld : (conductContract halts w.operation).Upheld w

/-- Where `cancel` returns, it returns for the operation of the task. -/
theorem Conducting.returns {halts : Prop} {w : World} {e : Event} {X : Text} (hw : Conducting halts w)
    (hX : e.returns w = some X) : w.operation = X := by
  cases e with
  | cancel launch =>
    obtain ⟨state, hstate, hX⟩ := Option.bind_eq_some_iff.mp hX
    split_ifs at hX
    cases hX
    exact (cancellable_spec hw.kept hstate).1.symm
  | cancelStopped => exact hw.held X hX
  | _ => cases hX

/-- The subprocess in the slot is the only one of the operation that is alive. -/
theorem Conducting.slot {halts : Prop} {w : World} (hw : Conducting halts w) {pid : ℕ}
    (hpid : w.process = some pid) : ∃ p, w.subprocesses[pid]? = some p ∧ p.operation = w.operation := by
  cases htask : w.task with
  | none =>
    rw [hw.idle (by simp [htask])] at hpid
    cases hpid
  | some task =>
    obtain ⟨s, hs, -⟩ := hw.upheld task htask
    exact hs.owned pid (.inl (hs.process.symm.trans hpid))

/-- While the slot is filled, no other subprocess of the operation is alive. -/
theorem Conducting.alone {halts : Prop} {w : World} (hw : Conducting halts w) {pid : ℕ}
    (hpid : w.process = some pid) {i : ℕ} {p : Subprocess} (hp : w.subprocesses[i]? = some p)
    (hX : p.operation = w.operation) (halive : p.alive = true) : i = pid := by
  by_cases hidle : ∀ a k, w.task ≠ some (.suspended a k)
  · rw [hw.idle hidle] at hpid
    cases hpid
  push Not at hidle
  obtain ⟨a, k, htask⟩ := hidle
  obtain ⟨s, hs, hmet⟩ := hw.upheld _ htask
  have hslot : s.slot = some pid := hs.process.symm.trans hpid
  have hrunning : s.running = some i := hs.running i p hp hX halive
  have hawaits : s.Awaits a := hmet.2.2.1
  -- only the awaits of `run` leave the slot filled
  have hsame : s.running = s.slot := by
    cases a with
    | output pid' => exact hawaits.1.trans hawaits.2.symm
    | exitStatus pid' => exact hawaits.1.trans hawaits.2.symm
    | connected pid' =>
      rw [hawaits.2] at hslot
      cases hslot
    | stopped =>
      have hempty : s.slot = none := hawaits
      rw [hslot] at hempty
      cases hempty
    | launches =>
      have hempty : s.slot = none := hawaits
      rw [hslot] at hempty
      cases hempty
  rw [hrunning, hslot] at hsame
  exact Option.some.inj hsame

/-- **A `cancel` that misses nothing** returns when every subprocess of its operation that is alive is
signalled. -/
theorem signalled_of_returns {halts : Prop} {settings : Settings} {w w' : World} {e : Event} {X : Text}
    (hw : Conducting halts w) (hX : e.returns w = some X) (hnoticed : e.Noticed w)
    (h : step settings w e = some w') {q : Subprocess} (hq : q ∈ w'.subprocesses)
    (hqX : q.operation = X) (halive : q.alive = true) : q.signalled = true := by
  obtain ⟨-, hempty⟩ := hnoticed X hX
  obtain ⟨-, hsubprocesses⟩ := step_returns hX h
  rw [hsubprocesses] at hq
  unfold World.terminateProcess at hq
  cases hprocess : w.process with
  | none =>
    rw [hprocess] at hq
    exact hempty hprocess q hq hqX halive
  | some pid =>
    rw [hprocess] at hq
    obtain ⟨i, hi⟩ := List.getElem?_of_mem hq
    simp only [World.kill, World.modifySubprocess, List.getElem?_modify] at hi
    obtain ⟨p, hp, rfl⟩ := Option.map_eq_some_iff.mp hi
    by_cases hpid : pid = i
    · rw [if_pos hpid] at halive ⊢
      split at halive
      · rename_i hp'
        rw [if_pos hp']
        rfl
      · rename_i hp'
        exact absurd halive hp'
    · rw [if_neg hpid] at hqX halive
      have hpX : p.operation = w.operation := hqX.trans (hw.returns hX).symm
      exact absurd (hw.alone hprocess hp hpX halive).symm hpid

/-- Whoever waits with the lock has found the operation of the task active. -/
theorem held_aside {halts : Prop} {settings : Settings} {w w' : World} {e : Event}
    (hw : Conducting halts w) (he : e.aside = true) (h : step settings w e = some w') {X : Text}
    (hX : w'.canceller = some X) : w.operation = X := by
  cases hcancel : e.ofCancel with
  | false =>
    obtain ⟨-, hcanceller, -⟩ := step_uncancelled he hcancel h
    exact hw.held X (hcanceller ▸ hX)
  | true =>
    cases e with
    | cancel launch =>
      obtain ⟨hfree, ⟨-, rfl⟩ | ⟨state, hstate, ⟨-, rfl⟩ | ⟨container, -, rfl | rfl⟩⟩⟩ := step_cancel h
      · exact hw.held X hX
      · obtain ⟨ps, hps⟩ := terminateProcess_eq w
        rw [hps] at hX
        exact hw.held X hX
      · exact hw.held X hX
      · have hid : state.operationId = X := Option.some.inj hX
        exact hid ▸ (cancellable_spec hw.kept hstate).1.symm
    | cancelStopped =>
      obtain ⟨Y, -, rfl⟩ := step_cancelStopped h
      cases hX
    | _ => cases hcancel

theorem proper_aside {halts : Prop} {settings : Settings} {w w' : World} {e : Event}
    (hw : Conducting halts w) (hnoticed : halts → e.Noticed w) (he : e.aside = true)
    (h : step settings w e = some w') : Proper halts w' := by
  have hside := step_aside he h
  obtain ⟨hcontainers, hstates, hknown, hsignalled⟩ := hw.proper
  refine ⟨?_, hside.history ▸ hstates, ?_, ?_⟩
  · intro q hq
    obtain ⟨p, hp, hpq⟩ := hside.subprocesses.mem hq
    rw [hpq.operation, hpq.container]
    exact hcontainers p hp
  · intro q hq
    obtain ⟨p, hp, hpq⟩ := hside.subprocesses.mem hq
    rw [hside.history, hpq.operation]
    exact hknown p hp
  · intro hh q hq hX halive
    obtain ⟨p, hp, hpq⟩ := hside.subprocesses.mem hq
    have hold : q.operation ∈ w.accepted → q.signalled = true := fun hX =>
      hpq.signalled (hsignalled hh p hp (hpq.operation ▸ hX) (hpq.exited halive))
    cases hreturns : e.returns w with
    | none =>
      rw [step_returns_none hreturns h] at hX
      exact hold hX
    | some Y =>
      rw [(step_returns hreturns h).1] at hX
      rcases List.mem_cons.mp hX with hX | hX
      · exact signalled_of_returns hw hreturns (hnoticed hh) h hq hX halive
      · exact hold hX

/-- Beside the task the demand of a cancellation may grow. -/
theorem conducting_aside {halts : Prop} {settings : Settings} {w w' : World} {e : Event}
    (hw : Conducting halts w) (hnoticed : halts → e.Noticed w) (he : e.aside = true)
    (h : step settings w e = some w') : Conducting halts w' := by
  have hside := step_aside he h
  refine ⟨kept_step hw.kept (.inl trivial) h, fun X hX => cancels_known hw.known h hX,
    fun X hX => hside.operation.trans (held_aside hw he h hX), proper_aside hw hnoticed he h, ?_, ?_⟩
  · intro hidle
    rw [hside.process]
    exact hw.idle (hside.task ▸ hidle)
  · rw [hside.operation]
    intro task ht
    have htask : w.task = some task := hside.task ▸ ht
    obtain ⟨s, hs, hmet⟩ := hw.upheld task htask
    have hrequested : w'.Cancels w.operation → w'.cancelRequested = true := by
      intro hX
      rcases cancels_aside he h hX with hX | ⟨hreq, -⟩
      · exact hside.requested (hs.requested hX)
      · exact hreq
    refine ⟨{ s with demand := w'.demand w.operation }, ?_, ?_⟩
    · refine ⟨hside.operation, rfl, hside.process.trans hs.process, ?_, ?_, hrequested, ?_,
        hside.history ▸ hs.recorded, proper_aside hw hnoticed he h⟩
      · intro pid hpid
        obtain ⟨p, hp, hX⟩ := hs.owned pid hpid
        obtain ⟨q, hq, hpq⟩ := hside.subprocesses.getElem?_left hp
        exact ⟨q, hq, hpq.operation.trans hX⟩
      · intro pid q hq hX halive
        obtain ⟨p, hp, hpq⟩ := hside.subprocesses.getElem? hq
        exact hs.running pid p hp (hpq.operation ▸ hX) (hpq.exited halive)
      · intro st hst hX hcancelled
        exact hside.requested (hs.flagged st (hside.history ▸ hst) hX hcancelled)
    · cases task with
      | finished r => exact hmet
      | suspended a k =>
        refine Contract.Met.rely (c := conductContract halts w.operation) hmet ⟨rfl, rfl, rfl, rfl, ?_⟩
        intro _ hbegun
        rw [hmet.1] at hbegun
        cases hbegun
      | created work =>
        refine Contract.Met.rely (c := conductContract halts w.operation) hmet ⟨rfl, rfl, rfl, rfl, ?_⟩
        intro hh _ hdemand hdemand'
        have haccepted : w'.accepted = w.accepted := by
          refine step_returns_none ?_ h
          cases hreturns : e.returns w with
          | none => rfl
          | some Y =>
            have hbegun := (hnoticed hh Y hreturns).1
            unfold World.begun at hbegun
            rw [htask] at hbegun
            cases hbegun
        have hX : w.operation ∈ w'.accepted := demand_eq_accepted.mp hdemand'
        rw [haccepted] at hX
        exact hdemand (hs.demand.trans (demand_eq_accepted.mpr hX))

theorem begun_advance {answers : Answers} {n : ℕ} {work : Work Unit} {w : World} :
    (advance answers n work w).begun = true := by
  induction work generalizing n w with
  | pure a => rfl
  | throw e => rfl
  | call op k ih =>
    cases op with
    | await a => rfl
    | call c => exact ih _

/-- A task that goes on has begun. -/
theorem begun_resume {w w' : World} {r : Resumption} {answers : Answers}
    (h : w.resume r answers = some w') : w'.begun = true := by
  obtain ⟨-, ⟨work, -, rfl⟩ | ⟨work, -, -, rfl⟩ | ⟨pid, k, cause, htask, -, -, rfl⟩⟩ := resume_cases h
  · exact begun_advance
  · rfl
  · unfold World.begun
    show (match w.task with
      | some (.created _) => false
      | _ => true) = true
    rw [htask]

/-- **Every step** keeps slot, subprocess and demand together. -/
theorem conducting_step {halts : Prop} {settings : Settings} {w w' : World} {e : Event}
    (hw : Conducting halts w) (hnoticed : halts → e.Noticed w) (h : step settings w e = some w') :
    Conducting halts w' := by
  by_cases he : e.aside = true
  · exact conducting_aside hw hnoticed he h
  have hkept := kept_step hw.kept (.inl trivial) h
  have hknown : ∀ X, w'.Cancels X → ∃ st ∈ w'.history, st.operationId = X :=
    fun X hX => cancels_known hw.known h hX
  obtain ⟨hcontainers, hstates, hrecorded, hsignalled⟩ := hw.proper
  cases e with
  | start request hex time =>
    rcases step_start h with rfl | ⟨state, work, hprepare, hstart, hfree, hfresh⟩
    · exact hw
    · obtain ⟨hbusy, rfl⟩ := start_ok hstart
      obtain ⟨hid, hstatus, -, hwork⟩ := prepare_ok hprepare
      rw [← hid] at hfresh
      have hproper : Proper halts { w with
          cancelRequested := false, log := [], history := w.history ++ [state],
          operation := state.operationId, task := some (.created work), cancelling := false,
          captured := [], aborting := none } := by
        refine ⟨hcontainers, ?_, ?_, hsignalled⟩
        · intro st hst
          rcases List.mem_append.mp hst with hst | hst
          · exact hstates st hst
          · rw [List.mem_singleton.mp hst]
            rcases hwork with ⟨_, _, -, hname, -⟩ | ⟨_, -, -, hname, -⟩
            · exact .inl hname
            · exact .inr (.inl hname)
        · intro p hp
          obtain ⟨st, hst, hX⟩ := hrecorded p hp
          exact ⟨st, List.mem_append_left _ hst, hX⟩
      have hslot : w.process = none := by
        refine hw.idle fun a k htask => ?_
        unfold World.busy at hbusy
        rw [htask] at hbusy
        cases hbusy
      have hnew : ∀ p ∈ w.subprocesses, p.operation ≠ state.operationId := by
        intro p hp hX
        obtain ⟨st, hst, hstX⟩ := hrecorded p hp
        exact hfresh st hst (hstX.trans hX)
      have hquiet : ¬w.Cancels state.operationId := by
        intro hX
        obtain ⟨st, hst, hstX⟩ := hw.known _ hX
        exact hfresh st hst hstX
      refine ⟨hkept, hknown, ?_, hproper, fun _ => hslot, ?_⟩
      · intro X hX
        rw [hfree] at hX
        cases hX
      · intro task ht
        cases ht
        refine ⟨⟨false, .none, false, none, none⟩, ⟨rfl, ?_, hslot, ?_, ?_, fun hX => absurd hX hquiet, ?_,
          ⟨state, by simp, rfl⟩, hproper⟩, ?_⟩
        · show Demand.none = if state.operationId ∈ w.accepted then _ else _
          rw [if_neg fun hX => hquiet (.inl hX)]
          rfl
        · intro pid hpid
          rcases hpid with hpid | hpid <;> cases hpid
        · intro pid p hp hX
          exact absurd hX (hnew p (List.mem_of_getElem? hp))
        · intro st hst hX hcancelled
          rcases List.mem_append.mp hst with hst | hst
          · exact absurd hX (hfresh st hst)
          · rw [List.mem_singleton.mp hst] at hcancelled
            rw [hcancelled] at hstatus
            cases hstatus
        · intro t ht
          have hready : Ready halts t := ⟨ht.2.2.2.1, ht.2.2.1, ht.2.1,
            fun hh => ht.2.2.2.2 hh rfl (fun h => nomatch h)⟩
          rcases hwork with ⟨command, reference, rfl, -, hcommand⟩ | ⟨command, rfl, -, -, hcommand⟩
          · exact wp_conduct_executeImageOperation hready rfl hcommand
          · exact wp_conduct_executeTestRun hready rfl hstatus hcommand
  | restart =>
    cases h
    obtain ⟨added, heq, hadded⟩ := restart_eq w
    rw [heq] at hkept hknown ⊢
    have hproper : Proper halts { w with
        history := w.history ++ added, operation := [], task := none, cancelling := false, captured := [],
        aborting := none, cancelRequested := false, process := none, canceller := none,
        stopper := none } := by
      refine ⟨hcontainers, ?_, ?_, hsignalled⟩
      · intro st hst
        rcases List.mem_append.mp hst with hst | hst
        · exact hstates st hst
        · obtain ⟨-, last, hlast, hid, hname⟩ := hadded st hst
          rw [hid, hname]
          exact hstates last (List.mem_of_getLast? hlast)
      · intro p hp
        obtain ⟨st, hst, hX⟩ := hrecorded p hp
        exact ⟨st, List.mem_append_left _ hst, hX⟩
    exact ⟨hkept, hknown, (fun _ hX => nomatch hX), hproper, fun _ => rfl, fun _ ht => nomatch ht⟩
  | resume r answers =>
    have honward := resume_onward h
    have hupheld : (conductContract halts w.operation).Upheld w' := by
      refine hw.upheld.resume (P := fun _ _ _ => True) ?_ Conduct.Rely.refl
        (fun _ _ => calls_of_forall fun _ _ _ => trivial) ?_ ?_ ?_ h
      · intro n v s c K hs _ hK
        obtain ⟨t, ht, -, hKt⟩ := conduct_call n v s c K hs hK
        exact ⟨t, ht, hKt⟩
      · intro s a k x _ hs hx K hK
        exact ⟨s.after a x, conduct_answer hs hK.2.2.1 hx, hK.2.2.2 x s (.refl s)⟩
      · intro s work htask hs _
        have hempty : w.process = none := hw.idle (by simp [htask])
        exact hs.process.symm.trans hempty
      · exact fun s pid hs => hs.later (aside_kill w pid).subprocesses
    obtain ⟨task, htask⟩ := honward.task
    rw [← honward.operation] at hupheld
    obtain ⟨s, hs, hmet⟩ := hupheld task htask
    refine ⟨hkept, hknown, ?_, hs.proper, ?_, hupheld⟩
    · intro X hX
      rw [honward.canceller] at hX
      exact honward.operation.trans (hw.held X hX)
    · intro hidle
      cases task with
      | finished r => exact hs.process.trans hmet
      | suspended a k => exact absurd htask (hidle a k)
      | created work =>
        have hbegun := begun_resume h
        unfold World.begun at hbegun
        rw [htask] at hbegun
        cases hbegun
  | _ => exact absurd rfl he

theorem conducting_fresh (halts : Prop) : Conducting halts .fresh where
  kept := kept_fresh True
  known _ hX := by rcases hX with hX | hX <;> cases hX
  held _ hX := nomatch hX
  proper := ⟨(fun _ hp => nomatch hp), (fun _ hst => nomatch hst), (fun _ hp => nomatch hp),
    fun _ _ hp => nomatch hp⟩
  idle _ := rfl
  upheld _ ht := nomatch ht

/-! ## The work of a cancelled operation -/

/-- The subprocesses of `X` are among the first `count`. -/
def World.Within (w : World) (X : Text) (count : ℕ) : Prop :=
  ∀ pid p, w.subprocesses[pid]? = some p → p.operation = X → pid < count

theorem World.Within.later {w w' : World} {X : Text} {count : ℕ} (h : w.Within X count)
    (hlater : LaterAll w.subprocesses w'.subprocesses) : w'.Within X count := by
  intro pid q hq hX
  obtain ⟨p, hp, hpq⟩ := hlater.getElem? hq
  exact h pid p hp (hpq.operation ▸ hX)

/-- The task starts no subprocess of an operation that was cancelled. -/
theorem within_resume {w w' : World} {r : Resumption} {answers : Answers} {X : Text} {count : ℕ}
    (hw : Conducting True w) (hX : X ∈ w.accepted) (hwithin : w.Within X count)
    (h : w.resume r answers = some w') : w'.Within X count := by
  let own : World → Conduct → Prop := fun v s =>
    Conduct.Holds True w.operation v s ∧ X ∈ v.accepted ∧ v.Within X count
  let contract : Contract Conduct :=
    { conductContract True w.operation with
      holds := own
      frame := fun _ _ _ h => ⟨(conductContract True w.operation).frame _ _ _ h.1, h.2⟩ }
  have hupheld : contract.Upheld w :=
    hw.upheld.mono (fun _ _ _ h => ⟨(conductContract True w.operation).frame _ _ _ h.1, h.2⟩)
      fun s hs => ⟨hs, hX, hwithin⟩
  have hafter : contract.Upheld w' := by
    refine hupheld.resume (P := fun _ _ _ => True) ?_ Conduct.Rely.refl
      (fun _ _ => calls_of_forall fun _ _ _ => trivial) ?_ ?_ ?_ h
    · intro n v s c K hs _ hK
      obtain ⟨hholds, hvX, hvwithin⟩ := hs
      obtain ⟨t, ht, -, hKt⟩ := conduct_call n v s c K hholds hK
      obtain ⟨_, _, _, heq⟩ := perform_eq answers n v c
      refine ⟨t, ⟨ht, by rw [heq]; exact hvX, ?_⟩, hKt⟩
      rcases perform_subprocesses answers n v c with hlater | ⟨command, environment, p, rfl, hps, hp⟩
      · exact hvwithin.later hlater
      · -- the contract allows a start only when the operation is another one
        intro pid q hq hqX
        rw [hps] at hq
        rcases Nat.lt_or_ge pid v.subprocesses.length with hlt | hge
        · rw [List.getElem?_append_left hlt] at hq
          exact hvwithin pid q hq hqX
        · have hqp : q = p := by
            rw [List.getElem?_append_right hge] at hq
            exact List.mem_singleton.mp (List.mem_of_getElem? hq)
          rw [hqp, hp, hholds.operation] at hqX
          have haccepted : s.demand = .accepted :=
            hholds.demand.trans (demand_eq_accepted.mpr (hqX ▸ hvX))
          exact absurd haccepted (hK.2.2.1 trivial)
    · intro s a k x _ hs hx K hK
      exact ⟨s.after a x, ⟨conduct_answer hs.1 hK.2.2.1 hx, hs.2⟩, hK.2.2.2 x s (.refl s)⟩
    · intro s work htask hs _
      have hempty : w.process = none := hw.idle (by simp [htask])
      exact hs.1.process.symm.trans hempty
    · intro s pid hs
      have hlater := (aside_kill w pid).subprocesses
      exact ⟨hs.1.later hlater, hs.2.1, hs.2.2.later hlater⟩
  obtain ⟨task, htask⟩ := (resume_onward h).task
  obtain ⟨s, hs, -⟩ := hafter task htask
  exact hs.2.2

/-- What every step keeps, once `X` was cancelled. -/
theorem within_step {settings : Settings} {w w' : World} {e : Event} {X : Text} {count : ℕ}
    (hw : Conducting True w) (hX : X ∈ w.accepted) (hwithin : w.Within X count)
    (h : step settings w e = some w') : X ∈ w'.accepted ∧ w'.Within X count := by
  constructor
  · cases hreturns : e.returns w with
    | none => exact step_returns_none hreturns h ▸ hX
    | some Y =>
      rw [(step_returns hreturns h).1]
      exact List.mem_cons_of_mem Y hX
  · by_cases he : e.aside = true
    · exact hwithin.later (step_aside he h).subprocesses
    cases e with
    | start request hex time =>
      rcases step_start h with rfl | ⟨state, work, -, hstart, -, -⟩
      · exact hwithin
      · obtain ⟨-, rfl⟩ := start_ok hstart
        exact hwithin
    | restart =>
      cases h
      obtain ⟨added, heq, -⟩ := restart_eq w
      rw [heq]
      exact hwithin
    | resume r answers => exact within_resume hw hX hwithin h
    | _ => exact absurd rfl he

/-- **Accepted cancellation stops the work.**  In every run whose `cancel`s miss nothing: once `cancel` has
returned for `X`, every subprocess of `X` that is alive is signalled, and no further one is started. -/
theorem cancel_stops_work {settings : Settings} {before after : List Event} {w v : World} {X : Text}
    (hrun : Transition.run (step settings) .fresh before = some w) (hX : X ∈ w.accepted)
    (hafter : Transition.run (step settings) w after = some v)
    (hnoticed : Transition.Meets (step settings) (fun u e => e.Noticed u) .fresh (before ++ after)) :
    (∀ p ∈ w.subprocesses, p.operation = X → p.alive = true → p.signalled = true) ∧
    ∀ pid p, v.subprocesses[pid]? = some p → p.operation = X → pid < w.subprocesses.length := by
  obtain ⟨hbefore, hrest⟩ := hnoticed.append hrun
  have hw : Conducting True w := Transition.run_invariant_of_meets
    (fun u e u' hu he h => conducting_step hu (fun _ => he) h) (conducting_fresh True) hbefore hrun
  refine ⟨fun p hp hpX halive => hw.proper.signalled trivial p hp (hpX ▸ hX) halive, ?_⟩
  have hwithin : w.Within X w.subprocesses.length :=
    fun pid p hp _ => (List.getElem?_eq_some_iff.mp hp).1
  have hend : Conducting True v ∧ X ∈ v.accepted ∧ v.Within X w.subprocesses.length := by
    refine Transition.run_invariant_of_meets (I := fun u => Conducting True u ∧ X ∈ u.accepted ∧
      u.Within X w.subprocesses.length) ?_ ⟨hw, hX, hwithin⟩ hrest hafter
    intro u e u' hu he h
    exact ⟨conducting_step hu.1 (fun _ => he) h, within_step hu.1 hu.2.1 hu.2.2 h⟩
  exact hend.2.2

theorem cancel_stops_work_sample : ∃ w v,
    Transition.run (step .default) .fresh (sampleCancelledBuild.take 4) = some w ∧
      Transition.run (step .default) w (sampleCancelledBuild.drop 4) = some v ∧
      (∃ p ∈ w.subprocesses, p.operation = sampleId ∧ p.alive = true) ∧
      (∀ p ∈ w.subprocesses, p.operation = sampleId → p.alive = true → p.signalled = true) ∧
      ∀ pid p, v.subprocesses[pid]? = some p → p.operation = sampleId →
        pid < w.subprocesses.length := by
  have hend : (Transition.run (step .default) .fresh (sampleCancelledBuild.take 4)).map (fun w =>
      (decide (∃ p ∈ w.subprocesses, p.operation = sampleId ∧ p.alive = true),
        decide (sampleId ∈ w.accepted))) = some (true, true) := by decide +kernel
  have hsome : (Transition.run (step .default) .fresh sampleCancelledBuild).isSome = true := by
    decide +kernel
  obtain ⟨w, hw, hend⟩ := Option.map_eq_some_iff.mp hend
  obtain ⟨halive, haccepted⟩ := Prod.mk.inj hend
  obtain ⟨v, hv⟩ := Option.isSome_iff_exists.mp hsome
  rw [← List.take_append_drop 4 sampleCancelledBuild] at hv
  obtain ⟨w', hw', hrest⟩ := Transition.run_append hv
  rw [hw] at hw'
  cases hw'
  exact ⟨w, v, hw, hrest, of_decide_eq_true halive,
    cancel_stops_work hw (of_decide_eq_true haccepted) hrest (by decide +kernel)⟩

/-- **A cancelled build begins.**  `cancel` returns before the task has begun, and the task starts its
subprocess.  When the task has just started it and `run` has not stored it, it is not signalled either. -/
theorem cancelled_build_begins :
    (∃ before after w v, Transition.run (step .default) .fresh before = some w ∧ sampleId ∈ w.accepted ∧
      Transition.run (step .default) w after = some v ∧
      ∃ pid p, v.subprocesses[pid]? = some p ∧ p.operation = sampleId ∧ w.subprocesses.length ≤ pid ∧
        p.alive = true ∧ p.signalled = false) ∧
    ∃ events w, Transition.run (step .default) .fresh events = some w ∧ sampleId ∈ w.accepted ∧
      ∃ p ∈ w.subprocesses, p.operation = sampleId ∧ p.alive = true ∧ p.signalled = false := by
  constructor
  · let before : List Event := [.start (.build "main") (sampleHex 'a') 0, .cancel (.ok ())]
    let after : List Event := [.resume .begin .plain]
    have haccepted : (Transition.run (step .default) .fresh before).map (fun w =>
        (decide (sampleId ∈ w.accepted), w.subprocesses.length)) = some (true, 0) := by decide +kernel
    have hstarted : (Transition.run (step .default) .fresh (before ++ after)).bind (fun v =>
        v.subprocesses[0]?.map fun p => (decide (p.operation = sampleId), p.alive, p.signalled))
        = some (true, true, false) := by decide +kernel
    obtain ⟨w, hw, haccepted⟩ := Option.map_eq_some_iff.mp haccepted
    obtain ⟨haccepted, hlength⟩ := Prod.mk.inj haccepted
    obtain ⟨v, hv, hstarted⟩ := Option.bind_eq_some_iff.mp hstarted
    obtain ⟨p, hp, hstarted⟩ := Option.map_eq_some_iff.mp hstarted
    obtain ⟨hX, hstarted⟩ := Prod.mk.inj hstarted
    obtain ⟨halive, hsignalled⟩ := Prod.mk.inj hstarted
    obtain ⟨w', hw', hafter⟩ := Transition.run_append hv
    rw [hw] at hw'
    cases hw'
    exact ⟨before, after, w, v, hw, of_decide_eq_true haccepted, hafter, 0, p, hp, of_decide_eq_true hX,
      hlength.le, halive, hsignalled⟩
  · let events : List Event :=
      [.start (.build "main") (sampleHex 'a') 0, .resume .begin .plain, .cancel (.ok ())]
    have hend : (Transition.run (step .default) .fresh events).map (fun w =>
        (decide (sampleId ∈ w.accepted), decide (∃ p ∈ w.subprocesses,
          p.operation = sampleId ∧ p.alive = true ∧ p.signalled = false))) = some (true, true) := by
      decide +kernel
    obtain ⟨w, hw, hend⟩ := Option.map_eq_some_iff.mp hend
    obtain ⟨haccepted, hend⟩ := Prod.mk.inj hend
    exact ⟨events, w, hw, of_decide_eq_true haccepted, of_decide_eq_true hend⟩

/-! ## The operation that a `cancel` concerns -/

/-- A `cancel` of the run has read the state of operation `X`. -/
def CancelRead (settings : Settings) (X : Text) (events : List Event) : Prop :=
  ∃ before launch after v state, events = before ++ .cancel launch :: after ∧
    Transition.run (step settings) .fresh before = some v ∧ v.cancellable = some state ∧
    state.operationId = X

theorem CancelRead.concat {settings : Settings} {X : Text} {events : List Event}
    (h : CancelRead settings X events) (e : Event) : CancelRead settings X (events ++ [e]) := by
  obtain ⟨before, launch, after, v, state, rfl, hv, hstate, hX⟩ := h
  exact ⟨before, launch, after ++ [e], v, state, by simp, hv, hstate, hX⟩

/-- Beside the task, only `cancel` sets the flag. -/
theorem requested_aside {settings : Settings} {w w' : World} {e : Event} (he : e.aside = true)
    (h : step settings w e = some w') (hrequested : w'.cancelRequested = true) :
    w.cancelRequested = true ∨ ∃ launch state, e = .cancel launch ∧ w.cancellable = some state := by
  cases hcancel : e.ofCancel with
  | false =>
    obtain ⟨-, -, hsame⟩ := step_uncancelled he hcancel h
    exact .inl (hsame ▸ hrequested)
  | true =>
    cases e with
    | cancel launch =>
      obtain ⟨-, ⟨-, rfl⟩ | ⟨state, hstate, -⟩⟩ := step_cancel h
      · exact .inl hrequested
      · exact .inr ⟨launch, state, rfl, hstate⟩
    | cancelStopped =>
      obtain ⟨X, -, rfl⟩ := step_cancelStopped h
      obtain ⟨ps, hps⟩ := terminateProcess_eq w
      rw [hps] at hrequested
      exact .inl hrequested
    | _ => cases hcancel

theorem conducting_of_run {settings : Settings} {events : List Event} {w : World}
    (hrun : Transition.run (step settings) .fresh events = some w) : Conducting False w :=
  Transition.run_invariant (fun _ _ _ hv h => conducting_step hv (fun hf => hf.elim) h)
    (conducting_fresh False) hrun

/-- The flag, and every recorded `CANCELLED`, comes from a `cancel` that has read the operation. -/
structure Attributed (settings : Settings) (events : List Event) (w : World) : Prop where
  flag : w.cancelRequested = true → CancelRead settings w.operation events
  recorded : ∀ st ∈ w.history, st.status = .cancelled → CancelRead settings st.operationId events

theorem attributed_step {settings : Settings} {events : List Event} {w w' : World} {e : Event}
    (hrun : Transition.run (step settings) .fresh events = some w) (hw : Attributed settings events w)
    (h : step settings w e = some w') : Attributed settings (events ++ [e]) w' := by
  have hconduct := conducting_of_run hrun
  have hold : ∀ st ∈ w.history, st.status = .cancelled →
      CancelRead settings st.operationId (events ++ [e]) :=
    fun st hst hcancelled => (hw.recorded st hst hcancelled).concat e
  by_cases he : e.aside = true
  · have hside := step_aside he h
    refine ⟨?_, hside.history ▸ hold⟩
    intro hrequested
    rw [hside.operation]
    rcases requested_aside he h hrequested with hrequested | ⟨launch, state, rfl, hstate⟩
    · exact (hw.flag hrequested).concat e
    · exact ⟨events, launch, [], w, state, rfl, hrun, hstate, (cancellable_spec hconduct.kept hstate).1⟩
  cases e with
  | start request hex time =>
    rcases step_start h with rfl | ⟨state, work, hprepare, hstart, -, -⟩
    · exact ⟨fun hrequested => (hw.flag hrequested).concat _, hold⟩
    · obtain ⟨-, rfl⟩ := start_ok hstart
      obtain ⟨-, hstatus, -, -⟩ := prepare_ok hprepare
      refine ⟨(fun hrequested => nomatch hrequested), ?_⟩
      intro st hst hcancelled
      rcases List.mem_append.mp hst with hst | hst
      · exact hold st hst hcancelled
      · rw [List.mem_singleton.mp hst] at hcancelled
        rw [hcancelled] at hstatus
        cases hstatus
  | restart =>
    cases h
    obtain ⟨added, heq, hadded⟩ := restart_eq w
    rw [heq]
    refine ⟨(fun hrequested => nomatch hrequested), ?_⟩
    intro st hst hcancelled
    rcases List.mem_append.mp hst with hst | hst
    · exact hold st hst hcancelled
    · rw [(hadded st hst).1] at hcancelled
      cases hcancelled
  | resume r answers =>
    have honward := resume_onward h
    refine ⟨?_, ?_⟩
    · intro hrequested
      rw [honward.requested] at hrequested
      rw [honward.operation]
      exact (hw.flag hrequested).concat _
    · intro st hst hcancelled
      by_cases hop : st.operationId = w.operation
      · -- the task writes `CANCELLED` only when it finds the flag set
        have hconduct' := conducting_step hconduct (fun hf => hf.elim) h
        obtain ⟨task, htask⟩ := honward.task
        obtain ⟨s, hs, -⟩ := hconduct'.upheld task htask
        have hrequested := hs.flagged st hst (hop.trans honward.operation.symm) hcancelled
        rw [honward.requested] at hrequested
        rw [hop]
        exact (hw.flag hrequested).concat _
      · exact hold st (resume_other hconduct.kept h hst hop) hcancelled
  | _ => exact absurd rfl he

theorem attributed_of_run {settings : Settings} {events : List Event} {w : World}
    (hrun : Transition.run (step settings) .fresh events = some w) : Attributed settings events w := by
  refine Transition.run_trace_invariant (fun _ _ _ _ => attributed_step) ⟨?_, ?_⟩ hrun
  · exact fun hrequested => nomatch hrequested
  · exact fun _ hst => nomatch hst

/-- `terminate` changes no subprocess but the one in the slot. -/
theorem terminateProcess_others {w : World} {pid : ℕ} {p : Subprocess}
    (hp : w.subprocesses[pid]? = some p) (hchanged : w.terminateProcess.subprocesses[pid]? ≠ some p) :
    w.process = some pid := by
  unfold World.terminateProcess at hchanged
  cases hprocess : w.process with
  | none =>
    rw [hprocess] at hchanged
    exact absurd hp hchanged
  | some slot =>
    by_cases hpid : slot = pid
    · rw [hpid]
    · rw [hprocess] at hchanged
      refine absurd ?_ hchanged
      show (w.subprocesses.modify slot _)[pid]? = some p
      rw [List.getElem?_modify_ne _ _ hpid]
      exact hp

/-- `docker stop` changes no subprocess but those of the container. -/
theorem stopContainer_others {w : World} {container : Text} {pid : ℕ} {p : Subprocess}
    (hp : w.subprocesses[pid]? = some p)
    (hchanged : (w.stopContainer container).subprocesses[pid]? ≠ some p) :
    p.container = some container := by
  by_contra hcontainer
  refine hchanged ?_
  unfold World.stopContainer
  rw [List.getElem?_map, hp, Option.map_some, if_neg fun h => hcontainer h.1]

/-- **Cancelling one operation never touches another.**  In every state that a run reaches: what the
`cancel` of `X` stops and terminates, at once or after its `docker stop`, belongs to `X`; and the flag,
like every recorded `CANCELLED`, comes from a `cancel` that has read the state of the operation itself. -/
theorem cancel_touches_own {settings : Settings} {events : List Event} {w : World}
    (hrun : Transition.run (step settings) .fresh events = some w) :
    (∀ launch state w', w.cancellable = some state → step settings w (.cancel launch) = some w' →
      (∀ container, state.containerName = some container →
        ∀ p ∈ w.subprocesses, p.container = some container → p.operation = state.operationId) ∧
      (∀ (pid : ℕ) (p : Subprocess), w.subprocesses[pid]? = some p → w'.subprocesses[pid]? ≠ some p →
        p.operation = state.operationId) ∧
      ∀ X, w'.canceller = some X → X = state.operationId) ∧
    (∀ X w', w.canceller = some X → step settings w .cancelStopped = some w' →
      ∀ (pid : ℕ) (p : Subprocess), w.subprocesses[pid]? = some p → w'.subprocesses[pid]? ≠ some p →
        p.operation = X) ∧
    (w.cancelRequested = true → CancelRead settings w.operation events) ∧
    ∀ st ∈ w.history, st.status = .cancelled → CancelRead settings st.operationId events := by
  have hw := conducting_of_run hrun
  have hattributed := attributed_of_run hrun
  have hterminated : ∀ (pid : ℕ) (p : Subprocess), w.subprocesses[pid]? = some p →
      w.terminateProcess.subprocesses[pid]? ≠ some p → p.operation = w.operation := by
    intro pid p hp hchanged
    obtain ⟨q, hq, hX⟩ := hw.slot (terminateProcess_others hp hchanged)
    rw [hp] at hq
    cases hq
    exact hX
  refine ⟨?_, ?_, hattributed.flag, hattributed.recorded⟩
  · intro launch state w' hstate h
    obtain ⟨hcurrent, -, -⟩ := cancellable_cases hstate
    have hid : state.operationId = w.operation := (cancellable_spec hw.kept hstate).1
    have hcontainer : ∀ container, state.containerName = some container →
        ∀ p ∈ w.subprocesses, p.container = some container → p.operation = state.operationId := by
      intro container hname p hp hpname
      have hstates := hw.proper.states state (List.mem_of_getLast? hcurrent)
      have hcontainers := hw.proper.containers p hp
      rw [hname] at hstates
      rw [hpname] at hcontainers
      exact hcontainers.eq hstates
    obtain ⟨hfree, ⟨hnone, -⟩ | ⟨state', hstate', hcases⟩⟩ := step_cancel h
    · rw [hstate] at hnone
      cases hnone
    rw [hstate] at hstate'
    cases hstate'
    refine ⟨hcontainer, ?_, ?_⟩
    · intro pid p hp hchanged
      rcases hcases with ⟨-, rfl⟩ | ⟨container, hname, rfl | rfl⟩
      · exact (hterminated pid p hp hchanged).trans hid.symm
      · exact absurd hp hchanged
      · exact hcontainer container hname p (List.mem_of_getElem? hp) (stopContainer_others hp hchanged)
    · intro X hX
      obtain ⟨ps, hps⟩ := terminateProcess_eq w
      rcases hcases with ⟨-, rfl⟩ | ⟨container, hname, rfl | rfl⟩
      · rw [hps] at hX
        rw [hfree] at hX
        cases hX
      · rw [hfree] at hX
        cases hX
      · exact (Option.some.inj hX).symm
  · intro X w' hX h pid p hp hchanged
    obtain ⟨Y, hY, rfl⟩ := step_cancelStopped h
    exact (hterminated pid p hp hchanged).trans (hw.held X hX)

theorem cancel_touches_own_sample : ∃ w,
    Transition.run (step .default) .fresh sampleCancelledBuild = some w ∧
      (∃ st ∈ w.history, st.status = .cancelled) ∧
      ∀ st ∈ w.history, st.status = .cancelled →
        CancelRead .default st.operationId sampleCancelledBuild := by
  have hend : (Transition.run (step .default) .fresh sampleCancelledBuild).map (fun w =>
      decide (∃ st ∈ w.history, st.status = .cancelled)) = some true := by decide +kernel
  obtain ⟨w, hw, hend⟩ := Option.map_eq_some_iff.mp hend
  exact ⟨w, hw, of_decide_eq_true hend, (cancel_touches_own hw).2.2.2⟩

end HardwareTest.Runner
