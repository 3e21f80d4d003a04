import Mathlib.Data.List.Perm.Basic
import HardwareTest.Runner.EventStream

/-!
# The admission of an operation

A start request prepares its command, first state and coroutine before it asks for the lock, and may wait
there while a cancellation holds it.  Under the lock it looks at the active task first and raises, or
takes over the state and the log.  An `Admission` is the service with the start requests under way: they
prepare, wait and enter in any order, between any events of the service.

* `startLocked` — `_start` under the lock, call by call; `startLocked_eval` — it is `World.start`;
* `Admission.step` — an event of the service, or a start request that is made or gets the lock;
* `rejected_start_invisible` — the service with rejected requests is the service without them.
-/

namespace HardwareTest.Runner

open HardwareTest.Lib HardwareTest.Python

/-! ## `_start` -/

/-- What `_start` does while it holds the lock. -/
inductive AdmissionCall
  | read
  | taskActive
  | closeWork
  | clearCancelRequested
  | resetLog
  | write (state : OperationState)
  | createTask (operationId : Text) (work : Work Unit)

abbrev AdmissionCall.Answer : AdmissionCall → Type
  | .read => Option OperationState
  | .taskActive => Bool
  | .closeWork => Unit
  | .clearCancelRequested => Unit
  | .resetLog => Unit
  | .write _ => Unit
  | .createTask _ _ => Unit

/-- The coordinator and its store answer.  Closing a coroutine that has not begun runs nothing of it. -/
def AdmissionCall.handle : (c : AdmissionCall) → World → c.Answer × World
  | .read, w => (w.current, w)
  | .taskActive, w => (w.busy, w)
  | .closeWork, w => ((), w)
  | .clearCancelRequested, w => ((), { w with cancelRequested := false })
  | .resetLog, w => ((), { w with log := [] })
  | .write state, w => ((), { w with history := w.history ++ [state] })
  | .createTask operationId work, w =>
    ((), { w with
      operation := operationId
      task := some (.created work)
      cancelling := false
      captured := []
      aborting := none })

/-- `_start` under the lock. -/
def startLocked (state : OperationState) (work : Work Unit) :
    Program AdmissionCall AdmissionCall.Answer StartError Unit :=
  .call .read fun current =>
  .call .taskActive fun active =>
    if active then
      .call .closeWork fun _ =>
        match current with
        | none => .throw (.runtimeError "active task has no state")
        | some current => .throw (.runnerBusy current)
    else
      .call .clearCancelRequested fun _ =>
      .call .resetLog fun _ =>
      .call (.write state) fun _ =>
      .call (.createTask state.operationId work) .pure

/-- Nothing is changed before the active task is known. -/
theorem startLocked_eval (state : OperationState) (work : Work Unit) (w : World) :
    (startLocked state work).eval AdmissionCall.handle w = match w.start state work with
      | .ok w' => (.ok (), w')
      | .error e => (.error e, w) := by
  unfold startLocked World.start
  rw [Program.eval_call, Program.eval_call]
  show Program.eval _ (if w.busy = true then _ else _) w = _
  by_cases hbusy : w.busy = true
  · rw [if_pos hbusy, if_pos hbusy, Program.eval_call]
    cases hcurrent : w.current with
    | none =>
      rw [AdmissionCall.handle, hcurrent]
      rfl
    | some current =>
      rw [AdmissionCall.handle, hcurrent]
      rfl
  · rw [if_neg hbusy, if_neg hbusy]
    rfl

/-! ## The requests under way -/

/-- A start request that has prepared its operation and waits for the lock. -/
structure StartCall (settings : Settings) where
  request : Request
  hex : OperationHex
  time : ℕ
  state : OperationState
  work : Work Unit
  prepared : request.prepare settings hex time = .ok (state, work)

theorem StartCall.operationId_eq {settings : Settings} (c : StartCall settings) :
    c.state.operationId = c.request.newId c.hex := (prepare_ok c.prepared).1

/-- The identifier that was drawn for a request, and what the request raised. -/
structure Rejection where
  operationId : Text
  error : StartError

/-- The service and the start requests: the identifiers drawn so far, the requests that wait, those that
were rejected, and the events that the service itself has taken. -/
structure Admission (settings : Settings) where
  world : World
  drawn : List Text
  waiting : List (StartCall settings)
  rejected : List Rejection
  served : List Event

namespace Admission

variable {settings : Settings}

def fresh (settings : Settings) : Admission settings := ⟨.fresh, [], [], [], []⟩

/-- A start request up to the lock. -/
def call (s : Admission settings) (request : Request) (hex : OperationHex) (time : ℕ) :
    Admission settings :=
  let s := { s with drawn := request.newId hex :: s.drawn }
  match hprepare : request.prepare settings hex time with
  | .error e => { s with rejected := s.rejected ++ [⟨request.newId hex, e⟩] }
  | .ok (state, work) => { s with waiting := s.waiting ++ [⟨request, hex, time, state, work, hprepare⟩] }

/-- The request at place `i` gets the lock. -/
def enter (s : Admission settings) (i : ℕ) (c : StartCall settings) : Admission settings :=
  let s := { s with waiting := s.waiting.eraseIdx i }
  match (startLocked c.state c.work).eval AdmissionCall.handle s.world with
  | (.ok (), w) => { s with world := w, served := s.served ++ [.start c.request c.hex c.time] }
  | (.error e, w) => { s with world := w, rejected := s.rejected ++ [⟨c.state.operationId, e⟩] }

end Admission

/-- A request is made, a waiting request gets the lock, or the service takes a step of its own. -/
inductive AdmissionEvent
  | call (request : Request) (hex : OperationHex) (time : ℕ)
  | enter (i : ℕ)
  | service (e : Event)

/-- One event, when it can happen. -/
def Admission.step {settings : Settings} (s : Admission settings) :
    AdmissionEvent → Option (Admission settings)
  | .call request hex time =>
    -- identifiers are never drawn twice
    if request.newId hex ∈ s.drawn then none else some (s.call request hex time)
  | .enter i =>
    -- a cancellation that waits for `docker stop` holds the lock
    if s.world.canceller ≠ none then none else s.waiting[i]?.map (s.enter i)
  | .service (.start _ _ _) => none
  | .service .restart =>
    -- the requests of the old process are gone
    some { s with world := s.world.restart, waiting := [], served := s.served ++ [.restart] }
  | .service e =>
    (Runner.step settings s.world e).map fun w => { s with world := w, served := s.served ++ [e] }

/-! ## What belongs to an operation -/

/-- Nothing in the service belongs to the operation. -/
structure World.Untouched (w : World) (X : Text) : Prop where
  operation : w.operation ≠ X
  history : ∀ st ∈ w.history, st.operationId ≠ X
  subprocesses : ∀ p ∈ w.subprocesses, p.operation ≠ X

/-- What a task starts belongs to its operation. -/
theorem advance_untouched {answers : Answers} {n : ℕ} {work : Work Unit} {w : World} {X : Text}
    (hw : w.operation ≠ X) (hps : ∀ p ∈ w.subprocesses, p.operation ≠ X) :
    ∀ p ∈ (advance answers n work w).subprocesses, p.operation ≠ X := by
  induction work generalizing n w with
  | pure a => exact hps
  | throw e => exact hps
  | call op k ih =>
    cases op with
    | await a => exact hps
    | call op =>
      obtain ⟨history, ps, process, heq⟩ := perform_eq answers n w op
      refine ih _ (by rw [heq]; exact hw) ?_
      rcases perform_subprocesses answers n w op with hlater | ⟨command, environment, q, -, hps', hq⟩
      · intro p hp
        obtain ⟨q, hq, hlater⟩ := hlater.mem hp
        rw [hlater.operation]
        exact hps q hq
      · intro p hp
        rw [hps'] at hp
        rcases List.mem_append.mp hp with hp | hp
        · exact hps p hp
        · rw [List.mem_singleton.mp hp, hq]
          exact hw

/-- **Only its own start touches an operation.** -/
theorem untouched_step {settings : Settings} {w w' : World} {e : Event} {X : Text} (hX : X ≠ [])
    (hkept : Kept True w) (hw : w.Untouched X)
    (he : ∀ request hex time, e = .start request hex time → request.newId hex ≠ X)
    (h : Runner.step settings w e = some w') : w'.Untouched X := by
  by_cases haside : e.aside = true
  · have hside := step_aside haside h
    refine ⟨hside.operation ▸ hw.operation, hside.history ▸ hw.history, fun p hp => ?_⟩
    obtain ⟨q, hq, hlater⟩ := hside.subprocesses.mem hp
    rw [hlater.operation]
    exact hw.subprocesses q hq
  cases e with
  | start request hex time =>
    rcases step_start h with rfl | ⟨state, work, hprepare, hstart, -, -⟩
    · exact hw
    · obtain ⟨-, rfl⟩ := start_ok hstart
      have hid : state.operationId ≠ X := (prepare_ok hprepare).1 ▸ he request hex time rfl
      refine ⟨hid, fun st hst => ?_, hw.subprocesses⟩
      rcases List.mem_append.mp hst with hst | hst
      · exact hw.history st hst
      · exact List.mem_singleton.mp hst ▸ hid
  | restart =>
    cases h
    unfold World.restart World.markInterrupted
    split
    · exact ⟨hX.symm, hw.history, hw.subprocesses⟩
    · rename_i state hstate
      split
      · exact ⟨hX.symm, hw.history, hw.subprocesses⟩
      · refine ⟨hX.symm, fun st hst => ?_, hw.subprocesses⟩
        rcases List.mem_append.mp hst with hst | hst
        · exact hw.history st hst
        · rw [List.mem_singleton.mp hst]
          exact hw.history state (List.mem_of_getLast? hstate)
  | resume r answers =>
    refine ⟨(resume_onward h).operation ▸ hw.operation, fun st hst hid => ?_, ?_⟩
    · have hother : st.operationId ≠ w.operation := fun heq => hw.operation (heq ▸ hid)
      exact hw.history st (resume_other hkept h hst hother) hid
    · obtain ⟨-, ⟨work, -, rfl⟩ | ⟨work, -, -, rfl⟩ | ⟨pid, k, cause, -, -, -, rfl⟩⟩ := resume_cases h
      · exact advance_untouched hw.operation hw.subprocesses
      · exact hw.subprocesses
      · intro p hp
        obtain ⟨q, hq, hlater⟩ := (aside_kill w pid).subprocesses.mem hp
        rw [hlater.operation]
        exact hw.subprocesses q hq
  | _ => exact absurd rfl haside

/-! ## What every step keeps -/

namespace Admission

variable {settings : Settings} {s s' : Admission settings} {X : Text}

/-- The operations that were prepared and have not begun. -/
def pending (s : Admission settings) : List Text :=
  s.waiting.map (fun c => c.state.operationId) ++ s.rejected.map Rejection.operationId

/-- The service has not been asked to begin the operation, and nothing in it belongs to it. -/
structure Spared (s : Admission settings) (X : Text) : Prop where
  untouched : s.world.Untouched X
  unasked : ∀ request hex time, .start request hex time ∈ s.served → request.newId hex ≠ X

/-- The service is the one of its own events, and it has spared every operation that has not begun. -/
structure Sound (s : Admission settings) : Prop where
  run : Transition.run (Runner.step settings) .fresh s.served = some s.world
  named : [] ∉ s.drawn
  drawn : ∀ X ∈ s.pending, X ∈ s.drawn
  nodup : s.pending.Nodup
  spared : ∀ X, X ≠ [] → X ∉ s.drawn ∨ X ∈ s.pending → s.Spared X

theorem Sound.kept (hs : s.Sound) : Kept True s.world :=
  Transition.run_invariant (fun _ _ _ hw h => kept_step hw (.inl trivial) h) (kept_fresh True) hs.run

theorem newId_ne_nil (request : Request) (hex : OperationHex) : request.newId hex ≠ [] := by
  have hdigits : hex.digits ≠ [] := List.ne_nil_of_length_pos (by rw [hex.length_eq]; decide)
  cases request <;> exact List.append_ne_nil_of_right_ne_nil _ hdigits

theorem sound_fresh : (fresh settings).Sound where
  run := rfl
  named := List.not_mem_nil
  drawn _ hX := absurd hX List.not_mem_nil
  nodup := List.nodup_nil
  spared _ hX _ :=
    ⟨⟨hX.symm, fun _ h => absurd h List.not_mem_nil, fun _ h => absurd h List.not_mem_nil⟩,
      fun _ _ _ h => absurd h List.not_mem_nil⟩

/-- A request that is made only draws its identifier. -/
theorem call_spec (s : Admission settings) (request : Request) (hex : OperationHex) (time : ℕ) :
    (s.call request hex time).world = s.world ∧ (s.call request hex time).served = s.served ∧
      (s.call request hex time).drawn = request.newId hex :: s.drawn ∧
      (s.call request hex time).pending.Perm (request.newId hex :: s.pending) := by
  unfold call
  dsimp only
  split
  · refine ⟨rfl, rfl, rfl, ?_⟩
    simp only [pending, List.map_append, List.map_cons, List.map_nil, ← List.append_assoc]
    exact List.perm_append_singleton _ _
  · rename_i state work hprepare
    refine ⟨rfl, rfl, rfl, ?_⟩
    simp only [pending, List.map_append, List.map_cons, List.map_nil, (prepare_ok hprepare).1,
      List.append_assoc]
    exact List.perm_middle

theorem prepare_error {request : Request} {hex : OperationHex} {time : ℕ} {e : StartError}
    (h : request.prepare settings hex time = .error e) :
    ∃ message, e = .invalidImageReference message := by
  cases request with
  | build revision => cases h
  | pull reference =>
    simp only [Request.prepare] at h
    split at h
    · cases h
      exact ⟨_, rfl⟩
    · cases h
  | run image stand scenario =>
    simp only [Request.prepare] at h
    split at h
    · cases h
      exact ⟨_, rfl⟩
    · cases h

/-- A request that cannot be prepared is rejected at once. -/
theorem call_rejected (s : Admission settings) (request : Request) (hex : OperationHex) (time : ℕ) :
    (s.call request hex time).rejected = match request.prepare settings hex time with
      | .error e => s.rejected ++ [⟨request.newId hex, e⟩]
      | .ok _ => s.rejected := by
  unfold call
  dsimp only
  split
  · rename_i e hprepare
    rw [hprepare]
  · rename_i state work hprepare
    show s.rejected = _
    rw [hprepare]

/-- A request that gets the lock begins its operation, or is rejected with the service as it was. -/
theorem enter_spec {i : ℕ} {c : StartCall settings} (hc : s.waiting[i]? = some c) :
    (∃ w, s.world.start c.state c.work = .ok w ∧ (s.enter i c).world = w ∧
        (s.enter i c).served = s.served ++ [.start c.request c.hex c.time] ∧
        (s.enter i c).rejected = s.rejected ∧
        s.pending.Perm (c.state.operationId :: (s.enter i c).pending)) ∨
      ∃ e, s.world.start c.state c.work = .error e ∧ (s.enter i c).world = s.world ∧
        (s.enter i c).served = s.served ∧
        (s.enter i c).rejected = s.rejected ++ [⟨c.state.operationId, e⟩] ∧
        s.pending.Perm (s.enter i c).pending := by
  have hwaiting : (s.waiting.map fun c => c.state.operationId).Perm
      (c.state.operationId :: (s.waiting.eraseIdx i).map fun c => c.state.operationId) := by
    obtain ⟨hi, hget⟩ := List.getElem?_eq_some_iff.mp hc
    have hperm := (List.getElem_cons_eraseIdx_perm hi).symm.map fun c => c.state.operationId
    rwa [hget] at hperm
  unfold enter
  dsimp only
  rw [startLocked_eval]
  cases hstart : s.world.start c.state c.work with
  | ok w => exact .inl ⟨w, rfl, rfl, rfl, rfl, hwaiting.append_right _⟩
  | error e =>
    refine .inr ⟨e, rfl, rfl, rfl, rfl, (hwaiting.append_right _).trans ?_⟩
    simp only [pending, List.map_append, List.map_cons, List.map_nil, List.cons_append, ← List.append_assoc]
    exact (List.perm_append_singleton _ _).symm

theorem enter_drawn (s : Admission settings) (i : ℕ) (c : StartCall settings) :
    (s.enter i c).drawn = s.drawn := by
  unfold enter
  dsimp only
  split <;> rfl

/-- A step of the service alone; only a restart drops the requests that wait. -/
theorem service_spec {e : Event} (h : s.step (.service e) = some s') :
    (∀ request hex time, e ≠ .start request hex time) ∧
      Runner.step settings s.world e = some s'.world ∧ s'.served = s.served ++ [e] ∧
      s'.drawn = s.drawn ∧ s'.rejected = s.rejected ∧ s'.pending.Sublist s.pending := by
  cases e with
  | start request hex time => cases h
  | restart =>
    cases h
    exact ⟨nofun, rfl, rfl, rfl, rfl, List.sublist_append_right _ _⟩
  | _ =>
    simp only [Admission.step] at h
    obtain ⟨w, hw, rfl⟩ := Option.map_eq_some_iff.mp h
    exact ⟨nofun, hw, rfl, rfl, rfl, List.Sublist.refl _⟩

/-- A step of the service keeps what it has spared. -/
theorem Spared.served {w : World} {e : Event} (hX : X ≠ []) (hkept : Kept True s.world) (hs : s.Spared X)
    (he : ∀ request hex time, e = .start request hex time → request.newId hex ≠ X)
    (h : Runner.step settings s.world e = some w) :
    w.Untouched X ∧ ∀ request hex time, .start request hex time ∈ s.served ++ [e] →
      request.newId hex ≠ X := by
  refine ⟨untouched_step hX hkept hs.untouched he h, fun request hex time hmem => ?_⟩
  rcases List.mem_append.mp hmem with hmem | hmem
  · exact hs.unasked request hex time hmem
  · exact he request hex time (List.mem_singleton.mp hmem).symm

/-- The service takes a step of its own, or begins the operation `begun`. -/
theorem Sound.served {e : Event} (begun : List Text) (hs : s.Sound)
    (h : Runner.step settings s.world e = some s'.world) (hserved : s'.served = s.served ++ [e])
    (hdrawn : s'.drawn = s.drawn) (hpending : (begun ++ s'.pending).Subperm s.pending)
    (he : ∀ request hex time, e = .start request hex time → request.newId hex ∈ begun) : s'.Sound := by
  have hsub : ∀ X ∈ s'.pending, X ∈ s.pending := fun X hX =>
    hpending.subset (List.mem_append_right _ hX)
  have hnodup : (begun ++ s'.pending).Nodup := by
    obtain ⟨l, hl, hlsub⟩ := hpending
    exact hl.nodup_iff.mp (hlsub.nodup hs.nodup)
  refine ⟨?_, hdrawn ▸ hs.named, fun X hX => hdrawn ▸ hs.drawn X (hsub X hX),
    (List.nodup_append.mp hnodup).2.1, ?_⟩
  · rw [hserved]
    refine Transition.run_trans hs.run ?_
    show (Runner.step settings s.world e).bind _ = _
    rw [h]
    rfl
  · intro X hX hcase
    have hspared : s.Spared X := hs.spared X hX (hdrawn ▸ hcase.imp_right (hsub X))
    have hother : ∀ request hex time, e = .start request hex time → request.newId hex ≠ X := by
      intro request hex time heq hid
      have hbegun := he request hex time heq
      rw [hid] at hbegun
      rcases hcase with hnew | hmem
      · exact hnew (hdrawn ▸ hs.drawn X (hpending.subset (List.mem_append_left _ hbegun)))
      · exact (List.nodup_append.mp hnodup).2.2 X hbegun X hmem rfl
    obtain ⟨huntouched, hunasked⟩ := hspared.served hX hs.kept hother h
    exact ⟨huntouched, hserved ▸ hunasked⟩

theorem Sound.step {e : AdmissionEvent} (hs : s.Sound) (h : s.step e = some s') : s'.Sound := by
  cases e with
  | call request hex time =>
    simp only [Admission.step] at h
    split_ifs at h with hnew
    cases h
    obtain ⟨hworld, hserved, hdrawn, hperm⟩ := call_spec s request hex time
    refine ⟨hworld ▸ hserved ▸ hs.run, ?_, fun X hX => ?_, ?_, fun X hX hcase => ?_⟩
    · rw [hdrawn, List.mem_cons, not_or]
      exact ⟨(newId_ne_nil request hex).symm, hs.named⟩
    · rw [hdrawn]
      rcases List.mem_cons.mp (hperm.subset hX) with rfl | hX
      · exact List.mem_cons_self
      · exact List.mem_cons_of_mem _ (hs.drawn X hX)
    · rw [hperm.nodup_iff, List.nodup_cons]
      exact ⟨fun hmem => hnew (hs.drawn _ hmem), hs.nodup⟩
    · have hspared : s.Spared X := by
        refine hs.spared X hX ?_
        rcases hcase with hfresh | hmem
        · exact .inl fun hmem => hfresh (hdrawn ▸ List.mem_cons_of_mem _ hmem)
        · rcases List.mem_cons.mp (hperm.subset hmem) with rfl | hmem
          · exact .inl hnew
          · exact .inr hmem
      exact ⟨hworld ▸ hspared.untouched, hserved ▸ hspared.unasked⟩
  | enter i =>
    simp only [Admission.step] at h
    split_ifs at h with hlock
    obtain ⟨c, hc, rfl⟩ := Option.map_eq_some_iff.mp h
    have hdrawn := enter_drawn s i c
    rcases enter_spec hc with ⟨w, hstart, hworld, hserved, -, hperm⟩ | ⟨e, -, hworld, hserved, -, hperm⟩
    · have hmem : c.state.operationId ∈ s.pending := hperm.symm.subset List.mem_cons_self
      have huntouched := (hs.spared _ (c.operationId_eq ▸ newId_ne_nil _ _) (.inr hmem)).untouched
      refine hs.served [c.state.operationId] ?_ hserved hdrawn hperm.symm.subperm ?_
      · rw [hworld]
        exact step_start_ok (of_not_not hlock)
          (fun st hst hid => huntouched.history st hst (hid.trans c.operationId_eq.symm)) c.prepared hstart
      · intro request hex time heq
        cases heq
        exact List.mem_singleton.mpr c.operationId_eq.symm
    · refine ⟨hworld ▸ hserved ▸ hs.run, hdrawn ▸ hs.named, fun X hX => ?_, hperm.nodup_iff.mp hs.nodup,
        fun X hX hcase => ?_⟩
      · rw [hdrawn]
        exact hs.drawn X (hperm.symm.subset hX)
      · have hspared := hs.spared X hX (hcase.imp (fun hfresh => hdrawn ▸ hfresh)
          fun hmem => hperm.symm.subset hmem)
        exact ⟨hworld ▸ hspared.untouched, hserved ▸ hspared.unasked⟩
  | service e =>
    obtain ⟨hstart, hstep, hserved, hdrawn, -, hsub⟩ := service_spec h
    exact hs.served [] hstep hserved hdrawn hsub.subperm fun request hex time heq =>
      absurd heq (hstart request hex time)

/-- The run rule for the requests and the service together. -/
theorem sound_of_run {events : List AdmissionEvent}
    (h : Transition.run Admission.step (fresh settings) events = some s) : s.Sound :=
  Transition.run_invariant (fun _ _ _ hs h => Sound.step hs h) sound_fresh h

/-- A `RunnerBusyError` carries the state of the operation whose task is active. -/
theorem busy_names_active {w : World} (hw : Kept True w) {state : OperationState} {work : Work Unit}
    {e : StartError} (h : w.start state work = .error e) :
    ∃ current, e = .runnerBusy current ∧ w.busy = true ∧ w.current = some current ∧
      current.operationId = w.operation := by
  unfold World.start at h
  split_ifs at h with hbusy
  obtain ⟨task, htask⟩ : ∃ task, w.task = some task := by
    cases htask : w.task with
    | none => simp [World.busy, htask] at hbusy
    | some task => exact ⟨task, rfl⟩
  have hid := currentId_of_task hw htask
  cases hcurrent : w.current with
  | none => simp [World.currentId, hcurrent] at hid
  | some current =>
    rw [hcurrent] at h
    cases h
    rw [World.currentId, hcurrent, Option.map_some] at hid
    exact ⟨current, rfl, hbusy, rfl, Option.some.inj hid⟩

/-- What a step that rejects a request leaves, and what the request raises. -/
theorem Sound.rejects {e : AdmissionEvent} (hs : s.Sound) (h : s.step e = some s')
    (hrejected : s'.rejected ≠ s.rejected) :
    s'.world = s.world ∧ s'.served = s.served ∧ ∃ r, s'.rejected = s.rejected ++ [r] ∧
      ((∃ message, r.error = .invalidImageReference message) ∨
        ∃ current, r.error = .runnerBusy current ∧ s.world.busy = true ∧
          s.world.current = some current ∧ current.operationId = s.world.operation) := by
  cases e with
  | call request hex time =>
    simp only [Admission.step] at h
    split_ifs at h with hnew
    cases h
    obtain ⟨hworld, hserved, -, -⟩ := call_spec s request hex time
    have hcall := call_rejected s request hex time
    refine ⟨hworld, hserved, ?_⟩
    cases hprepare : request.prepare settings hex time with
    | error e =>
      rw [hprepare] at hcall
      exact ⟨_, hcall, .inl (prepare_error hprepare)⟩
    | ok r =>
      rw [hprepare] at hcall
      exact absurd hcall hrejected
  | enter i =>
    simp only [Admission.step] at h
    split_ifs at h with hlock
    obtain ⟨c, hc, rfl⟩ := Option.map_eq_some_iff.mp h
    rcases enter_spec hc with ⟨w, -, -, -, hsame, -⟩ | ⟨e, hstart, hworld, hserved, hmore, -⟩
    · exact absurd hsame hrejected
    · exact ⟨hworld, hserved, _, hmore, .inr (busy_names_active hs.kept hstart)⟩
  | service e => exact absurd (service_spec h).2.2.2.2.1 hrejected

end Admission

/-- **Rejected starts are invisible.**  With any start requests waiting and entering in any order, the
service is the one of the events it has taken itself, none of which begins a rejected operation, and
nothing in it belongs to one.  A request that is rejected leaves the service as it was; it raises for
its image reference, or for the active operation, which the error names. -/
theorem rejected_start_invisible {settings : Settings} {events : List AdmissionEvent}
    {s : Admission settings}
    (hrun : Transition.run Admission.step (Admission.fresh settings) events = some s) :
    Transition.run (step settings) .fresh s.served = some s.world ∧
      (∀ r ∈ s.rejected, s.world.Untouched r.operationId ∧
        ∀ request hex time, .start request hex time ∈ s.served → request.newId hex ≠ r.operationId) ∧
      ∀ e s', s.step e = some s' → s'.rejected ≠ s.rejected →
        s'.world = s.world ∧ s'.served = s.served ∧ ∃ r, s'.rejected = s.rejected ++ [r] ∧
          ((∃ message, r.error = .invalidImageReference message) ∨
            ∃ current, r.error = .runnerBusy current ∧ s.world.busy = true ∧
              s.world.current = some current ∧ current.operationId = s.world.operation) := by
  have hs := Admission.sound_of_run hrun
  refine ⟨hs.run, fun r hr => ?_, fun e s' h hrejected => hs.rejects h hrejected⟩
  have hpending : r.operationId ∈ s.pending := List.mem_append_right _ (List.mem_map_of_mem hr)
  have hne : r.operationId ≠ [] := fun hnil => hs.named (hnil ▸ hs.drawn _ hpending)
  have hspared := hs.spared _ hne (.inr hpending)
  exact ⟨hspared.untouched, hspared.unasked⟩

/-- A run is started; its cancellation waits for `docker stop` while two more starts are made, and the
one with a valid reference gets the lock afterwards. -/
def sampleAdmission : List AdmissionEvent :=
  [.call (.run "sha256:0" "stand" "smoke") hexA 0, .enter 0, .service (.cancel (.ok ())),
    .call (.build "main") hexB 1, .call (.pull "not an image") (sampleHex 'c') 1,
    .service .cancelStopped, .enter 0]

theorem rejected_start_invisible_sample :
    ∃ s, Transition.run Admission.step (Admission.fresh .default) sampleAdmission = some s ∧
      s.rejected.length = 2 ∧ s.world.cancelRequested = true ∧
      ∀ r ∈ s.rejected, s.world.Untouched r.operationId := by
  have hrun : (Transition.run Admission.step (Admission.fresh .default) sampleAdmission).map
      (fun s => (s.rejected.length, s.world.cancelRequested)) = some (2, true) := by decide +kernel
  obtain ⟨s, hs, hpair⟩ := Option.map_eq_some_iff.mp hrun
  obtain ⟨hlength, hrequested⟩ := Prod.mk.inj hpair
  exact ⟨s, hs, hlength, hrequested, fun r hr => ((rejected_start_invisible hs).2.1 r hr).1⟩

end HardwareTest.Runner
