import HardwareTest.Lib.Monitor
import HardwareTest.Transport.Lifecycle

/-!
# Threads that share one transport

`SynchronizedTransport` puts one re-entrant lock around `connect`, `execute` and `close` of a transport, and
`exclusive` keeps it over several of them.  The methods of the transport are those of its lifecycle, one call
after another; the threads are any programs that use the wrapper.

* `connect`, `execute`, `close`, `exclusive` — the methods of the wrapper;
* `synchronized_serial` — every interleaving has the results and the transport of calls that run alone;
* `exclusive_connection_safe` — what a thread that holds the lock can rely on, and that the lock comes back.
-/

namespace HardwareTest.Transport.Synchronized

open HardwareTest.Lib HardwareTest.Lib.Monitor HardwareTest.Python HardwareTest.Transport.Lifecycle

/-! ## The wrapper -/

/-- What the wrapper calls under its lock. -/
inductive Operation
  | connect
  | execute (command : Command)
  | close

def Operation.Result : Operation → Type
  | .connect => Unit
  | .execute _ => CommandResult
  | .close => Unit

def Operation.body (config : Config) (kind : Kind) : (operation : Operation) → Method operation.Result
  | .connect => kind.connect config
  | .execute command => kind.execute command
  | .close => kind.close

/-- The transport that is wrapped. -/
def transport (config : Config) (kind : Kind) :
    Object Op Op.Answer Raised State Environment Operation Operation.Result where
  body := Operation.body config kind
  handle env op s := answer env op s

section Threads

variable {X α : Type}

/-- A program over the wrapped transport; `X` is what its other calls answer. -/
abbrev Use (X α : Type) := Task Raised Operation.Result X α

/-- One call under the lock. -/
def call (operation : Operation) : Use X operation.Result := invoke operation

def connect : Use X Unit := call .connect

def execute (command : Command) : Use X CommandResult := call (.execute command)

def close : Use X Unit := call .close

/-- `with transport.exclusive()`. -/
def exclusive (body : Use X α) : Use X α := Monitor.exclusive body

/-! ## Calls that run alone -/

/-- The call of the lifecycle that an operation is. -/
def Operation.event (env : Environment) : Operation → Event
  | .connect => .connect env
  | .execute command => .execute env command
  | .close => .close env

theorem step_event {config : Config} {kind : Kind} (env : Environment) (operation : Operation) (s : State) :
    Lifecycle.step config kind s (operation.event env)
      = some ((operation.body config kind).eval (answer env) s).2 := by
  cases operation <;> rfl

/-- **Whole calls are calls of the lifecycle.** -/
theorem atomic_reaches {config : Config} {kind : Kind} {programs : List (Client Raised Operation.Result X)}
    {events : List (ℕ × Environment × X)} {a : AtomicWorld Raised State X Operation.Result}
    (hrun : Transition.run (atomicStep (transport config kind)) (atomicStart .fresh programs) events = some a) :
    ∃ calls, Transition.run (Lifecycle.step config kind) .fresh calls = some a.shared := by
  refine Transition.run_invariant (I := fun a : AtomicWorld Raised State X Operation.Result =>
    ∃ calls, Transition.run (Lifecycle.step config kind) .fresh calls = some a.shared) ?_ ⟨[], rfl⟩ hrun
  rintro a e a' ⟨calls, hcalls⟩ hstep
  rw [atomicStep] at hstep
  split at hstep
  · cases hstep
  · split at hstep
    · cases hstep
    · cases hstep
    · obtain ⟨lock, -, rfl⟩ := Option.map_eq_some_iff.mp hstep
      rename_i m k hthread
      exact ⟨calls ++ [m.event e.2.1],
        Transition.run_trans hcalls (Transition.run_single (step_event e.2.1 m a.shared))⟩
    · obtain ⟨managed, -, rfl⟩ := Option.map_eq_some_iff.mp hstep
      exact ⟨calls, hcalls⟩

variable {config : Config} {kind : Kind} {programs : List (Client Raised Operation.Result X)}
  {events : List (ℕ × Environment × X)} {w : World Op Op.Answer Raised State Environment X Operation.Result}

/-- **Calls of several threads are as good as calls that run alone.**  In every interleaving every thread gets
the results that it gets in a run in which each call of the wrapper is one step; when no call is under way the
transport is the one of that run, and it is a transport that a sequence of calls leaves. -/
theorem synchronized_serial
    (hrun : Transition.run (Monitor.step (transport config kind)) (start .fresh programs) events = some w) :
    ∃ atomicEvents a,
      Transition.run (atomicStep (transport config kind)) (atomicStart .fresh programs) atomicEvents = some a ∧
      a.threads = w.threads.map Thread.whole ∧
      ((∀ t ∈ w.threads, t.stage.IsIdle) → w.shared = a.shared ∧ w.lock = a.lock) ∧
      (∃ calls, Transition.run (Lifecycle.step config kind) .fresh calls = some a.shared) ∧
      Consistent kind a.shared := by
  obtain ⟨atomicEvents, a, hatomic, hagrees⟩ := run_serializes hrun
  obtain ⟨calls, hcalls⟩ := atomic_reaches hatomic
  refine ⟨atomicEvents, a, hatomic, hagrees.threads, fun hidle => ?_, ⟨calls, hcalls⟩, reachable_consistent hcalls⟩
  rcases hagrees.state with hquiet | ⟨i, history, m, env, rest, k, hbusy⟩
  · exact ⟨hquiet.shared, hquiet.lock⟩
  · exact absurd (hidle _ (List.mem_of_getElem? hbusy.thread)) id

/-! ## Exclusive sections -/

/-- **What an exclusive section is for.**  Of threads that give back the lock as often as they take it, in every
interleaving: while one holds the lock, the steps of the others leave the transport, the lock and the thread as
they are; some thread can always go on until all have ended; and then the lock is free, however they ended. -/
theorem exclusive_connection_safe (hprograms : ∀ p ∈ programs, Balanced p)
    (hrun : Transition.run (Monitor.step (transport config kind)) (start .fresh programs) events = some w) :
    (∀ i, 0 < w.lock.depth i → ∀ (others : List (ℕ × Environment × X)), (∀ e ∈ others, e.1 ≠ i) →
      ∀ w', Transition.run (Monitor.step (transport config kind)) w others = some w' →
        w'.shared = w.shared ∧ w'.lock = w.lock ∧ w'.threads[i]? = w.threads[i]?) ∧
    ((∃ t ∈ w.threads, ¬t.Ended) →
      ∃ i, ∀ env x, (Monitor.step (transport config kind) w (i, env, x)).isSome) ∧
    ((∀ t ∈ w.threads, t.Ended) → w.lock = none) := by
  have horderly : Orderly w := orderly_run hprograms hrun
  refine ⟨fun i hheld others hothers w' hafter => held_run horderly hheld hothers hafter, ?_,
    unlocked_at_end horderly⟩
  rintro ⟨t, ht, hended⟩
  exact progress horderly ht hended

end Threads

/-! ## Two threads -/

/-- One thread connects and runs two commands in an exclusive section; the second one fails. -/
def sampleOwner : Client Raised Operation.Result Unit :=
  Program.bind connect fun _ => exclusive <|
    Program.bind (execute (.text "configure".toList)) fun _ =>
      Program.bind (execute (.other "BinaryCommand".toList)) fun _ => close

/-- Another thread closes the transport. -/
def sampleCloser : Client Raised Operation.Result Unit := close

theorem balanced_owner : Balanced sampleOwner :=
  (balanced_invoke _).bind fun _ => Balanced.exclusive <|
    (balanced_invoke _).bind fun _ => (balanced_invoke _).bind fun _ => balanced_invoke _

/-- The owner goes on, then the other thread, then the owner again. -/
def sampleEvents (first second third : ℕ) : List (ℕ × Environment × Unit) :=
  List.replicate first (0, sampleEnvironment [], ()) ++ List.replicate second (1, sampleEnvironment [], ())
    ++ List.replicate third (0, sampleEnvironment [], ())

def sampleRun (first second third : ℕ) :
    Option (World Op Op.Answer Raised State Environment Unit Operation.Result) :=
  Transition.run (Monitor.step (transport Lifecycle.sampleConfig .ssh)) (start .fresh [sampleOwner, sampleCloser])
    (sampleEvents first second third)

/-- The transport is closed between the connection and the section, and the commands fail. -/
theorem synchronized_serial_sample : ∃ w atomicEvents a, sampleRun 9 5 3 = some w ∧
    Transition.run (atomicStep (transport Lifecycle.sampleConfig .ssh))
      (atomicStart .fresh [sampleOwner, sampleCloser]) atomicEvents = some a ∧
    a.threads = w.threads.map Thread.whole ∧ Consistent .ssh a.shared := by
  have hsome : (sampleRun 9 5 3).isSome := by rfl
  obtain ⟨w, hw⟩ := Option.isSome_iff_exists.mp hsome
  obtain ⟨atomicEvents, a, hatomic, hthreads, -, -, hconsistent⟩ := synchronized_serial hw
  exact ⟨w, atomicEvents, a, hw, hatomic, hthreads, hconsistent⟩

/-- In the section the other thread waits. -/
theorem exclusive_connection_safe_sample : ∃ w, sampleRun 12 0 0 = some w ∧ 0 < w.lock.depth 0 ∧
    (Monitor.step (transport Lifecycle.sampleConfig .ssh) w (1, sampleEnvironment [], ())).isNone ∧
    ∃ i, ∀ env x, (Monitor.step (transport Lifecycle.sampleConfig .ssh) w (i, env, x)).isSome := by
  have hsome : (sampleRun 12 0 0).isSome := by rfl
  obtain ⟨w, hw⟩ := Option.isSome_iff_exists.mp hsome
  have hprograms : ∀ p ∈ [sampleOwner, sampleCloser], Balanced p := by
    intro p hp
    rcases List.mem_cons.mp hp with rfl | hp
    · exact balanced_owner
    · cases List.mem_singleton.mp hp
      exact balanced_invoke _
  have hstate : (sampleRun 12 0 0).map (fun w => (w.lock,
      (Monitor.step (transport Lifecycle.sampleConfig .ssh) w (1, sampleEnvironment [], ())).isNone))
      = some (some (0, 1), true) := by
    rfl
  have hwaits : (sampleRun 12 0 0).bind (fun w => w.threads[1]?.map Thread.stage) = some (.idle sampleCloser) := by
    rfl
  rw [hw] at hstate hwaits
  obtain ⟨hlock, hnone⟩ := Prod.mk.inj (Option.some.inj hstate)
  obtain ⟨t, ht, hstage⟩ := Option.map_eq_some_iff.mp hwaits
  have hsafe := exclusive_connection_safe hprograms hw
  refine ⟨w, hw, by rw [hlock]; decide, hnone, hsafe.2.1 ⟨t, List.mem_of_getElem? ht, ?_⟩⟩
  rintro (⟨a, ha⟩ | ⟨error, herror⟩)
  · rw [hstage] at ha
    cases ha
  · rw [hstage] at herror
    cases herror

end HardwareTest.Transport.Synchronized
