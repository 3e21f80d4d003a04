import HardwareTest.Lib.Program
import HardwareTest.Lib.Transition

/-!
# Threads over a shared state

Programs that run at the same time, one call of one of them after another.  A call reads and changes
the shared state, and the environment has a choice in its answer; the calls that a thread has made,
with their answers, are its history.

* `System`, `step` — the threads and the steps of their interleavings;
* `Leads` — a history leads from a program to what is left of it;
* `Leads.runs_outcome` — of a thread that has ended the history is a run;
* `thread_leads` — the history of every thread of a run leads from its program;
* `calls_invariant` — what holds of every call when it is made, and no other call ends, holds of all
  calls after every run.
-/

namespace HardwareTest.Lib.Threads

open Program

variable {Op : Type} {Answer : Op → Type} {ε α S C : Type}

/-- A thread: the calls it has made, and what is left of its program. -/
structure Thread (Op : Type) (Answer : Op → Type) (ε α : Type) where
  history : List (Sigma Answer)
  rest : Program Op Answer ε α

/-- How a thread has ended, when it has. -/
def Thread.outcome (thread : Thread Op Answer ε α) : Option (Except ε α) :=
  match thread.rest with
  | .pure a => some (.ok a)
  | .throw e => some (.error e)
  | .call _ _ => none

structure System (Op : Type) (Answer : Op → Type) (ε α S : Type) where
  shared : S
  threads : List (Thread Op Answer ε α)

/-- All threads before their first call. -/
def start (s : S) (programs : List (Program Op Answer ε α)) : System Op Answer ε α S where
  shared := s
  threads := programs.map fun p => ⟨[], p⟩

/-- The next call of the thread `e.1`, with the choice `e.2` of the environment. -/
def step (handle : ℕ → C → (op : Op) → S → Answer op × S) (w : System Op Answer ε α S) (e : ℕ × C) :
    Option (System Op Answer ε α S) :=
  match w.threads[e.1]? with
  | some ⟨history, .call op k⟩ =>
    let answered := handle e.1 e.2 op w.shared
    some ⟨answered.2, w.threads.set e.1 ⟨history ++ [⟨op, answered.1⟩], k answered.1⟩⟩
  | some ⟨_, .pure _⟩ => none
  | some ⟨_, .throw _⟩ => none
  | none => none

/-! ## Histories -/

/-- A history leads from a program to what is left of it. -/
inductive Leads : Program Op Answer ε α → List (Sigma Answer) → Program Op Answer ε α → Prop
  | refl (p : Program Op Answer ε α) : Leads p [] p
  | call {p : Program Op Answer ε α} {history : List (Sigma Answer)} {op : Op}
      {k : Answer op → Program Op Answer ε α} (h : Leads p history (.call op k)) (x : Answer op) :
      Leads p (history ++ [⟨op, x⟩]) (k x)

/-- **A run of what is left** completes the history to a run of the program. -/
theorem Leads.runs {p q : Program Op Answer ε α} {history rest : List (Sigma Answer)} {r : Except ε α}
    (h : Leads p history q) (hrest : Runs q rest r) : Runs p (history ++ rest) r := by
  induction h generalizing rest with
  | refl => exact hrest
  | call h x ih =>
    rw [List.append_assoc]
    exact ih (.call x hrest)

/-- **The history of a thread that has ended** is a run of its program. -/
theorem Leads.runs_outcome {p : Program Op Answer ε α} {thread : Thread Op Answer ε α} {r : Except ε α}
    (h : Leads p thread.history thread.rest) (hr : thread.outcome = some r) : Runs p thread.history r := by
  obtain ⟨history, rest⟩ := thread
  cases rest with
  | pure a =>
    cases hr
    have hruns := h.runs (.pure a)
    rwa [List.append_nil] at hruns
  | throw e =>
    cases hr
    have hruns := h.runs (.throw e)
    rwa [List.append_nil] at hruns
  | call op k => cases hr

/-! ## Runs -/

variable {handle : ℕ → C → (op : Op) → S → Answer op × S}

/-- **One step** is one call of one thread. -/
theorem step_cases {w w' : System Op Answer ε α S} {e : ℕ × C} (h : step handle w e = some w') :
    ∃ history op k, w.threads[e.1]? = some ⟨history, .call op k⟩ ∧
      w' = ⟨(handle e.1 e.2 op w.shared).2, w.threads.set e.1
        ⟨history ++ [⟨op, (handle e.1 e.2 op w.shared).1⟩], k (handle e.1 e.2 op w.shared).1⟩⟩ := by
  unfold step at h
  split at h
  · rename_i history op k hthread
    exact ⟨history, op, k, hthread, (Option.some.inj h).symm⟩
  · cases h
  · cases h
  · cases h

/-- The threads after a step: one has made a call, the others are as they were. -/
theorem thread_set {threads : List (Thread Op Answer ε α)} {i j : ℕ}
    {after thread : Thread Op Answer ε α} (hj : (threads.set i after)[j]? = some thread) :
    (j = i ∧ thread = after) ∨ threads[j]? = some thread := by
  rw [List.getElem?_set] at hj
  split_ifs at hj with hij hlt
  · exact .inl ⟨hij.symm, (Option.some.inj hj).symm⟩
  · exact .inr hj

/-- **Every history leads from the program of its thread.** -/
theorem thread_leads {s : S} {programs : List (Program Op Answer ε α)} {events : List (ℕ × C)}
    {w : System Op Answer ε α S} (hrun : Transition.run (step handle) (start s programs) events = some w)
    {i : ℕ} {thread : Thread Op Answer ε α} (hthread : w.threads[i]? = some thread) :
    ∃ p, programs[i]? = some p ∧ Leads p thread.history thread.rest := by
  refine Transition.run_invariant
    (I := fun w : System Op Answer ε α S => ∀ i thread, w.threads[i]? = some thread →
      ∃ p, programs[i]? = some p ∧ Leads p thread.history thread.rest) ?_ ?_ hrun i thread hthread
  · intro w e w' hI hstep j thread hj
    obtain ⟨history, op, k, hbefore, rfl⟩ := step_cases hstep
    rcases thread_set hj with ⟨rfl, rfl⟩ | hj
    · obtain ⟨p, hp, hleads⟩ := hI _ _ hbefore
      exact ⟨p, hp, hleads.call _⟩
    · exact hI j thread hj
  · intro i thread hthread
    rw [start, List.getElem?_map, Option.map_eq_some_iff] at hthread
    obtain ⟨p, hp, rfl⟩ := hthread
    exact ⟨p, hp, .refl p⟩

/-- **The rule for all calls.**  What holds of a call in the state after it, and is kept by every later
call of every thread, holds of all calls after a run. -/
theorem calls_invariant {J : S → Prop} {P : ℕ → Sigma Answer → S → Prop}
    (hstate : ∀ i c op s, J s → J (handle i c op s).2)
    (hmade : ∀ i c op s, J s → P i ⟨op, (handle i c op s).1⟩ (handle i c op s).2)
    (hkept : ∀ i c op s j call, J s → P j call s → P j call (handle i c op s).2)
    {s : S} (hs : J s) {programs : List (Program Op Answer ε α)} {events : List (ℕ × C)}
    {w : System Op Answer ε α S} (hrun : Transition.run (step handle) (start s programs) events = some w) :
    J w.shared ∧ ∀ i thread, w.threads[i]? = some thread → ∀ call ∈ thread.history, P i call w.shared := by
  refine Transition.run_invariant
    (I := fun w : System Op Answer ε α S => J w.shared ∧
      ∀ i thread, w.threads[i]? = some thread → ∀ call ∈ thread.history, P i call w.shared) ?_ ⟨hs, ?_⟩ hrun
  · rintro w ⟨i, c⟩ w' ⟨hJ, hcalls⟩ hstep
    obtain ⟨history, op, k, hbefore, rfl⟩ := step_cases hstep
    refine ⟨hstate i c op _ hJ, fun j thread hj call hcall => ?_⟩
    rcases thread_set hj with ⟨rfl, rfl⟩ | hj
    · rcases List.mem_append.mp hcall with hcall | hcall
      · exact hkept _ _ _ _ _ _ hJ (hcalls _ _ hbefore call hcall)
      · rw [List.mem_singleton.mp hcall]
        exact hmade _ c op _ hJ
    · exact hkept _ _ _ _ _ _ hJ (hcalls j thread hj call hcall)
  · intro i thread hthread call hcall
    rw [start, List.getElem?_map, Option.map_eq_some_iff] at hthread
    obtain ⟨p, -, rfl⟩ := hthread
    cases hcall

end HardwareTest.Lib.Threads
