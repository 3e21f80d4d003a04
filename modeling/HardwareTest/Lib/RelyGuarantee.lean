import HardwareTest.Lib.Threads

/-!
# Rely and guarantee

Threads over a shared state are verified one at a time.  A `Contract` says how the state may change, what
a thread may call and what an answer tells; both are stable, that is, they stay true when the state
changes.  A program is verified with `Program.wp` for the specification that the contract gives its thread,
in which any change may lie between a call and the next one.

* `Contract`, `spec` — a contract, and the specification of a thread;
* `wp_stable` — what is verified stays verified when other threads run;
* `contract_run` — every call of every run is one that its thread may make, what the answers told is still
  true at the end, and a thread that has ended has ended in its postcondition.
-/

namespace HardwareTest.Lib.Threads

open Program

variable {Op : Type} {Answer : Op → Type} {ε α S C : Type}

/-- How the state may change, what a thread may call, and what the answer to a call tells. -/
structure Contract (Op : Type) (Answer : Op → Type) (S : Type) where
  Changes : S → S → Prop
  May : ℕ → Op → S → Prop
  Tells : (op : Op) → Answer op → S → Prop
  refl : ∀ s, Changes s s
  trans : ∀ {s t u}, Changes s t → Changes t u → Changes s u
  may_stable : ∀ {i op s t}, Changes s t → May i op s → May i op t
  tells_stable : ∀ {op x s t}, Changes s t → Tells op x s → Tells op x t

namespace Contract

/-- The specification of a thread: it may make the call, and the state has changed when it goes on. -/
def spec (contract : Contract Op Answer S) (i : ℕ) : Program.Spec Op Answer S where
  wp op P s := contract.May i op s ∧ ∀ x t, contract.Changes s t → contract.Tells op x t → P x t
  mono hPQ h := ⟨h.1, fun x t hst htells => hPQ x t (h.2 x t hst htells)⟩

variable {contract : Contract Op Answer S} {i : ℕ}

/-- **What is verified stays verified.** -/
theorem wp_stable {Q : Except ε α → S → Prop} (hQ : ∀ r s t, contract.Changes s t → Q r s → Q r t)
    {p : Program Op Answer ε α} {s t : S} (hst : contract.Changes s t) (h : wp (contract.spec i) p Q s) :
    wp (contract.spec i) p Q t := by
  cases p with
  | pure a => exact hQ _ s t hst h
  | throw e => exact hQ _ s t hst h
  | call op k =>
    exact ⟨contract.may_stable hst h.1, fun x u htu htells => h.2 x u (contract.trans hst htu) htells⟩

/-- A postcondition of the value that a program returns. -/
def OnReturn (P : α → S → Prop) : Except ε α → S → Prop
  | .ok a, s => P a s
  | .error _, _ => True

/-- **Calls.**  A thread may make the call, and goes on with what the answer tells. -/
theorem wp_calls {Q : Except ε α → S → Prop} {op : Op} {k : Answer op → Program Op Answer ε α} {s : S}
    (hmay : contract.May i op s)
    (hk : ∀ x t, contract.Changes s t → contract.Tells op x t → wp (contract.spec i) (k x) Q t) :
    wp (contract.spec i) (.call op k) Q s := ⟨hmay, hk⟩

/-- **The changes of a program** are those of its calls and of the threads beside it. -/
theorem wp_changes {Q : Except ε α → S → Prop} {p : Program Op Answer ε α} {s : S}
    (h : wp (contract.spec i) p Q s) :
    wp (contract.spec i) p (fun r t => Q r t ∧ contract.Changes s t) s := by
  have hgeneral : ∀ (p : Program Op Answer ε α) (t : S), contract.Changes s t → wp (contract.spec i) p Q t →
      wp (contract.spec i) p (fun r t => Q r t ∧ contract.Changes s t) t := by
    intro p
    induction p with
    | pure a => exact fun t hst hp => ⟨hp, hst⟩
    | throw e => exact fun t hst hp => ⟨hp, hst⟩
    | call op k ih =>
      exact fun t hst hp => ⟨hp.1, fun x u htu htells =>
        ih x u (contract.trans hst htu) (hp.2 x u htu htells)⟩
  exact hgeneral p s (contract.refl s) h

/-- **Sequence.**  What the first part returns is known when the second begins, and the state has changed. -/
theorem wp_then {β : Type} {P : β → S → Prop} {Q : α → S → Prop} {p : Program Op Answer ε β}
    {f : β → Program Op Answer ε α} {s : S} (hp : wp (contract.spec i) p (OnReturn P) s)
    (hf : ∀ b t, contract.Changes s t → P b t → wp (contract.spec i) (f b) (OnReturn Q) t) :
    wp (contract.spec i) (p >>= f) (OnReturn Q) s :=
  wp_seq (wp_changes hp) (fun b t h => hf b t h.2 h.1) fun _ _ _ => trivial

theorem wp_raised_or {P : α → S → Prop} {x : Except ε α} {s : S} (h : ∀ a, x = .ok a → P a s) :
    wp (contract.spec i) (ofExcept x : Program Op Answer ε α) (OnReturn P) s := by
  cases x with
  | ok a => exact h a rfl
  | error e => trivial

/-- The contract of a part that makes its calls as `f` says and reads the answers with `g`. -/
def comap {Op' : Type} {Answer' : Op' → Type} (contract : Contract Op' Answer' S) (f : Op → Op')
    (g : ∀ op, Answer' (f op) → Answer op) : Contract Op Answer S where
  Changes := contract.Changes
  May i op s := contract.May i (f op) s
  Tells op x s := ∃ y, g op y = x ∧ contract.Tells (f op) y s
  refl := contract.refl
  trans := contract.trans
  may_stable := contract.may_stable
  tells_stable hst := fun ⟨y, hy, htells⟩ => ⟨y, hy, contract.tells_stable hst htells⟩

/-- A part is verified for its own contract. -/
theorem wp_part {Op' : Type} {Answer' : Op' → Type} {contract : Contract Op' Answer' S} {f : Op → Op'}
    {g : ∀ op, Answer' (f op) → Answer op} {p : Program Op Answer ε α} {Q : Except ε α → S → Prop} {s : S}
    (h : wp ((contract.comap f g).spec i) p Q s) : wp (contract.spec i) (p.lift f g) Q s := by
  induction p generalizing s with
  | pure a => exact h
  | throw e => exact h
  | call op k ih => exact ⟨h.1, fun y t hst htells => ih _ (h.2 (g op y) t hst ⟨y, rfl, htells⟩)⟩

/-- A thread and its calls so far, in a state. -/
structure Kept (contract : Contract Op Answer S) (i : ℕ) (Q : Except ε α → S → Prop) (s : S)
    (thread : Thread Op Answer ε α) : Prop where
  calls : ∀ call ∈ thread.history, contract.May i call.1 s ∧ contract.Tells call.1 call.2 s
  rest : wp (contract.spec i) thread.rest Q s

theorem Kept.stable {Q : Except ε α → S → Prop} (hQ : ∀ r s t, contract.Changes s t → Q r s → Q r t)
    {s t : S} (hst : contract.Changes s t) {thread : Thread Op Answer ε α} (h : contract.Kept i Q s thread) :
    contract.Kept i Q t thread where
  calls call hcall := ⟨contract.may_stable hst (h.calls call hcall).1,
    contract.tells_stable hst (h.calls call hcall).2⟩
  rest := wp_stable hQ hst h.rest

/-- A thread that has ended is in its postcondition. -/
theorem Kept.ended {Q : Except ε α → S → Prop} {s : S} {thread : Thread Op Answer ε α}
    (h : contract.Kept i Q s thread) {r : Except ε α} (hr : thread.outcome = some r) : Q r s := by
  obtain ⟨history, rest⟩ := thread
  have hrest := h.rest
  cases rest with
  | pure a =>
    cases hr
    exact hrest
  | throw e =>
    cases hr
    exact hrest
  | call op k => cases hr

/-- **The rule for threads under a contract.**  When the handler of the calls keeps the contract and every
program is verified for its thread, every run keeps the contract. -/
theorem contract_run {handle : ℕ → C → (op : Op) → S → Answer op × S} {J : S → Prop}
    {Q : ℕ → Except ε α → S → Prop}
    (hhandle : ∀ i c op s, J s → contract.May i op s →
      J (handle i c op s).2 ∧ contract.Changes s (handle i c op s).2 ∧
        contract.Tells op (handle i c op s).1 (handle i c op s).2)
    (hQ : ∀ i r s t, contract.Changes s t → Q i r s → Q i r t) {s : S} (hs : J s)
    {programs : List (Program Op Answer ε α)}
    (hprograms : ∀ i p, programs[i]? = some p → wp (contract.spec i) p (Q i) s) {events : List (ℕ × C)}
    {w : System Op Answer ε α S} (hrun : Transition.run (step handle) (start s programs) events = some w) :
    J w.shared ∧ contract.Changes s w.shared ∧
      ∀ i thread, w.threads[i]? = some thread → contract.Kept i (Q i) w.shared thread := by
  refine Transition.run_invariant
    (I := fun w : System Op Answer ε α S => J w.shared ∧ contract.Changes s w.shared ∧
      ∀ i thread, w.threads[i]? = some thread → contract.Kept i (Q i) w.shared thread) ?_
    ⟨hs, contract.refl s, ?_⟩ hrun
  · rintro w ⟨i, c⟩ w' ⟨hJ, hchanges, hkept⟩ hstep
    obtain ⟨history, op, k, hbefore, rfl⟩ := step_cases hstep
    have hthread := hkept _ _ hbefore
    obtain ⟨hmay, hafter⟩ := hthread.rest
    obtain ⟨hJ', hchange, htells⟩ := hhandle i c op w.shared hJ hmay
    refine ⟨hJ', contract.trans hchanges hchange, fun j thread hj => ?_⟩
    rcases thread_set hj with ⟨rfl, rfl⟩ | hj
    · refine ⟨fun call hcall => ?_, hafter _ _ hchange htells⟩
      rcases List.mem_append.mp hcall with hcall | hcall
      · exact (hthread.stable (hQ _) hchange).calls call hcall
      · rw [List.mem_singleton.mp hcall]
        exact ⟨contract.may_stable hchange hmay, htells⟩
    · exact (hkept j thread hj).stable (hQ j) hchange
  · intro i thread hthread
    rw [start, List.getElem?_map, Option.map_eq_some_iff] at hthread
    obtain ⟨p, hp, rfl⟩ := hthread
    exact ⟨fun call hcall => absurd hcall List.not_mem_nil, hprograms i p hp⟩

end Contract

end HardwareTest.Lib.Threads
