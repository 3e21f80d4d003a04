import Mathlib.Data.List.Induction
import Mathlib.Order.Basic

/-!
# Finite runs of a partial transition function

A system is a function `step : S → E → Option S`: an event either is not enabled in a state or takes
it to exactly one next state.  Nondeterminism lies in the choice of the events, so a statement about
every interleaving is a statement about every event list.

* `run` — the state after a list of events, or `none` when one of them is not enabled;
* `Meets P` — every step a run takes satisfies `P` in the state it is taken from;
* `run_invariant`, `run_invariant_of_meets` — the two induction rules: what every step (that meets
  `P`) preserves holds after every run (whose steps meet `P`);
* `run_trace_invariant` — the same for what is said of the state and the events so far;
* `trace` — what is observed of the steps of a run;
* `run_map`, `trace_map` — a map of the states that commutes with the steps commutes with the runs, and
  keeps what is observed when it keeps the observation;
* `run_gains` — what a run adds to its states is among what is observed of it.
-/

namespace HardwareTest.Lib.Transition

variable {S E : Type*} (step : S → E → Option S)

/-- The state after a list of events. -/
def run : S → List E → Option S
  | s, [] => some s
  | s, e :: es => (step s e).bind fun s' => run s' es

/-- Every step taken along the run satisfies `P` in the state it starts from. -/
def Meets (P : S → E → Prop) : S → List E → Prop
  | _, [] => True
  | s, e :: es => P s e ∧ ∀ s', step s e = some s' → Meets P s' es

variable {step}

theorem run_cons {s t : S} {e : E} {es : List E} (h : run step s (e :: es) = some t) :
    ∃ s', step s e = some s' ∧ run step s' es = some t := by
  simpa [run, Option.bind_eq_some_iff] using h

theorem run_single {s t : S} {e : E} (h : step s e = some t) : run step s [e] = some t := by
  rw [run, h]
  rfl

/-- A run over two lists is a run over the first, then one over the second. -/
theorem run_append {s t : S} {es fs : List E} (h : run step s (es ++ fs) = some t) :
    ∃ m, run step s es = some m ∧ run step m fs = some t := by
  induction es generalizing s with
  | nil => exact ⟨s, rfl, h⟩
  | cons e es ih =>
    obtain ⟨s', hstep, hrest⟩ := run_cons h
    obtain ⟨m, hm, ht⟩ := ih hrest
    exact ⟨m, by simp [run, hstep, hm], ht⟩

theorem run_trans {s m t : S} {es fs : List E} (h₁ : run step s es = some m)
    (h₂ : run step m fs = some t) : run step s (es ++ fs) = some t := by
  induction es generalizing s with
  | nil =>
    cases h₁
    exact h₂
  | cons e es ih =>
    obtain ⟨s', hstep, hrest⟩ := run_cons h₁
    simp [run, hstep, ih hrest]

/-- The steps of the second half of a run meet what the steps of the whole run meet. -/
theorem Meets.append {P : S → E → Prop} {s m : S} {es fs : List E}
    (h : Meets step P s (es ++ fs)) (hm : run step s es = some m) :
    Meets step P s es ∧ Meets step P m fs := by
  induction es generalizing s with
  | nil =>
    cases hm
    exact ⟨trivial, h⟩
  | cons e es ih =>
    obtain ⟨s', hstep, hrest⟩ := run_cons hm
    obtain ⟨h₁, h₂⟩ := ih (h.2 s' hstep) hrest
    refine ⟨⟨h.1, fun s'' hs'' => ?_⟩, h₂⟩
    rw [hstep] at hs''
    cases hs''
    exact h₁

/-- On given events the condition can be evaluated. -/
instance Meets.decidable {P : S → E → Prop} [∀ s e, Decidable (P s e)] :
    ∀ s es, Decidable (Meets step P s es)
  | _, [] => isTrue trivial
  | s, e :: es =>
    match h : step s e with
    | none => decidable_of_iff (P s e) ⟨fun hP => ⟨hP, fun s' hs' => by simp [h] at hs'⟩, And.left⟩
    | some s' =>
      have := Meets.decidable (P := P) s' es
      decidable_of_iff (P s e ∧ Meets step P s' es)
        ⟨fun hP => ⟨hP.1, fun t ht => Option.some.inj (h.symm.trans ht) ▸ hP.2⟩,
          fun hP => ⟨hP.1, hP.2 s' h⟩⟩

theorem Meets.mono {P Q : S → E → Prop} (hPQ : ∀ s e, P s e → Q s e) {s : S} {es : List E}
    (h : Meets step P s es) : Meets step Q s es := by
  induction es generalizing s with
  | nil => trivial
  | cons e es ih => exact ⟨hPQ s e h.1, fun s' hs' => ih (h.2 s' hs')⟩

/-- A condition on the events alone. -/
theorem Meets.and {P : S → E → Prop} {Q : E → Prop} {s : S} {es : List E} (h : Meets step P s es)
    (hQ : ∀ e ∈ es, Q e) : Meets step (fun s e => P s e ∧ Q e) s es := by
  induction es generalizing s with
  | nil => trivial
  | cons e es ih =>
    exact ⟨⟨h.1, hQ e List.mem_cons_self⟩,
      fun s' hs' => ih (h.2 s' hs') fun e' he' => hQ e' (List.mem_cons_of_mem e he')⟩

/-- **The run rule under a step condition.**  What is preserved by every step that meets `P` holds at
the end of every run whose steps meet `P`. -/
theorem run_invariant_of_meets {P : S → E → Prop} {I : S → Prop}
    (hstep : ∀ s e s', I s → P s e → step s e = some s' → I s') {s t : S} {es : List E}
    (hs : I s) (hP : Meets step P s es) (ht : run step s es = some t) : I t := by
  induction es generalizing s with
  | nil =>
    cases ht
    exact hs
  | cons e es ih =>
    obtain ⟨s', hs', hrest⟩ := run_cons ht
    exact ih (hstep s e s' hs hP.1 hs') (hP.2 s' hs') hrest

/-- **The run rule.**  What every step preserves holds at the end of every run. -/
theorem run_invariant {I : S → Prop} (hstep : ∀ s e s', I s → step s e = some s' → I s')
    {s t : S} {es : List E} (hs : I s) (ht : run step s es = some t) : I t := by
  induction es generalizing s with
  | nil =>
    cases ht
    exact hs
  | cons e es ih =>
    obtain ⟨s', hs', hrest⟩ := run_cons ht
    exact ih (hstep s e s' hs hs') hrest

/-- **The run rule with the events so far.** -/
theorem run_trace_invariant {s₀ : S} {I : List E → S → Prop}
    (hstep : ∀ es s e s', run step s₀ es = some s → I es s → step s e = some s' → I (es ++ [e]) s')
    (hs : I [] s₀) {t : S} {es : List E} (ht : run step s₀ es = some t) : I es t := by
  induction es using List.reverseRecOn generalizing t with
  | nil =>
    cases ht
    exact hs
  | append_singleton es e ih =>
    obtain ⟨m, hm, hlast⟩ := run_append ht
    obtain ⟨s', hs', hnil⟩ := run_cons hlast
    cases hnil
    exact hstep es m e t hm (ih hm) hs'

/-! ## Maps of the states -/

section Map

variable {T O : Type*} {step' : T → E → Option T} {f : S → T}

/-- What is observed of the steps that are taken, in their order. -/
def trace (step : S → E → Option S) (observe : S → E → List O) : S → List E → List O
  | _, [] => []
  | s, e :: es =>
    match step s e with
    | none => []
    | some s' => observe s e ++ trace step observe s' es

theorem run_map (hstep : ∀ s e, (step s e).map f = step' (f s) e) (s : S) (es : List E) :
    (run step s es).map f = run step' (f s) es := by
  induction es generalizing s with
  | nil => rfl
  | cons e es ih =>
    show ((step s e).bind fun s' => run step s' es).map f
      = (step' (f s) e).bind fun t => run step' t es
    rw [← hstep]
    cases step s e with
    | none => rfl
    | some s' => exact ih s'

theorem trace_map {observe : S → E → List O} {observe' : T → E → List O}
    (hstep : ∀ s e, (step s e).map f = step' (f s) e) (hobserve : ∀ s e, observe' (f s) e = observe s e)
    (s : S) (es : List E) : trace step observe s es = trace step' observe' (f s) es := by
  induction es generalizing s with
  | nil => rfl
  | cons e es ih =>
    unfold trace
    rw [← hstep]
    cases step s e with
    | none => rfl
    | some s' =>
      show observe s e ++ _ = observe' (f s) e ++ _
      rw [hobserve, ih]

/-- What the states gain along a run is among what is observed, when it is so for every step. -/
theorem run_gains {g : S → List O} {observe : S → E → List O}
    (hstep : ∀ s e s', step s e = some s' →
      ∃ added, g s' = g s ++ added ∧ added.Sublist (observe s e)) {s t : S} {es : List E}
    (ht : run step s es = some t) :
    ∃ added, g t = g s ++ added ∧ added.Sublist (trace step observe s es) := by
  induction es generalizing s with
  | nil =>
    cases ht
    exact ⟨[], (List.append_nil _).symm, .slnil⟩
  | cons e es ih =>
    obtain ⟨s', hs', hrest⟩ := run_cons ht
    obtain ⟨first, hfirst, hsub⟩ := hstep s e s' hs'
    obtain ⟨rest, hg, hsubrest⟩ := ih hrest
    refine ⟨first ++ rest, by rw [hg, hfirst, List.append_assoc], ?_⟩
    show List.Sublist _ (match step s e with | none => [] | some s' => observe s e ++ trace step observe s' es)
    rw [hs']
    exact hsub.append hsubrest

end Map

end HardwareTest.Lib.Transition
