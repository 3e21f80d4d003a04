import Mathlib.Data.Nat.Notation
import Mathlib.Logic.Basic

/-!
# Programs that call their environment

A procedure that talks to its environment is a tree: it returns, raises, or makes a call and goes on
with the answer.  Every answer the environment can give is a branch, so a statement about the tree is
a statement about every behaviour of the environment.

* `bind`, `tryCatch`, `tryFinally` — the control structures of the source language;
* `eval` — the program in one environment, which answers from a state of its own;
* `Runs` — the calls a program can make, with their answers, and what it then returns or raises;
* `Only` — a program whose calls are all of one kind, whatever they are answered;
* `AtMost` — a program that makes at most so many calls of one kind;
* `cutOff` — the program where a call may fail for good;
* `Spec` — what each call may be asked for and answer, over a state of the proof's own;
* `wp` — the weakest precondition of a program under such a specification, with one rule for each
  control structure (`wp_bind`, `wp_tryCatch`, `wp_tryFinally`) and for consequence (`wp_mono`), and the
  rules over an intermediate condition (`wp_seq`, `wp_handle`).
-/

namespace HardwareTest.Lib

/-- A program that makes calls `Op`, each answered in `Answer op`, and may raise `ε`. -/
inductive Program (Op : Type) (Answer : Op → Type) (ε α : Type)
  | pure (a : α)
  | throw (e : ε)
  | call (op : Op) (k : Answer op → Program Op Answer ε α)

namespace Program

variable {Op : Type} {Answer : Op → Type} {ε α β : Type}

/-- First the one program, then the other with its value. -/
def bind : Program Op Answer ε α → (α → Program Op Answer ε β) → Program Op Answer ε β
  | .pure a, f => f a
  | .throw e, _ => .throw e
  | .call op k, f => .call op fun r => (k r).bind f

/-- What the program raises is handled. -/
def tryCatch : Program Op Answer ε α → (ε → Program Op Answer ε α) → Program Op Answer ε α
  | .pure a, _ => .pure a
  | .throw e, handler => handler e
  | .call op k, handler => .call op fun r => (k r).tryCatch handler

/-- The program, then the cleanup, whether the program returned or raised. -/
def tryFinally : Program Op Answer ε α → Program Op Answer ε Unit → Program Op Answer ε α
  | .pure a, cleanup => cleanup.bind fun _ => .pure a
  | .throw e, cleanup => cleanup.bind fun _ => .throw e
  | .call op k, cleanup => .call op fun r => (k r).tryFinally cleanup

instance : Monad (Program Op Answer ε) where
  pure := .pure
  bind := .bind

theorem bind_assoc {γ : Type} (p : Program Op Answer ε α) (f : α → Program Op Answer ε β)
    (g : β → Program Op Answer ε γ) : (p >>= f) >>= g = p >>= fun a => f a >>= g := by
  show (p.bind f).bind g = p.bind fun a => (f a).bind g
  induction p with
  | pure a => rfl
  | throw e => rfl
  | call op k ih => exact congrArg (call op) (funext ih)

/-- The program over other calls: each of its calls is made as `f` says, and `g` reads the answer. -/
def lift {Op' : Type} {Answer' : Op' → Type} (f : Op → Op') (g : ∀ op, Answer' (f op) → Answer op) :
    Program Op Answer ε α → Program Op' Answer' ε α
  | .pure a => .pure a
  | .throw e => .throw e
  | .call op k => .call (f op) fun x => (k (g op x)).lift f g

/-- Going on with an answer that may be an exception. -/
def ofExcept : Except ε α → Program Op Answer ε α
  | .ok a => .pure a
  | .error e => .throw e

/-! ## Evaluation -/

section Evaluation

variable {S : Type} (handle : (op : Op) → S → Answer op × S)

/-- The program in an environment that answers each call from its state. -/
def eval : Program Op Answer ε α → S → Except ε α × S
  | .pure a, s => (.ok a, s)
  | .throw e, s => (.error e, s)
  | .call op k, s => (k (handle op s).1).eval (handle op s).2

@[simp] theorem eval_pure (a : α) (s : S) :
    (Pure.pure a : Program Op Answer ε α).eval handle s = (.ok a, s) := rfl

@[simp] theorem eval_throw (e : ε) (s : S) :
    (.throw e : Program Op Answer ε α).eval handle s = (.error e, s) := rfl

@[simp] theorem eval_call (op : Op) (k : Answer op → Program Op Answer ε α) (s : S) :
    (.call op k : Program Op Answer ε α).eval handle s
      = (k (handle op s).1).eval handle (handle op s).2 := rfl

@[simp] theorem eval_ofExcept (r : Except ε α) (s : S) :
    (ofExcept r : Program Op Answer ε α).eval handle s = (r, s) := by
  cases r <;> rfl

@[simp] theorem eval_bind (p : Program Op Answer ε β) (f : β → Program Op Answer ε α) (s : S) :
    (p >>= f).eval handle s = match p.eval handle s with
      | (.ok b, t) => (f b).eval handle t
      | (.error e, t) => (.error e, t) := by
  show (p.bind f).eval handle s = _
  induction p generalizing s with
  | pure a => rfl
  | throw e => rfl
  | call op k ih => exact ih _ _

@[simp] theorem eval_tryCatch (p : Program Op Answer ε α) (handler : ε → Program Op Answer ε α) (s : S) :
    (p.tryCatch handler).eval handle s = match p.eval handle s with
      | (.ok a, t) => (.ok a, t)
      | (.error e, t) => (handler e).eval handle t := by
  induction p generalizing s with
  | pure a => rfl
  | throw e => rfl
  | call op k ih => exact ih _ _

@[simp] theorem eval_tryFinally (p : Program Op Answer ε α) (cleanup : Program Op Answer ε Unit) (s : S) :
    (p.tryFinally cleanup).eval handle s = match p.eval handle s with
      | (r, t) => match cleanup.eval handle t with
        | (.ok _, u) => (r, u)
        | (.error e, u) => (.error e, u) := by
  induction p generalizing s with
  | pure a =>
    refine (eval_bind handle cleanup (fun _ => .pure a) s).trans ?_
    rcases hc : cleanup.eval handle s with ⟨_ | _, _⟩ <;> simp [eval, hc]
  | throw e =>
    refine (eval_bind handle cleanup (fun _ => .throw e) s).trans ?_
    rcases hc : cleanup.eval handle s with ⟨_ | _, _⟩ <;> simp [eval, hc]
  | call op k ih => exact ih _ _

end Evaluation

/-! ## Runs -/

/-- A run: the calls with their answers, and how the program ends. -/
inductive Runs : Program Op Answer ε α → List (Sigma Answer) → Except ε α → Prop
  | pure (a : α) : Runs (.pure a) [] (.ok a)
  | throw (e : ε) : Runs (.throw e) [] (.error e)
  | call {op : Op} {k : Answer op → Program Op Answer ε α} {trace : List (Sigma Answer)}
      {r : Except ε α} (x : Answer op) (h : Runs (k x) trace r) : Runs (.call op k) (⟨op, x⟩ :: trace) r

/-- A run of a sequence: both parts run, or the first raises. -/
theorem Runs.bind {p : Program Op Answer ε β} {f : β → Program Op Answer ε α}
    {trace : List (Sigma Answer)} {r : Except ε α} (h : Runs (p >>= f) trace r) :
    (∃ first rest b, trace = first ++ rest ∧ Runs p first (.ok b) ∧ Runs (f b) rest r) ∨
      ∃ e, Runs p trace (.error e) ∧ r = .error e := by
  change Runs (p.bind f) trace r at h
  induction p generalizing trace with
  | pure b => exact .inl ⟨[], trace, b, rfl, .pure b, h⟩
  | throw e =>
    cases h
    exact .inr ⟨e, .throw e, rfl⟩
  | call op k ih =>
    cases h with
    | call x h =>
      rcases ih x h with ⟨first, rest, b, rfl, hp, hf⟩ | ⟨e, hp, rfl⟩
      · exact .inl ⟨⟨op, x⟩ :: first, rest, b, rfl, .call x hp, hf⟩
      · exact .inr ⟨e, .call x hp, rfl⟩

/-- A run of a sequence that returns: both parts return. -/
theorem Runs.bind_ok {p : Program Op Answer ε β} {f : β → Program Op Answer ε α}
    {trace : List (Sigma Answer)} {a : α} (h : Runs (p >>= f) trace (.ok a)) :
    ∃ first rest b, trace = first ++ rest ∧ Runs p first (.ok b) ∧ Runs (f b) rest (.ok a) := by
  rcases h.bind with h | ⟨e, -, he⟩
  · exact h
  · cases he

/-- A run that returns, and a run of what follows it. -/
theorem Runs.append {p : Program Op Answer ε β} {f : β → Program Op Answer ε α}
    {first rest : List (Sigma Answer)} {b : β} {r : Except ε α} (hp : Runs p first (.ok b))
    (hf : Runs (f b) rest r) : Runs (p >>= f) (first ++ rest) r := by
  change Runs (p.bind f) (first ++ rest) r
  induction p generalizing first with
  | pure b' =>
    cases hp
    exact hf
  | throw e => cases hp
  | call op k ih =>
    cases hp with
    | call x hp => exact .call x (ih x hp)

/-- What follows a run that returns is a run of the rest: the answers so far determine where the program
is. -/
theorem Runs.of_append {p : Program Op Answer ε β} {f : β → Program Op Answer ε α}
    {first rest : List (Sigma Answer)} {b : β} {r : Except ε α} (hp : Runs p first (.ok b))
    (h : Runs (p >>= f) (first ++ rest) r) : Runs (f b) rest r := by
  change Runs (p.bind f) (first ++ rest) r at h
  induction p generalizing first with
  | pure b' =>
    cases hp
    exact h
  | throw e => cases hp
  | call op k ih =>
    cases hp with
    | call x hp =>
      cases h with
      | call _ h => exact ih x hp h

theorem Runs.ofExcept {x r : Except ε α} {trace : List (Sigma Answer)}
    (h : Runs (.ofExcept x : Program Op Answer ε α) trace r) : trace = [] ∧ r = x := by
  cases x with
  | ok a =>
    cases h
    exact ⟨rfl, rfl⟩
  | error e =>
    cases h
    exact ⟨rfl, rfl⟩

/-- A run with a handler: the program returns, or the handler runs on what it raises. -/
theorem Runs.tryCatch {p : Program Op Answer ε α} {handler : ε → Program Op Answer ε α}
    {trace : List (Sigma Answer)} {r : Except ε α} (h : Runs (p.tryCatch handler) trace r) :
    (∃ a, Runs p trace (.ok a) ∧ r = .ok a) ∨
      ∃ first rest e, trace = first ++ rest ∧ Runs p first (.error e) ∧ Runs (handler e) rest r := by
  induction p generalizing trace with
  | pure a =>
    cases h
    exact .inl ⟨a, .pure a, rfl⟩
  | throw e => exact .inr ⟨[], trace, e, rfl, .throw e, h⟩
  | call op k ih =>
    cases h with
    | call x h =>
      rcases ih x h with ⟨a, hp, rfl⟩ | ⟨first, rest, e, rfl, hp, hh⟩
      · exact .inl ⟨a, .call x hp, rfl⟩
      · exact .inr ⟨⟨op, x⟩ :: first, rest, e, rfl, .call x hp, hh⟩

/-- Every call of the program is one of these, whatever it is answered. -/
def Only (P : Op → Prop) : Program Op Answer ε α → Prop
  | .pure _ => True
  | .throw _ => True
  | .call op k => P op ∧ ∀ x, (k x).Only P

section Only

variable {P : Op → Prop}

theorem only_ofExcept (x : Except ε α) : Only P (.ofExcept x : Program Op Answer ε α) := by
  cases x with
  | ok a => trivial
  | error e => trivial

theorem Only.bind {p : Program Op Answer ε β} {f : β → Program Op Answer ε α} (hp : p.Only P)
    (hf : ∀ b, (f b).Only P) : (p >>= f).Only P := by
  change (p.bind f).Only P
  induction p with
  | pure b => exact hf b
  | throw e => trivial
  | call op k ih => exact ⟨hp.1, fun x => ih x (hp.2 x)⟩

theorem Only.tryCatch {p : Program Op Answer ε α} {handler : ε → Program Op Answer ε α} (hp : p.Only P)
    (hhandler : ∀ e, (handler e).Only P) : (p.tryCatch handler).Only P := by
  induction p with
  | pure a => trivial
  | throw e => exact hhandler e
  | call op k ih => exact ⟨hp.1, fun x => ih x (hp.2 x)⟩

theorem Only.tryFinally {p : Program Op Answer ε α} {cleanup : Program Op Answer ε Unit} (hp : p.Only P)
    (hcleanup : cleanup.Only P) : (p.tryFinally cleanup).Only P := by
  induction p with
  | pure a => exact hcleanup.bind fun _ => trivial
  | throw e => exact hcleanup.bind fun _ => trivial
  | call op k ih => exact ⟨hp.1, fun x => ih x (hp.2 x)⟩

/-- **The calls of a run** are those of the program. -/
theorem Only.runs {p : Program Op Answer ε α} (hp : p.Only P) {trace : List (Sigma Answer)}
    {r : Except ε α} (h : Runs p trace r) : ∀ call ∈ trace, P call.1 := by
  induction h with
  | pure a => exact nofun
  | throw e => exact nofun
  | call x h ih =>
    rw [List.forall_mem_cons]
    exact ⟨hp.1, ih (hp.2 x)⟩

end Only

/-! ## How many calls -/

/-- On every way through the program at most `n` calls are of this kind. -/
def AtMost (P : Op → Prop) : Program Op Answer ε α → ℕ → Prop
  | .pure _, _ => True
  | .throw _, _ => True
  | .call op k, n => (¬P op ∧ ∀ x, (k x).AtMost P n) ∨ (0 < n ∧ ∀ x, (k x).AtMost P (n - 1))

section AtMost

variable {P : Op → Prop} {m n : ℕ}

theorem AtMost.mono {p : Program Op Answer ε α} (hp : p.AtMost P m) (hmn : m ≤ n) : p.AtMost P n := by
  induction p generalizing m n with
  | pure a => trivial
  | throw e => trivial
  | call op k ih =>
    rcases hp with ⟨hop, hk⟩ | ⟨hpos, hk⟩
    · exact .inl ⟨hop, fun x => ih x (hk x) hmn⟩
    · exact .inr ⟨by omega, fun x => ih x (hk x) (by omega)⟩

theorem atMost_pure (a : α) : (Pure.pure a : Program Op Answer ε α).AtMost P n := trivial

theorem atMost_throw (e : ε) : (.throw e : Program Op Answer ε α).AtMost P n := trivial

theorem atMost_ofExcept (x : Except ε α) : (.ofExcept x : Program Op Answer ε α).AtMost P n := by
  cases x <;> trivial

/-- A call of another kind. -/
theorem atMost_other {op : Op} (hop : ¬P op) {k : Answer op → Program Op Answer ε α}
    (hk : ∀ x, (k x).AtMost P n) : (call op k).AtMost P n := .inl ⟨hop, hk⟩

/-- A call of this kind. -/
theorem atMost_one {op : Op} {k : Answer op → Program Op Answer ε α} (hk : ∀ x, (k x).AtMost P n) :
    (call op k).AtMost P (n + 1) := .inr ⟨Nat.succ_pos n, hk⟩

/-- One part after the other. -/
theorem AtMost.bind {p : Program Op Answer ε β} {f : β → Program Op Answer ε α} (hp : p.AtMost P m)
    (hf : ∀ b, (f b).AtMost P n) : (p >>= f).AtMost P (m + n) := by
  change (p.bind f).AtMost P (m + n)
  induction p generalizing m with
  | pure b => exact (hf b).mono (Nat.le_add_left n m)
  | throw e => trivial
  | call op k ih =>
    rcases hp with ⟨hop, hk⟩ | ⟨hpos, hk⟩
    · exact .inl ⟨hop, fun x => ih x (hk x)⟩
    · exact .inr ⟨by omega, fun x => (ih x (hk x)).mono (by omega)⟩

/-- A part without such calls, then the other. -/
theorem AtMost.bind_none {p : Program Op Answer ε β} {f : β → Program Op Answer ε α} (hp : p.AtMost P 0)
    (hf : ∀ b, (f b).AtMost P n) : (p >>= f).AtMost P n :=
  (hp.bind hf).mono (Nat.le_of_eq (Nat.zero_add n))

theorem AtMost.tryCatch {p : Program Op Answer ε α} {handler : ε → Program Op Answer ε α} (hp : p.AtMost P m)
    (hhandler : ∀ e, (handler e).AtMost P n) : (p.tryCatch handler).AtMost P (m + n) := by
  induction p generalizing m with
  | pure a => trivial
  | throw e => exact (hhandler e).mono (Nat.le_add_left n m)
  | call op k ih =>
    rcases hp with ⟨hop, hk⟩ | ⟨hpos, hk⟩
    · exact .inl ⟨hop, fun x => ih x (hk x)⟩
    · exact .inr ⟨by omega, fun x => (ih x (hk x)).mono (by omega)⟩

theorem AtMost.tryFinally {p : Program Op Answer ε α} {cleanup : Program Op Answer ε Unit} (hp : p.AtMost P m)
    (hcleanup : cleanup.AtMost P n) : (p.tryFinally cleanup).AtMost P (m + n) := by
  induction p generalizing m with
  | pure a => exact (hcleanup.bind (n := 0) fun _ => atMost_pure a).mono (by omega)
  | throw e => exact (hcleanup.bind (n := 0) fun _ => atMost_throw e).mono (by omega)
  | call op k ih =>
    rcases hp with ⟨hop, hk⟩ | ⟨hpos, hk⟩
    · exact .inl ⟨hop, fun x => ih x (hk x)⟩
    · exact .inr ⟨by omega, fun x => (ih x (hk x)).mono (by omega)⟩

end AtMost

/-! ## Calls that fail for good -/

/-- The program where every call may also fail with an exception that no handler of the program takes:
a call that is answered with nothing ends it. -/
def cutOff : Program Op Answer ε α → Program Op (fun op => Option (Answer op)) (Option ε) α
  | .pure a => .pure a
  | .throw e => .throw (some e)
  | .call op k => .call op fun
    | some x => (k x).cutOff
    | none => .throw none

theorem cutOff_bind (p : Program Op Answer ε β) (f : β → Program Op Answer ε α) :
    (p >>= f).cutOff = p.cutOff >>= fun b => (f b).cutOff := by
  show (p.bind f).cutOff = p.cutOff.bind fun b => (f b).cutOff
  induction p with
  | pure b => rfl
  | throw e => rfl
  | call op k ih =>
    simp only [bind, cutOff]
    congr 1
    funext x
    cases x with
    | none => rfl
    | some x => exact ih x

section CutOff

variable {S : Type} {P : Op → Prop} {handle : (op : Op) → S → Answer op × S}

/-- A program of calls that do not fail for good ends as it would. -/
theorem Only.eval_cutOff {handle' : (op : Op) → S → Option (Answer op) × S} {p : Program Op Answer ε α}
    (hp : p.Only P) (hhandle : ∀ op s, P op → handle' op s = (some (handle op s).1, (handle op s).2)) (s : S) :
    p.cutOff.eval handle' s = ((p.eval handle s).1.mapError some, (p.eval handle s).2) := by
  induction p generalizing s with
  | pure a => rfl
  | throw e => rfl
  | call op k ih =>
    rw [cutOff, eval_call, hhandle op s hp.1]
    exact ih _ (hp.2 _) _

/-- What none of its calls changes, the program does not change. -/
theorem Only.eval_eq {γ : Type} {f : S → γ} {p : Program Op Answer ε α} (hp : p.Only P)
    (hhandle : ∀ op s, P op → f (handle op s).2 = f s) (s : S) : f (p.eval handle s).2 = f s := by
  induction p generalizing s with
  | pure a => rfl
  | throw e => rfl
  | call op k ih => exact (ih _ (hp.2 _) _).trans (hhandle op s hp.1)

end CutOff

/-! ## Environments and runs -/

/-- **Every environment makes the program run**, and what its calls keep between the state and the calls
so far, the run keeps. -/
theorem runs_of_eval {S : Type} {handle : (op : Op) → S → Answer op × S} {I : S → List (Sigma Answer) → Prop}
    (hcall : ∀ op s trace, I s trace → I (handle op s).2 (trace ++ [⟨op, (handle op s).1⟩]))
    (p : Program Op Answer ε α) {s : S} {before : List (Sigma Answer)} (hs : I s before) :
    ∃ trace, Runs p trace (p.eval handle s).1 ∧ I (p.eval handle s).2 (before ++ trace) := by
  induction p generalizing s before with
  | pure a => exact ⟨[], .pure a, by rw [List.append_nil]; exact hs⟩
  | throw e => exact ⟨[], .throw e, by rw [List.append_nil]; exact hs⟩
  | call op k ih =>
    obtain ⟨trace, hrun, hI⟩ := ih (handle op s).1 (hcall op s before hs)
    refine ⟨⟨op, (handle op s).1⟩ :: trace, .call _ hrun, ?_⟩
    rw [List.append_assoc] at hI
    exact hI

/-! ## Specifications and weakest preconditions -/

/-- What each call requires of the state `S` of the proof, and which answers and states may follow. -/
structure Spec (Op : Type) (Answer : Op → Type) (S : Type) where
  wp : (op : Op) → (Answer op → S → Prop) → S → Prop
  mono : ∀ {op : Op} {P Q : Answer op → S → Prop} {s : S}, (∀ r t, P r t → Q r t) → wp op P s → wp op Q s

variable {S : Type}

/-- Every way through the program that the specification allows ends in the postcondition. -/
def wp (spec : Spec Op Answer S) : Program Op Answer ε α → (Except ε α → S → Prop) → S → Prop
  | .pure a, Q => Q (.ok a)
  | .throw e, Q => Q (.error e)
  | .call op k, Q => spec.wp op fun r => (k r).wp spec Q

section Rules

variable (spec : Spec Op Answer S) (Q : Except ε α → S → Prop)

@[simp] theorem wp_pure (a : α) : wp spec (Pure.pure a : Program Op Answer ε α) Q = Q (.ok a) := rfl

@[simp] theorem wp_throw (e : ε) : wp spec (.throw e : Program Op Answer ε α) Q = Q (.error e) := rfl

@[simp] theorem wp_call (op : Op) (k : Answer op → Program Op Answer ε α) :
    wp spec (.call op k) Q = spec.wp op fun r => (k r).wp spec Q := rfl

@[simp] theorem wp_ofExcept (r : Except ε α) : wp spec (ofExcept r : Program Op Answer ε α) Q = Q r := by
  cases r <;> rfl

/-- A sequence needs what its first part needs to establish what the second needs. -/
theorem wp_bind (p : Program Op Answer ε β) (f : β → Program Op Answer ε α) :
    wp spec (p >>= f) Q = wp spec p fun r => match r with
      | .ok b => wp spec (f b) Q
      | .error e => Q (.error e) := by
  show wp spec (p.bind f) Q = _
  induction p with
  | pure a => rfl
  | throw e => rfl
  | call op k ih =>
    show spec.wp op _ = spec.wp op _
    congr 1
    funext r
    exact ih r

/-- A handler takes over what is raised. -/
theorem wp_tryCatch (p : Program Op Answer ε α) (handler : ε → Program Op Answer ε α) :
    wp spec (p.tryCatch handler) Q = wp spec p fun r => match r with
      | .ok a => Q (.ok a)
      | .error e => wp spec (handler e) Q := by
  induction p with
  | pure a => rfl
  | throw e => rfl
  | call op k ih =>
    show spec.wp op _ = spec.wp op _
    congr 1
    funext r
    exact ih r

/-- A cleanup runs on both ways out; its own exception takes the place of the first. -/
theorem wp_tryFinally (p : Program Op Answer ε α) (cleanup : Program Op Answer ε Unit) :
    wp spec (p.tryFinally cleanup) Q = wp spec p fun r => wp spec cleanup fun c => match c with
      | .ok _ => Q r
      | .error e => Q (.error e) := by
  induction p with
  | pure a =>
    refine (wp_bind spec Q cleanup fun _ => .pure a).trans ?_
    show wp spec cleanup _ = wp spec cleanup _
    congr 1
    funext r
    cases r <;> rfl
  | throw e =>
    refine (wp_bind spec Q cleanup fun _ => .throw e).trans ?_
    show wp spec cleanup _ = wp spec cleanup _
    congr 1
    funext r
    cases r <;> rfl
  | call op k ih =>
    show spec.wp op _ = spec.wp op _
    congr 1
    funext r
    exact ih r

variable {spec Q}

/-- **Consequence.** -/
theorem wp_mono {Q' : Except ε α → S → Prop} {p : Program Op Answer ε α} {s : S}
    (hQ : ∀ r t, Q r t → Q' r t) (h : wp spec p Q s) : wp spec p Q' s := by
  induction p generalizing s with
  | pure a => exact hQ _ _ h
  | throw e => exact hQ _ _ h
  | call op k ih => exact spec.mono (fun r t hr => ih r hr) h

/-- **Sequence**, over a condition between its parts. -/
theorem wp_seq {R : Except ε β → S → Prop} {p : Program Op Answer ε β} {f : β → Program Op Answer ε α}
    {s : S} (hp : wp spec p R s) (hok : ∀ b t, R (.ok b) t → wp spec (f b) Q t)
    (herror : ∀ e t, R (.error e) t → Q (.error e) t) : wp spec (p >>= f) Q s := by
  rw [wp_bind]
  refine wp_mono ?_ hp
  intro r t hr
  cases r with
  | ok b => exact hok b t hr
  | error e => exact herror e t hr

/-- **Handling**, over a condition between body and handler. -/
theorem wp_handle {R : Except ε α → S → Prop} {p : Program Op Answer ε α}
    {handler : ε → Program Op Answer ε α} {s : S} (hp : wp spec p R s)
    (hok : ∀ a t, R (.ok a) t → Q (.ok a) t) (herror : ∀ e t, R (.error e) t → wp spec (handler e) Q t) :
    wp spec (p.tryCatch handler) Q s := by
  rw [wp_tryCatch]
  refine wp_mono ?_ hp
  intro r t hr
  cases r with
  | ok a => exact hok a t hr
  | error e => exact herror e t hr

end Rules

end Program

end HardwareTest.Lib
