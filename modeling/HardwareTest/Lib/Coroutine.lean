import HardwareTest.Lib.Program

/-!
# Programs that wait

A program whose environment answers some of its calls at once and lets it wait for the others runs in
stretches: up to the next call that waits, and on with its answer when there is one.

* `Outcome` — the end of a stretch: the program is finished, or suspended at a call;
* `resume` — one stretch, in an environment that answers from a state of its own;
* `resume_ofExcept`, `resume_call` — the rules.
-/

namespace HardwareTest.Lib.Program

variable {Op : Type} {Answer : Op → Type} {ε α : Type}

/-- The end of a stretch. -/
inductive Outcome (Op : Type) (Answer : Op → Type) (ε α : Type)
  | finished (r : Except ε α)
  | suspended (op : Op) (k : Answer op → Program Op Answer ε α)

variable {S : Type} (handle : (op : Op) → S → Option (Answer op × S))

/-- One stretch: `handle` gives no answer to a call that waits. -/
def resume : Program Op Answer ε α → S → Outcome Op Answer ε α × S
  | .pure a, s => (.finished (.ok a), s)
  | .throw e, s => (.finished (.error e), s)
  | .call op k, s =>
    match handle op s with
    | some (x, t) => (k x).resume t
    | none => (.suspended op k, s)

theorem resume_ofExcept (r : Except ε α) (s : S) :
    (ofExcept r : Program Op Answer ε α).resume handle s = (.finished r, s) := by
  cases r <;> rfl

variable {handle}

/-- A call that is answered at once. -/
theorem resume_call {op : Op} {k : Answer op → Program Op Answer ε α} {s t : S} {x : Answer op}
    (h : handle op s = some (x, t)) : (.call op k : Program Op Answer ε α).resume handle s
      = (k x).resume handle t := by
  rw [resume, h]

end HardwareTest.Lib.Program
