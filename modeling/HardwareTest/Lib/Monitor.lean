import HardwareTest.Lib.Program
import HardwareTest.Lib.Transition

/-!
# An object behind a re-entrant lock

Threads call the methods of one object.  A method is a program that makes calls of its own on the object's
state, one at a time, and the steps of all threads interleave; but a method holds the lock from its first call to
its end, and a thread may hold the lock around several methods.

* `step` — the threads, one call after another;
* `atomicStep` — the same threads, where a method is one step;
* `run_serializes` — every interleaving has the histories of a run of whole methods, and the same object when
  no method is under way;
* `Level`, `exclusive` — programs that give back the lock as often as they take it;
* `unlocked_at_end`, `progress` — of such threads none ends with the lock, and one can always go on;
* `held_run` — while one of them holds the lock, no other touches the object.
-/

namespace HardwareTest.Lib.Monitor

open Program

/-! ## The lock -/

/-- A re-entrant lock: the thread that holds it, and how often it has taken it again. -/
abbrev Lock := Option (ℕ × ℕ)

namespace Lock

/-- The lock after the thread has taken it; `none` means that the thread waits. -/
def acquire (lock : Lock) (i : ℕ) : Option Lock :=
  match lock with
  | none => some (some (i, 0))
  | some (owner, again) => if owner = i then some (some (owner, again + 1)) else none

/-- The lock after the thread has given it back once; only its holder can. -/
def release (lock : Lock) (i : ℕ) : Option Lock :=
  match lock with
  | none => none
  | some (owner, 0) => if owner = i then some none else none
  | some (owner, again + 1) => if owner = i then some (some (owner, again)) else none

/-- How often the thread holds the lock. -/
def depth (lock : Lock) (i : ℕ) : ℕ :=
  match lock with
  | none => 0
  | some (owner, again) => if owner = i then again + 1 else 0

variable {lock lock' : Lock} {i j : ℕ}

theorem release_acquire (h : lock.acquire i = some lock') : lock'.release i = some lock := by
  cases lock with
  | none =>
    cases h
    simp [release]
  | some held =>
    obtain ⟨owner, again⟩ := held
    rw [acquire] at h
    split_ifs at h with howner
    cases h
    simp [release, howner]

theorem depth_acquire (h : lock.acquire i = some lock') : lock'.depth i = lock.depth i + 1 := by
  cases lock with
  | none =>
    cases h
    simp [depth]
  | some held =>
    obtain ⟨owner, again⟩ := held
    rw [acquire] at h
    split_ifs at h with howner
    cases h
    simp [depth, howner]

theorem depth_release (h : lock.release i = some lock') : lock.depth i = lock'.depth i + 1 := by
  cases lock with
  | none => cases h
  | some held =>
    obtain ⟨owner, again⟩ := held
    cases again <;> rw [release] at h <;> split_ifs at h with howner <;> cases h <;> simp [depth, howner]

/-- Only the holder takes the lock again or gives it back. -/
theorem depth_other (h : lock.acquire i = some lock' ∨ lock.release i = some lock') (hij : j ≠ i) :
    lock.depth j = 0 ∧ lock'.depth j = 0 := by
  cases lock with
  | none =>
    rcases h with h | h
    · cases h
      simp [depth, Ne.symm hij]
    · cases h
  | some held =>
    obtain ⟨owner, again⟩ := held
    rcases h with h | h
    · rw [acquire] at h
      split_ifs at h with howner
      cases h
      simp [depth, howner, Ne.symm hij]
    · cases again <;> rw [release] at h <;> split_ifs at h with howner <;> cases h <;>
        simp [depth, howner, Ne.symm hij]

/-- While one thread holds the lock, no other takes it or gives it back. -/
theorem held_excludes (h : 0 < lock.depth i) (hij : j ≠ i) : lock.acquire j = none ∧ lock.release j = none := by
  cases lock with
  | none => cases h
  | some held =>
    obtain ⟨owner, again⟩ := held
    rw [depth] at h
    split_ifs at h with howner
    · cases again <;> simp [acquire, release, howner, Ne.symm hij]
    · cases h

/-- Its holder can take the lock again, and give it back. -/
theorem held_admits (h : 0 < lock.depth i) : (lock.acquire i).isSome ∧ (lock.release i).isSome := by
  cases lock with
  | none => cases h
  | some held =>
    obtain ⟨owner, again⟩ := held
    rw [depth] at h
    split_ifs at h with howner
    · cases again <;> simp [acquire, release, howner]
    · cases h

end Lock

/-! ## Threads -/

section Monitor

variable {Op : Type} {Answer : Op → Type} {ε S E M X : Type} {Result : M → Type}

/-- What a thread calls: a method, the two ends of a section with the lock, or something that has nothing to do
with the object. -/
inductive ClientOp (M : Type)
  | call (m : M)
  | enter
  | leave
  | other

def ClientAnswer (ε : Type) (Result : M → Type) (X : Type) : ClientOp M → Type
  | .call m => Except ε (Result m)
  | .enter => Unit
  | .leave => Unit
  | .other => X

/-- A program over the object. -/
abbrev Task (ε : Type) (Result : M → Type) (X α : Type) :=
  Program (ClientOp M) (ClientAnswer ε Result X) ε α

/-- The program of a thread. -/
abbrev Client (ε : Type) (Result : M → Type) (X : Type) := Task ε Result X Unit

/-- An object: its methods, and what their calls are answered from its state in an environment. -/
structure Object (Op : Type) (Answer : Op → Type) (ε S E M : Type) (Result : M → Type) where
  body : (m : M) → Program Op Answer ε (Result m)
  handle : E → (op : Op) → S → Answer op × S

/-- Where a thread stands: between two calls, or in a method. -/
inductive Stage (Op : Type) (Answer : Op → Type) (ε E X : Type) (Result : M → Type)
  | idle (rest : Client ε Result X)
  | inside (m : M) (env : E) (rest : Program Op Answer ε (Result m))
      (k : Except ε (Result m) → Client ε Result X)

structure Thread (Op : Type) (Answer : Op → Type) (ε E X : Type) (Result : M → Type) where
  history : List (Sigma (ClientAnswer ε Result X))
  stage : Stage Op Answer ε E X Result

structure World (Op : Type) (Answer : Op → Type) (ε S E X : Type) (Result : M → Type) where
  shared : S
  lock : Lock
  threads : List (Thread Op Answer ε E X Result)

/-- All threads before their first call. -/
def start (s : S) (programs : List (Client ε Result X)) : World Op Answer ε S E X Result where
  shared := s
  lock := none
  threads := programs.map fun p => ⟨[], .idle p⟩

/-- A call of the thread that is no method. -/
def manage (i : ℕ) (x : X) : (op : ClientOp M) → Lock → Option (ClientAnswer ε Result X op × Lock)
  | .call _, _ => none
  | .enter, lock => (lock.acquire i).map fun lock => ((), lock)
  | .leave, lock => (lock.release i).map fun lock => ((), lock)
  | .other, lock => some (x, lock)

variable (o : Object Op Answer ε S E M Result)

/-- The next step of a thread: it enters a method with the lock, makes one call of the method, leaves the
method, or does something else. -/
def step (w : World Op Answer ε S E X Result) (e : ℕ × E × X) : Option (World Op Answer ε S E X Result) :=
  match w.threads[e.1]? with
  | none => none
  | some ⟨history, .idle rest⟩ =>
    match rest with
    | .pure _ => none
    | .throw _ => none
    | .call (.call m) k =>
      (w.lock.acquire e.1).map fun lock =>
        ⟨w.shared, lock, w.threads.set e.1 ⟨history, .inside m e.2.1 (o.body m) k⟩⟩
    | .call op k =>
      (manage e.1 e.2.2 op w.lock).map fun managed =>
        ⟨w.shared, managed.2, w.threads.set e.1 ⟨history ++ [⟨op, managed.1⟩], .idle (k managed.1)⟩⟩
  | some ⟨history, .inside m env rest k⟩ =>
    match rest with
    | .call op q =>
      some ⟨(o.handle env op w.shared).2, w.lock,
        w.threads.set e.1 ⟨history, .inside m env (q (o.handle env op w.shared).1) k⟩⟩
    | .pure r =>
      (w.lock.release e.1).map fun lock =>
        ⟨w.shared, lock, w.threads.set e.1 ⟨history ++ [⟨.call m, .ok r⟩], .idle (k (.ok r))⟩⟩
    | .throw error =>
      (w.lock.release e.1).map fun lock =>
        ⟨w.shared, lock, w.threads.set e.1 ⟨history ++ [⟨.call m, .error error⟩], .idle (k (.error error))⟩⟩

/-! ## Whole methods -/

/-- A thread of the system in which a method is one step. -/
structure AtomicThread (ε X : Type) (Result : M → Type) where
  history : List (Sigma (ClientAnswer ε Result X))
  rest : Client ε Result X

structure AtomicWorld (ε S X : Type) (Result : M → Type) where
  shared : S
  lock : Lock
  threads : List (AtomicThread ε X Result)

def atomicStart (s : S) (programs : List (Client ε Result X)) : AtomicWorld ε S X Result where
  shared := s
  lock := none
  threads := programs.map fun p => ⟨[], p⟩

/-- The next call of a thread: a method runs from its beginning to its end, when no other thread holds the
lock. -/
def atomicStep (w : AtomicWorld ε S X Result) (e : ℕ × E × X) : Option (AtomicWorld ε S X Result) :=
  match w.threads[e.1]? with
  | none => none
  | some ⟨history, rest⟩ =>
    match rest with
    | .pure _ => none
    | .throw _ => none
    | .call (.call m) k =>
      (w.lock.acquire e.1).map fun _ =>
        let done := (o.body m).eval (o.handle e.2.1) w.shared
        ⟨done.2, w.lock, w.threads.set e.1 ⟨history ++ [⟨.call m, done.1⟩], k done.1⟩⟩
    | .call op k =>
      (manage e.1 e.2.2 op w.lock).map fun managed =>
        ⟨w.shared, managed.2, w.threads.set e.1 ⟨history ++ [⟨op, managed.1⟩], k managed.1⟩⟩

/-- The thread between two whole methods: one that is inside a method has not called it yet. -/
def Thread.whole (t : Thread Op Answer ε E X Result) : AtomicThread ε X Result :=
  match t with
  | ⟨history, .idle rest⟩ => ⟨history, rest⟩
  | ⟨history, .inside m _ _ k⟩ => ⟨history, .call (.call m) k⟩

def Stage.IsIdle : Stage Op Answer ε E X Result → Prop
  | .idle _ => True
  | .inside .. => False

/-- A world without a method under way and the atomic world of the same threads. -/
structure Quiet (w : World Op Answer ε S E X Result) (a : AtomicWorld ε S X Result) : Prop where
  shared : w.shared = a.shared
  lock : w.lock = a.lock
  idle : ∀ t ∈ w.threads, t.stage.IsIdle

/-- A world in which one thread is inside a method: what is left of the method gives what the whole of it
gives in the atomic world. -/
structure Busy (w : World Op Answer ε S E X Result) (a : AtomicWorld ε S X Result) (i : ℕ)
    (history : List (Sigma (ClientAnswer ε Result X))) (m : M) (env : E)
    (rest : Program Op Answer ε (Result m)) (k : Except ε (Result m) → Client ε Result X) : Prop where
  thread : w.threads[i]? = some ⟨history, .inside m env rest k⟩
  others : ∀ j t, w.threads[j]? = some t → j ≠ i → t.stage.IsIdle
  lock : a.lock.acquire i = some w.lock
  result : rest.eval (o.handle env) w.shared = (o.body m).eval (o.handle env) a.shared

/-- The two systems agree. -/
structure Agrees (w : World Op Answer ε S E X Result) (a : AtomicWorld ε S X Result) : Prop where
  threads : a.threads = w.threads.map Thread.whole
  state : Quiet w a ∨ ∃ i history m env rest k, Busy o w a i history m env rest k

/-! ## One step -/

/-- What one step can be. -/
inductive Move (w : World Op Answer ε S E X Result) (e : ℕ × E × X) : World Op Answer ε S E X Result → Prop
  | begins {history : List (Sigma (ClientAnswer ε Result X))} {m : M} {k : Except ε (Result m) → Client ε Result X}
      {lock : Lock} (hthread : w.threads[e.1]? = some ⟨history, .idle (.call (.call m) k)⟩)
      (hlock : w.lock.acquire e.1 = some lock) :
      Move w e ⟨w.shared, lock, w.threads.set e.1 ⟨history, .inside m e.2.1 (o.body m) k⟩⟩
  | manages {history : List (Sigma (ClientAnswer ε Result X))} {op : ClientOp M}
      {k : ClientAnswer ε Result X op → Client ε Result X} {x : ClientAnswer ε Result X op} {lock : Lock}
      (hthread : w.threads[e.1]? = some ⟨history, .idle (.call op k)⟩)
      (hlock : manage e.1 e.2.2 op w.lock = some (x, lock)) :
      Move w e ⟨w.shared, lock, w.threads.set e.1 ⟨history ++ [⟨op, x⟩], .idle (k x)⟩⟩
  | goes {history : List (Sigma (ClientAnswer ε Result X))} {m : M} {env : E} {op : Op}
      {q : Answer op → Program Op Answer ε (Result m)} {k : Except ε (Result m) → Client ε Result X}
      (hthread : w.threads[e.1]? = some ⟨history, .inside m env (.call op q) k⟩) :
      Move w e ⟨(o.handle env op w.shared).2, w.lock,
        w.threads.set e.1 ⟨history, .inside m env (q (o.handle env op w.shared).1) k⟩⟩
  | ends {history : List (Sigma (ClientAnswer ε Result X))} {m : M} {env : E} {r : Except ε (Result m)}
      {k : Except ε (Result m) → Client ε Result X} {lock : Lock}
      (hthread : w.threads[e.1]? = some ⟨history, .inside m env (.ofExcept r) k⟩)
      (hlock : w.lock.release e.1 = some lock) :
      Move w e ⟨w.shared, lock, w.threads.set e.1 ⟨history ++ [⟨.call m, r⟩], .idle (k r)⟩⟩

variable {o}

theorem step_moves {w w' : World Op Answer ε S E X Result} {e : ℕ × E × X} (h : step o w e = some w') :
    Move o w e w' := by
  obtain ⟨i, env, x⟩ := e
  rw [step] at h
  cases hthread : w.threads[i]? with
  | none =>
    rw [hthread] at h
    cases h
  | some t =>
    rw [hthread] at h
    obtain ⟨history, stage⟩ := t
    cases stage with
    | idle rest =>
      cases rest with
      | pure b => cases h
      | throw error => cases h
      | call op k =>
        cases op with
        | call m =>
          obtain ⟨lock, hlock, rfl⟩ := Option.map_eq_some_iff.mp h
          exact .begins hthread hlock
        | enter =>
          obtain ⟨⟨a, lock⟩, hlock, rfl⟩ := Option.map_eq_some_iff.mp h
          exact .manages hthread hlock
        | leave =>
          obtain ⟨⟨a, lock⟩, hlock, rfl⟩ := Option.map_eq_some_iff.mp h
          exact .manages hthread hlock
        | other =>
          obtain ⟨⟨a, lock⟩, hlock, rfl⟩ := Option.map_eq_some_iff.mp h
          exact .manages hthread hlock
    | inside m env' rest k =>
      cases rest with
      | pure r =>
        obtain ⟨lock, hlock, rfl⟩ := Option.map_eq_some_iff.mp h
        exact .ends (r := .ok r) hthread hlock
      | throw error =>
        obtain ⟨lock, hlock, rfl⟩ := Option.map_eq_some_iff.mp h
        exact .ends (r := .error error) hthread hlock
      | call op q =>
        cases h
        exact .goes hthread

/-! ## Every interleaving is a run of whole methods -/

theorem atomicStep_manages {a : AtomicWorld ε S X Result} {e : ℕ × E × X}
    {history : List (Sigma (ClientAnswer ε Result X))} {op : ClientOp M}
    {k : ClientAnswer ε Result X op → Client ε Result X} {x : ClientAnswer ε Result X op} {lock : Lock}
    (hthread : a.threads[e.1]? = some ⟨history, .call op k⟩) (hlock : manage e.1 e.2.2 op a.lock = some (x, lock)) :
    atomicStep o a e = some ⟨a.shared, lock, a.threads.set e.1 ⟨history ++ [⟨op, x⟩], k x⟩⟩ := by
  rw [atomicStep, hthread]
  cases op with
  | call m => cases hlock
  | enter => exact congrArg (Option.map _) hlock
  | leave => exact congrArg (Option.map _) hlock
  | other => exact congrArg (Option.map _) hlock

theorem atomicStep_call {a : AtomicWorld ε S X Result} {e : ℕ × E × X}
    {history : List (Sigma (ClientAnswer ε Result X))} {m : M} {k : Except ε (Result m) → Client ε Result X}
    {lock : Lock} (hthread : a.threads[e.1]? = some ⟨history, .call (.call m) k⟩)
    (hlock : a.lock.acquire e.1 = some lock) :
    let done := (o.body m).eval (o.handle e.2.1) a.shared
    atomicStep o a e = some ⟨done.2, a.lock, a.threads.set e.1 ⟨history ++ [⟨.call m, done.1⟩], k done.1⟩⟩ := by
  rw [atomicStep, hthread]
  exact congrArg (Option.map _) hlock

theorem set_self {α : Type} {l : List α} {i : ℕ} {x : α} (h : l[i]? = some x) : l.set i x = l := by
  apply List.ext_getElem?
  intro j
  rw [List.getElem?_set]
  split_ifs with hij hlt
  · rw [← hij, h]
  · rw [← hij, List.getElem?_eq_none (Nat.not_lt.mp hlt)]
  · rfl

variable {w w' : World Op Answer ε S E X Result} {a : AtomicWorld ε S X Result}

theorem Quiet.not_inside (h : Quiet w a) {i : ℕ} {history : List (Sigma (ClientAnswer ε Result X))} {m : M}
    {env : E} {rest : Program Op Answer ε (Result m)} {k : Except ε (Result m) → Client ε Result X} :
    w.threads[i]? ≠ some ⟨history, .inside m env rest k⟩ :=
  fun hthread => h.idle _ (List.mem_of_getElem? hthread)

theorem idle_set {i : ℕ} {history : List (Sigma (ClientAnswer ε Result X))} {rest : Client ε Result X}
    (h : ∀ j u, w.threads[j]? = some u → j ≠ i → u.stage.IsIdle) :
    ∀ u ∈ w.threads.set i ⟨history, .idle rest⟩, u.stage.IsIdle := by
  intro u hu
  obtain ⟨j, hj⟩ := List.mem_iff_getElem?.mp hu
  rw [List.getElem?_set] at hj
  split_ifs at hj with hij hlt
  · cases hj
    trivial
  · exact h j u hj (Ne.symm hij)

/-- **One step** is nothing for the whole methods, or one step. -/
theorem agrees_step {e : ℕ × E × X} (h : Agrees o w a) (hstep : step o w e = some w') :
    ∃ events a', Transition.run (atomicStep o) a events = some a' ∧ Agrees o w' a' := by
  have hwhole : ∀ t, w.threads[e.1]? = some t → a.threads[e.1]? = some t.whole := by
    intro t ht
    rw [h.threads, List.getElem?_map, ht]
    rfl
  have hset : ∀ t : Thread Op Answer ε E X Result,
      (w.threads.set e.1 t).map Thread.whole = a.threads.set e.1 t.whole := by
    intro t
    rw [List.map_set, h.threads]
  have hidle : ∀ history rest, a.threads.set e.1 ⟨history, rest⟩
      = (w.threads.set e.1 ⟨history, .idle rest⟩).map Thread.whole := fun history rest =>
    (hset ⟨history, .idle rest⟩).symm
  cases step_moves hstep with
  | @begins history m k lock hthread hlock =>
    -- the method is called when it ends
    refine ⟨[], a, rfl, ?_, ?_⟩
    · rw [hset]
      exact (set_self (hwhole _ hthread)).symm
    · rcases h.state with hquiet | ⟨i, history', m', env', rest, k', hbusy⟩
      · refine .inr ⟨e.1, history, m, e.2.1, o.body m, k, ?_, ?_, ?_, ?_⟩
        · rw [List.getElem?_set_self (List.getElem?_eq_some_iff.mp hthread).1]
        · intro j t ht hj
          rw [List.getElem?_set_ne (Ne.symm hj)] at ht
          exact hquiet.idle t (List.mem_of_getElem? ht)
        · rw [← hquiet.lock, hlock]
        · rw [← hquiet.shared]
      · exfalso
        by_cases hi : e.1 = i
        · rw [hi, hbusy.thread] at hthread
          cases hthread
        · have hheld : 0 < w.lock.depth i := by
            rw [Lock.depth_acquire hbusy.lock]
            exact Nat.succ_pos _
          rw [(Lock.held_excludes hheld hi).1] at hlock
          cases hlock
  | @manages history op k x lock hthread hlock =>
    rcases h.state with hquiet | ⟨i, history', m', env', rest, k', hbusy⟩
    · rw [hquiet.lock] at hlock
      have hatomic : atomicStep o a e = _ := atomicStep_manages (hwhole _ hthread) hlock
      refine ⟨[e], _, Transition.run_single hatomic, hidle _ _, .inl ⟨hquiet.shared, rfl, ?_⟩⟩
      exact idle_set fun j t ht _ => hquiet.idle t (List.mem_of_getElem? ht)
    · have hi : e.1 ≠ i := by
        intro hi
        rw [hi, hbusy.thread] at hthread
        cases hthread
      have hheld : 0 < w.lock.depth i := by
        rw [Lock.depth_acquire hbusy.lock]
        exact Nat.succ_pos _
      obtain ⟨hacquire, hrelease⟩ := Lock.held_excludes hheld hi
      cases op with
      | call m => cases hlock
      | enter =>
        rw [manage, hacquire] at hlock
        cases hlock
      | leave =>
        rw [manage, hrelease] at hlock
        cases hlock
      | other =>
        cases hlock
        have hatomic : atomicStep o a e = _ := atomicStep_manages (hwhole _ hthread) rfl
        refine ⟨[e], _, Transition.run_single hatomic, hidle _ _,
          .inr ⟨i, history', m', env', rest, k', ?_, ?_, hbusy.lock, hbusy.result⟩⟩
        · rw [List.getElem?_set_ne hi]
          exact hbusy.thread
        · intro j t ht hj
          rw [List.getElem?_set] at ht
          split_ifs at ht
          · cases ht
            trivial
          · exact hbusy.others j t ht hj
  | @goes history m env op q k hthread =>
    rcases h.state with hquiet | ⟨i, history', m', env', rest, k', hbusy⟩
    · exact absurd hthread hquiet.not_inside
    · by_cases hi : e.1 = i
      · have hsame := hthread
        rw [hi, hbusy.thread] at hsame
        cases hsame
        refine ⟨[], a, rfl, ?_,
          .inr ⟨i, history, m, env, q (o.handle env op w.shared).1, k, ?_, ?_, hbusy.lock, ?_⟩⟩
        · rw [hset]
          exact (set_self (hwhole _ hthread)).symm
        · rw [hi, List.getElem?_set_self (List.getElem?_eq_some_iff.mp hbusy.thread).1]
        · intro j t ht hj
          rw [hi, List.getElem?_set_ne (Ne.symm hj)] at ht
          exact hbusy.others j t ht hj
        · exact hbusy.result
      · exact absurd (hbusy.others e.1 _ hthread hi) id
  | @ends history m env r k lock hthread hlock =>
    rcases h.state with hquiet | ⟨i, history', m', env', rest, k', hbusy⟩
    · exact absurd hthread hquiet.not_inside
    · by_cases hi : e.1 = i
      · have hsame := hthread
        rw [hi, hbusy.thread] at hsame
        cases hsame
        have hback : lock = a.lock := by
          rw [hi, Lock.release_acquire hbusy.lock] at hlock
          exact (Option.some.inj hlock).symm
        have hresult := hbusy.result
        rw [eval_ofExcept] at hresult
        have hatomic : atomicStep o a (e.1, env, e.2.2) = _ := atomicStep_call (hwhole _ hthread) (hi ▸ hbusy.lock)
        rw [← hresult] at hatomic
        refine ⟨[(e.1, env, e.2.2)], _, Transition.run_single hatomic, hidle _ _,
          .inl ⟨rfl, hback, idle_set fun j t ht hj => hbusy.others j t ht (hi ▸ hj)⟩⟩
      · exact absurd (hbusy.others e.1 _ hthread hi) id

/-- **Every interleaving is a run of whole methods.**  Each thread has the history that it has in a run in
which every method is one step; and when no method is under way, the object is the same. -/
theorem run_serializes {s : S} {programs : List (Client ε Result X)} {events : List (ℕ × E × X)}
    (hrun : Transition.run (step o) (start s programs) events = some w) :
    ∃ atomicEvents a, Transition.run (atomicStep o) (atomicStart s programs) atomicEvents = some a ∧
      Agrees o w a := by
  refine Transition.run_invariant (I := fun w => ∃ atomicEvents a,
    Transition.run (atomicStep o) (atomicStart s programs) atomicEvents = some a ∧ Agrees o w a) ?_ ?_ hrun
  · rintro w e w' ⟨events, a, hbefore, hagrees⟩ hstep
    obtain ⟨events', a', hafter, hagrees'⟩ := agrees_step hagrees hstep
    exact ⟨events ++ events', a', Transition.run_trans hbefore hafter, hagrees'⟩
  · refine ⟨[], _, rfl, ?_, .inl ⟨rfl, rfl, ?_⟩⟩
    · rw [start, atomicStart, List.map_map]
      rfl
    · intro t ht
      obtain ⟨p, -, rfl⟩ := List.mem_map.mp ht
      trivial

/-! ## Sections with the lock -/

variable {α β : Type}

/-- Call a method. -/
def invoke (m : M) : Task ε Result X (Result m) := .call (.call m) .ofExcept

def giveBack : Task ε Result X Unit := .call .leave fun _ => .pure ()

/-- A section with the lock, which is given back whether the body returned or raised. -/
def exclusive (body : Task ε Result X α) :
    Task ε Result X α :=
  .call .enter fun _ => body.tryFinally giveBack

/-- From the depth `n` of the lock the program ends at the depth `b`, and never gets below it. -/
def Level (b : ℕ) : Task ε Result X α → ℕ → Prop
  | .pure _, n => n = b
  | .throw _, n => n = b
  | .call (.call _) k, n => ∀ x, Level b (k x) n
  | .call .enter k, n => Level b (k ()) (n + 1)
  | .call .leave k, n => b < n ∧ Level b (k ()) (n - 1)
  | .call .other k, n => ∀ x, Level b (k x) n

/-- The program gives back the lock as often as it takes it. -/
def Balanced (p : Task ε Result X α) : Prop := ∀ b, Level b p b

theorem balanced_pure (a : α) : Balanced (.pure a : Task ε Result X α) :=
  fun _ => rfl

theorem balanced_throw (error : ε) :
    Balanced (.throw error : Task ε Result X α) := fun _ => rfl

theorem balanced_invoke (m : M) : Balanced (invoke m : Task ε Result X _) := by
  intro b r
  cases r <;> rfl

theorem balanced_other {k : X → Task ε Result X α} (hk : ∀ x, Balanced (k x)) :
    Balanced (.call .other k) := fun b x => hk x b

theorem Level.bind {b n : ℕ} {p : Task ε Result X β}
    {f : β → Task ε Result X α} (hp : Level b p n) (hf : ∀ x, Level b (f x) b) :
    Level b (p >>= f) n := by
  change Level b (p.bind f) n
  induction p generalizing n with
  | pure a =>
    cases hp
    exact hf a
  | throw error => exact hp
  | call op k ih =>
    cases op with
    | call m => exact fun x => ih x (hp x)
    | enter => exact ih () hp
    | leave => exact ⟨hp.1, ih () hp.2⟩
    | other => exact fun x => ih x (hp x)

theorem Level.tryCatch {b n : ℕ} {p : Task ε Result X α}
    {handler : ε → Task ε Result X α} (hp : Level b p n)
    (hhandler : ∀ error, Level b (handler error) b) : Level b (p.tryCatch handler) n := by
  induction p generalizing n with
  | pure a => exact hp
  | throw error =>
    cases hp
    exact hhandler error
  | call op k ih =>
    cases op with
    | call m => exact fun x => ih x (hp x)
    | enter => exact ih () hp
    | leave => exact ⟨hp.1, ih () hp.2⟩
    | other => exact fun x => ih x (hp x)

/-- However the body ends, the lock is given back once more. -/
theorem Level.giveBack {b n : ℕ} {p : Task ε Result X α}
    (hp : Level (b + 1) p n) : Level b (p.tryFinally giveBack) n := by
  induction p generalizing n with
  | pure a =>
    cases hp
    exact ⟨Nat.lt_succ_self b, rfl⟩
  | throw error =>
    cases hp
    exact ⟨Nat.lt_succ_self b, rfl⟩
  | call op k ih =>
    cases op with
    | call m => exact fun x => ih x (hp x)
    | enter => exact ih () hp
    | leave => exact ⟨Nat.lt_trans (Nat.lt_succ_self b) hp.1, ih () hp.2⟩
    | other => exact fun x => ih x (hp x)

theorem Balanced.bind {p : Task ε Result X β}
    {f : β → Task ε Result X α} (hp : Balanced p) (hf : ∀ x, Balanced (f x)) :
    Balanced (p >>= f) := fun b => (hp b).bind fun x => hf x b

theorem Balanced.tryCatch {p : Task ε Result X α}
    {handler : ε → Task ε Result X α} (hp : Balanced p)
    (hhandler : ∀ error, Balanced (handler error)) : Balanced (p.tryCatch handler) :=
  fun b => (hp b).tryCatch fun error => hhandler error b

/-- **A section gives back the lock.** -/
theorem Balanced.exclusive {p : Task ε Result X α} (hp : Balanced p) :
    Balanced (exclusive p) := fun b => (hp (b + 1)).giveBack

/-! ## The lock after a run -/

/-- What is left of a thread at a depth of the lock gives back what the thread holds. -/
def Thread.Owes (t : Thread Op Answer ε E X Result) (n : ℕ) : Prop :=
  match t.stage with
  | .idle rest => Level 0 rest n
  | .inside _ _ _ k => 0 < n ∧ ∀ r, Level 0 (k r) (n - 1)

/-- Every thread gives back what it holds, and only threads hold the lock. -/
structure Orderly (w : World Op Answer ε S E X Result) : Prop where
  owes : ∀ i (t : Thread Op Answer ε E X Result), w.threads[i]? = some t → t.Owes (w.lock.depth i)
  holder : ∀ i, 0 < w.lock.depth i → i < w.threads.length

theorem Orderly.set {s : S} {lock : Lock} {i : ℕ} {t : Thread Op Answer ε E X Result} (h : Orderly w)
    (hi : i < w.threads.length) (ht : t.Owes (lock.depth i))
    (hothers : ∀ j, j ≠ i → lock.depth j = w.lock.depth j) :
    Orderly (⟨s, lock, w.threads.set i t⟩ : World Op Answer ε S E X Result) := by
  constructor
  · intro j u hj
    rw [List.getElem?_set] at hj
    split_ifs at hj with hij
    · cases hj
      rw [← hij]
      exact ht
    · rw [hothers j (Ne.symm hij)]
      exact h.owes j u hj
  · intro j hj
    rw [List.length_set]
    by_cases hij : j = i
    · rw [hij]
      exact hi
    · rw [hothers j hij] at hj
      exact h.holder j hj

theorem orderly_step {e : ℕ × E × X} (h : Orderly w) (hstep : step o w e = some w') : Orderly w' := by
  have hother : ∀ {lock : Lock}, w.lock.acquire e.1 = some lock ∨ w.lock.release e.1 = some lock →
      ∀ j, j ≠ e.1 → lock.depth j = w.lock.depth j := by
    intro lock hlock j hj
    obtain ⟨hbefore, hafter⟩ := Lock.depth_other hlock hj
    rw [hbefore, hafter]
  cases step_moves hstep with
  | begins hthread hlock =>
    refine h.set (List.getElem?_eq_some_iff.mp hthread).1 ?_ (hother (.inl hlock))
    have howes := h.owes _ _ hthread
    rw [Lock.depth_acquire hlock]
    exact ⟨Nat.succ_pos _, fun r => howes r⟩
  | @manages history op k x lock hthread hlock =>
    have hlt := (List.getElem?_eq_some_iff.mp hthread).1
    have howes := h.owes _ _ hthread
    cases op with
    | call m => cases hlock
    | enter =>
      obtain ⟨lock', hacquire, heq⟩ := Option.map_eq_some_iff.mp hlock
      cases heq
      refine h.set hlt ?_ (hother (.inl hacquire))
      rw [Lock.depth_acquire hacquire]
      exact howes
    | leave =>
      obtain ⟨lock', hrelease, heq⟩ := Option.map_eq_some_iff.mp hlock
      cases heq
      refine h.set hlt ?_ (hother (.inr hrelease))
      rw [Thread.Owes, Lock.depth_release hrelease] at howes
      exact howes.2
    | other =>
      cases hlock
      exact h.set hlt (howes _) fun _ _ => rfl
  | goes hthread =>
    have howes := h.owes _ _ hthread
    exact h.set (List.getElem?_eq_some_iff.mp hthread).1 ⟨howes.1, howes.2⟩ fun _ _ => rfl
  | ends hthread hlock =>
    refine h.set (List.getElem?_eq_some_iff.mp hthread).1 ?_ (hother (.inr hlock))
    have howes := (h.owes _ _ hthread).2
    rw [Lock.depth_release hlock] at howes
    exact howes _

theorem orderly_run {s : S} {programs : List (Client ε Result X)} (hprograms : ∀ p ∈ programs, Balanced p)
    {events : List (ℕ × E × X)} (hrun : Transition.run (step o) (start s programs) events = some w) :
    Orderly w := by
  refine Transition.run_invariant (I := Orderly) (fun w e w' h hstep => orderly_step h hstep) ⟨?_, ?_⟩ hrun
  · intro i t ht
    obtain ⟨p, hp, rfl⟩ := List.mem_map.mp (List.mem_of_getElem? ht)
    exact hprograms p hp 0
  · intro i hi
    exact absurd hi (Nat.lt_irrefl 0)

/-- The thread has returned or raised. -/
def Thread.Ended (t : Thread Op Answer ε E X Result) : Prop :=
  (∃ a, t.stage = .idle (.pure a)) ∨ ∃ error, t.stage = .idle (.throw error)

/-- **No thread ends with the lock.** -/
theorem unlocked_at_end (h : Orderly w) (hended : ∀ t ∈ w.threads, t.Ended) : w.lock = none := by
  rcases hlock : w.lock with - | ⟨owner, again⟩
  · rfl
  · exfalso
    have hdepth : 0 < w.lock.depth owner := by
      rw [hlock, Lock.depth, if_pos rfl]
      exact Nat.succ_pos _
    have hthread := List.getElem?_eq_getElem (h.holder owner hdepth)
    have howes := h.owes _ _ hthread
    rcases hended _ (List.mem_of_getElem? hthread) with ⟨a, ha⟩ | ⟨error, herror⟩
    · rw [Thread.Owes, ha] at howes
      exact absurd howes (Nat.pos_iff_ne_zero.mp hdepth)
    · rw [Thread.Owes, herror] at howes
      exact absurd howes (Nat.pos_iff_ne_zero.mp hdepth)

/-- A thread that has not ended can go on, when the lock is free or its own. -/
theorem step_isSome (h : Orderly w) {i : ℕ} {t : Thread Op Answer ε E X Result} (ht : w.threads[i]? = some t)
    (hended : ¬t.Ended) (hlock : w.lock = none ∨ 0 < w.lock.depth i) (env : E) (x : X) :
    (step o w (i, env, x)).isSome := by
  have hacquire : (w.lock.acquire i).isSome := by
    rcases hlock with hfree | hheld
    · rw [hfree]
      rfl
    · exact (Lock.held_admits hheld).1
  have hrelease : 0 < w.lock.depth i → (w.lock.release i).isSome := fun hheld => (Lock.held_admits hheld).2
  have howes := h.owes i t ht
  obtain ⟨history, stage⟩ := t
  rw [step]
  dsimp only
  rw [ht]
  cases stage with
  | idle rest =>
    cases rest with
    | pure a => exact absurd (.inl ⟨a, rfl⟩) hended
    | throw error => exact absurd (.inr ⟨error, rfl⟩) hended
    | call op k =>
      cases op with
      | call m => rwa [Option.isSome_map]
      | enter => rwa [Option.isSome_map, manage, Option.isSome_map]
      | leave =>
        rw [Option.isSome_map, manage, Option.isSome_map]
        exact hrelease (Nat.zero_lt_of_lt howes.1)
      | other => rfl
  | inside m env' rest k =>
    cases rest with
    | pure r => rw [Option.isSome_map]; exact hrelease howes.1
    | throw error => rw [Option.isSome_map]; exact hrelease howes.1
    | call op q => rfl

/-- **There is no deadlock**: as long as one thread has not ended, one can go on. -/
theorem progress (h : Orderly w) {t : Thread Op Answer ε E X Result} (ht : t ∈ w.threads) (hended : ¬t.Ended) :
    ∃ i, ∀ env x, (step o w (i, env, x)).isSome := by
  rcases hlock : w.lock with - | ⟨owner, again⟩
  · obtain ⟨i, hi⟩ := List.mem_iff_getElem?.mp ht
    exact ⟨i, step_isSome h hi hended (.inl hlock)⟩
  · have hdepth : 0 < w.lock.depth owner := by
      rw [hlock, Lock.depth, if_pos rfl]
      exact Nat.succ_pos _
    have hthread := List.getElem?_eq_getElem (h.holder owner hdepth)
    refine ⟨owner, step_isSome h hthread ?_ (.inr hdepth)⟩
    have howes := h.owes _ _ hthread
    rintro (⟨a, ha⟩ | ⟨error, herror⟩)
    · rw [Thread.Owes, ha] at howes
      exact absurd howes (Nat.pos_iff_ne_zero.mp hdepth)
    · rw [Thread.Owes, herror] at howes
      exact absurd howes (Nat.pos_iff_ne_zero.mp hdepth)

/-- **While a thread holds the lock, no step of another thread touches the object**, the lock or the thread. -/
theorem held_step (h : Orderly w) {i : ℕ} (hheld : 0 < w.lock.depth i) {e : ℕ × E × X} (he : e.1 ≠ i)
    (hstep : step o w e = some w') :
    w'.shared = w.shared ∧ w'.lock = w.lock ∧ w'.threads[i]? = w.threads[i]? := by
  obtain ⟨hacquire, hrelease⟩ := Lock.held_excludes hheld he
  have hfree : w.lock.depth e.1 = 0 := by
    by_contra hpos
    have hown := (Lock.held_admits (Nat.pos_of_ne_zero hpos)).1
    rw [hacquire] at hown
    cases hown
  cases step_moves hstep with
  | begins hthread hlock =>
    rw [hacquire] at hlock
    cases hlock
  | @manages history op k x lock hthread hlock =>
    cases op with
    | call m => cases hlock
    | enter =>
      rw [manage, hacquire] at hlock
      cases hlock
    | leave =>
      rw [manage, hrelease] at hlock
      cases hlock
    | other =>
      cases hlock
      exact ⟨rfl, rfl, List.getElem?_set_ne he⟩
  | goes hthread =>
    have howes := (h.owes _ _ hthread).1
    rw [hfree] at howes
    exact absurd howes (Nat.lt_irrefl 0)
  | ends hthread hlock =>
    rw [hrelease] at hlock
    cases hlock

/-- The rule for any number of steps of other threads. -/
theorem held_run (h : Orderly w) {i : ℕ} (hheld : 0 < w.lock.depth i) {events : List (ℕ × E × X)}
    (hothers : ∀ e ∈ events, e.1 ≠ i) (hrun : Transition.run (step o) w events = some w') :
    w'.shared = w.shared ∧ w'.lock = w.lock ∧ w'.threads[i]? = w.threads[i]? := by
  induction events generalizing w with
  | nil =>
    cases hrun
    exact ⟨rfl, rfl, rfl⟩
  | cons e events ih =>
    obtain ⟨w₁, hstep, hrest⟩ := Transition.run_cons hrun
    obtain ⟨hshared, hlock, hthread⟩ := held_step h hheld (hothers e List.mem_cons_self) hstep
    obtain ⟨hshared', hlock', hthread'⟩ := ih (orderly_step h hstep) (by rwa [hlock])
      (fun e he => hothers e (List.mem_cons_of_mem _ he)) hrest
    exact ⟨hshared'.trans hshared, hlock'.trans hlock, hthread'.trans hthread⟩

end Monitor

end HardwareTest.Lib.Monitor
