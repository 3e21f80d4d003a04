import HardwareTest.Lib.Program
import HardwareTest.Python.Text

/-!
# Connecting and closing a stand

A stand maps roles to devices, and several roles may share one device.  `connect` opens each device
once, in role order, and undoes what it has opened when one of them fails; `close` closes them all.
The devices answer with an exception or not: a `pattern` gives the answer to every call, and a run
leaves the list of the calls that were made.

* `TestStand.connect`, `TestStand.close` — the two methods;
* `RolledBack` — what a failed `connect` should leave behind;
* `rolledBack_iff` — when it does: no `close` of a connected device may raise, since the first that
  raises ends the loop and takes the place of the connect failure;
* `close_attempts_all` — `close` has no such gap.
-/

namespace HardwareTest.Stand

open HardwareTest.Lib HardwareTest.Python

variable {D E : Type}

/-- A call of a device. -/
inductive DeviceCall (D : Type)
  | connect (device : D)
  | close (device : D)
  deriving DecidableEq

/-- Code that calls devices, which answer or raise. -/
abbrev Method (D E α : Type) := Program (DeviceCall D) (fun _ => Except E Unit) E α

def callDevice (c : DeviceCall D) : Method D E Unit := .call c Program.ofExcept

/-- `dict.fromkeys` and back to the keys: each value once, where it first stands. -/
def fromkeys [BEq D] (values : List D) : List D := values.eraseDups

structure TestStand (D : Type) where
  devices : List (Text × D)

namespace TestStand

def uniqueDevices [BEq D] (stand : TestStand D) : List D := fromkeys (stand.devices.map Prod.snd)

/-- The loop of `connect`: the devices it has connected, and what ended it. -/
def connectEach : List D → List D → Method D E (List D × Option E)
  | connected, [] => pure (connected, none)
  | connected, device :: devices => .call (.connect device) fun
    | .ok () => connectEach (connected ++ [device]) devices
    | .error e => pure (connected, some e)

/-- The loop that undoes them. -/
def closeEach : List D → Method D E Unit
  | [] => pure ()
  | device :: devices => do
    callDevice (.close device)
    closeEach devices

/-- `connect`; `isException` tells the instances of `Exception`, which the handler catches. -/
def connect [BEq D] (isException : E → Bool) (stand : TestStand D) : Method D E Unit := do
  let (connected, ended) ← connectEach [] stand.uniqueDevices
  match ended with
  | none => pure ()
  | some e =>
    if isException e then
      closeEach connected.reverse
    .throw e

/-- The loop of `close`, which keeps the first error. -/
def closeAll (isException : E → Bool) : Option E → List D → Method D E (Option E)
  | firstError, [] => pure firstError
  | firstError, device :: devices => .call (.close device) fun
    | .ok () => closeAll isException firstError devices
    | .error e =>
      if isException e then closeAll isException (firstError.or (some e)) devices else .throw e

def close [BEq D] (isException : E → Bool) (stand : TestStand D) : Method D E Unit := do
  match ← closeAll isException none stand.uniqueDevices.reverse with
  | none => pure ()
  | some e => .throw e

end TestStand

/-! ## Runs -/

/-- Which calls raise, and what.  Each device is connected and closed at most once in a run. -/
abbrev Pattern (D E : Type) := DeviceCall D → Except E Unit

/-- The answer of the pattern; the calls are recorded. -/
def answer (pattern : Pattern D E) (c : DeviceCall D) (calls : List (DeviceCall D)) :
    Except E Unit × List (DeviceCall D) :=
  (pattern c, calls ++ [c])

/-- A method from its call to its end: what it returns or raises, and the calls it has made. -/
def exec {α : Type} (pattern : Pattern D E) (m : Method D E α) : Except E α × List (DeviceCall D) :=
  m.eval (answer pattern) []

/-- The devices that were closed, in order. -/
def closedDevices (calls : List (DeviceCall D)) : List D :=
  calls.filterMap fun
    | .close device => some device
    | .connect _ => none

/-- The devices whose `connect` succeeded, in order. -/
def connectedDevices (pattern : Pattern D E) (calls : List (DeviceCall D)) : List D :=
  calls.filterMap fun
    | .connect device => if (pattern (.connect device)).isOk then some device else none
    | .close _ => none

/-- The first exception of a `connect`. -/
def connectFailure (pattern : Pattern D E) (calls : List (DeviceCall D)) : Option E :=
  calls.findSome? fun
    | .connect device =>
      match pattern (.connect device) with
      | .ok () => none
      | .error e => some e
    | .close _ => none

/-- What a failed `connect` should leave behind: every connected device closed once, in reverse order,
and the connect failure raised. -/
structure RolledBack (pattern : Pattern D E) (calls : List (DeviceCall D)) (raised : E) : Prop where
  reversed : closedDevices calls = (connectedDevices pattern calls).reverse
  once : (closedDevices calls).Nodup
  original : connectFailure pattern calls = some raised

/-! ## The two loops -/

variable {pattern : Pattern D E}

/-- `connectEach` reaches the end, or stops at the first device that raises. -/
theorem connectEach_cases (pattern : Pattern D E) (connected devices : List D)
    (calls : List (DeviceCall D)) :
    ((∀ d ∈ devices, pattern (.connect d) = .ok ()) ∧
      (TestStand.connectEach connected devices).eval (answer pattern) calls
        = (.ok (connected ++ devices, none), calls ++ devices.map .connect)) ∨
    ∃ before d after e, devices = before ++ d :: after ∧
      (∀ d ∈ before, pattern (.connect d) = .ok ()) ∧ pattern (.connect d) = .error e ∧
      (TestStand.connectEach connected devices).eval (answer pattern) calls
        = (.ok (connected ++ before, some e), calls ++ (before ++ [d]).map .connect) := by
  induction devices generalizing connected calls with
  | nil => exact .inl ⟨by simp, by simp [TestStand.connectEach]⟩
  | cons d devices ih =>
    cases hd : pattern (.connect d) with
    | error e =>
      refine .inr ⟨[], d, devices, e, rfl, by simp, hd, ?_⟩
      simp [TestStand.connectEach, answer, hd]
    | ok _ =>
      have hnext : (TestStand.connectEach connected (d :: devices)).eval (answer pattern) calls
          = (TestStand.connectEach (connected ++ [d]) devices).eval (answer pattern)
              (calls ++ [.connect d]) := by
        simp [TestStand.connectEach, answer, hd]
      rcases ih (connected ++ [d]) (calls ++ [.connect d])
        with ⟨hall, heval⟩ | ⟨before, d', after, e, rfl, hall, he, heval⟩
      · refine .inl ⟨List.forall_mem_cons.mpr ⟨hd, hall⟩, ?_⟩
        rw [hnext, heval]
        simp
      · refine .inr ⟨d :: before, d', after, e, rfl, List.forall_mem_cons.mpr ⟨hd, hall⟩, he, ?_⟩
        rw [hnext, heval]
        simp

/-- `closeEach` reaches the end, or stops at the first device that raises. -/
theorem closeEach_cases (pattern : Pattern D E) (devices : List D) (calls : List (DeviceCall D)) :
    ((∀ d ∈ devices, pattern (.close d) = .ok ()) ∧
      (TestStand.closeEach devices).eval (answer pattern) calls
        = (.ok (), calls ++ devices.map .close)) ∨
    ∃ before d after e, devices = before ++ d :: after ∧
      (∀ d ∈ before, pattern (.close d) = .ok ()) ∧ pattern (.close d) = .error e ∧
      (TestStand.closeEach devices).eval (answer pattern) calls
        = (.error e, calls ++ (before ++ [d]).map .close) := by
  induction devices generalizing calls with
  | nil => exact .inl ⟨by simp, by simp [TestStand.closeEach]⟩
  | cons d devices ih =>
    cases hd : pattern (.close d) with
    | error e =>
      refine .inr ⟨[], d, devices, e, rfl, by simp, hd, ?_⟩
      simp [TestStand.closeEach, callDevice, answer, hd]
    | ok _ =>
      have hnext : (TestStand.closeEach (d :: devices)).eval (answer pattern) calls
          = (TestStand.closeEach devices).eval (answer pattern) (calls ++ [.close d]) := by
        simp [TestStand.closeEach, callDevice, answer, hd]
      rcases ih (calls ++ [.close d]) with ⟨hall, heval⟩ | ⟨before, d', after, e, rfl, hall, he, heval⟩
      · refine .inl ⟨List.forall_mem_cons.mpr ⟨hd, hall⟩, ?_⟩
        rw [hnext, heval]
        simp
      · refine .inr ⟨d :: before, d', after, e, rfl, List.forall_mem_cons.mpr ⟨hd, hall⟩, he, ?_⟩
        rw [hnext, heval]
        simp

/-! ## What the calls of a run show -/

theorem closedDevices_append (xs ys : List (DeviceCall D)) :
    closedDevices (xs ++ ys) = closedDevices xs ++ closedDevices ys := List.filterMap_append

@[simp] theorem closedDevices_connects (devices : List D) :
    closedDevices (devices.map .connect) = [] := by
  simp [closedDevices, List.filterMap_map]

@[simp] theorem closedDevices_closes (devices : List D) :
    closedDevices (devices.map .close) = devices := by
  simp [closedDevices, List.filterMap_map]

theorem connectedDevices_append (xs ys : List (DeviceCall D)) :
    connectedDevices pattern (xs ++ ys) = connectedDevices pattern xs ++ connectedDevices pattern ys :=
  List.filterMap_append

@[simp] theorem connectedDevices_closes (devices : List D) :
    connectedDevices pattern (devices.map .close) = [] := by
  simp [connectedDevices, List.filterMap_map]

theorem connectedDevices_connects {devices : List D}
    (h : ∀ d ∈ devices, pattern (.connect d) = .ok ()) :
    connectedDevices pattern (devices.map .connect) = devices := by
  induction devices with
  | nil => rfl
  | cons d devices ih =>
    obtain ⟨hd, hrest⟩ := List.forall_mem_cons.mp h
    have := ih hrest
    simp only [connectedDevices, List.map_cons] at this ⊢
    rw [List.filterMap_cons_some (b := d) (by simp [hd, Except.isOk, Except.toBool]), this]

theorem connectFailure_connects {devices : List D} {d : D} {e : E}
    (h : ∀ d ∈ devices, pattern (.connect d) = .ok ()) (hd : pattern (.connect d) = .error e)
    (calls : List (DeviceCall D)) :
    connectFailure pattern ((devices ++ [d]).map .connect ++ calls) = some e := by
  induction devices with
  | nil => simp [connectFailure, hd]
  | cons d' devices ih =>
    obtain ⟨hd', hrest⟩ := List.forall_mem_cons.mp h
    have := ih hrest
    simp only [connectFailure, List.cons_append, List.map_cons, List.findSome?_cons, hd'] at this ⊢
    exact this

theorem nodup_fromkeys [BEq D] [LawfulBEq D] (values : List D) : (fromkeys values).Nodup := by
  rw [fromkeys]
  induction h : values.length using Nat.strong_induction_on generalizing values with
  | _ n ih =>
    cases values with
    | nil => simp
    | cons d rest =>
      rw [List.eraseDups_cons, List.nodup_cons]
      constructor
      · simp [List.mem_eraseDups]
      · refine ih _ ?_ _ rfl
        rw [← h, List.length_cons]
        exact Nat.lt_succ_of_le (List.length_filter_le _ _)

/-! ## The rollback -/

section Rollback

/-- The devices that are connected before one raises. -/
def opened (pattern : Pattern D E) (devices : List D) : List D :=
  devices.takeWhile fun device => (pattern (.connect device)).isOk

/-- **When the rollback works.**  Nothing was connected, or the failure is an `Exception` and no
connected device raises when it is closed.  (The one closed last, which was connected first, may raise
the connect failure itself.) -/
def UndoesCleanly [BEq D] (isException : E → Bool) (stand : TestStand D) (pattern : Pattern D E) :
    Prop :=
  opened pattern stand.uniqueDevices = [] ∨
    ∃ e, connectFailure pattern (stand.uniqueDevices.map .connect) = some e ∧ isException e ∧
      ∀ device ∈ opened pattern stand.uniqueDevices, ∀ e', pattern (.close device) = .error e' →
        (opened pattern stand.uniqueDevices).head? = some device ∧ e' = e

theorem opened_eq {before after : List D} {d : D} {e : E}
    (hall : ∀ d ∈ before, pattern (.connect d) = .ok ()) (he : pattern (.connect d) = .error e) :
    opened pattern (before ++ d :: after) = before := by
  rw [opened, List.takeWhile_append_of_pos, List.takeWhile_cons_of_neg]
  · simp
  · simp [he, Except.isOk, Except.toBool]
  · intro d' hd'
    simp [hall d' hd', Except.isOk, Except.toBool]

/-- **What a `connect` that raises has done**: `before` was connected and `d` raised `e`.  Then the
exception passed by the handler, or the handler closed everything, or a `close` raised in its turn. -/
theorem connect_error_cases [BEq D] {isException : E → Bool} {stand : TestStand D} {raised : E}
    {calls : List (DeviceCall D)}
    (h : exec pattern (stand.connect isException) = (.error raised, calls)) :
    ∃ before d after e, stand.uniqueDevices = before ++ d :: after ∧
      (∀ d ∈ before, pattern (.connect d) = .ok ()) ∧ pattern (.connect d) = .error e ∧
      ((isException e = false ∧ raised = e ∧ calls = (before ++ [d]).map .connect) ∨
        (isException e = true ∧ (∀ c ∈ before.reverse, pattern (.close c) = .ok ()) ∧ raised = e ∧
          calls = (before ++ [d]).map .connect ++ before.reverse.map .close) ∨
        (isException e = true ∧ ∃ u c v, before.reverse = u ++ c :: v ∧
          (∀ c ∈ u, pattern (.close c) = .ok ()) ∧ pattern (.close c) = .error raised ∧
          calls = (before ++ [d]).map .connect ++ (u ++ [c]).map .close)) := by
  rw [exec, TestStand.connect, Program.eval_bind] at h
  rcases connectEach_cases pattern [] stand.uniqueDevices [] with
    ⟨hall, heval⟩ | ⟨before, d, after, e, heq, hall, he, heval⟩
  · rw [heval] at h
    simp at h
  · refine ⟨before, d, after, e, heq, hall, he, ?_⟩
    rw [heval] at h
    simp only [List.nil_append] at h
    by_cases hexc : isException e = true
    · rw [if_pos hexc, Program.eval_bind] at h
      rcases closeEach_cases pattern before.reverse ((before ++ [d]).map .connect) with
        ⟨hclose, heval'⟩ | ⟨u, c, v, e', hu, hclose, hc, heval'⟩
      · rw [heval'] at h
        obtain ⟨hraised, hcalls⟩ := Prod.mk.inj h
        exact .inr (.inl ⟨hexc, hclose, (Except.error.inj hraised).symm, hcalls.symm⟩)
      · rw [heval'] at h
        obtain ⟨hraised, hcalls⟩ := Prod.mk.inj h
        cases Except.error.inj hraised
        exact .inr (.inr ⟨hexc, u, c, v, hu, hclose, hc, hcalls.symm⟩)
    · rw [if_neg hexc] at h
      obtain ⟨hraised, hcalls⟩ := Prod.mk.inj h
      exact .inl ⟨by simpa using hexc, (Except.error.inj hraised).symm, hcalls.symm⟩

/-- **A failed connect is undone** exactly when the rollback meets no further exception: then every
connected device has been closed once, in reverse order, and the connect failure is raised. -/
theorem rolledBack_iff [DecidableEq D] {isException : E → Bool} {stand : TestStand D}
    {pattern : Pattern D E} {raised : E} {calls : List (DeviceCall D)}
    (h : exec pattern (stand.connect isException) = (.error raised, calls)) :
    RolledBack pattern calls raised ↔ UndoesCleanly isException stand pattern := by
  obtain ⟨before, d, after, e, heq, hall, he, hcases⟩ := connect_error_cases h
  have hopened : opened pattern stand.uniqueDevices = before := by rw [heq, opened_eq hall he]
  have hfailure : connectFailure pattern (stand.uniqueDevices.map .connect) = some e := by
    rw [heq, ← List.singleton_append, ← List.append_assoc, List.map_append]
    exact connectFailure_connects hall he _
  have hnodup : before.Nodup := by
    have := nodup_fromkeys (stand.devices.map Prod.snd)
    rw [← TestStand.uniqueDevices, heq] at this
    exact this.of_append_left
  have hconnected : connectedDevices pattern ((before ++ [d]).map .connect) = before := by
    rw [List.map_append, connectedDevices_append, connectedDevices_connects hall]
    simp [connectedDevices, he, Except.isOk, Except.toBool]
  have hclosed : closedDevices ((before ++ [d]).map .connect) = [] := closedDevices_connects _
  rcases hcases with ⟨hexc, rfl, rfl⟩ | ⟨hexc, hclose, rfl, rfl⟩ | ⟨hexc, u, c, v, hu, hclose, hc, rfl⟩
  · -- not an `Exception`: nothing is closed
    constructor
    · intro hback
      have := hback.reversed
      rw [hclosed, hconnected] at this
      exact .inl (hopened.trans (List.reverse_eq_nil_iff.mp this.symm))
    · rintro (hnil | ⟨e', he', hexc', -⟩)
      · rw [hopened] at hnil
        subst hnil
        have hbefore : ∀ d ∈ ([] : List D), pattern (.connect d) = .ok () := nofun
        exact ⟨by rw [hclosed, hconnected]; rfl, by rw [hclosed]; exact List.nodup_nil,
          by simpa using connectFailure_connects hbefore he []⟩
      · rw [hfailure] at he'
        cases he'
        rw [hexc] at hexc'
        cases hexc'
  · -- every device is closed
    refine iff_of_true ⟨?_, ?_, connectFailure_connects hall he _⟩ (.inr ⟨raised, hfailure, hexc, ?_⟩)
    · rw [closedDevices_append, hclosed, closedDevices_closes, connectedDevices_append, hconnected,
        connectedDevices_closes, List.append_nil, List.nil_append]
    · rw [closedDevices_append, hclosed, closedDevices_closes, List.nil_append]
      exact List.nodup_reverse.mpr hnodup
    · intro c hc e' he'
      rw [hopened] at hc
      rw [hclose c (List.mem_reverse.mpr hc)] at he'
      cases he'
  · -- the device `c` raises when it is closed, and `v` is left open
    have hmem : c ∈ before := by
      rw [← List.mem_reverse, hu]
      simp
    have hcloses : closedDevices ((before ++ [d]).map .connect ++ (u ++ [c]).map .close) = u ++ [c] := by
      rw [closedDevices_append, hclosed, closedDevices_closes, List.nil_append]
    have hopens : connectedDevices pattern
        ((before ++ [d]).map .connect ++ (u ++ [c]).map .close) = before := by
      rw [connectedDevices_append, hconnected, connectedDevices_closes, List.append_nil]
    have hnodup' : (u ++ c :: v).Nodup := hu ▸ List.nodup_reverse.mpr hnodup
    constructor
    · rintro ⟨hreversed, -, horiginal⟩
      rw [connectFailure_connects hall he] at horiginal
      cases horiginal
      rw [hcloses, hopens, hu] at hreversed
      have hv : v = [] := by simpa using hreversed
      subst hv
      have hbefore : before = c :: u.reverse := by
        rw [← before.reverse_reverse, hu]
        simp
      refine .inr ⟨_, hfailure, hexc, fun c' hc' e' he' => ?_⟩
      rw [hopened] at hc' ⊢
      rw [hbefore] at hc' ⊢
      rcases List.mem_cons.mp hc' with rfl | hc'
      · rw [hc] at he'
        exact ⟨rfl, (Except.error.inj he').symm⟩
      · rw [hclose c' (List.mem_reverse.mp hc')] at he'
        cases he'
    · rintro (hnil | ⟨e', he', -, hclean⟩)
      · rw [hopened] at hnil
        rw [hnil] at hmem
        cases hmem
      · rw [hfailure] at he'
        cases he'
        rw [hopened] at hclean
        obtain ⟨hhead, rfl⟩ := hclean c hmem _ hc
        -- the last of the reversed list stands at its end only
        obtain ⟨rest, rfl⟩ : ∃ rest, before = c :: rest := List.head?_eq_some_iff.mp hhead
        have hrev : c :: rest = v.reverse ++ c :: u.reverse := by
          have := congrArg List.reverse hu
          simpa using this
        have hv : v = [] := by
          cases hw : v.reverse with
          | nil => simpa using hw
          | cons x w =>
            rw [hw] at hrev
            obtain ⟨rfl, hrest⟩ := List.cons.inj hrev
            exact absurd (by rw [hrest]; simp) (List.nodup_cons.mp hnodup).1
        subst hv
        refine ⟨?_, ?_, connectFailure_connects hall he _⟩
        · rw [hcloses, hopens, hu]
        · rw [hcloses]
          exact hnodup'

end Rollback

/-! ## Closing -/

/-- What the first of the devices raises that raises when it is closed. -/
def firstRaised (pattern : Pattern D E) (devices : List D) : Option E :=
  devices.findSome? fun device =>
    match pattern (.close device) with
    | .ok () => none
    | .error e => some e

/-- `closeAll` closes every device, as long as only instances of `Exception` are raised. -/
theorem closeAll_eval {isException : E → Bool} {devices : List D}
    (h : ∀ d ∈ devices, ∀ e, pattern (.close d) = .error e → isException e = true)
    (firstError : Option E) (calls : List (DeviceCall D)) :
    (TestStand.closeAll isException firstError devices).eval (answer pattern) calls
      = (.ok (firstError.or (firstRaised pattern devices)), calls ++ devices.map .close) := by
  induction devices generalizing firstError calls with
  | nil => simp [TestStand.closeAll, firstRaised]
  | cons d devices ih =>
    obtain ⟨hd, hrest⟩ := List.forall_mem_cons.mp h
    cases hclose : pattern (.close d) with
    | ok _ =>
      have hfirst : firstRaised pattern (d :: devices) = firstRaised pattern devices := by
        simp [firstRaised, hclose]
      rw [hfirst]
      simp [TestStand.closeAll, answer, hclose, ih hrest firstError (calls ++ [.close d])]
    | error e =>
      have hfirst : firstRaised pattern (d :: devices) = some e := by simp [firstRaised, hclose]
      have hnext : (TestStand.closeAll isException firstError (d :: devices)).eval (answer pattern) calls
          = (TestStand.closeAll isException (firstError.or (some e)) devices).eval (answer pattern)
              (calls ++ [.close d]) := by
        simp [TestStand.closeAll, answer, hclose, hd e hclose]
      rw [hnext, ih hrest, hfirst]
      cases firstError <;> simp

/-- **`close` closes every device once**, in reverse order, whichever of them raise an `Exception`, and
raises the first of these. -/
theorem close_attempts_all [BEq D] {isException : E → Bool} (stand : TestStand D)
    (h : ∀ d e, pattern (.close d) = .error e → isException e = true) :
    exec pattern (stand.close isException)
      = ((firstRaised pattern stand.uniqueDevices.reverse).elim (.ok ()) .error,
          stand.uniqueDevices.reverse.map .close) := by
  have hall : ∀ d ∈ stand.uniqueDevices.reverse, ∀ e, pattern (.close d) = .error e →
      isException e = true := fun d _ => h d
  have heval := closeAll_eval hall none []
  rw [exec, TestStand.close, Program.eval_bind, heval, Option.none_or]
  cases firstRaised pattern stand.uniqueDevices.reverse <;> rfl

/-! ## A stand with four roles -/

section Sample

inductive SampleError
  | connectRefused
  | closeFailed
  deriving DecidableEq

/-- The analyzer and the generator are one device. -/
def sampleStand : TestStand ℕ where
  devices := [("dut".toList, 1), ("analyzer".toList, 2), ("generator".toList, 2), ("meter".toList, 3)]

/-- The third device cannot be connected; `broken` raises when it is closed. -/
def samplePattern (broken : Option ℕ) : Pattern ℕ SampleError
  | .connect 3 => .error .connectRefused
  | .connect _ => .ok ()
  | .close device => if some device = broken then .error .closeFailed else .ok ()

theorem rolledBack_sample :
    RolledBack (samplePattern none)
      [.connect 1, .connect 2, .connect 3, .close 2, .close 1] .connectRefused :=
  have hconnect : exec (samplePattern none) (sampleStand.connect fun _ => true) = (.error .connectRefused,
      [.connect 1, .connect 2, .connect 3, .close 2, .close 1]) := rfl
  (rolledBack_iff hconnect).mpr (.inr ⟨.connectRefused, rfl, rfl, fun d _ e he => by simp [samplePattern] at he⟩)

/-- **The first device stays open** when the second one, closed before it, raises; and what is raised
is that exception. -/
theorem failed_close_leaves_device_open :
    (∃ calls, exec (samplePattern (some 2)) (sampleStand.connect fun _ => true)
        = (.error .closeFailed, calls) ∧ .connect 1 ∈ calls ∧ .close 1 ∉ calls) ∧
      ¬ ∀ raised calls, exec (samplePattern (some 2)) (sampleStand.connect fun _ => true)
          = (.error raised, calls) → RolledBack (samplePattern (some 2)) calls raised := by
  refine ⟨⟨[.connect 1, .connect 2, .connect 3, .close 2], rfl, by decide, by decide⟩, fun h => ?_⟩
  have := (h .closeFailed [.connect 1, .connect 2, .connect 3, .close 2] rfl).reversed
  revert this
  decide

end Sample

end HardwareTest.Stand
