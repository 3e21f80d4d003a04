import HardwareTest.Stand.BuiltinFactories
import HardwareTest.Transport.Holding

/-!
# A hardware session

The session fixture composes the selected stand and connects it, the tests use its devices, and the fixture
closes it in any case.  Each transport has its own fields and its own clients and ports; what the calls of the
fixture answer is left to the outside.

* `session` — the fixture around the tests;
* `connectEach_perform`, `closeEach_perform`, `closeAll_perform` — the loops of the stand on its transports;
* `RollsBack` — when a stand that cannot be connected is closed again;
* `session_releases` — what is open after the session.
-/

namespace HardwareTest.Stand

open HardwareTest.Lib HardwareTest.Python HardwareTest.Equipment HardwareTest.Transport

open Lifecycle (Raised Environment Event Opened Released Holds Consistent Careful Undone Connects)

/-! ## The transports -/

/-- The class of a transport. -/
def SynchronizedTransport.kind (t : SynchronizedTransport) : Lifecycle.Kind :=
  match t.transport with
  | .ssh _ _ _ => .ssh
  | .picocomOverSsh _ _ _ _ _ _ => .picocomOverSsh
  | .pySerial _ _ _ _ _ => .pySerial
  | .pySerialOverSsh _ _ _ _ _ _ _ => .pySerialOverSsh

/-- The agent's command line, of the transport that has one. -/
def RuntimeTransport.agentCommand : RuntimeTransport → Text
  | .pySerialOverSsh _ _ _ _ serialAgentCommand _ _ => serialAgentCommand
  | .ssh _ _ _ => []
  | .picocomOverSsh _ _ _ _ _ _ => []
  | .pySerial _ _ _ _ _ => []

/-- What its calls read; a field that a transport does not have is not read. -/
def SynchronizedTransport.config (expanduser : Text → Text) (t : SynchronizedTransport) : Lifecycle.Config where
  hostKeyPolicy := (t.transport.endpoint.map SshConnectionConfig.hostKeyPolicy).getD .reject
  knownHostsPath := (t.transport.endpoint.bind SshConnectionConfig.knownHostsPath).map expanduser
  serialDevice := (t.transport.line.map Prod.fst).getD []
  baudrate := (t.transport.line.map Prod.snd).getD 0
  serialAgentCommand := t.transport.agentCommand

/-- The fields and the resources of every transport. -/
abbrev Transports := SynchronizedTransport → Lifecycle.State

/-- Nothing was connected. -/
def untouched : Transports := fun _ => .fresh

/-- What lies outside: the home directory, and what the calls of the fixture answer.  It connects a device at most
once, and closes it at most once. -/
structure Outside where
  expanduser : Text → Text
  connecting : Device → Environment
  closing : Device → Environment

namespace Outside

variable (outside : Outside)

/-- `connect` of a device. -/
def connect (d : Device) (s : Lifecycle.State) : Except Raised Unit × Lifecycle.State :=
  (d.transport.kind.connect (d.transport.config outside.expanduser)).eval
    (Lifecycle.answer (outside.connecting d)) s

/-- `close` of a device. -/
def close (d : Device) (s : Lifecycle.State) : Except Raised Unit × Lifecycle.State :=
  d.transport.kind.close.eval (Lifecycle.answer (outside.closing d)) s

def afterConnect (d : Device) (s : Lifecycle.State) : Lifecycle.State := (outside.connect d s).2

def afterClose (d : Device) (s : Lifecycle.State) : Lifecycle.State := (outside.close d s).2

/-- The transport of a device goes through a call. -/
def settle (f : Device → Lifecycle.State → Lifecycle.State) (states : Transports) (d : Device) : Transports :=
  Function.update states d.transport (f d (states d.transport))

def perform : DeviceCall Device → Transports → Except Raised Unit × Transports
  | .connect d, states =>
    ((outside.connect d (states d.transport)).1, settle outside.afterConnect states d)
  | .close d, states =>
    ((outside.close d (states d.transport)).1, settle outside.afterClose states d)

/-- A test uses a device. -/
def use (states : Transports) (u : Device × Event) : Transports :=
  settle (fun d s => (Lifecycle.step (d.transport.config outside.expanduser) d.transport.kind s u.2).getD s) states
    u.1

/-- The tests use the devices one after another. -/
def used (uses : List (Device × Event)) (states : Transports) : Transports := uses.foldl outside.use states

def setUp (stand : TestStand Device) : Except Raised Unit × Transports :=
  (stand.connect Raised.isException).eval outside.perform untouched

def tearDown (stand : TestStand Device) (states : Transports) : Except Raised Unit × Transports :=
  (stand.close Raised.isException).eval outside.perform states

end Outside

/-! ## The fixture -/

/-- How the session fails for its tests. -/
inductive SessionError
  | usageError (message : Text)
  | valueError (message : Text)
  | keyError (name : Text)
  | raised (e : Raised)

/-- The fixture `stand` around the tests, and the transports at its end. -/
def session (outside : Outside) (standName : Option Text) (inventory : Inventory (DeviceConfig TransportConfig))
    (settings : Settings) (uses : TestStand Device → List (Device × Event)) :
    Except SessionError Unit × Transports :=
  match standName with
  | none => (.error (.usageError "Hardware tests require --stand".toList), untouched)
  | some standName =>
    match getStand inventory standName with
    | .error message => (.error (.usageError message), untouched)
    | .ok config =>
      match (createStand inventory config settings).1 with
      | .error (.keyError name) => (.error (.keyError name), untouched)
      | .error (.factory (.factoryError message)) => (.error (.usageError message), untouched)
      | .error (.factory (.valueError message)) => (.error (.valueError message), untouched)
      | .ok stand =>
        match outside.setUp stand with
        | (.error e, states) => (.error (.raised e), states)
        | (.ok (), states) =>
          match outside.tearDown stand (outside.used (uses stand) states) with
          | (.error e, states) => (.error (.raised e), states)
          | (.ok (), states) => (.ok (), states)

/-! ## Transports that differ -/

section Settle

variable {f : Device → Lifecycle.State → Lifecycle.State} {states : Transports} {devices : List Device} {d : Device}

theorem settle_other {t : SynchronizedTransport} (h : t ≠ d.transport) : Outside.settle f states d t = states t :=
  Function.update_of_ne h _ _

theorem settle_self : Outside.settle f states d d.transport = f d (states d.transport) := Function.update_self _ _ _

theorem settleAll_other {t : SynchronizedTransport} (h : t ∉ devices.map Device.transport) :
    devices.foldl (Outside.settle f) states t = states t := by
  induction devices generalizing states with
  | nil => rfl
  | cons d devices ih =>
    rw [List.map_cons, List.mem_cons, not_or] at h
    rw [List.foldl_cons, ih h.2, settle_other h.1]

/-- Every transport goes through its own call. -/
theorem settleAll_mem (hnodup : (devices.map Device.transport).Nodup) (hd : d ∈ devices) :
    devices.foldl (Outside.settle f) states d.transport = f d (states d.transport) := by
  induction devices generalizing states with
  | nil => cases hd
  | cons d' devices ih =>
    rw [List.map_cons, List.nodup_cons] at hnodup
    rw [List.foldl_cons]
    rcases List.mem_cons.mp hd with rfl | hd
    · rw [settleAll_other hnodup.1, settle_self]
    · rw [ih hnodup.2 hd, settle_other fun heq => hnodup.1 (heq ▸ List.mem_map_of_mem hd)]

end Settle

/-! ## The loops -/

section Loops

/-- The state in which a new transport is after its `connect`. -/
def Outside.connected (outside : Outside) (d : Device) : Except Raised Unit × Lifecycle.State :=
  outside.connect d .fresh

/-- Transports after their `connect`. -/
def Outside.connectAll (outside : Outside) (devices : List Device) (states : Transports) : Transports :=
  devices.foldl (Outside.settle outside.afterConnect) states

def Outside.closeAll (outside : Outside) (devices : List Device) (states : Transports) : Transports :=
  devices.foldl (Outside.settle outside.afterClose) states

/-- **`connectEach` on new transports** reaches the end, or stops at the first that raises. -/
theorem connectEach_perform (outside : Outside) {states : Transports} (connected devices : List Device)
    (hnodup : (devices.map Device.transport).Nodup) (hfresh : ∀ d ∈ devices, states d.transport = .fresh) :
    ((∀ d ∈ devices, (outside.connected d).1 = .ok ()) ∧
      (TestStand.connectEach connected devices).eval outside.perform states
        = (.ok (connected ++ devices, none), outside.connectAll devices states)) ∨
    ∃ before d after e, devices = before ++ d :: after ∧ (∀ c ∈ before, (outside.connected c).1 = .ok ()) ∧
      (outside.connected d).1 = .error e ∧
      (TestStand.connectEach connected devices).eval outside.perform states
        = (.ok (connected ++ before, some e), outside.connectAll (before ++ [d]) states) := by
  induction devices generalizing connected states with
  | nil => exact .inl ⟨fun d hd => absurd hd List.not_mem_nil, by simp [TestStand.connectEach, Outside.connectAll]⟩
  | cons d devices ih =>
    rw [List.map_cons, List.nodup_cons] at hnodup
    have hd : outside.connect d (states d.transport) = outside.connected d := by
      rw [hfresh d List.mem_cons_self]
      rfl
    cases hresult : (outside.connected d).1 with
    | error e =>
      refine .inr ⟨[], d, devices, e, rfl, fun c hc => absurd hc List.not_mem_nil, hresult, ?_⟩
      simp [TestStand.connectEach, Outside.perform, Outside.connectAll, hd, hresult]
    | ok _ =>
      have hnext : (TestStand.connectEach connected (d :: devices)).eval outside.perform states
          = (TestStand.connectEach (connected ++ [d]) devices).eval outside.perform
              (Outside.settle outside.afterConnect states d) := by
        simp [TestStand.connectEach, Outside.perform, hd, hresult]
      have hrest : ∀ c ∈ devices, Outside.settle outside.afterConnect states d c.transport = .fresh := by
        intro c hc
        rw [settle_other fun heq => hnodup.1 (heq ▸ List.mem_map_of_mem hc)]
        exact hfresh c (List.mem_cons_of_mem _ hc)
      rcases ih (connected ++ [d]) hnodup.2 hrest with ⟨hall, heval⟩ | ⟨before, d', after, e, rfl, hall, he, heval⟩
      · refine .inl ⟨List.forall_mem_cons.mpr ⟨hresult, hall⟩, ?_⟩
        rw [hnext, heval, List.append_assoc]
        rfl
      · refine .inr ⟨d :: before, d', after, e, rfl, List.forall_mem_cons.mpr ⟨hresult, hall⟩, he, ?_⟩
        rw [hnext, heval, List.append_assoc]
        rfl

/-- **`closeEach`** closes the first devices, and all of them when none but the last raises. -/
theorem closeEach_perform (outside : Outside) (devices : List Device) (states : Transports)
    (hnodup : (devices.map Device.transport).Nodup) :
    ∃ reached left, devices = reached ++ left ∧
      ((TestStand.closeEach devices).eval outside.perform states).2 = outside.closeAll reached states ∧
      (left = [] ↔ ∀ d ∈ devices.dropLast, (outside.close d (states d.transport)).1 = .ok ()) := by
  induction devices generalizing states with
  | nil => exact ⟨[], [], rfl, rfl, iff_of_true rfl fun d hd => absurd hd List.not_mem_nil⟩
  | cons d devices ih =>
    rw [List.map_cons, List.nodup_cons] at hnodup
    cases hresult : (outside.close d (states d.transport)).1 with
    | error e =>
      refine ⟨[d], devices, rfl, ?_, ?_⟩
      · simp [TestStand.closeEach, callDevice, Outside.perform, Outside.closeAll, hresult]
      · cases devices with
        | nil => exact iff_of_true rfl fun c hc => absurd hc List.not_mem_nil
        | cons d' devices =>
          refine iff_of_false (List.cons_ne_nil _ _) fun hall => ?_
          rw [hall d List.mem_cons_self] at hresult
          cases hresult
    | ok _ =>
      obtain ⟨reached, left, heq, heval, hiff⟩ :=
        ih (Outside.settle outside.afterClose states d) hnodup.2
      have hnext : (TestStand.closeEach (d :: devices)).eval outside.perform states
          = (TestStand.closeEach devices).eval outside.perform
              (Outside.settle outside.afterClose states d) := by
        simp [TestStand.closeEach, callDevice, Outside.perform, hresult]
      have hother : ∀ c ∈ devices.dropLast,
          Outside.settle outside.afterClose states d c.transport = states c.transport := by
        intro c hc
        exact settle_other fun heq => hnodup.1 (heq ▸ List.mem_map_of_mem (List.dropLast_subset _ hc))
      refine ⟨d :: reached, left, by rw [heq]; rfl, ?_, ?_⟩
      · rw [hnext, heval]
        rfl
      · rw [hiff]
        cases devices with
        | nil => exact iff_of_true (fun c hc => absurd hc List.not_mem_nil) fun c hc => absurd hc List.not_mem_nil
        | cons d' devices =>
          rw [List.dropLast_cons_cons, List.forall_mem_cons, and_iff_right hresult]
          exact forall₂_congr fun c hc => by rw [hother c hc]

/-- **`closeAll`** closes every device when none is interrupted. -/
theorem closeAll_perform (outside : Outside) (firstError : Option Raised) (devices : List Device)
    {states : Transports}     (hnodup : (devices.map Device.transport).Nodup)
    (h : ∀ d ∈ devices, ∀ e, (outside.close d (states d.transport)).1 = .error e → e.isException = true) :
    ((TestStand.closeAll Raised.isException firstError devices).eval outside.perform states).2
      = outside.closeAll devices states := by
  induction devices generalizing firstError states with
  | nil => rfl
  | cons d devices ih =>
    rw [List.map_cons, List.nodup_cons] at hnodup
    have hrest : ∀ c ∈ devices, ∀ e, (outside.close c (Outside.settle outside.afterClose states d
        c.transport)).1 = .error e → e.isException = true := by
      intro c hc
      rw [settle_other fun heq => hnodup.1 (heq ▸ List.mem_map_of_mem hc)]
      exact h c (List.mem_cons_of_mem _ hc)
    cases hresult : (outside.close d (states d.transport)).1 with
    | error e =>
      have hexc := h d List.mem_cons_self e hresult
      have hnext : (TestStand.closeAll Raised.isException firstError (d :: devices)).eval outside.perform states
          = (TestStand.closeAll Raised.isException (firstError.or (some e)) devices).eval outside.perform
              (Outside.settle outside.afterClose states d) := by
        simp [TestStand.closeAll, Outside.perform, hresult, hexc]
      rw [hnext]
      exact ih _ hnodup.2 hrest
    | ok _ =>
      have hnext : (TestStand.closeAll Raised.isException firstError (d :: devices)).eval outside.perform states
          = (TestStand.closeAll Raised.isException firstError devices).eval outside.perform
              (Outside.settle outside.afterClose states d) := by
        simp [TestStand.closeAll, Outside.perform, hresult]
      rw [hnext]
      exact ih _ hnodup.2 hrest

end Loops

/-! ## What the transports hold -/

section Kept

variable {outside : Outside} {states : Transports} {devices : List Device} {d : Device}

/-- No transport has lost anything. -/
def Kept (states : Transports) : Prop := ∀ t, Consistent t.kind (states t) ∧ Holds t.kind (states t)

theorem kept_untouched : Kept untouched := fun t =>
  ⟨Lifecycle.consistent_fresh t.kind, Lifecycle.released_fresh.holds⟩

/-- A device that was connected holds what its transport has opened. -/
theorem opened_connected (h : (outside.connected d).1 = .ok ()) :
    Opened d.transport.kind .fresh (outside.connected d).2 := by
  have hcareful : Careful (d.transport.config outside.expanduser) d.transport.kind .fresh
      (.connect (outside.connecting d)) := by
    refine ⟨fun e he => ?_, fun _ hsome => by cases hsome⟩
    cases h.symm.trans he
  have hconnects : Connects d.transport.kind .fresh (outside.connected d) :=
    Lifecycle.connect_connects (Lifecycle.consistent_fresh _) Lifecycle.released_fresh.holds hcareful
  generalize outside.connected d = ended at h hconnects
  cases hconnects with
  | connected hsome =>
    rw [Lifecycle.held_fresh] at hsome
    cases hsome
  | opened t _ hopened => exact hopened
  | raised _ _ _ => cases h

theorem holds_connected (h : (outside.connected d).1 = .ok ()) :
    Holds d.transport.kind (outside.connected d).2 := by
  obtain ⟨hcreated, hclosed, hheld⟩ := opened_connected h
  exact Lifecycle.released_fresh.create_held hcreated hclosed hheld

/-- It is not released then. -/
theorem not_released_connected (h : (outside.connected d).1 = .ok ()) : ¬Released (outside.connected d).2 := by
  obtain ⟨hcreated, hclosed, -⟩ := opened_connected h
  exact (Lifecycle.consistent_fresh d.transport.kind).not_released hcreated hclosed

theorem connectAll_mem (hnodup : (devices.map Device.transport).Nodup) (hd : d ∈ devices) :
    outside.connectAll devices untouched d.transport = (outside.connected d).2 := settleAll_mem hnodup hd

theorem connectAll_other {t : SynchronizedTransport} (h : t ∉ devices.map Device.transport) :
    outside.connectAll devices untouched t = .fresh := settleAll_other h

theorem kept_connectAll (hnodup : (devices.map Device.transport).Nodup)
    (h : ∀ d ∈ devices, (outside.connected d).1 = .ok ()) : Kept (outside.connectAll devices untouched) := by
  intro t
  by_cases ht : t ∈ devices.map Device.transport
  · obtain ⟨d, hd, rfl⟩ := List.mem_map.mp ht
    rw [connectAll_mem hnodup hd]
    exact ⟨Lifecycle.connect_consistent (Lifecycle.consistent_fresh _), holds_connected (h d hd)⟩
  · rw [connectAll_other ht]
    exact kept_untouched t

/-- A test that loses nothing. -/
def CarefulUse (outside : Outside) (states : Transports) (u : Device × Event) : Prop :=
  Careful (u.1.transport.config outside.expanduser) u.1.transport.kind (states u.1.transport) u.2

/-- Every use of a device is careful, in the state that the uses before it have left. -/
def CarefulUses (outside : Outside) : List (Device × Event) → Transports → Prop
  | [], _ => True
  | u :: uses, states => CarefulUse outside states u ∧ CarefulUses outside uses (outside.use states u)

theorem kept_use (h : Kept states) {u : Device × Event} (hcareful : CarefulUse outside states u) :
    Kept (outside.use states u) := by
  intro t
  by_cases ht : t = u.1.transport
  · subst ht
    obtain ⟨hconsistent, hholds⟩ := h u.1.transport
    rw [Outside.use, settle_self]
    obtain ⟨s, hs⟩ : ∃ s, Lifecycle.step (u.1.transport.config outside.expanduser) u.1.transport.kind
        (states u.1.transport) u.2 = some s := by
      cases u.2 <;> exact ⟨_, rfl⟩
    rw [hs]
    exact ⟨Lifecycle.step_consistent _ _ _ hconsistent hs, Lifecycle.step_holds hconsistent hholds hcareful hs⟩
  · rw [Outside.use, settle_other ht]
    exact h t

/-- **The tests lose nothing.** -/
theorem kept_used {uses : List (Device × Event)} (h : Kept states) (hcareful : CarefulUses outside uses states) :
    Kept (outside.used uses states) := by
  induction uses generalizing states with
  | nil => exact h
  | cons u uses ih => exact ih (kept_use h hcareful.1) hcareful.2

theorem released_closeAll (hnodup : (devices.map Device.transport).Nodup) (h : Kept states) (hd : d ∈ devices) :
    Released (outside.closeAll devices states d.transport) := by
  rw [Outside.closeAll, settleAll_mem hnodup hd]
  exact Lifecycle.close_released (h d.transport).2

end Kept

/-! ## Setting up and tearing down -/

section Fixture

variable {outside : Outside} {states : Transports} {stand : TestStand Device}

/-- When a stand that cannot be connected is closed again, with `e` raised by `d` after the devices `before`: the
failure is undone by the transport of `d`; and it is an `Exception`, and no device that was connected raises when
it is closed, but perhaps the one that is closed last. -/
def RollsBack (outside : Outside) (before : List Device) (d : Device) (e : Raised) : Prop :=
  Undone (d.transport.config outside.expanduser) (outside.connecting d) .fresh d.transport.kind ∧
    (before = [] ∨ e.isException = true ∧
      ∀ c ∈ before.tail, (outside.close c (outside.connected c).2).1 = .ok ())

/-- All transports of the stand are released. -/
def AllReleased (stand : TestStand Device) (states : Transports) : Prop :=
  ∀ d ∈ stand.uniqueDevices, Released (states d.transport)

/-- The devices before `d` are closed but for those that are left, `d` has raised, and the others are new. -/
theorem allReleased_iff {before after : List Device} {d : Device} {e : Raised} (reached left : List Device)
    (heq : stand.uniqueDevices = before ++ d :: after) (hall : ∀ c ∈ before, (outside.connected c).1 = .ok ())
    (he : (outside.connected d).1 = .error e) (hsplit : ∀ c, c ∈ before ↔ c ∈ reached ∨ c ∈ left)
    (hreached : ∀ c ∈ reached, Released (states c.transport))
    (hleft : ∀ c ∈ left, states c.transport = (outside.connected c).2)
    (hd : states d.transport = (outside.connected d).2) (hafter : ∀ c ∈ after, states c.transport = .fresh) :
    AllReleased stand states ↔
      Undone (d.transport.config outside.expanduser) (outside.connecting d) .fresh d.transport.kind ∧
        left = [] := by
  have hundone : Released (states d.transport) ↔
      Undone (d.transport.config outside.expanduser) (outside.connecting d) .fresh d.transport.kind := by
    rw [hd]
    exact Lifecycle.released_iff_undone he
  rw [AllReleased, heq]
  constructor
  · intro hreleased
    refine ⟨hundone.mp (hreleased d (by simp)), List.eq_nil_iff_forall_not_mem.mpr fun c hc => ?_⟩
    have hmem : c ∈ before := (hsplit c).mpr (.inr hc)
    have := hreleased c (List.mem_append_left _ hmem)
    rw [hleft c hc] at this
    exact not_released_connected (hall c hmem) this
  · rintro ⟨hd', rfl⟩ c hc
    rcases List.mem_append.mp hc with hc | hc
    · exact hreached c (((hsplit c).mp hc).resolve_right List.not_mem_nil)
    · rcases List.mem_cons.mp hc with rfl | hc
      · exact hundone.mpr hd'
      · rw [hafter c hc]
        exact Lifecycle.released_fresh

/-- What follows a device that raises. -/
theorem setUp_failed {before : List Device} {e : Raised} {connected : Transports}
    (heval : (TestStand.connectEach [] stand.uniqueDevices).eval outside.perform untouched
      = (.ok (before, some e), connected)) :
    (e.isException = false → outside.setUp stand = (.error e, connected)) ∧
      (e.isException = true → ∃ raised, outside.setUp stand
        = (.error raised, ((TestStand.closeEach before.reverse).eval outside.perform connected).2)) := by
  rw [Outside.setUp, TestStand.connect, Program.eval_bind, heval]
  dsimp only
  refine ⟨fun hexc => ?_, fun hexc => ?_⟩
  · rw [if_neg (by rw [hexc]; exact Bool.false_ne_true)]
    rfl
  · rw [if_pos hexc, Program.eval_bind]
    rcases (TestStand.closeEach before.reverse).eval outside.perform connected with ⟨_ | _, _⟩
    · exact ⟨_, rfl⟩
    · exact ⟨_, rfl⟩

/-- **Setting up** connects every device, or raises; then everything is released in the cases of `RollsBack`. -/
theorem setUp_cases (outside : Outside) (hnodup : (stand.uniqueDevices.map Device.transport).Nodup) :
    ((∀ d ∈ stand.uniqueDevices, (outside.connected d).1 = .ok ()) ∧
      outside.setUp stand = (.ok (), outside.connectAll stand.uniqueDevices untouched)) ∨
    ∃ before d after e raised states, stand.uniqueDevices = before ++ d :: after ∧
      (∀ c ∈ before, (outside.connected c).1 = .ok ()) ∧ (outside.connected d).1 = .error e ∧
      outside.setUp stand = (.error raised, states) ∧
      (AllReleased stand states ↔ RollsBack outside before d e) := by
  have hfresh : ∀ d ∈ stand.uniqueDevices, untouched d.transport = .fresh := fun _ _ => rfl
  rcases connectEach_perform outside [] stand.uniqueDevices hnodup hfresh with
    ⟨hall, heval⟩ | ⟨before, d, after, e, heq, hall, he, heval⟩
  · refine .inl ⟨hall, ?_⟩
    rw [Outside.setUp, TestStand.connect, Program.eval_bind, heval]
    rfl
  · rw [List.nil_append] at heval
    rw [heq, List.map_append, List.map_cons] at hnodup
    have hbefore : (before.map Device.transport).Nodup := hnodup.of_append_left
    obtain ⟨-, hdafter, hapart⟩ := List.nodup_append.mp hnodup
    have hfirst : ((before ++ [d]).map Device.transport).Nodup := by
      rw [List.map_append, List.map_singleton, ← List.concat_eq_append]
      exact hbefore.concat fun hmem => hapart _ hmem _ List.mem_cons_self rfl
    let connected := outside.connectAll (before ++ [d]) untouched
    have hconnected : ∀ c ∈ before ++ [d], connected c.transport = (outside.connected c).2 :=
      fun c hc => connectAll_mem hfirst hc
    have hafter : ∀ c ∈ after, connected c.transport = .fresh := by
      intro c hc
      refine connectAll_other fun hmem => ?_
      rw [List.map_append, List.mem_append] at hmem
      have hc' : c.transport ∈ after.map Device.transport := List.mem_map_of_mem hc
      rcases hmem with hmem | hmem
      · exact hapart _ hmem _ (List.mem_cons_of_mem _ hc') rfl
      · rw [List.map_singleton, List.mem_singleton] at hmem
        exact (List.nodup_cons.mp hdafter).1 (hmem ▸ hc')
    refine .inr ?_
    cases hexc : e.isException with
    | false =>
      refine ⟨before, d, after, e, e, connected, heq, hall, he, (setUp_failed heval).1 hexc, ?_⟩
      rw [allReleased_iff [] before heq hall he (fun c => by simp) (fun c hc => absurd hc List.not_mem_nil)
        (fun c hc => hconnected c (List.mem_append_left _ hc)) (hconnected d (by simp)) hafter, RollsBack, hexc]
      exact and_congr_right fun _ => ⟨.inl, fun h => h.resolve_right fun h => by cases h.1⟩
    | true =>
      obtain ⟨raised, hsetUp⟩ := (setUp_failed heval).2 hexc
      have hreverse : (before.reverse.map Device.transport).Nodup := by
        rw [List.map_reverse]
        exact List.nodup_reverse.mpr hbefore
      obtain ⟨reached, left, hsplit, hclosed, hiff⟩ :=
        closeEach_perform outside before.reverse connected hreverse
      rw [hclosed] at hsetUp
      rw [hsplit, List.map_append] at hreverse
      obtain ⟨hreached, -, hdisjoint⟩ := List.nodup_append.mp hreverse
      have hmem : ∀ c, c ∈ before ↔ c ∈ reached ∨ c ∈ left := by
        intro c
        rw [← List.mem_reverse, hsplit, List.mem_append]
      have hother : ∀ t, t ∉ before.map Device.transport → outside.closeAll reached connected t = connected t := by
        intro t ht
        refine settleAll_other fun hmem' => ht ?_
        obtain ⟨c, hc, rfl⟩ := List.mem_map.mp hmem'
        exact List.mem_map_of_mem ((hmem c).mpr (.inl hc))
      refine ⟨before, d, after, e, raised, _, heq, hall, he, hsetUp, ?_⟩
      rw [allReleased_iff reached left heq hall he hmem, RollsBack, hexc, hiff]
      · refine and_congr_right fun _ => ?_
        rw [List.dropLast_reverse]
        have hclose : ∀ c ∈ before.tail, connected c.transport = (outside.connected c).2 :=
          fun c hc => hconnected c (List.mem_append_left _ (List.mem_of_mem_tail hc))
        constructor
        · intro h
          refine .inr ⟨rfl, fun c hc => ?_⟩
          rw [← hclose c hc]
          exact h c (List.mem_reverse.mpr hc)
        · rintro (rfl | ⟨-, h⟩) c hc
          · exact absurd hc List.not_mem_nil
          · rw [hclose c (List.mem_reverse.mp hc)]
            exact h c (List.mem_reverse.mp hc)
      · intro c hc
        have hcmem : c ∈ before := (hmem c).mpr (.inl hc)
        rw [Outside.closeAll, settleAll_mem hreached hc, hconnected c (List.mem_append_left _ hcmem)]
        exact Lifecycle.close_released (holds_connected (hall c hcmem))
      · intro c hc
        have hcmem : c ∈ before := (hmem c).mpr (.inr hc)
        rw [Outside.closeAll, settleAll_other, hconnected c (List.mem_append_left _ hcmem)]
        exact fun hmem' => hdisjoint _ hmem' _ (List.mem_map_of_mem hc) rfl
      · rw [hother _ fun hmem' => hapart _ hmem' _ List.mem_cons_self rfl]
        exact hconnected d (by simp)
      · intro c hc
        rw [hother _ fun hmem' => hapart _ hmem' _ (List.mem_cons_of_mem _ (List.mem_map_of_mem hc)) rfl]
        exact hafter c hc

/-- **Tearing down** releases everything, whatever is raised, when nothing is interrupted. -/
theorem tearDown_released (hnodup : (stand.uniqueDevices.map Device.transport).Nodup) (h : Kept states)
    (hexception : ∀ d ∈ stand.uniqueDevices, ∀ e, (outside.close d (states d.transport)).1 = .error e →
      e.isException = true) : AllReleased stand (outside.tearDown stand states).2 := by
  have hreverse : (stand.uniqueDevices.reverse.map Device.transport).Nodup := by
    rw [List.map_reverse]
    exact List.nodup_reverse.mpr hnodup
  have hclosed := closeAll_perform outside none stand.uniqueDevices.reverse hreverse fun d hd =>
     hexception d (List.mem_reverse.mp hd)
  have hstates : (outside.tearDown stand states).2 = outside.closeAll stand.uniqueDevices.reverse states := by
    rw [← hclosed, Outside.tearDown, TestStand.close, Program.eval_bind]
    rcases (TestStand.closeAll Raised.isException none stand.uniqueDevices.reverse).eval outside.perform states with
      ⟨_ | _ | _, _⟩
    · rfl
    · rfl
    · rfl
  intro d hd
  rw [hstates]
  exact released_closeAll hreverse h (List.mem_reverse.mpr hd)

end Fixture

/-! ## The whole session -/

section Session

variable {settings : Settings} {inventory : Inventory (DeviceConfig TransportConfig)} {config : StandConfig}

/-- The devices of a composed stand have transports of their own. -/
theorem Furnished.nodup_transports {stand : TestStand Device} (h : Furnished settings inventory config stand) :
    (stand.uniqueDevices.map Device.transport).Nodup := by
  have hlength : stand.devices.length = config.devices.length := by
    have := congrArg List.length h.roles
    rwa [List.length_map, List.length_map] at this
  refine (nodup_fromkeys _).map_on fun d hd d' hd' hsame => ?_
  obtain ⟨i, hi, hget⟩ := List.getElem_of_mem (mem_fromkeys.mp hd)
  obtain ⟨j, hj, hget'⟩ := List.getElem_of_mem (mem_fromkeys.mp hd')
  rw [List.length_map] at hi hj
  rw [List.getElem_map] at hget hget'
  have hname := h.apart i j (hlength ▸ hi) (hlength ▸ hj) hi hj (by rw [hget, hget']; exact hsame)
  rw [← hget, ← hget']
  exact h.shared i j (hlength ▸ hi) (hlength ▸ hj) hi hj hname

/-- The handler of the fixture makes a usage error of a `HardwareTestError`. -/
def SessionError.ofCreation : CreationError → SessionError
  | .factoryError message => .usageError message
  | .valueError message => .valueError message

/-- Why the tests are refused: no stand is selected, or one that the inventory does not have, or one with a device
that cannot be built. -/
inductive Refused (settings : Settings) (inventory : Inventory (DeviceConfig TransportConfig)) :
    Option Text → SessionError → Prop
  | unselected : Refused settings inventory none (.usageError "Hardware tests require --stand".toList)
  | unknown (name message : Text) (h : name ∉ inventory.stands.map Prod.fst)
      (hmessage : getStand inventory name = .error message) :
      Refused settings inventory (some name) (.usageError message)
  | stops (name : Text) (config : StandConfig) (e : CreationError) (h : (name, config) ∈ inventory.stands)
      (hstops : StopsAt settings inventory config e) : Refused settings inventory (some name) (.ofCreation e)

theorem getStand_cases (inventory : Inventory (DeviceConfig TransportConfig)) (name : Text) :
    (∃ config, getStand inventory name = .ok config ∧ (name, config) ∈ inventory.stands) ∨
    ∃ message, getStand inventory name = .error message ∧ name ∉ inventory.stands.map Prod.fst := by
  rw [getStand]
  cases h : inventory.stands.lookup name with
  | some config => exact .inl ⟨config, rfl, mem_of_lookup h⟩
  | none => exact .inr ⟨_, rfl, lookup_eq_none_iff.mp h⟩

/-- **No connection outlives the session.**  The tests are refused before any transport is touched; or a device of
the stand cannot be connected, and then everything is released exactly when its own transport undoes the failure and
the rollback of the stand meets no other; or the tests have run, and then everything is released when no `close` of
the fixture is interrupted, whatever they have raised and left open. -/
theorem session_releases (outside : Outside) (standName : Option Text)
    (inventory : Inventory (DeviceConfig TransportConfig)) (settings : Settings)
    (uses : TestStand Device → List (Device × Event))
    (hkeys : ∀ stand ∈ inventory.stands, (stand.2.devices.map Prod.fst).Nodup)
    (hcareful : ∀ stand : TestStand Device, (∀ d ∈ stand.uniqueDevices, (outside.connected d).1 = .ok ()) →
      CarefulUses outside (uses stand) (outside.connectAll stand.uniqueDevices untouched)) :
    (∃ e, Refused settings inventory standName e ∧
      session outside standName inventory settings uses = (.error e, untouched)) ∨
    ∃ name config stand, standName = some name ∧ (name, config) ∈ inventory.stands ∧
      Furnished settings inventory config stand ∧
      ((∃ before d after e raised states, stand.uniqueDevices = before ++ d :: after ∧
          (outside.connected d).1 = .error e ∧
          session outside standName inventory settings uses = (.error (.raised raised), states) ∧
          (AllReleased stand states ↔ RollsBack outside before d e)) ∨
        ((∀ d ∈ stand.uniqueDevices, (outside.connected d).1 = .ok ()) ∧
          let states := outside.used (uses stand) (outside.connectAll stand.uniqueDevices untouched)
          ((∀ d ∈ stand.uniqueDevices, ∀ e, (outside.close d (states d.transport)).1 = .error e →
              e.isException = true) →
            AllReleased stand (session outside standName inventory settings uses).2))) := by
  cases standName with
  | none => exact .inl ⟨_, .unselected, rfl⟩
  | some name =>
    rcases getStand_cases inventory name with ⟨config, hget, hmem⟩ | ⟨message, hget, hunknown⟩
    · rcases createStand_cases settings hmem (hkeys _ hmem) with
        ⟨stand, built, hcreate, hfurnished⟩ | ⟨e, built, hcreate, hstops⟩
      · have hnodup := hfurnished.nodup_transports
        refine .inr ⟨name, config, stand, rfl, hmem, hfurnished, ?_⟩
        rcases setUp_cases outside hnodup with
          ⟨hall, hsetUp⟩ | ⟨before, d, after, e, raised, states, heq, -, he, hsetUp, hiff⟩
        · refine .inr ⟨hall, fun hexception => ?_⟩
          have hreleased := tearDown_released hnodup
            (kept_used (kept_connectAll hnodup hall) (hcareful stand hall)) hexception
          have hsession : (session outside (some name) inventory settings uses).2
              = (outside.tearDown stand (outside.used (uses stand)
                  (outside.connectAll stand.uniqueDevices untouched))).2 := by
            simp only [session, hget, hcreate, hsetUp]
            rcases outside.tearDown stand _ with ⟨_ | _, _⟩ <;> rfl
          rwa [hsession]
        · exact .inl ⟨before, d, after, e, raised, states, heq, he, by simp only [session, hget, hcreate, hsetUp],
            hiff⟩
      · refine .inl ⟨.ofCreation e, .stops name config e hmem hstops, ?_⟩
        simp only [session, hget, hcreate]
        cases e <;> rfl
    · exact .inl ⟨.usageError message, .unknown name message hunknown hget, by simp only [session, hget]⟩

/-- Tests that only execute commands are careful. -/
theorem carefulUses_execute {outside : Outside} {uses : List (Device × Event)}
    (h : ∀ u ∈ uses, ∃ env command, u.2 = .execute env command) (states : Transports) :
    CarefulUses outside uses states := by
  induction uses generalizing states with
  | nil => trivial
  | cons u uses ih =>
    obtain ⟨env, command, hu⟩ := h u List.mem_cons_self
    refine ⟨?_, ih (fun v hv => h v (List.mem_cons_of_mem _ hv)) _⟩
    rw [CarefulUse, hu]
    trivial

/-! ## A session without failures -/

def benchOutside : Outside where
  expanduser := id
  connecting _ := Lifecycle.sampleEnvironment []
  closing _ := Lifecycle.sampleEnvironment []

/-- Each device executes a command. -/
def benchUses (stand : TestStand Device) : List (Device × Event) :=
  stand.devices.map fun role => (role.2, .execute (Lifecycle.sampleEnvironment []) (.text "status".toList))

theorem close_bench (kind : Lifecycle.Kind) (s : Lifecycle.State) :
    (kind.close.eval (Lifecycle.answer (Lifecycle.sampleEnvironment [])) s).1 = .ok () := by
  obtain ⟨client, channel, console, created, closed⟩ := s
  cases kind <;> cases client <;> cases channel <;> rfl

theorem session_releases_sample : ∃ stand, Furnished benchSettings benchInventory benchStand stand ∧
    AllReleased stand (session benchOutside (some "bench".toList) benchInventory benchSettings benchUses).2 := by
  have hended : (session benchOutside (some "bench".toList) benchInventory benchSettings benchUses).1
      = .ok () := rfl
  have huses : ∀ stand, ∀ u ∈ benchUses stand, ∃ env command, u.2 = .execute env command := by
    intro stand u hu
    obtain ⟨role, -, rfl⟩ := List.mem_map.mp hu
    exact ⟨_, _, rfl⟩
  rcases session_releases benchOutside (some "bench".toList) benchInventory benchSettings benchUses
      (fun stand hstand => by rw [List.mem_singleton.mp hstand]; decide)
      (fun stand _ => carefulUses_execute (huses stand) _) with
    ⟨e, -, h⟩ | ⟨name, config, stand, -, hmem, hfurnished, ⟨_, _, _, _, _, _, -, -, h, -⟩ | ⟨-, h⟩⟩
  · rw [h] at hended
    cases hended
  · rw [h] at hended
    cases hended
  · obtain ⟨-, rfl⟩ := Prod.mk.inj (List.mem_singleton.mp hmem)
    refine ⟨stand, hfurnished, h fun d _ e he => ?_⟩
    rw [Outside.close] at he
    cases (close_bench _ _).symm.trans he

end Session

end HardwareTest.Stand
