import HardwareTest.Transport.Lifecycle

/-!
# What a transport holds

A transport creates SSH clients or serial ports, and `close` finds the open one by a field.  What it created
and neither holds nor closed stays open for ever.

* `Holds` — everything is closed but for what the field has;
* `close_released` — after a `close` nothing is open, whatever it raises;
* `connect_connects` — a `connect` that raises leaves nothing open, when its failure is undone;
* `step_holds` — a careful call loses nothing.
-/

namespace HardwareTest.Transport.Lifecycle

open HardwareTest.Lib HardwareTest.Python HardwareTest.Transport

/-- The field by which `close` finds what is open. -/
def State.held (kind : Kind) (s : State) : Option ℕ :=
  match kind with
  | .picocomOverSsh => s.client
  | .pySerialOverSsh => s.client
  | .pySerial => s.channel
  | .ssh => s.client

/-- Everything that was created was closed. -/
def Released (s : State) : Prop := ∀ resource < s.created, resource ∈ s.closed

/-- Everything that was created was closed, but for what the transport holds. -/
def Holds (kind : Kind) (s : State) : Prop :=
  ∀ resource < s.created, resource ∈ s.closed ∨ s.held kind = some resource

section Holding

variable {config : Config} {kind : Kind} {env : Environment} {s : State}

theorem held_fresh (kind : Kind) : State.fresh.held kind = none := by cases kind <;> rfl

theorem released_fresh : Released .fresh := fun _ h => absurd h (Nat.not_lt_zero _)

theorem Released.holds (h : Released s) : Holds kind s := fun resource hlt => .inl (h resource hlt)

theorem Holds.released (h : Holds kind s) (hheld : s.held kind = none) : Released s := by
  intro resource hlt
  rcases h resource hlt with hclosed | hsome
  · exact hclosed
  · rw [hheld] at hsome
    cases hsome

/-- Nothing new was created, and what was held is closed. -/
theorem Holds.closing (h : Holds kind s) {t : State} (hcreated : t.created = s.created)
    (hclosed : t.closed = s.closed ++ (s.held kind).toList) : Released t := by
  intro resource hlt
  rw [hcreated] at hlt
  rw [hclosed]
  rcases h resource hlt with hmem | hsome
  · exact List.mem_append_left _ hmem
  · exact List.mem_append_right _ (by rw [hsome]; exact List.mem_singleton_self _)

/-- **A `close` releases what is held**, also when it raises. -/
theorem close_released (h : Holds kind s) : Released (kind.close.eval (answer env) s).2 := by
  cases kind with
  | picocomOverSsh =>
    rw [Kind.close, Picocom.close, closeOverSsh_state Picocom.quiet_channelClose]
    exact h.closing rfl rfl
  | pySerialOverSsh =>
    rw [Kind.close, PySerialOverSsh.close, closeOverSsh_state PySerialOverSsh.quiet_channelClose]
    exact h.closing rfl rfl
  | pySerial =>
    rw [Kind.close, PySerial.close_state]
    exact h.closing rfl rfl
  | ssh =>
    rcases @SSH.close_state env s with hs | hs <;> rw [Kind.close, hs]
    · exact h.closing rfl rfl
    · exact h.closing rfl rfl

theorem execute_holds (h : Holds kind s) (command : Command) :
    Holds kind ((kind.execute command).eval (answer env) s).2 := by
  cases kind with
  | picocomOverSsh =>
    rcases @Picocom.execute_state env s command with hs | ⟨-, hs⟩ <;> rw [Kind.execute, hs]
    · exact h
    · exact h
  | pySerialOverSsh => rwa [Kind.execute, PySerialOverSsh.execute_state]
  | pySerial => rwa [Kind.execute, PySerial.execute_state]
  | ssh => rwa [Kind.execute, SSH.execute_state]

/-! ## Connecting -/

/-- One more resource, which was closed. -/
theorem Released.create_closed (h : Released s) :
    Released { s with created := s.created + 1, closed := s.closed ++ [s.created] } := by
  intro resource hlt
  rcases Nat.lt_succ_iff_lt_or_eq.mp hlt with hlt | rfl
  · exact List.mem_append_left _ (h resource hlt)
  · exact List.mem_append_right _ (List.mem_singleton_self _)

/-- One more resource, which is held. -/
theorem Released.create_held (h : Released s) {t : State} (hcreated : t.created = s.created + 1)
    (hclosed : t.closed = s.closed) (hheld : t.held kind = some s.created) : Holds kind t := by
  intro resource hlt
  rw [hcreated] at hlt
  rw [hclosed, hheld]
  rcases Nat.lt_succ_iff_lt_or_eq.mp hlt with hlt | rfl
  · exact .inl (h resource hlt)
  · exact .inr rfl

/-- One more resource, which was not closed. -/
theorem Consistent.not_released (h : Consistent kind s) {t : State} (hcreated : t.created = s.created + 1)
    (hclosed : t.closed = s.closed) : ¬Released t := by
  intro hreleased
  have hmem := hreleased s.created (by rw [hcreated]; exact Nat.lt_succ_self _)
  rw [hclosed] at hmem
  exact absurd (h.closed_lt _ hmem) (lt_irrefl _)

/-- A state in which something was opened. -/
def Opened (kind : Kind) (s t : State) : Prop :=
  t.created = s.created + 1 ∧ t.closed = s.closed ∧ t.held kind = some s.created

section OverSsh

variable {created configured opened prepared channelClosed closed : Except Raised Unit} {console : Option ℕ}

theorem connectResult_ok
    (h : (connectResult created configured opened prepared channelClosed closed console s).1 = .ok ()) :
    Opened kind s (connectResult created configured opened prepared channelClosed closed console s).2 := by
  rcases created with _ | _
  · cases h
  rcases configured with _ | _
  · cases h
  rcases opened with eo | _
  · cases hexc : eo.isException <;> simp [connectResult, hexc] at h
  rcases prepared with ep | _
  · rcases channelClosed with _ | _
    · cases h
    · cases hexc : ep.isException <;> simp [connectResult, hexc] at h
  · cases kind <;> exact ⟨rfl, rfl, rfl⟩

theorem connectResult_undone (hreleased : Released s)
    (h : UndoneOverSsh created configured opened prepared channelClosed) :
    Released (connectResult created configured opened prepared channelClosed closed console s).2 := by
  rcases h with ⟨e, rfl⟩ | ⟨rfl, ⟨e, rfl, hexc⟩ | ⟨rfl, ⟨e, rfl, hexc⟩, rfl⟩⟩
  · exact hreleased
  · rcases created with _ | _
    · exact hreleased
    · rw [connectResult, if_pos hexc]
      exact hreleased.create_closed
  · rcases created with _ | _
    · exact hreleased
    · rw [connectResult, if_pos hexc]
      exact hreleased.create_closed

/-- A failure that is not undone leaves the client open. -/
theorem undone_of_released (h : Consistent kind s) {e : Raised}
    (he : (connectResult created configured opened prepared channelClosed closed console s).1 = .error e)
    (hreleased : Released (connectResult created configured opened prepared channelClosed closed console s).2) :
    UndoneOverSsh created configured opened prepared channelClosed := by
  rcases created with ec | _
  · exact .inl ⟨ec, rfl⟩
  refine .inr ?_
  rcases configured with _ | _
  · exact absurd hreleased (h.not_released rfl rfl)
  refine ⟨rfl, ?_⟩
  rcases opened with eo | _
  · by_cases hexc : eo.isException = true
    · exact .inl ⟨eo, rfl, hexc⟩
    · rw [connectResult, if_neg hexc] at hreleased
      exact absurd hreleased (h.not_released rfl rfl)
  refine .inr ⟨rfl, ?_⟩
  rcases prepared with ep | _
  · rcases channelClosed with _ | _
    · exact absurd hreleased (h.not_released rfl rfl)
    · by_cases hexc : ep.isException = true
      · exact ⟨⟨ep, rfl, hexc⟩, rfl⟩
      · rw [connectResult, if_neg hexc] at hreleased
        exact absurd hreleased (h.not_released rfl rfl)
  · cases he

end OverSsh

theorem PySerial.connect_open (hchannel : s.channel.isSome) (hopen : env.ask .channelClosed = false) :
    (PySerial.connect config).eval (answer env) s = (.ok (), s) := by
  simp [PySerial.connect, PySerial.isOpen, hchannel, hopen]

/-- A call that loses nothing: a failed `connect` is undone, and a port that has closed itself is not opened
again before `close`. -/
def Careful (config : Config) (kind : Kind) (s : State) : Event → Prop
  | .connect env =>
    (∀ e, ((kind.connect config).eval (answer env) s).1 = .error e → Undone config env s kind) ∧
      (kind = .pySerial → s.channel.isSome → env.ask .channelClosed = false)
  | .execute _ _ => True
  | .close _ => True

/-- How a careful `connect` ends: it was connected before, or it opens something, or it raises and everything is
closed. -/
inductive Connects (kind : Kind) (s : State) : Except Raised Unit × State → Prop
  | connected (h : (s.held kind).isSome) : Connects kind s (.ok (), s)
  | opened (t : State) (h : s.held kind = none) (hopened : Opened kind s t) : Connects kind s (.ok (), t)
  | raised (e : Raised) (t : State) (h : Released t) : Connects kind s (.error e, t)

/-- `connect` over SSH. -/
theorem connects_of_result {created configured opened prepared channelClosed closed : Except Raised Unit}
    {console : Option ℕ} (hheld : s.held kind = none) (hreleased : Released s)
    (hundone : ∀ e, (connectResult created configured opened prepared channelClosed closed console s).1 = .error e →
      UndoneOverSsh created configured opened prepared channelClosed) :
    Connects kind s (connectResult created configured opened prepared channelClosed closed console s) := by
  cases hresult : (connectResult created configured opened prepared channelClosed closed console s).1 with
  | ok _ =>
    have hopened : Opened kind s _ := connectResult_ok hresult
    rw [← (connectResult created configured opened prepared channelClosed closed console s).eta, hresult]
    exact .opened _ hheld hopened
  | error e =>
    have hreleased' : Released
        (connectResult created configured opened prepared channelClosed closed console s).2 :=
      connectResult_undone hreleased (hundone e hresult)
    rw [← (connectResult created configured opened prepared channelClosed closed console s).eta, hresult]
    exact .raised e _ hreleased'

theorem connect_connects (h : Consistent kind s) (hholds : Holds kind s)
    (hcareful : Careful config kind s (.connect env)) :
    Connects kind s ((kind.connect config).eval (answer env) s) := by
  obtain ⟨hundone, hport⟩ := hcareful
  cases kind with
  | picocomOverSsh =>
    cases hclient : s.client with
    | some client =>
      rw [Kind.connect, Picocom.connect, connectOverSsh_connected (by rw [hclient]; rfl)]
      exact .connected (by rw [State.held, hclient]; rfl)
    | none =>
      rw [Kind.connect, Picocom.connect_eval h hclient] at hundone ⊢
      exact connects_of_result hclient (hholds.released hclient) hundone
  | pySerialOverSsh =>
    cases hclient : s.client with
    | some client =>
      rw [Kind.connect, PySerialOverSsh.connect, connectOverSsh_connected (by rw [hclient]; rfl)]
      exact .connected (by rw [State.held, hclient]; rfl)
    | none =>
      rw [Kind.connect, PySerialOverSsh.connect_eval h hclient] at hundone ⊢
      exact connects_of_result hclient (hholds.released hclient) hundone
  | pySerial =>
    cases hchannel : s.channel with
    | some port =>
      have hsome : s.channel.isSome := by rw [hchannel]; rfl
      rw [Kind.connect, PySerial.connect_open hsome (hport rfl hsome)]
      exact .connected hsome
    | none =>
      have hreleased : Released s := hholds.released hchannel
      have hopened : Opened .pySerial s (PySerial.opened s) := ⟨rfl, rfl, rfl⟩
      have hholds' : Holds .pySerial (PySerial.opened s) := hreleased.create_held rfl rfl rfl
      rw [Kind.connect] at hundone ⊢
      rcases PySerial.connect_cases config env s with ⟨hsome, -⟩ | ⟨e, -, -, heval⟩ | ⟨e, e', -, -, heval⟩ |
        ⟨-, heval⟩ | ⟨e, hcreate, hprepare, hexc, heval⟩ | ⟨e, e', -, -, -, heval⟩
      · rw [hchannel] at hsome
        cases hsome
      · rw [heval]
        exact .raised e s hreleased
      · rw [heval]
        exact .raised e' _ (hholds.closing rfl rfl)
      · rw [heval]
        exact .opened _ hchannel hopened
      · -- an interrupt in the preparation is not undone
        rcases hundone e (by rw [heval]) with ⟨e', he', -⟩ | ⟨-, e', he', hexc'⟩
        · rw [hcreate] at he'
          cases he'
        · rw [hprepare] at he'
          cases he'
          rw [hexc] at hexc'
          cases hexc'
      · rw [heval]
        exact .raised e' _ (hholds'.closing rfl rfl)
  | ssh =>
    rw [Kind.connect] at hundone ⊢
    rcases SSH.connect_cases config env s with ⟨hsome, heval⟩ | ⟨e, -, hclient, heval⟩ | ⟨e, hcreate, heval⟩ | heval
    · rw [heval]
      exact .connected hsome
    · rw [heval]
      exact .raised e s (hholds.released hclient)
    · -- a client that was created is not closed
      obtain ⟨e', he'⟩ := hundone e (by rw [heval])
      rw [hcreate] at he'
      cases he'
    · cases hclient : s.client with
      | some client =>
        have hconnected : (SSH.connect config).eval (answer env) s = (.ok (), s) := by
          simp [SSH.connect, hclient]
        rw [hconnected]
        exact .connected (by rw [State.held, hclient]; rfl)
      | none =>
        rw [heval]
        exact .opened _ hclient ⟨rfl, rfl, rfl⟩

theorem Connects.holds {r : Except Raised Unit × State} (h : Connects kind s r) (hholds : Holds kind s) :
    Holds kind r.2 := by
  cases h with
  | connected _ => exact hholds
  | opened t hheld hopened => exact (hholds.released hheld).create_held hopened.1 hopened.2.1 hopened.2.2
  | raised e t hreleased => exact hreleased.holds

/-- A new transport that raises has closed what it created exactly when its failure is undone. -/
theorem released_iff_undone {e : Raised}
    (he : ((kind.connect config).eval (answer env) .fresh).1 = .error e) :
    Released ((kind.connect config).eval (answer env) .fresh).2 ↔ Undone config env .fresh kind := by
  have h := consistent_fresh kind
  constructor
  · intro hreleased
    cases kind with
    | picocomOverSsh =>
      rw [Kind.connect, Picocom.connect_eval h rfl] at he hreleased
      exact undone_of_released h he hreleased
    | pySerialOverSsh =>
      rw [Kind.connect, PySerialOverSsh.connect_eval h rfl] at he hreleased
      exact undone_of_released h he hreleased
    | pySerial =>
      rw [Kind.connect] at he hreleased
      rcases PySerial.connect_cases config env .fresh with ⟨hsome, -⟩ | ⟨e, hcreate, -, -⟩ |
        ⟨e, e', hcreate, hexc, -⟩ | ⟨-, heval⟩ | ⟨e, -, -, -, heval⟩ | ⟨e, e', hcreate, hprepare, hexc, -⟩
      · cases hsome
      · exact .inl ⟨e, hcreate, .inr rfl⟩
      · exact .inl ⟨e, hcreate, .inl hexc⟩
      · rw [heval] at he
        cases he
      · rw [heval] at hreleased
        exact absurd hreleased (h.not_released rfl rfl)
      · exact .inr ⟨hcreate, e, hprepare, hexc⟩
    | ssh =>
      rw [Kind.connect] at he hreleased
      rcases SSH.connect_cases config env .fresh with ⟨hsome, -⟩ | ⟨e, hcreate, -, -⟩ | ⟨e, -, heval⟩ | heval
      · cases hsome
      · exact ⟨e, hcreate⟩
      · rw [heval] at hreleased
        exact absurd hreleased (h.not_released rfl rfl)
      · rw [heval] at he
        cases he
  · intro hundone
    have hconnects := connect_connects h released_fresh.holds
      ⟨fun _ _ => hundone, fun _ hsome => by cases hsome⟩
    generalize (kind.connect config).eval (answer env) .fresh = ended at he hconnects
    cases hconnects with
    | connected _ => cases he
    | opened t _ _ => cases he
    | raised e t hreleased => exact hreleased

/-- Nothing is lost by a careful call. -/
theorem step_holds (h : Consistent kind s) (hholds : Holds kind s) {e : Event} {t : State}
    (hcareful : Careful config kind s e) (ht : step config kind s e = some t) : Holds kind t := by
  cases e with
  | connect env =>
    cases ht
    exact (connect_connects h hholds hcareful).holds hholds
  | execute env command =>
    cases ht
    exact execute_holds hholds command
  | close env =>
    cases ht
    exact (close_released hholds).holds

end Holding

end HardwareTest.Transport.Lifecycle
