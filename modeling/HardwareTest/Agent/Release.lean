import HardwareTest.Agent.Survival

/-!
# A device that is given back

The loop of the agent closes its device in a `finally`.  The peer may be gone at any response: then the
write of the response raises, which nothing in the loop catches.

* `runOut` — the agent over an output that can fail;
* `Used` — the order of the calls on a port: nothing follows its close;
* `devices_released` — whatever the stream, the library and the peer do, the agent ends without a device,
  and every port it has created was closed once and not used any more.
-/

namespace HardwareTest.Agent

open HardwareTest.Lib HardwareTest.Lib.Json HardwareTest.Python

/-! ## An output that can fail -/

/-- `run`, where the write of a response may raise. -/
def runOut (depth : ℕ) (stream : Bytes) : Program Op (fun op => Option (Answer op)) (Option Raised) ℕ :=
  (serve depth (stream.length + 1) stream).cutOff.tryFinally SerialAgent.close.cutOff

/-- The environment of the agent, with the responses that the peer does not take. -/
def answerOut (env : Env) (gone : Bench → Bytes → Bool) : (op : Op) → Bench → Option (Answer op) × Bench
  | .emit line, b => if gone b line then (none, b) else (some (), (answer env (.emit line) b).2)
  | op, b => (some (answer env op b).1, (answer env op b).2)

/-- A call that is no response. -/
def Op.IsQuiet (op : Op) : Prop := ∀ line, op ≠ .emit line

section Quiet

variable {env : Env} {gone : Bench → Bytes → Bool} {depth : ℕ}

theorem answerOut_quiet (op : Op) (b : Bench) (h : op.IsQuiet) :
    answerOut env gone op b = (some (answer env op b).1, (answer env op b).2) := by
  cases op with
  | emit line => exact absurd rfl (h line)
  | _ => rfl

theorem output_quiet (op : Op) (b : Bench) (h : op.IsQuiet) : (answer env op b).2.output = b.output := by
  cases op with
  | emit line => exact absurd rfl (h line)
  | serialFactory p =>
    rw [answer]
    split <;> rfl
  | read port size =>
    rw [answer]
    split <;> rfl
  | _ => rfl

theorem close_quiet : SerialAgent.close.Only Op.IsQuiet := by
  refine ⟨nofun, fun connection => ⟨nofun, fun _ => ?_⟩⟩
  cases connection with
  | none => trivial
  | some port => exact ⟨nofun, fun r => Program.only_ofExcept _⟩

theorem requireConnection_quiet : SerialAgent.requireConnection.Only Op.IsQuiet := by
  refine ⟨nofun, fun connection => ?_⟩
  cases connection <;> trivial

theorem create_quiet (device : Str) (baudrate : ℤ) : (SerialAgent.create device baudrate).Only Op.IsQuiet := by
  refine ⟨nofun, fun r => ?_⟩
  cases r with
  | ok port => exact ⟨nofun, fun _ => trivial⟩
  | error message => trivial

/-- After a validator. -/
theorem validator_quiet {α β : Type} {r : Except Raised α} {f : α → AgentM β} (hf : ∀ a, (f a).Only Op.IsQuiet) :
    (Program.ofExcept r >>= f).Only Op.IsQuiet :=
  (Program.only_ofExcept r).bind hf

theorem open_quiet (request : Request) : (SerialAgent.open request).Only Op.IsQuiet := by
  refine validator_quiet fun _ => ⟨nofun, fun connection => ?_⟩
  cases connection with
  | some port => trivial
  | none =>
    refine validator_quiet fun value => validator_quiet fun device => validator_quiet fun baudrate => ?_
    refine ⟨nofun, fun isCharDevice => ?_⟩
    cases isCharDevice with
    | true => exact create_quiet device baudrate
    | false => trivial

theorem write_quiet (request : Request) : (SerialAgent.write request).Only Op.IsQuiet := by
  refine validator_quiet fun _ => requireConnection_quiet.bind fun port => validator_quiet fun payload => ?_
  refine ⟨nofun, fun r => ?_⟩
  cases r <;> trivial

theorem read_quiet (request : Request) : (SerialAgent.read request).Only Op.IsQuiet := by
  refine validator_quiet fun _ => requireConnection_quiet.bind fun port => ?_
  refine validator_quiet fun size => validator_quiet fun timeout => ⟨nofun, fun r => ?_⟩
  cases r with
  | error message => trivial
  | ok _ =>
    refine ⟨nofun, fun r => ?_⟩
    cases r <;> trivial

theorem resetInput_quiet (request : Request) : (SerialAgent.resetInput request).Only Op.IsQuiet := by
  refine validator_quiet fun _ => requireConnection_quiet.bind fun port => ⟨nofun, fun r => ?_⟩
  cases r <;> trivial

theorem resetOutput_quiet (request : Request) : (SerialAgent.resetOutput request).Only Op.IsQuiet := by
  refine validator_quiet fun _ => requireConnection_quiet.bind fun port => ⟨nofun, fun r => ?_⟩
  cases r <;> trivial

theorem answered_quiet (stop : Bool) {m : AgentM Response} (hm : m.Only Op.IsQuiet) :
    (SerialAgent.answered stop m).Only Op.IsQuiet := hm.bind fun _ => trivial

/-- **No operation writes a response**; the loop does. -/
theorem handle_quiet (request : Request) : (SerialAgent.handle request).Only Op.IsQuiet := by
  refine validator_quiet fun operation => Program.Only.tryCatch ?_ fun _ => trivial
  unfold SerialAgent.dispatch
  split_ifs
  · exact answered_quiet _ (validator_quiet fun _ => trivial)
  · exact answered_quiet _ (open_quiet request)
  · exact answered_quiet _ (write_quiet request)
  · exact answered_quiet _ (read_quiet request)
  · exact answered_quiet _ (resetInput_quiet request)
  · exact answered_quiet _ (resetOutput_quiet request)
  · exact answered_quiet _ (validator_quiet fun _ => close_quiet.bind fun _ => trivial)
  · trivial

theorem respondLine_quiet (line : Bytes) : (respondLine depth line).Only Op.IsQuiet := by
  rw [respondLine]
  split_ifs
  · trivial
  · refine (validator_quiet handle_quiet).tryCatch fun e => ?_
    cases e <;> trivial

/-- One line, whether or not the peer is there: it is evaluated as it would be, then its response goes out. -/
theorem eval_specification_out (line : Bytes) (lines : List Bytes) (b : Bench) :
    (specification depth (line :: lines)).cutOff.eval (answerOut env gone) b
      = match (respondLine depth line).eval (answer env) b with
        | (.error e, b') => (.error (some e), b')
        | (.ok (response, stop), b') =>
          if gone b' (encodeResponse response) then (.error none, b')
          else if stop then (.ok 0, b'.emitted response)
          else (specification depth lines).cutOff.eval (answerOut env gone) (b'.emitted response) := by
  rw [specification, Program.cutOff_bind, Program.eval_bind,
    (respondLine_quiet line).eval_cutOff answerOut_quiet]
  rcases (respondLine depth line).eval (answer env) b with ⟨r, b'⟩
  cases r with
  | error e => rfl
  | ok answer =>
    obtain ⟨response, stop⟩ := answer
    dsimp only [Except.mapError]
    rw [Program.cutOff, Program.eval_call, answerOut]
    by_cases hgone : gone b' (encodeResponse response) = true
    · rw [if_pos hgone, if_pos hgone]
      rfl
    · rw [if_neg hgone, if_neg hgone]
      cases stop <;> rfl

end Quiet

/-! ## The order of the calls on a port -/

/-- Nothing follows the close of a port, on that port. -/
def Op.Precedes (first later : Op) : Prop := ∀ port, first = .close port → later ≠ .close port ∧ ¬later.Uses port

/-- The owned port is the one that is live, and closed ports were let alone. -/
structure Orderly (b : Bench) : Prop where
  owned : Owned b
  ordered : b.calls.Pairwise Op.Precedes

theorem orderly_initial : Orderly .initial := ⟨owned_initial, .nil⟩

/-- Calls on the owned port, and others that are no use of a port, keep the order. -/
theorem Orderly.append {b : Bench} (h : Orderly b) {ops : List Op} (hops : ops.Pairwise Op.Precedes)
    (howned : ∀ op ∈ ops, ∀ port, op = .close port ∨ op.Uses port → b.connection = some port) :
    (b.calls ++ ops).Pairwise Op.Precedes := by
  refine List.pairwise_append.mpr ⟨h.ordered, hops, fun first hfirst later hlater port hclose => ?_⟩
  have hlive : ∀ {port}, b.connection = some port → .close port ∉ b.calls := fun hport =>
    ((h.owned.live _).mpr hport).2
  rw [hclose] at hfirst
  exact ⟨fun heq => hlive (howned later hlater port (.inl heq)) hfirst,
    fun huses => hlive (howned later hlater port (.inr huses)) hfirst⟩

/-- Calls that close no port are in order. -/
theorem pairwise_of_no_close {ops : List Op} (h : ∀ op ∈ ops, ∀ port, op ≠ .close port) :
    ops.Pairwise Op.Precedes :=
  List.pairwise_of_forall_mem_list fun first hfirst _ _ port hclose => absurd hclose (h first hfirst port)

/-- **Every effect keeps the order.** -/
theorem Effect.orderly {request : Request} {b b' : Bench} {r : Except Raised Response}
    (heffect : Effect request b (r, b')) (h : Orderly b) : Orderly b' := by
  refine ⟨heffect.owned h.owned, ?_⟩
  cases heffect with
  | answered => exact h.ordered
  | refused => exact h.ordered
  | overflow => exact h.ordered
  | noDevice device =>
    exact h.append (pairwise_of_no_close (by simp)) (by simp [Op.Uses])
  | created p | notCreated p =>
    have hops : (b.calls ++ [Op.isCharDevice p.port, Op.serialFactory p]).Pairwise Op.Precedes :=
      h.append (pairwise_of_no_close (by simp)) (by simp [Op.Uses])
    simpa using hops
  | used port hport ops hops _ _ _ hcalls =>
    have hne : ∀ op ∈ ops, ∀ p, op ≠ .close p := fun op hop p => (hops op hop).ne_close p
    rw [hcalls]
    refine h.append (pairwise_of_no_close hne) fun op hop p hp => ?_
    rw [hport, (hops op hop).unique (hp.resolve_left (hne op hop p))]
  | closed port hport =>
    refine h.append (List.pairwise_singleton _ _) fun op hop p hp => ?_
    rw [List.mem_singleton.mp hop] at hp
    rw [hport, Op.close.inj (hp.resolve_right id)]

section Run

variable {env : Env} {gone : Bench → Bytes → Bool} {depth : ℕ}

/-- One line. -/
theorem respondLine_orderly {line : Bytes} {b : Bench} (h : Orderly b) :
    Orderly ((respondLine depth line).eval (answer env) b).2 := by
  rw [respondLine]
  split_ifs
  · exact h
  · cases hdecode : decodeRequest depth line with
    | ok request =>
      obtain ⟨r, b', stop, heffect, hresult, -⟩ := handle_effect env request b
      rw [respond_decoded hdecode, hresult]
      exact heffect.orderly h
    | error e =>
      rw [respond, Program.eval_tryCatch, hdecode, Program.eval_bind]
      cases e <;> exact h

/-- **All lines**, however far the peer listens. -/
theorem specification_orderly (env : Env) (gone : Bench → Bytes → Bool) (depth : ℕ) (lines : List Bytes)
    {b : Bench} (h : Orderly b) :
    Orderly ((specification depth lines).cutOff.eval (answerOut env gone) b).2 := by
  induction lines generalizing b with
  | nil => exact h
  | cons line lines ih =>
    have hline : Orderly ((respondLine depth line).eval (answer env) b).2 := respondLine_orderly h
    rw [eval_specification_out]
    rcases heval : (respondLine depth line).eval (answer env) b with ⟨r, b'⟩
    rw [heval] at hline
    cases r with
    | error e => exact hline
    | ok answer =>
      have hemitted : Orderly (b'.emitted answer.1) := ⟨⟨hline.owned.live, hline.owned.closed⟩, hline.ordered⟩
      dsimp only
      split_ifs
      · exact hline
      · exact hemitted
      · exact ih hemitted

/-- The lines only add to the output. -/
theorem output_isPrefix (env : Env) (depth : ℕ) (lines : List Bytes) (b : Bench) :
    b.output <+: ((specification depth lines).eval (answer env) b).2.output := by
  induction lines generalizing b with
  | nil => exact List.prefix_rfl
  | cons line lines ih =>
    have hquiet : ((respondLine depth line).eval (answer env) b).2.output = b.output :=
      (respondLine_quiet line).eval_eq output_quiet b
    rw [← hquiet]
    rcases hline : (respondLine depth line).eval (answer env) b with ⟨r, b'⟩
    cases r with
    | error e =>
      rw [specification, Program.eval_bind, hline]
    | ok answer =>
      have hemitted : b'.output <+: (b'.emitted answer.1).output := List.prefix_append _ _
      rw [eval_specification line lines hline]
      split_ifs
      · exact hemitted
      · exact hemitted.trans (ih _)

/-- **What the peer has taken** is a first part of what it is sent while it is there. -/
theorem output_taken (lines : List Bytes) (b : Bench) :
    ((specification depth lines).cutOff.eval (answerOut env gone) b).2.output
      <+: ((specification depth lines).eval (answer env) b).2.output := by
  induction lines generalizing b with
  | nil => exact List.prefix_rfl
  | cons line lines ih =>
    have hwhole := output_isPrefix env depth (line :: lines) b
    have hquiet : ((respondLine depth line).eval (answer env) b).2.output = b.output :=
      (respondLine_quiet line).eval_eq output_quiet b
    rw [eval_specification_out]
    rcases hline : (respondLine depth line).eval (answer env) b with ⟨r, b'⟩
    rw [hline] at hquiet
    cases r with
    | error e =>
      rw [specification, Program.eval_bind, hline]
    | ok answer =>
      dsimp only
      split_ifs with hgone hstop
      · rw [← hquiet] at hwhole
        exact hwhole
      · rw [eval_specification line lines hline, if_pos hstop]
      · rw [eval_specification line lines hline, if_neg hstop]
        exact ih _

/-- The bench after a close. -/
theorem eval_close (env : Env) (b : Bench) :
    (SerialAgent.close.eval (answer env) b).2 = match b.connection with
      | none => b
      | some port => { b.record (.close port) with connection := none } := by
  rw [SerialAgent.close, Program.eval_call, Program.eval_call]
  obtain ⟨connection, ports, calls, output⟩ := b
  cases connection with
  | none => rfl
  | some port =>
    simp only [answer, Program.eval_call, ofSerial, Program.eval_ofExcept]
    rfl

/-- **Closing** gives the device back, and leaves the output. -/
theorem close_released (env : Env) {b : Bench} (h : Orderly b) :
    Orderly (SerialAgent.close.eval (answer env) b).2 ∧
      (SerialAgent.close.eval (answer env) b).2.connection = none ∧
      (SerialAgent.close.eval (answer env) b).2.output = b.output := by
  rw [eval_close]
  cases hconnection : b.connection with
  | none => exact ⟨h, hconnection, rfl⟩
  | some port =>
    have hclosed : Effect [] b (.ok (success []), _) := .closed port hconnection _ ⟨_, rfl⟩
    exact ⟨hclosed.orderly h, rfl, rfl⟩

/-- The bench at the end of `runOut`. -/
theorem eval_runOut (stream : Bytes) :
    ((runOut depth stream).eval (answerOut env gone) .initial).2
      = (SerialAgent.close.eval (answer env)
          ((specification depth (splitLines stream)).cutOff.eval (answerOut env gone) .initial).2).2 := by
  rw [runOut, serve_eq depth (Nat.lt_succ_self _), Program.eval_tryFinally]
  rcases (specification depth (splitLines stream)).cutOff.eval (answerOut env gone) .initial with ⟨r, b⟩
  dsimp only
  rw [close_quiet.eval_cutOff answerOut_quiet]
  rcases SerialAgent.close.eval (answer env) b with ⟨_ | _, b'⟩ <;> rfl

/-- The responses at the end of `run`. -/
theorem output_run (stream : Bytes) :
    ((run depth stream).eval (answer env) .initial).2.output
      = ((specification depth (splitLines stream)).eval (answer env) .initial).2.output := by
  rw [run, serve_eq depth (Nat.lt_succ_self _), Program.eval_tryFinally]
  rcases (specification depth (splitLines stream)).eval (answer env) .initial with ⟨r, b⟩
  have hclose : (SerialAgent.close.eval (answer env) b).2.output = b.output := close_quiet.eval_eq output_quiet b
  dsimp only
  rw [← hclose]
  rcases SerialAgent.close.eval (answer env) b with ⟨_ | _, b'⟩ <;> rfl

end Run

/-- **Every device is given back.**  Whatever the stream holds, the library does and the peer takes: the
agent ends without a device; every port that it has created was closed, once, and no call used it
afterwards; and the responses that were taken are the first ones of those that the agent writes to a peer
that takes them all. -/
theorem devices_released (env : Env) (gone : Bench → Bytes → Bool) (depth : ℕ) (stream : Bytes) :
    let b := ((runOut depth stream).eval (answerOut env gone) .initial).2
    b.connection = none ∧
      (∀ port < b.ports.length, ∃ earlier later, b.calls = earlier ++ .close port :: later ∧
        .close port ∉ earlier ∧ ∀ op ∈ later, op ≠ .close port ∧ ¬op.Uses port) ∧
      b.output <+: ((run depth stream).eval (answer env) .initial).2.output := by
  intro b
  obtain ⟨horderly, hnone, houtput⟩ := close_released env
    (specification_orderly env gone depth (splitLines stream) orderly_initial)
  rw [← eval_runOut] at horderly hnone houtput
  refine ⟨hnone, fun port hport => ?_, ?_⟩
  · have hclosed : .close port ∈ b.calls := by
      by_contra hopen
      have howned := (horderly.owned.live port).mp ⟨hport, hopen⟩
      rw [hnone] at howned
      cases howned
    obtain ⟨earlier, later, hcalls, hfirst⟩ := List.eq_append_cons_of_mem hclosed
    have hordered := horderly.ordered
    rw [hcalls, List.pairwise_append, List.pairwise_cons] at hordered
    exact ⟨earlier, later, hcalls, hfirst, fun op hop => hordered.2.1.1 op hop port rfl⟩
  · rw [houtput, output_run]
    exact output_taken (splitLines stream) .initial

end HardwareTest.Agent
