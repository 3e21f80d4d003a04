import HardwareTest.Agent.Survival

/-!
# Writes and reads of the agent

What the requests of a byte channel do to the owned port: a `write` that is answered with the length of
its payload has written the payload, and a `read` is answered with the bytes it has taken.

* `handled_write`, `handled_read`, `handled_open` — one request each;
* `Serving` — the loop of the agent, line by line;
* `serving_eq` — it is the loop on the lines put together.
-/

namespace HardwareTest.Agent

open HardwareTest.Lib HardwareTest.Lib.Json HardwareTest.Python

/-- The common fields of a request. -/
def envelope (operation : Str) : Request :=
  [(codes "version", .int 1), (codes "operation", .str operation)]

def writeRequest (s : Bytes) : Request :=
  envelope (codes "write") ++ [(codes "data", .str (Base64.encode s))]

def readRequest (size : ℤ) (timeout : PyFloat) : Request :=
  envelope (codes "read") ++ [(codes "size", .int size), (codes "timeout", .float timeout)]

def openRequest (device : Str) (baudrate : ℤ) : Request :=
  envelope (codes "open") ++ [(codes "device", .str device), (codes "baudrate", .int baudrate)]

/-- A result that is a failure response in the end. -/
def Fails (r : Except Raised (Response × Bool)) : Prop :=
  ∃ code message, answerOf r = .ok (failure code message, false)

theorem fails_of_refuses {stop : Bool} {e : Raised} (he : e.Refuses) :
    Fails (SerialAgent.result stop (.error e)) := by
  obtain ⟨code, message, rfl, -⟩ := he
  exact ⟨code, message, rfl⟩

theorem fails_of_serialError (stop : Bool) (message : Str) :
    Fails (SerialAgent.result stop (.error (.serialError message))) := ⟨_, _, rfl⟩

section Handled

variable {env : Env} {b : Bench} {port : ℕ}

/-- `handle` on an operation that goes on. -/
theorem handled_eq {request : Request} (operation : Str) (m : AgentM Response)
    (henvelope : validateEnvelope request = .ok operation)
    (hdispatch : SerialAgent.dispatch request operation = SerialAgent.answered false m) :
    handled env request b
      = (SerialAgent.result false (m.eval (answer env) b).1, (m.eval (answer env) b).2) := by
  rw [handled, SerialAgent.handle, henvelope, Program.eval_bind, Program.eval_ofExcept]
  show ((SerialAgent.dispatch request operation).tryCatch _).eval (answer env) b = _
  rw [hdispatch, eval_answered]

theorem eval_requireConnection (hport : b.connection = some port) :
    SerialAgent.requireConnection.eval (answer env) b = (.ok port, b) := by
  rw [SerialAgent.requireConnection, Program.eval_call]
  simp only [answer, hport]
  rfl

/-- A count that is the length of the payload means that the payload was taken. -/
theorem taken_of_count {outcome : WriteOutcome} {s : Bytes} {count : Option ℕ}
    (h : outcome.answer s = .ok count) :
    count.getD s.length ≤ s.length ∧ (count.getD s.length = s.length → outcome.taken s = s) := by
  cases outcome with
  | wrote n =>
    cases h
    refine ⟨List.length_take_le' _ _, fun hlen => ?_⟩
    exact List.take_of_length_le (by simpa using hlen)
  | wroteAll =>
    cases h
    exact ⟨le_rfl, fun _ => rfl⟩
  | failed n message => cases h

theorem decodePayload_writeRequest {s payload : Bytes}
    (h : decodePayload (writeRequest s) = .ok payload) :
    s = payload ∧ s.length ≤ maxPayloadBytes := by
  rw [decodePayload] at h
  cases hstring : requireString (writeRequest s) (codes "data") with
  | error e =>
    rw [hstring] at h
    cases h
  | ok encoded =>
    obtain rfl : encoded = Base64.encode s := by
      have hget := requireString_ok hstring
      cases hget
      rfl
    rw [hstring] at h
    replace h : decodeData (Base64.encode s) = .ok payload := h
    rw [decodeData, Base64.decode_encode] at h
    dsimp only at h
    split_ifs at h with hlarge
    cases h
    exact ⟨rfl, by omega⟩

/-- **A write**: it fails, or it is answered with a count, and all of the payload is written when the
count is its length. -/
theorem handled_write (hport : b.connection = some port) (s : Bytes) :
    Fails (handled env (writeRequest s) b).1 ∨
      ∃ count, (handled env (writeRequest s) b).1 = .ok (SerialAgent.written count, false) ∧
        count ≤ maxPayloadBytes ∧
        (handled env (writeRequest s) b).2 = (answer env (.write port s) b).2 ∧
        (count = s.length → (env.write (b.record (.write port s)).calls).taken s = s) := by
  rw [handled_eq (codes "write") (SerialAgent.write (writeRequest s)) rfl rfl]
  have hfields : validateFields (writeRequest s) [codes "data"] [] = .ok () := rfl
  rw [SerialAgent.write, hfields, Program.eval_bind, Program.eval_ofExcept]
  simp only [Program.eval_bind, eval_requireConnection hport, Program.eval_ofExcept]
  cases hpayload : decodePayload (writeRequest s) with
  | error e => exact .inl (fails_of_refuses (decodePayload_expected _ e hpayload))
  | ok payload =>
    obtain ⟨rfl, hsize⟩ := decodePayload_writeRequest hpayload
    simp only [Program.eval_call]
    cases hwrite : (answer env (.write port s) b).1 with
    | error message => exact .inl (fails_of_serialError false message)
    | ok count =>
      obtain ⟨hle, htaken⟩ := taken_of_count hwrite
      exact .inr ⟨count.getD s.length, rfl, hle.trans hsize, rfl, htaken⟩

/-- **A read**: it fails, or it is answered with the bytes that were taken from the port. -/
theorem handled_read (hport : b.connection = some port) (size : ℤ) (timeout : PyFloat) :
    Fails (handled env (readRequest size timeout) b).1 ∨
      ∃ bytes, (handled env (readRequest size timeout) b).1
          = .ok (success [(codes "data", .str (encodePayload bytes))], false) ∧
        (handled env (readRequest size timeout) b).2
          = (((b.record (.setTimeout port timeout)).update port fun p => { p with timeout := timeout }).record
              (.read port size)).update port fun p => { p with received := p.received ++ bytes } := by
  rw [handled_eq (codes "read") (SerialAgent.read (readRequest size timeout)) rfl rfl]
  have hfields : validateFields (readRequest size timeout) [codes "size", codes "timeout"] [] = .ok () :=
    rfl
  rw [SerialAgent.read, hfields, Program.eval_bind, Program.eval_ofExcept]
  simp only [Program.eval_bind, eval_requireConnection hport, Program.eval_ofExcept]
  cases hsize : requireInt (readRequest size timeout) (codes "size") 1 maxReadBytes with
  | error e => exact .inl (fails_of_refuses (requireInt_expected _ _ _ _ e hsize))
  | ok n =>
    obtain rfl : size = n := by
      have hget := (requireInt_ok hsize).1
      cases hget
      rfl
    have htimeout : requireTimeout (readRequest size timeout) = boundedTimeout timeout := rfl
    rw [htimeout]
    cases hbounded : boundedTimeout timeout with
    | error e => exact .inl (fails_of_refuses (boundedTimeout_expected _ e hbounded))
    | ok t =>
      obtain rfl : timeout = t := by
        unfold boundedTimeout at hbounded
        split_ifs at hbounded
        cases hbounded
        rfl
      simp only [Program.eval_call]
      generalize hset : (answer env (.setTimeout port timeout) b).2 = b'
      cases hok : (answer env (.setTimeout port timeout) b).1 with
      | error message => exact .inl (fails_of_serialError false message)
      | ok _ =>
        simp only [Program.eval_call]
        cases hread : env.read (b'.record (.read port size)).calls with
        | error message =>
          simp only [answer, hread]
          exact .inl (fails_of_serialError false message)
        | ok bytes =>
          simp only [answer, hread]
          refine .inr ⟨bytes, rfl, ?_⟩
          rw [← hset]
          rfl

end Handled

section Opening

variable {env : Env} {b b' : Bench} {response : Response}

/-- A validator that is followed by a success has accepted. -/
theorem eval_validator {α : Type} {r : Except Raised α} {f : α → AgentM Response}
    (h : (Program.ofExcept r >>= f).eval (answer env) b = (.ok response, b')) :
    ∃ a, r = .ok a ∧ (f a).eval (answer env) b = (.ok response, b') := by
  rw [Program.eval_bind, Program.eval_ofExcept] at h
  cases r with
  | ok a => exact ⟨a, rfl, h⟩
  | error e => cases h

/-- The slot and the ports after a port was created. -/
def Created (b b' : Bench) : Prop :=
  b'.connection = some b.ports.length ∧ ∃ p, b'.ports = b.ports ++ [⟨p, p.timeout, [], []⟩]

theorem create_created {device : Str} {baudrate : ℤ}
    (h : (SerialAgent.create device baudrate).eval (answer env) b = (.ok response, b')) :
    response = success [] ∧ Created b b' := by
  rw [SerialAgent.create, Program.eval_call] at h
  cases hfactory : env.serialFactory (b.record
      (.serialFactory (SerialAgent.parameters device baudrate))).calls with
  | ok _ =>
    simp only [answer, hfactory] at h
    cases h
    exact ⟨rfl, rfl, _, rfl⟩
  | error message =>
    simp only [answer, hfactory] at h
    cases h

theorem openDevice_created {request : Request}
    (h : (SerialAgent.openDevice request).eval (answer env) b = (.ok response, b')) :
    response = success [] ∧ Created b b' := by
  obtain ⟨value, -, h⟩ := eval_validator h
  obtain ⟨device, -, h⟩ := eval_validator h
  obtain ⟨baudrate, -, h⟩ := eval_validator h
  rw [Program.eval_call] at h
  cases hchar : (answer env (.isCharDevice device) b).1 with
  | true =>
    rw [hchar] at h
    exact create_created (b := b.record (.isCharDevice device)) h
  | false =>
    rw [hchar] at h
    cases h

/-- **An open that succeeds** has created the port that it puts into the slot. -/
theorem handled_open {device : Str} {baudrate : ℤ} :
    Fails (handled env (openRequest device baudrate) b).1 ∨
      (handled env (openRequest device baudrate) b).1 = .ok (success [], false) ∧
        Created b (handled env (openRequest device baudrate) b).2 := by
  rw [handled_eq (codes "open") (SerialAgent.open (openRequest device baudrate)) rfl rfl]
  rcases heval : (SerialAgent.open (openRequest device baudrate)).eval (answer env) b with ⟨r, b'⟩
  cases r with
  | error e =>
    have heffect : Effect (openRequest device baudrate) b
        ((SerialAgent.open (openRequest device baudrate)).eval (answer env) b) := open_effect rfl
    rw [heval] at heffect
    rcases heffect.raises with ⟨code, message, htranslate⟩ | hread
    · refine .inl ⟨code, message, ?_⟩
      show answerOf (.error (SerialAgent.translate e)) = _
      rw [htranslate]
      rfl
    · -- an overflow needs a read
      have hoperation : (.ok (codes "open") : Except Raised Str) = .ok (codes "read") := hread.operation
      rw [Except.ok.injEq] at hoperation
      exact absurd hoperation (by decide)
  | ok response =>
    refine .inr ?_
    obtain ⟨_, -, h⟩ := eval_validator heval
    rw [Program.eval_call] at h
    cases hconnection : b.connection with
    | some port =>
      simp only [answer, hconnection] at h
      cases h
    | none =>
      simp only [answer, hconnection] at h
      obtain ⟨rfl, hcreated⟩ := openDevice_created h
      exact ⟨rfl, hcreated⟩

end Opening

/-! ## The loop, line by line -/

/-- The agent between two lines: its bench, and whether its loop still runs. -/
structure Serving where
  bench : Bench
  alive : Bool

/-- A line that reaches the agent, and what it writes. -/
def Serving.pass (env : Env) (depth : ℕ) (a : Serving) (line : Bytes) : Serving × Bytes :=
  if a.alive then
    match (respondLine depth line).eval (answer env) a.bench with
    | (.ok (response, stop), b) => (⟨b.emitted response, !stop⟩, encodeResponse response)
    | (.error _, b) => (⟨b, false⟩, [])
  else (a, [])

/-- The agent after a number of lines. -/
def serving (env : Env) (depth : ℕ) (lines : List Bytes) : Serving :=
  lines.foldl (fun a line => (a.pass env depth line).1) ⟨.initial, true⟩

theorem serving_append (env : Env) (depth : ℕ) (lines : List Bytes) (line : Bytes) :
    serving env depth (lines ++ [line]) = ((serving env depth lines).pass env depth line).1 :=
  List.foldl_concat ..

/-- A loop that has ended does not change. -/
theorem foldl_dead (env : Env) (depth : ℕ) (lines : List Bytes) (b : Bench) :
    lines.foldl (fun a line => (Serving.pass env depth a line).1) ⟨b, false⟩ = ⟨b, false⟩ := by
  induction lines with
  | nil => rfl
  | cons line lines ih => exact ih

theorem foldl_pass (env : Env) (depth : ℕ) (lines : List Bytes) (b : Bench) :
    ((specification depth lines).eval (answer env) b).2
      = (lines.foldl (fun a line => (Serving.pass env depth a line).1) ⟨b, true⟩).bench := by
  induction lines generalizing b with
  | nil => rfl
  | cons line lines ih =>
    rw [List.foldl_cons, Serving.pass, if_pos rfl]
    rcases hrespond : (respondLine depth line).eval (answer env) b with ⟨r, b'⟩
    cases r with
    | error e =>
      rw [foldl_dead, specification, Program.eval_bind, hrespond]
    | ok a =>
      obtain ⟨response, stop⟩ := a
      rw [eval_specification line lines hrespond]
      cases stop with
      | true => exact congrArg Serving.bench (foldl_dead env depth lines _).symm
      | false => exact ih (b'.emitted response)

/-- One line with its line feed. -/
def IsLine (line : Bytes) : Prop := ∃ body, line = body ++ [10] ∧ (10 : UInt8) ∉ body

theorem splitLines_flatten {lines : List Bytes} (h : ∀ line ∈ lines, IsLine line) :
    splitLines lines.flatten = lines := by
  induction lines with
  | nil => rfl
  | cons line lines ih =>
    obtain ⟨body, rfl, hbody⟩ := h line List.mem_cons_self
    rw [List.flatten_cons, List.append_assoc]
    exact (splitLines_line hbody).trans
      (congrArg ((body ++ [10]) :: ·) (ih fun l hl => h l (List.mem_cons_of_mem _ hl)))

/-- **The agent line by line is its loop** on the lines put together. -/
theorem serving_eq (env : Env) (depth : ℕ) {lines : List Bytes} (h : ∀ line ∈ lines, IsLine line) :
    ((serve depth (lines.flatten.length + 1) lines.flatten).eval (answer env) .initial).2
      = (serving env depth lines).bench := by
  rw [serve_eq depth (Nat.lt_succ_self _), splitLines_flatten h]
  exact foldl_pass env depth lines .initial

end HardwareTest.Agent
