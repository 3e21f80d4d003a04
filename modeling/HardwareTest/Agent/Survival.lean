import HardwareTest.Agent.Main

/-!
# Lines that end the process

The loop catches `AgentError`, and `handle` turns the exceptions of the serial library into one.  What
is left escapes: `json.loads` on a number with too many digits or on a document that is nested too
deeply, and `float` of a timeout out of range.

* `Fatal` — a line with one of these, in the state in which it is read;
* `respondLine_cases` — every other line is answered;
* `Survives` — every line is answered, up to the end of the input or a successful close;
* `survives_iff` — the loop survives exactly when it reaches no fatal line.
-/

namespace HardwareTest.Agent

open HardwareTest.Lib HardwareTest.Lib.Json HardwareTest.Python

/-! ## One line -/

/-- A line of acceptable length that makes an exception escape. -/
inductive Fatal (depth : ℕ) (line : Bytes) (b : Bench) : Prop
  | tooManyDigits (hlength : line.length ≤ maxJsonLineBytes)
    (h : loadsBytes (F := PyFloat) depth line = .error .valueError)
  | tooDeep (hlength : line.length ≤ maxJsonLineBytes)
    (h : loadsBytes (F := PyFloat) depth line = .error .recursionError)
  | overflow (hlength : line.length ≤ maxJsonLineBytes) (request : Request)
    (h : decodeRequest depth line = .ok request) (hread : OverflowingRead request b)

/-- A response of the protocol. -/
def Structured (response : Response) : Prop :=
  (∃ values, response = success values) ∨ ∃ code message, response = failure code message

/-- A `close` request that was executed. -/
structure Closes (depth : ℕ) (line : Bytes) (response : Response) : Prop where
  request : ∃ request, decodeRequest depth line = .ok request ∧
    validateEnvelope request = .ok (codes "close")
  response : ∃ values, response = success values

/-- What decoding raises, other than a refusal. -/
theorem decodeRequest_cases (depth : ℕ) (line : Bytes) :
    (loadsBytes (F := PyFloat) depth line = .error .valueError ∧
        decodeRequest depth line = .error .valueError) ∨
      (loadsBytes (F := PyFloat) depth line = .error .recursionError ∧
        decodeRequest depth line = .error .recursionError) ∨
      Expected (decodeRequest depth line) := by
  unfold decodeRequest
  cases hloads : loadsBytes (F := PyFloat) depth line with
  | ok v =>
    right
    right
    cases v with
    | dict members => exact expected_ok members
    | _ => exact expected_invalidRequest _
  | error e =>
    cases e with
    | unicodeDecodeError => exact .inr (.inr (expected_agentError (by decide) _))
    | jsonDecodeError => exact .inr (.inr (expected_agentError (by decide) _))
    | valueError => exact .inl ⟨rfl, rfl⟩
    | recursionError => exact .inr (.inl ⟨rfl, rfl⟩)

section Line

variable {env : Env} {depth : ℕ} {line : Bytes} {b : Bench}

/-- An overflow escapes `handle`. -/
theorem handled_overflow {request : Request} (h : OverflowingRead request b) :
    handled env request b = (.error .overflowError, b) := by
  obtain ⟨size, hsize⟩ := h.size
  obtain ⟨port, hport⟩ := Option.isSome_iff_exists.mp h.owned
  have htimeout : requireTimeout request = .error .overflowError :=
    (requireTimeout_raises request).elim And.right fun hnot => absurd h.overflows hnot.1
  have hread : (SerialAgent.read request).eval (answer env) b = (.error .overflowError, b) := by
    rw [SerialAgent.read, h.fields, hsize, htimeout]
    simp [SerialAgent.requireConnection, answer, hport]
  have hdispatch : SerialAgent.dispatch request (codes "read")
      = SerialAgent.answered false (SerialAgent.read request) := rfl
  rw [handled, SerialAgent.handle, h.operation, Program.eval_bind, Program.eval_ofExcept]
  show ((SerialAgent.dispatch request (codes "read")).tryCatch _).eval (answer env) b = _
  rw [hdispatch, eval_answered, hread]
  rfl

/-- A refused line. -/
theorem respond_refused {e : Raised} (he : decodeRequest depth line = .error e) (hrefuses : e.Refuses) :
    ∃ code message, (respond depth line).eval (answer env) b = (.ok (failure code message, false), b) := by
  obtain ⟨code, message, rfl, -⟩ := hrefuses
  refine ⟨code, message, ?_⟩
  rw [respond, Program.eval_tryCatch, Program.eval_bind, Program.eval_ofExcept, he]
  rfl

/-- What becomes of the result of `handle`. -/
def answerOf : Except Raised (Response × Bool) → Except Raised (Response × Bool)
  | .error (.agentError code message) => .ok (failure code message, false)
  | r => r

/-- A line that is a request. -/
theorem respond_decoded {request : Request} (h : decodeRequest depth line = .ok request) :
    (respond depth line).eval (answer env) b
      = (answerOf (handled env request b).1, (handled env request b).2) := by
  rw [respond, Program.eval_tryCatch, Program.eval_bind, Program.eval_ofExcept, h, handled]
  dsimp only
  rcases (SerialAgent.handle request).eval (answer env) b with ⟨r, t⟩
  cases r with
  | ok a => rfl
  | error e => cases e <;> rfl

/-- The success of an effect is a `success`. -/
theorem Effect.success {request : Request} {b' : Bench} {response : Response}
    (h : Effect request b (.ok response, b')) : ∃ values, response = success values := by
  cases h with
  | answered values => exact ⟨values, rfl⟩
  | created => exact ⟨[], rfl⟩
  | used _ _ _ _ _ _ _ _ _ hr => exact hr
  | closed _ _ _ hr => exact hr

/-- The exceptions of an effect: a refusal, an overflow, or a failure of the library. -/
theorem Effect.raises {request : Request} {b' : Bench} {e : Raised}
    (h : Effect request b (.error e, b')) :
    (∃ code message, SerialAgent.translate e = .agentError code message) ∨ OverflowingRead request b := by
  cases h with
  | refused he =>
    obtain ⟨code, message, rfl, -⟩ := he
    exact .inl ⟨code, message, rfl⟩
  | noDevice _ he =>
    obtain ⟨code, message, rfl, -⟩ := he
    exact .inl ⟨code, message, rfl⟩
  | overflow hread => exact .inr hread
  | notCreated => exact .inl ⟨_, _, rfl⟩
  | used _ _ _ _ _ _ _ _ _ hr =>
    obtain ⟨message, rfl⟩ := hr
    exact .inl ⟨_, _, rfl⟩
  | closed _ _ _ hr =>
    obtain ⟨message, rfl⟩ := hr
    exact .inl ⟨_, _, rfl⟩

/-- A line that is refused, or is a request. -/
theorem respond_cases (hlength : line.length ≤ maxJsonLineBytes)
    (hexpected : Expected (decodeRequest depth line)) :
    (Fatal depth line b ∧ ∃ e, (respond depth line).eval (answer env) b = (.error e, b)) ∨
      (¬Fatal depth line b ∧ ∃ response stop b',
        (respond depth line).eval (answer env) b = (.ok (response, stop), b') ∧
          Structured response ∧ (stop = true → Closes depth line response)) := by
  have hloads : ∀ e, loadsBytes (F := PyFloat) depth line = .error e →
      e ≠ .valueError ∧ e ≠ .recursionError := by
    intro e he
    rw [decodeRequest, he] at hexpected
    constructor
    · rintro rfl
      obtain ⟨_, _, hraised, -⟩ := hexpected _ rfl
      cases hraised
    · rintro rfl
      obtain ⟨_, _, hraised, -⟩ := hexpected _ rfl
      cases hraised
  have hfatal : ∀ r, decodeRequest depth line = r →
      (Fatal depth line b ↔ ∃ request, r = .ok request ∧ OverflowingRead request b) := by
    rintro r rfl
    constructor
    · rintro (⟨-, h⟩ | ⟨-, h⟩ | ⟨-, request, h, hread⟩)
      · exact absurd rfl (hloads _ h).1
      · exact absurd rfl (hloads _ h).2
      · exact ⟨request, h, hread⟩
    · rintro ⟨request, h, hread⟩
      exact .overflow hlength request h hread
  cases hdecode : decodeRequest depth line with
  | error e =>
    obtain ⟨code, message, heval⟩ : ∃ code message, (respond depth line).eval (answer env) b
        = (.ok (failure code message, false), b) := respond_refused hdecode (hexpected e hdecode)
    refine .inr ⟨?_, _, false, b, heval, .inr ⟨code, message, rfl⟩, nofun⟩
    rw [hfatal _ hdecode]
    rintro ⟨request, hrequest, -⟩
    cases hrequest
  | ok request =>
    rw [hfatal _ hdecode, respond_decoded hdecode]
    by_cases hread : OverflowingRead request b
    · refine .inl ⟨⟨request, rfl, hread⟩, .overflowError, ?_⟩
      rw [handled_overflow hread]
      rfl
    · obtain ⟨r, b', stop, heffect, hresult, hstop⟩ := handle_effect env request b
      refine .inr ⟨?_, ?_⟩
      · rintro ⟨request', hrequest, hread'⟩
        cases hrequest
        exact hread hread'
      rw [hresult]
      cases r with
      | ok response =>
        have hsuccess := heffect.success
        exact ⟨response, stop, b', rfl, .inl hsuccess, fun h => ⟨⟨request, hdecode, hstop h⟩, hsuccess⟩⟩
      | error e =>
        obtain ⟨code, message, htranslate⟩ := heffect.raises.resolve_right hread
        refine ⟨failure code message, false, b', ?_, .inr ⟨code, message, rfl⟩, nofun⟩
        show (answerOf (.error (SerialAgent.translate e)), b') = _
        rw [htranslate]
        rfl

/-- **Every line is fatal or answered.** -/
theorem respondLine_cases (env : Env) (depth : ℕ) (line : Bytes) (b : Bench) :
    (Fatal depth line b ∧ ∃ e, (respondLine depth line).eval (answer env) b = (.error e, b)) ∨
      (¬Fatal depth line b ∧ ∃ response stop b',
        (respondLine depth line).eval (answer env) b = (.ok (response, stop), b') ∧
          Structured response ∧ (stop = true → Closes depth line response)) := by
  by_cases hlong : maxJsonLineBytes < line.length
  · refine .inr ⟨?_, requestTooLarge, false, b, ?_, .inr ⟨_, _, rfl⟩, nofun⟩
    · intro hfatal
      cases hfatal <;> omega
    · rw [respondLine, if_pos hlong]
      rfl
  · have hlength : line.length ≤ maxJsonLineBytes := by omega
    rw [respondLine, if_neg hlong]
    rcases decodeRequest_cases depth line with ⟨hloads, hdecode⟩ | ⟨hloads, hdecode⟩ | hexpected
    · refine .inl ⟨.tooManyDigits hlength hloads, .valueError, ?_⟩
      rw [respond, Program.eval_tryCatch, Program.eval_bind, Program.eval_ofExcept, hdecode]
      rfl
    · refine .inl ⟨.tooDeep hlength hloads, .recursionError, ?_⟩
      rw [respond, Program.eval_tryCatch, Program.eval_bind, Program.eval_ofExcept, hdecode]
      rfl
    · exact respond_cases hlength hexpected

end Line

/-! ## The whole input -/

/-- A response is written. -/
def Bench.emitted (b : Bench) (response : Response) : Bench :=
  { b with output := b.output ++ [encodeResponse response] }

/-- Lines that are answered one by one, from the bench `b` to the last one: up to the end of the input,
or to a successful close. -/
inductive Answered (env : Env) (depth : ℕ) : List Bytes → Bench → Bench → Prop
  | endOfInput (b : Bench) : Answered env depth [] b b
  | closed {line : Bytes} {lines : List Bytes} {b b' : Bench} {response : Response}
      (hrespond : (respondLine depth line).eval (answer env) b = (.ok (response, true), b'))
      (hcloses : Closes depth line response) :
    Answered env depth (line :: lines) b (b'.emitted response)
  | answered {line : Bytes} {lines : List Bytes} {b b' b'' : Bench} {response : Response}
      (hrespond : (respondLine depth line).eval (answer env) b = (.ok (response, false), b'))
      (hstructured : Structured response) (hrest : Answered env depth lines (b'.emitted response) b'') :
    Answered env depth (line :: lines) b b''

/-- `run` answers every line and returns; what may still raise is the `close` of its `finally`. -/
def Survives (env : Env) (depth : ℕ) (stream : Bytes) : Prop :=
  ∃ b', Answered env depth (splitLines stream) .initial b' ∧
    (run depth stream).eval (answer env) .initial
      = (SerialAgent.close >>= fun () => pure 0).eval (answer env) b'

/-- No line is fatal when it is reached. -/
def NoFatal (env : Env) (depth : ℕ) : List Bytes → Bench → Prop
  | [], _ => True
  | line :: lines, b => ¬Fatal depth line b ∧
    ∀ response b', (respondLine depth line).eval (answer env) b = (.ok (response, false), b') →
      NoFatal env depth lines (b'.emitted response)

section Run

variable {env : Env} {depth : ℕ}

theorem eval_specification (line : Bytes) (lines : List Bytes) {b b' : Bench} {response : Response}
    {stop : Bool} (h : (respondLine depth line).eval (answer env) b = (.ok (response, stop), b')) :
    (specification depth (line :: lines)).eval (answer env) b
      = if stop then (.ok 0, b'.emitted response)
        else (specification depth lines).eval (answer env) (b'.emitted response) := by
  rw [specification, Program.eval_bind, h]
  cases stop <;> rfl

theorem Answered.eval {lines : List Bytes} {b b' : Bench} (h : Answered env depth lines b b') :
    (specification depth lines).eval (answer env) b = (.ok 0, b') := by
  induction h with
  | endOfInput b => rfl
  | closed hrespond => exact eval_specification _ _ hrespond
  | answered hrespond _ _ ih => exact (eval_specification _ _ hrespond).trans ih

theorem Answered.noFatal {lines : List Bytes} {b b' : Bench} (h : Answered env depth lines b b') :
    NoFatal env depth lines b := by
  have hline : ∀ {line : Bytes} {b b' : Bench} {a : Response × Bool},
      (respondLine depth line).eval (answer env) b = (.ok a, b') → ¬Fatal depth line b := by
    intro line b b' a hrespond
    rcases respondLine_cases env depth line b with ⟨-, e, he⟩ | ⟨hnot, -⟩
    · rw [hrespond] at he
      cases he
    · exact hnot
  induction h with
  | endOfInput b => trivial
  | closed hrespond =>
    refine ⟨hline hrespond, fun response b' hnext => ?_⟩
    rw [hrespond] at hnext
    cases hnext
  | answered hrespond _ _ ih =>
    refine ⟨hline hrespond, fun response b' hnext => ?_⟩
    rw [hrespond] at hnext
    cases hnext
    exact ih

/-- **Lines of which none is fatal** are answered, one after the other. -/
theorem NoFatal.answered {lines : List Bytes} {b : Bench} (h : NoFatal env depth lines b) :
    ∃ b', Answered env depth lines b b' := by
  induction lines generalizing b with
  | nil => exact ⟨b, .endOfInput b⟩
  | cons line lines ih =>
    obtain ⟨hnot, hnext⟩ := h
    obtain ⟨response, stop, b', hrespond, hstructured, hstop⟩ :=
      ((respondLine_cases env depth line b).resolve_left fun hfatal => hnot hfatal.1).2
    cases stop with
    | true => exact ⟨_, .closed hrespond (hstop rfl)⟩
    | false =>
      obtain ⟨b'', hrest⟩ := ih (hnext response b' hrespond)
      exact ⟨b'', .answered hrespond hstructured hrest⟩

/-- What is left of `run` when its lines are answered. -/
theorem Answered.run {stream : Bytes} {b' : Bench}
    (h : Answered env depth (splitLines stream) .initial b') :
    (run depth stream).eval (answer env) .initial
      = (SerialAgent.close >>= fun () => pure 0).eval (answer env) b' := by
  have hserve : serve depth (stream.length + 1) stream = specification depth (splitLines stream) :=
    serve_eq depth (Nat.lt_succ_self _)
  rw [Agent.run, hserve, Program.eval_tryFinally, h.eval, Program.eval_bind]
  dsimp only
  rcases SerialAgent.close.eval (answer env) b' with ⟨_ | _, _⟩ <;> rfl

end Run

/-- **The loop survives exactly when it reaches no fatal line.** -/
theorem survives_iff (env : Env) (depth : ℕ) (stream : Bytes) :
    Survives env depth stream ↔ NoFatal env depth (splitLines stream) .initial := by
  constructor
  · rintro ⟨b', hanswered, -⟩
    exact hanswered.noFatal
  · intro h
    obtain ⟨b', hanswered⟩ := h.answered
    exact ⟨b', hanswered, hanswered.run⟩

/-! ## A line of digits -/

/-- A library that never raises. -/
def quiet : Env where
  isCharDevice _ := true
  serialFactory _ := .ok ()
  setTimeout _ := .ok ()
  read _ := .ok []
  write _ := .wroteAll
  resetBuffer _ := .ok ()
  close _ := .ok ()

/-- An integer literal that is longer than the reader converts. -/
def longLiteral : Str := List.replicate (maxStrDigits + 1) 49

theorem loads_longLiteral (depth : ℕ) :
    loadsBytes (F := PyFloat) depth (encodeAscii longLiteral) = .error .valueError := by
  have hmem : ∀ {n c : ℕ}, c ∈ List.replicate n 49 → c = 49 := fun hc => List.eq_of_mem_replicate hc
  have hnumber : number (F := PyFloat) [] longLiteral = .error .valueError := by
    have hpart : integerPart longLiteral = some (longLiteral, []) := by
      have hdigits : digits (List.replicate maxStrDigits 49 ++ []) = _ :=
        digits_append (fun c hc => by rw [hmem hc]; rfl) (by simp)
      rw [List.append_nil] at hdigits
      rw [longLiteral, List.replicate_succ, integerPart, if_pos (by decide), hdigits]
      decide
    have hlong : ¬longLiteral.length ≤ maxStrDigits := by
      rw [longLiteral, List.length_replicate]
      omega
    simp only [number, hpart, fraction, exponentPart, true_and, if_true, if_neg hlong]
  have hscan : scanOnce (F := PyFloat) depth longLiteral = .error .valueError := by
    rw [← hnumber]
    exact scanOnce_digit depth rfl
  rw [loadsBytes, decodeBytes_ascii fun c hc => by rw [hmem hc]; decide]
  show loads depth longLiteral = _
  rw [loads, show skipWs longLiteral = longLiteral from skipWs_cons rfl, hscan]

theorem splitLines_longLiteral : splitLines (encodeAscii longLiteral) = [encodeAscii longLiteral] := by
  refine splitLines_last ?_ (by simp [encodeAscii, longLiteral])
  intro hmem
  obtain ⟨c, hc, hten⟩ := List.mem_map.mp hmem
  rw [List.eq_of_mem_replicate hc] at hten
  exact absurd hten (by decide)

theorem length_longLiteral : (encodeAscii longLiteral).length ≤ maxJsonLineBytes := by
  rw [encodeAscii, List.length_map, longLiteral, List.length_replicate]
  decide

/-- A line of digits ends the process without an answer. -/
theorem long_literal_escapes :
    (∀ line ∈ splitLines (encodeAscii longLiteral), line.length ≤ maxJsonLineBytes) ∧
      ¬Survives quiet 1000 (encodeAscii longLiteral) ∧
      (run 1000 (encodeAscii longLiteral)).eval (answer quiet) .initial
        = (.error .valueError, .initial) := by
  have hfatal : Fatal 1000 (encodeAscii longLiteral) .initial :=
    .tooManyDigits length_longLiteral (loads_longLiteral 1000)
  refine ⟨?_, ?_, ?_⟩
  · intro line hline
    rw [splitLines_longLiteral, List.mem_singleton] at hline
    rw [hline]
    exact length_longLiteral
  · rintro ⟨b', hanswered, -⟩
    rw [splitLines_longLiteral] at hanswered
    exact hanswered.noFatal.1 hfatal
  · have hserve : serve 1000 ((encodeAscii longLiteral).length + 1) (encodeAscii longLiteral)
        = specification 1000 [encodeAscii longLiteral] := by
      rw [serve_eq 1000 (Nat.lt_succ_self _), splitLines_longLiteral]
    have hdecode : decodeRequest 1000 (encodeAscii longLiteral) = .error .valueError := by
      rw [decodeRequest, loads_longLiteral]
    have hlength := length_longLiteral
    rw [run, hserve, specification, respondLine, if_neg (by omega), respond, hdecode]
    rfl

end HardwareTest.Agent
