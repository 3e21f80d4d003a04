import HardwareTest.Agent.Ownership

/-!
# The loop of the agent

`run` reads lines of bounded length, discards what is left of a line that is too long, answers every
line with one line, and closes the device at the end.  The specification splits the whole stream at its
line feeds first and then goes over the lines.

* `run` — the loop as the program has it;
* `splitLines`, `specification` — what it should do;
* `run_eq_specification` — it does that, as a program: whatever the library answers.
-/

namespace HardwareTest.Agent

open HardwareTest.Lib HardwareTest.Lib.Json HardwareTest.Python

/-! ## The loop -/

/-- The first line of a stream with its line feed, or its first `limit` bytes when it is longer. -/
def firstLine : ℕ → Bytes → Bytes
  | 0, _ => []
  | _, [] => []
  | limit + 1, c :: s => if c = 10 then [c] else c :: firstLine limit s

/-- `readline(limit)`: what is read, and the stream after it. -/
def readline (limit : ℕ) (stream : Bytes) : Bytes × Bytes :=
  (firstLine limit stream, stream.drop (firstLine limit stream).length)

/-- `endswith(b"\n")`. -/
def endsLine (chunk : Bytes) : Bool := chunk.getLast? = some 10

/-- The loop of `_discard_line_remainder`, which reads at least one byte in every pass but the last. -/
def discardChunks (limit : ℕ) : ℕ → Bytes → Bytes
  | 0, stream => stream
  | fuel + 1, stream =>
    let (chunk, rest) := readline limit stream
    if chunk = [] then rest
    else if endsLine chunk then rest
    else discardChunks limit fuel rest

/-- `_discard_line_remainder`: the stream after it. -/
def discardLineRemainder (limit : ℕ) (stream firstChunk : Bytes) : Bytes :=
  if endsLine firstChunk then stream else discardChunks limit stream.length stream

def requestTooLarge : Response :=
  failure (codes "request_too_large") (codes "JSON request line is too large")

/-- The response to a line of acceptable length, and whether the process should stop. -/
def respond (depth : ℕ) (line : Bytes) : AgentM (Response × Bool) :=
  Program.tryCatch
    (do
      let request ← .ofExcept (decodeRequest depth line)
      SerialAgent.handle request)
    fun
      | .agentError code message => pure (failure code message, false)
      | e => .throw e

/-- The response to a line that was read, and the stream after it. -/
def receive (depth : ℕ) (line rest : Bytes) : AgentM ((Response × Bool) × Bytes) :=
  if maxJsonLineBytes < line.length then
    pure ((requestTooLarge, false), discardLineRemainder (maxJsonLineBytes + 1) rest line)
  else do
    let answer ← respond depth line
    pure (answer, rest)

/-- The loop of `run`.  Every pass reads at least one byte. -/
def serve (depth : ℕ) : ℕ → Bytes → AgentM ℕ
  | 0, _ => pure 0
  | fuel + 1, stream =>
    let (line, rest) := readline (maxJsonLineBytes + 1) stream
    if line = [] then pure 0
    else do
      let ((response, shouldStop), rest) ← receive depth line rest
      .call (.emit (encodeResponse response)) fun () =>
        if shouldStop then pure 0 else serve depth fuel rest

def run (depth : ℕ) (stream : Bytes) : AgentM ℕ :=
  (serve depth (stream.length + 1) stream).tryFinally SerialAgent.close

/-! ## The specification -/

/-- The lines of a stream, each with its line feed; the last one may be without. -/
def splitLines : Bytes → List Bytes
  | [] => []
  | c :: s =>
    if c = 10 then [10] :: splitLines s
    else match splitLines s with
      | [] => [[c]]
      | line :: lines => (c :: line) :: lines

/-- The response to a line. -/
def respondLine (depth : ℕ) (line : Bytes) : AgentM (Response × Bool) :=
  if maxJsonLineBytes < line.length then pure (requestTooLarge, false) else respond depth line

/-- The lines in order, each answered with one line, up to the first that stops the process. -/
def specification (depth : ℕ) : List Bytes → AgentM ℕ
  | [] => pure 0
  | line :: lines => do
    let (response, shouldStop) ← respondLine depth line
    .call (.emit (encodeResponse response)) fun () =>
      if shouldStop then pure 0 else specification depth lines

/-! ## Lines of a stream -/

theorem splitLines_line {body rest : Bytes} (hbody : (10 : UInt8) ∉ body) :
    splitLines (body ++ 10 :: rest) = (body ++ [10]) :: splitLines rest := by
  induction body with
  | nil => rfl
  | cons c body ih =>
    obtain ⟨hc, hbody⟩ := List.ne_and_not_mem_of_not_mem_cons hbody
    rw [List.cons_append, splitLines, if_neg hc.symm, ih hbody]
    rfl

theorem splitLines_last {body : Bytes} (hbody : (10 : UInt8) ∉ body) (hne : body ≠ []) :
    splitLines body = [body] := by
  induction body with
  | nil => exact absurd rfl hne
  | cons c body ih =>
    obtain ⟨hc, hbody⟩ := List.ne_and_not_mem_of_not_mem_cons hbody
    rw [splitLines, if_neg hc.symm]
    cases body with
    | nil => rfl
    | cons d body =>
      rw [ih hbody (by simp)]

/-- A stream is empty, or it starts with a line that has a line feed, or it is one line without. -/
theorem stream_cases (stream : Bytes) :
    stream = [] ∨ (∃ body rest, (10 : UInt8) ∉ body ∧ stream = body ++ 10 :: rest) ∨
      ((10 : UInt8) ∉ stream ∧ stream ≠ []) := by
  by_cases hmem : (10 : UInt8) ∈ stream
  · obtain ⟨body, rest, hstream, hbody⟩ := List.eq_append_cons_of_mem hmem
    exact .inr (.inl ⟨body, rest, hbody, hstream⟩)
  · by_cases hne : stream = []
    · exact .inl hne
    · exact .inr (.inr ⟨hmem, hne⟩)

/-- Splitting loses nothing. -/
theorem flatten_splitLines (stream : Bytes) : (splitLines stream).flatten = stream := by
  induction stream with
  | nil => rfl
  | cons c s ih =>
    rw [splitLines]
    by_cases hc : c = 10
    · rw [if_pos hc, List.flatten_cons, ih, hc]
      rfl
    · rw [if_neg hc]
      cases hlines : splitLines s with
      | nil =>
        rw [hlines] at ih
        rw [← ih]
        rfl
      | cons line lines =>
        rw [hlines] at ih
        rw [← ih]
        rfl

theorem firstLine_of_not_mem {body : Bytes} (hbody : (10 : UInt8) ∉ body) (limit : ℕ) :
    firstLine limit body = body.take limit := by
  induction body generalizing limit with
  | nil => cases limit <;> rfl
  | cons c body ih =>
    obtain ⟨hc, hbody⟩ := List.ne_and_not_mem_of_not_mem_cons hbody
    cases limit with
    | zero => rfl
    | succ limit => rw [firstLine, if_neg hc.symm, ih hbody, List.take_succ_cons]

theorem firstLine_line {body rest : Bytes} (hbody : (10 : UInt8) ∉ body) (limit : ℕ) :
    firstLine limit (body ++ 10 :: rest) = (body ++ [10]).take limit := by
  induction body generalizing limit with
  | nil =>
    cases limit with
    | zero => rfl
    | succ limit => simp [firstLine]
  | cons c body ih =>
    obtain ⟨hc, hbody⟩ := List.ne_and_not_mem_of_not_mem_cons hbody
    cases limit with
    | zero => rfl
    | succ limit => rw [List.cons_append, firstLine, if_neg hc.symm, ih hbody, List.cons_append,
        List.take_succ_cons]

/-! ## Bounded reads -/

theorem readline_short {body rest : Bytes} {limit : ℕ} (hbody : (10 : UInt8) ∉ body)
    (hlimit : body.length < limit) : readline limit (body ++ 10 :: rest) = (body ++ [10], rest) := by
  have hline : firstLine limit (body ++ 10 :: rest) = body ++ [10] := by
    rw [firstLine_line hbody, List.take_of_length_le]
    rw [List.length_append, List.length_singleton]
    exact hlimit
  have hstream : body ++ 10 :: rest = (body ++ [10]) ++ rest := by simp
  rw [readline, hline]
  congr 1
  rw [hstream, List.drop_left]

theorem readline_long {body rest : Bytes} {limit : ℕ} (hbody : (10 : UInt8) ∉ body)
    (hlimit : limit ≤ body.length) :
    readline limit (body ++ 10 :: rest) = (body.take limit, body.drop limit ++ 10 :: rest) := by
  have hline : firstLine limit (body ++ 10 :: rest) = body.take limit := by
    rw [firstLine_line hbody, List.take_append_of_le_length hlimit]
  rw [readline, hline, List.length_take, min_eq_left hlimit, List.drop_append_of_le_length hlimit]

theorem readline_last {body : Bytes} (hbody : (10 : UInt8) ∉ body) (limit : ℕ) :
    readline limit body = (body.take limit, body.drop limit) := by
  rw [readline, firstLine_of_not_mem hbody, List.length_take]
  congr 1
  by_cases hlimit : limit ≤ body.length
  · rw [min_eq_left hlimit]
  · rw [min_eq_right (by omega), List.drop_eq_nil_of_le le_rfl, List.drop_eq_nil_of_le (by omega)]

theorem endsLine_line (body : Bytes) : endsLine (body ++ [10]) = true := by
  simp [endsLine]

theorem endsLine_of_not_mem {body : Bytes} (hbody : (10 : UInt8) ∉ body) : endsLine body = false := by
  rw [endsLine, decide_eq_false_iff_not]
  intro hlast
  exact hbody (List.mem_of_getLast? hlast)

theorem not_mem_take {body : Bytes} (hbody : (10 : UInt8) ∉ body) (n : ℕ) :
    (10 : UInt8) ∉ body.take n := fun hmem => hbody (List.mem_of_mem_take hmem)

theorem not_mem_drop {body : Bytes} (hbody : (10 : UInt8) ∉ body) (n : ℕ) :
    (10 : UInt8) ∉ body.drop n := fun hmem => hbody (List.mem_of_mem_drop hmem)

section Discard

variable {limit : ℕ}

/-- The discard stops after the line feed. -/
theorem discardChunks_line (hlimit : 0 < limit) {fuel : ℕ} {body rest : Bytes}
    (hbody : (10 : UInt8) ∉ body) (hfuel : body.length < fuel) :
    discardChunks limit fuel (body ++ 10 :: rest) = rest := by
  induction fuel generalizing body with
  | zero => omega
  | succ fuel ih =>
    rw [discardChunks]
    by_cases hshort : body.length < limit
    · rw [readline_short hbody hshort]
      simp only [endsLine_line, if_true]
      rw [if_neg (by simp)]
    · rw [readline_long hbody (by omega)]
      have hne : body.take limit ≠ [] := by
        rw [Ne, List.take_eq_nil_iff]
        rintro (hzero | rfl)
        · omega
        · exact hshort hlimit
      simp only [if_neg hne, endsLine_of_not_mem (not_mem_take hbody limit), Bool.false_eq_true, if_false]
      refine ih (not_mem_drop hbody limit) ?_
      rw [List.length_drop]
      omega

/-- Without a line feed it stops at the end of the stream. -/
theorem discardChunks_last (hlimit : 0 < limit) {fuel : ℕ} {body : Bytes} (hbody : (10 : UInt8) ∉ body)
    (hfuel : body.length ≤ fuel) : discardChunks limit fuel body = [] := by
  induction fuel generalizing body with
  | zero =>
    rw [discardChunks]
    exact List.length_eq_zero_iff.mp (by omega)
  | succ fuel ih =>
    rw [discardChunks, readline_last hbody]
    by_cases hne : body.take limit = []
    · simp only [if_pos hne]
      rcases List.take_eq_nil_iff.mp hne with hzero | rfl
      · omega
      · exact List.drop_nil
    · simp only [if_neg hne, endsLine_of_not_mem (not_mem_take hbody limit), Bool.false_eq_true, if_false]
      refine ih (not_mem_drop hbody limit) ?_
      rw [List.length_drop]
      omega

end Discard

/-- **One pass of the loop** takes one line of the stream, whatever its length. -/
theorem receive_readline (depth : ℕ) {stream : Bytes} (hne : stream ≠ []) :
    ∃ line rest, splitLines stream = line :: splitLines rest ∧ rest.length < stream.length ∧
      (readline (maxJsonLineBytes + 1) stream).1 ≠ [] ∧
      receive depth (readline (maxJsonLineBytes + 1) stream).1 (readline (maxJsonLineBytes + 1) stream).2
        = (do
          let answer ← respondLine depth line
          pure (answer, rest)) := by
  have hpos : 0 < maxJsonLineBytes + 1 := Nat.succ_pos _
  generalize hlimit : maxJsonLineBytes + 1 = limit at hpos
  rcases stream_cases stream with hnil | ⟨body, rest, hbody, rfl⟩ | ⟨hbody, -⟩
  · exact absurd hnil hne
  · refine ⟨body ++ [10], rest, splitLines_line hbody, by simp; omega, ?_⟩
    by_cases hshort : body.length < limit
    · rw [readline_short hbody hshort]
      refine ⟨by simp, ?_⟩
      by_cases hlong : maxJsonLineBytes < (body ++ [10]).length
      · -- a line that is one byte too long is read whole
        rw [receive, respondLine, if_pos hlong, if_pos hlong, discardLineRemainder, endsLine_line, if_pos rfl]
        rfl
      · rw [receive, respondLine, if_neg hlong, if_neg hlong]
    · rw [readline_long hbody (by omega)]
      have hlen : (body.take limit).length = limit := by
        rw [List.length_take, min_eq_left (by omega)]
      have hlong : maxJsonLineBytes < (body.take limit).length := by omega
      have hlong' : maxJsonLineBytes < (body ++ [10]).length := by
        rw [List.length_append]
        omega
      refine ⟨fun hnil => ?_, ?_⟩
      · rw [show body.take limit = [] from hnil] at hlen
        exact absurd hlen.symm hpos.ne'
      · rw [receive, respondLine, if_pos hlong, if_pos hlong', discardLineRemainder,
          endsLine_of_not_mem (not_mem_take hbody limit), hlimit,
          discardChunks_line hpos (not_mem_drop hbody limit) (by simp)]
        rfl
  · refine ⟨stream, [], splitLines_last hbody hne, List.length_pos_iff.mpr hne, ?_⟩
    rw [readline_last hbody]
    refine ⟨fun hnil => ?_, ?_⟩
    · rcases List.take_eq_nil_iff.mp hnil with hzero | hstream
      · omega
      · exact hne hstream
    · by_cases hlong : maxJsonLineBytes < stream.length
      · have hlong' : maxJsonLineBytes < (stream.take limit).length := by
          rw [List.length_take]
          omega
        rw [receive, respondLine, if_pos hlong, if_pos hlong', discardLineRemainder,
          endsLine_of_not_mem (not_mem_take hbody limit), hlimit,
          discardChunks_last hpos (not_mem_drop hbody limit) le_rfl]
        rfl
      · rw [List.take_of_length_le (by omega), List.drop_eq_nil_of_le (by omega), receive, respondLine,
          if_neg hlong, if_neg hlong]

/-- The loop goes over the lines of its stream. -/
theorem serve_eq (depth : ℕ) {fuel : ℕ} {stream : Bytes} (hfuel : stream.length < fuel) :
    serve depth fuel stream = specification depth (splitLines stream) := by
  induction fuel generalizing stream with
  | zero => omega
  | succ fuel ih =>
    rw [serve]
    by_cases hne : stream = []
    · rw [hne]
      rfl
    · obtain ⟨line, rest, hlines, hrest, hread, hreceive⟩ := receive_readline depth hne
      have hnext : serve depth fuel rest = specification depth (splitLines rest) := ih (by omega)
      simp only [if_neg hread, hreceive]
      rw [hlines, specification, ← hnext, Program.bind_assoc]
      rfl

/-- **The loop is the specification.**  Split at its line feeds, the stream is answered line by line,
and every response is one line. -/
theorem run_eq_specification (depth : ℕ) (stream : Bytes) :
    run depth stream = (specification depth (splitLines stream)).tryFinally SerialAgent.close ∧
      (splitLines stream).flatten = stream ∧
      ∀ response, ∃ body, encodeResponse response = body ++ [10] ∧ (10 : UInt8) ∉ body :=
  ⟨congrArg (Program.tryFinally · SerialAgent.close) (serve_eq depth (Nat.lt_succ_self _)),
    flatten_splitLines stream, encodeResponse_line⟩

end HardwareTest.Agent
