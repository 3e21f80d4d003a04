import HardwareTest.Runner.Service

/-!
# Capturing the output of a subprocess

`AsyncioProcessRunner.run` reads the output line by line.  The bytes arrive in chunks, of which the
reader takes the next only when it has no complete line; a line is decoded on its own, appended to the
log, and kept among the last characters of the output.

* `StreamReader.readline` — the reader of the standard library, with its limit on the length of a line;
* `readAll`, `AsyncioProcessRunner.run` — the loop and the method;
* `readline_append` — a line and what is left are the bytes, in whatever chunks they come;
* `run_complete_iff` — the capture is complete if and only if no line is too long.
-/

namespace HardwareTest.Runner

open HardwareTest.Lib HardwareTest.Lib.Transition HardwareTest.Python

/-! ## The reader -/

/-- `StreamReader.readline`, with its buffer and the chunks that are still to come: the line and what is
left, or what it raises. -/
def StreamReader.readline (buffer : List UInt8) (chunks : List (List UInt8)) :
    Except PyError (List UInt8 × List UInt8 × List (List UInt8)) :=
  if 10 ∈ buffer then
    let line := buffer.takeWhile (· ≠ 10)
    if lineLimit < line.length then
      .error (.exception "Separator is found, but chunk is longer than limit")
    else .ok (line ++ [10], buffer.drop (line.length + 1), chunks)
  else if lineLimit < buffer.length then .error overlongError
  else
    match chunks with
    | [] => .ok (buffer, [], [])
    | chunk :: chunks => StreamReader.readline (buffer ++ chunk) chunks

/-- The first line of some bytes is what comes before the first line feed. -/
theorem takeWhile_line {line rest : List UInt8} (hline : 10 ∉ line) :
    (line ++ 10 :: rest).takeWhile (fun b => decide (b ≠ 10)) = line := by
  rw [List.takeWhile_append_of_pos, List.takeWhile_cons_of_neg (by decide), List.append_nil]
  intro b hb
  exact decide_eq_true fun heq => hline (heq ▸ hb)

/-- Bytes without a line feed that begin a line and its end begin the line. -/
theorem prefix_line {bytes line rest : List UInt8} (hbytes : 10 ∉ bytes) (h : bytes <+: line ++ 10 :: rest) :
    bytes <+: line := by
  rcases List.prefix_or_prefix_of_prefix h (List.prefix_append line (10 :: rest)) with hline | ⟨more, rfl⟩
  · exact hline
  · cases more with
    | nil => rw [List.append_nil]
    | cons b more =>
      obtain ⟨rfl, -⟩ := List.cons_prefix_cons.mp ((List.prefix_append_right_inj line).mp h)
      exact absurd (List.mem_append_right line List.mem_cons_self) hbytes

section Readline

variable {buffer : List UInt8} {chunks : List (List UInt8)}

/-- The reader with a line feed in its buffer. -/
theorem readline_found {line rest : List UInt8} (hline : 10 ∉ line) :
    StreamReader.readline (line ++ 10 :: rest) chunks
      = if lineLimit < line.length then
          .error (.exception "Separator is found, but chunk is longer than limit")
        else .ok (line ++ [10], rest, chunks) := by
  have hmem : 10 ∈ line ++ 10 :: rest := List.mem_append_right line List.mem_cons_self
  have hdrop : (line ++ 10 :: rest).drop (line.length + 1) = rest := by
    rw [← List.drop_drop, List.drop_left]
    rfl
  rw [StreamReader.readline.eq_def, if_pos hmem]
  show (if lineLimit < ((line ++ 10 :: rest).takeWhile (fun b => decide (b ≠ 10))).length then _ else _) = _
  rw [takeWhile_line hline, hdrop]

/-- The reader without one waits for the next chunk, or gives up. -/
theorem readline_waits (h : 10 ∉ buffer) :
    StreamReader.readline buffer chunks
      = if lineLimit < buffer.length then .error overlongError
        else
          match chunks with
          | [] => .ok (buffer, [], [])
          | chunk :: chunks => StreamReader.readline (buffer ++ chunk) chunks := by
  rw [StreamReader.readline.eq_def, if_neg h]

/-- What is read and what is left are the bytes that were there. -/
theorem readline_append {line buffer' : List UInt8} {chunks' : List (List UInt8)}
    (h : StreamReader.readline buffer chunks = .ok (line, buffer', chunks')) :
    line ++ (buffer' ++ chunks'.flatten) = buffer ++ chunks.flatten := by
  induction chunks generalizing buffer with
  | nil =>
    by_cases hmem : 10 ∈ buffer
    · obtain ⟨found, rest, rfl, hfound⟩ := List.eq_append_cons_of_mem hmem
      rw [readline_found hfound] at h
      split_ifs at h
      obtain ⟨rfl, rfl, rfl⟩ := h
      simp
    · rw [readline_waits hmem] at h
      split_ifs at h
      obtain ⟨rfl, rfl, rfl⟩ := h
      simp
  | cons chunk chunks ih =>
    by_cases hmem : 10 ∈ buffer
    · obtain ⟨found, rest, rfl, hfound⟩ := List.eq_append_cons_of_mem hmem
      rw [readline_found hfound] at h
      split_ifs at h
      obtain ⟨rfl, rfl, rfl⟩ := h
      simp
    · rw [readline_waits hmem] at h
      split_ifs at h
      rw [ih h, List.flatten_cons, List.append_assoc]

/-- **A line that fits is read**, whatever the chunks. -/
theorem readline_line {line rest : List UInt8} (hline : 10 ∉ line) (hfits : line.length ≤ lineLimit)
    (h : buffer ++ chunks.flatten = line ++ 10 :: rest) :
    ∃ buffer' chunks', StreamReader.readline buffer chunks = .ok (line ++ [10], buffer', chunks') ∧
      buffer' ++ chunks'.flatten = rest := by
  induction chunks generalizing buffer with
  | nil =>
    rw [List.flatten_nil, List.append_nil] at h
    refine ⟨rest, [], ?_, by simp⟩
    rw [h, readline_found hline, if_neg (by omega)]
  | cons chunk chunks ih =>
    by_cases hmem : 10 ∈ buffer
    · obtain ⟨found, more, rfl, hfound⟩ := List.eq_append_cons_of_mem hmem
      have heq : found ++ 10 :: (more ++ (chunk :: chunks).flatten) = line ++ 10 :: rest := by
        rw [← h]
        simp
      obtain rfl : found = line := by rw [← takeWhile_line hfound, heq, takeWhile_line hline]
      refine ⟨more, chunk :: chunks, ?_, (List.cons.inj (List.append_cancel_left heq)).2⟩
      rw [readline_found hfound, if_neg (by omega)]
    · have hprefix : buffer <+: line := prefix_line hmem ⟨_, h⟩
      have hle := hprefix.length_le
      rw [readline_waits hmem, if_neg (by omega)]
      exact ih (by rw [List.append_assoc]; exact h)

/-- **The last line**, without its end. -/
theorem readline_last (hline : 10 ∉ buffer ++ chunks.flatten)
    (hfits : (buffer ++ chunks.flatten).length ≤ lineLimit) :
    StreamReader.readline buffer chunks = .ok (buffer ++ chunks.flatten, [], []) := by
  have hmem : 10 ∉ buffer := fun h => hline (List.mem_append_left _ h)
  rw [List.length_append] at hfits
  induction chunks generalizing buffer with
  | nil =>
    rw [readline_waits hmem, if_neg (by omega), List.flatten_nil, List.append_nil]
  | cons chunk chunks ih =>
    rw [List.flatten_cons, ← List.append_assoc] at hline ⊢
    rw [List.flatten_cons, List.length_append] at hfits
    rw [readline_waits hmem, if_neg (by omega)]
    exact ih hline (by rw [List.length_append]; omega) fun h => hline (List.mem_append_left _ h)

/-- **A line that is too long is not read**, whatever the chunks. -/
theorem readline_overlong {line : List UInt8} (hline : 10 ∉ line) (hlong : lineLimit < line.length)
    (h : line <+: buffer ++ chunks.flatten) : ∃ e, StreamReader.readline buffer chunks = .error e := by
  induction chunks generalizing buffer with
  | nil =>
    rw [List.flatten_nil, List.append_nil] at h
    have hle := h.length_le
    by_cases hmem : 10 ∈ buffer
    · obtain ⟨found, more, rfl, hfound⟩ := List.eq_append_cons_of_mem hmem
      have hfoundle := (prefix_line hline h).length_le
      exact ⟨_, (readline_found hfound).trans (if_pos (by omega))⟩
    · exact ⟨_, (readline_waits hmem).trans (if_pos (by omega))⟩
  | cons chunk chunks ih =>
    by_cases hmem : 10 ∈ buffer
    · obtain ⟨found, more, rfl, hfound⟩ := List.eq_append_cons_of_mem hmem
      rw [List.append_assoc, List.cons_append] at h
      have hle := (prefix_line hline h).length_le
      exact ⟨_, (readline_found hfound).trans (if_pos (by omega))⟩
    · rw [readline_waits hmem]
      split_ifs
      · exact ⟨_, rfl⟩
      · exact ih (by rw [List.append_assoc]; exact h)

end Readline

/-! ## The loop -/

/-- `output[-MAX_CAPTURED_OUTPUT:]`. -/
def lastCharacters (output : Text) : Text := output.drop (output.length - maxCapturedOutput)

/-- Cutting early does not change what is left after cutting. -/
theorem lastCharacters_append (output text : Text) :
    lastCharacters (lastCharacters output ++ text) = lastCharacters (output ++ text) := by
  rw [lastCharacters, lastCharacters, lastCharacters]
  generalize maxCapturedOutput = n
  rw [← List.drop_append_of_le_length (Nat.sub_le output.length n), List.drop_drop]
  congr 1
  simp only [List.length_drop, List.length_append]
  omega

theorem lastCharacters_nil : lastCharacters [] = [] := rfl

/-- The loop over the lines: the output so far and the log, to what the loop ends with. -/
def readAll (log output : Text) (buffer : List UInt8) (chunks : List (List UInt8)) : Except PyError Text × Text :=
  match _h : StreamReader.readline buffer chunks with
  | .error e => (.error e, log)
  | .ok (line, buffer', chunks') =>
    if _hline : line = [] then (.ok output, log)
    else
      let text := Utf8.decode line
      readAll (log ++ text) (lastCharacters (output ++ text)) buffer' chunks'
termination_by (buffer ++ chunks.flatten).length
decreasing_by
  have hpos := List.length_pos_of_ne_nil _hline
  rw [← readline_append _h]
  simp only [List.length_append]
  omega

/-- What the method leaves of the runner. -/
structure Captured where
  log : Text
  process : Option ℕ
  deriving DecidableEq

/-- `AsyncioProcessRunner.run` for a subprocess that writes the chunks and exits. -/
def AsyncioProcessRunner.run (pid : ℕ) (chunks : List (List UInt8)) (exitCode : ℤ) (c : Captured) :
    Except PyError ProcessResult × Captured :=
  let started : Captured := { c with process := some pid }
  match readAll started.log [] [] chunks with
  | (.ok output, log) => (.ok ⟨exitCode, output⟩, { started with log := log, process := none })
  | (.error e, log) => (.error e, { started with log := log, process := none })

section ReadAll

variable {buffer : List UInt8} {chunks : List (List UInt8)}

theorem readAll_error {e : PyError} (h : StreamReader.readline buffer chunks = .error e) (log output : Text) :
    readAll log output buffer chunks = (.error e, log) := by
  rw [readAll]
  split
  · rename_i e' he
    rw [h] at he
    rw [Except.error.inj he]
  · rename_i hok
    rw [h] at hok
    cases hok

theorem readAll_end {buffer' : List UInt8} {chunks' : List (List UInt8)}
    (h : StreamReader.readline buffer chunks = .ok ([], buffer', chunks')) (log output : Text) :
    readAll log output buffer chunks = (.ok output, log) := by
  rw [readAll]
  split
  · rename_i he
    rw [h] at he
    cases he
  · rename_i hok
    rw [h] at hok
    obtain ⟨rfl, -⟩ := Prod.mk.inj (Except.ok.inj hok)
    rw [dif_pos rfl]

theorem readAll_line {line buffer' : List UInt8} {chunks' : List (List UInt8)}
    (h : StreamReader.readline buffer chunks = .ok (line, buffer', chunks')) (hline : line ≠ [])
    (log output : Text) :
    readAll log output buffer chunks
      = readAll (log ++ Utf8.decode line) (lastCharacters (output ++ Utf8.decode line)) buffer' chunks' := by
  rw [readAll]
  split
  · rename_i he
    rw [h] at he
    cases he
  · rename_i hok
    rw [h] at hok
    obtain ⟨rfl, hrest⟩ := Prod.mk.inj (Except.ok.inj hok)
    obtain ⟨rfl, rfl⟩ := Prod.mk.inj hrest
    rw [dif_neg hline]

end ReadAll

/-- The lines of the output, without their ends. -/
def outputLines (bytes : List UInt8) : List (List UInt8) := bytes.splitOn 10

theorem outputLines_line {line rest : List UInt8} (hline : 10 ∉ line) :
    outputLines (line ++ 10 :: rest) = line :: outputLines rest :=
  List.splitOn_append_cons_self_of_not_mem hline rest

theorem outputLines_last {line : List UInt8} (hline : 10 ∉ line) : outputLines line = [line] :=
  List.splitOn_eq_singleton hline

theorem decode_line (line rest : List UInt8) :
    Utf8.decode (line ++ 10 :: rest) = Utf8.decode (line ++ [10]) ++ Utf8.decode rest := by
  rw [Utf8.decode_append_ascii line rest 10 (by decide), Utf8.decode_append_ascii line [] 10 (by decide)]
  simp

/-- The loop at the end of the output. -/
theorem readAll_nil (log output : Text) : readAll log output [] [] = (.ok output, log) :=
  readAll_end (readline_last List.not_mem_nil (Nat.zero_le _)) log output

/-- **The loop reads everything**, if every line fits. -/
theorem readAll_complete (n : ℕ) {buffer : List UInt8} {chunks : List (List UInt8)}
    (hn : (buffer ++ chunks.flatten).length ≤ n)
    (hfits : ∀ line ∈ outputLines (buffer ++ chunks.flatten), line.length ≤ lineLimit) (log output : Text) :
    readAll log (lastCharacters output) buffer chunks
      = (.ok (lastCharacters (output ++ Utf8.decode (buffer ++ chunks.flatten))),
          log ++ Utf8.decode (buffer ++ chunks.flatten)) := by
  induction n generalizing buffer chunks log output with
  | zero =>
    have hnil := List.eq_nil_of_length_eq_zero (Nat.le_zero.mp hn)
    have hread : StreamReader.readline buffer chunks = .ok ([], [], []) := by
      have hlast : StreamReader.readline buffer chunks = .ok (buffer ++ chunks.flatten, [], []) :=
        readline_last (by rw [hnil]; exact List.not_mem_nil) (by rw [hnil]; exact Nat.zero_le _)
      rwa [hnil] at hlast
    have hdecode : Utf8.decode [] = [] := rfl
    rw [readAll_end hread, hnil, hdecode, List.append_nil, List.append_nil]
  | succ n ih =>
    by_cases hmem : 10 ∈ buffer ++ chunks.flatten
    · obtain ⟨line, rest, heq, hline⟩ := List.eq_append_cons_of_mem hmem
      rw [heq, outputLines_line hline] at hfits
      obtain ⟨hfirst, hrest⟩ := List.forall_mem_cons.mp hfits
      obtain ⟨buffer', chunks', hread, hleft⟩ := readline_line hline hfirst heq
      have hlength : (buffer' ++ chunks'.flatten).length ≤ n := by
        rw [heq] at hn
        simp only [List.length_append, List.length_cons] at hn
        rw [hleft]
        omega
      rw [readAll_line hread (by simp), lastCharacters_append, ih hlength (by rwa [hleft]), hleft, heq,
        decode_line line rest, List.append_assoc, List.append_assoc]
    · rw [outputLines_last hmem] at hfits
      have hfits := hfits _ List.mem_cons_self
      have hread := readline_last hmem hfits
      by_cases hnil : buffer ++ chunks.flatten = []
      · rw [hnil] at hread
        have hdecode : Utf8.decode [] = [] := rfl
        rw [readAll_end hread, hnil, hdecode, List.append_nil, List.append_nil]
      · rw [readAll_line hread hnil, lastCharacters_append, readAll_nil]

/-- **The loop ends with an exception**, if some line does not fit. -/
theorem readAll_overlong (n : ℕ) {buffer : List UInt8} {chunks : List (List UInt8)}
    (hn : (buffer ++ chunks.flatten).length ≤ n)
    (hlong : ∃ line ∈ outputLines (buffer ++ chunks.flatten), lineLimit < line.length) (log output : Text) :
    ∃ e log', readAll log output buffer chunks = (.error e, log') := by
  induction n generalizing buffer chunks log output with
  | zero =>
    have hnil := List.eq_nil_of_length_eq_zero (Nat.le_zero.mp hn)
    obtain ⟨line, hline, hlength⟩ := hlong
    rw [hnil, outputLines_last List.not_mem_nil] at hline
    rw [List.mem_singleton.mp hline] at hlength
    exact absurd hlength (Nat.not_lt_zero _)
  | succ n ih =>
    by_cases hmem : 10 ∈ buffer ++ chunks.flatten
    · obtain ⟨first, rest, heq, hfirst⟩ := List.eq_append_cons_of_mem hmem
      by_cases hfits : first.length ≤ lineLimit
      · obtain ⟨buffer', chunks', hread, hleft⟩ := readline_line hfirst hfits heq
        have hlength : (buffer' ++ chunks'.flatten).length ≤ n := by
          rw [heq] at hn
          simp only [List.length_append, List.length_cons] at hn
          rw [hleft]
          omega
        obtain ⟨line, hline, hlonger⟩ := hlong
        rw [heq, outputLines_line hfirst] at hline
        have hrest : line ∈ outputLines rest := by
          rcases List.mem_cons.mp hline with rfl | hline
          · omega
          · exact hline
        rw [readAll_line hread (by simp)]
        exact ih hlength ⟨line, by rwa [hleft], hlonger⟩ _ _
      · obtain ⟨e, herror⟩ := readline_overlong hfirst (by omega) ⟨10 :: rest, heq.symm⟩
        exact ⟨e, log, readAll_error herror log output⟩
    · obtain ⟨line, hline, hlonger⟩ := hlong
      rw [outputLines_last hmem] at hline
      rw [List.mem_singleton.mp hline] at hlonger
      obtain ⟨e, herror⟩ := readline_overlong hmem hlonger (List.prefix_refl _)
      exact ⟨e, log, readAll_error herror log output⟩

/-- **The capture is complete** if and only if no line is longer than the reader's limit: the exit code and the
last characters of the output are returned, the log gets the whole text, and no subprocess is kept. -/
theorem run_complete_iff (pid : ℕ) (chunks : List (List UInt8)) (exitCode : ℤ) (c : Captured) :
    AsyncioProcessRunner.run pid chunks exitCode c
        = (.ok ⟨exitCode, lastCharacters (Utf8.decode chunks.flatten)⟩,
            { log := c.log ++ Utf8.decode chunks.flatten, process := none }) ↔
      ∀ line ∈ outputLines chunks.flatten, line.length ≤ lineLimit := by
  constructor
  · intro h
    by_contra hlong
    push Not at hlong
    have hall : ([] ++ chunks.flatten).length ≤ chunks.flatten.length := Nat.le_refl _
    obtain ⟨e, log, herror⟩ := readAll_overlong _ hall hlong c.log []
    have hrun : AsyncioProcessRunner.run pid chunks exitCode c = (.error e, ⟨log, none⟩) := by
      rw [AsyncioProcessRunner.run, herror]
    rw [hrun] at h
    cases (Prod.mk.inj h).1
  · intro hfits
    have hall : ([] ++ chunks.flatten).length ≤ chunks.flatten.length := Nat.le_refl _
    have hread := readAll_complete _ hall hfits c.log []
    rw [lastCharacters_nil, List.nil_append] at hread
    rw [AsyncioProcessRunner.run, hread]
    rfl

/-- **A line of 65537 characters is lost**, and the exit code with it: the reader raises before it returns
anything. -/
theorem overlong_line_raises :
    AsyncioProcessRunner.run 7 [List.replicate 65537 120] 0 ⟨[], none⟩ = (.error overlongError, ⟨[], none⟩) := by
  have hno : (10 : UInt8) ∉ List.replicate 65537 120 := fun h => absurd (List.eq_of_mem_replicate h) (by decide)
  have hread : StreamReader.readline [] [List.replicate 65537 120] = .error overlongError := by
    have hshort : ¬lineLimit < ([] : List UInt8).length := Nat.not_lt_zero _
    rw [readline_waits List.not_mem_nil, if_neg hshort]
    show StreamReader.readline (List.replicate 65537 120) [] = _
    rw [readline_waits hno, if_pos (by rw [List.length_replicate]; decide)]
  rw [AsyncioProcessRunner.run, readAll_error hread]

/-! ## The lines as events of the service -/

/-- What the loop goes on with is a line of the service. -/
theorem isLine_of_readline {buffer line buffer' : List UInt8} {chunks chunks' : List (List UInt8)}
    (h : StreamReader.readline buffer chunks = .ok (line, buffer', chunks')) (hline : line ≠ []) :
    IsLine line := by
  have hlast {bytes : List UInt8} (hno : 10 ∉ bytes) (hle : bytes.length ≤ lineLimit) (hbytes : bytes ≠ []) :
      IsLine bytes :=
    ⟨hbytes, fun hmem => hno (List.dropLast_subset bytes hmem), (List.length_filter_le _ _).trans hle⟩
  have hended {bytes : List UInt8} (hno : 10 ∉ bytes) (hle : bytes.length ≤ lineLimit) :
      IsLine (bytes ++ [10]) := by
    refine ⟨by simp, by rwa [List.dropLast_concat], ?_⟩
    rw [List.filter_append]
    show (List.filter _ bytes ++ []).length ≤ lineLimit
    rw [List.append_nil]
    exact (List.length_filter_le _ _).trans hle
  induction chunks generalizing buffer with
  | nil =>
    by_cases hmem : 10 ∈ buffer
    · obtain ⟨found, rest, rfl, hfound⟩ := List.eq_append_cons_of_mem hmem
      rw [readline_found hfound] at h
      split_ifs at h
      obtain ⟨rfl, -⟩ := Prod.mk.inj (Except.ok.inj h)
      exact hended hfound (by omega)
    · rw [readline_waits hmem] at h
      split_ifs at h
      obtain ⟨rfl, -⟩ := Prod.mk.inj (Except.ok.inj h)
      exact hlast hmem (by omega) hline
  | cons chunk chunks ih =>
    by_cases hmem : 10 ∈ buffer
    · obtain ⟨found, rest, rfl, hfound⟩ := List.eq_append_cons_of_mem hmem
      rw [readline_found hfound] at h
      split_ifs at h
      obtain ⟨rfl, -⟩ := Prod.mk.inj (Except.ok.inj h)
      exact hended hfound (by omega)
    · rw [readline_waits hmem] at h
      split_ifs at h
      exact ih h

theorem step_line {settings : Settings} {w : World} {pid : ℕ} {k : Except PyException Text → Work Unit}
    (htask : w.task = some (.suspended (.output pid) k)) (hcancel : w.cancelling = false) {bytes : List UInt8}
    (h : IsLine bytes) :
    step settings w (.line bytes)
      = some { w with
          log := w.log ++ Utf8.decode bytes
          captured := lastCharacters (w.captured ++ Utf8.decode bytes) } := by
  rw [step, htask]
  exact if_pos ⟨h, by rw [hcancel]; decide⟩

/-- **The loop is a run of the service**: the lines that it reads are events that lead to its log and its
output. -/
theorem run_lines_of_readAll (settings : Settings) (n : ℕ) {buffer : List UInt8} {chunks : List (List UInt8)}
    (hn : (buffer ++ chunks.flatten).length ≤ n) {w : World} {pid : ℕ} {k : Except PyException Text → Work Unit}
    (htask : w.task = some (.suspended (.output pid) k)) (hcancel : w.cancelling = false) {output log : Text}
    (h : readAll w.log w.captured buffer chunks = (.ok output, log)) :
    ∃ lines : List (List UInt8), run (step settings) w (lines.map .line)
      = some { w with log := log, captured := output } := by
  induction n generalizing buffer chunks w with
  | zero =>
    rcases hread : StreamReader.readline buffer chunks with e | ⟨line, buffer', chunks'⟩
    · rw [readAll_error hread] at h
      cases h
    · have hlength := congrArg List.length (readline_append hread)
      rw [List.length_append] at hlength
      obtain rfl : line = [] := List.eq_nil_of_length_eq_zero (by omega)
      rw [readAll_end hread] at h
      cases h
      exact ⟨[], rfl⟩
  | succ n ih =>
    rcases hread : StreamReader.readline buffer chunks with e | ⟨line, buffer', chunks'⟩
    · rw [readAll_error hread] at h
      cases h
    · by_cases hline : line = []
      · subst hline
        rw [readAll_end hread] at h
        cases h
        exact ⟨[], rfl⟩
      · have hlength := congrArg List.length (readline_append hread)
        have hpos := List.length_pos_of_ne_nil hline
        rw [List.length_append] at hlength
        have hless : (buffer' ++ chunks'.flatten).length ≤ n := by omega
        have hstep : step settings w (.line line) = _ :=
          step_line htask hcancel (isLine_of_readline hread hline)
        rw [readAll_line hread hline] at h
        generalize lastCharacters (w.captured ++ Utf8.decode line) = captured at h hstep
        obtain ⟨lines, hrun⟩ := ih (w := { w with log := w.log ++ Utf8.decode line, captured := captured })
          hless htask hcancel h
        refine ⟨line :: lines, ?_⟩
        rw [List.map_cons, run, hstep]
        exact hrun

end HardwareTest.Runner
