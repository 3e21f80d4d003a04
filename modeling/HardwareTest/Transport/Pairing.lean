import HardwareTest.Lib.Transition
import HardwareTest.Transport.SerialAgentChannel

/-!
# Requests and their responses

The other side writes one line for every line it receives.  What it has written and the client has not
read yet is outstanding, in the client's buffer or on its way.  A read loop always takes the first
outstanding line, so a request gets its own response exactly when nothing was outstanding before it.

* `readPasses_cases` — what a read loop does to the outstanding bytes;
* `PairedCall` — a request that returns, returns the response that was produced for it;
* `paired_of_settled` — in every run whose requests are made while nothing is outstanding, every
  request is paired;
* `late_response_is_returned` — a response that arrives after its request has timed out goes to the
  next request.
-/

namespace HardwareTest.Transport.SerialAgentChannel

open HardwareTest.Lib HardwareTest.Lib.Json HardwareTest.Python

/-- The bytes that the other side has written and the client has not consumed. -/
def Link.outstanding (w : Link) : Bytes := w.buffers.response ++ w.arriving

theorem splitLine_some {buffer line rest : Bytes} (h : splitLine buffer = some (line, rest)) :
    buffer = line ++ 10 :: rest ∧ (10 : UInt8) ∉ line := by
  induction buffer generalizing line with
  | nil => cases h
  | cons c s ih =>
    rw [splitLine] at h
    by_cases hc : c = 10
    · rw [if_pos hc] at h
      cases h
      exact ⟨by rw [hc]; rfl, List.not_mem_nil⟩
    · rw [if_neg hc, Option.map_eq_some_iff] at h
      obtain ⟨⟨line', rest'⟩, hsplit, heq⟩ := h
      cases heq
      obtain ⟨hs, hline⟩ := ih hsplit
      refine ⟨by rw [hs]; rfl, ?_⟩
      rw [List.mem_cons, not_or]
      exact ⟨fun heq => hc heq.symm, hline⟩

section Reading

variable {weather : Weather} {remote : Remote}

/-- What a read loop leaves alone. -/
structure Kept (w w' : Link) : Prop where
  exchanges : w'.exchanges = w.exchanges
  closed : w'.closed = w.closed
  serial : w'.buffers.serial = w.buffers.serial

theorem Kept.refl (w : Link) : Kept w w := ⟨rfl, rfl, rfl⟩

theorem Kept.trans {w w' w'' : Link} (h : Kept w w') (h' : Kept w' w'') : Kept w w'' :=
  ⟨h'.exchanges.trans h.exchanges, h'.closed.trans h.closed, h'.serial.trans h.serial⟩

/-- A pass that receives a chunk moves it from the way into the buffer. -/
def Link.received (w : Link) (weather : Weather) : Link :=
  { w.tick.tick with
    buffers := { w.buffers with response := w.buffers.response ++ w.tick.chunk weather 65535 }
    arriving := w.arriving.drop (w.tick.chunk weather 65535).length }

theorem outstanding_received (w : Link) (weather : Weather) :
    (w.received weather).outstanding = w.outstanding := by
  have hchunk : w.tick.chunk weather 65535 ++ w.arriving.drop (w.tick.chunk weather 65535).length
      = w.arriving := List.prefix_iff_eq_append.mp (List.take_prefix _ _)
  rw [Link.outstanding, Link.outstanding, Link.received, List.append_assoc]
  exact congrArg _ hchunk

/-- **A read loop** takes the first outstanding line, or raises and leaves the outstanding bytes. -/
theorem readPasses_cases (depth : ℕ) (operation : Str) (passes : ℕ) (w : Link) {r : Except Raised Response}
    {w' : Link} (h : (readPasses depth operation passes).eval (answer weather remote) w = (r, w')) :
    Kept w w' ∧
      ((∃ line, (10 : UInt8) ∉ line ∧ w.outstanding = line ++ 10 :: w'.outstanding ∧
          r = decodeResponse depth line) ∨
        (w'.outstanding = w.outstanding ∧ ∃ e, r = .error e)) := by
  induction passes generalizing w with
  | zero =>
    rw [readPasses, Program.eval_throw] at h
    cases h
    exact ⟨.refl _, .inr ⟨rfl, _, rfl⟩⟩
  | succ passes ih =>
    rw [readPasses, Program.eval_call] at h
    simp only [answer] at h
    cases hsplit : splitLine w.buffers.response with
    | some p =>
      obtain ⟨line, rest⟩ := p
      obtain ⟨hbuffer, hline⟩ := splitLine_some hsplit
      simp only [hsplit, Program.eval_call, answer, Program.eval_ofExcept] at h
      cases h
      refine ⟨⟨rfl, rfl, rfl⟩, .inl ⟨line, hline, ?_, rfl⟩⟩
      rw [Link.outstanding, Link.outstanding, hbuffer]
      simp
    | none =>
      simp only [hsplit, Program.eval_call, answer] at h
      cases harrived : weather.arrived w.clock && !w.arriving.isEmpty with
      | true =>
        simp only [harrived, Program.eval_call, answer] at h
        replace h : (if maxResponseBytes < (w.buffers.response ++ w.tick.chunk weather 65535).length then
              .throw (.transportError (codes "Serial agent response is too large"))
            else readPasses depth operation passes : Client Response).eval (answer weather remote)
              (w.received weather) = (r, w') := h
        have hkept : Kept w (w.received weather) := ⟨rfl, rfl, rfl⟩
        have hsame := outstanding_received w weather
        split_ifs at h with hlarge
        · rw [Program.eval_throw] at h
          cases h
          exact ⟨hkept, .inr ⟨hsame, _, rfl⟩⟩
        · obtain ⟨hkept', hresult⟩ := ih _ h
          rw [hsame] at hresult
          exact ⟨hkept.trans hkept', hresult⟩
      | false =>
        simp only [harrived, Program.eval_call, answer] at h
        have hkept : Kept w w.tick.tick := ⟨rfl, rfl, rfl⟩
        cases hexited : weather.exited w.tick.clock with
        | true =>
          simp only [hexited, Program.eval_throw] at h
          cases h
          exact ⟨hkept, .inr ⟨rfl, _, rfl⟩⟩
        | false =>
          simp only [hexited] at h
          obtain ⟨hkept', hresult⟩ := ih w.tick.tick h
          exact ⟨hkept.trans hkept', hresult⟩

theorem outstanding_deliver (remote : Remote) (s : Bytes) (w : Link) :
    (w.deliver remote s).outstanding = w.outstanding ++ remote w.sent s :=
  (List.append_assoc ..).symm

/-! ## One request -/

/-- The property `closed` answers; the link stays as it is. -/
theorem closed_cases (weather : Weather) (remote : Remote) (w : Link) :
    ∃ b w', closed.eval (answer weather remote) w = (.ok b, w') ∧ Kept w w' ∧
      w'.outstanding = w.outstanding := by
  rw [closed, Program.eval_call]
  cases hclosed : w.closed with
  | true =>
    simp only [answer, hclosed]
    exact ⟨true, w, rfl, .refl w, rfl⟩
  | false =>
    simp only [answer, hclosed, Program.eval_call]
    exact ⟨_, w.tick, rfl, ⟨rfl, rfl, rfl⟩, rfl⟩

/-- What a request does: it raises before it sends, or it sends its line and takes the first
outstanding line, or it sends its line and raises before it has taken one. -/
inductive Requested (depth : ℕ) (remote : Remote) (operation : Str) (values : List (Str × JsonValue))
    (w : Link) : Except Raised Response → Link → Prop
  | unsent {e : Raised} {w' : Link} (hserial : w'.buffers.serial = w.buffers.serial)
      (hexchanges : w'.exchanges = w.exchanges) (houtstanding : w'.outstanding = w.outstanding) :
    Requested depth remote operation values w (.error e) w'
  | unanswered {e : Raised} {w' : Link} (hserial : w'.buffers.serial = w.buffers.serial)
      (hexchanges : w'.exchanges = (w.deliver remote (requestLine operation values)).exchanges)
      (houtstanding : w'.outstanding = (w.deliver remote (requestLine operation values)).outstanding) :
    Requested depth remote operation values w (.error e) w'
  | answered {line : Bytes} {r : Except Raised Response} {w' : Link}
      (hserial : w'.buffers.serial = w.buffers.serial)
      (hexchanges : w'.exchanges = (w.deliver remote (requestLine operation values)).exchanges)
      (hline : (10 : UInt8) ∉ line)
      (houtstanding : (w.deliver remote (requestLine operation values)).outstanding
        = line ++ 10 :: w'.outstanding)
      (hr : r = decodeResponse depth line >>= accept operation) :
    Requested depth remote operation values w r w'

/-- **What a request does**, in every weather. -/
theorem request_cases (weather : Weather) (remote : Remote) (depth : ℕ) (operation : Str)
    (values : List (Str × JsonValue)) (w : Link) :
    Requested depth remote operation values w
      ((request depth operation values).eval (answer weather remote) w).1
      ((request depth operation values).eval (answer weather remote) w).2 := by
  obtain ⟨b, w₁, hclosed, hkept, hout⟩ := closed_cases weather remote w
  rw [request, Program.eval_bind, hclosed]
  cases b with
  | true => exact .unsent hkept.serial hkept.exchanges hout
  | false =>
    show Requested _ _ _ _ _ ((exchange depth operation values).eval (answer weather remote) w₁).1
      ((exchange depth operation values).eval (answer weather remote) w₁).2
    rw [exchange, Program.eval_bind, send, Program.eval_call]
    cases hbroken : weather.broken w₁.clock with
    | true =>
      simp only [answer, hbroken, if_true, Program.eval_throw]
      exact .unsent hkept.serial hkept.exchanges hout
    | false =>
      simp only [answer, hbroken, Bool.false_eq_true, if_false, Program.eval_pure, Program.eval_bind,
        readResponse, Program.eval_call, Program.eval_ofExcept]
      -- the clock aside, the line is sent from the link of the call
      have hsent : w₁.sent = w.sent := congrArg (List.map Prod.fst) hkept.exchanges
      have hexchanges : (w₁.deliver remote (requestLine operation values)).exchanges
          = (w.deliver remote (requestLine operation values)).exchanges := by
        simp only [Link.deliver, hsent, hkept.exchanges]
      have hdelivered : (w₁.deliver remote (requestLine operation values)).outstanding
          = (w.deliver remote (requestLine operation values)).outstanding := by
        rw [outstanding_deliver, outstanding_deliver, hsent, hout]
      rcases hread : (readPasses depth operation
          (weather.passes (w₁.deliver remote (requestLine operation values)).tick.clock)).eval
            (answer weather remote) (w₁.deliver remote (requestLine operation values)).tick.tick
        with ⟨r, w'⟩
      obtain ⟨hkept', hresult⟩ := readPasses_cases depth operation _ _ hread
      have hserial : w'.buffers.serial = w.buffers.serial := hkept'.serial.trans hkept.serial
      rcases hresult with ⟨line, hline, htaken, rfl⟩ | ⟨hleft, e, rfl⟩
      · have htaken' : (w.deliver remote (requestLine operation values)).outstanding
            = line ++ 10 :: w'.outstanding := hdelivered.symm.trans htaken
        cases hdecode : decodeResponse depth line with
        | ok response =>
          exact .answered hserial (hkept'.exchanges.trans hexchanges) hline htaken' (by rw [hdecode]; rfl)
        | error e =>
          exact .answered hserial (hkept'.exchanges.trans hexchanges) hline htaken' (by rw [hdecode]; rfl)
      · exact .unanswered hserial (hkept'.exchanges.trans hexchanges) (hleft.trans hdelivered)

end Reading

/-! ## Pairing -/

/-- Another side that writes one line for every line. -/
structure LineRemote where
  body : List Bytes → Bytes → Bytes
  clean : ∀ earlier line, (10 : UInt8) ∉ body earlier line

def LineRemote.remote (other : LineRemote) : Remote := fun earlier line => other.body earlier line ++ [10]

/-- One request of a run: any operation, with any values. -/
structure Call where
  operation : Str
  values : List (Str × JsonValue)

/-- A request from the link `w`. -/
def exec (weather : Weather) (other : LineRemote) (depth : ℕ) (c : Call) (w : Link) :
    Except Raised Response × Link :=
  (request depth c.operation c.values).eval (answer weather other.remote) w

/-- The requests of a client, one after the other, whatever each of them returns or raises. -/
def step (weather : Weather) (other : LineRemote) (depth : ℕ) (w : Link) (c : Call) : Option Link :=
  some (exec weather other depth c w).2

/-- A request that returns, returns what the other side has written for its line. -/
def PairedCall (weather : Weather) (other : LineRemote) (depth : ℕ) (w : Link) (c : Call) : Prop :=
  ∀ response, (exec weather other depth c w).1 = .ok response →
    (exec weather other depth c w).2.exchanges = w.exchanges ++
        [(requestLine c.operation c.values, other.remote w.sent (requestLine c.operation c.values))] ∧
      decodeResponse depth (other.body w.sent (requestLine c.operation c.values)) = .ok response

/-- Nothing is outstanding: the response line of every request so far has been read. -/
def Settled (w : Link) : Prop := w.outstanding = []

/-- The first line of a text is where its first line feed is. -/
theorem line_unique {line body rest : Bytes} (hline : (10 : UInt8) ∉ line) (hbody : (10 : UInt8) ∉ body)
    (h : body ++ [10] = line ++ 10 :: rest) : line = body ∧ rest = [] := by
  induction line generalizing body with
  | nil =>
    cases body with
    | nil => exact ⟨rfl, by simpa using h.symm⟩
    | cons c body =>
      rw [List.cons_append, List.nil_append, List.cons.injEq] at h
      exact absurd (by rw [h.1]; exact List.mem_cons_self) hbody
  | cons c line ih =>
    cases body with
    | nil =>
      rw [List.nil_append, List.cons_append, List.cons.injEq] at h
      exact absurd (by rw [← h.1]; exact List.mem_cons_self) hline
    | cons d body =>
      rw [List.cons_append, List.cons_append, List.cons.injEq] at h
      obtain ⟨rfl, rfl⟩ := ih (fun hmem => hline (List.mem_cons_of_mem c hmem))
        (fun hmem => hbody (List.mem_cons_of_mem d hmem)) h.2
      exact ⟨by rw [h.1], rfl⟩

theorem accept_ok {operation : Str} {response accepted : Response}
    (h : accept operation response = .ok accepted) :
    accepted = response ∧ get response (codes "ok") = some (.bool true) := by
  unfold accept at h
  split_ifs at h
  split at h
  · rename_i hok
    cases h
    exact ⟨rfl, hok⟩
  · cases h

/-- **A request on a settled link is paired.** -/
theorem pairedCall_of_settled {weather : Weather} {other : LineRemote} {depth : ℕ} {w : Link} {c : Call}
    (h : Settled w) : PairedCall weather other depth w c := by
  intro response hreturned
  have hcases := request_cases weather other.remote depth c.operation c.values w
  rw [exec] at hreturned
  rw [hreturned] at hcases
  cases hcases with
  | answered _ hexchanges hline houtstanding hr =>
    refine ⟨hexchanges, ?_⟩
    rw [outstanding_deliver, h, List.nil_append] at houtstanding
    obtain ⟨rfl, -⟩ := line_unique hline (other.clean _ _) houtstanding
    cases hdecode : decodeResponse depth (other.body w.sent (requestLine c.operation c.values)) with
    | error e =>
      rw [hdecode] at hr
      cases hr
    | ok decoded =>
      rw [hdecode] at hr
      rw [(accept_ok hr.symm).1]

/-- **In every run whose requests are made while nothing is outstanding**, every request that returns,
returns the response to itself. -/
theorem paired_of_settled (weather : Weather) (other : LineRemote) (depth : ℕ) (calls : List Call)
    (h : Transition.Meets (step weather other depth) (fun w _ => Settled w) .initial calls) :
    Transition.Meets (step weather other depth) (PairedCall weather other depth) .initial calls :=
  h.mono fun _ _ => pairedCall_of_settled

/-! ## A late response -/

instance (w : Link) : Decidable (Settled w) := inferInstanceAs (Decidable (w.outstanding = []))

/-- The first response names the version of the agent; the ones after it are empty successes. -/
def greeting (earlier : List Bytes) : Response :=
  [(codes "version", .int 1), (codes "ok", .bool true)]
    ++ if earlier = [] then [(codes "agent_version", .str (codes "0.1.0"))] else []

/-- Another side that greets. -/
def greeter : LineRemote where
  body earlier _ := encodeAscii (dumps (.dict (greeting earlier)))
  clean := by
    intro earlier _ hmem
    obtain ⟨c, hc, hten⟩ := List.mem_map.mp hmem
    have hascii := dumps_ascii _ c hc
    have hnat := congrArg UInt8.toNat hten
    rw [toNat_ofNat_ascii hascii.2] at hnat
    exact absurd (hnat ▸ hascii.1) (by decide)

/-- A weather in which everything arrives at once, except that the loop at `early` has no time. -/
def clear (early : ℕ) : Weather where
  exited _ := false
  broken _ := false
  passes n := if n = early then 0 else 8
  arrived _ := true
  chunk _ := 1000

/-- The version request, and one after it. -/
def twoCalls : List Call := [⟨codes "hello", []⟩, ⟨codes "reset_input", []⟩]

theorem paired_when_all_arrives :
    Transition.Meets (step (clear 100) greeter 2) (PairedCall (clear 100) greeter 2) .initial twoCalls :=
  paired_of_settled (clear 100) greeter 2 twoCalls (by decide +kernel)

/-- A result that names the version of the agent. -/
def greets : Except Raised Response → Bool
  | .ok response => (get response (codes "agent_version")).isSome
  | .error _ => false

/-- The first request times out before its response arrives, and the next one returns that response. -/
theorem late_response_is_returned :
    ¬Transition.Meets (step (clear 2) greeter 2) (PairedCall (clear 2) greeter 2) .initial twoCalls := by
  intro h
  have hsecond := (h.2 _ rfl).1
  generalize hlink : (exec (clear 2) greeter 2 ⟨codes "hello", []⟩ .initial).2 = w at hsecond
  have hlate : greets (exec (clear 2) greeter 2 ⟨codes "reset_input", []⟩ w).1 = true := by
    rw [← hlink]
    decide +kernel
  have hown : greets (decodeResponse 2
      (greeter.body w.sent (requestLine (codes "reset_input") []))) = false := by
    rw [← hlink]
    decide +kernel
  cases hreturned : (exec (clear 2) greeter 2 ⟨codes "reset_input", []⟩ w).1 with
  | error e =>
    rw [hreturned] at hlate
    cases hlate
  | ok response =>
    rw [(hsecond response hreturned).2] at hown
    rw [hreturned, hown] at hlate
    cases hlate

end HardwareTest.Transport.SerialAgentChannel
