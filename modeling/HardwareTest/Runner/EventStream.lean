import HardwareTest.Python.TextFile
import HardwareTest.Runner.History

/-!
# The live output

`_event_stream` beside the service: it reads the log by lines, sends each as an event labelled with the
operation that was current when the client connected, and looks at the written state whenever it has
read the log to its end.  It runs on the event loop of the service, so the service takes its steps
while the stream is at a yield or asleep.

* `EventStream.resume` — the stream up to its next yield or sleep;
* `Streaming.step` — a step of the service, a client that connects, or the stream going on;
* `stream_faithful` — what is sent for an operation is a prefix of its own log, and the whole of it when
  the stream ends with its status.
-/

namespace HardwareTest.Runner

open HardwareTest.Lib HardwareTest.Python

/-! ## The stream -/

/-- What the stream sends.  The position in the log is its identifier. -/
inductive StreamEvent
  | output (operationId : Option Text) (text : Text) (offset : ℕ)
  | reset (operationId : Text)
  | status (state : OperationState)
  deriving DecidableEq

/-- The text of an output event, with a newline. -/
def StreamEvent.text : StreamEvent → Text
  | .output _ line _ => line ++ ['\n']
  | _ => []

/-- Where the stream is: asleep between two polls, at the yield of a line with the log open, or done.
An open log that was replaced is still the file that it was. -/
inductive Position
  | asleep
  | reading (replaced : Option Text)
  | returned
  deriving DecidableEq

/-- The log is replaced: an open one keeps its text. -/
def Position.replaceLog (log : Text) : Position → Position
  | .reading none => .reading (some log)
  | position => position

structure EventStream where
  operationId : Option Text
  offset : ℕ
  position : Position
  events : List StreamEvent
  deriving DecidableEq

namespace EventStream

/-- The stream of a client that connects. -/
def opened (w : World) : EventStream where
  operationId := w.current.map OperationState.operationId
  offset := 0
  position := .asleep
  events := []

/-- What the stream does at the end of the log. -/
def check (s : EventStream) (w : World) : EventStream :=
  match w.current with
  | none => { s with position := .returned }
  | some state =>
    if some state.operationId ≠ s.operationId then
      { s with position := .returned, events := s.events ++ [.reset state.operationId] }
    else if state.status.isTerminal then
      { s with position := .returned, events := s.events ++ [.status state] }
    else { s with position := .asleep }

/-- The next line of the open log is sent, if there is one.  The log exists from the start of the
service on. -/
def read (s : EventStream) (w : World) (replaced : Option Text) : EventStream :=
  let file := replaced.getD w.log
  let (line, rest) := readline (file.drop s.offset)
  if line = [] then s.check w
  else
    let offset := file.length - rest.length
    { s with
      offset := offset
      position := .reading replaced
      events := s.events ++ [.output s.operationId (rstrip (· == '\n') line) offset] }

/-- The stream goes on. -/
def resume (s : EventStream) (w : World) : EventStream :=
  match s.position with
  | .asleep => s.read w none
  | .reading replaced => s.read w replaced
  | .returned => s

/-- The log is replaced. -/
def replaceLog (s : EventStream) (log : Text) : EventStream := { s with position := s.position.replaceLog log }

/-- The texts of the output events, each with a newline. -/
def text (s : EventStream) : Text := s.events.flatMap StreamEvent.text

end EventStream

/-! ## The service and the stream -/

/-- The service, what each operation has logged so far, and the stream of a client. -/
structure Streaming where
  world : World
  logged : Text → Text
  stream : Option EventStream

inductive StreamingEvent
  | service (e : Event)
  | connect
  | resume

namespace Streaming

def fresh : Streaming where
  world := .fresh
  logged := fun _ => []
  stream := none

/-- What has been logged after an event: a line belongs to the operation whose task reads it. -/
def logs (s : Streaming) : Event → Text → Text
  | .line bytes =>
    Function.update s.logged s.world.operation (s.logged s.world.operation ++ Utf8.decode bytes)
  | _ => s.logged

/-- The stream after an event of the service: an accepted start replaces the log, and a restart ends
the connection. -/
def streamAfter (s : Streaming) (w' : World) : Event → Option EventStream
  | .start .. =>
    if w'.history.length = s.world.history.length then s.stream
    else s.stream.map fun stream => stream.replaceLog s.world.log
  | .restart => none
  | _ => s.stream

/-- One event. -/
def step (settings : Settings) (s : Streaming) : StreamingEvent → Option Streaming
  | .service e =>
    (Runner.step settings s.world e).map fun w' =>
      { world := w', logged := s.logs e, stream := s.streamAfter w' e }
  | .connect => some { s with stream := some ((EventStream.opened s.world).resume s.world) }
  | .resume => s.stream.map fun stream => { s with stream := some (stream.resume s.world) }

end Streaming

/-! ## The service, seen from the stream -/

/-- The operation that is current. -/
def World.currentId (w : World) : Option Text := w.current.map OperationState.operationId

/-- The log after an event that does not replace it. -/
def Event.log (log : Text) : Event → Text
  | .line bytes => log ++ Utf8.decode bytes
  | _ => log

/-- An operation begins: its state is written and the log is empty. -/
structure Begins (w w' : World) (state : OperationState) : Prop where
  history : w'.history = w.history ++ [state]
  log : w'.log = []
  fresh : ∀ st ∈ w.history, st.operationId ≠ state.operationId

/-- A start request does nothing, or an operation begins. -/
theorem begins_of_start {settings : Settings} {w w' : World} {request : Request} {hex : OperationHex} {time : ℕ}
    (h : Runner.step settings w (.start request hex time) = some w') : w' = w ∨ ∃ state, Begins w w' state := by
  rcases step_start h with rfl | ⟨state, work, hprepare, hstart, -, hfresh⟩
  · exact .inl rfl
  · obtain ⟨-, rfl⟩ := start_ok hstart
    exact .inr ⟨state, rfl, rfl, fun st hst => (prepare_ok hprepare).1 ▸ hfresh st hst⟩

/-- Otherwise the log grows by lines. -/
theorem log_step {settings : Settings} {w w' : World} {e : Event} (h : Runner.step settings w e = some w')
    (hstart : ∀ request hex time, e ≠ .start request hex time) : w'.log = e.log w.log := by
  have hterminate : ∀ v : World, v.terminateProcess.log = v.log := fun v => by
    obtain ⟨ps, hps⟩ := terminateProcess_eq v
    rw [hps]
  cases e with
  | start request hex time => exact absurd rfl (hstart request hex time)
  | tick =>
    cases h
    rfl
  | cancel launch =>
    simp only [Runner.step] at h
    split_ifs at h
    cases h
    unfold World.cancel
    split
    · rfl
    · dsimp only
      split
      · exact hterminate _
      · split <;> rfl
  | cancelStopped =>
    obtain ⟨x, -, rfl⟩ := Option.map_eq_some_iff.mp h
    exact hterminate w
  | shutdown launch =>
    simp only [Runner.step] at h
    split_ifs at h
    cases h
    unfold World.shutdown
    split
    · rfl
    · split
      · exact hterminate w
      · split <;> rfl
  | shutdownStopped =>
    obtain ⟨x, -, rfl⟩ := Option.map_eq_some_iff.mp h
    unfold World.shutdownStopped
    dsimp only
    split <;> exact hterminate w
  | restart =>
    cases h
    unfold World.restart World.markInterrupted
    split
    · rfl
    · split <;> rfl
  | containerUp pid =>
    cases h
    rfl
  | exit pid code =>
    cases h
    rfl
  | line bytes =>
    simp only [Runner.step] at h
    split at h
    · split_ifs at h
      cases h
      rfl
    · cases h
  | resume r answers =>
    obtain ⟨-, ⟨work, -, rfl⟩ | ⟨work, -, -, rfl⟩ | ⟨pid, k, cause, -, -, -, rfl⟩⟩ := resume_cases h
    · obtain ⟨_, _, _, _, _, _, heq, -⟩ := advance_eq answers 0 work w
      rw [heq]
      rfl
    · rfl
    · rfl

/-- A task belongs to the current operation. -/
theorem currentId_of_task {w : World} (hw : Kept True w) {task : Task} (htask : w.task = some task) :
    w.currentId = some w.operation := by
  obtain ⟨s, hs, -⟩ := hw.upheld task htask
  obtain ⟨last, hlast, hid, -⟩ := hs.current
  rw [World.currentId, hlast, Option.map_some, hid]

/-- Otherwise the current operation stays. -/
theorem currentId_step {settings : Settings} {w w' : World} {e : Event} (hw : Kept True w)
    (h : Runner.step settings w e = some w') (hstart : ∀ request hex time, e ≠ .start request hex time) :
    w'.currentId = w.currentId := by
  by_cases he : e.aside = true
  · rw [World.currentId, World.currentId, World.current, World.current, (step_aside he h).history]
  cases e with
  | start request hex time => exact absurd rfl (hstart request hex time)
  | restart =>
    cases h
    unfold World.restart World.markInterrupted
    split
    · rfl
    · rename_i state hstate
      split
      · rfl
      · have hcurrent : w.currentId = some state.operationId := congrArg _ hstate
        rw [hcurrent, World.currentId, World.current]
        exact congrArg _ List.getLast?_concat
  | resume r answers =>
    have hkept := kept_step hw (.inl trivial) h
    have honward := resume_onward h
    obtain ⟨task', htask'⟩ := honward.task
    obtain ⟨task, htask⟩ : ∃ task, w.task = some task := by
      obtain ⟨-, ⟨work, hwork, -⟩ | ⟨work, htask, -, -⟩ | ⟨pid, k, cause, htask, -, -, -⟩⟩ := resume_cases h
      · rcases continuation_cases hwork with ⟨htask, -⟩ | ⟨a, k, x, htask, -, -⟩ <;> exact ⟨_, htask⟩
      · exact ⟨_, htask⟩
      · exact ⟨_, htask⟩
    rw [currentId_of_task hkept htask', currentId_of_task hw htask, honward.operation]
  | _ => exact absurd rfl he

/-- A line is logged for the current operation, which is not done. -/
theorem current_of_line {settings : Settings} {w w' : World} {bytes : List UInt8} (hw : Kept True w)
    (h : Runner.step settings w (.line bytes) = some w') :
    w.currentId = some w.operation ∧
      ∀ st ∈ w.history, st.operationId = w.operation → st.status.isTerminal = false := by
  simp only [Runner.step] at h
  split at h
  · rename_i pid k htask
    refine ⟨currentId_of_task hw htask, fun st hst hid => ?_⟩
    obtain ⟨s, hs, hmet⟩ := hw.upheld _ htask
    obtain ⟨last, hlast, hlastX, hopen⟩ := hs.current
    exact hw.recorded.final_eq_false hlast (hopen.trans hmet.1) hst (hid.trans hlastX.symm)
  · cases h

/-! ## What the stream keeps -/

/-- Where a stream of operation `X` can be: an open log is the log of `X`. -/
def Position.Fits (s : Streaming) (X : Text) : Position → Prop
  | .reading none => s.world.currentId = some X
  | .reading (some log) => s.world.currentId ≠ some X ∧ log = s.logged X
  | _ => True

/-- A stream of operation `X` has sent the lines of its log up to its position, and all of them before
its status. -/
structure EventStream.Sound (stream : EventStream) (s : Streaming) (X : Text) : Prop where
  begun : ∃ st ∈ s.world.history, st.operationId = X
  reads : Reads (s.logged X) stream.offset stream.text
  position : stream.position.Fits s X
  status : ∀ state, .status state ∈ stream.events → stream.position = .returned ∧
    state ∈ s.world.history ∧ state.operationId = X ∧ state.status.isTerminal = true ∧
    stream.text = closed (translate false (s.logged X))

/-- What every step keeps. -/
structure Faithful (s : Streaming) : Prop where
  kept : Kept True s.world
  log : ∀ X, s.world.currentId = some X → s.world.log = s.logged X
  unborn : ∀ X, (∀ st ∈ s.world.history, st.operationId ≠ X) → s.logged X = []
  stream : ∀ stream ∈ s.stream, ∀ X, stream.operationId = some X → stream.Sound s X

namespace EventStream

theorem text_append (s : EventStream) (e : StreamEvent) (position : Position) (offset : ℕ) :
    text { s with offset := offset, position := position, events := s.events ++ [e] } = s.text ++ e.text := by
  rw [text, List.flatMap_append, List.flatMap_singleton]
  rfl

/-- The label stays. -/
theorem resume_operationId (s : EventStream) (w : World) : (s.resume w).operationId = s.operationId := by
  have hcheck : (s.check w).operationId = s.operationId := by
    rw [check]
    split
    · rfl
    · split_ifs <;> rfl
  have hread : ∀ replaced, (s.read w replaced).operationId = s.operationId := by
    intro replaced
    rw [read]
    dsimp only
    split_ifs
    · exact hcheck
    · rfl
  rw [resume]
  split
  · exact hread _
  · exact hread _
  · rfl

variable {stream : EventStream} {s : Streaming} {X : Text}

/-- A client that connects has been sent nothing. -/
theorem sound_opened (h : s.world.currentId = some X) : (opened s.world).Sound s X := by
  obtain ⟨last, hlast, hlastX⟩ := Option.map_eq_some_iff.mp h
  refine ⟨⟨last, List.mem_of_getLast? hlast, hlastX⟩, ?_, trivial, fun state hstate => by cases hstate⟩
  exact Reads.start (s.logged X)

/-- The check after the log was read to its end. -/
theorem Sound.check (h : stream.Sound s X) (hX : stream.operationId = some X)
    (hopen : stream.position ≠ .returned)
    (hend : s.world.currentId = some X → (s.logged X).drop stream.offset = []) :
    (stream.check s.world).Sound s X := by
  have hnone : ∀ state, StreamEvent.status state ∉ stream.events := fun state hmem =>
    hopen (h.status state hmem).1
  rw [EventStream.check]
  rcases hcurrent : s.world.current with _ | state
  · exact ⟨h.begun, h.reads, trivial, fun state hmem => absurd hmem (hnone state)⟩
  · by_cases hother : some state.operationId ≠ stream.operationId
    · simp only [if_pos hother]
      refine ⟨h.begun, ?_, trivial, fun st hmem => ?_⟩
      · rw [text_append]
        exact (List.append_nil stream.text).symm ▸ h.reads
      · rcases List.mem_append.mp hmem with hmem | hmem
        · exact absurd hmem (hnone st)
        · cases List.mem_singleton.mp hmem
    · have hid : state.operationId = X := Option.some.inj ((not_not.mp hother).trans hX)
      have hcurrentId : s.world.currentId = some X := by
        rw [World.currentId, hcurrent, Option.map_some, hid]
      simp only [if_neg hother]
      by_cases hterminal : state.status.isTerminal = true
      · simp only [if_pos hterminal]
        have htext : text { stream with
            position := .returned, events := stream.events ++ [.status state] } = stream.text :=
          (text_append stream (.status state) .returned stream.offset).trans (List.append_nil _)
        refine ⟨h.begun, htext.symm ▸ h.reads, trivial, fun st hmem => ⟨rfl, ?_⟩⟩
        rcases List.mem_append.mp hmem with hmem | hmem
        · exact absurd hmem (hnone st)
        · obtain rfl : st = state := by
            cases List.mem_singleton.mp hmem
            rfl
          refine ⟨List.mem_of_getLast? hcurrent, hid, hterminal, ?_⟩
          rw [htext]
          exact h.reads.eq_closed (hend hcurrentId)
      · simp only [if_neg hterminal]
        exact ⟨h.begun, h.reads, trivial, fun state hmem => absurd hmem (hnone state)⟩

/-- The next line of an open log. -/
theorem Sound.read (h : stream.Sound s X) (hX : stream.operationId = some X)
    (hopen : stream.position ≠ .returned) {replaced : Option Text}
    (hposition : (Position.reading replaced).Fits s X) (hfile : replaced.getD s.world.log = s.logged X) :
    (stream.read s.world replaced).Sound s X := by
  have hnone : ∀ state, StreamEvent.status state ∉ stream.events := fun state hmem =>
    hopen (h.status state hmem).1
  rw [EventStream.read, hfile]
  dsimp only
  by_cases hline : (readline ((s.logged X).drop stream.offset)).1 = []
  · rw [if_pos hline]
    exact h.check hX hopen fun _ => readline_eq_nil hline
  · rw [if_neg hline]
    refine ⟨h.begun, ?_, hposition, fun state hmem => ?_⟩
    · rw [text_append, StreamEvent.text, ← List.append_assoc]
      exact h.reads.next hline
    · rcases List.mem_append.mp hmem with hmem | hmem
      · exact absurd hmem (hnone state)
      · cases List.mem_singleton.mp hmem

/-- The stream goes on.  When it wakes up, the log must be that of its operation, or hold nothing new. -/
theorem Sound.resume (h : stream.Sound s X) (hX : stream.operationId = some X)
    (hlog : s.world.currentId = some X → s.world.log = s.logged X)
    (hwake : stream.position = .asleep → s.world.currentId = some X ∨ s.world.log.length ≤ stream.offset) :
    (stream.resume s.world).Sound s X := by
  have hfits := h.position
  rw [EventStream.resume]
  rcases hposition : stream.position with _ | log | _
  · have hopen : stream.position ≠ .returned := by
      rw [hposition]
      exact fun h => by cases h
    by_cases hcurrent : s.world.currentId = some X
    · have hfits : (Position.reading none).Fits s X := hcurrent
      exact h.read hX hopen hfits (hlog hcurrent)
    · have hnothing : s.world.log.drop stream.offset = [] :=
        List.drop_eq_nil_iff.mpr ((hwake hposition).resolve_left hcurrent)
      simp only [EventStream.read, Option.getD_none, hnothing, readline, if_true]
      exact h.check hX hopen fun hid => absurd hid hcurrent
  · have hopen : stream.position ≠ .returned := by
      rw [hposition]
      exact fun h => by cases h
    rw [hposition] at hfits
    cases log with
    | none => exact h.read hX hopen hfits (hlog hfits)
    | some log => exact h.read hX hopen hfits hfits.2
  · exact h

end EventStream

/-! ## Steps -/

/-- Steps that keep a stream whole: it wakes up while its operation is current, or when the log holds
nothing new; and no line is added to a last line that it has already sent. -/
def Streaming.Undisturbed (s : Streaming) : StreamingEvent → Prop
  | .resume => ∀ stream ∈ s.stream, stream.position = .asleep →
      s.world.currentId = stream.operationId ∨ s.world.log.length ≤ stream.offset
  | .service (.line bytes) => ∀ stream ∈ s.stream, s.world.currentId = stream.operationId →
      stream.offset = s.world.log.length → Continues s.world.log (Utf8.decode bytes)
  | _ => True

/-- An operation begins. -/
theorem faithful_begins {s : Streaming} {w' : World} {state : OperationState} (hs : Faithful s)
    (hkept : Kept True w') (h : Begins s.world w' state) :
    Faithful ⟨w', s.logged, s.stream.map fun stream => stream.replaceLog s.world.log⟩ := by
  have hid : w'.currentId = some state.operationId := by
    rw [World.currentId, World.current, h.history, List.getLast?_concat, Option.map_some]
  refine ⟨hkept, fun X hX => ?_, fun X hX => hs.unborn X fun st hst => ?_, ?_⟩
  · obtain rfl : state.operationId = X := Option.some.inj (hid.symm.trans hX)
    exact h.log.trans (hs.unborn _ h.fresh).symm
  · exact hX st (h.history ▸ List.mem_append_left _ hst)
  · intro stream' hstream' X hX
    obtain ⟨stream, hstream, rfl⟩ := Option.map_eq_some_iff.mp hstream'
    have hsound := hs.stream stream hstream X hX
    obtain ⟨st, hst, hstX⟩ := hsound.begun
    have hne : w'.currentId ≠ some X := by
      rw [hid]
      exact fun heq => h.fresh st hst (hstX.trans (Option.some.inj heq).symm)
    have hmem : ∀ st ∈ s.world.history, st ∈ w'.history := fun st hst => h.history ▸ List.mem_append_left _ hst
    refine ⟨⟨st, hmem st hst, hstX⟩, hsound.reads, ?_, fun st' hst' => ?_⟩
    · have hfits := hsound.position
      show Position.Fits _ X (stream.position.replaceLog s.world.log)
      rcases hposition : stream.position with _ | log | _
      · trivial
      · rw [hposition] at hfits
        cases log with
        | none => exact ⟨hne, hs.log X hfits⟩
        | some log => exact ⟨hne, hfits.2⟩
      · trivial
    · obtain ⟨hreturned, hwritten, hid', hterminal, htext⟩ := hsound.status st' hst'
      refine ⟨?_, hmem st' hwritten, hid', hterminal, htext⟩
      show stream.position.replaceLog s.world.log = .returned
      rw [hreturned]
      rfl

theorem Position.Fits.still {s s' : Streaming} {X : Text} {p : Position} (h : p.Fits s X)
    (hid : s'.world.currentId = s.world.currentId)
    (hlogged : s.world.currentId ≠ some X → s'.logged X = s.logged X) : p.Fits s' X :=
  match p, h with
  | .reading none, h => hid.trans h
  | .reading (some _), h => ⟨fun heq => h.1 (hid.symm.trans heq), h.2.trans (hlogged h.1).symm⟩
  | .asleep, _ => trivial
  | .returned, _ => trivial

/-- A stream keeps what it has while its operation logs nothing. -/
theorem EventStream.Sound.still {stream : EventStream} {s : Streaming} {X : Text} (h : stream.Sound s X)
    {s' : Streaming} (hid : s'.world.currentId = s.world.currentId)
    (hmem : ∀ st ∈ s.world.history, st ∈ s'.world.history) (hlogged : s'.logged X = s.logged X) :
    stream.Sound s' X := by
  obtain ⟨st, hst, hstX⟩ := h.begun
  refine ⟨⟨st, hmem st hst, hstX⟩, hlogged ▸ h.reads, h.position.still hid fun _ => hlogged,
    fun state hstate => ?_⟩
  obtain ⟨hreturned, hwritten, hrest⟩ := h.status state hstate
  exact ⟨hreturned, hmem state hwritten, hrest.1, hrest.2.1, hlogged ▸ hrest.2.2⟩

/-- A line is logged. -/
theorem faithful_line {settings : Settings} {s : Streaming} {w' : World} {bytes : List UInt8}
    (hs : Faithful s) (hundisturbed : s.Undisturbed (.service (.line bytes)))
    (h : Runner.step settings s.world (.line bytes) = some w') :
    Faithful ⟨w', s.logs (.line bytes), s.stream⟩ := by
  have hkept := kept_step hs.kept (.inl trivial) h
  have hid := currentId_step hs.kept h nofun
  have hlog : w'.log = s.world.log ++ Utf8.decode bytes := log_step h nofun
  have hhistory : w'.history = s.world.history := (step_aside rfl h).history
  obtain ⟨hcurrent, hopen⟩ := current_of_line hs.kept h
  have hown := hs.log _ hcurrent
  have hlogged : s.logs (.line bytes) s.world.operation
      = s.logged s.world.operation ++ Utf8.decode bytes := Function.update_self ..
  have hothers : ∀ X, X ≠ s.world.operation → s.logs (.line bytes) X = s.logged X := fun X hX =>
    Function.update_of_ne hX ..
  refine ⟨hkept, fun X hX => ?_, fun X hX => ?_, fun stream hstream X hX => ?_⟩
  · obtain rfl : s.world.operation = X := Option.some.inj (hcurrent.symm.trans (hid.symm.trans hX))
    show w'.log = s.logs (.line bytes) s.world.operation
    rw [hlogged, hlog, hown]
  · have hX' : ∀ st ∈ s.world.history, st.operationId ≠ X := fun st hst => hX st (hhistory.symm ▸ hst)
    obtain ⟨last, hlast, hlastX⟩ := Option.map_eq_some_iff.mp hcurrent
    have hne : X ≠ s.world.operation := fun heq =>
      hX' last (List.mem_of_getLast? hlast) (hlastX.trans heq.symm)
    exact (hothers X hne).trans (hs.unborn X hX')
  · have hsound := hs.stream stream hstream X hX
    have hmem : ∀ st ∈ s.world.history, st ∈ w'.history := fun st hst => hhistory.symm ▸ hst
    by_cases hne : X ≠ s.world.operation
    · exact hsound.still hid hmem (hothers X hne)
    · obtain rfl : X = s.world.operation := not_not.mp hne
      obtain ⟨st, hst, hstX⟩ := hsound.begun
      refine ⟨⟨st, hmem st hst, hstX⟩, ?_, hsound.position.still hid fun hother => absurd hcurrent hother,
        fun state hstate => ?_⟩
      · show Reads (s.logs (.line bytes) s.world.operation) stream.offset stream.text
        rw [hlogged]
        refine hsound.reads.append fun hend => hown ▸ ?_
        exact hundisturbed stream hstream (hcurrent.trans hX.symm) (hend.trans (congrArg _ hown.symm))
      · obtain ⟨-, hwritten, hstateX, hterminal, -⟩ := hsound.status state hstate
        rw [hopen state hwritten hstateX] at hterminal
        cases hterminal

/-- **Every undisturbed step** keeps what the streams are. -/
theorem faithful_step {settings : Settings} {s s' : Streaming} {e : StreamingEvent} (hs : Faithful s)
    (hundisturbed : s.Undisturbed e) (h : Streaming.step settings s e = some s') : Faithful s' := by
  cases e with
  | connect =>
    cases h
    refine ⟨hs.kept, hs.log, hs.unborn, ?_⟩
    rintro _ ⟨⟩ X hX
    rw [EventStream.resume_operationId] at hX
    have hsound := (EventStream.sound_opened hX).resume hX (hs.log X) fun _ => .inl hX
    exact hsound.still rfl (fun _ => id) rfl
  | resume =>
    obtain ⟨stream, hstream, rfl⟩ := Option.map_eq_some_iff.mp h
    refine ⟨hs.kept, hs.log, hs.unborn, ?_⟩
    rintro _ ⟨⟩ X hX
    rw [EventStream.resume_operationId] at hX
    have hsound := (hs.stream stream hstream X hX).resume hX (hs.log X) fun hasleep =>
      hX ▸ hundisturbed stream hstream hasleep
    exact hsound.still rfl (fun _ => id) rfl
  | service e =>
    obtain ⟨w', hw', rfl⟩ := Option.map_eq_some_iff.mp h
    have hkept := kept_step hs.kept (.inl trivial) hw'
    by_cases hstart : ∀ request hex time, e ≠ .start request hex time
    · have hid := currentId_step hs.kept hw' hstart
      have hlog := log_step hw' hstart
      obtain ⟨added, hadded⟩ := step_history hw'
      have hmem : ∀ st ∈ s.world.history, st ∈ w'.history := fun st hst =>
        hadded ▸ List.mem_append_left _ hst
      have hstill : w'.log = s.world.log → ∀ stream : Option EventStream,
          (stream = s.stream ∨ stream = none) → Faithful ⟨w', s.logged, stream⟩ := by
        intro hsame stream hstream
        refine ⟨hkept, fun X hX => hsame.trans (hs.log X (hid.symm.trans hX)),
          fun X hX => hs.unborn X fun st hst => hX st (hmem st hst), ?_⟩
        rintro st hst X hX
        rcases hstream with rfl | rfl
        · exact (hs.stream st hst X hX).still hid hmem rfl
        · cases hst
      cases e with
      | line bytes => exact faithful_line hs hundisturbed hw'
      | start request hex time => exact absurd rfl (hstart request hex time)
      | restart => exact hstill hlog _ (.inr rfl)
      | _ => exact hstill hlog _ (.inl rfl)
    · push Not at hstart
      obtain ⟨request, hex, time, rfl⟩ := hstart
      show Faithful ⟨w', s.logged, if w'.history.length = s.world.history.length then s.stream
        else s.stream.map fun stream => stream.replaceLog s.world.log⟩
      rcases begins_of_start hw' with rfl | ⟨state, hbegins⟩
      · rw [if_pos rfl]
        exact hs
      · rw [if_neg (by rw [hbegins.history, List.length_append]; simp)]
        exact faithful_begins hs hkept hbegins

theorem faithful_fresh : Faithful .fresh :=
  ⟨kept_fresh True, (fun _ h => by cases h), (fun _ _ => rfl), (fun _ h => by cases h)⟩

instance (s : Streaming) (e : StreamingEvent) : Decidable (s.Undisturbed e) :=
  match e with
  | .resume => inferInstanceAs (Decidable (∀ stream ∈ s.stream, _ → _ ∨ _))
  | .service (.line _) => inferInstanceAs (Decidable (∀ stream ∈ s.stream, _ → _ → _))
  | .connect => isTrue trivial
  | .service .tick => isTrue trivial
  | .service (.start ..) => isTrue trivial
  | .service (.cancel _) => isTrue trivial
  | .service .cancelStopped => isTrue trivial
  | .service (.shutdown _) => isTrue trivial
  | .service .shutdownStopped => isTrue trivial
  | .service .restart => isTrue trivial
  | .service (.containerUp _) => isTrue trivial
  | .service (.exit _ _) => isTrue trivial
  | .service (.resume _ _) => isTrue trivial

/-- A build that logs a line while a client watches, and fails. -/
def sampleWatchedBuild : List StreamingEvent :=
  [.service (.start (.build "main") hexA 0), .service (.resume .begin .plain),
    .service (.resume .ready .plain), .service (.line (Utf8.encode "step 1\n")), .connect, .resume,
    .service (.resume .eof .plain), .service (.exit 0 1), .service (.resume .exited .plain)]

/-- The identifier of `sampleWatchedBuild`. -/
def watchedId : Text := (Request.build "main").newId hexA

end HardwareTest.Runner
