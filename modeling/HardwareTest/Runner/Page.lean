import HardwareTest.Runner.EventFraming
import HardwareTest.Runner.EventStream
import HardwareTest.Runner.StateStore

/-!
# The page of the live output

The script of `index.html` opens an event source, appends the text of every output event to its output
node, closes the source at the status event, and leaves for the login page on an error, which a source
raises when the service ends the stream.  The service, the stream, the text on the wire and the page are
composed here.

* `StreamEvent.server` — what `_event_stream` hands to `_sse`;
* `Page.receive`, `Page.ended` — the handlers of `connectEvents`;
* `page_shows_log` — what the page shows of an operation is its own log.
-/

namespace HardwareTest.Runner

open HardwareTest.Lib HardwareTest.Lib.Json HardwareTest.Lib.EventSource HardwareTest.Python

/-! ## The events as they are sent -/

section Server

theorem wellFormed_orNull {α : Type} (dump : α → JsonValue) (x : Option α) :
    (orNull dump x).WellFormed PyFloat.IsDouble ↔ ∀ a ∈ x, (dump a).WellFormed PyFloat.IsDouble := by
  cases x with
  | none =>
    constructor
    · intro _ a ha
      cases ha
    · exact fun _ => trivial
  | some a =>
    constructor
    · intro h b hb
      cases hb
      exact h
    · exact fun h => h a rfl

theorem wellFormed_summary (summary : TestSummary) : summary.modelDump.WellFormed PyFloat.IsDouble := by
  refine ⟨⟨trivial, trivial, trivial, trivial, trivial, trivial⟩, ?_⟩
  show ["total", "passed", "failed", "errors", "skipped"].map codes |>.Nodup
  decide

/-- The data of an output event. -/
def outputData (operationId : Option Text) (text : Text) : JsonValue :=
  .dict [(codes "operation_id", orNull .str (operationId.map points)), (codes "text", .str (points text))]

/-- The data of a reset event. -/
def resetData (operationId : Text) : JsonValue := .dict [(codes "operation_id", .str (points operationId))]

variable {T : Type} (py : Pydantic T) (clock : ℕ → T)

/-- The data of a status event. -/
def statusData (state : OperationState) : JsonValue := .dict (modelDump py (state.stored clock))

theorem wellFormed_output (operationId : Option Text) (text : Text) :
    (outputData operationId text).WellFormed PyFloat.IsDouble := by
  refine ⟨⟨(wellFormed_orNull _ _).mpr fun _ _ => trivial, trivial, trivial⟩, ?_⟩
  show ["operation_id", "text"].map codes |>.Nodup
  decide

theorem wellFormed_reset (operationId : Text) : (resetData operationId).WellFormed PyFloat.IsDouble :=
  ⟨⟨trivial, trivial⟩, List.nodup_singleton _⟩

theorem wellFormed_status (state : OperationState) :
    (statusData py clock state).WellFormed PyFloat.IsDouble := by
  refine ⟨?_, (modelDump_keys py (state.stored clock)).symm ▸ nodup_fieldNames⟩
  simp only [modelDump, WellFormedMembers, Value.WellFormed, wellFormed_orNull, wellFormed_summary,
    implies_true, and_self]

/-- The event that `_event_stream` hands to `_sse`. -/
def StreamEvent.server : StreamEvent → ServerEvent
  | .output operationId text offset =>
    ⟨.output, outputData operationId text, some offset, wellFormed_output operationId text⟩
  | .reset operationId => ⟨.reset, resetData operationId, some 0, wellFormed_reset operationId⟩
  | .status state => ⟨.status, statusData py clock state, none, wellFormed_status py clock state⟩

end Server

/-! ## The page -/

/-- The text of the output node, whether the event source is open, and whether the page has left for the
login page. -/
structure Page where
  output : Str
  listening : Bool
  left : Bool
  deriving DecidableEq

/-- The page when `connectEvents` has opened its source. -/
def Page.connected : Page := ⟨[], true, false⟩

/-- `JSON.parse(data).text`, when it is a string. -/
def payloadText (data : Str) : Option Str :=
  match (loads data.length data : Except LoadsError JsonValue) with
  | .ok (.dict payload) =>
    match Python.get payload (codes "text") with
    | some (.str text) => some text
    | _ => none
  | _ => none

/-- An event is dispatched: only `output` and `status` have listeners, and a closed source has none. -/
def Page.receive (page : Page) (d : Dispatched) : Page :=
  if !page.listening then page
  else if d.event = codes "output" then
    match payloadText d.data with
    | some text => { page with output := page.output ++ text ++ [10] }
    | none => page
  else if d.event = codes "status" then { page with listening := false }
  else page

/-- The service ends the stream: an open source raises an error. -/
def Page.ended (page : Page) : Page :=
  if page.listening then { page with listening := false, left := true } else page

/-- The page after a part of the stream has arrived. -/
def Page.after (arrived : Str) : Page := (parse arrived).foldl Page.receive .connected

/-! ## One event on the page -/

section Received

variable {T : Type} {py : Pydantic T} {clock : ℕ → T} {d : Dispatched}

theorem payloadText_received {operationId : Option Text} {text : Text} {offset : ℕ}
    (h : Received d (StreamEvent.server py clock (.output operationId text offset))) :
    payloadText d.data = some (points text) := by
  have hdepth : (outputData operationId text).depth = 1 := by
    cases operationId <;> rfl
  have hne : d.data ≠ [] := by
    intro hempty
    have hread := h.data 1 hdepth.le
    rw [hempty] at hread
    cases hread
  have hread : (loads d.data.length d.data : Except LoadsError JsonValue) = .ok (outputData operationId text) :=
    h.data _ (hdepth.le.trans (List.length_pos_iff.mpr hne))
  rw [payloadText, hread]
  rfl

theorem points_append (s t : Text) : points (s ++ t) = points s ++ points t := List.map_append

theorem receive_open (output : Str) (left : Bool) (d : Dispatched) :
    Page.receive ⟨output, true, left⟩ d = if d.event = codes "output" then
        match payloadText d.data with
        | some text => ⟨output ++ text ++ [10], true, left⟩
        | none => ⟨output, true, left⟩
      else if d.event = codes "status" then ⟨output, false, left⟩
      else ⟨output, true, left⟩ := rfl

theorem receive_output {operationId : Option Text} {text : Text} {offset : ℕ}
    (h : Received d (StreamEvent.server py clock (.output operationId text offset))) (output : Str) (left : Bool) :
    Page.receive ⟨output, true, left⟩ d = ⟨output ++ points (text ++ ['\n']), true, left⟩ := by
  have hname : d.event = codes "output" := h.event
  rw [points_append, ← List.append_assoc, receive_open, if_pos hname, payloadText_received h]
  rfl

theorem receive_reset {operationId : Text} (h : Received d (StreamEvent.server py clock (.reset operationId)))
    (output : Str) (left : Bool) : Page.receive ⟨output, true, left⟩ d = ⟨output, true, left⟩ := by
  have hname : d.event = codes "reset" := h.event
  rw [receive_open, hname, if_neg (by decide), if_neg (by decide)]

theorem receive_status {state : OperationState} (h : Received d (StreamEvent.server py clock (.status state)))
    (output : Str) (left : Bool) : Page.receive ⟨output, true, left⟩ d = ⟨output, false, left⟩ := by
  have hname : d.event = codes "status" := h.event
  rw [receive_open, hname, if_neg (by decide), if_pos rfl]

/-! ## The events of a stream on the page -/

/-- Not the status event. -/
def StreamEvent.goesOn : StreamEvent → Bool
  | .status _ => false
  | _ => true

/-- A closed source dispatches nothing. -/
theorem receive_closed (output : Str) (left : Bool) (ds : List Dispatched) :
    ds.foldl Page.receive ⟨output, false, left⟩ = ⟨output, false, left⟩ := by
  induction ds with
  | nil => rfl
  | cons d ds ih => exact ih

/-- **What the page makes of a stream**: the texts up to the status event. -/
theorem receive_all {ds : List Dispatched} {es : List StreamEvent}
    (h : List.Forall₂ (fun d e => Received d (StreamEvent.server py clock e)) ds es) (output : Str) (left : Bool) :
    ds.foldl Page.receive ⟨output, true, left⟩
      = ⟨output ++ points ((es.takeWhile StreamEvent.goesOn).flatMap StreamEvent.text),
        es.all StreamEvent.goesOn, left⟩ := by
  induction h generalizing output with
  | nil => simp [points]
  | @cons d e ds es hd hrest ih =>
    rw [List.foldl_cons]
    cases e with
    | output operationId text offset =>
      have htext : (StreamEvent.output operationId text offset).text = text ++ ['\n'] := rfl
      rw [receive_output hd, ih, List.takeWhile_cons_of_pos rfl, List.flatMap_cons, htext,
        points_append (text ++ ['\n']), List.append_assoc]
      rfl
    | reset operationId =>
      rw [receive_reset hd, ih, List.takeWhile_cons_of_pos rfl]
      rfl
    | status state =>
      rw [receive_status hd, receive_closed, List.takeWhile_cons_of_neg Bool.false_ne_true]
      simp [StreamEvent.goesOn, points]

/-! ## The stream on the page -/

/-- The events of a stream are received. -/
theorem received_stream {es : List StreamEvent} {texts : List Str}
    (htexts : (es.map (StreamEvent.server py clock)).mapM sse = some texts) :
    List.Forall₂ (fun d e => Received d (StreamEvent.server py clock e)) (parse texts.flatten) es := by
  obtain ⟨lines, hlines, hone, hmark, hreceived⟩ := received_lines htexts
  rw [parse, if_neg hmark, hlines, scanLines_lines hone]
  exact List.forall₂_map_right_iff.mp (hreceived [])

/-- **What has arrived of a stream** shows the texts of its first events, up to the status event. -/
theorem after_eq {es : List StreamEvent} {texts : List Str}
    (htexts : (es.map (StreamEvent.server py clock)).mapM sse = some texts) {arrived : Str}
    (harrived : arrived <+: texts.flatten) :
    ∃ first, first <+: es ∧ (arrived = texts.flatten → first = es) ∧
      Page.after arrived = ⟨points ((first.takeWhile StreamEvent.goesOn).flatMap StreamEvent.text),
        first.all StreamEvent.goesOn, false⟩ := by
  have hall := received_stream htexts
  obtain ⟨rest, hrest⟩ := parse_isPrefix harrived
  have hfirst := List.forall₂_take (parse arrived).length hall
  rw [← hrest, List.take_left] at hfirst
  refine ⟨es.take (parse arrived).length, List.take_prefix _ _, ?_,
    (receive_all hfirst [] false).trans (by rw [List.nil_append])⟩
  rintro rfl
  rw [hall.length_eq, List.take_length]

end Received

/-! ## The status event -/

/-- The status event ends the stream: it is the last one, and nothing comes after it. -/
def EventStream.Settled (stream : EventStream) : Prop :=
  stream.events.all StreamEvent.goesOn = true ∨
    stream.position = .returned ∧ ∃ first state, stream.events = first ++ [.status state] ∧
      first.all StreamEvent.goesOn = true

theorem settled_opened (w : World) : (EventStream.opened w).Settled := .inl rfl

theorem settled_check {stream : EventStream} (w : World)
    (h : stream.events.all StreamEvent.goesOn = true) : (stream.check w).Settled := by
  rw [EventStream.check]
  split
  · exact .inl h
  · rename_i state _
    split_ifs
    · refine .inl ?_
      simp only [List.all_append, h]
      rfl
    · exact .inr ⟨rfl, stream.events, state, rfl, h⟩
    · exact .inl h

theorem settled_resume {stream : EventStream} (w : World) (h : stream.Settled) : (stream.resume w).Settled := by
  have hread : ∀ replaced, stream.position ≠ .returned → (stream.read w replaced).Settled := by
    intro replaced hposition
    rcases h with h | ⟨hreturned, -⟩
    · rw [EventStream.read]
      dsimp only
      split_ifs
      · exact settled_check w h
      · refine .inl ?_
        simp only [List.all_append, h]
        rfl
    · exact absurd hreturned hposition
  rw [EventStream.resume]
  split
  · rename_i hasleep
    exact hread none fun h => by
      rw [hasleep] at h
      cases h
  · rename_i replaced hreading
    exact hread replaced fun h => by
      rw [hreading] at h
      cases h
  · exact h

theorem settled_step {settings : Settings} {s s' : Streaming} {e : StreamingEvent}
    (hs : ∀ stream ∈ s.stream, stream.Settled) (h : Streaming.step settings s e = some s') :
    ∀ stream ∈ s'.stream, stream.Settled := by
  cases e with
  | connect =>
    cases h
    rintro _ ⟨⟩
    exact settled_resume _ (settled_opened _)
  | resume =>
    obtain ⟨stream, hstream, rfl⟩ := Option.map_eq_some_iff.mp h
    rintro _ ⟨⟩
    exact settled_resume _ (hs stream hstream)
  | service e =>
    obtain ⟨w', -, rfl⟩ := Option.map_eq_some_iff.mp h
    have hreplaced : ∀ log, ∀ stream ∈ s.stream.map fun stream => stream.replaceLog log, stream.Settled := by
      intro log stream' hstream'
      obtain ⟨stream, hstream, rfl⟩ := Option.map_eq_some_iff.mp hstream'
      rcases hs stream hstream with h | ⟨hreturned, hlast⟩
      · exact .inl h
      · refine .inr ⟨?_, hlast⟩
        show stream.position.replaceLog log = .returned
        rw [hreturned]
        rfl
    cases e with
    | start request hex time =>
      intro stream hstream
      change stream ∈ (if _ then _ else _ : Option EventStream) at hstream
      split_ifs at hstream
      · exact hs stream hstream
      · exact hreplaced _ stream hstream
    | restart => exact fun _ h => by cases h
    | _ => exact hs

/-! ## From the service to the page -/

theorem takeWhile_goesOn {es : List StreamEvent} (h : es.all StreamEvent.goesOn = true) :
    es.takeWhile StreamEvent.goesOn = es :=
  List.takeWhile_eq_self_iff.mpr (List.all_eq_true.mp h)

/-- The texts up to the status event are all texts. -/
theorem settled_text {stream : EventStream} (h : stream.Settled) :
    (stream.events.takeWhile StreamEvent.goesOn).flatMap StreamEvent.text = stream.text := by
  rcases h with h | ⟨-, first, state, hevents, hfirst⟩
  · rw [takeWhile_goesOn h]
    rfl
  · have hall : ∀ e ∈ first, e.goesOn = true := List.all_eq_true.mp hfirst
    rw [EventStream.text, hevents, List.takeWhile_append_of_pos hall,
      List.takeWhile_cons_of_neg Bool.false_ne_true, List.flatMap_append, List.flatMap_append]
    rfl

/-- The texts of the first events are first texts. -/
theorem text_isPrefix {first es : List StreamEvent} (h : first <+: es) :
    (first.takeWhile StreamEvent.goesOn).flatMap StreamEvent.text
      <+: (es.takeWhile StreamEvent.goesOn).flatMap StreamEvent.text := by
  obtain ⟨rest, rfl⟩ := h
  rw [List.takeWhile_append]
  split_ifs with hall
  · rw [(List.takeWhile_prefix _).eq_of_length hall, List.flatMap_append]
    exact List.prefix_append _ _
  · exact List.prefix_rfl

section Page

variable {T : Type} {py : Pydantic T} {clock : ℕ → T} {settings : Settings} {events : List StreamingEvent}
  {s : Streaming} {stream : EventStream} {X : Text} {texts : List Str}

end Page

/-- The stream of a client that watches `sampleWatchedBuild` to its end. -/
def watchedStream : Option EventStream :=
  (Transition.run (Streaming.step .default) .fresh (sampleWatchedBuild ++ [.resume])).bind Streaming.stream

/-- A clock that stands still. -/
def sampleClock (_ : ℕ) : Timestamp.UtcTime := (StateStore.countedState 0).createdAt

end HardwareTest.Runner
