import HardwareTest.Lib.EventSource
import HardwareTest.Lib.JsonText
import HardwareTest.Python.Shortest

/-!
# The events on the wire

`_sse` writes an event as a block of fields, with its data as JSON on one line.  Whatever the data hold,
no line of a block ends early, so that a client finds the events that were sent.

* `sse` — the text of one event;
* `Received` — what a client has of an event;
* `parse_sse` — the events of a whole stream are received.
-/

namespace HardwareTest.Runner

open HardwareTest.Lib HardwareTest.Lib.Json HardwareTest.Lib.EventSource HardwareTest.Python

/-- The names of events that the service uses. -/
inductive EventName
  | output
  | reset
  | status
  deriving DecidableEq

def EventName.text : EventName → Str
  | .output => codes "output"
  | .reset => codes "reset"
  | .status => codes "status"

/-- An event: its data are a value of the language, with doubles and with dictionaries. -/
structure ServerEvent where
  event : EventName
  data : JsonValue
  id : Option ℕ
  wellFormed : data.WellFormed PyFloat.IsDouble

/-- `str(event_id)`; `none` is the `ValueError` of an integer that is too long. -/
def eventIdText (n : ℕ) : Option Str := if n < 10 ^ Json.maxStrDigits then some (dumpsInt n) else none

/-- The lines of the identifier. -/
def idFields : Option ℕ → Option (List Str)
  | none => some []
  | some n => (eventIdText n).map fun id => [codes "id: " ++ id]

/-- `_sse`; `none` is the `ValueError`. -/
def sse (e : ServerEvent) : Option Str :=
  (idFields e.id).bind fun fields => (dumpsText e.data).map fun data =>
    [10].intercalate (fields ++ [codes "event: " ++ e.event.text, codes "data: " ++ data, []]) ++ [10]

/-- The client has the name and the identifier of the event, and its data are read as what was sent. -/
structure Received (d : Dispatched) (e : ServerEvent) : Prop where
  event : d.event = e.event.text
  id : d.id = e.id.map fun n => dumpsInt n
  data : ∀ depth, e.data.depth ≤ depth → loads depth d.data = .ok e.data

/-! ## One event -/

theorem intercalate_lines (lines : List Str) (last : Str) :
    [10].intercalate (lines ++ [last]) ++ [10] = (lines ++ [last]).flatMap fun line => line ++ [10] := by
  induction lines with
  | nil => rw [List.nil_append, List.intercalate_singleton, List.flatMap_singleton]
  | cons line lines ih =>
    have hne : lines ++ [last] ≠ [] := List.concat_ne_nil _ _
    rw [List.cons_append, List.intercalate_cons_of_ne_nil hne, List.flatMap_cons, ← ih]
    simp only [List.append_assoc]

/-- The identifier of an event as a client has it. -/
def ServerEvent.idText (e : ServerEvent) : Option Str := e.id.map fun n => dumpsInt n

theorem eventIdText_eq {n : ℕ} {id : Str} (h : eventIdText n = some id) : dumpsInt n = id :=
  Option.some.inj (Option.ite_none_right_eq_some.mp h).2

theorem ServerEvent.printed_idText (e : ServerEvent) : ∀ value ∈ e.idText, Printed value := by
  intro value hvalue
  obtain ⟨n, -, rfl⟩ := Option.map_eq_some_iff.mp hvalue
  exact fun c hc => (dumpsInt_ascii hc).1

/-- The text of an event is the lines of a block. -/
theorem sse_eq {e : ServerEvent} {t : Str} (h : sse e = some t) :
    ∃ data, dumpsText e.data = some data ∧
      t = (blockLines e.idText e.event.text data).flatMap fun line => line ++ [10] := by
  obtain ⟨fields, hfields, h⟩ := Option.bind_eq_some_iff.mp h
  obtain ⟨data, hdata, rfl⟩ := Option.map_eq_some_iff.mp h
  refine ⟨data, hdata, ?_⟩
  have hids : fields = e.idText.toList.map (fieldLine (codes "id")) := by
    rw [ServerEvent.idText]
    cases hid : e.id with
    | none =>
      rw [hid] at hfields
      exact (Option.some.inj hfields).symm
    | some n =>
      rw [hid, idFields, Option.map_eq_some_iff] at hfields
      obtain ⟨id, hn, rfl⟩ := hfields
      rw [← eventIdText_eq hn]
      rfl
  subst hids
  have hsplit : e.idText.toList.map (fieldLine (codes "id")) ++
      [codes "event: " ++ e.event.text, codes "data: " ++ data, []] = blockLines e.idText e.event.text data := rfl
  have hlast : blockLines e.idText e.event.text data = (e.idText.toList.map (fieldLine (codes "id"))
      ++ [fieldLine (codes "event") e.event.text, fieldLine (codes "data") data]) ++ [[]] := by
    rw [blockLines, List.append_assoc]
    rfl
  rw [hsplit, hlast, intercalate_lines]

theorem oneLine_of_printed {t : Str} (h : Printed t) : OneLine t := fun c hc => by
  have := h c hc
  omega

theorem printed_fieldLine {name value : Str} (hname : Printed name) (hvalue : Printed value) :
    Printed (fieldLine name value) :=
  printed_append.mpr ⟨hname, printed_cons.mpr ⟨by decide, printed_cons.mpr ⟨by decide, hvalue⟩⟩⟩

theorem EventName.printed_text (name : EventName) : Printed name.text := by
  cases name <;> decide

/-- **No line of a block ends early**, whatever the data are. -/
theorem oneLine_blockLines {e : ServerEvent} {data : Str} (h : dumpsText e.data = some data) :
    ∀ line ∈ blockLines e.idText e.event.text data, OneLine line := by
  intro line hline
  apply oneLine_of_printed
  rcases List.mem_append.mp hline with hid | hfield
  · obtain ⟨value, hvalue, rfl⟩ := List.mem_map.mp hid
    exact printed_fieldLine (by decide) (e.printed_idText value (Option.mem_toList.mp hvalue))
  · simp only [List.mem_cons, List.not_mem_nil, or_false] at hfield
    rcases hfield with rfl | rfl | rfl
    · exact printed_fieldLine (by decide) e.event.printed_text
    · exact printed_fieldLine (by decide) (printed_dumpsText _ _ h)
    · intro c hc
      cases hc

/-! ## The stream -/

/-- A stream is made of lines that end where they should, and its events are received in a client that has
read other events before. -/
theorem received_lines {events : List ServerEvent} {texts : List Str} (h : events.mapM sse = some texts) :
    ∃ lines : List Str, (texts.flatten = lines.flatMap fun line => line ++ [10]) ∧
      (∀ line ∈ lines, OneLine line) ∧ texts.flatten.head? ≠ some 0xFEFF ∧
        ∀ last, List.Forall₂ Received (parseLines (.fresh last) lines) events := by
  induction events generalizing texts with
  | nil =>
    obtain rfl := Option.some.inj h
    exact ⟨[], rfl, nofun, nofun, fun _ => .nil⟩
  | cons e events ih =>
    rw [List.mapM_cons] at h
    obtain ⟨t, ht, h⟩ := Option.bind_eq_some_iff.mp h
    obtain ⟨ts, hts, h⟩ := Option.bind_eq_some_iff.mp h
    obtain rfl := Option.some.inj h
    obtain ⟨data, hdata, rfl⟩ := sse_eq ht
    obtain ⟨lines, hlines, hone, -, hreceived⟩ := ih hts
    refine ⟨blockLines e.idText e.event.text data ++ lines, ?_, ?_, ?_, fun last => ?_⟩
    · rw [List.flatten_cons, hlines, List.flatMap_append]
    · exact List.forall_mem_append.mpr ⟨oneLine_blockLines hdata, hone⟩
    · cases e.idText with
      | none => exact fun hmark => absurd (show some 101 = some 0xFEFF from hmark) (by decide)
      | some id => exact fun hmark => absurd (show some 105 = some 0xFEFF from hmark) (by decide)
    · have hid : ∀ value ∈ e.idText, 0 ∉ value := fun value hvalue hmem =>
        absurd (e.printed_idText value hvalue 0 hmem) (by decide)
      have hname : e.event.text ≠ [] := by
        cases e.event <;> decide
      rw [parseLines_block last e.idText hid hname]
      refine .cons ⟨rfl, rfl, fun depth hdepth => ?_⟩ (hreceived _)
      exact loads_dumpsText (fun _ => PyFloat.readsBack_of_isDouble) e.wellFormed hdata hdepth

/-- **The events of a stream are received.**  For every sequence of events whose texts can be written: a
client that reads the texts one after the other finds exactly these events, each with its name and its own
identifier or none, and with data that are read as the data that were sent. -/
theorem parse_sse {events : List ServerEvent} {texts : List Str} (h : events.mapM sse = some texts) :
    List.Forall₂ Received (parse texts.flatten) events := by
  obtain ⟨lines, hlines, hone, hmark, hreceived⟩ := received_lines h
  rw [parse, if_neg hmark, hlines, scanLines_lines hone]
  exact hreceived []

/-- A line of the log that looks like the end of an event and the start of another. -/
def forgedOutput : ServerEvent where
  event := .output
  data := .dict [(codes "operation_id", .null), (codes "text", .str (codes "a\r\n\nevent: reset\u2028"))]
  id := some 7
  wellFormed := ⟨⟨trivial, trivial, trivial⟩, by decide⟩

def lastStatus : ServerEvent where
  event := .status
  data := .dict [(codes "status", .str (codes "succeeded"))]
  id := none
  wellFormed := ⟨⟨trivial, trivial⟩, by decide⟩

def forgedText : Str :=
  codes "id: 7\nevent: output\n"
    ++ codes "data: \x7b\"operation_id\": null, \"text\": \"a\\r\\n\\nevent: reset\u2028\"\x7d\n\n"

theorem parse_sse_forged :
    List.Forall₂ Received
      (parse [forgedText,
        codes "event: status\ndata: \x7b\"status\": \"succeeded\"\x7d\n\n"].flatten)
      [forgedOutput, lastStatus] := by
  have hshort : 7 < 10 ^ Json.maxStrDigits :=
    lt_of_lt_of_le (by decide) (Nat.le_self_pow (by decide) 10)
  have hnumber : eventIdText 7 = some (dumpsInt 7) := if_pos hshort
  have hid : idFields (some 7) = some [codes "id: 7"] := by
    rw [idFields, hnumber]
    rfl
  have hseven : forgedOutput.id = some 7 := rfl
  have houtput : sse forgedOutput = some forgedText := by
    rw [sse, hseven, hid]
    rfl
  refine parse_sse ?_
  rw [List.mapM_cons, houtput]
  rfl

end HardwareTest.Runner
