import HardwareTest.Lib.Json

/-!
# Server-sent events

How a client reads a stream of events: the stream is cut into lines, a line is a field or a comment, and a
blank line dispatches what the fields before it have said.  The last identifier of a stream stays with the
client when later events name none, so a dispatched event also holds the identifier of its own fields.

* `scanLines`, `interpret`, `parse` — the rules of the stream;
* `parse_isPrefix` — the events of what has arrived so far;
* `scanLines_lines`, `interpret_field` — lines and fields as a server writes them;
* `parseLines_block` — a block of fields is one event.
-/

namespace HardwareTest.Lib.EventSource

open HardwareTest.Lib.Json (Str codes)

/-! ## Reading -/

/-- The lines of a stream, from inside a line; `afterCr` after a CR, whose LF ends no further line.  What
follows the last end of a line is dropped: it can dispatch nothing. -/
def scanLines : Bool → Str → Str → List Str
  | _, _, [] => []
  | afterCr, line, c :: s =>
    if c = 10 then if afterCr then scanLines false [] s else line :: scanLines false [] s
    else if c = 13 then line :: scanLines true [] s
    else scanLines false (line ++ [c]) s

structure Dispatched where
  event : Str
  data : Str
  id : Option Str
  lastEventId : Str
  deriving DecidableEq

/-- What the fields since the last dispatch have said, and the last identifier of the stream. -/
structure Buffers where
  eventType : Str
  data : Str
  id : Option Str
  lastEventId : Str
  deriving DecidableEq

def Buffers.fresh (lastEventId : Str) : Buffers := ⟨[], [], none, lastEventId⟩

/-- The name and the value of a field: one space after the colon belongs to neither. -/
def splitField (line : Str) : Str × Str :=
  (line.takeWhile (· ≠ 58),
    match line.dropWhile (· ≠ 58) with
    | [] => []
    | _ :: 32 :: value => value
    | _ :: value => value)

/-- A field.  `retry` sets the time of the next connection, which no event shows; other fields are
ignored. -/
def Buffers.setField (b : Buffers) (name value : Str) : Buffers :=
  if name = codes "event" then { b with eventType := value }
  else if name = codes "data" then { b with data := b.data ++ value ++ [10] }
  else if name = codes "id" then
    if 0 ∈ value then b else { b with id := some value, lastEventId := value }
  else b

/-- Without data there is no event. -/
def Buffers.dispatch (b : Buffers) : List Dispatched :=
  if b.data = [] then []
  else
    [{ event := if b.eventType = [] then codes "message" else b.eventType
       data := if b.data.getLast? = some 10 then b.data.dropLast else b.data
       id := b.id
       lastEventId := b.lastEventId }]

/-- One line: a blank one dispatches, one that starts with a colon is a comment. -/
def interpret (b : Buffers) (line : Str) : Buffers × List Dispatched :=
  if line = [] then (.fresh b.lastEventId, b.dispatch)
  else if line.head? = some 58 then (b, [])
  else (b.setField (splitField line).1 (splitField line).2, [])

def parseLines : Buffers → List Str → List Dispatched
  | _, [] => []
  | b, line :: lines => (interpret b line).2 ++ parseLines (interpret b line).1 lines

/-- The events of a stream; a byte order mark at its start is dropped. -/
def parse (s : Str) : List Dispatched :=
  parseLines (.fresh []) (scanLines false [] (if s.head? = some 0xFEFF then s.tail else s))

/-! ## A stream in pieces -/

theorem scanLines_isPrefix (afterCr : Bool) (line s t : Str) :
    scanLines afterCr line s <+: scanLines afterCr line (s ++ t) := by
  induction s generalizing afterCr line with
  | nil =>
    rw [scanLines]
    exact List.nil_prefix
  | cons c s ih =>
    rw [List.cons_append, scanLines, scanLines]
    split_ifs
    · exact ih _ _
    · exact List.cons_prefix_cons.mpr ⟨rfl, ih _ _⟩
    · exact List.cons_prefix_cons.mpr ⟨rfl, ih _ _⟩
    · exact ih _ _

theorem parseLines_isPrefix (b : Buffers) (lines rest : List Str) :
    parseLines b lines <+: parseLines b (lines ++ rest) := by
  induction lines generalizing b with
  | nil => exact List.nil_prefix
  | cons line lines ih =>
    rw [List.cons_append, parseLines, parseLines]
    exact (List.prefix_append_right_inj _).mpr (ih _)

/-- **What has arrived decides**: the events of a part of a stream stay its first events. -/
theorem parse_isPrefix {s t : Str} (h : s <+: t) : parse s <+: parse t := by
  obtain ⟨rest, rfl⟩ := h
  cases s with
  | nil => exact List.nil_prefix
  | cons c s =>
    have hscan : ∀ u : Str, parseLines (.fresh []) (scanLines false [] u)
        <+: parseLines (.fresh []) (scanLines false [] (u ++ rest)) := by
      intro u
      obtain ⟨more, hmore⟩ := scanLines_isPrefix false [] u rest
      rw [← hmore]
      exact parseLines_isPrefix _ _ _
    rw [parse, parse, List.cons_append, List.head?_cons, List.head?_cons]
    split_ifs
    · exact hscan s
    · exact hscan (c :: s)

/-! ## Lines and fields as a server writes them -/

/-- A text that ends no line. -/
def OneLine (line : Str) : Prop := ∀ c ∈ line, c ≠ 10 ∧ c ≠ 13

instance (line : Str) : Decidable (OneLine line) := inferInstanceAs (Decidable (∀ c ∈ line, _))

theorem scanLines_line {line : Str} (h : OneLine line) (start s : Str) :
    scanLines false start (line ++ 10 :: s) = (start ++ line) :: scanLines false [] s := by
  induction line generalizing start with
  | nil => rw [List.nil_append, List.append_nil, scanLines, if_pos rfl, if_neg Bool.false_ne_true]
  | cons c line ih =>
    obtain ⟨hc, hline⟩ := List.forall_mem_cons.mp h
    rw [List.cons_append, scanLines, if_neg hc.1, if_neg hc.2, ih hline, List.append_assoc]
    rfl

/-- Lines that are each ended by a line feed are read as they are. -/
theorem scanLines_lines {lines : List Str} (h : ∀ line ∈ lines, OneLine line) :
    scanLines false [] (lines.flatMap fun line => line ++ [10]) = lines := by
  induction lines with
  | nil => rfl
  | cons line lines ih =>
    obtain ⟨hline, hlines⟩ := List.forall_mem_cons.mp h
    rw [List.flatMap_cons, List.append_assoc]
    exact (scanLines_line hline [] _).trans (congrArg (line :: ·) (ih hlines))

/-- The line of a field. -/
def fieldLine (name value : Str) : Str := name ++ 58 :: 32 :: value

theorem splitField_fieldLine {name : Str} (h : 58 ∉ name) (value : Str) :
    splitField (fieldLine name value) = (name, value) := by
  have hname : ∀ c ∈ name, decide (c ≠ 58) = true := fun c hc => decide_eq_true fun heq => h (heq ▸ hc)
  have htake : (fieldLine name value).takeWhile (· ≠ 58) = name := by
    rw [fieldLine, List.takeWhile_append_of_pos hname]
    exact List.append_nil name
  have hdrop : (fieldLine name value).dropWhile (· ≠ 58) = 58 :: 32 :: value :=
    List.dropWhile_append_of_pos hname
  rw [splitField, htake, hdrop]
  rfl

/-- A field is set, and nothing is dispatched. -/
theorem interpret_field (b : Buffers) {name : Str} (hne : name ≠ []) (h : 58 ∉ name) (value : Str) :
    interpret b (fieldLine name value) = (b.setField name value, []) := by
  obtain ⟨c, rest, rfl⟩ := List.exists_cons_of_ne_nil hne
  have hcolon : (fieldLine (c :: rest) value).head? ≠ some 58 := fun hhead =>
    h (Option.some.inj hhead ▸ List.mem_cons_self)
  have hblank : fieldLine (c :: rest) value ≠ [] := List.cons_ne_nil _ _
  rw [interpret, if_neg hblank, if_neg hcolon, splitField_fieldLine h]

theorem parseLines_field (b : Buffers) {name : Str} (hne : name ≠ []) (h : 58 ∉ name) (value : Str)
    (lines : List Str) :
    parseLines b (fieldLine name value :: lines) = parseLines (b.setField name value) lines := by
  rw [parseLines, interpret_field b hne h]
  rfl

theorem Buffers.setField_event (b : Buffers) (value : Str) :
    b.setField (codes "event") value = { b with eventType := value } := if_pos rfl

theorem Buffers.setField_data (b : Buffers) (value : Str) :
    b.setField (codes "data") value = { b with data := b.data ++ value ++ [10] } :=
  (if_neg (by decide)).trans (if_pos rfl)

theorem Buffers.setField_id (b : Buffers) {value : Str} (h : 0 ∉ value) :
    b.setField (codes "id") value = { b with id := some value, lastEventId := value } :=
  (if_neg (by decide)).trans ((if_neg (by decide)).trans ((if_pos rfl).trans (if_neg h)))

/-- Data of one line is dispatched without its end. -/
theorem Buffers.dispatch_one {event : Str} (hevent : event ≠ []) (data : Str) (id : Option Str) (last : Str) :
    Buffers.dispatch ⟨event, data ++ [10], id, last⟩ = [⟨event, data, id, last⟩] := by
  have hlast : (data ++ [10]).getLast? = some 10 := List.getLast?_concat
  have hne : data ++ [10] ≠ [] := List.concat_ne_nil _ _
  rw [dispatch, if_neg hne, if_neg hevent, if_pos hlast, List.dropLast_concat]

/-- The lines of an event that a server writes: an identifier or none, a name, and data on one line. -/
def blockLines (id : Option Str) (event data : Str) : List Str :=
  id.toList.map (fieldLine (codes "id"))
    ++ [fieldLine (codes "event") event, fieldLine (codes "data") data, []]

/-- **A block of fields is one event**, with the identifier of this block, and the next block starts
afresh. -/
theorem parseLines_block (last : Str) (id : Option Str) (hid : ∀ value ∈ id, 0 ∉ value) {event : Str}
    (hevent : event ≠ []) (data : Str) (lines : List Str) :
    parseLines (.fresh last) (blockLines id event data ++ lines)
      = ⟨event, data, id, id.getD last⟩ :: parseLines (.fresh (id.getD last)) lines := by
  have hrest : ∀ last' : Str,
      parseLines ⟨[], [], id, last'⟩
          (fieldLine (codes "event") event :: fieldLine (codes "data") data :: [] :: lines)
        = ⟨event, data, id, last'⟩ :: parseLines (.fresh last') lines := by
    intro last'
    rw [parseLines_field _ (by decide) (by decide), parseLines_field _ (by decide) (by decide),
      Buffers.setField_event, Buffers.setField_data, List.nil_append, parseLines, interpret, if_pos rfl,
      Buffers.dispatch_one hevent]
    rfl
  cases id with
  | none => exact hrest last
  | some value =>
    show parseLines (.fresh last) (fieldLine (codes "id") value :: _) = _
    rw [parseLines_field _ (by decide) (by decide), Buffers.setField_id _ (hid value rfl)]
    exact hrest value

/-- Any end of a line will do; an event keeps its own identifier, the client the last one. -/
example : parse (codes ": hi\r\nid: 1\revent: a\ndata: x\ndata:y\n\ndata: z\n\nid: 2\n\ndata: lost")
    = [⟨codes "a", codes "x\ny", some (codes "1"), codes "1"⟩, ⟨codes "message", codes "z", none, codes "1"⟩] := by
  decide +kernel

end HardwareTest.Lib.EventSource
