import Mathlib.Data.List.Basic

/-!
# Options on a command line

A program reads its arguments one word after another.  Where it looks for an option, it takes a word
for an option, for an operand or for the end of the options; after an option with a value it takes the
next word as the value.  Which words are which is the program's own; how the words make up a line is not.

* `Convention` — what a program takes its words for;
* `read` — the options and operands of a line;
* `read_line` — what is written for a program is read back;
* `values` — the values that an option is given.
-/

namespace HardwareTest.Lib.Options

variable {W : Type*}

/-- What a word is where an option may stand. -/
inductive Kind (W : Type*)
  | flag (name : W)
  | option (name : W)
  | assigned (name value : W)
  | operand
  | terminator
  | refused
  deriving DecidableEq

/-- How a program reads its words. -/
structure Convention (W : Type*) where
  kind : W → Kind W
  /-- Whether a word can be the value of the option before it. -/
  isValue : W → Bool
  /-- Whether options may stand after operands. -/
  interspersed : Bool

inductive Item (W : Type*)
  | flag (name : W)
  | option (name value : W)
  | operand (word : W)
  deriving DecidableEq

/-- The words that an item is written with. -/
def Item.words : Item W → List W
  | flag name => [name]
  | option name value => [name, value]
  | operand word => [word]

def line (items : List (Item W)) : List W := items.flatMap Item.words

@[simp] theorem line_nil : line ([] : List (Item W)) = [] := rfl

@[simp] theorem line_cons (item : Item W) (items : List (Item W)) :
    line (item :: items) = item.words ++ line items := rfl

@[simp] theorem line_append (items items' : List (Item W)) :
    line (items ++ items') = line items ++ line items' := List.flatMap_append

/-- The operands of a line, in order. -/
def operands (items : List (Item W)) : List W :=
  items.filterMap fun
    | .operand word => some word
    | _ => none

/-- Whether an item is an option, with or without a value. -/
def Item.isOption : Item W → Bool
  | flag _ => true
  | option _ _ => true
  | operand _ => false

@[simp] theorem operands_append (items items' : List (Item W)) :
    operands (items ++ items') = operands items ++ operands items' := List.filterMap_append

@[simp] theorem operands_operands (words : List W) : operands (words.map .operand) = words := by
  induction words with
  | nil => rfl
  | cons word words ih => exact congrArg (word :: ·) ih

theorem operands_options {items : List (Item W)} (h : ∀ item ∈ items, item.isOption = true) :
    operands items = [] := by
  rw [operands, List.filterMap_eq_nil_iff]
  intro item hitem
  cases item with
  | flag name => rfl
  | option name value => rfl
  | operand word => cases h _ hitem

theorem filter_isOption_operands (words : List W) :
    (words.map Item.operand).filter Item.isOption = [] := by
  rw [List.filter_eq_nil_iff]
  intro item hitem
  obtain ⟨word, -, rfl⟩ := List.mem_map.mp hitem
  exact Bool.false_ne_true

/-- One option, written once for each of a list. -/
theorem line_map_option (name : W) (words : List W) :
    line (words.map fun word => Item.option name word) = words.flatMap fun word => [name, word] := by
  induction words with
  | nil => rfl
  | cons word words ih => exact congrArg (name :: word :: ·) ih

/-! ## Reading -/

/-- The items of a line, read after the name of an option that still lacks its value, or after none. -/
def readAfter (c : Convention W) : Option W → List W → Option (List (Item W))
  | none, [] => some []
  | some _, [] => none
  | some name, word :: rest =>
    if c.isValue word then (readAfter c none rest).map (.option name word :: ·) else none
  | none, word :: rest =>
    match c.kind word with
    | .flag name => (readAfter c none rest).map (.flag name :: ·)
    | .option name => readAfter c (some name) rest
    | .assigned name value => (readAfter c none rest).map (.option name value :: ·)
    | .operand =>
      if c.interspersed then (readAfter c none rest).map (.operand word :: ·)
      else some ((word :: rest).map .operand)
    | .terminator => some (rest.map .operand)
    | .refused => none

def read (c : Convention W) (words : List W) : Option (List (Item W)) := readAfter c none words

/-! ## Reading what was written -/

/-- The words of an item are taken for this item. -/
def Convention.Takes (c : Convention W) : Item W → Prop
  | .flag name => c.kind name = .flag name
  | .option name value => c.kind name = .option name ∧ c.isValue value = true
  | .operand word => c.kind word = .operand ∧ c.interspersed = true

variable {c : Convention W}

/-- **One item** is read from the front of a line. -/
theorem read_words {item : Item W} (h : c.Takes item) (rest : List W) :
    read c (item.words ++ rest) = (read c rest).map (item :: ·) := by
  cases item with
  | flag name =>
    have hkind : c.kind name = .flag name := h
    simp only [read, Item.words, List.cons_append, List.nil_append, readAfter, hkind]
  | option name value =>
    obtain ⟨hkind, hvalue⟩ := h
    simp only [read, Item.words, List.cons_append, List.nil_append, readAfter, hkind, hvalue, if_true]
  | operand word =>
    obtain ⟨hkind, hinterspersed⟩ := h
    simp only [read, Item.words, List.cons_append, List.nil_append, readAfter, hkind, hinterspersed,
      if_true]

theorem read_line_append {items : List (Item W)} (h : ∀ item ∈ items, c.Takes item) (rest : List W) :
    read c (line items ++ rest) = (read c rest).map (items ++ ·) := by
  induction items with
  | nil => simp
  | cons item items ih =>
    obtain ⟨hitem, hitems⟩ := List.forall_mem_cons.mp h
    rw [line_cons, List.append_assoc, read_words hitem, ih hitems, Option.map_map]
    rfl

/-- **What is written is read back.** -/
theorem read_line {items : List (Item W)} (h : ∀ item ∈ items, c.Takes item) :
    read c (line items) = some items := by
  have hread := read_line_append h []
  rw [List.append_nil] at hread
  rw [hread, read, readAfter, Option.map_some, List.append_nil]

/-- Where no option may stand after an operand, the first operand ends the options. -/
theorem read_operand {word : W} (hkind : c.kind word = .operand) (hinterspersed : c.interspersed = false)
    (rest : List W) : read c (word :: rest) = some ((word :: rest).map .operand) := by
  simp only [read, readAfter, hkind, hinterspersed, Bool.false_eq_true, if_false]

/-- **Options before operands**: the options are read back, and all that follows is an operand. -/
theorem read_line_operand {items : List (Item W)} (h : ∀ item ∈ items, c.Takes item) {word : W}
    (hkind : c.kind word = .operand) (hinterspersed : c.interspersed = false) (rest : List W) :
    read c (line items ++ word :: rest) = some (items ++ (word :: rest).map .operand) := by
  rw [read_line_append h, read_operand hkind hinterspersed, Option.map_some]

/-! ## Values -/

section Values

variable [DecidableEq W]

/-- The values that an option is given, from the first to the last. -/
def values (name : W) (items : List (Item W)) : List W :=
  items.filterMap fun
    | .option other value => if other = name then some value else none
    | _ => none

/-- The value of an option: the last one given counts. -/
def value? (name : W) (items : List (Item W)) : Option W := (values name items).getLast?

@[simp] theorem values_append (name : W) (items items' : List (Item W)) :
    values name (items ++ items') = values name items ++ values name items' := List.filterMap_append

theorem values_option (name value : W) (items : List (Item W)) :
    values name (.option name value :: items) = value :: values name items :=
  List.filterMap_cons_some (if_pos rfl)

theorem values_other {name other : W} (h : other ≠ name) (value : W) (items : List (Item W)) :
    values name (.option other value :: items) = values name items :=
  List.filterMap_cons_none (if_neg h)

/-- One option, given once for each of a list. -/
theorem values_map_option {α : Type*} (name : W) (value : α → W) (as : List α) :
    values name (as.map fun a => Item.option name (value a)) = as.map value := by
  induction as with
  | nil => rfl
  | cons a as ih => rw [List.map_cons, List.map_cons, values_option, ih]

theorem values_map_other {α : Type*} {name other : W} (h : other ≠ name) (value : α → W) (as : List α) :
    values name (as.map fun a => Item.option other (value a)) = [] := by
  induction as with
  | nil => rfl
  | cons a as ih => rw [List.map_cons, values_other h, ih]

@[simp] theorem values_flag (name other : W) (items : List (Item W)) :
    values name (.flag other :: items) = values name items := rfl

@[simp] theorem values_operand (name word : W) (items : List (Item W)) :
    values name (.operand word :: items) = values name items := rfl

end Values

end HardwareTest.Lib.Options
