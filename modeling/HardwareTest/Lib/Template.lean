import Mathlib.Data.List.Basic

/-!
# Lists of words with fields

A word is written once with fields in it, and filled in later with a value for each field.  What a
filled word is depends on the fields it carries and on nothing else, so two ways of filling in a list
of words agree at every position whose word carries no field on which they differ.

* `Word.fill_congr` — filling in looks only at the fields of the word;
* `fill_agree` — two fillings have one length, and one word wherever their fields have one value;
* `Word.head_fill` — what a filled word starts with.
-/

namespace HardwareTest.Lib.Template

variable {F α : Type*}

/-- A part of a word: fixed letters, or a field. -/
inductive Part (F α : Type*)
  | fixed (s : List α)
  | field (f : F)

/-- A word: its parts, one after the other. -/
abbrev Word (F α : Type*) := List (Part F α)

namespace Part

def fill (value : F → List α) : Part F α → List α
  | fixed s => s
  | field f => value f

@[simp] theorem fill_fixed (value : F → List α) (s : List α) : (fixed s : Part F α).fill value = s := rfl

@[simp] theorem fill_field (value : F → List α) (f : F) : (field f : Part F α).fill value = value f := rfl

/-- The field that a part stands for, if it does. -/
def field? : Part F α → Option F
  | fixed _ => none
  | field f => some f

end Part

namespace Word

/-- A word without fields. -/
def const (s : List α) : Word F α := [.fixed s]

/-- A word that is one field. -/
def var (f : F) : Word F α := [.field f]

def fill (value : F → List α) (w : Word F α) : List α := w.flatMap (Part.fill value)

/-- The fields that a word carries. -/
def fields (w : Word F α) : List F := w.filterMap Part.field?

@[simp] theorem fill_nil (value : F → List α) : fill value ([] : Word F α) = [] := rfl

@[simp] theorem fill_cons (value : F → List α) (p : Part F α) (w : Word F α) :
    fill value (p :: w) = p.fill value ++ fill value w := rfl

@[simp] theorem fill_const (value : F → List α) (s : List α) : fill value (const s : Word F α) = s :=
  List.append_nil s

@[simp] theorem fill_var (value : F → List α) (f : F) : fill value (var f : Word F α) = value f :=
  List.append_nil (value f)

@[simp] theorem fields_nil : fields ([] : Word F α) = [] := rfl

@[simp] theorem fields_const (s : List α) : fields (const s : Word F α) = [] := rfl

@[simp] theorem fields_var (f : F) : fields (var f : Word F α) = [f] := rfl

@[simp] theorem fields_fixed_cons (s : List α) (w : Word F α) : fields (.fixed s :: w) = fields w := rfl

@[simp] theorem fields_field_cons (f : F) (w : Word F α) : fields (.field f :: w) = f :: fields w := rfl

/-- **Filling in looks only at the fields of the word.** -/
theorem fill_congr {value value' : F → List α} {w : Word F α} (h : ∀ f ∈ w.fields, value f = value' f) :
    w.fill value = w.fill value' := by
  induction w with
  | nil => rfl
  | cons p w ih =>
    cases p with
    | fixed s =>
      show s ++ fill value w = s ++ fill value' w
      rw [ih h]
    | field f =>
      show value f ++ fill value w = value' f ++ fill value' w
      rw [h f List.mem_cons_self, ih fun g hg => h g (List.mem_cons_of_mem f hg)]

/-- A word that begins with letters, or with a field that has some, begins with the first of them. -/
theorem head_fill (value : F → List α) {p : Part F α} (w : Word F α) {a : α}
    (h : (p.fill value).head? = some a) : (fill value (p :: w)).head? = some a := by
  show (p.fill value ++ fill value w).head? = some a
  rw [List.head?_append, h, Option.some_or]

end Word

/-- Filling in every word of a list. -/
def fill (value : F → List α) (ws : List (Word F α)) : List (List α) := ws.map (Word.fill value)

@[simp] theorem fill_nil (value : F → List α) : fill value ([] : List (Word F α)) = [] := rfl

@[simp] theorem fill_cons (value : F → List α) (w : Word F α) (ws : List (Word F α)) :
    fill value (w :: ws) = w.fill value :: fill value ws := rfl

@[simp] theorem fill_append (value : F → List α) (ws ws' : List (Word F α)) :
    fill value (ws ++ ws') = fill value ws ++ fill value ws' := List.map_append

@[simp] theorem length_fill (value : F → List α) (ws : List (Word F α)) :
    (fill value ws).length = ws.length := List.length_map _

theorem getElem?_fill (value : F → List α) (ws : List (Word F α)) (i : ℕ) :
    (fill value ws)[i]? = (ws[i]?).map (Word.fill value) := List.getElem?_map

/-- Words without fields are what they are. -/
theorem fill_const (value : F → List α) (ss : List (List α)) : fill value (ss.map Word.const) = ss := by
  rw [fill, List.map_map]
  exact (List.map_congr_left fun s _ => Word.fill_const value s).trans (List.map_id ss)

/-- **Two fillings** have the same length, and the same word at every position whose fields have the same
value in both. -/
theorem fill_agree (value value' : F → List α) (ws : List (Word F α)) :
    (fill value ws).length = (fill value' ws).length ∧
      ∀ (i : ℕ) (w : Word F α), ws[i]? = some w → (∀ f ∈ w.fields, value f = value' f) →
        (fill value ws)[i]? = (fill value' ws)[i]? := by
  refine ⟨by rw [length_fill, length_fill], ?_⟩
  intro i w hw hsame
  rw [getElem?_fill, getElem?_fill, hw, Option.map_some, Option.map_some, Word.fill_congr hsame]

end HardwareTest.Lib.Template
