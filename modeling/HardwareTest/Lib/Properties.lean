import HardwareTest.Lib.Json
import HardwareTest.Lib.Yaml

/-!
# Property files

The line-oriented format of `java.util.Properties.load`, over UTF-16 code units.  Natural lines that are
blank or comments are left out; a line whose end is escaped continues on the next one.  The key of a
logical line ends at the first `=`, `:` or blank that is not escaped.

* `logicalLines`, `entry`, `load` — the reader;
* `Spells` — keys and values in which every special character is escaped;
* `load_lines` — one line for each entry, read back as the entries.
-/

namespace HardwareTest.Lib.Properties

open HardwareTest.Lib.Json (Str hex4 escapeUnit)

/-! ## Lines -/

def isBlank (c : ℕ) : Bool := c == 32 || c == 9 || c == 12

def isEnd (c : ℕ) : Bool := c == 10 || c == 13

/-- Where the reader stands: before a logical line, in a comment, in a logical line of which it holds a
part (with an odd number of backslashes at its end, when `escaped`), or at the start of a natural line
that continues a logical one (right after a CR, when `afterCr`). -/
inductive Place
  | start
  | comment
  | body (escaped : Bool) (line : Str)
  | continued (afterCr : Bool) (line : Str)

/-- The logical lines from a place on. -/
def scan : Place → Str → List Str
  | .start, [] => []
  | .comment, [] => []
  | .body escaped line, [] => [if escaped then line.dropLast else line]
  | .continued _ line, [] => [line]
  | .start, c :: s =>
    if isBlank c || isEnd c then scan .start s
    else if c = 35 ∨ c = 33 then scan .comment s
    else scan (.body (c == 92) [c]) s
  | .comment, c :: s => if isEnd c then scan .start s else scan .comment s
  | .body escaped line, c :: s =>
    if isEnd c then
      if escaped then
        -- a continuation of nothing is the start of a logical line
        if line.dropLast = [] then scan .start s else scan (.continued (c == 13) line.dropLast) s
      else line :: scan .start s
    else scan (.body (c == 92 && !escaped) (line ++ [c])) s
  | .continued afterCr line, c :: s =>
    if afterCr && c == 10 then scan (.continued false line) s
    else if isBlank c then scan (.continued false line) s
    else if isEnd c then line :: scan .start s
    else scan (.body (c == 92) (line ++ [c])) s

def logicalLines (s : Str) : List Str := scan .start s

/-! ## Keys and values -/

/-- The key of a logical line, and what follows it. -/
def splitKey : Bool → Str → Str × Str
  | _, [] => ([], [])
  | escaped, c :: s =>
    if !escaped && (c == 61 || c == 58 || isBlank c) then ([], c :: s)
    else (c :: (splitKey (c == 92 && !escaped) s).1, (splitKey (c == 92 && !escaped) s).2)

/-- The value after a key: blanks around one separator are left out. -/
def valueOf (s : Str) : Str :=
  match s.dropWhile isBlank with
  | 61 :: r => r.dropWhile isBlank
  | 58 :: r => r.dropWhile isBlank
  | r => r

/-- The character that an escape stands for: the backslash before any other character is dropped. -/
def escaped (c : ℕ) : ℕ :=
  if c = 116 then 9 else if c = 110 then 10 else if c = 114 then 13 else if c = 102 then 12 else c

/-- The escapes of a key or a value; `none` when a Unicode escape is malformed. -/
def unescape : Str → Option Str
  | [] => some []
  | 92 :: 117 :: a :: b :: c :: d :: s => (hex4 a b c d).bind fun u => (unescape s).map (u :: ·)
  | 92 :: 117 :: _ => none
  | 92 :: c :: s => (unescape s).map (escaped c :: ·)
  | c :: s => (unescape s).map (c :: ·)

def entry (line : Str) : Option (Str × Str) :=
  (unescape (splitKey false line).1).bind fun key =>
    (unescape (valueOf (splitKey false line).2)).map fun value => (key, value)

/-- `Properties.load`; `none` is the `IllegalArgumentException`. -/
def load (s : Str) : Option (List (Str × Str)) :=
  ((logicalLines s).mapM entry).map keepLast

/-! ## Writing -/

/-- A character that stands for itself anywhere on a line. -/
def Plain (c : ℕ) : Prop := ¬isBlank c ∧ ¬isEnd c ∧ c ≠ 92 ∧ c ≠ 61 ∧ c ≠ 58 ∧ c ≠ 35 ∧ c ≠ 33

instance (c : ℕ) : Decidable (Plain c) := inferInstanceAs (Decidable (_ ∧ _))

/-- `Spells w u`: the text `w` is made of plain characters and escapes, and stands for the code units
`u`. -/
inductive Spells : Str → Str → Prop
  | nil : Spells [] []
  | plain {c : ℕ} {w u : Str} (hc : Plain c) (h : Spells w u) : Spells (c :: w) (c :: u)
  | escape {c : ℕ} {w u : Str} (hc : c ≠ 117 ∧ ¬isEnd c) (h : Spells w u) :
    Spells (92 :: c :: w) (escaped c :: u)
  | unit {n : ℕ} {w u : Str} (hn : n < 0x10000) (h : Spells w u) : Spells (escapeUnit n ++ w) (n :: u)

section Reading

variable {c : ℕ} {line s : Str}

theorem Plain.ne_slash (hc : Plain c) : (c == 92) = false := beq_eq_false_iff_ne.mpr hc.2.2.1

theorem scan_plain (hc : Plain c) : scan (.body false line) (c :: s) = scan (.body false (line ++ [c])) s := by
  rw [scan, if_neg hc.2.1, hc.ne_slash, Bool.false_and]

theorem scan_escape (hc : ¬isEnd c) :
    scan (.body false line) (92 :: c :: s) = scan (.body false (line ++ [92, c])) s := by
  have hslash : scan (.body false line) (92 :: c :: s) = scan (.body true (line ++ [92])) (c :: s) := rfl
  rw [hslash, scan, if_neg hc, Bool.not_true, Bool.and_false, List.append_assoc]
  rfl

theorem splitKey_plain (hc : Plain c) :
    splitKey false (c :: s) = (c :: (splitKey false s).1, (splitKey false s).2) := by
  have hnot : ¬(!false && (c == 61 || c == 58 || isBlank c)) = true := by
    simp [hc.1, hc.2.2.2.1, hc.2.2.2.2.1]
  rw [splitKey, if_neg hnot, hc.ne_slash, Bool.false_and]

theorem splitKey_escape :
    splitKey false (92 :: c :: s) = (92 :: c :: (splitKey false s).1, (splitKey false s).2) := by
  have hslash : splitKey false (92 :: c :: s)
      = (92 :: (splitKey true (c :: s)).1, (splitKey true (c :: s)).2) := rfl
  rw [hslash, splitKey, if_neg (by simp), Bool.not_true, Bool.and_false]

theorem unescape_plain (hc : Plain c) : unescape (c :: s) = (unescape s).map (c :: ·) := by
  rw [unescape]
  · exact fun _ _ _ _ _ h => absurd h hc.2.2.1
  · exact fun _ h => absurd h hc.2.2.1
  · exact fun _ _ h => absurd h hc.2.2.1

theorem unescape_escape (hc : c ≠ 117) : unescape (92 :: c :: s) = (unescape s).map (escaped c :: ·) := by
  rw [unescape]
  · exact fun _ _ _ _ _ h => absurd h hc
  · exact hc

theorem plain_hexDigit (n : ℕ) : Plain (Json.hexDigit (n % 16)) := by
  have hall : ∀ d < 16, Plain (Json.hexDigit d) := by decide
  exact hall _ (Nat.mod_lt n (by decide))

end Reading

namespace Spells

variable {w w' u u' : Str}

theorem append (h : Spells w u) (h' : Spells w' u') : Spells (w ++ w') (u ++ u') := by
  induction h with
  | nil => exact h'
  | plain hc _ ih => exact .plain hc ih
  | escape hc _ ih => exact .escape hc ih
  | unit hn _ ih =>
    rw [List.append_assoc]
    exact .unit hn ih

theorem of_plain (h : ∀ c ∈ w, Plain c) : Spells w w := by
  induction w with
  | nil => exact .nil
  | cons c w ih =>
    rw [List.forall_mem_cons] at h
    exact .plain h.1 (ih h.2)

/-- The reader goes through a spelled text without leaving its line. -/
theorem scan_body (h : Spells w u) (line s : Str) :
    scan (.body false line) (w ++ s) = scan (.body false (line ++ w)) s := by
  induction h generalizing line with
  | nil => rw [List.nil_append, List.append_nil]
  | @plain c w u hc _ ih =>
    rw [List.cons_append, scan_plain hc, ih, List.append_assoc]
    rfl
  | @escape c w u hc _ ih =>
    rw [List.cons_append, List.cons_append, scan_escape hc.2, ih, List.append_assoc]
    rfl
  | @unit n w u hn _ ih =>
    rw [List.append_assoc, escapeUnit]
    simp only [List.cons_append, List.nil_append]
    rw [scan_escape (by decide), scan_plain (plain_hexDigit _), scan_plain (plain_hexDigit _),
      scan_plain (plain_hexDigit _), scan_plain (plain_hexDigit _), ih]
    simp only [List.append_assoc, List.cons_append, List.nil_append]

/-- A spelled text holds no end of a key. -/
theorem splitKey_append (h : Spells w u) (s : Str) :
    splitKey false (w ++ s) = (w ++ (splitKey false s).1, (splitKey false s).2) := by
  induction h with
  | nil => rfl
  | @plain c w u hc _ ih =>
    rw [List.cons_append, splitKey_plain hc, ih]
    rfl
  | @escape c w u hc _ ih =>
    rw [List.cons_append, List.cons_append, splitKey_escape, ih]
    rfl
  | @unit n w u hn _ ih =>
    rw [List.append_assoc, escapeUnit]
    simp only [List.cons_append, List.nil_append]
    rw [splitKey_escape, splitKey_plain (plain_hexDigit _), splitKey_plain (plain_hexDigit _),
      splitKey_plain (plain_hexDigit _), splitKey_plain (plain_hexDigit _), ih]

theorem unescape_eq (h : Spells w u) : unescape w = some u := by
  induction h with
  | nil => rfl
  | plain hc _ ih =>
    rw [unescape_plain hc, ih]
    rfl
  | escape hc _ ih =>
    rw [unescape_escape hc.1, ih]
    rfl
  | unit hn _ ih =>
    rw [escapeUnit]
    simp only [List.cons_append, List.nil_append]
    rw [unescape, Json.hex4_escapeUnit hn, ih]
    rfl

/-- A spelled text starts with no blank and no comment mark. -/
theorem head (h : Spells w u) : ∀ c ∈ w.head?, ¬isBlank c ∧ ¬isEnd c ∧ c ≠ 61 ∧ c ≠ 58 ∧ c ≠ 35 ∧ c ≠ 33 := by
  cases h with
  | nil => nofun
  | plain hc _ =>
    rintro _ ⟨⟩
    exact ⟨hc.1, hc.2.1, hc.2.2.2⟩
  | escape _ _ =>
    rintro _ ⟨⟩
    decide
  | unit _ _ =>
    rintro _ ⟨⟩
    decide

theorem dropWhile_blank (h : Spells w u) : w.dropWhile isBlank = w := by
  cases w with
  | nil => rfl
  | cons c w => exact List.dropWhile_cons_of_neg (h.head c rfl).1

end Spells

/-! ## Files of entries -/

/-- A key and a value with what they spell. -/
structure Spelled where
  key : Str
  value : Str
  keyUnits : Str
  valueUnits : Str
  key_spells : Spells key keyUnits
  value_spells : Spells value valueUnits
  key_ne_nil : key ≠ []

/-- The line of an entry, without its end. -/
def Spelled.line (e : Spelled) : Str := e.key ++ 61 :: e.value

def Spelled.units (e : Spelled) : Str × Str := (e.keyUnits, e.valueUnits)

theorem Spelled.entry_line (e : Spelled) : entry e.line = some e.units := by
  have hsplit : splitKey false (e.key ++ 61 :: e.value) = (e.key, 61 :: e.value) := by
    rw [e.key_spells.splitKey_append]
    show (e.key ++ [], 61 :: e.value) = _
    rw [List.append_nil]
  have hvalue : valueOf (61 :: e.value) = e.value := e.value_spells.dropWhile_blank
  rw [entry, line, hsplit, hvalue, e.key_spells.unescape_eq, e.value_spells.unescape_eq]
  rfl

/-- The line of an entry is one logical line. -/
theorem Spelled.scan_line (e : Spelled) (s : Str) :
    scan .start (e.line ++ 10 :: s) = e.line :: scan .start s := by
  have hstart : scan .start (e.key ++ 61 :: (e.value ++ 10 :: s))
      = scan (.body false []) (e.key ++ 61 :: (e.value ++ 10 :: s)) := by
    obtain ⟨c, key, hkey⟩ := List.exists_cons_of_ne_nil e.key_ne_nil
    obtain ⟨hblank, hend, -, -, hcomment⟩ := e.key_spells.head c (by rw [hkey]; rfl)
    rw [hkey, List.cons_append, scan, if_neg (by simp [hblank, hend]), if_neg (by simp [hcomment]), scan,
      if_neg hend, Bool.not_false, Bool.and_true]
    rfl
  calc scan .start (e.line ++ 10 :: s)
      = scan (.body false []) (e.key ++ 61 :: (e.value ++ 10 :: s)) := by
        rw [line, List.append_assoc]
        exact hstart
    _ = scan (.body false (e.key ++ [61])) (e.value ++ 10 :: s) := e.key_spells.scan_body [] _
    _ = scan (.body false (e.key ++ [61] ++ e.value)) (10 :: s) := e.value_spells.scan_body _ _
    _ = e.line :: scan .start s := by
        rw [List.append_assoc]
        rfl

/-- **One logical line for each entry**, and reading gives the entries. -/
theorem load_lines {es : List Spelled} (h : (es.map Spelled.keyUnits).Nodup) :
    let s := es.flatMap fun e => e.line ++ [10]
    logicalLines s = es.map Spelled.line ∧ load s = some (es.map Spelled.units) := by
  have hlines : logicalLines (es.flatMap fun e => e.line ++ [10]) = es.map Spelled.line := by
    clear h
    induction es with
    | nil => rfl
    | cons e es ih =>
      rw [List.flatMap_cons, List.append_assoc]
      exact (e.scan_line _).trans (congrArg (e.line :: ·) ih)
  have hentries : (es.map Spelled.line).mapM entry = some (es.map Spelled.units) := by
    clear h hlines
    induction es with
    | nil => rfl
    | cons e es ih =>
      rw [List.map_cons, List.mapM_cons, e.entry_line, ih]
      rfl
  refine ⟨hlines, ?_⟩
  have hkeys : ((es.map Spelled.units).map Prod.fst).Nodup := by
    rwa [List.map_map]
  rw [load, hlines, hentries, Option.map_some, keepLast_of_nodup hkeys]

/-- Blank lines and comments are skipped, lines are continued, and a later entry replaces an earlier one. -/
example : load (Json.codes "! note\n  run\\\n   id : a\\u0042\\=\n\n# x=y\\\nk\nrunid=c d\r\n")
    = some [(Json.codes "runid", Json.codes "c d"), (Json.codes "k", [])] := by
  decide +kernel

end HardwareTest.Lib.Properties
