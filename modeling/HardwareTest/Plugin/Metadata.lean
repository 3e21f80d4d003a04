import HardwareTest.Lib.Properties
import HardwareTest.Lib.Utf8
import HardwareTest.Python.Text

/-!
# Run metadata and its properties file

The facts of a run are collected once, under fixed names, and facts that are missing or empty are left
out.  At session start they are written as a Java properties file.  Values are arbitrary texts; a reader
of the file has strings of UTF-16 code units.

* `getRunMetadata` — the facts that are recorded;
* `escapeProperty`, `environmentProperties` — the text of the file;
* `environment_properties_read_back` — the file is ASCII, one logical line for each entry, and is read
  back as the metadata.
-/

namespace HardwareTest.Plugin

open HardwareTest.Lib HardwareTest.Lib.Properties HardwareTest.Python
open HardwareTest.Lib.Json (Str isHigh isLow joinPair joinUnits joinPair_split escapeUnit)

/-! ## The facts of a run -/

inductive MetadataKey
  | runId
  | pythonVersion
  | pytestVersion
  | gitRevision
  | stand
  | scenario
  | markerSequence
  deriving DecidableEq

def MetadataKey.name : MetadataKey → Text
  | .runId => "run_id".toList
  | .pythonVersion => "python_version".toList
  | .pytestVersion => "pytest_version".toList
  | .gitRevision => "git_revision".toList
  | .stand => "stand".toList
  | .scenario => "scenario".toList
  | .markerSequence => "marker_sequence".toList

/-- A mapping from the names of facts to texts, in insertion order. -/
structure Metadata where
  entries : List (MetadataKey × Text)
  distinct : (entries.map Prod.fst).Nodup

/-- What `get_run_metadata` collects.  `gitResult` is the exit status and the output of `git rev-parse`,
or `none` when there is no git, it cannot be started or takes too long. -/
structure RunFacts where
  runId : Text
  pythonVersion : Text
  pytestVersion : Text
  gitResult : Option (ℤ × Text)
  stand : Option Text
  scenario : Option Text
  markerSequence : List Text

/-- A text that is not empty. -/
def nonemptyText (value : Option Text) : Option Text := value.filter fun s => !s.isEmpty

/-- `_git_revision`. -/
def gitRevision : Option (ℤ × Text) → Option Text
  | none => none
  | some (returncode, stdout) => if returncode = 0 then nonemptyText (some (strip stdout)) else none

/-- `",".join(marker_sequence)`. -/
def joinMarkers (markerSequence : List Text) : Text := [','].intercalate markerSequence

/-- The dictionary that `get_run_metadata` filters. -/
def runProperties (facts : RunFacts) : List (MetadataKey × Option Text) :=
  [(.runId, some facts.runId), (.pythonVersion, some facts.pythonVersion),
    (.pytestVersion, some facts.pytestVersion), (.gitRevision, gitRevision facts.gitResult),
    (.stand, facts.stand), (.scenario, facts.scenario),
    (.markerSequence, some (joinMarkers facts.markerSequence))]

/-- `get_run_metadata`. -/
def getRunMetadata (facts : RunFacts) : Metadata where
  entries := (runProperties facts).filterMap fun e => (nonemptyText e.2).map fun value => (e.1, value)
  distinct := by
    have hkeys : ((runProperties facts).map Prod.fst).Nodup := by
      show [MetadataKey.runId, .pythonVersion, .pytestVersion, .gitRevision, .stand, .scenario,
        .markerSequence].Nodup
      decide
    refine hkeys.sublist ?_
    generalize runProperties facts = properties
    induction properties with
    | nil => exact .slnil
    | cons e properties ih =>
      rw [List.filterMap_cons, List.map_cons]
      cases nonemptyText e.2 with
      | none => exact ih.cons _
      | some value => exact ih.cons_cons _

/-! ## The properties file -/

/-- The code units of `character.encode("utf-16-be")`. -/
def utf16Units (character : Char) : Str :=
  let n := character.toNat
  if n < 0x10000 then [n] else [0xD800 + (n - 0x10000) / 1024 % 1024, 0xDC00 + (n - 0x10000) % 1024]

def utf16 (s : Text) : Str := s.flatMap utf16Units

/-- One character of `_escape_property`. -/
def escapeCharacter (character : Char) : Str :=
  if character ∈ "\\ =:#!".toList then [92, character.toNat]
  else if '!' ≤ character ∧ character ≤ '~' then [character.toNat]
  else (utf16Units character).flatMap escapeUnit

/-- `_escape_property`. -/
def escapeProperty (value : Text) : Str := value.flatMap escapeCharacter

/-- The text of `environment.properties`. -/
def environmentProperties (metadata : Metadata) : Str :=
  metadata.entries.flatMap fun e => e.1.name.map Char.toNat ++ 61 :: escapeProperty e.2 ++ [10]

/-- `write_text(text, encoding="ascii")`; `none` is the `UnicodeEncodeError`. -/
def writeAscii (text : Str) : Option (List UInt8) :=
  if ∀ c ∈ text, c < 128 then some (text.map UInt8.ofNat) else none

/-- The characters of a file for the reader of properties. -/
def latin1 (data : List UInt8) : Str := data.map UInt8.toNat

/-! ## Code units -/

theorem scalar_bounds (c : Char) : c.toNat < 0xD800 ∨ (0xDFFF < c.toNat ∧ c.toNat < 0x110000) := c.valid

theorem utf16Units_bmp {c : Char} (h : c.toNat < 0x10000) : utf16Units c = [c.toNat] := if_pos h

theorem utf16Units_astral {c : Char} (h : 0x10000 ≤ c.toNat) :
    utf16Units c = [0xD800 + (c.toNat - 0x10000) / 1024 % 1024, 0xDC00 + (c.toNat - 0x10000) % 1024] :=
  if_neg h.not_gt

theorem utf16Units_lt (c : Char) : ∀ n ∈ utf16Units c, n < 0x10000 := by
  rcases Nat.lt_or_ge c.toNat 0x10000 with hbmp | hastral
  · rw [utf16Units_bmp hbmp]
    exact List.forall_mem_singleton.mpr hbmp
  · rw [utf16Units_astral hastral, List.forall_mem_cons, List.forall_mem_singleton]
    constructor <;> omega

/-- A unit that is no high surrogate is a code point of its own. -/
theorem joinUnits_cons {n : ℕ} (h : isHigh n = false) (units : Str) :
    joinUnits (n :: units) = n :: joinUnits units := by
  cases units with
  | nil => rfl
  | cons m units => rw [joinUnits, h, Bool.false_and, if_neg Bool.false_ne_true]

/-- The code units of a text name its characters. -/
theorem joinUnits_utf16 (s : Text) : joinUnits (utf16 s) = s.map Char.toNat := by
  induction s with
  | nil => rfl
  | cons c s ih =>
    show joinUnits (utf16Units c ++ utf16 s) = c.toNat :: s.map Char.toNat
    rcases Nat.lt_or_ge c.toNat 0x10000 with hbmp | hastral
    · have hhigh : isHigh c.toNat = false := by
        have hscalar := scalar_bounds c
        rw [isHigh, decide_eq_false_iff_not]
        omega
      rw [utf16Units_bmp hbmp, List.singleton_append, joinUnits_cons hhigh, ih]
    · have hlt : c.toNat < 0x110000 := by
        have hscalar := scalar_bounds c
        omega
      have hpair : (isHigh (0xD800 + (c.toNat - 0x10000) / 1024 % 1024)
          && isLow (0xDC00 + (c.toNat - 0x10000) % 1024)) = true := by
        simp only [isHigh, isLow, Bool.and_eq_true, decide_eq_true_eq]
        omega
      rw [utf16Units_astral hastral, List.cons_append, List.singleton_append, joinUnits, if_pos hpair,
        joinPair_split hastral hlt, ih]

theorem utf16_injective : Function.Injective utf16 := fun s t h => by
  have hpoints := congrArg joinUnits h
  rw [joinUnits_utf16, joinUnits_utf16] at hpoints
  exact List.map_injective_iff.mpr (fun _ _ => Char.toNat_inj.mp) hpoints

/-! ## Reading it back -/

theorem spells_units {units : Str} (h : ∀ n ∈ units, n < 0x10000) :
    Spells (units.flatMap escapeUnit) units := by
  induction units with
  | nil => exact .nil
  | cons n units ih =>
    rw [List.forall_mem_cons] at h
    exact .unit h.1 (ih h.2)

theorem mem_marked {c : Char} :
    c ∈ "\\ =:#!".toList ↔ c = '\\' ∨ c = ' ' ∨ c = '=' ∨ c = ':' ∨ c = '#' ∨ c = '!' := by
  simp

/-- The characters with a backslash before them stand for themselves. -/
theorem spells_marked {c : Char} (h : c ∈ "\\ =:#!".toList) : Spells [92, c.toNat] (utf16Units c) := by
  rcases mem_marked.mp h with rfl | rfl | rfl | rfl | rfl | rfl <;> exact .escape (by decide) .nil

theorem plain_of_printable {c : Char} (h : '!' ≤ c ∧ c ≤ '~') (hmarked : c ∉ "\\ =:#!".toList) :
    Plain c.toNat := by
  have hlow : 0x21 ≤ c.toNat := h.1
  have hne : ∀ d : Char, c = d ∨ c.toNat ≠ d.toNat := fun d =>
    or_iff_not_imp_right.mpr fun heq => Char.toNat_inj.mp (not_not.mp heq)
  rw [mem_marked] at hmarked
  push Not at hmarked
  obtain ⟨hslash, -, hequals, hcolon, hhash, hbang⟩ := hmarked
  refine ⟨?_, ?_, (hne '\\').resolve_left hslash, (hne '=').resolve_left hequals,
    (hne ':').resolve_left hcolon, (hne '#').resolve_left hhash, (hne '!').resolve_left hbang⟩
  · simp only [isBlank, Bool.or_eq_true, beq_iff_eq]
    omega
  · simp only [isEnd, Bool.or_eq_true, beq_iff_eq]
    omega

theorem spells_printable {c : Char} (h : '!' ≤ c ∧ c ≤ '~') (hmarked : c ∉ "\\ =:#!".toList) :
    Spells [c.toNat] (utf16Units c) := by
  have hhigh : c.toNat ≤ 0x7E := h.2
  rw [utf16Units_bmp (by omega)]
  exact .plain (plain_of_printable h hmarked) .nil

/-- One character: whatever it is, its escape spells its code units. -/
theorem spells_escapeCharacter (c : Char) : Spells (escapeCharacter c) (utf16Units c) := by
  rw [escapeCharacter]
  split
  · exact spells_marked ‹_›
  · split
    · exact spells_printable ‹_› ‹_›
    · exact spells_units (utf16Units_lt c)

theorem spells_escapeProperty (value : Text) : Spells (escapeProperty value) (utf16 value) := by
  induction value with
  | nil => exact .nil
  | cons c value ih => exact (spells_escapeCharacter c).append ih

theorem escapeCharacter_ascii (c : Char) : ∀ n ∈ escapeCharacter c, n < 128 := by
  intro n hn
  rw [escapeCharacter] at hn
  split at hn
  · rename_i hmarked
    rcases List.mem_pair.mp hn with rfl | rfl
    · decide
    · rcases mem_marked.mp hmarked with rfl | rfl | rfl | rfl | rfl | rfl <;> decide
  · split at hn
    · rename_i hprintable
      have hhigh : c.toNat ≤ 0x7E := hprintable.2
      rw [List.mem_singleton.mp hn]
      omega
    · obtain ⟨unit, -, hunit⟩ := List.mem_flatMap.mp hn
      have hbounds := Json.escapeUnit_ascii hunit
      omega

theorem MetadataKey.spells_name (key : MetadataKey) :
    key.name.map Char.toNat ≠ [] ∧ Spells (key.name.map Char.toNat) (utf16 key.name) := by
  have hname : (key.name.map Char.toNat ≠ [] ∧ ∀ c ∈ key.name.map Char.toNat, Plain c) ∧
      utf16 key.name = key.name.map Char.toNat := by
    cases key <;> decide
  obtain ⟨⟨hne, hplain⟩, hunits⟩ := hname
  rw [hunits]
  exact ⟨hne, .of_plain hplain⟩

theorem MetadataKey.name_injective : Function.Injective MetadataKey.name := by
  intro a b h
  cases a <;> cases b <;> first | rfl | exact absurd h (by decide)

/-- An entry of the file. -/
def spelledEntry (e : MetadataKey × Text) : Spelled where
  key := e.1.name.map Char.toNat
  value := escapeProperty e.2
  keyUnits := utf16 e.1.name
  valueUnits := utf16 e.2
  key_spells := e.1.spells_name.2
  value_spells := spells_escapeProperty e.2
  key_ne_nil := e.1.spells_name.1

theorem environmentProperties_eq (metadata : Metadata) :
    environmentProperties metadata = (metadata.entries.map spelledEntry).flatMap fun e => e.line ++ [10] := by
  rw [List.flatMap_map]
  rfl

theorem environmentProperties_ascii (metadata : Metadata) : ∀ c ∈ environmentProperties metadata, c < 128 := by
  intro c hc
  obtain ⟨⟨key, value⟩, -, hline⟩ := List.mem_flatMap.mp hc
  have hkey : ∀ c ∈ key.name.map Char.toNat, c < 128 := by
    cases key <;> decide
  rcases List.mem_append.mp hline with hentry | hend
  · rcases List.mem_append.mp hentry with hname | hvalue
    · exact hkey c hname
    · rcases List.mem_cons.mp hvalue with rfl | hvalue
      · decide
      · obtain ⟨character, -, hcharacter⟩ := List.mem_flatMap.mp hvalue
        exact escapeCharacter_ascii character c hcharacter
  · rw [List.mem_singleton.mp hend]
    decide

theorem latin1_ofNat {text : Str} (h : ∀ c ∈ text, c < 128) : latin1 (text.map UInt8.ofNat) = text := by
  have hbyte : ∀ c ∈ text, (UInt8.toNat ∘ UInt8.ofNat) c = c := fun c hc =>
    Utf8.toNat_ofNat_of_lt ((h c hc).trans (by decide))
  rw [latin1, List.map_map]
  exact (List.map_congr_left hbyte).trans (List.map_id _)

/-- **The metadata survive the file.**  For every metadata, whatever the values are: the file can be
written and is pure ASCII, a reader of properties finds one logical line for each entry, and what it
loads are the names and values in UTF-16, that is, the metadata. -/
theorem environment_properties_read_back (metadata : Metadata) :
    ∃ data, writeAscii (environmentProperties metadata) = some data ∧ (∀ b ∈ data, b.toNat < 128) ∧
      (logicalLines (latin1 data)).length = metadata.entries.length ∧
      ∃ properties, load (latin1 data) = some properties ∧
        properties = (metadata.entries.map fun e => (utf16 e.1.name, utf16 e.2)) ∧
        (properties.map fun p => (joinUnits p.1, joinUnits p.2))
          = metadata.entries.map fun e => (e.1.name.map Char.toNat, e.2.map Char.toNat) := by
  have hascii := environmentProperties_ascii metadata
  have hlatin := latin1_ofNat hascii
  have hkeys : ((metadata.entries.map spelledEntry).map Spelled.keyUnits).Nodup := by
    have hnames := metadata.distinct.map (utf16_injective.comp MetadataKey.name_injective)
    rw [List.map_map] at hnames ⊢
    exact hnames
  obtain ⟨hlines, hload⟩ := load_lines hkeys
  rw [← environmentProperties_eq] at hlines hload
  refine ⟨_, if_pos hascii, ?_, ?_, _, hlatin.symm ▸ hload, List.map_map, ?_⟩
  · intro b hb
    have hmem := List.mem_map_of_mem (f := UInt8.toNat) hb
    exact hascii _ (hlatin ▸ hmem)
  · rw [hlatin, hlines, List.length_map, List.length_map]
  · rw [List.map_map, List.map_map]
    refine List.map_congr_left fun e _ => ?_
    show (joinUnits (utf16 e.1.name), joinUnits (utf16 e.2)) = _
    rw [joinUnits_utf16, joinUnits_utf16]

end HardwareTest.Plugin
