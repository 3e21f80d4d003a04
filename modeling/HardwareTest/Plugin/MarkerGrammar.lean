import HardwareTest.Plugin.Metadata
import HardwareTest.Plugin.Scenarios

/-!
# The grammar of marker sequences

What `--marker-sequence` accepts, stated over the code points of the option: the parts between commas,
without the white space around them, are distinct identifiers.

* `segments`, `IsIdentifier`, `IsSequence` — the grammar;
* `marker_sequence_grammar` — the parser accepts exactly the sequences of the grammar, and reads back what
  the run metadata record.
-/

namespace HardwareTest.Plugin

open HardwareTest.Lib HardwareTest.Lib.Json HardwareTest.Python
open HardwareTest.Runner (isAlphanumeric)
open HardwareTest.Auth (characters toStr)

/-! ## The grammar -/

/-- A code point of Unicode white space. -/
def IsWhitespace (n : ℕ) : Prop :=
  (9 ≤ n ∧ n ≤ 13) ∨ (0x1C ≤ n ∧ n ≤ 0x20) ∨ n = 0x85 ∨ n = 0xA0 ∨ n = 0x1680 ∨
    (0x2000 ≤ n ∧ n ≤ 0x200A) ∨ n = 0x2028 ∨ n = 0x2029 ∨ n = 0x202F ∨ n = 0x205F ∨ n = 0x3000

instance (n : ℕ) : Decidable (IsWhitespace n) := inferInstanceAs (Decidable (_ ∨ _))

def stripPoints (s : Str) : Str :=
  ((s.dropWhile (IsWhitespace ·)).reverse.dropWhile (IsWhitespace ·)).reverse

/-- The parts of a value between its commas, stripped. -/
def segments (value : Str) : List Str := (value.splitOn 44).map stripPoints

def IsLetter (n : ℕ) : Prop := (65 ≤ n ∧ n ≤ 90) ∨ (97 ≤ n ∧ n ≤ 122) ∨ n = 95

def IsDigit (n : ℕ) : Prop := 48 ≤ n ∧ n ≤ 57

/-- A letter or underscore, then letters, digits or underscores, all ASCII. -/
def IsIdentifier : Str → Prop
  | [] => False
  | c :: rest => IsLetter c ∧ ∀ d ∈ rest, IsLetter d ∨ IsDigit d

def IsSequence (names : List Str) : Prop := (∀ name ∈ names, IsIdentifier name) ∧ names.Nodup

/-! ## Texts and their code points -/

theorem toStr_injective : Function.Injective toStr :=
  List.map_injective_iff.mpr fun _ _ => Char.toNat_inj.mp

theorem toStr_dropWhile (s : Text) : toStr (s.dropWhile isSpace) = (toStr s).dropWhile (IsWhitespace ·) := by
  rw [toStr, toStr, List.dropWhile_map]
  rfl

theorem toStr_strip (s : Text) : toStr (strip s) = stripPoints (toStr s) := by
  rw [strip, rstrip, stripPoints, ← toStr_dropWhile]
  show ((List.dropWhile isSpace _).reverse).map Char.toNat = _
  rw [List.map_reverse, ← toStr, toStr_dropWhile, toStr, List.map_reverse, ← toStr]

theorem characters_cons {c : ℕ} (h : c.isValidChar) (s : Str) :
    characters (c :: s) = (characters s).map (Char.ofNatAux c h :: ·) := by
  rw [characters, dif_pos h]

theorem characters_toStr (s : Text) : characters (toStr s) = some s := by
  induction s with
  | nil => rfl
  | cons c s ih =>
    have hvalid : c.toNat.isValidChar := c.valid
    have hchar : Char.ofNatAux c.toNat hvalid = c := Char.toNat_inj.mp rfl
    show characters (c.toNat :: toStr s) = _
    rw [characters_cons hvalid, ih, Option.map_some, hchar]

theorem toStr_of_characters {s : Str} {t : Text} (h : characters s = some t) : toStr t = s := by
  induction s generalizing t with
  | nil =>
    obtain rfl := Option.some.inj h
    rfl
  | cons c s ih =>
    by_cases hvalid : c.isValidChar
    · rw [characters_cons hvalid] at h
      obtain ⟨u, hu, rfl⟩ := Option.map_eq_some_iff.mp h
      show c :: toStr u = c :: s
      rw [ih hu]
    · rw [characters, dif_neg hvalid] at h
      cases h

theorem exists_characters {s : Str} (h : ∀ c ∈ s, c.isValidChar) : ∃ t, characters s = some t := by
  induction s with
  | nil => exact ⟨[], rfl⟩
  | cons c s ih =>
    rw [List.forall_mem_cons] at h
    obtain ⟨t, ht⟩ := ih h.2
    exact ⟨_, by rw [characters_cons h.1, ht, Option.map_some]⟩

/-- What stripping takes away is white space. -/
theorem mem_stripPoints {s : Str} {c : ℕ} (h : c ∈ s) : c ∈ stripPoints s ∨ IsWhitespace c := by
  have hside : ∀ t : Str, c ∈ t → c ∈ t.dropWhile (IsWhitespace ·) ∨ IsWhitespace c := by
    intro t ht
    rw [← List.takeWhile_append_dropWhile (p := (IsWhitespace ·)) (l := t)] at ht
    rcases List.mem_append.mp ht with htaken | hkept
    · have hspace := List.mem_takeWhile_imp htaken
      exact .inr (of_decide_eq_true hspace)
    · exact .inl hkept
  rcases hside s h with hleft | hspace
  · rcases hside _ (List.mem_reverse.mpr hleft) with hright | hspace
    · exact .inl (List.mem_reverse.mpr hright)
    · exact .inr hspace
  · exact .inr hspace

/-! ## Identifiers -/

theorem isIdentifier_iff (s : Text) : markerNameMatches s = true ↔ IsIdentifier (toStr s) := by
  cases s with
  | nil => exact ⟨nofun, nofun⟩
  | cons c rest =>
    have hunderscore : ∀ d : Char, d = '_' ↔ d.toNat = 95 := fun d => Char.toNat_inj.symm
    have hletter : (isAlphanumeric c && !decide (0x30 ≤ c.toNat ∧ c.toNat ≤ 0x39) || c == '_') = true
        ↔ IsLetter c.toNat := by
      simp only [isAlphanumeric, IsLetter, Bool.or_eq_true, Bool.and_eq_true, Bool.not_eq_true',
        decide_eq_true_eq, decide_eq_false_iff_not, beq_iff_eq, hunderscore]
      omega
    have hmore : ∀ d : Char, (isAlphanumeric d || d == '_') = true ↔ IsLetter d.toNat ∨ IsDigit d.toNat := by
      intro d
      simp only [isAlphanumeric, IsLetter, IsDigit, Bool.or_eq_true, decide_eq_true_eq, beq_iff_eq, hunderscore]
      omega
    rw [markerNameMatches, Bool.and_eq_true, hletter, List.all_eq_true]
    show _ ↔ IsLetter c.toNat ∧ ∀ d ∈ rest.map Char.toNat, IsLetter d ∨ IsDigit d
    rw [List.forall_mem_map]
    exact and_congr_right fun _ => forall₂_congr fun d _ => hmore d

theorem IsIdentifier.mem {s : Str} (h : IsIdentifier s) : ∀ c ∈ s, IsLetter c ∨ IsDigit c := by
  cases s with
  | nil => exact h.elim
  | cons c rest => exact List.forall_mem_cons.mpr ⟨.inl h.1, h.2⟩

theorem IsIdentifier.not_mem_comma {s : Str} (h : IsIdentifier s) : 44 ∉ s := fun hmem => by
  have hcomma := h.mem 44 hmem
  simp only [IsLetter, IsDigit] at hcomma
  omega

theorem IsIdentifier.stripPoints_eq {s : Str} (h : IsIdentifier s) : stripPoints s = s := by
  have hsolid : ∀ c ∈ s, ¬IsWhitespace c := by
    intro c hc
    have hletter := h.mem c hc
    simp only [IsLetter, IsDigit] at hletter
    simp only [IsWhitespace]
    omega
  have hkeep : ∀ t : Str, (∀ c ∈ t, ¬IsWhitespace c) → t.dropWhile (IsWhitespace ·) = t := by
    intro t ht
    cases t with
    | nil => rfl
    | cons c t => exact List.dropWhile_cons_of_neg (by simpa using ht c List.mem_cons_self)
  rw [stripPoints, hkeep s hsolid, hkeep s.reverse fun c hc => hsolid c (List.mem_reverse.mp hc),
    List.reverse_reverse]

/-- An identifier with white space around it has no surrogate. -/
theorem exists_text {part : Str} (h : IsIdentifier (stripPoints part)) : ∃ t, toStr t = part := by
  have hvalid : ∀ c ∈ part, c.isValidChar := by
    intro c hc
    refine .inl ?_
    rcases mem_stripPoints hc with hkept | hspace
    · have hletter := h.mem c hkept
      simp only [IsLetter, IsDigit] at hletter
      omega
    · simp only [IsWhitespace] at hspace
      omega
  obtain ⟨t, ht⟩ := exists_characters hvalid
  exact ⟨t, toStr_of_characters ht⟩

/-! ## The parser -/

theorem mapM_characters_iff {parts : List Str} {values : List Text} :
    parts.mapM characters = some values ↔ values.map toStr = parts := by
  constructor
  · intro h
    induction parts generalizing values with
    | nil =>
      obtain rfl := Option.some.inj h
      rfl
    | cons part parts ih =>
      rw [List.mapM_cons] at h
      obtain ⟨t, ht, h⟩ := Option.bind_eq_some_iff.mp h
      obtain ⟨ts, hts, h⟩ := Option.bind_eq_some_iff.mp h
      obtain rfl := Option.some.inj h
      rw [List.map_cons, toStr_of_characters ht, ih hts]
  · rintro rfl
    induction values with
    | nil => rfl
    | cons t ts ih =>
      rw [List.map_cons, List.mapM_cons, characters_toStr, ih]
      rfl

theorem segments_eq {value : Str} {values : List Text} (h : values.map toStr = value.splitOn 44) :
    segments value = (values.map strip).map toStr := by
  rw [segments, ← h, List.map_map, List.map_map]
  exact List.map_congr_left fun t _ => (toStr_strip t).symm

/-- **The validator and the grammar** accept the same values. -/
theorem sequenceNames_iff (value : Str) : SequenceNames value ↔ IsSequence (segments value) := by
  constructor
  · rintro ⟨values, hvalues, -, hvalid, hnodup⟩
    rw [segments_eq (mapM_characters_iff.mp hvalues)]
    refine ⟨?_, hnodup.map toStr_injective⟩
    rw [List.forall_mem_map, List.forall_mem_map]
    exact fun t ht => (isIdentifier_iff _).mp (hvalid t ht)
  · rintro ⟨hidentifiers, hnodup⟩
    have hparts : value.splitOn 44 ∈ Set.range (List.map toStr) := by
      rw [Set.range_list_map]
      exact fun part hpart => exists_text (hidentifiers _ (List.mem_map_of_mem hpart))
    obtain ⟨values, hvalues⟩ := hparts
    rw [segments_eq hvalues] at hidentifiers hnodup
    refine ⟨values, mapM_characters_iff.mpr hvalues, ?_, ?_, hnodup.of_map _⟩
    · rintro rfl
      exact List.splitOn_ne_nil 44 value hvalues.symm
    · rw [List.forall_mem_map, List.forall_mem_map] at hidentifiers
      exact fun t ht => (isIdentifier_iff _).mpr (hidentifiers t ht)

/-- What is returned are the segments. -/
theorem toStr_of_parseMarkerSequence {schema : ScenarioSchema} {value : Str} {names : List Text}
    (h : parseMarkerSequence schema value = .ok names) : names.map toStr = segments value := by
  obtain ⟨hok, herror⟩ := parseMarkerSequence_eq schema value
  cases hmarkers : commaMarkers value with
  | error error =>
    obtain ⟨message, hraised⟩ := herror error hmarkers
    rw [hraised] at h
    cases h
  | ok markers =>
    rw [hok markers hmarkers] at h
    obtain rfl := Except.ok.inj h
    rw [commaMarkers] at hmarkers
    split at hmarkers
    · cases hmarkers
    · rename_i values hvalues
      rw [names_of_validateMarkers hmarkers, segments_eq (mapM_characters_iff.mp hvalues)]

theorem parseMarkerSequence_ok_iff {schema : ScenarioSchema} {value : Str} {names : List Text} :
    parseMarkerSequence schema value = .ok names ↔
      IsSequence (segments value) ∧ names.map toStr = segments value := by
  rw [← sequenceNames_iff]
  rcases parseMarkerSequence_cases schema value with ⟨hnot, message, hraised⟩ | ⟨hnames, markers, hok⟩
  · rw [hraised]
    exact ⟨nofun, fun h => absurd h.1 hnot⟩
  · refine ⟨fun h => ⟨hnames, toStr_of_parseMarkerSequence h⟩, fun h => ?_⟩
    have hsame := (toStr_of_parseMarkerSequence hok).trans h.2.symm
    rw [hok, List.map_injective_iff.mpr toStr_injective hsame]

/-! ## What the metadata record -/

theorem toStr_joinMarkers (names : List Text) :
    toStr (joinMarkers names) = [44].intercalate (names.map toStr) := by
  induction names with
  | nil => rfl
  | cons name names ih =>
    cases names with
    | nil =>
      rw [joinMarkers, List.map_singleton, List.intercalate_singleton, List.intercalate_singleton]
    | cons next names =>
      rw [joinMarkers, List.map_cons, List.map_cons, List.intercalate_cons_cons, List.intercalate_cons_cons,
        ← List.map_cons, ← ih, toStr, List.map_append, List.map_append]
      rfl

theorem segments_joined {names : List Str} (hne : names ≠ []) (h : ∀ name ∈ names, IsIdentifier name) :
    segments ([44].intercalate names) = names := by
  rw [segments, List.splitOn_intercalate 44 (fun name hname => (h name hname).not_mem_comma) hne]
  exact (List.map_congr_left fun name hname => (h name hname).stripPoints_eq).trans (List.map_id _)

theorem segments_ne_nil (value : Str) : segments value ≠ [] := fun h =>
  List.splitOn_ne_nil 44 value (List.map_eq_nil_iff.mp h)

/-- A list that the parser has returned, joined with commas. -/
theorem parse_joinMarkers (schema : ScenarioSchema) {names : List Text} (hne : names ≠ [])
    (hnames : IsSequence (names.map toStr)) :
    joinMarkers names ≠ [] ∧ parseMarkerSequence schema (toStr (joinMarkers names)) = .ok names := by
  have hsegments : segments (toStr (joinMarkers names)) = names.map toStr := by
    rw [toStr_joinMarkers]
    exact segments_joined (by simpa using hne) hnames.1
  constructor
  · intro hnil
    have hempty : [] ∈ names.map toStr := by
      rw [← hsegments, hnil]
      exact List.mem_singleton_self []
    exact hnames.1 [] hempty
  · exact parseMarkerSequence_ok_iff.mpr ⟨by rwa [hsegments], hsegments.symm⟩

/-- The metadata record a sequence that is not empty. -/
theorem mem_getRunMetadata {facts : RunFacts} (h : joinMarkers facts.markerSequence ≠ []) :
    (MetadataKey.markerSequence, joinMarkers facts.markerSequence) ∈ (getRunMetadata facts).entries := by
  have hkept : nonemptyText (some (joinMarkers facts.markerSequence))
      = some (joinMarkers facts.markerSequence) := by
    rw [nonemptyText, Option.filter_some, if_pos (by simpa using h)]
  refine List.mem_filterMap.mpr ⟨(.markerSequence, some (joinMarkers facts.markerSequence)), ?_, ?_⟩
  · simp [runProperties]
  · rw [hkept]
    rfl

/-- **The grammar of marker sequences.**  For every value: the parser returns exactly the segments, in
their order, when they are distinct identifiers, and raises a `ScenarioError` otherwise; and a list that it
returns is recorded in the metadata as a text that is parsed to the same list. -/
theorem marker_sequence_grammar (schema : ScenarioSchema) (value : Str) :
    (∀ names, parseMarkerSequence schema value = .ok names ↔
      IsSequence (segments value) ∧ names.map toStr = segments value) ∧
    (IsSequence (segments value) → ∃ names, parseMarkerSequence schema value = .ok names) ∧
    (¬IsSequence (segments value) →
      ∃ message, parseMarkerSequence schema value = .error (.scenarioError message)) ∧
    ∀ facts : RunFacts, parseMarkerSequence schema value = .ok facts.markerSequence →
      ∃ recorded, (MetadataKey.markerSequence, recorded) ∈ (getRunMetadata facts).entries ∧
        parseMarkerSequence schema (toStr recorded) = .ok facts.markerSequence := by
  refine ⟨fun names => parseMarkerSequence_ok_iff, fun h => ?_, fun h => ?_, fun facts h => ?_⟩
  · rcases parseMarkerSequence_cases schema value with ⟨hnot, -⟩ | ⟨-, markers, hok⟩
    · exact absurd ((sequenceNames_iff value).mpr h) hnot
    · exact ⟨markers.names, hok⟩
  · rcases parseMarkerSequence_cases schema value with ⟨-, hraised⟩ | ⟨hnames, -⟩
    · exact hraised
    · exact absurd ((sequenceNames_iff value).mp hnames) h
  · obtain ⟨hsequence, hsegments⟩ := parseMarkerSequence_ok_iff.mp h
    have hne : facts.markerSequence ≠ [] := by
      intro hnil
      rw [hnil] at hsegments
      exact segments_ne_nil value hsegments.symm
    rw [← hsegments] at hsequence
    obtain ⟨hjoined, hparsed⟩ := parse_joinMarkers schema hne hsequence
    exact ⟨_, mem_getRunMetadata hjoined, hparsed⟩

end HardwareTest.Plugin
