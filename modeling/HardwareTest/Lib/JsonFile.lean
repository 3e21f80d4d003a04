import HardwareTest.Lib.Json

/-!
# JSON documents in files

Documents as they are written to a text file piece by piece: indented, in UTF-8, with every character that
needs no escape as it is.

* `encodeUtf8`, `decodeStrict` — the encoding, which knows no surrogates, and its reading;
* `iterencode` — the pieces of a document; a piece is missing where the writer raises;
* `given_iterencode` — what the pieces are made of, and when one is missing;
* `loads_text` — what is written is read back.
-/

namespace HardwareTest.Lib.Json

/-! ## Characters in bytes -/

/-- A character that is not a surrogate. -/
def IsScalar (c : ℕ) : Prop := c < 0xD800 ∨ 0xE000 ≤ c ∧ c < 0x110000

instance (c : ℕ) : Decidable (IsScalar c) := inferInstanceAs (Decidable (_ ∨ _))

/-- A text without surrogates. -/
def Scalar (s : Str) : Prop := ∀ c ∈ s, IsScalar c

instance (s : Str) : Decidable (Scalar s) := inferInstanceAs (Decidable (∀ c ∈ s, _))

def encodeCodePoint (c : ℕ) : Option (List UInt8) :=
  if c < 0x80 then some [.ofNat c]
  else if c < 0x800 then some [.ofNat (0xC0 + c / 64), .ofNat (0x80 + c % 64)]
  else if 0xD800 ≤ c ∧ c < 0xE000 then none
  else if c < 0x10000 then
    some [.ofNat (0xE0 + c / 4096), .ofNat (0x80 + c / 64 % 64), .ofNat (0x80 + c % 64)]
  else if c < 0x110000 then
    some [.ofNat (0xF0 + c / 262144), .ofNat (0x80 + c / 4096 % 64), .ofNat (0x80 + c / 64 % 64),
      .ofNat (0x80 + c % 64)]
  else none

/-- `s.encode("utf-8")`; `none` is the `UnicodeEncodeError`. -/
def encodeUtf8 : Str → Option (List UInt8)
  | [] => some []
  | c :: s => (encodeCodePoint c).bind fun a => (encodeUtf8 s).map (a ++ ·)

/-- `b.decode("utf-8")`; `none` is the `UnicodeDecodeError`. -/
def decodeStrict (b : List UInt8) : Option Str :=
  (decodeUtf8 b).filter fun s => decide (Scalar s)

theorem encodeUtf8_append (s t : Str) :
    encodeUtf8 (s ++ t) = (encodeUtf8 s).bind fun a => (encodeUtf8 t).map (a ++ ·) := by
  induction s with
  | nil =>
    cases ht : encodeUtf8 t with
    | none => simp [encodeUtf8, ht]
    | some b => simp [encodeUtf8, ht]
  | cons c s ih =>
    rw [List.cons_append, encodeUtf8, encodeUtf8, ih]
    cases encodeCodePoint c with
    | none => rfl
    | some a =>
      cases encodeUtf8 s with
      | none => rfl
      | some b =>
        cases encodeUtf8 t with
        | none => rfl
        | some b' =>
          show some (a ++ (b ++ b')) = some (a ++ b ++ b')
          rw [List.append_assoc]

theorem encodeCodePoint_iff (c : ℕ) :
    (∃ b, encodeCodePoint c = some b) ↔ IsScalar c := by
  rw [encodeCodePoint, IsScalar]
  split_ifs
  all_goals simp only [exists_const, Option.some.injEq, exists_eq', true_iff, false_iff]
  all_goals omega

/-- Exactly the texts without surrogates are encoded. -/
theorem encodeUtf8_iff (s : Str) : (∃ b, encodeUtf8 s = some b) ↔ Scalar s := by
  induction s with
  | nil => exact ⟨fun _ => nofun, fun _ => ⟨[], rfl⟩⟩
  | cons c s ih =>
    rw [encodeUtf8, Scalar, List.forall_mem_cons, ← encodeCodePoint_iff]
    show _ ↔ (∃ b, _) ∧ Scalar s
    rw [← ih]
    cases encodeCodePoint c with
    | none => simp
    | some a =>
      cases encodeUtf8 s with
      | none => simp
      | some b => simp

theorem toNat_ofNat_byte {n : ℕ} (h : n < 256) : (UInt8.ofNat n).toNat = n := by
  rw [UInt8.toNat_ofNat']
  exact Nat.mod_eq_of_lt h

theorem isContinuation_ofNat {low high n : ℕ} (hlow : low ≤ n) (hhigh : n ≤ high) (h : n < 256) :
    isContinuation low high (UInt8.ofNat n) = true := by
  rw [isContinuation, toNat_ofNat_byte h]
  exact decide_eq_true ⟨hlow, hhigh⟩

theorem decodeUtf8_encodeCodePoint {c : ℕ} {b : List UInt8} (h : encodeCodePoint c = some b) (r : List UInt8) :
    decodeUtf8 (b ++ r) = (decodeUtf8 r).map (c :: ·) := by
  rw [encodeCodePoint] at h
  split_ifs at h with h1 h2 h3 h4 h5
  · cases h
    rw [List.singleton_append, decodeUtf8.eq_def]
    simp only [toNat_ofNat_byte (show c < 256 by omega), if_pos h1]
  · cases h
    have hfirst := toNat_ofNat_byte (show 0xC0 + c / 64 < 256 by omega)
    have hsecond := toNat_ofNat_byte (show 0x80 + c % 64 < 256 by omega)
    have hvalue : (0xC0 + c / 64 - 0xC0) * 64 + (0x80 + c % 64 - 0x80) = c := by omega
    rw [List.cons_append, List.singleton_append, decodeUtf8.eq_def]
    simp only [hfirst, hsecond, hvalue]
    rw [if_neg (by omega), if_pos (by omega),
      if_pos (isContinuation_ofNat (by omega) (by omega) (by omega))]
  · cases h
    have hfirst := toNat_ofNat_byte (show 0xE0 + c / 4096 < 256 by omega)
    have hsecond := toNat_ofNat_byte (show 0x80 + c / 64 % 64 < 256 by omega)
    have hthird := toNat_ofNat_byte (show 0x80 + c % 64 < 256 by omega)
    have hvalue : (0xE0 + c / 4096 - 0xE0) * 4096 + (0x80 + c / 64 % 64 - 0x80) * 64
        + (0x80 + c % 64 - 0x80) = c := by omega
    rw [List.cons_append, List.cons_append, List.singleton_append, decodeUtf8.eq_def]
    simp only [hfirst, hsecond, hthird, hvalue]
    rw [if_neg (by omega), if_neg (by omega), if_pos (by omega), if_pos]
    rw [Bool.and_eq_true]
    refine ⟨?_, isContinuation_ofNat (by omega) (by omega) (by omega)⟩
    split_ifs with hlow
    · exact isContinuation_ofNat (by omega) (by omega) (by omega)
    · exact isContinuation_ofNat (by omega) (by omega) (by omega)
  · cases h
    have hfirst := toNat_ofNat_byte (show 0xF0 + c / 262144 < 256 by omega)
    have hsecond := toNat_ofNat_byte (show 0x80 + c / 4096 % 64 < 256 by omega)
    have hthird := toNat_ofNat_byte (show 0x80 + c / 64 % 64 < 256 by omega)
    have hfourth := toNat_ofNat_byte (show 0x80 + c % 64 < 256 by omega)
    have hvalue : (0xF0 + c / 262144 - 0xF0) * 262144 + (0x80 + c / 4096 % 64 - 0x80) * 4096
        + (0x80 + c / 64 % 64 - 0x80) * 64 + (0x80 + c % 64 - 0x80) = c := by omega
    rw [List.cons_append, List.cons_append, List.cons_append, List.singleton_append, decodeUtf8.eq_def]
    simp only [hfirst, hsecond, hthird, hfourth, hvalue]
    rw [if_neg (by omega), if_neg (by omega), if_neg (by omega), if_pos (by omega), if_pos]
    rw [Bool.and_eq_true, Bool.and_eq_true]
    refine ⟨⟨?_, isContinuation_ofNat (by omega) (by omega) (by omega)⟩,
      isContinuation_ofNat (by omega) (by omega) (by omega)⟩
    refine isContinuation_ofNat ?_ ?_ (by omega)
    · split_ifs <;> omega
    · split_ifs <;> omega

/-- **What is encoded is decoded.** -/
theorem decodeStrict_encodeUtf8 {s : Str} {b : List UInt8} (h : encodeUtf8 s = some b) :
    decodeStrict b = some s := by
  have hdecode : ∀ {s : Str} {b : List UInt8}, encodeUtf8 s = some b → decodeUtf8 b = some s := by
    intro s
    induction s with
    | nil =>
      intro b hb
      cases hb
      rfl
    | cons c s ih =>
      intro b hb
      obtain ⟨a, ha, hb⟩ := Option.bind_eq_some_iff.mp hb
      obtain ⟨b', hb', rfl⟩ := Option.map_eq_some_iff.mp hb
      rw [decodeUtf8_encodeCodePoint ha, ih hb']
      rfl
  rw [decodeStrict, hdecode h]
  exact Option.filter_some_pos (decide_eq_true ((encodeUtf8_iff s).mp ⟨b, h⟩))

/-! ## Strings as they are -/

/-- A character of a string, escaped only where it must be. -/
def rawChar (c : ℕ) : Str :=
  if c = 34 then [92, 34]
  else if c = 92 then [92, 92]
  else if c = 10 then [92, 110]
  else if c = 13 then [92, 114]
  else if c = 9 then [92, 116]
  else if c = 12 then [92, 102]
  else if c = 8 then [92, 98]
  else if c < 32 then escapeUnit c
  else [c]

def rawString (s : Str) : Str := 34 :: s.flatMap rawChar ++ [34]

/-- A character is written as a short escape, as one unit below the surrogates, or as itself. -/
theorem rawChar_cases (c : ℕ) :
    (∃ e, unescape e = some c ∧ rawChar c = [92, e]) ∨ (c < 32 ∧ rawChar c = escapeUnit c) ∨
      (32 ≤ c ∧ c ≠ 34 ∧ c ≠ 92 ∧ rawChar c = [c]) := by
  rw [rawChar]
  split_ifs with h1 h2 h3 h4 h5 h6 h7 h8
  · exact .inl ⟨34, h1.symm ▸ rfl, rfl⟩
  · exact .inl ⟨92, h2.symm ▸ rfl, rfl⟩
  · exact .inl ⟨110, h3.symm ▸ rfl, rfl⟩
  · exact .inl ⟨114, h4.symm ▸ rfl, rfl⟩
  · exact .inl ⟨116, h5.symm ▸ rfl, rfl⟩
  · exact .inl ⟨102, h6.symm ▸ rfl, rfl⟩
  · exact .inl ⟨98, h7.symm ▸ rfl, rfl⟩
  · exact .inr (.inl ⟨h8, rfl⟩)
  · exact .inr (.inr ⟨by omega, h1, h2, rfl⟩)

/-- A string is written without control characters, and an ASCII string in ASCII. -/
theorem mem_rawString {s : Str} {c : ℕ} (hc : c ∈ rawString s) : 32 ≤ c ∧ (c ≤ 126 ∨ c ∈ s) := by
  rw [rawString, List.cons_append, List.mem_cons, List.mem_append, List.mem_singleton] at hc
  rcases hc with rfl | hc | rfl
  · exact ⟨by decide, .inl (by decide)⟩
  · obtain ⟨d, hd, hc⟩ := List.mem_flatMap.mp hc
    rcases rawChar_cases d with ⟨e, he, heq⟩ | ⟨-, heq⟩ | ⟨hge, -, -, heq⟩
    · have hascii := unescape_ascii he
      rw [heq] at hc
      simp only [List.mem_cons, List.not_mem_nil, or_false] at hc
      exact ⟨by omega, .inl (by omega)⟩
    · rw [heq] at hc
      exact ⟨(escapeUnit_ascii hc).1, .inl (escapeUnit_ascii hc).2⟩
    · rw [heq, List.mem_singleton] at hc
      exact ⟨hc ▸ hge, .inr (hc ▸ hd)⟩
  · exact ⟨by decide, .inl (by decide)⟩

theorem scanString_rawChars (s r : Str) : scanString none (s.flatMap rawChar ++ 34 :: r) = .ok (s, r) := by
  induction s with
  | nil =>
    show scanString none (34 :: r) = _
    rw [scanString]
    rfl
  | cons c s ih =>
    rw [List.flatMap_cons, List.append_assoc]
    rcases rawChar_cases c with ⟨e, he, hc⟩ | ⟨hlt, hc⟩ | ⟨hge, hquote, hslash, hc⟩
    · rw [hc, List.cons_append, List.singleton_append, scanString_escape he, ih, emit_ok]
      rfl
    · have hhigh : isHigh c = false := decide_eq_false (by omega)
      rw [hc, scanString_unit (by omega)]
      simp only [hhigh, Bool.false_eq_true, if_false, ih, emit_ok]
      rfl
    · rw [hc, List.singleton_append, scanString_plain hge hquote hslash, ih, emit_ok]
      rfl

/-- A character has a surrogate in its text exactly when it is one. -/
theorem scalar_rawChar (c : ℕ) : Scalar (rawChar c) ↔ IsScalar c := by
  rcases rawChar_cases c with ⟨e, he, hc⟩ | ⟨hlt, hc⟩ | ⟨-, -, -, hc⟩
  · have hbound := unescape_ascii he
    have hchar : c < 0xD800 := by
      rw [unescape] at he
      split_ifs at he
      all_goals
        cases he
        omega
    rw [hc]
    refine ⟨fun _ => .inl hchar, fun _ d hd => ?_⟩
    simp only [List.mem_cons, List.not_mem_nil, or_false] at hd
    exact Or.inl (by omega)
  · rw [hc]
    refine ⟨fun _ => .inl (by omega), fun _ d hd => ?_⟩
    have := escapeUnit_ascii hd
    exact Or.inl (by omega)
  · rw [hc]
    exact List.forall_mem_singleton

theorem scalar_append {s t : Str} : Scalar (s ++ t) ↔ Scalar s ∧ Scalar t := List.forall_mem_append

theorem scalar_rawString (s : Str) : Scalar (rawString s) ↔ Scalar s := by
  have hquote : Scalar [34] := by decide
  rw [rawString, ← List.singleton_append, List.append_assoc, scalar_append, scalar_append]
  have hchars : Scalar (s.flatMap rawChar) ↔ Scalar s := by
    induction s with
    | nil => rfl
    | cons c s ih =>
      rw [List.flatMap_cons, scalar_append, scalar_rawChar, ih, Scalar, Scalar, List.forall_mem_cons]
  rw [hchars]
  exact ⟨fun h => h.2.1, fun h => ⟨hquote, h, hquote⟩⟩

theorem joined_of_scalar {s : Str} (h : Scalar s) : Joined s where
  lt c hc := by
    rcases h c hc with hlt | ⟨-, hlt⟩
    · omega
    · exact hlt
  chain := by
    refine (List.pairwise_of_forall_mem_list ?_).isChain
    rintro a ha b - ⟨hhigh, -⟩
    have hscalar := h a ha
    simp only [isHigh, IsScalar, decide_eq_true_eq] at hhigh hscalar
    omega

/-! ## The pieces of a document -/

variable {F : Type}

/-- A line feed, and the indentation of a level. -/
def newline (indent level : ℕ) : Str := 10 :: List.replicate (indent * level) 32

/-- A value of an array after a separator: one piece, unless it is an array or an object. -/
def buffered (buf : Str) : Value F → List (Option Str) → List (Option Str)
  | .list _, chunks | .dict _, chunks => some buf :: chunks
  | _, chunks => chunks.map fun chunk => chunk.map (buf ++ ·)

mutual

/-- The pieces of a value with an indentation; at `none` an integer is too long for `int.__repr__`. -/
def iterencode [FloatText F] (indent level : ℕ) : Value F → List (Option Str)
  | .null => [some (codes "null")]
  | .bool true => [some (codes "true")]
  | .bool false => [some (codes "false")]
  | .int n => [if n.natAbs < 10 ^ maxStrDigits then some (dumpsInt n) else none]
  | .float x => [some (FloatText.repr x)]
  | .str s => [some (rawString s)]
  | .list [] => [some [91, 93]]
  | .list (v :: vs) =>
    itemChunks indent (level + 1) (91 :: newline indent (level + 1)) (v :: vs)
      ++ [some (newline indent level), some [93]]
  | .dict [] => [some [123, 125]]
  | .dict (m :: ms) =>
    some [123] :: memberChunks indent (level + 1) (newline indent (level + 1)) (m :: ms)
      ++ [some (newline indent level), some [125]]

def itemChunks [FloatText F] (indent level : ℕ) (buf : Str) : List (Value F) → List (Option Str)
  | [] => []
  | v :: vs =>
    buffered buf v (iterencode indent level v) ++ itemChunks indent level (44 :: newline indent level) vs

def memberChunks [FloatText F] (indent level : ℕ) (separator : Str) : List (Str × Value F) → List (Option Str)
  | [] => []
  | (key, v) :: ms =>
    some separator :: some (rawString key) :: some [58, 32] :: iterencode indent level v
      ++ memberChunks indent level (44 :: newline indent level) ms

end

/-- The text that the pieces make. -/
def text (chunks : List (Option Str)) : Str := chunks.flatMap fun chunk => chunk.getD []

theorem text_append (chunks rest : List (Option Str)) : text (chunks ++ rest) = text chunks ++ text rest :=
  List.flatMap_append

theorem text_some (s : Str) (rest : List (Option Str)) : text (some s :: rest) = s ++ text rest := rfl

theorem text_nil : text [] = [] := rfl

/-! ## Writing to the end -/

/-- The bytes of the pieces, when each of them is given and can be encoded. -/
def encodeChunks : List (Option Str) → Option (List UInt8)
  | [] => some []
  | chunk :: chunks =>
    chunk.bind fun s => (encodeUtf8 s).bind fun a => (encodeChunks chunks).map (a ++ ·)

theorem encodeChunks_cons_iff {chunk : Option Str} {chunks : List (Option Str)} {b : List UInt8} :
    encodeChunks (chunk :: chunks) = some b ↔
      ∃ s a c, chunk = some s ∧ encodeUtf8 s = some a ∧ encodeChunks chunks = some c ∧ a ++ c = b := by
  simp only [encodeChunks, Option.bind_eq_some_iff, Option.map_eq_some_iff]
  constructor
  · rintro ⟨s, hs, a, ha, c, hc, hb⟩
    exact ⟨s, a, c, hs, ha, hc, hb⟩
  · rintro ⟨s, a, c, hs, ha, hc, hb⟩
    exact ⟨s, hs, a, ha, c, hc, hb⟩

theorem encodeChunks_append_iff {done todo : List (Option Str)} {b : List UInt8} :
    encodeChunks (done ++ todo) = some b ↔
      ∃ a c, encodeChunks done = some a ∧ encodeChunks todo = some c ∧ a ++ c = b := by
  induction done generalizing b with
  | nil =>
    constructor
    · intro h
      exact ⟨[], b, rfl, h, rfl⟩
    · rintro ⟨a, c, ⟨⟩, hc, rfl⟩
      exact hc
  | cons chunk done ih =>
    rw [List.cons_append, encodeChunks_cons_iff]
    constructor
    · rintro ⟨s, a, c, hs, ha, hrest, rfl⟩
      obtain ⟨a', c', hdone, htodo, rfl⟩ := ih.mp hrest
      exact ⟨a ++ a', c', encodeChunks_cons_iff.mpr ⟨s, a, a', hs, ha, hdone, rfl⟩, htodo, List.append_assoc _ _ _⟩
    · rintro ⟨a, c, hall, htodo, rfl⟩
      obtain ⟨s, a', c', hs, ha, hdone, rfl⟩ := encodeChunks_cons_iff.mp hall
      exact ⟨s, a', c' ++ c, hs, ha, ih.mpr ⟨c', c, hdone, htodo, rfl⟩, (List.append_assoc _ _ _).symm⟩

/-- The bytes of the pieces are those of the text. -/
theorem encodeUtf8_text {chunks : List (Option Str)} {b : List UInt8} (h : encodeChunks chunks = some b) :
    encodeUtf8 (text chunks) = some b := by
  induction chunks generalizing b with
  | nil => exact h
  | cons chunk chunks ih =>
    obtain ⟨s, a, c, rfl, ha, hc, rfl⟩ := encodeChunks_cons_iff.mp h
    rw [text_some, encodeUtf8_append, ha, Option.bind_some, ih hc]
    rfl

/-- A piece that is given, of characters with `p`. -/
def Given (p : ℕ → Prop) (chunk : Option Str) : Prop := ∃ s, chunk = some s ∧ ∀ c ∈ s, p c

theorem given_some {p : ℕ → Prop} {s : Str} : Given p (some s) ↔ ∀ c ∈ s, p c :=
  ⟨fun ⟨_, h, hs⟩ => Option.some.inj h ▸ hs, fun h => ⟨s, rfl, h⟩⟩

theorem encodeChunks_iff (chunks : List (Option Str)) :
    (∃ b, encodeChunks chunks = some b) ↔ ∀ chunk ∈ chunks, Given IsScalar chunk := by
  induction chunks with
  | nil => exact ⟨fun _ => nofun, fun _ => ⟨[], rfl⟩⟩
  | cons chunk chunks ih =>
    rw [List.forall_mem_cons, ← ih]
    constructor
    · rintro ⟨b, h⟩
      obtain ⟨s, a, c, rfl, ha, hc, -⟩ := encodeChunks_cons_iff.mp h
      exact ⟨⟨s, rfl, (encodeUtf8_iff s).mp ⟨a, ha⟩⟩, c, hc⟩
    · rintro ⟨⟨s, rfl, hs⟩, c, hc⟩
      obtain ⟨a, ha⟩ := (encodeUtf8_iff s).mpr hs
      exact ⟨a ++ c, encodeChunks_cons_iff.mpr ⟨s, a, c, rfl, ha, hc, rfl⟩⟩

/-- The characters of a text whose pieces have them. -/
theorem mem_text {p : ℕ → Prop} {chunks : List (Option Str)} (h : ∀ chunk ∈ chunks, Given p chunk) :
    ∀ c ∈ text chunks, p c := by
  intro c hc
  obtain ⟨chunk, hchunk, hc⟩ := List.mem_flatMap.mp hc
  obtain ⟨s, rfl, hs⟩ := h chunk hchunk
  exact hs c hc

mutual

/-- A value whose integers are short enough, and whose texts are of characters with `p` as they are written. -/
def Value.Written (p : ℕ → Prop) : Value F → Prop
  | .int n => n.natAbs < 10 ^ maxStrDigits
  | .str s => ∀ c ∈ rawString s, p c
  | .list items => WrittenItems p items
  | .dict ms => WrittenMembers p ms
  | _ => True

def WrittenItems (p : ℕ → Prop) : List (Value F) → Prop
  | [] => True
  | v :: vs => v.Written p ∧ WrittenItems p vs

def WrittenMembers (p : ℕ → Prop) : List (Str × Value F) → Prop
  | [] => True
  | (key, v) :: ms => (∀ c ∈ rawString key, p c) ∧ v.Written p ∧ WrittenMembers p ms

end

section Pieces

variable {p : ℕ → Prop}

theorem given_buffered {buf : Str} (hbuf : ∀ c ∈ buf, p c) (v : Value F) (chunks : List (Option Str)) :
    (∀ chunk ∈ buffered buf v chunks, Given p chunk) ↔ ∀ chunk ∈ chunks, Given p chunk := by
  have hcons : (∀ chunk ∈ some buf :: chunks, Given p chunk) ↔ ∀ chunk ∈ chunks, Given p chunk := by
    rw [List.forall_mem_cons, given_some]
    exact and_iff_right hbuf
  have hmap : (∀ chunk ∈ chunks.map fun chunk => chunk.map (buf ++ ·), Given p chunk) ↔
      ∀ chunk ∈ chunks, Given p chunk := by
    rw [List.forall_mem_map]
    refine forall_congr' fun chunk => imp_congr_right fun _ => ?_
    cases chunk with
    | none => exact Iff.rfl
    | some s =>
      rw [Option.map_some, given_some, given_some, List.forall_mem_append]
      exact and_iff_right hbuf
  cases v with
  | list items => exact hcons
  | dict ms => exact hcons
  | null => exact hmap
  | bool b => exact hmap
  | int n => exact hmap
  | float x => exact hmap
  | str s => exact hmap

variable (hp : ∀ c, c = 10 ∨ 32 ≤ c ∧ c ≤ 126 → p c)
include hp

theorem forall_newline (indent level : ℕ) : ∀ c ∈ newline indent level, p c := by
  refine List.forall_mem_cons.mpr ⟨hp 10 (.inl rfl), fun c hc => ?_⟩
  rw [List.eq_of_mem_replicate hc]
  exact hp 32 (.inr (by decide))

theorem forall_separator {c : ℕ} (hc : 32 ≤ c ∧ c ≤ 126) (indent level : ℕ) :
    ∀ d ∈ c :: newline indent level, p d :=
  List.forall_mem_cons.mpr ⟨hp c (.inr hc), forall_newline hp indent level⟩

theorem given_ascii {s : Str} (hs : ∀ c ∈ s, 32 ≤ c ∧ c ≤ 126) : ∀ chunk ∈ [some s], Given p chunk :=
  List.forall_mem_singleton.mpr (given_some.mpr fun c hc => hp c (.inr (hs c hc)))

theorem given_closing {c : ℕ} (hc : 32 ≤ c ∧ c ≤ 126) (indent level : ℕ) :
    ∀ chunk ∈ [some (newline indent level), some [c]], Given p chunk :=
  List.forall_mem_cons.mpr ⟨given_some.mpr (forall_newline hp indent level),
    given_ascii hp (List.forall_mem_singleton.mpr hc)⟩

mutual

/-- **The pieces of a value**: all are given, of characters with `p`, exactly when the value is so written. -/
theorem given_iterencode [FloatText F] (indent : ℕ) : ∀ (level : ℕ) (v : Value F),
    (∀ chunk ∈ iterencode indent level v, Given p chunk) ↔ v.Written p
  | level, .null => iff_of_true (given_ascii hp (by decide)) trivial
  | level, .bool true => iff_of_true (given_ascii hp (by decide)) trivial
  | level, .bool false => iff_of_true (given_ascii hp (by decide)) trivial
  | level, .int n => by
    rw [iterencode]
    split
    · next h => exact iff_of_true (given_ascii hp fun c hc => dumpsInt_ascii hc) h
    · next h => exact iff_of_false (fun hall => nomatch hall none List.mem_cons_self) h
  | level, .float x => iff_of_true (given_ascii hp (FloatText.repr_ascii x)) trivial
  | level, .str s => by
    rw [iterencode, List.forall_mem_singleton, given_some]
    exact Iff.rfl
  | level, .list [] => iff_of_true (given_ascii hp (by decide)) trivial
  | level, .list (v :: vs) => by
    have hbuf := forall_separator hp (c := 91) (by decide) indent (level + 1)
    rw [iterencode, List.forall_mem_append, given_itemChunks indent (level + 1) hbuf (v :: vs)]
    exact and_iff_left (given_closing hp (by decide) indent level)
  | level, .dict [] => iff_of_true (given_ascii hp (by decide)) trivial
  | level, .dict (m :: ms) => by
    have hopen : Given p (some [123]) := given_some.mpr (List.forall_mem_singleton.mpr (hp 123 (.inr (by decide))))
    rw [iterencode, List.forall_mem_append, List.forall_mem_cons,
      given_memberChunks indent (level + 1) (forall_newline hp indent (level + 1)) (m :: ms)]
    exact (and_iff_left (given_closing hp (by decide) indent level)).trans (and_iff_right hopen)

theorem given_itemChunks [FloatText F] (indent : ℕ) : ∀ (level : ℕ) {buf : Str} (_ : ∀ c ∈ buf, p c)
    (items : List (Value F)),
    (∀ chunk ∈ itemChunks indent level buf items, Given p chunk) ↔ WrittenItems p items
  | level, buf, hbuf, [] => iff_of_true nofun trivial
  | level, buf, hbuf, v :: vs => by
    rw [itemChunks, List.forall_mem_append, given_buffered hbuf, given_iterencode indent level v,
      given_itemChunks indent level (forall_separator hp (by decide) indent level) vs]
    exact Iff.rfl

theorem given_memberChunks [FloatText F] (indent : ℕ) : ∀ (level : ℕ) {separator : Str}
    (_ : ∀ c ∈ separator, p c) (ms : List (Str × Value F)),
    (∀ chunk ∈ memberChunks indent level separator ms, Given p chunk) ↔ WrittenMembers p ms
  | level, separator, hseparator, [] => iff_of_true nofun trivial
  | level, separator, hseparator, (key, v) :: ms => by
    have hcolon : Given p (some [58, 32]) := given_ascii hp (by decide) _ List.mem_cons_self
    rw [memberChunks, List.forall_mem_append, List.forall_mem_cons, List.forall_mem_cons, List.forall_mem_cons,
      given_some, given_some, given_iterencode indent level v,
      given_memberChunks indent level (forall_separator hp (by decide) indent level) ms]
    exact ⟨fun h => ⟨h.1.2.1, h.1.2.2.2, h.2⟩, fun h => ⟨⟨hseparator, h.1, hcolon, h.2.1⟩, h.2.2⟩⟩

end

end Pieces

theorem isScalar_printed (c : ℕ) (h : c = 10 ∨ 32 ≤ c ∧ c ≤ 126) : IsScalar c := by
  left
  omega

/-- A document is written to its end exactly when its integers are short enough and it has no surrogates. -/
theorem encodeChunks_iterencode [FloatText F] (indent level : ℕ) (v : Value F) :
    (∃ b, encodeChunks (iterencode indent level v) = some b) ↔ v.Written IsScalar :=
  (encodeChunks_iff _).trans (given_iterencode isScalar_printed indent level v)

mutual

/-- A value without floating point numbers, in which no object has a key twice. -/
def Value.Plain : Value F → Prop
  | .float _ => False
  | .list items => PlainItems items
  | .dict ms => PlainMembers ms ∧ (ms.map Prod.fst).Nodup
  | _ => True

def PlainItems : List (Value F) → Prop
  | [] => True
  | v :: vs => v.Plain ∧ PlainItems vs

def PlainMembers : List (Str × Value F) → Prop
  | [] => True
  | (_, v) :: ms => v.Plain ∧ PlainMembers ms

end

mutual

/-- A plain value that is written to its end survives. -/
theorem regular_of_written [FloatText F] : ∀ (v : Value F), v.Plain → v.Written IsScalar → v.Regular
  | .null, _, _ => trivial
  | .bool _, _, _ => trivial
  | .int _, _, h => h
  | .float _, hplain, _ => hplain.elim
  | .str s, _, h => joined_of_scalar ((scalar_rawString s).mp h)
  | .list items, hplain, h => regularItems_of_written items hplain h
  | .dict ms, hplain, h => ⟨regularMembers_of_written ms hplain.1 h, hplain.2⟩

theorem regularItems_of_written [FloatText F] : ∀ (items : List (Value F)), PlainItems items →
    WrittenItems IsScalar items → RegularItems items
  | [], _, _ => trivial
  | v :: vs, hplain, h => ⟨regular_of_written v hplain.1 h.1, regularItems_of_written vs hplain.2 h.2⟩

theorem regularMembers_of_written [FloatText F] : ∀ (ms : List (Str × Value F)), PlainMembers ms →
    WrittenMembers IsScalar ms → RegularMembers ms
  | [], _, _ => trivial
  | (key, v) :: ms, hplain, h =>
    ⟨joined_of_scalar ((scalar_rawString key).mp h.1), regular_of_written v hplain.1 h.2.1,
      regularMembers_of_written ms hplain.2 h.2.2⟩

end

/-! ## Reading the text -/

theorem blank_newline (indent level : ℕ) : Blank (newline indent level) := by
  refine List.forall_mem_cons.mpr ⟨by decide, fun c hc => ?_⟩
  rw [List.eq_of_mem_replicate hc]
  decide

theorem blank_space : Blank [32] := List.forall_mem_singleton.mpr rfl

theorem stringBody_rawChars (s : Str) : StringBody s (s.flatMap rawChar) := scanString_rawChars s

section Text

variable [FloatText F] (indent level : ℕ)

theorem text_buffered {v : Value F} (h : v.Regular) (buf : Str) :
    text (buffered buf v (iterencode indent level v)) = buf ++ text (iterencode indent level v) := by
  have hone {s : Str} (hs : iterencode indent level v = [some s]) :
      text ((iterencode indent level v).map fun chunk => chunk.map (buf ++ ·))
        = buf ++ text (iterencode indent level v) := by
    rw [hs]
    show (buf ++ s) ++ [] = buf ++ (s ++ [])
    rw [List.append_assoc]
  cases v with
  | list items => rfl
  | dict ms => rfl
  | null => exact hone rfl
  | bool b => cases b <;> exact hone rfl
  | int n =>
    refine hone (s := dumpsInt n) ?_
    rw [iterencode, if_pos (show n.natAbs < 10 ^ maxStrDigits from h)]
  | float x => exact hone rfl
  | str s => exact hone rfl

theorem text_itemChunks_cons {v : Value F} (h : v.Regular) (buf : Str) (vs : List (Value F)) (r : Str) :
    text (itemChunks indent level buf (v :: vs)) ++ r
      = buf ++ (text (iterencode indent level v)
          ++ (text (itemChunks indent level (44 :: newline indent level) vs) ++ r)) := by
  rw [itemChunks, text_append, text_buffered indent level h]
  simp only [List.append_assoc]

theorem text_memberChunks_cons (separator key : Str) (v : Value F) (ms : List (Str × Value F)) (r : Str) :
    text (memberChunks indent level separator ((key, v) :: ms)) ++ r
      = separator ++ 34 :: (key.flatMap rawChar ++ 34 :: 58 :: 32 :: (text (iterencode indent level v)
          ++ (text (memberChunks indent level (44 :: newline indent level) ms) ++ r))) := by
  rw [memberChunks, text_append, text_some, text_some, text_some, rawString]
  simp

theorem text_list {v : Value F} (h : v.Regular) (vs : List (Value F)) (r : Str) :
    text (iterencode indent level (.list (v :: vs))) ++ r
      = 91 :: (newline indent (level + 1) ++ (text (iterencode indent (level + 1) v)
          ++ (text (itemChunks indent (level + 1) (44 :: newline indent (level + 1)) vs)
            ++ (newline indent level ++ 93 :: r)))) := by
  rw [iterencode, text_append, List.append_assoc, text_itemChunks_cons _ _ h, text_some, text_some, text_nil]
  simp

theorem text_dict (key : Str) (v : Value F) (ms : List (Str × Value F)) (r : Str) :
    text (iterencode indent level (.dict ((key, v) :: ms))) ++ r
      = 123 :: (newline indent (level + 1) ++ 34 :: (key.flatMap rawChar ++ 34 :: 58 :: 32 ::
          (text (iterencode indent (level + 1) v)
            ++ (text (memberChunks indent (level + 1) (44 :: newline indent (level + 1)) ms)
              ++ (newline indent level ++ 125 :: r))))) := by
  rw [iterencode, text_append, text_some, List.append_assoc, List.append_assoc, text_memberChunks_cons, text_some,
    text_some, text_nil]
  simp

mutual

/-- The indented text spells the value. -/
theorem spelledBy_text : ∀ (v : Value F) (level : ℕ), v.Regular →
    v.SpelledBy (text (iterencode indent level v))
  | .null, _, _ => rfl
  | .bool true, _, _ => rfl
  | .bool false, _, _ => rfl
  | .int n, level, h => by
    refine ⟨h, ?_⟩
    rw [iterencode, if_pos (show n.natAbs < 10 ^ maxStrDigits from h), text_some, text_nil, List.append_nil]
  | .float x, level, h => ⟨h, List.append_nil _⟩
  | .str s, _, _ => ⟨_, stringBody_rawChars s, List.append_nil _⟩
  | .list [], _, _ => rfl
  | .list (v :: vs), level, h => by
    refine ⟨newline indent (level + 1), _, blank_newline indent (level + 1),
      itemsSpelledBy_text v vs (level + 1) level h, ?_⟩
    rw [← List.append_nil (text (iterencode indent level _)), text_list indent level h.1]
  | .dict [], _, _ => rfl
  | .dict ((key, v) :: ms), level, h => by
    refine ⟨h.2, newline indent (level + 1), _, blank_newline indent (level + 1),
      membersSpelledBy_text key v ms (level + 1) level h.1, ?_⟩
    rw [← List.append_nil (text (iterencode indent level _)), text_dict]
termination_by v => sizeOf v

theorem itemsSpelledBy_text : ∀ (v : Value F) (vs : List (Value F)) (level outer : ℕ), RegularItems (v :: vs) →
    ItemsSpelledBy (v :: vs) (text (iterencode indent level v)
      ++ (text (itemChunks indent level (44 :: newline indent level) vs) ++ (newline indent outer ++ [93])))
  | v, [], level, outer, h => ⟨_, _, spelledBy_text v level h.1, blank_newline indent outer, rfl⟩
  | v, v' :: vs, level, outer, h => by
    refine ⟨_, newline indent level, _, spelledBy_text v level h.1, blank_newline indent level,
      itemsSpelledBy_text v' vs level outer h.2, ?_⟩
    rw [text_itemChunks_cons indent level h.2.1]
    rfl
termination_by v vs => sizeOf v + sizeOf vs

theorem membersSpelledBy_text : ∀ (key : Str) (v : Value F) (ms : List (Str × Value F)) (level outer : ℕ),
    RegularMembers ((key, v) :: ms) →
    MembersSpelledBy ((key, v) :: ms) (key.flatMap rawChar ++ 34 :: 58 :: 32 :: (text (iterencode indent level v)
      ++ (text (memberChunks indent level (44 :: newline indent level) ms) ++ (newline indent outer ++ [125]))))
  | key, v, [], level, outer, h =>
    ⟨_, [32], _, _, stringBody_rawChars key, blank_space, spelledBy_text v level h.2.1,
      blank_newline indent outer, rfl⟩
  | key, v, (key', v') :: ms, level, outer, h => by
    refine ⟨_, [32], _, newline indent level, _, stringBody_rawChars key, blank_space,
      spelledBy_text v level h.2.1, blank_newline indent level, membersSpelledBy_text key' v' ms level outer h.2.2,
      ?_⟩
    rw [text_memberChunks_cons]
    rfl
termination_by _ v ms => sizeOf v + sizeOf ms

end

/-- **Reading undoes writing**, with white space after the document. -/
theorem loads_text {v : Value F} (h : v.Regular) {depth : ℕ} (hdepth : v.depth ≤ depth) {ws : Str}
    (hws : ∀ c ∈ ws, isWs c = true) : loads depth (text (iterencode indent level v) ++ ws) = .ok v :=
  loads_spelled (spelledBy_text indent v level h) hdepth hws

end Text

end HardwareTest.Lib.Json
