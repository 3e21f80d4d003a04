import Mathlib

/-!
# JSON texts

A JSON text is a list of code points.  Strings are lists of code points as well and may hold
surrogates, since an escape can name one.  Numbers with a fraction or an exponent are values of a type
`F`, which brings its own text.

* `scanOnce` — the recursive descent reader: one value and the text after it;
* `loads` — a whole document;
* `dumps` — the compact writer, whose output is printable ASCII;
* `loads_dumps` — reading undoes writing, for every `Regular` value.
-/

namespace HardwareTest.Lib.Json

/-- A string, by its code points. -/
abbrev Str := List ℕ

instance lawfulBEqStr : LawfulBEq Str := inferInstance

/-- The code points of a literal. -/
def codes (s : String) : Str := s.toList.map Char.toNat

/-- The text of floating point numbers: `repr` writes one in printable ASCII, `read` reads a literal. -/
class FloatText (F : Type) where
  read : Str → F
  repr : F → Str
  repr_ascii : ∀ x, ∀ c ∈ repr x, 32 ≤ c ∧ c ≤ 126

inductive Value (F : Type)
  | null
  | bool (b : Bool)
  | int (n : ℤ)
  | float (x : F)
  | str (s : Str)
  | list (items : List (Value F))
  | dict (members : List (Str × Value F))

/-- Why a document is not read. -/
inductive LoadsError
  | unicodeDecodeError
  | jsonDecodeError
  | valueError
  | recursionError
  deriving DecidableEq

variable {F : Type}

/-! ## Reading -/

abbrev Read (α : Type) := Except LoadsError (α × Str)

def isWs (c : ℕ) : Bool := c == 32 || c == 9 || c == 10 || c == 13

def skipWs (s : Str) : Str := s.dropWhile isWs

def isDigit (c : ℕ) : Bool := decide (48 ≤ c ∧ c ≤ 57)

/-- The digits a text starts with, and the rest. -/
def digits (s : Str) : Str × Str := (s.takeWhile isDigit, s.dropWhile isDigit)

/-- The value of a hexadecimal digit. -/
def hexVal (c : ℕ) : Option ℕ :=
  if 48 ≤ c ∧ c ≤ 57 then some (c - 48)
  else if 97 ≤ c ∧ c ≤ 102 then some (c - 87)
  else if 65 ≤ c ∧ c ≤ 70 then some (c - 55)
  else none

def hex4 (a b c d : ℕ) : Option ℕ := do
  let a ← hexVal a
  let b ← hexVal b
  let c ← hexVal c
  let d ← hexVal d
  return ((a * 16 + b) * 16 + c) * 16 + d

def isHigh (c : ℕ) : Bool := decide (0xD800 ≤ c ∧ c ≤ 0xDBFF)

def isLow (c : ℕ) : Bool := decide (0xDC00 ≤ c ∧ c ≤ 0xDFFF)

/-- The code point of a surrogate pair. -/
def joinPair (high low : ℕ) : ℕ := 0x10000 + (high - 0xD800) * 1024 + (low - 0xDC00)

/-- The escapes of one character. -/
def unescape (c : ℕ) : Option ℕ :=
  if c = 34 ∨ c = 92 ∨ c = 47 then some c
  else if c = 98 then some 8
  else if c = 102 then some 12
  else if c = 110 then some 10
  else if c = 114 then some 13
  else if c = 116 then some 9
  else none

/-- Code points in front of a string that is read. -/
def emit (cs : Str) (r : Read Str) : Read Str := r.map fun p => (cs ++ p.1, p.2)

/-- The characters of a string up to its closing quote.  `pending` is a high surrogate that the escape
before has named: a low one that follows it as an escape completes the pair. -/
def scanString : Option ℕ → Str → Read Str
  | _, [] => .error .jsonDecodeError
  | pending, 34 :: r => .ok (pending.toList, r)
  | pending, 92 :: 117 :: a :: b :: c :: d :: r =>
    match hex4 a b c d with
    | none => .error .jsonDecodeError
    | some u =>
      match pending with
      | some high =>
        if isLow u then emit [joinPair high u] (scanString none r)
        else if isHigh u then emit [high] (scanString (some u) r)
        else emit [high, u] (scanString none r)
      | none => if isHigh u then scanString (some u) r else emit [u] (scanString none r)
  | pending, 92 :: e :: r =>
    match unescape e with
    | none => .error .jsonDecodeError
    | some c => emit (pending.toList ++ [c]) (scanString none r)
  | pending, c :: r =>
    if c < 32 then .error .jsonDecodeError else emit (pending.toList ++ [c]) (scanString none r)

/-- The number of digits that the reader converts at most. -/
def maxStrDigits : ℕ := 4300

/-- The value of decimal digits. -/
def digitsValue (s : Str) : ℕ := s.foldl (fun n c => n * 10 + (c - 48)) 0

/-- The integer part of a number, without its sign: a zero, or digits that do not start with one. -/
def integerPart : Str → Option (Str × Str)
  | 48 :: r => some ([48], r)
  | c :: r => if 49 ≤ c ∧ c ≤ 57 then some (c :: (digits r).1, (digits r).2) else none
  | [] => none

/-- A fraction, which may be missing. -/
def fraction : Str → Str × Str
  | 46 :: r => if (digits r).1 = [] then ([], 46 :: r) else (46 :: (digits r).1, (digits r).2)
  | r => ([], r)

/-- The sign of an exponent. -/
def exponentSign : Str → Str × Str
  | 43 :: r => ([43], r)
  | 45 :: r => ([45], r)
  | r => ([], r)

/-- An exponent, which may be missing. -/
def exponentPart : Str → Str × Str
  | [] => ([], [])
  | c :: r =>
    if c = 101 ∨ c = 69 then
      let (sign, s) := exponentSign r
      if (digits s).1 = [] then ([], c :: r) else (c :: sign ++ (digits s).1, (digits s).2)
    else ([], c :: r)

/-- A number from its sign on: an integer, or a floating point number when it has a fraction or an
exponent. -/
def number [FloatText F] (sign s : Str) : Read (Value F) :=
  match integerPart s with
  | none => .error .jsonDecodeError
  | some (ds, r) =>
    let (frac, r) := fraction r
    let (exp, r) := exponentPart r
    if frac = [] ∧ exp = [] then
      if ds.length ≤ maxStrDigits then
        .ok (.int (if sign = [] then (digitsValue ds : ℤ) else -(digitsValue ds : ℤ)), r)
      else .error .valueError
    else .ok (.float (FloatText.read (sign ++ ds ++ frac ++ exp)), r)

/-- The members of an object from the opening quote of a key on; `fuel` bounds their number. -/
def members (value : Str → Read (Value F)) : ℕ → Str → Read (List (Str × Value F))
  | 0, _ => .error .jsonDecodeError
  | fuel + 1, s =>
    match scanString none s with
    | .error e => .error e
    | .ok (key, r) =>
      match skipWs r with
      | 58 :: r =>
        match value (skipWs r) with
        | .error e => .error e
        | .ok (v, r) =>
          match skipWs r with
          | 125 :: r => .ok ([(key, v)], r)
          | 44 :: r =>
            match skipWs r with
            | 34 :: r => (members value fuel r).map fun p => ((key, v) :: p.1, p.2)
            | _ => .error .jsonDecodeError
          | _ => .error .jsonDecodeError
      | _ => .error .jsonDecodeError

/-- The elements of an array. -/
def elements (value : Str → Read (Value F)) : ℕ → Str → Read (List (Value F))
  | 0, _ => .error .jsonDecodeError
  | fuel + 1, s =>
    match value s with
    | .error e => .error e
    | .ok (v, r) =>
      match skipWs r with
      | 93 :: r => .ok ([v], r)
      | 44 :: r => (elements value fuel (skipWs r)).map fun p => (v :: p.1, p.2)
      | _ => .error .jsonDecodeError

/-- `d[key] = value`: a key that is there keeps its place. -/
def insert (d : List (Str × Value F)) (m : Str × Value F) : List (Str × Value F) :=
  if m.1 ∈ d.map Prod.fst then d.map fun p => if p.1 = m.1 then m else p else d ++ [m]

/-- The dictionary of pairs: the last value of a key counts. -/
def dictOf (pairs : List (Str × Value F)) : List (Str × Value F) := pairs.foldl insert []

/-- One value and the text after it.  `depth` is the number of arrays and objects that may still be
opened. -/
def scanOnce [FloatText F] : ℕ → Str → Read (Value F)
  | _, 34 :: r => (scanString none r).map fun p => (.str p.1, p.2)
  | 0, 123 :: _ => .error .recursionError
  | depth + 1, 123 :: r =>
    match skipWs r with
    | 125 :: r => .ok (.dict [], r)
    | 34 :: r => (members (scanOnce depth) r.length r).map fun p => (.dict (dictOf p.1), p.2)
    | _ => .error .jsonDecodeError
  | 0, 91 :: _ => .error .recursionError
  | depth + 1, 91 :: r =>
    match skipWs r with
    | 93 :: r => .ok (.list [], r)
    | s => (elements (scanOnce depth) s.length s).map fun p => (.list p.1, p.2)
  | _, 110 :: 117 :: 108 :: 108 :: r => .ok (.null, r)
  | _, 116 :: 114 :: 117 :: 101 :: r => .ok (.bool true, r)
  | _, 102 :: 97 :: 108 :: 115 :: 101 :: r => .ok (.bool false, r)
  | _, 78 :: 97 :: 78 :: r => .ok (.float (FloatText.read (codes "NaN")), r)
  | _, 73 :: 110 :: 102 :: 105 :: 110 :: 105 :: 116 :: 121 :: r =>
    .ok (.float (FloatText.read (codes "Infinity")), r)
  | _, 45 :: 73 :: 110 :: 102 :: 105 :: 110 :: 105 :: 116 :: 121 :: r =>
    .ok (.float (FloatText.read (codes "-Infinity")), r)
  | _, 45 :: r => number [45] r
  | _, s => number [] s

/-- A whole document, with white space around its value. -/
def loads [FloatText F] (depth : ℕ) (s : Str) : Except LoadsError (Value F) :=
  match scanOnce depth (skipWs s) with
  | .error e => .error e
  | .ok (v, r) => if skipWs r = [] then .ok v else .error .jsonDecodeError

/-! ## Writing -/

def hexDigit (n : ℕ) : ℕ := if n < 10 then 48 + n else 87 + n

def escapeUnit (n : ℕ) : Str :=
  [92, 117, hexDigit (n / 4096 % 16), hexDigit (n / 256 % 16), hexDigit (n / 16 % 16), hexDigit (n % 16)]

/-- A character of a string as the writer spells it. -/
def escapeChar (c : ℕ) : Str :=
  if c = 34 then [92, 34]
  else if c = 92 then [92, 92]
  else if c = 10 then [92, 110]
  else if c = 13 then [92, 114]
  else if c = 9 then [92, 116]
  else if c = 12 then [92, 102]
  else if c = 8 then [92, 98]
  else if 32 ≤ c ∧ c ≤ 126 then [c]
  else if c < 0x10000 then escapeUnit c
  else escapeUnit (0xD800 + (c - 0x10000) / 1024 % 1024) ++ escapeUnit (0xDC00 + (c - 0x10000) % 1024)

def dumpsString (s : Str) : Str := 34 :: s.flatMap escapeChar ++ [34]

/-- `int.__repr__`. -/
def dumpsInt (n : ℤ) : Str :=
  (if n < 0 then [45] else []) ++ (Nat.toDigits 10 n.natAbs).map Char.toNat

mutual

/-- A value, with the separators `,` and `:`. -/
def dumps [FloatText F] : Value F → Str
  | .null => codes "null"
  | .bool true => codes "true"
  | .bool false => codes "false"
  | .int n => dumpsInt n
  | .float x => FloatText.repr x
  | .str s => dumpsString s
  | .list items => 91 :: dumpsItems items ++ [93]
  | .dict ms => 123 :: dumpsMembers ms ++ [125]

def dumpsItems [FloatText F] : List (Value F) → Str
  | [] => []
  | [v] => dumps v
  | v :: vs => dumps v ++ 44 :: dumpsItems vs

def dumpsMembers [FloatText F] : List (Str × Value F) → Str
  | [] => []
  | [(key, v)] => dumpsString key ++ 58 :: dumps v
  | (key, v) :: ms => dumpsString key ++ 58 :: dumps v ++ 44 :: dumpsMembers ms

end

/-! ## Strings -/

theorem hexVal_hexDigit {n : ℕ} (h : n < 16) : hexVal (hexDigit n) = some n := by
  have : ∀ n < 16, hexVal (hexDigit n) = some n := by decide
  exact this n h

theorem hex4_escapeUnit {n : ℕ} (h : n < 0x10000) :
    hex4 (hexDigit (n / 4096 % 16)) (hexDigit (n / 256 % 16)) (hexDigit (n / 16 % 16))
      (hexDigit (n % 16)) = some n := by
  have hlt : ∀ k, k % 16 < 16 := fun k => Nat.mod_lt k (by decide)
  simp only [hex4, hexVal_hexDigit (hlt _), Option.bind_eq_bind, Option.bind_some, Option.pure_def,
    Option.some.injEq]
  omega

/-- The text of a string: code points, and no high surrogate directly before a low one. -/
structure Joined (s : Str) : Prop where
  lt : ∀ c ∈ s, c < 0x110000
  chain : s.IsChain fun a b => ¬(isHigh a = true ∧ isLow b = true)

theorem Joined.tail {c : ℕ} {s : Str} (h : Joined (c :: s)) : Joined s :=
  ⟨fun d hd => h.lt d (List.mem_cons_of_mem c hd), h.chain.tail⟩

/-- A string may follow a surrogate that is still pending. -/
def Follows (pending : Option ℕ) (s : Str) : Prop :=
  ∀ high ∈ pending, isHigh high = true ∧ ∀ c ∈ s.head?, isLow c = false

theorem follows_none (s : Str) : Follows none s := by
  intro high hhigh
  cases hhigh

theorem Joined.follows {c : ℕ} {s : Str} (h : Joined (c :: s)) (hc : isHigh c = true) :
    Follows (some c) s := by
  intro high hhigh
  cases hhigh
  refine ⟨hc, fun d hd => ?_⟩
  cases s with
  | nil => cases hd
  | cons d' s =>
    cases hd
    by_contra hlow
    exact (List.isChain_cons_cons.mp h.chain).1 ⟨hc, by simpa using hlow⟩

theorem emit_ok (cs s r : Str) : emit cs (.ok (s, r)) = .ok (cs ++ s, r) := rfl

section Scan

variable {pending : Option ℕ} {r : Str}

theorem scanString_plain {c : ℕ} (h : 32 ≤ c) (hquote : c ≠ 34) (hslash : c ≠ 92) :
    scanString pending (c :: r) = emit (pending.toList ++ [c]) (scanString none r) := by
  rw [scanString]
  · rw [if_neg (by omega)]
  · simpa using hquote
  · simp [hslash]
  · simp [hslash]

theorem scanString_escape {e c : ℕ} (h : unescape e = some c) :
    scanString pending (92 :: e :: r) = emit (pending.toList ++ [c]) (scanString none r) := by
  have he : e ≠ 117 := by
    rintro rfl
    cases h
  rw [scanString]
  · rw [h]
  · simp [he]

theorem scanString_unit {u : ℕ} (hu : u < 0x10000) :
    scanString pending (escapeUnit u ++ r) = match pending with
      | some high =>
        if isLow u then emit [joinPair high u] (scanString none r)
        else if isHigh u then emit [high] (scanString (some u) r)
        else emit [high, u] (scanString none r)
      | none => if isHigh u then scanString (some u) r else emit [u] (scanString none r) := by
  rw [escapeUnit, List.cons_append, List.cons_append, List.cons_append, List.cons_append,
    List.cons_append, List.cons_append, List.nil_append, scanString, hex4_escapeUnit hu]

/-- **The four spellings of a character**: a short escape, itself, one unit, or a surrogate pair. -/
theorem escapeChar_cases (c : ℕ) :
    (∃ e, unescape e = some c ∧ escapeChar c = [92, e]) ∨
    (32 ≤ c ∧ c ≠ 34 ∧ c ≠ 92 ∧ c ≤ 126 ∧ escapeChar c = [c]) ∨
    (c < 0x10000 ∧ escapeChar c = escapeUnit c) ∨
    (0x10000 ≤ c ∧ escapeChar c = escapeUnit (0xD800 + (c - 0x10000) / 1024 % 1024)
      ++ escapeUnit (0xDC00 + (c - 0x10000) % 1024)) := by
  generalize ht : escapeChar c = t
  unfold escapeChar at ht
  split_ifs at ht with h34 h92 h10 h13 h9 h12 h8 hplain hbmp
  · exact .inl ⟨34, by rw [h34]; rfl, ht.symm⟩
  · exact .inl ⟨92, by rw [h92]; rfl, ht.symm⟩
  · exact .inl ⟨110, by rw [h10]; rfl, ht.symm⟩
  · exact .inl ⟨114, by rw [h13]; rfl, ht.symm⟩
  · exact .inl ⟨116, by rw [h9]; rfl, ht.symm⟩
  · exact .inl ⟨102, by rw [h12]; rfl, ht.symm⟩
  · exact .inl ⟨98, by rw [h8]; rfl, ht.symm⟩
  · exact .inr (.inl ⟨hplain.1, h34, h92, hplain.2, ht.symm⟩)
  · exact .inr (.inr (.inl ⟨hbmp, ht.symm⟩))
  · exact .inr (.inr (.inr ⟨by omega, ht.symm⟩))

/-- A pair of surrogates names the code point it was made from. -/
theorem joinPair_split {c : ℕ} (h : 0x10000 ≤ c) (hlt : c < 0x110000) :
    joinPair (0xD800 + (c - 0x10000) / 1024 % 1024) (0xDC00 + (c - 0x10000) % 1024) = c := by
  unfold joinPair
  omega

/-- Reading a pair, whatever is pending. -/
theorem scanString_pair {c : ℕ} (h : 0x10000 ≤ c) (hlt : c < 0x110000) :
    scanString pending (escapeUnit (0xD800 + (c - 0x10000) / 1024 % 1024)
        ++ (escapeUnit (0xDC00 + (c - 0x10000) % 1024) ++ r))
      = emit pending.toList (emit [c] (scanString none r)) := by
  have hhigh : isHigh (0xD800 + (c - 0x10000) / 1024 % 1024) = true := by
    simp only [isHigh, decide_eq_true_eq]
    omega
  have hnlow : isLow (0xD800 + (c - 0x10000) / 1024 % 1024) = false := by
    simp only [isLow, decide_eq_false_iff_not]
    omega
  have hlow : isLow (0xDC00 + (c - 0x10000) % 1024) = true := by
    simp only [isLow, decide_eq_true_eq]
    omega
  have hsecond : scanString (some (0xD800 + (c - 0x10000) / 1024 % 1024))
      (escapeUnit (0xDC00 + (c - 0x10000) % 1024) ++ r) = emit [c] (scanString none r) := by
    rw [scanString_unit (by omega)]
    simp only [hlow, if_true, joinPair_split h hlt]
  rw [scanString_unit (by omega)]
  cases pending with
  | none =>
    simp only [hhigh, if_true, hsecond]
    cases scanString none r <;> rfl
  | some high =>
    simp only [hnlow, hhigh, if_true, Bool.false_eq_true, if_false, hsecond]
    rfl

theorem escapeChar_bmp {c : ℕ} (h : 126 < c) (hbmp : c < 0x10000) : escapeChar c = escapeUnit c := by
  unfold escapeChar
  rw [if_neg (by omega), if_neg (by omega), if_neg (by omega), if_neg (by omega), if_neg (by omega),
    if_neg (by omega), if_neg (by omega), if_neg (by omega), if_pos hbmp]

theorem escapeChar_astral {c : ℕ} (h : 0x10000 ≤ c) :
    escapeChar c = escapeUnit (0xD800 + (c - 0x10000) / 1024 % 1024)
      ++ escapeUnit (0xDC00 + (c - 0x10000) % 1024) := by
  unfold escapeChar
  rw [if_neg (by omega), if_neg (by omega), if_neg (by omega), if_neg (by omega), if_neg (by omega),
    if_neg (by omega), if_neg (by omega), if_neg (by omega), if_neg (by omega)]

/-- Two surrogates are spelled like the code point that they name. -/
theorem escapeChar_joinPair {high low : ℕ} (hhigh : isHigh high = true) (hlow : isLow low = true) :
    escapeChar (joinPair high low) = escapeChar high ++ escapeChar low := by
  simp only [isHigh, isLow, decide_eq_true_eq] at hhigh hlow
  have hfirst : 0xD800 + (joinPair high low - 0x10000) / 1024 % 1024 = high := by
    unfold joinPair
    omega
  have hsecond : 0xDC00 + (joinPair high low - 0x10000) % 1024 = low := by
    unfold joinPair
    omega
  rw [escapeChar_astral (by unfold joinPair; omega), hfirst, hsecond,
    escapeChar_bmp (by omega) (by omega), escapeChar_bmp (by omega) (by omega)]

/-- A character is spelled like a code point. -/
theorem exists_codePoint (c : ℕ) : ∃ d, d < 0x110000 ∧ escapeChar d = escapeChar c := by
  by_cases hlt : c < 0x110000
  · exact ⟨c, hlt, rfl⟩
  · have hhigh : (0x10000 + (c - 0x10000) % 0x100000 - 0x10000) / 1024 % 1024
        = (c - 0x10000) / 1024 % 1024 := by omega
    have hlow : (0x10000 + (c - 0x10000) % 0x100000 - 0x10000) % 1024 = (c - 0x10000) % 1024 := by omega
    refine ⟨0x10000 + (c - 0x10000) % 0x100000, by omega, ?_⟩
    rw [escapeChar_astral (by omega), escapeChar_astral (by omega), hhigh, hlow]

/-- A string without surrogates is joined. -/
theorem joined_of_lt {s : Str} (h : ∀ c ∈ s, c < 0xD800) : Joined s where
  lt c hc := (h c hc).trans (by decide)
  chain := by
    refine (List.pairwise_of_forall_mem_list ?_).isChain
    rintro a ha b - ⟨hhigh, -⟩
    have := h a ha
    simp only [isHigh, decide_eq_true_eq] at hhigh
    omega

/-- A text whose code points are seen to be below the surrogates. -/
theorem joined_codes {s : Str} (h : s.all (· < 0xD800) = true) : Joined s :=
  joined_of_lt fun c hc => of_decide_eq_true (List.all_eq_true.mp h c hc)

/-- A character in front of a joined string. -/
theorem Joined.cons {c : ℕ} {s : Str} (h : Joined s) (hc : c < 0x110000)
    (hpair : ∀ d ∈ s.head?, ¬(isHigh c = true ∧ isLow d = true)) : Joined (c :: s) := by
  constructor
  · exact List.forall_mem_cons.mpr ⟨hc, h.lt⟩
  · cases s with
    | nil => exact List.isChain_singleton c
    | cons d s => exact List.isChain_cons_cons.mpr ⟨hpair d rfl, h.chain⟩

/-- **Every string is spelled like a joined one.** -/
theorem exists_joined (s : Str) : ∃ t, Joined t ∧ t.flatMap escapeChar = s.flatMap escapeChar := by
  induction s with
  | nil => exact ⟨[], ⟨by simp, List.isChain_nil⟩, rfl⟩
  | cons c s ih =>
    obtain ⟨t, ht, hspell⟩ := ih
    obtain ⟨d, hd, hchar⟩ := exists_codePoint c
    by_cases hpair : ∀ e ∈ t.head?, ¬(isHigh d = true ∧ isLow e = true)
    · refine ⟨d :: t, ht.cons hd hpair, ?_⟩
      rw [List.flatMap_cons, List.flatMap_cons, hchar, hspell]
    · push Not at hpair
      obtain ⟨low, hlow, hhigh, hislow⟩ := hpair
      cases t with
      | nil => cases hlow
      | cons e t =>
        cases hlow
        refine ⟨joinPair d low :: t, ht.tail.cons ?_ ?_, ?_⟩
        · simp only [isHigh, isLow, decide_eq_true_eq] at hhigh hislow
          unfold joinPair
          omega
        · rintro f - ⟨hjoined, -⟩
          simp only [isHigh, isLow, decide_eq_true_eq] at hhigh hislow hjoined
          unfold joinPair at hjoined
          omega
        · rw [List.flatMap_cons, List.flatMap_cons, escapeChar_joinPair hhigh hislow, hchar, ← hspell,
            List.flatMap_cons, List.append_assoc]

/-- **Reading a string** back from its spelling. -/
theorem scanString_dumps {s : Str} (hs : Joined s) (hpending : Follows pending s) :
    scanString pending (s.flatMap escapeChar ++ 34 :: r) = .ok (pending.toList ++ s, r) := by
  induction s generalizing pending with
  | nil =>
    show scanString pending (34 :: r) = _
    rw [scanString, List.append_nil]
  | cons c s ih =>
    have hrest : scanString none (s.flatMap escapeChar ++ 34 :: r) = .ok (s, r) :=
      ih hs.tail (follows_none s)
    rw [List.flatMap_cons, List.append_assoc]
    rcases escapeChar_cases c with ⟨e, he, hc⟩ | ⟨hge, hquote, hslash, -, hc⟩ | ⟨hbmp, hc⟩ | ⟨hge, hc⟩
    · rw [hc, List.cons_append, List.cons_append, List.nil_append, scanString_escape he, hrest, emit_ok,
        List.append_assoc]
      rfl
    · rw [hc, List.cons_append, List.nil_append, scanString_plain hge hquote hslash, hrest, emit_ok,
        List.append_assoc]
      rfl
    · rw [hc, scanString_unit hbmp]
      by_cases hhigh : isHigh c = true
      · have hnext : scanString (some c) (s.flatMap escapeChar ++ 34 :: r) = .ok (c :: s, r) :=
          ih hs.tail (hs.follows hhigh)
        cases pending with
        | none =>
          simp only [hhigh, if_true]
          exact hnext
        | some high =>
          have hlow : isLow c = false := (hpending high rfl).2 c rfl
          simp only [hlow, hhigh, if_true, Bool.false_eq_true, if_false, hnext, emit_ok]
          rfl
      · cases pending with
        | none =>
          simp only [hhigh, hrest, emit_ok]
          rfl
        | some high =>
          have hlow : isLow c = false := (hpending high rfl).2 c rfl
          simp only [hlow, hhigh, Bool.false_eq_true, if_false, hrest, emit_ok]
          rfl
    · rw [hc, List.append_assoc, scanString_pair hge (hs.lt c List.mem_cons_self), hrest, emit_ok,
        emit_ok]
      rfl

end Scan

/-! ## Integers -/

/-- A character after which no number goes on. -/
def Boundary (r : Str) : Prop := ∀ c ∈ r.head?, isDigit c = false ∧ c ≠ 46 ∧ c ≠ 101 ∧ c ≠ 69

theorem digits_append {ds r : Str} (hds : ∀ c ∈ ds, isDigit c = true)
    (hr : ∀ c ∈ r.head?, isDigit c = false) : digits (ds ++ r) = (ds, r) := by
  have htake : r.takeWhile isDigit = [] := by
    cases r with
    | nil => rfl
    | cons c r => rw [List.takeWhile_cons_of_neg (by rw [hr c rfl]; decide)]
  have hdrop : r.dropWhile isDigit = r := by
    cases r with
    | nil => rfl
    | cons c r => rw [List.dropWhile_cons_of_neg (by rw [hr c rfl]; decide)]
  rw [digits, List.takeWhile_append_of_pos hds, List.dropWhile_append_of_pos hds, htake, hdrop,
    List.append_nil]

theorem toNat_digitChar {d : ℕ} (h : d < 10) : d.digitChar.toNat = 48 + d := by
  have : ∀ d < 10, d.digitChar.toNat = 48 + d := by decide
  exact this d h

/-- The decimal digits of a positive number do not start with a zero. -/
theorem toDigits_head {n : ℕ} (h : 0 < n) :
    ∃ c ds, (Nat.toDigits 10 n).map Char.toNat = c :: ds ∧ 49 ≤ c ∧ c ≤ 57 := by
  induction n using Nat.strong_induction_on with
  | _ n ih =>
    rw [Nat.toDigits_eq_if (by decide)]
    split_ifs with hlt
    · exact ⟨_, [], rfl, by rw [toNat_digitChar hlt]; omega⟩
    · obtain ⟨c, ds, hds, hc⟩ := ih (n / 10) (by omega) (by omega)
      exact ⟨c, ds ++ [(n % 10).digitChar.toNat], by rw [List.map_append, hds]; rfl, hc⟩

theorem isDigit_toDigits {n c : ℕ} (h : c ∈ (Nat.toDigits 10 n).map Char.toNat) : isDigit c = true := by
  obtain ⟨d, hd, rfl⟩ := List.mem_map.mp h
  have := Nat.isDigit_of_mem_toDigits (by decide) (by decide) hd
  rw [Char.isDigit, Bool.and_eq_true, decide_eq_true_eq, decide_eq_true_eq] at this
  rw [isDigit, decide_eq_true_eq]
  exact ⟨by simpa [UInt32.le_iff_toNat_le] using this.1, by simpa [UInt32.le_iff_toNat_le] using this.2⟩

theorem digitsValue_toDigits (n : ℕ) : digitsValue ((Nat.toDigits 10 n).map Char.toNat) = n := by
  have h := Nat.ofDigitChars_ten_toDigits (n := n)
  rw [Nat.ofDigitChars_eq_foldl] at h
  rw [digitsValue, List.foldl_map]
  refine Eq.trans ?_ h
  congr 1
  funext m c
  rw [Nat.mul_comm]
  rfl

theorem integerPart_toDigits (n : ℕ) {r : Str} (hr : Boundary r) :
    integerPart ((Nat.toDigits 10 n).map Char.toNat ++ r)
      = some ((Nat.toDigits 10 n).map Char.toNat, r) := by
  rcases Nat.eq_zero_or_pos n with rfl | hpos
  · rfl
  · obtain ⟨c, ds, hds, hc⟩ := toDigits_head hpos
    have hdigits : ∀ d ∈ ds, isDigit d = true := fun d hd =>
      isDigit_toDigits (n := n) (by rw [hds]; exact List.mem_cons_of_mem c hd)
    rw [hds, List.cons_append, integerPart]
    · rw [if_pos hc, digits_append hdigits fun c hc => (hr c hc).1]
    · rintro rfl
      omega

theorem fraction_boundary {r : Str} (hr : Boundary r) : fraction r = ([], r) := by
  cases r with
  | nil => rfl
  | cons c r =>
    rw [fraction]
    intro r' heq
    cases heq
    exact (hr 46 rfl).2.1 rfl

theorem exponentPart_boundary {r : Str} (hr : Boundary r) : exponentPart r = ([], r) := by
  cases r with
  | nil => rfl
  | cons c r =>
    have := hr c rfl
    rw [exponentPart, if_neg]
    rintro (rfl | rfl)
    · exact this.2.2.1 rfl
    · exact this.2.2.2 rfl

/-- **Reading an integer** back from its digits. -/
theorem number_toDigits [FloatText F] {n : ℕ} (hn : n < 10 ^ maxStrDigits) (sign : Str) {r : Str}
    (hr : Boundary r) :
    number (F := F) sign ((Nat.toDigits 10 n).map Char.toNat ++ r)
      = .ok (.int (if sign = [] then (n : ℤ) else -(n : ℤ)), r) := by
  have hlen : ((Nat.toDigits 10 n).map Char.toNat).length ≤ maxStrDigits := by
    rw [List.length_map]
    exact (Nat.length_toDigits_le_iff (by decide) (by decide)).mpr hn
  simp only [number, integerPart_toDigits n hr, fraction_boundary hr, exponentPart_boundary hr, true_and,
    if_true, if_pos hlen, digitsValue_toDigits]

/-! ## Values -/

/-- A floating point number whose text is read back. -/
structure ReadsBack [FloatText F] (x : F) : Prop where
  scan : ∀ depth r, Boundary r → scanOnce depth (FloatText.repr x ++ r) = .ok (.float x, r)
  head : ∃ c t, FloatText.repr x = c :: t ∧ isWs c = false ∧ c ≠ 93

mutual

/-- A value that survives being written and read: its integers are not too long, its strings are
joined, its floating point numbers are read back, and no object has a key twice. -/
def Value.Regular [FloatText F] : Value F → Prop
  | .int n => n.natAbs < 10 ^ maxStrDigits
  | .float x => ReadsBack x
  | .str s => Joined s
  | .list items => RegularItems items
  | .dict ms => RegularMembers ms ∧ (ms.map Prod.fst).Nodup
  | _ => True

def RegularItems [FloatText F] : List (Value F) → Prop
  | [] => True
  | v :: vs => v.Regular ∧ RegularItems vs

def RegularMembers [FloatText F] : List (Str × Value F) → Prop
  | [] => True
  | (key, v) :: ms => Joined key ∧ v.Regular ∧ RegularMembers ms

end

mutual

/-- How deeply arrays and objects are nested. -/
def Value.depth : Value F → ℕ
  | .list items => depthItems items + 1
  | .dict ms => depthMembers ms + 1
  | _ => 0

def depthItems : List (Value F) → ℕ
  | [] => 0
  | v :: vs => max v.depth (depthItems vs)

def depthMembers : List (Str × Value F) → ℕ
  | [] => 0
  | (_, v) :: ms => max v.depth (depthMembers ms)

end

theorem skipWs_cons {c : ℕ} {t : Str} (h : isWs c = false) : skipWs (c :: t) = c :: t :=
  List.dropWhile_cons_of_neg (by rw [h]; decide)

theorem isWs_of_gt {c : ℕ} (h : 32 < c) : isWs c = false := by
  simp only [isWs, Bool.or_eq_false_iff, beq_eq_false_iff_ne]
  omega

theorem isDigit_bounds {c : ℕ} (h : isDigit c = true) : 48 ≤ c ∧ c ≤ 57 := by
  rwa [isDigit, decide_eq_true_eq] at h

/-- The first character of the digits of a number. -/
theorem toDigits_cons (n : ℕ) :
    ∃ c ds, (Nat.toDigits 10 n).map Char.toNat = c :: ds ∧ isDigit c = true := by
  cases h : (Nat.toDigits 10 n).map Char.toNat with
  | nil => exact absurd (List.map_eq_nil_iff.mp h) Nat.toDigits_ne_nil
  | cons c ds => exact ⟨c, ds, rfl, isDigit_toDigits (n := n) (by rw [h]; exact List.mem_cons_self)⟩

theorem boundary_cons {c : ℕ} {r : Str} (h : c = 44 ∨ c = 93 ∨ c = 125 ∨ c = 10) : Boundary (c :: r) := by
  intro d hd
  cases hd
  rcases h with rfl | rfl | rfl | rfl <;> decide

theorem boundary_nil : Boundary [] := by
  intro c hc
  cases hc

theorem foldl_insert {ms d : List (Str × Value F)} (h : ((d ++ ms).map Prod.fst).Nodup) :
    ms.foldl insert d = d ++ ms := by
  induction ms generalizing d with
  | nil => simp
  | cons m ms ih =>
    have hm : m.1 ∉ d.map Prod.fst := by
      intro hmem
      rw [List.map_append, List.nodup_append] at h
      exact h.2.2 m.1 hmem m.1 (by simp) rfl
    rw [List.foldl_cons, insert, if_neg hm, ih (by simpa using h)]
    simp

/-- Pairs with distinct keys are a dictionary. -/
theorem dictOf_of_nodup {ms : List (Str × Value F)} (h : (ms.map Prod.fst).Nodup) : dictOf ms = ms := by
  rw [dictOf, foldl_insert (by simpa using h), List.nil_append]

theorem eq_of_isDigit {c : ℕ} (h : isDigit c = true) :
    c = 48 ∨ c = 49 ∨ c = 50 ∨ c = 51 ∨ c = 52 ∨ c = 53 ∨ c = 54 ∨ c = 55 ∨ c = 56 ∨ c = 57 := by
  have := isDigit_bounds h
  omega

theorem scanOnce_digit [FloatText F] (depth : ℕ) {c : ℕ} {t : Str} (h : isDigit c = true) :
    scanOnce (F := F) depth (c :: t) = number [] (c :: t) := by
  rcases eq_of_isDigit h with rfl | rfl | rfl | rfl | rfl | rfl | rfl | rfl | rfl | rfl <;>
    cases depth <;> rfl

theorem scanOnce_minus [FloatText F] (depth : ℕ) {c : ℕ} {t : Str} (h : isDigit c = true) :
    scanOnce (F := F) depth (45 :: c :: t) = number [45] (c :: t) := by
  rcases eq_of_isDigit h with rfl | rfl | rfl | rfl | rfl | rfl | rfl | rfl | rfl | rfl <;>
    cases depth <;> rfl

theorem scanOnce_quote [FloatText F] (depth : ℕ) (r : Str) :
    scanOnce (F := F) depth (34 :: r) = (scanString none r).map fun p => (.str p.1, p.2) := by
  cases depth <;> rfl

theorem scanString_dumpsString {s : Str} (hs : Joined s) (r : Str) :
    scanString none (s.flatMap escapeChar ++ 34 :: r) = .ok (s, r) :=
  scanString_dumps hs (follows_none s)

/-- Reading an integer back from its text. -/
theorem scanOnce_dumpsInt [FloatText F] {n : ℤ} (h : n.natAbs < 10 ^ maxStrDigits) (depth : ℕ) {r : Str}
    (hr : Boundary r) : scanOnce (F := F) depth (dumpsInt n ++ r) = .ok (.int n, r) := by
  obtain ⟨c, ds, hds, hc⟩ := toDigits_cons n.natAbs
  have hnumber := fun sign => number_toDigits (F := F) h sign hr
  rw [hds] at hnumber
  rw [dumpsInt, hds]
  split_ifs with hneg
  · show scanOnce depth (45 :: c :: (ds ++ r)) = _
    have habs : -(n.natAbs : ℤ) = n := by omega
    rw [scanOnce_minus depth hc]
    refine (hnumber [45]).trans ?_
    rw [if_neg (by decide), habs]
  · show scanOnce depth (c :: (ds ++ r)) = _
    have habs : (n.natAbs : ℤ) = n := by omega
    rw [scanOnce_digit depth hc]
    refine (hnumber []).trans ?_
    rw [if_pos rfl, habs]

theorem scanOnce_list [FloatText F] (depth : ℕ) {c : ℕ} {t w : Str} (hw : skipWs w = c :: t) (hc : c ≠ 93) :
    scanOnce (F := F) (depth + 1) (91 :: w)
      = (elements (scanOnce depth) (c :: t).length (c :: t)).map fun p => (.list p.1, p.2) := by
  rw [scanOnce, hw]
  split
  · next heq =>
    cases heq
    exact absurd rfl hc
  · rfl

theorem scanOnce_dict [FloatText F] (depth : ℕ) {r w : Str} (hw : skipWs w = 34 :: r) :
    scanOnce (F := F) (depth + 1) (123 :: w)
      = (members (scanOnce depth) r.length r).map fun p => (.dict (dictOf p.1), p.2) := by
  rw [scanOnce, hw]
  rfl

/-- After a value of an array: the closing bracket. -/
theorem elements_last {value : Str → Read (Value F)} {v : Value F} {s w r : Str}
    (h : value s = .ok (v, w)) (hw : skipWs w = 93 :: r) (fuel : ℕ) :
    elements value (fuel + 1) s = .ok ([v], r) := by
  rw [elements, h]
  simp only [hw]

/-- After a value of an array: a comma and further values. -/
theorem elements_more {value : Str → Read (Value F)} {v : Value F} {vs : List (Value F)} {s t w r : Str}
    {fuel : ℕ} (h : value s = .ok (v, w)) (hw : skipWs w = 44 :: t)
    (ht : elements value fuel (skipWs t) = .ok (vs, r)) :
    elements value (fuel + 1) s = .ok (v :: vs, r) := by
  rw [elements, h]
  simp only [hw, ht]
  rfl

/-- A key, a value, and the closing brace. -/
theorem members_last {value : Str → Read (Value F)} {key : Str} {v : Value F} {s t w r : Str}
    (hkey : scanString none s = .ok (key, 58 :: t)) (h : value (skipWs t) = .ok (v, w))
    (hw : skipWs w = 125 :: r) (fuel : ℕ) :
    members value (fuel + 1) s = .ok ([(key, v)], r) := by
  have hcolon : skipWs (58 :: t) = 58 :: t := skipWs_cons (by decide)
  rw [members, hkey]
  simp only [hcolon, h, hw]

/-- A key, a value, and further members. -/
theorem members_more {value : Str → Read (Value F)} {key : Str} {v : Value F}
    {ms : List (Str × Value F)} {s t u w x r : Str} {fuel : ℕ}
    (hkey : scanString none s = .ok (key, 58 :: t)) (h : value (skipWs t) = .ok (v, w))
    (hw : skipWs w = 44 :: x) (hx : skipWs x = 34 :: u) (hu : members value fuel u = .ok (ms, r)) :
    members value (fuel + 1) s = .ok ((key, v) :: ms, r) := by
  have hcolon : skipWs (58 :: t) = 58 :: t := skipWs_cons (by decide)
  rw [members, hkey]
  simp only [hcolon, h, hw, hx, hu]
  rfl

/-! ## Texts of a value -/

/-- White space. -/
def Blank (ws : Str) : Prop := ∀ c ∈ ws, isWs c = true

/-- `body` is a string between its quotes. -/
def StringBody (s body : Str) : Prop := ∀ r, scanString none (body ++ 34 :: r) = .ok (s, r)

mutual

/-- `v.SpelledBy t`: the text `t` spells the value, with white space where it may stand. -/
def Value.SpelledBy [FloatText F] : Value F → Str → Prop
  | .null, t => t = codes "null"
  | .bool true, t => t = codes "true"
  | .bool false, t => t = codes "false"
  | .int n, t => n.natAbs < 10 ^ maxStrDigits ∧ t = dumpsInt n
  | .float x, t => ReadsBack x ∧ t = FloatText.repr x
  | .str s, t => ∃ body, StringBody s body ∧ t = 34 :: (body ++ [34])
  | .list [], t => t = [91, 93]
  | .list (v :: vs), t => ∃ ws u, Blank ws ∧ ItemsSpelledBy (v :: vs) u ∧ t = 91 :: (ws ++ u)
  | .dict [], t => t = [123, 125]
  | .dict (m :: ms), t =>
    ((m :: ms).map Prod.fst).Nodup ∧ ∃ ws u, Blank ws ∧ MembersSpelledBy (m :: ms) u ∧ t = 123 :: (ws ++ 34 :: u)

/-- The items of an array, with the closing bracket. -/
def ItemsSpelledBy [FloatText F] : List (Value F) → Str → Prop
  | [], _ => False
  | [v], t => ∃ s ws, v.SpelledBy s ∧ Blank ws ∧ t = s ++ (ws ++ [93])
  | v :: vs, t => ∃ s ws u, v.SpelledBy s ∧ Blank ws ∧ ItemsSpelledBy vs u ∧ t = s ++ 44 :: (ws ++ u)

/-- The members of an object from the first key on, after its opening quote, with the closing brace. -/
def MembersSpelledBy [FloatText F] : List (Str × Value F) → Str → Prop
  | [], _ => False
  | [(key, v)], t => ∃ body ws s ws', StringBody key body ∧ Blank ws ∧ v.SpelledBy s ∧ Blank ws' ∧
    t = body ++ 34 :: 58 :: (ws ++ (s ++ (ws' ++ [125])))
  | (key, v) :: ms, t => ∃ body ws s ws' u, StringBody key body ∧ Blank ws ∧ v.SpelledBy s ∧ Blank ws' ∧
    MembersSpelledBy ms u ∧ t = body ++ 34 :: 58 :: (ws ++ (s ++ 44 :: (ws' ++ 34 :: u)))

end

theorem blank_nil : Blank [] := fun _ hc => absurd hc List.not_mem_nil

theorem Blank.skipWs_append {ws : Str} (h : Blank ws) (s : Str) : skipWs (ws ++ s) = skipWs s :=
  List.dropWhile_append_of_pos h

theorem Blank.skipWs_cons {ws : Str} (h : Blank ws) {c : ℕ} (hc : isWs c = false) (s : Str) :
    skipWs (ws ++ c :: s) = c :: s :=
  (h.skipWs_append _).trans (Json.skipWs_cons hc)

theorem Blank.boundary {ws r : Str} (h : Blank ws) (hr : Boundary r) : Boundary (ws ++ r) := by
  cases ws with
  | nil => exact hr
  | cons c ws =>
    rintro d ⟨⟩
    have hws := h c List.mem_cons_self
    simp only [isWs, Bool.or_eq_true, beq_iff_eq] at hws
    rcases hws with ((rfl | rfl) | rfl) | rfl <;> decide

section Spelled

variable [FloatText F]

/-- No text of a value starts with white space or a closing bracket. -/
theorem Value.SpelledBy.head {v : Value F} {t : Str} (h : v.SpelledBy t) :
    ∃ c u, t = c :: u ∧ isWs c = false ∧ c ≠ 93 := by
  cases v with
  | null => exact ⟨_, _, h, by decide, by decide⟩
  | bool b => cases b <;> exact ⟨_, _, h, by decide, by decide⟩
  | int n =>
    obtain ⟨-, rfl⟩ := h
    rw [dumpsInt]
    split_ifs with hneg
    · exact ⟨_, _, rfl, by decide, by decide⟩
    · obtain ⟨c, ds, hds, hc⟩ := toDigits_cons n.natAbs
      have := isDigit_bounds hc
      exact ⟨c, ds, by rw [hds]; rfl, isWs_of_gt (by omega), by omega⟩
  | float x =>
    obtain ⟨hx, rfl⟩ := h
    exact hx.head
  | str s =>
    obtain ⟨body, -, rfl⟩ := h
    exact ⟨_, _, rfl, by decide, by decide⟩
  | list items =>
    cases items with
    | nil => exact ⟨_, _, h, by decide, by decide⟩
    | cons v vs =>
      obtain ⟨ws, u, -, -, rfl⟩ := h
      exact ⟨_, _, rfl, by decide, by decide⟩
  | dict ms =>
    cases ms with
    | nil => exact ⟨_, _, h, by decide, by decide⟩
    | cons m ms =>
      obtain ⟨-, ws, u, -, -, rfl⟩ := h
      exact ⟨_, _, rfl, by decide, by decide⟩

theorem Value.SpelledBy.skipWs {v : Value F} {t : Str} (h : v.SpelledBy t) (r : Str) :
    skipWs (t ++ r) = t ++ r := by
  obtain ⟨c, u, rfl, hws, -⟩ := h.head
  exact skipWs_cons hws

theorem ItemsSpelledBy.head {v : Value F} {vs : List (Value F)} {t : Str} (h : ItemsSpelledBy (v :: vs) t) :
    ∃ c u, t = c :: u ∧ isWs c = false ∧ c ≠ 93 := by
  have hfirst : ∃ s u, v.SpelledBy s ∧ t = s ++ u := by
    cases vs with
    | nil =>
      obtain ⟨s, ws, hs, -, rfl⟩ := h
      exact ⟨s, _, hs, rfl⟩
    | cons v' vs =>
      obtain ⟨s, ws, u, hs, -, -, rfl⟩ := h
      exact ⟨s, _, hs, rfl⟩
  obtain ⟨s, u, hs, rfl⟩ := hfirst
  obtain ⟨c, t, rfl, hws, hc⟩ := hs.head
  exact ⟨c, _, rfl, hws, hc⟩

/-- The items are no more than the characters. -/
theorem ItemsSpelledBy.length_le {items : List (Value F)} {t : Str} (h : ItemsSpelledBy items t) :
    items.length ≤ t.length := by
  induction items generalizing t with
  | nil => exact Nat.zero_le _
  | cons v vs ih =>
    cases vs with
    | nil =>
      obtain ⟨s, ws, -, -, rfl⟩ := h
      simp only [List.length_append, List.length_cons, List.length_nil]
      omega
    | cons v' vs =>
      obtain ⟨s, ws, u, -, -, hu, rfl⟩ := h
      have := ih hu
      simp only [List.length_append, List.length_cons] at this ⊢
      omega

theorem MembersSpelledBy.length_le {ms : List (Str × Value F)} {t : Str} (h : MembersSpelledBy ms t) :
    ms.length ≤ t.length := by
  induction ms generalizing t with
  | nil => exact Nat.zero_le _
  | cons m ms ih =>
    obtain ⟨key, v⟩ := m
    cases ms with
    | nil =>
      obtain ⟨body, ws, s, ws', -, -, -, -, rfl⟩ := h
      simp only [List.length_append, List.length_cons, List.length_nil]
      omega
    | cons m' ms =>
      obtain ⟨body, ws, s, ws', u, -, -, -, -, hu, rfl⟩ := h
      have := ih hu
      simp only [List.length_append, List.length_cons] at this ⊢
      omega

mutual

/-- **Reading a value** from a text of it, with the rest of a document after it. -/
theorem scanOnce_spelled : ∀ (v : Value F) (t : Str) (depth : ℕ) (r : Str), v.SpelledBy t → v.depth ≤ depth →
    Boundary r → scanOnce depth (t ++ r) = .ok (v, r)
  | .null, t, depth, r, h, _, _ => by
    obtain rfl : t = codes "null" := h
    cases depth <;> rfl
  | .bool true, t, depth, r, h, _, _ => by
    obtain rfl : t = codes "true" := h
    cases depth <;> rfl
  | .bool false, t, depth, r, h, _, _ => by
    obtain rfl : t = codes "false" := h
    cases depth <;> rfl
  | .int n, t, depth, r, h, _, hr => by
    obtain ⟨hn, rfl⟩ := h
    exact scanOnce_dumpsInt hn depth hr
  | .float x, t, depth, r, h, _, hr => by
    obtain ⟨hx, rfl⟩ := h
    exact hx.scan depth r hr
  | .str s, t, depth, r, h, _, _ => by
    obtain ⟨body, hbody, rfl⟩ := h
    have heq : 34 :: (body ++ [34]) ++ r = 34 :: (body ++ 34 :: r) := by simp
    rw [heq, scanOnce_quote, hbody r]
    rfl
  | .list [], t, 0, r, _, hdepth, _ => by simp [Value.depth] at hdepth
  | .list [], t, depth + 1, r, h, _, _ => by
    obtain rfl : t = [91, 93] := h
    rfl
  | .list (v :: vs), t, 0, r, _, hdepth, _ => by simp [Value.depth] at hdepth
  | .list (v :: vs), t, depth + 1, r, h, hdepth, hr => by
    obtain ⟨ws, u, hws, hu, rfl⟩ := h
    have hlen := hu.length_le
    have helements := elements_spelled v vs u depth (u ++ r).length r hu (Nat.le_of_succ_le_succ hdepth)
      (by rw [List.length_append, ← Nat.succ_le_iff]; exact hlen.trans (Nat.le_add_right _ _))
    obtain ⟨c, w, rfl, hc, hne⟩ := hu.head
    rw [List.cons_append, List.append_assoc, List.cons_append, scanOnce_list depth (hws.skipWs_cons hc _) hne]
    rw [List.cons_append] at helements
    rw [helements]
    rfl
  | .dict [], t, 0, r, _, hdepth, _ => by simp [Value.depth] at hdepth
  | .dict [], t, depth + 1, r, h, _, _ => by
    obtain rfl : t = [123, 125] := h
    rfl
  | .dict (m :: ms), t, 0, r, _, hdepth, _ => by simp [Value.depth] at hdepth
  | .dict ((key, v) :: ms), t, depth + 1, r, h, hdepth, hr => by
    obtain ⟨hnodup, ws, u, hws, hu, rfl⟩ := h
    have hlen := hu.length_le
    have hmembers := members_spelled key v ms u depth (u ++ r).length r hu (Nat.le_of_succ_le_succ hdepth)
      (by rw [List.length_append, ← Nat.succ_le_iff]; exact hlen.trans (Nat.le_add_right _ _))
    rw [List.cons_append, List.append_assoc, List.cons_append,
      scanOnce_dict depth (hws.skipWs_cons (by decide) _), hmembers]
    show Except.ok (Value.dict (dictOf ((key, v) :: ms)), r) = _
    rw [dictOf_of_nodup hnodup]
termination_by v => sizeOf v

theorem elements_spelled : ∀ (v : Value F) (vs : List (Value F)) (t : Str) (depth fuel : ℕ) (r : Str),
    ItemsSpelledBy (v :: vs) t → depthItems (v :: vs) ≤ depth → vs.length < fuel →
    elements (scanOnce depth) fuel (t ++ r) = .ok (v :: vs, r)
  | v, [], t, depth, fuel + 1, r, h, hdepth, _ => by
    obtain ⟨s, ws, hs, hws, rfl⟩ := h
    have hv := scanOnce_spelled v s depth (ws ++ 93 :: r) hs (le_trans (le_max_left _ _) hdepth)
      (hws.boundary (boundary_cons (by decide)))
    have heq : s ++ (ws ++ [93]) ++ r = s ++ (ws ++ 93 :: r) := by simp
    rw [heq]
    exact elements_last hv (hws.skipWs_cons (by decide) r) fuel
  | v, v' :: vs, t, depth, fuel + 1, r, h, hdepth, hfuel => by
    obtain ⟨s, ws, u, hs, hws, hu, rfl⟩ := h
    have hv := scanOnce_spelled v s depth (44 :: (ws ++ (u ++ r))) hs (le_trans (le_max_left _ _) hdepth)
      (boundary_cons (by decide))
    have hvs := elements_spelled v' vs u depth fuel r hu (le_trans (le_max_right _ _) hdepth)
      (Nat.lt_of_succ_lt_succ hfuel)
    have heq : s ++ 44 :: (ws ++ u) ++ r = s ++ 44 :: (ws ++ (u ++ r)) := by simp
    rw [heq]
    refine elements_more hv (skipWs_cons (by decide)) ?_
    obtain ⟨c, w, rfl, hc, -⟩ := hu.head
    rw [List.cons_append, hws.skipWs_cons hc]
    exact hvs
termination_by v vs => sizeOf v + sizeOf vs

/-- The members of an object from the first key on, after its opening quote. -/
theorem members_spelled : ∀ (key : Str) (v : Value F) (ms : List (Str × Value F)) (t : Str) (depth fuel : ℕ)
    (r : Str), MembersSpelledBy ((key, v) :: ms) t → depthMembers ((key, v) :: ms) ≤ depth → ms.length < fuel →
    members (scanOnce depth) fuel (t ++ r) = .ok ((key, v) :: ms, r)
  | key, v, [], t, depth, fuel + 1, r, h, hdepth, _ => by
    obtain ⟨body, ws, s, ws', hbody, hws, hs, hws', rfl⟩ := h
    have hv := scanOnce_spelled v s depth (ws' ++ 125 :: r) hs (le_trans (le_max_left _ _) hdepth)
      (hws'.boundary (boundary_cons (by decide)))
    rw [← hs.skipWs, ← hws.skipWs_append] at hv
    have heq : body ++ 34 :: 58 :: (ws ++ (s ++ (ws' ++ [125]))) ++ r
        = body ++ 34 :: 58 :: (ws ++ (s ++ (ws' ++ 125 :: r))) := by simp
    rw [heq]
    exact members_last (hbody _) hv (hws'.skipWs_cons (by decide) r) fuel
  | key, v, (key', v') :: ms, t, depth, fuel + 1, r, h, hdepth, hfuel => by
    obtain ⟨body, ws, s, ws', u, hbody, hws, hs, hws', hu, rfl⟩ := h
    have hms := members_spelled key' v' ms u depth fuel r hu (le_trans (le_max_right _ _) hdepth)
      (Nat.lt_of_succ_lt_succ hfuel)
    have hv := scanOnce_spelled v s depth (44 :: (ws' ++ 34 :: (u ++ r))) hs (le_trans (le_max_left _ _) hdepth)
      (boundary_cons (by decide))
    rw [← hs.skipWs, ← hws.skipWs_append] at hv
    have heq : body ++ 34 :: 58 :: (ws ++ (s ++ 44 :: (ws' ++ 34 :: u))) ++ r
        = body ++ 34 :: 58 :: (ws ++ (s ++ 44 :: (ws' ++ 34 :: (u ++ r)))) := by simp
    rw [heq]
    exact members_more (hbody _) hv (skipWs_cons (by decide)) (hws'.skipWs_cons (by decide) _) hms
termination_by _ v ms => sizeOf v + sizeOf ms

end

/-- A document with white space after it is read as the value that it spells. -/
theorem loads_spelled {v : Value F} {t : Str} (h : v.SpelledBy t) {depth : ℕ} (hdepth : v.depth ≤ depth)
    {ws : Str} (hws : Blank ws) : loads depth (t ++ ws) = .ok v := by
  have hboundary : Boundary ws := List.append_nil ws ▸ hws.boundary boundary_nil
  have hrest : Json.skipWs ws = [] := List.dropWhile_eq_nil_iff.mpr hws
  rw [loads, h.skipWs, scanOnce_spelled v t depth ws h hdepth hboundary]
  exact if_pos hrest

mutual

/-- The compact writer spells the value. -/
theorem spelledBy_dumps : ∀ v : Value F, v.Regular → v.SpelledBy (dumps v)
  | .null, _ => rfl
  | .bool true, _ => rfl
  | .bool false, _ => rfl
  | .int _, h => ⟨h, rfl⟩
  | .float _, h => ⟨h, rfl⟩
  | .str _, h => ⟨_, scanString_dumpsString h, rfl⟩
  | .list [], _ => rfl
  | .list (v :: vs), h => ⟨[], _, blank_nil, itemsSpelledBy_dumps v vs h, rfl⟩
  | .dict [], _ => rfl
  | .dict ((key, v) :: ms), h => by
    obtain ⟨u, hu, heq⟩ := membersSpelledBy_dumps key v ms h.1
    refine ⟨h.2, [], u, blank_nil, hu, ?_⟩
    rw [dumps, List.cons_append, heq]
    rfl
termination_by v => sizeOf v

theorem itemsSpelledBy_dumps : ∀ (v : Value F) (vs : List (Value F)), RegularItems (v :: vs) →
    ItemsSpelledBy (v :: vs) (dumpsItems (v :: vs) ++ [93])
  | v, [], h => ⟨_, [], spelledBy_dumps v h.1, blank_nil, rfl⟩
  | v, v' :: vs, h =>
    ⟨_, [], _, spelledBy_dumps v h.1, blank_nil, itemsSpelledBy_dumps v' vs h.2, List.append_assoc _ _ _⟩
termination_by v vs => sizeOf v + sizeOf vs

theorem membersSpelledBy_dumps : ∀ (key : Str) (v : Value F) (ms : List (Str × Value F)),
    RegularMembers ((key, v) :: ms) →
    ∃ u, MembersSpelledBy ((key, v) :: ms) u ∧ dumpsMembers ((key, v) :: ms) ++ [125] = 34 :: u
  | key, v, [], h =>
    ⟨_, ⟨_, [], _, [], scanString_dumpsString h.1, blank_nil, spelledBy_dumps v h.2.1, blank_nil, rfl⟩,
      by simp [dumpsMembers, dumpsString]⟩
  | key, v, (key', v') :: ms, h => by
    obtain ⟨u, hu, heq⟩ := membersSpelledBy_dumps key' v' ms h.2.2
    refine ⟨_, ⟨_, [], _, [], u, scanString_dumpsString h.1, blank_nil, spelledBy_dumps v h.2.1, blank_nil, hu,
      rfl⟩, ?_⟩
    rw [dumpsMembers, List.append_assoc, List.cons_append, heq]
    · simp [dumpsString]
    · simp
termination_by _ v ms => sizeOf v + sizeOf ms

end

end Spelled

/-- **Reading undoes writing**, also with a line feed after the document. -/
theorem loads_dumps [FloatText F] {v : Value F} (h : v.Regular) {depth : ℕ} (hdepth : v.depth ≤ depth)
    {r : Str} (hr : r = [] ∨ r = [10]) : loads depth (dumps v ++ r) = .ok v := by
  have hblank : Blank r := by
    rcases hr with rfl | rfl
    · exact blank_nil
    · exact List.forall_mem_singleton.mpr rfl
  exact loads_spelled (spelledBy_dumps v h) hdepth hblank

/-! ## The characters of a text -/

theorem hexDigit_ascii (n : ℕ) : 32 ≤ hexDigit (n % 16) ∧ hexDigit (n % 16) ≤ 126 := by
  have : ∀ n < 16, 32 ≤ hexDigit n ∧ hexDigit n ≤ 126 := by decide
  exact this _ (Nat.mod_lt n (by decide))

theorem escapeUnit_ascii {n c : ℕ} (hc : c ∈ escapeUnit n) : 32 ≤ c ∧ c ≤ 126 := by
  simp only [escapeUnit, List.mem_cons, List.not_mem_nil, or_false] at hc
  rcases hc with rfl | rfl | rfl | rfl | rfl | rfl
  · decide
  · decide
  all_goals exact hexDigit_ascii _

theorem unescape_ascii {e c : ℕ} (h : unescape e = some c) : 32 ≤ e ∧ e ≤ 126 := by
  by_contra hne
  have : unescape e = none := by
    unfold unescape
    repeat rw [if_neg (by omega)]
  rw [this] at h
  cases h

theorem escapeChar_ascii {d c : ℕ} (hc : c ∈ escapeChar d) : 32 ≤ c ∧ c ≤ 126 := by
  rcases escapeChar_cases d with ⟨e, he, h⟩ | ⟨hge, -, -, hle, h⟩ | ⟨-, h⟩ | ⟨-, h⟩ <;> rw [h] at hc
  · simp only [List.mem_cons, List.not_mem_nil, or_false] at hc
    rcases hc with rfl | rfl
    · decide
    · exact unescape_ascii he
  · rw [List.mem_singleton] at hc
    rw [hc]
    exact ⟨hge, hle⟩
  · exact escapeUnit_ascii hc
  · exact (List.mem_append.mp hc).elim escapeUnit_ascii escapeUnit_ascii

theorem dumpsString_ascii {s : Str} {c : ℕ} (hc : c ∈ dumpsString s) : 32 ≤ c ∧ c ≤ 126 := by
  simp only [dumpsString, List.mem_append, List.mem_cons, List.mem_flatMap, List.not_mem_nil,
    or_false] at hc
  rcases hc with (rfl | ⟨d, -, hd⟩) | rfl
  · decide
  · exact escapeChar_ascii hd
  · decide

theorem dumpsInt_ascii {n : ℤ} {c : ℕ} (hc : c ∈ dumpsInt n) : 32 ≤ c ∧ c ≤ 126 := by
  rcases List.mem_append.mp hc with hc | hc
  · split_ifs at hc
    · rw [List.mem_singleton] at hc
      rw [hc]
      decide
    · cases hc
  · have := isDigit_bounds (isDigit_toDigits hc)
    omega

mutual

/-- **A text is printable ASCII.** -/
theorem dumps_ascii [FloatText F] : ∀ (v : Value F), ∀ c ∈ dumps v, 32 ≤ c ∧ c ≤ 126
  | .null => (by decide : ∀ c ∈ codes "null", 32 ≤ c ∧ c ≤ 126)
  | .bool true => (by decide : ∀ c ∈ codes "true", 32 ≤ c ∧ c ≤ 126)
  | .bool false => (by decide : ∀ c ∈ codes "false", 32 ≤ c ∧ c ≤ 126)
  | .int n => fun c hc => dumpsInt_ascii hc
  | .float x => FloatText.repr_ascii x
  | .str s => fun c hc => dumpsString_ascii hc
  | .list items => fun c hc => by
    rw [dumps, List.mem_append, List.mem_cons, List.mem_singleton] at hc
    rcases hc with (rfl | hc) | rfl
    · decide
    · exact dumpsItems_ascii items c hc
    · decide
  | .dict ms => fun c hc => by
    rw [dumps, List.mem_append, List.mem_cons, List.mem_singleton] at hc
    rcases hc with (rfl | hc) | rfl
    · decide
    · exact dumpsMembers_ascii ms c hc
    · decide

theorem dumpsItems_ascii [FloatText F] : ∀ (items : List (Value F)), ∀ c ∈ dumpsItems items, 32 ≤ c ∧ c ≤ 126
  | [] => fun c hc => by cases hc
  | [v] => dumps_ascii v
  | v :: v' :: vs => fun c hc => by
    rcases List.mem_append.mp hc with hc | hc
    · exact dumps_ascii v c hc
    · rcases List.mem_cons.mp hc with rfl | hc
      · decide
      · exact dumpsItems_ascii (v' :: vs) c hc

theorem dumpsMembers_ascii [FloatText F] : ∀ (ms : List (Str × Value F)), ∀ c ∈ dumpsMembers ms, 32 ≤ c ∧ c ≤ 126
  | [] => fun c hc => by cases hc
  | [(key, v)] => fun c hc => by
    rcases List.mem_append.mp hc with hc | hc
    · exact dumpsString_ascii hc
    · rcases List.mem_cons.mp hc with rfl | hc
      · decide
      · exact dumps_ascii v c hc
  | (key, v) :: m :: ms => fun c hc => by
    rw [dumpsMembers, List.mem_append, List.mem_append, List.mem_cons, List.mem_cons] at hc
    · rcases hc with (hc | rfl | hc) | rfl | hc
      · exact dumpsString_ascii hc
      · decide
      · exact dumps_ascii v c hc
      · decide
      · exact dumpsMembers_ascii (m :: ms) c hc
    · simp

end

/-! ## Documents in bytes -/

/-- The encodings of a document. -/
inductive Encoding
  | utf8
  | utf8Sig
  | utf16 (bigEndian withMark : Bool)
  | utf32 (bigEndian withMark : Bool)
  deriving DecidableEq

/-- `json.detect_encoding`: a byte order mark, or the zeros among the first bytes. -/
def detectEncoding (b : List UInt8) : Encoding :=
  if [0x00, 0x00, 0xFE, 0xFF] <+: b then .utf32 true true
  else if [0xFF, 0xFE, 0x00, 0x00] <+: b then .utf32 false true
  else if [0xFE, 0xFF] <+: b then .utf16 true true
  else if [0xFF, 0xFE] <+: b then .utf16 false true
  else if [0xEF, 0xBB, 0xBF] <+: b then .utf8Sig
  else match b with
    | b₀ :: b₁ :: b₂ :: b₃ :: _ =>
      if b₀ = 0 then if b₁ = 0 then .utf32 true false else .utf16 true false
      else if b₁ = 0 then if b₂ = 0 ∧ b₃ = 0 then .utf32 false false else .utf16 false false
      else .utf8
    | [b₀, b₁] =>
      if b₀ = 0 then .utf16 true false else if b₁ = 0 then .utf16 false false else .utf8
    | _ => .utf8

/-- A byte that continues a character, in a range. -/
def isContinuation (low high : ℕ) (b : UInt8) : Bool := decide (low ≤ b.toNat ∧ b.toNat ≤ high)

/-- UTF-8 in which surrogates may be encoded; `none` for any other malformed text. -/
def decodeUtf8 : List UInt8 → Option Str
  | [] => some []
  | a :: r =>
    let n := a.toNat
    if n < 0x80 then (decodeUtf8 r).map (n :: ·)
    else if 0xC2 ≤ n ∧ n ≤ 0xDF then match r with
      | b :: r =>
        if isContinuation 0x80 0xBF b then
          (decodeUtf8 r).map (((n - 0xC0) * 64 + (b.toNat - 0x80)) :: ·)
        else none
      | _ => none
    else if 0xE0 ≤ n ∧ n ≤ 0xEF then match r with
      | b :: c :: r =>
        if isContinuation (if n = 0xE0 then 0xA0 else 0x80) 0xBF b && isContinuation 0x80 0xBF c then
          (decodeUtf8 r).map
            (((n - 0xE0) * 4096 + (b.toNat - 0x80) * 64 + (c.toNat - 0x80)) :: ·)
        else none
      | _ => none
    else if 0xF0 ≤ n ∧ n ≤ 0xF4 then match r with
      | b :: c :: d :: r =>
        if isContinuation (if n = 0xF0 then 0x90 else 0x80) (if n = 0xF4 then 0x8F else 0xBF) b
            && isContinuation 0x80 0xBF c && isContinuation 0x80 0xBF d then
          (decodeUtf8 r).map
            (((n - 0xF0) * 262144 + (b.toNat - 0x80) * 4096 + (c.toNat - 0x80) * 64
              + (d.toNat - 0x80)) :: ·)
        else none
      | _ => none
    else none

/-- The code units of UTF-16. -/
def units16 (bigEndian : Bool) : List UInt8 → Option Str
  | [] => some []
  | a :: b :: r =>
    (units16 bigEndian r).map
      ((if bigEndian then a.toNat * 256 + b.toNat else b.toNat * 256 + a.toNat) :: ·)
  | _ => none

/-- Surrogate pairs are joined; a surrogate without its other half is kept. -/
def joinUnits : Str → Str
  | high :: low :: r =>
    if isHigh high && isLow low then joinPair high low :: joinUnits r
    else high :: joinUnits (low :: r)
  | r => r

/-- UTF-32, in which surrogates may be encoded. -/
def decodeUtf32 (bigEndian : Bool) : List UInt8 → Option Str
  | [] => some []
  | a :: b :: c :: d :: r =>
    let n := if bigEndian
      then ((a.toNat * 256 + b.toNat) * 256 + c.toNat) * 256 + d.toNat
      else ((d.toNat * 256 + c.toNat) * 256 + b.toNat) * 256 + a.toNat
    if n < 0x110000 then (decodeUtf32 bigEndian r).map (n :: ·) else none
  | _ => none

/-- `b.decode(detect_encoding(b), "surrogatepass")`; `none` is the `UnicodeDecodeError`. -/
def decodeBytes (b : List UInt8) : Option Str :=
  match detectEncoding b with
  | .utf8 => decodeUtf8 b
  | .utf8Sig => decodeUtf8 (b.drop 3)
  | .utf16 bigEndian withMark =>
    (units16 bigEndian (if withMark then b.drop 2 else b)).map joinUnits
  | .utf32 bigEndian withMark => decodeUtf32 bigEndian (if withMark then b.drop 4 else b)

/-- `json.loads` of bytes. -/
def loadsBytes [FloatText F] (depth : ℕ) (b : List UInt8) : Except LoadsError (Value F) :=
  match decodeBytes b with
  | none => .error .unicodeDecodeError
  | some s => loads depth s

/-- `s.encode()` of ASCII text. -/
def encodeAscii (s : Str) : List UInt8 := s.map UInt8.ofNat

theorem encodeAscii_append (s t : Str) : encodeAscii (s ++ t) = encodeAscii s ++ encodeAscii t :=
  List.map_append

theorem toNat_ofNat_ascii {c : ℕ} (h : c ≤ 126) : (UInt8.ofNat c).toNat = c := by
  rw [UInt8.toNat_ofNat']
  exact Nat.mod_eq_of_lt (by omega)

theorem decodeUtf8_ascii {s : Str} (h : ∀ c ∈ s, c ≤ 126) : decodeUtf8 (encodeAscii s) = some s := by
  induction s with
  | nil => rfl
  | cons c s ih =>
    have hc := h c List.mem_cons_self
    have hs := ih fun d hd => h d (List.mem_cons_of_mem c hd)
    show decodeUtf8 (UInt8.ofNat c :: encodeAscii s) = _
    rw [decodeUtf8.eq_def]
    simp only [toNat_ofNat_ascii hc, hs, Option.map_some, if_pos (show c < 0x80 by omega)]

theorem detectEncoding_ascii {b : List UInt8} (h : ∀ x ∈ b, 1 ≤ x.toNat ∧ x.toNat ≤ 126) :
    detectEncoding b = .utf8 := by
  have hmark : ∀ (m : UInt8) (t : List UInt8), m.toNat = 0 ∨ 126 < m.toNat → ¬(m :: t) <+: b := by
    intro m t hm hp
    have := h m (hp.subset List.mem_cons_self)
    omega
  have hzero : ∀ x ∈ b, x ≠ 0 := by
    rintro x hx rfl
    exact absurd (h 0 hx).1 (by decide)
  rw [detectEncoding.eq_def, if_neg (hmark _ _ (by decide)), if_neg (hmark _ _ (by decide)),
    if_neg (hmark _ _ (by decide)), if_neg (hmark _ _ (by decide)), if_neg (hmark _ _ (by decide))]
  rcases b with _ | ⟨b₀, _ | ⟨b₁, _ | ⟨b₂, _ | ⟨b₃, r⟩⟩⟩⟩
  · rfl
  · rfl
  · simp only [if_neg (hzero b₀ (by simp)), if_neg (hzero b₁ (by simp))]
  · rfl
  · simp only [if_neg (hzero b₀ (by simp)), if_neg (hzero b₁ (by simp))]

/-- Printable ASCII, with or without a line feed, is decoded to itself. -/
theorem decodeBytes_ascii {s : Str} (h : ∀ c ∈ s, 1 ≤ c ∧ c ≤ 126) :
    decodeBytes (encodeAscii s) = some s := by
  have hbytes : ∀ x ∈ encodeAscii s, 1 ≤ x.toNat ∧ x.toNat ≤ 126 := by
    intro x hx
    obtain ⟨c, hc, rfl⟩ := List.mem_map.mp hx
    rw [toNat_ofNat_ascii (h c hc).2]
    exact h c hc
  rw [decodeBytes, detectEncoding_ascii hbytes]
  exact decodeUtf8_ascii fun c hc => (h c hc).2

/-- **Reading the bytes of a text** gives the value back, also with a line feed after the document. -/
theorem loadsBytes_dumps [FloatText F] {v : Value F} (h : v.Regular) {depth : ℕ}
    (hdepth : v.depth ≤ depth) {r : Str} (hr : r = [] ∨ r = [10]) :
    loadsBytes depth (encodeAscii (dumps v ++ r)) = .ok v := by
  have hascii : ∀ c ∈ dumps v ++ r, 1 ≤ c ∧ c ≤ 126 := by
    intro c hc
    rcases List.mem_append.mp hc with hc | hc
    · have := dumps_ascii v c hc
      omega
    · rcases hr with rfl | rfl
      · cases hc
      · rw [List.mem_singleton] at hc
        omega
  rw [loadsBytes, decodeBytes_ascii hascii]
  exact loads_dumps h hdepth hr

/-! ## Sorted members -/

mutual

/-- What `sort_keys=True` writes: the members of every object in the order of their keys. -/
def Value.sortKeys : Value F → Value F
  | .list items => .list (sortKeysItems items)
  | .dict ms => .dict ((sortKeysMembers ms).insertionSort fun m n => m.1 ≤ n.1)
  | v => v

def sortKeysItems : List (Value F) → List (Value F)
  | [] => []
  | v :: vs => v.sortKeys :: sortKeysItems vs

def sortKeysMembers : List (Str × Value F) → List (Str × Value F)
  | [] => []
  | (key, v) :: ms => (key, v.sortKeys) :: sortKeysMembers ms

end

theorem sortKeysItems_str (items : List Str) :
    sortKeysItems (F := F) (items.map .str) = items.map .str := by
  induction items with
  | nil => rfl
  | cons s items ih => rw [List.map_cons, sortKeysItems, Value.sortKeys, ih] <;> nofun

end HardwareTest.Lib.Json
