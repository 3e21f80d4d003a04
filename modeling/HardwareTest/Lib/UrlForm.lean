import HardwareTest.Lib.JsonFile

/-!
# Forms in URLs

Names and values as `application/x-www-form-urlencoded`, by code points: in the query of a URL or in the
body of a request.

* `quotePlus`, `urlencode` — the writer;
* `unquotePlus`, `parseForm` — the reader;
* `parseForm_urlencode` — what is written is read back;
* `splitUrl`, `splitUrl_query_iff` — a query put after a base is the query of the URL exactly when the base
  has no `?` and no `#`.
-/

namespace HardwareTest.Lib.UrlForm

open HardwareTest.Lib.Json

/-! ## The writer -/

/-- The bytes that stand for themselves: letters, digits and `_.-~`. -/
def isUnreserved (b : UInt8) : Bool :=
  let n := b.toNat
  (decide (48 ≤ n ∧ n ≤ 57) || decide (65 ≤ n ∧ n ≤ 90) || decide (97 ≤ n ∧ n ≤ 122))
    || n == 95 || n == 46 || n == 45 || n == 126

/-- An upper case hexadecimal digit. -/
def upperHex (n : ℕ) : ℕ := if n < 10 then 48 + n else 55 + n

def quoteByte (b : UInt8) : Str :=
  if isUnreserved b then [b.toNat]
  else if b = 32 then [43]
  else [37, upperHex (b.toNat / 16), upperHex (b.toNat % 16)]

/-- `urllib.parse.quote_plus(s)`; `none` is the `UnicodeEncodeError`. -/
def quotePlus (s : Str) : Option Str := (encodeUtf8 s).map fun b => b.flatMap quoteByte

/-- A name and a value. -/
def quotePair (pair : Str × Str) : Option Str := do
  return (← quotePlus pair.1) ++ 61 :: (← quotePlus pair.2)

/-- `urllib.parse.urlencode(pairs)`. -/
def urlencode (pairs : List (Str × Str)) : Option Str := (pairs.mapM quotePair).map fun ps => [38].intercalate ps

/-! ## The reader -/

/-- The bytes of a quoted text; a `%` without two digits stands for itself. -/
def unquoteBytes : Str → Option (List UInt8)
  | [] => some []
  | 37 :: a :: b :: s =>
    match hexVal a, hexVal b with
    | some x, some y => (unquoteBytes s).map (UInt8.ofNat (16 * x + y) :: ·)
    | _, _ => (unquoteBytes (a :: b :: s)).map (37 :: ·)
  | c :: s =>
    if c = 43 then (unquoteBytes s).map (32 :: ·)
    else if c < 128 then (unquoteBytes s).map (UInt8.ofNat c :: ·)
    else none

def unquotePlus (s : Str) : Option Str := (unquoteBytes s).bind decodeStrict

/-- What stands before and after the first separator. -/
def cut (separator : ℕ) (s : Str) : Str × Str :=
  (s.takeWhile (· ≠ separator), (s.dropWhile (· ≠ separator)).drop 1)

/-- A name, and the value after the first `=`. -/
def parsePair (piece : Str) : Option (Str × Str) := do
  return (← unquotePlus (cut 61 piece).1, ← unquotePlus (cut 61 piece).2)

/-- The pairs of a form; empty pieces between `&` are skipped. -/
def parseForm (form : Str) : Option (List (Str × Str)) :=
  ((form.splitOn 38).filter (· ≠ [])).mapM parsePair

/-! ## What is written is read back -/

theorem hexVal_upperHex {n : ℕ} (h : n < 16) : hexVal (upperHex n) = some n := by
  have : ∀ n < 16, hexVal (upperHex n) = some n := by decide
  exact this n h

/-- The characters of a quoted text. -/
def IsFormChar (c : ℕ) : Prop :=
  48 ≤ c ∧ c ≤ 57 ∨ 65 ≤ c ∧ c ≤ 90 ∨ 97 ≤ c ∧ c ≤ 122 ∨ c = 95 ∨ c = 46 ∨ c = 45 ∨ c = 126 ∨ c = 43 ∨ c = 37

theorem isUnreserved_iff (b : UInt8) : isUnreserved b = true ↔
    48 ≤ b.toNat ∧ b.toNat ≤ 57 ∨ 65 ≤ b.toNat ∧ b.toNat ≤ 90 ∨ 97 ≤ b.toNat ∧ b.toNat ≤ 122 ∨
      b.toNat = 95 ∨ b.toNat = 46 ∨ b.toNat = 45 ∨ b.toNat = 126 := by
  simp only [isUnreserved, Bool.or_eq_true, decide_eq_true_eq, beq_iff_eq, or_assoc]

theorem upperHex_formChar {n : ℕ} (h : n < 16) : IsFormChar (upperHex n) := by
  rw [upperHex, IsFormChar]
  split_ifs <;> omega

theorem mem_quoteByte {b : UInt8} {c : ℕ} (hc : c ∈ quoteByte b) : IsFormChar c := by
  have hlt : b.toNat < 256 := b.toNat_lt
  rw [quoteByte] at hc
  split_ifs at hc with hunreserved hspace
  · rw [List.mem_singleton.mp hc]
    have := (isUnreserved_iff b).mp hunreserved
    rw [IsFormChar]
    omega
  · rw [List.mem_singleton.mp hc, IsFormChar]
    omega
  · simp only [List.mem_cons, List.not_mem_nil, or_false] at hc
    rcases hc with rfl | rfl | rfl
    · rw [IsFormChar]
      omega
    · exact upperHex_formChar (by omega)
    · exact upperHex_formChar (by omega)

theorem mem_quotePlus {s q : Str} (h : quotePlus s = some q) {c : ℕ} (hc : c ∈ q) : IsFormChar c := by
  obtain ⟨b, -, rfl⟩ := Option.map_eq_some_iff.mp h
  obtain ⟨x, -, hx⟩ := List.mem_flatMap.mp hc
  exact mem_quoteByte hx

/-- A character that is no `%` stands for one byte. -/
theorem unquoteBytes_cons {c : ℕ} (hc : c ≠ 37) (s : Str) :
    unquoteBytes (c :: s) = if c = 43 then (unquoteBytes s).map (32 :: ·)
      else if c < 128 then (unquoteBytes s).map (UInt8.ofNat c :: ·) else none := by
  rw [unquoteBytes.eq_def]
  split
  · contradiction
  · rename_i heq
    exact absurd (List.cons.inj heq).1 hc
  · rename_i heq
    obtain ⟨rfl, rfl⟩ := List.cons.inj heq
    rfl

theorem unquoteBytes_quoteByte (b : UInt8) (s : Str) :
    unquoteBytes (quoteByte b ++ s) = (unquoteBytes s).map (b :: ·) := by
  have hlt : b.toNat < 256 := b.toNat_lt
  rw [quoteByte]
  split_ifs with hunreserved hspace
  · have hchar := (isUnreserved_iff b).mp hunreserved
    rw [List.singleton_append, unquoteBytes_cons (by omega), if_neg (by omega), if_pos (by omega),
      UInt8.ofNat_toNat]
  · rw [List.singleton_append, unquoteBytes_cons (by decide), if_pos rfl, hspace]
  · have hvalue : 16 * (b.toNat / 16) + b.toNat % 16 = b.toNat := by omega
    rw [List.cons_append, List.cons_append, List.singleton_append, unquoteBytes]
    simp only [hexVal_upperHex (show b.toNat / 16 < 16 by omega), hexVal_upperHex (show b.toNat % 16 < 16 by omega),
      hvalue, UInt8.ofNat_toNat]

theorem unquoteBytes_quoted (b : List UInt8) : unquoteBytes (b.flatMap quoteByte) = some b := by
  induction b with
  | nil => rfl
  | cons x b ih => rw [List.flatMap_cons, unquoteBytes_quoteByte, ih, Option.map_some]

/-- **A quoted text is read back.** -/
theorem unquotePlus_quotePlus {s q : Str} (h : quotePlus s = some q) : unquotePlus q = some s := by
  obtain ⟨b, hb, rfl⟩ := Option.map_eq_some_iff.mp h
  rw [unquotePlus, unquoteBytes_quoted, Option.bind_some, decodeStrict_encodeUtf8 hb]

theorem quotePlus_iff (s : Str) : (∃ q, quotePlus s = some q) ↔ Scalar s := by
  rw [← encodeUtf8_iff, quotePlus]
  cases encodeUtf8 s with
  | none => simp
  | some b => simp

theorem quotePair_eq {pair : Str × Str} {p : Str} (h : quotePair pair = some p) :
    ∃ name value, quotePlus pair.1 = some name ∧ quotePlus pair.2 = some value ∧ p = name ++ 61 :: value := by
  obtain ⟨name, hname, h⟩ := Option.bind_eq_some_iff.mp h
  obtain ⟨value, hvalue, h⟩ := Option.bind_eq_some_iff.mp h
  exact ⟨name, value, hname, hvalue, (Option.some.inj h).symm⟩

theorem cut_append {separator : ℕ} {a : Str} (h : separator ∉ a) (b : Str) :
    cut separator (a ++ separator :: b) = (a, b) := by
  have hbefore : ∀ c ∈ a, decide (c ≠ separator) = true := fun c hc => decide_eq_true fun heq => h (heq ▸ hc)
  have hstop : ¬decide (separator ≠ separator) = true := by simp
  rw [cut, List.takeWhile_append_of_pos hbefore, List.dropWhile_append_of_pos hbefore,
    List.takeWhile_cons_of_neg (p := fun c => decide (c ≠ separator)) hstop,
    List.dropWhile_cons_of_neg (p := fun c => decide (c ≠ separator)) hstop, List.append_nil]
  rfl

theorem not_mem_cut (separator : ℕ) (s : Str) : separator ∉ (cut separator s).1 := fun hmem =>
  of_decide_eq_true (List.mem_takeWhile_imp (p := fun c => decide (c ≠ separator)) hmem) rfl

theorem parsePair_quotePair {pair : Str × Str} {p : Str} (h : quotePair pair = some p) :
    parsePair p = some pair := by
  obtain ⟨name, value, hname, hvalue, rfl⟩ := quotePair_eq h
  have hequals : 61 ∉ name := fun hmem => by
    have := mem_quotePlus hname hmem
    rw [IsFormChar] at this
    omega
  rw [parsePair, cut_append hequals, unquotePlus_quotePlus hname, unquotePlus_quotePlus hvalue]
  rfl

/-- The characters of a form. -/
theorem mem_quotePair {pair : Str × Str} {p : Str} (h : quotePair pair = some p) {c : ℕ} (hc : c ∈ p) :
    IsFormChar c ∨ c = 61 := by
  obtain ⟨name, value, hname, hvalue, rfl⟩ := quotePair_eq h
  rcases List.mem_append.mp hc with hc | hc
  · exact .inl (mem_quotePlus hname hc)
  · rcases List.mem_cons.mp hc with rfl | hc
    · exact .inr rfl
    · exact .inl (mem_quotePlus hvalue hc)

theorem quotePair_ne_nil {pair : Str × Str} {p : Str} (h : quotePair pair = some p) : p ≠ [] := by
  obtain ⟨name, value, -, -, rfl⟩ := quotePair_eq h
  exact List.append_ne_nil_of_right_ne_nil _ (List.cons_ne_nil _ _)

/-- The written pairs, one by one. -/
theorem forall₂_of_mapM {α β : Type} {f : α → Option β} {l : List α} {m : List β} (h : l.mapM f = some m) :
    List.Forall₂ (fun a b => f a = some b) l m := by
  induction l generalizing m with
  | nil =>
    rw [List.mapM_nil] at h
    cases h
    exact .nil
  | cons a l ih =>
    rw [List.mapM_cons] at h
    obtain ⟨b, hb, h⟩ := Option.bind_eq_some_iff.mp h
    obtain ⟨m', hm', h⟩ := Option.bind_eq_some_iff.mp h
    cases h
    exact .cons hb (ih hm')

theorem mapM_of_forall₂ {α β : Type} {f : β → Option α} {l : List α} {m : List β}
    (h : List.Forall₂ (fun a b => f b = some a) l m) : m.mapM f = some l := by
  induction h with
  | nil => rfl
  | cons hab hrest ih =>
    rw [List.mapM_cons, hab, ih]
    rfl

theorem quoted_of_mem {pairs : List (Str × Str)} {ps : List Str}
    (h : List.Forall₂ (fun pair p => quotePair pair = some p) pairs ps) {p : Str} (hp : p ∈ ps) :
    ∃ pair, quotePair pair = some p := by
  induction h with
  | nil => cases hp
  | cons hpair hrest ih =>
    rcases List.mem_cons.mp hp with rfl | hp
    · exact ⟨_, hpair⟩
    · exact ih hp

/-- **What is written is read back.** -/
theorem parseForm_urlencode {pairs : List (Str × Str)} {form : Str} (h : urlencode pairs = some form) :
    parseForm form = some pairs := by
  obtain ⟨ps, hps, rfl⟩ := Option.map_eq_some_iff.mp h
  have hwritten := forall₂_of_mapM hps
  have hread : ps.mapM parsePair = some pairs :=
    mapM_of_forall₂ (hwritten.imp fun _ _ hpair => parsePair_quotePair hpair)
  rcases eq_or_ne ps [] with rfl | hne
  · exact hread
  have hseparator : ∀ p ∈ ps, 38 ∉ p := fun p hp hmem => by
    obtain ⟨pair, hpair⟩ := quoted_of_mem hwritten hp
    have := mem_quotePair hpair hmem
    rw [IsFormChar] at this
    omega
  have hfilter : ps.filter (· ≠ []) = ps := List.filter_eq_self.mpr fun p hp => by
    obtain ⟨pair, hpair⟩ := quoted_of_mem hwritten hp
    exact decide_eq_true (quotePair_ne_nil hpair)
  rw [parseForm, List.splitOn_intercalate 38 hseparator hne, hfilter, hread]

theorem mem_intercalate {ps : List Str} {c : ℕ} (hc : c ∈ [38].intercalate ps) : c = 38 ∨ ∃ p ∈ ps, c ∈ p := by
  induction ps with
  | nil => cases hc
  | cons p ps ih =>
    rcases eq_or_ne ps [] with rfl | hne
    · rw [List.intercalate_singleton] at hc
      exact .inr ⟨p, List.mem_cons_self, hc⟩
    · rw [List.intercalate_cons_of_ne_nil hne, List.append_assoc, List.mem_append, List.mem_append,
        List.mem_singleton] at hc
      rcases hc with hc | hc | hc
      · exact .inr ⟨p, List.mem_cons_self, hc⟩
      · exact .inl hc
      · rcases ih hc with hc | ⟨q, hq, hc⟩
        · exact .inl hc
        · exact .inr ⟨q, List.mem_cons_of_mem _ hq, hc⟩

theorem mem_urlencode {pairs : List (Str × Str)} {form : Str} (h : urlencode pairs = some form) {c : ℕ}
    (hc : c ∈ form) : IsFormChar c ∨ c = 61 ∨ c = 38 := by
  obtain ⟨ps, hps, rfl⟩ := Option.map_eq_some_iff.mp h
  rcases mem_intercalate hc with rfl | ⟨p, hp, hc⟩
  · exact .inr (.inr rfl)
  · obtain ⟨pair, hpair⟩ := quoted_of_mem (forall₂_of_mapM hps) hp
    rcases mem_quotePair hpair hc with hc | hc
    · exact .inl hc
    · exact .inr (.inl hc)

/-- A form is ASCII, and has no character with which a query starts or ends. -/
theorem urlencode_plain {pairs : List (Str × Str)} {form : Str} (h : urlencode pairs = some form) :
    (∀ c ∈ form, c < 128) ∧ 63 ∉ form ∧ 35 ∉ form := by
  refine ⟨fun c hc => ?_, fun hc => ?_, fun hc => ?_⟩
  all_goals
    have := mem_urlencode h hc
    rw [IsFormChar] at this
    omega

theorem quotePair_iff (pair : Str × Str) :
    (∃ p, quotePair pair = some p) ↔ Scalar pair.1 ∧ Scalar pair.2 := by
  rw [← quotePlus_iff, ← quotePlus_iff]
  constructor
  · rintro ⟨p, hp⟩
    obtain ⟨name, value, hname, hvalue, -⟩ := quotePair_eq hp
    exact ⟨⟨name, hname⟩, value, hvalue⟩
  · rintro ⟨⟨name, hname⟩, value, hvalue⟩
    refine ⟨name ++ 61 :: value, ?_⟩
    rw [quotePair, hname, hvalue]
    rfl

/-- Exactly the pairs without surrogates are written. -/
theorem urlencode_iff (pairs : List (Str × Str)) :
    (∃ form, urlencode pairs = some form) ↔ ∀ pair ∈ pairs, Scalar pair.1 ∧ Scalar pair.2 := by
  have hpairs : (∃ ps, pairs.mapM quotePair = some ps) ↔ ∀ pair ∈ pairs, Scalar pair.1 ∧ Scalar pair.2 := by
    induction pairs with
    | nil => exact ⟨fun _ => nofun, fun _ => ⟨[], List.mapM_nil⟩⟩
    | cons pair pairs ih =>
      rw [List.forall_mem_cons, ← ih, ← quotePair_iff, List.mapM_cons]
      constructor
      · rintro ⟨ps, hps⟩
        obtain ⟨p, hp, hps⟩ := Option.bind_eq_some_iff.mp hps
        obtain ⟨ps', hps', -⟩ := Option.bind_eq_some_iff.mp hps
        exact ⟨⟨p, hp⟩, ps', hps'⟩
      · rintro ⟨⟨p, hp⟩, ps, hps⟩
        refine ⟨p :: ps, ?_⟩
        rw [hp, hps]
        rfl
  rw [← hpairs, urlencode]
  constructor
  · rintro ⟨form, hform⟩
    obtain ⟨ps, hps, -⟩ := Option.map_eq_some_iff.mp hform
    exact ⟨ps, hps⟩
  · rintro ⟨ps, hps⟩
    exact ⟨_, by rw [hps, Option.map_some]⟩

/-! ## Queries -/

/-- A URL as it is requested, without its fragment: what stands before the first `?`, and the query. -/
def splitUrl (url : Str) : Str × Option Str :=
  let requested := (cut 35 url).1
  ((cut 63 requested).1, if 63 ∈ requested then some (cut 63 requested).2 else none)

/-- **A query put after a base** is the query of the URL exactly when the base has neither a query nor a
fragment of its own. -/
theorem splitUrl_query_iff {base query : Str} (hquery : 35 ∉ query) :
    splitUrl (base ++ 63 :: query) = (base, some query) ↔ 63 ∉ base ∧ 35 ∉ base := by
  constructor
  · intro h
    have hbase : (cut 63 (cut 35 (base ++ 63 :: query)).1).1 = base := congrArg Prod.fst h
    refine ⟨hbase ▸ not_mem_cut 63 _, fun hmem => not_mem_cut 35 (base ++ 63 :: query) ?_⟩
    rw [← hbase] at hmem
    exact (List.takeWhile_prefix _).subset hmem
  · rintro ⟨hquestion, hhash⟩
    have hrequested : (cut 35 (base ++ 63 :: query)).1 = base ++ 63 :: query := by
      refine List.takeWhile_eq_self_iff.mpr fun c hc => decide_eq_true ?_
      rintro rfl
      rcases List.mem_append.mp hc with hc | hc
      · exact hhash hc
      · rcases List.mem_cons.mp hc with hc | hc
        · cases hc
        · exact hquery hc
    have hmem : 63 ∈ base ++ 63 :: query := List.mem_append_right _ List.mem_cons_self
    simp only [splitUrl, hrequested, cut_append hquestion, if_pos hmem]

end HardwareTest.Lib.UrlForm
