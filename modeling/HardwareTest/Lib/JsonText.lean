import HardwareTest.Lib.JsonFile

/-!
# JSON texts on one line

A document on one line, with a blank after every separator and with every character that needs no escape
as it is.

* `dumpsText` — the writer, which raises on an integer that is too long;
* `Value.WellFormed` — values with floating point numbers of a kind, and with no key twice;
* `loads_dumpsText`, `printed_dumpsText` — the text is read back, and has no control characters.
-/

namespace HardwareTest.Lib.Json

variable {F : Type}

mutual

/-- A value whose floating point numbers are of the kind `P`, and in which no object has a key twice. -/
def Value.WellFormed (P : F → Prop) : Value F → Prop
  | .float x => P x
  | .list items => WellFormedItems P items
  | .dict ms => WellFormedMembers P ms ∧ (ms.map Prod.fst).Nodup
  | _ => True

def WellFormedItems (P : F → Prop) : List (Value F) → Prop
  | [] => True
  | v :: vs => v.WellFormed P ∧ WellFormedItems P vs

def WellFormedMembers (P : F → Prop) : List (Str × Value F) → Prop
  | [] => True
  | (_, v) :: ms => v.WellFormed P ∧ WellFormedMembers P ms

end

variable [FloatText F]

mutual

/-- `json.dumps(value, ensure_ascii=False)`; `none` is the `ValueError` of an integer that is too long. -/
def dumpsText : Value F → Option Str
  | .null => some (codes "null")
  | .bool true => some (codes "true")
  | .bool false => some (codes "false")
  | .int n => if n.natAbs < 10 ^ maxStrDigits then some (dumpsInt n) else none
  | .float x => some (FloatText.repr x)
  | .str s => some (rawString s)
  | .list items => (itemsText items).map fun t => 91 :: (t ++ [93])
  | .dict ms => (membersText ms).map fun t => 123 :: (t ++ [125])

def itemsText : List (Value F) → Option Str
  | [] => some []
  | [v] => dumpsText v
  | v :: vs => (dumpsText v).bind fun s => (itemsText vs).map fun t => s ++ 44 :: 32 :: t

def membersText : List (Str × Value F) → Option Str
  | [] => some []
  | [(key, v)] => (dumpsText v).map fun s => rawString key ++ 58 :: 32 :: s
  | (key, v) :: ms =>
    (dumpsText v).bind fun s => (membersText ms).map fun t => rawString key ++ 58 :: 32 :: (s ++ 44 :: 32 :: t)

end

theorem dumpsText_int {n : ℤ} {t : Str} (h : dumpsText (F := F) (.int n) = some t) :
    (Value.int (F := F) n).SpelledBy t := by
  rw [dumpsText, Option.ite_none_right_eq_some] at h
  exact ⟨h.1, (Option.some.inj h.2).symm⟩

section WellFormed

variable {P : F → Prop}

mutual

/-- The text spells the value. -/
theorem spelledBy_dumpsText (hread : ∀ x, P x → ReadsBack x) :
    ∀ v : Value F, v.WellFormed P → ∀ t, dumpsText v = some t → v.SpelledBy t
  | .null, _ => fun t ht => (Option.some.inj ht).symm
  | .bool true, _ => fun t ht => (Option.some.inj ht).symm
  | .bool false, _ => fun t ht => (Option.some.inj ht).symm
  | .int n, _ => fun t ht => dumpsText_int ht
  | .float x, h => fun t ht => ⟨hread x h, (Option.some.inj ht).symm⟩
  | .str s, _ => fun t ht => ⟨_, stringBody_rawChars s, (Option.some.inj ht).symm⟩
  | .list [], _ => fun t ht => (Option.some.inj ht).symm
  | .list (v :: vs), h => fun t ht => by
    rw [dumpsText] at ht
    obtain ⟨u, hu, rfl⟩ := Option.map_eq_some_iff.mp ht
    exact ⟨[], _, blank_nil, itemsSpelledBy_itemsText hread v vs h u hu, rfl⟩
  | .dict [], _ => fun t ht => (Option.some.inj ht).symm
  | .dict ((key, v) :: ms), h => fun t ht => by
    rw [dumpsText] at ht
    obtain ⟨u, hu, rfl⟩ := Option.map_eq_some_iff.mp ht
    obtain ⟨w, rfl, hw⟩ := membersSpelledBy_membersText hread key v ms h.1 u hu
    exact ⟨h.2, [], _, blank_nil, hw, rfl⟩
termination_by v => sizeOf v

theorem itemsSpelledBy_itemsText (hread : ∀ x, P x → ReadsBack x) :
    ∀ (v : Value F) (vs : List (Value F)), WellFormedItems P (v :: vs) →
    ∀ t, itemsText (v :: vs) = some t → ItemsSpelledBy (v :: vs) (t ++ [93])
  | v, [], h => fun t ht => ⟨t, [], spelledBy_dumpsText hread v h.1 t ht, blank_nil, rfl⟩
  | v, v' :: vs, h => fun t ht => by
    obtain ⟨s, hs, ht⟩ := Option.bind_eq_some_iff.mp ht
    obtain ⟨u, hu, rfl⟩ := Option.map_eq_some_iff.mp ht
    exact ⟨s, [32], _, spelledBy_dumpsText hread v h.1 s hs, blank_space,
      itemsSpelledBy_itemsText hread v' vs h.2 u hu, List.append_assoc _ _ _⟩
termination_by v vs => sizeOf v + sizeOf vs

theorem membersSpelledBy_membersText (hread : ∀ x, P x → ReadsBack x) :
    ∀ (key : Str) (v : Value F) (ms : List (Str × Value F)), WellFormedMembers P ((key, v) :: ms) →
    ∀ t, membersText ((key, v) :: ms) = some t →
    ∃ u, t = 34 :: u ∧ MembersSpelledBy ((key, v) :: ms) (u ++ [125])
  | key, v, [], h => fun t ht => by
    obtain ⟨s, hs, rfl⟩ := Option.map_eq_some_iff.mp ht
    refine ⟨_, rfl, _, [32], s, [], stringBody_rawChars key, blank_space, spelledBy_dumpsText hread v h.1 s hs,
      blank_nil, ?_⟩
    simp
  | key, v, (key', v') :: ms, h => fun t ht => by
    obtain ⟨s, hs, ht⟩ := Option.bind_eq_some_iff.mp ht
    obtain ⟨u, hu, rfl⟩ := Option.map_eq_some_iff.mp ht
    obtain ⟨w, rfl, hw⟩ := membersSpelledBy_membersText hread key' v' ms h.2 u hu
    refine ⟨_, rfl, _, [32], s, [32], _, stringBody_rawChars key, blank_space,
      spelledBy_dumpsText hread v h.1 s hs, blank_space, hw, ?_⟩
    simp
termination_by _ v ms => sizeOf v + sizeOf ms

end

/-- **Reading undoes writing.** -/
theorem loads_dumpsText (hread : ∀ x, P x → ReadsBack x) {v : Value F} (h : v.WellFormed P) {t : Str}
    (ht : dumpsText v = some t) {depth : ℕ} (hdepth : v.depth ≤ depth) : loads depth t = .ok v := by
  have hloads := loads_spelled (spelledBy_dumpsText hread v h t ht) hdepth blank_nil
  rwa [List.append_nil] at hloads

end WellFormed

/-- A text without control characters. -/
def Printed (t : Str) : Prop := ∀ c ∈ t, 32 ≤ c

instance (t : Str) : Decidable (Printed t) := inferInstanceAs (Decidable (∀ c ∈ t, 32 ≤ c))

theorem printed_append {s t : Str} : Printed (s ++ t) ↔ Printed s ∧ Printed t := List.forall_mem_append

theorem printed_cons {c : ℕ} {t : Str} : Printed (c :: t) ↔ 32 ≤ c ∧ Printed t := List.forall_mem_cons

theorem printed_rawString (s : Str) : Printed (rawString s) := fun _ hc => (mem_rawString hc).1

mutual

/-- **No control characters are written**, whatever the strings are. -/
theorem printed_dumpsText : ∀ v : Value F, ∀ t, dumpsText v = some t → Printed t
  | .null => fun t ht => by
    obtain rfl := Option.some.inj ht
    exact (by decide : Printed (codes "null"))
  | .bool true => fun t ht => by
    obtain rfl := Option.some.inj ht
    exact (by decide : Printed (codes "true"))
  | .bool false => fun t ht => by
    obtain rfl := Option.some.inj ht
    exact (by decide : Printed (codes "false"))
  | .int n => fun t ht => by
    obtain ⟨-, rfl⟩ := dumpsText_int ht
    exact fun c hc => (dumpsInt_ascii hc).1
  | .float x => fun t ht => by
    obtain rfl := Option.some.inj ht
    exact fun c hc => (FloatText.repr_ascii x c hc).1
  | .str s => fun t ht => by
    obtain rfl := Option.some.inj ht
    exact printed_rawString s
  | .list items => fun t ht => by
    rw [dumpsText] at ht
    obtain ⟨u, hu, rfl⟩ := Option.map_eq_some_iff.mp ht
    exact printed_cons.mpr ⟨by decide, printed_append.mpr ⟨printed_itemsText items u hu, by decide⟩⟩
  | .dict ms => fun t ht => by
    rw [dumpsText] at ht
    obtain ⟨u, hu, rfl⟩ := Option.map_eq_some_iff.mp ht
    exact printed_cons.mpr ⟨by decide, printed_append.mpr ⟨printed_membersText ms u hu, by decide⟩⟩

theorem printed_itemsText : ∀ items : List (Value F), ∀ t, itemsText items = some t → Printed t
  | [] => fun t ht => by
    obtain rfl := Option.some.inj ht
    exact nofun
  | [v] => fun t ht => printed_dumpsText v t ht
  | v :: v' :: vs => fun t ht => by
    obtain ⟨s, hs, ht⟩ := Option.bind_eq_some_iff.mp ht
    obtain ⟨u, hu, rfl⟩ := Option.map_eq_some_iff.mp ht
    exact printed_append.mpr ⟨printed_dumpsText v s hs, printed_cons.mpr ⟨by decide, printed_cons.mpr ⟨by decide,
      printed_itemsText (v' :: vs) u hu⟩⟩⟩

theorem printed_membersText : ∀ ms : List (Str × Value F), ∀ t, membersText ms = some t → Printed t
  | [] => fun t ht => by
    obtain rfl := Option.some.inj ht
    exact nofun
  | [(key, v)] => fun t ht => by
    obtain ⟨s, hs, rfl⟩ := Option.map_eq_some_iff.mp ht
    exact printed_append.mpr ⟨printed_rawString key, printed_cons.mpr ⟨by decide, printed_cons.mpr ⟨by decide,
      printed_dumpsText v s hs⟩⟩⟩
  | (key, v) :: m :: ms => fun t ht => by
    obtain ⟨s, hs, ht⟩ := Option.bind_eq_some_iff.mp ht
    obtain ⟨u, hu, rfl⟩ := Option.map_eq_some_iff.mp ht
    exact printed_append.mpr ⟨printed_rawString key, printed_cons.mpr ⟨by decide, printed_cons.mpr ⟨by decide,
      printed_append.mpr ⟨printed_dumpsText v s hs, printed_cons.mpr ⟨by decide, printed_cons.mpr ⟨by decide,
        printed_membersText (m :: ms) u hu⟩⟩⟩⟩⟩⟩

end

end HardwareTest.Lib.Json
