import Mathlib.Data.Int.Notation
import Mathlib.Data.List.Induction
import Mathlib.Data.List.Nodup

/-!
# YAML documents

A document as it is written, where a mapping is a list of entries and a key may be repeated, and as it is
loaded, where of a repeated key the last value counts.

* `update`, `keepLast` — dictionaries made of lists of entries;
* `Yaml.construct` — the loaded document;
* `lookup_keepLast`, `update_of_disjoint` — what is kept.
-/

namespace HardwareTest.Lib

/-! ## Dictionaries -/

section Lookup

variable {K V : Type} [BEq K] [LawfulBEq K]

theorem lookup_eq_none_iff {d : List (K × V)} {k : K} : d.lookup k = none ↔ k ∉ d.map Prod.fst := by
  induction d with
  | nil => simp
  | cons e d ih =>
    rw [List.lookup_cons, List.map_cons, List.mem_cons]
    by_cases h : k = e.1
    · simp [h]
    · rw [beq_false_of_ne h]
      simp [h, ih]

theorem mem_of_lookup {d : List (K × V)} {k : K} {v : V} (h : d.lookup k = some v) : (k, v) ∈ d := by
  induction d with
  | nil => cases h
  | cons e d ih =>
    rw [List.lookup_cons] at h
    by_cases hk : k = e.1
    · rw [beq_iff_eq.mpr hk] at h
      cases h
      rw [hk]
      exact List.mem_cons_self
    · rw [beq_false_of_ne hk] at h
      exact List.mem_cons_of_mem e (ih h)

/-- With distinct keys an entry is what its key is looked up to. -/
theorem lookup_of_mem {d : List (K × V)} (hd : (d.map Prod.fst).Nodup) {e : K × V} (h : e ∈ d) :
    d.lookup e.1 = some e.2 := by
  induction d with
  | nil => cases h
  | cons f d ih =>
    rw [List.map_cons, List.nodup_cons] at hd
    rw [List.lookup_cons]
    rcases List.mem_cons.mp h with rfl | h
    · rw [beq_self_eq_true]
    · have hne : e.1 ≠ f.1 := fun heq => hd.1 (heq ▸ List.mem_map_of_mem h)
      rw [beq_false_of_ne hne]
      exact ih hd.2 h

end Lookup

section Dictionaries

variable {K V : Type} [DecidableEq K]

/-- `d[k] = v`: a key that is there keeps its place. -/
def setItem (d : List (K × V)) (e : K × V) : List (K × V) :=
  if e.1 ∈ d.map Prod.fst then d.map fun f => if f.1 = e.1 then e else f else d ++ [e]

/-- `d.update(entries)`. -/
def update (d entries : List (K × V)) : List (K × V) := entries.foldl setItem d

/-- The dictionary of the entries: the last value of a key counts. -/
def keepLast (entries : List (K × V)) : List (K × V) := update [] entries

theorem update_concat (d entries : List (K × V)) (e : K × V) :
    update d (entries ++ [e]) = setItem (update d entries) e := by
  rw [update, List.foldl_append]
  rfl

theorem keepLast_concat (entries : List (K × V)) (e : K × V) :
    keepLast (entries ++ [e]) = setItem (keepLast entries) e := update_concat [] entries e

theorem keys_setItem (d : List (K × V)) (e : K × V) :
    (setItem d e).map Prod.fst
      = if e.1 ∈ d.map Prod.fst then d.map Prod.fst else d.map Prod.fst ++ [e.1] := by
  rw [setItem]
  split
  · rw [List.map_map]
    refine List.map_congr_left fun f _ => ?_
    by_cases h : f.1 = e.1
    · simp [h]
    · simp [h]
  · rw [List.map_append]
    rfl

theorem nodup_keepLast (entries : List (K × V)) : ((keepLast entries).map Prod.fst).Nodup := by
  induction entries using List.reverseRecOn with
  | nil => exact List.nodup_nil
  | append_singleton entries e ih =>
    rw [keepLast_concat, keys_setItem]
    split
    · exact ih
    · rename_i h
      rw [List.nodup_append]
      refine ⟨ih, List.nodup_singleton _, ?_⟩
      rintro a ha b hb rfl
      exact h (List.mem_singleton.mp hb ▸ ha)

theorem mem_keys_keepLast {entries : List (K × V)} {k : K} :
    k ∈ (keepLast entries).map Prod.fst ↔ k ∈ entries.map Prod.fst := by
  induction entries using List.reverseRecOn with
  | nil => exact Iff.rfl
  | append_singleton entries e ih =>
    rw [keepLast_concat, keys_setItem, List.map_append, List.mem_append, ← ih]
    show _ ↔ _ ∨ k ∈ [e.1]
    split
    · rename_i h
      rw [List.mem_singleton]
      constructor
      · exact .inl
      · rintro (hk | rfl)
        · exact hk
        · exact h
    · rw [List.mem_append]

theorem mem_setItem {d : List (K × V)} {e f : K × V} (h : f ∈ setItem d e) : f ∈ d ∨ f = e := by
  rw [setItem] at h
  split at h
  · obtain ⟨g, hg, rfl⟩ := List.mem_map.mp h
    by_cases heq : g.1 = e.1
    · rw [if_pos heq]
      exact .inr rfl
    · rw [if_neg heq]
      exact .inl hg
  · rcases List.mem_append.mp h with h | h
    · exact .inl h
    · exact .inr (List.mem_singleton.mp h)

/-- Nothing is kept that is not written. -/
theorem mem_of_mem_keepLast {entries : List (K × V)} {f : K × V} (h : f ∈ keepLast entries) :
    f ∈ entries := by
  induction entries using List.reverseRecOn with
  | nil => exact h
  | append_singleton entries e ih =>
    rw [keepLast_concat] at h
    rw [List.mem_append, List.mem_singleton]
    exact (mem_setItem h).imp_left ih

/-- Entries with new keys, none repeated, are appended. -/
theorem update_of_disjoint {d entries : List (K × V)} (h : (entries.map Prod.fst).Nodup)
    (hd : ∀ e ∈ entries, e.1 ∉ d.map Prod.fst) : update d entries = d ++ entries := by
  induction entries using List.reverseRecOn with
  | nil => exact (List.append_nil d).symm
  | append_singleton entries e ih =>
    rw [List.map_append, List.nodup_append] at h
    obtain ⟨hentries, -, hdisjoint⟩ := h
    have hprefix := ih hentries fun f hf => hd f (List.mem_append_left [e] hf)
    rw [update_concat, hprefix, setItem, if_neg, List.append_assoc]
    rw [List.map_append, List.mem_append]
    rintro (hmem | hmem)
    · exact hd e (List.mem_append_right entries (List.mem_singleton_self e)) hmem
    · exact hdisjoint e.1 hmem e.1 (List.mem_singleton_self _) rfl

/-- Without repeated keys every entry is kept. -/
theorem keepLast_of_nodup {entries : List (K × V)} (h : (entries.map Prod.fst).Nodup) :
    keepLast entries = entries :=
  update_of_disjoint h fun _ _ => List.not_mem_nil

theorem lookup_append_singleton (d : List (K × V)) (e : K × V) (k : K) :
    (d ++ [e]).lookup k = (d.lookup k).or (if k = e.1 then some e.2 else none) := by
  induction d with
  | nil =>
    rw [List.nil_append, List.lookup_cons]
    by_cases h : k = e.1
    · rw [beq_iff_eq.mpr h, if_pos h]
      rfl
    · rw [beq_false_of_ne h, if_neg h]
      rfl
  | cons f d ih =>
    rw [List.cons_append, List.lookup_cons, List.lookup_cons]
    cases k == f.1 with
    | true => rfl
    | false => exact ih

theorem lookup_setItem (d : List (K × V)) (e : K × V) (k : K) :
    (setItem d e).lookup k = if k = e.1 then some e.2 else d.lookup k := by
  rw [setItem]
  split
  · rename_i hmem
    induction d with
    | nil => cases hmem
    | cons f d ih =>
      rw [List.map_cons, List.lookup_cons, List.lookup_cons]
      by_cases hf : f.1 = e.1
      · rw [if_pos hf]
        by_cases hk : k = e.1
        · rw [if_pos hk, beq_iff_eq.mpr hk]
        · rw [if_neg hk, beq_false_of_ne hk, beq_false_of_ne (hf ▸ hk)]
          by_cases hrest : e.1 ∈ d.map Prod.fst
          · show List.lookup k (d.map fun f => if f.1 = e.1 then e else f) = d.lookup k
            rw [ih hrest, if_neg hk]
          · have hsame : (d.map fun f => if f.1 = e.1 then e else f) = d := by
              refine (List.map_congr_left fun g hg => ?_).trans (List.map_id d)
              have hne : g.1 ≠ e.1 := fun heq => hrest (heq ▸ List.mem_map_of_mem hg)
              rw [if_neg hne, id_eq]
            show List.lookup k (d.map fun f => if f.1 = e.1 then e else f) = d.lookup k
            rw [hsame]
      · rw [if_neg hf]
        have hrest : e.1 ∈ d.map Prod.fst := (List.mem_cons.mp hmem).resolve_left (Ne.symm hf)
        by_cases hkf : k = f.1
        · rw [beq_iff_eq.mpr hkf, if_neg (hkf ▸ hf)]
        · rw [beq_false_of_ne hkf]
          exact ih hrest
  · rename_i hmem
    rw [lookup_append_singleton]
    by_cases hk : k = e.1
    · rw [if_pos hk, if_pos hk, lookup_eq_none_iff.mpr (hk ▸ hmem)]
      rfl
    · rw [if_neg hk, if_neg hk, Option.or_none]

/-- **The last value of a key is kept.** -/
theorem lookup_keepLast (entries : List (K × V)) (k : K) :
    (keepLast entries).lookup k = entries.reverse.lookup k := by
  induction entries using List.reverseRecOn with
  | nil => rfl
  | append_singleton entries e ih =>
    rw [keepLast_concat, lookup_setItem, List.reverse_concat, List.lookup_cons, ih]
    by_cases hk : k = e.1
    · rw [if_pos hk, beq_iff_eq.mpr hk]
    · rw [if_neg hk, beq_false_of_ne hk]

end Dictionaries

/-! ## Documents -/

/-- A scalar by its kind; floats and timestamps are `other`. -/
inductive Scalar
  | null
  | bool (b : Bool)
  | int (n : ℤ)
  | str (s : List Char)
  | binary (bs : List UInt8)
  | other (text : List Char)
  deriving DecidableEq

/-- A document: a mapping is the list of its entries, as they are written, with merge keys expanded. -/
inductive Yaml
  | scalar (s : Scalar)
  | seq (items : List Yaml)
  | map (entries : List (Scalar × Yaml))

namespace Yaml

mutual

/-- The document that the safe loader makes: of a repeated key the last value counts. -/
def construct : Yaml → Yaml
  | .scalar s => .scalar s
  | .seq items => .seq (constructItems items)
  | .map entries => .map (keepLast (constructEntries entries))

def constructItems : List Yaml → List Yaml
  | [] => []
  | v :: items => v.construct :: constructItems items

def constructEntries : List (Scalar × Yaml) → List (Scalar × Yaml)
  | [] => []
  | (k, v) :: entries => (k, v.construct) :: constructEntries entries

end

theorem constructEntries_eq (entries : List (Scalar × Yaml)) :
    constructEntries entries = entries.map fun e => (e.1, e.2.construct) := by
  induction entries with
  | nil => rfl
  | cons e entries ih => rw [constructEntries, ih, List.map_cons]

theorem construct_map (entries : List (Scalar × Yaml)) :
    construct (.map entries) = .map (keepLast (entries.map fun e => (e.1, e.2.construct))) := by
  rw [construct, constructEntries_eq]

theorem lookup_map_construct (entries : List (Scalar × Yaml)) (k : Scalar) :
    (entries.map fun e => (e.1, e.2.construct)).lookup k = (entries.lookup k).map construct := by
  induction entries with
  | nil => rfl
  | cons e entries ih =>
    rw [List.map_cons, List.lookup_cons, List.lookup_cons, ih]
    cases k == e.1 <;> rfl

/-- The value of a key in a loaded mapping is the last one that is written, loaded. -/
theorem lookup_construct (entries : List (Scalar × Yaml)) (k : Scalar) :
    (keepLast (entries.map fun e => (e.1, e.2.construct))).lookup k
      = (entries.reverse.lookup k).map construct := by
  rw [lookup_keepLast, ← List.map_reverse, lookup_map_construct]

end Yaml

end HardwareTest.Lib
