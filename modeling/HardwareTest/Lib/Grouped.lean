import Mathlib.Data.List.Basic

/-!
# Records written in turn

A log of records, each with a key, written by one party at a time: a party opens its turn with a key
that was never used, goes on as long as its last record is not final, and never comes back.

* `Grouped` — such logs, one constructor for each way to write;
* `Grouped.split` — the records of one key stand together, only the last of them may be final;
* `Grouped.filter_final_length` — a key with a final record has exactly one.
-/

namespace HardwareTest.Lib

variable {α κ : Type*} (key : α → κ) (final : α → Bool)

/-- A log whose parties write in turn. -/
inductive Grouped : List α → Prop
  | nil : Grouped []
  | opened {l : List α} {a : α} : Grouped l → (∀ b ∈ l, key b ≠ key a) → final a = false →
      Grouped (l ++ [a])
  | continued {l : List α} {a last : α} : Grouped l → l.getLast? = some last → final last = false →
      key a = key last → Grouped (l ++ [a])

namespace Grouped

variable {key final}

/-- Nothing stands behind the part that holds the last element. -/
theorem eq_nil_of_getLast? {l m : List α} {last : α} (hlast : (l ++ m).getLast? = some last)
    (hm : last ∉ m) : m = [] := by
  rcases m.eq_nil_or_concat with rfl | ⟨init, b, rfl⟩
  · rfl
  · have hb : b = last := by simpa [← List.append_assoc] using hlast
    exact absurd (by simp [hb]) hm

/-- The records of one key stand together: those that are not final, then at most one that is. -/
def Together (key : α → κ) (final : α → Bool) (k : κ) (l : List α) : Prop :=
  ∃ before started ended after, l = before ++ (started ++ ended) ++ after ∧
    (∀ a ∈ before, key a ≠ k) ∧ (∀ a ∈ after, key a ≠ k) ∧ started ≠ [] ∧
    (∀ a ∈ started, key a = k ∧ final a = false) ∧ ended.length ≤ 1 ∧
    ∀ a ∈ ended, key a = k ∧ final a = true

/-- A record of another key. -/
theorem Together.append_other {k : κ} {l : List α} {a : α} (h : Together key final k l)
    (ha : key a ≠ k) : Together key final k (l ++ [a]) := by
  obtain ⟨before, started, ended, after, rfl, hbefore, hafter, hrest⟩ := h
  refine ⟨before, started, ended, after ++ [a], by simp, hbefore, ?_, hrest⟩
  intro b hb
  rcases List.mem_append.mp hb with hb | hb
  · exact hafter b hb
  · exact List.mem_singleton.mp hb ▸ ha

/-- **The next record of a key.**  It goes on where the last one stands, so nothing follows them. -/
theorem Together.append_same {k : κ} {l : List α} {a last : α} (h : Together key final k l)
    (hlast : l.getLast? = some last) (hopen : final last = false) (hlastk : key last = k)
    (hak : key a = k) : Together key final k (l ++ [a]) := by
  obtain ⟨before, started, ended, after, rfl, hbefore, hafter, hne, hstarted, hlen, hended⟩ := h
  have hafter' : after = [] := eq_nil_of_getLast? hlast fun hb => hafter last hb hlastk
  subst hafter'
  rw [List.append_nil, ← List.append_assoc] at hlast
  have hended' : ended = [] := eq_nil_of_getLast? hlast fun hb => by
    rw [(hended last hb).2] at hopen
    cases hopen
  subst hended'
  cases hfin : final a with
  | false =>
    refine ⟨before, started ++ [a], [], [], by simp, hbefore, by simp, by simp, ?_, by simp, by simp⟩
    intro b hb
    rcases List.mem_append.mp hb with hb | hb
    · exact hstarted b hb
    · rw [List.mem_singleton.mp hb]
      exact ⟨hak, hfin⟩
  | true =>
    exact ⟨before, started, [a], [], by simp, hbefore, by simp, hne, hstarted, by simp,
      by simp [hak, hfin]⟩

/-- **The records of one key.** -/
theorem split {l : List α} (h : Grouped key final l) {k : κ} (hk : ∃ a ∈ l, key a = k) :
    Together key final k l := by
  have hother : ∀ {l : List α} {a : α}, key a ≠ k → (∃ b ∈ l ++ [a], key b = k) →
      ∃ b ∈ l, key b = k := by
    intro l a hak ⟨b, hb, hbk⟩
    rcases List.mem_append.mp hb with hb | hb
    · exact ⟨b, hb, hbk⟩
    · exact absurd (List.mem_singleton.mp hb ▸ hbk) hak
  induction h with
  | nil =>
    obtain ⟨a, ha, -⟩ := hk
    cases ha
  | @opened l a h hnew hopen ih =>
    by_cases hak : key a = k
    · subst hak
      exact ⟨l, [a], [], [], by simp, hnew, by simp, by simp, by simp [hopen], by simp, by simp⟩
    · exact (ih (hother hak hk)).append_other hak
  | @continued l a last h hlast hopen hkey ih =>
    by_cases hak : key a = k
    · have hlastk : key last = k := hkey ▸ hak
      exact (ih ⟨last, List.mem_of_getLast? hlast, hlastk⟩).append_same hlast hopen hlastk hak
    · exact (ih (hother hak hk)).append_other hak

/-- A key with a final record has exactly one. -/
theorem filter_final_length {l : List α} (h : Grouped key final l) {k : κ} [DecidableEq κ]
    (hk : ∃ a ∈ l, key a = k ∧ final a = true) :
    (l.filter fun a => key a = k ∧ final a = true).length = 1 := by
  obtain ⟨a, ha, hak, hfin⟩ := hk
  obtain ⟨before, started, ended, after, rfl, hbefore, hafter, -, hstarted, hlen, hended⟩ :=
    h.split ⟨a, ha, hak⟩
  have hmem : a ∈ ended := by
    simp only [List.mem_append] at ha
    rcases ha with (ha | ha | ha) | ha
    · exact absurd hak (hbefore a ha)
    · rw [(hstarted a ha).2] at hfin
      cases hfin
    · exact ha
    · exact absurd hak (hafter a ha)
  have hone : ended.length = 1 := Nat.le_antisymm hlen (List.length_pos_of_mem hmem)
  have hb : before.filter (fun a => key a = k ∧ final a = true) = [] := by
    simpa [List.filter_eq_nil_iff] using fun b hb hbk => absurd hbk (hbefore b hb)
  have hs : started.filter (fun a => key a = k ∧ final a = true) = [] := by
    simpa [List.filter_eq_nil_iff] using fun b hb _ => (hstarted b hb).2
  have he : ended.filter (fun a => key a = k ∧ final a = true) = ended := by
    simpa [List.filter_eq_self] using hended
  have hf : after.filter (fun a => key a = k ∧ final a = true) = [] := by
    simpa [List.filter_eq_nil_iff] using fun b hb hbk => absurd hbk (hafter b hb)
  rw [List.filter_append, List.filter_append, List.filter_append, hb, hs, he, hf]
  simpa using hone

/-- As long as the last record is not final, no record of its key is. -/
theorem final_eq_false {l : List α} (h : Grouped key final l) {last : α}
    (hlast : l.getLast? = some last) (hopen : final last = false) {a : α} (ha : a ∈ l)
    (hkey : key a = key last) : final a = false := by
  obtain ⟨before, started, ended, after, rfl, hbefore, hafter, -, hstarted, hlen, hended⟩ :=
    h.split ⟨last, List.mem_of_getLast? hlast, rfl⟩
  have hafter' : after = [] := eq_nil_of_getLast? hlast fun hb => hafter last hb rfl
  subst hafter'
  rw [List.append_nil, ← List.append_assoc] at hlast
  have hended' : ended = [] := eq_nil_of_getLast? hlast fun hb => by
    rw [(hended last hb).2] at hopen
    cases hopen
  subst hended'
  simp only [List.append_nil, List.mem_append] at ha
  rcases ha with ha | ha
  · exact absurd hkey (hbefore a ha)
  · exact (hstarted a ha).2

end Grouped

end HardwareTest.Lib
