import Mathlib.Data.List.Perm.Basic

/-!
# Partitions of a list

A list is divided by keys: the elements of each key, in the order of the keys, and the elements of no key.
Within a group and among the others the order is that of the list.

* `groups`, `others` — the two parts;
* `groups_append_others_perm` — they are the list, rearranged, when no element has two keys.
-/

namespace HardwareTest.Lib

variable {κ α : Type}

/-- The elements of each key. -/
def groups (p : κ → α → Bool) (keys : List κ) (l : List α) : List α := keys.flatMap fun k => l.filter (p k)

/-- The elements of no key. -/
def others (p : κ → α → Bool) (keys : List κ) (l : List α) : List α :=
  l.filter fun x => keys.all fun k => !p k x

/-- The first key takes its elements away; the others divide the rest. -/
theorem others_cons (p : κ → α → Bool) (k : κ) (keys : List κ) (l : List α) :
    others p (k :: keys) l = others p keys (l.filter fun x => !p k x) := by
  rw [others, others, List.filter_filter]
  refine List.filter_congr fun x _ => ?_
  rw [List.all_cons, Bool.and_comm]

/-- Keys that share no element with `k` have the same groups without the elements of `k`. -/
theorem groups_filter {p : κ → α → Bool} {k : κ} {keys : List κ} {l : List α}
    (h : ∀ j ∈ keys, ∀ x ∈ l, p k x = true → p j x = false) :
    groups p keys (l.filter fun x => !p k x) = groups p keys l := by
  rw [groups, groups]
  refine List.flatMap_congr fun j hj => ?_
  rw [List.filter_filter]
  refine List.filter_congr fun x hx => ?_
  cases hk : p k x with
  | false => simp
  | true => simp [h j hj x hx hk]

/-- **The groups and the others are the list, rearranged.** -/
theorem groups_append_others_perm {p : κ → α → Bool} {keys : List κ} {l : List α}
    (h : keys.Pairwise fun k j => ∀ x ∈ l, p k x = true → p j x = false) :
    (groups p keys l ++ others p keys l).Perm l := by
  induction keys generalizing l with
  | nil => simp [groups, others]
  | cons k keys ih =>
    obtain ⟨hk, hkeys⟩ := List.pairwise_cons.mp h
    have hrest := ih (l := l.filter fun x => !p k x)
      (hkeys.imp fun hj x hx => hj x (List.mem_of_mem_filter hx))
    rw [groups_filter hk] at hrest
    rw [others_cons]
    show (l.filter (p k) ++ groups p keys l ++ _).Perm l
    rw [List.append_assoc]
    exact (List.Perm.append_left _ hrest).trans (List.filter_append_perm (p k) l)

end HardwareTest.Lib
