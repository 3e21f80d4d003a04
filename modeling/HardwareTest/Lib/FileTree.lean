import Mathlib.Data.List.Infix
import Mathlib.Data.List.Nodup

/-!
# Trees of directories, files and symbolic links

A file system is a tree of nodes at places, which are the names on the way from the root.  A path is
walked from there, and a link on the way is followed; only so many links are followed in one walk.

* `walk` — where a path leads;
* `mkdir` — a new directory: every component of its path but the last is followed, and nothing may be
  at its place;
* `LinkFree` — a place with no link on the way to it;
* `mkdir_linkFree` — below such a place the directory is made where its path says;
* `Grown` — only directories were added, at these places;
* `Grown.mkdir`, `Grown.linkFree_iff` — what one `mkdir` adds, and what stays.
-/

namespace HardwareTest.Lib.FileTree

variable {N C : Type}

/-! ## Nodes -/

/-- A component of a path: a name, or the way up. -/
inductive Part (N : Type)
  | name (n : N)
  | up

inductive Node (N C : Type)
  | directory
  | file (content : C)
  | symlink (absolute : Bool) (target : List (Part N))

def Node.isLink : Option (Node N C) → Bool
  | some (.symlink _ _) => true
  | some .directory => false
  | some (.file _) => false
  | none => false

/-- The nodes at their places; everything is in a directory. -/
structure Tree (N C : Type) where
  node : List N → Option (Node N C)
  root : node [] = some .directory
  closed : ∀ place name, (node (place ++ [name])).isSome → node place = some .directory

inductive Errno
  | alreadyExists
  | notFound
  | notDirectory
  | tooManyLinks
  deriving DecidableEq

namespace Tree

/-! ## Walks -/

/-- A walk up to its next link, which is followed from the directory that it starts from. -/
def walkParts (t : Tree N C) (follow : List N → List (Part N) → Except Errno (List N)) :
    List N → List (Part N) → Except Errno (List N)
  | place, [] => .ok place
  | place, .up :: rest => walkParts t follow place.dropLast rest
  | place, .name n :: rest =>
    match t.node (place ++ [n]) with
    | none => .error .notFound
    | some .directory => walkParts t follow (place ++ [n]) rest
    | some (.file _) => if rest.isEmpty then .ok (place ++ [n]) else .error .notDirectory
    | some (.symlink absolute target) => follow (if absolute then [] else place) (target ++ rest)

/-- Where a path leads from a place, over at most so many links. -/
def walk (t : Tree N C) : ℕ → List N → List (Part N) → Except Errno (List N)
  | 0 => t.walkParts fun _ _ => .error .tooManyLinks
  | links + 1 => t.walkParts (walk t links)

/-- Whether a path leads to a directory. -/
def isDirectory (t : Tree N C) (links : ℕ) (path : List (Part N)) : Bool :=
  match t.walk links [] path with
  | .ok place =>
    match t.node place with
    | some .directory => true
    | _ => false
  | .error _ => false

/-! ## Places without links -/

/-- No link is on the way to the place, and it is none. -/
def LinkFree (t : Tree N C) (place : List N) : Prop :=
  ∀ p ∈ place.inits, Node.isLink (t.node p) = false

instance (t : Tree N C) (place : List N) : Decidable (t.LinkFree place) :=
  inferInstanceAs (Decidable (∀ p ∈ _, _))

theorem LinkFree.mono {t : Tree N C} {p place : List N} (h : t.LinkFree place) (hp : p <+: place) :
    t.LinkFree p := by
  intro q hq
  rw [List.mem_inits] at hq
  exact h q ((List.mem_inits _ _).mpr (hq.trans hp))

theorem LinkFree.isLink {t : Tree N C} {place : List N} (h : t.LinkFree place) :
    Node.isLink (t.node place) = false :=
  h place ((List.mem_inits _ _).mpr (List.prefix_refl place))

theorem linkFree_nil (t : Tree N C) : t.LinkFree [] := by
  intro p hp
  rw [List.prefix_nil.mp ((List.mem_inits _ _).mp hp), t.root]
  rfl

/-- **A walk without links** ends where its names say. -/
theorem walkParts_linkFree {t : Tree N C} {follow : List N → List (Part N) → Except Errno (List N)}
    {place names found : List N} (hfree : t.LinkFree (place ++ names))
    (h : t.walkParts follow place (names.map .name) = .ok found) : found = place ++ names := by
  induction names generalizing place with
  | nil =>
    rw [List.append_nil]
    exact (Except.ok.inj h).symm
  | cons n names ih =>
    rw [List.append_cons] at hfree ⊢
    have hlink := (hfree.mono (List.prefix_append _ names)).isLink
    rw [List.map_cons, walkParts] at h
    split at h
    · cases h
    · exact ih hfree h
    · split at h
      · rename_i hempty
        cases h
        have hnames : names = [] := by simpa using hempty
        rw [hnames, List.append_nil]
      · cases h
    · rename_i hnode
      rw [hnode] at hlink
      cases hlink

theorem walk_linkFree {t : Tree N C} {links : ℕ} {place found : List N} (hfree : t.LinkFree place)
    (h : t.walk links [] (place.map .name) = .ok found) : found = place := by
  have hroot : t.LinkFree ([] ++ place) := hfree
  cases links with
  | zero => exact walkParts_linkFree hroot h
  | succ links => exact walkParts_linkFree hroot h

/-! ## New directories -/

variable [DecidableEq N]

/-- A directory more. -/
def insert (t : Tree N C) (place : List N) (name : N) (h : t.node place = some .directory) : Tree N C where
  node p := if p = place ++ [name] then some .directory else t.node p
  root := by rw [if_neg (by simp), t.root]
  closed p n hsome := by
    by_cases hplace : p = place ++ [name]
    · rw [if_pos hplace]
    · rw [if_neg hplace]
      by_cases hchild : p ++ [n] = place ++ [name]
      · rw [(List.append_singleton_inj.mp hchild).1, h]
      · rw [if_neg hchild] at hsome
        exact t.closed p n hsome

/-- A directory where nothing is yet, and its place. -/
def addDirectory (t : Tree N C) (place : List N) (name : N) : Except Errno (Tree N C × List N) :=
  match h : t.node place with
  | some .directory =>
    match t.node (place ++ [name]) with
    | none => .ok (t.insert place name h, place ++ [name])
    | some _ => .error .alreadyExists
  | some (.file _) => .error .notDirectory
  | some (.symlink _ _) => .error .notDirectory
  | none => .error .notFound

/-- `mkdir`, with the place of the new directory. -/
def mkdir (t : Tree N C) (links : ℕ) (path : List (Part N)) : Except Errno (Tree N C × List N) :=
  match path.reverse with
  | .name n :: before => do
    let place ← t.walk links [] before.reverse
    t.addDirectory place n
  | .up :: _ => .error .alreadyExists
  | [] => .error .alreadyExists

theorem addDirectory_ok {t t' : Tree N C} {place made : List N} {name : N}
    (h : t.addDirectory place name = .ok (t', made)) :
    made = place ++ [name] ∧ t.node made = none ∧
      ∀ p, t'.node p = if p = made then some .directory else t.node p := by
  unfold addDirectory at h
  split at h
  · split at h
    · rename_i hnone
      cases h
      exact ⟨rfl, hnone, fun _ => rfl⟩
    · cases h
  · cases h
  · cases h
  · cases h

/-- **A `mkdir` that succeeds** adds one directory, where nothing was. -/
theorem mkdir_ok {t t' : Tree N C} {links : ℕ} {path : List (Part N)} {made : List N}
    (h : t.mkdir links path = .ok (t', made)) :
    t.node made = none ∧ ∀ p, t'.node p = if p = made then some .directory else t.node p := by
  unfold mkdir at h
  split at h
  · rename_i n before _
    cases hwalk : t.walk links [] before.reverse with
    | error e =>
      rw [hwalk] at h
      cases h
    | ok place =>
      rw [hwalk] at h
      exact (addDirectory_ok h).2
  · cases h
  · cases h

/-- **Below a place without links** the directory is made where its path says. -/
theorem mkdir_linkFree {t t' : Tree N C} {links : ℕ} {place made : List N} {name : N}
    (hfree : t.LinkFree place)
    (h : t.mkdir links ((place ++ [name]).map .name) = .ok (t', made)) : made = place ++ [name] := by
  have hreverse : ((place ++ [name]).map Part.name).reverse
      = .name name :: (place.map Part.name).reverse := by simp
  unfold mkdir at h
  rw [hreverse] at h
  dsimp only at h
  rw [List.reverse_reverse] at h
  cases hwalk : t.walk links [] (place.map .name) with
  | error e =>
    rw [hwalk] at h
    cases h
  | ok found =>
    rw [hwalk] at h
    rw [(addDirectory_ok h).1, walk_linkFree hfree hwalk]

/-! ## Growth -/

/-- Only directories were added, each once and where nothing was. -/
structure Grown (t t' : Tree N C) (made : List (List N)) : Prop where
  node : ∀ place, t'.node place = if place ∈ made then some .directory else t.node place
  fresh : ∀ place ∈ made, t.node place = none
  nodup : made.Nodup

namespace Grown

variable {t t' t'' : Tree N C} {made : List (List N)}

theorem refl (t : Tree N C) : Grown t t [] where
  node place := by simp
  fresh place hplace := by simp at hplace
  nodup := List.nodup_nil

theorem mkdir (h : Grown t t' made) {links : ℕ} {path : List (Part N)} {place : List N}
    (hmkdir : t'.mkdir links path = .ok (t'', place)) : Grown t t'' (made ++ [place]) := by
  obtain ⟨hnone, hnode⟩ := mkdir_ok hmkdir
  have hnew : place ∉ made := by
    intro hmem
    rw [h.node, if_pos hmem] at hnone
    cases hnone
  have hbefore : t.node place = none := by rwa [h.node, if_neg hnew] at hnone
  constructor
  · intro p
    rw [hnode, h.node]
    by_cases hp : p = place
    · simp [hp]
    · simp [hp]
  · intro p hp
    rcases List.mem_append.mp hp with hp | hp
    · exact h.fresh p hp
    · rw [List.mem_singleton.mp hp]
      exact hbefore
  · exact List.nodup_append.mpr ⟨h.nodup, List.nodup_singleton place, fun a ha b hb hab =>
      hnew (List.mem_singleton.mp hb ▸ hab ▸ ha)⟩

/-- **What was there is still there.** -/
theorem kept (h : Grown t t' made) {place : List N} {n : Node N C} (hn : t.node place = some n) :
    t'.node place = some n := by
  rw [h.node, if_neg, hn]
  intro hmem
  rw [h.fresh place hmem] at hn
  cases hn

/-- **No link appears or goes.** -/
theorem linkFree_iff (h : Grown t t' made) {place : List N} : t'.LinkFree place ↔ t.LinkFree place := by
  have hsame : ∀ p, Node.isLink (t'.node p) = Node.isLink (t.node p) := by
    intro p
    rw [h.node]
    split_ifs with hp
    · rw [h.fresh p hp]
      rfl
    · rfl
  unfold LinkFree
  simp only [hsame]

end Grown

end Tree

end HardwareTest.Lib.FileTree
