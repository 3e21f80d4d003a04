import HardwareTest.Lib.Partition
import HardwareTest.Runner.Settings

/-!
# Selecting tests

What the pytest plugin does with the collected items: it adds the suite markers by the path of each
item, selects and orders the items by a sequence of markers, and asks for a stand when hardware tests
are left.

* `applyMarkerSequence`, `modifyItems` — the two functions of the plugin, on the collection they change;
* `applyMarkerSequence_partition` — the ordered selection is a stable partition, or an error that leaves
  the collection as it was;
* `modifyItems_root_iff` — when the result does not depend on where the project lies.
-/

namespace HardwareTest.Plugin

open HardwareTest.Lib HardwareTest.Python HardwareTest.Runner

/-- A collected item: its path below the project root, and the markers that `get_closest_marker` finds. -/
structure Item where
  nodeid : Text
  path : PurePath
  markers : List Text
  relative : path.absolute = false
  deriving DecidableEq

/-- `item.get_closest_marker(name) is not None`. -/
def Item.hasMarker (item : Item) (name : Text) : Bool := decide (name ∈ item.markers)

/-- A `pytest.UsageError` with its message. -/
structure UsageError where
  message : Text
  deriving DecidableEq

/-- What the hook changes: the list of items, and the calls of `pytest_deselected`. -/
structure Collection where
  items : List Item
  deselected : List (List Item)
  deriving DecidableEq

/-! ## The ordered selection -/

/-- The markers of the sequence that an item has. -/
def matchingMarkers (markerSequence : List Text) (item : Item) : List Text :=
  markerSequence.filter item.hasMarker

/-- The loop over the items: the groups so far, by marker, and the deselected items so far. -/
def groupItems (markerSequence : List Text) :
    (Text → List Item) → List Item → List Item → Except UsageError ((Text → List Item) × List Item)
  | grouped, deselected, [] => .ok (grouped, deselected)
  | grouped, deselected, item :: items =>
    match matchingMarkers markerSequence item with
    | [] => groupItems markerSequence grouped (deselected ++ [item]) items
    | [marker] =>
      groupItems markerSequence (Function.update grouped marker (grouped marker ++ [item])) deselected items
    | markers => .error
      ⟨"Test '".toList ++ item.nodeid ++ "' belongs to multiple scenario steps: ".toList
        ++ List.intercalate ", ".toList markers⟩

/-- The message for a marker without items. -/
def emptyGroup (marker : Text) : UsageError :=
  ⟨"Marker sequence requires '".toList ++ marker ++ "', but no matching tests were collected.".toList⟩

/-- `_apply_marker_sequence`: what it raises, and the collection it leaves. -/
def applyMarkerSequence (markerSequence : List Text) (c : Collection) :
    Except UsageError Unit × Collection :=
  match groupItems markerSequence (fun _ => []) [] c.items with
  | .error e => (.error e, c)
  | .ok (grouped, deselected) =>
    match markerSequence.find? fun marker => (grouped marker).isEmpty with
    | some marker => (.error (emptyGroup marker), c)
    | none => (.ok (),
      { items := markerSequence.flatMap grouped
        deselected := if deselected = [] then c.deselected else c.deselected ++ [deselected] })

/-- The loop succeeds when no item has two markers of the sequence; it then has appended each item to the
group of its marker, or to the deselected items. -/
theorem groupItems_ok {markerSequence : List Text} {items : List Item}
    (h : ∀ item ∈ items, (matchingMarkers markerSequence item).length ≤ 1)
    (grouped : Text → List Item) (deselected : List Item) :
    groupItems markerSequence grouped deselected items
      = .ok (fun marker => grouped marker ++ items.filter fun item =>
          decide (marker ∈ matchingMarkers markerSequence item),
        deselected ++ items.filter fun item => (matchingMarkers markerSequence item).isEmpty) := by
  induction items generalizing grouped deselected with
  | nil => simp [groupItems]
  | cons item items ih =>
    have hone := h item List.mem_cons_self
    have hrest := ih fun other hother => h other (List.mem_cons_of_mem item hother)
    rw [groupItems]
    rcases hmatching : matchingMarkers markerSequence item with _ | ⟨marker, _ | ⟨second, rest⟩⟩
    · show groupItems markerSequence grouped (deselected ++ [item]) items = _
      rw [hrest]
      simp [hmatching]
    · show groupItems markerSequence _ deselected items = _
      rw [hrest]
      congr 2
      · funext other
        by_cases hsame : other = marker
        · subst hsame
          simp [hmatching]
        · simp [hmatching, hsame]
      · simp [hmatching]
    · rw [hmatching] at hone
      simp at hone

/-- The loop raises when some item has two markers of the sequence. -/
theorem groupItems_error {markerSequence : List Text} {items : List Item} {item : Item}
    (hitem : item ∈ items) (htwo : 2 ≤ (matchingMarkers markerSequence item).length)
    (grouped : Text → List Item) (deselected : List Item) :
    ∃ e, groupItems markerSequence grouped deselected items = .error e := by
  induction items generalizing grouped deselected with
  | nil => cases hitem
  | cons other items ih =>
    rw [groupItems]
    rcases hmatching : matchingMarkers markerSequence other with _ | ⟨marker, _ | ⟨second, rest⟩⟩
    · rcases List.mem_cons.mp hitem with rfl | hitem
      · rw [hmatching] at htwo
        simp at htwo
      · exact ih hitem _ _
    · rcases List.mem_cons.mp hitem with rfl | hitem
      · rw [hmatching] at htwo
        simp at htwo
      · exact ih hitem _ _
    · exact ⟨_, rfl⟩

/-- Whether an item belongs to the step of a marker. -/
abbrev Item.inGroup (marker : Text) (item : Item) : Bool := item.hasMarker marker

theorem isEmpty_matchingMarkers (markerSequence : List Text) (item : Item) :
    (matchingMarkers markerSequence item).isEmpty = markerSequence.all fun marker => !item.hasMarker marker := by
  induction markerSequence with
  | nil => rfl
  | cons marker markers ih =>
    rw [List.all_cons, ← ih, matchingMarkers, matchingMarkers, List.filter_cons]
    cases item.hasMarker marker <;> rfl

/-- The loop on a collection without ambiguous items. -/
theorem groupItems_groups {markerSequence : List Text} {items : List Item}
    (h : ∀ item ∈ items, (matchingMarkers markerSequence item).length ≤ 1) :
    ∃ grouped, groupItems markerSequence (fun _ => []) [] items
        = .ok (grouped, others Item.inGroup markerSequence items) ∧
      ∀ marker ∈ markerSequence, grouped marker = items.filter (Item.inGroup marker) := by
  have hrest : (items.filter fun item => (matchingMarkers markerSequence item).isEmpty)
      = others Item.inGroup markerSequence items :=
    List.filter_congr fun item _ => isEmpty_matchingMarkers markerSequence item
  have hloop := groupItems_ok h (fun _ => []) []
  rw [List.nil_append, hrest] at hloop
  refine ⟨_, hloop, fun marker hmarker => ?_⟩
  refine List.filter_congr fun item _ => ?_
  simp [matchingMarkers, hmarker]

/-- Items that are not ambiguous are in one group at most. -/
theorem pairwise_inGroup {markerSequence : List Text} (hdistinct : markerSequence.Nodup) {items : List Item}
    (h : ∀ item ∈ items, (matchingMarkers markerSequence item).length ≤ 1) :
    markerSequence.Pairwise fun j k => ∀ item ∈ items, item.inGroup j = true → item.inGroup k = false := by
  refine hdistinct.imp_of_mem fun {j k} hj hk hne item hitem hin => ?_
  by_contra hout
  have hj' : j ∈ matchingMarkers markerSequence item := List.mem_filter.mpr ⟨hj, hin⟩
  have hk' : k ∈ matchingMarkers markerSequence item :=
    List.mem_filter.mpr ⟨hk, Bool.eq_true_of_not_eq_false hout⟩
  rcases hmatching : matchingMarkers markerSequence item with _ | ⟨marker, _ | ⟨second, rest⟩⟩
  · rw [hmatching] at hj'
    cases hj'
  · rw [hmatching, List.mem_singleton] at hj' hk'
    exact hne (hj'.trans hk'.symm)
  · have := h item hitem
    rw [hmatching] at this
    simp at this

/-- **Ordered selection is a stable partition.**  For distinct markers `_apply_marker_sequence` raises
exactly when some item has two of them or one of them has no item, and then changes nothing; otherwise
the items are the groups in the order of the sequence, the others are reported as deselected if there
are any, and both together are the items that were collected. -/
theorem applyMarkerSequence_partition (markerSequence : List Text) (hdistinct : markerSequence.Nodup)
    (c c' : Collection) (r : Except UsageError Unit)
    (h : applyMarkerSequence markerSequence c = (r, c')) :
    let rest := others Item.inGroup markerSequence c.items
    ((∃ e, r = .error e) ↔ (∃ item ∈ c.items, 2 ≤ (matchingMarkers markerSequence item).length) ∨
      ∃ marker ∈ markerSequence, ∀ item ∈ c.items, item.hasMarker marker = false) ∧
    ((∃ e, r = .error e) → c' = c) ∧
    (r = .ok () → c'.items = groups Item.inGroup markerSequence c.items ∧
      c'.deselected = c.deselected ++ (if rest = [] then [] else [rest]) ∧
      (c'.items ++ rest).Perm c.items) := by
  intro rest
  rw [applyMarkerSequence] at h
  by_cases hmany : ∃ item ∈ c.items, 2 ≤ (matchingMarkers markerSequence item).length
  · obtain ⟨item, hitem, htwo⟩ := hmany
    obtain ⟨e, he⟩ := groupItems_error hitem htwo (fun _ => []) []
    rw [he] at h
    obtain ⟨rfl, rfl⟩ := Prod.mk.inj h
    exact ⟨⟨fun _ => .inl ⟨item, hitem, htwo⟩, fun _ => ⟨e, rfl⟩⟩, fun _ => rfl, nofun⟩
  have hone : ∀ item ∈ c.items, (matchingMarkers markerSequence item).length ≤ 1 := by
    intro item hitem
    by_contra hlong
    exact hmany ⟨item, hitem, by omega⟩
  obtain ⟨grouped, hgrouped, hgroup⟩ := groupItems_groups hone
  rw [hgrouped] at h
  cases hempty : markerSequence.find? fun marker => (grouped marker).isEmpty with
  | some marker =>
    simp only [hempty] at h
    obtain ⟨rfl, rfl⟩ := Prod.mk.inj h
    have hmarker := List.mem_of_find?_eq_some hempty
    have hnone := List.find?_some hempty
    rw [hgroup marker hmarker, List.isEmpty_iff, List.filter_eq_nil_iff] at hnone
    refine ⟨⟨fun _ => .inr ⟨marker, hmarker, fun item hitem => ?_⟩, fun _ => ⟨_, rfl⟩⟩, fun _ => rfl, nofun⟩
    exact Bool.eq_false_of_not_eq_true (hnone item hitem)
  | none =>
    simp only [hempty] at h
    obtain ⟨rfl, rfl⟩ := Prod.mk.inj h
    have hitems : markerSequence.flatMap grouped = groups Item.inGroup markerSequence c.items :=
      List.flatMap_congr hgroup
    refine ⟨⟨nofun, ?_⟩, nofun, fun _ => ⟨hitems, ?_, ?_⟩⟩
    · rintro (hmany' | ⟨marker, hmarker, hnone⟩)
      · exact absurd hmany' hmany
      · have hfound := List.find?_eq_none.mp hempty marker hmarker
        rw [hgroup marker hmarker, List.isEmpty_iff, List.filter_eq_nil_iff] at hfound
        exact absurd (fun item hitem => Bool.not_eq_true _ ▸ hnone item hitem) hfound
    · show (if rest = [] then c.deselected else c.deselected ++ [rest]) = _
      split
      · rw [List.append_nil]
      · rfl
    · show (markerSequence.flatMap grouped ++ rest).Perm c.items
      rw [hitems]
      exact groups_append_others_perm (pairwise_inGroup hdistinct hone)

/-- An item of the unit tests with these markers. -/
def sampleItem (name : String) (markers : List String) : Item where
  nodeid := ("tests/unit/test_sample.py::" ++ name).toList
  path := ⟨false, ["tests".toList, "unit".toList, "test_sample.py".toList]⟩
  markers := markers.map String.toList
  relative := rfl

/-- Two steps in the order of the sequence, and an item of neither. -/
theorem applyMarkerSequence_partition_sample :
    let items := [sampleItem "second" ["step2"], sampleItem "unselected" [], sampleItem "first" ["step1"]]
    let markerSequence := ["step1".toList, "step2".toList]
    let left := applyMarkerSequence markerSequence ⟨items, []⟩
    left = (.ok (), ⟨[sampleItem "first" ["step1"], sampleItem "second" ["step2"]],
        [[sampleItem "unselected" []]]⟩) ∧
      (left.2.items ++ others Item.inGroup markerSequence items).Perm items := by
  intro items markerSequence left
  have hleft : left = (.ok (), ⟨[sampleItem "first" ["step1"], sampleItem "second" ["step2"]],
      [[sampleItem "unselected" []]]⟩) := by decide +kernel
  refine ⟨hleft, ?_⟩
  exact ((applyMarkerSequence_partition markerSequence (by decide) ⟨items, []⟩ left.2 left.1 rfl).2.2
    (by rw [hleft])).2.2

/-! ## The hook -/

/-- What the hook reads of the configuration: the sequence of markers, the stand, and the arguments. -/
structure Config where
  markerSequence : List Text
  stand : Option Text
  args : List Text

/-- The names in `Path(argument).parts`. -/
def pathParts (argument : Text) : List Text :=
  (argument.splitOn '/').filter fun part => decide (part ≠ [] ∧ part ≠ ['.'])

/-- `suite_markers`. -/
def suiteMarkers : List Text := ["unit".toList, "integration".toList, "hardware".toList]

/-- An item of a project at `root` gets the suite markers that are parts of its absolute path. -/
def addSuiteMarkers (root : PurePath) (item : Item) : Item :=
  { item with
    markers := item.markers ++ suiteMarkers.filter fun name => decide (name ∈ (root.join item.path).parts) }

/-- What one run of the hook leaves: the collected items with their markers, the collection and the
error, if any. -/
structure Outcome where
  marked : List Item
  collection : Collection
  result : Except UsageError Unit
  deriving DecidableEq

/-- Whether the hook asks for a stand. -/
def standMissing (config : Config) (items : List Item) : Bool :=
  let hasHardwareTests := items.any fun item => item.hasMarker "hardware".toList
  let hardwarePathRequested := config.markerSequence.isEmpty &&
    config.args.any fun argument => decide ("hardware".toList ∈ pathParts argument)
  (hasHardwareTests || hardwarePathRequested) && config.stand.isNone

/-- `pytest_collection_modifyitems` in a project at `root`. -/
def modifyItems (root : PurePath) (config : Config) (items : List Item) : Outcome :=
  let marked := items.map (addSuiteMarkers root)
  let selected :=
    if config.markerSequence = [] then (.ok (), ⟨marked, []⟩)
    else applyMarkerSequence config.markerSequence ⟨marked, []⟩
  match selected with
  | (.error e, c) => ⟨marked, c, .error e⟩
  | (.ok (), c) =>
    if standMissing config c.items then ⟨marked, c, .error ⟨"Hardware tests require --stand".toList⟩⟩
    else ⟨marked, c, .ok ()⟩

/-- The hook looks at the place of the project only through the suite markers. -/
theorem modifyItems_congr {root₁ root₂ : PurePath} {items : List Item}
    (h : items.map (addSuiteMarkers root₁) = items.map (addSuiteMarkers root₂)) (config : Config) :
    modifyItems root₁ config items = modifyItems root₂ config items := by
  rw [modifyItems, modifyItems, h]

theorem marked_modifyItems (root : PurePath) (config : Config) (items : List Item) :
    (modifyItems root config items).marked = items.map (addSuiteMarkers root) := by
  rw [modifyItems]
  split
  · rfl
  · split <;> rfl

/-- When an item gets the same suite markers at two places. -/
theorem addSuiteMarkers_eq_iff (root₁ root₂ : PurePath) (item : Item) :
    addSuiteMarkers root₁ item = addSuiteMarkers root₂ item ↔
      ∀ name ∈ suiteMarkers, name ∉ item.path.parts → (name ∈ root₁.parts ↔ name ∈ root₂.parts) := by
  have hparts : ∀ root : PurePath, (root.join item.path).parts = root.parts ++ item.path.parts := by
    intro root
    rw [PurePath.join, if_neg (by rw [item.relative]; exact Bool.false_ne_true)]
  have hmarkers : addSuiteMarkers root₁ item = addSuiteMarkers root₂ item ↔
      (suiteMarkers.filter fun name => decide (name ∈ (root₁.join item.path).parts))
        = suiteMarkers.filter fun name => decide (name ∈ (root₂.join item.path).parts) := by
    constructor
    · intro h
      exact List.append_cancel_left (congrArg Item.markers h)
    · intro h
      rw [addSuiteMarkers, addSuiteMarkers, h]
  rw [hmarkers, hparts, hparts]
  constructor
  · intro h name hname hout
    have hmem : ∀ root : PurePath, name ∈ root.parts ↔
        name ∈ suiteMarkers.filter fun name => decide (name ∈ root.parts ++ item.path.parts) := by
      intro root
      simp [List.mem_filter, hname, hout]
    rw [hmem root₁, hmem root₂, h]
  · intro h
    refine List.filter_congr fun name hname => ?_
    rw [decide_eq_decide, List.mem_append, List.mem_append]
    by_cases hin : name ∈ item.path.parts
    · simp [hin]
    · rw [h name hname hin]

/-- **When selection does not depend on the place of the project.**  Two absolute roots give the same
markers, the same selection, the same deselected items and the same error if and only if each suite name
that is no part of an item's path below the root is a part of both roots or of neither. -/
theorem modifyItems_root_iff (root₁ root₂ : PurePath) (config : Config) (items : List Item) :
    modifyItems root₁ config items = modifyItems root₂ config items ↔
      ∀ item ∈ items, ∀ name ∈ suiteMarkers, name ∉ item.path.parts →
        (name ∈ root₁.parts ↔ name ∈ root₂.parts) := by
  simp only [← addSuiteMarkers_eq_iff]
  constructor
  · intro h
    have hmarked := congrArg Outcome.marked h
    rw [marked_modifyItems, marked_modifyItems] at hmarked
    exact List.map_inj_left.mp hmarked
  · intro h
    exact modifyItems_congr (List.map_inj_left.mpr h) config

/-- **A checkout below a directory `hardware` asks for a stand for unit tests.** -/
theorem modifyItems_below_hardware :
    let items := [sampleItem "test_logger" []]
    let config : Config := ⟨[], none, ["tests/unit".toList]⟩
    (modifyItems ⟨true, ["home".toList, "ci".toList, "project".toList]⟩ config items).result = .ok () ∧
      (modifyItems ⟨true, ["srv".toList, "hardware".toList, "project".toList]⟩ config items).result
        = .error ⟨"Hardware tests require --stand".toList⟩ := by
  decide +kernel

end HardwareTest.Plugin
