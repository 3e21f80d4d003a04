import HardwareTest.Equipment.Loader

/-!
# Written and loaded devices

The entries that are written in the listed files, against the devices of the loaded inventory.

* `Source.written` — every entry below a key `devices`, also one that a later value of its key replaces;
* `Source.KeepsAll` — when the parser replaces none of them;
* `loadInventory_keeps_iff` — when the loader keeps what it promises: no definition is dropped.
-/

namespace HardwareTest.Equipment

open HardwareTest.Lib HardwareTest.Python HardwareTest.Runner

/-! ## One file -/

def entriesOf : Yaml → List (Scalar × Yaml)
  | .map entries => entries
  | _ => []

/-- The entries below all keys `devices` of a document. -/
def writtenEntries (fields : List (Scalar × Yaml)) : List (Scalar × Yaml) :=
  fields.flatMap fun e => if e.1 = .str "devices".toList then entriesOf e.2 else []

/-- The entries below the last key `devices` of a document. -/
def lastEntries (fields : List (Scalar × Yaml)) : List (Scalar × Yaml) :=
  match fields.reverse.lookup (.str "devices".toList) with
  | some value => entriesOf value
  | none => []

/-- The device entries that are written in a file. -/
def Source.written : Source → List (Scalar × Yaml)
  | .document (.map fields) => writtenEntries fields
  | _ => []

def Source.writtenIds (source : Source) : List (Option Text) := source.written.map fun e => stringOf e.1

/-- The device entries that the parser reads last. -/
def Source.last : Source → List (Scalar × Yaml)
  | .document (.map fields) => lastEntries fields
  | _ => []

/-- No device entry is replaced within the file: all are below the last key `devices`, and no ID is
written twice. -/
def Source.KeepsAll (source : Source) : Prop := source.written = source.last ∧ source.writtenIds.Nodup

/-- A written entry is in the inventory, under its ID and with its own definition. -/
def Present {D : Type} (schema : Schema D) (devices : List (Text × D)) (e : Scalar × Yaml) : Prop :=
  ∃ name device, stringOf e.1 = some name ∧ schema.device e.2.construct = some device ∧
    devices.lookup name = some device

theorem exists_writtenEntries (fields : List (Scalar × Yaml)) :
    ∃ earlier, writtenEntries fields = earlier ++ lastEntries fields := by
  induction fields using List.reverseRecOn with
  | nil => exact ⟨[], rfl⟩
  | append_singleton fields e ih =>
    obtain ⟨earlier, ih⟩ := ih
    rw [writtenEntries, List.flatMap_append, List.flatMap_singleton, lastEntries, List.reverse_concat,
      List.lookup_cons]
    by_cases h : e.1 = .str "devices".toList
    · rw [if_pos h, h, beq_self_eq_true]
      exact ⟨writtenEntries fields, rfl⟩
    · rw [if_neg h, List.append_nil, beq_false_of_ne (Ne.symm h)]
      exact ⟨earlier, ih⟩

theorem Source.exists_written (source : Source) : ∃ earlier, source.written = earlier ++ source.last := by
  cases source with
  | document doc =>
    cases doc with
    | map fields => exact exists_writtenEntries fields
    | scalar s => exact ⟨[], rfl⟩
    | seq items => exact ⟨[], rfl⟩
  | unreadable error => exact ⟨[], rfl⟩
  | invalid error => exact ⟨[], rfl⟩
  | raising exception => exact ⟨[], rfl⟩

/-- Validated entries, one by one. -/
theorem map_of_validateEntries {V : Type} {value : Yaml → Option V} {entries : List (Scalar × Yaml)}
    {items : List (Text × V)} (h : validateEntries value entries = some items) :
    entries.map (fun e => (stringOf e.1, value e.2)) = items.map fun item => (some item.1, some item.2) := by
  induction entries generalizing items with
  | nil =>
    cases h
    rfl
  | cons e entries ih =>
    obtain ⟨key, hkey, h⟩ := Option.bind_eq_some_iff.mp h
    obtain ⟨item, hitem, h⟩ := Option.bind_eq_some_iff.mp h
    obtain ⟨rest, hrest, h⟩ := Option.bind_eq_some_iff.mp h
    cases h
    rw [List.map_cons, List.map_cons, hkey, hitem, ih hrest]

section Validated

variable {D : Type} {schema : Schema D} {source : Source} {found : List (Text × D)}

/-- The devices of a file are its last entries, as far as they are kept. -/
theorem exists_items (h : source.devices schema = some found) :
    ∃ items, found = keepLast items ∧
      (keepLast (source.last.map fun e => (e.1, e.2.construct))).map
          (fun e => (stringOf e.1, schema.device e.2))
        = items.map fun item => (some item.1, some item.2) := by
  cases source with
  | document doc =>
    obtain ⟨fields, value, hdoc, hvalue, hdict⟩ := dictField_of_validate h
    cases doc with
    | map written =>
      rw [Yaml.construct_map] at hdoc
      cases hdoc
      rw [field, Yaml.lookup_construct] at hvalue
      obtain ⟨last, hlast, rfl⟩ := Option.map_eq_some_iff.mp hvalue
      have hentries : (Source.document (.map written)).last = entriesOf last := by
        rw [Source.last, lastEntries, hlast]
      cases last with
      | map entries =>
        rw [Yaml.construct_map] at hdict
        obtain ⟨items, hitems, rfl⟩ := Option.map_eq_some_iff.mp hdict
        rw [hentries]
        exact ⟨items, rfl, map_of_validateEntries hitems⟩
      | scalar s => cases hdict
      | seq items => cases hdict
    | scalar s => cases hdoc
    | seq items => cases hdoc
  | unreadable error => cases h
  | invalid error => cases h
  | raising exception => cases h

/-- An ID of a file is the ID of one of its last entries. -/
theorem mem_ids_last (h : source.devices schema = some found) {name : Text}
    (hname : name ∈ found.map Prod.fst) : ∃ e ∈ source.last, stringOf e.1 = some name := by
  obtain ⟨items, rfl, hitems⟩ := exists_items h
  obtain ⟨item, hitem, rfl⟩ := List.mem_map.mp (mem_keys_keepLast.mp hname)
  have hmem : (some item.1, some item.2) ∈ items.map fun item => (some item.1, some item.2) :=
    List.mem_map_of_mem hitem
  rw [← hitems] at hmem
  obtain ⟨loaded, hloaded, hpair⟩ := List.mem_map.mp hmem
  obtain ⟨e, he, rfl⟩ := List.mem_map.mp (mem_of_mem_keepLast hloaded)
  exact ⟨e, he, congrArg Prod.fst hpair⟩

/-- Without repeated IDs the devices of a file are its last entries. -/
theorem map_last_of_nodup (h : source.devices schema = some found)
    (hnodup : (source.last.map fun e => stringOf e.1).Nodup) :
    source.last.map (fun e => (stringOf e.1, schema.device e.2.construct))
      = found.map fun item => (some item.1, some item.2) := by
  obtain ⟨items, rfl, hitems⟩ := exists_items h
  have hkeys : ((source.last.map fun e => (e.1, e.2.construct)).map Prod.fst).Nodup := by
    rw [List.map_map]
    refine List.Nodup.of_map stringOf ?_
    rw [List.map_map]
    exact hnodup
  rw [keepLast_of_nodup hkeys, List.map_map] at hitems
  have hnames : (items.map Prod.fst).Nodup := by
    refine List.Nodup.of_map some ?_
    have hfirst := congrArg (List.map Prod.fst) hitems
    rw [List.map_map, List.map_map] at hfirst
    rw [List.map_map]
    exact hfirst ▸ hnodup
  rw [keepLast_of_nodup hnames]
  exact hitems

end Validated

/-! ## All files -/

section All

variable {D : Type} (schema : Schema D) (files : PurePath → Source) (path : PurePath)

/-- The stands of a source. -/
def Source.stands (source : Source) : Option StandInventory :=
  match source with
  | .document doc => StandInventory.validate schema doc.construct
  | _ => none

/-- The device files that the file of stands lists; a file may be listed more than once. -/
def listedFiles : List PurePath :=
  match (files path).stands schema with
  | some standInventory => standInventory.deviceFiles.map path.parent.join
  | none => []

/-- The files are all valid, define no device twice as they are loaded, and the roles of the stands name
their devices. -/
def Loadable : Prop :=
  ∃ standInventory, (files path).stands schema = some standInventory ∧
    Mergeable schema files (listedFiles schema files path) ∧
    ∀ stand ∈ standInventory.stands, ∀ role ∈ stand.2.devices,
      ∃ p ∈ listedFiles schema files path, role.2 ∈ (files p).ids schema

variable {schema files path}

theorem missingReferences_eq_nil_iff {devices : List (Text × D)} {stands : List (Text × StandConfig)} :
    missingReferences devices stands = [] ↔
      ∀ stand ∈ stands, ∀ role ∈ stand.2.devices, role.2 ∈ devices.map Prod.fst := by
  have hnil : ∀ entries : List (Text × Text), keepLast entries = [] ↔ entries = [] := by
    intro entries
    constructor
    · intro h
      refine List.eq_nil_iff_forall_not_mem.mpr fun e he => ?_
      have hkey : e.1 ∈ (keepLast entries).map Prod.fst := mem_keys_keepLast.mpr (List.mem_map_of_mem he)
      rw [h] at hkey
      cases hkey
    · rintro rfl
      rfl
  rw [missingReferences, hnil, List.flatMap_eq_nil_iff]
  refine forall₂_congr fun stand _ => ?_
  rw [List.map_eq_nil_iff, List.filter_eq_nil_iff]
  refine forall₂_congr fun role _ => ?_
  simp

theorem Inventory.validate_ok_iff {devices : List (Text × D)} {stands : List (Text × StandConfig)}
    {inventory : Inventory D} :
    Inventory.validate devices stands = .ok inventory ↔
      inventory.devices = devices ∧ inventory.stands = stands := by
  rw [Inventory.validate]
  constructor
  · intro h
    split at h
    · cases h
      exact ⟨rfl, rfl⟩
    · cases h
  · rintro ⟨rfl, rfl⟩
    rw [dif_pos inventory.resolved]

theorem mem_keys_merged {paths : List PurePath} {name : Text} :
    name ∈ (merged schema files paths).map Prod.fst ↔ ∃ p ∈ paths, name ∈ (files p).ids schema := by
  rw [merged, List.map_flatMap, List.mem_flatMap]
  rfl

theorem nodup_merged {paths : List PurePath} (h : Mergeable schema files paths) :
    ((merged schema files paths).map Prod.fst).Nodup := by
  rw [merged, List.map_flatMap, List.nodup_flatMap]
  refine ⟨fun p hp => ?_, h.2.imp fun {p q} hpq name hname => hpq name hname⟩
  obtain ⟨found, hfound⟩ := Option.isSome_iff_exists.mp (h.1 p hp)
  rw [hfound]
  exact nodup_devices hfound

theorem listedFiles_eq {standInventory : StandInventory} (h : (files path).stands schema = some standInventory) :
    listedFiles schema files path = standInventory.deviceFiles.map path.parent.join := by
  rw [listedFiles, h]

/-- The loader after the file of stands. -/
theorem loadInventory_of_stands {standInventory : StandInventory}
    (h : (files path).stands schema = some standInventory) :
    loadInventory schema files path
      = loadDevices schema files path.parent [] [] standInventory.deviceFiles >>= fun devices =>
          match Inventory.validate devices standInventory.stands with
          | .error error => .error (invalidInventory path (schema.referenceReport error))
          | .ok inventory => .ok inventory := by
  rw [loadInventory]
  cases hsource : files path with
  | document doc =>
    rw [hsource] at h
    have hvalid : StandInventory.validate schema doc.construct = some standInventory := h
    dsimp only [loadYaml, bind, Except.bind]
    rewrite [hvalid]
    rfl
  | unreadable error => rw [hsource] at h; cases h
  | invalid error => rw [hsource] at h; cases h
  | raising exception => rw [hsource] at h; cases h

/-- Without valid stands the loader passes the exception of reading them on, or raises an
`InventoryError`. -/
theorem loadInventory_of_no_stands (h : (files path).stands schema = none) :
    (∃ message, loadInventory schema files path = .error (.inventoryError message) ∧
        ∀ x, files path ≠ .raising x) ∨
      ∃ x, loadInventory schema files path = .error (.raised x) ∧ files path = .raising x := by
  rw [loadInventory]
  cases hsource : files path with
  | document doc =>
    left
    rw [hsource] at h
    have hvalid : StandInventory.validate schema doc.construct = none := h
    simp only [loadYaml, bind, Except.bind, hvalid]
    exact ⟨_, rfl, fun x hx => by cases hx⟩
  | unreadable error => exact .inl ⟨_, rfl, fun x hx => by cases hx⟩
  | invalid error => exact .inl ⟨_, rfl, fun x hx => by cases hx⟩
  | raising exception => exact .inr ⟨exception, rfl, rfl⟩

/-- The roles of the stands name devices of the listed files. -/
theorem resolved_iff {stands : List (Text × StandConfig)} :
    missingReferences (merged schema files (listedFiles schema files path)) stands = [] ↔
      ∀ stand ∈ stands, ∀ role ∈ stand.2.devices,
        ∃ p ∈ listedFiles schema files path, role.2 ∈ (files p).ids schema := by
  rw [missingReferences_eq_nil_iff]
  exact forall₂_congr fun stand _ => forall₂_congr fun role _ => mem_keys_merged

/-- **When the loader returns an inventory**, which then has the devices of all listed files. -/
theorem loadInventory_ok_iff {inventory : Inventory D} :
    loadInventory schema files path = .ok inventory ↔
      ∃ standInventory, (files path).stands schema = some standInventory ∧
        Mergeable schema files (listedFiles schema files path) ∧
        inventory.devices = merged schema files (listedFiles schema files path) ∧
        inventory.stands = standInventory.stands := by
  cases hstands : (files path).stands schema with
  | none =>
    constructor
    · intro h
      rcases loadInventory_of_no_stands hstands with ⟨message, herror, -⟩ | ⟨x, herror, -⟩
      · rw [herror] at h
        cases h
      · rw [herror] at h
        cases h
    · rintro ⟨_, ⟨⟩, _⟩
  | some standInventory =>
    rw [loadInventory_of_stands hstands, listedFiles_eq hstands]
    constructor
    · intro h
      cases hload : loadDevices schema files path.parent [] [] standInventory.deviceFiles with
      | error e =>
        rw [hload] at h
        cases h
      | ok devices =>
        rw [hload] at h
        obtain ⟨hfits, rfl⟩ := loadDevices_ok_iff.mp hload
        have hvalid : Inventory.validate (merged schema files (standInventory.deviceFiles.map path.parent.join))
            standInventory.stands = .ok inventory := by
          cases hresult : Inventory.validate (merged schema files (standInventory.deviceFiles.map path.parent.join))
              standInventory.stands with
          | error e => simp [hresult, bind, Except.bind] at h
          | ok inventory' => simpa [hresult, bind, Except.bind] using h
        obtain ⟨hdevices, hinventory⟩ := Inventory.validate_ok_iff.mp hvalid
        exact ⟨standInventory, rfl, fits_empty_iff.mp hfits, hdevices, hinventory⟩
    · rintro ⟨_, ⟨⟩, hmergeable, hdevices, hinventory⟩
      have hload : loadDevices schema files path.parent [] [] standInventory.deviceFiles
          = .ok inventory.devices := loadDevices_ok_iff.mpr ⟨fits_empty_iff.mpr hmergeable, hdevices⟩
      rw [hload]
      have hvalid : Inventory.validate inventory.devices standInventory.stands = .ok inventory :=
        Inventory.validate_ok_iff.mpr ⟨rfl, hinventory⟩
      simp [hvalid, bind, Except.bind]

/-- **When an exception escapes the loader**: reading the file of stands raises it, or reading a device
file that follows files which can be merged. -/
theorem loadInventory_raised_iff {x : Text} :
    loadInventory schema files path = .error (.raised x) ↔
      files path = .raising x ∨
        ∃ before p after, listedFiles schema files path = before ++ p :: after ∧
          Mergeable schema files before ∧ files p = .raising x := by
  cases hstands : (files path).stands schema with
  | none =>
    have hlisted : listedFiles schema files path = [] := by rw [listedFiles, hstands]
    rw [hlisted]
    have hlist : ¬ ∃ before p after, ([] : List PurePath) = before ++ p :: after ∧
        Mergeable schema files before ∧ files p = .raising x := by
      rintro ⟨before, p, after, h, -⟩
      simp at h
    rw [or_iff_left hlist]
    rcases loadInventory_of_no_stands hstands with ⟨message, herror, hnot⟩ | ⟨y, herror, hsource⟩
    · rw [herror]
      exact ⟨nofun, fun h => absurd h (hnot x)⟩
    · rw [herror, hsource]
      constructor
      · rintro ⟨⟩
        rfl
      · rintro ⟨⟩
        rfl
  | some standInventory =>
    have hpath : files path ≠ .raising x := by
      intro h
      rw [h] at hstands
      cases hstands
    have hloop : loadDevices schema files path.parent [] [] standInventory.deviceFiles
        = .error (.raised x) ↔ _ := loadDevices_raised_iff
    simp only [fits_empty_iff] at hloop
    rw [or_iff_right hpath, loadInventory_of_stands hstands, listedFiles_eq hstands, ← hloop]
    cases loadDevices schema files path.parent [] [] standInventory.deviceFiles with
    | error e => simp [bind, Except.bind]
    | ok devices =>
      cases hvalid : Inventory.validate devices standInventory.stands with
      | error e => simp [hvalid, bind, Except.bind, invalidInventory]
      | ok inventory => simp [hvalid, bind, Except.bind]

/-- If no ID is written twice in all files, and all written entries are in the inventory, then no file
replaces an entry. -/
theorem keepsAll_of_present (hmergeable : Mergeable schema files (listedFiles schema files path))
    (hnodup : ((listedFiles schema files path).flatMap fun p => (files p).writtenIds).Nodup)
    (hpresent : ∀ p ∈ listedFiles schema files path, ∀ e ∈ (files p).written,
      Present schema (merged schema files (listedFiles schema files path)) e)
    {p : PurePath} (hp : p ∈ listedFiles schema files path) : (files p).KeepsAll := by
  rw [List.nodup_flatMap] at hnodup
  obtain ⟨hfiles, hpairs⟩ := hnodup
  refine ⟨?_, hfiles p hp⟩
  obtain ⟨earlier, hwritten⟩ := (files p).exists_written
  suffices earlier = [] by rw [hwritten, this, List.nil_append]
  refine List.eq_nil_iff_forall_not_mem.mpr fun e he => ?_
  have hin : e ∈ (files p).written := hwritten ▸ List.mem_append_left _ he
  obtain ⟨name, device, hname, -, hlookup⟩ := hpresent p hp e hin
  -- the ID of a replaced entry comes from the last entries of some file
  obtain ⟨q, hq, hid⟩ := mem_keys_merged.mp (List.mem_map_of_mem (f := Prod.fst) (mem_of_lookup hlookup))
  obtain ⟨found, hfound⟩ := Option.isSome_iff_exists.mp (hmergeable.1 q hq)
  rw [Source.ids, hfound] at hid
  obtain ⟨e', he', hname'⟩ := mem_ids_last hfound hid
  by_cases hsame : q = p
  · subst hsame
    have hids := hfiles q hq
    rw [Source.writtenIds, hwritten, List.map_append, List.nodup_append] at hids
    exact hids.2.2 _ (List.mem_map_of_mem he) _ (List.mem_map_of_mem he') (hname.trans hname'.symm)
  · obtain ⟨earlier', hwritten'⟩ := (files q).exists_written
    have hin' : e' ∈ (files q).written := hwritten' ▸ List.mem_append_right _ he'
    have hsymm : Std.Symm (Function.onFun List.Disjoint fun p => (files p).writtenIds) :=
      ⟨fun _ _ h => List.Disjoint.symm h⟩
    have hdisjoint := hpairs.forall hq hp hsame
    exact hdisjoint (List.mem_map_of_mem hin') (hname'.trans hname.symm ▸ List.mem_map_of_mem hin)

/-- If no file replaces an entry, then the IDs that are written are those of the merged devices. -/
theorem writtenIds_of_keepsAll {paths : List PurePath} (hvalid : ∀ p ∈ paths, ((files p).devices schema).isSome)
    (hkeeps : ∀ p ∈ paths, (files p).KeepsAll) :
    (paths.flatMap fun p => (files p).writtenIds)
      = ((merged schema files paths).map Prod.fst).map some := by
  rw [merged, List.map_flatMap, List.map_flatMap]
  refine List.flatMap_congr fun p hp => ?_
  obtain ⟨found, hfound⟩ := Option.isSome_iff_exists.mp (hvalid p hp)
  obtain ⟨hlast, hnodup⟩ := hkeeps p hp
  rw [Source.writtenIds, hlast] at hnodup
  have hitems := congrArg (List.map Prod.fst) (map_last_of_nodup hfound hnodup)
  rw [List.map_map, List.map_map] at hitems
  rw [Source.writtenIds, hlast, hfound, Option.getD_some, List.map_map]
  exact hitems

/-- If no file replaces an entry, then the written entries are among the merged devices. -/
theorem present_of_keepsAll {paths : List PurePath} (hmergeable : Mergeable schema files paths)
    (hkeeps : ∀ p ∈ paths, (files p).KeepsAll) {p : PurePath} (hp : p ∈ paths) {e : Scalar × Yaml}
    (he : e ∈ (files p).written) : Present schema (merged schema files paths) e := by
  obtain ⟨found, hfound⟩ := Option.isSome_iff_exists.mp (hmergeable.1 p hp)
  obtain ⟨hlast, hnodup⟩ := hkeeps p hp
  rw [Source.writtenIds, hlast] at hnodup
  rw [hlast] at he
  have hpair := List.mem_map_of_mem (f := fun e => (stringOf e.1, schema.device e.2.construct)) he
  rw [map_last_of_nodup hfound hnodup] at hpair
  obtain ⟨item, hitem, hsame⟩ := List.mem_map.mp hpair
  obtain ⟨hname, hdevice⟩ := Prod.mk.inj hsame
  have hmerged : item ∈ merged schema files paths :=
    List.mem_flatMap.mpr ⟨p, hp, by rw [hfound]; exact hitem⟩
  exact ⟨item.1, item.2, hname.symm, hdevice.symm, lookup_of_mem (nodup_merged hmergeable) hmerged⟩

/-- **When no device definition is dropped.**  An inventory that the loader returns has every entry that
is written in a listed file, no ID is written twice, every role names a device, and every failure is an
`InventoryError`; this holds if and only if no exception escapes from a file that is read, and, where the
files can be loaded, the parser replaces no entry of a listed file. -/
theorem loadInventory_keeps_iff (schema : Schema D) (files : PurePath → Source) (path : PurePath) :
    let listed := listedFiles schema files path
    ((∀ inventory, loadInventory schema files path = .ok inventory →
        (listed.flatMap fun p => (files p).writtenIds).Nodup ∧
        (∀ p ∈ listed, ∀ e ∈ (files p).written, Present schema inventory.devices e) ∧
        ∀ stand ∈ inventory.stands, ∀ role ∈ stand.2.devices, role.2 ∈ inventory.devices.map Prod.fst) ∧
      ∀ error, loadInventory schema files path = .error error → ∃ message, error = .inventoryError message) ↔
    (∀ x, files path ≠ .raising x) ∧
      (∀ before p after, listed = before ++ p :: after → Mergeable schema files before →
        ∀ x, files p ≠ .raising x) ∧
      (Loadable schema files path → ∀ p ∈ listed, (files p).KeepsAll) := by
  intro listed
  constructor
  · rintro ⟨hok, herror⟩
    have hnot : ∀ x, loadInventory schema files path ≠ .error (.raised x) := by
      intro x h
      obtain ⟨message, hmessage⟩ := herror _ h
      cases hmessage
    refine ⟨fun x h => hnot x (loadInventory_raised_iff.mpr (.inl h)), fun before p after hsplit hmergeable x h =>
      hnot x (loadInventory_raised_iff.mpr (.inr ⟨before, p, after, hsplit, hmergeable, h⟩)), ?_⟩
    rintro ⟨standInventory, hstands, hmergeable, hroles⟩ p hp
    have hresolved := resolved_iff.mpr hroles
    have hload : loadInventory schema files path = .ok ⟨_, _, hresolved⟩ :=
      loadInventory_ok_iff.mpr ⟨standInventory, hstands, hmergeable, rfl, rfl⟩
    obtain ⟨hnodup, hpresent, -⟩ := hok _ hload
    exact keepsAll_of_present hmergeable hnodup hpresent hp
  · rintro ⟨hpath, hfiles, hkeeps⟩
    constructor
    · intro inventory h
      obtain ⟨standInventory, hstands, hmergeable, hdevices, hinventory⟩ := loadInventory_ok_iff.mp h
      have hresolved := inventory.resolved
      rw [hdevices, hinventory] at hresolved
      have hall := hkeeps ⟨standInventory, hstands, hmergeable, resolved_iff.mp hresolved⟩
      refine ⟨?_, fun p hp e he => ?_, missingReferences_eq_nil_iff.mp inventory.resolved⟩
      · rw [writtenIds_of_keepsAll hmergeable.1 hall]
        exact (nodup_merged hmergeable).map (Option.some_injective Text)
      · rw [hdevices]
        exact present_of_keepsAll hmergeable hall hp he
    · intro error h
      cases error with
      | inventoryError message => exact ⟨message, rfl⟩
      | raised x =>
        rcases loadInventory_raised_iff.mp h with h | ⟨before, p, after, hsplit, hmergeable, h⟩
        · exact absurd h (hpath x)
        · exact absurd h (hfiles before p after hsplit hmergeable x)

end All

/-! ## A repeated ID -/

/-- A project whose devices are described by their model. -/
def modelSchema : Schema Text where
  literalOne value := match value with
    | .scalar (.int n) => decide (n = 1)
    | _ => false
  device value := match value with
    | .map [(key, model)] => if key = .str "model".toList then stringField model else none
    | _ => none
  standReport _ := "validation errors for StandInventory".toList
  deviceReport _ := "validation errors for DeviceInventory".toList
  referenceReport error := "validation error for Inventory: ".toList ++ error

def yamlText (text : String) : Yaml := .scalar (.str text.toList)

def yamlFields (fields : List (String × Yaml)) : Yaml :=
  .map (fields.map fun e => (.str e.1.toList, e.2))

/-- `stands.yaml` with one stand, and `devices.yaml`, where the ID of its device is written twice. -/
def repeatedFiles (path : PurePath) : Source :=
  if path = ⟨true, ["inventory".toList, "stands.yaml".toList]⟩ then
    .document (yamlFields [("version", .scalar (.int 1)), ("device_files", .seq [yamlText "devices.yaml"]),
      ("stands", yamlFields [("stand-01", yamlFields [("devices", yamlFields [("dut", yamlText "device-01")])])])])
  else if path = ⟨true, ["inventory".toList, "devices.yaml".toList]⟩ then
    .document (yamlFields [("version", .scalar (.int 1)),
      ("devices", yamlFields [("device-01", yamlFields [("model", yamlText "analyzer")]),
        ("device-01", yamlFields [("model", yamlText "generator")])])])
  else .unreadable "No such file or directory".toList

/-- **The first of two definitions is dropped.**  A file that defines the same device twice is loaded
without an error, and the role of the stand leads to the second definition. -/
theorem loadInventory_drops_repeated :
    let path : PurePath := ⟨true, ["inventory".toList, "stands.yaml".toList]⟩
    let first := (Scalar.str "device-01".toList, yamlFields [("model", yamlText "analyzer")])
    ∃ inventory, loadInventory modelSchema repeatedFiles path = .ok inventory ∧
      inventory.devices = [("device-01".toList, "generator".toList)] ∧
      (∃ p ∈ listedFiles modelSchema repeatedFiles path, first ∈ (repeatedFiles p).written) ∧
      ¬ Present modelSchema inventory.devices first := by
  intro path first
  have hload : (loadInventory modelSchema repeatedFiles path).map Inventory.devices
      = .ok [("device-01".toList, "generator".toList)] := by decide +kernel
  cases hinventory : loadInventory modelSchema repeatedFiles path with
  | error e =>
    rw [hinventory] at hload
    cases hload
  | ok inventory =>
    rw [hinventory] at hload
    have hdevices : inventory.devices = [("device-01".toList, "generator".toList)] := Except.ok.inj hload
    refine ⟨inventory, rfl, hdevices, ⟨⟨true, ["inventory".toList, "devices.yaml".toList]⟩, ?_, ?_⟩, ?_⟩
    · decide +kernel
    · exact List.mem_cons_self
    · rintro ⟨name, device, hname, hdevice, hlookup⟩
      have hfirst : some "device-01".toList = some name := hname
      have hmodel : some "analyzer".toList = some device := hdevice
      rw [hdevices, ← Option.some.inj hfirst, ← hmodel] at hlookup
      exact absurd hlookup (by decide)

end HardwareTest.Equipment
