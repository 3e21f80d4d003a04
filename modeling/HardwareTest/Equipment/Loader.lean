import HardwareTest.Lib.Utf8
import HardwareTest.Lib.Yaml
import HardwareTest.Runner.Settings

/-!
# Loading the inventory

A file of stands lists files of devices; the loader merges the devices of all files into one inventory
and resolves the roles of the stands.

* `Schema` — what the loader takes from the validation library and from the project;
* `loadInventory` — the loader, from the files of a machine to an inventory or an error;
* `loadDevices_ok_iff`, `loadDevices_raised_iff` — when the loop over the device files succeeds, and when
  an exception escapes it;
* `loadInventory_iff` — when no definition is dropped.
-/

namespace HardwareTest.Equipment

open HardwareTest.Lib HardwareTest.Python HardwareTest.Runner

/-! ## Files -/

/-- What reading and parsing a file gives: an `OSError`, a `YAMLError`, another exception (a
`UnicodeDecodeError`, say), or the document. -/
inductive Source
  | unreadable (error : Text)
  | invalid (error : Text)
  | raising (exception : Text)
  | document (doc : Yaml)

/-- How loading fails: an `InventoryError` with its message, or an exception that is passed on. -/
inductive LoadError
  | inventoryError (message : Text)
  | raised (exception : Text)
  deriving DecidableEq

/-- The error of an inventory that is no YAML or does not have the right form. -/
def invalidInventory (path : PurePath) (error : Text) : LoadError :=
  .inventoryError ("Invalid inventory '".toList ++ path.toText ++ "': ".toList ++ error)

/-- `_load_yaml`. -/
def loadYaml (path : PurePath) : Source → Except LoadError Yaml
  | .unreadable error =>
    .error (.inventoryError ("Cannot read inventory '".toList ++ path.toText ++ "': ".toList ++ error))
  | .invalid error => .error (invalidInventory path error)
  | .raising exception => .error (.raised exception)
  | .document doc => .ok doc.construct

/-! ## Validation -/

/-- What the models leave to the validation library and to the project: the values that `Literal[1]`
accepts, the devices of the project, and the texts of the validation errors. -/
structure Schema (D : Type) where
  literalOne : Yaml → Bool
  device : Yaml → Option D
  standReport : Yaml → Text
  deviceReport : Yaml → Text
  referenceReport : Text → Text

/-- A `str` field: bytes are accepted when they are UTF-8. -/
def stringOf : Scalar → Option Text
  | .str s => some s
  | .binary bs => if Utf8.encode (Utf8.decode bs) = bs then some (Utf8.decode bs) else none
  | _ => none

def stringField : Yaml → Option Text
  | .scalar s => stringOf s
  | _ => none

/-- The entries of a `dict[str, V]` field, each validated. -/
def validateEntries {V : Type} (value : Yaml → Option V) : List (Scalar × Yaml) → Option (List (Text × V))
  | [] => some []
  | (k, v) :: entries => do
    let key ← stringOf k
    let item ← value v
    let rest ← validateEntries value entries
    some ((key, item) :: rest)

/-- A `dict[str, V]` field. -/
def dictField {V : Type} (value : Yaml → Option V) : Yaml → Option (List (Text × V))
  | .map entries => (validateEntries value entries).map keepLast
  | _ => none

/-- A `list[str]` field. -/
def listField : Yaml → Option (List Text)
  | .seq items => items.mapM stringField
  | _ => none

/-- `extra="forbid"`. -/
def onlyFields (names : List String) (fields : List (Scalar × Yaml)) : Bool :=
  fields.all fun e => decide (e.1 ∈ names.map fun name => Scalar.str name.toList)

def field (fields : List (Scalar × Yaml)) (name : String) : Option Yaml :=
  fields.lookup (.str name.toList)

/-- A stand: its devices by their role. -/
structure StandConfig where
  description : Option Text
  capabilities : List Text
  devices : List (Text × Text)
  deriving DecidableEq

def StandConfig.validate : Yaml → Option StandConfig
  | .map fields => do
    let description ← match field fields "description" with
      | none | some (.scalar .null) => some none
      | some value => (stringField value).map some
    let capabilities ← match field fields "capabilities" with
      | none => some []
      | some value => (listField value).map List.dedup
    let devices ← field fields "devices" >>= dictField stringField
    if onlyFields ["description", "capabilities", "devices"] fields then
      some ⟨description, capabilities, devices⟩
    else none
  | _ => none

/-- The stands and the paths of the device files. -/
structure StandInventory where
  deviceFiles : List PurePath
  stands : List (Text × StandConfig)
  nonempty : deviceFiles ≠ []

def StandInventory.validate {D : Type} (schema : Schema D) : Yaml → Option StandInventory
  | .map fields => do
    let version ← field fields "version"
    let names ← field fields "device_files" >>= listField
    let stands ← field fields "stands" >>= dictField StandConfig.validate
    if h : names.map PurePath.ofText ≠ [] then
      if schema.literalOne version && onlyFields ["version", "device_files", "stands"] fields then
        some ⟨names.map PurePath.ofText, stands, h⟩
      else none
    else none
  | _ => none

/-- `DeviceInventory`: the devices of one file. -/
def DeviceInventory.validate {D : Type} (schema : Schema D) : Yaml → Option (List (Text × D))
  | .map fields => do
    let version ← field fields "version"
    let devices ← field fields "devices" >>= dictField schema.device
    if schema.literalOne version && onlyFields ["version", "devices"] fields then some devices else none
  | _ => none

/-- The roles of the stands that name no device. -/
def missingReferences {D : Type} (devices : List (Text × D)) (stands : List (Text × StandConfig)) :
    List (Text × Text) :=
  keepLast (stands.flatMap fun stand =>
    (stand.2.devices.filter fun role => decide (role.2 ∉ devices.map Prod.fst)).map fun role =>
      (stand.1 ++ ['.'] ++ role.1, role.2))

/-- An inventory, whose roles name devices that are there. -/
structure Inventory (D : Type) where
  devices : List (Text × D)
  stands : List (Text × StandConfig)
  resolved : missingReferences devices stands = []

/-- `validate_device_references`. -/
def Inventory.validate {D : Type} (devices : List (Text × D)) (stands : List (Text × StandConfig)) :
    Except Text (Inventory D) :=
  if h : missingReferences devices stands = [] then .ok ⟨devices, stands, h⟩
  else .error ("Unknown device references: ".toList ++ List.intercalate ", ".toList
    ((missingReferences devices stands).map fun e => e.1 ++ " -> ".toList ++ e.2))

/-! ## The loader -/

/-- The message for IDs that are in two files. -/
def duplicateDevices (sources : List (Text × PurePath)) (devicesPath : PurePath) (duplicates : List Text) :
    LoadError :=
  .inventoryError ("Duplicate device IDs: ".toList ++ List.intercalate ", ".toList
    ((duplicates.insertionSort (· ≤ ·)).map fun name =>
      name ++ " (".toList ++ ((sources.lookup name).map PurePath.toText).getD [] ++ " and ".toList
        ++ devicesPath.toText ++ ")".toList))

section Load

variable {D : Type} (schema : Schema D) (files : PurePath → Source)

/-- The loop over the device files: the devices so far, and the file of each. -/
def loadDevices (dir : PurePath) : List (Text × D) → List (Text × PurePath) → List PurePath →
    Except LoadError (List (Text × D))
  | devices, _, [] => .ok devices
  | devices, sources, relativePath :: paths => do
    let devicesPath := dir.join relativePath
    let doc ← loadYaml devicesPath (files devicesPath)
    match DeviceInventory.validate schema doc with
    | none => .error (invalidInventory devicesPath (schema.deviceReport doc))
    | some found =>
      let duplicates := (found.map Prod.fst).filter fun name => decide (name ∈ devices.map Prod.fst)
      if duplicates ≠ [] then .error (duplicateDevices sources devicesPath duplicates)
      else
        loadDevices dir (update devices found) (update sources (found.map fun e => (e.1, devicesPath))) paths

/-- `_load_inventory`. -/
def loadInventory (path : PurePath) : Except LoadError (Inventory D) := do
  let doc ← loadYaml path (files path)
  match StandInventory.validate schema doc with
  | none => .error (invalidInventory path (schema.standReport doc))
  | some standInventory =>
    let devices ← loadDevices schema files path.parent [] [] standInventory.deviceFiles
    match Inventory.validate devices standInventory.stands with
    | .error error => .error (invalidInventory path (schema.referenceReport error))
    | .ok inventory => .ok inventory

end Load

/-- `get_stand`; the error is an `UnknownStandError`. -/
def getStand {D : Type} (inventory : Inventory D) (standName : Text) : Except Text StandConfig :=
  match inventory.stands.lookup standName with
  | some config => .ok config
  | none =>
    let names := (inventory.stands.map Prod.fst).insertionSort (· ≤ ·)
    let available := List.intercalate ['\n'] (names.map fun name => "- ".toList ++ name)
    .error ("Unknown stand '".toList ++ standName ++ "'.\n\nAvailable stands:\n".toList
      ++ if available = [] then "- none".toList else available)

/-! ## The loop over the device files -/

section Merge

variable {D : Type} (schema : Schema D)

/-- The devices of a source. -/
def Source.devices : Source → Option (List (Text × D))
  | .document doc => DeviceInventory.validate schema doc.construct
  | _ => none

/-- The IDs of a source. -/
def Source.ids (source : Source) : List Text := ((source.devices schema).getD []).map Prod.fst

variable (files : PurePath → Source)

/-- All files define devices, and no two the same one. -/
def Mergeable (paths : List PurePath) : Prop :=
  (∀ p ∈ paths, ((files p).devices schema).isSome) ∧
    paths.Pairwise fun p q => ∀ name ∈ (files p).ids schema, name ∉ (files q).ids schema

/-- The devices of all files, in their order. -/
def merged (paths : List PurePath) : List (Text × D) :=
  paths.flatMap fun p => ((files p).devices schema).getD []

/-- The files can be merged into the devices so far. -/
def Fits (devices : List (Text × D)) (paths : List PurePath) : Prop :=
  Mergeable schema files paths ∧ ∀ p ∈ paths, ∀ name ∈ (files p).ids schema, name ∉ devices.map Prod.fst

variable {schema files}

theorem fits_nil (devices : List (Text × D)) : Fits schema files devices [] :=
  ⟨⟨fun _ h => absurd h List.not_mem_nil, List.Pairwise.nil⟩, fun _ h => absurd h List.not_mem_nil⟩

theorem fits_empty_iff {paths : List PurePath} : Fits schema files [] paths ↔ Mergeable schema files paths :=
  ⟨And.left, fun h => ⟨h, fun _ _ _ _ => List.not_mem_nil⟩⟩

theorem fits_cons_iff {devices : List (Text × D)} {p : PurePath} {paths : List PurePath} :
    Fits schema files devices (p :: paths) ↔
      ∃ found, (files p).devices schema = some found ∧
        (∀ name ∈ found.map Prod.fst, name ∉ devices.map Prod.fst) ∧
        Fits schema files (devices ++ found) paths := by
  constructor
  · rintro ⟨⟨hvalid, hpairs⟩, hnew⟩
    obtain ⟨found, hfound⟩ := Option.isSome_iff_exists.mp (hvalid p List.mem_cons_self)
    have hids : (files p).ids schema = found.map Prod.fst := by rw [Source.ids, hfound]; rfl
    obtain ⟨hhead, htail⟩ := List.pairwise_cons.mp hpairs
    refine ⟨found, hfound, fun name h => hnew p List.mem_cons_self name (hids ▸ h),
      ⟨fun q hq => hvalid q (List.mem_cons_of_mem p hq), htail⟩, fun q hq name hname => ?_⟩
    rw [List.map_append, List.mem_append]
    rintro (h | h)
    · exact hnew q (List.mem_cons_of_mem p hq) name hname h
    · exact hhead q hq name (hids ▸ h) hname
  · rintro ⟨found, hfound, hnew, ⟨hvalid, hpairs⟩, htail⟩
    have hids : (files p).ids schema = found.map Prod.fst := by rw [Source.ids, hfound]; rfl
    refine ⟨⟨fun q hq => ?_, List.pairwise_cons.mpr ⟨fun q hq name hp hname => ?_, hpairs⟩⟩,
      fun q hq name hname h => ?_⟩
    · rcases List.mem_cons.mp hq with rfl | hq
      · exact Option.isSome_iff_exists.mpr ⟨found, hfound⟩
      · exact hvalid q hq
    · apply htail q hq name hname
      rw [List.map_append]
      exact List.mem_append_right _ (hids ▸ hp)
    · rcases List.mem_cons.mp hq with rfl | hq
      · exact hnew name (hids ▸ hname) h
      · apply htail q hq name hname
        rw [List.map_append]
        exact List.mem_append_left _ h

theorem merged_cons {p : PurePath} {paths : List PurePath} {found : List (Text × D)}
    (h : (files p).devices schema = some found) :
    merged schema files (p :: paths) = found ++ merged schema files paths := by
  rw [merged, List.flatMap_cons, h]
  rfl

/-- The IDs of a dictionary field are distinct. -/
theorem nodup_dictField {V : Type} {value : Yaml → Option V} {y : Yaml} {d : List (Text × V)}
    (h : dictField value y = some d) : (d.map Prod.fst).Nodup := by
  cases y with
  | map entries =>
    obtain ⟨items, -, rfl⟩ := Option.map_eq_some_iff.mp h
    exact nodup_keepLast items
  | scalar s => cases h
  | seq items => cases h

/-- A validated file of devices has its devices in its last entry `devices`. -/
theorem dictField_of_validate {doc : Yaml} {found : List (Text × D)}
    (h : DeviceInventory.validate schema doc = some found) :
    ∃ fields value, doc = .map fields ∧ field fields "devices" = some value ∧
      dictField schema.device value = some found := by
  cases doc with
  | map fields =>
    obtain ⟨version, -, h⟩ := Option.bind_eq_some_iff.mp h
    obtain ⟨devices, hdevices, h⟩ := Option.bind_eq_some_iff.mp h
    obtain ⟨value, hvalue, hdict⟩ := Option.bind_eq_some_iff.mp hdevices
    split at h
    · cases h
      exact ⟨fields, value, rfl, hvalue, hdict⟩
    · cases h
  | scalar s => cases h
  | seq items => cases h

theorem nodup_devices {source : Source} {found : List (Text × D)} (h : source.devices schema = some found) :
    (found.map Prod.fst).Nodup := by
  cases source with
  | document doc =>
    obtain ⟨_, _, _, _, hdict⟩ := dictField_of_validate h
    exact nodup_dictField hdict
  | unreadable error => cases h
  | invalid error => cases h
  | raising exception => cases h

variable {dir : PurePath} {devices : List (Text × D)} {sources : List (Text × PurePath)}
  {r : PurePath} {paths : List PurePath}

/-- A file with new devices is merged. -/
theorem loadDevices_of_new {found : List (Text × D)} (h : (files (dir.join r)).devices schema = some found)
    (hnew : ∀ name ∈ found.map Prod.fst, name ∉ devices.map Prod.fst) :
    loadDevices schema files dir devices sources (r :: paths)
      = loadDevices schema files dir (devices ++ found)
          (update sources (found.map fun e => (e.1, dir.join r))) paths := by
  have hduplicates : ((found.map Prod.fst).filter fun name => decide (name ∈ devices.map Prod.fst)) = [] :=
    List.filter_eq_nil_iff.mpr fun name hname => by simpa using hnew name hname
  have hupdate : update devices found = devices ++ found :=
    update_of_disjoint (nodup_devices h) fun e he => hnew e.1 (List.mem_map_of_mem he)
  cases hsource : files (dir.join r) with
  | document doc =>
    rw [hsource] at h
    rw [loadDevices, hsource]
    show (match DeviceInventory.validate schema doc.construct with | none => _ | some found => _) = _
    rw [show DeviceInventory.validate schema doc.construct = some found from h]
    show (if _ ≠ [] then _ else _) = _
    rw [if_neg (not_not.mpr hduplicates), hupdate]
  | unreadable error => rw [hsource] at h; cases h
  | invalid error => rw [hsource] at h; cases h
  | raising exception => rw [hsource] at h; cases h

/-- Otherwise the loop stops: with an exception if reading the file raises it, else with an
`InventoryError`. -/
theorem loadDevices_of_not_new
    (h : ¬ ∃ found, (files (dir.join r)).devices schema = some found ∧
      ∀ name ∈ found.map Prod.fst, name ∉ devices.map Prod.fst) :
    (∃ message, loadDevices schema files dir devices sources (r :: paths) = .error (.inventoryError message) ∧
        ∀ x, files (dir.join r) ≠ .raising x) ∨
      ∃ x, loadDevices schema files dir devices sources (r :: paths) = .error (.raised x) ∧
        files (dir.join r) = .raising x := by
  cases hsource : files (dir.join r) with
  | document doc =>
    left
    have hnot : ∀ x, Source.document doc ≠ .raising x := nofun
    cases hfound : DeviceInventory.validate schema doc.construct with
    | none =>
      have herror : loadDevices schema files dir devices sources (r :: paths)
          = .error (invalidInventory (dir.join r) (schema.deviceReport doc.construct)) := by
        rw [loadDevices, hsource]
        show (match DeviceInventory.validate schema doc.construct with | none => _ | some found => _) = _
        rw [hfound]
      exact ⟨_, herror, hnot⟩
    | some found =>
      have hduplicates : ((found.map Prod.fst).filter fun name => decide (name ∈ devices.map Prod.fst)) ≠ [] := by
        intro hnone
        refine h ⟨found, by rw [hsource]; exact hfound, fun name hname => ?_⟩
        simpa using List.filter_eq_nil_iff.mp hnone name hname
      have herror : loadDevices schema files dir devices sources (r :: paths)
          = .error (duplicateDevices sources (dir.join r)
              ((found.map Prod.fst).filter fun name => decide (name ∈ devices.map Prod.fst))) := by
        rw [loadDevices, hsource]
        show (match DeviceInventory.validate schema doc.construct with | none => _ | some found => _) = _
        rw [hfound]
        show (if _ ≠ [] then _ else _) = _
        rw [if_pos hduplicates]
      exact ⟨_, herror, hnot⟩
  | unreadable error =>
    left
    rw [loadDevices, hsource]
    exact ⟨_, rfl, nofun⟩
  | invalid error =>
    left
    rw [loadDevices, hsource]
    exact ⟨_, rfl, nofun⟩
  | raising exception =>
    right
    rw [loadDevices, hsource]
    exact ⟨_, rfl, rfl⟩

/-- **When the loop succeeds**: all files define devices, none twice; they are then all there. -/
theorem loadDevices_ok_iff {all : List (Text × D)} :
    loadDevices schema files dir devices sources paths = .ok all ↔
      Fits schema files devices (paths.map dir.join) ∧
        all = devices ++ merged schema files (paths.map dir.join) := by
  induction paths generalizing devices sources with
  | nil =>
    rw [loadDevices, List.map_nil, merged, List.flatMap_nil, List.append_nil]
    constructor
    · rintro ⟨⟩
      exact ⟨fits_nil _, rfl⟩
    · rintro ⟨-, rfl⟩
      rfl
  | cons r paths ih =>
    rw [List.map_cons, fits_cons_iff]
    by_cases h : ∃ found, (files (dir.join r)).devices schema = some found ∧
        ∀ name ∈ found.map Prod.fst, name ∉ devices.map Prod.fst
    · obtain ⟨found, hfound, hnew⟩ := h
      rw [loadDevices_of_new hfound hnew, ih, merged_cons hfound, List.append_assoc]
      refine and_congr_left fun _ => ⟨fun hfits => ⟨found, hfound, hnew, hfits⟩, ?_⟩
      rintro ⟨found', hfound', -, hfits⟩
      rw [hfound] at hfound'
      cases hfound'
      exact hfits
    · constructor
      · intro hok
        rcases loadDevices_of_not_new h with ⟨message, herror, -⟩ | ⟨x, herror, -⟩
        · rw [herror] at hok
          cases hok
        · rw [herror] at hok
          cases hok
      · rintro ⟨⟨found, hfound, hnew, -⟩, -⟩
        exact absurd ⟨found, hfound, hnew⟩ h

/-- **When an exception escapes the loop**: reading a file raises it, and the files before can be merged. -/
theorem loadDevices_raised_iff {x : Text} :
    loadDevices schema files dir devices sources paths = .error (.raised x) ↔
      ∃ before p after, paths.map dir.join = before ++ p :: after ∧ Fits schema files devices before ∧
        files p = .raising x := by
  induction paths generalizing devices sources with
  | nil =>
    rw [loadDevices]
    constructor
    · nofun
    · rintro ⟨before, p, after, h, -⟩
      simp at h
  | cons r paths ih =>
    rw [List.map_cons]
    by_cases h : ∃ found, (files (dir.join r)).devices schema = some found ∧
        ∀ name ∈ found.map Prod.fst, name ∉ devices.map Prod.fst
    · obtain ⟨found, hfound, hnew⟩ := h
      rw [loadDevices_of_new hfound hnew, ih]
      constructor
      · rintro ⟨before, p, after, hpaths, hfits, hraising⟩
        refine ⟨dir.join r :: before, p, after, by rw [hpaths]; rfl, ?_, hraising⟩
        exact fits_cons_iff.mpr ⟨found, hfound, hnew, hfits⟩
      · rintro ⟨before, p, after, hpaths, hfits, hraising⟩
        cases before with
        | nil =>
          obtain ⟨rfl, -⟩ := List.cons.inj hpaths
          rw [hraising] at hfound
          cases hfound
        | cons q before =>
          obtain ⟨rfl, htail⟩ := List.cons.inj hpaths
          obtain ⟨found', hfound', -, hfits⟩ := fits_cons_iff.mp hfits
          rw [hfound] at hfound'
          cases hfound'
          exact ⟨before, p, after, htail, hfits, hraising⟩
    · have hstop : loadDevices schema files dir devices sources (r :: paths) = .error (.raised x) ↔
          files (dir.join r) = .raising x := by
        rcases loadDevices_of_not_new h with ⟨message, herror, hnot⟩ | ⟨y, herror, hsource⟩
        · rw [herror]
          exact ⟨nofun, fun hx => absurd hx (hnot x)⟩
        · rw [herror, hsource]
          constructor
          · rintro ⟨⟩
            rfl
          · rintro ⟨⟩
            rfl
      rw [hstop]
      constructor
      · intro hx
        exact ⟨[], dir.join r, paths.map dir.join, rfl, fits_nil devices, hx⟩
      · rintro ⟨before, p, after, hpaths, hfits, hraising⟩
        cases before with
        | nil =>
          obtain ⟨rfl, -⟩ := List.cons.inj hpaths
          exact hraising
        | cons q before =>
          obtain ⟨rfl, -⟩ := List.cons.inj hpaths
          obtain ⟨found, hfound, hnew, -⟩ := fits_cons_iff.mp hfits
          exact absurd ⟨found, hfound, hnew⟩ h

end Merge

end HardwareTest.Equipment
