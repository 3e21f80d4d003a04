import HardwareTest.Equipment.Loader
import HardwareTest.Stand.TestStand

/-!
# Composing a stand

`StandFactory` builds a stand from an inventory.  It keeps the devices that it has built by their ID, so
that roles that name the same ID share one object, and the stand later tells its devices apart as objects.

* `StandFactory.create` — the composition, with the factories as calls;
* `Factories` — factories that answer the calls, from all that they have built so far;
* `Composed` — what a part of the loop has built and assigned;
* `createEach_ends` — the whole loop, which ends early when a factory raises;
* `composed_once` — every device is built, connected and closed once.
-/

namespace HardwareTest.Stand

open HardwareTest.Lib HardwareTest.Python HardwareTest.Equipment

/-! ## The composition -/

/-- A device with its connection. -/
structure DeviceConfig (T : Type) where
  type : Text
  model : Text
  transport : T
  deriving DecidableEq

/-- A call of the transport factory or of the device factory. -/
inductive FactoryCall (T Tr : Type)
  | transport (config : T)
  | device (config : DeviceConfig T) (transport : Tr)

/-- What a factory returns or raises. -/
def FactoryCall.Answer (Tr D E : Type) {T : Type} : FactoryCall T Tr → Type
  | .transport _ => Except E Tr
  | .device _ _ => Except E D

/-- How `create` fails: the ID is not in the inventory, or a factory raises. -/
inductive CreateError (E : Type)
  | keyError (name : Text)
  | factory (e : E)

variable {T Tr D E : Type}

/-- The loop over the roles: the devices by their ID, and by their role. -/
def createEach (devices : List (Text × DeviceConfig T)) : List (Text × D) → List (Text × D) →
    List (Text × Text) → Program (FactoryCall T Tr) (FactoryCall.Answer Tr D E) (CreateError E) (List (Text × D))
  | _, byRole, [] => pure byRole
  | physical, byRole, (role, name) :: roles =>
    match physical.lookup name with
    | some device => createEach devices physical (setItem byRole (role, device)) roles
    | none =>
      match devices.lookup name with
      | none => .throw (.keyError name)
      | some config => .call (.transport config.transport) fun
        | .error e => .throw (.factory e)
        | .ok transport => .call (.device config transport) fun
          | .error e => .throw (.factory e)
          | .ok device =>
            createEach devices (setItem physical (name, device)) (setItem byRole (role, device)) roles

/-- `StandFactory.create`. -/
def StandFactory.create (inventory : Inventory (DeviceConfig T)) (config : StandConfig) :
    Program (FactoryCall T Tr) (FactoryCall.Answer Tr D E) (CreateError E) (TestStand D) := do
  return ⟨← createEach inventory.devices [] [] config.devices⟩

/-! ## Factories -/

/-- An object that a factory has returned. -/
inductive Built (T Tr D : Type)
  | transport (config : T) (made : Tr)
  | device (config : DeviceConfig T) (given : Tr) (made : D)
  deriving DecidableEq

/-- The transports among the objects. -/
def transports (built : List (Built T Tr D)) : List Tr :=
  built.filterMap fun
    | .transport _ made => some made
    | .device _ _ _ => none

/-- The devices among the objects. -/
def devices (built : List (Built T Tr D)) : List D :=
  built.filterMap fun
    | .transport _ _ => none
    | .device _ _ made => some made

/-- The two factories.  What they answer may depend on all that was built before. -/
structure Factories (T Tr D E : Type) where
  transport : List (Built T Tr D) → T → Except E Tr
  device : List (Built T Tr D) → DeviceConfig T → Tr → Except E D

namespace Factories

/-- The factories answer a call, and keep what they return. -/
def handle (factories : Factories T Tr D E) : (op : FactoryCall T Tr) → List (Built T Tr D) →
    FactoryCall.Answer Tr D E op × List (Built T Tr D)
  | .transport config, built =>
    match factories.transport built config with
    | .ok made => (.ok made, built ++ [.transport config made])
    | .error e => (.error e, built)
  | .device config given, built =>
    match factories.device built config given with
    | .ok made => (.ok made, built ++ [.device config given made])
    | .error e => (.error e, built)

/-- Factories that always return, and a new object each time. -/
structure Fresh (factories : Factories T Tr D E) : Prop where
  transport : ∀ built config, ∃ made, factories.transport built config = .ok made ∧ made ∉ transports built
  device : ∀ built config given, ∃ made, factories.device built config given = .ok made ∧ made ∉ devices built

/-- Factories that never return an object a second time; they may raise. -/
structure Distinct (factories : Factories T Tr D E) : Prop where
  transport : ∀ built config made, factories.transport built config = .ok made → made ∉ transports built
  device : ∀ built config given made, factories.device built config given = .ok made → made ∉ devices built

theorem Fresh.distinct {factories : Factories T Tr D E} (h : factories.Fresh) : factories.Distinct where
  transport built config made hmade := by
    obtain ⟨made', hmade', hnew⟩ := h.transport built config
    rw [hmade] at hmade'
    cases hmade'
    exact hnew
  device built config given made hmade := by
    obtain ⟨made', hmade', hnew⟩ := h.device built config given
    rw [hmade] at hmade'
    cases hmade'
    exact hnew

end Factories

/-- A composition from its call to its end, and what it has built. -/
def compose (factories : Factories T Tr D E) (inventory : Inventory (DeviceConfig T)) (config : StandConfig) :
    Except (CreateError E) (TestStand D) × List (Built T Tr D) :=
  (StandFactory.create inventory config).eval factories.handle []

/-! ## Values in the order of their first use -/

section FirstUse

variable [BEq D] [LawfulBEq D] {values : List D} {d : D}

theorem mem_fromkeys : d ∈ fromkeys values ↔ d ∈ values := List.mem_eraseDups

/-- A value that was there before keeps its place. -/
theorem fromkeys_concat_of_mem (hd : d ∈ values) : fromkeys (values ++ [d]) = fromkeys values := by
  show (values ++ [d]).eraseDups = values.eraseDups
  rw [List.eraseDups_append]
  simp [List.removeAll, hd]

/-- A new value comes last. -/
theorem fromkeys_concat_of_not_mem (hd : d ∉ values) : fromkeys (values ++ [d]) = fromkeys values ++ [d] := by
  show (values ++ [d]).eraseDups = values.eraseDups ++ [d]
  rw [List.eraseDups_append]
  simp [List.removeAll, hd]
  rfl

end FirstUse

/-! ## What the loop has built -/

/-- A device as it was built: its ID, its definition, and the two objects. -/
structure Part (T Tr D : Type) where
  name : Text
  config : DeviceConfig T
  transport : Tr
  device : D

/-- The two calls that build it. -/
def Part.built (p : Part T Tr D) : List (Built T Tr D) :=
  [.transport p.config.transport p.transport, .device p.config p.transport p.device]

/-- What was built for the roles so far, and the devices by their role: one part for each ID, in the order of
its first use, and for each role the device of its ID. -/
structure Composed [DecidableEq D] (defined : List (Text × DeviceConfig T)) (roles : List (Text × Text))
    (parts : List (Part T Tr D)) (byRole : List (Text × D)) : Prop where
  names : parts.map Part.name = fromkeys (roles.map Prod.snd)
  configs : ∀ p ∈ parts, defined.lookup p.name = some p.config
  transports_nodup : (parts.map Part.transport).Nodup
  devices_nodup : (parts.map Part.device).Nodup
  unique : fromkeys (byRole.map Prod.snd) = parts.map Part.device
  keys : byRole.map Prod.fst = roles.map Prod.fst
  shared : ∀ i (h : i < roles.length) (h' : i < byRole.length),
    ∃ p ∈ parts, p.name = roles[i].2 ∧ p.device = byRole[i].2

theorem transports_flatMap (parts : List (Part T Tr D)) :
    transports (parts.flatMap Part.built) = parts.map Part.transport := by
  induction parts with
  | nil => rfl
  | cons p parts ih =>
    show p.transport :: transports (parts.flatMap Part.built) = _
    rw [ih]
    rfl

theorem devices_flatMap (parts : List (Part T Tr D)) :
    devices (parts.flatMap Part.built) = parts.map Part.device := by
  induction parts with
  | nil => rfl
  | cons p parts ih =>
    show p.device :: devices (parts.flatMap Part.built) = _
    rw [ih]
    rfl

/-- The devices by their ID. -/
def physical (parts : List (Part T Tr D)) : List (Text × D) := parts.map fun p => (p.name, p.device)

theorem keys_physical (parts : List (Part T Tr D)) : (physical parts).map Prod.fst = parts.map Part.name := by
  rw [physical, List.map_map]
  rfl

/-- A part with the two objects that the factories returned for it. -/
structure Part.MadeBy (factories : Factories T Tr D E) (p : Part T Tr D) : Prop where
  transport : ∃ built, factories.transport built p.config.transport = .ok p.transport
  device : ∃ built, factories.device built p.config p.transport = .ok p.device

/-- A factory raises for a device, after these parts. -/
inductive Raises (factories : Factories T Tr D E) (parts : List (Part T Tr D)) (config : DeviceConfig T) (e : E) :
    List (Built T Tr D) → Prop
  | transport (h : factories.transport (parts.flatMap Part.built) config.transport = .error e) :
      Raises factories parts config e (parts.flatMap Part.built)
  | device (transport : Tr) (h : factories.transport (parts.flatMap Part.built) config.transport = .ok transport)
      (h' : factories.device (parts.flatMap Part.built ++ [.transport config.transport transport]) config transport
        = .error e) :
      Raises factories parts config e (parts.flatMap Part.built ++ [.transport config.transport transport])

section Pass

variable [DecidableEq D] {defined : List (Text × DeviceConfig T)} {roles : List (Text × Text)}
  {parts : List (Part T Tr D)} {byRole : List (Text × D)} {factories : Factories T Tr D E}

theorem composed_nil : Composed defined [] ([] : List (Part T Tr D)) ([] : List (Text × D)) where
  names := rfl
  configs _ h := absurd h List.not_mem_nil
  transports_nodup := List.nodup_nil
  devices_nodup := List.nodup_nil
  unique := rfl
  keys := rfl
  shared _ h := absurd h (Nat.not_lt_zero _)

theorem Composed.length_eq (h : Composed defined roles parts byRole) : byRole.length = roles.length := by
  have hkeys := congrArg List.length h.keys
  rwa [List.length_map, List.length_map] at hkeys

/-- The last role has the device of its ID, and the others keep theirs. -/
theorem Composed.shared_snoc (h : Composed defined roles parts byRole) {parts' : List (Part T Tr D)}
    (hparts : ∀ p ∈ parts, p ∈ parts') {p : Part T Tr D} (hp : p ∈ parts') (role : Text) (i : ℕ)
    (hi : i < (roles ++ [(role, p.name)]).length) (hi' : i < (byRole ++ [(role, p.device)]).length) :
    ∃ q ∈ parts', q.name = (roles ++ [(role, p.name)])[i].2 ∧
      q.device = (byRole ++ [(role, p.device)])[i].2 := by
  have hlength := h.length_eq
  by_cases hlast : i < roles.length
  · obtain ⟨q, hq, hname, hdevice⟩ := h.shared i hlast (hlength ▸ hlast)
    refine ⟨q, hparts q hq, ?_, ?_⟩
    · rw [List.getElem_append_left hlast]
      exact hname
    · rw [List.getElem_append_left (hlength ▸ hlast)]
      exact hdevice
  · rw [List.length_append, List.length_singleton] at hi
    obtain rfl : i = roles.length := by omega
    exact ⟨p, hp, by simp, by simp [← hlength]⟩

/-- **A role whose ID was used before** gets the device of that ID. -/
theorem Composed.snoc_known (h : Composed defined roles parts byRole) {role name : Text} {device : D}
    (hlookup : (physical parts).lookup name = some device) :
    Composed defined (roles ++ [(role, name)]) parts (byRole ++ [(role, device)]) := by
  obtain ⟨p, hp, hpair⟩ := List.mem_map.mp (mem_of_lookup hlookup)
  obtain ⟨rfl, rfl⟩ := Prod.mk.inj hpair
  have hname : p.name ∈ roles.map Prod.snd := by
    rw [← mem_fromkeys, ← h.names]
    exact List.mem_map_of_mem hp
  have hdevice : p.device ∈ byRole.map Prod.snd := by
    rw [← mem_fromkeys, h.unique]
    exact List.mem_map_of_mem hp
  refine ⟨?_, h.configs, h.transports_nodup, h.devices_nodup, ?_, ?_, ?_⟩
  · rw [h.names, List.map_append]
    exact (fromkeys_concat_of_mem hname).symm
  · rw [← h.unique, List.map_append]
    exact fromkeys_concat_of_mem hdevice
  · rw [List.map_append, List.map_append, h.keys]
    rfl
  · exact h.shared_snoc (fun q hq => hq) hp role

/-- **A role with a new ID** gets a new device. -/
theorem Composed.snoc_new (h : Composed defined roles parts byRole) (role : Text) {p : Part T Tr D}
    (hlookup : (physical parts).lookup p.name = none) (hconfig : defined.lookup p.name = some p.config)
    (htransport : p.transport ∉ parts.map Part.transport) (hdevice : p.device ∉ parts.map Part.device) :
    Composed defined (roles ++ [(role, p.name)]) (parts ++ [p]) (byRole ++ [(role, p.device)]) := by
  have hname : p.name ∉ roles.map Prod.snd := by
    rw [← mem_fromkeys, ← h.names, ← keys_physical]
    exact lookup_eq_none_iff.mp hlookup
  have hnew : p.device ∉ byRole.map Prod.snd := by
    rw [← mem_fromkeys, h.unique]
    exact hdevice
  refine ⟨?_, ?_, ?_, ?_, ?_, ?_, ?_⟩
  · rw [List.map_append, List.map_append, h.names]
    exact (fromkeys_concat_of_not_mem hname).symm
  · intro q hq
    rcases List.mem_append.mp hq with hq | hq
    · exact h.configs q hq
    · rw [List.mem_singleton.mp hq]
      exact hconfig
  · rw [List.map_append, List.map_singleton, ← List.concat_eq_append]
    exact h.transports_nodup.concat htransport
  · rw [List.map_append, List.map_singleton, ← List.concat_eq_append]
    exact h.devices_nodup.concat hdevice
  · rw [List.map_append, List.map_append, ← h.unique]
    exact fromkeys_concat_of_not_mem hnew
  · rw [List.map_append, List.map_append, h.keys]
    rfl
  · exact h.shared_snoc (fun q hq => List.mem_append_left _ hq) (List.mem_append_right _ List.mem_cons_self) role

/-- A new key is put at the end. -/
theorem setItem_new {V : Type} {d : List (Text × V)} {e : Text × V} (h : e.1 ∉ d.map Prod.fst) :
    setItem d e = d ++ [e] := if_neg h

/-- How the loop over the roles ends: every role has its device, or a factory has raised for the first device
that it could not build. -/
inductive CreateEnds (factories : Factories T Tr D E) (defined : List (Text × DeviceConfig T))
    (roles rest : List (Text × Text)) : Except (CreateError E) (List (Text × D)) × List (Built T Tr D) → Prop
  | built (parts : List (Part T Tr D)) (byRole : List (Text × D))
      (h : Composed defined (roles ++ rest) parts byRole) (hmade : ∀ p ∈ parts, p.MadeBy factories) :
      CreateEnds factories defined roles rest (.ok byRole, parts.flatMap Part.built)
  | raised (before after : List (Text × Text)) (role name : Text) (config : DeviceConfig T)
      (parts : List (Part T Tr D)) (byRole : List (Text × D)) (e : E) (built : List (Built T Tr D))
      (hrest : rest = before ++ (role, name) :: after) (h : Composed defined (roles ++ before) parts byRole)
      (hmade : ∀ p ∈ parts, p.MadeBy factories) (hconfig : defined.lookup name = some config)
      (hraises : Raises factories parts config e built) :
      CreateEnds factories defined roles rest (.error (.factory e), built)

/-- The loop after one more role. -/
theorem CreateEnds.cons {pair : Text × Text} {rest : List (Text × Text)}
    {ended : Except (CreateError E) (List (Text × D)) × List (Built T Tr D)}
    (h : CreateEnds factories defined (roles ++ [pair]) rest ended) :
    CreateEnds factories defined roles (pair :: rest) ended := by
  have hsnoc : ∀ others : List (Text × Text), (roles ++ [pair]) ++ others = roles ++ pair :: others := by simp
  cases h with
  | built parts byRole h hmade =>
    rw [hsnoc] at h
    exact .built parts byRole h hmade
  | raised before after role name config parts byRole e built hrest h hmade hconfig hraises =>
    rw [hsnoc] at h
    exact .raised (pair :: before) after role name config parts byRole e built (by rw [hrest]; rfl) h hmade
      hconfig hraises

/-- **The loop over the roles** builds what is missing and gives every role its device, until a factory raises. -/
theorem createEach_ends (hdistinct : factories.Distinct) (rest : List (Text × Text))
    (hkeys : ((roles ++ rest).map Prod.fst).Nodup) (hdefined : ∀ role ∈ rest, role.2 ∈ defined.map Prod.fst)
    (h : Composed defined roles parts byRole) (hmade : ∀ p ∈ parts, p.MadeBy factories) :
    CreateEnds factories defined roles rest
      ((@createEach T Tr D E defined (physical parts) byRole rest).eval factories.handle
        (parts.flatMap Part.built)) := by
  induction rest generalizing roles parts byRole with
  | nil => exact .built parts byRole (by rwa [List.append_nil]) hmade
  | cons pair rest ih =>
    obtain ⟨role, name⟩ := pair
    have hsnoc : roles ++ (role, name) :: rest = (roles ++ [(role, name)]) ++ rest := by simp
    have hrest : ∀ role ∈ rest, role.2 ∈ defined.map Prod.fst :=
      fun r hr => hdefined r (List.mem_cons_of_mem _ hr)
    rw [hsnoc] at hkeys
    have hrole : role ∉ byRole.map Prod.fst := by
      rw [h.keys]
      rw [List.map_append, List.map_append] at hkeys
      exact fun hmem => (List.nodup_append.mp (List.nodup_append.mp hkeys).1).2.2 role hmem role
        List.mem_cons_self rfl
    cases hlookup : (physical parts).lookup name with
    | some device =>
      have hknown : Composed defined (roles ++ [(role, name)]) parts (byRole ++ [(role, device)]) :=
        h.snoc_known hlookup
      have hnext := (ih hkeys hrest hknown hmade).cons
      rw [createEach, hlookup]
      rwa [← setItem_new hrole] at hnext
    | none =>
      obtain ⟨config, hconfig⟩ : ∃ config, defined.lookup name = some config := by
        rw [← Option.isSome_iff_exists, Option.isSome_iff_ne_none]
        exact fun hnone => lookup_eq_none_iff.mp hnone (hdefined _ List.mem_cons_self)
      rw [createEach, hlookup, hconfig]
      simp only [Program.eval_call]
      cases htransport : factories.transport (parts.flatMap Part.built) config.transport with
      | error e =>
        simp only [Factories.handle, htransport]
        exact .raised [] rest role name config parts byRole e _ rfl (by rwa [List.append_nil]) hmade hconfig
          (.transport htransport)
      | ok transport =>
        simp only [Factories.handle, htransport, Program.eval_call]
        cases hdevice : factories.device
            (parts.flatMap Part.built ++ [.transport config.transport transport]) config transport with
        | error e =>
          simp only
          exact .raised [] rest role name config parts byRole e _ rfl (by rwa [List.append_nil]) hmade hconfig
            (.device transport htransport hdevice)
        | ok device =>
          let p : Part T Tr D := ⟨name, config, transport, device⟩
          have hnew : p.transport ∉ parts.map Part.transport := by
            rw [← transports_flatMap]
            exact hdistinct.transport _ _ _ htransport
          have hfilter : devices (parts.flatMap Part.built ++ [.transport config.transport transport])
              = parts.map Part.device := by
            rw [devices, List.filterMap_append, ← devices, devices_flatMap]
            exact List.append_nil _
          have hnew' : p.device ∉ parts.map Part.device := by
            rw [← hfilter]
            exact hdistinct.device _ _ _ _ hdevice
          have hbuilt : (parts ++ [p]).flatMap Part.built
              = parts.flatMap Part.built ++ [.transport config.transport transport]
                ++ [.device config transport device] := by
            rw [List.flatMap_append, List.append_assoc]
            rfl
          have hphysical : setItem (physical parts) (name, device) = physical (parts ++ [p]) := by
            rw [setItem_new (e := (name, device)) (lookup_eq_none_iff.mp hlookup), physical, physical,
              List.map_append]
            rfl
          have hmade' : ∀ q ∈ parts ++ [p], q.MadeBy factories := by
            intro q hq
            rcases List.mem_append.mp hq with hq | hq
            · exact hmade q hq
            · rw [List.mem_singleton.mp hq]
              exact ⟨⟨_, htransport⟩, ⟨_, hdevice⟩⟩
          have hnext := (ih hkeys hrest (h.snoc_new (p := p) role hlookup hconfig hnew hnew') hmade').cons
          simp only
          rw [hphysical, setItem_new (e := (role, device)) hrole, ← hbuilt]
          exact hnext

end Pass

/-! ## What the composition asks for -/

/-- Two factories that agree on a device. -/
structure Agree (f g : Factories T Tr D E) (config : DeviceConfig T) : Prop where
  transport : ∀ built, f.transport built config.transport = g.transport built config.transport
  device : ∀ built given, f.device built config given = g.device built config given

/-- **The composition asks only for the devices of its roles.** -/
theorem createEach_congr {f g : Factories T Tr D E} {defined : List (Text × DeviceConfig T)}
    {rest : List (Text × Text)}
    (hagree : ∀ role ∈ rest, ∀ config, defined.lookup role.2 = some config → Agree f g config)
    (physical byRole : List (Text × D)) (built : List (Built T Tr D)) :
    (createEach defined physical byRole rest).eval f.handle built
      = (createEach defined physical byRole rest).eval g.handle built := by
  induction rest generalizing physical byRole built with
  | nil => rfl
  | cons pair rest ih =>
    obtain ⟨role, name⟩ := pair
    have hrest := ih fun r hr => hagree r (List.mem_cons_of_mem _ hr)
    cases hlookup : physical.lookup name with
    | some device =>
      simp only [createEach, hlookup]
      exact hrest _ _ _
    | none =>
      cases hconfig : defined.lookup name with
      | none => simp only [createEach, hlookup, hconfig, Program.eval_throw]
      | some config =>
        have h : Agree f g config := hagree _ List.mem_cons_self config hconfig
        simp only [createEach, hlookup, hconfig, Program.eval_call, Factories.handle, h.transport]
        cases g.transport built config.transport with
        | error e => rfl
        | ok transport =>
          simp only [Program.eval_call, Factories.handle, h.device]
          cases g.device (built ++ [.transport config.transport transport]) config transport with
          | error e => rfl
          | ok device => exact hrest _ _ _

/-! ## The stand that is built -/

/-- The validator: every role of every stand names a device of the inventory. -/
theorem mem_of_resolved {inventory : Inventory D} {stand : Text × StandConfig} (hstand : stand ∈ inventory.stands)
    {role : Text × Text} (hrole : role ∈ stand.2.devices) : role.2 ∈ inventory.devices.map Prod.fst := by
  by_contra hmissing
  have hmem : (stand.1 ++ ['.'] ++ role.1, role.2) ∈ inventory.stands.flatMap fun stand =>
      (stand.2.devices.filter fun role => decide (role.2 ∉ inventory.devices.map Prod.fst)).map fun role =>
        (stand.1 ++ ['.'] ++ role.1, role.2) := by
    refine List.mem_flatMap.mpr ⟨stand, hstand, List.mem_map.mpr ⟨role, ?_, rfl⟩⟩
    exact List.mem_filter.mpr ⟨hrole, decide_eq_true hmissing⟩
  have hkey := mem_keys_keepLast.mpr (List.mem_map_of_mem (f := Prod.fst) hmem)
  rw [← missingReferences, inventory.resolved] at hkey
  exact absurd hkey List.not_mem_nil

theorem nodup_of_dictField {V : Type} {value : Yaml → Option V} {doc : Yaml} {entries : List (Text × V)}
    (h : dictField value doc = some entries) : (entries.map Prod.fst).Nodup := by
  cases doc with
  | map fields =>
    obtain ⟨items, -, rfl⟩ := Option.map_eq_some_iff.mp h
    exact nodup_keepLast items
  | _ => cases h

/-- The roles of a validated stand are the keys of a dictionary. -/
theorem nodup_of_validate {doc : Yaml} {config : StandConfig} (h : StandConfig.validate doc = some config) :
    (config.devices.map Prod.fst).Nodup := by
  cases doc with
  | map fields =>
    have hdevices : ∃ found, field fields "devices" >>= dictField stringField = some found ∧
        config.devices = found := by
      rw [StandConfig.validate] at h
      dsimp only at h
      split at h
      all_goals
        obtain ⟨description, -, h⟩ := Option.bind_eq_some_iff.mp h
        split at h
        all_goals
          obtain ⟨capabilities, -, h⟩ := Option.bind_eq_some_iff.mp h
          obtain ⟨found, hfound, h⟩ := Option.bind_eq_some_iff.mp h
          split_ifs at h
          exact ⟨found, hfound, by rw [← Option.some.inj h]⟩
    obtain ⟨found, hfound, hconfig⟩ := hdevices
    obtain ⟨value, -, hvalue⟩ := Option.bind_eq_some_iff.mp hfound
    rw [hconfig]
    exact nodup_of_dictField hvalue
  | _ => cases h

/-- **A connect that raises nothing** has connected every device once. -/
theorem connect_all [BEq D] (isException : E → Bool) {stand : TestStand D} {pattern : Pattern D E}
    (h : ∀ d ∈ stand.uniqueDevices, pattern (.connect d) = .ok ()) :
    exec pattern (stand.connect isException) = (.ok (), stand.uniqueDevices.map .connect) := by
  rcases connectEach_cases pattern [] stand.uniqueDevices [] with
    ⟨-, heval⟩ | ⟨before, d, after, e, heq, -, he, -⟩
  · rw [exec, TestStand.connect, Program.eval_bind, heval]
    rfl
  · have hok := h d (heq ▸ List.mem_append_right before List.mem_cons_self)
    rw [hok] at he
    cases he

/-- The loop over the roles of a stand. -/
def createLoop (factories : Factories T Tr D E) (inventory : Inventory (DeviceConfig T)) (config : StandConfig) :
    Except (CreateError E) (List (Text × D)) × List (Built T Tr D) :=
  (createEach inventory.devices [] [] config.devices).eval factories.handle []

theorem compose_eq (factories : Factories T Tr D E) (inventory : Inventory (DeviceConfig T))
    (config : StandConfig) :
    compose factories inventory config
      = ((createLoop factories inventory config).1.map TestStand.mk,
        (createLoop factories inventory config).2) := by
  rw [compose, StandFactory.create, Program.eval_bind, createLoop]
  rcases (createEach inventory.devices [] [] config.devices).eval factories.handle [] with ⟨_ | _, _⟩ <;> rfl

/-- The composition of a validated stand. -/
theorem createLoop_ends [DecidableEq D] {factories : Factories T Tr D E} (hdistinct : factories.Distinct)
    {inventory : Inventory (DeviceConfig T)} {stand : Text × StandConfig} (hstand : stand ∈ inventory.stands)
    (hkeys : (stand.2.devices.map Prod.fst).Nodup) :
    CreateEnds factories inventory.devices [] stand.2.devices (createLoop factories inventory stand.2) :=
  createEach_ends hdistinct stand.2.devices (by rwa [List.nil_append])
    (fun _ hrole => mem_of_resolved hstand hrole) composed_nil (fun _ hp => absurd hp List.not_mem_nil)

/-- A stand whose inventory was validated is composed. -/
theorem create_composed [DecidableEq D] {factories : Factories T Tr D E} (hfresh : factories.Fresh)
    {inventory : Inventory (DeviceConfig T)} {stand : Text × StandConfig} (hstand : stand ∈ inventory.stands)
    (hkeys : (stand.2.devices.map Prod.fst).Nodup) :
    ∃ (made : TestStand D) (parts : List (Part T Tr D)),
      compose factories inventory stand.2 = (.ok made, parts.flatMap Part.built) ∧
        Composed inventory.devices stand.2.devices parts made.devices := by
  have hends := createLoop_ends hfresh.distinct hstand hkeys
  rw [compose_eq]
  generalize createLoop factories inventory stand.2 = ended at hends
  cases hends with
  | built parts byRole h _ => exact ⟨⟨byRole⟩, parts, rfl, h⟩
  | raised before after role name config parts byRole e built _ _ _ _ hraises =>
    -- fresh factories do not raise
    rcases hraises with h | ⟨transport, -, h⟩
    · obtain ⟨made, hmade, -⟩ := hfresh.transport (parts.flatMap Part.built) config.transport
      rw [hmade] at h
      cases h
    · obtain ⟨made, hmade, -⟩ := hfresh.device
        (parts.flatMap Part.built ++ [.transport config.transport transport]) config transport
      rw [hmade] at h
      cases h

/-- Roles have one object when they name one ID, and different objects otherwise. -/
theorem Composed.same_iff [DecidableEq D] {defined : List (Text × DeviceConfig T)}
    {roles : List (Text × Text)} {parts : List (Part T Tr D)} {byRole : List (Text × D)}
    (h : Composed defined roles parts byRole) (i j : ℕ) (hi : i < roles.length) (hj : j < roles.length)
    (hi' : i < byRole.length) (hj' : j < byRole.length) :
    byRole[i].2 = byRole[j].2 ↔ roles[i].2 = roles[j].2 := by
  obtain ⟨p, hp, hname, hdevice⟩ := h.shared i hi hi'
  obtain ⟨q, hq, hname', hdevice'⟩ := h.shared j hj hj'
  have hnames : (parts.map Part.name).Nodup := by
    rw [h.names]
    exact nodup_fromkeys _
  rw [← hname, ← hname', ← hdevice, ← hdevice']
  constructor
  · intro heq
    rw [List.inj_on_of_nodup_map h.devices_nodup hp hq heq]
  · intro heq
    rw [List.inj_on_of_nodup_map hnames hp hq heq]

/-- **Every device is built, connected and closed once.**  For a stand of a validated inventory and
factories that return new objects, `create` builds one part for each ID in the order of its first use, and
two roles share an object exactly when they share the ID.  If nothing raises, `connect` then connects these
devices in this order; and `close` closes them in the reverse order, whichever of them raise an
`Exception`, and raises the first of these. -/
theorem composed_once [DecidableEq D] {E' : Type} (factories : Factories T Tr D E) (hfresh : factories.Fresh)
    (inventory : Inventory (DeviceConfig T)) (stand : Text × StandConfig) (hstand : stand ∈ inventory.stands)
    (hkeys : (stand.2.devices.map Prod.fst).Nodup) (isException : E' → Bool) (pattern : Pattern D E')
    (hclose : ∀ d e, pattern (.close d) = .error e → isException e = true) :
    ∃ (made : TestStand D) (parts : List (Part T Tr D)),
      compose factories inventory stand.2 = (.ok made, parts.flatMap Part.built) ∧
      parts.map Part.name = fromkeys (stand.2.devices.map Prod.snd) ∧
      (∀ p ∈ parts, inventory.devices.lookup p.name = some p.config) ∧
      (parts.map Part.device).Nodup ∧
      made.devices.map Prod.fst = stand.2.devices.map Prod.fst ∧
      (∀ i j (hi : i < stand.2.devices.length) (hj : j < stand.2.devices.length)
        (hi' : i < made.devices.length) (hj' : j < made.devices.length),
        made.devices[i].2 = made.devices[j].2 ↔ stand.2.devices[i].2 = stand.2.devices[j].2) ∧
      ((∀ d ∈ parts.map Part.device, pattern (.connect d) = .ok ()) →
        exec pattern (made.connect isException) = (.ok (), (parts.map Part.device).map .connect)) ∧
      exec pattern (made.close isException)
        = ((firstRaised pattern (parts.map Part.device).reverse).elim (.ok ()) .error,
            (parts.map Part.device).reverse.map .close) := by
  obtain ⟨made, parts, hcompose, h⟩ := create_composed (E := E) hfresh hstand hkeys
  have hunique : made.uniqueDevices = parts.map Part.device := h.unique
  refine ⟨made, parts, hcompose, h.names, h.configs, h.devices_nodup, h.keys, h.same_iff, ?_, ?_⟩
  · intro hconnect
    rw [← hunique] at hconnect ⊢
    exact connect_all isException hconnect
  · rw [← hunique]
    exact close_attempts_all made hclose

/-! ## A stand with a shared device -/

section Sample

/-- Objects are numbered. -/
def numbered : Factories Text ℕ ℕ SampleError where
  transport built _ := .ok ((transports built).sum + 1)
  device built _ _ := .ok ((devices built).sum + 1)

theorem not_mem_of_sum_lt (l : List ℕ) : l.sum + 1 ∉ l :=
  fun h => absurd (List.le_sum_of_mem h) (by omega)

theorem numbered_fresh : numbered.Fresh where
  transport _ _ := ⟨_, rfl, not_mem_of_sum_lt _⟩
  device _ _ _ := ⟨_, rfl, not_mem_of_sum_lt _⟩

/-- The analyzer and the generator are one device. -/
def labStand : StandConfig where
  description := none
  capabilities := []
  devices := [("dut", "board"), ("analyzer", "scope"), ("generator", "scope"), ("meter", "meter-1")]

def labInventory : Inventory (DeviceConfig Text) where
  devices := [("scope", ⟨"analyzer", "S1", "ssh"⟩), ("board", ⟨"dut", "B2", "pyserial"⟩),
    ("meter-1", ⟨"analyzer", "M3", "ssh"⟩)]
  stands := [("lab", labStand)]
  resolved := by decide

/-- Two of the three devices raise when they are closed. -/
def labPattern : Pattern ℕ SampleError
  | .close 1 => .error .connectRefused
  | .close 4 => .error .closeFailed
  | _ => .ok ()

theorem composed_once_sample :
    ∃ (made : TestStand ℕ) (parts : List (Part Text ℕ ℕ)),
      compose numbered labInventory labStand = (.ok made, parts.flatMap Part.built) ∧
      parts.map Part.name = ["board".toList, "scope".toList, "meter-1".toList] ∧
      exec labPattern (made.connect fun _ => true) = (.ok (), (parts.map Part.device).map .connect) ∧
      exec labPattern (made.close fun _ => true)
        = ((firstRaised labPattern (parts.map Part.device).reverse).elim (.ok ()) .error,
            (parts.map Part.device).reverse.map .close) := by
  obtain ⟨made, parts, hcompose, hnames, -, -, -, -, hconnect, hclose⟩ :=
    composed_once numbered numbered_fresh labInventory ("lab".toList, labStand) List.mem_cons_self (by decide)
      (fun _ => true) labPattern (fun _ _ _ => rfl)
  exact ⟨made, parts, hcompose, hnames, hconnect fun d _ => rfl, hclose⟩

/-- `KeyboardInterrupt` is no instance of `Exception`. -/
inductive Interrupt
  | keyboardInterrupt
  | error
  deriving DecidableEq

/-- **An interrupt ends the loop**: the device that is closed first raises `KeyboardInterrupt`, and the
others are not closed. -/
theorem interrupted_close_stops :
    ∃ (made : TestStand ℕ) (parts : List (Part Text ℕ ℕ)),
      compose numbered labInventory labStand = (.ok made, parts.flatMap Part.built) ∧
      parts.map Part.device = [1, 2, 4] ∧
      exec (fun | .close 4 => .error Interrupt.keyboardInterrupt | _ => .ok ())
        (made.close fun e => decide (e ≠ .keyboardInterrupt)) = (.error .keyboardInterrupt, [.close 4]) ∧
      [DeviceCall.close 4] ≠ (parts.map Part.device).reverse.map .close :=
  ⟨⟨[("dut", 1), ("analyzer", 2), ("generator", 2), ("meter", 4)]⟩,
    [⟨"board", ⟨"dut", "B2", "pyserial"⟩, 1, 1⟩, ⟨"scope", ⟨"analyzer", "S1", "ssh"⟩, 2, 2⟩,
      ⟨"meter-1", ⟨"analyzer", "M3", "ssh"⟩, 4, 4⟩], rfl, rfl, rfl, by decide⟩

end Sample

end HardwareTest.Stand
