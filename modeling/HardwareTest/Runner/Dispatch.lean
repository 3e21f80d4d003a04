import HardwareTest.Runner.Containers
import HardwareTest.Runner.Service

/-!
# From a request to the session in the container

A request to run tests goes through three programs: the service makes a vector of it, Docker makes a
container of the vector, and `pytest` in the container makes a session of the command.  The service later
looks for the reports where it expects the session to have put them.

* `runTests_dispatch` — the vector, as options, an image and a command;
* `Deployed` — what the settings of a deployment satisfy;
* `run_request_dispatched` — Docker and `pytest` read what the request says, and the session works in the
  directory in which the service looks.
-/

namespace HardwareTest.Runner

open HardwareTest.Lib HardwareTest.Lib.Options HardwareTest.Python HardwareTest.Plugin
open HardwareTest.Auth (toStr)

section Items

variable (settings : Settings)

/-- A volume: what of the host is where in the container. -/
def volume (path : PurePath) (target : Text) : Options.Item Text :=
  .option "--volume".toList (path.toText ++ ':' :: target)

/-- The options of `docker run` for a test run. -/
def dockerItems (operationId : Text) : List (Options.Item Text) :=
  [.flag "--rm".toList, .option "--name".toList (Settings.runContainer operationId),
    .option "--label".toList ("test-runner.operation-id=".toList ++ operationId),
    .option "--pull".toList "never".toList, .option "--env".toList "AGENT_NO_ANALYTICS=1".toList,
    volume settings.inventoryFile.parent ("/runtime/inventory".toList ++ ':' :: "ro".toList),
    volume settings.artifactsDirectory "/app/artifacts".toList]
  ++ settings.envFile.toList.map (fun path => Options.Item.option "--env-file".toList path.toText)
  ++ settings.knownHostsFile.toList.map (fun path =>
      volume path ("/root/.ssh/known_hosts".toList ++ ':' :: "ro".toList))
  ++ settings.dockerNetwork.toList.map (fun network => Options.Item.option "--network".toList network)
  ++ settings.dockerDevices.map (fun device => Options.Item.option "--device".toList device)
  ++ if settings.reportportalEnabled then [.option "--env".toList "RP_API_KEY".toList] else []

/-- The path of the Allure results in the container. -/
def containerResults (runId : Text) (results : ReportPath) : PurePath :=
  ((PurePath.mk true ["app".toList, "artifacts".toList]).child runId).join results.path

def allureItems (runId : Text) : List (Options.Item Text) :=
  match settings.allureEnabled, settings.allureResultsPath with
  | true, some results => [.option "--alluredir".toList (containerResults runId results).toText]
  | _, _ => []

def reportportalItems (operationId image stand scenario : Text) : List (Options.Item Text) :=
  if settings.reportportalEnabled then
    [.flag "--reportportal".toList,
      .option "--rp-endpoint".toList (settings.reportportalEndpoint.getD "None".toList),
      .option "--rp-project".toList settings.reportportalProject, .option "--rp-launch".toList operationId,
      .option "--rp-launch-description".toList
        ("stand=".toList ++ stand ++ "; scenario=".toList ++ scenario ++ "; image=".toList ++ image),
      .option "--mute-logger".toList "pytest_reportportal.service".toList,
      .option "-o".toList "rp_log_level=INFO".toList, .option "-o".toList "rp_client_type=SYNC".toList,
      .option "-o".toList "rp_connect_timeout=5".toList, .option "-o".toList "rp_read_timeout=10".toList,
      .option "-o".toList "rp_api_retries=0".toList,
      .option "-o".toList ("rp_launch_attributes=stand:".toList ++ stand ++ " scenario:".toList ++ scenario
        ++ " operation:".toList ++ operationId)]
  else []

/-- What `pytest` is told for a test run. -/
def pytestItems (operationId runId image stand scenario : Text) : List (Options.Item Text) :=
  [.operand "tests/hardware".toList, .option "--run-id".toList runId,
    .option "--artifacts-root".toList "/app/artifacts".toList, .option "--scenario".toList scenario,
    .option "--inventory".toList ("/runtime/inventory/".toList ++ settings.inventoryFile.name),
    .option "--stand".toList stand]
  ++ allureItems settings runId ++ reportportalItems settings operationId image stand scenario

/-- The options of `docker run` for a publication. -/
def publishItems (operationId : Text) (runDirectory : PurePath) (results : ReportPath) : List (Options.Item Text) :=
  let repositoryDirectory := "/workspace/".toList ++ settings.allureRepository
  [.flag "--rm".toList, .option "--name".toList (Settings.publisherContainer operationId),
    .option "--env".toList "ALLURE_ACCESS_TOKEN".toList, .option "--env".toList "GIT_CONFIG_COUNT=1".toList,
    .option "--env".toList "GIT_CONFIG_KEY_0=safe.directory".toList,
    .option "--env".toList ("GIT_CONFIG_VALUE_0=".toList ++ repositoryDirectory),
    volume settings.frameworkSource (repositoryDirectory ++ ':' :: "ro".toList),
    volume (runDirectory.join results.path) ("/results".toList ++ ':' :: "ro".toList),
    .option "--workdir".toList repositoryDirectory]

end Items

/-! ## The vectors are written from the items -/

theorem line_dockerItems (settings : Settings) (operationId : Text) :
    "docker".toList :: "run".toList :: line (dockerItems settings operationId)
      = ["docker".toList, "run".toList, "--rm".toList, "--name".toList,
          Settings.runContainer operationId, "--label".toList,
          "test-runner.operation-id=".toList ++ operationId, "--pull".toList, "never".toList,
          "--env".toList, "AGENT_NO_ANALYTICS=1".toList, "--volume".toList,
          settings.inventoryFile.parent.toText ++ ":/runtime/inventory:ro".toList, "--volume".toList,
          settings.artifactsDirectory.toText ++ ":/app/artifacts".toList] ++ dockerOptions settings := by
  -- the optional parts one by one, in the order of the vector
  have hoptions :
      line (settings.envFile.toList.map fun path => Options.Item.option "--env-file".toList path.toText)
      ++ (line (settings.knownHostsFile.toList.map fun path =>
          volume path ("/root/.ssh/known_hosts".toList ++ ':' :: "ro".toList))
        ++ (line (settings.dockerNetwork.toList.map fun network =>
            Options.Item.option "--network".toList network)
          ++ (line (settings.dockerDevices.map fun device => Options.Item.option "--device".toList device)
            ++ line (if settings.reportportalEnabled then
                [Options.Item.option "--env".toList "RP_API_KEY".toList] else []))))
      = dockerOptions settings := by
    rw [dockerOptions]
    simp only [List.append_assoc]
    refine congrArg₂ _ ?_ (congrArg₂ _ ?_ (congrArg₂ _ ?_ (congrArg₂ _ ?_ ?_)))
    · cases settings.envFile <;> rfl
    · cases settings.knownHostsFile <;> rfl
    · cases settings.dockerNetwork <;> rfl
    · exact line_map_option "--device".toList settings.dockerDevices
    · split <;> rfl
  rw [← hoptions, dockerItems]
  simp only [line_append, List.append_assoc]
  rfl

theorem allureArguments_line (settings : Settings) (runId : Text) :
    settings.allureArguments runId = .ok (line (allureItems settings runId)) := by
  rw [Settings.allureArguments, allureItems]
  rcases henabled : settings.allureEnabled with _ | _
  · rfl
  · obtain ⟨results, hresults⟩ := Option.isSome_iff_exists.mp (settings.allure_complete henabled).2
    rw [hresults]
    rfl

theorem reportportalArguments_line (settings : Settings) (operationId image stand scenario : Text) :
    settings.reportportalArguments operationId image stand scenario
      = line (reportportalItems settings operationId image stand scenario) := by
  rw [Settings.reportportalArguments, reportportalItems]
  split <;> rfl

/-- **The vector of a test run**: options, the image and the command. -/
theorem runTests_dispatch {settings : Settings} {image : Text}
    (h : settings.validateRemoteImage image = .ok ()) (operationId runId stand scenario : Text) :
    settings.runTests operationId runId image stand scenario
      = .ok ("docker".toList :: "run".toList :: (line (dockerItems settings operationId) ++ image ::
          ("uv".toList :: "run".toList :: "pytest".toList ::
            line (pytestItems settings operationId runId image stand scenario)))) := by
  rw [Settings.runTests, h]
  show (settings.allureArguments runId).bind _ = _
  rw [allureArguments_line, reportportalArguments_line]
  show Except.ok _ = Except.ok _
  rw [← List.cons_append, ← List.cons_append, line_dockerItems, dockerOptions, pytestItems, line_append,
    line_append]
  simp only [List.append_assoc, List.cons_append, List.nil_append]
  all_goals rfl

theorem publishAllure_dispatch {settings : Settings} {results : ReportPath}
    (h : settings.allureResultsPath = some results) (operationId : Text) (runDirectory : PurePath) :
    settings.publishAllure operationId runDirectory
      = .ok ("docker".toList :: "run".toList :: (line (publishItems settings operationId runDirectory results)
          ++ settings.allurePublisherImage :: ["generate".toList, "/results".toList, "--config".toList,
            "/opt/allure/allurerc.mjs".toList])) := by
  rw [Settings.publishAllure, h]
  simp only [publishItems, volume, line_cons, line_nil, Options.Item.words, List.append_assoc, List.cons_append,
    List.nil_append, List.append_nil]
  rfl

/-! ## Names -/

/-- A character that is neither a letter nor a digit is in a name only when the pattern lists it. -/
theorem not_mem_of_matchesName {more : List Char} {value : Text} (h : matchesName more value = true) {c : Char}
    (hc : isAlphanumeric c = false) (hmore : c ∉ more) : c ∉ value := by
  cases value with
  | nil => exact List.not_mem_nil
  | cons first rest =>
    rw [matchesName, Bool.and_eq_true, List.all_eq_true] at h
    intro hmem
    rcases List.mem_cons.mp hmem with rfl | hmem
    · exact Bool.false_ne_true (hc.symm.trans h.1)
    · have hrest := h.2 c hmem
      rw [hc, Bool.false_or, List.contains_iff_mem] at hrest
      exact hmore hrest

/-- The name of a run is a run id. -/
theorem runIdMatches_newId (image stand scenario : Text) (hex : OperationHex) :
    runIdMatches ((Request.run image stand scenario).newId hex) = true := by
  have hdigits : ∀ c ∈ hex.digits, isAlphanumeric c = true := by
    intro c hc
    have hall : ∀ d ∈ "0123456789abcdef".toList, isAlphanumeric d = true := List.all_eq_true.mp (by decide)
    exact hall c (hex.isHex c hc)
  have hid : (Request.run image stand scenario).newId hex = 'r' :: ("un-".toList ++ hex.digits) := rfl
  rw [hid, runIdMatches, matchesName, List.all_append, Bool.and_eq_true, Bool.and_eq_true, Bool.and_eq_true,
    decide_eq_true_iff]
  refine ⟨⟨by decide, by decide, ?_⟩, ?_⟩
  · rw [List.all_eq_true]
    intro c hc
    rw [hdigits c hc, Bool.true_or]
  · rw [List.length_cons, List.length_append, hex.length_eq]
    decide

/-- What the settings of a deployment satisfy: Docker can mount what is mounted, and no value of the
settings that is a word of its own is taken for an option. -/
structure Deployed (settings : Settings) : Prop where
  inventory : Mountable settings.inventoryFile
  inventory_named : settings.inventoryFile.parts ≠ []
  artifacts : Mountable settings.artifactsDirectory
  knownHosts : ∀ path, settings.knownHostsFile = some path → Mountable path
  source : Mountable settings.frameworkSource
  results : ∀ results, settings.allureResultsPath = some results →
    results.path.Normal ∧ ∀ part ∈ results.path.parts, ':' ∉ part
  repository : matchesName "._-".toList settings.allureRepository = true
  publisher : settings.allurePublisherImage.head? ≠ some '-'
  endpoint : ∀ url, settings.reportportalEndpoint = some url → url.head? ≠ some '-'
  project : settings.reportportalProject.head? ≠ some '-'

/-! ## What Docker reads -/

section Docker

variable {settings : Settings}

theorem isDockerOption_dockerItems (settings : Settings) (operationId : Text) :
    ∀ item ∈ dockerItems settings operationId, IsDockerOption item := by
  have hname : ∀ name value : Text, name ∈ dockerRunOptions → IsDockerOption (.option name value) :=
    fun _ _ h => h
  simp only [dockerItems, volume, List.forall_mem_append, List.forall_mem_cons, List.forall_mem_map]
  refine ⟨⟨⟨⟨⟨⟨rfl, ?_⟩, ?_⟩, ?_⟩, ?_⟩, ?_⟩, ?_⟩
  · refine ⟨hname _ _ ?_, hname _ _ ?_, hname _ _ ?_, hname _ _ ?_, hname _ _ ?_, hname _ _ ?_, fun _ h => ?_⟩
    all_goals first | decide | cases h
  · exact fun _ _ => hname _ _ (by decide)
  · exact fun _ _ => hname _ _ (by decide)
  · exact fun _ _ => hname _ _ (by decide)
  · exact fun _ _ => hname _ _ (by decide)
  · split
    · exact List.forall_mem_singleton.mpr (hname _ _ (by decide))
    · exact fun _ h => absurd h List.not_mem_nil

theorem isDockerOption_publishItems (settings : Settings) (operationId : Text) (runDirectory : PurePath)
    (results : ReportPath) :
    ∀ item ∈ publishItems settings operationId runDirectory results, IsDockerOption item := by
  have hname : ∀ name value : Text, name ∈ dockerRunOptions → IsDockerOption (.option name value) :=
    fun _ _ h => h
  simp only [publishItems, volume, List.forall_mem_cons]
  refine ⟨rfl, hname _ _ ?_, hname _ _ ?_, hname _ _ ?_, hname _ _ ?_, hname _ _ ?_, hname _ _ ?_,
    hname _ _ ?_, hname _ _ ?_, fun _ h => ?_⟩
  all_goals first | decide | cases h

/-- The mounts of a test run. -/
theorem mounts_dockerItems (h : Deployed settings) (operationId image : Text) (command : Command) :
    ContainerRun.mounts ⟨dockerItems settings operationId, image, command⟩
      = [⟨settings.inventoryFile.parent.toText, "/runtime/inventory".toList, some "ro".toList⟩,
          ⟨settings.artifactsDirectory.toText, "/app/artifacts".toList, none⟩]
        ++ settings.knownHostsFile.toList.map fun path =>
          ⟨path.toText, "/root/.ssh/known_hosts".toList, some "ro".toList⟩ := by
  have hvalues : values "--volume".toList (dockerItems settings operationId)
      = [settings.inventoryFile.parent.toText ++ ':' :: ("/runtime/inventory".toList ++ ':' :: "ro".toList),
          settings.artifactsDirectory.toText ++ ':' :: "/app/artifacts".toList]
        ++ settings.knownHostsFile.toList.map fun path =>
          path.toText ++ ':' :: ("/root/.ssh/known_hosts".toList ++ ':' :: "ro".toList) := by
    have hapiKey : values "--volume".toList
        (if settings.reportportalEnabled then [Options.Item.option "--env".toList "RP_API_KEY".toList] else [])
        = [] := by
      split <;> rfl
    simp only [dockerItems, volume, values_append, values_map_option, hapiKey, List.append_nil,
      values_map_other (show "--env-file".toList ≠ "--volume".toList by decide),
      values_map_other (show "--network".toList ≠ "--volume".toList by decide),
      values_map_other (show "--device".toList ≠ "--volume".toList by decide)]
    rfl
  rw [ContainerRun.mounts, hvalues, List.filterMap_append]
  have hinventory := h.inventory.parent.ofText_mount_mode "/runtime/inventory".toList "ro".toList (by decide)
    (by decide)
  have hartifacts := h.artifacts.ofText_mount "/app/artifacts".toList (by decide)
  rw [List.filterMap_cons_some hinventory, List.filterMap_cons_some hartifacts, List.filterMap_nil]
  cases hknown : settings.knownHostsFile with
  | none => rfl
  | some path =>
    have hpath := (h.knownHosts path hknown).ofText_mount_mode "/root/.ssh/known_hosts".toList "ro".toList
      (by decide) (by decide)
    rw [Option.toList_some, List.map_singleton, List.map_singleton, List.filterMap_cons_some hpath,
      List.filterMap_nil]

/-- No path outside `/root` is below the mount of the known hosts. -/
theorem host_knownHosts (paths : List PurePath) (other : Text) (h : "root".toList ≠ other) (rest : List Text) :
    (paths.map fun path =>
      (⟨path.toText, "/root/.ssh/known_hosts".toList, some "ro".toList⟩ : Mount)).filterMap
        (fun mount => mount.host ⟨true, other :: rest⟩) = [] := by
  rw [List.filterMap_eq_nil_iff, List.forall_mem_map]
  exact fun path _ => Mount.host_apart _ _ _ "root".toList other [".ssh".toList, "known_hosts".toList] rest rfl h

/-- **What is below `/app/artifacts`** lies in the artifacts directory. -/
theorem hosts_artifacts (h : Deployed settings) (operationId image : Text) (command : Command)
    (rest : List Text) :
    ContainerRun.hosts ⟨dockerItems settings operationId, image, command⟩
      ⟨true, "app".toList :: "artifacts".toList :: rest⟩ = [settings.artifactsDirectory.join ⟨false, rest⟩] := by
  have hinventory : Mount.host ⟨settings.inventoryFile.parent.toText, "/runtime/inventory".toList,
      some "ro".toList⟩ ⟨true, "app".toList :: "artifacts".toList :: rest⟩ = none :=
    Mount.host_apart _ _ _ "runtime".toList _ ["inventory".toList] _ rfl (by decide)
  have hartifacts : Mount.host ⟨settings.artifactsDirectory.toText, "/app/artifacts".toList, none⟩
      ⟨true, "app".toList :: "artifacts".toList :: rest⟩
      = some (settings.artifactsDirectory.join ⟨false, rest⟩) :=
    h.artifacts.host_eq _ _ ["app".toList, "artifacts".toList] rfl rest
  simp only [ContainerRun.hosts, mounts_dockerItems h, List.filterMap_append,
    host_knownHosts _ "app".toList (by decide), List.filterMap_cons, hinventory, hartifacts,
    List.filterMap_nil, List.append_nil]

/-- **What is below `/runtime/inventory`** lies beside the inventory file. -/
theorem hosts_inventory (h : Deployed settings) (operationId image : Text) (command : Command)
    (rest : List Text) :
    ContainerRun.hosts ⟨dockerItems settings operationId, image, command⟩
      ⟨true, "runtime".toList :: "inventory".toList :: rest⟩
      = [settings.inventoryFile.parent.join ⟨false, rest⟩] := by
  have hinventory : Mount.host ⟨settings.inventoryFile.parent.toText, "/runtime/inventory".toList,
      some "ro".toList⟩ ⟨true, "runtime".toList :: "inventory".toList :: rest⟩
      = some (settings.inventoryFile.parent.join ⟨false, rest⟩) :=
    h.inventory.parent.host_eq _ _ ["runtime".toList, "inventory".toList] rfl rest
  have hartifacts : Mount.host ⟨settings.artifactsDirectory.toText, "/app/artifacts".toList, none⟩
      ⟨true, "runtime".toList :: "inventory".toList :: rest⟩ = none :=
    Mount.host_apart _ _ _ "app".toList _ ["artifacts".toList] _ rfl (by decide)
  simp only [ContainerRun.hosts, mounts_dockerItems h, List.filterMap_append,
    host_knownHosts _ "runtime".toList (by decide), List.filterMap_cons, hinventory, hartifacts,
    List.filterMap_nil, List.append_nil]

/-- **The results that a publication reads** are those at the path that it mounts. -/
theorem hosts_results (h : Deployed settings) (operationId image : Text) (command : Command)
    {runDirectory : PurePath} {results : ReportPath} (hresults : Mountable (runDirectory.join results.path)) :
    ContainerRun.hosts ⟨publishItems settings operationId runDirectory results, image, command⟩
      ⟨true, ["results".toList]⟩ = [runDirectory.join results.path] := by
  have hrepository : ':' ∉ "/workspace/".toList ++ settings.allureRepository := by
    refine fun hmem => (List.mem_append.mp hmem).elim (by decide) ?_
    exact not_mem_of_matchesName h.repository (by decide) (by decide)
  have hvalues : values "--volume".toList (publishItems settings operationId runDirectory results)
      = [settings.frameworkSource.toText ++
            ':' :: ("/workspace/".toList ++ settings.allureRepository ++ ':' :: "ro".toList),
          (runDirectory.join results.path).toText ++ ':' :: ("/results".toList ++ ':' :: "ro".toList)] := rfl
  have hsource : Mount.host ⟨settings.frameworkSource.toText, "/workspace/".toList ++ settings.allureRepository,
      some "ro".toList⟩ ⟨true, ["results".toList]⟩ = none := by
    have hsplit : ("/workspace/".toList ++ settings.allureRepository).splitOn '/'
        = [] :: "workspace".toList :: settings.allureRepository.splitOn '/' := by
      have hcons : "/workspace/".toList ++ settings.allureRepository
          = [] ++ '/' :: ("workspace".toList ++ '/' :: settings.allureRepository) := rfl
      rw [hcons, List.splitOn_append_cons_self_of_not_mem List.not_mem_nil,
        List.splitOn_append_cons_self_of_not_mem (by decide)]
    refine Mount.host_apart _ _ _ "workspace".toList _ ((settings.allureRepository.splitOn '/').filter
      fun part => decide (part ≠ [] ∧ part ≠ ['.'])) _ ?_ (by decide)
    rw [PurePath.ofText, hsplit, List.filter_cons_of_neg (by decide), List.filter_cons_of_pos (by decide)]
    rfl
  have hmounted : Mount.host ⟨(runDirectory.join results.path).toText, "/results".toList, some "ro".toList⟩
      ⟨true, ["results".toList]⟩ = some (runDirectory.join results.path) := by
    have hhost := hresults.host_eq "/results".toList (some "ro".toList) ["results".toList] rfl []
    rw [List.append_nil] at hhost
    rw [hhost, PurePath.join]
    exact congrArg (fun parts => some (PurePath.mk _ parts)) (List.append_nil _)
  rw [ContainerRun.hosts, ContainerRun.mounts, hvalues]
  simp only [List.filterMap_cons, List.filterMap_nil, hsource, hmounted,
    h.source.ofText_mount_mode _ "ro".toList hrepository (by decide),
    hresults.ofText_mount_mode "/results".toList "ro".toList (by decide) (by decide)]

end Docker

/-! ## What pytest reads -/

section Pytest

variable {settings : Settings}

theorem head_append_of_head {first rest : Text} {c : Char} (h : first.head? = some c) (hc : c ≠ '-') :
    (first ++ rest).head? ≠ some '-' := by
  rw [List.head?_append, h, Option.some_or]
  exact fun heq => hc (Option.some.inj heq)

theorem head_containerResults (runId : Text) (results : ReportPath) :
    (containerResults runId results).toText.head? ≠ some '-' := by
  have habsolute : (containerResults runId results).absolute = true := by
    rw [containerResults, PurePath.join, results.relative]
    rfl
  rw [PurePath.toText, habsolute, if_pos rfl]
  exact fun heq => absurd (Option.some.inj heq) (by decide)

theorem isPytestItem_pytestItems (h : Deployed settings) {operationId runId image stand scenario : Text}
    (hoperation : operationId.head? ≠ some '-') (hrun : runId.head? ≠ some '-')
    (hstand : stand.head? ≠ some '-') (hscenario : scenario.head? ≠ some '-') :
    ∀ item ∈ pytestItems settings operationId runId image stand scenario, IsPytestItem item := by
  have hitem : ∀ name value : Text, name ∈ pytestOptions → value.head? ≠ some '-' →
      IsPytestItem (.option name value) := fun _ _ hname hvalue => ⟨hname, hvalue⟩
  rw [pytestItems, List.forall_mem_append, List.forall_mem_append]
  refine ⟨⟨?_, ?_⟩, ?_⟩
  · simp only [List.forall_mem_cons]
    have htests : IsPytestItem (.operand "tests/hardware".toList) := fun heq =>
      absurd (Option.some.inj heq) (by decide)
    refine ⟨htests, hitem _ _ ?_ hrun, hitem _ _ ?_ (by decide), hitem _ _ ?_ hscenario,
      hitem _ _ ?_ (head_append_of_head (c := '/') rfl (by decide)), hitem _ _ ?_ hstand, fun _ h => ?_⟩
    all_goals first | decide | cases h
  · rw [allureItems]
    split
    · exact List.forall_mem_singleton.mpr (hitem _ _ (by decide) (head_containerResults _ _))
    · exact fun _ h => absurd h List.not_mem_nil
  · have hendpoint : (settings.reportportalEndpoint.getD "None".toList).head? ≠ some '-' := by
      cases hurl : settings.reportportalEndpoint with
      | none => decide
      | some url => exact h.endpoint url hurl
    rw [reportportalItems]
    split
    · simp only [List.forall_mem_cons]
      refine ⟨rfl, hitem _ _ ?_ hendpoint, hitem _ _ ?_ h.project, hitem _ _ ?_ hoperation,
        hitem _ _ ?_ ?_, hitem _ _ ?_ ?_, hitem _ _ ?_ ?_, hitem _ _ ?_ ?_, hitem _ _ ?_ ?_, hitem _ _ ?_ ?_,
        hitem _ _ ?_ ?_, hitem _ _ ?_ ?_, fun _ h => ?_⟩
      all_goals try first | decide | cases h
      · rw [List.append_assoc, List.append_assoc, List.append_assoc, List.append_assoc]
        exact head_append_of_head (c := 's') rfl (by decide)
      · rw [List.append_assoc, List.append_assoc, List.append_assoc, List.append_assoc]
        exact head_append_of_head (c := 'r') rfl (by decide)
    · exact fun _ h => absurd h List.not_mem_nil

/-- The values of an option that neither Allure nor ReportPortal is told. -/
theorem values_pytestItems (settings : Settings) (operationId runId image stand scenario : Text) {name : Text}
    (h : name ∉ ["--alluredir".toList, "--rp-endpoint".toList, "--rp-project".toList, "--rp-launch".toList,
      "--rp-launch-description".toList, "--mute-logger".toList, "-o".toList]) :
    values name (pytestItems settings operationId runId image stand scenario)
      = values name [.option "--run-id".toList runId,
          .option "--artifacts-root".toList "/app/artifacts".toList, .option "--scenario".toList scenario,
          .option "--inventory".toList ("/runtime/inventory/".toList ++ settings.inventoryFile.name),
          .option "--stand".toList stand] := by
  simp only [List.mem_cons, List.not_mem_nil, or_false, not_or] at h
  obtain ⟨hallure, hendpoint, hproject, hlaunch, hdescription, hmute, hini⟩ := h
  have hallureItems : values name (allureItems settings runId) = [] := by
    rw [allureItems]
    split
    · exact values_other (Ne.symm hallure) _ _
    · rfl
  have hreportportalItems : values name (reportportalItems settings operationId image stand scenario) = [] := by
    rw [reportportalItems]
    split
    · rw [values_flag, values_other (Ne.symm hendpoint), values_other (Ne.symm hproject),
        values_other (Ne.symm hlaunch), values_other (Ne.symm hdescription), values_other (Ne.symm hmute)]
      iterate 6 rw [values_other (Ne.symm hini)]
      rfl
    · rfl
  rw [pytestItems, values_append, values_append, hallureItems, hreportportalItems, List.append_nil,
    List.append_nil, values_operand]

/-- The Allure results are the one value of their option. -/
theorem values_alluredir {results : ReportPath} (henabled : settings.allureEnabled = true)
    (hresults : settings.allureResultsPath = some results) (operationId runId image stand scenario : Text) :
    values "--alluredir".toList (pytestItems settings operationId runId image stand scenario)
      = [(containerResults runId results).toText] := by
  have hreportportalItems :
      values "--alluredir".toList (reportportalItems settings operationId image stand scenario) = [] := by
    rw [reportportalItems]
    split <;> rfl
  have hallureItems : allureItems settings runId
      = [.option "--alluredir".toList (containerResults runId results).toText] := by
    simp only [allureItems, henabled, hresults]
  rw [pytestItems, values_append, values_append, hallureItems, hreportportalItems]
  rfl

/-- **The configuration of the session.** -/
theorem sessionConfig_pytestItems (base : SessionConfig) (settings : Settings)
    (operationId runId image stand scenario : Text) :
    sessionConfig base (pytestItems settings operationId runId image stand scenario)
      = { base with
          markerSequence := none
          scenario := some (toStr scenario)
          runId := some (toStr runId)
          artifactsRoot := some ⟨true, ["app".toList, "artifacts".toList]⟩ } := by
  have hvalue : ∀ name, name ∉ ["--alluredir".toList, "--rp-endpoint".toList, "--rp-project".toList,
      "--rp-launch".toList, "--rp-launch-description".toList, "--mute-logger".toList, "-o".toList] →
      value? name (pytestItems settings operationId runId image stand scenario) = _ := fun name h =>
    congrArg List.getLast? (values_pytestItems settings operationId runId image stand scenario h)
  rw [sessionConfig, hvalue "--marker-sequence".toList (by decide), hvalue "--scenario".toList (by decide),
    hvalue "--run-id".toList (by decide), hvalue "--artifacts-root".toList (by decide)]
  rfl

/-- In a container `/app/artifacts` is a directory, no link. -/
def MountPoint (trace : SessionTrace) : Prop :=
  ∀ place, (⟨.resolve ⟨true, ["app".toList, "artifacts".toList]⟩, .ok place⟩ : Sigma DirectoryCall.Answer) ∈ trace →
    place = ["app".toList, "artifacts".toList]

/-- **The session of a test run** works in the directory of its run id. -/
theorem published_session {base : SessionConfig} {operationId runId image stand scenario : Text}
    {trace : SessionTrace} (hmount : MountPoint trace)
    (h : Program.Runs (pytestConfigure
      (sessionConfig base (pytestItems settings operationId runId image stand scenario))) trace (.ok ())) :
    published trace = [["app".toList, "artifacts".toList, runId]] := by
  rw [sessionConfig_pytestItems] at h
  obtain ⟨root, name, hallocated⟩ := configure_completed h
  have hroot : root = ["app".toList, "artifacts".toList] := hmount root hallocated.resolved
  have hname : toStr name.text = toStr runId := toStr_of_checkRunId hallocated.named
  have htext : name.text = runId := List.map_injective_iff.mpr (fun _ _ => Char.toNat_inj.mp) hname
  rw [hallocated.published, hroot, htext]
  rfl

end Pytest

/-! ## The whole way -/

/-- **What Docker and pytest make of a request**: a container with the options of the settings, and in it a
session that is what the request says and the service has recorded. -/
structure RequestDispatched (settings : Settings) (request : RunTestsRequest) (state : OperationState)
    (run : ContainerRun) (items : List (Options.Item Text)) : Prop where
  image : run.image = request.image
  name : value? "--name".toList run.options = state.containerName
  /-- No option comes from anywhere else. -/
  options : run.options = dockerItems settings state.operationId
  stand : value? "--stand".toList items = some request.stand
  scenario : ∀ base, (sessionConfig base items).scenario = some (toStr request.scenario) ∧
    (sessionConfig base items).markerSequence = none
  inventory : ∃ text, value? "--inventory".toList items = some text ∧
    run.hosts (.ofText text) = [settings.inventoryFile]
  /-- A session that completes works in the directory in which the reports are looked for. -/
  directory : ∀ base trace, MountPoint trace →
    Program.Runs (pytestConfigure (sessionConfig base items)) trace (.ok ()) →
    ∃ runId place, state.runId = some runId ∧ published trace = [place] ∧
      run.hosts ⟨true, place⟩ = [settings.artifactsDirectory.child runId]

/-- **The Allure results** are published from where the session writes them. -/
def PublishesResults (docker : Convention Text) (settings : Settings) (state : OperationState) (run : ContainerRun)
    (items : List (Options.Item Text)) : Prop :=
  ∀ results, settings.allureEnabled = true → settings.allureResultsPath = some results →
    ∃ runId text place command publisher, state.runId = some runId ∧
      value? "--alluredir".toList items = some text ∧ run.hosts (.ofText text) = [place] ∧
      settings.publishAllure state.operationId (settings.artifactsDirectory.child runId) = .ok command ∧
      ContainerRun.read docker command = some publisher ∧ publisher.image = settings.allurePublisherImage ∧
      publisher.hosts ⟨true, ["results".toList]⟩ = [place]

section Whole

variable {docker pytest : Convention Text} {settings : Settings}

theorem hosts_alluredir (h : Deployed settings) {results : ReportPath}
    (hresults : settings.allureResultsPath = some results) {runId : Text}
    (hrun : runId ≠ [] ∧ '/' ∉ runId ∧ runId ≠ ".".toList) (operationId image : Text) (command : Command) :
    ContainerRun.hosts ⟨dockerItems settings operationId, image, command⟩
      (.ofText (containerResults runId results).toText)
      = [(settings.artifactsDirectory.child runId).join results.path] := by
  have hnormal : (containerResults runId results).Normal := by
    refine .join (.child ?_ hrun) (h.results results hresults).1
    intro part hpart
    fin_cases hpart <;> decide
  have hparts : containerResults runId results
      = ⟨true, "app".toList :: "artifacts".toList :: (runId :: results.path.parts)⟩ := by
    rw [containerResults, PurePath.join, results.relative]
    rfl
  rw [PurePath.ofText_toText hnormal (by rw [hparts]), hparts, hosts_artifacts h]
  rw [PurePath.join, PurePath.join, results.relative]
  simp [PurePath.child]

theorem hosts_inventoryFile (h : Deployed settings) (operationId image : Text) (command : Command) :
    ContainerRun.hosts ⟨dockerItems settings operationId, image, command⟩
      (.ofText ("/runtime/inventory/".toList ++ settings.inventoryFile.name)) = [settings.inventoryFile] := by
  have hlast : settings.inventoryFile.name = settings.inventoryFile.parts.getLast h.inventory_named := by
    rw [PurePath.name, List.getLastD_eq_getLast?, List.getLast?_eq_some_getLast h.inventory_named]
    rfl
  have hparts : settings.inventoryFile.parent.parts ++ [settings.inventoryFile.name]
      = settings.inventoryFile.parts := by
    rw [hlast]
    exact List.dropLast_concat_getLast h.inventory_named
  have hname := h.inventory.normal settings.inventoryFile.name (by
    rw [hlast]
    exact List.getLast_mem h.inventory_named)
  have htext : "/runtime/inventory/".toList ++ settings.inventoryFile.name
      = (⟨true, ["runtime".toList, "inventory".toList, settings.inventoryFile.name]⟩ : PurePath).toText := by
    simp [PurePath.toText, List.intercalate, List.intersperse]
  have hnormal : (⟨true, ["runtime".toList, "inventory".toList, settings.inventoryFile.name]⟩ :
      PurePath).Normal :=
    List.forall_mem_cons.mpr ⟨by decide, List.forall_mem_cons.mpr ⟨by decide, List.forall_mem_singleton.mpr hname⟩⟩
  rw [htext, PurePath.ofText_toText hnormal rfl, hosts_inventory h]
  have hjoin : settings.inventoryFile.parent.join ⟨false, [settings.inventoryFile.name]⟩
      = ⟨settings.inventoryFile.absolute, settings.inventoryFile.parent.parts ++ [settings.inventoryFile.name]⟩ :=
    rfl
  rw [hjoin, hparts]

/-- The state with which the operation of a request begins. -/
def startedState (request : RunTestsRequest) (operationId : Text) (time : ℕ) : OperationState :=
  OperationState.started operationId .runTests .running time (some operationId) (some request.image)
    (some request.stand) (some request.scenario) (some (Settings.runContainer operationId)) none

theorem dispatched_items (h : Deployed settings) (request : RunTestsRequest) (operationId : Text) (time : ℕ)
    (command : Command) :
    RequestDispatched settings request (startedState request operationId time)
      ⟨dockerItems settings operationId, request.image, command⟩
      (pytestItems settings operationId operationId request.image request.stand request.scenario) where
  image := rfl
  name := by
    have hvalues : values "--name".toList (dockerItems settings operationId)
        = [Settings.runContainer operationId] := by
      have hapiKey : values "--name".toList
          (if settings.reportportalEnabled then [Options.Item.option "--env".toList "RP_API_KEY".toList] else [])
          = [] := by
        split <;> rfl
      simp only [dockerItems, volume, values_append, hapiKey, List.append_nil,
        values_map_other (show "--env-file".toList ≠ "--name".toList by decide),
        values_map_other (show "--volume".toList ≠ "--name".toList by decide),
        values_map_other (show "--network".toList ≠ "--name".toList by decide),
        values_map_other (show "--device".toList ≠ "--name".toList by decide)]
      rfl
    rw [value?, hvalues]
    rfl
  options := rfl
  stand := by
    rw [value?, values_pytestItems settings _ _ _ _ _ (by decide)]
    rfl
  scenario base := by
    rw [sessionConfig_pytestItems]
    exact ⟨rfl, rfl⟩
  inventory := by
    refine ⟨"/runtime/inventory/".toList ++ settings.inventoryFile.name, ?_, hosts_inventoryFile h _ _ _⟩
    rw [value?, values_pytestItems settings _ _ _ _ _ (by decide)]
    rfl
  directory base trace hmount hruns :=
    ⟨operationId, _, rfl, published_session hmount hruns, hosts_artifacts h _ _ _ [operationId]⟩

theorem publishes_items (hdocker : DockerRun docker) (h : Deployed settings) (request : RunTestsRequest)
    {operationId : Text} (haccepted : runIdMatches operationId = true) (time : ℕ) (command : Command) :
    PublishesResults docker settings (startedState request operationId time)
      ⟨dockerItems settings operationId, request.image, command⟩
      (pytestItems settings operationId operationId request.image request.stand request.scenario) := by
  intro results henabled hresults
  have hchars := RunId.chars ⟨operationId, haccepted⟩
  have hcolon : ':' ∉ operationId :=
    not_mem_of_matchesName (Bool.and_eq_true_iff.mp haccepted).1 (by decide) (by decide)
  obtain ⟨hnormal, hparts⟩ := h.results results hresults
  refine ⟨operationId, _, _, _, _, rfl, ?_, hosts_alluredir h hresults hchars _ _ _,
    publishAllure_dispatch hresults operationId _,
    ContainerRun.read_line hdocker (isDockerOption_publishItems settings operationId _ results) h.publisher _, rfl,
    hosts_results h _ _ _ ((h.artifacts.child hchars hcolon).join results.relative hnormal hparts)⟩
  rw [value?, values_alluredir henabled hresults]
  rfl

/-- **A request is dispatched.**  For every accepted request and all settings of a deployment: Docker reads
from the vector of the operation the options of the settings, the image of the request and a command, in
which `pytest` reads the stand and the scenario of the request; the session works, on the host, in the
directory where the service looks for its reports, and its Allure results are those that are published. -/
theorem run_request_dispatched (hdocker : DockerRun docker) (hpytest : PytestArguments pytest)
    (hdeployed : Deployed settings) (request : RunTestsRequest)
    (himage : settings.validateRemoteImage request.image = .ok ()) (hex : OperationHex) (time : ℕ) :
    ∃ state command run items,
      Request.prepare settings (.run request.image request.stand request.scenario) hex time
        = .ok (state, executeTestRun settings state command) ∧
      ContainerRun.read docker command = some run ∧ pytestRead pytest run.command = some items ∧
      RequestDispatched settings request state run items ∧ PublishesResults docker settings state run items := by
  have haccepted := runIdMatches_newId request.image request.stand request.scenario hex
  have hid : ((Request.run request.image request.stand request.scenario).newId hex).head? ≠ some '-' :=
    head_append_of_head (c := 'r') rfl (by decide)
  have hvector := runTests_dispatch himage
    ((Request.run request.image request.stand request.scenario).newId hex)
    ((Request.run request.image request.stand request.scenario).newId hex) request.stand request.scenario
  refine ⟨startedState request ((Request.run request.image request.stand request.scenario).newId hex) time,
    _, _, _, ?_,
    ContainerRun.read_line hdocker (isDockerOption_dockerItems settings _)
      (plain_of_validateRemoteImage himage).no_hyphen _,
    pytestRead_line hpytest (isPytestItem_pytestItems hdeployed hid hid request.plain_stand.no_hyphen
      request.plain_scenario.no_hyphen),
    dispatched_items hdeployed request _ time _, publishes_items hdocker hdeployed request haccepted time _⟩
  simp only [Request.prepare, hvector]
  rfl

end Whole

/-! ## A deployment with both reports -/

section Sample

/-- A service that allows the images of one registry, publishes to Allure and reports to ReportPortal. -/
def reportingSettings : Settings :=
  { Settings.default with
    allowedImagePrefixes := ["registry/".toList]
    knownHostsFile := some ⟨true, ["etc".toList, "known_hosts".toList]⟩
    allureEnabled := true
    allureAccessToken := some "token".toList
    reportportalEnabled := true
    reportportalEndpoint := some "https://reports.example/".toList
    reportportalPublicUrl := some "https://reports.example/".toList
    reportportalProject := "hardware".toList
    reportportalApiKey := some "key".toList
    allure_complete := fun _ => ⟨by decide, rfl⟩
    reportportal_complete := fun _ => ⟨rfl, rfl, by decide, by decide⟩ }

theorem deployed_reportingSettings : Deployed reportingSettings where
  inventory := ⟨rfl, by decide, by decide⟩
  inventory_named := by decide
  artifacts := ⟨rfl, by decide, by decide⟩
  knownHosts path hpath := by
    cases hpath
    exact ⟨rfl, by decide, by decide⟩
  source := ⟨rfl, by decide, by decide⟩
  results results hresults := by
    cases hresults
    exact ⟨by decide, by decide⟩
  repository := by decide
  publisher := by decide
  endpoint url hurl := by
    cases hurl
    decide
  project := by decide

theorem run_request_dispatched_sample : ∃ state command run items,
    Request.prepare reportingSettings (.run smokeRequest.image smokeRequest.stand smokeRequest.scenario) hexA 0
      = .ok (state, executeTestRun reportingSettings state command) ∧
    ContainerRun.read dockerCli command = some run ∧ pytestRead pytestCli run.command = some items ∧
    RequestDispatched reportingSettings smokeRequest state run items ∧
    PublishesResults dockerCli reportingSettings state run items :=
  run_request_dispatched dockerRun_dockerCli pytestArguments_pytestCli deployed_reportingSettings smokeRequest
    (by decide) hexA 0

end Sample

end HardwareTest.Runner
