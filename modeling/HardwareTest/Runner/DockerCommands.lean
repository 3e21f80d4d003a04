import HardwareTest.Runner.Settings

/-!
# The Docker commands

`DockerCommandBuilder` turns the settings and a request into argument vectors.  `containerOf` is the
container that a command runs in the foreground, as `docker stop` names it.
-/

namespace HardwareTest.Runner

open HardwareTest.Python

abbrev Command := List Text

/-- An environment given to a subprocess on top of the service's own. -/
abbrev Environment := Option (List (Text × Text))

/-- `IMAGE_REFERENCE_PATTERN.fullmatch`. -/
def imageReferenceMatches (reference : Text) : Bool :=
  let alphanumeric (c : Char) : Bool :=
    let n := c.toNat
    decide ((0x30 ≤ n ∧ n ≤ 0x39) ∨ (0x41 ≤ n ∧ n ≤ 0x5A) ∨ (0x61 ≤ n ∧ n ≤ 0x7A))
  match reference with
  | [] => false
  | c :: rest => alphanumeric c && rest.all fun d => alphanumeric d || "._/:@+-".toList.contains d

namespace Settings

variable (settings : Settings)

/-- `validate_remote_image`. -/
def validateRemoteImage (reference : Text) : Except String Unit :=
  if !imageReferenceMatches reference then .error "invalid image reference"
  else if !settings.allowedImagePrefixes.any fun start => start.isPrefixOf reference then
    .error "image reference is not allowed"
  else .ok ()

def localBuildReference (operationId : Text) : Text :=
  "local/hardware-tests:".toList ++ operationId

def buildImage (operationId : Text) : Command :=
  let arguments : Command :=
    ["docker", "build", "--file", settings.frameworkDockerfile.toText, "--tag",
      localBuildReference operationId]
  let allure : Command := if settings.allureEnabled then ["--build-arg", "INSTALL_ALLURE=true"] else []
  let reportportal : Command :=
    if settings.reportportalEnabled then ["--build-arg", "INSTALL_REPORTPORTAL=true"] else []
  arguments ++ allure ++ reportportal ++ [settings.frameworkSource.toText]

def pullImage (reference : Text) : Except String Command := do
  settings.validateRemoteImage reference
  return ["docker", "pull", reference]

def inspectImage (reference : Text) : Command :=
  ["docker", "image", "inspect", "--format", "\x7b\x7b.Id\x7d\x7d", reference]

/-- The container of a test run. -/
def runContainer (operationId : Text) : Text := "hardware-test-run-".toList ++ operationId

/-- The container of a publication. -/
def publisherContainer (operationId : Text) : Text := "allure-publish-".toList ++ operationId

/-- The options of `pytest` for ReportPortal. -/
def reportportalArguments (operationId image stand scenario : Text) : Command :=
  if settings.reportportalEnabled then
    ["--reportportal", "--rp-endpoint", settings.reportportalEndpoint.getD "None", "--rp-project",
      settings.reportportalProject, "--rp-launch", operationId, "--rp-launch-description",
      "stand=".toList ++ stand ++ "; scenario=".toList ++ scenario ++ "; image=".toList ++ image,
      "--mute-logger", "pytest_reportportal.service", "-o", "rp_log_level=INFO", "-o",
      "rp_client_type=SYNC", "-o", "rp_connect_timeout=5", "-o", "rp_read_timeout=10", "-o",
      "rp_api_retries=0", "-o",
      "rp_launch_attributes=stand:".toList ++ stand ++ " scenario:".toList ++ scenario
        ++ " operation:".toList ++ operationId]
  else []

/-- The option of `pytest` for Allure. -/
def allureArguments (runId : Text) : Except String Command :=
  if settings.allureEnabled then
    match settings.allureResultsPath with
    | none => .error "Allure results path is unavailable"
    | some results =>
      .ok ["--alluredir", (((PurePath.mk true ["app", "artifacts"]).child runId).join results.path).toText]
  else .ok []

def runTests (operationId runId image stand scenario : Text) : Except String Command := do
  settings.validateRemoteImage image
  let head : Command :=
    ["docker", "run", "--rm", "--name", runContainer operationId, "--label",
      "test-runner.operation-id=".toList ++ operationId, "--pull", "never", "--env",
      "AGENT_NO_ANALYTICS=1", "--volume",
      settings.inventoryFile.parent.toText ++ ":/runtime/inventory:ro".toList, "--volume",
      settings.artifactsDirectory.toText ++ ":/app/artifacts".toList]
  let envFile : Command := match settings.envFile with
    | some path => ["--env-file", path.toText]
    | none => []
  let knownHosts : Command := match settings.knownHostsFile with
    | some path => ["--volume", path.toText ++ ":/root/.ssh/known_hosts:ro".toList]
    | none => []
  let network : Command := match settings.dockerNetwork with
    | some network => ["--network", network]
    | none => []
  let devices : Command := settings.dockerDevices.flatMap fun device => ["--device".toList, device]
  let apiKey : Command := if settings.reportportalEnabled then ["--env", "RP_API_KEY"] else []
  let pytest : Command :=
    [image, "uv", "run", "pytest", "tests/hardware", "--run-id", runId, "--artifacts-root",
      "/app/artifacts", "--scenario", scenario, "--inventory",
      "/runtime/inventory/".toList ++ settings.inventoryFile.name, "--stand", stand]
  let allure ← settings.allureArguments runId
  return head ++ envFile ++ knownHosts ++ network ++ devices ++ apiKey ++ pytest ++ allure
    ++ settings.reportportalArguments operationId image stand scenario

def publishAllure (operationId : Text) (runDirectory : PurePath) : Except String Command :=
  match settings.allureResultsPath with
  | none => .error "Allure results path is unavailable"
  | some results =>
    let repositoryDirectory := "/workspace/".toList ++ settings.allureRepository
    .ok ["docker", "run", "--rm", "--name", publisherContainer operationId, "--env",
      "ALLURE_ACCESS_TOKEN", "--env", "GIT_CONFIG_COUNT=1", "--env", "GIT_CONFIG_KEY_0=safe.directory",
      "--env", "GIT_CONFIG_VALUE_0=".toList ++ repositoryDirectory, "--volume",
      settings.frameworkSource.toText ++ ":".toList ++ repositoryDirectory ++ ":ro".toList, "--volume",
      (runDirectory.join results.path).toText ++ ":/results:ro".toList, "--workdir", repositoryDirectory,
      settings.allurePublisherImage, "generate", "/results", "--config", "/opt/allure/allurerc.mjs"]

end Settings

/-- The container that a command runs in the foreground. -/
def containerOf : Command → Option Text
  | docker :: run :: rm :: name :: container :: _ =>
    if docker = "docker".toList ∧ run = "run".toList ∧ rm = "--rm".toList ∧ name = "--name".toList then
      some container
    else none
  | _ => none

/-- Preparing an image runs no container. -/
theorem containerOf_buildImage (settings : Settings) (operationId : Text) :
    containerOf (settings.buildImage operationId) = none := rfl

theorem containerOf_pullImage {settings : Settings} {reference : Text} {command : Command}
    (h : settings.pullImage reference = .ok command) : containerOf command = none := by
  unfold Settings.pullImage at h
  cases hvalid : settings.validateRemoteImage reference with
  | error e =>
    rw [hvalid] at h
    cases h
  | ok u =>
    rw [hvalid] at h
    cases h
    rfl

theorem containerOf_inspectImage (reference : Text) :
    containerOf (Settings.inspectImage reference) = none := rfl

theorem containerOf_runTests {settings : Settings} {operationId runId image stand scenario : Text}
    {command : Command} (h : settings.runTests operationId runId image stand scenario = .ok command) :
    containerOf command = some (Settings.runContainer operationId) := by
  unfold Settings.runTests at h
  cases hvalid : settings.validateRemoteImage image with
  | error e =>
    rw [hvalid] at h
    cases h
  | ok u =>
    rw [hvalid] at h
    change Except.bind _ _ = _ at h
    cases hallure : settings.allureArguments runId with
    | error e =>
      rw [hallure] at h
      cases h
    | ok allure =>
      rw [hallure] at h
      cases h
      rfl

theorem containerOf_publishAllure {settings : Settings} {operationId : Text} {runDirectory : PurePath}
    {command : Command} (h : settings.publishAllure operationId runDirectory = .ok command) :
    containerOf command = some (Settings.publisherContainer operationId) := by
  unfold Settings.publishAllure at h
  split at h
  · cases h
  · cases h
    rfl

end HardwareTest.Runner
