import Mandala.Data.Json
import Mandala.Deploy.Process
import Mandala.Runner.Events

/-!
# The data of a native deploy run

A plan fixes what a run may do, the batch build adds the profiles it produced,
and every host ends with one result.
-/

namespace Mandala.Engine

open Mandala.Data Mandala.Deploy Mandala.Events

/-- A native deploy's preflight result. -/
structure DeployPlan where
  /-- Canonical spelling of the complete operator selection. -/
  limit : String
  /-- Deployable members. -/
  targets : List String
  /-- Selected members without deploy-rs. -/
  skipped : List String
  /-- Flattened settings of the targets. -/
  settings : BTreeMap Json
  dryActivate : Bool
  boot : Bool
  haltOnBuildFailure : Bool
  throttle : Int

structure RegisteredDeployRun where
  runId : String
  path : String
  plan : DeployPlan

/-- What the batch build produced: a store path or a failure per target. -/
structure BuiltProfiles where
  paths : BTreeMap String
  failures : BTreeMap String

inductive ActivationMode where
  | switch
  | boot
  deriving DecidableEq, Repr

structure FlattenedDeploySettings where
  activation : ActivationMode
  hostname : String
  sshUser : String
  sshPort : UInt16
  identityFile : Option String
  sshOpts : List String
  autoRollback : Bool
  fastConnection : Bool
  magicRollback : Option Bool
  confirmTimeout : Option UInt16
  activationTimeout : Option UInt16
  tempPath : Option String
  sudoCommand : Option String
  user : Option String
  deriving DecidableEq, Repr

/-- `FlattenedDeploySettings::generic`. -/
def FlattenedDeploySettings.generic (settings : FlattenedDeploySettings) :
    GenericSettings :=
  { sshUser := some settings.sshUser
    sshPort := some settings.sshPort
    identityFile := settings.identityFile
    user := settings.user
    sshOpts := settings.sshOpts
    fastConnection := some settings.fastConnection
    autoRollback := some settings.autoRollback
    confirmTimeout := settings.confirmTimeout
    activationTimeout := settings.activationTimeout
    tempPath := settings.tempPath
    magicRollback := settings.magicRollback
    sudoCommand := settings.sudoCommand
    remoteBuild := none
    interactiveSudo := none }

structure HostDeployResult where
  host : String
  state : HostState
  error : Option String
  deriving DecidableEq, Repr

/-- The programs a run starts; the defaults are found on the search path. -/
structure DeployPrograms where
  nix : Option String
  ssh : Option String
  environment : List (String × String)
  deriving DecidableEq, Repr

/-- The deployment of one prebuilt system profile. -/
def hostDeployment (host : String) (settings : FlattenedDeploySettings)
    (path : String) (programs : DeployPrograms) : DeployData :=
  DeployData.make .empty
    { genericSettings := settings.generic, hostname := settings.hostname }
    host
    { profileSettings := { path, profilePath := none }
      genericSettings := .empty }
    "system"
    { hostname := none
      nixProgram := programs.nix
      sshProgram := programs.ssh
      environment := programs.environment }

@[simp]
theorem closure_hostDeployment (host : String)
    (settings : FlattenedDeploySettings) (path : String)
    (programs : DeployPrograms) :
    (hostDeployment host settings path programs).closure = path := rfl

/-- A member's own settings are used as they are. -/
@[simp]
theorem mergedSettings_hostDeployment (host : String)
    (settings : FlattenedDeploySettings) (path : String)
    (programs : DeployPrograms) :
    (hostDeployment host settings path programs).mergedSettings =
      settings.generic := by
  simp [hostDeployment, DeployData.make]

/-! ## A run of one member -/

/-- A member that is switched live unless its generation refuses. -/
def webSettings : FlattenedDeploySettings :=
  { activation := .switch
    hostname := "web.example.test"
    sshUser := "root"
    sshPort := 22
    identityFile := none
    sshOpts := []
    autoRollback := true
    fastConnection := false
    magicRollback := none
    confirmTimeout := none
    activationTimeout := none
    tempPath := none
    sudoCommand := none
    user := none }

def webSettingsValue : Json :=
  .object
    [("activation", .string "switch"), ("hostname", .string "web.example.test"),
      ("sshUser", .string "root"), ("sshPort", .int 22),
      ("autoRollback", .bool true), ("fastConnection", .bool false)]

def webRun : RegisteredDeployRun :=
  { runId := "run"
    path := "/runs/run"
    plan :=
      { limit := "web"
        targets := ["web"]
        skipped := []
        settings := (∅ : BTreeMap Json).insert "web" webSettingsValue
        dryActivate := false
        boot := false
        haltOnBuildFailure := true
        throttle := 4 } }

def webBuilt : BuiltProfiles :=
  { paths := (∅ : BTreeMap String).insert "web" "/nix/store/abc-system"
    failures := ∅ }

def noPrograms : DeployPrograms :=
  { nix := none, ssh := none, environment := [] }

end Mandala.Engine
