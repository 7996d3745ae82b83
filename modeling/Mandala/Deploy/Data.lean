import Mandala.Core.Text

/-!
# Deployment data

The settings of one deployment, how inner settings fall back to outer ones, and
the connection data the copy and activation commands are built from.
-/

namespace Mandala.Deploy

open Mandala.Text

structure GenericSettings where
  sshUser : Option String
  sshPort : Option UInt16
  identityFile : Option String
  user : Option String
  sshOpts : List String
  fastConnection : Option Bool
  autoRollback : Option Bool
  confirmTimeout : Option UInt16
  activationTimeout : Option UInt16
  tempPath : Option String
  magicRollback : Option Bool
  sudoCommand : Option String
  remoteBuild : Option Bool
  interactiveSudo : Option Bool
  deriving DecidableEq, Repr

namespace GenericSettings

/-- `GenericSettings::default`. -/
def empty : GenericSettings :=
  { sshUser := none, sshPort := none, identityFile := none, user := none
    sshOpts := [], fastConnection := none, autoRollback := none
    confirmTimeout := none, activationTimeout := none, tempPath := none
    magicRollback := none, sudoCommand := none, remoteBuild := none
    interactiveSudo := none }

/-- The inner value wins for scalars, and its ssh options come first. -/
def withFallback (inner outer : GenericSettings) : GenericSettings :=
  { sshUser := inner.sshUser.or outer.sshUser
    sshPort := inner.sshPort.or outer.sshPort
    identityFile := inner.identityFile.or outer.identityFile
    user := inner.user.or outer.user
    sshOpts := inner.sshOpts ++ outer.sshOpts
    fastConnection := inner.fastConnection.or outer.fastConnection
    autoRollback := inner.autoRollback.or outer.autoRollback
    confirmTimeout := inner.confirmTimeout.or outer.confirmTimeout
    activationTimeout := inner.activationTimeout.or outer.activationTimeout
    tempPath := inner.tempPath.or outer.tempPath
    magicRollback := inner.magicRollback.or outer.magicRollback
    sudoCommand := inner.sudoCommand.or outer.sudoCommand
    remoteBuild := inner.remoteBuild.or outer.remoteBuild
    interactiveSudo := inner.interactiveSudo.or outer.interactiveSudo }

@[simp]
theorem withFallback_empty (settings : GenericSettings) :
    settings.withFallback empty = settings := by
  simp [withFallback, empty]

@[simp]
theorem empty_withFallback (settings : GenericSettings) :
    empty.withFallback settings = settings := by
  simp [withFallback, empty]

end GenericSettings

structure ProfileSettings where
  path : String
  profilePath : Option String
  deriving DecidableEq, Repr

structure Profile where
  profileSettings : ProfileSettings
  genericSettings : GenericSettings
  deriving DecidableEq, Repr

/-- A node, with the settings its deployment reads. -/
structure Node where
  genericSettings : GenericSettings
  hostname : String
  deriving DecidableEq, Repr

structure CmdOverrides where
  hostname : Option String
  nixProgram : Option String
  sshProgram : Option String
  environment : List (String × String)
  deriving DecidableEq, Repr

structure DeployData where
  nodeName : String
  node : Node
  profileName : String
  profile : Profile
  cmdOverrides : CmdOverrides
  mergedSettings : GenericSettings
  deriving DecidableEq, Repr

structure DeployDefs where
  sshUser : String
  profileUser : String
  sudoCommand : Option String
  deriving DecidableEq, Repr

inductive ProfileInfo where
  | profilePath (profilePath : String)
  | profileUserAndName (profileUser profileName : String)
  deriving DecidableEq, Repr

inductive DeployDataDefsError where
  | missingSshUser (profileName nodeName : String)
  | noProfileUser (profileName nodeName : String)
  deriving DecidableEq, Repr

def DeployDataDefsError.message : DeployDataDefsError → String
  | missingSshUser profileName nodeName =>
      "`sshUser` is not set for profile " ++ profileName ++ " of node " ++
        nodeName
  | noProfileUser profileName nodeName =>
      "Neither `user` nor `sshUser` are set for profile " ++ profileName ++
        " of node " ++ nodeName

/-- Arguments a shell takes as one word are left bare, others are quoted. -/
def shellWord (value : String) : String :=
  let bare := value.toList.all fun character =>
    character.isAlphanum || character ∈ ['_', '-', '.', '/', ':', '=', '@']
  if value ≠ "" ∧ bare then value
  else
    let quoted := value.toList.flatMap fun character =>
      if character = '\'' then "'\"'\"'".toList else [character]
    "'" ++ String.ofList quoted ++ "'"

namespace DeployData

def make (topSettings : GenericSettings) (node : Node) (nodeName : String)
    (profile : Profile) (profileName : String) (cmdOverrides : CmdOverrides) :
    DeployData :=
  { nodeName, node, profileName, profile, cmdOverrides
    mergedSettings := (profile.genericSettings.withFallback
      node.genericSettings).withFallback topSettings }

def profileUser (data : DeployData) : Except DeployDataDefsError String :=
  match data.mergedSettings.user.or data.mergedSettings.sshUser with
  | some user => .ok user
  | none => .error (.noProfileUser data.profileName data.nodeName)

/-- `DeployData::defs`: commands run through sudo when the target user is not
the login user. -/
def defs (data : DeployData) : Except DeployDataDefsError DeployDefs :=
  match data.mergedSettings.sshUser with
  | none => .error (.missingSshUser data.profileName data.nodeName)
  | some sshUser => do
      let profileUser ← data.profileUser
      let sudoCommand := (data.mergedSettings.user.filter (· ≠ sshUser)).map
        fun user =>
          data.mergedSettings.sudoCommand.getD "sudo -u" ++ " " ++ user
      return { sshUser, profileUser, sudoCommand }

def profileInfo (data : DeployData) : Except DeployDataDefsError ProfileInfo :=
  match data.profile.profileSettings.profilePath with
  | some profilePath => .ok (.profilePath profilePath)
  | none => do
      let profileUser ← data.profileUser
      return .profileUserAndName profileUser data.profileName

/-- Connection scalars come before free-form options, so the declared endpoint
settings win. -/
def sshArgs (data : DeployData) : List String :=
  ["-p", toString (data.mergedSettings.sshPort.getD 22)] ++
    (match data.mergedSettings.identityFile with
      | some identityFile =>
          ["-i", identityFile, "-o", "IdentitiesOnly=yes", "-o",
            "IdentityAgent=none"]
      | none => []) ++
    data.mergedSettings.sshOpts

def nixSshOpts (data : DeployData) : String :=
  " ".intercalate (data.sshArgs.map shellWord)

/-- The hostname both the copy and the remote commands connect to. -/
def hostname (data : DeployData) : String :=
  data.cmdOverrides.hostname.getD data.node.hostname

/-- The store path of the profile being deployed. -/
def closure (data : DeployData) : String := data.profile.profileSettings.path

/-- Deployment data with a login user always has its definitions. -/
theorem defs_of_sshUser {data : DeployData} {sshUser : String}
    (huser : data.mergedSettings.sshUser = some sshUser) :
    ∃ defs, data.defs = .ok defs := by
  simp only [defs, huser, profileUser]
  cases data.mergedSettings.user <;> exact ⟨_, rfl⟩

end DeployData

def remoteAddress (data : DeployData) (defs : DeployDefs) : String :=
  defs.sshUser ++ "@" ++ data.hostname

/-- The profile link of a profile. -/
def profilePath : ProfileInfo → String
  | .profilePath profilePath => profilePath
  | .profileUserAndName profileUser profileName =>
      if profileUser = "root" ∧ profileName = "system" then
        "/nix/var/nix/profiles/system"
      else
        "/nix/var/nix/profiles/per-user/" ++ profileUser ++ "/" ++ profileName

/-- `Path::join` with a relative name. -/
def joinPath (base name : String) : String :=
  if base = "" then name
  else if base.toList.getLast? = some '/' then base ++ name
  else base ++ "/" ++ name

/-- The part of a store path in front of its first dash. -/
def storeHash (closure : String) : String :=
  let root := "/nix/store/".toList
  let name := closure.toList
  let name := if root <+: name then name.drop root.length else name
  String.ofList (name.takeWhile (· ≠ '-'))

def makeLockPath (tempPath closure : String) : String :=
  joinPath tempPath ("deploy-rs-canary-" ++ storeHash closure)

example : makeLockPath "/tmp" "/nix/store/abc-system" =
    "/tmp/deploy-rs-canary-abc" := by
  decide

/-- A system profile deployed as root, with every setting left open. -/
def rootDeployment : DeployData :=
  DeployData.make .empty
    { genericSettings := { GenericSettings.empty with sshUser := some "root" }
      hostname := "web.example.test" }
    "web"
    { profileSettings :=
        { path := "/nix/store/abc-system", profilePath := none }
      genericSettings := .empty }
    "system"
    { hostname := none, nixProgram := none, sshProgram := none
      environment := [] }

def rootDefs : DeployDefs :=
  { sshUser := "root", profileUser := "root", sudoCommand := none }

example : rootDeployment.defs.toOption = some rootDefs := by decide

end Mandala.Deploy
