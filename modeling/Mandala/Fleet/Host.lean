import Mandala.Nix.Attrs
import Mandala.Secrets.Declaration

/-!
# A validated member

A member is a record of the member schema: its name is a host label, its
connection has defaults, and each of its deploy settings is authored or null.
Every fan-out surface derives its groups from it by one function.
-/

namespace Mandala.Fleet

open Mandala.Data Mandala.Nix Mandala.Ordering

/-! ## Settings -/

/-- The value of a deploy setting.  Every number among them is a port or a
timeout of sixteen bits, and none of them is an attribute set. -/
inductive Setting where
  | null
  | text (value : String)
  | number (value : UInt16)
  | flag (value : Bool)
  | texts (values : List String)
  deriving DecidableEq, Repr

namespace Setting

def value : Setting → Json
  | null => .null
  | text value => .string value
  | number value => .int value.toNat
  | flag value => .bool value
  | texts values => .array (values.map .string)

/-- An option of type `nullOr`. -/
def ofOption {A : Type} (kind : A → Setting) : Option A → Setting
  | some value => kind value
  | none => null

end Setting

/-- `strMatching "/.*"`. -/
structure AbsolutePath where
  path : String
  rooted : path.toList.head? = some '/'

/-- The settings a fleet, a group and a member can all author. -/
structure DeploySettings where
  hostname : Option String
  sshUser : Option String
  sshPort : Option UInt16
  identityFile : Option AbsolutePath
  autoRollback : Option Bool
  fastConnection : Option Bool
  magicRollback : Option Bool
  confirmTimeout : Option UInt16
  activationTimeout : Option UInt16
  tempPath : Option String
  sudoCommand : Option String
  user : Option String
  sshOpts : List String

namespace DeploySettings

def unset : DeploySettings :=
  { hostname := none, sshUser := none, sshPort := none, identityFile := none
    autoRollback := none, fastConnection := none, magicRollback := none
    confirmTimeout := none, activationTimeout := none, tempPath := none
    sudoCommand := none, user := none, sshOpts := [] }

def fields (settings : DeploySettings) : List (String × Setting) :=
  [("hostname", .ofOption .text settings.hostname),
    ("sshUser", .ofOption .text settings.sshUser),
    ("sshPort", .ofOption .number settings.sshPort),
    ("identityFile",
      .ofOption .text (settings.identityFile.map AbsolutePath.path)),
    ("autoRollback", .ofOption .flag settings.autoRollback),
    ("fastConnection", .ofOption .flag settings.fastConnection),
    ("magicRollback", .ofOption .flag settings.magicRollback),
    ("confirmTimeout", .ofOption .number settings.confirmTimeout),
    ("activationTimeout", .ofOption .number settings.activationTimeout),
    ("tempPath", .ofOption .text settings.tempPath),
    ("sudo", .ofOption .text settings.sudoCommand),
    ("user", .ofOption .text settings.user),
    ("sshOpts", .texts settings.sshOpts)]

def attrs (settings : DeploySettings) : Attrs Setting :=
  listToAttrs settings.fields

end DeploySettings

/-! ## The member schema -/

inductive Activation where
  | switch
  | boot
  deriving DecidableEq, Repr

def Activation.name : Activation → String
  | switch => "switch"
  | boot => "boot"

/-- `deployment.deployRs`. -/
structure DeployRs where
  enable : Bool
  activation : Activation
  settings : DeploySettings

def DeployRs.attrs (deployRs : DeployRs) : Attrs Setting :=
  listToAttrs
    (("enable", .flag deployRs.enable) ::
      ("activation", .text deployRs.activation.name) ::
        deployRs.settings.fields)

/-- `deployment.ssh`. -/
structure Ssh where
  host : String
  user : String
  port : UInt16

structure Build where
  system : String
  buildPlatform : Option String

def isLabelEnd (character : Char) : Bool := character.isAlphanum

def isLabelChar (character : Char) : Bool :=
  character.isAlphanum || character = '-'

/-- `[A-Za-z0-9]([A-Za-z0-9-]{0,61}[A-Za-z0-9])?`. -/
def isHostLabel (name : String) : Bool :=
  match name.toList with
  | [] => false
  | first :: rest =>
      isLabelEnd first &&
        match rest.getLast? with
        | none => true
        | some last =>
            isLabelEnd last && rest.dropLast.all isLabelChar &&
              rest.dropLast.length ≤ 61

/-- `lib.toLower`. -/
def toLower (text : String) : String :=
  String.ofList (text.toList.map Char.toLower)

structure HostName where
  text : String
  label : isHostLabel text
  notAll : toLower text ≠ "all"

/-- A member, with what its groups and its sops identity are derived from. -/
structure Host extends Secrets.Host where
  name : HostName
  domain : Option String
  location : Option String
  description : Option String
  build : Option Build
  networks : List Json
  ssh : Ssh
  deployRs : DeployRs
  ansibleEnable : Bool
  ansibleVars : Attrs Json

abbrev Hosts := Attrs Host

namespace Host

def fqdn (host : Host) : String :=
  match host.domain with
  | some domain => host.name.text ++ "." ++ domain
  | none => host.name.text

/-! ## Its JSON -/

def textOrNull : Option String → Json
  | some text => .string text
  | none => .null

def textsValue (texts : List String) : Json := .array (texts.map .string)

def sshValue (ssh : Ssh) : Json :=
  .object [("host", .string ssh.host), ("port", .int ssh.port.toNat),
    ("user", .string ssh.user)]

def deployRsValue (deployRs : DeployRs) : Json :=
  toObject (deployRs.attrs.map fun _ setting => setting.value)

def deploymentValue (host : Host) : Json :=
  .object
    [("ansible", .object
        [("enable", .bool host.ansibleEnable),
          ("groups", textsValue host.deployment.ansible.groups),
          ("vars", toObject host.ansibleVars)]),
      ("deployRs", deployRsValue host.deployRs),
      ("sops", .object
        [("recipient", textOrNull host.deployment.sops.recipient)]),
      ("ssh", sshValue host.ssh)]

def buildValue : Option Build → Json
  | some build =>
      .object [("buildPlatform", textOrNull build.buildPlatform),
        ("system", .string build.system)]
  | none => .null

def fields (host : Host) : List (String × Json) :=
  [("architecture", .string host.architecture),
    ("build", buildValue host.build),
    ("category", .string host.category),
    ("deployment", host.deploymentValue),
    ("description", textOrNull host.description),
    ("domain", textOrNull host.domain),
    ("fqdn", .string host.fqdn),
    ("location", textOrNull host.location),
    ("name", .string host.name.text),
    ("networks", .array host.networks),
    ("platform", .string host.platform),
    ("role", textOrNull host.role),
    ("tags", textsValue host.tags)]

end Host

/-! ## Groups -/

/-- Characters are taken byte by byte, and every byte that may not stand in a
group name becomes an underscore. -/
def sanitizeChar (character : Char) : List Char :=
  if character.isAlphanum || character = '_' then [character]
  else List.replicate character.utf8Size '_'

def sanitizeGroupName (name : String) : String :=
  String.ofList (name.toList.flatMap sanitizeChar)

/-- The groups of a member in the spelling every fan-out surface uses. -/
def ansibleGroupsFor (host : Host) : List String :=
  unique ((Secrets.groupsFor host.toHost).map sanitizeGroupName)

example : sanitizeGroupName "edge-compute" = "edge_compute" := by decide

end Mandala.Fleet
