import Mandala.Engine.FlattenedSettings

/-!
# One connection for three consumers

A flattened record is lowered three times: to the ssh options of a deploy-rs
node, to the arguments of the engine's own ssh, and to the variables an Ansible
inventory gives a host.  All three reach the same endpoint, as the same user,
with the same key.
-/

namespace Mandala.Fleet

open Mandala.Data Mandala.Nix Mandala.Deploy
open Engine (FlattenedDeploySettings DeployPrograms Reads hostDeployment
  recordValue)

/-! ## deploy-rs nodes -/

/-- `toString`. -/
def Setting.toText : Setting → String
  | null => ""
  | text value => value
  | number value => toString value
  | flag value => if value then "1" else ""
  | texts values => " ".intercalate values

/-- Port and identity come first: ssh takes the first value it is given. -/
def connectionSshOpts (sshPort identityFile : Setting) : List String :=
  ["-p", sshPort.toText] ++
    if identityFile ≠ .null then
      ["-i", identityFile.toText, "-o", "IdentitiesOnly=yes", "-o",
        "IdentityAgent=none"]
    else []

/-- `nodeSettings` of `mkNode`; a record without a port fails evaluation. -/
def nodeSettings (settings : Attrs Setting) : Option (Attrs Setting) :=
  settings["sshPort"]?.map fun sshPort =>
    let identityFile := settings["identityFile"]?.getD .null
    removeAttrs settings ["activation", "sshPort", "identityFile", "sshOpts"] ∪
      listToAttrs
        [("sshOpts",
          .texts (connectionSshOpts sshPort identityFile ++
            sshOptsOf settings))]

/-! ## Ansible host variables -/

structure InventoryOptions where
  extraHostvars : String → Attrs Json
  deploySettings : Attrs (Attrs Setting)
  pythonInterpreter : Option String
  guardGroup : Option String

def isNixos (host : Host) : Bool :=
  host.platform = "nixos" || host.build.isSome

def needsBecome (targetUser sshUser : Setting) : Bool :=
  targetUser ≠ .null && targetUser ≠ sshUser

def becomeMethod (targetUser sshUser sudoCommand : Setting) : Option String :=
  if !needsBecome targetUser sshUser then none
  else if sudoCommand = .null ∨ sudoCommand = .text "sudo -u" then some "sudo"
  else if sudoCommand = .text "doas -u" then some "doas"
  else none

def becomeVars (targetUser : Setting) : Option String → Attrs Json
  | some method =>
      listToAttrs [("ansible_become", .bool true),
        ("ansible_become_user", targetUser.value),
        ("ansible_become_method", .string method)]
  | none => ∅

def interpreterVars (host : Host) : Option String → Attrs Json
  | some interpreter =>
      optionalAttrs (isNixos host)
        (listToAttrs [("ansible_python_interpreter", .string interpreter)])
  | none => ∅

/-- How Ansible reaches a member. -/
def connectionVars (pythonInterpreter : Option String) (host : Host)
    (hostname sshUser sshPort identityFile targetUser : Setting) :
    Attrs Json :=
  listToAttrs [("ansible_host", hostname.value),
      ("ansible_user", sshUser.value)] ∪
    interpreterVars host pythonInterpreter ∪
    optionalAttrs (sshPort ≠ .number 22)
      (listToAttrs [("ansible_port", sshPort.value)]) ∪
    optionalAttrs (identityFile ≠ .null)
      (listToAttrs
        [("ansible_ssh_private_key_file", identityFile.value),
          ("ansible_ssh_common_args",
            .string "-o IdentitiesOnly=yes -o IdentityAgent=none")]) ∪
    optionalAttrs (targetUser ≠ .null)
      (listToAttrs [("mandala_deploy_target_user", targetUser.value)])

def sudoVars (sudoCommand : Setting) : Attrs Json :=
  optionalAttrs (sudoCommand ≠ .null)
    (listToAttrs [("mandala_deploy_sudo", sudoCommand.value)])

/-- The variables in front of the hooks of a consumer and a member. -/
def engineVars (pythonInterpreter : Option String) (host : Host)
    (deploy : Attrs Setting) : Attrs Json :=
  let hostname := deploy["hostname"]?.getD (.text host.ssh.host)
  let sshUser := deploy["sshUser"]?.getD (.text host.ssh.user)
  let sshPort := deploy["sshPort"]?.getD (.number host.ssh.port)
  let identityFile := deploy["identityFile"]?.getD .null
  let targetUser := deploy["user"]?.getD .null
  let sudoCommand := deploy["sudo"]?.getD .null
  connectionVars pythonInterpreter host hostname sshUser sshPort identityFile
      targetUser ∪
    becomeVars targetUser (becomeMethod targetUser sshUser sudoCommand) ∪
    sudoVars sudoCommand

def hostvarsFor (options : InventoryOptions) (name : String) (host : Host) :
    Attrs Json :=
  engineVars options.pythonInterpreter host
      (options.deploySettings.getD name ∅) ∪
    options.extraHostvars name ∪ host.ansibleVars

/-! ## Agreement -/

/-- Ansible connects as the engine does; it takes port 22 when it is given
none, and the login user is the target user when none is named. -/
structure SameConnection (data : DeployData) (defs : DeployDefs)
    (vars : Attrs Json) : Prop where
  endpoint : vars["ansible_host"]? = some (.string data.hostname)
  loginUser : vars["ansible_user"]? = some (.string defs.sshUser)
  port : ∃ port : UInt16, data.sshArgs.take 2 = ["-p", toString port] ∧
    vars["ansible_port"]?.getD (.int 22) = .int port.toNat
  identityFile : vars["ansible_ssh_private_key_file"]? =
    data.mergedSettings.identityFile.map .string
  identityOptions : ∀ path, data.mergedSettings.identityFile = some path →
    (data.sshArgs.drop 2).take 2 = ["-i", path] ∧
      vars["ansible_ssh_common_args"]? =
        some (.string (" ".intercalate ((data.sshArgs.drop 4).take 4)))
  noIdentity : data.mergedSettings.identityFile = none →
    vars["ansible_ssh_common_args"]? = none
  targetUser : vars["mandala_deploy_target_user"]?.or vars["ansible_user"]? =
    some (.string defs.profileUser)

/-- Ansible becomes another user where the engine runs a command to, by the
same program. -/
structure SameBecome (defs : DeployDefs) (vars : Attrs Json) : Prop where
  enabled : vars["ansible_become"]? =
    if defs.sudoCommand.isSome then some (.bool true) else none
  matched : ∀ command, defs.sudoCommand = some command →
    ∃ method, vars["ansible_become_method"]? = some (.string method) ∧
      vars["ansible_become_user"]? = some (.string defs.profileUser) ∧
        command = method ++ " -u " ++ defs.profileUser

theorem SameConnection.congr {data : DeployData} {defs : DeployDefs}
    {left right : Attrs Json} (hsame : SameConnection data defs left)
    (hlookup : ∀ name : String, left[name]? = right[name]?) :
    SameConnection data defs right := by
  obtain ⟨hendpoint, hlogin, hport, hfile, hoptions, hnone, htarget⟩ := hsame
  simp only [hlookup] at hendpoint hlogin hport hfile hoptions hnone htarget
  exact ⟨hendpoint, hlogin, hport, hfile, hoptions, hnone, htarget⟩

theorem SameBecome.congr {defs : DeployDefs} {left right : Attrs Json}
    (hsame : SameBecome defs left)
    (hlookup : ∀ name : String, left[name]? = right[name]?) :
    SameBecome defs right := by
  obtain ⟨henabled, hmatched⟩ := hsame
  simp only [hlookup] at henabled hmatched
  exact ⟨henabled, hmatched⟩

/-- The commands both sides know. -/
def knownSudo : List (Option String) := [none, some "sudo -u", some "doas -u"]

/-! ## Lookups -/

theorem getElem?_interpreterVars {host : Host} {interpreter : Option String}
    {name : String} (hname : name ≠ "ansible_python_interpreter") :
    (interpreterVars host interpreter)[name]? = none := by
  cases interpreter with
  | none => exact Std.TreeMap.getElem?_emptyc
  | some interpreter =>
      rw [interpreterVars, getElem?_optionalAttrs, getElem?_listToAttrs]
      simp [List.lookup_cons, beq_eq_false_iff_ne.mpr hname]

theorem getElem?_becomeVars (targetUser : Setting) (method : Option String)
    (name : String) :
    (becomeVars targetUser method)[name]? =
      method.bind fun method =>
        [("ansible_become", Json.bool true),
          ("ansible_become_user", targetUser.value),
          ("ansible_become_method", .string method)].lookup name := by
  cases method with
  | none => exact Std.TreeMap.getElem?_emptyc
  | some method => exact getElem?_listToAttrs _ _

def connectionNames : List String :=
  ["ansible_host", "ansible_user", "ansible_port",
    "ansible_ssh_private_key_file", "ansible_ssh_common_args",
    "mandala_deploy_target_user"]

def becomeNames : List String :=
  ["ansible_become", "ansible_become_user", "ansible_become_method"]

theorem getElem?_sudoVars {name : String}
    (hname : name ≠ "mandala_deploy_sudo") (sudoCommand : Setting) :
    (sudoVars sudoCommand)[name]? = none := by
  rw [sudoVars, getElem?_optionalAttrs, getElem?_listToAttrs]
  simp [List.lookup_cons, beq_eq_false_iff_ne.mpr hname]

section Names
variable {name : String} (interpreter : Option String) (host : Host)
  (hostname sshUser sshPort identityFile targetUser sudoCommand : Setting)

theorem getElem?_connectionVars
    (hname : name ≠ "ansible_python_interpreter") :
    (connectionVars interpreter host hostname sshUser sshPort identityFile
      targetUser)[name]? =
      (if targetUser ≠ .null then
        [("mandala_deploy_target_user", targetUser.value)].lookup name
      else none).or
        ((if identityFile ≠ .null then
          [("ansible_ssh_private_key_file", identityFile.value),
            ("ansible_ssh_common_args", Json.string
              "-o IdentitiesOnly=yes -o IdentityAgent=none")].lookup name
        else none).or
          ((if sshPort ≠ .number 22 then
            [("ansible_port", sshPort.value)].lookup name
          else none).or
            ([("ansible_host", hostname.value),
              ("ansible_user", sshUser.value)].lookup name))) := by
  simp only [connectionVars, Std.TreeMap.getElem?_union,
    getElem?_optionalAttrs, getElem?_listToAttrs,
    getElem?_interpreterVars hname, Option.none_or, decide_eq_true_eq]

theorem connectionVars_of_become (hname : name ∈ becomeNames) :
    (connectionVars interpreter host hostname sshUser sshPort identityFile
      targetUser)[name]? = none := by
  simp only [becomeNames, List.mem_cons, List.not_mem_nil, or_false] at hname
  rcases hname with rfl | rfl | rfl <;>
    simp [getElem?_connectionVars, List.lookup_cons]

theorem becomeVars_of_connection (hname : name ∈ connectionNames)
    (method : Option String) : (becomeVars targetUser method)[name]? = none := by
  rw [getElem?_becomeVars]
  simp only [connectionNames, List.mem_cons, List.not_mem_nil, or_false]
    at hname
  rcases hname with rfl | rfl | rfl | rfl | rfl | rfl <;>
    cases method <;> rfl

theorem ne_sudo (hname : name ∈ connectionNames ∨ name ∈ becomeNames) :
    name ≠ "mandala_deploy_sudo" := by
  rintro rfl
  revert hname
  decide

end Names

/-! ## The variables of a record that was read -/

theorem getD_map {A : Type} (kind : A → Setting) (value : Option A) :
    (value.map kind).getD .null = .ofOption kind value := by
  cases value <;> rfl

section Vars
variable {record : Attrs Setting} {settings : FlattenedDeploySettings}
  (hreads : Reads record settings) (interpreter : Option String) (host : Host)
include hreads

theorem engineVars_eq :
    engineVars interpreter host record =
      connectionVars interpreter host (.text settings.hostname)
          (.text settings.sshUser) (.number settings.sshPort)
          (.ofOption .text settings.identityFile)
          (.ofOption .text settings.user) ∪
        becomeVars (.ofOption .text settings.user)
          (becomeMethod (.ofOption .text settings.user)
            (.text settings.sshUser) (.ofOption .text settings.sudoCommand)) ∪
        sudoVars (.ofOption .text settings.sudoCommand) := by
  rw [engineVars, hreads.hostname, hreads.sshUser, hreads.sshPort,
    hreads.identityFile, hreads.user, hreads.sudoCommand]
  simp only [getD_map, Option.getD_some]

theorem engineVars_connection {name : String} (hname : name ∈ connectionNames) :
    (engineVars interpreter host record)[name]? =
      (connectionVars interpreter host (.text settings.hostname)
        (.text settings.sshUser) (.number settings.sshPort)
        (.ofOption .text settings.identityFile)
        (.ofOption .text settings.user))[name]? := by
  rw [engineVars_eq hreads, Std.TreeMap.getElem?_union,
    Std.TreeMap.getElem?_union, getElem?_sudoVars (ne_sudo (.inl hname)),
    becomeVars_of_connection _ hname, Option.none_or, Option.none_or]

theorem engineVars_become {name : String} (hname : name ∈ becomeNames) :
    (engineVars interpreter host record)[name]? =
      (becomeVars (.ofOption .text settings.user)
        (becomeMethod (.ofOption .text settings.user) (.text settings.sshUser)
          (.ofOption .text settings.sudoCommand)))[name]? := by
  rw [engineVars_eq hreads, Std.TreeMap.getElem?_union,
    Std.TreeMap.getElem?_union, getElem?_sudoVars (ne_sudo (.inr hname)),
    connectionVars_of_become _ _ _ _ _ _ _ hname, Option.none_or,
    Option.or_none]

theorem endpoint_engineVars :
    (engineVars interpreter host record)["ansible_host"]? =
      some (.string settings.hostname) := by
  rw [engineVars_connection hreads interpreter host (by decide)]
  simp [getElem?_connectionVars, List.lookup_cons, Setting.value]

theorem loginUser_engineVars :
    (engineVars interpreter host record)["ansible_user"]? =
      some (.string settings.sshUser) := by
  rw [engineVars_connection hreads interpreter host (by decide)]
  simp [getElem?_connectionVars, List.lookup_cons, Setting.value]

theorem port_engineVars :
    (engineVars interpreter host record)["ansible_port"]? =
      if settings.sshPort = 22 then none
      else some (.int settings.sshPort.toNat) := by
  rw [engineVars_connection hreads interpreter host (by decide)]
  simp [getElem?_connectionVars, List.lookup_cons, Setting.value]

theorem identityFile_engineVars :
    (engineVars interpreter host record)["ansible_ssh_private_key_file"]? =
      settings.identityFile.map .string := by
  rw [engineVars_connection hreads interpreter host (by decide)]
  cases settings.identityFile <;>
    simp [getElem?_connectionVars, List.lookup_cons, Setting.value,
      Setting.ofOption]

theorem identityOptions_engineVars :
    (engineVars interpreter host record)["ansible_ssh_common_args"]? =
      settings.identityFile.map fun _ =>
        .string "-o IdentitiesOnly=yes -o IdentityAgent=none" := by
  rw [engineVars_connection hreads interpreter host (by decide)]
  cases settings.identityFile <;>
    simp [getElem?_connectionVars, List.lookup_cons, Setting.ofOption]

theorem targetUser_engineVars :
    (engineVars interpreter host record)["mandala_deploy_target_user"]? =
      settings.user.map .string := by
  rw [engineVars_connection hreads interpreter host (by decide)]
  cases settings.user <;>
    simp [getElem?_connectionVars, List.lookup_cons, Setting.value,
      Setting.ofOption]

theorem become_engineVars {method : String}
    (hmethod : becomeMethod (.ofOption .text settings.user)
      (.text settings.sshUser) (.ofOption .text settings.sudoCommand) =
        (settings.user.filter (· ≠ settings.sshUser)).map fun _ => method)
    {name : String} (hname : name ∈ becomeNames) :
    (engineVars interpreter host record)[name]? =
      (settings.user.filter (· ≠ settings.sshUser)).bind fun user =>
        [("ansible_become", Json.bool true),
          ("ansible_become_user", .string user),
          ("ansible_become_method", .string method)].lookup name := by
  rw [engineVars_become hreads interpreter host hname, hmethod,
    getElem?_becomeVars]
  cases hfilter : settings.user.filter (· ≠ settings.sshUser) with
  | none => rfl
  | some user =>
      obtain ⟨huser, -⟩ := Option.filter_eq_some_iff.mp hfilter
      rw [huser]
      rfl

end Vars

/-- Each of the known commands is that of one method. -/
theorem exists_becomeMethod {sudoCommand : Option String}
    (hknown : sudoCommand ∈ knownSudo) (user : Option String)
    (sshUser : String) :
    ∃ method, sudoCommand.getD "sudo -u" = method ++ " -u" ∧
      becomeMethod (.ofOption .text user) (.text sshUser)
        (.ofOption .text sudoCommand) =
          (user.filter (· ≠ sshUser)).map fun _ => method := by
  have hneeds : needsBecome (.ofOption .text user) (.text sshUser) =
      (user.filter (· ≠ sshUser)).isSome := by
    cases user with
    | none => rfl
    | some user =>
        by_cases hsame : user = sshUser <;>
          simp [needsBecome, Setting.ofOption, hsame]
  simp only [knownSudo, List.mem_cons, List.not_mem_nil, or_false] at hknown
  rcases hknown with rfl | rfl | rfl
  · refine ⟨"sudo", rfl, ?_⟩
    rw [becomeMethod, hneeds]
    cases user.filter (· ≠ sshUser) <;> rfl
  · refine ⟨"sudo", rfl, ?_⟩
    rw [becomeMethod, hneeds]
    cases user.filter (· ≠ sshUser) <;> rfl
  · refine ⟨"doas", rfl, ?_⟩
    rw [becomeMethod, hneeds]
    cases user.filter (· ≠ sshUser) <;> rfl

/-! ## The engine's side -/

theorem sshArgs_hostDeployment (host : String)
    (settings : FlattenedDeploySettings) (path : String)
    (programs : DeployPrograms) :
    (hostDeployment host settings path programs).sshArgs =
      connectionSshOpts (.number settings.sshPort)
        (.ofOption .text settings.identityFile) ++ settings.sshOpts := by
  rw [DeployData.sshArgs, Engine.mergedSettings_hostDeployment]
  cases hidentity : settings.identityFile <;>
    simp [FlattenedDeploySettings.generic, connectionSshOpts, hidentity,
      Setting.ofOption, Setting.toText]

/-- The connection a member's engine deploys over. -/
def engineDefs (settings : FlattenedDeploySettings) : DeployDefs :=
  { sshUser := settings.sshUser
    profileUser := settings.user.getD settings.sshUser
    sudoCommand := (settings.user.filter (· ≠ settings.sshUser)).map fun user =>
      settings.sudoCommand.getD "sudo -u" ++ " " ++ user }

theorem defs_hostDeployment (host : String)
    (settings : FlattenedDeploySettings) (path : String)
    (programs : DeployPrograms) :
    (hostDeployment host settings path programs).defs =
      .ok (engineDefs settings) := by
  rw [DeployData.defs, DeployData.profileUser,
    Engine.mergedSettings_hostDeployment]
  cases huser : settings.user <;>
    simp [FlattenedDeploySettings.generic, engineDefs, huser]

theorem sameConnection {record : Attrs Setting}
    {settings : FlattenedDeploySettings} (hreads : Reads record settings)
    (interpreter : Option String) (host : Host) (name path : String)
    (programs : DeployPrograms) :
    SameConnection (hostDeployment name settings path programs)
      (engineDefs settings) (engineVars interpreter host record) where
  endpoint := endpoint_engineVars hreads interpreter host
  loginUser := loginUser_engineVars hreads interpreter host
  port := by
    refine ⟨settings.sshPort, ?_, ?_⟩
    · rw [sshArgs_hostDeployment]
      rfl
    · rw [port_engineVars hreads interpreter host]
      by_cases hport : settings.sshPort = 22
      · rw [if_pos hport, hport]
        rfl
      · rw [if_neg hport]
        rfl
  identityFile := by
    rw [Engine.mergedSettings_hostDeployment]
    exact identityFile_engineVars hreads interpreter host
  identityOptions := by
    intro file hfile
    rw [Engine.mergedSettings_hostDeployment] at hfile
    have hidentity : settings.identityFile = some file := hfile
    rw [sshArgs_hostDeployment, identityOptions_engineVars hreads interpreter
      host, hidentity]
    exact ⟨rfl, rfl⟩
  noIdentity := by
    intro hnone
    rw [Engine.mergedSettings_hostDeployment] at hnone
    have hidentity : settings.identityFile = none := hnone
    rw [identityOptions_engineVars hreads interpreter host, hidentity]
    rfl
  targetUser := by
    rw [targetUser_engineVars hreads interpreter host,
      loginUser_engineVars hreads interpreter host, engineDefs]
    cases settings.user <;> rfl

theorem sameBecome {record : Attrs Setting}
    {settings : FlattenedDeploySettings} (hreads : Reads record settings)
    (hknown : settings.sudoCommand ∈ knownSudo) (interpreter : Option String)
    (host : Host) :
    SameBecome (engineDefs settings) (engineVars interpreter host record) := by
  obtain ⟨method, hcommand, hmethod⟩ :=
    exists_becomeMethod hknown settings.user settings.sshUser
  have hvars {name : String} (hname : name ∈ becomeNames) :=
    become_engineVars hreads interpreter host hmethod hname
  constructor
  · rw [hvars (by decide), engineDefs]
    cases settings.user.filter (· ≠ settings.sshUser) <;> rfl
  · intro command hsome
    rw [engineDefs] at hsome
    obtain ⟨user, hfilter, rfl⟩ := Option.map_eq_some_iff.mp hsome
    obtain ⟨huser, -⟩ := Option.filter_eq_some_iff.mp hfilter
    refine ⟨method, ?_, ?_, ?_⟩
    · rw [hvars (by decide), hfilter]
      rfl
    · rw [hvars (by decide), hfilter, engineDefs, huser]
      rfl
    · have hspace : method ++ " -u" ++ " " = method ++ " -u " :=
        String.append_assoc
      rw [engineDefs, huser, hcommand, hspace]
      rfl

theorem sshOpts_nodeSettings {record : Attrs Setting}
    {settings : FlattenedDeploySettings} (hreads : Reads record settings)
    (name path : String) (programs : DeployPrograms) :
    ∃ node, nodeSettings record = some node ∧ node["sshOpts"]? =
      some (.texts (hostDeployment name settings path programs).sshArgs) := by
  refine ⟨_, congrArg (Option.map _) hreads.sshPort, ?_⟩
  rw [Std.TreeMap.getElem?_union, getElem?_listToAttrs, sshArgs_hostDeployment,
    hreads.identityFile, getD_map, hreads.sshOptsOf_eq]
  rfl

/-- **One connection contract.** The engine reads every record the fleet module
flattens; its ssh arguments are the options of the deploy-rs node, and Ansible,
given no variables by a hook or the member, connects and becomes as it does. -/
theorem connection_agrees {hosts : Hosts} {deployment : FleetDeployment}
    {controller : Option ControllerSettings} {host : Host}
    {record : Attrs Setting}
    (hrecord : deploySettingsFor hosts deployment controller host =
      .ok record) :
    ∃ settings, FlattenedDeploySettings.ofValue (recordValue record) =
        some settings ∧
      ∀ (name path : String) (programs : DeployPrograms),
        let data := hostDeployment name settings path programs
        ∃ defs, data.defs = .ok defs ∧
          (∃ node, nodeSettings record = some node ∧
            node["sshOpts"]? = some (.texts data.sshArgs)) ∧
          ∀ options : InventoryOptions,
            options.deploySettings[name]? = some record →
            options.extraHostvars name = ∅ → host.ansibleVars = ∅ →
              SameConnection data defs (hostvarsFor options name host) ∧
                (settings.sudoCommand ∈ knownSudo →
                  SameBecome defs (hostvarsFor options name host)) := by
  obtain ⟨settings, hvalue, hreads⟩ :=
    Engine.exists_ofValue (flattened_deploySettingsFor hrecord)
  refine ⟨settings, hvalue, fun name path programs => ?_⟩
  refine ⟨engineDefs settings, defs_hostDeployment name settings path programs,
    sshOpts_nodeSettings hreads name path programs, ?_⟩
  intro options hdeploy hextra hvars
  have hsettings : options.deploySettings.getD name ∅ = record := by
    rw [Std.TreeMap.getD_eq_getD_getElem?, hdeploy]
    rfl
  have hlookup (key : String) :
      (engineVars options.pythonInterpreter host record)[key]? =
        (hostvarsFor options name host)[key]? := by
    rw [hostvarsFor, hsettings, hextra, hvars, Std.TreeMap.getElem?_union,
      Std.TreeMap.getElem?_union, Std.TreeMap.getElem?_emptyc, Option.none_or,
      Option.none_or]
  exact ⟨(sameConnection hreads _ host name path programs).congr hlookup,
    fun hknown => (sameBecome hreads hknown _ host).congr hlookup⟩

/-! ### A member that is deployed as another user -/

def webHost : Host :=
  { platform := "nixos", architecture := "x86_64", category := "server"
    role := none, tags := []
    deployment := { sops := { recipient := none }, ansible := { groups := [] } }
    name := { text := "web", label := rfl, notAll := by decide }
    domain := none, location := none, description := none
    build := none, networks := []
    ssh := { host := "web", user := "root", port := 22 }
    deployRs :=
      { enable := true, activation := .switch
        settings :=
          { DeploySettings.unset with
            sshUser := some "admin", sshPort := some 2222
            user := some "root" } }
    ansibleEnable := true
    ansibleVars := ∅ }

def plainDeployment : FleetDeployment :=
  { settings := .unset, groupSettings := ∅, controllerSettings := ∅ }

def plainOptions (record : Attrs Setting) : InventoryOptions :=
  { extraHostvars := fun _ => ∅
    deploySettings := listToAttrs [("web", record)]
    pythonInterpreter := none
    guardGroup := none }

theorem connection_agrees_web :
    ∃ record settings defs,
      deploySettingsFor ∅ plainDeployment none webHost = .ok record ∧
        FlattenedDeploySettings.ofValue (recordValue record) = some settings ∧
        SameConnection
          (hostDeployment "web" settings "/nix/store/abc-system"
            Engine.noPrograms) defs
          (hostvarsFor (plainOptions record) "web" webHost) := by
  obtain ⟨record, hrecord⟩ : ∃ record,
      deploySettingsFor ∅ plainDeployment none webHost = .ok record :=
    ⟨_, rfl⟩
  obtain ⟨settings, hvalue, hagrees⟩ := connection_agrees hrecord
  obtain ⟨defs, -, -, hsame⟩ :=
    hagrees "web" "/nix/store/abc-system" Engine.noPrograms
  have hdeploy : (plainOptions record).deploySettings["web"]? = some record :=
    getElem?_listToAttrs _ _
  exact ⟨record, settings, defs, hrecord, hvalue,
    (hsame (plainOptions record) hdeploy rfl rfl).1⟩

end Mandala.Fleet
