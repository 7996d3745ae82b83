import Mandala.Core.Effects
import Mandala.Deploy.Data

/-!
# The commands of a deployment and the processes that run them

Every effect on a host is a local `nix copy` or a command sent over ssh.  A
remote command is kept in the form it was built from, so that what it does can
be told without reading its text back; `RemoteCommand.text` is the text ssh is
given.
-/

namespace Mandala.Deploy

open Mandala.Text Mandala.Effects

structure ActivateCommandData where
  sudoCommand : Option String
  profileInfo : ProfileInfo
  closure : String
  autoRollback : Bool
  tempPath : String
  confirmTimeout : UInt16
  magicRollback : Bool
  dryActivate : Bool
  boot : Bool
  deriving DecidableEq, Repr

structure WaitCommandData where
  sudoCommand : Option String
  closure : String
  tempPath : String
  activationTimeout : Option UInt16
  deriving DecidableEq, Repr

inductive RemoteCommand where
  /-- The capability probe of a copied generation. -/
  | testSwitchInhibitors (closure : String)
  /-- The generation's own judgement of a live switch. -/
  | switchCheck (sudoCommand : Option String) (closure : String)
  /-- Resolve a profile link. -/
  | readlink (sudoCommand : Option String) (profilePath : String)
  /-- Point a profile at a closure. -/
  | setProfile (sudoCommand : Option String) (profilePath closure : String)
  /-- Make a closure the boot default. -/
  | switchBoot (sudoCommand : Option String) (closure : String)
  | activate (data : ActivateCommandData)
  | wait (data : WaitCommandData)
  /-- Remove a canary that may not exist. -/
  | clearCanary (sudoCommand : Option String) (lockPath : String)
  /-- Remove the canary, which confirms the activation. -/
  | confirm (sudoCommand : Option String) (lockPath : String)
  deriving DecidableEq, Repr

namespace RemoteCommand

/-! ### Kinds of commands -/

def isActivation : RemoteCommand → Bool
  | activate _ => true
  | _ => false

def isConfirmation : RemoteCommand → Bool
  | confirm .. => true
  | _ => false

/-- The commands of a boot staging. -/
def isStaging : RemoteCommand → Bool
  | readlink .. | setProfile .. | switchBoot .. => true
  | _ => false

/-- Activate the new generation on the running system. -/
def isLiveActivation : RemoteCommand → Bool
  | activate data => !data.dryActivate
  | _ => false

/-- Commands that change the profile, the boot default or the running system. -/
def mutates : RemoteCommand → Bool
  | setProfile .. | switchBoot .. => true
  | remote => remote.isLiveActivation

/-- The questions asked before an activation path is chosen. -/
def isProbe : RemoteCommand → Bool
  | testSwitchInhibitors _ | switchCheck .. => true
  | _ => false

/-- The judgement of a live switch. -/
def isSwitchCheck : RemoteCommand → Bool
  | switchCheck .. => true
  | _ => false

/-- The commands of a closure's activation through `activate-rs`. -/
def isCanaryProtocol (closure : String) (dryActivate : Bool) :
    RemoteCommand → Bool
  | activate data => data.closure = closure ∧ data.dryActivate = dryActivate
  | wait data => data.closure = closure
  | clearCanary .. | confirm .. => true
  | _ => false

theorem not_isActivation_of_isStaging {remote : RemoteCommand}
    (hstaging : remote.isStaging) : remote.isActivation = false := by
  cases remote <;> first | rfl | cases hstaging

end RemoteCommand

open RemoteCommand

/-- Commands that act on the system never see `NIXOS_NO_CHECK`. -/
def sanitizedRemoteCommand (sudoCommand : Option String) (command : String) :
    String :=
  match sudoCommand with
  | some sudoCommand =>
      "env -u NIXOS_NO_CHECK " ++ sudoCommand ++ " env -u NIXOS_NO_CHECK " ++
        command
  | none => "env -u NIXOS_NO_CHECK " ++ command

/-- Prefix a command with sudo, when there is one. -/
def withSudo (sudoCommand : Option String) (command : String) : String :=
  match sudoCommand with
  | some sudoCommand => sudoCommand ++ " " ++ command
  | none => command

def buildActivateCommand (data : ActivateCommandData) : String :=
  let profile := match data.profileInfo with
    | .profilePath profilePath => "--profile-path '" ++ profilePath ++ "'"
    | .profileUserAndName profileUser profileName =>
        "--profile-user " ++ profileUser ++ " --profile-name " ++ profileName
  let command := data.closure ++ "/activate-rs activate '" ++ data.closure ++
    "' " ++ profile ++ " --temp-path '" ++ data.tempPath ++
    "' --confirm-timeout " ++ toString data.confirmTimeout ++
    (if data.magicRollback then " --magic-rollback" else "") ++
    (if data.autoRollback then " --auto-rollback" else "") ++
    (if data.dryActivate then " --dry-activate" else "") ++
    (if data.boot then " --boot" else "")
  sanitizedRemoteCommand data.sudoCommand command

def buildWaitCommand (data : WaitCommandData) : String :=
  let command := data.closure ++ "/activate-rs wait '" ++ data.closure ++
    "' --temp-path '" ++ data.tempPath ++ "'" ++
    (match data.activationTimeout with
      | some timeout => " --activation-timeout " ++ toString timeout
      | none => "")
  withSudo data.sudoCommand command

/-- The text of a remote command. -/
def RemoteCommand.text : RemoteCommand → String
  | testSwitchInhibitors closure =>
      "test -e " ++ shellWord closure ++ "/switch-inhibitors"
  | switchCheck sudoCommand closure =>
      sanitizedRemoteCommand sudoCommand
        (shellWord closure ++ "/bin/switch-to-configuration check")
  | readlink sudoCommand profilePath =>
      sanitizedRemoteCommand sudoCommand
        ("readlink -e " ++ shellWord profilePath)
  | setProfile sudoCommand profilePath closure =>
      sanitizedRemoteCommand sudoCommand
        ("nix-env --profile " ++ shellWord profilePath ++ " --set " ++
          shellWord closure)
  | switchBoot sudoCommand closure =>
      sanitizedRemoteCommand sudoCommand
        (shellWord closure ++ "/bin/switch-to-configuration boot")
  | activate data => buildActivateCommand data
  | wait data => buildWaitCommand data
  | clearCanary sudoCommand lockPath =>
      withSudo sudoCommand ("rm -f " ++ lockPath)
  | confirm sudoCommand lockPath => withSudo sudoCommand ("rm " ++ lockPath)

/-- A local process: `nix copy` of a store path, or ssh with a remote command. -/
inductive Command where
  | nixCopy (program : String) (args : List String) (path : String)
      (environment : List (String × String))
  | ssh (program : String) (args : List String) (remote : RemoteCommand)
      (environment : List (String × String))
  deriving DecidableEq, Repr

/-- `ssh_command`, with its last argument. -/
def sshCommand (data : DeployData) (address : String)
    (remote : RemoteCommand) : Command :=
  .ssh (data.cmdOverrides.sshProgram.getD "ssh") (address :: data.sshArgs)
    remote data.cmdOverrides.environment

/-- The ssh process of a remote command of a deployment. -/
def onTarget (data : DeployData) (defs : DeployDefs) (remote : RemoteCommand) :
    Command :=
  sshCommand data (remoteAddress data defs) remote

/-- The command a process sends to the host, if it is an ssh process. -/
def Command.remote : Command → Option RemoteCommand
  | ssh _ _ remote _ => some remote
  | nixCopy .. => none

@[simp]
theorem remote_onTarget (data : DeployData) (defs : DeployDefs)
    (remote : RemoteCommand) :
    (onTarget data defs remote).remote = some remote := rfl

/-! ## Processes -/

/-- How a process ended; `signaled` carries the text the standard library prints
for the signal. -/
inductive ExitStatus where
  | exited (code : ℕ)
  | signaled (description : String)
  deriving DecidableEq, Repr

namespace ExitStatus

def code : ExitStatus → Option ℕ
  | exited code => some code
  | signaled _ => none

def success (status : ExitStatus) : Bool := status.code = some 0

def message : ExitStatus → String
  | exited code => "exit status: " ++ toString code
  | signaled description => description

end ExitStatus

structure Output where
  status : ExitStatus
  stdout : List UInt8
  stderr : List UInt8
  deriving DecidableEq, Repr

/-- A process that printed nothing. -/
def exitedWith (code : ℕ) : Output :=
  { status := .exited code, stdout := [], stderr := [] }

/-- An operating-system error, by the text it prints. -/
abbrev IoError := String

/-- What a finished process leaves: its output, or the error of waiting. -/
abbrev Finished := Except IoError Output

/-- A process finished with exit code zero. -/
def succeeded : Finished → Bool
  | .ok output => output.status.success
  | .error _ => false

/-- Which of two running processes settled first, with what it left. -/
inductive Race where
  | first (finished : Finished)
  | second (finished : Finished)
  deriving Repr

/-- What a program asks of the processes it owns. -/
inductive ProcessEffect where
  | spawn (command : Command)
  | await (command : Command)
  /-- Has this process settled already? -/
  | poll (command : Command)
  /-- Wait for either of two processes. -/
  | race (first second : Command)
  deriving DecidableEq, Repr

/-- The processes an effect is about. -/
def ProcessEffect.commands : ProcessEffect → List Command
  | spawn command | await command | poll command => [command]
  | race first second => [first, second]

def ProcessEffect.Reply : ProcessEffect → Type
  | spawn _ => Except IoError Unit
  | await _ => Finished
  | poll _ => Option Finished
  | race _ _ => Race

abbrev Processes : Signature := ⟨ProcessEffect, ProcessEffect.Reply⟩

/-- The process an exchange started or tried to start. -/
def spawned (exchange : Exchange Processes) : Option Command :=
  match exchange with
  | ⟨.spawn command, _⟩ => some command
  | _ => none

/-- The process an exchange saw the end of. -/
def settled (exchange : Exchange Processes) : Option (Command × Finished) :=
  match exchange with
  | ⟨.await command, finished⟩ => some (command, finished)
  | ⟨.poll command, some finished⟩ => some (command, finished)
  | ⟨.race command _, .first finished⟩ => some (command, finished)
  | ⟨.race _ command, .second finished⟩ => some (command, finished)
  | _ => none

/-- The commands a conversation issued, in order. -/
def issued (trace : Trace Processes) : List Command := trace.filterMap spawned

@[simp]
theorem issued_append (first second : Trace Processes) :
    issued (first ++ second) = issued first ++ issued second :=
  List.filterMap_append

/-- Whether a process runs a remote command of some kind. -/
def Command.runs (kind : RemoteCommand → Bool) (command : Command) : Bool :=
  command.remote.any kind

@[simp]
theorem runs_onTarget (kind : RemoteCommand → Bool) (data : DeployData)
    (defs : DeployDefs) (remote : RemoteCommand) :
    (onTarget data defs remote).runs kind = kind remote := rfl

/-- Every process a program starts or waits for runs a remote command of this
kind. -/
def Issues (kind : RemoteCommand → Bool) {A : Type}
    (program : Program Processes A) : Prop :=
  Only (fun exchange => ∀ command ∈ ProcessEffect.commands exchange.effect,
    command.runs kind) program

theorem mem_commands_of_spawned {exchange : Exchange Processes}
    {command : Command} (hspawned : spawned exchange = some command) :
    command ∈ exchange.effect.commands := by
  obtain ⟨effect, reply⟩ := exchange
  cases effect with
  | spawn _ =>
      cases hspawned
      exact List.mem_singleton_self _
  | await _ => cases hspawned
  | poll _ => cases hspawned
  | race _ _ => cases hspawned

theorem Issues.of_executes {kind : RemoteCommand → Bool} {A : Type}
    {program : Program Processes A} {trace : Trace Processes} {value : A}
    (hissues : Issues kind program) (hexec : Executes program trace value) :
    ∀ command ∈ issued trace, command.runs kind := by
  intro command hmem
  obtain ⟨exchange, hexchange, hspawned⟩ := List.mem_filterMap.mp hmem
  exact hissues trace value hexec exchange hexchange command
    (mem_commands_of_spawned hspawned)

/-- The exchange saw a command of this kind end with exit code zero. -/
def sawSuccess (kind : RemoteCommand → Bool) (exchange : Exchange Processes) :
    Bool :=
  (settled exchange).any fun done => done.1.runs kind && succeeded done.2

/-- The exchange saw a command of this kind fail to start, or end in any way but
exit code zero. -/
def sawFailure (kind : RemoteCommand → Bool) (exchange : Exchange Processes) :
    Bool :=
  match exchange with
  | ⟨.spawn command, .error _⟩ => command.runs kind
  | exchange =>
      (settled exchange).any fun done => done.1.runs kind && !succeeded done.2

/-- A command of this kind ran to exit code zero. -/
def ranOk (kind : RemoteCommand → Bool) (trace : Trace Processes) : Bool :=
  trace.any (sawSuccess kind)

/-- A command of this kind was tried and did not run to exit code zero. -/
def broke (kind : RemoteCommand → Bool) (trace : Trace Processes) : Bool :=
  trace.any (sawFailure kind)

section Observations

variable (kind : RemoteCommand → Bool)

@[simp]
theorem ranOk_nil : ranOk kind [] = false := rfl

@[simp]
theorem broke_nil : broke kind [] = false := rfl

@[simp]
theorem ranOk_cons (exchange : Exchange Processes) (trace : Trace Processes) :
    ranOk kind (exchange :: trace) =
      (sawSuccess kind exchange || ranOk kind trace) := rfl

@[simp]
theorem broke_cons (exchange : Exchange Processes) (trace : Trace Processes) :
    broke kind (exchange :: trace) =
      (sawFailure kind exchange || broke kind trace) := rfl

@[simp]
theorem ranOk_append (first second : Trace Processes) :
    ranOk kind (first ++ second) = (ranOk kind first || ranOk kind second) :=
  List.any_append

@[simp]
theorem broke_append (first second : Trace Processes) :
    broke kind (first ++ second) = (broke kind first || broke kind second) :=
  List.any_append

variable (command other : Command) (finished : Finished)

@[simp]
theorem sawSuccess_spawn (reply : Except IoError Unit) :
    sawSuccess kind ⟨.spawn command, reply⟩ = false := rfl

@[simp]
theorem sawSuccess_await :
    sawSuccess kind ⟨.await command, finished⟩ =
      (command.runs kind && succeeded finished) := rfl

@[simp]
theorem sawSuccess_poll :
    sawSuccess kind ⟨.poll command, some finished⟩ =
      (command.runs kind && succeeded finished) := rfl

@[simp]
theorem sawSuccess_poll_none :
    sawSuccess kind ⟨.poll command, none⟩ = false := rfl

@[simp]
theorem sawSuccess_race_first :
    sawSuccess kind ⟨.race command other, .first finished⟩ =
      (command.runs kind && succeeded finished) := rfl

@[simp]
theorem sawSuccess_race_second :
    sawSuccess kind ⟨.race command other, .second finished⟩ =
      (other.runs kind && succeeded finished) := rfl

@[simp]
theorem sawFailure_spawn_ok (started : Unit) :
    sawFailure kind ⟨.spawn command, .ok started⟩ = false := rfl

@[simp]
theorem sawFailure_spawn_error (error : IoError) :
    sawFailure kind ⟨.spawn command, .error error⟩ = command.runs kind := rfl

@[simp]
theorem sawFailure_await :
    sawFailure kind ⟨.await command, finished⟩ =
      (command.runs kind && !succeeded finished) := rfl

@[simp]
theorem sawFailure_poll :
    sawFailure kind ⟨.poll command, some finished⟩ =
      (command.runs kind && !succeeded finished) := rfl

@[simp]
theorem sawFailure_poll_none :
    sawFailure kind ⟨.poll command, none⟩ = false := rfl

@[simp]
theorem sawFailure_race_first :
    sawFailure kind ⟨.race command other, .first finished⟩ =
      (command.runs kind && !succeeded finished) := rfl

@[simp]
theorem sawFailure_race_second :
    sawFailure kind ⟨.race command other, .second finished⟩ =
      (other.runs kind && !succeeded finished) := rfl

/-- A failure is seen on a process the exchange is about. -/
theorem exists_of_sawFailure {exchange : Exchange Processes}
    (hfailure : sawFailure kind exchange) :
    ∃ command ∈ exchange.effect.commands, command.runs kind := by
  obtain ⟨effect, reply⟩ := exchange
  cases effect with
  | spawn command =>
      cases reply with
      | error error => exact ⟨command, List.mem_singleton_self _, hfailure⟩
      | ok _ => cases hfailure
  | await command =>
      have hboth := Bool.and_eq_true_iff.mp hfailure
      exact ⟨command, List.mem_singleton_self _, hboth.1⟩
  | poll command =>
      cases reply with
      | none => cases hfailure
      | some finished =>
          rw [sawFailure_poll, Bool.and_eq_true] at hfailure
          exact ⟨command, List.mem_singleton_self _, hfailure.1⟩
  | race first second =>
      cases reply with
      | first finished =>
          rw [sawFailure_race_first, Bool.and_eq_true] at hfailure
          exact ⟨first, List.mem_cons_self, hfailure.1⟩
      | second finished =>
          rw [sawFailure_race_second, Bool.and_eq_true] at hfailure
          exact ⟨second, List.mem_cons_of_mem _ List.mem_cons_self, hfailure.1⟩

/-- No command of a kind breaks where none is dealt with. -/
theorem Issues.broke_eq_false {other : RemoteCommand → Bool} {A : Type}
    {program : Program Processes A} {trace : Trace Processes} {value : A}
    (hissues : Issues other program) (hexec : Executes program trace value)
    (hdisjoint : ∀ remote, other remote → kind remote = false) :
    broke kind trace = false := by
  rw [broke, List.any_eq_false]
  intro exchange hexchange hfailure
  obtain ⟨command, hmem, hkind⟩ := exists_of_sawFailure kind hfailure
  have hother := hissues trace value hexec exchange hexchange command hmem
  cases command with
  | nixCopy => cases hkind
  | ssh program args remote environment =>
      have hnot := hdisjoint remote hother
      exact Bool.false_ne_true (hnot.symm.trans hkind)

end Observations

end Mandala.Deploy
