import Mandala.Registry.Liveness

/-!
# The return code of a deploy run

A frontend reports a run's exit code either from the engine it owns or, when
it only attached to the registry, from the same records an observer judges by.
-/

namespace Mandala.Runner

open Mandala.Data Mandala.Events Mandala.Tailer Mandala.Registry

variable (parse : String → Option Json) (processExists : Int → Bool)

structure DeployRun where
  eventsDir : Option RunDirectory
  metaPid : Option Int
  tailer : Option EventTailer
  attached : Bool
  /-- The exit code of an owned engine, once it has exited. -/
  exited : Option Int

/-- `effective_deploy_returncode`. -/
def effectiveDeployReturncode (processRc : Option Int)
    (tailer : Option EventTailer) : Option Int :=
  processRc.map fun rc =>
    if rc == 0 && tailer.any fun tailer => hasUnsuccessfulHost tailer.streams
    then 1
    else rc

namespace DeployRun

/-- `DeployRun::attach`, on the run an observer opens. -/
def attach (run : ObservedRun) : DeployRun :=
  { eventsDir := some run.directory
    metaPid := run.directory.pid
    tailer := some run.tailer
    attached := true
    exited := none }

/-- The payload of the run directory, empty when there is none. -/
def readMeta (run : DeployRun) : Meta :=
  (run.eventsDir.map RunDirectory.payload).getD ∅

def poll (run : DeployRun) : DeployRun :=
  { run with
    tailer := run.tailer.map fun tailer =>
      match run.eventsDir with
      | some directory => (Tailer.poll parse directory.events tailer).1
      | none => tailer }

def finished (run : DeployRun) : Bool × DeployRun :=
  if run.attached then
    let payload := run.readMeta
    if (payload.getI64 "rc").isSome then (true, run)
    else if supervisorGone processExists payload then (true, run)
    else
      let metaPid := (payload.getI64 "pid").or run.metaPid
      (!pidAlive processExists metaPid, { run with metaPid })
  else (run.exited.isSome, run)

def returncode (run : DeployRun) : Option Int × DeployRun :=
  let (ended, run) := run.finished processExists
  if ended then
    let run := run.poll parse
    if run.attached then
      let payload := run.readMeta
      match effectiveDeployReturncode (payload.getI64 "rc") run.tailer with
      | some rc => (some rc, run)
      | none =>
          if supervisorGone processExists payload then (some 1, run)
          else
            let bad := run.tailer.any fun tailer =>
              hasUnsuccessfulHost tailer.streams
            (some bad.toInt, run)
    else (effectiveDeployReturncode run.exited run.tailer, run)
  else (none, run)

end DeployRun

/-! ## Agreement with the observer -/

/-- The return code of a run attached to a directory. -/
def attachedReturncode (directory : RunDirectory) : Option Int :=
  ((DeployRun.attach (openRun directory)).returncode parse processExists).1

/-- The verdict of an observer of the same directory. -/
def observedLiveness (directory : RunDirectory) : RunLiveness :=
  ((openRun directory).liveness parse processExists).1

/-- Success is reported only for a run an observer calls finished, and never
for one it calls failed or rolled back. -/
structure Agrees (directory : RunDirectory) : Prop where
  success : attachedReturncode parse processExists directory = some 0 →
    observedLiveness parse processExists directory = .finished
  failure : observedLiveness parse processExists directory = .failed ∨
      observedLiveness parse processExists directory = .rolledBack →
    attachedReturncode parse processExists directory ≠ some 0

/-- What a fresh reader makes of the streams of a directory. -/
def observed (directory : RunDirectory) : ObservedRun :=
  (openRun directory).poll parse

/-- Once the run is over, its return code is the recorded one unless a host
went wrong, and without a recorded one it is judged by the hosts alone. -/
theorem attachedReturncode_eq (directory : RunDirectory) :
    attachedReturncode parse processExists directory =
      let bad := hasUnsuccessfulHost (observed parse directory).tailer.streams
      match directory.recordedRc with
      | some rc => some (if rc == 0 && bad then 1 else rc)
      | none =>
          if supervisorGone processExists directory.payload then some 1
          else if pidAlive processExists directory.pid then none
          else some bad.toInt := by
  have hpid : (directory.payload.getI64 "pid").or directory.pid =
      directory.pid := Option.or_self
  have hrc : directory.recordedRc = directory.payload.getI64 "rc" := rfl
  simp only [attachedReturncode, DeployRun.returncode, DeployRun.finished,
    DeployRun.attach, DeployRun.readMeta, openRun, Option.map_some,
    Option.getD_some, if_true, hpid, hrc]
  cases hmeta : directory.payload.getI64 "rc" with
  | some rc => simp [DeployRun.poll, effectiveDeployReturncode, observed,
      ObservedRun.poll, openRun, hmeta]
  | none =>
      cases hgone : supervisorGone processExists directory.payload with
      | true => simp [DeployRun.poll, effectiveDeployReturncode, hmeta, hgone]
      | false =>
          cases halive : pidAlive processExists directory.pid with
          | true => simp
          | false => simp [DeployRun.poll, effectiveDeployReturncode, observed,
              ObservedRun.poll, openRun, hmeta, hgone]

theorem attachedReturncode_zero_iff (directory : RunDirectory) :
    attachedReturncode parse processExists directory = some 0 ↔
      hasUnsuccessfulHost (observed parse directory).tailer.streams = false ∧
        (directory.recordedRc = some 0 ∨
          directory.recordedRc = none ∧
            supervisorGone processExists directory.payload = false ∧
            pidAlive processExists directory.pid = false) := by
  rw [attachedReturncode_eq]
  cases hrc : directory.recordedRc with
  | some rc =>
      by_cases hzero : rc = 0
      · cases hasUnsuccessfulHost (observed parse directory).tailer.streams <;>
          simp [hzero]
      · simp [hzero]
  | none =>
      cases supervisorGone processExists directory.payload with
      | true => simp
      | false =>
          cases pidAlive processExists directory.pid with
          | true => simp
          | false =>
              cases hasUnsuccessfulHost (observed parse directory).tailer.streams <;>
                simp

/-- A settled verdict is read off the polled streams once the engine is gone
and, when no code was recorded, its supervisor is not the one that vanished. -/
theorem observedLiveness_finished_iff (directory : RunDirectory) :
    observedLiveness parse processExists directory = .finished ↔
      ¬ (directory.payload["rc"]? = none ∧
          supervisorGone processExists directory.payload) ∧
        pidAlive processExists directory.pid = false ∧
        (observed parse directory).settledLiveness = .finished := by
  unfold observedLiveness ObservedRun.liveness
  change (if directory.payload["rc"]? = none ∧
      supervisorGone processExists directory.payload then _ else _ :
        RunLiveness × ObservedRun).1 = _ ↔ _
  split
  · next hgone => simp [hgone]
  · next hgone =>
      simp only [hgone, not_false_eq_true, true_and]
      cases halive : pidAlive processExists directory.pid with
      | true => simp [openRun, halive]
      | false => simp [openRun, halive, observed]

/-- When the two judgements of a directory agree.  With no host gone wrong, a
recorded success must belong to an engine that is gone; and a run whose engine
vanished without recording a code, and without a vanished supervisor, must have
known hosts, all of them terminal. -/
structure Settled (directory : RunDirectory) : Prop where
  recorded :
    hasUnsuccessfulHost (observed parse directory).tailer.streams = false →
    directory.recordedRc = some 0 →
    pidAlive processExists directory.pid = false
  unrecorded :
    hasUnsuccessfulHost (observed parse directory).tailer.streams = false →
    directory.recordedRc = none →
    supervisorGone processExists directory.payload = false →
    pidAlive processExists directory.pid = false →
    (observed parse directory).states ≠ [] ∧
      ∀ state ∈ (observed parse directory).states, isTerminal state

theorem agrees_iff_settled (directory : RunDirectory) :
    Agrees parse processExists directory ↔
      Settled parse processExists directory := by
  constructor
  · intro hagrees
    have hsuccess := hagrees.success
    rw [attachedReturncode_zero_iff, observedLiveness_finished_iff,
      settledLiveness_finished_iff] at hsuccess
    constructor
    · intro hgood hrc
      exact (hsuccess ⟨hgood, .inl hrc⟩).2.1
    · intro hgood hrc hsupervisor hpid
      obtain ⟨-, -, -, hzero | ⟨-, hhosts⟩⟩ :=
        hsuccess ⟨hgood, .inr ⟨hrc, hsupervisor, hpid⟩⟩
      · change directory.recordedRc = some 0 at hzero
        rw [hrc] at hzero
        cases hzero
      · exact hhosts
  · intro hsettled
    have hsuccess : attachedReturncode parse processExists directory = some 0 →
        observedLiveness parse processExists directory = .finished := by
      rw [attachedReturncode_zero_iff, observedLiveness_finished_iff,
        settledLiveness_finished_iff]
      intro hzero
      obtain ⟨hgood, hrc | ⟨hrc, hsupervisor, hpid⟩⟩ := hzero
      · have hpresent : directory.payload["rc"]? ≠ none := by
          intro habsent
          rw [recordedRc_eq_none habsent] at hrc
          cases hrc
        exact ⟨fun hgone => hpresent hgone.1, hsettled.recorded hgood hrc,
          hgood, .inl hrc⟩
      · exact ⟨by simp [hsupervisor], hpid, hgood, .inr ⟨hrc,
          hsettled.unrecorded hgood hrc hsupervisor hpid⟩⟩
    refine ⟨hsuccess, ?_⟩
    intro hbad hzero
    rw [hsuccess hzero] at hbad
    simp at hbad

/-- An engine that was killed before it recorded a code or any host event. -/
def killedEngine : RunDirectory :=
  { payload := (∅ : Meta).insert "pid" (.int 4242), events := ∅ }

/-- Attaching reports success for it, observing does not. -/
theorem killedEngine_not_agrees :
    ¬ Agrees (fun _ => none) (fun _ => false) killedEngine := by
  intro hagrees
  have hzero : attachedReturncode (fun _ => none) (fun _ => false)
      killedEngine = some 0 := by decide
  have hunknown : observedLiveness (fun _ => none) (fun _ => false)
      killedEngine = .unknown := by decide
  have hfinished := hagrees.success hzero
  rw [hunknown] at hfinished
  cases hfinished

end Mandala.Runner
