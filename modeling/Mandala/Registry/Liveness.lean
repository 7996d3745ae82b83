import Mandala.Runner.Tailer

/-!
# The liveness verdict of a registered run

An observer judges a run from its `meta.json`, from which of the recorded
processes still exist, and from what the event streams say about the hosts.
-/

namespace Mandala.Registry

open Mandala.Data Mandala.Events Mandala.Tailer

variable (parse : String → Option Json) (processExists : Int → Bool)

inductive RunLiveness where
  | running
  | finished
  | failed
  | rolledBack
  | unknown
  deriving DecidableEq, Repr

/-- A run directory: the payload `read_meta` finds there and its streams. -/
structure RunDirectory where
  payload : Meta
  events : Directory

namespace RunDirectory

def pid (directory : RunDirectory) : Option Int :=
  directory.payload.getI64 "pid"

/-- The return code recorded in the payload, when it is an integer. -/
def recordedRc (directory : RunDirectory) : Option Int :=
  directory.payload.getI64 "rc"

end RunDirectory

/-- `pid_alive`: an absent or zero pid is never alive.  `processExists` is the answer
of the operating system. -/
def pidAlive : Option Int → Bool
  | some pid => pid ≠ 0 && processExists pid
  | none => false

/-- A supervisor is recorded and gone. -/
def supervisorGone (payload : Meta) : Bool :=
  let supervisor := payload.getI64 "supervisor_pid"
  supervisor.isSome && !pidAlive processExists supervisor

structure ObservedRun where
  directory : RunDirectory
  tailer : EventTailer

/-- `open_run`: a fresh reader over the run directory. -/
def openRun (directory : RunDirectory) : ObservedRun :=
  { directory, tailer := EventTailer.new }

namespace ObservedRun

def poll (run : ObservedRun) : ObservedRun :=
  { run with tailer := (Tailer.poll parse run.directory.events run.tailer).1 }

/-- The states of the hosts the reader knows of. -/
def states (run : ObservedRun) : List HostState :=
  run.tailer.streams.hosts.values.map HostRun.state

/-- The part of the verdict that is read off the polled streams. -/
def settledLiveness (run : ObservedRun) : RunLiveness :=
  if .rolledBack ∈ run.states then .rolledBack
  else if .failed ∈ run.states then .failed
  else match run.directory.recordedRc with
    | some rc => if rc = 0 then .finished else .failed
    | none =>
        if !run.states.isEmpty && run.states.all isTerminal then .finished
        else
          let build := run.tailer.streams.build
          if build.done && build.rc ≠ some 0 && build.rc ≠ none then .failed
          else .unknown

/-- `ObservedRun::liveness`, with the reader it leaves behind. -/
def liveness (run : ObservedRun) : RunLiveness × ObservedRun :=
  if run.directory.payload["rc"]? = none ∧
      supervisorGone processExists run.directory.payload then (.failed, run)
  else if pidAlive processExists run.directory.pid then (.running, run)
  else
    let polled := run.poll parse
    (polled.settledLiveness, polled)

end ObservedRun

theorem recordedRc_eq_none {directory : RunDirectory}
    (habsent : directory.payload["rc"]? = none) :
    directory.recordedRc = none := by
  simp [RunDirectory.recordedRc, Meta.getI64, habsent]

/-- The hosts the reader knows of, seen as the source's two membership tests. -/
theorem hasUnsuccessfulHost_iff (run : ObservedRun) :
    hasUnsuccessfulHost run.tailer.streams = true ↔
      HostState.failed ∈ run.states ∨ HostState.rolledBack ∈ run.states := by
  simp only [hasUnsuccessfulHost, ObservedRun.states, List.any_eq_true,
    Bool.or_eq_true, decide_eq_true_eq, List.mem_map]
  constructor
  · intro hbad
    obtain ⟨host, hmem, hfailed | hrolled⟩ := hbad
    · exact .inl ⟨host, hmem, hfailed⟩
    · exact .inr ⟨host, hmem, hrolled⟩
  · intro hbad
    rcases hbad with ⟨host, hmem, hfailed⟩ | ⟨host, hmem, hrolled⟩
    · exact ⟨host, hmem, .inl hfailed⟩
    · exact ⟨host, hmem, .inr hrolled⟩

/-- A run without failed or rolled-back hosts finished by its recorded code,
or, when it has none, by the hosts all being terminal. -/
theorem settledLiveness_finished_iff (run : ObservedRun) :
    run.settledLiveness = .finished ↔
      hasUnsuccessfulHost run.tailer.streams = false ∧
        (run.directory.recordedRc = some 0 ∨
          run.directory.recordedRc = none ∧
            run.states ≠ [] ∧ ∀ state ∈ run.states, isTerminal state) := by
  rw [← Bool.not_eq_true, hasUnsuccessfulHost_iff, not_or]
  unfold ObservedRun.settledLiveness
  by_cases hrolled : HostState.rolledBack ∈ run.states
  · simp [hrolled]
  · by_cases hfailed : HostState.failed ∈ run.states
    · simp [hrolled, hfailed]
    · cases hrc : run.directory.recordedRc with
      | some rc =>
          by_cases hzero : rc = 0
          · simp [hrolled, hfailed, hzero]
          · simp [hrolled, hfailed, hzero]
      | none =>
          have hall : (!run.states.isEmpty && run.states.all isTerminal) = true ↔
              run.states ≠ [] ∧ ∀ state ∈ run.states, isTerminal state := by
            simp
          simp only [hrolled, hfailed, ← hall, if_false, not_false_eq_true,
            and_self, reduceCtorEq, false_or, true_and]
          split
          · next hcheck => simp [hcheck]
          · next hcheck => split <;> simp [hcheck]

end Mandala.Registry
