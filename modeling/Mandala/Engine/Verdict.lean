import Mandala.Engine.Recount
import Mandala.Engine.Settlement
import Mandala.Registry.Liveness
import Mandala.Runner.Stream

/-!
# The engine's verdict and an observer's

The engine returns a result per host and settles the run by them.  An observer
of the run directory has only the streams and the settled metadata.  The two
agree exactly when every host's stream could be opened and the records that
tell its result were not left out of it, which the build stream's budget may do
to a host of that name.
-/

namespace Mandala.Engine

open Mandala.Data Mandala.Deploy Mandala.Effects Mandala.Events Mandala.Fleet
  Mandala.Forest Mandala.Registry Mandala.Runner Mandala.Tailer Mandala.Text

variable (toVec : Json → String) (fromStr : List Char → Option NixMessage)
  (parse : String → Option Json)

/-! ## The streams of a fan-out -/

/-- What one host's task did: its conversation with the registry and its
processes, the result it returned, and its records with the time of each. -/
structure HostStory where
  host : String
  trace : Trace EngineEffects
  result : HostDeployResult
  emissions : List Emission

/-- A fan-out, with what the controller emitted while it built. -/
structure FanOutStory where
  run : RegisteredDeployRun
  built : BuiltProfiles
  programs : DeployPrograms
  controller : List Emission
  hosts : List HostStory

/-- The records that reach a stream whose file has a length when it is
opened. -/
def streamRecords (stream host plugin : String) (length : ℕ)
    (emissions : List Emission) : List EventRecord :=
  match EventWriter.new stream host plugin (.ok length) with
  | .ok writer => (writer.emitAll toVec fromStr emissions).2
  | .error _ => []

def streamFile (stream : String) : String := stream ++ ".jsonl"

def inFile (stream : String) (records : List EventRecord) : List Written :=
  records.map fun record => { file := streamFile stream, record }

namespace FanOutStory

variable (story : FanOutStory)

/-- The controller's build stream, before any host is deployed. -/
def buildWritten : List Written :=
  inFile "build"
    (streamRecords toVec fromStr "build" "controller" "build" 0
      story.controller)

/-- The length of a host's file when the host opens it. -/
def openedLength (host : String) : ℕ :=
  (content toVec (streamFile host) (story.buildWritten toVec fromStr)).length

def hostRecords (host : HostStory) : List EventRecord :=
  streamRecords toVec fromStr host.host host.host "deploy"
    (story.openedLength toVec fromStr host.host) host.emissions

/-- Everything that is written in the run's directory. -/
def written : List Written :=
  story.buildWritten toVec fromStr ++
    story.hosts.flatMap fun host =>
      inFile host.host (story.hostRecords toVec fromStr host)

/-- The writer of a host with a valid name. -/
def hostWriter (host : String) : EventWriter :=
  { host
    plugin := "deploy"
    buildFilter :=
      if host = "build" then some BuildLogFilter.default else none
    bytes := story.openedLength toVec fromStr host
    truncated := false }

/-- The results by host. -/
def results : BTreeMap HostDeployResult :=
  Std.TreeMap.ofList (story.hosts.map fun host => (host.host, host.result))

/-- A fan-out over distinct valid names: every host was deployed, or failed
because it was not built; every record that was emitted could be written; and
every record that was written reads back. -/
structure Ran (fromValue : Json → Except String FlattenedDeploySettings) :
    Prop where
  valid : ∀ host ∈ story.hosts, isValidMemberName host.host
  distinct : (story.hosts.map HostStory.host).Nodup
  executed : ∀ host ∈ story.hosts, ∃ slot,
    Executes ((deployHostWith fromValue story.run story.built host.host
      story.programs).run none) host.trace (host.result, slot) ∨
    ∃ error, Executes ((abnormalHost story.run host.host error).run none)
      host.trace (host.result, slot)
  emits_ok : ∀ host ∈ story.hosts, EmitsOk host.trace
  emissions_eq : ∀ host ∈ story.hosts,
    host.emissions.map emissionEffect = emitted host.trace
  reads_back : ∀ entry ∈ story.written toVec fromStr,
    ReadsBack toVec parse entry.record

end FanOutStory

/-! ## Agreement -/

/-- The verdict on a settled run, judged by what the engine returned. -/
def settledVerdict (story : FanOutStory) (outcome : DeployOutcome) :
    RunLiveness :=
  if story.hosts.any (·.result.state = .rolledBack) then .rolledBack
  else if outcome.rc ≠ 0 then .failed
  else .finished

/-- An observer with a reader that has polled at any times. -/
def observer (payload : Meta) (actions : List Action) : ObservedRun :=
  { directory := { payload, events := (run parse actions).directory }
    tailer := (run parse actions).tailer }

/-- The observer gets the engine's verdicts, for every way in which the streams
were written and polled. -/
structure VerdictsAgree (story : FanOutStory) : Prop where
  hosts : ∀ actions, Writes toVec (story.written toVec fromStr) actions →
    ∀ host ∈ story.hosts,
      ((run parse (actions ++ [.poll])).tailer.streams.hosts[host.host]?).map
          (fun run => (run.state, run.rc)) =
        some (host.result.state, some host.result.rc)
  liveness : ∀ actions, Writes toVec (story.written toVec fromStr) actions →
    ∀ payload finishedAt, ∀ processExists : Int → Bool,
      let outcome := settleFanOut payload story.results
      let settled := settledMeta payload finishedAt outcome
      (∀ key ∈ ["pid", "supervisor_pid"],
        pidAlive processExists (settled.getI64 key) = false) →
      ((observer parse settled actions).liveness parse processExists).1 =
        settledVerdict story outcome

/-- A stream whose records tell the host's result to the end. -/
def TellsAll (story : FanOutStory) (host : HostStory) : Prop :=
  opened host.trace ∧
    (host.host = "build" →
      KeepsVerdict toVec fromStr (story.hostWriter toVec fromStr host.host)
        host.emissions)

/-! ## Where the records of a host lie -/

/-- Records of a stream carry the labels of its writer. -/
theorem mem_streamRecords {stream host plugin : String} {length : ℕ}
    {emissions : List Emission} {record : EventRecord}
    (hmem : record ∈ streamRecords toVec fromStr stream host plugin length
      emissions) :
    record.v = eventProtocolVersion ∧ record.host = host ∧
      record.plugin = plugin ∧
      (record.event = "line" ∨
        ∃ emission ∈ emissions, record.event = emission.event) := by
  unfold streamRecords at hmem
  split at hmem
  · next writer hwriter =>
      obtain ⟨hhost, hplugin⟩ := EventWriter.labels_of_new hwriter
      obtain ⟨emission, hemission, rfl | rfl⟩ :=
        EventWriter.mem_emitAll toVec fromStr hmem
      · exact ⟨rfl, hhost, hplugin, .inr ⟨emission, hemission, rfl⟩⟩
      · exact ⟨rfl, hhost, hplugin, .inl rfl⟩
  · cases hmem

theorem destination_value {record : EventRecord}
    (hversion : record.v = eventProtocolVersion) :
    destination record.value =
      if record.event = "nixlog" then
        .nixlog ((record.value.getStr "line").getD "")
      else if record.plugin = "build" then .build
      else if record.host = "" then .dropped
      else .host record.host := by
  have hv : record.value.getI64 "v" = some eventProtocolVersion := by
    rw [Json.getI64, EventRecord.value_v, hversion]
    rfl
  have hsupported : versionSupported (some eventProtocolVersion) = true := by
    decide
  simp [destination, hv, hsupported]

/-- No record of the controller is one of a host's. -/
theorem destination_build {length : ℕ} {emissions : List Emission}
    {record : EventRecord}
    (hmem : record ∈ streamRecords toVec fromStr "build" "controller" "build"
      length emissions) (name : String) :
    destination record.value ≠ .host name := by
  obtain ⟨hversion, -, hplugin, -⟩ := mem_streamRecords toVec fromStr hmem
  rw [destination_value hversion, hplugin]
  split <;> simp

/-- The records of a deployment are all records of its host. -/
theorem destination_deploy {host : String} (hhost : host ≠ "") {length : ℕ}
    {emissions : List Emission}
    (hnixlog : ∀ emission ∈ emissions, emission.event ≠ "nixlog")
    {record : EventRecord}
    (hmem : record ∈ streamRecords toVec fromStr host host "deploy" length
      emissions) :
    destination record.value = .host host := by
  obtain ⟨hversion, rfl, hplugin, hevent⟩ :=
    mem_streamRecords toVec fromStr hmem
  have hplain : record.event ≠ "nixlog" := by
    rcases hevent with hline | ⟨emission, hemission, heq⟩
    · rw [hline]
      decide
    · rw [heq]
      exact hnixlog emission hemission
  rw [destination_value hversion, hplugin, if_neg hplain,
    if_neg (by decide), if_neg hhost]

theorem event_ne_nixlog_of_tells {host : String} {effect : RecordEffect}
    {records : List RecordEffect} {result : HostDeployResult}
    (htells : Tells host records result) (hmem : effect ∈ records)
    {emission : Emission} (hemission : emissionEffect emission = effect) :
    emission.event ≠ "nixlog" := by
  obtain ⟨before, ending, rfl, hpassing, hending⟩ := htells
  subst hemission
  rcases List.mem_append.mp hmem with hbefore | hlast
  · have hevent := hpassing _ hbefore
    generalize heffect : emissionEffect emission = effect at hevent
    cases hevent <;> rw [(RecordEffect.emit.inj heffect).1] <;> decide
  · cases hending with
    | failed _ _ =>
        rw [List.mem_singleton] at hlast
        exact event_ne_nixlog (.done 1) hlast
    | outcome houtcome =>
        rcases List.mem_cons.mp hlast with hmilestone | hdone
        · exact event_ne_nixlog (.milestone houtcome) hmilestone
        · exact event_ne_nixlog (.done _) (List.mem_singleton.mp hdone)

/-- Feeding a host the records of its own, and nothing else. -/
theorem foldl_feedHost_own {name : String} {records : List EventRecord}
    (hown : ∀ record ∈ records, destination record.value = .host name) :
    (records.map EventRecord.value).foldl (Streams.feedHost name) none =
      if records = [] then none
      else some (feedRecords (HostRun.new name) records) := by
  have hsome (records : List EventRecord) (run : HostRun)
      (hown : ∀ record ∈ records, destination record.value = .host name) :
      (records.map EventRecord.value).foldl (Streams.feedHost name) (some run) =
        some (feedRecords run records) := by
    induction records generalizing run with
    | nil => rfl
    | cons record records ih =>
        have hfirst := hown record List.mem_cons_self
        rw [List.map_cons, List.foldl_cons, Streams.feedHost, if_pos hfirst]
        exact ih _ fun other hmem => hown other (List.mem_cons_of_mem _ hmem)
  cases records with
  | nil => rfl
  | cons record records =>
      have hfirst := hown record List.mem_cons_self
      rw [List.map_cons, List.foldl_cons, Streams.feedHost, if_pos hfirst,
        if_neg (by simp)]
      exact hsome records _ fun other hmem =>
        hown other (List.mem_cons_of_mem _ hmem)

/-- A host is left as it was by the records of others. -/
theorem foldl_feedHost_others {name : String} {records : List EventRecord}
    (hothers : ∀ record ∈ records, destination record.value ≠ .host name)
    (run : Option HostRun) :
    (records.map EventRecord.value).foldl (Streams.feedHost name) run = run := by
  induction records generalizing run with
  | nil => rfl
  | cons record records ih =>
      have hfirst := hothers record List.mem_cons_self
      rw [List.map_cons, List.foldl_cons, Streams.feedHost, if_neg hfirst]
      exact ih (fun other hmem => hothers other (List.mem_cons_of_mem _ hmem)) run

theorem streamFile_injective {left right : String}
    (heq : streamFile left = streamFile right) : left = right := by
  have htext := congrArg String.toList heq
  rw [streamFile, streamFile, String.toList_append, String.toList_append] at htext
  exact String.toList_inj.mp (List.append_cancel_right htext)

theorem map_inFile (stream : String) (records : List EventRecord) :
    (inFile stream records).map (fun entry => entry.record.value) =
      records.map EventRecord.value := by
  rw [inFile, List.map_map]
  rfl

theorem hasJsonlExtension_streamFile {stream : String} (hstream : stream ≠ "") :
    hasJsonlExtension (streamFile stream) := by
  have hne : streamFile stream ≠ ".jsonl" := by
    intro heq
    apply hstream
    apply streamFile_injective
    rw [heq]
    decide
  rw [hasJsonlExtension, Bool.and_eq_true, decide_eq_true_eq, bne_iff_ne]
  refine ⟨?_, hne⟩
  rw [streamFile, String.toList_append]
  exact List.suffix_append ..

theorem FanOutStory.hostRecords_eq (story : FanOutStory) {host : HostStory}
    (hvalid : isValidMemberName host.host) :
    story.hostRecords toVec fromStr host =
      ((story.hostWriter toVec fromStr host.host).emitAll toVec fromStr
        host.emissions).2 := by
  unfold hostRecords streamRecords
  rw [EventWriter.new_of_valid hvalid hvalid]
  rfl

namespace FanOutStory.Ran

variable {toVec fromStr parse} {story : FanOutStory}
  {fromValue : Json → Except String FlattenedDeploySettings}
  (hran : story.Ran toVec fromStr parse fromValue)

include hran

theorem host_ne {host : HostStory} (hmem : host ∈ story.hosts) :
    host.host ≠ "" := by
  intro hempty
  have hvalid := hran.valid host hmem
  rw [hempty] at hvalid
  revert hvalid
  decide

theorem recounted {host : HostStory} (hmem : host ∈ story.hosts) :
    Recounted host.host host.trace host.result := by
  have hok := hran.emits_ok host hmem
  obtain ⟨slot, hdeployed | ⟨error, hfailed⟩⟩ := hran.executed host hmem
  · exact recounted_deployHostWith host.host story.run fromValue story.built
      story.programs none _ _ hdeployed hok
  · exact recounted_abnormalHost host.host story.run error none _ _ hfailed hok

theorem emissions_eq_nil {host : HostStory} (hmem : host ∈ story.hosts)
    (hclosed : opened host.trace = false) : host.emissions = [] := by
  have hemitted := hran.emissions_eq host hmem
  rw [(hran.recounted hmem).silent hclosed] at hemitted
  exact List.map_eq_nil_iff.mp hemitted

theorem tells {host : HostStory} (hmem : host ∈ story.hosts)
    (hopened : opened host.trace) :
    Tells host.host (host.emissions.map emissionEffect) host.result := by
  rw [hran.emissions_eq host hmem]
  exact (hran.recounted hmem).told hopened

theorem event_ne_nixlog {host : HostStory} (hmem : host ∈ story.hosts) :
    ∀ emission ∈ host.emissions, emission.event ≠ "nixlog" := by
  intro emission hemission
  cases hopened : opened host.trace with
  | false =>
      rw [hran.emissions_eq_nil hmem hopened] at hemission
      cases hemission
  | true =>
      exact event_ne_nixlog_of_tells (hran.tells hmem hopened)
        (List.mem_map_of_mem hemission) rfl

theorem destination_host {host : HostStory} (hmem : host ∈ story.hosts)
    {record : EventRecord}
    (hrecord : record ∈ story.hostRecords toVec fromStr host) :
    destination record.value = .host host.host :=
  destination_deploy toVec fromStr (hran.host_ne hmem)
    (hran.event_ne_nixlog hmem) hrecord

omit hran in
theorem map_written :
    (story.written toVec fromStr).map (fun entry => entry.record.value) =
      ((streamRecords toVec fromStr "build" "controller" "build" 0
        story.controller) ++
        story.hosts.flatMap (story.hostRecords toVec fromStr)).map
          EventRecord.value := by
  rw [written, buildWritten, List.map_append, map_inFile, List.map_append,
    List.map_flatMap, List.map_flatMap]
  simp only [map_inFile]

theorem file_of_destination {name : String} :
    ∀ entry ∈ story.written toVec fromStr,
      destination entry.record.value = .host name →
        entry.file = streamFile name := by
  intro entry hmem hdestination
  rcases List.mem_append.mp hmem with hbuild | hhosts
  · obtain ⟨record, hrecord, rfl⟩ := List.mem_map.mp hbuild
    exact (destination_build toVec fromStr hrecord name hdestination).elim
  · obtain ⟨host, hhost, hentry⟩ := List.mem_flatMap.mp hhosts
    obtain ⟨record, hrecord, rfl⟩ := List.mem_map.mp hentry
    rw [hran.destination_host hhost hrecord] at hdestination
    rw [Destination.host.inj hdestination]

/-- The records of the hosts other than one. -/
theorem destination_others {name : String} {hosts : List HostStory}
    (hsub : ∀ host ∈ hosts, host ∈ story.hosts ∧ host.host ≠ name) :
    ∀ record ∈ hosts.flatMap (story.hostRecords toVec fromStr),
      destination record.value ≠ .host name := by
  intro record hmem hdestination
  obtain ⟨host, hhost, hrecord⟩ := List.mem_flatMap.mp hmem
  obtain ⟨hstory, hne⟩ := hsub host hhost
  rw [hran.destination_host hstory hrecord] at hdestination
  exact hne (Destination.host.inj hdestination)

variable {actions : List Action}
  (hwrites : Writes toVec (story.written toVec fromStr) actions)

include hwrites

/-- A polled reader knows of a host what its own records say. -/
theorem hosts_eq {host : HostStory} (hmem : host ∈ story.hosts) :
    (Tailer.run parse (actions ++ [.poll])).tailer.streams.hosts[host.host]? =
      if story.hostRecords toVec fromStr host = [] then none
      else some (feedRecords (HostRun.new host.host)
        (story.hostRecords toVec fromStr host)) := by
  obtain ⟨before, after, hsplit⟩ := List.append_of_mem hmem
  have hdistinct := hran.distinct
  rw [hsplit, List.map_append, List.map_cons] at hdistinct
  obtain ⟨-, hlater, hcross⟩ := List.nodup_append.mp hdistinct
  have hbefore : ∀ other ∈ before,
      other ∈ story.hosts ∧ other.host ≠ host.host := by
    intro other hother
    rw [hsplit]
    exact ⟨List.mem_append_left _ hother,
      hcross _ (List.mem_map_of_mem hother) _ List.mem_cons_self⟩
  have hafter : ∀ other ∈ after,
      other ∈ story.hosts ∧ other.host ≠ host.host := by
    intro other hother
    rw [hsplit]
    refine ⟨List.mem_append_right _ (List.mem_cons_of_mem _ hother), ?_⟩
    intro heq
    exact (List.nodup_cons.mp hlater).1 (heq ▸ List.mem_map_of_mem hother)
  rw [hosts_written hran.reads_back hwrites hran.file_of_destination
      (hasJsonlExtension_streamFile (hran.host_ne hmem)),
    map_written, List.map_append, List.foldl_append,
    foldl_feedHost_others fun record hrecord =>
      destination_build toVec fromStr hrecord host.host,
    hsplit, List.flatMap_append, List.flatMap_cons, List.map_append,
    List.foldl_append, foldl_feedHost_others
      (hran.destination_others hbefore), List.map_append,
    List.foldl_append, foldl_feedHost_others
      (hran.destination_others hafter)]
  exact foldl_feedHost_own fun record hrecord =>
    hran.destination_host hmem hrecord

/-- A reader knows of no other hosts. -/
theorem hosts_eq_none {name : String}
    (hname : ∀ host ∈ story.hosts, host.host ≠ name) :
    (Tailer.run parse (actions ++ [.poll])).tailer.streams.hosts[name]? = none := by
  have hothers := hran.destination_others
    fun host hmem => ⟨hmem, hname host hmem⟩
  have hnone : ∀ entry ∈ story.written toVec fromStr,
      destination entry.record.value = .host name →
        entry.file = streamFile "build" := by
    intro entry hmem hdestination
    rcases List.mem_append.mp hmem with hbuild | hhosts
    · obtain ⟨record, -, rfl⟩ := List.mem_map.mp hbuild
      rfl
    · obtain ⟨host, hhost, hentry⟩ := List.mem_flatMap.mp hhosts
      obtain ⟨record, hrecord, rfl⟩ := List.mem_map.mp hentry
      exact (hothers record (List.mem_flatMap.mpr ⟨host, hhost, hrecord⟩)
        hdestination).elim
  rw [hosts_written hran.reads_back hwrites hnone
      (hasJsonlExtension_streamFile (by decide)),
    map_written, List.map_append, List.foldl_append,
    foldl_feedHost_others fun record hrecord =>
      destination_build toVec fromStr hrecord name,
    foldl_feedHost_others hothers]

/-- A reader has a host's result exactly when its stream tells it. -/
theorem host_agrees_iff {host : HostStory} (hmem : host ∈ story.hosts) :
    ((Tailer.run parse
        (actions ++ [.poll])).tailer.streams.hosts[host.host]?).map
          (fun run => (run.state, run.rc)) =
        some (host.result.state, some host.result.rc) ↔
      TellsAll toVec fromStr story host := by
  rw [hran.hosts_eq hwrites hmem,
    hostRecords_eq toVec fromStr story (hran.valid host hmem), TellsAll]
  cases hopened : opened host.trace with
  | false =>
      rw [hran.emissions_eq_nil hmem hopened]
      simp [EventWriter.emitAll]
  | true =>
      have hverdict := verdict_iff toVec fromStr
        (story.hostWriter toVec fromStr host.host) (hran.tells hmem hopened)
      dsimp only at hverdict
      have hkeeps : (host.host = "build" →
          KeepsVerdict toVec fromStr
            (story.hostWriter toVec fromStr host.host) host.emissions) ↔
          KeepsVerdict toVec fromStr
            (story.hostWriter toVec fromStr host.host) host.emissions := by
        constructor
        · intro hbuild
          by_cases hname : host.host = "build"
          · exact hbuild hname
          · exact keepsVerdict_of_unbounded toVec fromStr
              (by simp [hostWriter, hname]) _
        · intro hall _
          exact hall
      rw [hkeeps, ← hverdict]
      split
      · next hnone =>
          rw [hnone]
          simp [feedRecords, HostRun.new]
      · simp

omit hran hwrites in
theorem mem_results_iff (hdistinct : (story.hosts.map HostStory.host).Nodup)
    {name : String} {result : HostDeployResult} :
    story.results[name]? = some result ↔
      ∃ host ∈ story.hosts, host.host = name ∧ host.result = result := by
  have hpairs : (story.hosts.map fun host =>
      (host.host, host.result)).Pairwise fun left right =>
        ¬ compare left.1 right.1 = .eq := by
    rw [List.pairwise_map]
    rw [List.Nodup, List.pairwise_map] at hdistinct
    apply hdistinct.imp
    intro left right hne heq
    exact hne (Std.LawfulEqCmp.eq_of_compare heq)
  constructor
  · intro hresult
    have hname : name ∈ story.results := by
      rw [Std.TreeMap.mem_iff_isSome_getElem?, hresult]
      rfl
    rw [results, Std.TreeMap.mem_ofList, List.contains_iff_mem,
      List.map_map] at hname
    obtain ⟨host, hmem, rfl⟩ := List.mem_map.mp hname
    have hfound := Std.TreeMap.getElem?_ofList_of_mem Std.ReflCmp.compare_self
      hpairs (List.mem_map_of_mem hmem)
    exact ⟨host, hmem, rfl, Option.some.inj (hfound.symm.trans hresult)⟩
  · intro hhost
    obtain ⟨host, hmem, rfl, rfl⟩ := hhost
    exact Std.TreeMap.getElem?_ofList_of_mem Std.ReflCmp.compare_self
      hpairs (List.mem_map_of_mem hmem)

/-- The states a polled reader knows are those of the results. -/
theorem mem_states_iff
    (htells : ∀ host ∈ story.hosts, TellsAll toVec fromStr story host)
    (state : HostState) :
    state ∈ (Tailer.run parse
        (actions ++ [.poll])).tailer.streams.hosts.values.map HostRun.state ↔
      ∃ host ∈ story.hosts, host.result.state = state := by
  rw [List.mem_map]
  constructor
  · intro hknown
    obtain ⟨known, hvalue, rfl⟩ := hknown
    obtain ⟨name, hname⟩ := BTreeMap.mem_values_iff.mp hvalue
    by_cases hhost : ∃ host ∈ story.hosts, host.host = name
    · obtain ⟨host, hmem, rfl⟩ := hhost
      have hagrees := (hran.host_agrees_iff hwrites hmem).mpr (htells host hmem)
      rw [hname, Option.map_some, Option.some.injEq, Prod.mk.injEq] at hagrees
      exact ⟨host, hmem, hagrees.1.symm⟩
    · have hnone := hran.hosts_eq_none hwrites fun host hmem heq =>
        hhost ⟨host, hmem, heq⟩
      rw [hname] at hnone
      cases hnone
  · intro hresult
    obtain ⟨host, hmem, rfl⟩ := hresult
    have hagrees := (hran.host_agrees_iff hwrites hmem).mpr (htells host hmem)
    obtain ⟨known, hknown, heq⟩ := Option.map_eq_some_iff.mp hagrees
    exact ⟨known, BTreeMap.mem_values_iff.mpr ⟨host.host, hknown⟩,
      (Prod.mk.inj heq).1⟩

omit hwrites in
/-- The fleet's return code counts the build and the hosts. -/
theorem outcome_rc_iff (payload : Meta) :
    (settleFanOut payload story.results).rc = 0 ↔
      buildFailed payload = false ∧ ∀ host ∈ story.hosts,
        host.result.state ≠ .failed ∧ host.result.state ≠ .rolledBack := by
  rw [settleFanOut_rc_iff, ← buildFailed_eq_false_iff]
  constructor
  · intro hgood
    refine ⟨hgood.1, fun host hmem => ?_⟩
    exact hgood.2 host.host host.result
      ((mem_results_iff hran.distinct).mpr ⟨host, hmem, rfl, rfl⟩)
  · intro hgood
    refine ⟨hgood.1, fun name result hresult => ?_⟩
    obtain ⟨host, hmem, -, rfl⟩ := (mem_results_iff hran.distinct).mp hresult
    exact hgood.2 host hmem

end FanOutStory.Ran

theorem settledMeta_rc (payload : Meta) (finishedAt : Json)
    (outcome : DeployOutcome) :
    (settledMeta payload finishedAt outcome)["rc"]? =
      some (.int outcome.rc) := by
  change (((_ : Meta).insert "finished_at" _).insert "summary" _)["rc"]? = _
  rw [Std.TreeMap.getElem?_insert, if_neg (by decide),
    Std.TreeMap.getElem?_insert, if_neg (by decide)]
  exact Std.TreeMap.getElem?_insert_self

/-- An observer's verdict, once the run is settled and its processes are gone,
is read off the polled streams. -/
theorem liveness_settled {processExists : Int → Bool} {payload : Meta}
    {finishedAt : Json} {outcome : DeployOutcome} {actions : List Action}
    (hdead : pidAlive processExists
      ((settledMeta payload finishedAt outcome).getI64 "pid") = false) :
    ((observer parse (settledMeta payload finishedAt outcome)
        actions).liveness parse processExists).1 =
      ((observer parse (settledMeta payload finishedAt outcome)
        actions).poll parse).settledLiveness := by
  have hrc : (observer parse (settledMeta payload finishedAt outcome)
      actions).directory.payload["rc"]? ≠ none := by
    intro hnone
    have hsome := (settledMeta_rc payload finishedAt outcome).symm.trans hnone
    cases hsome
  have hpid : pidAlive processExists (observer parse
      (settledMeta payload finishedAt outcome) actions).directory.pid =
        false := hdead
  rw [ObservedRun.liveness, if_neg fun hgone => hrc hgone.1, hpid]
  rfl

theorem recordedRc_settled (payload : Meta) (finishedAt : Json)
    (results : BTreeMap HostDeployResult) (events : Directory) :
    RunDirectory.recordedRc
        { payload :=
            settledMeta payload finishedAt (settleFanOut payload results)
          events } = some (settleFanOut payload results).rc := by
  rw [RunDirectory.recordedRc, Meta.getI64, settledMeta_rc, settleFanOut]
  dsimp only
  split <;> rfl

/-- With a return code recorded, the hosts and that code decide. -/
theorem settledLiveness_of_recorded {run : ObservedRun} {rc : Int}
    (hrc : run.directory.recordedRc = some rc) :
    run.settledLiveness =
      if HostState.rolledBack ∈ run.states then .rolledBack
      else if HostState.failed ∈ run.states ∨ rc ≠ 0 then .failed
      else .finished := by
  rw [ObservedRun.settledLiveness, hrc]
  split
  · rfl
  · by_cases hfailed : HostState.failed ∈ run.states
    · simp [hfailed]
    · by_cases hzero : rc = 0
      · simp [hfailed, hzero]
      · simp [hfailed, hzero]

/-- An observer of streams that tell everything judges the run as the engine
does. -/
theorem FanOutStory.Ran.liveness_agrees {story : FanOutStory}
    {fromValue : Json → Except String FlattenedDeploySettings}
    (hran : story.Ran toVec fromStr parse fromValue) {actions : List Action}
    (hwrites : Writes toVec (story.written toVec fromStr) actions)
    (htells : ∀ host ∈ story.hosts, TellsAll toVec fromStr story host)
    (payload : Meta) (finishedAt : Json) :
    let outcome := settleFanOut payload story.results
    ((observer parse (settledMeta payload finishedAt outcome) actions).poll
        parse).settledLiveness = settledVerdict story outcome := by
  have hrolled := hran.mem_states_iff hwrites htells .rolledBack
  have hfailed := hran.mem_states_iff hwrites htells .failed
  have hzero := hran.outcome_rc_iff payload
  rw [run_poll] at hrolled hfailed
  have hrc := recordedRc_settled payload finishedAt story.results
    (Tailer.run parse actions).directory
  generalize settleFanOut payload story.results = outcome at hzero hrc ⊢
  intro outcome
  refine (settledLiveness_of_recorded hrc).trans ?_
  unfold settledVerdict
  by_cases hback : ∃ host ∈ story.hosts, host.result.state = .rolledBack
  · have hany : story.hosts.any (·.result.state = .rolledBack) := by
      simpa using hback
    rw [if_pos hany]
    exact if_pos (hrolled.mpr hback)
  · have hany : ¬ story.hosts.any (·.result.state = .rolledBack) := by
      simpa using hback
    rw [if_neg hany]
    refine (if_neg fun hknown => hback (hrolled.mp hknown)).trans ?_
    -- A failed host already shows in the fleet's return code.
    refine if_congr (or_iff_right_of_imp ?_) rfl rfl
    intro hknown heq
    obtain ⟨host, hmem, hstate⟩ := hfailed.mp hknown
    exact ((hzero.mp heq).2 host hmem).1 hstate

/-- The observer has the engine's verdicts, for every way the streams were
written and polled, exactly when every host's stream could be opened and, for a
host named like the build stream, the records that tell its result still went
into it. -/
theorem verdictsAgree_iff {story : FanOutStory}
    {fromValue : Json → Except String FlattenedDeploySettings}
    (hran : story.Ran toVec fromStr parse fromValue) :
    VerdictsAgree toVec fromStr parse story ↔
      ∀ host ∈ story.hosts, TellsAll toVec fromStr story host := by
  constructor
  · intro hagree host hmem
    have hwrites := writes_appends toVec (story.written toVec fromStr)
    exact (hran.host_agrees_iff hwrites hmem).mp
      (hagree.hosts _ hwrites host hmem)
  · intro htells
    constructor
    · intro actions hwrites host hmem
      exact (hran.host_agrees_iff hwrites hmem).mpr (htells host hmem)
    · intro actions hwrites payload finishedAt processExists _ _ hdead
      rw [liveness_settled parse (hdead "pid" (by simp))]
      exact hran.liveness_agrees toVec fromStr parse hwrites htells payload
        finishedAt

/-! ## Two fan-outs of one member -/

section Runs

def quoted (text : String) : String := "\"" ++ text ++ "\""

mutual

/-- The compact printer, for texts without a character to escape. -/
def compactJson : Json → String
  | .null => "null"
  | .bool value => if value then "true" else "false"
  | .int value => toString value
  | .float literal => literal
  | .string text => quoted text
  | .array values => "[" ++ ",".intercalate (compactValues values) ++ "]"
  | .object fields =>
      "\x7b" ++ ",".intercalate (compactFields fields) ++ "\x7d"

def compactValues : List Json → List String
  | [] => []
  | value :: values => compactJson value :: compactValues values

def compactFields : List (String × Json) → List String
  | [] => []
  | (key, value) :: fields =>
      (quoted key ++ ":" ++ compactJson value) :: compactFields fields

end

/-- A reader of the lines of some records. -/
def readTable (records : List EventRecord) (line : String) : Option Json :=
  (records.find? fun record => record.line compactJson = line).map
    EventRecord.value

theorem readsBack_of_mem {records : List EventRecord}
    (hdistinct : (records.map (EventRecord.line compactJson)).Nodup)
    (hlines : ∀ record ∈ records, newlineByte ∉
      (record.text compactJson).toByteArray.data.toList)
    {record : EventRecord} (hmem : record ∈ records) :
    ReadsBack compactJson (readTable records) record where
  one_line := newline_notMem_of_bytes (hlines record hmem)
  read_eq := by
    refine ⟨record.value, ?_, ⟨fun _ => rfl, fun _ => rfl⟩⟩
    obtain ⟨before, after, rfl⟩ := List.append_of_mem hmem
    rw [List.map_append, List.map_cons] at hdistinct
    obtain ⟨-, -, hcross⟩ := List.nodup_append.mp hdistinct
    have hbefore : before.find? (fun other =>
        other.line compactJson = record.line compactJson) = none := by
      rw [List.find?_eq_none]
      intro other hother heq
      exact hcross _ (List.mem_map_of_mem hother) _ List.mem_cons_self
        (of_decide_eq_true heq)
    rw [readTable, List.find?_append, hbefore, Option.none_or]
    simp

def sampleTime : Json := .float "1750000000.5"

/-- A member's story, all of its records made at one time. -/
def soloHost (host : String)
    (played : Trace EngineEffects × HostDeployResult × Option IoError) :
    HostStory :=
  { host
    trace := played.1
    result := played.2.1
    emissions := (emitted played.1).filterMap (stamped sampleTime) }

/-- A fan-out of one member. -/
def solo (run : RegisteredDeployRun) (built : BuiltProfiles) (host : String)
    (controller : List Emission)
    (played : Trace EngineEffects × HostDeployResult × Option IoError) :
    FanOutStory :=
  { run
    built
    programs := noPrograms
    controller
    hosts := [soloHost host played] }

def memberWriter (host : String) : EventWriter :=
  { host
    plugin := "deploy"
    buildFilter :=
      if host = "build" then some BuildLogFilter.default else none
    bytes := 0
    truncated := false }

/-- The records the member may make, a notice among them. -/
def memberRecords (host : String) (trace : Trace EngineEffects) :
    List EventRecord :=
  (memberWriter host).notice sampleTime ::
    ((emitted trace).filterMap (stamped sampleTime)).map
      (memberWriter host).record

/-- A registry and a host that do everything they are asked. -/
def willing : (effect : EngineEffects.Request) → EngineEffects.Reply effect
  | .inl _ => .ok ()
  | .inr (.spawn _) => .ok ()
  | .inr (.await _) => .ok (exitedWith 0)
  | .inr (.poll _) => none
  | .inr (.race _ _) => .first (.ok (exitedWith 0))

/-- A dry run of a boot-only member whose name is that of the build stream. -/
def buildMemberRun : RegisteredDeployRun :=
  { webRun with
    plan := { webRun.plan with
      targets := ["build"]
      settings := (∅ : BTreeMap Json).insert "build" webSettingsValue
      dryActivate := true
      boot := true } }

def buildMemberBuilt : BuiltProfiles :=
  { paths := (∅ : BTreeMap String).insert "build" "/nix/store/abc-system"
    failures := ∅ }

def buildMember : Trace EngineEffects × HostDeployResult × Option IoError :=
  ((deployHostWith (fun _ => .ok webSettings) buildMemberRun buildMemberBuilt
    "build" noPrograms).run none).runAgainst willing

def buildStart : Emission :=
  { event := "status"
    fields :=
      [("cmd", .array [.string "nix", .string "build"]),
        ("state", .string "start")]
    ts := sampleTime }

def buildWarning : Emission :=
  { event := "line"
    fields :=
      [("line", .string "warning: Git tree '/etc/nixos' is dirty"),
        ("stream", .string "nix")]
    ts := sampleTime }

def buildProgress : Emission :=
  { event := "progress"
    fields :=
      [("built", .int 1), ("current", .string "system"), ("errors", .int 0),
        ("fetched", .int 0), ("fetched_done", .int 0), ("final", .bool true),
        ("finished", .int 1)]
    ts := sampleTime }

def buildDone : Emission :=
  { event := "status"
    fields := [("rc", .int 0), ("state", .string "done")]
    ts := sampleTime }

/-- What a build emits that warns a number of times. -/
def warningBuild (count : ℕ) : List Emission :=
  (buildStart :: List.replicate count buildWarning) ++
    [buildProgress, buildDone]

def noisyBuild (count : ℕ) : FanOutStory :=
  solo buildMemberRun buildMemberBuilt "build" (warningBuild count) buildMember

def controllerWriter : EventWriter :=
  { host := "controller"
    plugin := "build"
    buildFilter := some BuildLogFilter.default
    bytes := 0
    truncated := false }

variable {run : RegisteredDeployRun} {built : BuiltProfiles} {host : String}
  {controller : List Emission}
  {played : Trace EngineEffects × HostDeployResult × Option IoError}

theorem solo_ran {fromValue : Json → Except String FlattenedDeploySettings}
    (hvalid : isValidMemberName host)
    (hexecuted : Executes
        ((deployHostWith fromValue run built host noPrograms).run none)
        played.1 played.2 ∨
      ∃ error, Executes ((abnormalHost run host error).run none) played.1
        played.2)
    (hok : EmitsOk played.1)
    (hback : ∀ entry ∈
      (solo run built host controller played).written toVec fromStr,
      ReadsBack toVec parse entry.record) :
    (solo run built host controller played).Ran toVec fromStr parse
      fromValue where
  valid member hmem := by
    rw [List.mem_singleton.mp hmem]
    exact hvalid
  distinct := by simp [solo]
  executed member hmem := by
    rw [List.mem_singleton.mp hmem]
    exact ⟨played.2.2, hexecuted⟩
  emits_ok member hmem := by
    rw [List.mem_singleton.mp hmem]
    exact hok
  emissions_eq member hmem := by
    rw [List.mem_singleton.mp hmem]
    exact map_stamped sampleTime played.1
  reads_back := hback

theorem mem_solo_host (hvalid : isValidMemberName host) {entry : Written}
    (hmem : entry ∈ (solo run built host controller played).hosts.flatMap
      fun member => inFile member.host
        ((solo run built host controller played).hostRecords toVec fromStr
          member)) :
    entry.record ∈ memberRecords host played.1 := by
  obtain ⟨member, hmember, hentry⟩ := List.mem_flatMap.mp hmem
  obtain ⟨record, hrecord, rfl⟩ := List.mem_map.mp hentry
  obtain rfl := List.mem_singleton.mp hmember
  have hrecords := @FanOutStory.hostRecords_eq toVec fromStr
    (solo run built host controller played) (soloHost host played) hvalid
  obtain ⟨emission, hemission, hwritten⟩ :=
    EventWriter.mem_emitAll toVec fromStr (hrecords ▸ hrecord)
  have hts : emission.ts = sampleTime := by
    obtain ⟨effect, -, hstamped⟩ := List.mem_filterMap.mp hemission
    cases effect <;> cases hstamped
    rfl
  have hsame : ((solo run built host controller played).hostWriter toVec
      fromStr (soloHost host played).host).SameStream (memberWriter host) :=
    ⟨rfl, rfl, rfl⟩
  rw [hsame.record_eq, hsame.notice_eq, hts] at hwritten
  rcases hwritten with rfl | rfl
  · exact List.mem_cons_of_mem _ (List.mem_map_of_mem hemission)
  · exact List.mem_cons_self

/-- A member whose profile could not be built. -/
def unbuiltMember : Trace EngineEffects × HostDeployResult × Option IoError :=
  ((abnormalHost webRun "web" "profile could not be built").run
    none).runAgainst willing

def unbuiltRecords : List EventRecord := memberRecords "web" unbuiltMember.1

def unbuilt : FanOutStory := solo webRun webBuilt "web" [] unbuiltMember

theorem unbuilt_ran :
    unbuilt.Ran compactJson fromStr (readTable unbuiltRecords)
      fun _ => .ok webSettings := by
  apply solo_ran
  · decide
  · exact .inr ⟨_, executes_runAgainst willing _⟩
  · exact emitsOk_runAgainst (fun _ => rfl) _
  · intro entry hmem
    rcases List.mem_append.mp hmem with hbuild | hhost
    · cases hbuild
    · exact readsBack_of_mem (by decide +kernel) (by decide +kernel)
        (mem_solo_host compactJson fromStr (by decide) hhost)

/-- An observer sees it fail, and the run with it. -/
theorem unbuilt_agree :
    VerdictsAgree compactJson (fun _ => none) (readTable unbuiltRecords)
      unbuilt := by
  apply (verdictsAgree_iff compactJson (fun _ => none) _
    (unbuilt_ran fun _ => none)).mpr
  intro member hmem
  rw [List.mem_singleton.mp hmem]
  exact ⟨rfl, fun hname => absurd hname (by decide)⟩

theorem size_start :
    (controllerWriter.record buildStart).size compactJson = 118 := by
  decide +kernel

theorem size_warning :
    (controllerWriter.record buildWarning).size compactJson = 142 := by
  decide +kernel

theorem size_progress :
    (controllerWriter.record buildProgress).size compactJson = 177 := by
  decide +kernel

theorem size_done :
    (controllerWriter.record buildDone).size compactJson = 102 := by
  decide +kernel

/-- The records that end a build go into the reserve. -/
theorem emitAll_ending {bytes : ℕ}
    (hbytes : bytes ≤ buildLogMaxBytes - terminalReserve - 1024) :
    ({ controllerWriter with bytes : EventWriter }.emitAll compactJson fromStr
        [buildProgress, buildDone]).2 =
      [controllerWriter.record buildProgress,
        controllerWriter.record buildDone] := by
  have hreserve : bytes + 177 + 102 ≤ buildLogMaxBytes - 1024 := by
    rw [buildLogMaxBytes, terminalReserve] at *
    omega
  have hfirst : ({ controllerWriter with bytes : EventWriter }).full compactJson
      (controllerWriter.record buildProgress) = false := by
    have hterminal : EventWriter.isTerminalRecord
        (controllerWriter.record buildProgress) = true := by decide
    have hfits : ¬ bytes + 177 > buildLogMaxBytes - 1024 :=
      Nat.not_lt.mpr (Nat.le_trans (Nat.le_add_right ..) hreserve)
    simp [EventWriter.full, hterminal, size_progress, hfits]
  have hsecond : ({ controllerWriter with
      bytes := bytes + 177 : EventWriter }).full compactJson
        (controllerWriter.record buildDone) = false := by
    have hterminal : EventWriter.isTerminalRecord
        (controllerWriter.record buildDone) = true := by decide
    simp [EventWriter.full, hterminal, size_done, Nat.not_lt.mpr hreserve]
  have hwrite : ({ controllerWriter with bytes : EventWriter }).emitAt
      compactJson fromStr buildProgress =
        ({ controllerWriter with bytes := bytes + 177 },
          [controllerWriter.record buildProgress]) := by
    rw [EventWriter.emitAt_of_fits compactJson fromStr (by decide) hfirst,
      EventWriter.write]
    exact congrArg (fun size => (({ controllerWriter with
      bytes := bytes + size } : EventWriter), _)) size_progress
  rw [EventWriter.emitAll, hwrite, EventWriter.emitAll,
    EventWriter.emitAt_of_fits compactJson fromStr (by decide) hsecond]
  rfl

/-- The whole build goes into its stream. -/
theorem streamRecords_warningBuild {count : ℕ} (hcount : count ≤ 117679) :
    streamRecords compactJson fromStr "build" "controller" "build" 0
        (warningBuild count) =
      (warningBuild count).map controllerWriter.record := by
  have hnew : EventWriter.new "build" "controller" "build" (.ok 0) =
      .ok controllerWriter := rfl
  have hsum : ((buildStart :: List.replicate count buildWarning).map
      fun emission =>
        (controllerWriter.record emission).size compactJson).sum =
          118 + count * 142 := by
    simp [size_start, size_warning]
  have hroom : controllerWriter.bytes +
      ((buildStart :: List.replicate count buildWarning).map fun emission =>
        (controllerWriter.record emission).size compactJson).sum ≤
          buildLogMaxBytes - terminalReserve - 1024 := by
    have hbytes : controllerWriter.bytes = 0 := rfl
    rw [hsum, hbytes, buildLogMaxBytes, terminalReserve]
    omega
  have hevents : ∀ emission ∈ buildStart :: List.replicate count buildWarning,
      emission.event ≠ "nixlog" := by
    intro emission hmem
    rcases List.mem_cons.mp hmem with rfl | hreplicate
    · decide
    · rw [List.eq_of_mem_replicate hreplicate]
      decide
  rw [streamRecords, hnew, warningBuild, List.map_append]
  dsimp only
  rw [EventWriter.emitAll_append,
    EventWriter.emitAll_of_room compactJson fromStr hevents rfl hroom]
  exact congrArg (_ ++ ·) (emitAll_ending fromStr hroom)

theorem length_content_inFile (stream : String) (records : List EventRecord) :
    (content toVec (streamFile stream) (inFile stream records)).length =
      (records.map fun record => record.size toVec).sum := by
  induction records with
  | nil => rfl
  | cons record records ih =>
      have hcons := length_content_cons toVec
        { file := streamFile stream, record } (inFile stream records)
      rw [List.map_cons, List.sum_cons, ← ih]
      exact hcons

/-- What the build leaves in the stream before the host opens it. -/
theorem noisyBuild_openedLength {count : ℕ} (hcount : count ≤ 117679) :
    (noisyBuild count).openedLength compactJson fromStr "build" =
      397 + count * 142 := by
  have hcontroller : (noisyBuild count).controller = warningBuild count := rfl
  rw [FanOutStory.openedLength, FanOutStory.buildWritten, hcontroller,
    streamRecords_warningBuild fromStr hcount, length_content_inFile]
  simp [warningBuild, size_start, size_warning, size_progress, size_done]
  omega

def noisyRecords : List EventRecord :=
  [buildStart, buildWarning, buildProgress, buildDone].map
      controllerWriter.record ++
    memberRecords "build" buildMember.1

theorem noisyRecords_distinct :
    (noisyRecords.map (EventRecord.line compactJson)).Nodup := by
  decide +kernel

theorem noisyRecords_lines : ∀ record ∈ noisyRecords, newlineByte ∉
    (record.text compactJson).toByteArray.data.toList := by
  decide +kernel

theorem mem_noisyRecords {count : ℕ} (hcount : count ≤ 117679) :
    ∀ entry ∈ (noisyBuild count).written compactJson fromStr,
      entry.record ∈ noisyRecords := by
  intro entry hmem
  rcases List.mem_append.mp hmem with hbuild | hhost
  · have hcontroller : (noisyBuild count).controller = warningBuild count := rfl
    rw [FanOutStory.buildWritten, hcontroller,
      streamRecords_warningBuild fromStr hcount] at hbuild
    obtain ⟨record, hrecord, rfl⟩ := List.mem_map.mp hbuild
    obtain ⟨emission, hemission, rfl⟩ := List.mem_map.mp hrecord
    have hkind : emission ∈
        [buildStart, buildWarning, buildProgress, buildDone] := by
      simp only [warningBuild, List.mem_append, List.mem_cons,
        List.not_mem_nil, or_false] at hemission ⊢
      rcases hemission with (hstart | hwarning) | hend
      · exact .inl hstart
      · exact .inr (.inl (List.eq_of_mem_replicate hwarning))
      · exact .inr (.inr hend)
    exact List.mem_append_left _ (List.mem_map_of_mem hkind)
  · exact List.mem_append_right _
      (mem_solo_host compactJson fromStr (by decide) hhost)

theorem noisyBuild_ran {count : ℕ} (hcount : count ≤ 117679) :
    (noisyBuild count).Ran compactJson fromStr (readTable noisyRecords)
      fun _ => .ok webSettings := by
  apply solo_ran
  · decide
  · exact .inl (executes_runAgainst willing _)
  · exact emitsOk_runAgainst (fun _ => rfl) _
  · intro entry hmem
    exact readsBack_of_mem noisyRecords_distinct noisyRecords_lines
      (mem_noisyRecords fromStr hcount entry hmem)

/-- A full build stream keeps the member's milestone from the observer: the
engine reports a pending reboot, and every record was accepted. -/
theorem noisyBuild_not_agree :
    (noisyBuild 117679).Ran compactJson (fun _ => none) (readTable noisyRecords)
        (fun _ => .ok webSettings) ∧
      buildMember.2.1.state = .rebootPending ∧
      ¬ VerdictsAgree compactJson (fun _ => none) (readTable noisyRecords)
        (noisyBuild 117679) := by
  have hran := noisyBuild_ran (fun _ => none) (Nat.le_refl 117679)
  refine ⟨hran, rfl, ?_⟩
  intro hagree
  have hwrites := writes_appends compactJson
    ((noisyBuild 117679).written compactJson fun _ => none)
  have htells := (hran.host_agrees_iff hwrites List.mem_cons_self).mp
    (hagree.hosts _ hwrites _ List.mem_cons_self)
  have hspent : Exhausted ((noisyBuild 117679).hostWriter compactJson
      (fun _ => none) "build") := by
    refine ⟨rfl, ?_⟩
    rw [FanOutStory.hostWriter]
    dsimp only
    rw [noisyBuild_openedLength (fun _ => none) (Nat.le_refl _),
      buildLogMaxBytes, terminalReserve]
    omega
  have hmilestone : milestoneRecord "reboot-pending" ∈
      ((emitted buildMember.1).filterMap
        (stamped sampleTime)).map emissionEffect := by
    have hsixth : (emitted buildMember.1)[5]? =
        some (milestoneRecord "reboot-pending") := rfl
    rw [map_stamped]
    exact List.mem_of_getElem? hsixth
  exact not_keepsVerdict_of_exhausted compactJson (fun _ => none) hspent
    .rebootPending hmilestone (htells.2 rfl)

end Runs

end Mandala.Engine
