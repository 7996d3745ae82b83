import Mandala.Core.Fallible
import Mandala.Engine.Data
import Mandala.Registry.RunId

/-!
# Recovering a partly failed build

The batch build failed, so the output of every target is probed on its own, with
building and substitution turned off.  Targets, resolved outputs and out-links
meet by position only.
-/

namespace Mandala.Engine

open Mandala.Data Mandala.Effects Mandala.Registry
open Mandala.Deploy hiding joinPath

/-! ## Paths -/

/-- `Path::is_absolute`. -/
def isAbsolute (path : String) : Bool := path.toList.head? = some '/'

/-- `Path::components`, the root first. -/
def pathComponents (path : String) : List (List Char) :=
  if isAbsolute path then ['/'] :: components path else components path

/-- Paths are equal component by component. -/
def SamePath (left right : String) : Prop :=
  pathComponents left = pathComponents right

instance (left right : String) : Decidable (SamePath left right) :=
  inferInstanceAs (Decidable (_ = _))

/-- `Path::starts_with`. -/
def startsWith (path base : String) : Bool :=
  (pathComponents base).isPrefixOf (pathComponents path)

/-- `Path::file_name`. -/
def fileName (path : String) : Option String :=
  match (components path).getLast? with
  | none => none
  | some part =>
      if part = ['.'] ∨ part = ['.', '.'] then none else some (String.ofList part)

/-- Drop the parts in front that are no components, on the parts of a path from
its end; the last of them is the path's first and stays. -/
def dropIdle : List (List Char) → List (List Char)
  | part :: next :: parts =>
      if isComponent part then part :: next :: parts else dropIdle (next :: parts)
  | parts => parts

/-- `Path::parent`, of a path with a file name. -/
def parent (path : String) : String :=
  match dropIdle (dropIdle (path.toList.splitOnP (· = '/')).reverse).tail with
  | [[]] => "/"
  | parts => String.ofList (['/'].intercalate parts.reverse)

/-- `Path::with_file_name`. -/
def withFileName (path name : String) : String :=
  joinPath (if (fileName path).isSome then parent path else path) name

/-- Where the build leaves the link of the target at an index. -/
def profileLink (outLink : String) (index : ℕ) : String :=
  if index = 0 then outLink
  else
    withFileName outLink
      ((fileName outLink).getD "profile" ++ "-" ++ Nat.repr index)

/-! ## The requests -/

inductive RecoveryEffect where
  /-- Run a program to its end. -/
  | run (program : String) (arguments : List String)
  | readLink (path : String)
  deriving DecidableEq, Repr

abbrev RecoveryEffect.Reply : RecoveryEffect → Type
  | run _ _ => Finished
  | readLink _ => Except IoError String

abbrev Recovering : Signature := ⟨RecoveryEffect, RecoveryEffect.Reply⟩

inductive BuildError where
  | io (error : IoError)
  | missingProfileLink (host path : String)
  | invalidProfilePath (host path : String)
  deriving DecidableEq, Repr

abbrev Building := Fallible Recovering BuildError

/-- `output_std`, with its error passed on. -/
def outputStd (program : String) (arguments : List String) : Building Output :=
  ExceptT.mk (.request (.run program arguments) fun finished =>
    .done (finished.mapError .io))

def readLink (path : String) : Building (Except IoError String) :=
  ExceptT.mk (.request (.readLink path) fun found => .done (.ok found))

/-! ## Resolving the profiles -/

def resolveProfile (value : Json) : Except BuildError (String × String) :=
  match value.getStr "drvPath", (value.get "outputs").bind Json.asObject with
  | some drv, some [(name, path)] =>
      if "/nix/store/".toList <+: drv.toList ∧ ".drv".toList <:+ drv.toList then
        match path.asStr.filter fun path => "/nix/store/".toList <+: path.toList with
        | some path => .ok (drv ++ "^" ++ name, path)
        | none => .error (.io "profile has no statically known store output")
      else
        .error (.io "profile resolution requires one derivation output per target")
  | _, _ =>
      .error (.io "profile resolution requires one derivation output per target")

section Resolving

-- `serde_json::from_slice`, and `String::from_utf8_lossy`.
variable (fromSlice : List UInt8 → Except String (List Json))
  (fromUtf8Lossy : List UInt8 → String)

/-- The derivation and the store path of every target, before the build. -/
def resolveProfiles (program : String) (argv : List String) (count : ℕ) :
    Building (List (String × String)) := do
  let output ← outputStd program (argv.tail ++ ["--dry-run", "--json"])
  if !output.status.success then
    throw (.io ("resolving profiles: " ++ fromUtf8Lossy output.stderr))
  else
    match fromSlice output.stdout with
    | .error error => throw (.io error)
    | .ok values =>
        if values.length ≠ count then
          throw (.io "profile resolution returned an unexpected target count")
        else
          ExceptT.mk (.done (values.mapM resolveProfile))

end Resolving

/-! ## Mapping links to hosts -/

def mapProfileLink (outLink : String) (paths : BTreeMap String)
    (target : String × ℕ) : Building (BTreeMap String) := do
  let link := profileLink outLink target.2
  match ← readLink link with
  | .error _ => throw (.missingProfileLink target.1 link)
  | .ok path =>
      if !isAbsolute path || !startsWith path "/nix/store" then
        throw (.invalidProfilePath target.1 path)
      else
        return paths.insert target.1 path

def mapProfileLinks (targets : List String) (outLink : String) :
    Building (BTreeMap String) :=
  targets.zipIdx.foldlM (mapProfileLink outLink) ∅

/-! ## Probing the outputs -/

/-- Everything but looking the output up is turned off. -/
def probeArguments (path link : String) : List String :=
  ["build", path, "--offline", "--max-jobs", "0", "--builders", "", "--option",
    "substitute", "false", "--out-link", link]

/-- A target with its derivation and its resolved store path. -/
abbrev Resolved := String × String × String

/-- The failure reported for a target whose output is not there. -/
def buildFailure (rc : Int) (drv : String) : String :=
  "profile build failed (batch rc=" ++ toString rc ++ "): " ++ drv ++
    "; see build.jsonl for dependency errors and derivation logs"

def recoverProfile (program outLink : String) (rc : Int) (built : BuiltProfiles)
    (job : Resolved × ℕ) : Building BuiltProfiles := do
  let ((host, drv, path), index) := job
  let link := profileLink outLink index
  let output ← outputStd program (probeArguments path link)
  if output.status.success then
    let mapped ← mapProfileLinks [host] link
    -- The map holds the one host it was asked for.
    let found := mapped.getD host ""
    if ¬ SamePath found path then throw (.invalidProfilePath host found)
    else return { built with paths := built.paths ∪ mapped }
  else
    return { built with
      failures := built.failures.insert host (buildFailure rc drv) }

/-- `run.path.join("profile")`. -/
def RegisteredDeployRun.outLink (run : RegisteredDeployRun) : String :=
  joinPath run.path "profile"

def recoverProfiles (run : RegisteredDeployRun) (program : String)
    (resolved : List (String × String)) (rc : Int) : Building BuiltProfiles :=
  (run.plan.targets.zip resolved).zipIdx.foldlM
    (recoverProfile program run.outLink rc) { paths := ∅, failures := ∅ }

/-! ## The links of different targets -/

@[simp]
theorem profileLink_zero (outLink : String) : profileLink outLink 0 = outLink :=
  rfl

theorem repr_injective : Function.Injective Nat.repr := by
  intro left right heq
  have hdigits : Nat.toDigits 10 left = Nat.toDigits 10 right := by
    rw [← Nat.toList_repr, ← Nat.toList_repr, heq]
  calc
    left = Nat.ofDigitChars 10 (Nat.toDigits 10 left) 0 :=
      Nat.ofDigitChars_ten_toDigits.symm
    _ = Nat.ofDigitChars 10 (Nat.toDigits 10 right) 0 := by rw [hdigits]
    _ = right := Nat.ofDigitChars_ten_toDigits

theorem singleComponent_profile : SingleComponent "profile" := by
  constructor <;> decide

/-- The name of the link at an index other than zero. -/
def indexedName (index : ℕ) : String := "profile" ++ "-" ++ Nat.repr index

theorem toList_indexedName (index : ℕ) : (indexedName index).toList =
    ['p', 'r', 'o', 'f', 'i', 'l', 'e', '-'] ++ Nat.toDigits 10 index := by
  have hname : ("profile" ++ "-").toList =
      ['p', 'r', 'o', 'f', 'i', 'l', 'e', '-'] := rfl
  rw [indexedName, String.toList_append, hname, Nat.toList_repr]

theorem singleComponent_indexedName (index : ℕ) :
    SingleComponent (indexedName index) := by
  have hfirst (name : String) (hname : name.toList.head? ≠ some 'p') :
      indexedName index ≠ name := by
    rintro rfl
    rw [toList_indexedName] at hname
    exact hname rfl
  refine ⟨hfirst "" (by decide), ?_, hfirst "." (by decide), hfirst ".." (by decide)⟩
  rw [toList_indexedName]
  intro hmem
  rcases List.mem_append.mp hmem with hmem | hmem
  · revert hmem
    decide
  · have hdigit := Nat.isDigit_of_mem_toDigits (by decide) (by decide) hmem
    revert hdigit
    decide

theorem fileName_joinPath (base : String) :
    fileName (joinPath base "profile") = some "profile" := by
  rw [fileName, components_joinPath base singleComponent_profile,
    List.getLast?_concat]
  rfl

/-- The file a link is at, under the directory of the run. -/
def linkName (index : ℕ) : String :=
  if index = 0 then "profile" else indexedName index

theorem getLast?_profileLink (base : String) (index : ℕ) :
    (components (profileLink (joinPath base "profile") index)).getLast? =
      some (linkName index).toList := by
  by_cases hzero : index = 0
  · subst hzero
    rw [profileLink_zero, components_joinPath base singleComponent_profile,
      List.getLast?_concat]
    rfl
  · rw [profileLink, if_neg hzero, fileName_joinPath, withFileName, linkName,
      if_neg hzero]
    change (components (joinPath _ (indexedName index))).getLast? = _
    rw [components_joinPath _ (singleComponent_indexedName index),
      List.getLast?_concat]

theorem linkName_injective : Function.Injective linkName := by
  intro left right heq
  have hne (index : ℕ) : indexedName index ≠ "profile" := by
    intro hsame
    have hlength := congrArg (fun name => name.toList.length) hsame
    simp [toList_indexedName] at hlength
  by_cases hleft : left = 0
  · by_cases hright : right = 0
    · rw [hleft, hright]
    · rw [linkName, linkName, if_pos hleft, if_neg hright] at heq
      exact absurd heq.symm (hne right)
  · by_cases hright : right = 0
    · rw [linkName, linkName, if_neg hleft, if_pos hright] at heq
      exact absurd heq (hne left)
    · rw [linkName, linkName, if_neg hleft, if_neg hright] at heq
      have hparts : ['p', 'r', 'o', 'f', 'i', 'l', 'e', '-'] ++ Nat.toDigits 10 left =
          ['p', 'r', 'o', 'f', 'i', 'l', 'e', '-'] ++ Nat.toDigits 10 right := by
        rw [← toList_indexedName, ← toList_indexedName, heq]
      apply repr_injective
      rw [← String.toList_inj, Nat.toList_repr, Nat.toList_repr]
      exact List.append_cancel_left hparts

/-- No two targets share a link. -/
theorem profileLink_injective (run : RegisteredDeployRun) :
    Function.Injective (profileLink run.outLink) := by
  intro left right heq
  have hlast : some (linkName left).toList = some (linkName right).toList := by
    rw [← getLast?_profileLink run.path, ← getLast?_profileLink run.path]
    exact congrArg (fun link => (components link).getLast?) heq
  exact linkName_injective (String.toList_inj.mp (Option.some.inj hlast))

/-! ## What the programs return -/

section Specs

variable {program outLink : String} {rc : Int}

theorem returns_outputStd {arguments : List String}
    {post : Trace Recovering → Output → Prop}
    (hpost : ∀ output, post [⟨.run program arguments, .ok output⟩] output) :
    Returns (outputStd program arguments) post := by
  refine returns_request ?_
  intro reply output hreply
  cases reply with
  | error error => cases hreply
  | ok finished =>
      cases hreply
      exact hpost output

theorem returns_readLink {path : String}
    {post : Trace Recovering → Except IoError String → Prop}
    (hpost : ∀ found, post [⟨.readLink path, found⟩] found) :
    Returns (readLink path) post := by
  refine returns_request ?_
  intro reply found hreply
  cases hreply
  exact hpost reply

theorem length_of_mapM_ok {E A B : Type} {f : A → Except E B} {values : List A}
    {results : List B} (hresults : values.mapM f = .ok results) :
    results.length = values.length := by
  induction values generalizing results with
  | nil =>
      cases hresults
      rfl
  | cons value values ih =>
      rw [List.mapM_cons] at hresults
      cases hvalue : f value with
      | error error =>
          rw [hvalue] at hresults
          cases hresults
      | ok first =>
          cases hrest : values.mapM f with
          | error error =>
              rw [hvalue, hrest] at hresults
              cases hresults
          | ok rest =>
              rw [hvalue, hrest] at hresults
              cases hresults
              rw [List.length_cons, List.length_cons, ih hrest]

/-- One resolved profile for every target asked for. -/
theorem length_resolveProfiles (fromSlice : List UInt8 → Except String (List Json))
    (fromUtf8Lossy : List UInt8 → String) (argv : List String) (count : ℕ) :
    Returns (resolveProfiles fromSlice fromUtf8Lossy program argv count)
      fun _ resolved => resolved.length = count := by
  refine returns_bind (returns_outputStd ?_)
  intro output
  split
  · exact returns_throw _ _
  · split
    · exact returns_throw _ _
    · next values _ =>
        split
        · exact returns_throw _ _
        · next hlength =>
            refine ensures_done_iff.mpr ?_
            intro resolved hresolved
            rw [← not_not.mp hlength]
            exact length_of_mapM_ok hresolved

/-- The reading of the link at a position. -/
def linkRead (outLink : String) (target : String × ℕ) (path : String) :
    Exchange Recovering :=
  ⟨.readLink (profileLink outLink target.2), .ok path⟩

/-- The paths were read one for each of the targets done. -/
structure MappedTo (found : List String) (outLink : String)
    (targets : List (String × ℕ)) (trace : Trace Recovering)
    (paths : BTreeMap String) : Prop where
  length : found.length = targets.length
  reads : trace = targets.zipWith (linkRead outLink) found
  inStore : ∀ path ∈ found, isAbsolute path && startsWith path "/nix/store"
  keyed : paths = (targets.zip found).foldl
    (fun paths entry => paths.insert entry.1.1 entry.2) ∅

def Mapped (outLink : String) (targets : List (String × ℕ))
    (trace : Trace Recovering) (paths : BTreeMap String) : Prop :=
  ∃ found, MappedTo found outLink targets trace paths

theorem returns_mapProfileLink {paths : BTreeMap String} {target : String × ℕ} :
    Returns (mapProfileLink outLink paths target) fun trace next =>
      ∃ path, (isAbsolute path && startsWith path "/nix/store") ∧
        trace = [linkRead outLink target path] ∧
        next = paths.insert target.1 path := by
  refine returns_bind (returns_readLink ?_)
  intro reply
  cases reply with
  | error error => exact returns_throw _ _
  | ok path =>
      dsimp only
      split
      · exact returns_throw _ _
      · next hvalid =>
          refine returns_pure_iff.mpr ⟨path, ?_, rfl, rfl⟩
          rwa [← Bool.not_and, Bool.not_eq_true', Bool.not_eq_false] at hvalid

/-- Every target has the path that the link at its own position named. -/
theorem returns_mapProfileLinks (targets : List String) (outLink : String) :
    Returns (mapProfileLinks targets outLink) (Mapped outLink targets.zipIdx) := by
  refine returns_foldlM ?_ ?_
  · refine ⟨[], rfl, rfl, ?_, rfl⟩
    intro path hpath
    cases hpath
  · intro finished target todo trace paths _ hmapped
    obtain ⟨found, hmapped⟩ := hmapped
    refine returns_mapProfileLink.mono ?_
    rintro _ _ ⟨path, hvalid, rfl, rfl⟩
    refine ⟨found ++ [path], ?_, ?_, ?_, ?_⟩
    · rw [List.length_append, List.length_append, hmapped.length]
      rfl
    · rw [List.zipWith_append hmapped.length.symm, hmapped.reads]
      rfl
    · intro other hother
      rcases List.mem_append.mp hother with hother | hother
      · exact hmapped.inStore other hother
      · rw [List.mem_singleton.mp hother]
        exact hvalid
    · rw [List.zip_append hmapped.length.symm, List.foldl_append, hmapped.keyed]
      rfl

/-- A single target is mapped from the link itself. -/
theorem returns_mapProfileLinks_single (host link : String) :
    Returns (mapProfileLinks [host] link) fun trace paths =>
      ∃ path, trace = [⟨.readLink link, .ok path⟩] ∧
        paths = (∅ : BTreeMap String).insert host path := by
  refine (returns_mapProfileLinks [host] link).mono ?_
  rintro trace paths ⟨found, hmapped⟩
  obtain ⟨path, rfl⟩ := List.length_eq_one_iff.mp hmapped.length
  exact ⟨path, hmapped.reads, hmapped.keyed⟩

/-- The probe of a job and its reply. -/
def probed (program outLink : String) (job : Resolved × ℕ) (output : Output) :
    Exchange Recovering :=
  ⟨.run program (probeArguments job.1.2.2 (profileLink outLink job.2)),
    .ok output⟩

/-- What one job may do: its probe succeeds and its own link names its own path,
or its probe fails. -/
inductive Recovers (program outLink : String) (rc : Int) (built : BuiltProfiles)
    (job : Resolved × ℕ) : Trace Recovering → BuiltProfiles → Prop
  | built {output : Output} {found : String}
      (hsuccess : output.status.success = true)
      (hsame : SamePath found job.1.2.2) :
      Recovers program outLink rc built job
        [probed program outLink job output,
          ⟨.readLink (profileLink outLink job.2), .ok found⟩]
        { built with
          paths := built.paths ∪ (∅ : BTreeMap String).insert job.1.1 found }
  | failed {output : Output} (hfailure : ¬ output.status.success = true) :
      Recovers program outLink rc built job
        [probed program outLink job output]
        { built with
          failures := built.failures.insert job.1.1 (buildFailure rc job.1.2.1) }

theorem returns_recoverProfile (built : BuiltProfiles) (job : Resolved × ℕ) :
    Returns (recoverProfile program outLink rc built job)
      (Recovers program outLink rc built job) := by
  obtain ⟨⟨host, drv, path⟩, index⟩ := job
  refine returns_bind (returns_outputStd ?_)
  intro output
  dsimp only
  split
  · next hsuccess =>
      refine returns_bind ((returns_mapProfileLinks_single host _).mono ?_)
      rintro _ _ ⟨found, rfl, rfl⟩
      rw [Std.TreeMap.getD_insert_self]
      split
      · exact returns_throw _ _
      · next hsame =>
          exact returns_pure_iff.mpr (.built hsuccess (not_not.mp hsame))
  · next hfailure => exact returns_pure_iff.mpr (.failed hfailure)

/-- What the jobs done so far have recovered. -/
structure RecoveredFrom (program outLink : String) (jobs : List (Resolved × ℕ))
    (trace : Trace Recovering) (built : BuiltProfiles) : Prop where
  disjoint : ∀ host ∈ built.paths, host ∉ built.failures
  covers : ∀ host, (host ∈ built.paths ∨ host ∈ built.failures) ↔
    ∃ job ∈ jobs, job.1.1 = host
  probes : ∀ job ∈ jobs, ∃ output, probed program outLink job output ∈ trace ∧
    (job.1.1 ∈ built.paths ↔ output.status.success = true)
  own : ∀ job ∈ jobs, ∀ found, built.paths[job.1.1]? = some found →
    ⟨.readLink (profileLink outLink job.2), .ok found⟩ ∈ trace ∧
      SamePath found job.1.2.2
  links : ∀ link found, ⟨.readLink link, .ok found⟩ ∈ trace →
    ∃ job ∈ jobs, link = profileLink outLink job.2 ∧ SamePath found job.1.2.2

theorem recoveredFrom_nil :
    RecoveredFrom program outLink [] [] { paths := ∅, failures := ∅ } := by
  constructor <;> simp

theorem getElem?_union_single (paths : BTreeMap String) (host path name : String) :
    (paths ∪ (∅ : BTreeMap String).insert host path)[name]? =
      if host = name then some path else paths[name]? := by
  rw [Std.TreeMap.getElem?_union, Std.TreeMap.getElem?_insert]
  by_cases hname : host = name
  · simp [hname]
  · simp [hname, Std.LawfulEqCmp.compare_eq_iff_eq]

theorem mem_union_single {paths : BTreeMap String} {host path name : String} :
    name ∈ paths ∪ (∅ : BTreeMap String).insert host path ↔
      name ∈ paths ∨ host = name := by
  rw [Std.TreeMap.mem_union_iff, Std.TreeMap.mem_insert,
    Std.LawfulEqCmp.compare_eq_iff_eq]
  simp

theorem mem_insert_failure {failures : BTreeMap String} {host text name : String} :
    name ∈ failures.insert host text ↔ host = name ∨ name ∈ failures := by
  rw [Std.TreeMap.mem_insert, Std.LawfulEqCmp.compare_eq_iff_eq]

variable {jobs : List (Resolved × ℕ)} {job : Resolved × ℕ}
  {trace more : Trace Recovering} {built next : BuiltProfiles}

/-- One more job keeps what the others recovered, when it leaves their paths. -/
theorem RecoveredFrom.extend (hbuilt : RecoveredFrom program outLink jobs trace built)
    (hold : ∀ other ∈ jobs, next.paths[other.1.1]? = built.paths[other.1.1]?)
    (hdisjoint : ∀ host ∈ next.paths, host ∉ next.failures)
    (hcovers : ∀ host, (host ∈ next.paths ∨ host ∈ next.failures) ↔
      (host ∈ built.paths ∨ host ∈ built.failures) ∨ job.1.1 = host)
    (hprobe : ∃ output, probed program outLink job output ∈ more ∧
      (job.1.1 ∈ next.paths ↔ output.status.success = true))
    (hown : ∀ found, next.paths[job.1.1]? = some found →
      ⟨.readLink (profileLink outLink job.2), .ok found⟩ ∈ more ∧
        SamePath found job.1.2.2)
    (hlinks : ∀ link found, ⟨.readLink link, .ok found⟩ ∈ more →
      link = profileLink outLink job.2 ∧ SamePath found job.1.2.2) :
    RecoveredFrom program outLink (jobs ++ [job]) (trace ++ more) next where
  disjoint := hdisjoint
  covers host := by
    rw [hcovers, hbuilt.covers]
    simp [or_and_right, exists_or]
  probes other hother := by
    rcases List.mem_append.mp hother with hother | hother
    · obtain ⟨output, hprobed, hverdict⟩ := hbuilt.probes other hother
      refine ⟨output, List.mem_append_left _ hprobed, ?_⟩
      rw [Std.TreeMap.mem_iff_isSome_getElem?, hold other hother,
        ← Std.TreeMap.mem_iff_isSome_getElem?]
      exact hverdict
    · obtain ⟨output, hprobed, hverdict⟩ := hprobe
      cases List.mem_singleton.mp hother
      exact ⟨output, List.mem_append_right _ hprobed, hverdict⟩
  own other hother found hfound := by
    rcases List.mem_append.mp hother with hother | hother
    · rw [hold other hother] at hfound
      exact (hbuilt.own other hother found hfound).imp_left
        (List.mem_append_left _)
    · cases List.mem_singleton.mp hother
      exact (hown found hfound).imp_left (List.mem_append_right _)
  links link found hread := by
    rcases List.mem_append.mp hread with hread | hread
    · obtain ⟨other, hother, hlink⟩ := hbuilt.links link found hread
      exact ⟨other, List.mem_append_left _ hother, hlink⟩
    · exact ⟨job, List.mem_append_right _ List.mem_cons_self,
        hlinks link found hread⟩

/-- A job whose host was not done before keeps what the others recovered. -/
theorem RecoveredFrom.snoc (hbuilt : RecoveredFrom program outLink jobs trace built)
    (hfresh : ∀ other ∈ jobs, other.1.1 ≠ job.1.1)
    (hnext : Recovers program outLink rc built job more next) :
    RecoveredFrom program outLink (jobs ++ [job]) (trace ++ more) next := by
  have hnew : job.1.1 ∉ built.paths ∧ job.1.1 ∉ built.failures := by
    rw [← not_or, hbuilt.covers]
    rintro ⟨other, hother, hsame⟩
    exact hfresh other hother hsame
  cases hnext with
  | @built output found hsuccess hsame =>
      apply hbuilt.extend
      · intro other hother
        rw [getElem?_union_single, if_neg (hfresh other hother).symm]
      · intro host hhost
        rcases mem_union_single.mp hhost with hhost | rfl
        · exact hbuilt.disjoint host hhost
        · exact hnew.2
      · intro host
        rw [mem_union_single, or_right_comm]
      · exact ⟨output, List.mem_cons_self,
          iff_of_true (mem_union_single.mpr (.inr rfl)) hsuccess⟩
      · intro path hpath
        rw [getElem?_union_single, if_pos rfl] at hpath
        cases hpath
        exact ⟨by simp, hsame⟩
      · intro link path hread
        rcases List.mem_pair.mp hread with hread | hread
        · cases hread
        · cases hread
          exact ⟨rfl, hsame⟩
  | @failed output hfailure =>
      apply hbuilt.extend
      · exact fun other _ => rfl
      · intro host hhost hfailed
        rcases mem_insert_failure.mp hfailed with rfl | hfailed
        · exact hnew.1 hhost
        · exact hbuilt.disjoint host hhost hfailed
      · intro host
        rw [mem_insert_failure, or_comm (a := job.1.1 = host), or_assoc]
      · exact ⟨output, List.mem_cons_self, iff_of_false hnew.1 hfailure⟩
      · intro path hpath
        exact absurd (Std.TreeMap.mem_iff_isSome_getElem?.mpr (by rw [hpath]; rfl))
          hnew.1
      · intro link path hread
        cases List.mem_singleton.mp hread

variable {run : RegisteredDeployRun} {resolved : List (String × String)}

/-- The targets of a run with what was resolved at their positions. -/
def jobsOf (run : RegisteredDeployRun) (resolved : List (String × String)) :
    List (Resolved × ℕ) :=
  (run.plan.targets.zip resolved).zipIdx

theorem mem_jobsOf_iff : job ∈ jobsOf run resolved ↔
    run.plan.targets[job.2]? = some job.1.1 ∧ resolved[job.2]? = some job.1.2 := by
  rw [jobsOf, List.mem_zipIdx_iff_getElem?, List.getElem?_zip_eq_some]

theorem hosts_jobsOf (hlength : resolved.length = run.plan.targets.length) :
    (jobsOf run resolved).map (fun job => job.1.1) = run.plan.targets := by
  calc
    (jobsOf run resolved).map (fun job => job.1.1) =
        ((jobsOf run resolved).map Prod.fst).map Prod.fst := by
      rw [List.map_map]
      rfl
    _ = (run.plan.targets.zip resolved).map Prod.fst := by
      rw [jobsOf, List.zipIdx_map_fst]
    _ = run.plan.targets := List.map_fst_zip (le_of_eq hlength.symm)

theorem returns_recoverProfiles (hnodup : run.plan.targets.Nodup)
    (hlength : resolved.length = run.plan.targets.length) :
    Returns (recoverProfiles run program resolved rc)
      (RecoveredFrom program run.outLink (jobsOf run resolved)) := by
  refine returns_foldlM recoveredFrom_nil ?_
  intro finished job todo trace built hjobs hbuilt
  refine (returns_recoverProfile built job).mono ?_
  intro more next hnext
  refine hbuilt.snoc ?_ hnext
  rw [← hosts_jobsOf hlength, jobsOf, hjobs, List.map_append, List.map_cons,
    List.nodup_append] at hnodup
  intro other hother
  exact hnodup.2.2 _ (List.mem_map_of_mem hother) _ List.mem_cons_self

/-- What a recovery that returns can be relied on for. -/
structure Partitioned (run : RegisteredDeployRun) (program : String)
    (resolved : List (String × String)) (trace : Trace Recovering)
    (built : BuiltProfiles) : Prop where
  disjoint : ∀ host ∈ built.paths, host ∉ built.failures
  covers : ∀ host, (host ∈ built.paths ∨ host ∈ built.failures) ↔
    host ∈ run.plan.targets
  /-- A target's own probe decides on which side it is. -/
  probes : ∀ index host drv path, run.plan.targets[index]? = some host →
    resolved[index]? = some (drv, path) →
      ∃ output,
        ⟨.run program (probeArguments path (profileLink run.outLink index)),
          .ok output⟩ ∈ trace ∧
        (host ∈ built.paths ↔ output.status.success = true)
  /-- A returned path is the one resolved for that host, read from its link. -/
  own : ∀ index host drv path, run.plan.targets[index]? = some host →
    resolved[index]? = some (drv, path) →
      ∀ found, built.paths[host]? = some found →
        ⟨.readLink (profileLink run.outLink index), .ok found⟩ ∈ trace ∧
          SamePath found path
  /-- No link that was read named another path. -/
  links : ∀ index drv path, resolved[index]? = some (drv, path) →
    ∀ found, ⟨.readLink (profileLink run.outLink index), .ok found⟩ ∈ trace →
      SamePath found path

/-- A recovery that returns splits the targets by the exit status of their own
probes, and gives each built host its own path. -/
theorem recoverProfiles_partitions (run : RegisteredDeployRun) (program : String)
    (resolved : List (String × String)) (rc : Int)
    (hnodup : run.plan.targets.Nodup)
    (hlength : resolved.length = run.plan.targets.length) :
    Returns (recoverProfiles run program resolved rc)
      (Partitioned run program resolved) := by
  refine (returns_recoverProfiles hnodup hlength).mono ?_
  intro trace built hbuilt
  constructor
  · exact hbuilt.disjoint
  · intro host
    rw [hbuilt.covers, ← hosts_jobsOf hlength, List.mem_map]
  · intro index host drv path hhost hresolved
    exact hbuilt.probes ((host, drv, path), index)
      (mem_jobsOf_iff.mpr ⟨hhost, hresolved⟩)
  · intro index host drv path hhost hresolved
    exact hbuilt.own ((host, drv, path), index)
      (mem_jobsOf_iff.mpr ⟨hhost, hresolved⟩)
  · intro index drv path hresolved found hread
    obtain ⟨job, hjob, hlink, hsame⟩ := hbuilt.links _ found hread
    have hindex : index = job.2 := profileLink_injective run hlink
    rw [hindex, (mem_jobsOf_iff.mp hjob).2] at hresolved
    rwa [Option.some.inj hresolved] at hsame

end Specs

/-! ## A target that did not build -/

def siblingRun : RegisteredDeployRun :=
  { webRun with
    plan :=
      { webRun.plan with targets := ["cache", "web"], haltOnBuildFailure := false } }

def siblingProfiles : List (String × String) :=
  [("/nix/store/aaa-cache.drv^out", "/nix/store/aaa-cache"),
    ("/nix/store/bbb-web.drv^out", "/nix/store/bbb-web")]

/-- Only one of the two outputs is in the store. -/
def siblingAnswer : (effect : RecoveryEffect) → effect.Reply
  | .run _ arguments =>
      .ok (exitedWith (if arguments[1]? = some "/nix/store/bbb-web" then 0 else 1))
  | .readLink _ => .ok "/nix/store/bbb-web"

theorem sibling_recovered :
    (((recoverProfiles siblingRun "nix" siblingProfiles 1).run.runAgainst
      siblingAnswer).2.toOption.map fun built =>
        (built.paths.keys, built.failures.keys)) = some (["web"], ["cache"]) := by
  decide +kernel

theorem recoverProfiles_partitions_siblings :
    ∃ trace built, Executes (recoverProfiles siblingRun "nix" siblingProfiles 1).run
        trace (.ok built) ∧
      built.paths.keys = ["web"] ∧ built.failures.keys = ["cache"] ∧
      Partitioned siblingRun "nix" siblingProfiles trace built := by
  have hexec := executes_runAgainst siblingAnswer
    (recoverProfiles siblingRun "nix" siblingProfiles 1).run
  obtain ⟨built, hbuilt, hkeys⟩ := Option.map_eq_some_iff.mp sibling_recovered
  have hresult : ((recoverProfiles siblingRun "nix" siblingProfiles 1).run.runAgainst
      siblingAnswer).2 = .ok built := by
    cases hresult : ((recoverProfiles siblingRun "nix" siblingProfiles 1).run.runAgainst
        siblingAnswer).2 with
    | error error =>
        rw [hresult] at hbuilt
        cases hbuilt
    | ok value =>
        rw [hresult] at hbuilt
        cases hbuilt
        rfl
  rw [hresult] at hexec
  exact ⟨_, built, hexec, (Prod.mk.inj hkeys).1, (Prod.mk.inj hkeys).2,
    recoverProfiles_partitions siblingRun "nix" siblingProfiles 1 (by decide) rfl _ _
      hexec built rfl⟩

end Mandala.Engine
