import Mandala.Eval.Toplevels

/-!
# The two backends

A member's own outcome is the same for both.  They part where the subprocess
takes a failure of every member for a failure of the flake.
-/

namespace Mandala.Eval

open Mandala.Data Mandala.Drift Mandala.Fleet
open Nix (listToAttrs)

/-! ## Going through the members -/

def pathOf : Except String (Option String) → Option String
  | .ok path => path
  | .error _ => none

def errorOf : Except String (Option String) → Option String
  | .ok _ => none
  | .error error => some error

theorem getElem?_insert_or {V : Type} (map : BTreeMap V) (key member : String)
    (value : V) :
    (map.insert member value)[key]? =
      (if key = member then some value else none).or map[key]? := by
  rw [Std.TreeMap.getElem?_insert]
  by_cases heq : key = member
  · subst heq
    simp
  · have hcompare : ¬ compare member key = .eq := fun hsame =>
      heq (Std.LawfulEqCmp.eq_of_compare hsame).symm
    rw [if_neg hcompare, if_neg heq]
    rfl

/-- The outcome of one member goes under its name. -/
theorem collectOne_lookups
    (evalOne : String → Except String (Option String)) (out : Toplevels)
    (member key : String) :
    (collectOne evalOne out member).paths[key]? =
        (if key = member then pathOf (evalOne key) else none).or
          out.paths[key]? ∧
      (collectOne evalOne out member).errors[key]? =
        (if key = member then errorOf (evalOne key) else none).or
          out.errors[key]? := by
  by_cases heq : key = member
  · subst heq
    cases hone : evalOne key with
    | error error => simp [collectOne, hone, pathOf, errorOf]
    | ok path =>
        cases path with
        | none => simp [collectOne, hone, pathOf, errorOf]
        | some path => simp [collectOne, hone, pathOf, errorOf]
  · cases hone : evalOne member with
    | error error => simp [collectOne, hone, heq, getElem?_insert_or]
    | ok path =>
        cases path with
        | none => simp [collectOne, hone, heq]
        | some path => simp [collectOne, hone, heq, getElem?_insert_or]

/-- Going over a key again changes nothing. -/
theorem or_again {V : Type} (key member : String) (members : List String)
    (value previous : Option V) :
    (if key ∈ members then value else none).or
        ((if key = member then value else none).or previous) =
      (if key ∈ member :: members then value else none).or previous := by
  by_cases heq : key = member
  · subst heq
    by_cases hmem : key ∈ members <;> cases value <;> simp [hmem]
  · by_cases hmem : key ∈ members <;> simp [hmem, heq]

theorem foldl_collectOne (evalOne : String → Except String (Option String))
    (members : List String) (out : Toplevels) (key : String) :
    (members.foldl (collectOne evalOne) out).paths[key]? =
        (if key ∈ members then pathOf (evalOne key) else none).or
          out.paths[key]? ∧
      (members.foldl (collectOne evalOne) out).errors[key]? =
        (if key ∈ members then errorOf (evalOne key) else none).or
          out.errors[key]? := by
  induction members generalizing out with
  | nil => exact ⟨rfl, rfl⟩
  | cons member members ih =>
      obtain ⟨hpaths, herrors⟩ := ih (collectOne evalOne out member)
      obtain ⟨hpath, herror⟩ := collectOne_lookups evalOne out member key
      rw [List.foldl_cons, hpaths, herrors, hpath, herror]
      exact ⟨or_again .., or_again ..⟩

theorem paths_collect (evalOne : String → Except String (Option String))
    (members : List String) (key : String) :
    (collect evalOne members).paths[key]? =
      if key ∈ members then pathOf (evalOne key) else none := by
  refine (foldl_collectOne evalOne members (.ofPaths ∅) key).1.trans ?_
  simp [Toplevels.ofPaths]

theorem errors_collect (evalOne : String → Except String (Option String))
    (members : List String) (key : String) :
    (collect evalOne members).errors[key]? =
      if key ∈ members then errorOf (evalOne key) else none := by
  refine (foldl_collectOne evalOne members (.ofPaths ∅) key).2.trans ?_
  simp [Toplevels.ofPaths]

/-- No member has both a path and an error. -/
theorem collect_disjoint (evalOne : String → Except String (Option String))
    (members : List String) (key : String)
    (hpath : (collect evalOne members).paths[key]? ≠ none) :
    (collect evalOne members).errors[key]? = none := by
  rw [paths_collect] at hpath
  rw [errors_collect]
  split at hpath
  · next hmem =>
      rw [if_pos hmem]
      cases hone : evalOne key with
      | error error =>
          rw [hone] at hpath
          exact absurd rfl hpath
      | ok path => rfl
  · exact absurd rfl hpath

/-- Every member is counted once, if at all. -/
theorem size_errors_collect_eq_iff
    (evalOne : String → Except String (Option String)) (members : List String) :
    (collect evalOne members).errors.size = members.length ↔
      members.Nodup ∧ ∀ member ∈ members, ∃ error,
        evalOne member = .error error := by
  have hkeys (member : String) :
      member ∈ (collect evalOne members).errors.keys ↔
        member ∈ members ∧ ∃ error, evalOne member = .error error := by
    rw [BTreeMap.mem_keys_iff, errors_collect]
    split
    · next hmem =>
        cases hone : evalOne member with
        | error error => simp [errorOf, hmem]
        | ok path => simp [errorOf]
    · next hmem => simp [hmem]
  have hnodup : (collect evalOne members).errors.keys.Nodup :=
    Std.TreeMap.nodup_keys
  have hsubset : (collect evalOne members).errors.keys ⊆ members :=
    fun member hmem => ((hkeys member).mp hmem).1
  rw [← Std.TreeMap.length_keys]
  constructor
  · intro hlength
    have hperm := (List.subperm_of_subset hnodup hsubset).perm_of_length_le
      (Nat.le_of_eq hlength.symm)
    refine ⟨hperm.nodup_iff.mp hnodup, fun member hmem => ?_⟩
    exact ((hkeys member).mp (hperm.mem_iff.mpr hmem)).2
  · rintro ⟨hmembers, hall⟩
    refine List.Perm.length_eq ((List.perm_ext_iff_of_nodup hnodup hmembers).mpr ?_)
    intro member
    rw [hkeys]
    exact ⟨And.left, fun hmem => ⟨hmem, hall member hmem⟩⟩

section Backends
variable (host : Host)

/-! ## The worker's value read back -/

theorem lookup_map_snd {V W : Type} (toValue : V → W)
    (entries : List (String × V)) (key : String) :
    (entries.map fun entry => (entry.1, toValue entry.2)).lookup key =
      (entries.lookup key).map toValue := by
  induction entries with
  | nil => rfl
  | cons entry entries ih =>
      rw [List.map_cons, List.lookup_cons, List.lookup_cons]
      split
      · rfl
      · exact ih

/-- An entry the reader understands. -/
def Readable (value : Json) : Prop :=
  (∃ path, value = .string path) ∨ ∃ error, value = errorValue error

theorem foldlM_readEntry {fields : List (String × Json)}
    (hdistinct : fields.Pairwise fun left right => left.1 ≠ right.1)
    (hreadable : ∀ field ∈ fields, Readable field.2) (out : Toplevels) :
    ∃ after, fields.foldlM
        (fun out field => readEntry host out field.1 field.2) out = .ok after ∧
      ∀ key : String,
        after.paths[key]? =
          ((fields.lookup key).bind Json.asStr).or out.paths[key]? ∧
        after.errors[key]? =
          ((fields.lookup key).bind (·.getStr "error")).or
            out.errors[key]? := by
  induction fields generalizing out with
  | nil => exact ⟨out, rfl, fun _ => ⟨rfl, rfl⟩⟩
  | cons field fields ih =>
      rw [List.pairwise_cons] at hdistinct
      obtain ⟨hfirst, hrest⟩ := hdistinct
      have hnone : fields.lookup field.1 = none := by
        rw [List.lookup_eq_none_iff]
        exact fun other hmem => bne_iff_ne.mpr (hfirst other hmem)
      have hlater := ih hrest fun other hmem =>
        hreadable other (List.mem_cons_of_mem _ hmem)
      rcases hreadable field List.mem_cons_self with
        ⟨path, hvalue⟩ | ⟨error, hvalue⟩
      · obtain ⟨after, hafter, hlookups⟩ :=
          hlater { out with paths := out.paths.insert field.1 path }
        refine ⟨after, ?_, fun key => ?_⟩
        · rw [List.foldlM_cons, readEntry, hvalue]
          exact hafter
        · rw [(hlookups key).1, (hlookups key).2, getElem?_insert_or,
            List.lookup_cons]
          by_cases heq : key = field.1
          · subst heq
            simp [hnone, hvalue, Json.asStr, Json.getStr, Json.get]
          · have hbeq : (key == field.1) = false := beq_eq_false_iff_ne.mpr heq
            simp [hbeq, heq]
      · obtain ⟨after, hafter, hlookups⟩ :=
          hlater { out with errors := out.errors.insert field.1 error }
        refine ⟨after, ?_, fun key => ?_⟩
        · rw [List.foldlM_cons, readEntry, hvalue]
          exact hafter
        · rw [(hlookups key).1, (hlookups key).2, getElem?_insert_or,
            List.lookup_cons]
          by_cases heq : key = field.1
          · subst heq
            simp [hnone, hvalue, errorValue, Json.asStr, Json.getStr, Json.get]
          · have hbeq : (key == field.1) = false := beq_eq_false_iff_ne.mpr heq
            simp [hbeq, heq]

/-- The entries of the worker's value. -/
def valueFields (toplevels : Toplevels) : List (String × Json) :=
  toplevels.paths.toList.map (fun entry => (entry.1, .string entry.2)) ++
    toplevels.errors.toList.map fun entry => (entry.1, errorValue entry.2)

theorem distinct_valueFields {toplevels : Toplevels}
    (hdisjoint : ∀ key : String, toplevels.paths[key]? ≠ none →
      toplevels.errors[key]? = none) :
    (valueFields toplevels).Pairwise fun left right => left.1 ≠ right.1 := by
  rw [valueFields, List.pairwise_append, List.pairwise_map, List.pairwise_map]
  refine ⟨toplevels.paths.toList_distinct, toplevels.errors.toList_distinct, ?_⟩
  intro left hleft right hright heq
  obtain ⟨⟨key, path⟩, hpath, rfl⟩ := List.mem_map.mp hleft
  obtain ⟨⟨other, error⟩, herror, rfl⟩ := List.mem_map.mp hright
  cases heq
  rw [Std.TreeMap.mem_toList_iff_getElem?_eq_some] at hpath herror
  have hnone := hdisjoint key (hpath ▸ nofun)
  rw [herror] at hnone
  cases hnone

theorem lookup_valueFields (toplevels : Toplevels) (key : String) :
    (valueFields toplevels).lookup key =
      (toplevels.paths[key]?.map Json.string).or
        (toplevels.errors[key]?.map errorValue) := by
  rw [valueFields, List.lookup_append, lookup_map_snd, lookup_map_snd,
    BTreeMap.lookup_toList, BTreeMap.lookup_toList]

theorem parseWorkerToplevels_toplevelsValue {toplevels : Toplevels}
    (hdisjoint : ∀ key : String, toplevels.paths[key]? ≠ none →
      toplevels.errors[key]? = none) :
    ∃ after, parseWorkerToplevels host (toplevelsValue toplevels) = .ok after ∧
      ∀ key : String, after.paths[key]? = toplevels.paths[key]? ∧
        after.errors[key]? = toplevels.errors[key]? := by
  have hlookup (key : String) :
      (Meta.update ∅ (valueFields toplevels)).toList.lookup key =
        (toplevels.paths[key]?.map Json.string).or
          (toplevels.errors[key]?.map errorValue) := by
    rw [BTreeMap.lookup_toList,
      Meta.getElem?_update (distinct_valueFields hdisjoint),
      lookup_valueFields]
    exact Option.or_none
  have hdistinct := (Meta.update ∅ (valueFields toplevels)).toList_distinct
  have hreadable : ∀ field ∈ (Meta.update ∅ (valueFields toplevels)).toList,
      Readable field.2 := by
    intro field hmem
    have hfound := (BTreeMap.lookup_eq_some_iff hdistinct).mpr hmem
    rw [hlookup, Option.or_eq_some_iff] at hfound
    rcases hfound with hpath | ⟨-, herror⟩
    · obtain ⟨path, -, hvalue⟩ := Option.map_eq_some_iff.mp hpath
      exact .inl ⟨path, hvalue.symm⟩
    · obtain ⟨error, -, hvalue⟩ := Option.map_eq_some_iff.mp herror
      exact .inr ⟨error, hvalue.symm⟩
  obtain ⟨after, hafter, hlookups⟩ :=
    foldlM_readEntry host hdistinct hreadable (.ofPaths ∅)
  refine ⟨after, hafter, fun key => ?_⟩
  obtain ⟨hpaths, herrors⟩ := hlookups key
  rw [hpaths, herrors, hlookup]
  cases hpath : toplevels.paths[key]? with
  | none =>
      cases herror : toplevels.errors[key]? with
      | none => simp [Toplevels.ofPaths]
      | some error =>
          simp [Toplevels.ofPaths, errorValue, Json.asStr, Json.getStr, Json.get]
  | some path =>
      have hnone := hdisjoint key (hpath ▸ nofun)
      simp [hnone, Toplevels.ofPaths, Json.asStr, Json.getStr, Json.get]

/-! ## What either backend finds out about a member -/

def MemberEval.result : MemberEval → Except String (Option String)
  | .missing => .ok none
  | .path outPath => .ok (some outPath)
  | .fails error => .error error

variable {host}

theorem hostToplevel_eq {flake : Flake} (houtputs : flake.outputs = .ok ())
    {member : String} (hvalid : isValidMemberName member) :
    hostToplevel host flake member = (flake.toplevel member).result := by
  rw [hostToplevel, hvalid, Bool.not_true, if_neg Bool.false_ne_true, houtputs]
  cases flake.toplevel member <;> rfl

/-- One member that fails makes the whole evaluation fail. -/
theorem toplevelAttrs_eq_none_iff {flake : Flake} {members : List String} :
    toplevelAttrs flake members = none ↔
      ∃ member ∈ members, ∃ error, flake.toplevel member = .fails error := by
  induction members with
  | nil => simp [toplevelAttrs]
  | cons member members ih =>
      cases hone : flake.toplevel member with
      | missing => simp [toplevelAttrs, hone, ih]
      | path outPath => simp [toplevelAttrs, hone, ih]
      | fails error => simp [toplevelAttrs, hone]

theorem getElem?_memberAttrs {flake : Flake} {members : List String}
    {attrs : List (String × Json)}
    (hattrs : toplevelAttrs flake members = some attrs) (key : String) :
    (listToAttrs attrs)[key]? =
      if key ∈ members then
        (pathOf (flake.toplevel key).result).map Json.string
      else none := by
  induction members generalizing attrs with
  | nil =>
      cases hattrs
      simp [listToAttrs]
  | cons member members ih =>
      rw [toplevelAttrs] at hattrs
      have hother (hne : key ≠ member) (value : Option Json) :
          (if key ∈ members then value else none) =
            if key ∈ member :: members then value else none := by
        simp [hne]
      split at hattrs
      · next hone =>
          rw [ih hattrs]
          by_cases heq : key = member
          · subst heq
            simp [hone, MemberEval.result, pathOf]
          · exact hother heq _
      · next outPath hone =>
          obtain ⟨rest, hrest, rfl⟩ := Option.map_eq_some_iff.mp hattrs
          have hset : listToAttrs ((member, .string outPath) :: rest) =
              (listToAttrs rest).insert member (.string outPath) := rfl
          rw [hset, getElem?_insert_or, ih hrest]
          by_cases heq : key = member
          · subst heq
            simp [hone, MemberEval.result, pathOf]
          · rw [if_neg heq, Option.none_or]
            exact hother heq _
      · cases hattrs

theorem getElem?_pathFields {fields : List (String × Json)}
    (hdistinct : fields.Pairwise fun left right => left.1 ≠ right.1)
    (key : String) :
    (pathFields fields)[key]? = (fields.lookup key).bind Json.asStr := by
  have hempty : (fields.lookup key).bind Json.asStr =
      ((fields.lookup key).bind Json.asStr).or
        (∅ : BTreeMap String)[key]? := by
    rw [Std.TreeMap.getElem?_emptyc, Option.or_none]
  rw [hempty]
  clear hempty
  unfold pathFields
  generalize (∅ : BTreeMap String) = paths
  induction fields generalizing paths with
  | nil => rfl
  | cons field fields ih =>
      rw [List.pairwise_cons] at hdistinct
      obtain ⟨hfirst, hrest⟩ := hdistinct
      rw [List.foldl_cons, ih hrest, List.lookup_cons]
      by_cases heq : key = field.1
      · have hnone : fields.lookup key = none := by
          rw [List.lookup_eq_none_iff, heq]
          exact fun other hmem => bne_iff_ne.mpr (hfirst other hmem)
        subst heq
        cases hpath : field.2.asStr <;> simp [hnone, hpath]
      · have hbeq : (key == field.1) = false := beq_eq_false_iff_ne.mpr heq
        cases hpath : field.2.asStr <;>
          simp [hbeq, heq, getElem?_insert_or]

theorem find?_invalid {members : List String}
    (hvalid : ∀ member ∈ members, isValidMemberName member) :
    members.find? (fun name => !isValidMemberName name) = none := by
  rw [List.find?_eq_none]
  intro member hmem
  simp [hvalid member hmem]

/-- The subprocess fails where the flake or one of the members does. -/
theorem subprocessToplevels_cases {flake : Flake} {members : List String}
    (hvalid : ∀ member ∈ members, isValidMemberName member) :
    ((∃ error, subprocessToplevels host flake members = .error error) ∧
        (flake.outputs ≠ .ok () ∨
          ∃ member ∈ members, ∃ error, flake.toplevel member = .fails error)) ∨
      ∃ paths, subprocessToplevels host flake members = .ok paths ∧
        flake.outputs = .ok () ∧
        (∀ member ∈ members, ∀ error, flake.toplevel member ≠ .fails error) ∧
        ∀ key : String, paths[key]? =
          if key ∈ members then pathOf (flake.toplevel key).result else none := by
  rw [subprocessToplevels, find?_invalid hvalid]
  simp only [runNixEval, evalExpr]
  cases houtputs : flake.outputs with
  | error error => exact .inl ⟨⟨_, rfl⟩, .inl nofun⟩
  | ok value =>
      cases hattrs : toplevelAttrs flake members with
      | none =>
          exact .inl ⟨⟨_, rfl⟩, .inr (toplevelAttrs_eq_none_iff.mp hattrs)⟩
      | some attrs =>
          refine .inr ⟨_, rfl, rfl, fun member hmem error hfails => ?_,
            fun key => ?_⟩
          · have hnone := toplevelAttrs_eq_none_iff.mpr
              ⟨member, hmem, error, hfails⟩
            rw [hattrs] at hnone
            cases hnone
          · rw [getElem?_pathFields (listToAttrs attrs).toList_distinct,
              BTreeMap.lookup_toList, getElem?_memberAttrs hattrs]
            split
            · cases pathOf (flake.toplevel key).result <;> rfl
            · rfl

/-- A member by itself has the worker's path, and fails where the worker's
evaluation does. -/
theorem subprocessMember_eq {flake : Flake} (houtputs : flake.outputs = .ok ())
    {member : String} (hvalid : isValidMemberName member) :
    pathOf (subprocessMember host flake member) =
        pathOf (flake.toplevel member).result ∧
      ((∃ error, subprocessMember host flake member = .error error) ↔
        ∃ error, flake.toplevel member = .fails error) := by
  have hsingle : ∀ other ∈ [member], isValidMemberName other := by
    simp [hvalid]
  rw [subprocessMember]
  rcases @subprocessToplevels_cases host flake [member] hsingle with
    ⟨⟨error, herror⟩, hwhy⟩ | ⟨paths, hpaths, -, hnever, hlookup⟩
  · have hfails : ∃ error, flake.toplevel member = .fails error := by
      rcases hwhy with hout | ⟨other, hmem, error, hfail⟩
      · exact absurd houtputs hout
      · rw [List.mem_singleton] at hmem
        exact ⟨error, hmem ▸ hfail⟩
    obtain ⟨reason, hreason⟩ := hfails
    simp [herror, hreason, pathOf, MemberEval.result]
  · have hnone (error : String) : flake.toplevel member ≠ .fails error :=
      hnever member (List.mem_singleton_self member) error
    simp [hpaths, hlookup, hnone, pathOf]

theorem worker_of_error {flake : Flake} {error : String}
    (houtputs : flake.outputs = .error error) (members : List String)
    (id : ℕ) :
    expectedToplevels host .worker flake members id = .error error := by
  simp [expectedToplevels, toplevelsReply, workerToplevels, houtputs,
    Ending.result, List.lookup_cons, Json.asBool, Json.asStr, bind, Except.bind]

/-- The worker never fails for a member's sake. -/
theorem worker_of_ok {flake : Flake} {members : List String}
    (hvalid : ∀ member ∈ members, isValidMemberName member)
    (houtputs : flake.outputs = .ok ()) (id : ℕ) :
    ∃ after, expectedToplevels host .worker flake members id = .ok after ∧
      ∀ key : String,
        after.paths[key]? = (if key ∈ members then
          pathOf (flake.toplevel key).result else none) ∧
        after.errors[key]? = if key ∈ members then
          errorOf (flake.toplevel key).result else none := by
  obtain ⟨after, hafter, hlookups⟩ := parseWorkerToplevels_toplevelsValue host
    (collect_disjoint (hostToplevel host flake) members)
  refine ⟨after, ?_, fun key => ?_⟩
  · simpa [expectedToplevels, toplevelsReply, workerToplevels, houtputs,
      Ending.result, List.lookup_cons, Json.asBool, bind, Except.bind] using hafter
  · rw [(hlookups key).1, (hlookups key).2, paths_collect, errors_collect]
    split
    · next hmem =>
        rw [hostToplevel_eq houtputs (hvalid key hmem)]
        exact ⟨rfl, rfl⟩
    · exact ⟨rfl, rfl⟩

theorem exists_error_iff {member : MemberEval} :
    errorOf member.result ≠ none ↔ ∃ error, member = .fails error := by
  cases member with
  | missing => simp [MemberEval.result, errorOf]
  | path outPath => simp [MemberEval.result, errorOf]
  | fails error => simp [MemberEval.result, errorOf]

/-- Where every member of the list fails, whether by itself or because the
flake does, the isolated evaluation returns the batch's error, unless a name
comes twice. -/
theorem subprocess_of_all {flake : Flake} {members : List String}
    (hbatch : ∃ error, subprocessToplevels host flake members = .error error)
    (hall : ∀ member ∈ members, ∃ error,
      subprocessMember host flake member = .error error) :
    (members.Nodup → ∃ error,
      subprocessIsolated host flake members = .error error) ∧
    (¬ members.Nodup →
      subprocessIsolated host flake members =
        .ok (collect (subprocessMember host flake) members)) := by
  obtain ⟨error, herror⟩ := hbatch
  have hsize := size_errors_collect_eq_iff (subprocessMember host flake) members
  have hempty : (collect (subprocessMember host flake) members).paths.isEmpty =
      true := by
    rw [Std.TreeMap.isEmpty_iff_forall_not_mem]
    intro key hmem
    rw [Std.TreeMap.mem_iff_isSome_getElem?, paths_collect] at hmem
    split at hmem
    · next hkey =>
        obtain ⟨reason, hreason⟩ := hall key hkey
        rw [hreason] at hmem
        cases hmem
    · cases hmem
  rw [subprocessIsolated, herror]
  by_cases hlength : members.length < 2
  · simp only [if_pos hlength]
    refine ⟨fun _ => ⟨error, rfl⟩, fun hrepeated => ?_⟩
    have hnodup : members.Nodup := by
      match members, hlength with
      | [], _ => exact List.nodup_nil
      | [member], _ => exact List.nodup_singleton member
    exact absurd hnodup hrepeated
  · simp only [if_neg hlength]
    refine ⟨fun hnodup => ⟨error, ?_⟩, fun hrepeated => ?_⟩
    · rw [if_pos ⟨hempty, hsize.mpr ⟨hnodup, hall⟩⟩]
    · rw [if_neg fun hboth => hrepeated (hsize.mp hboth.2).1]

/-- Short of that, the isolated evaluation succeeds with what each member has
by itself. -/
theorem subprocess_of_some {flake : Flake} {members : List String}
    (hvalid : ∀ member ∈ members, isValidMemberName member)
    (houtputs : flake.outputs = .ok ())
    (hsome : ¬ AllFail flake members) :
    ∃ after, subprocessIsolated host flake members = .ok after ∧
      ∀ key : String,
        after.paths[key]? = (if key ∈ members then
          pathOf (flake.toplevel key).result else none) ∧
        (key ∈ after.errors ↔
          key ∈ members ∧ ∃ error, flake.toplevel key = .fails error) := by
  rw [subprocessIsolated]
  rcases @subprocessToplevels_cases host flake members hvalid with
    ⟨⟨error, herror⟩, hwhy⟩ | ⟨paths, hpaths, -, hnever, hlookup⟩
  · obtain ⟨failing, hfailing, reason, hreason⟩ :=
      hwhy.resolve_left fun hout => hout houtputs
    have hone (member : String) (hmem : member ∈ members) :=
      @subprocessMember_eq host flake houtputs member (hvalid member hmem)
    have hlength : ¬ members.length < 2 := by
      intro hshort
      apply hsome
      obtain ⟨only, rfl⟩ : ∃ only, members = [only] := by
        match members, hshort, hfailing with
        | [only], _, _ => exact ⟨only, rfl⟩
      rw [List.mem_singleton] at hfailing
      refine ⟨houtputs, List.cons_ne_nil _ _, List.nodup_singleton only, ?_⟩
      intro member hmem
      rw [List.mem_singleton.mp hmem, ← hfailing]
      exact ⟨reason, hreason⟩
    have hsize : (collect (subprocessMember host flake) members).errors.size ≠
        members.length := by
      intro heq
      obtain ⟨hnodup, hall⟩ := (size_errors_collect_eq_iff _ members).mp heq
      exact hsome ⟨houtputs, List.ne_nil_of_mem hfailing, hnodup,
        fun member hmem => (hone member hmem).2.mp (hall member hmem)⟩
    refine ⟨collect (subprocessMember host flake) members, ?_, fun key => ?_⟩
    · simp [herror, hlength, hsize]
    · rw [paths_collect, Std.TreeMap.mem_iff_isSome_getElem?, errors_collect]
      split
      · next hmem =>
          refine ⟨(hone key hmem).1, ?_⟩
          rw [← (hone key hmem).2]
          cases subprocessMember host flake key <;> simp [errorOf, hmem]
      · next hmem => simp [hmem]
  · refine ⟨.ofPaths paths, by rw [hpaths], fun key => ⟨hlookup key, ?_⟩⟩
    refine ⟨fun hmem => absurd hmem Std.TreeMap.not_mem_emptyc, ?_⟩
    rintro ⟨hmem, error, hfails⟩
    exact absurd hfails (hnever key hmem error)

theorem batch_of_allFail {flake : Flake} {members : List String}
    (hvalid : ∀ member ∈ members, isValidMemberName member)
    (hall : AllFail flake members) :
    (∃ error, subprocessToplevels host flake members = .error error) ∧
      ∀ member ∈ members, ∃ error,
        subprocessMember host flake member = .error error := by
  obtain ⟨houtputs, hne, -, hfails⟩ := hall
  refine ⟨?_, fun member hmem => ?_⟩
  · rcases @subprocessToplevels_cases host flake members hvalid with
      ⟨herror, -⟩ | ⟨paths, -, -, hnever, -⟩
    · exact herror
    · obtain ⟨member, rest, rfl⟩ := List.exists_cons_of_ne_nil hne
      obtain ⟨error, herror⟩ := hfails member List.mem_cons_self
      exact absurd herror (hnever member List.mem_cons_self error)
  · exact (@subprocessMember_eq host flake houtputs member
      (hvalid member hmem)).2.mpr (hfails member hmem)

/-- A flake that does not evaluate fails the batch and every member. -/
theorem batch_of_outputs {flake : Flake} {members : List String}
    (hvalid : ∀ member ∈ members, isValidMemberName member)
    (houtputs : flake.outputs ≠ .ok ()) :
    (∃ error, subprocessToplevels host flake members = .error error) ∧
      ∀ member ∈ members, ∃ error,
        subprocessMember host flake member = .error error := by
  have hfails {names : List String}
      (hnames : ∀ name ∈ names, isValidMemberName name) :
      ∃ error, subprocessToplevels host flake names = .error error := by
    rcases @subprocessToplevels_cases host flake names hnames with
      ⟨herror, -⟩ | ⟨paths, -, hok, -⟩
    · exact herror
    · exact absurd hok houtputs
  refine ⟨hfails hvalid, fun member hmem => ?_⟩
  obtain ⟨error, herror⟩ := @hfails [member] (by simp [hvalid member hmem])
  exact ⟨error, by rw [subprocessMember, herror]⟩

/-! ## Where the backends part -/

variable (host)

/-- A name that comes twice hides a failure of the whole flake: the members that
failed are counted once, the members of the list as often as they come. -/
theorem not_agree_of_repeated {flake : Flake} {members : List String}
    (hvalid : ∀ member ∈ members, isValidMemberName member)
    (houtputs : flake.outputs ≠ .ok ()) (hrepeated : ¬ members.Nodup)
    (id : ℕ) :
    ¬ Agree (expectedToplevels host .worker flake members id)
      (expectedToplevels host .subprocess flake members id) := by
  obtain ⟨hbatch, hall⟩ := @batch_of_outputs host flake members hvalid houtputs
  have hok : expectedToplevels host .subprocess flake members id = _ :=
    (subprocess_of_all hbatch hall).2 hrepeated
  cases hout : flake.outputs with
  | ok value => exact absurd hout houtputs
  | error error =>
      rw [worker_of_error hout, hok]
      exact fun hagree => hagree

def brokenFlake : Flake :=
  { ref := "."
    outputs := .ok ()
    toplevel := fun member =>
      if member = "web" then .fails "attribute missing" else .missing
    stderr := fun _ => "error: attribute missing" }

def plainHost : Host :=
  { fromStr := fun _ => .error "unused", toStr := fun _ => ""
    debugStr := fun text => text, secsF64 := fun _ => "" }

theorem web_valid : ∀ member ∈ ["web"], isValidMemberName member := by
  decide +kernel

end Backends

end Mandala.Eval
