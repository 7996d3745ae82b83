import Mandala.Core.Ordering
import Mandala.Data.Json

/-!
# Secret declarations

A declared secret names the file that holds it and its readers.  Readers are
resolved against the fleet, and a set of declarations that could seal a file
wrongly is refused by name.
-/

namespace Mandala.Secrets

open Mandala.Data Mandala.Ordering

/-! ## The fleet -/

structure Sops where
  recipient : Option String

structure Ansible where
  groups : List String

structure Deployment where
  sops : Sops
  ansible : Ansible

/-- What readers resolve against. -/
structure Host where
  platform : String
  architecture : String
  category : String
  role : Option String
  tags : List String
  deployment : Deployment

abbrev Hosts := BTreeMap Host

/-- `groupsFor`. -/
def groupsFor (host : Host) : List String :=
  unique ([host.platform, host.architecture, host.category] ++
    host.role.toList ++ host.tags ++ host.deployment.ansible.groups)

def recipientOf (hosts : Hosts) (name : String) : Option String :=
  hosts[name]?.bind (·.deployment.sops.recipient)

def sopsMembers (hosts : Hosts) : List String :=
  (hosts.toList.filter (·.2.deployment.sops.recipient.isSome)).map Prod.fst

def resolveGroup (hosts : Hosts) (group : String) : List String :=
  (hosts.toList.filter fun entry => group ∈ groupsFor entry.2).map Prod.fst

/-! ## Declarations -/

structure Readers where
  members : List String
  groups : List String
  all : Bool
  adminOnly : Bool

structure Secret where
  path : String
  readers : Readers

structure ResolvedSecret extends Secret where
  resolvedReaders : List String

abbrev Declarations := BTreeMap Secret

def resolvedReadersOf (hosts : Hosts) (secret : Secret) : List String :=
  sortNames (unique (secret.readers.members ++
    secret.readers.groups.flatMap (resolveGroup hosts) ++
    if secret.readers.all then sopsMembers hosts else []))

/-- How often each path is declared. -/
def pathCounts (paths : List String) : BTreeMap ℕ :=
  paths.foldl (fun counts path => counts.insert path (counts.getD path 0 + 1)) ∅

def dupPaths (declarations : Declarations) : List String :=
  let counts := pathCounts (declarations.values.map (·.path))
  (counts.toList.filter (·.2 > 1)).map Prod.fst

/-- One offender list for the whole set, in name order. -/
def forSecrets (declarations : Declarations)
    (offenders : String → Secret → List String) : List String :=
  declarations.toList.flatMap fun entry => offenders entry.1 entry.2

def adminOnlyConflicts (name : String) (secret : Secret) : List String :=
  let readers := secret.readers
  if readers.adminOnly &&
      (readers.members ≠ [] || readers.groups ≠ [] || readers.all) then
    [s!"secret '{name}' is adminOnly but declares other readers"]
  else []

def unknownMembers (hosts : Hosts) (name : String) (secret : Secret) :
    List String :=
  (secret.readers.members.filter (hosts[·]?.isNone)).map fun member =>
    s!"secret '{name}' names unknown member '{member}'"

def emptyGroups (hosts : Hosts) (name : String) (secret : Secret) :
    List String :=
  (secret.readers.groups.filter (resolveGroup hosts · = [])).map fun group =>
    s!"secret '{name}' references group '{group}', which resolves to no members"

def missingRecipients (hosts : Hosts) (name : String) (secret : Secret) :
    List String :=
  ((resolvedReadersOf hosts secret).filter (recipientOf hosts · |>.isNone)).map
    fun reader =>
      s!"secret '{name}' resolves to reader '{reader}', which has no sops recipient"

def fail (messages : List String) : String :=
  "mandala evalSecrets:\n  " ++ "\n  ".intercalate messages

/-- Refuse with every message of an offender list. -/
def refuse (messages : List String) : Except String Unit :=
  if messages = [] then .ok () else .error (fail messages)

/-- `evalSecrets`, on declarations of the schema's shape. -/
def evalSecrets (declarations : Declarations) (hosts : Hosts) :
    Except String (BTreeMap ResolvedSecret) := do
  refuse ((dupPaths declarations).map fun path =>
    s!"path '{path}' is declared by more than one secret")
  refuse (forSecrets declarations adminOnlyConflicts)
  refuse (forSecrets declarations (unknownMembers hosts))
  refuse (forSecrets declarations (emptyGroups hosts))
  refuse (forSecrets declarations (missingRecipients hosts))
  return declarations.map fun _ secret =>
    { secret with resolvedReaders := resolvedReadersOf hosts secret }

/-! ## Authorised members -/

/-- The readers a declaration lists: members, members of groups, and every
member with a recipient. -/
def Authorised (hosts : Hosts) (secret : Secret) (name : String) : Prop :=
  name ∈ secret.readers.members ∨
    (∃ group ∈ secret.readers.groups, ∃ host, hosts[name]? = some host ∧
      group ∈ groupsFor host) ∨
    (secret.readers.all = true ∧ (recipientOf hosts name).isSome)

theorem mem_resolveGroup_iff {hosts : Hosts} {group name : String} :
    name ∈ resolveGroup hosts group ↔
      ∃ host, hosts[name]? = some host ∧ group ∈ groupsFor host := by
  rw [resolveGroup, List.mem_map]
  constructor
  · rintro ⟨⟨key, host⟩, hentry, rfl⟩
    obtain ⟨hmem, hgroup⟩ := List.mem_filter.mp hentry
    exact ⟨host, Std.TreeMap.mem_toList_iff_getElem?_eq_some.mp hmem,
      of_decide_eq_true hgroup⟩
  · rintro ⟨host, hhost, hgroup⟩
    refine ⟨(name, host), List.mem_filter.mpr ⟨?_, decide_eq_true hgroup⟩, rfl⟩
    exact Std.TreeMap.mem_toList_iff_getElem?_eq_some.mpr hhost

theorem mem_sopsMembers_iff {hosts : Hosts} {name : String} :
    name ∈ sopsMembers hosts ↔ (recipientOf hosts name).isSome := by
  rw [sopsMembers, List.mem_map, recipientOf]
  constructor
  · rintro ⟨⟨key, host⟩, hentry, rfl⟩
    obtain ⟨hmem, hsome⟩ := List.mem_filter.mp hentry
    rw [Std.TreeMap.mem_toList_iff_getElem?_eq_some.mp hmem]
    exact hsome
  · intro hsome
    cases hhost : hosts[name]? with
    | none =>
        rw [hhost] at hsome
        cases hsome
    | some host =>
        rw [hhost] at hsome
        refine ⟨(name, host), List.mem_filter.mpr ⟨?_, hsome⟩, rfl⟩
        exact Std.TreeMap.mem_toList_iff_getElem?_eq_some.mpr hhost

/-- The resolved readers are the authorised members. -/
theorem mem_resolvedReadersOf_iff {hosts : Hosts} {secret : Secret}
    {name : String} :
    name ∈ resolvedReadersOf hosts secret ↔ Authorised hosts secret name := by
  rw [resolvedReadersOf, mem_sortNames, mem_unique, List.mem_append,
    List.mem_append, List.mem_flatMap, Authorised, or_assoc]
  apply or_congr_right
  apply or_congr
  · apply exists_congr
    intro group
    rw [mem_resolveGroup_iff]
  · cases secret.readers.all with
    | true =>
        rw [if_pos rfl, mem_sopsMembers_iff]
        exact (and_iff_right rfl).symm
    | false => simp

theorem nodup_resolvedReadersOf (hosts : Hosts) (secret : Secret) :
    (resolvedReadersOf hosts secret).Nodup :=
  nodup_sortNames (nodup_unique _)

/-! ## What an accepted set guarantees -/

theorem getD_pathCounts (paths : List String) (path : String) :
    (pathCounts paths).getD path 0 = paths.count path := by
  have hfrom (counts : BTreeMap ℕ) :
      (paths.foldl (fun counts path =>
        counts.insert path (counts.getD path 0 + 1)) counts).getD path 0 =
        counts.getD path 0 + paths.count path := by
    induction paths generalizing counts with
    | nil => rfl
    | cons head paths ih =>
        rw [List.foldl_cons, ih, Std.TreeMap.getD_insert, List.count_cons]
        by_cases heq : head = path
        · subst heq
          simp
          omega
        · simp [heq]
  rw [pathCounts, hfrom]
  simp

theorem nodup_paths_of_dupPaths {declarations : Declarations}
    (hdup : dupPaths declarations = []) :
    (declarations.values.map (·.path)).Nodup := by
  rw [List.nodup_iff_count_le_one]
  intro path
  by_contra hmore
  rw [dupPaths, List.map_eq_nil_iff, List.filter_eq_nil_iff] at hdup
  rw [← getD_pathCounts] at hmore
  cases hcount : (pathCounts (declarations.values.map (·.path)))[path]? with
  | none =>
      rw [Std.TreeMap.getD_eq_getD_getElem?, hcount] at hmore
      simp at hmore
  | some count =>
      rw [Std.TreeMap.getD_eq_getD_getElem?, hcount] at hmore
      apply hdup (path, count)
        (Std.TreeMap.mem_toList_iff_getElem?_eq_some.mpr hcount)
      simpa using hmore

/-- What the checks establish about a set of declarations. -/
structure Accepted (hosts : Hosts) (declarations : Declarations) : Prop where
  paths : (declarations.values.map (·.path)).Nodup
  adminOnly : ∀ (name : String) secret, declarations[name]? = some secret →
    secret.readers.adminOnly → ∀ member, ¬ Authorised hosts secret member
  keyed : ∀ (name : String) secret, declarations[name]? = some secret →
    ∀ member, Authorised hosts secret member →
      (recipientOf hosts member).isSome

theorem refuse_bind_eq_ok_iff {A : Type} {messages : List String}
    {rest : Except String A} {value : A} :
    (refuse messages >>= fun _ => rest) = .ok value ↔
      messages = [] ∧ rest = .ok value := by
  by_cases hnil : messages = []
  · rw [refuse, if_pos hnil]
    exact (and_iff_right hnil).symm
  · rw [refuse, if_neg hnil]
    constructor
    · intro herror
      cases herror
    · intro hboth
      exact absurd hboth.1 hnil

theorem forSecrets_eq_nil_iff {declarations : Declarations}
    {offenders : String → Secret → List String} :
    forSecrets declarations offenders = [] ↔
      ∀ (name : String) secret, declarations[name]? = some secret →
        offenders name secret = [] := by
  rw [forSecrets, List.flatMap_eq_nil_iff]
  constructor
  · intro hnil name secret hsecret
    exact hnil (name, secret)
      (Std.TreeMap.mem_toList_iff_getElem?_eq_some.mpr hsecret)
  · intro hnil entry hentry
    exact hnil entry.1 entry.2
      (Std.TreeMap.mem_toList_iff_getElem?_eq_some.mp hentry)

theorem accepted_of_evalSecrets {hosts : Hosts} {declarations : Declarations}
    {secrets : BTreeMap ResolvedSecret}
    (heval : evalSecrets declarations hosts = .ok secrets) :
    Accepted hosts declarations ∧
      secrets = declarations.map fun _ secret =>
        { secret with resolvedReaders := resolvedReadersOf hosts secret } := by
  simp only [evalSecrets, refuse_bind_eq_ok_iff, List.map_eq_nil_iff,
    forSecrets_eq_nil_iff] at heval
  obtain ⟨hdup, hadmin, -, -, hmissing, hsecrets⟩ := heval
  refine ⟨⟨nodup_paths_of_dupPaths hdup, ?_, ?_⟩, (Except.ok.inj hsecrets).symm⟩
  · intro name secret hsecret hadminOnly member hauthorised
    have hconflict := hadmin name secret hsecret
    simp only [adminOnlyConflicts, hadminOnly, Bool.true_and, ite_eq_right_iff,
      List.cons_ne_nil, imp_false, Bool.not_eq_true, Bool.or_eq_false_iff,
      decide_eq_false_iff_not, not_not] at hconflict
    obtain ⟨⟨hmembers, hgroups⟩, hall⟩ := hconflict
    simp [Authorised, hmembers, hgroups, hall] at hauthorised
  · intro name secret hsecret member hauthorised
    have hreaders := hmissing name secret hsecret
    rw [missingRecipients, List.map_eq_nil_iff, List.filter_eq_nil_iff] at hreaders
    have hsome := hreaders member (mem_resolvedReadersOf_iff.mpr hauthorised)
    rw [Option.isSome_iff_ne_none]
    intro hnone
    exact hsome (by rw [hnone]; rfl)

end Mandala.Secrets
