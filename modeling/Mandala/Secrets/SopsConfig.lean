import Mandala.Core.Pattern
import Mandala.Secrets.Declaration

/-!
# The sops configuration

Every declared secret becomes a creation rule for its path.  Rules are searched
in order and the first one whose pattern matches somewhere in a path seals the
file.  The pattern of a rule is anchored at the end only, so a rule also
matches the longer paths that end in its own.
-/

namespace Mandala.Secrets

open Mandala.Data Mandala.Ordering Mandala.Search

structure Rule where
  path : String
  readers : List String
  adminOnly : Bool
  deriving DecidableEq, Repr

structure KeyGroup where
  pgp : List String
  age : Option (List String)
  deriving DecidableEq, Repr

structure CreationRule where
  pathRegex : String
  keyGroups : List KeyGroup
  deriving DecidableEq, Repr

structure SopsConfig where
  keys : List String
  creationRules : List CreationRule
  deriving DecidableEq, Repr

/-- `lib.escapeRegex`. -/
def escapeRegex (text : String) : String :=
  String.ofList (escape text.toList)

section Projection

variable (operatorAnchor : String) (recipients : BTreeMap String)

def readerRecipient (path name : String) : Except String String :=
  match recipients[name]? with
  | some recipient => .ok recipient
  | none => .error
      s!"mandala sops-config: rule for {path} names reader '{name}', which has no recipient"

def recipientsFor (path : String) (readers : List String) :
    Except String (List String) :=
  (sortNames (unique readers)).mapM (readerRecipient recipients path)

/-- An admin-only rule carries no age key at all. -/
def mkRule (rule : Rule) : Except String CreationRule := do
  let age ←
    if rule.adminOnly then pure none
    else some <$> recipientsFor recipients rule.path rule.readers
  return { pathRegex := escapeRegex rule.path ++ "$"
           keyGroups := [{ pgp := [operatorAnchor], age }] }

def byPath (rules : List Rule) : List Rule :=
  rules.insertionSort fun left right => left.path ≤ right.path

def adminRule (secret : ResolvedSecret) : Rule :=
  { path := secret.path, readers := [], adminOnly := true }

def memberRule (secret : ResolvedSecret) : Rule :=
  { path := secret.path, readers := secret.resolvedReaders, adminOnly := false }

/-- Admin-only rules come first, and each block is sorted by path. -/
def declaredRules (secrets : BTreeMap ResolvedSecret) : List Rule :=
  byPath ((secrets.values.filter (·.readers.adminOnly)).map adminRule) ++
    byPath ((secrets.values.filter (!·.readers.adminOnly)).map memberRule)

def ruleList (rules : Option (List Rule))
    (secrets : Option (BTreeMap ResolvedSecret)) : Except String (List Rule) :=
  match rules, secrets with
  | some rules, none => .ok rules
  | none, some secrets => .ok (declaredRules secrets)
  | _, _ => .error
      "mandala sops-config: pass exactly one of `rules` or `secrets`"

/-- `sops-config.nix`. -/
def sopsConfig (rules : Option (List Rule))
    (secrets : Option (BTreeMap ResolvedSecret)) : Except String SopsConfig := do
  let rules ← ruleList rules secrets
  let creationRules ← rules.mapM (mkRule operatorAnchor recipients)
  return { keys := operatorAnchor :: recipients.values, creationRules }

end Projection

/-- The recipients of the members that have one. -/
def fleetRecipients (hosts : Hosts) : BTreeMap String :=
  hosts.filterMap fun _ host => host.deployment.sops.recipient

/-- The configuration a fleet with declarations gets. -/
def fleetSopsConfig (operatorAnchor : String) (declarations : Declarations)
    (hosts : Hosts) : Except String SopsConfig := do
  let secrets ← evalSecrets declarations hosts
  sopsConfig operatorAnchor (fleetRecipients hosts) none (some secrets)

/-- The rule that seals a file: the first one found in its path. -/
def sealingRule (config : SopsConfig) (path : String) : Option CreationRule :=
  config.creationRules.find? (matchString ·.pathRegex path)

/-! ## The order of the rules -/

/-- The rule of a declared secret. -/
def ruleOf (hosts : Hosts) (secret : Secret) : Rule :=
  { path := secret.path
    readers :=
      if secret.readers.adminOnly then [] else resolvedReadersOf hosts secret
    adminOnly := secret.readers.adminOnly }

/-- The rule order: admin-only before the others, then by path. -/
def Precedes (left right : Secret) : Prop :=
  (left.readers.adminOnly = true ∧ right.readers.adminOnly = false) ∨
    (left.readers.adminOnly = right.readers.adminOnly ∧ left.path < right.path)

/-- The same order, on rules. -/
def Rule.Precedes (left right : Rule) : Prop :=
  (left.adminOnly = true ∧ right.adminOnly = false) ∨
    (left.adminOnly = right.adminOnly ∧ left.path < right.path)

theorem Rule.Precedes.asymm (left right : Rule)
    (hprecedes : left.Precedes right) : ¬ right.Precedes left := by
  rintro (⟨hadmin, hmember⟩ | ⟨hsame, hpath⟩)
  · rcases hprecedes with ⟨hadmin', hmember'⟩ | ⟨hsame, -⟩
    · rw [hmember'] at hadmin
      cases hadmin
    · rw [hsame, hadmin] at hmember
      cases hmember
  · rcases hprecedes with ⟨hadmin, hmember⟩ | ⟨-, hpath'⟩
    · rw [hsame, hadmin] at hmember
      cases hmember
    · exact lt_asymm hpath hpath'

theorem mem_byPath {rules : List Rule} {rule : Rule} :
    rule ∈ byPath rules ↔ rule ∈ rules :=
  List.mem_insertionSort _

theorem pairwise_byPath {rules : List Rule}
    (hpaths : (rules.map (·.path)).Nodup) :
    (byPath rules).Pairwise fun left right => left.path < right.path := by
  let order (left right : Rule) : Prop := left.path ≤ right.path
  have : Std.Total order := ⟨fun left right => le_total left.path right.path⟩
  have : IsTrans Rule order := ⟨fun _ _ _ => le_trans⟩
  have hsorted : (byPath rules).Pairwise order := List.pairwise_insertionSort _ _
  have hperm := (List.perm_insertionSort order rules).map (·.path)
  have hdistinct := List.pairwise_map.mp (hperm.nodup_iff.mpr hpaths)
  exact hsorted.imp₂ (fun _ _ hle hne => lt_of_le_of_ne hle hne) hdistinct

section Declared

variable {hosts : Hosts} {declarations : Declarations}

/-- The declarations with their readers resolved. -/
def resolved (hosts : Hosts) (declarations : Declarations) :
    BTreeMap ResolvedSecret :=
  declarations.map fun _ secret =>
    { secret with resolvedReaders := resolvedReadersOf hosts secret }

theorem values_resolved :
    (resolved hosts declarations).values = declarations.values.map fun secret =>
      { secret with resolvedReaders := resolvedReadersOf hosts secret } := by
  rw [BTreeMap.values_eq, BTreeMap.values_eq, resolved, Std.TreeMap.toList_map,
    List.map_map, List.map_map]
  rfl

/-- One block of the declared rules. -/
theorem declaredRules_resolved :
    declaredRules (resolved hosts declarations) =
      byPath ((declarations.values.filter (·.readers.adminOnly)).map
        (ruleOf hosts)) ++
      byPath ((declarations.values.filter (!·.readers.adminOnly)).map
        (ruleOf hosts)) := by
  rw [declaredRules, values_resolved, List.filter_map, List.filter_map,
    List.map_map, List.map_map]
  congr 2
  · apply List.map_congr_left
    intro secret hmem
    have hadmin : secret.readers.adminOnly = true := (List.mem_filter.mp hmem).2
    simp [ruleOf, adminRule, hadmin]
  · apply List.map_congr_left
    intro secret hmem
    have hadmin : secret.readers.adminOnly = false := by
      simpa using (List.mem_filter.mp hmem).2
    simp [ruleOf, memberRule, hadmin]

theorem mem_declaredRules_iff {rule : Rule} :
    rule ∈ declaredRules (resolved hosts declarations) ↔
      ∃ (name : String) (secret : Secret), declarations[name]? = some secret ∧
        rule = ruleOf hosts secret := by
  rw [declaredRules_resolved, List.mem_append, mem_byPath, mem_byPath,
    List.mem_map, List.mem_map]
  constructor
  · rintro (⟨secret, hmem, rfl⟩ | ⟨secret, hmem, rfl⟩)
    · obtain ⟨name, hname⟩ :=
        BTreeMap.mem_values_iff.mp (List.mem_filter.mp hmem).1
      exact ⟨name, secret, hname, rfl⟩
    · obtain ⟨name, hname⟩ :=
        BTreeMap.mem_values_iff.mp (List.mem_filter.mp hmem).1
      exact ⟨name, secret, hname, rfl⟩
  · rintro ⟨name, secret, hname, rfl⟩
    have hvalue := BTreeMap.mem_values_iff.mpr ⟨name, hname⟩
    cases hadmin : secret.readers.adminOnly with
    | true => exact .inl ⟨secret, List.mem_filter.mpr ⟨hvalue, hadmin⟩, rfl⟩
    | false =>
        refine .inr ⟨secret, List.mem_filter.mpr ⟨hvalue, ?_⟩, rfl⟩
        rw [hadmin]
        rfl

theorem pairwise_declaredRules
    (hpaths : (declarations.values.map (·.path)).Nodup) :
    (declaredRules (resolved hosts declarations)).Pairwise Rule.Precedes := by
  have hblock (adminOnly : Secret → Bool) :
      (((declarations.values.filter adminOnly).map (ruleOf hosts)).map
        (·.path)).Nodup := by
    rw [List.map_map]
    exact hpaths.sublist (List.filter_sublist.map _)
  have hclass {adminOnly : Bool} {block : List Secret} {rule : Rule}
      (hblock : ∀ secret ∈ block, secret.readers.adminOnly = adminOnly)
      (hmem : rule ∈ byPath (block.map (ruleOf hosts))) :
      rule.adminOnly = adminOnly := by
    obtain ⟨secret, hsecret, rfl⟩ := List.mem_map.mp (mem_byPath.mp hmem)
    exact hblock secret hsecret
  have hadmin : ∀ secret ∈ declarations.values.filter (·.readers.adminOnly),
      secret.readers.adminOnly = true := by
    intro secret hmem
    exact (List.mem_filter.mp hmem).2
  have hmember : ∀ secret ∈ declarations.values.filter (!·.readers.adminOnly),
      secret.readers.adminOnly = false := by
    intro secret hmem
    simpa using (List.mem_filter.mp hmem).2
  rw [declaredRules_resolved, List.pairwise_append]
  refine ⟨?_, ?_, ?_⟩
  · apply (pairwise_byPath (hblock _)).imp_of_mem
    intro left right hleft hright hpath
    exact .inr ⟨(hclass hadmin hleft).trans (hclass hadmin hright).symm, hpath⟩
  · apply (pairwise_byPath (hblock _)).imp_of_mem
    intro left right hleft hright hpath
    exact .inr ⟨(hclass hmember hleft).trans (hclass hmember hright).symm, hpath⟩
  · intro left hleft right hright
    exact .inl ⟨hclass hadmin hleft, hclass hmember hright⟩

/-! ## The rules of an accepted set -/

/-- The recipient a member has, when it has one. -/
def keyOf (hosts : Hosts) (name : String) : String :=
  (recipientOf hosts name).getD ""

/-- What `mkRule` makes of a rule whose readers all have a recipient. -/
def creationRule (operatorAnchor : String) (hosts : Hosts) (rule : Rule) :
    CreationRule :=
  { pathRegex := escapeRegex rule.path ++ "$"
    keyGroups :=
      [{ pgp := [operatorAnchor]
         age :=
          if rule.adminOnly then none
          else some ((sortNames (unique rule.readers)).map (keyOf hosts)) }] }

@[simp]
theorem pathRegex_creationRule (operatorAnchor : String) (rule : Rule) :
    (creationRule operatorAnchor hosts rule).pathRegex =
      escapeRegex rule.path ++ "$" := by
  rw [creationRule]

theorem getElem?_fleetRecipients (hosts : Hosts) (name : String) :
    (fleetRecipients hosts)[name]? = recipientOf hosts name :=
  Std.TreeMap.getElem?_filterMap'

theorem mapM_eq_ok {A B : Type} {elements : List A} {f : A → Except String B}
    {g : A → B} (hok : ∀ element ∈ elements, f element = .ok (g element)) :
    elements.mapM f = .ok (elements.map g) := by
  induction elements with
  | nil => rfl
  | cons element elements ih =>
      rw [List.mapM_cons, hok element List.mem_cons_self,
        ih fun other hmem => hok other (List.mem_cons_of_mem _ hmem)]
      rfl

theorem mkRule_eq_ok {operatorAnchor : String} {rule : Rule}
    (hkeyed : ∀ name ∈ rule.readers, (recipientOf hosts name).isSome) :
    mkRule operatorAnchor (fleetRecipients hosts) rule =
      .ok (creationRule operatorAnchor hosts rule) := by
  have hrecipients : recipientsFor (fleetRecipients hosts) rule.path
      rule.readers = .ok ((sortNames (unique rule.readers)).map (keyOf hosts)) := by
    apply mapM_eq_ok
    intro name hname
    rw [mem_sortNames, mem_unique] at hname
    obtain ⟨recipient, hrecipient⟩ := Option.isSome_iff_exists.mp (hkeyed name hname)
    rw [readerRecipient, getElem?_fleetRecipients, keyOf, hrecipient]
    rfl
  rw [mkRule, creationRule, hrecipients]
  cases rule.adminOnly <;> rfl

/-- The configuration of an accepted set of declarations. -/
def acceptedConfig (operatorAnchor : String) (hosts : Hosts)
    (declarations : Declarations) : SopsConfig :=
  { keys := operatorAnchor :: (fleetRecipients hosts).values
    creationRules := (declaredRules (resolved hosts declarations)).map
      (creationRule operatorAnchor hosts) }

/-- An accepted set of declarations always gets a configuration. -/
theorem fleetSopsConfig_eq_ok {operatorAnchor : String}
    {secrets : BTreeMap ResolvedSecret}
    (heval : evalSecrets declarations hosts = .ok secrets) :
    fleetSopsConfig operatorAnchor declarations hosts =
      .ok (acceptedConfig operatorAnchor hosts declarations) := by
  obtain ⟨haccepted, hsecrets⟩ := accepted_of_evalSecrets heval
  rw [fleetSopsConfig, heval, hsecrets]
  change sopsConfig operatorAnchor (fleetRecipients hosts) none
    (some (resolved hosts declarations)) = _
  have hrules : (declaredRules (resolved hosts declarations)).mapM
      (mkRule operatorAnchor (fleetRecipients hosts)) =
        .ok (acceptedConfig operatorAnchor hosts declarations).creationRules := by
    apply mapM_eq_ok
    intro rule hrule
    obtain ⟨name, secret, hname, rfl⟩ := mem_declaredRules_iff.mp hrule
    apply mkRule_eq_ok
    intro reader hreader
    rw [ruleOf] at hreader
    split at hreader
    · cases hreader
    · exact haccepted.keyed name secret hname reader
        (mem_resolvedReadersOf_iff.mp hreader)
  rw [sopsConfig, ruleList]
  change ((declaredRules (resolved hosts declarations)).mapM
    (mkRule operatorAnchor (fleetRecipients hosts)) >>= fun creationRules =>
      Except.ok (SopsConfig.mk _ creationRules)) = _
  rw [hrules]
  rfl

end Declared

end Mandala.Secrets
