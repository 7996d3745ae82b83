import Mandala.Secrets.SopsConfig

/-!
# Sealing every file to its readers

The rule found for a declared file is the one of the first declared secret
whose path ends the file's path.  Admin-only files are always sealed to the
operator alone; any other file is sealed to its own readers only when the
secret that governs it has the same ones.
-/

namespace Mandala.Secrets

open Mandala.Data Mandala.Ordering Mandala.Search

/-! ## Sealed rules -/

/-- The secret is opened by this age key. -/
def Keyed (hosts : Hosts) (secret : Secret) (key : String) : Prop :=
  ∃ member, Authorised hosts secret member ∧ recipientOf hosts member = some key

/-- No two members that may read the secret share an age key. -/
def DistinctKeys (hosts : Hosts) (secret : Secret) : Prop :=
  ∀ left right, Authorised hosts secret left → Authorised hosts secret right →
    recipientOf hosts left = recipientOf hosts right → left = right

/-- The rule seals to the operator and to exactly the secret's readers, each
key once; an admin-only secret has no age key at all. -/
def Seals (operatorAnchor : String) (hosts : Hosts) (secret : Secret)
    (rule : CreationRule) : Prop :=
  ∃ age : Option (List String),
    rule.keyGroups = [{ pgp := [operatorAnchor], age }] ∧
      (age.getD []).Nodup ∧
      (∀ key, key ∈ age.getD [] ↔ Keyed hosts secret key) ∧
      (secret.readers.adminOnly = true → age = none)

/-- Every declared file is sealed to exactly its readers. -/
def SealsTruly (operatorAnchor : String) (hosts : Hosts)
    (declarations : Declarations) (config : SopsConfig) : Prop :=
  ∀ (name : String) (secret : Secret), declarations[name]? = some secret →
    ∃ rule, sealingRule config secret.path = some rule ∧
      Seals operatorAnchor hosts secret rule

/-- The age keys a declared rule carries. -/
def ageOf (hosts : Hosts) (secret : Secret) : Option (List String) :=
  if secret.readers.adminOnly then none
  else some ((sortNames (unique (resolvedReadersOf hosts secret))).map
    (keyOf hosts))

section Declared

variable {hosts : Hosts} {declarations : Declarations}

theorem keyGroups_creationRule (operatorAnchor : String) (secret : Secret) :
    (creationRule operatorAnchor hosts (ruleOf hosts secret)).keyGroups =
      [{ pgp := [operatorAnchor], age := ageOf hosts secret }] := by
  cases hadmin : secret.readers.adminOnly <;>
    simp [creationRule, ruleOf, ageOf, hadmin]

variable (haccepted : Accepted hosts declarations) {name : String}
  {secret : Secret} (hdeclared : declarations[name]? = some secret)

include haccepted hdeclared

theorem keyOf_of_authorised {member : String}
    (hauthorised : Authorised hosts secret member) :
    recipientOf hosts member = some (keyOf hosts member) := by
  obtain ⟨key, hkey⟩ := Option.isSome_iff_exists.mp
    (haccepted.keyed name secret hdeclared member hauthorised)
  rw [keyOf, hkey]
  rfl

theorem mem_ageOf_iff {key : String} :
    key ∈ (ageOf hosts secret).getD [] ↔ Keyed hosts secret key := by
  rw [ageOf]
  cases hadmin : secret.readers.adminOnly with
  | true =>
      have hnone := haccepted.adminOnly name secret hdeclared hadmin
      constructor
      · intro hmem
        cases hmem
      · rintro ⟨member, hauthorised, -⟩
        exact absurd hauthorised (hnone member)
  | false =>
      rw [if_neg Bool.false_ne_true, Option.getD_some, List.mem_map]
      apply exists_congr
      intro member
      rw [mem_sortNames, mem_unique, mem_resolvedReadersOf_iff]
      apply and_congr_right
      intro hauthorised
      rw [keyOf_of_authorised haccepted hdeclared hauthorised,
        Option.some.injEq]

theorem nodup_ageOf_iff :
    ((ageOf hosts secret).getD []).Nodup ↔ DistinctKeys hosts secret := by
  have hkeyOf {left right : String} (hleft : Authorised hosts secret left)
      (hright : Authorised hosts secret right) :
      recipientOf hosts left = recipientOf hosts right ↔
        keyOf hosts left = keyOf hosts right := by
    rw [keyOf_of_authorised haccepted hdeclared hleft,
      keyOf_of_authorised haccepted hdeclared hright, Option.some.injEq]
  rw [ageOf]
  cases hadmin : secret.readers.adminOnly with
  | true =>
      have hnone := haccepted.adminOnly name secret hdeclared hadmin
      refine iff_of_true List.nodup_nil ?_
      intro left _ hleft
      exact absurd hleft (hnone left)
  | false =>
      have hnodup : (sortNames (unique (resolvedReadersOf hosts secret))).Nodup :=
        nodup_sortNames (nodup_unique _)
      rw [if_neg Bool.false_ne_true, Option.getD_some,
        List.nodup_map_iff_inj_on hnodup]
      simp only [mem_sortNames, mem_unique, mem_resolvedReadersOf_iff]
      constructor
      · intro hinj left right hleft hright hsame
        exact hinj left hleft right hright ((hkeyOf hleft hright).mp hsame)
      · intro hdistinct left hleft right hright hsame
        exact hdistinct left right hleft hright ((hkeyOf hleft hright).mpr hsame)

end Declared

/-! ## The rule that is found -/

/-- The declared secret whose rule is found for a path: its own path ends the
searched one, and no other such secret comes first. -/
def Governs (declarations : Declarations) (governing : Secret) (path : String) :
    Prop :=
  governing.path.toList <:+ path.toList ∧
    ∀ (name : String) (other : Secret), declarations[name]? = some other →
      other.path.toList <:+ path.toList → ¬ Precedes other governing

/-- The secret that governs a declared file has the same readers, and no two of
them share an age key. -/
def Separated (hosts : Hosts) (declarations : Declarations) : Prop :=
  ∀ (name : String) (secret : Secret), declarations[name]? = some secret →
    ∀ (other : String) (governing : Secret),
      declarations[other]? = some governing →
        Governs declarations governing secret.path →
          (∀ key, Keyed hosts governing key ↔ Keyed hosts secret key) ∧
            DistinctKeys hosts governing

/-- The pattern made of a rule's path is found in a path. -/
def Rule.applies (rule : Rule) (path : String) : Bool :=
  matchString (escapeRegex rule.path ++ "$") path

theorem Rule.applies_iff {rule : Rule} {path : String} :
    rule.applies path ↔ rule.path.toList <:+ path.toList :=
  matchString_escape

theorem sealingRule_acceptedConfig {operatorAnchor path : String}
    {hosts : Hosts} {declarations : Declarations} :
    sealingRule (acceptedConfig operatorAnchor hosts declarations) path =
      ((declaredRules (resolved hosts declarations)).find?
        (·.applies path)).map (creationRule operatorAnchor hosts) := by
  have happlies : (matchString ·.pathRegex path) ∘
      creationRule operatorAnchor hosts = (·.applies path) := by
    funext rule
    rw [Function.comp_apply, pathRegex_creationRule, Rule.applies]
  rw [sealingRule, acceptedConfig, List.find?_map, happlies]

section Found

variable {hosts : Hosts} {declarations : Declarations}
  (haccepted : Accepted hosts declarations) {operatorAnchor path : String}

include haccepted

theorem find?_declaredRules_iff {governing : Rule} :
    (declaredRules (resolved hosts declarations)).find?
        (·.applies path) = some governing ↔
      ∃ (name : String) (secret : Secret), declarations[name]? = some secret ∧
        Governs declarations secret path ∧ governing = ruleOf hosts secret := by
  rw [find?_eq_some_iff_first Rule.Precedes.asymm
    (pairwise_declaredRules haccepted.paths)]
  constructor
  · rintro ⟨hmem, hmatch, hfirst⟩
    obtain ⟨name, secret, hname, rfl⟩ := mem_declaredRules_iff.mp hmem
    refine ⟨name, secret, hname, ⟨Rule.applies_iff.mp hmatch, ?_⟩, rfl⟩
    intro otherName other hother hsuffix
    exact hfirst (ruleOf hosts other)
      (mem_declaredRules_iff.mpr ⟨otherName, other, hother, rfl⟩)
      (Rule.applies_iff.mpr hsuffix)
  · rintro ⟨name, secret, hname, ⟨hsuffix, hfirst⟩, rfl⟩
    refine ⟨mem_declaredRules_iff.mpr ⟨name, secret, hname, rfl⟩,
      Rule.applies_iff.mpr hsuffix, ?_⟩
    intro rule hrule hmatch
    obtain ⟨otherName, other, hother, rfl⟩ := mem_declaredRules_iff.mp hrule
    exact hfirst otherName other hother (Rule.applies_iff.mp hmatch)

theorem sealingRule_iff {rule : CreationRule} :
    sealingRule (acceptedConfig operatorAnchor hosts declarations) path =
        some rule ↔
      ∃ (name : String) (secret : Secret), declarations[name]? = some secret ∧
        Governs declarations secret path ∧
          rule = creationRule operatorAnchor hosts (ruleOf hosts secret) := by
  rw [sealingRule_acceptedConfig, Option.map_eq_some_iff]
  constructor
  · rintro ⟨governing, hfind, rfl⟩
    obtain ⟨name, secret, hname, hgoverns, rfl⟩ :=
      (find?_declaredRules_iff haccepted).mp hfind
    exact ⟨name, secret, hname, hgoverns, rfl⟩
  · rintro ⟨name, secret, hname, hgoverns, rfl⟩
    exact ⟨ruleOf hosts secret, (find?_declaredRules_iff haccepted).mpr
      ⟨name, secret, hname, hgoverns, rfl⟩, rfl⟩

/-- Every declared file is governed by some declared secret. -/
theorem exists_governing {name : String} {secret : Secret}
    (hdeclared : declarations[name]? = some secret) :
    ∃ (other : String) (governing : Secret),
      declarations[other]? = some governing ∧
        Governs declarations governing secret.path := by
  have hfound : ((declaredRules (resolved hosts declarations)).find?
      (·.applies secret.path)).isSome := by
    rw [List.find?_isSome]
    exact ⟨ruleOf hosts secret,
      mem_declaredRules_iff.mpr ⟨name, secret, hdeclared, rfl⟩,
      Rule.applies_iff.mpr (List.suffix_refl _)⟩
  obtain ⟨rule, hrule⟩ := Option.isSome_iff_exists.mp hfound
  obtain ⟨other, governing, hother, hgoverns, -⟩ :=
    (find?_declaredRules_iff haccepted).mp hrule
  exact ⟨other, governing, hother, hgoverns⟩

omit haccepted

/-- An admin-only file is governed by an admin-only secret. -/
theorem adminOnly_of_governs {name : String} {secret governing : Secret}
    (hdeclared : declarations[name]? = some secret)
    (hadmin : secret.readers.adminOnly = true)
    (hgoverns : Governs declarations governing secret.path) :
    governing.readers.adminOnly = true := by
  rw [← Bool.not_eq_false]
  intro hmember
  exact hgoverns.2 name secret hdeclared (List.suffix_refl _)
    (.inl ⟨hadmin, hmember⟩)

end Found

/-- A governing rule seals a secret exactly when its own secret has the same
age keys, each of one member only. -/
theorem seals_creationRule_iff {hosts : Hosts} {declarations : Declarations}
    (haccepted : Accepted hosts declarations) {operatorAnchor : String}
    {name other : String} {secret governing : Secret}
    (hdeclared : declarations[name]? = some secret)
    (hother : declarations[other]? = some governing)
    (hgoverns : Governs declarations governing secret.path) :
    Seals operatorAnchor hosts secret
        (creationRule operatorAnchor hosts (ruleOf hosts governing)) ↔
      (∀ key, Keyed hosts governing key ↔ Keyed hosts secret key) ∧
        DistinctKeys hosts governing := by
  rw [Seals, keyGroups_creationRule]
  constructor
  · rintro ⟨age, hgroups, hnodup, hkeys, -⟩
    have hage : ageOf hosts governing = age := by
      simpa using hgroups
    subst hage
    refine ⟨?_, (nodup_ageOf_iff haccepted hother).mp hnodup⟩
    intro key
    rw [← mem_ageOf_iff haccepted hother, hkeys]
  · rintro ⟨hkeys, hdistinct⟩
    refine ⟨ageOf hosts governing, rfl,
      (nodup_ageOf_iff haccepted hother).mpr hdistinct, ?_, ?_⟩
    · intro key
      rw [mem_ageOf_iff haccepted hother, hkeys]
    · intro hadmin
      rw [ageOf, if_pos (adminOnly_of_governs hdeclared hadmin hgoverns)]

/-- The configuration of an accepted set seals every declared file to exactly
its readers if and only if the declarations are separated. -/
theorem sealsTruly_iff_separated (operatorAnchor : String) {hosts : Hosts}
    {declarations : Declarations} {secrets : BTreeMap ResolvedSecret}
    (heval : evalSecrets declarations hosts = .ok secrets) :
    (∃ config, fleetSopsConfig operatorAnchor declarations hosts = .ok config ∧
      SealsTruly operatorAnchor hosts declarations config) ↔
        Separated hosts declarations := by
  have haccepted := (accepted_of_evalSecrets heval).1
  rw [fleetSopsConfig_eq_ok heval]
  constructor
  · rintro ⟨config, hconfig, hseals⟩ name secret hdeclared other governing hother
      hgoverns
    cases hconfig
    obtain ⟨rule, hrule, hsealed⟩ := hseals name secret hdeclared
    rw [(sealingRule_iff haccepted).mpr
      ⟨other, governing, hother, hgoverns, rfl⟩] at hrule
    cases hrule
    exact (seals_creationRule_iff haccepted hdeclared hother hgoverns).mp hsealed
  · intro hseparated
    refine ⟨_, rfl, ?_⟩
    intro name secret hdeclared
    obtain ⟨other, governing, hother, hgoverns⟩ :=
      exists_governing haccepted hdeclared
    refine ⟨_, (sealingRule_iff haccepted).mpr
      ⟨other, governing, hother, hgoverns, rfl⟩, ?_⟩
    exact (seals_creationRule_iff haccepted hdeclared hother hgoverns).mpr
      (hseparated name secret hdeclared other governing hother hgoverns)

/-! ## A staging copy -/

def serverHost (recipient : String) : Host :=
  { platform := "nixos"
    architecture := "x86_64"
    category := "server"
    role := none
    tags := []
    deployment :=
      { sops := { recipient := some recipient }, ansible := { groups := [] } } }

def stagingHosts : Hosts :=
  ((∅ : BTreeMap Host).insert "web" (serverHost "age1web")).insert "lab"
    (serverHost "age1lab")

def secretFor (path member : String) : Secret :=
  { path
    readers :=
      { members := [member], groups := [], all := false, adminOnly := false } }

/-- The file of the live fleet, and its copy for staging. -/
def stagingDeclarations : Declarations :=
  ((∅ : BTreeMap Secret).insert "app" (secretFor "secrets/app.yaml" "web")).insert
    "app-staging" (secretFor "staging/secrets/app.yaml" "lab")

theorem authorised_secretFor {hosts : Hosts} {path member name : String} :
    Authorised hosts (secretFor path member) name ↔ name = member := by
  simp [Authorised, secretFor]

/-- The staging file is sealed to the live host and not to its own reader. -/
theorem stagingFile_not_sealsTruly :
    (∃ secrets, evalSecrets stagingDeclarations stagingHosts = .ok secrets) ∧
      ¬ ∃ config, fleetSopsConfig "operator" stagingDeclarations stagingHosts =
          .ok config ∧
        SealsTruly "operator" stagingHosts stagingDeclarations config := by
  constructor
  · have haccepted :
        (evalSecrets stagingDeclarations stagingHosts).toOption.isSome := by
      decide +kernel
    cases heval : evalSecrets stagingDeclarations stagingHosts with
    | error error =>
        rw [heval] at haccepted
        cases haccepted
    | ok secrets => exact ⟨secrets, rfl⟩
  · rintro ⟨config, hconfig, hseals⟩
    have hrule : (fleetSopsConfig "operator" stagingDeclarations
        stagingHosts).toOption.bind (sealingRule · "staging/secrets/app.yaml") =
          some
            { pathRegex := "secrets/app\\.yaml$"
              keyGroups := [{ pgp := ["operator"], age := some ["age1web"] }] } := by
      decide +kernel
    rw [hconfig] at hrule
    obtain ⟨rule, hfound, age, hgroups, -, hkeys, -⟩ :=
      hseals "app-staging" (secretFor "staging/secrets/app.yaml" "lab")
        Std.TreeMap.getElem?_insert_self
    change sealingRule config "staging/secrets/app.yaml" = _ at hrule
    change sealingRule config "staging/secrets/app.yaml" = _ at hfound
    rw [hrule] at hfound
    cases hfound
    have hage : age = some ["age1web"] := by
      simpa using hgroups.symm
    obtain ⟨member, hauthorised, hkey⟩ :=
      (hkeys "age1web").mp (by rw [hage]; exact List.mem_singleton_self _)
    rw [authorised_secretFor.mp hauthorised] at hkey
    have hlab : recipientOf stagingHosts "lab" = some "age1lab" := by
      decide +kernel
    rw [hlab] at hkey
    exact absurd hkey (by decide)

/-- Without the copy, the file of the live fleet is sealed to its reader. -/
def liveDeclarations : Declarations :=
  (∅ : BTreeMap Secret).insert "app" (secretFor "secrets/app.yaml" "web")

theorem separated_liveDeclarations :
    Separated stagingHosts liveDeclarations := by
  have honly {name : String} {secret : Secret}
      (hdeclared : liveDeclarations[name]? = some secret) :
      secret = secretFor "secrets/app.yaml" "web" := by
    rw [liveDeclarations, Std.TreeMap.getElem?_insert] at hdeclared
    split at hdeclared
    · exact (Option.some.inj hdeclared).symm
    · cases hdeclared
  intro name secret hdeclared other governing hother _
  rw [honly hdeclared, honly hother]
  refine ⟨fun key => Iff.rfl, ?_⟩
  intro left right hleft hright _
  rw [authorised_secretFor.mp hleft, authorised_secretFor.mp hright]

theorem liveFile_sealsTruly :
    ∃ config, fleetSopsConfig "operator" liveDeclarations stagingHosts =
        .ok config ∧
      SealsTruly "operator" stagingHosts liveDeclarations config := by
  have haccepted : (evalSecrets liveDeclarations stagingHosts).toOption.isSome := by
    decide +kernel
  cases heval : evalSecrets liveDeclarations stagingHosts with
  | error error =>
      rw [heval] at haccepted
      cases haccepted
  | ok secrets =>
      exact (sealsTruly_iff_separated "operator" heval).mpr
        separated_liveDeclarations

end Mandala.Secrets
