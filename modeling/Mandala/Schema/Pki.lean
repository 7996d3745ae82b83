import Mandala.Core.Chain
import Mandala.Nix.Attrs
import Mathlib.Data.List.Basic
import Mathlib.Data.List.Nodup

/-!
# PKI trust anchors

Certificate authorities name the one that signed them.  The schema checks the
names before it has checked that following them ends.
-/

namespace Mandala.Schema

open Relation
open Mandala.Data
open Mandala.Nix
open Mandala.Chain

/-- `types.addCheck types.str (lib.hasPrefix …)`. -/
def Pem : Type :=
  { text : String // text.startsWith "-----BEGIN CERTIFICATE-----" }

inductive CaKind where
  | root
  | intermediate
  deriving DecidableEq, Repr

/-- A CA before its signer is looked at; the other fields have the types the
submodule gives them. -/
structure Ca where
  pem : Pem
  kind : CaKind
  signedBy : Option String
  description : Option String

/-- `types.nullOr (types.enum caNames)` refuses a signer outside the set. -/
inductive PkiError where
  | signerType (name signer : String)
  | validation (message : String)

namespace Pki

variable (cas : Attrs Ca)

def caNames : List String := cas.keys

def kind (name : String) : Option CaKind := cas[name]?.map Ca.kind

def signedBy (name : String) : Option String := cas[name]?.bind Ca.signedBy

def rootsWithSigner : List String :=
  (caNames cas).filter fun name =>
    kind cas name = some .root && (signedBy cas name).isSome

def unsignedIntermediates : List String :=
  (caNames cas).filter fun name =>
    kind cas name = some .intermediate && (signedBy cas name).isNone

def unknownSigners : List String :=
  (caNames cas).filter fun name =>
    (signedBy cas name).any fun signer => !cas.contains signer

/-- The walk along the signers, with no answer when the fuel runs out. -/
def hasCycle : ℕ → String → List String → Option Bool
  | 0, _, _ => none
  | fuel + 1, current, visited =>
      if current ∈ visited then some true
      else
        match signedBy cas current with
        | none => some false
        | some signer =>
            if cas.contains signer then
              hasCycle fuel signer (visited ++ [current])
            else some false

def cyclicCas : List String :=
  (caNames cas).filter fun name =>
    hasCycle cas (cas.size + 1) name [] = some true

structure Assertion where
  assertion : Bool
  message : String

def assertions : List Assertion :=
  let commaNames (names : List String) : String := ", ".intercalate names
  [ { assertion := (rootsWithSigner cas).isEmpty
      message := "PKI roots must not declare signedBy: " ++
        commaNames (rootsWithSigner cas) },
    { assertion := (unsignedIntermediates cas).isEmpty
      message := "PKI intermediates must declare signedBy: " ++
        commaNames (unsignedIntermediates cas) },
    { assertion := (unknownSigners cas).isEmpty
      message := "PKI CAs reference unknown signers: " ++
        commaNames (unknownSigners cas) },
    { assertion := (cyclicCas cas).isEmpty
      message := "PKI signer graph contains a cycle involving: " ++
        commaNames (cyclicCas cas) } ]

/-- The first signer the assertions read that is not of its type: those of the
roots are read first. -/
def illTyped : Option (String × String) :=
  let ofKind (wanted : CaKind) : List String :=
    (caNames cas).filter fun name => kind cas name = some wanted
  (ofKind .root ++ ofKind .intermediate).findSome? fun name =>
    (signedBy cas name).bind fun signer =>
      if cas.contains signer then none else some (name, signer)

end Pki

/-- `checked`: the messages of the assertions that do not hold. -/
def checkedMessage (failures : List String) : String :=
  "mandala schema validation:\n  " ++ "\n  ".intercalate failures

def evalPki (cas : Attrs Ca) : Except PkiError (Attrs Ca) :=
  match Pki.illTyped cas with
  | some (name, signer) => .error (.signerType name signer)
  | none =>
      let failures :=
        ((Pki.assertions cas).filter (!·.assertion)).map (·.message)
      if failures.isEmpty then .ok cas
      else .error (.validation (checkedMessage failures))

namespace Pki

variable {cas : Attrs Ca}

/-! ## Reading the map -/

theorem mem_caNames {name : String} :
    name ∈ caNames cas ↔ ∃ ca, cas[name]? = some ca := by
  rw [caNames, Std.TreeMap.mem_keys, Std.TreeMap.mem_iff_isSome_getElem?,
    Option.isSome_iff_exists]

theorem contains_iff {name : String} :
    cas.contains name ↔ name ∈ caNames cas := by
  rw [Std.TreeMap.contains_iff_mem, caNames, Std.TreeMap.mem_keys]

theorem mem_of_signedBy {name signer : String}
    (hsigned : signedBy cas name = some signer) : name ∈ caNames cas := by
  obtain ⟨ca, hca, -⟩ := Option.bind_eq_some_iff.mp hsigned
  exact mem_caNames.mpr ⟨ca, hca⟩

theorem mem_of_kind {name : String} {wanted : CaKind}
    (hkind : kind cas name = some wanted) : name ∈ caNames cas := by
  obtain ⟨ca, hca, -⟩ := Option.map_eq_some_iff.mp hkind
  exact mem_caNames.mpr ⟨ca, hca⟩

theorem kind_cases {name : String} (hname : name ∈ caNames cas) :
    kind cas name = some .root ∨ kind cas name = some .intermediate := by
  obtain ⟨ca, hca⟩ := mem_caNames.mp hname
  rw [kind, hca, Option.map_some]
  cases ca.kind with
  | root => exact .inl rfl
  | intermediate => exact .inr rfl

theorem signedBy_of_unknown {name : String} (hname : name ∉ caNames cas) :
    signedBy cas name = none := by
  cases hsigned : signedBy cas name with
  | none => rfl
  | some signer => exact absurd (mem_of_signedBy hsigned) hname

/-! ## The walk -/

theorem hasCycle_succ (fuel : ℕ) (current : String) (visited : List String) :
    hasCycle cas (fuel + 1) current visited =
      if current ∈ visited then some true
      else
        match signedBy cas current with
        | none => some false
        | some signer =>
            if cas.contains signer then
              hasCycle cas fuel signer (visited ++ [current])
            else some false := rfl

/-- A CA that is visited for the first time is one fewer to visit. -/
theorem length_unvisited_lt {visited : List String} {current : String}
    (hcurrent : current ∈ caNames cas) (hfresh : current ∉ visited) :
    ((caNames cas).filter (· ∉ visited ++ [current])).length <
      ((caNames cas).filter (· ∉ visited)).length := by
  have hsplit : (caNames cas).filter (· ∉ visited ++ [current]) =
      ((caNames cas).filter (· ∉ visited)).filter (· ≠ current) := by
    rw [List.filter_filter]
    apply List.filter_congr
    intro name _
    simp [not_or, Bool.and_comm]
  rw [hsplit]
  apply List.length_filter_lt_length_iff_exists.mpr
  exact ⟨current, List.mem_filter.mpr ⟨hcurrent, decide_eq_true hfresh⟩,
    by simp⟩

/-- Whatever was visited before, the walk has an answer once its fuel exceeds
the CAs that are left. -/
theorem hasCycle_answers {fuel : ℕ} {current : String} {visited : List String}
    (hcurrent : current ∈ caNames cas)
    (hfuel : ((caNames cas).filter (· ∉ visited)).length < fuel) :
    ∃ answer, hasCycle cas fuel current visited = some answer := by
  induction fuel generalizing current visited with
  | zero => exact absurd hfuel (Nat.not_lt_zero _)
  | succ fuel ih =>
      rw [hasCycle_succ]
      by_cases hvisited : current ∈ visited
      · exact ⟨true, if_pos hvisited⟩
      · rw [if_neg hvisited]
        cases hsigned : signedBy cas current with
        | none => exact ⟨false, rfl⟩
        | some signer =>
            by_cases hknown : cas.contains signer
            · have hless := length_unvisited_lt hcurrent hvisited
              simp only [hknown, if_true]
              exact ih (contains_iff.mp hknown) (by omega)
            · simp only [hknown]
              exact ⟨false, rfl⟩

/-- The walk finds only what is there: a CA on the way that reaches itself. -/
theorem cycle_of_hasCycle {fuel : ℕ} {current : String} {visited : List String}
    (hvisited : ∀ name ∈ visited,
      TransGen (Step (signedBy cas)) name current)
    (hfound : hasCycle cas fuel current visited = some true) :
    ∃ name, TransGen (Step (signedBy cas)) name name := by
  induction fuel generalizing current visited with
  | zero => cases hfound
  | succ fuel ih =>
      rw [hasCycle_succ] at hfound
      by_cases hseen : current ∈ visited
      · exact ⟨current, hvisited current hseen⟩
      · rw [if_neg hseen] at hfound
        cases hsigned : signedBy cas current with
        | none =>
            rw [hsigned] at hfound
            cases hfound
        | some signer =>
            simp only [hsigned] at hfound
            by_cases hknown : cas.contains signer
            · rw [if_pos hknown] at hfound
              have hstep : Step (signedBy cas) current signer := hsigned
              apply ih _ hfound
              intro name hname
              rcases List.mem_append.mp hname with hold | hnew
              · exact (hvisited name hold).tail hstep
              · rw [List.mem_singleton.mp hnew]
                exact .single hstep
            · rw [if_neg hknown] at hfound
              cases hfound

/-- A walk that finds no cycle has come to a CA whose signer is not in the map,
if it has one. -/
theorem stops_of_hasCycle {fuel : ℕ} {current : String} {visited : List String}
    (hnone : hasCycle cas fuel current visited = some false) :
    ∃ steps last, steps < fuel ∧
      follow (signedBy cas) steps current = some last ∧
      ∀ signer, signedBy cas last = some signer → signer ∉ caNames cas := by
  induction fuel generalizing current visited with
  | zero => cases hnone
  | succ fuel ih =>
      rw [hasCycle_succ] at hnone
      by_cases hseen : current ∈ visited
      · rw [if_pos hseen] at hnone
        cases hnone
      · rw [if_neg hseen] at hnone
        cases hsigned : signedBy cas current with
        | none =>
            refine ⟨0, current, Nat.succ_pos _, rfl, ?_⟩
            intro signer hsigner
            rw [hsigned] at hsigner
            cases hsigner
        | some signer =>
            simp only [hsigned] at hnone
            by_cases hknown : cas.contains signer
            · rw [if_pos hknown] at hnone
              obtain ⟨steps, last, hless, hfollow, hstop⟩ := ih hnone
              refine ⟨steps + 1, last, Nat.succ_lt_succ hless, ?_, hstop⟩
              have hstep : Step (signedBy cas) current signer := hsigned
              rw [follow_succ hstep, hfollow]
            · refine ⟨0, current, Nat.succ_pos _, rfl, ?_⟩
              intro other hother
              cases hsigned.symm.trans hother
              exact fun hmem => hknown (contains_iff.mpr hmem)

theorem hasCycle_start {fuel : ℕ} (hfuel : cas.size < fuel) {name : String}
    (hname : name ∈ caNames cas) :
    ∃ answer, hasCycle cas fuel name [] = some answer := by
  apply hasCycle_answers hname
  have hkeys : (caNames cas).length = cas.size := Std.TreeMap.length_keys
  have hfilter := List.length_filter_le (· ∉ ([] : List String)) (caNames cas)
  omega

/-! ## What the schema accepts -/

/-- The signers a certificate chain can be checked with. -/
structure WellFounded (cas : Attrs Ca) : Prop where
  roots : ∀ name, kind cas name = some .root → signedBy cas name = none
  intermediates : ∀ name, kind cas name = some .intermediate →
    ∃ signer, signedBy cas name = some signer ∧ signer ∈ caNames cas
  acyclic : ∀ name, ¬ TransGen (Step (signedBy cas)) name name

theorem WellFounded.known (hwell : WellFounded cas) {name signer : String}
    (hsigned : signedBy cas name = some signer) : signer ∈ caNames cas := by
  rcases kind_cases (mem_of_signedBy hsigned) with hroot | hintermediate
  · rw [hwell.roots name hroot] at hsigned
    cases hsigned
  · obtain ⟨other, hother, hmem⟩ := hwell.intermediates name hintermediate
    cases hsigned.symm.trans hother
    exact hmem

theorem WellFounded.mem_of_follow (hwell : WellFounded cas) {steps : ℕ}
    {start last : String} (hstart : start ∈ caNames cas)
    (hfollow : follow (signedBy cas) steps start = some last) :
    last ∈ caNames cas := by
  induction steps generalizing start with
  | zero =>
      cases hfollow
      exact hstart
  | succ steps ih =>
      obtain ⟨signer, hsigned, hrest⟩ := Option.bind_eq_some_iff.mp hfollow
      exact ih (hwell.known hsigned) hrest

theorem illTyped_eq_none_iff :
    illTyped cas = none ↔
      ∀ name signer, signedBy cas name = some signer →
        signer ∈ caNames cas := by
  rw [illTyped, List.findSome?_eq_none_iff]
  constructor
  · intro hnone name signer hsigned
    have hmem := mem_of_signedBy hsigned
    have hread : name ∈ (caNames cas).filter (kind cas · = some .root) ++
        (caNames cas).filter (kind cas · = some .intermediate) := by
      rw [List.mem_append, List.mem_filter, List.mem_filter]
      rcases kind_cases hmem with hroot | hintermediate
      · exact .inl ⟨hmem, decide_eq_true hroot⟩
      · exact .inr ⟨hmem, decide_eq_true hintermediate⟩
    have htyped := hnone name hread
    rw [hsigned, Option.bind_some] at htyped
    by_contra hunknown
    rw [if_neg (fun hknown => hunknown (contains_iff.mp hknown))] at htyped
    cases htyped
  · intro hknown name _
    cases hsigned : signedBy cas name with
    | none => rfl
    | some signer =>
        exact if_pos (contains_iff.mpr (hknown name signer hsigned))

theorem rootsWithSigner_eq_nil_iff :
    rootsWithSigner cas = [] ↔
      ∀ name, kind cas name = some .root → signedBy cas name = none := by
  rw [rootsWithSigner, List.filter_eq_nil_iff]
  constructor
  · intro hnone name hkind
    have hname := hnone name (mem_of_kind hkind)
    rw [hkind] at hname
    simpa using hname
  · intro hroots name _ hboth
    rw [Bool.and_eq_true, decide_eq_true_eq] at hboth
    rw [hroots name hboth.1] at hboth
    cases hboth.2

theorem unsignedIntermediates_eq_nil_iff :
    unsignedIntermediates cas = [] ↔
      ∀ name, kind cas name = some .intermediate →
        ∃ signer, signedBy cas name = some signer := by
  rw [unsignedIntermediates, List.filter_eq_nil_iff]
  constructor
  · intro hnone name hkind
    have hname := hnone name (mem_of_kind hkind)
    rw [hkind] at hname
    exact Option.ne_none_iff_exists'.mp (by simpa using hname)
  · intro hsigned name _ hboth
    rw [Bool.and_eq_true, decide_eq_true_eq] at hboth
    obtain ⟨signer, hsigner⟩ := hsigned name hboth.1
    rw [hsigner] at hboth
    cases hboth.2

/-- The type of a signer leaves this check nothing to find. -/
theorem unknownSigners_of_typed
    (hknown : ∀ name signer, signedBy cas name = some signer →
      signer ∈ caNames cas) : unknownSigners cas = [] := by
  rw [unknownSigners, List.filter_eq_nil_iff]
  intro name _ hunknown
  cases hsigned : signedBy cas name with
  | none =>
      rw [hsigned] at hunknown
      cases hunknown
  | some signer =>
      rw [hsigned, Option.any_some,
        contains_iff.mpr (hknown name signer hsigned)] at hunknown
      cases hunknown

theorem cyclicCas_eq_nil_iff :
    cyclicCas cas = [] ↔
      ∀ name, ¬ TransGen (Step (signedBy cas)) name name := by
  rw [cyclicCas, List.filter_eq_nil_iff]
  constructor
  · intro hnone name hcycle
    obtain ⟨second, hstep, -⟩ := TransGen.head'_iff.mp hcycle
    have hmem : name ∈ caNames cas := mem_of_signedBy hstep
    obtain ⟨answer, hanswer⟩ := hasCycle_start (Nat.lt_succ_self _) hmem
    cases answer with
    | true => exact hnone name hmem (decide_eq_true hanswer)
    | false =>
        obtain ⟨steps, last, -, hfollow, hstop⟩ := stops_of_hasCycle hanswer
        have hreach := reflTransGen_of_follow hfollow
        cases hsigned : signedBy cas last with
        | none => exact not_cycle_of_stops hreach hsigned hcycle
        | some signer =>
            -- an unknown signer is one step further, and there nothing follows
            have hlast := signedBy_of_unknown (hstop signer hsigned)
            exact not_cycle_of_stops (hreach.tail hsigned) hlast hcycle
  · intro hacyclic name _ hfound
    obtain ⟨other, hcycle⟩ :=
      cycle_of_hasCycle (by simp) (of_decide_eq_true hfound)
    exact hacyclic other hcycle

theorem evalPki_eq_ok_iff {accepted : Attrs Ca} :
    evalPki cas = .ok accepted ↔
      accepted = cas ∧ illTyped cas = none ∧ rootsWithSigner cas = [] ∧
        unsignedIntermediates cas = [] ∧ unknownSigners cas = [] ∧
        cyclicCas cas = [] := by
  unfold evalPki
  cases hill : illTyped cas with
  | some found =>
      constructor
      · rintro ⟨⟩
      · rintro ⟨-, ⟨⟩, -⟩
  | none =>
      have hempty :
          (((assertions cas).filter (!·.assertion)).map
            (·.message)).isEmpty = true ↔
          rootsWithSigner cas = [] ∧ unsignedIntermediates cas = [] ∧
            unknownSigners cas = [] ∧ cyclicCas cas = [] := by
        rw [List.isEmpty_iff, List.map_eq_nil_iff, List.filter_eq_nil_iff]
        simp [assertions]
      by_cases hall : (((assertions cas).filter (!·.assertion)).map
          (·.message)).isEmpty = true
      · simp only [if_pos hall, Except.ok.injEq]
        constructor
        · rintro rfl
          exact ⟨rfl, trivial, hempty.mp hall⟩
        · rintro ⟨rfl, -⟩
          rfl
      · simp only [if_neg hall]
        constructor
        · rintro ⟨⟩
        · rintro ⟨-, -, hnil⟩
          exact absurd (hempty.mpr hnil) hall

theorem accepts_iff :
    (∃ accepted, evalPki cas = .ok accepted) ↔ WellFounded cas := by
  constructor
  · rintro ⟨accepted, hok⟩
    obtain ⟨-, htyped, hroots, hsigned, -, hcyclic⟩ := evalPki_eq_ok_iff.mp hok
    refine ⟨rootsWithSigner_eq_nil_iff.mp hroots, ?_,
      cyclicCas_eq_nil_iff.mp hcyclic⟩
    intro name hkind
    obtain ⟨signer, hsigner⟩ :=
      unsignedIntermediates_eq_nil_iff.mp hsigned name hkind
    exact ⟨signer, hsigner,
      illTyped_eq_none_iff.mp htyped name signer hsigner⟩
  · intro hwell
    have hknown : ∀ name signer, signedBy cas name = some signer →
        signer ∈ caNames cas := fun _ _ => hwell.known
    have hsigned : ∀ name, kind cas name = some .intermediate →
        ∃ signer, signedBy cas name = some signer := by
      intro name hkind
      obtain ⟨signer, hsigner, -⟩ := hwell.intermediates name hkind
      exact ⟨signer, hsigner⟩
    exact ⟨cas, evalPki_eq_ok_iff.mpr ⟨rfl, illTyped_eq_none_iff.mpr hknown,
      rootsWithSigner_eq_nil_iff.mpr hwell.roots,
      unsignedIntermediates_eq_nil_iff.mpr hsigned,
      unknownSigners_of_typed hknown, cyclicCas_eq_nil_iff.mpr hwell.acyclic⟩⟩

/-- From a CA of an accepted map the signers lead to a root. -/
theorem WellFounded.ends (hwell : WellFounded cas) {name : String}
    (hname : name ∈ caNames cas) :
    ∃ steps ≤ cas.size, ∃ last,
      follow (signedBy cas) steps name = some last ∧
        kind cas last = some .root ∧ signedBy cas last = none := by
  obtain ⟨answer, hanswer⟩ := hasCycle_start (Nat.lt_succ_self _) hname
  cases answer with
  | true =>
      obtain ⟨other, hcycle⟩ := cycle_of_hasCycle (by simp) hanswer
      exact absurd hcycle (hwell.acyclic other)
  | false =>
      obtain ⟨steps, last, hless, hfollow, hstop⟩ := stops_of_hasCycle hanswer
      have hlast : signedBy cas last = none := by
        cases hsigned : signedBy cas last with
        | none => rfl
        | some signer =>
            exact absurd (hwell.known hsigned) (hstop signer hsigned)
      refine ⟨steps, Nat.le_of_lt_succ hless, last, hfollow, ?_, hlast⟩
      rcases kind_cases (hwell.mem_of_follow hname hfollow) with
        hroot | hintermediate
      · exact hroot
      · obtain ⟨signer, hsigner, -⟩ := hwell.intermediates last hintermediate
        rw [hlast] at hsigner
        cases hsigner

end Pki

/-- Whatever the kinds and signers of a map are, the walk answers from every
CA of it; the map is accepted exactly when its signers are well founded, and
then every chain ends at a root within as many steps as there are CAs. -/
theorem pki_wellFounded (cas : Attrs Ca) :
    (∀ fuel > cas.size, ∀ name ∈ Pki.caNames cas, ∃ answer,
      Pki.hasCycle cas fuel name [] = some answer) ∧
    ((∃ accepted, evalPki cas = .ok accepted) ↔ Pki.WellFounded cas) ∧
    ∀ accepted, evalPki cas = .ok accepted →
      accepted = cas ∧ ∀ name ∈ Pki.caNames cas, ∃ steps ≤ cas.size, ∃ last,
        follow (Pki.signedBy cas) steps name = some last ∧
          Pki.kind cas last = some .root ∧ Pki.signedBy cas last = none := by
  refine ⟨fun _ hfuel _ => Pki.hasCycle_start hfuel, Pki.accepts_iff, ?_⟩
  intro accepted hok
  have hwell := Pki.accepts_iff.mp ⟨accepted, hok⟩
  exact ⟨(Pki.evalPki_eq_ok_iff.mp hok).1, fun _ => hwell.ends⟩

def Pki.anchored (kind : CaKind) (signedBy : Option String) : Ca :=
  { pem := ⟨"-----BEGIN CERTIFICATE-----", by decide +kernel⟩
    kind, signedBy, description := none }

def Pki.twoCas : Attrs Ca :=
  listToAttrs [("ca", anchored .root none),
    ("web", anchored .intermediate (some "ca"))]

theorem pki_wellFounded_twoCas :
    (∃ answer, Pki.hasCycle Pki.twoCas 3 "web" [] = some answer) ∧
    Pki.WellFounded Pki.twoCas ∧
    ∃ steps ≤ Pki.twoCas.size, ∃ last,
      follow (Pki.signedBy Pki.twoCas) steps "web" = some last ∧
        Pki.kind Pki.twoCas last = some .root ∧
        Pki.signedBy Pki.twoCas last = none := by
  obtain ⟨hanswers, haccepts, hends⟩ := pki_wellFounded Pki.twoCas
  have hok : evalPki Pki.twoCas = .ok Pki.twoCas :=
    Pki.evalPki_eq_ok_iff.mpr ⟨rfl, by decide +kernel, by decide +kernel,
      by decide +kernel, by decide +kernel, by decide +kernel⟩
  have hweb : "web" ∈ Pki.caNames Pki.twoCas := by decide +kernel
  exact ⟨hanswers 3 (by decide +kernel) "web" hweb, haccepts.mp ⟨_, hok⟩,
    (hends _ hok).2 "web" hweb⟩

end Mandala.Schema
