import Mandala.Core.Unfolding
import Mandala.Eval.Served

/-!
# Nix values as JSON

The worker forces a value through and through and turns it into JSON.  A value
may be part of itself, so the walk is cut off at a depth, which is more than the
reader of the answer takes.
-/

namespace Mandala.Eval

open Mandala.Data Mandala.Data.Derive Mandala.Unfolding

/-! ## The library -/

inductive ValueType where
  | null
  | bool
  | int
  | float
  | string
  | path
  | attrs
  | list
  | other (name : String)

/-- The calls of the Nix library, each of which may fail.  A number that is not
finite has no digits. -/
structure Values (ν : Type) where
  force : ν → Except String Unit
  valueType : ν → ValueType
  asBool : ν → Except String Bool
  asInt : ν → Except String Int
  asFloat : ν → Except String (Option String)
  asString : ν → Except String String
  asPath : ν → Except String String
  call : ν → ν → Except String ν
  hasAttr : ν → String → Except String Bool
  getAttr : ν → String → Except String ν
  attrs : ν → Except String (List (Except String (String × ν)))
  listIter : ν → Except String (List (Except String ν))

/-- What the walk finds where it is. -/
inductive Look (ν : Type) where
  | done (json : Json)
  | instead (other : ν)
  | attrs (entries : List (Except String (String × ν)))
  | list (entries : List (Except String ν))

namespace Values

variable {ν : Type} (values : Values ν)

def readStringNoContext (val discard : ν) : Except String String := do
  values.asString (← values.call discard val)

/-- A value is forced, and told apart by its type.  A set with `__toString`, or
else with `outPath`, stands for what these give. -/
def look (discard val : ν) : Except String (Look ν) := do
  values.force val
  match values.valueType val with
  | .null => pure (.done .null)
  | .bool => return .done (.bool (← values.asBool val))
  | .int => return .done (.int (← values.asInt val))
  | .float => return .done (((← values.asFloat val).map Json.float).getD .null)
  | .string =>
      return .done (.string (← values.readStringNoContext val discard))
  | .path => return .done (.string (← values.asPath val))
  | .attrs =>
      if ← values.hasAttr val "__toString" then
        let f ← values.getAttr val "__toString"
        return .instead (← values.call f val)
      else if ← values.hasAttr val "outPath" then
        return .instead (← values.getAttr val "outPath")
      else return .attrs (← values.attrs val)
  | .list => return .list (← values.listIter val)
  | .other type => throw s!"cannot serialize nix value of type {type} to JSON"

def maxDepth : ℕ := 128

def exceeded (path : List String) : String :=
  let steps := ".".intercalate path
  s!"value_to_json exceeded depth {maxDepth} at .{steps} " ++
    "(cycle or mis-navigation)"

def item (index : ℕ) : String := s!"[{index}]"

/-- `value_to_json_at`, with the levels that are left below the cap. -/
def valueToJsonAt (discard : ν) : ℕ → ν → List String → Except String Json
  | 0, _, path => .error (exceeded path)
  | left + 1, val, path => do
      match ← values.look discard val with
      | .done json => pure json
      | .instead other => valueToJsonAt discard left other path
      | .attrs entries =>
          let fields ← entries.mapM fun entry => do
            let (key, child) ← entry
            let json ← valueToJsonAt discard left child (path ++ [key])
            pure (key, json)
          pure (.object (mapOf fields).toList)
      | .list entries =>
          let items ← entries.zipIdx.mapM fun (entry, i) => do
            let child ← entry
            valueToJsonAt discard left child (path ++ [item i])
          pure (.array items)

/-- The last part of `aggregate`, which begins at depth 0. -/
def aggregate (discard outputs : ν) : Except String Json := do
  values.force outputs
  let mandala ← values.getAttr outputs "mandala"
  values.valueToJsonAt discard (maxDepth + 1) mandala []

/-! ## What a value is printed as -/

/-- What `nix eval --json` prints, of values that have an end. -/
inductive Prints (discard : ν) : ν → Json → Prop where
  | done {val : ν} {json : Json}
      (hlook : values.look discard val = .ok (.done json)) :
      Prints discard val json
  | instead {val other : ν} {json : Json}
      (hlook : values.look discard val = .ok (.instead other))
      (hother : Prints discard other json) : Prints discard val json
  | attrs {val : ν} {children : List (String × ν)}
      (hlook : values.look discard val = .ok (.attrs (children.map .ok)))
      (json : ν → Json)
      (hjson : ∀ child ∈ children, Prints discard child.2 (json child.2)) :
      Prints discard val
        (.object (mapOf (children.map fun child =>
          (child.1, json child.2))).toList)
  | list {val : ν} {children : List ν}
      (hlook : values.look discard val = .ok (.list (children.map .ok)))
      (json : ν → Json) (hjson : ∀ child ∈ children, Prints discard child (json child)) :
      Prints discard val (.array (children.map json))

end Values

/-! ## The walk as an unfolding -/

namespace Look

variable {ν : Type}

def parts : Look ν → List (List String × Except String ν)
  | .done _ => []
  | .instead other => [([], .ok other)]
  | .attrs entries => entries.map fun entry =>
      match entry with
      | .ok (key, child) => ([key], .ok child)
      | .error error => ([], .error error)
  | .list entries => entries.zipIdx.map fun (entry, i) =>
      ([Values.item i], entry)

def keys (entries : List (Except String (String × ν))) : List String :=
  entries.filterMap fun entry => entry.toOption.map Prod.fst

def assemble : Look ν → List Json → Json
  | .done json, _ => json
  | .instead _, parts => parts.headD .null
  | .attrs entries, parts => .object (mapOf ((keys entries).zip parts)).toList
  | .list _, parts => .array parts

end Look

/-- The values below one another. -/
def Values.graph {ν : Type} (values : Values ν) (discard : ν) :
    Graph ν (Look ν) String Json String where
  look := values.look discard
  parts := Look.parts
  assemble := Look.assemble
  exceeded := Values.exceeded

namespace Values

variable {ν : Type} {values : Values ν} {discard : ν}

/-- The fields are the keys beside what the children are turned into. -/
theorem mapM_fields {below : ν → List String → Except String Json}
    (path : List String) (entries : List (Except String (String × ν))) :
    (entries.mapM fun entry => do
        let (key, child) ← entry
        let json ← below child (path ++ [key])
        pure (key, json)) =
      (fun parts => (Look.keys entries).zip parts) <$>
        (Look.attrs entries).parts.mapM (fun part => do
          below (← part.2) (path ++ part.1)) := by
  induction entries with
  | nil => rfl
  | cons entry entries ih =>
      rw [List.mapM_cons, ih]
      cases entry with
      | error error => rfl
      | ok field =>
          obtain ⟨key, child⟩ := field
          have hparts : (Look.attrs (.ok (key, child) :: entries)).parts =
              ([key], .ok child) :: (Look.attrs entries).parts := rfl
          have hkeys : Look.keys (.ok (key, child) :: entries) =
              key :: Look.keys entries := rfl
          rw [hparts, hkeys, List.mapM_cons]
          generalize (Look.attrs entries).parts.mapM (fun part => do
            below (← part.2) (path ++ part.1)) = rest
          cases hjson : below child (path ++ [key]) with
          | error error => simp [bind, Except.bind, hjson]
          | ok json =>
              cases rest <;> simp [bind, Except.bind, pure, Except.pure, hjson]

theorem valueToJsonAt_eq_unfold (left : ℕ) (val : ν) (path : List String) :
    values.valueToJsonAt discard left val path =
      unfold (values.graph discard) left val path := by
  induction left generalizing val path with
  | zero => rfl
  | succ left ih =>
      have hbelow : values.valueToJsonAt discard left =
          unfold (values.graph discard) left :=
        funext fun val => funext fun path => ih val path
      rw [valueToJsonAt, unfold, hbelow]
      change values.look discard val >>= _ = values.look discard val >>= _
      congr 1
      funext found
      cases found with
      | done json => rfl
      | instead other =>
          have hparts : (values.graph discard).parts (.instead other) =
              [([], .ok other)] := rfl
          rw [hparts, List.mapM_cons, List.mapM_nil, List.append_nil]
          change unfold (values.graph discard) left other path =
            ((unfold (values.graph discard) left other path >>= _) >>= _)
          cases unfold (values.graph discard) left other path <;> rfl
      | attrs entries =>
          have hparts : (values.graph discard).parts (.attrs entries) =
              (Look.attrs entries).parts := rfl
          simp only [hparts]
          rw [mapM_fields path entries, bind_map_left]
          rfl
      | list entries =>
          have hparts : (values.graph discard).parts (.list entries) =
              entries.zipIdx.map fun (entry, i) => ([item i], entry) := rfl
          rw [hparts, List.mapM_map]
          rfl

/-! ## The unfolding is what is printed -/

theorem zip_keys (children : List (String × ν)) (json : ν → Json) :
    (Look.keys (children.map .ok)).zip ((children.map Prod.snd).map json) =
      children.map fun child => (child.1, json child.2) := by
  induction children with
  | nil => rfl
  | cons child children ih =>
      have hkeys : Look.keys ((child :: children).map .ok) =
          child.1 :: Look.keys (children.map .ok) := rfl
      rw [hkeys, List.map_cons, List.map_cons, List.zip_cons_cons, ih,
        List.map_cons]

theorem parts_attrs (children : List (String × ν)) :
    (Look.attrs (children.map .ok)).parts.map Prod.snd =
      (children.map Prod.snd).map .ok := by
  rw [Look.parts, List.map_map, List.map_map, List.map_map]
  rfl

theorem parts_list (entries : List (Except String ν)) :
    (Look.list entries).parts.map Prod.snd = entries := by
  rw [Look.parts, List.map_map]
  exact List.zipIdx_map_fst 0 entries

/-- Entries all of whose values can be had. -/
theorem exists_children {entries : List (Except String (String × ν))}
    {nodes : List ν}
    (hnodes : (Look.attrs entries).parts.map Prod.snd = nodes.map .ok) :
    ∃ children : List (String × ν),
      entries = children.map .ok ∧ children.map Prod.snd = nodes := by
  induction entries generalizing nodes with
  | nil =>
      have hnil : nodes = [] := List.map_eq_nil_iff.mp hnodes.symm
      exact ⟨[], rfl, hnil.symm⟩
  | cons entry entries ih =>
      cases nodes with
      | nil => cases hnodes
      | cons node nodes =>
          obtain ⟨hentry, hrest⟩ := List.cons.inj hnodes
          obtain ⟨children, rfl, hchildren⟩ := ih hrest
          cases entry with
          | error error => cases hentry
          | ok field =>
              refine ⟨field :: children, rfl, ?_⟩
              rw [List.map_cons, hchildren, Except.ok.inj hentry]

theorem unfolds_of_look {val : ν} {found : Look ν} {nodes : List ν}
    (hlook : values.look discard val = .ok found)
    (hnodes : found.parts.map Prod.snd = nodes.map .ok) (json : ν → Json)
    (hjson : ∀ node ∈ nodes, Unfolds (values.graph discard) node (json node)) :
    Unfolds (values.graph discard) val (found.assemble (nodes.map json)) :=
  @Unfolds.node _ _ _ _ _ (values.graph discard) val found nodes hlook hnodes
    json hjson

theorem Prints.unfolds {val : ν} {json : Json}
    (hprints : values.Prints discard val json) :
    Unfolds (values.graph discard) val json := by
  induction hprints with
  | @done val json hlook =>
      have hnodes : (Look.parts (.done json)).map Prod.snd =
          ([] : List ν).map .ok := rfl
      exact unfolds_of_look hlook hnodes (fun _ => json) nofun
  | @instead val other json hlook _ ih =>
      have hnodes : (Look.parts (.instead other)).map Prod.snd =
          [other].map .ok := rfl
      refine unfolds_of_look hlook hnodes (fun _ => json) fun node hmem => ?_
      rw [List.mem_singleton.mp hmem]
      exact ih
  | @attrs val children hlook json _ ih =>
      rw [← zip_keys]
      refine unfolds_of_look hlook (parts_attrs children) json fun node hmem => ?_
      obtain ⟨child, hchild, rfl⟩ := List.mem_map.mp hmem
      exact ih child hchild
  | list hlook json _ ih => exact unfolds_of_look hlook (parts_list _) json ih

theorem prints_of_unfolds {val : ν} {json : Json}
    (hunfolds : Unfolds (values.graph discard) val json) :
    values.Prints discard val json := by
  induction hunfolds with
  | @node val found nodes hlook hnodes json _ ih =>
      cases found with
      | done result =>
          have hnil : nodes = [] := List.map_eq_nil_iff.mp hnodes.symm
          exact hnil ▸ .done hlook
      | instead other =>
          obtain ⟨rfl⟩ : nodes = [other] := by
            cases nodes with
            | nil => cases hnodes
            | cons node nodes =>
                obtain ⟨hnode, hrest⟩ := List.cons.inj hnodes
                rw [Except.ok.inj hnode, List.map_eq_nil_iff.mp hrest.symm]
          exact .instead hlook (ih other List.mem_cons_self)
      | attrs entries =>
          obtain ⟨children, rfl, rfl⟩ := exists_children hnodes
          have hprints := Prints.attrs hlook json fun child hmem =>
            ih child.2 (List.mem_map_of_mem hmem)
          rw [← zip_keys] at hprints
          exact hprints
      | list entries =>
          have hentries : entries = nodes.map .ok :=
            (parts_list entries).symm.trans hnodes
          subst hentries
          exact .list hlook json ih

theorem prints_iff_unfolds {val : ν} {json : Json} :
    values.Prints discard val json ↔
      Unfolds (values.graph discard) val json :=
  ⟨Prints.unfolds, prints_of_unfolds⟩

/-! ## What becomes of a value -/

variable (values) (discard) in
/-- What the walk from a value comes to. -/
structure Converted (val : ν) : Prop where
  /-- It is printed if it has an end, and no way down is beyond the cap. -/
  printed : ∀ json,
    values.valueToJsonAt discard (maxDepth + 1) val [] = .ok json ↔
      values.Prints discard val json ∧ ∀ levels trail target,
        Walk (values.graph discard) val levels trail target → levels ≤ maxDepth
  /-- An error is the library's own, at a value above the cap, or names a way
  down that is beyond it. -/
  refused : ∀ error,
    values.valueToJsonAt discard (maxDepth + 1) val [] = .error error →
      ∃ levels trail target,
        Walk (values.graph discard) val levels trail target ∧
        (levels = maxDepth + 1 ∧ error = exceeded trail ∨
          levels ≤ maxDepth ∧ Refuses (values.graph discard) target error)
  /-- A value that leads back to itself is refused. -/
  endless : ∀ depth levels above path node,
    Walk (values.graph discard) val depth above node →
      Walk (values.graph discard) node (levels + 1) path node →
        ∃ error, values.valueToJsonAt discard (maxDepth + 1) val [] =
          .error error

variable (values) in
/-- Integers have 64 bits, and the digits of the others are those of a number. -/
structure Plain : Prop where
  ints : ∀ val int, values.asInt val = .ok int →
    -9223372036854775808 ≤ int ∧ int < 9223372036854775808
  floats : ∀ val literal, values.asFloat val = .ok (some literal) →
    Json.isFloat literal

theorem Plain.fits_done (hplain : values.Plain) {val : ν} {json : Json}
    (hlook : values.look discard val = .ok (.done json)) (depth : ℕ) :
    json.fits depth := by
  obtain ⟨-, -, hlook⟩ := bind_eq_ok_iff.mp hlook
  split at hlook
  · cases hlook
    rfl
  · obtain ⟨flag, -, hlook⟩ := bind_eq_ok_iff.mp hlook
    cases hlook
    rfl
  · obtain ⟨int, hint, hlook⟩ := bind_eq_ok_iff.mp hlook
    cases hlook
    have hbounds := hplain.ints val int hint
    simp only [Json.fits, Bool.and_eq_true, decide_eq_true_eq]
    omega
  · obtain ⟨digits, hdigits, hlook⟩ := bind_eq_ok_iff.mp hlook
    cases hlook
    cases digits with
    | none => rfl
    | some literal =>
        have hliteral := hplain.floats val literal hdigits
        rwa [Option.map_some, Option.getD_some, Json.fits]
  · obtain ⟨text, -, hlook⟩ := bind_eq_ok_iff.mp hlook
    cases hlook
    exact fits_string text depth
  · obtain ⟨text, -, hlook⟩ := bind_eq_ok_iff.mp hlook
    cases hlook
    exact fits_string text depth
  · obtain ⟨coerces, -, hlook⟩ := bind_eq_ok_iff.mp hlook
    split at hlook
    · obtain ⟨f, -, hlook⟩ := bind_eq_ok_iff.mp hlook
      obtain ⟨other, -, hlook⟩ := bind_eq_ok_iff.mp hlook
      cases hlook
    · obtain ⟨hasPath, -, hlook⟩ := bind_eq_ok_iff.mp hlook
      split at hlook
      · obtain ⟨other, -, hlook⟩ := bind_eq_ok_iff.mp hlook
        cases hlook
      · obtain ⟨entries, -, hlook⟩ := bind_eq_ok_iff.mp hlook
        cases hlook
  · obtain ⟨entries, -, hlook⟩ := bind_eq_ok_iff.mp hlook
    cases hlook
  · cases hlook

/-- A value is nested no deeper than the walk went. -/
theorem Plain.fits (hplain : values.Plain) {left : ℕ} {val : ν}
    {path : List String} {json : Json}
    (hjson : values.valueToJsonAt discard left val path = .ok json) :
    json.fits left := by
  rw [valueToJsonAt_eq_unfold] at hjson
  induction left generalizing val path json with
  | zero => cases hjson
  | succ left ih =>
      obtain ⟨found, parts, hlook, hforall, rfl⟩ :=
        unfold_succ_eq_ok_iff.mp hjson
      have hparts : ∀ part ∈ parts, part.fits left := by
        intro part hmem
        obtain ⟨source, child, -, hchild⟩ := exists_of_forall₂ hforall.flip hmem
        exact ih hchild
      change (Look.assemble found parts).fits (left + 1)
      cases found with
      | done json => exact hplain.fits_done hlook (left + 1)
      | instead other =>
          rw [Look.assemble]
          cases parts with
          | nil => rfl
          | cons part parts =>
              exact Json.fits_succ (hparts part List.mem_cons_self)
      | attrs entries =>
          rw [Look.assemble, Json.fits, Json.fitsFields_iff]
          intro field hmem
          have hfield := mem_of_mem_mapOf hmem
          exact hparts field.2 (List.of_mem_zip hfield).2
      | list entries =>
          rw [Look.assemble, Json.fits, Json.fitsValues_iff]
          exact hparts

theorem fits_of_fields {id : ℕ} {json : Json}
    (hfits : (Json.object (Response.ofOk id (some json)).fields).fits
      Json.maxDepth) : json.fits 126 := by
  rw [Json.maxDepth, Json.fits, Json.fitsFields_iff] at hfits
  exact hfits ("value", json) (by simp [Response.fields, Response.ofOk])

end Values

/-! ### Lists within lists -/

/-- As many lists within one another as the number says, and one more. -/
def sampleValues : Values ℕ :=
  { force := fun _ => .ok ()
    valueType := fun _ => .list
    asBool := fun _ => .error "no bool"
    asInt := fun _ => .error "no int"
    asFloat := fun _ => .error "no float"
    asString := fun _ => .error "no string"
    asPath := fun _ => .error "no path"
    call := fun _ _ => .error "no function"
    hasAttr := fun _ _ => .ok false
    getAttr := fun outputs _ => .ok outputs
    attrs := fun _ => .error "no set"
    listIter := fun
      | 0 => .ok []
      | below + 1 => .ok [.ok below] }

theorem sampleValues_plain : sampleValues.Plain where
  ints _ _ hint := by cases hint
  floats _ _ hfloat := by cases hfloat

end Mandala.Eval
