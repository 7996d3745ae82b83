import Mandala.Drift.Compare
import Mandala.Eval.Worker
import Mandala.Fleet.Aggregate
import Mandala.Nix.Attrs
import Mathlib.Data.List.Perm.Subperm

/-!
# Expected toplevels from either backend

The worker navigates to one member after the other.  The subprocess evaluates
the whole batch first, and goes through the members by themselves only when the
batch failed.
-/

namespace Mandala.Eval

open Mandala.Data Mandala.Drift Mandala.Fleet
open Nix (listToAttrs)

/-- What a member's `config.system.build.toplevel.outPath` evaluates to. -/
inductive MemberEval where
  | missing
  | path (outPath : String)
  | fails (error : String)
  deriving DecidableEq, Repr

/-- A flake as an evaluator meets it: whether its outputs and
`nixosConfigurations` evaluate, what each member evaluates to, and what `nix`
prints when an evaluation over these members fails. -/
structure Flake where
  ref : String
  outputs : Except String Unit
  toplevel : String → MemberEval
  stderr : List String → String

inductive Backend where
  | worker
  | subprocess
  deriving DecidableEq, Repr

/-- The body of either backend's loop over the members. -/
def collectOne (evalOne : String → Except String (Option String))
    (out : Toplevels) (member : String) : Toplevels :=
  match evalOne member with
  | .ok (some path) => { out with paths := out.paths.insert member path }
  | .ok none => out
  | .error error => { out with errors := out.errors.insert member error }

def collect (evalOne : String → Except String (Option String))
    (members : List String) : Toplevels :=
  members.foldl (collectOne evalOne) (.ofPaths ∅)

section Backends
variable (host : Host)

/-! ## The worker -/

/-- `host_toplevel`. -/
def hostToplevel (flake : Flake) (member : String) :
    Except String (Option String) :=
  if !isValidMemberName member then
    .error s!"refusing invalid member name {host.debugStr member}"
  else
    match flake.outputs with
    | .error error => .error error
    | .ok () =>
        match flake.toplevel member with
        | .missing => .ok none
        | .path outPath => .ok (some outPath)
        | .fails error => .error error

/-- The worker's `expected_toplevels`. -/
def workerToplevels (flake : Flake) (members : List String) :
    Except String Toplevels :=
  match flake.outputs with
  | .error error => .error error
  | .ok () => .ok (collect (hostToplevel host flake) members)

def errorValue (error : String) : Json :=
  .object [("error", .string error)]

/-- `toplevels_value`. -/
def toplevelsValue (toplevels : Toplevels) : Json :=
  .object <| Std.TreeMap.toList <| Meta.update ∅ <|
    toplevels.paths.toList.map (fun entry => (entry.1, .string entry.2)) ++
      toplevels.errors.toList.map fun entry => (entry.1, errorValue entry.2)

/-- The worker's answer to `expected_toplevels`. -/
def toplevelsReply (flake : Flake) (members : List String) (id : ℕ) : Reply :=
  match workerToplevels host flake members with
  | .ok toplevels =>
      [("id", .int id), ("ok", .bool true), ("value", toplevelsValue toplevels)]
  | .error error =>
      [("id", .int id), ("ok", .bool false), ("error", .string error)]

/-- An entry of the worker's value: an out-path, or an error. -/
def readEntry (out : Toplevels) (member : String) (entry : Json) :
    Except String Toplevels :=
  match entry.asStr with
  | some path => .ok { out with paths := out.paths.insert member path }
  | none =>
      match entry.getStr "error" with
      | some error => .ok { out with errors := out.errors.insert member error }
      | none => .error <|
          s!"expected_toplevels: unreadable entry for " ++
            s!"{host.debugStr member}: {host.toStr entry}"

/-- `parse_worker_toplevels`. -/
def parseWorkerToplevels (value : Json) : Except String Toplevels :=
  match value.asObject with
  | none => .error "expected_toplevels: non-object value"
  | some fields => fields.foldlM
      (fun out field => readEntry host out field.1 field.2) (.ofPaths ∅)

/-! ## The subprocess -/

/-- `serde_json::to_string` of names none of which needs escaping. -/
def namesJson (members : List String) : String :=
  "[" ++ ",".intercalate (members.map fun name => "\"" ++ name ++ "\"") ++ "]"

def toplevelExpr (members : List String) : String :=
  "cfgs: builtins.listToAttrs (map (n: \x7b name = n; " ++
    "value = cfgs.$\x7bn\x7d.config.system.build.toplevel.outPath; \x7d) " ++
    "(builtins.filter (n: cfgs ? $\x7bn\x7d) (builtins.fromJSON ''" ++
    namesJson members ++ "'')))"

def nixArgs (flake : Flake) (members : List String) : List String :=
  ["eval", "--no-warn-dirty", "--json", flake.ref ++ "#nixosConfigurations",
    "--apply", toplevelExpr members]

/-- The list of the expression: `filter` leaves out who has no configuration,
and one out-path that fails to evaluate fails them all. -/
def toplevelAttrs (flake : Flake) :
    List String → Option (List (String × Json))
  | [] => some []
  | name :: names =>
      match flake.toplevel name with
      | .missing => toplevelAttrs flake names
      | .path outPath =>
          (toplevelAttrs flake names).map ((name, .string outPath) :: ·)
      | .fails _ => none

def evalExpr (flake : Flake) (members : List String) : Option Json :=
  match flake.outputs with
  | .error _ => none
  | .ok () => (toplevelAttrs flake members).map fun attrs =>
      .object (listToAttrs attrs).toList

/-- `run_nix_eval`. -/
def runNixEval (flake : Flake) (members : List String) : Except String Json :=
  match evalExpr flake members with
  | some value => .ok value
  | none => .error <|
      "nix " ++ " ".intercalate (nixArgs flake members) ++ " failed: " ++
        String.ofList (Text.trim (flake.stderr members).toList)

/-- The fields that are strings. -/
def pathFields (fields : List (String × Json)) : BTreeMap String :=
  fields.foldl (fun paths field =>
    match field.2.asStr with
    | some path => paths.insert field.1 path
    | none => paths) ∅

/-- `subprocess_expected_toplevels`. -/
def subprocessToplevels (flake : Flake) (members : List String) :
    Except String (BTreeMap String) :=
  match members.find? (fun name => !isValidMemberName name) with
  | some name => .error <|
      s!"refusing to eval: invalid member name {host.debugStr name}"
  | none =>
      match runNixEval flake members with
      | .error error => .error error
      | .ok value =>
          match value.asObject with
          | none => .error "expected_toplevels: non-object"
          | some fields => .ok (pathFields fields)

/-- A member by itself. -/
def subprocessMember (flake : Flake) (member : String) :
    Except String (Option String) :=
  match subprocessToplevels host flake [member] with
  | .ok paths => .ok paths[member]?
  | .error error => .error error

/-- `subprocess_expected_toplevels_isolated`. -/
def subprocessIsolated (flake : Flake) (members : List String) :
    Except String Toplevels :=
  match subprocessToplevels host flake members with
  | .ok paths => .ok (.ofPaths paths)
  | .error batchError =>
      if members.length < 2 then
        .error batchError
      else
        let out := collect (subprocessMember host flake) members
        if out.paths.isEmpty ∧ out.errors.size = members.length then
          .error batchError
        else
          .ok out

/-- `Evaluator::expected_toplevels`, the worker answering request `id`. -/
def expectedToplevels (backend : Backend) (flake : Flake)
    (members : List String) (id : ℕ) : Except String Toplevels :=
  match backend with
  | .subprocess => subprocessIsolated host flake members
  | .worker => do
      let value ←
        (Ending.answered (toplevelsReply host flake members id)).result host
      parseWorkerToplevels host (value.getD .null)

end Backends

/-- Both fail, or both have the same paths and the same failing members. -/
def Agree (left right : Except String Toplevels) : Prop :=
  match left, right with
  | .error _, .error _ => True
  | .ok first, .ok second =>
      (∀ member : String, first.paths[member]? = second.paths[member]?) ∧
        ∀ member : String, member ∈ first.errors ↔ member ∈ second.errors
  | _, _ => False

/-- The shared outputs evaluate, and every one of the members, each named once,
fails alone. -/
def AllFail (flake : Flake) (members : List String) : Prop :=
  flake.outputs = .ok () ∧ members ≠ [] ∧ members.Nodup ∧
    ∀ member ∈ members, ∃ error, flake.toplevel member = .fails error

end Mandala.Eval
