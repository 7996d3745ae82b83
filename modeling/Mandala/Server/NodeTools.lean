import Mandala.Core.ShellWords
import Mandala.Server.ConfirmGate

/-!
# The tools that act on nodes through ansible

`ping`, `restart_service` and `reboot` name their hosts to ansible by the
canonical limit of a selector.  The last two also hand it text of the client's:
a unit name or a batch size, each checked first.
-/

namespace Mandala.Server

open Mandala.Data Mandala.Deploy Mandala.Effects Mandala.Fleet Mandala.ShellWords
  Mandala.Text

structure PingTool where
  selector : String
  forks : Option Int
  connectTimeout : Option Int

structure RestartServiceTool where
  selector : String
  unit : String
  confirm : Option String
  forks : Option Int

structure RebootTool where
  selector : String
  serial : Option String
  drain : Option Bool
  confirm : Option String

structure AdhocOutput where
  stdout : String
  stderr : String
  code : Int

inductive AdhocError where
  | notFound
  | other (message : String)

structure CommandLaunch where
  runId : String
  log : String
  launched : Bool

inductive NodeEffect where
  | runAdhoc (argv : List String)
  | launchCommand (argv : List String) (kind : String) (cwd : Option String)
    (extraMeta : List (String × Json))

def NodeEffect.Reply : NodeEffect → Type
  | runAdhoc _ => Except AdhocError AdhocOutput
  | launchCommand .. => Except IoError CommandLaunch

abbrev Nodes : Signature := ⟨NodeEffect, NodeEffect.Reply⟩

inductive NodeToolError where
  | selector (error : InventoryError)
  | message (text : String)
  | launch (error : IoError)

abbrev ActingOnNodes := ExceptT NodeToolError (Program Nodes)

/-! ## What a client's text may be -/

/-- `valid_unit`. -/
def validUnit (unit : String) : Bool :=
  match unit.toList with
  | [] => false
  | first :: rest =>
      first.isAlphanum && rest.all fun character =>
        character.isAlphanum || character ∈ ['@', ':', '.', '_', '-']

/-- `valid_serial`. -/
def validSerial (serial : String) : Bool :=
  let digits :=
    if serial.toList.getLast? = some '%' then serial.toList.dropLast
    else serial.toList
  !digits.isEmpty && digits.all Char.isDigit

/-! ## Reading ansible's answers -/

/-- `split_once`: what stands before and behind the first occurrence. -/
def splitOnce (pattern : List Char) : List Char → Option (List Char × List Char)
  | [] => if pattern = [] then some ([], []) else none
  | character :: rest =>
      match List.dropPrefix? (character :: rest) pattern with
      | some behind => some ([], behind)
      | none =>
          (splitOnce pattern rest).map fun parts => (character :: parts.1, parts.2)

/-- What a line of the oneline format says of a host. -/
def pingLine (line : List Char) : Option (String × Bool) :=
  (splitOnce ['|'] line).bind fun parts =>
    let host := trim parts.1
    if host = [] then none
    else
      let token := ((trim parts.2).takeWhile (· ≠ ' ')).reverse.dropWhile fun
        character => character = '!' || character = ':'
      some (String.ofList host, token.reverse = "SUCCESS".toList)

/-- What a line of the multi-line format says of a host. -/
def restartLine (line : List Char) : Option (String × Bool) :=
  (splitOnce " | ".toList line).bind fun parts =>
    if parts.1 = [] ∨ parts.1.any isWhiteSpace then none
    else
      let status := parts.2.takeWhile Char.isUpper
      if status = [] then none
      else some (String.ofList parts.1,
        status = "CHANGED".toList || status = "SUCCESS".toList)

/-- Hosts with what was said of them last. -/
def byHost (line : List Char → Option (String × Bool)) (stdout : String) :
    BTreeMap Bool :=
  Std.TreeMap.ofList ((lines stdout.toList).filterMap line) compare

def hostsJson (found : BTreeMap Bool) : Json :=
  .object (found.toList.map fun entry => (entry.1, .bool entry.2))

def trimmed (text : String) : String := String.ofList (trim text.toList)

def diagnostics (stderr : String) : List (String × Json) :=
  if trimmed stderr = "" then []
  else [("diagnostics", .string (trimmed stderr))]

/-! ## The tools -/

def runAdhoc (argv : List String) : ActingOnNodes AdhocOutput :=
  ExceptT.mk ((·.mapError fun
      | .notFound => .message "ansible not found on PATH"
      | .other message => .message message) <$>
    (Program.request (NodeEffect.runAdhoc argv) .done :
      Program Nodes (Except AdhocError AdhocOutput)))

def launchCommand (argv : List String) (kind : String) (cwd : Option String)
    (extraMeta : List (String × Json)) : ActingOnNodes CommandLaunch :=
  ExceptT.mk ((·.mapError .launch) <$>
    (Program.request (NodeEffect.launchCommand argv kind cwd extraMeta) .done :
      Program Nodes (Except IoError CommandLaunch)))

/-- `max(1)`, as an argument. -/
def atLeastOne (value : Option Int) (default : Int) : String :=
  toString (max (value.getD default) 1)

def pingArgv (limit : String) (tool : PingTool) : List String :=
  ["ansible", limit, "-m", "ping", "-o", "-f", atLeastOne tool.forks 15, "-T",
    atLeastOne tool.connectTimeout 10]

def unitArguments (unit : String) : String := "name=" ++ unit ++ " state=restarted"

def restartArgv (limit : String) (tool : RestartServiceTool) : List String :=
  ["ansible", limit, "-m", "ansible.builtin.systemd_service", "-a",
    unitArguments tool.unit, "-f", atLeastOne tool.forks 4]

/-- `reboot_argv`, the root of the flake given. -/
def rebootArgv (root limit serial : String) (drain : Bool) : List String :=
  ["nix", "run", root ++ "#ans-reboot", "--", "-l", limit, "-e",
    "reboot_serial=" ++ serial, "-e", "drain=" ++ if drain then "true" else "false"]

/-- `tool_ping`, once the inventory is there. -/
def pingFrom (inventory : Inventory) (tool : PingTool) : ActingOnNodes Json :=
  match inventory.toLimit tool.selector with
  | .error error => throw (.selector error)
  | .ok limit => do
      let out ← runAdhoc (pingArgv limit tool)
      return .object
        ([("limit", .string limit), ("reachable", hostsJson (byHost pingLine out.stdout)),
          ("exit_code", .int out.code), ("output", .string (trimmed out.stdout))] ++
          diagnostics out.stderr)

/-- `tool_restart_service`, once the inventory is there. -/
def restartServiceFrom (inventory : Inventory) (tool : RestartServiceTool) :
    ActingOnNodes Json :=
  match inventory.toLimit tool.selector with
  | .error error => throw (.selector error)
  | .ok target =>
      if !validUnit tool.unit then
        throw (.message ("not a plain systemd unit name: '" ++ tool.unit ++ "'"))
      else if tool.confirm ≠ some target then
        return .object
          [("ok", .bool false), ("refused", .bool true),
            ("reason", .string
              "restart_service requires `confirm` to equal the resolved target"),
            ("required_confirm", .string target), ("unit", .string tool.unit)]
      else do
        let out ← runAdhoc (restartArgv target tool)
        return .object
          ([("ok", .bool (out.code = 0)), ("limit", .string target),
            ("unit", .string tool.unit),
            ("restarted", hostsJson (byHost restartLine out.stdout)),
            ("exit_code", .int out.code)] ++
            (if out.code ≠ 0 then [("output", .string (trimmed out.stdout))] else []) ++
            diagnostics out.stderr)

/-- `tool_reboot`, once the inventory is there.  The root of the flake and the
directory of its ansible configuration are given. -/
def rebootFrom (inventory : Inventory) (root ansibleDir : String)
    (tool : RebootTool) : ActingOnNodes Json :=
  match inventory.toLimit tool.selector with
  | .error error => throw (.selector error)
  | .ok target =>
      let serial := tool.serial.getD "1"
      if !validSerial serial then
        throw (.message
          ("not a serial batch count or percentage: '" ++ serial ++ "'"))
      else if tool.confirm ≠ some target then
        return .object
          [("ok", .bool false), ("refused", .bool true),
            ("reason", .string "reboot requires `confirm` to equal the resolved target"),
            ("required_confirm", .string target)]
      else do
        let drain := tool.drain.getD true
        let launch ← launchCommand (rebootArgv root target serial drain) "reboot"
          (some ansibleDir)
          [("limit", .string target), ("serial", .string serial), ("drain", .bool drain)]
        if !launch.launched then
          return .object
            [("ok", .bool false), ("error", .string "failed to launch nix — see log"),
              ("run_id", .string launch.runId), ("log", .string launch.log)]
        else
          return .object
            [("ok", .bool true), ("run_id", .string launch.runId),
              ("limit", .string target), ("serial", .string serial),
              ("drain", .bool drain), ("log", .string launch.log)]

/-! ## What ansible is given -/

/-- A limit names the members of the selector, and nothing in it can be read as
an option or as an operator of a host pattern. -/
structure HostPattern (inventory : Inventory) (selector limit : String) :
    Prop where
  names : ∃ names, inventory.resolve selector = .ok names ∧ names ≠ [] ∧
    limit.toList.splitOnP isSeparator = names.map String.toList
  plain : ∀ character ∈ limit.toList, isNameChar character ∨ character = ','
  noOption : limit.toList.head?.any Char.isAlphanum

/-- A text is these assignments to a shell-like splitter, and nothing else. -/
def Assigns (text : String) (pairs : List (String × String)) : Prop :=
  (shellWords text).map (List.map fun word => word.toList.splitOnP (· = '=')) =
    some (pairs.map fun pair => [pair.1.toList, pair.2.toList])

/-- A count or a percentage. -/
def IsBatch (serial : String) : Prop :=
  ∃ digits : List Char, digits ≠ [] ∧ (∀ digit ∈ digits, digit.isDigit) ∧
    (serial.toList = digits ∨ serial.toList = digits ++ ['%'])

theorem isValidMemberName_of_member {inventory : Inventory} {name : String}
    {member : Member} (hmember : inventory.members[name]? = some member) :
    isValidMemberName name := by
  have hentry : (name, member) ∈ inventory.members.toList :=
    Std.TreeMap.mem_toList_iff_getElem?_eq_some.mpr hmember
  have hcheck := forM_eq_ok_iff.mp inventory.checked_parts.1 _ hentry
  rw [Aggregate.checkMember] at hcheck
  cases hvalid : isValidMemberName name with
  | true => rfl
  | false => simp [hvalid] at hcheck

theorem mem_intercalate {separator : Char} {parts : List (List Char)}
    {character : Char} (hmem : character ∈ [separator].intercalate parts) :
    character = separator ∨ ∃ part ∈ parts, character ∈ part := by
  induction parts with
  | nil => cases hmem
  | cons part parts ih =>
      cases parts with
      | nil =>
          rw [List.intercalate_singleton] at hmem
          exact .inr ⟨part, List.mem_cons_self, hmem⟩
      | cons next parts =>
          rw [List.intercalate_cons_cons, List.mem_append, List.mem_append,
            List.mem_singleton] at hmem
          rcases hmem with (hpart | hseparator) | hrest
          · exact .inr ⟨part, List.mem_cons_self, hpart⟩
          · exact .inl hseparator
          · rcases ih hrest with hseparator | ⟨other, hother, hin⟩
            · exact .inl hseparator
            · exact .inr ⟨other, List.mem_cons_of_mem _ hother, hin⟩

theorem head?_intercalate {separator : Char} {part : List Char}
    (hne : part ≠ []) (parts : List (List Char)) :
    ([separator].intercalate (part :: parts)).head? = part.head? := by
  obtain ⟨first, rest, rfl⟩ := List.exists_cons_of_ne_nil hne
  cases parts with
  | nil => rw [List.intercalate_singleton]
  | cons next parts =>
      rw [List.intercalate_cons_cons]
      rfl

theorem hostPattern_of_toLimit {inventory : Inventory} {selector limit : String}
    (hlimit : inventory.toLimit selector = .ok limit) :
    HostPattern inventory selector limit := by
  rw [Inventory.toLimit] at hlimit
  cases hresolve : inventory.resolve selector with
  | error error =>
      rw [hresolve] at hlimit
      cases hlimit
  | ok names =>
      rw [hresolve] at hlimit
      cases hlimit
      have hcanonical := Inventory.canonical_of_resolve hresolve
      have hbare := hcanonical.bareName
      have htext : (",".intercalate names).toList =
          [','].intercalate (names.map String.toList) := String.toList_intercalate
      refine ⟨⟨names, hresolve, hcanonical.nonempty, ?_⟩, ?_, ?_⟩
      · exact Inventory.splitOnP_limit rfl
          @Inventory.isSelectorMark_of_isSeparator hbare hcanonical.nonempty
      · intro character hmem
        rw [htext] at hmem
        rcases mem_intercalate hmem with hcomma | ⟨part, hpart, hin⟩
        · exact .inr hcomma
        · obtain ⟨name, hname, rfl⟩ := List.mem_map.mp hpart
          exact .inl ((hbare name hname).characters character hin)
      · obtain ⟨name, rest, rfl⟩ := List.exists_cons_of_ne_nil hcanonical.nonempty
        obtain ⟨member, hmember⟩ := Option.ne_none_iff_exists'.mp
          (hcanonical.members name List.mem_cons_self)
        have hvalid := isValidMemberName_of_member hmember
        simp only [isValidMemberName, Bool.and_eq_true] at hvalid
        rw [htext, List.map_cons,
          head?_intercalate (hbare name List.mem_cons_self).nonempty]
        exact hvalid.1.1.1.2

/-! ## The client's text -/

/-- A character that neither ends a word nor an assignment. -/
def isInert (character : Char) : Bool := isPlain character && character ≠ '='

theorem isInert_of_isAlphanum {character : Char} (halnum : character.isAlphanum) :
    isInert character := by
  have hmarks : [' ', '\t', '\\', '\'', '"', '=', '|', '&', ';', '<',
      '>', '(', ')', '$', '`', '\n', '*', '?', '[', '#', '~'].all
        fun mark => !mark.isAlphanum := by decide
  have hnone : character ∉ [' ', '\t', '\\', '\'', '"', '=', '|', '&', ';', '<',
      '>', '(', ')', '$', '`', '\n', '*', '?', '[', '#', '~'] := by
    intro hmem
    have hmark := List.all_eq_true.mp hmarks character hmem
    rw [halnum] at hmark
    cases hmark
  simp only [List.mem_cons, List.not_mem_nil, or_false, not_or] at hnone
  simp [isInert, isPlain, isBlank, isSpecial, hnone]

theorem isInert_of_validUnit {unit : String} (hvalid : validUnit unit) :
    unit.toList ≠ [] ∧ ∀ character ∈ unit.toList, isInert character := by
  rw [validUnit] at hvalid
  split at hvalid
  · cases hvalid
  · next first rest hunit =>
      rw [Bool.and_eq_true, List.all_eq_true] at hvalid
      rw [hunit]
      refine ⟨List.cons_ne_nil _ _, List.forall_mem_cons.mpr
        ⟨isInert_of_isAlphanum hvalid.1, ?_⟩⟩
      intro character hmem
      have hcharacter := hvalid.2 character hmem
      rw [Bool.or_eq_true, decide_eq_true_eq] at hcharacter
      rcases hcharacter with halnum | hmark
      · exact isInert_of_isAlphanum halnum
      · have hmarks : ['@', ':', '.', '_', '-'].all isInert := by decide
        exact List.all_eq_true.mp hmarks character hmark

theorem isBatch_of_validSerial {serial : String} (hvalid : validSerial serial) :
    IsBatch serial := by
  simp only [validSerial, Bool.and_eq_true, Bool.not_eq_true',
    List.isEmpty_eq_false_iff, List.all_eq_true] at hvalid
  obtain ⟨hne, hdigits⟩ := hvalid
  refine ⟨_, hne, hdigits, ?_⟩
  split
  · next hlast =>
      have hnonempty : serial.toList ≠ [] := by
        intro hnil
        rw [hnil] at hlast
        cases hlast
      refine .inr ?_
      rw [List.getLast?_eq_some_getLast hnonempty, Option.some.injEq] at hlast
      rw [← hlast, List.dropLast_concat_getLast hnonempty]
  · exact .inl rfl

theorem IsBatch.inert {serial : String} (hbatch : IsBatch serial) :
    ∀ character ∈ serial.toList, isInert character := by
  obtain ⟨digits, -, hdigits, heq⟩ := hbatch
  have hall : ∀ character ∈ digits, isInert character := fun character hmem =>
    isInert_of_isAlphanum (by simp [Char.isAlphanum, hdigits character hmem])
  rcases heq with heq | heq <;> rw [heq]
  · exact hall
  · intro character hmem
    rcases List.mem_append.mp hmem with hmem | hmem
    · exact hall character hmem
    · rw [List.mem_singleton.mp hmem]
      decide

/-- Inert text behind a key is the value of that key. -/
theorem splitOnP_assignment {key value : List Char}
    (hkey : ∀ character ∈ key, isInert character)
    (hvalue : ∀ character ∈ value, isInert character) :
    (key ++ '=' :: value).splitOnP (· = '=') = [key, value] := by
  have hclean {text : List Char} (htext : ∀ character ∈ text, isInert character) :
      ∀ character ∈ text, (decide (character = '=')) = false := by
    intro character hmem
    have hinert := htext character hmem
    rw [isInert, Bool.and_eq_true, decide_eq_true_eq] at hinert
    exact decide_eq_false hinert.2
  rw [List.splitOnP_append_cons_of_forall_mem (hclean hkey) '=' (by decide),
    List.splitOnP_eq_singleton (hclean hvalue)]

/-- An assignment of inert text is one word. -/
theorem spells_assignment {key value : List Char}
    (hkey : ∀ character ∈ key, isInert character)
    (hvalue : ∀ character ∈ value, isInert character) :
    Spells (key ++ '=' :: value) (key ++ '=' :: value) := by
  have hplain {text : List Char} (htext : ∀ character ∈ text, isInert character) :
      ∀ character ∈ text, isPlain character := by
    intro character hmem
    have hinert := htext character hmem
    rw [isInert, Bool.and_eq_true] at hinert
    exact hinert.1
  apply spells_plain
  · simp
  · intro character hmem
    rcases List.mem_append.mp hmem with hmem | hmem
    · exact hplain hkey character hmem
    · rcases List.mem_cons.mp hmem with rfl | hmem
      · decide
      · exact hplain hvalue character hmem

theorem assigns_unitArguments {unit : String} (hvalid : validUnit unit) :
    Assigns (unitArguments unit) [("name", unit), ("state", "restarted")] := by
  obtain ⟨-, hunit⟩ := isInert_of_validUnit hvalid
  have hname : ∀ character ∈ "name".toList, isInert character :=
    List.all_eq_true.mp (by decide)
  have hstate : ∀ character ∈ "state".toList, isInert character :=
    List.all_eq_true.mp (by decide)
  have hrestarted : ∀ character ∈ "restarted".toList, isInert character :=
    List.all_eq_true.mp (by decide)
  have htext : (unitArguments unit).toList =
      ("name".toList ++ '=' :: unit.toList) ++
        ' ' :: ("state".toList ++ '=' :: "restarted".toList) := by
    simp [unitArguments, String.toList_append]
  have hwords : shellWords (unitArguments unit) = some
      [String.ofList ("name".toList ++ '=' :: unit.toList),
        String.ofList ("state".toList ++ '=' :: "restarted".toList)] := by
    rw [shellWords, htext, (spells_assignment hname hunit).words_cons,
      (spells_assignment hstate hrestarted).words_single]
    rfl
  rw [Assigns, hwords]
  simp only [Option.map_some, List.map_cons, List.map_nil, String.toList_ofList,
    splitOnP_assignment hname hunit, splitOnP_assignment hstate hrestarted]

theorem assigns_serial {serial : String} (hbatch : IsBatch serial) :
    Assigns ("reboot_serial=" ++ serial) [("reboot_serial", serial)] := by
  have hkey : ∀ character ∈ "reboot_serial".toList, isInert character :=
    List.all_eq_true.mp (by decide)
  have htext : ("reboot_serial=" ++ serial).toList =
      "reboot_serial".toList ++ '=' :: serial.toList := by
    simp [String.toList_append]
  have hwords : shellWords ("reboot_serial=" ++ serial) = some
      [String.ofList ("reboot_serial".toList ++ '=' :: serial.toList)] := by
    rw [shellWords, htext,
      (spells_assignment hkey hbatch.inert).words_single]
    rfl
  rw [Assigns, hwords]
  simp only [Option.map_some, List.map_cons, List.map_nil, String.toList_ofList,
    splitOnP_assignment hkey hbatch.inert]

/-! ## The gates -/

/-- At most one command is run, and it is this. -/
def RunsOnly (trace : Trace Nodes) (allowed : NodeEffect → Prop) : Prop :=
  trace.length ≤ 1 ∧ ∀ exchange ∈ trace, allowed exchange.effect

theorem runsOnly_nil (allowed : NodeEffect → Prop) : RunsOnly [] allowed :=
  ⟨Nat.zero_le 1, nofun⟩

theorem runsOnly_single {allowed : NodeEffect → Prop} {effect : NodeEffect}
    (hallowed : allowed effect) (reply : Nodes.Reply effect) :
    RunsOnly [⟨effect, reply⟩] allowed := by
  refine ⟨Nat.le_refl 1, fun exchange hmem => ?_⟩
  rw [List.mem_singleton.mp hmem]
  exact hallowed

theorem ensures_runAdhoc {A : Type} {argv : List String}
    {next : AdhocOutput → A} {allowed : NodeEffect → Prop}
    (hallowed : allowed (.runAdhoc argv)) :
    Ensures (do let out ← runAdhoc argv; return next out : ActingOnNodes A).run
      fun trace _ => RunsOnly trace allowed := by
  refine ensures_request_iff.mpr fun reply => ?_
  cases reply with
  | error error => exact ensures_done_iff.mpr (runsOnly_single hallowed _)
  | ok out => exact ensures_done_iff.mpr (runsOnly_single hallowed _)

/-- What `ping` may run. -/
def Pings (inventory : Inventory) (tool : PingTool) (effect : NodeEffect) : Prop :=
  ∃ limit, HostPattern inventory tool.selector limit ∧
    effect = .runAdhoc (pingArgv limit tool)

/-- What `restart_service` may run. -/
def Restarts (inventory : Inventory) (tool : RestartServiceTool)
    (effect : NodeEffect) : Prop :=
  ∃ limit, HostPattern inventory tool.selector limit ∧ tool.confirm = some limit ∧
    effect = .runAdhoc (restartArgv limit tool) ∧
    Assigns (unitArguments tool.unit) [("name", tool.unit), ("state", "restarted")]

/-- What `reboot` may run. -/
def Reboots (inventory : Inventory) (root ansibleDir : String) (tool : RebootTool)
    (effect : NodeEffect) : Prop :=
  ∃ limit serial, HostPattern inventory tool.selector limit ∧
    tool.confirm = some limit ∧ serial = tool.serial.getD "1" ∧ IsBatch serial ∧
    effect = .launchCommand (rebootArgv root limit serial (tool.drain.getD true))
      "reboot" (some ansibleDir)
      [("limit", .string limit), ("serial", .string serial),
        ("drain", .bool (tool.drain.getD true))] ∧
    Assigns ("reboot_serial=" ++ serial) [("reboot_serial", serial)]

theorem ensures_ping (inventory : Inventory) (tool : PingTool) :
    Ensures (pingFrom inventory tool).run fun trace _ =>
      RunsOnly trace (Pings inventory tool) := by
  rw [pingFrom]
  cases hlimit : inventory.toLimit tool.selector with
  | error error => exact ensures_done_iff.mpr (runsOnly_nil _)
  | ok limit => exact ensures_runAdhoc ⟨limit, hostPattern_of_toLimit hlimit, rfl⟩

theorem ensures_restartService (inventory : Inventory) (tool : RestartServiceTool) :
    Ensures (restartServiceFrom inventory tool).run fun trace _ =>
      RunsOnly trace (Restarts inventory tool) := by
  rw [restartServiceFrom]
  cases hlimit : inventory.toLimit tool.selector with
  | error error => exact ensures_done_iff.mpr (runsOnly_nil _)
  | ok limit =>
      dsimp only
      split
      · exact ensures_done_iff.mpr (runsOnly_nil _)
      · next hunit =>
          split
          · exact ensures_done_iff.mpr (runsOnly_nil _)
          · next hconfirm =>
              refine ensures_runAdhoc ⟨limit, hostPattern_of_toLimit hlimit,
                not_not.mp hconfirm, rfl, assigns_unitArguments ?_⟩
              simpa using hunit

theorem ensures_reboot (inventory : Inventory) (root ansibleDir : String)
    (tool : RebootTool) :
    Ensures (rebootFrom inventory root ansibleDir tool).run fun trace _ =>
      RunsOnly trace (Reboots inventory root ansibleDir tool) := by
  rw [rebootFrom]
  cases hlimit : inventory.toLimit tool.selector with
  | error error => exact ensures_done_iff.mpr (runsOnly_nil _)
  | ok limit =>
      dsimp only
      split
      · exact ensures_done_iff.mpr (runsOnly_nil _)
      · next hserial =>
          split
          · exact ensures_done_iff.mpr (runsOnly_nil _)
          · next hconfirm =>
              have hbatch := isBatch_of_validSerial (by simpa using hserial)
              have hreboots : Reboots inventory root ansibleDir tool _ :=
                ⟨limit, _, hostPattern_of_toLimit hlimit, not_not.mp hconfirm, rfl,
                  hbatch, rfl, assigns_serial hbatch⟩
              refine ensures_request_iff.mpr fun reply => ?_
              cases reply with
              | error error =>
                  exact ensures_done_iff.mpr (runsOnly_single hreboots _)
              | ok launch =>
                  change Ensures ((if !launch.launched then _ else _ :
                    ActingOnNodes Json).run) _
                  split <;> exact ensures_done_iff.mpr (runsOnly_single hreboots _)

/-- Whatever a client sends: hosts are the members its selector resolves to,
nothing is restarted or rebooted that was not confirmed as resolved, and its
text sets the one value it is meant to set. -/
theorem nodeTools_gated (inventory : Inventory) (root ansibleDir : String) :
    (∀ tool, Ensures (pingFrom inventory tool).run fun trace _ =>
      RunsOnly trace (Pings inventory tool)) ∧
    (∀ tool, Ensures (restartServiceFrom inventory tool).run fun trace _ =>
      RunsOnly trace (Restarts inventory tool)) ∧
    ∀ tool, Ensures (rebootFrom inventory root ansibleDir tool).run fun trace _ =>
      RunsOnly trace (Reboots inventory root ansibleDir tool) :=
  ⟨ensures_ping inventory, ensures_restartService inventory,
    ensures_reboot inventory root ansibleDir⟩

end Mandala.Server
