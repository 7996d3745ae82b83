import Mathlib.Data.List.Triplewise
import Mandala.Server.NodeTools

/-!
# Reading what ansible printed

Ansible prints one report for each host: a line with the host and its status,
and in the multi-line format the result below it, indented.  The tools answer
with exactly what the reports say.
-/

namespace Mandala.Server

open Mandala.Data Mandala.Effects Mandala.Fleet Mandala.Text

/-- What ansible reports of a host. -/
structure HostReport where
  host : List Char
  status : List Char
  /-- The exclamation mark of a failure. -/
  mark : List Char
  behind : List Char
  body : List (List Char)
  host_ne : host ≠ []
  host_plain : ∀ character ∈ host, isWhiteSpace character = false ∧ character ≠ '|'
  status_ne : status ≠ []
  status_upper : ∀ character ∈ status, character.isUpper
  mark_failed : ∀ character ∈ mark, character = '!'
  body_indented : ∀ line ∈ body, line = ['}'] ∨ line.head?.any isWhiteSpace

namespace HostReport

variable (report : HostReport)

/-- The first line of a report, all of it in the oneline format. -/
def firstLine : List Char :=
  report.host ++ " | ".toList ++
    (report.status ++ report.mark ++ " => ".toList ++ report.behind)

def allLines : List (List Char) := report.firstLine :: report.body

def reachable : Bool := report.status = "SUCCESS".toList

def restarted : Bool :=
  report.status = "CHANGED".toList || report.status = "SUCCESS".toList

end HostReport

/-! ## Splitting once -/

theorem splitOnce_append {pattern before behind : List Char} (hne : pattern ≠ [])
    (hbefore : ∀ character ∈ before, some character ≠ pattern.head?) :
    splitOnce pattern (before ++ (pattern ++ behind)) = some (before, behind) := by
  induction before with
  | nil =>
      obtain ⟨first, rest, rfl⟩ := List.exists_cons_of_ne_nil hne
      have hdrop : List.dropPrefix? (first :: (rest ++ behind)) (first :: rest) =
          some behind :=
        List.dropPrefix?_eq_some_iff.mpr ⟨first :: rest, rfl, beq_self_eq_true _⟩
      rw [List.nil_append, List.cons_append, splitOnce, hdrop]
  | cons character before ih =>
      obtain ⟨hfirst, hrest⟩ := List.forall_mem_cons.mp hbefore
      have hdrop : List.dropPrefix? (character :: (before ++ (pattern ++ behind)))
          pattern = none := by
        rw [Option.eq_none_iff_forall_ne_some]
        intro rest hsome
        obtain ⟨front, hfront, hbeq⟩ := List.dropPrefix?_eq_some_iff.mp hsome
        rw [eq_of_beq hbeq] at hfront
        obtain ⟨head, tail, rfl⟩ := List.exists_cons_of_ne_nil hne
        exact hfirst (congrArg some (List.cons.inj hfront).1)
      rw [List.cons_append, splitOnce, hdrop]
      simp only [ih hrest, Option.map_some]

/-- What stands before the pattern is a beginning of the text. -/
theorem head?_of_splitOnce {pattern text before behind : List Char}
    (hsplit : splitOnce pattern text = some (before, behind)) (hne : before ≠ []) :
    before.head? = text.head? := by
  cases text with
  | nil =>
      rw [splitOnce] at hsplit
      split at hsplit
      · cases hsplit
        exact absurd rfl hne
      · cases hsplit
  | cons character rest =>
      rw [splitOnce] at hsplit
      split at hsplit
      · cases hsplit
        exact absurd rfl hne
      · obtain ⟨parts, -, hparts⟩ := Option.map_eq_some_iff.mp hsplit
        cases hparts
        rfl

/-! ## Lines -/

theorem takeWhile_status {status behind : List Char} {keep : Char → Bool}
    (hstatus : ∀ character ∈ status, keep character)
    (hbehind : behind.head?.all fun character => !keep character) :
    (status ++ behind).takeWhile keep = status := by
  rw [List.takeWhile_append_of_pos hstatus]
  cases behind with
  | nil => rw [List.takeWhile_nil, List.append_nil]
  | cons character behind =>
      rw [List.takeWhile_cons_of_neg, List.append_nil]
      simpa using hbehind

theorem of_isUpper {character : Char} (hupper : character.isUpper) :
    isWhiteSpace character = false ∧ character ≠ ' ' ∧ character ≠ '!' ∧
      character ≠ ':' := by
  have halnum : character.isAlphanum := by
    delta Char.isAlphanum Char.isAlpha
    rw [hupper, Bool.true_or, Bool.true_or]
  have hname : isNameChar character := by simp [isNameChar, halnum]
  refine ⟨isWhiteSpace_of_isNameChar hname, ?_, ?_, ?_⟩ <;>
  · rintro rfl
    cases hname

theorem dropWhile_of_head? {text : List Char} {drop : Char → Bool}
    (hhead : text.head?.all fun character => !drop character) :
    text.dropWhile drop = text := by
  cases text with
  | nil => rfl
  | cons character text =>
      rw [List.dropWhile_cons_of_neg]
      simpa using hhead

/-- Text that begins and ends with something else than a blank is kept. -/
theorem trim_append (front : List Char)
    (hfirst : front.head?.all fun character => !isWhiteSpace character)
    (hlast : front.getLast?.all fun character => !isWhiteSpace character)
    (hne : front ≠ []) (behind : List Char) :
    trim (front ++ behind) =
      front ++ (behind.reverse.dropWhile isWhiteSpace).reverse := by
  have hstart : (front ++ behind).head?.all fun character =>
      !isWhiteSpace character := by
    obtain ⟨first, rest, rfl⟩ := List.exists_cons_of_ne_nil hne
    exact hfirst
  have hend : front.reverse.dropWhile isWhiteSpace = front.reverse :=
    dropWhile_of_head? (by rw [List.head?_reverse]; exact hlast)
  rw [trim, dropWhile_of_head? hstart, List.reverse_append, List.dropWhile_append,
    hend]
  split
  · next hempty =>
      rw [List.isEmpty_iff.mp hempty, List.reverse_nil, List.append_nil,
        List.reverse_reverse]
  · rw [List.reverse_append, List.reverse_reverse]

namespace HostReport

variable (report : HostReport)

theorem restartLine_firstLine : restartLine report.firstLine =
    some (String.ofList report.host, report.restarted) := by
  have hsplit : splitOnce " | ".toList report.firstLine =
      some (report.host,
        report.status ++ (report.mark ++ " => ".toList ++ report.behind)) := by
    rw [firstLine, List.append_assoc, splitOnce_append (by decide)]
    · simp only [List.append_assoc]
    · intro character hmem heq
      have hplain := (report.host_plain character hmem).1
      cases heq
      cases hplain
  have hhost : report.host.any isWhiteSpace = false := by
    rw [List.any_eq_false]
    intro character hmem
    simp [(report.host_plain character hmem).1]
  have hstatus : (report.status ++ (report.mark ++ " => ".toList ++
      report.behind)).takeWhile Char.isUpper = report.status := by
    apply takeWhile_status report.status_upper
    cases hmark : report.mark with
    | nil => rfl
    | cons character mark =>
        have hfailed := report.mark_failed character (by rw [hmark]; simp)
        subst hfailed
        rfl
  have hguard : ¬ (report.host = [] ∨ report.host.any isWhiteSpace) := by
    rw [hhost]
    exact fun hbad => hbad.elim report.host_ne Bool.false_ne_true
  rw [restartLine, hsplit, Option.bind_some, if_neg hguard]
  dsimp only
  rw [hstatus, if_neg report.status_ne, restarted]

theorem restartLine_body {line : List Char} (hline : line ∈ report.body) :
    restartLine line = none := by
  rw [restartLine, Option.bind_eq_none_iff]
  intro parts hsplit
  by_cases hempty : parts.1 = []
  · rw [if_pos (.inl hempty)]
  · have hhead : parts.1.head? = line.head? := head?_of_splitOnce hsplit hempty
    rcases report.body_indented line hline with rfl | hindented
    · cases hsplit
    · refine if_pos (.inr ?_)
      obtain ⟨first, rest, hparts⟩ := List.exists_cons_of_ne_nil hempty
      rw [← hhead, hparts] at hindented
      rw [hparts, List.any_cons]
      simp only [List.head?_cons, Option.any_some] at hindented
      rw [hindented, Bool.true_or]

theorem pingLine_firstLine : pingLine report.firstLine =
    some (String.ofList report.host, report.reachable) := by
  have hsplit : splitOnce ['|'] report.firstLine =
      some (report.host ++ [' '], ' ' :: (report.status ++ report.mark ++
        " => ".toList ++ report.behind)) := by
    have hline : report.firstLine = (report.host ++ [' ']) ++ (['|'] ++
        ' ' :: (report.status ++ report.mark ++ " => ".toList ++ report.behind)) := by
      simp [firstLine]
    rw [hline, splitOnce_append (by decide)]
    intro character hmem heq
    rcases List.mem_append.mp hmem with hhost | hblank
    · exact (report.host_plain character hhost).2 (Option.some.inj heq)
    · rw [List.mem_singleton.mp hblank] at heq
      cases heq
  have hhost : trim (report.host ++ [' ']) = report.host := by
    rw [trim_append _ _ _ report.host_ne]
    · exact List.append_nil _
    · rw [Option.all_eq_true]
      intro character hhead
      simp [(report.host_plain character (List.mem_of_mem_head? hhead)).1]
    · rw [Option.all_eq_true]
      intro character hlast
      simp [(report.host_plain character (List.mem_of_getLast? hlast)).1]
  have hupper : ∀ character ∈ report.status, isWhiteSpace character = false ∧
      character ≠ ' ' ∧ character ≠ '!' ∧ character ≠ ':' := fun character hmem =>
    of_isUpper (report.status_upper character hmem)
  obtain ⟨rest, hrest⟩ : ∃ rest, trim (' ' :: (report.status ++ report.mark ++
      " => ".toList ++ report.behind)) =
        (report.status ++ report.mark) ++ ' ' :: rest := by
    obtain ⟨first, status, hstatus⟩ := List.exists_cons_of_ne_nil report.status_ne
    have hfirst := (hupper first (by rw [hstatus]; exact List.mem_cons_self)).1
    have hframed := trim_append (report.status ++ report.mark ++ " =>".toList)
      (by simp [hstatus, hfirst]) (by simp; decide) (by simp [hstatus])
      (' ' :: report.behind)
    have hblank (text : List Char) : trim (' ' :: text) = trim text := by
      rw [trim, List.dropWhile_cons_of_pos (by decide), ← trim]
    have htext : report.status ++ report.mark ++ " => ".toList ++ report.behind =
        report.status ++ report.mark ++ " =>".toList ++ ' ' :: report.behind := by
      simp
    exact ⟨_, by rw [hblank, htext, hframed, List.append_assoc]; rfl⟩
  have htoken : ((report.status ++ report.mark) ++ ' ' :: rest).takeWhile
      (· ≠ ' ') = report.status ++ report.mark := by
    apply takeWhile_status
    · intro character hmem
      rcases List.mem_append.mp hmem with hmem | hmem
      · simp [(hupper character hmem).2.1]
      · simp [report.mark_failed character hmem]
    · rfl
  have hclean : (report.status ++ report.mark).reverse.dropWhile (fun character =>
      character = '!' || character = ':') = report.status.reverse := by
    rw [List.reverse_append, List.dropWhile_append_of_pos]
    · apply dropWhile_of_head?
      rw [List.head?_reverse, Option.all_eq_true]
      intro character hlast
      have hmem := hupper character (List.mem_of_getLast? hlast)
      simp [hmem.2.2]
    · intro character hmem
      simp [report.mark_failed character (List.mem_reverse.mp hmem)]
  rw [pingLine, hsplit, Option.bind_some, hhost, if_neg report.host_ne]
  dsimp only
  rw [hrest, htoken, hclean, List.reverse_reverse, reachable]

end HostReport

/-! ## Whole outputs -/

/-- What is said of each host, where no host is spoken of twice. -/
theorem getElem?_byHost {line : List Char → Option (String × Bool)}
    {stdout : String} {reports : List HostReport} {say : HostReport → Bool}
    (hread : (lines stdout.toList).filterMap line =
      reports.map fun report => (String.ofList report.host, say report))
    (hdistinct : reports.Pairwise fun left right => left.host ≠ right.host)
    (host : String) (said : Bool) :
    (byHost line stdout)[host]? = some said ↔
      ∃ report ∈ reports, host = String.ofList report.host ∧ said = say report := by
  have hkeys : (reports.map fun report =>
      (String.ofList report.host, say report)).Pairwise
        fun left right => ¬ compare left.1 right.1 = .eq := by
    rw [List.pairwise_map]
    apply hdistinct.imp
    intro left right hne hcompare
    exact hne (String.ofList_injective (Std.LawfulEqCmp.eq_of_compare hcompare))
  rw [byHost, hread]
  constructor
  · intro hfound
    have hmem : host ∈ reports.map fun report => String.ofList report.host := by
      by_contra hnone
      have hcontains : ((reports.map fun report =>
          (String.ofList report.host, say report)).map Prod.fst).contains host =
            false := by
        rw [List.map_map, ← Bool.not_eq_true, List.contains_iff_mem]
        exact hnone
      rw [Std.TreeMap.getElem?_ofList_of_contains_eq_false hcontains] at hfound
      cases hfound
    obtain ⟨report, hreport, rfl⟩ := List.mem_map.mp hmem
    rw [Std.TreeMap.getElem?_ofList_of_mem Std.ReflCmp.compare_self hkeys
      (List.mem_map.mpr ⟨report, hreport, rfl⟩)] at hfound
    exact ⟨report, hreport, rfl, (Option.some.inj hfound).symm⟩
  · rintro ⟨report, hreport, rfl, rfl⟩
    exact Std.TreeMap.getElem?_ofList_of_mem Std.ReflCmp.compare_self hkeys
      (List.mem_map.mpr ⟨report, hreport, rfl⟩)

theorem filterMap_pingLine (reports : List HostReport) :
    (reports.map HostReport.firstLine).filterMap pingLine =
      reports.map fun report => (String.ofList report.host, report.reachable) := by
  induction reports with
  | nil => rfl
  | cons report reports ih =>
      rw [List.map_cons, List.filterMap_cons, report.pingLine_firstLine, ih]
      rfl

theorem filterMap_restartLine (reports : List HostReport) :
    (reports.flatMap HostReport.allLines).filterMap restartLine =
      reports.map fun report => (String.ofList report.host, report.restarted) := by
  induction reports with
  | nil => rfl
  | cons report reports ih =>
      have hbody : report.body.filterMap restartLine = [] := by
        rw [List.filterMap_eq_nil_iff]
        exact fun line hline => report.restartLine_body hline
      rw [List.flatMap_cons, List.filterMap_append, ih, HostReport.allLines,
        List.filterMap_cons, report.restartLine_firstLine, hbody]
      rfl

/-- The answer says of exactly these hosts what the reports say. -/
def Answers (answer : Json) (field : String) (reports : List HostReport)
    (say : HostReport → Bool) : Prop :=
  ∃ found, answer.get field = some (hostsJson found) ∧
    ∀ host said, found[host]? = some said ↔
      ∃ report ∈ reports, host = String.ofList report.host ∧ said = say report

/-- Whatever ansible exits with, `ping` and `restart_service` answer with what
it reported of each host, and a restart is called well exactly at exit code
zero. -/
theorem adhocTools_answer (inventory : Inventory) (reports : List HostReport)
    (hdistinct : reports.Pairwise fun left right => left.host ≠ right.host) :
    (∀ tool, Ensures (pingFrom inventory tool).run fun trace result =>
      ∀ argv out, trace = [⟨.runAdhoc argv, .ok out⟩] →
        lines out.stdout.toList = reports.map HostReport.firstLine →
          ∃ answer, result = .ok answer ∧
            Answers answer "reachable" reports HostReport.reachable ∧
            answer.get "exit_code" = some (.int out.code)) ∧
    ∀ tool, Ensures (restartServiceFrom inventory tool).run fun trace result =>
      ∀ argv out, trace = [⟨.runAdhoc argv, .ok out⟩] →
        lines out.stdout.toList = reports.flatMap HostReport.allLines →
          ∃ answer, result = .ok answer ∧
            Answers answer "restarted" reports HostReport.restarted ∧
            answer.get "ok" = some (.bool (out.code = 0)) ∧
            answer.get "exit_code" = some (.int out.code) := by
  constructor
  · intro tool
    rw [pingFrom]
    cases inventory.toLimit tool.selector with
    | error error => exact ensures_done_iff.mpr fun argv out htrace => by cases htrace
    | ok limit =>
        refine ensures_request_iff.mpr fun reply => ?_
        cases reply with
        | error error =>
            exact ensures_done_iff.mpr fun argv out htrace => by cases htrace
        | ok out =>
            refine ensures_done_iff.mpr fun argv printed htrace hlines => ?_
            cases htrace
            refine ⟨_, rfl, ⟨byHost pingLine out.stdout, rfl, ?_⟩, rfl⟩
            exact getElem?_byHost (hlines ▸ filterMap_pingLine reports) hdistinct
  · intro tool
    rw [restartServiceFrom]
    cases inventory.toLimit tool.selector with
    | error error => exact ensures_done_iff.mpr fun argv out htrace => by cases htrace
    | ok limit =>
        dsimp only
        split
        · exact ensures_done_iff.mpr fun argv out htrace => by cases htrace
        · split
          · exact ensures_done_iff.mpr fun argv out htrace => by cases htrace
          · refine ensures_request_iff.mpr fun reply => ?_
            cases reply with
            | error error =>
                exact ensures_done_iff.mpr fun argv out htrace => by cases htrace
            | ok out =>
                refine ensures_done_iff.mpr fun argv printed htrace hlines => ?_
                cases htrace
                refine ⟨_, rfl, ⟨byHost restartLine out.stdout, rfl, ?_⟩, rfl, rfl⟩
                exact getElem?_byHost (hlines ▸ filterMap_restartLine reports)
                  hdistinct

/-! ## A restart that failed -/

def failedReport : HostReport where
  host := "web".toList
  status := "FAILED".toList
  mark := ['!']
  behind := ['{']
  body := ["    \"msg\": \"Could not find a | B\"".toList, ['}']]
  host_ne := by decide
  host_plain := by
    have hall : "web".toList.all fun character =>
        decide (isWhiteSpace character = false ∧ character ≠ '|') := by decide
    exact fun character hmem => of_decide_eq_true (List.all_eq_true.mp hall character hmem)
  status_ne := by decide
  status_upper := List.all_eq_true.mp (by decide)
  mark_failed := by simp
  body_indented := by simp [isWhiteSpace]

def webRestart : RestartServiceTool :=
  { selector := "@edge", unit := "nginx.service", confirm := some "web"
    forks := none }

def failedOutput : AdhocOutput :=
  { stdout := "web | FAILED! => \x7b\n    \"msg\": \"Could not find a | B\"\n\x7d\n"
    stderr := "", code := 2 }

theorem executes_webRestart : ∃ result,
    Executes (restartServiceFrom webFleet webRestart).run
      [⟨.runAdhoc (restartArgv "web" webRestart), .ok failedOutput⟩] result := by
  have hlimit : webFleet.toLimit webRestart.selector = .ok "web" :=
    toLimit_webFleet
  have hunit : validUnit webRestart.unit = true := by decide
  rw [restartServiceFrom, hlimit]
  simp only [hunit, Bool.not_true, Bool.false_eq_true, if_false]
  rw [if_neg (by decide)]
  exact ⟨_, .request (.done _)⟩

theorem webRestart_answer : ∃ answer,
    Answers answer "restarted" [failedReport] HostReport.restarted ∧
      answer.get "ok" = some (.bool false) := by
  obtain ⟨result, hexec⟩ := executes_webRestart
  obtain ⟨answer, -, hanswers, hok, -⟩ :=
    (adhocTools_answer webFleet [failedReport] (List.pairwise_singleton _ _)).2
      webRestart _ _ hexec _ failedOutput rfl (by decide)
  exact ⟨answer, hanswers, hok⟩

end Mandala.Server
