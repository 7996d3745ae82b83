import Mandala.Eval.Exchange

/-!
# A call comes to its end

As long as nothing goes wrong, the steps a call has ahead of it can be counted,
and one of them can always be taken.
-/

namespace Mandala.Eval

open Mandala.Data Mandala.Transition

variable {σ : Type} {service : Service σ}

/-! ## The steps ahead -/

/-- The steps of a call that nothing disturbs. -/
def SystemLabel.proceeds : SystemLabel → Bool
  | .spawn failure | .send failure => failure.isNone
  | .receive | .serve => true
  | _ => false

def System.Proceeds (service : Service σ) (before after : System σ) : Prop :=
  ∃ label : SystemLabel, label.proceeds = true ∧
    before.Step service label after

/-- How many steps a call has ahead of it. -/
def Evaluator.ahead (client : Evaluator) : ℕ :=
  match client.phase, client.worker with
  | .attempting .., none => 4
  | .attempting .., some _ => 3
  | .awaiting .., none => 2
  | .awaiting .., some worker => if worker.lines.isEmpty then 2 else 1
  | .idle, _ => 0
  | .panicked, _ => 0

theorem SystemLabel.calm_of_proceeds {label : SystemLabel}
    (hproceeds : label.proceeds = true) : label.calm = true := by
  cases label with
  | spawn failure => exact hproceeds
  | send failure => exact hproceeds
  | receive => rfl
  | serve => rfl
  | call => cases hproceeds
  | reload => cases hproceeds
  | expire => cases hproceeds
  | dies => cases hproceeds
  | closes => cases hproceeds
  | readFails => cases hproceeds

theorem Ends.nil {reading : Bool} {lines : List (Except String String)}
    (hends : Ends false reading lines) : lines = [] ∧ reading = true := by
  rcases hends with ⟨hnil, hopen⟩ | ⟨hfaults, -⟩
  · exact ⟨hnil, hopen.resolve_right nofun⟩
  · cases hfaults

/-- Where nothing goes wrong, silence means that the process has not answered. -/
theorem Exchange.asked_of_silent {reading : Bool} {request : Request}
    {attempt id : ℕ} {sent : List Json} {process : Option (Process σ)}
    (hexchange : Exchange service false reading (.awaiting request attempt id)
      sent process []) :
    ∃ earlier, id < 18446744073709551616 ∧
      process = some
        { stdin := [service.host.toStr (request.line id)]
          nix := service.after earlier } := by
  cases hexchange with
  | quiet hphase => exact absurd rfl (hphase _ _ _)
  | asked hid => exact ⟨_, hid, rfl⟩
  | unheard hfaults => cases hfaults

/-! ## Every step leads on -/

theorem ahead_spawn {client after : Evaluator}
    (hstep : client.spawn none = some after) : after.ahead < client.ahead := by
  unfold Evaluator.spawn at hstep
  split at hstep
  · next hfailure => cases hfailure
  · next hphase hworker hfailure =>
      cases hstep
      rw [Evaluator.ahead, Evaluator.ahead, hphase, hworker]
      exact Nat.lt_succ_self 3
  · cases hstep

theorem ahead_send {client after : Evaluator}
    (hstep : client.send none = some after) : after.ahead < client.ahead := by
  unfold Evaluator.send at hstep
  split at hstep
  · next request attempt worker hphase hworker =>
      have hbefore : client.ahead = 3 := by
        rw [Evaluator.ahead, hphase, hworker]
      split at hstep
      · cases hstep
        rw [hbefore, Evaluator.ahead]
        dsimp only [Evaluator.record]
        rw [hworker]
        dsimp only
        split <;> omega
      · cases hstep
        rw [hbefore]
        exact Nat.succ_pos 2
  · cases hstep

theorem ahead_receive (hwrites : service.Writes) {system : System σ}
    {after : Evaluator} (hattended : Attended service false system)
    (hstep : system.client.receive service.host = some after) :
    after.ahead < system.client.ahead := by
  unfold Evaluator.receive at hstep
  split at hstep
  · next request attempt id worker hphase hworker =>
      have hexchange := hattended.exchange worker hworker
      rw [hphase] at hexchange
      split at hstep
      · next received rest hlines =>
          rw [hlines] at hexchange
          have hanswer := (hexchange.read hwrites).resolve_right
            (fun hfailed => absurd hfailed.1 nofun)
          obtain ⟨earlier, -, hread, -⟩ := hanswer
          rw [hread] at hstep
          cases hstep
          have hbefore : system.client.ahead = 1 := by
            rw [Evaluator.ahead, hphase, hworker]
            dsimp only
            rw [hlines]
            rfl
          rw [hbefore]
          exact Nat.zero_lt_one
      · next hlines =>
          rw [hlines] at hexchange
          split at hstep
          · cases hstep
          · next hreading => exact absurd (hexchange.silent hreading) nofun
  · cases hstep

theorem ahead_serve (hwrites : service.Writes) {system after : System σ}
    (hattended : Attended service false system)
    (hstep : system.serve service = some after) :
    after.client.ahead < system.client.ahead := by
  unfold System.serve at hstep
  split at hstep
  · next line stdin nix hprocess =>
      obtain ⟨worker, hworker⟩ := exists_worker hattended hprocess
      have hexchange := hattended.exchange worker hworker
      rw [hprocess] at hexchange
      obtain ⟨request, attempt, id, earlier, hphase, hid, -, rfl, -, -, hends⟩ :=
        hexchange.asked_of_unread
      obtain ⟨hlines, hreading⟩ := hends.nil
      rw [hwrites.respond_line _ request hid] at hstep
      cases hstep
      have hbefore : system.client.ahead = 2 := by
        rw [Evaluator.ahead, hphase, hworker]
        dsimp only
        rw [hlines]
        rfl
      have hafter : ∀ text, (system.client.hears text).ahead = 1 := by
        intro text
        rw [Evaluator.hears, Evaluator.workerWrites, hworker]
        simp only [if_pos hreading, Option.getD_some]
        rw [Evaluator.ahead]
        dsimp only
        rw [hphase, hlines]
        rfl
      rw [hbefore, hafter]
      exact Nat.lt_succ_self 1
  · cases hstep

theorem ahead_proceeds (hwrites : service.Writes) {before after : System σ}
    (hattended : Attended service false before)
    (hproceeds : before.Proceeds service after) :
    after.client.ahead < before.client.ahead := by
  obtain ⟨label, hlabel, hact⟩ := hproceeds
  cases label with
  | spawn failure =>
      obtain ⟨client, hclient, rfl⟩ := Option.map_eq_some_iff.mp hact
      cases Option.isNone_iff_eq_none.mp hlabel
      exact ahead_spawn hclient
  | send failure =>
      obtain ⟨client, hclient, rfl⟩ := Option.map_eq_some_iff.mp hact
      cases Option.isNone_iff_eq_none.mp hlabel
      rw [client_delivered]
      exact ahead_send hclient
  | receive =>
      obtain ⟨client, hclient, rfl⟩ := Option.map_eq_some_iff.mp hact
      exact ahead_receive hwrites hattended hclient
  | serve => exact ahead_serve hwrites hattended hact
  | call => cases hlabel
  | reload => cases hlabel
  | expire => cases hlabel
  | dies => cases hlabel
  | closes => cases hlabel
  | readFails => cases hlabel

/-- A call in progress can go on. -/
theorem exists_proceeds (hwrites : service.Writes) {system : System σ}
    (hattended : Attended service false system) (hcall : InCall system.client) :
    (system.client.phase = .idle ∨ system.client.phase = .panicked) ∨
      ∃ after, system.Proceeds service after := by
  cases hphase : system.client.phase with
  | idle => exact .inl (.inl rfl)
  | panicked => exact .inl (.inr rfl)
  | attempting request attempt =>
      right
      cases hworker : system.client.worker with
      | none =>
          have hspawn : (system.client.spawn none).isSome := by
            simp [Evaluator.spawn, hphase, hworker]
          obtain ⟨client, hclient⟩ := Option.isSome_iff_exists.mp hspawn
          exact ⟨_, .spawn none, rfl, congrArg (Option.map _) hclient⟩
      | some worker =>
          have hsend : (system.client.send none).isSome := by
            rw [Evaluator.send, hphase, hworker]
            dsimp only
            split <;> rfl
          obtain ⟨client, hclient⟩ := Option.isSome_iff_exists.mp hsend
          exact ⟨_, .send none, rfl, congrArg (Option.map _) hclient⟩
  | awaiting request attempt id =>
      right
      rw [InCall, hphase] at hcall
      obtain ⟨-, -, -, worker, hworker, -⟩ := hcall
      have hexchange := hattended.exchange worker hworker
      rw [hphase] at hexchange
      cases hlines : worker.lines with
      | nil =>
          rw [hlines] at hexchange
          have hserve : (system.serve service).isSome := by
            obtain ⟨earlier, hid, hprocess⟩ := hexchange.asked_of_silent
            rw [System.serve, hprocess]
            dsimp only
            rw [hwrites.respond_line _ request hid]
            rfl
          obtain ⟨after, hafter⟩ := Option.isSome_iff_exists.mp hserve
          exact ⟨after, .serve, rfl, hafter⟩
      | cons received rest =>
          rw [hlines] at hexchange
          have hreceive : (system.client.receive service.host).isSome := by
            rw [Evaluator.receive, hphase, hworker]
            dsimp only
            rw [hlines]
            dsimp only
            split <;> rfl
          obtain ⟨client, hclient⟩ := Option.isSome_iff_exists.mp hreceive
          exact ⟨_, .receive, rfl, congrArg (Option.map _) hclient⟩

end Mandala.Eval
