import FleetOps.Command.Dispatch
import FleetOps.Platform.Authorised
import FleetOps.Robot.Launch
import FleetOps.Robot.Lifecycle

namespace FleetOps.Platform

open Command (ClaimedCommand)
open Robot (Args Generator Process Machine Phase SimulationLabel Draws fleet_step advance)
open Runs Floats

variable {F : Type*}

section Model

-- A robot's place is its process and where it stands there.
def unitAt (processes : List (Process F)) (place : Nat × Nat) : Option (Machine F) :=
  processes[place.1]?.bind fun p => p.simulation.units[place.2]?

def phaseAt (processes : List (Process F)) (place : Nat × Nat) : Option (Phase F) :=
  (unitAt processes place).map Machine.phase

def robotAt (processes : List (Process F)) (place : Nat × Nat) : Option Nat :=
  processes[place.1]?.bind fun p => p.robot_ids[place.2]?

-- The backend and the processes of the simulator. On record are the place of the robot that got
-- the response of a claim, and what the robots have executed.
structure Site (F : Type*) where
  control : Control
  processes : List (Process F)
  answered : Command.RequestId → Option (Nat × Nat)
  executed : List (Nat × ClaimedCommand)

def Site.start (F : Type*) (now : ℚ) (users : List Auth.User) : Site F :=
  ⟨.start now users, [], fun _ => none, []⟩

inductive SiteEvent (F : Type*) where
  | control (event : ControlEvent)
  -- the simulator starts, or starts again
  | launch (rng : Generator F) (clock : Nat → F)
  -- a claim of the robots fails or its response is lost
  | robots (worker : Nat) (label : SimulationLabel F)
  -- the response of a finished claim
  | respond (place : Nat × Nat) (r : Command.RequestId) (d : Draws F)

def SiteEvent.control? : SiteEvent F → Option ControlEvent
  | .control event => some event
  | _ => none

def responds : SimulationLabel F → Bool
  | .robot _ (.claimed (some _)) _ => true
  | _ => false

-- The command that a robot executes on this step.
def execution (processes : List (Process F)) (worker : Nat) :
    SimulationLabel F → Option (Nat × ClaimedCommand)
  | .robot i .returned _ =>
      match phaseAt processes (worker, i), robotAt processes (worker, i) with
      | some (.executing _ cmd_obj _), some robot_id => some (robot_id, cmd_obj)
      | _, _ => none
  | _ => none

variable [Floats F] (d : Auth.Deployment) (args : Args F)

def site (s : Site F) : SiteEvent F → Option (Site F)
  | .control event => (control d s.control event).map fun control => { s with control }
  | .launch rng clock => (Robot.main args rng clock).map fun processes => { s with processes }
  | .robots worker label =>
      if responds label then none
      else (fleet_step args.ambient s.processes (worker, label)).map fun processes => { s with
        processes
        executed := s.executed ++ (execution s.processes worker label).toList }
  | .respond place r draws =>
      match s.control.commands.requests r, robotAt s.processes place, s.answered r with
      | some (.claim asked (.returned claimed)), some robot_id, none =>
          if asked = robot_id then
            (fleet_step args.ambient s.processes
              (place.1, .robot place.2 (.claimed (some claimed)) draws)).map fun processes => { s with
                processes
                answered := Function.update s.answered r (some place) }
          else none
      | _, _, _ => none

end Model

section Steps

variable [Floats F] {d : Auth.Deployment} {args : Args F} {ambient_c : F} {s t : Site F} {e : SiteEvent F}
  {processes later : List (Process F)} {worker : Nat} {label : SimulationLabel F}

-- The frame of an event: what it does not reach stays.
inductive SiteStep (d : Auth.Deployment) (args : Args F) (s t : Site F) : SiteEvent F → Prop where
  | control (event : ControlEvent) (hcontrol : control d s.control event = some t.control)
      (hprocesses : t.processes = s.processes) (hanswered : t.answered = s.answered)
      (hexecuted : t.executed = s.executed) : SiteStep d args s t (.control event)
  | launch (rng : Generator F) (clock : Nat → F) (hmain : Robot.main args rng clock = some t.processes)
      (hcontrol : t.control = s.control) (hanswered : t.answered = s.answered)
      (hexecuted : t.executed = s.executed) : SiteStep d args s t (.launch rng clock)
  | robots (worker : Nat) (label : SimulationLabel F) (hown : responds label = false)
      (hfleet : fleet_step args.ambient s.processes (worker, label) = some t.processes)
      (hcontrol : t.control = s.control) (hanswered : t.answered = s.answered)
      (hexecuted : t.executed = s.executed ++ (execution s.processes worker label).toList) :
      SiteStep d args s t (.robots worker label)
  | respond (place : Nat × Nat) (r : Command.RequestId) (draws : Draws F) (robot_id : Nat)
      (claimed : List ClaimedCommand)
      (hrequest : s.control.commands.requests r = some (.claim robot_id (.returned claimed)))
      (hrobot : robotAt s.processes place = some robot_id) (hfresh : s.answered r = none)
      (hfleet : fleet_step args.ambient s.processes
        (place.1, .robot place.2 (.claimed (some claimed)) draws) = some t.processes)
      (hcontrol : t.control = s.control)
      (hanswered : t.answered = Function.update s.answered r (some place))
      (hexecuted : t.executed = s.executed) : SiteStep d args s t (.respond place r draws)

theorem site_step (h : site d args s e = some t) : SiteStep d args s t e := by
  cases e with
  | control event =>
      obtain ⟨control, hcontrol, rfl⟩ := Option.map_eq_some_iff.mp h
      exact .control event hcontrol rfl rfl rfl
  | launch rng clock =>
      obtain ⟨processes, hmain, rfl⟩ := Option.map_eq_some_iff.mp h
      exact .launch rng clock hmain rfl rfl rfl
  | robots worker label =>
      simp only [site] at h
      split at h
      · cases h
      · rename_i hown
        obtain ⟨processes, hfleet, rfl⟩ := Option.map_eq_some_iff.mp h
        exact .robots worker label (by simpa using hown) hfleet rfl rfl rfl
  | respond place r draws =>
      simp only [site] at h
      split at h
      · rename_i asked claimed robot_id hrequest hrobot hfresh
        split at h
        · rename_i hasked
          subst hasked
          obtain ⟨processes, hfleet, rfl⟩ := Option.map_eq_some_iff.mp h
          exact .respond place r draws robot_id claimed hrequest hrobot hfresh hfleet rfl rfl rfl
        · cases h
      · cases h

theorem fleet_step_eq (h : fleet_step ambient_c processes (worker, label) = some later) :
    ∃ p q, processes[worker]? = some p ∧ p.simulation.step ambient_c label = some q.simulation ∧
      q.robot_ids = p.robot_ids ∧ later = processes.set worker q := by
  obtain ⟨p, hp, h⟩ := Option.bind_eq_some_iff.mp h
  obtain ⟨q, hq, rfl⟩ := Option.map_eq_some_iff.mp h
  obtain ⟨⟨simulation, hsimulation⟩, -, rfl⟩ := Option.map_eq_some_iff.mp hq
  exact ⟨p, ⟨p.robot_ids, simulation, _⟩, hp, hsimulation, rfl, rfl⟩

-- The robots keep their ids.
theorem robotAt_step (h : fleet_step ambient_c processes (worker, label) = some later)
    (place : Nat × Nat) : robotAt later place = robotAt processes place := by
  obtain ⟨p, q, hp, -, hids, rfl⟩ := fleet_step_eq h
  obtain ⟨hlt, hget⟩ := List.getElem?_eq_some_iff.mp hp
  by_cases hw : place.1 = worker
  · simp [robotAt, hw, hlt, hget, hids]
  · simp [robotAt, Ne.symm hw]

-- A robot's step moves one phase; the dispatcher and the viewers move none.
theorem phaseAt_robot {i : Nat} {event : Robot.Event F} {draws : Draws F}
    (h : fleet_step ambient_c processes (worker, .robot i event draws) = some later) :
    ∃ u next viewers_active, unitAt processes (worker, i) = some u ∧
      advance viewers_active ambient_c draws u.robot u.phase event = some next ∧
      phaseAt later (worker, i) = some next.2 ∧
      ∀ place, place ≠ (worker, i) → phaseAt later place = phaseAt processes place := by
  obtain ⟨p, q, hp, hq, -, rfl⟩ := fleet_step_eq h
  obtain ⟨hlt, hget⟩ := List.getElem?_eq_some_iff.mp hp
  obtain ⟨u, hu, hnext⟩ := Option.bind_eq_some_iff.mp hq
  obtain ⟨next, hadvance, hsimulation⟩ := Option.map_eq_some_iff.mp hnext
  obtain ⟨hin, -⟩ := List.getElem?_eq_some_iff.mp hu
  refine ⟨u, next, _, by simp [unitAt, hp, hu], hadvance, ?_, fun place hplace => ?_⟩
  · simp [phaseAt, unitAt, hlt, ← hsimulation, hin]
  · obtain ⟨w, j⟩ := place
    by_cases hw : w = worker
    · subst hw
      have hj : i ≠ j := fun hj => hplace (by rw [hj])
      simp [phaseAt, unitAt, hlt, hget, ← hsimulation, hj]
    · simp [phaseAt, unitAt, Ne.symm hw]

theorem phaseAt_other (h : fleet_step ambient_c processes (worker, label) = some later)
    (hlabel : ∀ i event draws, label ≠ .robot i event draws) (place : Nat × Nat) :
    phaseAt later place = phaseAt processes place := by
  obtain ⟨p, q, hp, hq, -, rfl⟩ := fleet_step_eq h
  obtain ⟨hlt, hget⟩ := List.getElem?_eq_some_iff.mp hp
  by_cases hw : place.1 = worker
  · cases label with
    | robot i event draws => exact absurd rfl (hlabel i event draws)
    | dispatch now plan =>
        obtain ⟨f, hf, hunits⟩ := Robot.dispatch_unit p.simulation now plan place.2
        have hsimulation : p.simulation.dispatch now plan = q.simulation := Option.some.inj hq
        have hphase : ∀ u, (f u).phase = u.phase := by
          intro u
          rcases hf u with hsame | ⟨mission, -, -, hassigned⟩
          · rw [hsame]
          · rw [hassigned]
            rfl
        rw [hsimulation] at hunits
        simp [phaseAt, unitAt, hw, hlt, hget, hunits, Function.comp_def, hphase]
    | viewers active =>
        have hsimulation := Option.some.inj hq
        simp [phaseAt, unitAt, hw, hlt, hget, ← hsimulation]
  · simp [phaseAt, unitAt, Ne.symm hw]

end Steps

section Once

open Command (Inv)

-- No command is in the responses of two claims, nor twice in one.
theorem claimed_once {s : Command.System} (hinv : Inv s) {r r' : Command.RequestId} {asked asked' : Int}
    {claimed claimed' : List ClaimedCommand}
    (hclaim : s.requests r = some (.claim asked (.returned claimed)))
    (hclaim' : s.requests r' = some (.claim asked' (.returned claimed')))
    {c c' : ClaimedCommand} (hc : c ∈ claimed) (hc' : c' ∈ claimed') (hid : c.id = c'.id) : r = r' := by
  obtain ⟨w, hw, rfl, hkey, hdispatches, -⟩ := Command.claimed_write hinv hclaim (List.mem_map_of_mem hc)
  obtain ⟨v, hv, rfl, hkey', hdispatches', -⟩ := Command.claimed_write hinv hclaim' (List.mem_map_of_mem hc')
  have heq : w = v := Command.eq_of_dispatches hinv.sound hw hv (by rw [hkey, hkey', hid]) hdispatches
    hdispatches'
  rw [heq]

theorem claimed_nodup {s : Command.System} (hinv : Inv s) {r : Command.RequestId} {asked : Int}
    {claimed : List ClaimedCommand} (hclaim : s.requests r = some (.claim asked (.returned claimed))) :
    (claimed.map ClaimedCommand.id).Nodup := by
  obtain ⟨-, hkeys⟩ := (hinv.active r _ hclaim).ledger
  rw [hkeys]
  exact Command.done_keys_nodup hinv hclaim

-- The robot at this place got the response of this claim.
def Site.Has (s : Site F) (r : Command.RequestId) (place : Nat × Nat) (robot_id : Nat)
    (claimed : List ClaimedCommand) : Prop :=
  s.answered r = some place ∧ s.control.commands.requests r = some (.claim robot_id (.returned claimed))

def Site.executedIds (s : Site F) : List Command.CommandId := s.executed.map fun x => x.2.id

-- What a robot has in hand or has executed comes from the response of a claim that only it got,
-- and what is in hand has not been executed.
structure Carried (s : Site F) : Prop where
  inv : Inv s.control.commands
  pending : ∀ place phase, phaseAt s.processes place = some phase → phase.pending ≠ [] →
    ∃ r robot_id claimed, s.Has r place robot_id claimed ∧ robotAt s.processes place = some robot_id ∧
      phase.pending.Sublist claimed
  executed : ∀ x ∈ s.executed, ∃ r place claimed, s.Has r place x.1 claimed ∧ x.2 ∈ claimed
  nodup : s.executedIds.Nodup
  fresh : ∀ place phase, phaseAt s.processes place = some phase →
    ∀ c ∈ phase.pending, c.id ∉ s.executedIds

variable {s t : Site F}

theorem Site.Has.kept {r : Command.RequestId} {place : Nat × Nat} {robot_id : Nat}
    {claimed : List ClaimedCommand} (h : s.Has r place robot_id claimed)
    (hanswered : t.answered r = s.answered r)
    (hcommands : t.control.commands = s.control.commands ∨
      ∃ action, s.control.commands.step action = some t.control.commands) :
    t.Has r place robot_id claimed := by
  obtain ⟨hplace, hrequest⟩ := h
  refine ⟨hanswered.trans hplace, ?_⟩
  rcases hcommands with hsame | ⟨action, haction⟩
  · rw [hsame]
    exact hrequest
  · exact Command.System.step_finished haction hrequest rfl

theorem Site.Has.unique (hinv : Inv s.control.commands) {r r' : Command.RequestId} {place place' : Nat × Nat}
    {robot_id robot_id' : Nat} {claimed claimed' : List ClaimedCommand}
    (h : s.Has r place robot_id claimed) (h' : s.Has r' place' robot_id' claimed') {c c' : ClaimedCommand}
    (hc : c ∈ claimed) (hc' : c' ∈ claimed') (hid : c.id = c'.id) : place = place' := by
  obtain rfl := claimed_once hinv h.2 h'.2 hc hc' hid
  exact Option.some.inj (h.1.symm.trans h'.1)

-- The robots go on with less in hand, or start again with nothing.
theorem Carried.shrink (h : Carried s) (hcommands : t.control.commands = s.control.commands ∨
      ∃ action, s.control.commands.step action = some t.control.commands)
    (hanswered : t.answered = s.answered) (hexecuted : t.executed = s.executed)
    (hphases : ∀ place phase, phaseAt t.processes place = some phase → phase.pending = [] ∨
      ∃ before, phaseAt s.processes place = some before ∧ phase.pending.Sublist before.pending ∧
        robotAt t.processes place = robotAt s.processes place) :
    Carried t where
  inv := by
    rcases hcommands with hsame | ⟨action, haction⟩
    · rw [hsame]
      exact h.inv
    · exact h.inv.step haction
  pending := by
    intro place phase hphase hpending
    rcases hphases place phase hphase with hnil | ⟨before, hbefore, hsub, hrobot⟩
    · exact absurd hnil hpending
    · have hsome : before.pending ≠ [] := by
        intro hnil
        rw [hnil] at hsub
        exact hpending (List.sublist_nil.mp hsub)
      obtain ⟨r, robot_id, claimed, hhas, hplace, hclaimed⟩ := h.pending place before hbefore hsome
      exact ⟨r, robot_id, claimed, hhas.kept (by rw [hanswered]) hcommands, hrobot.trans hplace,
        hsub.trans hclaimed⟩
  executed := by
    intro x hx
    rw [hexecuted] at hx
    obtain ⟨r, place, claimed, hhas, hmem⟩ := h.executed x hx
    exact ⟨r, place, claimed, hhas.kept (by rw [hanswered]) hcommands, hmem⟩
  nodup := by
    rw [Site.executedIds, hexecuted]
    exact h.nodup
  fresh := by
    intro place phase hphase c hc
    rw [Site.executedIds, hexecuted]
    rcases hphases place phase hphase with hnil | ⟨before, hbefore, hsub, -⟩
    · rw [hnil] at hc
      cases hc
    · exact h.fresh place before hbefore c (hsub.subset hc)

-- A command that no robot has in hand any more has been executed.
theorem Carried.execute (h : Carried s) {r : Command.RequestId} {place : Nat × Nat} {robot_id : Nat}
    {claimed : List ClaimedCommand} {c : ClaimedCommand} (hhas : s.Has r place robot_id claimed)
    (hc : c ∈ claimed) (hnew : c.id ∉ s.executedIds)
    (hgone : ∀ place phase, phaseAt s.processes place = some phase → ∀ c' ∈ phase.pending, c'.id ≠ c.id) :
    Carried { s with executed := s.executed ++ [(robot_id, c)] } where
  inv := h.inv
  pending := h.pending
  executed := by
    intro x hx
    rcases List.mem_append.mp hx with hx | hx
    · exact h.executed x hx
    · rw [List.mem_singleton.mp hx]
      exact ⟨r, place, claimed, hhas, hc⟩
  nodup := by
    rw [Site.executedIds, List.map_append]
    refine List.nodup_append.mpr ⟨h.nodup, List.nodup_singleton _, ?_⟩
    rintro id hid _ hlast rfl
    rw [List.mem_singleton.mp hlast] at hid
    exact hnew hid
  fresh := by
    intro other phase hphase c' hc'
    rw [Site.executedIds, List.map_append, List.mem_append]
    rintro (hold | hlast)
    · exact h.fresh other phase hphase c' hc' hold
    · exact hgone other phase hphase c' hc' (List.mem_singleton.mp hlast)

variable [Floats F] {d : Auth.Deployment} {args : Args F} {ambient_c : F} {e : SiteEvent F}

-- A robot's step and what it executes on it.
theorem Carried.robots {worker : Nat} {label : SimulationLabel F} (h : Carried s)
    (hown : responds label = false)
    (hfleet : fleet_step ambient_c s.processes (worker, label) = some t.processes)
    (hcontrol : t.control = s.control) (hanswered : t.answered = s.answered)
    (hexecuted : t.executed = s.executed ++ (execution s.processes worker label).toList) : Carried t := by
  have hrobots := robotAt_step hfleet
  have hphases : ∀ place phase, phaseAt t.processes place = some phase → phase.pending = [] ∨
      ∃ before, phaseAt s.processes place = some before ∧ phase.pending.Sublist before.pending ∧
        robotAt t.processes place = robotAt s.processes place := by
    intro place phase hphase
    right
    cases label with
    | robot i event draws =>
        obtain ⟨u, next, viewers_active, hu, hadvance, hnext, hothers⟩ := phaseAt_robot hfleet
        by_cases hplace : place = (worker, i)
        · subst hplace
          cases hnext.symm.trans hphase
          refine ⟨u.phase, by rw [phaseAt, hu]; rfl, ?_, hrobots _⟩
          rcases Robot.pending_advance hadvance with hsub | ⟨data, rfl, -⟩
          · exact hsub
          · cases hown
        · exact ⟨phase, (hothers place hplace).symm.trans hphase, List.Sublist.refl _, hrobots _⟩
    | dispatch | viewers =>
        have hsame := phaseAt_other hfleet (by simp) place
        exact ⟨phase, hsame.symm.trans hphase, List.Sublist.refl _, hrobots _⟩
  have hmoved : Carried { s with processes := t.processes } :=
    h.shrink (.inl rfl) rfl rfl hphases
  obtain ⟨control, processes, answered, executed⟩ := t
  cases hcontrol
  cases hanswered
  cases hexecution : execution s.processes worker label with
  | none =>
      rw [hexecution, Option.toList_none, List.append_nil] at hexecuted
      cases hexecuted
      exact hmoved
  | some x =>
      rw [hexecution, Option.toList_some] at hexecuted
      cases hexecuted
      rw [execution.eq_def] at hexecution
      split at hexecution
      · rename_i i draws
        split at hexecution
        · rename_i turn c data robot_id hphase hrobot
          cases hexecution
          obtain ⟨u, next, viewers_active, hu, hadvance, hnext, hothers⟩ := phaseAt_robot hfleet
          obtain ⟨r, robot_id', claimed, hhas, hplace, hsub⟩ := h.pending _ _ hphase (List.cons_ne_nil _ _)
          cases hrobot.symm.trans hplace
          have hc : c ∈ claimed := hsub.subset List.mem_cons_self
          have hlater := hhas.kept (t := { s with processes }) rfl (.inl rfl)
          refine hmoved.execute hlater hc (h.fresh _ _ hphase c List.mem_cons_self) ?_
          intro place phase hplace c' hc' hid
          by_cases heq : place = (worker, i)
          · subst heq
            cases hnext.symm.trans hplace
            -- the command in hand is not among those after it
            have hexecuting : u.phase = .executing turn c data := by
              rw [phaseAt, hu] at hphase
              exact Option.some.inj hphase
            rw [hexecuting] at hadvance
            obtain rfl := Option.some.inj hadvance
            have hnodup := (claimed_nodup h.inv hhas.2).sublist (hsub.map ClaimedCommand.id)
            exact (List.nodup_cons.mp hnodup).1 (List.mem_map.mpr ⟨c', hc', hid⟩)
          · rw [hothers place heq] at hplace
            obtain ⟨r', robot_id', claimed', hhas', -, hsub'⟩ :=
              h.pending place phase hplace (List.ne_nil_of_mem hc')
            exact heq (hhas'.unique h.inv hhas (hsub'.subset hc') hc hid)
        · cases hexecution
      · cases hexecution

-- A response comes to one robot, and nothing of it has been executed.
theorem Carried.respond {place : Nat × Nat} {r : Command.RequestId} {draws : Draws F} {robot_id : Nat}
    {claimed : List ClaimedCommand} (h : Carried s)
    (hrequest : s.control.commands.requests r = some (.claim robot_id (.returned claimed)))
    (hrobot : robotAt s.processes place = some robot_id) (hfresh : s.answered r = none)
    (hfleet : fleet_step ambient_c s.processes
      (place.1, .robot place.2 (.claimed (some claimed)) draws) = some t.processes)
    (hcontrol : t.control = s.control)
    (hanswered : t.answered = Function.update s.answered r (some place))
    (hexecuted : t.executed = s.executed) : Carried t := by
  have hrobots := robotAt_step hfleet
  obtain ⟨u, next, viewers_active, hu, hadvance, hnext, hothers⟩ := phaseAt_robot hfleet
  have hold : ∀ {r' place' robot_id' claimed'}, s.Has r' place' robot_id' claimed' →
      t.Has r' place' robot_id' claimed' := by
    intro r' place' robot_id' claimed' hhas
    have hne : r' ≠ r := by
      rintro rfl
      rw [hhas.1] at hfresh
      cases hfresh
    exact hhas.kept (by rw [hanswered, Function.update_of_ne hne]) (.inl (by rw [hcontrol]))
  have hhas : t.Has r place robot_id claimed :=
    ⟨by rw [hanswered, Function.update_self], by rw [hcontrol]; exact hrequest⟩
  have hids : t.executedIds = s.executedIds := by rw [Site.executedIds, hexecuted, Site.executedIds]
  -- in hand is what was, or a part of the response
  have hphases : ∀ other phase, phaseAt t.processes other = some phase →
      (∃ before, phaseAt s.processes other = some before ∧ phase.pending.Sublist before.pending) ∨
        other = place ∧ phase.pending.Sublist claimed := by
    intro other phase hphase
    by_cases heq : other = place
    · subst heq
      cases hnext.symm.trans hphase
      rcases Robot.pending_advance hadvance with hsub | ⟨data, hdata, hsub⟩
      · exact .inl ⟨u.phase, by rw [phaseAt, hu]; rfl, hsub⟩
      · cases hdata
        exact .inr ⟨rfl, hsub⟩
    · exact .inl ⟨phase, (hothers other heq).symm.trans hphase, List.Sublist.refl _⟩
  constructor
  · rw [hcontrol]
    exact h.inv
  · intro other phase hphase hpending
    rcases hphases other phase hphase with ⟨before, hbefore, hsub⟩ | ⟨rfl, hsub⟩
    · have hsome : before.pending ≠ [] := by
        intro hnil
        rw [hnil] at hsub
        exact hpending (List.sublist_nil.mp hsub)
      obtain ⟨r', robot_id', claimed', hhas', hplace, hclaimed⟩ := h.pending other before hbefore hsome
      exact ⟨r', robot_id', claimed', hold hhas', (hrobots other).trans hplace, hsub.trans hclaimed⟩
    · exact ⟨r, robot_id, claimed, hhas, (hrobots other).trans hrobot, hsub⟩
  · intro x hx
    rw [hexecuted] at hx
    obtain ⟨r', place', claimed', hhas', hmem⟩ := h.executed x hx
    exact ⟨r', place', claimed', hold hhas', hmem⟩
  · rw [hids]
    exact h.nodup
  · intro other phase hphase c hc
    rw [hids]
    rcases hphases other phase hphase with ⟨before, hbefore, hsub⟩ | ⟨rfl, hsub⟩
    · exact h.fresh other before hbefore c (hsub.subset hc)
    · intro hexecuted'
      obtain ⟨x, hx, hid⟩ := List.mem_map.mp hexecuted'
      obtain ⟨r', place', claimed', hhas', hmem⟩ := h.executed x hx
      obtain rfl := claimed_once h.inv hhas'.2 hrequest hmem (hsub.subset hc) hid
      rw [hhas'.1] at hfresh
      cases hfresh

theorem Carried.step (h : Carried s) (hstep : site d args s e = some t) : Carried t := by
  cases site_step hstep with
  | control event hcontrol hprocesses hanswered hexecuted =>
      refine h.shrink (commands_step hcontrol) hanswered hexecuted fun place phase hphase =>
        .inr ⟨phase, ?_, List.Sublist.refl _, by rw [hprocesses]⟩
      rw [hprocesses] at hphase
      exact hphase
  | launch rng clock hmain hcontrol hanswered hexecuted =>
      refine h.shrink (.inl (by rw [hcontrol])) hanswered hexecuted fun place phase hphase => .inl ?_
      obtain ⟨u, hu, rfl⟩ := Option.map_eq_some_iff.mp hphase
      obtain ⟨p, hp, hunit⟩ := Option.bind_eq_some_iff.mp hu
      have hstarted := Robot.main_started hmain p (List.mem_of_getElem? hp)
      rw [(hstarted.units u (List.mem_of_getElem? hunit)).2]
      rfl
  | robots worker label hown hfleet hcontrol hanswered hexecuted =>
      exact h.robots hown hfleet hcontrol hanswered hexecuted
  | respond place r draws robot_id claimed hrequest hrobot hfresh hfleet hcontrol hanswered hexecuted =>
      exact h.respond hrequest hrobot hfresh hfleet hcontrol hanswered hexecuted

theorem carried_start (F : Type*) (now : ℚ) (users : List Auth.User) : Carried (Site.start F now users) where
  inv := Command.inv_init
  pending := fun place phase hphase => by cases hphase
  executed := fun x hx => absurd hx List.not_mem_nil
  nodup := List.nodup_nil
  fresh := fun place phase hphase => by cases hphase

end Once

section Results

variable [Floats F] {d : Auth.Deployment} {args : Args F} {s t : Site F} {es : List (SiteEvent F)}

theorem exec_control (hrun : exec (site d args) s es = some t) :
    exec (control d) s.control (es.filterMap SiteEvent.control?) = some t.control := by
  induction es generalizing s with
  | nil =>
      cases hrun
      rfl
  | cons e es ih =>
      obtain ⟨u, hu, hrest⟩ := (exec_cons_iff s t e es).mp hrun
      have hlater := ih hrest
      cases site_step hu with
      | control event hcontrol =>
          exact (exec_cons_iff _ _ _ _).mpr ⟨_, hcontrol, hlater⟩
      | launch rng clock hmain hcontrol =>
          rw [hcontrol] at hlater
          exact hlater
      | robots worker label hown hfleet hcontrol =>
          rw [hcontrol] at hlater
          exact hlater
      | respond place r draws robot_id claimed hrequest hrobot hfresh hfleet hcontrol =>
          rw [hcontrol] at hlater
          exact hlater

-- Nobody presents a signature that was not given here.
def Unforging (d : Auth.Deployment) (s : Site F) (e : SiteEvent F) : Prop :=
  ∀ event, e.control? = some event → Unforged d s.control event

theorem unforged_control (hunforged : Along (site d args) (Unforging d) s es)
    (hrun : exec (site d args) s es = some t) :
    Along (control d) (Unforged d) s.control (es.filterMap SiteEvent.control?) := by
  induction es generalizing s with
  | nil => trivial
  | cons e es ih =>
      obtain ⟨u, hu, hrest⟩ := (exec_cons_iff s t e es).mp hrun
      have hlater := ih (hunforged.2 u hu) hrest
      cases site_step hu with
      | control event hcontrol =>
          exact along_cons hcontrol (hunforged.1 event rfl) hlater
      | launch rng clock hmain hcontrol =>
          rw [hcontrol] at hlater
          exact hlater
      | robots worker label hown hfleet hcontrol =>
          rw [hcontrol] at hlater
          exact hlater
      | respond place r draws robot_id claimed hrequest hrobot hfresh hfleet hcontrol =>
          rw [hcontrol] at hlater
          exact hlater

-- Whatever the operators, the robots, the backend and the network do, and however often the
-- simulator is started again: no command is executed twice, by one robot or by two, and whatever a
-- robot executes was ordered for it by someone who may.
theorem executions_authorised (hideal : d.jwt.Ideal) (hsign : ∀ payload, Auth.Hex (d.sign payload))
    (hmode : d.settings.auth_required = true) {now : ℚ} (hnow : 0 ≤ now) {users : List Auth.User}
    (hunforged : Along (site d args) (Unforging d) (.start F now users) es)
    (hrun : exec (site d args) (.start F now users) es = some t) :
    (t.executed.map fun x => x.2.id).Nodup ∧
    ∀ x ∈ t.executed, ∃ row, t.control.commands.db.committed x.2.id = some row ∧ row.robot_id.val = x.1 ∧
      row.command_type.val = x.2.command_type ∧ row.payload = x.2.payload ∧
      Authorised d (.start now users) (es.filterMap SiteEvent.control?) row := by
  have hcarried : Carried t :=
    exec_invariant (fun _ _ _ h hstep => h.step hstep) (carried_start F now users) hrun
  refine ⟨hcarried.nodup, fun x hx => ?_⟩
  obtain ⟨r, place, claimed, hhas, hmem⟩ := hcarried.executed x hx
  have hcontrol := exec_control hrun
  obtain ⟨row, hrow, hrobot, htype, hpayload⟩ := claimed_row hcontrol hhas.2 x.2 hmem
  exact ⟨row, hrow, hrobot, htype, hpayload, row_authorised hideal hsign hmode hnow
    (unforged_control hunforged hrun) hcontrol hrow⟩

end Results

section Example

open Robot (rolls eq_some_getD)

def sevenRobots : Args ℚ := ⟨7, 1, some "key", 30⟩

def resume : ClaimedCommand := ⟨3, "RESUME", none⟩

-- The seventh robot wakes, claims, and works through the one command.
def launched : List (Process ℚ) := [Robot.main_async sevenRobots Robot.worn (fun _ => 1000) 0 1]

def awake : List (Process ℚ) := (fleet_step 30 launched (0, .robot 6 (.wake 1062) rolls)).getD []

def claimedBy : List (Process ℚ) :=
  (fleet_step 30 awake (0, .robot 6 (.claimed (some [resume])) rolls)).getD []

def acknowledged : List (Process ℚ) := (fleet_step 30 claimedBy (0, .robot 6 .returned rolls)).getD []

def resumed : List (Process ℚ) := (fleet_step 30 acknowledged (0, .robot 6 .returned rolls)).getD []

def robotEvents : List (SiteEvent ℚ) :=
  [.launch Robot.worn fun _ => 1000, .robots 0 (.robot 6 (.wake 1062) rolls), .respond (0, 6) 1 rolls,
    .robots 0 (.robot 6 .returned rolls), .robots 0 (.robot 6 .returned rolls)]

theorem robotEvents_run (d : Auth.Deployment) (u : Control)
    (hclaim : u.commands.requests 1 = some (.claim 7 (.returned [resume]))) :
    ∃ t, exec (site d sevenRobots) ⟨u, [], fun _ => none, []⟩ robotEvents = some t ∧
      t.executed.map (fun x => (x.1, x.2.id)) = [(7, 3)] := by
  have hlaunch : Robot.main sevenRobots Robot.worn (fun _ => 1000) = some launched := rfl
  have hwake : fleet_step 30 launched (0, .robot 6 (.wake 1062) rolls) = some awake :=
    eq_some_getD _ (by decide +kernel)
  have hrespond : fleet_step 30 awake (0, .robot 6 (.claimed (some [resume])) rolls) = some claimedBy :=
    eq_some_getD _ (by decide +kernel)
  have hfirst : fleet_step 30 claimedBy (0, .robot 6 .returned rolls) = some acknowledged :=
    eq_some_getD _ (by decide +kernel)
  have hsecond : fleet_step 30 acknowledged (0, .robot 6 .returned rolls) = some resumed :=
    eq_some_getD _ (by decide +kernel)
  have hrobot : robotAt awake (0, 6) = some 7 := by decide +kernel
  have hnone : (execution claimedBy 0 (.robot 6 .returned rolls)).isNone = true := by decide +kernel
  have hsome : (execution acknowledged 0 (.robot 6 .returned rolls)).map (fun x => (x.1, x.2.id)) =
      some (7, 3) := by decide +kernel
  obtain ⟨x, hx, hids⟩ := Option.map_eq_some_iff.mp hsome
  rw [Option.isNone_iff_eq_none] at hnone
  have hambient : sevenRobots.ambient = 30 := rfl
  -- one event after the other
  have hlaunched : site d sevenRobots ⟨u, [], fun _ => none, []⟩ (.launch Robot.worn fun _ => 1000) =
      some ⟨u, launched, fun _ => none, []⟩ := by simp [site, hlaunch]
  have hawake : site d sevenRobots ⟨u, launched, fun _ => none, []⟩
      (.robots 0 (.robot 6 (.wake 1062) rolls)) = some ⟨u, awake, fun _ => none, []⟩ := by
    simp [site, responds, execution, hambient, hwake]
  have hclaimed : site d sevenRobots ⟨u, awake, fun _ => none, []⟩ (.respond (0, 6) 1 rolls) =
      some ⟨u, claimedBy, Function.update (fun _ => none) 1 (some (0, 6)), []⟩ := by
    simp [site, hclaim, hrobot, hambient, hrespond]
  have hacknowledged : ∀ answered, site d sevenRobots ⟨u, claimedBy, answered, []⟩
      (.robots 0 (.robot 6 .returned rolls)) = some ⟨u, acknowledged, answered, []⟩ := by
    simp [site, responds, hambient, hfirst, hnone]
  have hresumed : ∀ answered, site d sevenRobots ⟨u, acknowledged, answered, []⟩
      (.robots 0 (.robot 6 .returned rolls)) = some ⟨u, resumed, answered, [x]⟩ := by
    simp [site, responds, hambient, hsecond, hx]
  have hrun : exec (site d sevenRobots) ⟨u, [], fun _ => none, []⟩ robotEvents =
      some ⟨u, resumed, Function.update (fun _ => none) 1 (some (0, 6)), [x]⟩ :=
    (exec_cons_iff _ _ _ _).mpr ⟨_, hlaunched, (exec_cons_iff _ _ _ _).mpr ⟨_, hawake,
      (exec_cons_iff _ _ _ _).mpr ⟨_, hclaimed, (exec_cons_iff _ _ _ _).mpr ⟨_, hacknowledged _,
        (exec_cons_iff _ _ _ _).mpr ⟨_, hresumed _, rfl⟩⟩⟩⟩⟩
  exact ⟨_, hrun, congrArg (fun y => [y]) hids⟩

-- A run of the control alone.
theorem exec_site_control [Floats F] {d : Auth.Deployment} {args : Args F} {s : Site F} {u : Control}
    {events : List ControlEvent} (hrun : exec (control d) s.control events = some u) :
    exec (site d args) s (events.map .control) = some { s with control := u } := by
  induction events generalizing s with
  | nil =>
      cases hrun
      rfl
  | cons event events ih =>
      obtain ⟨v, hv, hrest⟩ := (exec_cons_iff _ _ _ _).mp hrun
      have hstep : site d args s (.control event) = some { s with control := v } := by simp [site, hv]
      exact (exec_cons_iff _ _ _ _).mpr ⟨_, hstep, ih (s := { s with control := v }) hrest⟩

theorem unforging_control [Floats F] {d : Auth.Deployment} {args : Args F} {s : Site F}
    {events : List ControlEvent} {rest : List (SiteEvent F)}
    (hunforged : Along (control d) (Unforged d) s.control events)
    (hrest : ∀ e ∈ rest, e.control? = none) :
    Along (site d args) (Unforging d) s (events.map .control ++ rest) := by
  induction events generalizing s with
  | nil =>
      refine along_of_forall (fun u e he event hevent => ?_) s
      rw [hrest e he] at hevent
      cases hevent
  | cons event events ih =>
      refine ⟨fun other hother => ?_, fun t ht => ?_⟩
      · cases hother
        exact hunforged.1
      · obtain ⟨u, hu, rfl⟩ := Option.map_eq_some_iff.mp ht
        exact ih (hunforged.2 u hu)

theorem executions_authorised_first : ∃ t : Site ℚ,
    exec (site Auth.plainDeployment sevenRobots) (.start ℚ 1000 [Auth.operatorUser])
      (firstEvents.map SiteEvent.control ++ robotEvents) = some t ∧
    t.executed.map (fun x => (x.1, x.2.id)) = [(7, 3)] ∧
    ∀ x ∈ t.executed, ∃ row, t.control.commands.db.committed x.2.id = some row ∧ row.robot_id.val = x.1 ∧
      Authorised Auth.plainDeployment (.start 1000 [Auth.operatorUser])
        ((firstEvents.map SiteEvent.control ++ robotEvents).filterMap SiteEvent.control?) row := by
  obtain ⟨u, hcalls, hclaim⟩ := firstCalls_run
  have hfirst := firstEvents_run hcalls
  have hcontrol : exec (site Auth.plainDeployment sevenRobots) (.start ℚ 1000 [Auth.operatorUser])
      (firstEvents.map SiteEvent.control) = some ⟨⟨orderedConsole, u⟩, [], fun _ => none, []⟩ :=
    exec_site_control hfirst
  obtain ⟨t, hrobots, hexecuted⟩ := robotEvents_run Auth.plainDeployment ⟨orderedConsole, u⟩ hclaim
  have hrun := (exec_append_iff _ _ _ _).mpr ⟨_, hcontrol, hrobots⟩
  obtain ⟨-, hauthorised⟩ := executions_authorised Auth.plainJwt_ideal Auth.plain_hex (by decide)
    (by norm_num) (unforging_control firstEvents_unforged (by simp [robotEvents, SiteEvent.control?])) hrun
  refine ⟨t, hrun, hexecuted, fun x hx => ?_⟩
  obtain ⟨row, hrow, hrobot, -, -, horder⟩ := hauthorised x hx
  exact ⟨row, hrow, hrobot, horder⟩

end Example

end FleetOps.Platform
