import FleetOps.Robot.Simulation

namespace FleetOps.Robot

open FleetOps.Command Floats Runs

variable {F : Type*} [Floats F]

section Statement

variable {ambient_c : F} {i : Nat} {s t : Simulation F} {l : SimulationLabel F}

def Phase.executes (cmd_action : String) : Phase F → Bool
  | .executing _ cmd_obj _ => cmd_obj.command_type == cmd_action
  | _ => false

-- The step on which robot `i` executes a claimed command.
def executes (i : Nat) (cmd_action : String) (s : Simulation F) : SimulationLabel F → Bool
  | .robot j .returned _ => j == i && s.units[i]?.any fun u => u.phase.executes cmd_action
  | _ => false

-- A command that ends an emergency stop.
def releases (i : Nat) (s : Simulation F) (l : SimulationLabel F) : Bool :=
  executes i "RESUME" s l || executes i "RETURN_TO_BASE" s l

-- From an executed EMERGENCY_STOP on, as long as nothing releases the robot, it stays where it
-- is and has no mission.
def StopHolds (ambient_c : F) (i : Nat) (start : Simulation F) (run : List (SimulationLabel F)) : Prop :=
  ∀ before stop during rest s t u v, run = before ++ stop :: (during ++ rest) →
    exec (Simulation.step ambient_c) start before = some s → executes i "EMERGENCY_STOP" s stop = true →
    exec (Simulation.step ambient_c) s (stop :: during) = some t →
    Along (Simulation.step ambient_c) (fun w l => releases i w l = false) s (stop :: during) →
    s.units[i]? = some u → t.units[i]? = some v →
    v.robot.x = u.robot.x ∧ v.robot.y = u.robot.y ∧ v.robot.mission = none

-- The robot is not beyond the limits at which it shuts down when it executes the stop.
def Spared (i : Nat) (s : Simulation F) (l : SimulationLabel F) : Prop :=
  executes i "EMERGENCY_STOP" s l = true → (s.units[i]?.all fun u => !u.robot.is_dead) = true

omit [Floats F] in
theorem executes_iff {cmd_action : String} :
    executes i cmd_action s l = true ↔ ∃ u turn cmd_obj data d, s.units[i]? = some u ∧
      u.phase = .executing turn cmd_obj data ∧ cmd_obj.command_type = cmd_action ∧
      l = .robot i .returned d := by
  constructor
  · intro h
    cases l with
    | robot j event d =>
        cases event with
        | returned =>
            simp only [executes, Bool.and_eq_true, beq_iff_eq, Option.any_eq_true] at h
            obtain ⟨rfl, u, hu, hphase⟩ := h
            obtain ⟨robot, phase⟩ := u
            cases phase with
            | executing turn cmd_obj data =>
                exact ⟨_, turn, cmd_obj, data, d, hu, rfl, beq_iff_eq.mp hphase, rfl⟩
            | _ => cases hphase
        | _ => cases h
    | _ => cases h
  · rintro ⟨u, turn, cmd_obj, data, d, hu, hphase, rfl, rfl⟩
    simp [executes, hu, hphase, Phase.executes]

end Statement

section Parked

-- The phases that are left while a robot is stopped.
def Phase.idle : Phase F → Bool
  | .emitting_dead _ | .emitting_hot _ | .emitting_done _ | .announcing _ | .fencing _ => false
  | _ => true

structure Parked (x y : F) (u : Machine F) : Prop where
  stopped : u.robot.status = .STOPPED
  alive : u.robot.is_dead = false
  mission : u.robot.mission = none
  x : u.robot.x = x
  y : u.robot.y = y
  idle : u.phase.idle = true

variable {x y : F} {robot : RobotState F} {phase : Phase F}

theorem parked_judge (ambient_c : F) (turn : Turn F) (d : Draws F) (h : Parked x y ⟨robot, phase⟩) :
    Parked x y ⟨(robot.judge ambient_c turn d).1, (robot.judge ambient_c turn d).2⟩ := by
  have halive : robot.is_dead = false := h.alive
  have hstopped : robot.status = .STOPPED := h.stopped
  have hjudge : robot.judge ambient_c turn d = robot.emit turn := by
    simp [RobotState.judge, halive, hstopped]
  rw [hjudge]
  refine ⟨h.stopped, h.alive, h.mission, h.x, h.y, ?_⟩
  cases hblack : turn.is_blacked_out <;> simp [RobotState.emit, hblack, Phase.idle]

theorem parked_next_command (ambient_c : F) (turn : Turn F) (d : Draws F) (data : List ClaimedCommand)
    (h : Parked x y ⟨robot, phase⟩) :
    Parked x y ⟨(robot.next_command ambient_c turn d data).1,
      (robot.next_command ambient_c turn d data).2⟩ := by
  cases data with
  | nil => exact parked_judge ambient_c turn d h
  | cons cmd_obj data =>
      simp only [RobotState.next_command]
      split
      · exact ⟨h.stopped, h.alive, h.mission, h.x, h.y, rfl⟩
      · exact ⟨h.stopped, h.alive, h.mission, h.x, h.y, rfl⟩

theorem blackout_of_stopped (robot : RobotState F) (now : F) (d : Draws F)
    (h : robot.status = .STOPPED) :
    (robot.blackout now d).1 = robot := by
  rw [RobotState.blackout]
  split
  · rfl
  · rw [if_pos (Or.inr h)]

theorem parked_wake (viewers_active : Bool) (ambient_c now : F) (d : Draws F)
    (h : Parked x y ⟨robot, phase⟩) :
    Parked x y ⟨(robot.wake viewers_active ambient_c now d).1,
      (robot.wake viewers_active ambient_c now d).2⟩ := by
  have hsame := blackout_of_stopped { robot with last_update_s := now } now d h.stopped
  have hparked : Parked x y ⟨{ robot with last_update_s := now }, phase⟩ :=
    ⟨h.stopped, h.alive, h.mission, h.x, h.y, h.idle⟩
  simp only [RobotState.wake, hsame]
  split
  · exact ⟨h.stopped, h.alive, h.mission, h.x, h.y, rfl⟩
  · exact parked_judge ambient_c _ d hparked

-- Executing a stop parks a robot that is alive, and what is no command of the three does nothing.
theorem parked_execute (robot : RobotState F) (turn : Turn F) (data : List ClaimedCommand)
    (halive : robot.is_dead = false) :
    Parked robot.x robot.y ⟨robot.execute "EMERGENCY_STOP", .patching turn data⟩ :=
  ⟨rfl, halive, rfl, rfl, rfl, rfl⟩

theorem parked_advance {viewers_active : Bool} {ambient_c : F} {d : Draws F} {event : Event F}
    {next : RobotState F × Phase F} (h : Parked x y ⟨robot, phase⟩)
    (hcommand : ∀ turn cmd_obj data, phase = .executing turn cmd_obj data → event = .returned →
      cmd_obj.command_type ≠ "RESUME" ∧ cmd_obj.command_type ≠ "RETURN_TO_BASE")
    (hstep : advance viewers_active ambient_c d robot phase event = some next) :
    Parked x y ⟨next.1, next.2⟩ := by
  have hended : Parked x y ⟨robot, .ended⟩ := ⟨h.stopped, h.alive, h.mission, h.x, h.y, rfl⟩
  cases event with
  | cancelled =>
      cases phase <;> cases hstep <;> exact hended
  | wake now =>
      cases phase <;> cases hstep
      exact parked_wake viewers_active ambient_c now d h
  | claimed data =>
      cases phase <;> cases hstep
      exact parked_next_command ambient_c _ d _ h
  | returned =>
      cases phase with
      | acknowledging turn cmd_obj data =>
          cases hstep
          exact ⟨h.stopped, h.alive, h.mission, h.x, h.y, rfl⟩
      | executing turn cmd_obj data =>
          cases hstep
          obtain ⟨hresume, hreturn⟩ := hcommand turn cmd_obj data rfl rfl
          by_cases hstop : cmd_obj.command_type = "EMERGENCY_STOP"
          · have hparked := parked_execute robot turn data h.alive
            rw [hstop]
            exact ⟨hparked.stopped, hparked.alive, hparked.mission, hparked.x.trans h.x,
              hparked.y.trans h.y, rfl⟩
          · rw [RobotState.execute, if_neg hreturn, if_neg hstop, if_neg hresume]
            exact ⟨h.stopped, h.alive, h.mission, h.x, h.y, rfl⟩
      | patching turn data =>
          cases hstep
          exact parked_next_command ambient_c turn d data h
      | emitting =>
          cases hstep
          exact ⟨h.stopped, h.alive, h.mission, h.x, h.y, rfl⟩
      | asleep | claiming | ended => cases hstep
      | emitting_dead | emitting_hot | emitting_done | announcing | fencing =>
          exact absurd h.idle (by simp [Phase.idle])

end Parked

section Dispatcher

variable {i : Nat} {u : Machine F}

-- The dispatcher changes nobody but candidates.
theorem offer_other (now : F) {s : List (Machine F) × List (Mission F)} (mission : Mission F)
    (hu : s.1[i]? = some u) (hrefuses : u.robot.candidate = false) :
    (offer now s mission).1[i]? = some u := by
  rcases offer_cases now s mission with hsame | ⟨selected, v, hv, hcandidate, hoffer⟩
  · rw [hsame]
    exact hu
  · have hne : selected ≠ i := by
      rintro rfl
      rw [hu] at hv
      cases hv
      rw [hrefuses] at hcandidate
      cases hcandidate
    simp [hoffer, hne, hu]

theorem dispatch_other {s : Simulation F} (now : F) (plan : Plan F) (hu : s.units[i]? = some u)
    (hrefuses : u.robot.candidate = false) : (s.dispatch now plan).units[i]? = some u := by
  have hfold : ∀ (missions : List (Mission F)) (r : List (Machine F) × List (Mission F)),
      r.1[i]? = some u → (missions.foldl (offer now) r).1[i]? = some u := by
    intro missions
    induction missions with
    | nil => exact fun r hr => hr
    | cons mission missions ih => exact fun r hr => ih _ (offer_other now mission hr hrefuses)
  simp only [Simulation.dispatch]
  exact hfold _ _ hu

theorem Parked.refuses {x y : F} (h : Parked x y u) : u.robot.candidate = false := by
  simp [RobotState.candidate, h.stopped]

end Dispatcher

section Runs

variable {ambient_c : F} {i : Nat} {s t : Simulation F} {l : SimulationLabel F} {x y : F}

def ParkedAt (i : Nat) (x y : F) (s : Simulation F) : Prop := ∃ u, s.units[i]? = some u ∧ Parked x y u

theorem parked_step (hheld : releases i s l = false) (h : ParkedAt i x y s)
    (hstep : s.step ambient_c l = some t) : ParkedAt i x y t := by
  obtain ⟨u, hu, hparked⟩ := h
  cases l with
  | dispatch now plan =>
      cases hstep
      exact ⟨u, dispatch_other now plan hu hparked.refuses, hparked⟩
  | viewers active =>
      cases hstep
      exact ⟨u, hu, hparked⟩
  | robot j event d =>
      obtain ⟨v, hv, hnext⟩ := Option.bind_eq_some_iff.mp hstep
      obtain ⟨next, hadvance, rfl⟩ := Option.map_eq_some_iff.mp hnext
      by_cases hj : j = i
      · subst hj
        rw [hu] at hv
        cases hv
        obtain ⟨hlt, -⟩ := List.getElem?_eq_some_iff.mp hu
        refine ⟨⟨next.1, next.2⟩, by simp [hlt], parked_advance hparked ?_ hadvance⟩
        rintro turn cmd_obj data hphase rfl
        rw [releases, Bool.or_eq_false_iff] at hheld
        constructor <;> intro hcommand
        · exact Bool.eq_false_iff.mp hheld.1
            (executes_iff.mpr ⟨u, turn, cmd_obj, data, d, hu, hphase, hcommand, rfl⟩)
        · exact Bool.eq_false_iff.mp hheld.2
            (executes_iff.mpr ⟨u, turn, cmd_obj, data, d, hu, hphase, hcommand, rfl⟩)
      · exact ⟨u, by simp [hj, hu], hparked⟩

theorem parked_of_stop {u : Machine F} (hstop : executes i "EMERGENCY_STOP" s l = true)
    (hu : s.units[i]? = some u) (halive : u.robot.is_dead = false)
    (hstep : s.step ambient_c l = some t) : ParkedAt i u.robot.x u.robot.y t := by
  obtain ⟨v, turn, cmd_obj, data, d, hv, hphase, hcommand, rfl⟩ := executes_iff.mp hstop
  rw [hu] at hv
  cases hv
  obtain ⟨w, hw, hnext⟩ := Option.bind_eq_some_iff.mp hstep
  rw [hu] at hw
  cases hw
  rw [hphase] at hnext
  obtain ⟨next, hadvance, rfl⟩ := Option.map_eq_some_iff.mp hnext
  cases hadvance
  obtain ⟨hlt, -⟩ := List.getElem?_eq_some_iff.mp hu
  refine ⟨⟨u.robot.execute cmd_obj.command_type, .patching turn data⟩, by simp [hlt], ?_⟩
  rw [hcommand]
  exact parked_execute _ turn data halive

theorem stop_holds_of_spared {start : Simulation F} {run : List (SimulationLabel F)}
    (hspared : Along (Simulation.step ambient_c) (Spared i) start run) :
    StopHolds ambient_c i start run := by
  rintro before stop during rest s t u v rfl hbefore hstop hrun hheld hu hv
  obtain ⟨w, hw, hduring⟩ := (exec_cons_iff s t stop during).mp hrun
  have halive : u.robot.is_dead = false := by
    have hall := (hspared.right hbefore).1 hstop
    simpa [hu] using hall
  obtain ⟨v', hv', hparked⟩ := exec_along_invariant
    (fun _ _ _ hc hs hstep => parked_step hc hs hstep) (hheld.2 w hw)
    (parked_of_stop hstop hu halive hw) hduring
  rw [hv] at hv'
  cases hv'
  exact ⟨hparked.x, hparked.y, hparked.mission⟩

-- A robot whose battery ran down on its way to the charging pad.
def exhausted : RobotState ℚ where
  battery := 4
  temperature := 30
  speed := 0
  status := .LOW_POWER
  online := true
  mission := none
  mission_id := none
  mission_progress := none
  mission_start_time := none
  battery_health := 90
  motor_health := 90
  sensor_health := 90
  network_health := 90
  x := 15
  y := 40
  last_update_s := 998
  pause_until_s := 0
  completion_count := 0
  blackout_until := 0
  charging_suspended := false
  dead_since := 0
  returning_to_charge := true
  processed_command_ids := []
  in_fence := false
  fence_cooldown_until := 0

def rolls : Draws ℚ where
  blackout_roll := 1 / 2
  blackout_duration := 15
  repair_delay := 50
  service_age := 1 / 10
  battery_jitter := 1
  motor_jitter := 1
  sensor_jitter := 1
  network_jitter := 1
  speed_jitter := 0
  battery_wear := 1 / 1000
  motor_wear := 1 / 1000
  sensor_wear := 1 / 1000
  network_wear := 1 / 1000
  spike_roll := 1 / 2
  spike := 5

def single (robot : RobotState ℚ) : Simulation ℚ where
  units := [⟨robot, .asleep⟩]
  queue := []
  mission_counter := 1
  viewers_active := true

-- A claim with an emergency stop, up to its execution.
def claimStop : List (SimulationLabel ℚ) :=
  [.robot 0 (.wake 1000) rolls, .robot 0 (.claimed (some [⟨7, "EMERGENCY_STOP", none⟩])) rolls,
    .robot 0 .returned rolls]

-- The shutdown, a minute later the repair, and the dispatcher.
def revive : List (SimulationLabel ℚ) :=
  [.robot 0 .returned rolls, .robot 0 .returned rolls, .robot 0 (.wake 1060) rolls,
    .robot 0 (.claimed (some [])) rolls, .robot 0 .returned rolls,
    .dispatch 1061 (.delivery (15, 50) (15, 60))]

def stopped : Simulation ℚ :=
  (exec (Simulation.step 22) (single exhausted) claimStop).getD (single exhausted)

def revived : Simulation ℚ :=
  (exec (Simulation.step 22) stopped (.robot 0 .returned rolls :: revive)).getD stopped

theorem eq_some_getD {α : Type*} {o : Option α} (a : α) (h : o.isSome = true) : o = some (o.getD a) := by
  cases o with
  | none => cases h
  | some b => rfl

-- The maintenance crew makes a stopped robot active, and the dispatcher sends it out.
theorem not_stop_holds : ¬ ∀ (start : Simulation ℚ) (run : List (SimulationLabel ℚ)),
    StopHolds 22 0 start run := by
  intro h
  have hassigned : (revived.units[0]?.any fun v => v.robot.mission.isSome) = true := by decide +kernel
  obtain ⟨v, hv, hmission⟩ := (Option.any_eq_true _ _).mp hassigned
  obtain ⟨u, hu⟩ := Option.isSome_iff_exists.mp (by decide +kernel : stopped.units[0]?.isSome = true)
  have hholds := h (single exhausted) _ claimStop (.robot 0 .returned rolls) revive [] stopped revived
    u v rfl (eq_some_getD _ (by decide +kernel)) (by decide +kernel)
    (eq_some_getD _ (by decide +kernel)) (by decide +kernel) hu hv
  rw [hholds.2.2] at hmission
  cases hmission

-- With a charged battery the same run leaves the robot where it was stopped.
theorem stop_holds_of_spared_charged :
    StopHolds 22 0 (single { exhausted with battery := 80 })
      (claimStop ++ .robot 0 .returned rolls :: revive) := by
  refine stop_holds_of_spared ?_
  unfold Spared
  decide +kernel

end Runs

end FleetOps.Robot
