import FleetOps.Robot.Simulation

namespace FleetOps.Robot

open FleetOps.Command Floats Runs

variable {F : Type*} [Floats F]

section Tasks

-- What the loops keep of a robot's mission.
structure Task (F : Type*) where
  mission : Option (Mission F)
  mission_id : Option Nat
  mission_progress : Option F
  completion_count : Nat

namespace Task

variable (task : Task F)

def clear : Task F := ⟨none, none, none, task.completion_count⟩

def reach (mission : Mission F) : Task F :=
  { task with
    mission := some { mission with current_step := mission.current_step + 1 }
    mission_progress :=
      some (round1 (min 100.0 (ofNat (mission.current_step + 1) * mission.progress_weight))) }

def complete : Task F :=
  { task with mission_progress := some 100.0, completion_count := task.completion_count + 1 }

end Task

def RobotState.task (robot : RobotState F) : Task F :=
  ⟨robot.mission, robot.mission_id, robot.mission_progress, robot.completion_count⟩

-- The completion of the mission is being reported; it is still the robot's.
def Phase.done : Phase F → Bool
  | .emitting_hot _ | .emitting_done _ | .announcing _ => true
  | _ => false

-- What a stretch of a robot's loop can do to its mission. A mission that is completed in a
-- blackout is gone at once.
inductive Turned (task : Task F) : Task F × Phase F → Prop where
  | kept (phase : Phase F) (hphase : phase.done = false) : Turned task (task, phase)
  | cleared (phase : Phase F) (hphase : phase.done = false) : Turned task (task.clear, phase)
  | reached (mission : Mission F) (phase : Phase F) (hmission : task.mission = some mission)
      (hstep : mission.current_step + 1 < mission.steps.length) (hphase : phase.done = false) :
      Turned task (task.reach mission, phase)
  | reported (mission : Mission F) (phase : Phase F) (hmission : task.mission = some mission)
      (hphase : phase.done = true) : Turned task ((task.reach mission).complete, phase)
  | unreported (mission : Mission F) (phase : Phase F) (hmission : task.mission = some mission)
      (hphase : phase.done = false) : Turned task ((task.reach mission).complete.clear, phase)

-- The result of a stretch, as far as the mission goes.
def outcome (next : RobotState F × Phase F) : Task F × Phase F := (next.1.task, next.2)

namespace RobotState

variable (robot : RobotState F) (ambient_c : F) (turn : Turn F) (d : Draws F)

omit [Floats F] in
theorem emit_outcome : outcome (robot.emit turn) = (robot.task, (robot.emit turn).2) ∧
    (robot.emit turn).2.done = false := by
  refine ⟨rfl, ?_⟩
  simp only [emit]
  split <;> rfl

-- From the fence on the mission is left alone.
theorem settle_outcome : outcome (robot.settle turn) = (robot.task, (robot.settle turn).2) ∧
    (robot.settle turn).2.done = false :=
  emit_outcome _ turn

theorem finish_outcome : outcome (robot.finish turn d) = (robot.task, (robot.finish turn d).2) ∧
    (robot.finish turn d).2.done = false := by
  simp only [finish]
  split
  · split
    · exact ⟨rfl, rfl⟩
    · exact settle_outcome _ turn
  · split
    · exact settle_outcome _ turn
    · exact settle_outcome _ turn

theorem turned_finish {task : Task F} (h : robot.task = task) :
    Turned task (outcome (robot.finish turn d)) := by
  obtain ⟨heq, hphase⟩ := robot.finish_outcome turn d
  rw [heq, h]
  exact .kept _ hphase

theorem turned_finish_clear {task : Task F} (h : robot.task = task.clear) :
    Turned task (outcome (robot.finish turn d)) := by
  obtain ⟨heq, hphase⟩ := robot.finish_outcome turn d
  rw [heq, h]
  exact .cleared _ hphase

-- The last step of a mission completes it, and a blackout leaves nothing to report.
theorem turned_complete {mission : Mission F} {robot' : RobotState F}
    (hmission : robot.mission = some mission) (h : robot'.task = (robot.task.reach mission).complete.clear) :
    Turned robot.task (outcome (robot'.finish turn d)) := by
  obtain ⟨heq, hphase⟩ := robot'.finish_outcome turn d
  rw [heq, h]
  exact .unreported mission _ hmission hphase

theorem turned_reach {mission : Mission F} {robot' : RobotState F}
    (hmission : robot.mission = some mission) (hstep : ¬ mission.steps.length ≤ mission.current_step + 1)
    (h : robot'.task = robot.task.reach mission) : Turned robot.task (outcome (robot'.finish turn d)) := by
  obtain ⟨heq, hphase⟩ := robot'.finish_outcome turn d
  rw [heq, h]
  exact .reached mission _ hmission (Nat.not_le.mp hstep) hphase

theorem turned_overheating : Turned robot.task (outcome (robot.overheating ambient_c turn d)) := by
  simp only [overheating]
  split
  · exact turned_finish _ turn d rfl
  · rename_i mission hmission
    split
    · exact .kept .ended rfl
    · split
      · split
        · split
          · exact turned_complete robot turn d hmission rfl
          · exact .reported mission (.emitting_hot turn) hmission rfl
        · rename_i hstep
          exact turned_reach robot turn d hmission hstep rfl
      · exact turned_finish _ turn d rfl

theorem turned_operate {mission : Mission F} (hmission : robot.mission = some mission) :
    Turned robot.task (outcome (robot.operate mission ambient_c turn d)) := by
  simp only [operate]
  split
  · exact .kept .ended rfl
  · split
    · exact turned_finish _ turn d rfl
    · split
      · split
        · split
          · exact turned_complete robot turn d hmission rfl
          · exact .reported mission (.emitting_done turn) hmission rfl
        · rename_i hstep
          exact turned_reach robot turn d hmission hstep rfl
      · exact turned_finish _ turn d rfl

theorem returning_task : (robot.returning ambient_c turn d).task = robot.task := by
  simp only [returning]
  split <;> rfl

theorem charging_task (dt : F) : (robot.charging ambient_c dt).task = robot.task := by
  simp only [charging]
  split
  · split <;> rfl
  · rfl

-- Low charge ends a mission, and sends the robot back.
theorem low_power_task : robot.low_power.task = robot.task ∨
    robot.low_power.task = robot.task.clear ∧ robot.low_power.returning_to_charge = true := by
  simp only [low_power]
  split
  · split
    · exact .inr ⟨rfl, rfl⟩
    · exact .inl rfl
  · exact .inl rfl

theorem top_up_task : robot.top_up.task = robot.task := by
  simp only [top_up]
  split <;> rfl

theorem top_up_returning (h : robot.returning_to_charge = true) :
    robot.top_up.returning_to_charge = true := by
  simp only [top_up]
  split
  · rfl
  · exact h

theorem turned_physics : Turned robot.task (outcome (robot.physics ambient_c turn d)) := by
  have htop := robot.low_power.top_up_task
  simp only [physics]
  rcases robot.low_power_task with hlow | ⟨hlow, hreturning⟩
  · have htask : robot.low_power.top_up.task = robot.task := htop.trans hlow
    split
    · exact turned_finish _ turn d ((returning_task _ ambient_c turn d).trans htask)
    · split
      · exact turned_finish _ turn d ((charging_task _ ambient_c turn.dt).trans htask)
      · split
        · exact htask ▸ turned_overheating _ ambient_c turn d
        · split
          · rename_i mission hmission
            exact htask ▸ turned_operate _ ambient_c turn d hmission
          · exact turned_finish _ turn d htask
  · rw [if_pos (top_up_returning _ hreturning)]
    exact turned_finish_clear _ turn d ((returning_task _ ambient_c turn d).trans (htop.trans hlow))

theorem shutdown_task (now : F) : (robot.shutdown now).task = robot.task ∨
    (robot.shutdown now).task = robot.task.clear := by
  simp only [shutdown]
  split
  · exact .inl rfl
  · exact .inr rfl

theorem execute_task (cmd_action : String) : (robot.execute cmd_action).task = robot.task ∨
    (robot.execute cmd_action).task = robot.task.clear := by
  simp only [execute]
  split
  · exact .inr rfl
  · split
    · exact .inr rfl
    · split
      · exact .inl rfl
      · exact .inl rfl

theorem repair_task (now : F) : (robot.repair ambient_c now d).task = robot.task := by
  simp only [repair]
  split <;> rfl

theorem turned_of_task {task : Task F} {robot' : RobotState F} {phase : Phase F}
    (h : robot'.task = task ∨ robot'.task = task.clear) (hphase : phase.done = false) :
    Turned task (outcome (robot', phase)) := by
  rcases h with h | h
  · simp only [outcome, h]
    exact .kept phase hphase
  · simp only [outcome, h]
    exact .cleared phase hphase

theorem turned_judge : Turned robot.task (outcome (robot.judge ambient_c turn d)) := by
  simp only [judge]
  split
  · have hshutdown := robot.shutdown_task turn.now
    split
    · refine turned_of_task ?_ rfl
      rw [repair_task]
      exact hshutdown
    · exact turned_of_task hshutdown rfl
  · split
    · obtain ⟨heq, hphase⟩ := robot.emit_outcome turn
      exact heq ▸ .kept _ hphase
    · exact turned_physics robot ambient_c turn d

theorem turned_next_command (data : List ClaimedCommand) :
    Turned robot.task (outcome (robot.next_command ambient_c turn d data)) := by
  cases data with
  | nil => exact turned_judge robot ambient_c turn d
  | cons cmd_obj data =>
      simp only [next_command]
      split
      · exact .kept (.patching turn data) rfl
      · exact .kept (.acknowledging turn cmd_obj data) rfl

theorem blackout_task (now : F) : (robot.blackout now d).1.task = robot.task := by
  simp only [blackout]
  split
  · rfl
  · split
    · rfl
    · split <;> rfl

theorem turned_wake (viewers_active : Bool) (now : F) :
    Turned robot.task (outcome (robot.wake viewers_active ambient_c now d)) := by
  have htask := ({ robot with last_update_s := now } : RobotState F).blackout_task d now
  have hsame : ({ robot with last_update_s := now } : RobotState F).task = robot.task := rfl
  rw [hsame] at htask
  simp only [wake]
  split
  · exact turned_of_task (.inl htask) rfl
  · exact htask ▸ turned_judge _ ambient_c _ d

end RobotState

variable {viewers_active : Bool} {ambient_c : F} {d : Draws F} {robot : RobotState F} {phase : Phase F}
  {event : Event F} {next : RobotState F × Phase F}

theorem cancelled_advance (h : advance viewers_active ambient_c d robot phase .cancelled = some next) :
    next = (robot, .ended) := by
  cases phase with
  | ended => cases h
  | _ => exact (Option.some.inj h).symm

theorem turned_advance (hphase : phase.done = false)
    (h : advance viewers_active ambient_c d robot phase event = some next) :
    Turned robot.task (outcome next) := by
  cases event with
  | cancelled =>
      obtain rfl := cancelled_advance h
      exact .kept .ended rfl
  | wake now =>
      cases phase with
      | asleep =>
          obtain rfl := Option.some.inj h
          exact robot.turned_wake ambient_c d viewers_active now
      | _ => cases h
  | claimed data =>
      cases phase with
      | claiming turn =>
          obtain rfl := Option.some.inj h
          exact robot.turned_next_command ambient_c turn d (data.getD [])
      | _ => cases h
  | returned =>
      cases phase with
      | acknowledging turn cmd_obj data =>
          obtain rfl := Option.some.inj h
          exact .kept (.executing turn cmd_obj data) rfl
      | executing turn cmd_obj data =>
          obtain rfl := Option.some.inj h
          exact RobotState.turned_of_task (robot.execute_task cmd_obj.command_type) rfl
      | patching turn data =>
          obtain rfl := Option.some.inj h
          exact robot.turned_next_command ambient_c turn d data
      | emitting_dead turn =>
          obtain rfl := Option.some.inj h
          exact RobotState.turned_of_task (.inl (robot.repair_task ambient_c d turn.now)) rfl
      | fencing turn =>
          obtain rfl := Option.some.inj h
          obtain ⟨heq, hsettled⟩ := robot.settle_outcome turn
          exact heq ▸ .kept _ hsettled
      | emitting =>
          obtain rfl := Option.some.inj h
          exact .kept .asleep rfl
      | emitting_hot turn | emitting_done turn | announcing turn => cases hphase
      | asleep | claiming turn | ended => cases h

-- Once the completion is reported, the mission goes.
theorem done_advance (hphase : phase.done = true)
    (h : advance viewers_active ambient_c d robot phase event = some next) :
    (next.1.task = robot.task ∧ ∃ turn, next.2 = .announcing turn) ∨
      (next.1.task = robot.task ∧ next.2 = .ended) ∨
      (next.1.task = robot.task.clear ∧ next.2.done = false) := by
  cases event with
  | cancelled =>
      obtain rfl := cancelled_advance h
      exact .inr (.inl ⟨rfl, rfl⟩)
  | wake now =>
      cases phase with
      | emitting_hot turn | emitting_done turn | announcing turn => cases h
      | _ => cases hphase
  | claimed data =>
      cases phase with
      | emitting_hot turn | emitting_done turn | announcing turn => cases h
      | _ => cases hphase
  | returned =>
      cases phase with
      | emitting_hot turn =>
          obtain rfl := Option.some.inj h
          obtain ⟨heq, hfinished⟩ := RobotState.finish_outcome
            ((robot.clear_mission.drain turn.dt).overheating_heat ambient_c turn.dt) turn d
          exact .inr (.inr ⟨congrArg Prod.fst heq, hfinished⟩)
      | emitting_done turn =>
          obtain rfl := Option.some.inj h
          exact .inl ⟨rfl, turn, rfl⟩
      | announcing turn =>
          obtain rfl := Option.some.inj h
          obtain ⟨heq, hfinished⟩ := RobotState.finish_outcome
            ((({ robot.clear_mission with status := .ACTIVE } : RobotState F).drain turn.dt).heat
              ambient_c turn.dt) turn d
          exact .inr (.inr ⟨congrArg Prod.fst heq, hfinished⟩)
      | _ => cases hphase

end Tasks

end FleetOps.Robot
