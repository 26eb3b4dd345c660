import Mathlib.Data.List.Sort
import FleetOps.Library.Runs
import FleetOps.Robot.Simulator

namespace FleetOps.Robot

open FleetOps.Command Floats Runs

variable {F : Type*} [Floats F]

section Loop

namespace RobotState

variable (robot : RobotState F)

-- A blackout that lasts or starts; the flag is the turn's `is_blacked_out`.
def blackout (now : F) (d : Draws F) : RobotState F × Bool :=
  let blackout_chance := 0.0015 + ((100.0 - robot.network_health) / 100.0) * 0.008
  if lt now robot.blackout_until then (robot, true)
  else if robot.status = .DEAD ∨ robot.status = .STOPPED then (robot, false)
  else if lt d.blackout_roll blackout_chance then
    ({ robot with blackout_until := now + d.blackout_duration }, true)
  else (robot, false)

-- The tick after the commands: death, a stop, or the physics.
def judge (ambient_c : F) (turn : Turn F) (d : Draws F) : RobotState F × Phase F :=
  if robot.is_dead then
    let robot := robot.shutdown turn.now
    if turn.is_blacked_out then (robot.repair ambient_c turn.now d, .asleep)
    else (robot, .emitting_dead turn)
  else if robot.status = .STOPPED then robot.emit turn
  else robot.physics ambient_c turn d

-- `for cmd_obj in data`, up to the next PATCH.
def next_command (ambient_c : F) (turn : Turn F) (d : Draws F) :
    List ClaimedCommand → RobotState F × Phase F
  | [] => robot.judge ambient_c turn d
  | cmd_obj :: data =>
      if cmd_obj.id ∈ robot.processed_command_ids then (robot, .patching turn data)
      else
        ({ robot with
            processed_command_ids := remember robot.processed_command_ids cmd_obj.id },
          .acknowledging turn cmd_obj data)

-- The top of the loop.
def wake (viewers_active : Bool) (ambient_c now : F) (d : Draws F) : RobotState F × Phase F :=
  let dt := clamp (now - robot.last_update_s) 0.1 2.5
  let (robot, is_blacked_out) := ({ robot with last_update_s := now } : RobotState F).blackout now d
  let turn := { now, dt, is_blacked_out }
  if viewers_active then (robot, .claiming turn) else robot.judge ambient_c turn d

end RobotState

-- What a robot's loop meets: its sleep ends, its claim is answered with commands or fails in
-- some way, any other await returns, it is cancelled.
inductive Event (F : Type*) where
  | wake (now : F)
  | claimed (data : Option (List ClaimedCommand))
  | returned
  | cancelled

def advance (viewers_active : Bool) (ambient_c : F) (d : Draws F) (robot : RobotState F) :
    Phase F → Event F → Option (RobotState F × Phase F)
  | .ended, _ => none
  | _, .cancelled => some (robot, .ended)
  | .asleep, .wake now => some (robot.wake viewers_active ambient_c now d)
  | .claiming turn, .claimed data => some (robot.next_command ambient_c turn d (data.getD []))
  | .acknowledging turn cmd_obj data, .returned => some (robot, .executing turn cmd_obj data)
  | .executing turn cmd_obj data, .returned =>
      some (robot.execute cmd_obj.command_type, .patching turn data)
  | .patching turn data, .returned => some (robot.next_command ambient_c turn d data)
  | .emitting_dead turn, .returned => some (robot.repair ambient_c turn.now d, .asleep)
  | .emitting_hot turn, .returned => some (robot.clear_mission.overheating_rest ambient_c turn d)
  | .emitting_done turn, .returned => some (robot, .announcing turn)
  | .announcing turn, .returned => some (robot.completed ambient_c turn d)
  | .fencing turn, .returned => some (robot.settle turn)
  | .emitting, .returned => some (robot, .asleep)
  | _, _ => none

end Loop

section Dispatcher

-- A robot with its loop.
structure Machine (F : Type*) where
  robot : RobotState F
  phase : Phase F

def Machine.assign (mission : Mission F) (now : F) (u : Machine F) : Machine F :=
  { u with robot := u.robot.assign_mission mission now }

-- The way from a robot to the first step of a mission.
def way (units : List (Machine F)) (mission : Mission F) (i : Nat) : Option F :=
  units[i]?.map fun u =>
    let first := mission.steps.head mission.steps_nonempty
    hypot (first.x - u.robot.x) (first.y - u.robot.y)

def nearer (units : List (Machine F)) (mission : Mission F) (i j : Nat) : Bool :=
  match way units mission i, way units mission j with
  | some a, some b => !lt b a
  | _, _ => true

def candidates (units : List (Machine F)) : List Nat :=
  (List.range units.length).filter fun i => units[i]?.any fun u => u.robot.candidate

-- One turn of `for mission in list(queue)`; no two missions have one id.
def offer (now : F) (s : List (Machine F) × List (Mission F)) (mission : Mission F) :
    List (Machine F) × List (Mission F) :=
  match (candidates s.1).mergeSort (nearer s.1 mission) with
  | [] => s
  | selected :: _ =>
      (s.1.modify selected (Machine.assign mission now),
        s.2.eraseP fun other => other.mission_id == mission.mission_id)

theorem mem_candidates {units : List (Machine F)} {j : Nat} :
    j ∈ candidates units ↔ ∃ v, units[j]? = some v ∧ v.robot.candidate = true := by
  simp only [candidates, List.mem_filter, List.mem_range, Option.any_eq_true]
  constructor
  · rintro ⟨-, v, hv, hcandidate⟩
    exact ⟨v, hv, hcandidate⟩
  · rintro ⟨v, hv, hcandidate⟩
    obtain ⟨hlt, -⟩ := List.getElem?_eq_some_iff.mp hv
    exact ⟨hlt, v, hv, hcandidate⟩

-- An offer is for a candidate, if there is one.
theorem offer_cases (now : F) (s : List (Machine F) × List (Mission F)) (mission : Mission F) :
    offer now s mission = s ∨ ∃ selected u, s.1[selected]? = some u ∧ u.robot.candidate = true ∧
      offer now s mission = (s.1.modify selected (Machine.assign mission now),
        s.2.eraseP fun other => other.mission_id == mission.mission_id) := by
  simp only [offer]
  split
  · exact .inl rfl
  · rename_i selected others hsorted
    have hmem : selected ∈ (candidates s.1).mergeSort (nearer s.1 mission) := by simp [hsorted]
    obtain ⟨u, hu, hcandidate⟩ := mem_candidates.mp (List.mem_mergeSort.mp hmem)
    exact .inr ⟨selected, u, hu, hcandidate, rfl⟩

end Dispatcher

section System

structure Simulation (F : Type*) where
  units : List (Machine F)
  queue : List (Mission F)
  mission_counter : Nat
  viewers_active : Bool

-- `viewer_watch_loop` writes `viewer_state.active`.
inductive SimulationLabel (F : Type*) where
  | robot (i : Nat) (event : Event F) (d : Draws F)
  | dispatch (now : F) (plan : Plan F)
  | viewers (active : Bool)

namespace Simulation

def dispatch (s : Simulation F) (now : F) (plan : Plan F) : Simulation F :=
  let (queue, mission_counter) :=
    if s.queue.length < 4 then (s.queue ++ [build_mission s.mission_counter plan], s.mission_counter + 1)
    else (s.queue, s.mission_counter)
  let (units, rest) := queue.foldl (offer now) (s.units, queue)
  { s with units, queue := rest, mission_counter }

def step (ambient_c : F) (s : Simulation F) : SimulationLabel F → Option (Simulation F)
  | .robot i event d =>
      s.units[i]?.bind fun u =>
        (advance s.viewers_active ambient_c d u.robot u.phase event).map fun next =>
          { s with units := s.units.set i ⟨next.1, next.2⟩ }
  | .dispatch now plan => some (s.dispatch now plan)
  | .viewers active => some { s with viewers_active := active }

end Simulation

end System

end FleetOps.Robot
