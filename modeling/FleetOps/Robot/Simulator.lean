import FleetOps.Library.Floats
import FleetOps.Robot.Reports

namespace FleetOps.Robot

open FleetOps.Command Floats

-- The statuses that the simulator gives a robot.
inductive RobotStatus where
  | ACTIVE
  | LOW_POWER
  | CHARGING
  | OVERHEATING
  | STOPPED
  | DEAD
  deriving DecidableEq

inductive MissionType where
  | PATROL
  | DELIVERY
  | INSPECTION
  deriving DecidableEq

structure MissionStep (F : Type*) where
  x : F
  y : F
  pause_s : F

structure Mission (F : Type*) where
  mission_id : Nat
  mission_type : MissionType
  steps : List (MissionStep F)
  progress_weight : F
  current_step : Nat
  steps_nonempty : steps ≠ []

-- The fields that the loops read. The counter of `mission_id` stands for its text.
structure RobotState (F : Type*) where
  battery : F
  temperature : F
  speed : F
  status : RobotStatus
  online : Bool
  mission : Option (Mission F)
  mission_id : Option Nat
  mission_progress : Option F
  mission_start_time : Option F
  battery_health : F
  motor_health : F
  sensor_health : F
  network_health : F
  x : F
  y : F
  last_update_s : F
  pause_until_s : F
  completion_count : Nat
  blackout_until : F
  charging_suspended : Bool
  dead_since : F
  returning_to_charge : Bool
  processed_command_ids : List CommandId
  in_fence : Bool
  fence_cooldown_until : F

-- What the random generator may give in one stretch of a robot's loop.
structure Draws (F : Type*) where
  blackout_roll : F
  blackout_duration : F
  repair_delay : F
  service_age : F
  battery_jitter : F
  motor_jitter : F
  sensor_jitter : F
  network_jitter : F
  speed_jitter : F
  battery_wear : F
  motor_wear : F
  sensor_wear : F
  network_wear : F
  spike_roll : F
  spike : F

-- The points and pauses that `build_mission` draws.
inductive Plan (F : Type*) where
  | patrol (checkpoints : List (F × F))
  | delivery (pickup dropoff : F × F)
  | inspection (first : F × F × F) (others : List (F × F × F))

variable {F : Type*} [Floats F]

section Missions

def base : MissionStep F := ⟨0.0, 0.0, 0.0⟩

def build_mission (mission_id : Nat) : Plan F → Mission F
  | .patrol checkpoints =>
      let steps := (checkpoints.map fun p => ⟨p.1, p.2, 0.0⟩) ++ [base]
      ⟨mission_id, .PATROL, steps, 100.0 / ofNat steps.length, 0, by simp [steps]⟩
  | .delivery pickup dropoff =>
      let steps := [⟨pickup.1, pickup.2, 0.0⟩, ⟨dropoff.1, dropoff.2, 0.0⟩, base]
      ⟨mission_id, .DELIVERY, steps, 100.0 / ofNat steps.length, 0, by simp [steps]⟩
  | .inspection first others =>
      let steps := (first :: others).map fun p => ⟨p.1, p.2.1, p.2.2⟩
      ⟨mission_id, .INSPECTION, steps, 100.0 / ofNat steps.length, 0, by simp [steps]⟩

-- `base.get(mission_type, 1.0)` in `effective_speed`.
def MissionType.base_speed : MissionType → F
  | .PATROL => 1.1
  | .DELIVERY => 1.8
  | .INSPECTION => 0.95

def RETURN_SPEED : F := 1.4

namespace RobotState

variable (robot : RobotState F)

def assign_mission (mission : Mission F) (now : F) : RobotState F :=
  { robot with
    mission := some mission
    mission_id := some mission.mission_id
    mission_progress := some 0.0
    mission_start_time := some now
    status := .ACTIVE
    pause_until_s := 0.0
    returning_to_charge := false }

def clear_mission : RobotState F :=
  { robot with
    mission := none
    mission_id := none
    mission_progress := none
    mission_start_time := none
    pause_until_s := 0.0 }

def effective_speed (base jitter : F) : F :=
  clamp (base * clamp (robot.motor_health / 100.0) 0.45 1.0 + jitter) 0.2 2.2

-- Whom the dispatcher may give a mission.
def candidate : Bool :=
  robot.online &&
    !(robot.status == .DEAD || robot.status == .CHARGING || robot.status == .OVERHEATING ||
      robot.status == .STOPPED) &&
    robot.mission.isNone && !robot.returning_to_charge && lt 20.0 robot.battery

-- What a claimed command does to the robot.
def execute (cmd_action : String) : RobotState F :=
  if cmd_action = "RETURN_TO_BASE" then
    { robot.clear_mission with returning_to_charge := true, status := .ACTIVE, online := true }
  else if cmd_action = "EMERGENCY_STOP" then
    { ({ robot with status := .STOPPED, speed := 0.0 } : RobotState F).clear_mission with
      returning_to_charge := false }
  else if cmd_action = "RESUME" then { robot with status := .ACTIVE, online := true }
  else robot

-- Meltdown and battery exhaustion.
def is_dead : Bool :=
  le robot.battery 5.0 || le 95.0 robot.temperature || lt robot.battery_health 10.0 ||
    lt robot.motor_health 10.0

def shutdown (now : F) : RobotState F :=
  if robot.status = .DEAD then robot
  else
    { ({ robot with status := .DEAD, online := false, speed := 0.0, dead_since := now } :
        RobotState F).clear_mission with returning_to_charge := false }

-- `component` in `initial_component_health`.
def component (age max_wear jitter : F) : F := clamp (100.0 - age * max_wear * jitter) 25.0 100.0

-- The maintenance crew comes 45 to 90 seconds after the shutdown.
def repair (ambient_c now : F) (d : Draws F) : RobotState F :=
  if le d.repair_delay (now - robot.dead_since) then
    { robot with
      battery := 100.0
      temperature := ambient_c
      battery_health := component d.service_age 55.0 d.battery_jitter
      motor_health := component d.service_age 70.0 d.motor_jitter
      sensor_health := component d.service_age 45.0 d.sensor_jitter
      network_health := component d.service_age 40.0 d.network_jitter
      status := .ACTIVE
      online := true
      charging_suspended := false }
  else robot

end RobotState

end Missions

section Physics

-- The locals of one turn of `robot_loop` that outlive an await.
structure Turn (F : Type*) where
  now : F
  dt : F
  is_blacked_out : Bool

-- Where a robot's loop stands: at its top, in one of the awaits of a turn, or ended, because
-- it was cancelled or an exception got out of it.
inductive Phase (F : Type*) where
  | asleep
  | claiming (turn : Turn F)
  | acknowledging (turn : Turn F) (cmd_obj : ClaimedCommand) (data : List ClaimedCommand)
  | executing (turn : Turn F) (cmd_obj : ClaimedCommand) (data : List ClaimedCommand)
  | patching (turn : Turn F) (data : List ClaimedCommand)
  | emitting_dead (turn : Turn F)
  | emitting_hot (turn : Turn F)
  | emitting_done (turn : Turn F)
  | announcing (turn : Turn F)
  | fencing (turn : Turn F)
  | emitting
  | ended

namespace RobotState

variable (robot : RobotState F)

-- `emit_telemetry` reads the robot only; it is awaited unless there is a blackout.
def emit (turn : Turn F) : RobotState F × Phase F :=
  (robot, if turn.is_blacked_out then .asleep else .emitting)

def settle (turn : Turn F) : RobotState F × Phase F :=
  emit
    { robot with
      battery := clamp robot.battery 0.0 100.0
      temperature := clamp robot.temperature 22.0 99.0
      speed := clamp robot.speed 0.0 2.2 } turn

def WEAR_ACCELERATION : F := 6.0

def wear (d : Draws F) : RobotState F :=
  let mission_factor : F := if robot.mission.isSome then 1.3 else 0.5
  { robot with
    battery_health := clamp (robot.battery_health - d.battery_wear * WEAR_ACCELERATION) 10.0 100.0
    motor_health :=
      clamp (robot.motor_health - d.motor_wear * mission_factor * WEAR_ACCELERATION) 10.0 100.0
    sensor_health := clamp (robot.sensor_health - d.sensor_wear * WEAR_ACCELERATION) 10.0 100.0
    network_health := clamp (robot.network_health - d.network_wear * WEAR_ACCELERATION) 10.0 100.0
    temperature := if lt d.spike_roll 0.0025 then robot.temperature + d.spike else robot.temperature }

-- What follows the five branches of the physics: wear and the geofence.
def finish (turn : Turn F) (d : Draws F) : RobotState F × Phase F :=
  let robot := robot.wear d
  let dist_to_fence := hypot (robot.x - 15.0) (robot.y - 10.0)
  if lt dist_to_fence 5.0 && !robot.in_fence then
    let robot := { robot with in_fence := true }
    if le robot.fence_cooldown_until turn.now && !turn.is_blacked_out then
      ({ robot with fence_cooldown_until := turn.now + 45.0 }, .fencing turn)
    else robot.settle turn
  else if lt 7.0 dist_to_fence && robot.in_fence then
    ({ robot with in_fence := false } : RobotState F).settle turn
  else robot.settle turn

def drain (dt : F) : RobotState F :=
  let motor_penalty := 1.0 + ((100.0 - robot.motor_health) / 100.0) * 0.45
  let battery_penalty := 1.0 + ((100.0 - robot.battery_health) / 100.0) * 0.65
  let drain_per_s := (0.008 + 0.014 * robot.speed) * motor_penalty * battery_penalty
  { robot with battery := robot.battery - drain_per_s * dt * 20.0 }

-- Heat under load, in the first and the fourth branch.
def heat (ambient_c dt : F) : RobotState F :=
  let load_heat :=
    0.055 + 0.055 * robot.speed + ((100.0 - robot.motor_health) / 100.0) * 0.035
  let cooling := 0.02 * max 0.0 (robot.temperature - ambient_c)
  { robot with temperature := robot.temperature + (load_heat - cooling) * dt }

def overheating_heat (ambient_c dt : F) : RobotState F :=
  let load_heat := 0.02 + 0.02 * robot.speed
  let cooling := 0.045 * (robot.temperature - ambient_c)
  { robot with temperature := robot.temperature + (load_heat - cooling) * dt }

def move (dx dy dist dt : F) : RobotState F :=
  let step_distance := robot.speed * dt
  { robot with
    x := robot.x + (dx / dist) * step_distance
    y := robot.y + (dy / dist) * step_distance }

-- 1. Returning to charge base
def returning (ambient_c : F) (turn : Turn F) (d : Draws F) : RobotState F :=
  let robot := { robot with status := if le robot.battery 20.0 then .LOW_POWER else .ACTIVE }
  let dx := 0.0 - robot.x
  let dy := 0.0 - robot.y
  let dist := hypot dx dy
  if lt dist 0.5 then
    { robot with returning_to_charge := false, status := .CHARGING, x := 0.0, y := 0.0, speed := 0.0 }
  else
    let target_speed := robot.effective_speed RETURN_SPEED d.speed_jitter
    let robot := { robot with speed := lerp robot.speed target_speed 0.22 }
    ((robot.move dx dy dist turn.dt).drain turn.dt).heat ambient_c turn.dt

-- 2. Charging (with thermal suspension)
def charging (ambient_c dt : F) : RobotState F :=
  let robot := { robot with
    speed := 0.0
    charging_suspended := robot.charging_suspended || le 80.0 robot.temperature }
  if robot.charging_suspended then
    let temperature := robot.temperature - 0.08 * (robot.temperature - ambient_c) * dt
    if le temperature 60.0 then
      { robot with temperature, charging_suspended := false, status := .CHARGING }
    else { robot with temperature, status := .OVERHEATING }
  else
    let charge_rate := 0.35 * clamp (robot.battery_health / 100.0) 0.55 1.0
    let battery := clamp (robot.battery + charge_rate * dt * 10.0) 0.0 100.0
    let charging_heat := 0.12 * (1.0 + (100.0 - robot.battery_health) / 100.0)
    let cooling := 0.035 * (robot.temperature - ambient_c)
    let temperature := robot.temperature + (charging_heat - cooling) * dt
    { robot with
      battery, temperature, status := if le 100.0 battery then .ACTIVE else robot.status }

-- A step of the mission is reached.
def reach (mission : Mission F) : RobotState F :=
  let current_step := mission.current_step + 1
  { robot with
    mission := some { mission with current_step }
    mission_progress :=
      some (round1 (min 100.0 (ofNat current_step * mission.progress_weight))) }

def complete : RobotState F :=
  { robot with completion_count := robot.completion_count + 1, mission_progress := some 100.0 }

def overheating_rest (ambient_c : F) (turn : Turn F) (d : Draws F) : RobotState F × Phase F :=
  ((robot.drain turn.dt).overheating_heat ambient_c turn.dt).finish turn d

-- 3. Overheating operation (speed halved)
def overheating (ambient_c : F) (turn : Turn F) (d : Draws F) : RobotState F × Phase F :=
  let robot := { robot with status := .OVERHEATING }
  match robot.mission with
  | none =>
      finish
        { robot with
          speed := lerp robot.speed 0.0 0.35
          temperature := robot.temperature - 0.06 * (robot.temperature - ambient_c) * turn.dt }
        turn d
  | some mission =>
      match mission.steps[mission.current_step]? with
      | none => (robot, .ended)
      | some step =>
          let dx := step.x - robot.x
          let dy := step.y - robot.y
          let dist := hypot dx dy
          let target_speed :=
            robot.effective_speed mission.mission_type.base_speed d.speed_jitter / 2.0
          let robot := { robot with speed := lerp robot.speed target_speed 0.22 }
          if lt dist 0.45 then
            let robot := robot.reach mission
            if mission.steps.length ≤ mission.current_step + 1 then
              if turn.is_blacked_out then
                robot.complete.clear_mission.overheating_rest ambient_c turn d
              else (robot.complete, .emitting_hot turn)
            else robot.overheating_rest ambient_c turn d
          else (robot.move dx dy dist turn.dt).overheating_rest ambient_c turn d

def mission_rest (ambient_c : F) (turn : Turn F) (d : Draws F) : RobotState F × Phase F :=
  ((robot.drain turn.dt).heat ambient_c turn.dt).finish turn d

-- After the completion of a mission has been reported.
def completed (ambient_c : F) (turn : Turn F) (d : Draws F) : RobotState F × Phase F :=
  mission_rest { robot.clear_mission with status := .ACTIVE } ambient_c turn d

-- 4. Normal Mission Operation
def operate (mission : Mission F) (ambient_c : F) (turn : Turn F) (d : Draws F) :
    RobotState F × Phase F :=
  match mission.steps[mission.current_step]? with
  | none => (robot, .ended)
  | some step =>
      let dx := step.x - robot.x
      let dy := step.y - robot.y
      let dist := hypot dx dy
      if lt turn.now robot.pause_until_s then
        mission_rest { robot with speed := lerp robot.speed 0.0 0.4 } ambient_c turn d
      else
        let target_speed := robot.effective_speed mission.mission_type.base_speed d.speed_jitter
        let robot := { robot with speed := lerp robot.speed target_speed 0.22 }
        if lt dist 0.45 then
          let robot := robot.reach mission
          let robot := { robot with
            pause_until_s := if lt 0.0 step.pause_s then turn.now + step.pause_s else robot.pause_until_s }
          if mission.steps.length ≤ mission.current_step + 1 then
            if turn.is_blacked_out then robot.complete.completed ambient_c turn d
            else (robot.complete, .emitting_done turn)
          else robot.mission_rest ambient_c turn d
        else (robot.move dx dy dist turn.dt).mission_rest ambient_c turn d

-- 5. Standby
def standby (ambient_c dt : F) : RobotState F :=
  let standby_drain := 0.0015 * (1.0 + ((100.0 - robot.battery_health) / 100.0) * 0.25)
  { robot with
    speed := lerp robot.speed 0.0 0.35
    battery := robot.battery - standby_drain * dt * 20.0
    temperature := robot.temperature - 0.04 * (robot.temperature - ambient_c) * dt }

-- Low power / return to charge triggers. No robot ever is in RETURNING_TO_CHARGE.
def low_power : RobotState F :=
  if le robot.battery 30.0 && robot.status != .CHARGING then
    let robot := { robot with status := .LOW_POWER }
    if le robot.battery 25.0 && robot.mission.isSome then
      { robot.clear_mission with returning_to_charge := true }
    else robot
  else robot

-- Proactive top up if idle
def top_up : RobotState F :=
  if robot.mission.isNone && le robot.battery 50.0 && !robot.returning_to_charge &&
      robot.status != .CHARGING then
    { robot with returning_to_charge := true }
  else robot

def physics (ambient_c : F) (turn : Turn F) (d : Draws F) : RobotState F × Phase F :=
  let robot := robot.low_power.top_up
  if robot.returning_to_charge then (robot.returning ambient_c turn d).finish turn d
  else if robot.status = .CHARGING then (robot.charging ambient_c turn.dt).finish turn d
  else if le 80.0 robot.temperature then robot.overheating ambient_c turn d
  else
    match robot.mission with
    | some mission => robot.operate mission ambient_c turn d
    | none => (robot.standby ambient_c turn.dt).finish turn d

end RobotState

end Physics

end FleetOps.Robot
