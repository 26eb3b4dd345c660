import FleetOps.Robot.Launch
import FleetOps.Robot.Lifecycle

namespace FleetOps.Robot

open FleetOps.Command Floats Runs

variable {F : Type*} [Floats F]

section Emission

-- What the generator draws for the noise of one sensor: the noise, and the glitch if there is one.
structure Noise (F : Type*) where
  offset : F
  glitch_roll : F
  glitch : F

structure Payload (F : Type*) extends Report F where
  robot_id : Nat
  timestamp : F
  battery : F
  temperature : F
  speed : F
  status : RobotStatus
  mission_start_time : Option F
  battery_health : F
  motor_health : F
  sensor_health : F
  network_health : F
  x : F
  y : F

namespace RobotState

variable (robot : RobotState F)

-- The kind of the sensor is in what is drawn for it.
def apply_sensor_noise (value : F) (noise : Noise F) : F :=
  let noise_scale := (100.0 - robot.sensor_health) / 100.0
  if le noise_scale 0.0 then value
  else
    let value := value + noise.offset * noise_scale
    if lt noise.glitch_roll (noise_scale * 0.05) then value + noise.glitch else value

-- `round2` is `round(_, 2)`.
def emit_telemetry (viewers_active : Bool) (round2 : F → F) (robot_id : Nat) (timestamp : F)
    (battery_noise temperature_noise speed_noise : Noise F) : Option (Payload F) :=
  if !viewers_active then none
  else some { robot.report with
    robot_id
    timestamp
    battery := round2 (clamp (robot.apply_sensor_noise robot.battery battery_noise) 0.0 100.0)
    temperature := round2 (clamp (robot.apply_sensor_noise robot.temperature temperature_noise) 0.0 120.0)
    speed := round2 (clamp (robot.apply_sensor_noise robot.speed speed_noise) 0.0 3.0)
    status := robot.status
    mission_start_time := robot.mission_start_time
    battery_health := round2 robot.battery_health
    motor_health := round2 robot.motor_health
    sensor_health := round2 robot.sensor_health
    network_health := round2 robot.network_health
    x := round2 robot.x
    y := round2 robot.y }

end RobotState

end Emission

section Gauges

-- A component as it came or as it is worn since.
def Worn (health : F) : Prop := Within 10.0 100.0 health ∨ Within 25.0 100.0 health

structure RobotState.Fit (robot : RobotState F) : Prop where
  battery_health : Worn robot.battery_health
  motor_health : Worn robot.motor_health
  sensor_health : Worn robot.sensor_health
  network_health : Worn robot.network_health

-- Between the physics of two turns.
structure RobotState.Rested (ambient_c : F) (robot : RobotState F) : Prop where
  battery : Within 0.0 100.0 robot.battery ∨ Within 65.0 100.0 robot.battery
  temperature : Within 22.0 99.0 robot.temperature ∨ Within 24.0 50.0 robot.temperature ∨
    robot.temperature = ambient_c
  speed : Within 0.0 2.2 robot.speed

-- In the middle of the physics of a turn, or ended there.
def Phase.midway : Phase F → Bool
  | .emitting_hot _ | .emitting_done _ | .announcing _ | .fencing _ | .ended => true
  | _ => false

structure Machine.Gauged (ambient_c : F) (u : Machine F) : Prop where
  fit : u.robot.Fit
  rested : u.phase.midway = false → u.robot.Rested ambient_c

namespace RobotState

variable {robot : RobotState F} {ambient_c : F} {turn : Turn F} {d : Draws F}

theorem fit_wear (robot : RobotState F) (d : Draws F) : (robot.wear d).Fit where
  battery_health := .inl (within_clamp _ _ _)
  motor_health := .inl (within_clamp _ _ _)
  sensor_health := .inl (within_clamp _ _ _)
  network_health := .inl (within_clamp _ _ _)

theorem gauged_settle (h : robot.Fit) :
    Machine.Gauged ambient_c ⟨(robot.settle turn).1, (robot.settle turn).2⟩ where
  fit := ⟨h.battery_health, h.motor_health, h.sensor_health, h.network_health⟩
  rested := fun _ => ⟨.inl (within_clamp _ _ _), .inl (within_clamp _ _ _), within_clamp _ _ _⟩

-- The wear and the clamps at the end of a turn do not depend on what the physics came to.
theorem gauged_finish (robot : RobotState F) (ambient_c : F) (turn : Turn F) (d : Draws F) :
    Machine.Gauged ambient_c ⟨(robot.finish turn d).1, (robot.finish turn d).2⟩ := by
  have h := robot.fit_wear d
  have hfit : ∀ {robot' : RobotState F}, robot'.battery_health = (robot.wear d).battery_health →
      robot'.motor_health = (robot.wear d).motor_health →
      robot'.sensor_health = (robot.wear d).sensor_health →
      robot'.network_health = (robot.wear d).network_health → robot'.Fit := by
    intro robot' hbattery hmotor hsensor hnetwork
    exact ⟨hbattery ▸ h.battery_health, hmotor ▸ h.motor_health, hsensor ▸ h.sensor_health,
      hnetwork ▸ h.network_health⟩
  simp only [finish]
  split
  · split
    · refine ⟨hfit rfl rfl rfl rfl, fun hmidway => ?_⟩
      cases hmidway
    · exact gauged_settle (hfit rfl rfl rfl rfl)
  · split
    · exact gauged_settle (hfit rfl rfl rfl rfl)
    · exact gauged_settle h

theorem gauged_midway {phase : Phase F} (h : robot.Fit) (hmidway : phase.midway = true) :
    Machine.Gauged ambient_c ⟨robot, phase⟩ := by
  refine ⟨h, fun hrested => ?_⟩
  change phase.midway = false at hrested
  rw [hmidway] at hrested
  cases hrested

theorem gauged_overheating (h : robot.Fit) : Machine.Gauged ambient_c
    ⟨(robot.overheating ambient_c turn d).1, (robot.overheating ambient_c turn d).2⟩ := by
  obtain ⟨hbattery, hmotor, hsensor, hnetwork⟩ := h
  simp only [overheating]
  split
  · exact gauged_finish _ ambient_c turn d
  · split
    · exact gauged_midway ⟨hbattery, hmotor, hsensor, hnetwork⟩ rfl
    · split
      · split
        · split
          · exact gauged_finish _ ambient_c turn d
          · exact gauged_midway ⟨hbattery, hmotor, hsensor, hnetwork⟩ rfl
        · exact gauged_finish _ ambient_c turn d
      · exact gauged_finish _ ambient_c turn d

theorem gauged_operate (h : robot.Fit) (mission : Mission F) : Machine.Gauged ambient_c
    ⟨(robot.operate mission ambient_c turn d).1, (robot.operate mission ambient_c turn d).2⟩ := by
  obtain ⟨hbattery, hmotor, hsensor, hnetwork⟩ := h
  simp only [operate]
  split
  · exact gauged_midway ⟨hbattery, hmotor, hsensor, hnetwork⟩ rfl
  · split
    · exact gauged_finish _ ambient_c turn d
    · split
      · split
        · split
          · exact gauged_finish _ ambient_c turn d
          · exact gauged_midway ⟨hbattery, hmotor, hsensor, hnetwork⟩ rfl
        · exact gauged_finish _ ambient_c turn d
      · exact gauged_finish _ ambient_c turn d

theorem fit_low_power (h : robot.Fit) : robot.low_power.top_up.Fit := by
  obtain ⟨hbattery, hmotor, hsensor, hnetwork⟩ := h
  have hlow : robot.low_power.Fit := by
    simp only [low_power]
    split
    · split <;> exact ⟨hbattery, hmotor, hsensor, hnetwork⟩
    · exact ⟨hbattery, hmotor, hsensor, hnetwork⟩
  simp only [top_up]
  split
  · exact ⟨hlow.battery_health, hlow.motor_health, hlow.sensor_health, hlow.network_health⟩
  · exact hlow

theorem gauged_physics (h : robot.Fit) : Machine.Gauged ambient_c
    ⟨(robot.physics ambient_c turn d).1, (robot.physics ambient_c turn d).2⟩ := by
  have hlow := fit_low_power h
  simp only [physics]
  split
  · exact gauged_finish _ ambient_c turn d
  · split
    · exact gauged_finish _ ambient_c turn d
    · split
      · exact gauged_overheating hlow
      · split
        · exact gauged_operate hlow _
        · exact gauged_finish _ ambient_c turn d

-- Where the gauges are not touched, or the speed is 0.
theorem gauged_of_rested {robot' : RobotState F} {phase : Phase F} (hfit : robot'.Fit)
    (hrested : robot'.Rested ambient_c) : Machine.Gauged ambient_c ⟨robot', phase⟩ := ⟨hfit, fun _ => hrested⟩

theorem rested_shutdown (hfit : robot.Fit) (h : robot.Rested ambient_c) (now : F) :
    (robot.shutdown now).Fit ∧ (robot.shutdown now).Rested ambient_c := by
  rw [shutdown]
  split
  · exact ⟨hfit, h⟩
  · exact ⟨⟨hfit.battery_health, hfit.motor_health, hfit.sensor_health, hfit.network_health⟩,
      ⟨h.battery, h.temperature, .inl rfl⟩⟩

-- The crew brings components that are as good as those of any robot that arrives.
theorem rested_repair (hfit : robot.Fit) (h : robot.Rested ambient_c) (now : F) (d : Draws F) :
    (robot.repair ambient_c now d).Fit ∧ (robot.repair ambient_c now d).Rested ambient_c := by
  rw [repair]
  split
  · exact ⟨⟨.inr (within_clamp _ _ _), .inr (within_clamp _ _ _), .inr (within_clamp _ _ _),
      .inr (within_clamp _ _ _)⟩, ⟨.inl (.inr (.inl rfl)), .inr (.inr rfl), h.speed⟩⟩
  · exact ⟨hfit, h⟩

theorem rested_execute (hfit : robot.Fit) (h : robot.Rested ambient_c) (cmd_action : String) :
    (robot.execute cmd_action).Fit ∧ (robot.execute cmd_action).Rested ambient_c := by
  obtain ⟨hbattery, hmotor, hsensor, hnetwork⟩ := hfit
  rw [execute]
  split
  · exact ⟨⟨hbattery, hmotor, hsensor, hnetwork⟩, ⟨h.battery, h.temperature, h.speed⟩⟩
  · split
    · exact ⟨⟨hbattery, hmotor, hsensor, hnetwork⟩, ⟨h.battery, h.temperature, .inl rfl⟩⟩
    · split
      · exact ⟨⟨hbattery, hmotor, hsensor, hnetwork⟩, ⟨h.battery, h.temperature, h.speed⟩⟩
      · exact ⟨⟨hbattery, hmotor, hsensor, hnetwork⟩, h⟩

theorem gauged_judge (hfit : robot.Fit) (h : robot.Rested ambient_c) : Machine.Gauged ambient_c
    ⟨(robot.judge ambient_c turn d).1, (robot.judge ambient_c turn d).2⟩ := by
  obtain ⟨hshut, hrested⟩ := rested_shutdown hfit h turn.now
  simp only [judge]
  split
  · split
    · obtain ⟨hmended, hback⟩ := rested_repair hshut hrested turn.now d
      exact gauged_of_rested hmended hback
    · exact gauged_of_rested hshut hrested
  · split
    · exact gauged_of_rested hfit h
    · exact gauged_physics hfit

theorem gauged_next_command (hfit : robot.Fit) (h : robot.Rested ambient_c) (data : List ClaimedCommand) :
    Machine.Gauged ambient_c
      ⟨(robot.next_command ambient_c turn d data).1, (robot.next_command ambient_c turn d data).2⟩ := by
  cases data with
  | nil => exact gauged_judge hfit h
  | cons cmd_obj data =>
      simp only [next_command]
      split
      · exact gauged_of_rested hfit h
      · exact gauged_of_rested
          ⟨hfit.battery_health, hfit.motor_health, hfit.sensor_health, hfit.network_health⟩
          ⟨h.battery, h.temperature, h.speed⟩

theorem gauged_wake (hfit : robot.Fit) (h : robot.Rested ambient_c) (viewers_active : Bool) (now : F) :
    Machine.Gauged ambient_c
      ⟨(robot.wake viewers_active ambient_c now d).1, (robot.wake viewers_active ambient_c now d).2⟩ := by
  obtain ⟨hbattery, hmotor, hsensor, hnetwork⟩ := hfit
  have hblackout : (({ robot with last_update_s := now } : RobotState F).blackout now d).1.Fit ∧
      (({ robot with last_update_s := now } : RobotState F).blackout now d).1.Rested ambient_c := by
    rw [blackout]
    split
    · exact ⟨⟨hbattery, hmotor, hsensor, hnetwork⟩, ⟨h.battery, h.temperature, h.speed⟩⟩
    · split
      · exact ⟨⟨hbattery, hmotor, hsensor, hnetwork⟩, ⟨h.battery, h.temperature, h.speed⟩⟩
      · split <;> exact ⟨⟨hbattery, hmotor, hsensor, hnetwork⟩, ⟨h.battery, h.temperature, h.speed⟩⟩
  simp only [wake]
  split
  · exact gauged_of_rested hblackout.1 hblackout.2
  · exact gauged_judge hblackout.1 hblackout.2

end RobotState

variable {viewers_active : Bool} {ambient_c : F} {d : Draws F} {robot : RobotState F} {phase : Phase F}
  {event : Event F} {next : RobotState F × Phase F}

-- A stretch of a robot's loop goes from gauges at rest to the next await, in the middle of the
-- physics or at rest again.
theorem gauged_advance (hgauged : Machine.Gauged ambient_c ⟨robot, phase⟩)
    (h : advance viewers_active ambient_c d robot phase event = some next) :
    Machine.Gauged ambient_c ⟨next.1, next.2⟩ := by
  obtain ⟨hfit, hrested⟩ := hgauged
  cases event with
  | cancelled =>
      obtain rfl := cancelled_advance h
      exact RobotState.gauged_midway hfit rfl
  | wake now =>
      cases phase with
      | asleep =>
          obtain rfl := Option.some.inj h
          exact RobotState.gauged_wake hfit (hrested rfl) viewers_active now
      | _ => cases h
  | claimed data =>
      cases phase with
      | claiming turn =>
          obtain rfl := Option.some.inj h
          exact RobotState.gauged_next_command hfit (hrested rfl) (data.getD [])
      | _ => cases h
  | returned =>
      cases phase with
      | acknowledging turn cmd_obj data =>
          obtain rfl := Option.some.inj h
          exact RobotState.gauged_of_rested hfit (hrested rfl)
      | executing turn cmd_obj data =>
          obtain rfl := Option.some.inj h
          obtain ⟨hkept, hstill⟩ := RobotState.rested_execute hfit (hrested rfl) cmd_obj.command_type
          exact RobotState.gauged_of_rested hkept hstill
      | patching turn data =>
          obtain rfl := Option.some.inj h
          exact RobotState.gauged_next_command hfit (hrested rfl) data
      | emitting_dead turn =>
          obtain rfl := Option.some.inj h
          obtain ⟨hmended, hback⟩ := RobotState.rested_repair hfit (hrested rfl) turn.now d
          exact RobotState.gauged_of_rested hmended hback
      | emitting_hot turn | announcing turn =>
          obtain rfl := Option.some.inj h
          exact RobotState.gauged_finish _ ambient_c turn d
      | emitting_done turn =>
          obtain rfl := Option.some.inj h
          exact RobotState.gauged_midway hfit rfl
      | fencing turn =>
          obtain rfl := Option.some.inj h
          exact RobotState.gauged_settle hfit
      | emitting =>
          obtain rfl := Option.some.inj h
          exact RobotState.gauged_of_rested hfit (hrested rfl)
      | asleep | claiming | ended => cases h

end Gauges

section Progress

-- Nothing of the mission is done, all of it, or a part that is no more than all.
def Partway (progress : F) : Prop :=
  progress = 0.0 ∨ progress = 100.0 ∨
    ∃ part : F, (part = 100.0 ∨ lt part 100.0 = true) ∧ progress = round1 part

theorem partway_min (part : F) : Partway (round1 (min 100.0 part)) := by
  refine .inr (.inr ⟨_, ?_, rfl⟩)
  rw [Floats.min]
  split
  · rename_i hlt
    exact .inr hlt
  · exact .inl rfl

def Task.Partway (task : Task F) : Prop := ∀ progress ∈ task.mission_progress, Robot.Partway progress

theorem partway_clear (task : Task F) : task.clear.Partway := by
  intro progress h
  cases h

theorem partway_of_turned {task : Task F} {out : Task F × Phase F} (h : Turned task out)
    (hpartway : task.Partway) : out.1.Partway := by
  cases h with
  | kept phase hphase => exact hpartway
  | cleared phase hphase => exact partway_clear task
  | reached mission phase hmission hstep hphase =>
      intro progress h
      cases h
      exact partway_min _
  | reported mission phase hmission hphase =>
      intro progress h
      cases h
      exact .inr (.inl rfl)
  | unreported mission phase hmission hphase => exact partway_clear _

theorem partway_advance {viewers_active : Bool} {ambient_c : F} {d : Draws F} {robot : RobotState F}
    {phase : Phase F} {event : Event F} {next : RobotState F × Phase F} (hpartway : robot.task.Partway)
    (h : advance viewers_active ambient_c d robot phase event = some next) : next.1.task.Partway := by
  cases hdone : phase.done with
  | false => exact partway_of_turned (turned_advance hdone h) hpartway
  | true =>
      rcases done_advance hdone h with ⟨hsame, -⟩ | ⟨hsame, -⟩ | ⟨hclear, -⟩
      · rw [hsame]
        exact hpartway
      · rw [hsame]
        exact hpartway
      · rw [hclear]
        exact partway_clear _

end Progress

section Fleet

structure Machine.Ranged (ambient_c : F) (u : Machine F) : Prop where
  gauged : u.Gauged ambient_c
  partway : u.robot.task.Partway

variable {ambient_c : F} {s t : Simulation F} {l : SimulationLabel F}

theorem ranged_assign {u : Machine F} (h : u.Ranged ambient_c) (mission : Mission F) (now : F) :
    (u.assign mission now).Ranged ambient_c where
  gauged := by
    obtain ⟨⟨hbattery, hmotor, hsensor, hnetwork⟩, hrested⟩ := h.gauged
    refine ⟨⟨hbattery, hmotor, hsensor, hnetwork⟩, fun hmidway => ?_⟩
    obtain ⟨hcharge, htemperature, hspeed⟩ := hrested hmidway
    exact ⟨hcharge, htemperature, hspeed⟩
  partway := by
    intro progress hprogress
    cases hprogress
    exact .inl rfl

theorem ranged_step (h : ∀ u ∈ s.units, u.Ranged ambient_c) (hstep : s.step ambient_c l = some t) :
    ∀ u ∈ t.units, u.Ranged ambient_c := by
  intro v hv
  cases l with
  | robot i event d =>
      obtain ⟨u, hu, hnext⟩ := Option.bind_eq_some_iff.mp hstep
      obtain ⟨next, hadvance, rfl⟩ := Option.map_eq_some_iff.mp hnext
      obtain ⟨hgauged, hpartway⟩ := h u (List.mem_of_getElem? hu)
      rcases List.mem_or_eq_of_mem_set hv with hold | rfl
      · exact h v hold
      · exact ⟨gauged_advance hgauged hadvance, partway_advance hpartway hadvance⟩
  | dispatch now plan =>
      cases hstep
      obtain ⟨i, hi⟩ := List.mem_iff_getElem?.mp hv
      obtain ⟨f, hf, hunits⟩ := dispatch_unit s now plan i
      rw [hunits] at hi
      obtain ⟨u, hu, rfl⟩ := Option.map_eq_some_iff.mp hi
      have hranged := h u (List.mem_of_getElem? hu)
      rcases hf u with hsame | ⟨mission, -, -, hassigned⟩
      · rw [hsame]
        exact hranged
      · rw [hassigned]
        exact ranged_assign hranged mission now
  | viewers active =>
      cases hstep
      exact h v hv

theorem ranged_fleet_step {s t : List (Process F)} {l : Nat × SimulationLabel F}
    (h : ∀ p ∈ s, ∀ u ∈ p.simulation.units, u.Ranged ambient_c)
    (hstep : fleet_step ambient_c s l = some t) : ∀ p ∈ t, ∀ u ∈ p.simulation.units, u.Ranged ambient_c := by
  obtain ⟨p, hp, hnext⟩ := Option.bind_eq_some_iff.mp hstep
  obtain ⟨q, hq, rfl⟩ := Option.map_eq_some_iff.mp hnext
  obtain ⟨simulation, -, rfl⟩ := Option.map_eq_some_iff.mp hq
  intro r hr
  rcases List.mem_or_eq_of_mem_set hr with hold | rfl
  · exact h r hold
  · exact ranged_step (h p (List.mem_of_getElem? hp)) simulation.2

-- A robot arrives within the ranges.
theorem ranged_main {args : Args F} {rng : Generator F} {clock : Nat → F} {processes : List (Process F)}
    (h : main args rng clock = some processes) :
    ∀ p ∈ processes, ∀ u ∈ p.simulation.units, u.Ranged args.ambient := by
  obtain ⟨total_workers, -, rfl⟩ := main_fleet h
  intro p hp u hu
  obtain ⟨i, -, rfl⟩ := List.mem_map.mp hp
  obtain ⟨robot, hrobot, rfl⟩ := List.mem_map.mp hu
  obtain ⟨arrival, -, rfl⟩ := List.mem_map.mp hrobot
  refine ⟨⟨⟨.inr (within_clamp _ _ _), .inr (within_clamp _ _ _), .inr (within_clamp _ _ _),
    .inr (within_clamp _ _ _)⟩, fun _ => ?_⟩, fun progress h => ?_⟩
  · exact ⟨.inr (within_clamp _ _ _), .inr (.inl (within_clamp _ _ _)), .inl rfl⟩
  · cases h

theorem ranged_run {args : Args F} {rng : Generator F} {clock : Nat → F} {processes t : List (Process F)}
    {run : List (Nat × SimulationLabel F)} (hmain : main args rng clock = some processes)
    (hrun : exec (fleet_step args.ambient) processes run = some t) :
    ∀ p ∈ t, ∀ u ∈ p.simulation.units, u.Ranged args.ambient :=
  exec_invariant (fun _ _ _ h hstep => ranged_fleet_step h hstep) (ranged_main hmain) hrun

end Fleet

section Results

variable {args : Args F} {rng : Generator F} {clock : Nat → F} {processes t : List (Process F)}
  {run : List (Nat × SimulationLabel F)} {p : Process F} {u : Machine F}

structure Payload.InRange (round2 : F → F) (payload : Payload F) : Prop where
  battery : ∃ a, Within 0.0 100.0 a ∧ payload.battery = round2 a
  temperature : ∃ a, Within 0.0 120.0 a ∧ payload.temperature = round2 a
  speed : ∃ a, Within 0.0 3.0 a ∧ payload.speed = round2 a
  battery_health : ∃ a, Worn a ∧ payload.battery_health = round2 a
  motor_health : ∃ a, Worn a ∧ payload.motor_health = round2 a
  sensor_health : ∃ a, Worn a ∧ payload.sensor_health = round2 a
  network_health : ∃ a, Worn a ∧ payload.network_health = round2 a
  mission_progress : ∀ progress ∈ payload.mission_progress, Partway progress

structure Payload.Bounded (payload : Payload F) : Prop where
  battery : Within 0.0 100.0 payload.battery
  temperature : Within 0.0 120.0 payload.temperature
  speed : Within 0.0 3.0 payload.speed
  battery_health : Worn payload.battery_health
  motor_health : Worn payload.motor_health
  sensor_health : Worn payload.sensor_health
  network_health : Worn payload.network_health

-- What `round(_, 2)` is relied on for: it keeps the order, and a bound as it is.
structure Rounds (round2 : F → F) : Prop where
  mono : ∀ a b, lt a b = true → round2 a = round2 b ∨ lt (round2 a) (round2 b) = true
  bounds : ∀ a ∈ [(0.0 : F), 3.0, 10.0, 25.0, 100.0, 120.0], round2 a = a

theorem Rounds.within {round2 : F → F} (h : Rounds round2) {lo hi a : F} (hlo : round2 lo = lo)
    (hhi : round2 hi = hi) (ha : Within lo hi a) : Within lo hi (round2 a) := by
  rcases ha with rfl | rfl | ⟨habove, hbelow⟩
  · exact .inl hlo
  · exact .inr (.inl hhi)
  · have hlower := h.mono _ _ habove
    have hupper := h.mono _ _ hbelow
    rw [hlo] at hlower
    rw [hhi] at hupper
    rcases hlower with heq | hlower
    · exact .inl heq.symm
    · exact .inr (hupper.imp_right fun hupper => ⟨hlower, hupper⟩)

theorem Rounds.worn {round2 : F → F} (h : Rounds round2) {a : F} (ha : Worn a) : Worn (round2 a) :=
  ha.imp (h.within (h.bounds _ (by simp)) (h.bounds _ (by simp)))
    (h.within (h.bounds _ (by simp)) (h.bounds _ (by simp)))

theorem Payload.InRange.bounded {round2 : F → F} {payload : Payload F} (hrange : payload.InRange round2)
    (h : Rounds round2) : payload.Bounded := by
  obtain ⟨⟨_, hbattery, heq⟩, ⟨_, htemperature, heq'⟩, ⟨_, hspeed, heq''⟩, ⟨_, hbh, hbh'⟩, ⟨_, hmh, hmh'⟩,
    ⟨_, hsh, hsh'⟩, ⟨_, hnh, hnh'⟩, -⟩ := hrange
  exact {
    battery := heq ▸ h.within (h.bounds _ (by simp)) (h.bounds _ (by simp)) hbattery
    temperature := heq' ▸ h.within (h.bounds _ (by simp)) (h.bounds _ (by simp)) htemperature
    speed := heq'' ▸ h.within (h.bounds _ (by simp)) (h.bounds _ (by simp)) hspeed
    battery_health := hbh' ▸ h.worn hbh
    motor_health := hmh' ▸ h.worn hmh
    sensor_health := hsh' ▸ h.worn hsh
    network_health := hnh' ▸ h.worn hnh }

theorem Machine.Ranged.inRange {ambient_c : F} (h : u.Ranged ambient_c) {round2 : F → F}
    {viewers_active : Bool} {robot_id : Nat} {timestamp : F}
    {battery_noise temperature_noise speed_noise : Noise F} {payload : Payload F}
    (hemit : u.robot.emit_telemetry viewers_active round2 robot_id timestamp battery_noise temperature_noise
      speed_noise = some payload) : payload.InRange round2 := by
  obtain ⟨⟨hfit, -⟩, hpartway⟩ := h
  rw [RobotState.emit_telemetry] at hemit
  split at hemit
  · cases hemit
  · cases hemit
    exact {
      battery := ⟨_, within_clamp _ _ _, rfl⟩
      temperature := ⟨_, within_clamp _ _ _, rfl⟩
      speed := ⟨_, within_clamp _ _ _, rfl⟩
      battery_health := ⟨_, hfit.battery_health, rfl⟩
      motor_health := ⟨_, hfit.motor_health, rfl⟩
      sensor_health := ⟨_, hfit.sensor_health, rfl⟩
      network_health := ⟨_, hfit.network_health, rfl⟩
      mission_progress := hpartway }

-- Whatever is drawn and whatever the arithmetic makes of it, a reading is of values within the
-- ranges of what it reports, and rounding leaves them there.
theorem readings_in_range (hmain : main args rng clock = some processes)
    (hrun : exec (fleet_step args.ambient) processes run = some t) (hp : p ∈ t)
    (hu : u ∈ p.simulation.units) {round2 : F → F} {viewers_active : Bool} {robot_id : Nat} {timestamp : F}
    {battery_noise temperature_noise speed_noise : Noise F} {payload : Payload F}
    (hemit : u.robot.emit_telemetry viewers_active round2 robot_id timestamp battery_noise temperature_noise
      speed_noise = some payload) : payload.InRange round2 ∧ (Rounds round2 → payload.Bounded) := by
  have hrange := (ranged_run hmain hrun p hp u hu).inRange hemit
  exact ⟨hrange, hrange.bounded⟩

-- The limits of the shutdown's health checks are those of the wear: no component is ever below.
theorem Worn.not_lt (hordered : Ordered F) (hten : lt (10.0 : F) 25.0 = true)
    (hhundred : lt (25.0 : F) 100.0 = true) {health : F} (h : Worn health) : lt health 10.0 = false := by
  rcases h with hworn | hnew
  · exact hworn.not_lt hordered (hordered.lt_trans _ _ _ hten hhundred)
  · have hfloor := hnew.not_lt hordered hhundred
    by_contra hlow
    have hbelow := hordered.lt_trans _ _ _ (Bool.not_eq_false _ ▸ hlow) hten
    rw [hfloor] at hbelow
    cases hbelow

-- As long as its loop goes on and outside the physics of a turn, a robot's gauges are within their
-- ranges; its temperature may also be the ambient one, which a repair does not clamp. Nothing shuts
-- it down but an empty battery or the heat: two of the four checks never hold.
theorem gauges_kept (hordered : Ordered F) (hten : lt (10.0 : F) 25.0 = true)
    (hhundred : lt (25.0 : F) 100.0 = true) (hmain : main args rng clock = some processes)
    (hrun : exec (fleet_step args.ambient) processes run = some t) (hp : p ∈ t)
    (hu : u ∈ p.simulation.units) :
    (u.phase.midway = false → u.robot.Rested args.ambient) ∧
    u.robot.is_dead = (le u.robot.battery 5.0 || le 95.0 u.robot.temperature) := by
  obtain ⟨⟨hfit, hrested⟩, -⟩ := ranged_run hmain hrun p hp u hu
  refine ⟨hrested, ?_⟩
  rw [RobotState.is_dead, hfit.battery_health.not_lt hordered hten hhundred,
    hfit.motor_health.not_lt hordered hten hhundred, Bool.or_false, Bool.or_false]

end Results

section Example

def round2 (a : ℚ) : ℚ := ((a * 100 + 1 / 2).floor : ℚ) / 100

theorem rounds_round2 : Rounds round2 where
  mono a b hlt := by
    have hle : round2 a ≤ round2 b := by
      have hfloor : (a * 100 + 1 / 2).floor ≤ (b * 100 + 1 / 2).floor :=
        Rat.floor_monotone (by have := of_decide_eq_true hlt; linarith)
      rw [round2, round2]
      have : ((a * 100 + 1 / 2).floor : ℚ) ≤ ((b * 100 + 1 / 2).floor : ℚ) := by exact_mod_cast hfloor
      linarith
    exact hle.eq_or_lt.imp_right fun h => decide_eq_true h
  bounds := by decide +kernel

def steady : Noise ℚ := ⟨0, 1, 0⟩

-- The first robot of the fleet is given a mission and makes its first move.
def firstMove : List (Nat × SimulationLabel ℚ) :=
  [(0, .dispatch 1000 (.delivery (15, 50) (15, 60))), (0, .robot 0 (.wake 1002) rolls),
    (0, .robot 0 (.claimed none) rolls)]

def firstReading (t : List (Process ℚ)) : Option (Process ℚ × Machine ℚ × Payload ℚ) :=
  t[0]?.bind fun p => p.simulation.units[0]?.bind fun u =>
    (u.robot.emit_telemetry true round2 1 1002 steady steady steady).map fun payload => (p, u, payload)

theorem firstReading_eq_some {t : List (Process ℚ)} {p : Process ℚ} {u : Machine ℚ} {payload : Payload ℚ}
    (h : firstReading t = some (p, u, payload)) : p ∈ t ∧ u ∈ p.simulation.units ∧
      u.robot.emit_telemetry true round2 1 1002 steady steady steady = some payload := by
  obtain ⟨q, hq, hrest⟩ := Option.bind_eq_some_iff.mp h
  obtain ⟨v, hv, hmap⟩ := Option.bind_eq_some_iff.mp hrest
  obtain ⟨reading, hemit, hpair⟩ := Option.map_eq_some_iff.mp hmap
  cases hpair
  exact ⟨List.mem_of_getElem? hq, List.mem_of_getElem? hv, hemit⟩

theorem readings_in_range_first : ∃ t, exec (fleet_step 30)
      (fleet two_robots worn (fun _ => 1000) 3) firstMove = some t ∧
    ∃ p u payload, firstReading t = some (p, u, payload) ∧ 0 < payload.speed ∧ payload.InRange round2 ∧
      payload.Bounded := by
  have hmain : main two_robots worn (fun _ => 1000) = some (fleet two_robots worn (fun _ => 1000) 3) := rfl
  refine exec_exists (P := fun t => ((firstReading t).any fun r => decide (0 < r.2.2.speed)) = true)
    (by decide +kernel) fun t hrun hany => ?_
  obtain ⟨⟨p, u, payload⟩, hfirst, hspeed⟩ := (Option.any_eq_true _ _).mp hany
  obtain ⟨hp, hu, hemit⟩ := firstReading_eq_some hfirst
  obtain ⟨hrange, hbounded⟩ := readings_in_range hmain hrun hp hu hemit
  exact ⟨p, u, payload, hfirst, of_decide_eq_true hspeed, hrange, hbounded rounds_round2⟩

theorem gauges_kept_first : ∃ t, exec (fleet_step 30)
      (fleet two_robots worn (fun _ => 1000) 3) firstMove = some t ∧
    ∃ p u payload, firstReading t = some (p, u, payload) ∧
      u.phase.midway = false ∧ (u.phase.midway = false → u.robot.Rested 30) ∧
      u.robot.is_dead = (le u.robot.battery 5.0 || le 95.0 u.robot.temperature) := by
  have hmain : main two_robots worn (fun _ => 1000) = some (fleet two_robots worn (fun _ => 1000) 3) := rfl
  have hordered : Ordered ℚ := by
    refine ⟨fun a => decide_eq_false (lt_irrefl a), fun a b c hab hbc => decide_eq_true ?_⟩
    exact (of_decide_eq_true hab).trans (of_decide_eq_true hbc)
  refine exec_exists (P := fun t => ((firstReading t).any fun r => !r.2.1.phase.midway) = true)
    (by decide +kernel) fun t hrun hany => ?_
  obtain ⟨⟨p, u, payload⟩, hfirst, hmidway⟩ := (Option.any_eq_true _ _).mp hany
  obtain ⟨hp, hu, -⟩ := firstReading_eq_some hfirst
  exact ⟨p, u, payload, hfirst, by simpa using hmidway, gauges_kept hordered (by decide +kernel)
    (by decide +kernel) hmain hrun hp hu⟩

end Example

end FleetOps.Robot
