import FleetOps.Library.Shares
import FleetOps.Robot.Books

namespace FleetOps.Robot

open Floats Runs

section Chunks

variable (robots_count total_workers worker_index : Nat)

-- `chunk_size + (1 if worker_index < remainder else 0)`, of any worker
def my_robots : Nat :=
  let chunk_size := robots_count / total_workers
  let remainder := robots_count % total_workers
  chunk_size + if worker_index < remainder then 1 else 0

def start_id : Nat := ((List.range worker_index).map (my_robots robots_count total_workers)).sum + 1

def end_id : Nat :=
  start_id robots_count total_workers worker_index + my_robots robots_count total_workers worker_index

end Chunks

variable {F : Type*} [Floats F]

section Processes

-- What the generator draws for a robot that enters the fleet.
structure Arrival (F : Type*) where
  x : F
  y : F
  service_age : F
  battery_jitter : F
  motor_jitter : F
  sensor_jitter : F
  network_jitter : F
  discharge : F
  warmth : F

-- What `random.Random(args.seed)` gives, in every process the same: the `randint(35, 55)`, where
-- it is called, and the draws for one robot after the other.
structure Generator (F : Type*) where
  randint : Nat
  bounds : 35 ≤ randint ∧ randint ≤ 55
  arrivals : Nat → Arrival F

-- The arguments that say which robots there are and where.
structure Args (F : Type*) where
  robots : Int
  workers : Int
  api_key : Option String
  ambient : F

def Args.robots_count (args : Args F) (rng : Generator F) : Nat :=
  if args.robots ≤ 0 then rng.randint else args.robots.toNat

def Arrival.robot (a : Arrival F) (ambient : F) : RobotState F where
  battery := clamp (100.0 - a.discharge) 65.0 100.0
  temperature := clamp (ambient + a.warmth) 24.0 50.0
  speed := 0.0
  status := .ACTIVE
  online := true
  mission := none
  mission_id := none
  mission_progress := none
  mission_start_time := none
  battery_health := RobotState.component a.service_age 55.0 a.battery_jitter
  motor_health := RobotState.component a.service_age 70.0 a.motor_jitter
  sensor_health := RobotState.component a.service_age 45.0 a.sensor_jitter
  network_health := RobotState.component a.service_age 40.0 a.network_jitter
  x := a.x
  y := a.y
  last_update_s := 0.0
  pause_until_s := 0.0
  completion_count := 0
  blackout_until := 0.0
  charging_suspended := false
  dead_since := 0.0
  returning_to_charge := false
  processed_command_ids := []
  in_fence := false
  fence_cooldown_until := 0.0

-- `robot_loop` up to the top of its loop
def RobotState.enter_loop (robot : RobotState F) (now : F) : Machine F :=
  ⟨{ robot with last_update_s := now }, .asleep⟩

-- A worker process: the ids of its robots and the robots, in one order.
structure Process (F : Type*) where
  robot_ids : List Nat
  simulation : Simulation F
  paired : robot_ids.length = simulation.units.length

-- The ids that have a robot's task.
def Process.driven (p : Process F) : List Nat := (p.robot_ids.zip p.simulation.units).map Prod.fst

-- `main_async` with its tasks started; `clock` is when those of a robot are.
def main_async (args : Args F) (rng : Generator F) (clock : Nat → F) (worker_index total_workers : Nat) :
    Process F :=
  let robots_count := args.robots_count rng
  let start_id := start_id robots_count total_workers worker_index
  let end_id := end_id robots_count total_workers worker_index
  let robot_ids := List.range' start_id (end_id - start_id)
  let robots := robot_ids.zipIdx.map fun (rid, n) => (rid, (rng.arrivals n).robot args.ambient)
  { robot_ids
    simulation :=
      { units := robots.map fun (rid, robot) => robot.enter_loop (clock rid)
        queue := []
        mission_counter := 1
        viewers_active := true }
    paired := by simp [robots] }

-- The processes of `total_workers` workers.
def fleet (args : Args F) (rng : Generator F) (clock : Nat → F) (total_workers : Nat) : List (Process F) :=
  (List.range total_workers).map fun i => main_async args rng clock i total_workers

-- `none` is the exit for want of a key.
def main (args : Args F) (rng : Generator F) (clock : Nat → F) : Option (List (Process F)) :=
  if (args.api_key.getD "").isEmpty then none
  else if 1 < args.workers then
    some (fleet args rng clock args.workers.toNat)
  else some [main_async args rng clock 0 1]

end Processes

section Runs

-- What happens in a process leaves the ids of its robots as they are.
theorem length_offer (now : F) (s : List (Machine F) × List (Mission F)) (mission : Mission F) :
    (offer now s mission).1.length = s.1.length := by
  rcases offer_cases now s mission with heq | ⟨selected, u, -, -, heq⟩
  · rw [heq]
  · rw [heq, List.length_modify]

theorem length_offers (now : F) (queue : List (Mission F)) (s : List (Machine F) × List (Mission F)) :
    (queue.foldl (offer now) s).1.length = s.1.length := by
  induction queue generalizing s with
  | nil => rfl
  | cons mission queue ih => rw [List.foldl_cons, ih, length_offer]

theorem length_units {ambient_c : F} {s t : Simulation F} {l : SimulationLabel F}
    (h : s.step ambient_c l = some t) : t.units.length = s.units.length := by
  cases l with
  | robot i event d =>
      obtain ⟨u, hu, h⟩ := Option.bind_eq_some_iff.mp h
      obtain ⟨next, hnext, rfl⟩ := Option.map_eq_some_iff.mp h
      exact List.length_set
  | dispatch now plan =>
      cases h
      exact length_offers now _ _
  | viewers active =>
      cases h
      rfl

def Process.step (ambient_c : F) (p : Process F) (l : SimulationLabel F) : Option (Process F) :=
  (p.simulation.step ambient_c l).attach.map fun s =>
    ⟨p.robot_ids, s.1, p.paired.trans (length_units s.2).symm⟩

-- The processes run on their own, in any order.
def fleet_step (ambient_c : F) (processes : List (Process F)) (l : Nat × SimulationLabel F) :
    Option (List (Process F)) :=
  processes[l.1]?.bind fun p => (p.step ambient_c l.2).map fun q => processes.set l.1 q

omit [Floats F] in
theorem driven_eq (p : Process F) : p.driven = p.robot_ids :=
  List.map_fst_zip p.paired.le

theorem robot_ids_step {ambient_c : F} {p q : Process F} {l : SimulationLabel F}
    (h : p.step ambient_c l = some q) : q.robot_ids = p.robot_ids := by
  obtain ⟨s, -, rfl⟩ := Option.map_eq_some_iff.mp h
  rfl

theorem fleet_step_ids {ambient_c : F} {s t : List (Process F)} {l : Nat × SimulationLabel F}
    (h : fleet_step ambient_c s l = some t) : t.map Process.driven = s.map Process.driven := by
  obtain ⟨p, hp, h⟩ := Option.bind_eq_some_iff.mp h
  obtain ⟨q, hq, rfl⟩ := Option.map_eq_some_iff.mp h
  obtain ⟨hlt, rfl⟩ := List.getElem?_eq_some_iff.mp hp
  have hkept : l.1 < (s.map Process.driven).length := by rwa [List.length_map]
  have hdriven : q.driven = (s.map Process.driven)[l.1] := by
    rw [List.getElem_map, driven_eq, driven_eq, robot_ids_step hq]
  rw [List.map_set, hdriven, List.set_getElem_self]

theorem fleet_run_ids {ambient_c : F} {s t : List (Process F)} {ls : List (Nat × SimulationLabel F)}
    (h : exec (fleet_step ambient_c) s ls = some t) : t.map Process.driven = s.map Process.driven :=
  exec_invariant (I := fun u => u.map Process.driven = s.map Process.driven)
    (fun _ _ _ hu hstep => (fleet_step_ids hstep).trans hu) rfl h

end Runs

section Division

variable {robots_count total_workers : Nat}

-- The workers' ranges follow one another from 1 to the last robot, and are as even as can be.
structure Partition (robots_count total_workers : Nat) (start_id end_id : Nat → Nat) : Prop where
  ordered : ∀ i < total_workers, start_id i ≤ end_id i
  disjoint : ∀ i < total_workers, ∀ j < total_workers, i ≠ j →
    Disjoint (Set.Ico (start_id i) (end_id i)) (Set.Ico (start_id j) (end_id j))
  first : start_id 0 = 1
  consecutive : ∀ i, i + 1 < total_workers → end_id i = start_id (i + 1)
  last : end_id (total_workers - 1) = robots_count + 1
  cover : ⋃ i ∈ Finset.range total_workers, Set.Ico (start_id i) (end_id i) = Set.Icc 1 robots_count
  even : ∀ i < total_workers, ∀ j < total_workers,
    end_id i - start_id i ≤ end_id j - start_id j + 1

theorem start_id_eq (i : Nat) :
    start_id robots_count total_workers i = Shares.cut 1 (Shares.share robots_count total_workers) i := rfl

theorem end_id_eq (i : Nat) : end_id robots_count total_workers i =
    Shares.cut 1 (Shares.share robots_count total_workers) (i + 1) :=
  (Shares.cut_succ 1 _ i).symm

theorem size_eq (i : Nat) : end_id robots_count total_workers i - start_id robots_count total_workers i =
    my_robots robots_count total_workers i :=
  Nat.add_sub_cancel_left _ _

theorem partition_ranges (hworkers : 1 ≤ total_workers) :
    Partition robots_count total_workers (start_id robots_count total_workers)
      (end_id robots_count total_workers) where
  ordered := fun _ _ => Nat.le_add_right _ _
  disjoint := by
    intro i _ j _ hne
    simp only [start_id_eq, end_id_eq]
    exact Shares.disjoint_blocks (Shares.monotone_cut 1 _) hne
  first := rfl
  consecutive := fun i _ => end_id_eq i
  last := by
    rw [end_id_eq, Nat.sub_add_cancel hworkers, Shares.cut_shares 1 hworkers]
  cover := by
    simp only [start_id_eq, end_id_eq]
    rw [Shares.biUnion_blocks (Shares.monotone_cut 1 _), Shares.cut_shares 1 hworkers, Shares.cut_zero]
    ext rid
    rw [Set.mem_Ico, Set.mem_Icc, Nat.lt_succ_iff]
  even := by
    intro i _ j _
    rw [size_eq, size_eq]
    exact Shares.share_le_succ i j

variable {args : Args F} {rng : Generator F} {clock : Nat → F}

theorem driven_main_async (worker_index : Nat) :
    (main_async args rng clock worker_index total_workers).driven =
      List.range' (start_id (args.robots_count rng) total_workers worker_index)
        (my_robots (args.robots_count rng) total_workers worker_index) := by
  rw [driven_eq, ← size_eq]
  rfl

-- Together the processes drive the robots of the fleet, each of them once.
theorem driven_fleet (hworkers : 1 ≤ total_workers) :
    (fleet args rng clock total_workers).flatMap Process.driven =
      List.range' 1 (args.robots_count rng) := by
  simp only [fleet, List.flatMap_map, driven_main_async]
  exact (Shares.flatMap_blocks 1 _ total_workers).trans
    (congrArg (List.range' 1) (Shares.sum_all_shares hworkers))

theorem driven_worker (w : Nat) : (fleet args rng clock total_workers)[w]?.map Process.driven =
    if w < total_workers then some (List.range' (start_id (args.robots_count rng) total_workers w)
      (my_robots (args.robots_count rng) total_workers w)) else none := by
  rw [fleet, List.getElem?_map]
  split
  · rename_i hlt
    rw [List.getElem?_range hlt, Option.map_some, Option.map_some, driven_main_async]
  · rename_i hlt
    rw [List.getElem?_eq_none (by simpa using hlt), Option.map_none, Option.map_none]

-- What the processes do does not change that.
theorem driven_run {ambient_c : F} {t : List (Process F)} {ls : List (Nat × SimulationLabel F)}
    (hworkers : 1 ≤ total_workers)
    (hrun : exec (fleet_step ambient_c) (fleet args rng clock total_workers) ls = some t) :
    t.flatMap Process.driven = List.range' 1 (args.robots_count rng) := by
  rw [List.flatMap_def, fleet_run_ids hrun, ← List.flatMap_def]
  exact driven_fleet hworkers

-- At any time of a run, a worker drives the robots of its range.
theorem drives_iff {ambient_c : F} {t : List (Process F)} {ls : List (Nat × SimulationLabel F)}
    (hrun : exec (fleet_step ambient_c) (fleet args rng clock total_workers) ls = some t) (w rid : Nat) :
    (∃ p, t[w]? = some p ∧ rid ∈ p.driven) ↔ w < total_workers ∧
      rid ∈ Set.Ico (start_id (args.robots_count rng) total_workers w)
        (end_id (args.robots_count rng) total_workers w) := by
  have hids : t[w]?.map Process.driven =
      (fleet args rng clock total_workers)[w]?.map Process.driven := by
    rw [← List.getElem?_map, ← List.getElem?_map, fleet_run_ids hrun]
  rw [driven_worker] at hids
  constructor
  · rintro ⟨p, hp, hmem⟩
    rw [hp, Option.map_some] at hids
    split at hids
    · rename_i hlt
      rw [Option.some.injEq] at hids
      rw [hids, List.mem_range'_1] at hmem
      exact ⟨hlt, hmem⟩
    · cases hids
  · rintro ⟨hlt, hmem⟩
    rw [if_pos hlt, Option.map_eq_some_iff] at hids
    obtain ⟨p, hp, hdriven⟩ := hids
    refine ⟨p, hp, ?_⟩
    rw [hdriven, List.mem_range'_1]
    exact hmem

-- Every robot of the fleet is one worker's, and its ids are those from 1 on. The ranges do not
-- depend on the process that computes them, and whatever the processes do, each goes on with its
-- own robots.
theorem workers_partition_fleet (robots_count : Nat) {total_workers : Nat} (hworkers : 1 ≤ total_workers) :
    Partition robots_count total_workers (start_id robots_count total_workers)
        (end_id robots_count total_workers) ∧
      ∀ (args : Args F) (rng : Generator F) (clock : Nat → F), args.robots_count rng = robots_count →
        ∀ (ls : List (Nat × SimulationLabel F)) (t : List (Process F)),
          exec (fleet_step args.ambient) (fleet args rng clock total_workers) ls = some t →
          t.flatMap Process.driven = List.range' 1 robots_count ∧
            ∀ rid, 1 ≤ rid → rid ≤ robots_count → ∃! w : Nat, ∃ p, t[w]? = some p ∧ rid ∈ p.driven := by
  refine ⟨partition_ranges hworkers, ?_⟩
  rintro args rng clock rfl ls t hrun
  refine ⟨driven_run hworkers hrun, fun rid hfirst hlast => ?_⟩
  simp only [drives_iff hrun, start_id_eq, end_id_eq]
  rw [Shares.existsUnique_block (Shares.monotone_cut 1 _), Shares.cut_zero,
    Shares.cut_shares 1 hworkers]
  exact ⟨hfirst, Nat.lt_succ_of_le hlast⟩

def two_robots : Args ℚ := ⟨2, 3, some "key", 30⟩

def worn : Generator ℚ := ⟨40, by decide, fun _ => ⟨0, 0, 1 / 2, 1, 1, 1, 1, 6, 3⟩⟩

-- The third worker has no robot.
theorem two_robots_three_workers :
    Partition 2 3 (start_id 2 3) (end_id 2 3) ∧
      ∃ t, exec (fleet_step 30) (fleet two_robots worn (fun _ => 1000) 3) [(1, .viewers false)] = some t ∧
        t.flatMap Process.driven = [1, 2] ∧ ∃! w : Nat, ∃ p, t[w]? = some p ∧ 2 ∈ p.driven := by
  obtain ⟨hpartition, hruns⟩ := workers_partition_fleet (F := ℚ) 2 (show 1 ≤ 3 by decide)
  obtain ⟨t, ht⟩ : ∃ t, exec (fleet_step 30) (fleet two_robots worn (fun _ => 1000) 3)
      [(1, .viewers false)] = some t := ⟨_, rfl⟩
  obtain ⟨hdriven, hworker⟩ := hruns two_robots worn _ rfl _ t ht
  exact ⟨hpartition, t, ht, hdriven, hworker 2 (by decide) (by decide)⟩

end Division

section Main

variable {args : Args F} {rng : Generator F} {clock : Nat → F} {processes : List (Process F)}

theorem main_fleet (h : main args rng clock = some processes) :
    ∃ total_workers, 1 ≤ total_workers ∧ processes = fleet args rng clock total_workers := by
  unfold main at h
  split at h
  · cases h
  · split at h
    · rename_i hworkers
      cases h
      exact ⟨args.workers.toNat, by omega, rfl⟩
    · cases h
      exact ⟨1, le_refl 1, rfl⟩

-- However many workers there are, the processes drive the robots from 1 to `robots_count`, each
-- of them once, whatever they do.
theorem main_drives (h : main args rng clock = some processes) {t : List (Process F)}
    {ls : List (Nat × SimulationLabel F)} (hrun : exec (fleet_step args.ambient) processes ls = some t) :
    t.flatMap Process.driven = List.range' 1 (args.robots_count rng) := by
  obtain ⟨total_workers, hworkers, rfl⟩ := main_fleet h
  exact driven_run hworkers hrun

theorem main_started (h : main args rng clock = some processes) :
    ∀ p ∈ processes, p.simulation.Started := by
  obtain ⟨total_workers, -, rfl⟩ := main_fleet h
  intro p hp
  obtain ⟨i, -, rfl⟩ := List.mem_map.mp hp
  refine ⟨rfl, rfl, fun u hu => ?_⟩
  obtain ⟨robot, hrobot, rfl⟩ := List.mem_map.mp hu
  obtain ⟨arrival, -, rfl⟩ := List.mem_map.mp hrobot
  exact ⟨rfl, rfl⟩

end Main

end FleetOps.Robot
