import FleetOps.Robot.Missions

namespace FleetOps.Robot

open FleetOps.Command Floats Runs

variable {F : Type*} [Floats F]

section Reports

-- What `emit_telemetry` says of the mission.
structure Report (F : Type*) where
  mission_id : Option Nat
  mission_type : Option MissionType
  mission_progress : Option F
  deriving DecidableEq

inductive Output (F : Type*) where
  | completed (mission_id : Nat) (mission_type : MissionType)
  | reported (report : Report F)
  deriving DecidableEq

def RobotState.report (robot : RobotState F) : Report F :=
  ⟨robot.mission_id, robot.mission.map Mission.mission_type, robot.mission_progress⟩

def Phase.emits : Phase F → Bool
  | .emitting_dead _ | .emitting_hot _ | .emitting_done _ | .emitting => true
  | _ => false

def Phase.isEnded : Phase F → Bool
  | .ended => true
  | _ => false

-- The mission of which a stretch counts the completion.
def completion (robot : RobotState F) (next : RobotState F × Phase F) : List (Nat × MissionType) :=
  if next.1.completion_count = robot.completion_count then []
  else robot.mission.toList.map fun mission => (mission.mission_id, mission.mission_type)

-- What a stretch of a robot's loop puts out: a completion, and then the reading, unless no one
-- is watching.
def outputs (viewers_active : Bool) (robot : RobotState F) (next : RobotState F × Phase F) :
    List (Output F) :=
  ((completion robot next).map fun c => .completed c.1 c.2) ++
    if viewers_active && next.2.emits then [.reported next.1.report] else []

def Simulation.output (ambient_c : F) (s : Simulation F) : SimulationLabel F → List (Output F)
  | .robot i event d =>
      (s.units[i]?.bind fun u =>
        (advance s.viewers_active ambient_c d u.robot u.phase event).map
          (outputs s.viewers_active u.robot)).getD []
  | .dispatch _ _ | .viewers _ => []

end Reports

section Plans

def Plan.mission_type : Plan F → MissionType
  | .patrol _ => .PATROL
  | .delivery _ _ => .DELIVERY
  | .inspection _ _ => .INSPECTION

-- `rng.randint(3, 5)` checkpoints and `rng.randint(2, 4)` inspections.
def Plan.Drawn : Plan F → Prop
  | .patrol checkpoints => 3 ≤ checkpoints.length ∧ checkpoints.length ≤ 5
  | .delivery _ _ => True
  | .inspection _ others => 1 ≤ others.length ∧ others.length ≤ 3

-- What doubles make of a mission's progress: it is full at the end and not before.
structure Progress (full : F → Bool) : Prop where
  start : full 0.0 = false
  reached : ∀ step steps, step < steps → steps ≤ 6 →
    full (round1 (min 100.0 (ofNat step * (100.0 / ofNat steps)))) = false
  final : full 100.0 = true

-- A mission as the dispatcher built it from the draws of its number, up to the steps reached.
structure Planned (plans : Nat → Plan F) (mission : Mission F) : Prop where
  mission_type : mission.mission_type = (plans mission.mission_id).mission_type
  progress_weight : mission.progress_weight = 100.0 / ofNat mission.steps.length
  steps : mission.steps.length ≤ 6

theorem planned_build_mission {plans : Nat → Plan F} (hdrawn : ∀ n, (plans n).Drawn) (n : Nat) :
    Planned plans (build_mission n (plans n)) ∧ (build_mission n (plans n)).mission_id = n := by
  have h := hdrawn n
  cases hplan : plans n with
  | patrol checkpoints =>
      rw [hplan] at h
      refine ⟨⟨by simp only [build_mission, hplan]; rfl, rfl, ?_⟩, rfl⟩
      simp only [build_mission, List.length_append, List.length_map, List.length_singleton]
      exact Nat.succ_le_succ h.2
  | delivery pickup dropoff =>
      exact ⟨⟨by simp only [build_mission, hplan]; rfl, rfl, by simp [build_mission]⟩, rfl⟩
  | inspection first others =>
      rw [hplan] at h
      refine ⟨⟨by simp only [build_mission, hplan]; rfl, rfl, ?_⟩, rfl⟩
      simp only [build_mission, List.length_map, List.length_cons]
      exact (Nat.succ_le_succ h.2).trans (by decide)

end Plans

section Books

-- The mission that a robot still works on.
def Machine.live (u : Machine F) : Option (Mission F) :=
  if u.phase.done || u.phase.isEnded then none else u.robot.mission

-- One robot against the completions of its process.
structure Kept (full : F → Bool) (completions : List (Nat × MissionType)) (u : Machine F) : Prop where
  mission_id : ∀ mission, u.robot.mission = some mission → u.robot.mission_id = some mission.mission_id
  live : ∀ mission, u.live = some mission → ∃ progress, u.robot.mission_progress = some progress ∧
    full progress = false
  done : u.phase.done = true → ∃ mission, u.robot.mission = some mission ∧
    (mission.mission_id, mission.mission_type) ∈ completions

-- The missions of one process: each number is in the queue, with one robot, or completed, and
-- only in one of these places, once.
structure Books (plans : Nat → Plan F) (full : F → Bool) (units : List (Machine F))
    (queue : List (Mission F)) (mission_counter : Nat) (completions : List (Nat × MissionType)) : Prop where
  queue_ids : (queue.map Mission.mission_id).Nodup
  queued : ∀ mission ∈ queue, Planned plans mission ∧ mission.mission_id < mission_counter ∧
    mission.mission_id ∉ completions.map Prod.fst
  live : ∀ (i : Nat) u mission, units[i]? = some u → u.live = some mission → Planned plans mission ∧
    mission.mission_id < mission_counter ∧ mission.mission_id ∉ completions.map Prod.fst ∧
    mission.mission_id ∉ queue.map Mission.mission_id
  one : ∀ (i j : Nat) u v mission other, units[i]? = some u → units[j]? = some v →
    u.live = some mission → v.live = some other → mission.mission_id = other.mission_id → i = j
  completed_ids : (completions.map Prod.fst).Nodup
  completed : ∀ c ∈ completions, c.1 < mission_counter ∧ c.2 = (plans c.1).mission_type
  kept : ∀ (i : Nat) u, units[i]? = some u → Kept full completions u

variable {plans : Nat → Plan F} {full : F → Bool} {units : List (Machine F)} {queue : List (Mission F)}
  {mission_counter : Nat} {completions : List (Nat × MissionType)} {u u' : Machine F}

omit [Floats F] in
theorem live_of_phase (h : u.phase.done = true ∨ u.phase.isEnded = true) : u.live = none := by
  rw [Machine.live, if_pos]
  rcases h with h | h <;> simp [h]

omit [Floats F] in
theorem live_eq_some {mission : Mission F} (h : u.live = some mission) :
    u.robot.mission = some mission ∧ u.phase.done = false ∧ u.phase.isEnded = false := by
  rw [Machine.live] at h
  split at h
  · cases h
  · rename_i hphase
    simp only [Bool.or_eq_true, not_or, Bool.not_eq_true] at hphase
    exact ⟨h, hphase⟩

omit [Floats F] in
theorem Kept.mono {more : List (Nat × MissionType)} (h : Kept full completions u) :
    Kept full (completions ++ more) u where
  mission_id := h.mission_id
  live := h.live
  done := fun hdone => by
    obtain ⟨mission, hmission, hmem⟩ := h.done hdone
    exact ⟨mission, hmission, List.mem_append_left _ hmem⟩

-- What a stretch of a robot's loop does to the books.
structure Moved (plans : Nat → Plan F) (full : F → Bool) (completions : List (Nat × MissionType))
    (u u' : Machine F) (more : List (Nat × MissionType)) : Prop where
  counted : more = [] ∨ ∃ mission, u.live = some mission ∧ u'.live = none ∧
    more = [(mission.mission_id, mission.mission_type)]
  live : ∀ mission, u'.live = some mission → Planned plans mission ∧
    ∃ before, u.live = some before ∧ before.mission_id = mission.mission_id
  kept : Kept full (completions ++ more) u'

omit [Floats F] in
theorem getElem?_set_cases {i j : Nat} {v : Machine F} (hu : units[i]? = some u)
    (hv : (units.set i u')[j]? = some v) : j = i ∧ v = u' ∨ j ≠ i ∧ units[j]? = some v := by
  by_cases hj : j = i
  · subst hj
    rw [List.getElem?_set_self (List.getElem?_eq_some_iff.mp hu).1] at hv
    exact .inl ⟨rfl, (Option.some.inj hv).symm⟩
  · rw [List.getElem?_set_ne (Ne.symm hj)] at hv
    exact .inr ⟨hj, hv⟩

theorem Moved.counted_id {more : List (Nat × MissionType)} (hmoved : Moved plans full completions u u' more)
    {n : Nat} (hn : n ∈ more.map Prod.fst) : ∃ mission, u.live = some mission ∧ n = mission.mission_id := by
  rcases hmoved.counted with rfl | ⟨mission, hmission, -, rfl⟩
  · cases hn
  · exact ⟨mission, hmission, by simpa using hn⟩

section Set

variable {i : Nat} {more : List (Nat × MissionType)}

-- Who is live now was live before, under the same number.
theorem Books.live_before (h : Books plans full units queue mission_counter completions)
    (hu : units[i]? = some u) (hmoved : Moved plans full completions u u' more) {j : Nat} {v : Machine F}
    {mission : Mission F} (hv : (units.set i u')[j]? = some v) (hmission : v.live = some mission) :
    Planned plans mission ∧ ∃ w before, units[j]? = some w ∧ w.live = some before ∧
      before.mission_id = mission.mission_id := by
  rcases getElem?_set_cases hu hv with ⟨rfl, rfl⟩ | ⟨-, hv⟩
  · obtain ⟨hplanned, before, hbefore, hid⟩ := hmoved.live mission hmission
    exact ⟨hplanned, u, before, hu, hbefore, hid⟩
  · exact ⟨(h.live j v mission hv hmission).1, v, mission, hv, hmission, rfl⟩

-- A mission that is completed here is live nowhere any more.
theorem Books.not_counted (h : Books plans full units queue mission_counter completions)
    (hu : units[i]? = some u) (hmoved : Moved plans full completions u u' more) {j : Nat} {v : Machine F}
    {mission : Mission F} (hv : (units.set i u')[j]? = some v) (hmission : v.live = some mission) :
    mission.mission_id ∉ more.map Prod.fst := by
  intro hmem
  rcases hmoved.counted with rfl | ⟨done, hdone, hgone, rfl⟩
  · cases hmem
  · have hid : mission.mission_id = done.mission_id := by simpa using hmem
    rcases getElem?_set_cases hu hv with ⟨-, rfl⟩ | ⟨hj, hv⟩
    · rw [hgone] at hmission
      cases hmission
    · exact hj (h.one j i v u mission done hv hu hmission hdone hid)

-- A robot moves on: its mission stays its own, or goes, or is completed.
theorem Books.set (h : Books plans full units queue mission_counter completions)
    (hu : units[i]? = some u) (hmoved : Moved plans full completions u u' more) :
    Books plans full (units.set i u') queue mission_counter (completions ++ more) := by
  refine ⟨h.queue_ids, fun mission hmission => ?_, fun j v mission hv hmission => ?_,
    fun j k v w mission other hv hw hmission hother hid => ?_, ?_, fun c hc => ?_, fun j v hv => ?_⟩
  · obtain ⟨hplanned, hcounter, hnot⟩ := h.queued mission hmission
    refine ⟨hplanned, hcounter, fun hmem => ?_⟩
    rw [List.map_append, List.mem_append] at hmem
    rcases hmem with hmem | hmem
    · exact hnot hmem
    · obtain ⟨done, hdone, hid⟩ := hmoved.counted_id hmem
      exact (h.live i u done hu hdone).2.2.2 (hid ▸ List.mem_map_of_mem hmission)
  · obtain ⟨hplanned, w, before, hw, hbefore, hid⟩ := h.live_before hu hmoved hv hmission
    obtain ⟨-, hcounter, hnot, hqueue⟩ := h.live j w before hw hbefore
    rw [hid] at hcounter hnot hqueue
    refine ⟨hplanned, hcounter, fun hmem => ?_, hqueue⟩
    rw [List.map_append, List.mem_append] at hmem
    exact hmem.elim hnot (h.not_counted hu hmoved hv hmission)
  · obtain ⟨-, v', before, hv', hbefore, hid'⟩ := h.live_before hu hmoved hv hmission
    obtain ⟨-, w', before', hw', hbefore', hid''⟩ := h.live_before hu hmoved hw hother
    exact h.one j k v' w' before before' hv' hw' hbefore hbefore' (hid'.trans (hid.trans hid''.symm))
  · rw [List.map_append]
    refine List.nodup_append.mpr ⟨h.completed_ids, ?_, fun n hn n' hn' => ?_⟩
    · rcases hmoved.counted with rfl | ⟨done, -, -, rfl⟩
      · exact List.nodup_nil
      · exact List.nodup_singleton _
    · rintro rfl
      obtain ⟨done, hdone, rfl⟩ := hmoved.counted_id hn'
      exact (h.live i u done hu hdone).2.2.1 hn
  · rcases List.mem_append.mp hc with hc | hc
    · exact h.completed c hc
    · rcases hmoved.counted with rfl | ⟨done, hdone, -, rfl⟩
      · cases hc
      · obtain ⟨hplanned, hcounter, -, -⟩ := h.live i u done hu hdone
        rw [List.mem_singleton.mp hc]
        exact ⟨hcounter, hplanned.mission_type⟩
  · rcases getElem?_set_cases hu hv with ⟨-, rfl⟩ | ⟨-, hv⟩
    · exact hmoved.kept
    · exact (h.kept j v hv).mono

end Set

end Books

section Steps

variable {plans : Nat → Plan F} {full : F → Bool} {completions : List (Nat × MissionType)}
  {viewers_active : Bool} {ambient_c : F} {d : Draws F} {u : Machine F} {event : Event F}
  {next : RobotState F × Phase F}

omit [Floats F] in
theorem completion_of_same (h : next.1.completion_count = u.robot.completion_count) :
    completion u.robot next = [] := if_pos h

omit [Floats F] in
theorem completion_of_complete {mission : Mission F} (hmission : u.robot.mission = some mission)
    (h : next.1.completion_count = u.robot.completion_count + 1) :
    completion u.robot next = [(mission.mission_id, mission.mission_type)] := by
  rw [completion, if_neg (by omega), hmission]
  rfl

-- The robot has nothing left to do on a mission.
theorem moved_settled {u' : Machine F} {more : List (Nat × MissionType)} (hlive : u'.live = none)
    (hid : ∀ mission, u'.robot.mission = some mission → u'.robot.mission_id = some mission.mission_id)
    (hdone : u'.phase.done = true → ∃ mission, u'.robot.mission = some mission ∧
      (mission.mission_id, mission.mission_type) ∈ completions ++ more)
    (hcounted : more = [] ∨ ∃ mission, u.live = some mission ∧
      more = [(mission.mission_id, mission.mission_type)]) :
    Moved plans full completions u u' more := by
  have hnone : ∀ mission, u'.live ≠ some mission := by simp [hlive]
  refine ⟨?_, fun mission h => absurd h (hnone mission), hid,
    fun mission h => absurd h (hnone mission), hdone⟩
  rcases hcounted with rfl | ⟨mission, hmission, rfl⟩
  · exact .inl rfl
  · exact .inr ⟨mission, hmission, hlive, rfl⟩

-- No mission, and none completed.
theorem moved_idle {u' : Machine F} (hmission : u'.robot.mission = none) (hphase : u'.phase.done = false)
    {more : List (Nat × MissionType)} (hcounted : more = [] ∨ ∃ mission, u.live = some mission ∧
      more = [(mission.mission_id, mission.mission_type)]) :
    Moved plans full completions u u' more := by
  refine moved_settled ?_ (fun mission h => ?_) (fun h => ?_) hcounted
  · rw [Machine.live, hmission, ite_self]
  · rw [hmission] at h
    cases h
  · rw [hphase] at h
    cases h

-- A completion that is being reported.
theorem moved_reporting {u' : Machine F} {mission : Mission F} {more : List (Nat × MissionType)}
    (hphase : u'.phase.done = true ∨ u'.phase.isEnded = true) (hmission : u'.robot.mission = some mission)
    (hid : u'.robot.mission_id = some mission.mission_id)
    (hmem : (mission.mission_id, mission.mission_type) ∈ completions ++ more)
    (hcounted : more = [] ∨ ∃ mission, u.live = some mission ∧
      more = [(mission.mission_id, mission.mission_type)]) :
    Moved plans full completions u u' more := by
  refine moved_settled (live_of_phase hphase) (fun other h => ?_)
    (fun _ => ⟨mission, hmission, hmem⟩) hcounted
  rw [hmission] at h
  cases h
  exact hid

theorem moved_done (hdone : u.phase.done = true) (hkept : Kept full completions u)
    (h : advance viewers_active ambient_c d u.robot u.phase event = some next) :
    Moved plans full completions u ⟨next.1, next.2⟩ (completion u.robot next) := by
  obtain ⟨mission, hmission, hmem⟩ := hkept.done hdone
  have hreporting : next.1.task = u.robot.task → next.2.done = true ∨ next.2.isEnded = true →
      Moved plans full completions u ⟨next.1, next.2⟩ (completion u.robot next) := by
    intro htask hphase
    rw [completion_of_same (congrArg Task.completion_count htask)]
    refine moved_reporting hphase ((congrArg Task.mission htask).trans hmission)
      ((congrArg Task.mission_id htask).trans (hkept.mission_id mission hmission)) ?_ (.inl rfl)
    rw [List.append_nil]
    exact hmem
  rcases done_advance hdone h with ⟨htask, turn, hphase⟩ | ⟨htask, hphase⟩ | ⟨htask, hphase⟩
  · exact hreporting htask (.inl (by rw [hphase]; rfl))
  · exact hreporting htask (.inr (by rw [hphase]; rfl))
  · rw [completion_of_same (congrArg Task.completion_count htask)]
    exact moved_idle (congrArg Task.mission htask) hphase (.inl rfl)

theorem moved_working (hprogress : Progress full) (hphase : u.phase.done = false)
    (hkept : Kept full completions u) (hplanned : ∀ mission, u.live = some mission → Planned plans mission)
    (h : advance viewers_active ambient_c d u.robot u.phase event = some next) :
    Moved plans full completions u ⟨next.1, next.2⟩ (completion u.robot next) := by
  have hended : u.phase.isEnded = false := by
    cases hcase : u.phase with
    | ended =>
        rw [hcase] at h
        cases event <;> cases h
    | _ => rfl
  have hlive : u.live = u.robot.mission := by
    rw [Machine.live, hphase, hended]
    rfl
  obtain ⟨task, phase, houtcome⟩ : ∃ task phase, outcome next = (task, phase) := ⟨_, _, rfl⟩
  have hturned := turned_advance hphase h
  rw [houtcome] at hturned
  obtain ⟨htask, rfl⟩ := Prod.mk.inj houtcome
  cases hturned with
  | kept _ hphase' =>
      rw [completion_of_same (congrArg Task.completion_count htask)]
      have hmission' : next.1.mission = u.robot.mission := congrArg Task.mission htask
      have hbefore : ∀ mission, Machine.live ⟨next.1, next.2⟩ = some mission → u.live = some mission :=
        fun mission hmission => (hlive.trans hmission'.symm).trans (live_eq_some hmission).1
      refine ⟨.inl rfl, fun mission hmission => ⟨hplanned mission (hbefore mission hmission), mission,
        hbefore mission hmission, rfl⟩, fun mission hmission => ?_, fun mission hmission => ?_,
        fun hdone => ?_⟩
      · exact (congrArg Task.mission_id htask).trans
          (hkept.mission_id mission (hmission'.symm.trans hmission))
      · obtain ⟨progress, hsome, hfull⟩ := hkept.live mission (hbefore mission hmission)
        exact ⟨progress, (congrArg Task.mission_progress htask).trans hsome, hfull⟩
      · rw [hphase'] at hdone
        cases hdone
  | cleared _ hphase' =>
      rw [completion_of_same (congrArg Task.completion_count htask)]
      exact moved_idle (congrArg Task.mission htask) hphase' (.inl rfl)
  | reached mission _ hmission hstep hphase' =>
      rw [completion_of_same (congrArg Task.completion_count htask)]
      have hbefore : u.live = some mission := hlive.trans hmission
      obtain ⟨htype, hweight, hsteps⟩ := hplanned mission hbefore
      have hmission' : next.1.mission = some { mission with current_step := mission.current_step + 1 } :=
        congrArg Task.mission htask
      refine ⟨.inl rfl, fun other hother => ?_, fun other hother => ?_, fun other hother => ?_,
        fun hdone => ?_⟩
      · cases hmission'.symm.trans (live_eq_some hother).1
        exact ⟨⟨htype, hweight, hsteps⟩, mission, hbefore, rfl⟩
      · cases hmission'.symm.trans hother
        exact (congrArg Task.mission_id htask).trans (hkept.mission_id mission hmission)
      · refine ⟨_, congrArg Task.mission_progress htask, ?_⟩
        rw [hweight]
        exact hprogress.reached _ _ hstep hsteps
      · rw [hphase'] at hdone
        cases hdone
  | reported mission _ hmission hphase' =>
      rw [completion_of_complete hmission (congrArg Task.completion_count htask)]
      exact moved_reporting (.inl hphase') (congrArg Task.mission htask)
        ((congrArg Task.mission_id htask).trans (hkept.mission_id mission hmission))
        (List.mem_append_right _ (List.mem_singleton_self _)) (.inr ⟨mission, hlive.trans hmission, rfl⟩)
  | unreported mission _ hmission hphase' =>
      rw [completion_of_complete hmission (congrArg Task.completion_count htask)]
      exact moved_idle (congrArg Task.mission htask) hphase' (.inr ⟨mission, hlive.trans hmission, rfl⟩)

theorem moved_advance (hprogress : Progress full) (hkept : Kept full completions u)
    (hplanned : ∀ mission, u.live = some mission → Planned plans mission)
    (h : advance viewers_active ambient_c d u.robot u.phase event = some next) :
    Moved plans full completions u ⟨next.1, next.2⟩ (completion u.robot next) := by
  cases hphase : u.phase.done with
  | true => exact moved_done hphase hkept h
  | false => exact moved_working hprogress hphase hkept hplanned h

end Steps

section Dispatching

variable {plans : Nat → Plan F} {full : F → Bool} {units : List (Machine F)} {queue : List (Mission F)}
  {mission_counter : Nat} {completions : List (Nat × MissionType)} {u : Machine F} {mission : Mission F}
  {now : F}

-- A mission of a number not given before is queued.
theorem Books.append (h : Books plans full units queue mission_counter completions)
    (hplanned : Planned plans mission) (hid : mission.mission_id = mission_counter) :
    Books plans full units (queue ++ [mission]) (mission_counter + 1) completions := by
  have hcompleted : mission.mission_id ∉ completions.map Prod.fst := by
    intro hmem
    obtain ⟨c, hc, heq⟩ := List.mem_map.mp hmem
    have hlt := (h.completed c hc).1
    omega
  refine ⟨?_, fun other hother => ?_, fun i v other hv hother => ?_, h.one, h.completed_ids,
    fun c hc => ⟨Nat.lt_succ_of_lt (h.completed c hc).1, (h.completed c hc).2⟩, h.kept⟩
  · rw [List.map_append, List.nodup_append]
    refine ⟨h.queue_ids, List.nodup_singleton _, fun n hn n' hn' => ?_⟩
    obtain ⟨other, hother, rfl⟩ := List.mem_map.mp hn
    have hlt := (h.queued other hother).2.1
    rw [List.map_singleton, List.mem_singleton] at hn'
    omega
  · rcases List.mem_append.mp hother with hother | hother
    · obtain ⟨hplanned', hlt, hnot⟩ := h.queued other hother
      exact ⟨hplanned', Nat.lt_succ_of_lt hlt, hnot⟩
    · rw [List.mem_singleton.mp hother]
      exact ⟨hplanned, by omega, hcompleted⟩
  · obtain ⟨hplanned', hlt, hnot, hqueue⟩ := h.live i v other hv hother
    refine ⟨hplanned', Nat.lt_succ_of_lt hlt, hnot, fun hmem => ?_⟩
    rw [List.map_append, List.mem_append] at hmem
    rcases hmem with hmem | hmem
    · exact hqueue hmem
    · rw [List.map_singleton, List.mem_singleton] at hmem
      omega

theorem candidate_mission (h : u.robot.candidate = true) : u.robot.mission = none := by
  simp only [RobotState.candidate, Bool.and_eq_true] at h
  exact Option.isNone_iff_eq_none.mp h.1.1.2

omit [Floats F] in
-- One mission goes from the queue.
theorem mem_eraseP_id {other : Mission F} {n : Nat} (hids : (queue.map Mission.mission_id).Nodup) :
    other ∈ queue.eraseP (fun m => m.mission_id == n) ↔ other ∈ queue ∧ other.mission_id ≠ n := by
  induction queue with
  | nil => simp
  | cons first queue ih =>
      rw [List.map_cons, List.nodup_cons] at hids
      by_cases hfirst : first.mission_id = n
      · rw [List.eraseP_cons_of_pos (by simp [hfirst]), List.mem_cons]
        constructor
        · intro hother
          refine ⟨.inr hother, fun heq => hids.1 ?_⟩
          rw [hfirst, ← heq]
          exact List.mem_map_of_mem hother
        · rintro ⟨rfl | hother, hne⟩
          · exact absurd hfirst hne
          · exact hother
      · rw [List.eraseP_cons_of_neg (by simp [hfirst]), List.mem_cons, List.mem_cons, ih hids.2]
        constructor
        · rintro (rfl | ⟨hother, hne⟩)
          · exact ⟨.inl rfl, hfirst⟩
          · exact ⟨.inr hother, hne⟩
        · rintro ⟨rfl | hother, hne⟩
          · exact .inl rfl
          · exact .inr ⟨hother, hne⟩

-- A queued mission goes to a robot without one.
theorem Books.assign (hprogress : Progress full)
    (h : Books plans full units queue mission_counter completions) (hmission : mission ∈ queue)
    {selected : Nat} (hu : units[selected]? = some u) (hcandidate : u.robot.candidate = true) :
    Books plans full (units.modify selected (Machine.assign mission now))
      (queue.eraseP fun other => other.mission_id == mission.mission_id) mission_counter completions := by
  have hnone : u.robot.mission = none := candidate_mission hcandidate
  have hmem : ∀ {other : Mission F},
      other ∈ (queue.eraseP fun other => other.mission_id == mission.mission_id) ↔
        other ∈ queue ∧ other.mission_id ≠ mission.mission_id := mem_eraseP_id h.queue_ids
  obtain ⟨hplanned, hcounter, hnot⟩ := h.queued mission hmission
  have hcases : ∀ (j : Nat) v, (units.modify selected (Machine.assign mission now))[j]? = some v →
      j = selected ∧ v = u.assign mission now ∨ j ≠ selected ∧ units[j]? = some v := by
    intro j v hv
    by_cases hj : selected = j
    · subst hj
      rw [List.getElem?_modify_eq, hu] at hv
      exact .inl ⟨rfl, (Option.some.inj hv).symm⟩
    · rw [List.getElem?_modify_ne _ _ hj] at hv
      exact .inr ⟨Ne.symm hj, hv⟩
  have hassigned : ∀ other, (u.assign mission now).live = some other → other = mission :=
    fun other hother => (Option.some.inj (live_eq_some hother).1).symm
  -- no other robot has a mission of this number
  have hother : ∀ (j : Nat) v other, units[j]? = some v → v.live = some other →
      other.mission_id ≠ mission.mission_id := fun j v other hv hlive heq =>
    (h.live j v other hv hlive).2.2.2 (heq ▸ List.mem_map_of_mem hmission)
  refine ⟨h.queue_ids.sublist (List.eraseP_sublist.map _),
    fun other hqueued => h.queued other (hmem.mp hqueued).1, fun j v other hv hlive => ?_,
    fun j k v w one other hv hw hone hlive hid => ?_, h.completed_ids, h.completed, fun j v hv => ?_⟩
  · rcases hcases j v hv with ⟨rfl, rfl⟩ | ⟨-, hv⟩
    · rw [hassigned other hlive]
      refine ⟨hplanned, hcounter, hnot, fun hid => ?_⟩
      obtain ⟨left, hleft, heq⟩ := List.mem_map.mp hid
      exact (hmem.mp hleft).2 heq
    · obtain ⟨hplanned', hcounter', hnot', hqueue⟩ := h.live j v other hv hlive
      refine ⟨hplanned', hcounter', hnot', fun hid => hqueue ?_⟩
      obtain ⟨left, hleft, heq⟩ := List.mem_map.mp hid
      exact heq ▸ List.mem_map_of_mem (hmem.mp hleft).1
  · rcases hcases j v hv with ⟨rfl, rfl⟩ | ⟨-, hv'⟩
    · rw [hassigned one hone] at hid
      rcases hcases k w hw with ⟨rfl, rfl⟩ | ⟨-, hw⟩
      · rfl
      · exact absurd hid.symm (hother k w other hw hlive)
    · rcases hcases k w hw with ⟨rfl, rfl⟩ | ⟨-, hw'⟩
      · rw [hassigned other hlive] at hid
        exact absurd hid (hother j v one hv' hone)
      · exact h.one j k v w one other hv' hw' hone hlive hid
  · rcases hcases j v hv with ⟨-, rfl⟩ | ⟨-, hv⟩
    · refine ⟨fun other hother => by rw [← Option.some.inj hother]; rfl,
        fun _ _ => ⟨0.0, rfl, hprogress.start⟩, fun hdone => ?_⟩
      obtain ⟨other, hsome, -⟩ := (h.kept selected u hu).done hdone
      rw [hnone] at hsome
      cases hsome
    · exact h.kept j v hv

-- The dispatcher goes through a list of queued missions.
theorem Books.offer (hprogress : Progress full) {missions : List (Mission F)}
    (hids : (missions.map Mission.mission_id).Nodup) (hmissions : ∀ mission ∈ missions, mission ∈ queue)
    (h : Books plans full units queue mission_counter completions) :
    Books plans full (missions.foldl (Robot.offer now) (units, queue)).1
      (missions.foldl (Robot.offer now) (units, queue)).2 mission_counter completions := by
  induction missions generalizing units queue with
  | nil => exact h
  | cons mission missions ih =>
      rw [List.map_cons, List.nodup_cons] at hids
      have hqueued : mission ∈ queue := hmissions mission List.mem_cons_self
      have hrest : ∀ other ∈ missions, other ∈ queue := fun other hother =>
        hmissions other (List.mem_cons_of_mem _ hother)
      rw [List.foldl_cons]
      rcases offer_cases now (units, queue) mission with heq | ⟨selected, u, hu, hcandidate, heq⟩
      · rw [heq]
        exact ih hids.2 hrest h
      · rw [heq]
        refine ih hids.2 (fun other hother => (mem_eraseP_id h.queue_ids).mpr
          ⟨hrest other hother, fun hid => ?_⟩) (h.assign hprogress hqueued hu hcandidate)
        exact hids.1 (hid ▸ List.mem_map_of_mem hother)

theorem Books.dispatch {s : Simulation F} (hprogress : Progress full) (hdrawn : ∀ n, (plans n).Drawn)
    (h : Books plans full s.units s.queue s.mission_counter completions) :
    Books plans full (s.dispatch now (plans s.mission_counter)).units
      (s.dispatch now (plans s.mission_counter)).queue
      (s.dispatch now (plans s.mission_counter)).mission_counter completions := by
  obtain ⟨hplanned, hid⟩ := planned_build_mission hdrawn s.mission_counter
  by_cases hshort : s.queue.length < 4
  · have happend := h.append hplanned hid
    simp only [Simulation.dispatch, if_pos hshort]
    exact happend.offer hprogress happend.queue_ids fun _ hmem => hmem
  · simp only [Simulation.dispatch, if_neg hshort]
    exact h.offer hprogress h.queue_ids fun _ hmem => hmem

end Dispatching

section Accounts

def Output.completion : Output F → Option (Nat × MissionType)
  | .completed mission_id mission_type => some (mission_id, mission_type)
  | .reported _ => none

def completions (os : List (Output F)) : List (Nat × MissionType) := os.filterMap Output.completion

-- Who reports a mission at its full progress reports one that is completed.
def Backed (full : F → Bool) (completions : List (Nat × MissionType)) (report : Report F) : Prop :=
  ∀ mission_type progress, report.mission_type = some mission_type →
    report.mission_progress = some progress → full progress = true →
    ∃ n, report.mission_id = some n ∧ (n, mission_type) ∈ completions

-- A process and all that it has put out.
structure Accounted (plans : Nat → Plan F) (full : F → Bool) (s : Simulation F)
    (os : List (Output F)) : Prop where
  books : Books plans full s.units s.queue s.mission_counter (completions os)
  backed : ∀ report, .reported report ∈ os → Backed full (completions os) report

variable {plans : Nat → Plan F} {full : F → Bool} {u : Machine F} {viewers_active : Bool} {ambient_c : F}
  {s t : Simulation F} {os : List (Output F)}

omit [Floats F] in
theorem Kept.backed {completions : List (Nat × MissionType)} (h : Kept full completions u)
    (hemits : u.phase.emits = true) : Backed full completions u.robot.report := by
  intro mission_type progress htype hprogress hfull
  obtain ⟨mission, hmission, rfl⟩ := Option.map_eq_some_iff.mp htype
  refine ⟨mission.mission_id, h.mission_id mission hmission, ?_⟩
  cases hdone : u.phase.done with
  | true =>
      obtain ⟨other, hother, hmem⟩ := h.done hdone
      cases hmission.symm.trans hother
      exact hmem
  | false =>
      have hended : u.phase.isEnded = false := by
        cases hphase : u.phase with
        | ended =>
            rw [hphase] at hemits
            cases hemits
        | _ => rfl
      have hlive : u.live = some mission := by
        rw [Machine.live, hdone, hended]
        exact hmission
      obtain ⟨progress', hsome, hnot⟩ := h.live mission hlive
      cases hprogress.symm.trans hsome
      rw [hfull] at hnot
      cases hnot

omit [Floats F] in
theorem completions_outputs (robot : RobotState F) (next : RobotState F × Phase F) :
    completions (outputs viewers_active robot next) = completion robot next := by
  have hreported :
      completions (if viewers_active && next.2.emits then [Output.reported next.1.report] else []) = [] := by
    split <;> rfl
  have hcounted : completions ((completion robot next).map fun c => (.completed c.1 c.2 : Output F)) =
      completion robot next := by
    rw [completions, List.filterMap_map]
    exact List.filterMap_some
  rw [completions] at hreported hcounted
  rw [completions, outputs, List.filterMap_append, hreported, hcounted, List.append_nil]

omit [Floats F] in
theorem reported_outputs {robot : RobotState F} {next : RobotState F × Phase F} {report : Report F}
    (h : .reported report ∈ outputs viewers_active robot next) :
    next.2.emits = true ∧ report = next.1.report := by
  simp only [outputs, List.mem_append, List.mem_map] at h
  rcases h with ⟨c, -, hc⟩ | h
  · cases hc
  · split at h
    · rename_i hemits
      rw [Bool.and_eq_true] at hemits
      cases List.mem_singleton.mp h
      exact ⟨hemits.2, rfl⟩
    · cases h

theorem Accounted.step (hprogress : Progress full) (hdrawn : ∀ n, (plans n).Drawn) {l : SimulationLabel F}
    (hplan : ∀ now plan, l = .dispatch now plan → plan = plans s.mission_counter)
    (h : Accounted plans full s os) (hstep : s.step ambient_c l = some t) :
    Accounted plans full t (os ++ s.output ambient_c l) := by
  cases l with
  | robot i event d =>
      simp only [Simulation.step, Option.bind_eq_some_iff, Option.map_eq_some_iff] at hstep
      obtain ⟨u, hu, next, hnext, rfl⟩ := hstep
      have houtput : s.output ambient_c (.robot i event d) = outputs s.viewers_active u.robot next := by
        simp only [Simulation.output, hu, Option.bind_some, hnext, Option.map_some, Option.getD_some]
      have hmoved := moved_advance hprogress (h.books.kept i u hu)
        (fun mission hmission => (h.books.live i u mission hu hmission).1) hnext
      have hall : completions (os ++ outputs s.viewers_active u.robot next) =
          completions os ++ completion u.robot next := by
        rw [← completions_outputs u.robot next]
        exact List.filterMap_append
      rw [houtput]
      refine ⟨?_, fun report hreport => ?_⟩
      · rw [hall]
        exact h.books.set hu hmoved
      · rw [hall]
        rcases List.mem_append.mp hreport with hold | hnew
        · intro mission_type progress htype hsome hfull
          obtain ⟨n, hid, hmem⟩ := h.backed report hold mission_type progress htype hsome hfull
          exact ⟨n, hid, List.mem_append_left _ hmem⟩
        · obtain ⟨hemits, rfl⟩ := reported_outputs hnew
          exact hmoved.kept.backed hemits
  | dispatch now plan =>
      cases hstep
      obtain rfl := hplan now plan rfl
      rw [Simulation.output, List.append_nil]
      exact ⟨h.books.dispatch hprogress hdrawn, h.backed⟩
  | viewers active =>
      cases hstep
      rw [Simulation.output, List.append_nil]
      exact ⟨h.books, h.backed⟩

-- A process as `main_async` starts it, with no mission yet.
structure Simulation.Started (s : Simulation F) : Prop where
  queue : s.queue = []
  mission_counter : s.mission_counter = 1
  units : ∀ u ∈ s.units, u.robot.mission = none ∧ u.phase = .asleep

theorem accounted_started (h : s.Started) : Accounted plans full s [] := by
  obtain ⟨hqueue, -, hunits⟩ := h
  have hunit : ∀ (i : Nat) u, s.units[i]? = some u → u.robot.mission = none ∧ u.phase = .asleep :=
    fun i u hu => hunits u (List.mem_of_getElem? hu)
  have hlive : ∀ (i : Nat) u mission, s.units[i]? = some u → u.live ≠ some mission := by
    intro i u mission hu hmission
    have hnone := (hunit i u hu).1
    rw [(live_eq_some hmission).1] at hnone
    cases hnone
  refine ⟨⟨?_, ?_, fun i u mission hu hmission => absurd hmission (hlive i u mission hu),
    fun i _ u _ mission _ hu _ hmission _ _ => absurd hmission (hlive i u mission hu), List.nodup_nil,
    fun _ hc => (nomatch hc), fun i u hu => ⟨fun mission hmission => ?_,
      fun mission hmission => absurd hmission (hlive i u mission hu), fun hdone => ?_⟩⟩,
    fun _ hreport => (nomatch hreport)⟩
  · rw [hqueue]
    exact List.nodup_nil
  · rw [hqueue]
    exact fun _ hmission => nomatch hmission
  · rw [(hunit i u hu).1] at hmission
    cases hmission
  · rw [(hunit i u hu).2] at hdone
    cases hdone

end Accounts

end FleetOps.Robot
