import FleetOps.Robot.Books
import FleetOps.Robot.Stopped

namespace FleetOps.Robot

open FleetOps.Command Floats Runs

variable {F : Type*} [Floats F]

section Courses

-- The next step of the mission is one of its steps.
def Task.OnCourse (task : Task F) : Prop :=
  ∀ mission, task.mission = some mission → mission.current_step < mission.steps.length

-- A turn after its commands.
def Phase.judged : Phase F → Bool
  | .claiming _ | .acknowledging _ _ _ | .executing _ _ _ | .patching _ _ | .announcing _ => false
  | _ => true

-- A turn stops at one of its awaits, unless the mission has no step to go to.
structure Judged (task : Task F) (phase : Phase F) : Prop where
  judged : phase.judged = true
  ended : phase.isEnded = true → ¬task.OnCourse

omit [Floats F] in
theorem Judged.congr {task task' : Task F} {phase : Phase F} (h : Judged task phase)
    (hcourse : task'.OnCourse → task.OnCourse) : Judged task' phase :=
  ⟨h.judged, fun hended hon => h.ended hended (hcourse hon)⟩

omit [Floats F] in
theorem onCourse_clear (task : Task F) : task.clear.OnCourse := by
  intro mission h
  cases h

omit [Floats F] in
theorem onCourse_of_clear {task task' : Task F} (h : task' = task ∨ task' = task.clear)
    (hcourse : task.OnCourse) : task'.OnCourse := by
  rcases h with rfl | rfl
  · exact hcourse
  · exact onCourse_clear task

namespace RobotState

variable (robot : RobotState F) (ambient_c : F) (turn : Turn F) (d : Draws F)

omit [Floats F] in
theorem emit_phase : (robot.emit turn).2.judged = true ∧ (robot.emit turn).2.isEnded = false := by
  simp only [emit]
  split <;> exact ⟨rfl, rfl⟩

theorem finish_phase :
    (robot.finish turn d).2.judged = true ∧ (robot.finish turn d).2.isEnded = false := by
  simp only [finish]
  split
  · split
    · exact ⟨rfl, rfl⟩
    · exact emit_phase _ turn
  · split
    · exact emit_phase _ turn
    · exact emit_phase _ turn

theorem judged_finish (task : Task F) : Judged task (robot.finish turn d).2 := by
  obtain ⟨hjudged, hended⟩ := robot.finish_phase turn d
  refine ⟨hjudged, fun h => ?_⟩
  rw [hended] at h
  cases h

omit [Floats F] in
theorem judged_await (task : Task F) {phase : Phase F} (hjudged : phase.judged = true)
    (hended : phase.isEnded = false) : Judged task phase := by
  refine ⟨hjudged, fun h => ?_⟩
  rw [hended] at h
  cases h

-- There is no such step only past the end of the mission.
omit [Floats F] in
theorem judged_ended {mission : Mission F} (hmission : robot.mission = some mission)
    (hstep : mission.steps[mission.current_step]? = none) : Judged robot.task (.ended : Phase F) := by
  refine ⟨rfl, fun _ hcourse => ?_⟩
  have hin := hcourse mission hmission
  have hout := List.getElem?_eq_none_iff.mp hstep
  omega

theorem judged_overheating : Judged robot.task (robot.overheating ambient_c turn d).2 := by
  simp only [overheating]
  split
  · exact judged_finish _ turn d _
  · rename_i mission hmission
    split
    · rename_i hstep
      exact judged_ended robot hmission hstep
    · split
      · split
        · split
          · exact judged_finish _ turn d _
          · exact judged_await _ rfl rfl
        · exact judged_finish _ turn d _
      · exact judged_finish _ turn d _

theorem judged_operate {mission : Mission F} (hmission : robot.mission = some mission) :
    Judged robot.task (robot.operate mission ambient_c turn d).2 := by
  simp only [operate]
  split
  · rename_i hstep
    exact judged_ended robot hmission hstep
  · split
    · exact judged_finish _ turn d _
    · split
      · split
        · split
          · exact judged_finish _ turn d _
          · exact judged_await _ rfl rfl
        · exact judged_finish _ turn d _
      · exact judged_finish _ turn d _

theorem judged_physics : Judged robot.task (robot.physics ambient_c turn d).2 := by
  have hcourse : robot.task.OnCourse → robot.low_power.top_up.task.OnCourse := by
    refine onCourse_of_clear ?_
    rw [top_up_task]
    exact robot.low_power_task.imp_right And.left
  simp only [physics]
  split
  · exact judged_finish _ turn d _
  · split
    · exact judged_finish _ turn d _
    · split
      · exact (judged_overheating _ ambient_c turn d).congr hcourse
      · split
        · rename_i mission hmission
          exact (judged_operate _ ambient_c turn d hmission).congr hcourse
        · exact judged_finish _ turn d _

theorem judged_judge : Judged robot.task (robot.judge ambient_c turn d).2 := by
  simp only [judge]
  split
  · split <;> exact judged_await _ rfl rfl
  · split
    · obtain ⟨hjudged, hended⟩ := robot.emit_phase turn
      exact judged_await _ hjudged hended
    · exact judged_physics robot ambient_c turn d

-- The turn up to its next await goes on with the commands or is judged.
theorem next_command_ended (data : List ClaimedCommand)
    (h : (robot.next_command ambient_c turn d data).2.isEnded = true) : ¬robot.task.OnCourse := by
  cases data with
  | nil => exact (judged_judge robot ambient_c turn d).ended h
  | cons cmd_obj data =>
      simp only [next_command] at h
      split at h <;> cases h

theorem wake_ended (viewers_active : Bool) (now : F)
    (h : (robot.wake viewers_active ambient_c now d).2.isEnded = true) : ¬robot.task.OnCourse := by
  simp only [wake] at h
  split at h
  · cases h
  · have hjudged := (judged_judge _ ambient_c _ d).ended h
    rw [blackout_task] at hjudged
    exact hjudged

end RobotState

-- Between two completions a robot is on course.
def Machine.Sound (u : Machine F) : Prop :=
  u.phase.done = false → u.phase.isEnded = false → u.robot.task.OnCourse

variable {viewers_active : Bool} {ambient_c : F} {d : Draws F} {robot : RobotState F} {phase : Phase F}
  {event : Event F} {next : RobotState F × Phase F}

theorem onCourse_of_turned {task : Task F} {out : Task F × Phase F} (h : Turned task out)
    (hcourse : task.OnCourse) (hdone : out.2.done = false) : out.1.OnCourse := by
  cases h with
  | kept phase hphase => exact hcourse
  | cleared phase hphase => exact onCourse_clear task
  | reached mission phase hmission hstep hphase =>
      intro other hother
      cases hother
      exact hstep
  | reported mission phase hmission hphase =>
      rw [hphase] at hdone
      cases hdone
  | unreported mission phase hmission hphase => exact onCourse_clear _

theorem not_ended_of_advance (h : advance viewers_active ambient_c d robot phase event = some next) :
    phase.isEnded = false := by
  cases phase with
  | ended => cases h
  | _ => rfl

theorem sound_advance (hsound : Machine.Sound ⟨robot, phase⟩)
    (h : advance viewers_active ambient_c d robot phase event = some next) :
    Machine.Sound ⟨next.1, next.2⟩ := by
  intro hdone hended
  cases hphase : phase.done with
  | false =>
      have hcourse := hsound hphase (not_ended_of_advance h)
      exact onCourse_of_turned (turned_advance hphase h) hcourse hdone
  | true =>
      rcases done_advance hphase h with ⟨-, turn, hnext⟩ | ⟨-, hnext⟩ | ⟨hclear, -⟩
      · rw [hnext] at hdone
        cases hdone
      · rw [hnext] at hended
        cases hended
      · change next.1.task.OnCourse
        rw [hclear]
        exact onCourse_clear _

-- Nothing but a cancellation gets a sound robot out of its loop.
theorem cancelled_of_ended (hsound : Machine.Sound ⟨robot, phase⟩)
    (h : advance viewers_active ambient_c d robot phase event = some next)
    (hended : next.2.isEnded = true) : event = .cancelled := by
  cases event with
  | cancelled => rfl
  | wake now =>
      cases phase with
      | asleep =>
          obtain rfl := Option.some.inj h
          exact absurd (hsound rfl rfl) (robot.wake_ended ambient_c d viewers_active now hended)
      | _ => cases h
  | claimed data =>
      cases phase with
      | claiming turn =>
          obtain rfl := Option.some.inj h
          exact absurd (hsound rfl rfl) (robot.next_command_ended ambient_c turn d _ hended)
      | _ => cases h
  | returned =>
      have hfinish : ∀ (robot' : RobotState F) (turn : Turn F),
          (robot'.finish turn d).2.isEnded = true → False := by
        intro robot' turn hfinished
        rw [(robot'.finish_phase turn d).2] at hfinished
        cases hfinished
      cases phase with
      | patching turn data =>
          obtain rfl := Option.some.inj h
          exact absurd (hsound rfl rfl) (robot.next_command_ended ambient_c turn d data hended)
      | emitting_hot turn | announcing turn =>
          obtain rfl := Option.some.inj h
          exact (hfinish _ turn hended).elim
      | fencing turn =>
          obtain rfl := Option.some.inj h
          rw [RobotState.settle, (RobotState.emit_phase _ turn).2] at hended
          cases hended
      | acknowledging | executing | emitting_dead | emitting_done | emitting =>
          obtain rfl := Option.some.inj h
          cases hended
      | asleep | claiming | ended => cases h

end Courses

section Pending

-- The commands of a claim's response that the robot has not executed, the one in hand first.
def Phase.pending : Phase F → List ClaimedCommand
  | .acknowledging _ cmd_obj data | .executing _ cmd_obj data => cmd_obj :: data
  | .patching _ data => data
  | _ => []

variable {viewers_active : Bool} {ambient_c : F} {d : Draws F} {robot : RobotState F} {phase : Phase F}
  {event : Event F} {next : RobotState F × Phase F}

omit [Floats F] in
theorem pending_of_judged (h : phase.judged = true) : phase.pending = [] := by
  cases phase with
  | acknowledging | executing | patching => cases h
  | _ => rfl

theorem pending_judge (robot : RobotState F) (ambient_c : F) (turn : Turn F) (d : Draws F) :
    (robot.judge ambient_c turn d).2.pending = [] :=
  pending_of_judged (robot.judged_judge ambient_c turn d).judged

theorem pending_next_command (robot : RobotState F) (ambient_c : F) (turn : Turn F) (d : Draws F)
    (data : List ClaimedCommand) :
    (robot.next_command ambient_c turn d data).2.pending.Sublist data := by
  cases data with
  | nil => rw [RobotState.next_command, pending_judge]
  | cons cmd_obj data =>
      simp only [RobotState.next_command]
      split
      · exact List.sublist_cons_self cmd_obj data
      · exact List.Sublist.refl _

theorem pending_wake (robot : RobotState F) (viewers_active : Bool) (ambient_c now : F) (d : Draws F) :
    (robot.wake viewers_active ambient_c now d).2.pending = [] := by
  simp only [RobotState.wake]
  split
  · rfl
  · exact pending_judge _ ambient_c _ d

-- A command comes in by a claim's response only, and goes out when it is executed.
theorem pending_advance (h : advance viewers_active ambient_c d robot phase event = some next) :
    next.2.pending.Sublist phase.pending ∨
      ∃ data, event = .claimed (some data) ∧ next.2.pending.Sublist data := by
  have hnone : ∀ {phase' : Phase F}, phase'.pending = [] → phase'.pending.Sublist phase.pending := by
    intro phase' hphase
    rw [hphase]
    exact List.nil_sublist _
  have hfinish : ∀ (robot' : RobotState F) (turn : Turn F),
      (robot'.finish turn d).2.pending.Sublist phase.pending := fun robot' turn =>
    hnone (pending_of_judged (robot'.finish_phase turn d).1)
  cases event with
  | cancelled =>
      obtain rfl := cancelled_advance h
      exact .inl (hnone rfl)
  | wake now =>
      cases phase with
      | asleep =>
          obtain rfl := Option.some.inj h
          exact .inl (hnone (pending_wake robot viewers_active ambient_c now d))
      | _ => cases h
  | claimed data =>
      cases phase with
      | claiming turn =>
          obtain rfl := Option.some.inj h
          have hpending := pending_next_command robot ambient_c turn d (data.getD [])
          cases data with
          | none => exact .inl hpending
          | some data => exact .inr ⟨data, rfl, hpending⟩
      | _ => cases h
  | returned =>
      cases phase with
      | acknowledging turn cmd_obj data =>
          obtain rfl := Option.some.inj h
          exact .inl (List.Sublist.refl _)
      | executing turn cmd_obj data =>
          obtain rfl := Option.some.inj h
          exact .inl (List.sublist_cons_self cmd_obj data)
      | patching turn data =>
          obtain rfl := Option.some.inj h
          exact .inl (pending_next_command robot ambient_c turn d data)
      | emitting_hot turn | announcing turn =>
          obtain rfl := Option.some.inj h
          exact .inl (hfinish _ turn)
      | fencing turn =>
          obtain rfl := Option.some.inj h
          exact .inl (hnone (pending_of_judged (RobotState.emit_phase _ turn).1))
      | emitting_dead | emitting_done | emitting =>
          obtain rfl := Option.some.inj h
          exact .inl (hnone rfl)
      | asleep | claiming | ended => cases h

end Pending

section Dispatches

-- What the dispatcher makes of one robot: itself, or with one of the missions, if it was a candidate.
def Assigns (now : F) (missions : List (Mission F)) (f : Machine F → Machine F) : Prop :=
  ∀ u, f u = u ∨ ∃ mission ∈ missions, u.robot.candidate = true ∧ f u = u.assign mission now

theorem not_candidate_assign (u : Machine F) (mission : Mission F) (now : F) :
    (u.assign mission now).robot.candidate = false := by
  simp [Machine.assign, RobotState.assign_mission, RobotState.candidate]

-- No robot gets two missions in one turn of the dispatcher.
theorem offers_unit (now : F) (i : Nat) (missions : List (Mission F))
    (r : List (Machine F) × List (Mission F)) :
    ∃ f, Assigns now missions f ∧ (missions.foldl (offer now) r).1[i]? = r.1[i]?.map f := by
  induction missions generalizing r with
  | nil => exact ⟨id, fun u => .inl rfl, by simp⟩
  | cons mission missions ih =>
      obtain ⟨f, hf, hrest⟩ := ih (offer now r mission)
      rw [List.foldl_cons, hrest]
      have hlater : Assigns now (mission :: missions) f := by
        intro u
        rcases hf u with hsame | ⟨other, hother, hassigned⟩
        · exact .inl hsame
        · exact .inr ⟨other, List.mem_cons_of_mem _ hother, hassigned⟩
      rcases offer_cases now r mission with hsame | ⟨selected, u, hu, hcandidate, hoffer⟩
      · exact ⟨f, hlater, by rw [hsame]⟩
      · by_cases hi : selected = i
        · subst hi
          refine ⟨fun v => if v.robot.candidate then v.assign mission now else v, fun v => ?_, ?_⟩
          · by_cases hv : v.robot.candidate = true
            · exact .inr ⟨mission, List.mem_cons_self, hv, if_pos hv⟩
            · exact .inl (if_neg hv)
          · rw [hoffer, List.getElem?_modify_eq, hu]
            rcases hf (u.assign mission now) with hkept | ⟨other, -, htwice, -⟩
            · simp only [Option.map_some, if_pos hcandidate, Machine.assign] at hkept ⊢
              exact congrArg some hkept
            · rw [not_candidate_assign] at htwice
              cases htwice
        · refine ⟨f, hlater, ?_⟩
          rw [hoffer, List.getElem?_modify_ne _ _ hi]

-- The missions on offer: the queue, and a new one if it is short.
def Simulation.offered (s : Simulation F) (plan : Plan F) : List (Mission F) :=
  if s.queue.length < 4 then s.queue ++ [build_mission s.mission_counter plan] else s.queue

theorem dispatch_eq (s : Simulation F) (now : F) (plan : Plan F) :
    (s.dispatch now plan).units = ((s.offered plan).foldl (offer now) (s.units, s.offered plan)).1 ∧
    (s.dispatch now plan).queue = ((s.offered plan).foldl (offer now) (s.units, s.offered plan)).2 := by
  simp only [Simulation.dispatch, Simulation.offered]
  split <;> exact ⟨rfl, rfl⟩

theorem dispatch_unit (s : Simulation F) (now : F) (plan : Plan F) (i : Nat) :
    ∃ f, Assigns now (s.offered plan) f ∧ (s.dispatch now plan).units[i]? = s.units[i]?.map f := by
  rw [(dispatch_eq s now plan).1]
  exact offers_unit now i _ _

theorem offers_queue (now : F) (missions : List (Mission F)) (r : List (Machine F) × List (Mission F)) :
    (missions.foldl (offer now) r).2 ⊆ r.2 := by
  induction missions generalizing r with
  | nil => exact fun _ h => h
  | cons mission missions ih =>
      refine List.Subset.trans (ih _) ?_
      rcases offer_cases now r mission with hsame | ⟨selected, u, -, -, hoffer⟩
      · rw [hsame]
        exact fun _ h => h
      · rw [hoffer]
        exact List.eraseP_subset

theorem dispatch_queue (s : Simulation F) (now : F) (plan : Plan F) :
    (s.dispatch now plan).queue ⊆ s.offered plan := by
  rw [(dispatch_eq s now plan).2]
  exact offers_queue now _ _

end Dispatches

section Loops

variable {ambient_c : F} {s t : Simulation F} {l : SimulationLabel F} {run : List (SimulationLabel F)}

structure Simulation.Sound (s : Simulation F) : Prop where
  units : ∀ (i : Nat) (u : Machine F), s.units[i]? = some u → u.Sound
  queue : ∀ mission ∈ s.queue, mission.current_step < mission.steps.length

omit [Floats F] in
theorem sound_started (h : s.Started) : s.Sound where
  units := by
    intro i u hu _ _ mission hmission
    have hnone := (h.units u (List.mem_of_getElem? hu)).1
    rw [RobotState.task, hnone] at hmission
    cases hmission
  queue := by simp [h.queue]

theorem sound_offered (h : s.Sound) (plan : Plan F) :
    ∀ mission ∈ s.offered plan, mission.current_step < mission.steps.length := by
  intro mission hmission
  rw [Simulation.offered] at hmission
  split at hmission
  · rcases List.mem_append.mp hmission with hold | hnew
    · exact h.queue mission hold
    · have hsteps := List.length_pos_iff.mpr mission.steps_nonempty
      rw [List.mem_singleton.mp hnew] at hsteps ⊢
      cases plan <;> exact hsteps
  · exact h.queue mission hmission

-- A robot's own steps and the dispatcher keep every robot sound.
theorem Simulation.Sound.step (h : s.Sound) (hstep : s.step ambient_c l = some t) : t.Sound := by
  cases l with
  | robot i event d =>
      obtain ⟨u, hu, hnext⟩ := Option.bind_eq_some_iff.mp hstep
      obtain ⟨next, hadvance, rfl⟩ := Option.map_eq_some_iff.mp hnext
      refine ⟨fun j v hv => ?_, h.queue⟩
      rcases getElem?_set_cases hu hv with ⟨-, rfl⟩ | ⟨-, hold⟩
      · exact sound_advance (h.units i u hu) hadvance
      · exact h.units j v hold
  | dispatch now plan =>
      cases hstep
      refine ⟨fun i v hv => ?_, fun mission hmission =>
        sound_offered h plan mission (dispatch_queue s now plan hmission)⟩
      obtain ⟨f, hf, hunits⟩ := dispatch_unit s now plan i
      rw [hunits] at hv
      obtain ⟨u, hu, rfl⟩ := Option.map_eq_some_iff.mp hv
      rcases hf u with hsame | ⟨mission, hmission, -, hassigned⟩
      · rw [hsame]
        exact h.units i u hu
      · rw [hassigned]
        intro _ _ other hother
        cases hother
        exact sound_offered h plan mission hmission
  | viewers active =>
      cases hstep
      exact ⟨h.units, h.queue⟩

theorem phase_of_dispatch {now : F} {plan : Plan F} {i : Nat} {v : Machine F}
    (hv : (s.dispatch now plan).units[i]? = some v) :
    ∃ u, s.units[i]? = some u ∧ v.phase = u.phase := by
  obtain ⟨f, hf, hunits⟩ := dispatch_unit s now plan i
  rw [hunits] at hv
  obtain ⟨u, hu, rfl⟩ := Option.map_eq_some_iff.mp hv
  refine ⟨u, hu, ?_⟩
  rcases hf u with hsame | ⟨mission, -, -, hassigned⟩
  · rw [hsame]
  · rw [hassigned]
    rfl

-- In any order of the robots' turns, of what the backend answers them and of the dispatcher's:
-- a robot's loop ends when it is cancelled and not otherwise, and as long as it runs its mission
-- has a next step, except while the last one is being reported.
theorem robots_keep_going (hstart : s.Started) (hrun : exec (Simulation.step ambient_c) s run = some t)
    {i : Nat} {u : Machine F} (hu : t.units[i]? = some u) :
    (u.phase.isEnded = true → ∃ d, .robot i .cancelled d ∈ run) ∧
    (u.phase.isEnded = false → u.phase.done = false → u.robot.task.OnCourse) := by
  have hinv : t.Sound ∧ ∀ (i : Nat) (u : Machine F), t.units[i]? = some u → u.phase.isEnded = true →
      ∃ d, .robot i .cancelled d ∈ run := by
    refine exec_along_invariant (C := fun _ l => l ∈ run) (I := fun s => s.Sound ∧
      ∀ (i : Nat) (u : Machine F), s.units[i]? = some u → u.phase.isEnded = true →
        ∃ d, .robot i .cancelled d ∈ run) ?_ (along_of_forall (fun _ _ h => h) s)
      ⟨sound_started hstart, fun i u hu hended => ?_⟩ hrun
    · rintro s l t hl ⟨hsound, hcancelled⟩ hstep
      refine ⟨hsound.step hstep, fun i v hv hended => ?_⟩
      cases l with
      | robot j event d =>
          obtain ⟨u, hu, hnext⟩ := Option.bind_eq_some_iff.mp hstep
          obtain ⟨next, hadvance, rfl⟩ := Option.map_eq_some_iff.mp hnext
          rcases getElem?_set_cases hu hv with ⟨rfl, rfl⟩ | ⟨-, hold⟩
          · obtain rfl := cancelled_of_ended (hsound.units _ u hu) hadvance hended
            exact ⟨d, hl⟩
          · exact hcancelled i v hold hended
      | dispatch now plan =>
          cases hstep
          obtain ⟨u, hu, hphase⟩ := phase_of_dispatch hv
          exact hcancelled i u hu (hphase ▸ hended)
      | viewers active =>
          cases hstep
          exact hcancelled i v hv hended
    · rw [(hstart.units u (List.mem_of_getElem? hu)).2] at hended
      cases hended
  exact ⟨hinv.2 i u hu, fun hended hdone => hinv.1.units i u hu hdone hended⟩

def idle : RobotState ℚ :=
  { exhausted with battery := 80, status := .ACTIVE, returning_to_charge := false }

def turnAt (now : ℚ) : List (SimulationLabel ℚ) :=
  [.robot 0 (.wake now) rolls, .robot 0 (.claimed none) rolls, .robot 0 .returned rolls]

-- A mission of two points, both where the robot stands; its robot is cancelled after the report.
def inspectedRun : List (SimulationLabel ℚ) :=
  .dispatch 999 (.inspection (15, 40, 0) [(15, 40, 0)]) :: turnAt 1000 ++ turnAt 1003 ++
    [.robot 0 .returned rolls, .robot 0 .returned rolls, .robot 0 .cancelled rolls]

theorem robots_keep_going_inspected : ∃ t,
    exec (Simulation.step 22) (single idle) inspectedRun = some t ∧
    (t.units[0]?.any fun u => u.phase.isEnded && u.robot.completion_count == 1) = true ∧
    ∃ d, .robot 0 .cancelled d ∈ inspectedRun := by
  refine exec_exists (P := fun t => (t.units[0]?.any fun u =>
    u.phase.isEnded && u.robot.completion_count == 1) = true) (by decide +kernel)
    fun t hrun hended => ⟨hended, ?_⟩
  obtain ⟨u, hu, hphase⟩ := (Option.any_eq_true _ _).mp hended
  have hstart : (single idle).Started := by
    refine ⟨rfl, rfl, fun v hv => ?_⟩
    rw [List.mem_singleton.mp hv]
    exact ⟨rfl, rfl⟩
  exact (robots_keep_going hstart hrun hu).1 ((Bool.and_eq_true _ _).mp hphase).1

end Loops

section Down

-- What the shutdown leaves of a robot.
structure RobotState.Shut (robot : RobotState F) : Prop where
  status : robot.status = .DEAD
  online : robot.online = false
  speed : robot.speed = 0.0
  mission : robot.mission = none ∧ robot.mission_id = none ∧ robot.mission_progress = none
  returning : robot.returning_to_charge = false

-- The time of the turn, where one is going on.
def Phase.now? : Phase F → Option F
  | .claiming turn | .acknowledging turn _ _ | .executing turn _ _ | .patching turn _
  | .emitting_dead turn | .emitting_hot turn | .emitting_done turn | .announcing turn | .fencing turn =>
      some turn.now
  | .asleep | .emitting | .ended => none

-- The phases of a robot whose physics do not run.
def Phase.still : Phase F → Bool
  | .emitting_hot _ | .emitting_done _ | .announcing _ | .fencing _ | .emitting => false
  | _ => true

-- A robot past the limits, where it stood when it got there. All it reports is its shutdown.
structure Down (x y : F) (u : Machine F) : Prop where
  dead : u.robot.is_dead = true
  x : u.robot.x = x
  y : u.robot.y = y
  shut : u.robot.status = .DEAD → u.robot.Shut
  still : u.phase.still = true
  reports : u.phase.emits = true → u.robot.Shut
  clock : ∀ now, u.phase.now? = some now → now = u.robot.last_update_s

-- The crew has been, not before its time.
structure Mended (ambient_c x y : F) (d : Draws F) (u : Machine F) : Prop where
  battery : u.robot.battery = 100.0
  temperature : u.robot.temperature = ambient_c
  status : u.robot.status = .ACTIVE
  online : u.robot.online = true
  mission : u.robot.mission = none
  x : u.robot.x = x
  y : u.robot.y = y
  phase : u.phase = .asleep
  due : le d.repair_delay (u.robot.last_update_s - u.robot.dead_since) = true

variable {x y ambient_c : F} {robot : RobotState F} {phase : Phase F} {d : Draws F}

theorem shut_shutdown (now : F) (h : robot.status = .DEAD → robot.Shut) : (robot.shutdown now).Shut := by
  rw [RobotState.shutdown]
  split
  · rename_i hstatus
    exact h hstatus
  · exact ⟨rfl, rfl, rfl, ⟨rfl, rfl, rfl⟩, rfl⟩

theorem is_dead_shutdown (robot : RobotState F) (now : F) : (robot.shutdown now).is_dead = robot.is_dead ∧
    (robot.shutdown now).x = robot.x ∧ (robot.shutdown now).y = robot.y ∧
    (robot.shutdown now).last_update_s = robot.last_update_s := by
  rw [RobotState.shutdown]
  split <;> exact ⟨rfl, rfl, rfl, rfl⟩

-- The end of a turn of a robot that is shut down: the crew comes, or not yet.
theorem down_repair {turn : Turn F} (hdead : robot.is_dead = true) (hx : robot.x = x) (hy : robot.y = y)
    (hshut : robot.Shut) (hnow : turn.now = robot.last_update_s) :
    Down x y ⟨robot.repair ambient_c turn.now d, .asleep⟩ ∨
      Mended ambient_c x y d ⟨robot.repair ambient_c turn.now d, .asleep⟩ := by
  rw [RobotState.repair]
  split
  · rename_i hdue
    rw [hnow] at hdue
    exact .inr ⟨rfl, rfl, rfl, rfl, hshut.mission.1, hx, hy, rfl, hdue⟩
  · exact .inl ⟨hdead, hx, hy, fun _ => hshut, rfl, fun h => (by cases h), fun _ h => (by cases h)⟩

theorem down_judge (turn : Turn F) (h : Down x y ⟨robot, phase⟩) (hnow : turn.now = robot.last_update_s) :
    Down x y ⟨(robot.judge ambient_c turn d).1, (robot.judge ambient_c turn d).2⟩ ∨
      Mended ambient_c x y d ⟨(robot.judge ambient_c turn d).1, (robot.judge ambient_c turn d).2⟩ := by
  obtain ⟨hdead, hx, hy, hupdate⟩ := is_dead_shutdown robot turn.now
  have hshut := shut_shutdown turn.now h.shut
  have halive : robot.is_dead = true := h.dead
  rw [halive] at hdead
  simp only [RobotState.judge, if_pos halive]
  split
  · exact down_repair hdead (hx.trans h.x) (hy.trans h.y) hshut (hnow.trans hupdate.symm)
  · refine .inl ⟨hdead, hx.trans h.x, hy.trans h.y, fun _ => hshut, rfl, fun _ => hshut, ?_⟩
    intro now hturn
    cases hturn
    exact hnow.trans hupdate.symm

theorem Down.of_phase (h : Down x y ⟨robot, phase⟩) {phase' : Phase F} (hstill : phase'.still = true)
    (hemits : phase'.emits = false) (hclock : ∀ now, phase'.now? = some now → now = robot.last_update_s) :
    Down x y ⟨robot, phase'⟩ where
  dead := h.dead
  x := h.x
  y := h.y
  shut := h.shut
  still := hstill
  reports := by
    intro htrue
    change phase'.emits = true at htrue
    rw [hemits] at htrue
    cases htrue
  clock := hclock

theorem down_next_command (turn : Turn F) (data : List ClaimedCommand) (h : Down x y ⟨robot, phase⟩)
    (hnow : turn.now = robot.last_update_s) :
    Down x y ⟨(robot.next_command ambient_c turn d data).1, (robot.next_command ambient_c turn d data).2⟩ ∨
      Mended ambient_c x y d
        ⟨(robot.next_command ambient_c turn d data).1, (robot.next_command ambient_c turn d data).2⟩ := by
  cases data with
  | nil => exact down_judge turn h hnow
  | cons cmd_obj data =>
      have hclock : ∀ now, some turn.now = some now → now = robot.last_update_s := by
        rintro now hturn
        cases hturn
        exact hnow
      simp only [RobotState.next_command]
      split
      · exact .inl (h.of_phase rfl rfl hclock)
      · exact .inl ⟨h.dead, h.x, h.y, fun hstatus => ⟨hstatus, (h.shut hstatus).online,
          (h.shut hstatus).speed, (h.shut hstatus).mission, (h.shut hstatus).returning⟩, rfl,
          fun hemits => (by cases hemits), hclock⟩

theorem blackout_eq (robot : RobotState F) (now : F) (d : Draws F) :
    ∃ blackout_until, (robot.blackout now d).1 = { robot with blackout_until } := by
  rw [RobotState.blackout]
  split
  · exact ⟨robot.blackout_until, rfl⟩
  · split
    · exact ⟨robot.blackout_until, rfl⟩
    · split
      · exact ⟨_, rfl⟩
      · exact ⟨robot.blackout_until, rfl⟩

theorem down_wake (viewers_active : Bool) (now : F) (h : Down x y ⟨robot, phase⟩) :
    Down x y ⟨(robot.wake viewers_active ambient_c now d).1, (robot.wake viewers_active ambient_c now d).2⟩ ∨
      Mended ambient_c x y d
        ⟨(robot.wake viewers_active ambient_c now d).1, (robot.wake viewers_active ambient_c now d).2⟩ := by
  obtain ⟨blackout_until, hblackout⟩ := blackout_eq { robot with last_update_s := now } now d
  have hdown : Down x y ⟨{ robot with last_update_s := now, blackout_until }, .asleep⟩ :=
    ⟨h.dead, h.x, h.y, fun hstatus => ⟨hstatus, (h.shut hstatus).online, (h.shut hstatus).speed,
      (h.shut hstatus).mission, (h.shut hstatus).returning⟩, rfl, fun hemits => (by cases hemits),
      fun _ hturn => (by cases hturn)⟩
  simp only [RobotState.wake, hblackout]
  split
  · refine .inl (hdown.of_phase rfl rfl fun later hturn => ?_)
    cases hturn
    rfl
  · exact down_judge _ hdown rfl

-- No command gets a robot back up.
theorem down_execute (turn : Turn F) (cmd_action : String) (data : List ClaimedCommand)
    (h : Down x y ⟨robot, phase⟩) (hnow : turn.now = robot.last_update_s) :
    Down x y ⟨robot.execute cmd_action, .patching turn data⟩ := by
  have hclock : ∀ now, some turn.now = some now → now = robot.last_update_s := by
    rintro now hturn
    cases hturn
    exact hnow
  rw [RobotState.execute]
  split
  · exact ⟨h.dead, h.x, h.y, fun hstatus => (by cases hstatus), rfl, fun hemits => (by cases hemits), hclock⟩
  · split
    · exact ⟨h.dead, h.x, h.y, fun hstatus => (by cases hstatus), rfl, fun hemits => (by cases hemits),
        hclock⟩
    · split
      · exact ⟨h.dead, h.x, h.y, fun hstatus => (by cases hstatus), rfl, fun hemits => (by cases hemits),
          hclock⟩
      · exact h.of_phase rfl rfl hclock

theorem down_advance {viewers_active : Bool} {event : Event F} {next : RobotState F × Phase F}
    (h : Down x y ⟨robot, phase⟩) (hstep : advance viewers_active ambient_c d robot phase event = some next) :
    Down x y ⟨next.1, next.2⟩ ∨ Mended ambient_c x y d ⟨next.1, next.2⟩ := by
  cases event with
  | cancelled =>
      obtain rfl := cancelled_advance hstep
      exact .inl (h.of_phase rfl rfl fun _ hturn => (by cases hturn))
  | wake now =>
      cases phase with
      | asleep =>
          obtain rfl := Option.some.inj hstep
          exact down_wake viewers_active now h
      | _ => cases hstep
  | claimed data =>
      cases phase with
      | claiming turn =>
          obtain rfl := Option.some.inj hstep
          exact down_next_command turn _ h (h.clock _ rfl)
      | _ => cases hstep
  | returned =>
      cases phase with
      | acknowledging turn cmd_obj data =>
          obtain rfl := Option.some.inj hstep
          exact .inl (h.of_phase rfl rfl h.clock)
      | executing turn cmd_obj data =>
          obtain rfl := Option.some.inj hstep
          exact .inl (down_execute turn _ data h (h.clock _ rfl))
      | patching turn data =>
          obtain rfl := Option.some.inj hstep
          exact down_next_command turn data h (h.clock _ rfl)
      | emitting_dead turn =>
          obtain rfl := Option.some.inj hstep
          exact down_repair h.dead h.x h.y (h.reports rfl) (h.clock _ rfl)
      | emitting_hot | emitting_done | announcing | fencing | emitting => cases h.still
      | asleep | claiming | ended => cases hstep

theorem Down.refuses {u : Machine F} (h : Down x y u) (hemits : u.phase.emits = true) :
    u.robot.candidate = false := by
  simp [RobotState.candidate, (h.reports hemits).status]

theorem down_assign {u : Machine F} (h : Down x y u) (hcandidate : u.robot.candidate = true)
    (mission : Mission F) (now : F) : Down x y (u.assign mission now) where
  dead := h.dead
  x := h.x
  y := h.y
  shut := fun hstatus => by cases hstatus
  still := h.still
  reports := by
    intro hemits
    rw [h.refuses hemits] at hcandidate
    cases hcandidate
  clock := h.clock

def DownAt (i : Nat) (x y : F) (s : Simulation F) : Prop := ∃ u, s.units[i]? = some u ∧ Down x y u

-- The step on which the crew gets the robot back up.
def Mends (ambient_c : F) (i : Nat) (x y : F) (s : Simulation F) (l : SimulationLabel F) : Prop :=
  ∃ event d t u, l = .robot i event d ∧ s.step ambient_c l = some t ∧ t.units[i]? = some u ∧
    Mended ambient_c x y d u

variable {i : Nat} {s t : Simulation F} {l : SimulationLabel F} {run : List (SimulationLabel F)}

theorem down_step (h : DownAt i x y s) (hmends : ¬Mends ambient_c i x y s l)
    (hstep : s.step ambient_c l = some t) : DownAt i x y t := by
  obtain ⟨u, hu, hdown⟩ := h
  cases l with
  | robot j event d =>
      have hwhole := hstep
      obtain ⟨v, hv, hnext⟩ := Option.bind_eq_some_iff.mp hstep
      obtain ⟨next, hadvance, rfl⟩ := Option.map_eq_some_iff.mp hnext
      by_cases hj : j = i
      · subst hj
        cases hu.symm.trans hv
        obtain ⟨hlt, -⟩ := List.getElem?_eq_some_iff.mp hu
        have hset : (s.units.set j ⟨next.1, next.2⟩)[j]? = some ⟨next.1, next.2⟩ :=
          List.getElem?_set_self hlt
        rcases down_advance hdown hadvance with hstill | hmended
        · exact ⟨_, hset, hstill⟩
        · exact absurd ⟨event, d, _, _, rfl, hwhole, hset, hmended⟩ hmends
      · exact ⟨u, by simp [hj, hu], hdown⟩
  | dispatch now plan =>
      cases hstep
      obtain ⟨f, hf, hunits⟩ := dispatch_unit s now plan i
      refine ⟨f u, by rw [hunits, hu]; rfl, ?_⟩
      rcases hf u with hsame | ⟨mission, -, hcandidate, hassigned⟩
      · rw [hsame]
        exact hdown
      · rw [hassigned]
        exact down_assign hdown hcandidate mission now
  | viewers active =>
      cases hstep
      exact ⟨u, hu, hdown⟩

-- A robot that is found past the limits stays where it is and reports nothing but its shutdown
-- until the crew has been, whatever it is commanded and whatever the dispatcher gives it meanwhile.
theorem dead_until_mended {u : Machine F} (hu : s.units[i]? = some u) (hphase : u.phase = .asleep)
    (hdead : u.robot.is_dead = true) (hstatus : u.robot.status ≠ .DEAD)
    (hcrew : Along (Simulation.step ambient_c) (fun v l => ¬Mends ambient_c i u.robot.x u.robot.y v l) s run)
    (hrun : exec (Simulation.step ambient_c) s run = some t) : DownAt i u.robot.x u.robot.y t := by
  refine exec_along_invariant (fun _ _ _ hmends hdown hstep => down_step hdown hmends hstep) hcrew
    ⟨u, hu, ⟨hdead, rfl, rfl, fun h => absurd h hstatus, ?_, fun h => ?_, fun _ h => ?_⟩⟩ hrun
  · rw [hphase]
    rfl
  · rw [hphase] at h
    cases h
  · rw [hphase] at h
    cases h

def melted : RobotState ℚ := { idle with temperature := 96 }

-- A robot too hot is told to resume, and the dispatcher is quick enough to give it a mission.
def resumedRun : List (SimulationLabel ℚ) :=
  [.robot 0 (.wake 1000) rolls, .robot 0 (.claimed (some [⟨7, "RESUME", none⟩])) rolls,
    .robot 0 .returned rolls, .robot 0 .returned rolls, .dispatch 1001 (.delivery (15, 50) (15, 60)),
    .robot 0 .returned rolls, .robot 0 .returned rolls, .robot 0 (.wake 1049) rolls]

-- A charged battery is what the crew leaves.
def charges (s : Simulation ℚ) (l : SimulationLabel ℚ) : Bool :=
  (s.step 22 l).any fun t => t.units[0]?.any fun u => u.robot.battery == 100

theorem charges_of_mends {x y : ℚ} {s : Simulation ℚ} {l : SimulationLabel ℚ} (h : Mends 22 0 x y s l) :
    charges s l = true := by
  obtain ⟨event, d, t, u, -, hstep, hu, hmended⟩ := h
  have hbattery : u.robot.battery = 100 := hmended.battery.trans (by decide +kernel)
  simp [charges, hstep, hu, hbattery]

theorem dead_until_mended_resumed : ∃ t, exec (Simulation.step 22) (single melted) resumedRun = some t ∧
    DownAt 0 melted.x melted.y t := by
  have hrun : (exec (Simulation.step 22) (single melted) resumedRun).isSome = true := by decide +kernel
  obtain ⟨t, ht⟩ := Option.isSome_iff_exists.mp hrun
  have hcharges : Along (Simulation.step 22) (fun s l => charges s l = false) (single melted) resumedRun := by
    decide +kernel
  have hcrew : Along (Simulation.step 22) (fun s l => ¬Mends 22 0 melted.x melted.y s l) (single melted)
      resumedRun := by
    refine hcharges.mono fun s l hnone hmends => ?_
    rw [charges_of_mends hmends] at hnone
    cases hnone
  exact ⟨t, ht, dead_until_mended (i := 0) rfl rfl (by decide +kernel) (by decide) hcrew ht⟩

end Down

end FleetOps.Robot
