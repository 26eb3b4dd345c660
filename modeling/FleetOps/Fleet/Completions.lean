import FleetOps.Fleet.Analytics
import FleetOps.Library.Decimal
import FleetOps.Robot.Books
import FleetOps.Robot.Stopped
import FleetOps.Telemetry.Retention

namespace FleetOps.Fleet

open Calendar Robot Runs Telemetry

section Workers

variable {F : Type*} [Floats F]

-- What happens in a worker process.
inductive WorkerLabel (F : Type*) where
  | robot (i : Nat) (event : Event F) (d : Draws F)
  | dispatch (now : F)
  | viewers (active : Bool)

-- Each worker seeds the generator of its dispatcher alike, so a number stands for the same draws
-- in all of them.
def WorkerLabel.drawn (plans : Nat → Plan F) (s : Simulation F) : WorkerLabel F → SimulationLabel F
  | .robot i event d => .robot i event d
  | .dispatch now => .dispatch now (plans s.mission_counter)
  | .viewers active => .viewers active

-- The processes of `main` share nothing.
def workers_step (plans : Nat → Plan F) (ambient_c : F) (workers : List (Simulation F))
    (l : Nat × WorkerLabel F) : Option (List (Simulation F)) :=
  workers[l.1]?.bind fun s => (s.step ambient_c (l.2.drawn plans s)).map fun t => workers.set l.1 t

def workers_output (plans : Nat → Plan F) (ambient_c : F) (workers : List (Simulation F))
    (l : Nat × WorkerLabel F) : List (Nat × Output F) :=
  (workers[l.1]?.map fun s => (s.output ambient_c (l.2.drawn plans s)).map fun o => (l.1, o)).getD []

-- The part of one worker.
def own (w : Nat) (os : List (Nat × Output F)) : List (Output F) :=
  (os.filter fun o => o.1 = w).map Prod.snd

-- A completed mission and its worker.
structure Completion where
  worker : Nat
  mission_id : Nat
  mission_type : MissionType

def completion_of (o : Nat × Output F) : Option Completion :=
  o.2.completion.map fun c => ⟨o.1, c.1, c.2⟩

def completed_missions (os : List (Nat × Output F)) : List Completion := os.filterMap completion_of

-- The processes and all that they have put out.
structure AllAccounted (plans : Nat → Plan F) (full : F → Bool) (workers : List (Simulation F))
    (os : List (Nat × Output F)) : Prop where
  worker : ∀ o ∈ os, o.1 < workers.length
  own : ∀ (w : Nat) s, workers[w]? = some s → Accounted plans full s (own w os)

variable {plans : Nat → Plan F} {full : F → Bool} {ambient_c : F} {workers t : List (Simulation F)}
  {os : List (Nat × Output F)} {ls : List (Nat × WorkerLabel F)}

omit [Floats F] in
theorem own_append (w : Nat) (os os' : List (Nat × Output F)) :
    own w (os ++ os') = own w os ++ own w os' := by
  rw [own, List.filter_append, List.map_append]
  rfl

omit [Floats F] in
theorem own_tagged (w v : Nat) (os : List (Output F)) :
    own w (os.map fun o => (v, o)) = if v = w then os else [] := by
  rw [own, List.filter_map, List.map_map]
  by_cases h : v = w
  · simp [Function.comp_def, h]
  · simp [Function.comp_def, h]

theorem workers_step_accounted (hprogress : Progress full) (hdrawn : ∀ n, (plans n).Drawn)
    {l : Nat × WorkerLabel F} (h : AllAccounted plans full workers os)
    (hstep : workers_step plans ambient_c workers l = some t) :
    AllAccounted plans full t (os ++ workers_output plans ambient_c workers l) := by
  obtain ⟨v, l⟩ := l
  simp only [workers_step, Option.bind_eq_some_iff, Option.map_eq_some_iff] at hstep
  obtain ⟨s, hs, s', hstep, rfl⟩ := hstep
  have houtput : workers_output plans ambient_c workers (v, l) =
      (s.output ambient_c (l.drawn plans s)).map fun o => (v, o) := by
    simp only [workers_output, hs, Option.map_some, Option.getD_some]
  refine ⟨fun o ho => ?_, fun w s'' hs'' => ?_⟩
  · rw [List.length_set]
    rw [houtput] at ho
    rcases List.mem_append.mp ho with ho | ho
    · exact h.worker o ho
    · obtain ⟨o', -, rfl⟩ := List.mem_map.mp ho
      exact (List.getElem?_eq_some_iff.mp hs).1
  · rw [houtput, own_append, own_tagged]
    by_cases hw : v = w
    · subst hw
      rw [List.getElem?_set_self (List.getElem?_eq_some_iff.mp hs).1, Option.some.injEq] at hs''
      subst hs''
      rw [if_pos rfl]
      refine (h.own v s hs).step hprogress hdrawn (fun now plan hl => ?_) hstep
      cases l with
      | dispatch now' =>
          cases hl
          rfl
      | _ => cases hl
    · rw [List.getElem?_set_ne hw] at hs''
      rw [if_neg hw, List.append_nil]
      exact h.own w s'' hs''

theorem workers_run_accounted (hprogress : Progress full) (hdrawn : ∀ n, (plans n).Drawn)
    (hstarted : ∀ s ∈ workers, s.Started) (hrun : exec (workers_step plans ambient_c) workers ls = some t) :
    AllAccounted plans full t
      (trace (workers_step plans ambient_c) (workers_output plans ambient_c) workers ls) := by
  have hstart : AllAccounted plans full workers [] :=
    ⟨fun _ ho => (nomatch ho), fun _ s hs => accounted_started (hstarted s (List.mem_of_getElem? hs))⟩
  exact exec_trace_invariant (I := AllAccounted plans full)
    (fun _ _ _ _ h hstep => workers_step_accounted hprogress hdrawn h hstep) hstart hrun

omit [Floats F] in
theorem mem_own {w : Nat} {o : Output F} : o ∈ own w os ↔ (w, o) ∈ os := by
  simp only [own, List.mem_map, List.mem_filter, decide_eq_true_eq]
  constructor
  · rintro ⟨⟨v, o'⟩, ⟨hmem, rfl⟩, rfl⟩
    exact hmem
  · intro hmem
    exact ⟨(w, o), ⟨hmem, rfl⟩, rfl⟩

omit [Floats F] in
theorem completions_own (w : Nat) (os : List (Nat × Output F)) :
    completions (own w os) = ((completed_missions os).filter fun c => c.worker = w).map fun c =>
      (c.mission_id, c.mission_type) := by
  induction os with
  | nil => rfl
  | cons o os ih =>
      obtain ⟨v, o⟩ := o
      have hown : own w ((v, o) :: os) = own w [(v, o)] ++ own w os := own_append w [(v, o)] os
      have hall : completed_missions ((v, o) :: os) =
          (completion_of (v, o)).toList ++ completed_missions os := by
        cases hc : completion_of (v, o) <;> simp [completed_missions, hc]
      have hone : completions (own w [(v, o)]) =
          ((completion_of (v, o)).toList.filter fun c => c.worker = w).map fun c =>
            (c.mission_id, c.mission_type) := by
        by_cases hv : v = w <;> cases hc : o.completion <;> simp [own, completions, completion_of, hv, hc]
      rw [hown, hall, List.filter_append, List.map_append, ← ih, ← hone]
      exact List.filterMap_append

omit [Floats F] in
theorem mem_completions_own {w n : Nat} {mission_type : MissionType} :
    (n, mission_type) ∈ completions (own w os) ↔ ⟨w, n, mission_type⟩ ∈ completed_missions os := by
  simp only [completions_own, List.mem_map, List.mem_filter, decide_eq_true_eq, Prod.mk.injEq]
  constructor
  · rintro ⟨c, ⟨hmem, rfl⟩, rfl, rfl⟩
    exact hmem
  · intro hmem
    exact ⟨_, ⟨hmem, rfl⟩, rfl, rfl⟩

end Workers

section Rows

variable {F : Type*} [Floats F]

-- `f"M-{mission_counter:05d}"`
def mission_text (n : Nat) : String := String.ofList ('M' :: '-' :: Decimal.zero_padded 5 n)

theorem mission_text_injective : mission_text.Injective := by
  intro m n heq
  have hlist := String.ofList_injective heq
  rw [List.cons.injEq, List.cons.injEq] at hlist
  exact Decimal.zero_padded_injective 5 hlist.2.2

def type_text : MissionType → String
  | .PATROL => "PATROL"
  | .DELIVERY => "DELIVERY"
  | .INSPECTION => "INSPECTION"

theorem type_text_mem (mission_type : MissionType) : type_text mission_type ∈ mission_types := by
  cases mission_type <;> decide

-- A row that holds what a reading says of the mission. `double` is the database's value of the number.
structure Carries (double : F → PyFloat) (report : Report F) (row : TelemetryRow) : Prop where
  mission_id : row.mission_id.map Subtype.val = report.mission_id.map mission_text
  mission_type : row.mission_type.map Subtype.val = report.mission_type.map type_text
  mission_progress : row.mission_progress = report.mission_progress.map double

def within_day (db_now : Instant) (row : TelemetryRow) : Prop := db_now - 86400 * 1000000 < row.timestamp

-- The rows of the last 24 hours are readings of the run, and the final reading of each completed
-- mission is among them.
structure Persisted (double : F → PyFloat) (db_now : Instant) (telemetry : List TelemetryRow)
    (os : List (Nat × Output F)) : Prop where
  read : ∀ row ∈ telemetry, within_day db_now row → ∃ w report, (w, .reported report) ∈ os ∧
    Carries double report row
  final : ∀ c ∈ completed_missions os, ∃ row ∈ telemetry, within_day db_now row ∧
    Carries double ⟨some c.mission_id, some c.mission_type, some 100.0⟩ row

-- How many missions of each type were completed.
def completion_counts (os : List (Nat × Output F)) : List MissionCompletion :=
  mission_types.map fun mission_type =>
    ⟨mission_type, (completed_missions os).countP fun c => type_text c.mission_type == mission_type⟩

-- The numbers of the completed missions of a type.
def numbers (mission_type : String) (os : List (Nat × Output F)) : List Nat :=
  ((completed_missions os).filter fun c => type_text c.mission_type == mission_type).map Completion.mission_id

variable {plans : Nat → Plan F} {full : F → Bool} {double : F → PyFloat} {db_now : Instant}
  {telemetry : List TelemetryRow} {workers t : List (Simulation F)} {os : List (Nat × Output F)}

-- The rows that the query counts for a type.
def rows_of (db_now : Instant) (telemetry : List TelemetryRow) (mission_type : String) : List TelemetryRow :=
  (telemetry.filter fun row =>
      decide (db_now - 86400 * 1000000 < row.timestamp) && row.mission_progress.any completed).filter
    fun row => row.mission_type.map Subtype.val == some mission_type

theorem mem_rows_of {row : TelemetryRow} {mission_type : String} :
    row ∈ rows_of db_now telemetry mission_type ↔ row ∈ telemetry ∧ within_day db_now row ∧
      (∃ progress, row.mission_progress = some progress ∧ completed progress = true) ∧
      row.mission_type.map Subtype.val = some mission_type := by
  simp only [rows_of, List.mem_filter, Bool.and_eq_true, decide_eq_true_eq, Option.any_eq_true,
    beq_iff_eq, within_day, and_assoc]

-- The query counts the distinct numbers.
theorem count_rows_of (hprogress : Progress fun p => completed (double p))
    (haccounted : AllAccounted plans (fun p => completed (double p)) t os)
    (hpersisted : Persisted double db_now telemetry os)
    (mission_type : String) :
    ((rows_of db_now telemetry mission_type).filterMap TelemetryRow.mission_id).dedup.length =
      (numbers mission_type os).dedup.length := by
  have hval := List.dedup_map_of_injective (f := (Subtype.val : Varchar 64 → String)) Subtype.val_injective
    ((rows_of db_now telemetry mission_type).filterMap TelemetryRow.mission_id)
  rw [← List.length_map (f := (Subtype.val : Varchar 64 → String)), ← hval]
  refine Cells.length_dedup_eq mission_text_injective fun text => ?_
  simp only [List.mem_map, List.mem_filterMap, mem_rows_of, numbers, List.mem_filter, beq_iff_eq]
  constructor
  · rintro ⟨v, ⟨row, ⟨hrow, hday, ⟨progress, hprogress', hfull⟩, htype⟩, hid⟩, rfl⟩
    obtain ⟨w, report, hreport, hcarries⟩ := hpersisted.read row hrow hday
    obtain ⟨ty, hty, rfl⟩ := Option.map_eq_some_iff.mp (hcarries.mission_type.symm.trans htype)
    obtain ⟨p, hp, rfl⟩ := Option.map_eq_some_iff.mp (hcarries.mission_progress.symm.trans hprogress')
    obtain ⟨s, hs⟩ : ∃ s, t[w]? = some s := ⟨_, List.getElem?_eq_getElem (haccounted.worker _ hreport)⟩
    obtain ⟨n, hn, hmem⟩ := (haccounted.own w s hs).backed report (mem_own.mpr hreport) ty p hty hp hfull
    have hv := hcarries.mission_id
    rw [hid, hn, Option.map_some, Option.map_some, Option.some.injEq] at hv
    exact ⟨n, ⟨_, ⟨mem_completions_own.mp hmem, rfl⟩, rfl⟩, hv.symm⟩
  · rintro ⟨n, ⟨c, ⟨hc, rfl⟩, rfl⟩, rfl⟩
    obtain ⟨row, hrow, hday, hcarries⟩ := hpersisted.final c hc
    obtain ⟨v, hv, hval⟩ := Option.map_eq_some_iff.mp hcarries.mission_id
    exact ⟨v, ⟨row, ⟨hrow, hday, ⟨double 100.0, hcarries.mission_progress, hprogress.final⟩,
      hcarries.mission_type⟩, hv⟩, hval⟩

-- No number is completed in two workers.
def Unshared (os : List (Nat × Output F)) : Prop :=
  ∀ c ∈ completed_missions os, ∀ c' ∈ completed_missions os, c.mission_id = c'.mission_id →
    c.worker = c'.worker

omit [Floats F] in
theorem unshared_of_alone (w : Nat) (halone : ∀ o ∈ os, o.1 = w) : Unshared os := by
  have hworker : ∀ c ∈ completed_missions os, c.worker = w := by
    intro c hc
    obtain ⟨o, ho, hcompletion⟩ := List.mem_filterMap.mp hc
    obtain ⟨_, -, rfl⟩ := Option.map_eq_some_iff.mp hcompletion
    exact halone o ho
  intro c hc c' hc' _
  rw [hworker c hc, hworker c' hc']

theorem nodup_numbers_iff (haccounted : AllAccounted plans full t os) :
    (∀ mission_type ∈ mission_types, (numbers mission_type os).Nodup) ↔ Unshared os := by
  have hworker : ∀ c ∈ completed_missions os, ∃ s, t[c.worker]? = some s := by
    intro c hc
    obtain ⟨o, ho, hcompletion⟩ := List.mem_filterMap.mp hc
    obtain ⟨_, -, rfl⟩ := Option.map_eq_some_iff.mp hcompletion
    exact ⟨_, List.getElem?_eq_getElem (haccounted.worker o ho)⟩
  have hplan : ∀ c ∈ completed_missions os, c.mission_type = (plans c.mission_id).mission_type := by
    intro c hc
    obtain ⟨s, hs⟩ := hworker c hc
    exact ((haccounted.own c.worker s hs).books.completed (c.mission_id, c.mission_type)
      (mem_completions_own.mpr hc)).2
  -- a worker completes no number twice
  have hown : ∀ mission_type w, ((((completed_missions os).filter fun c =>
      type_text c.mission_type == mission_type).filter fun c => c.worker = w).map
        Completion.mission_id).Nodup := by
    intro mission_type w
    rw [List.filter_comm]
    refine List.Nodup.sublist (List.filter_sublist.map _) ?_
    cases hs : t[w]? with
    | none =>
        rw [List.filter_eq_nil_iff.mpr]
        · exact List.nodup_nil
        · intro c hc hw
          obtain ⟨s, hs'⟩ := hworker c hc
          rw [of_decide_eq_true hw, hs] at hs'
          cases hs'
    | some s =>
        have hids := (haccounted.own w s hs).books.completed_ids
        rw [completions_own, List.map_map] at hids
        exact hids
  constructor
  · intro hall c hc c' hc' hid
    have hty : c'.mission_type = c.mission_type := by
      rw [hplan c hc, hplan c' hc', hid]
    have hone := (Cells.nodup_keys_iff (hown (type_text c.mission_type))).mp (hall _ (type_text_mem _))
    exact hone c (List.mem_filter.mpr ⟨hc, by simp⟩) c' (List.mem_filter.mpr ⟨hc', by simp [hty]⟩) hid
  · intro hone mission_type _
    exact (Cells.nodup_keys_iff (hown mission_type)).mpr fun c hc c' hc' =>
      hone c (List.mem_filter.mp hc).1 c' (List.mem_filter.mp hc').1

-- What the analytics say of the completed missions is right exactly when no two workers have
-- completed missions of one number.
theorem mission_completions_exact_iff {ambient_c : F} {ls : List (Nat × WorkerLabel F)}
    (hprogress : Progress fun p => completed (double p)) (hdrawn : ∀ n, (plans n).Drawn)
    (hstarted : ∀ s ∈ workers, s.Started) (hrun : exec (workers_step plans ambient_c) workers ls = some t)
    (hos : trace (workers_step plans ambient_c) (workers_output plans ambient_c) workers ls = os)
    (hpersisted : Persisted double db_now telemetry os) :
    get_mission_completions db_now telemetry = completion_counts os ↔ Unshared os := by
  have haccounted := workers_run_accounted hprogress hdrawn hstarted hrun
  rw [hos] at haccounted
  rw [← nodup_numbers_iff haccounted]
  have hcounts : get_mission_completions db_now telemetry = completion_counts os ↔
      ∀ mission_type ∈ mission_types, (numbers mission_type os).dedup.length =
        (completed_missions os).countP fun c => type_text c.mission_type == mission_type := by
    rw [get_mission_completions, completion_counts, List.map_inj_left]
    refine forall₂_congr fun mission_type _ => ?_
    rw [← count_rows_of hprogress haccounted hpersisted mission_type, MissionCompletion.mk.injEq,
      eq_self, true_and]
    rfl
  rw [hcounts]
  refine forall₂_congr fun mission_type _ => ?_
  rw [← Cells.length_dedup_iff, List.countP_eq_length_filter]
  simp only [numbers, List.length_map]

end Rows

section Sample

-- Both ends of the delivery are at the base.
def fetch : Plan ℚ := .delivery (0, 0) (0, 0)

def rested : RobotState ℚ :=
  { exhausted with battery := 80, status := .ACTIVE, x := 0, y := 0, returning_to_charge := false }

def reach_step (w : Nat) (now : ℚ) : List (Nat × WorkerLabel ℚ) :=
  [(w, .robot 0 (.wake now) rolls), (w, .robot 0 (.claimed (some [])) rolls), (w, .robot 0 .returned rolls)]

-- A worker sends its robot out, and the robot does the three steps and reports.
def errand (w : Nat) : List (Nat × WorkerLabel ℚ) :=
  (w, .dispatch 1000) :: (reach_step w 1001 ++ reach_step w 1004 ++ reach_step w 1007)

def errand_trace (workers : List (Simulation ℚ)) (ls : List (Nat × WorkerLabel ℚ)) : List (Nat × Output ℚ) :=
  trace (workers_step (fun _ => fetch) 22) (workers_output (fun _ => fetch) 22) workers ls

def row_of (report : Report ℚ) : TelemetryRow :=
  { Retention.reading 0 with
    mission_id := report.mission_id.bind fun n => varchar 64 (.str (mission_text n))
    mission_type := report.mission_type.bind fun mission_type => varchar 32 (.str (type_text mission_type))
    mission_progress := report.mission_progress.map PyFloat.finite }

def row_of_output (o : Nat × Output ℚ) : Option TelemetryRow :=
  match o.2 with
  | .completed _ _ => none
  | .reported report => some (row_of report)

theorem progress_rational : Progress fun p : ℚ => completed (PyFloat.finite p) := by
  refine ⟨by decide +kernel, fun step steps hstep hsteps => ?_, by decide +kernel⟩
  have hall : ∀ steps < 7, ∀ step < steps, completed (PyFloat.finite (Floats.round1
      (Floats.min 100.0 (Floats.ofNat step * (100.0 / Floats.ofNat steps : ℚ))))) = false := by
    decide +kernel
  exact hall steps (Nat.lt_succ_of_le hsteps) step hstep

theorem carries_row_of {report : Report ℚ}
    (hshort : ∀ n, report.mission_id = some n → (mission_text n).length ≤ 64) :
    Carries PyFloat.finite report (row_of report) := by
  refine ⟨?_, ?_, rfl⟩
  · cases hid : report.mission_id with
    | none => simp [row_of, hid]
    | some n => simp [row_of, hid, varchar, hshort n hid]
  · have hfits : ∀ mission_type, (varchar 32 (.str (type_text mission_type))).map Subtype.val =
        some (type_text mission_type) := by
      intro mission_type
      cases mission_type <;> decide
    cases hty : report.mission_type with
    | none => simp [row_of, hty]
    | some mission_type => simpa [row_of, hty] using hfits mission_type

-- Every reading of the trace is a row.
theorem persisted_rows {os : List (Nat × Output ℚ)}
    (hshort : ∀ w report, (w, .reported report) ∈ os → ∀ n, report.mission_id = some n →
      (mission_text n).length ≤ 64)
    (hfinal : ∀ c ∈ completed_missions os,
      (c.worker, .reported ⟨some c.mission_id, some c.mission_type, some 100.0⟩) ∈ os) :
    Persisted PyFloat.finite 0 (os.filterMap row_of_output) os := by
  refine ⟨fun row hrow _ => ?_, fun c hc => ?_⟩
  · obtain ⟨⟨w, o⟩, ho, hsome⟩ := List.mem_filterMap.mp hrow
    cases o with
    | completed n mission_type => cases hsome
    | reported report =>
        cases hsome
        exact ⟨w, report, ho, carries_row_of (hshort w report ho)⟩
  · have hreport := hfinal c hc
    refine ⟨_, List.mem_filterMap.mpr ⟨_, hreport, rfl⟩, by simp [within_day, row_of, Retention.reading], ?_⟩
    exact carries_row_of (hshort _ _ hreport)

def reports_of (w : Nat) : List (Nat × Output ℚ) :=
  [(w, .reported ⟨some 1, some .DELIVERY, some (333 / 10)⟩),
    (w, .reported ⟨some 1, some .DELIVERY, some (667 / 10)⟩), (w, .completed 1 .DELIVERY),
    (w, .reported ⟨some 1, some .DELIVERY, some 100⟩)]

theorem short_reports {os : List (Nat × Output ℚ)} (hos : ∀ o ∈ os, ∃ w, o ∈ reports_of w) :
    ∀ w report, (w, .reported report) ∈ os → ∀ n, report.mission_id = some n →
      (mission_text n).length ≤ 64 := by
  intro w report hreport n hn
  obtain ⟨v, hv⟩ := hos _ hreport
  have hone : report.mission_id = some 1 := by
    simp only [reports_of, List.mem_cons, Prod.mk.injEq, Output.reported.injEq, reduceCtorEq, and_false,
      List.not_mem_nil, or_false, false_or] at hv
    rcases hv with ⟨-, rfl⟩ | ⟨-, rfl⟩ | ⟨-, rfl⟩ <;> rfl
  cases hone.symm.trans hn
  decide

theorem one_worker_trace : errand_trace [single rested] (errand 0) = reports_of 0 := by
  decide +kernel

theorem two_workers_trace : errand_trace [single rested, single rested] (errand 0 ++ errand 1) =
    reports_of 0 ++ reports_of 1 := by
  decide +kernel

theorem rested_started : (single rested).Started :=
  ⟨rfl, rfl, fun u hu => by rw [List.mem_singleton.mp hu]; exact ⟨rfl, rfl⟩⟩

theorem mission_completions_one_worker :
    get_mission_completions 0 ((reports_of 0).filterMap row_of_output) =
      completion_counts (reports_of 0) := by
  obtain ⟨t, ht⟩ : ∃ t, exec (workers_step (fun _ => fetch) 22) [single rested] (errand 0) = some t :=
    Option.isSome_iff_exists.mp (by decide +kernel)
  have hstarted : ∀ s ∈ [single rested], s.Started := fun s hs => List.mem_singleton.mp hs ▸ rested_started
  have hpersisted : Persisted PyFloat.finite 0 ((reports_of 0).filterMap row_of_output) (reports_of 0) :=
    persisted_rows (short_reports fun _ ho => ⟨0, ho⟩) (by decide +kernel)
  have hdrawn : ∀ n : Nat, ((fun _ => fetch) n : Plan ℚ).Drawn := fun _ => trivial
  exact (mission_completions_exact_iff progress_rational hdrawn hstarted ht one_worker_trace
    hpersisted).mpr (unshared_of_alone 0 (by decide +kernel))

-- Two workers complete their first missions, and one is counted.
theorem completions_merged : ¬ ∀ (plans : Nat → Plan ℚ) (ambient_c : ℚ) (workers t : List (Simulation ℚ))
    (ls : List (Nat × WorkerLabel ℚ)) (os : List (Nat × Output ℚ)) (db_now : Instant)
    (telemetry : List TelemetryRow), (∀ n, (plans n).Drawn) → (∀ s ∈ workers, s.Started) →
    exec (workers_step plans ambient_c) workers ls = some t →
    trace (workers_step plans ambient_c) (workers_output plans ambient_c) workers ls = os →
    Persisted PyFloat.finite db_now telemetry os →
    get_mission_completions db_now telemetry = completion_counts os := by
  intro h
  obtain ⟨t, ht⟩ : ∃ t, exec (workers_step (fun _ => fetch) 22) [single rested, single rested]
      (errand 0 ++ errand 1) = some t := Option.isSome_iff_exists.mp (by decide +kernel)
  have hcounts := h (fun _ => fetch) 22 _ t _ (reports_of 0 ++ reports_of 1) 0
    ((reports_of 0 ++ reports_of 1).filterMap row_of_output) (fun _ => trivial)
    (fun s hs => by
      have hsingle : s = single rested := by simpa using hs
      exact hsingle ▸ rested_started)
    ht two_workers_trace
    (persisted_rows (short_reports fun o ho => (List.mem_append.mp ho).elim (⟨0, ·⟩) (⟨1, ·⟩))
      (by decide +kernel))
  have hreported : (get_mission_completions 0 ((reports_of 0 ++ reports_of 1).filterMap row_of_output)).map
      MissionCompletion.count = [0, 1, 0] := by decide +kernel
  have hcompleted : (completion_counts (reports_of 0 ++ reports_of 1)).map MissionCompletion.count =
      [0, 2, 0] := by decide +kernel
  rw [hcounts, hcompleted] at hreported
  cases hreported

end Sample

end FleetOps.Fleet
