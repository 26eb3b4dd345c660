import FleetOps.Fleet.Analytics

namespace FleetOps.Fleet

open Calendar Dict Telemetry

section Model

variable (settings : FleetSettings) (upper : String → String) (roster : Roster)
  (telemetry : List TelemetryRow) (now : Instant)

-- The breakdown and the list are there, and for each status of the breakdown the list shows as many
-- robots with it.
def ViewsAgree : Prop :=
  ∃ listed, robots settings upper roster telemetry now now = some listed ∧
    ∃ result, get_fleet_analytics settings upper none telemetry now now = some result ∧
      ∀ item ∈ result.robot_status_breakdown,
        item.count = (listed.map Summary.status).count item.status

-- The robots that the list is about.
def Shown (robot_id : Int) : Prop :=
  (∃ robot, (robot_id, robot) ∈ roster.rows ∧ robot.is_active = true) ∨
    Reports settings now telemetry robot_id

-- Longer ago than the offline threshold.
def Late (row : TelemetryRow) : Prop :=
  settings.offline_after_seconds * 1000000 < now - row.timestamp

-- A reading that analytics counts has a status and is not past the threshold, or says itself that
-- the robot is OFFLINE. One that is too old for analytics is not past the threshold, and its
-- status is none that analytics lists.
def SameStatus (row : TelemetryRow) : Prop :=
  if fresh now row = true then
    (Late settings now row ∧ counted_status upper row = OFFLINE) ∨
      (¬ Late settings now row ∧ ∃ status ∈ row.status, status.val ≠ "")
  else ¬ Late settings now row ∧
    derive_status settings upper row (now - row.timestamp) ∉ statuses

end Model

section Newest

variable {settings : FleetSettings} {telemetry : List TelemetryRow} {db_now now : Instant}
  {robot_id : Int} {row : TelemetryRow}

-- The first of a robot's rows, newest first.
def newest_row (telemetry : List TelemetryRow) (robot_id : Int) : Option TelemetryRow :=
  ((telemetry.filter fun row => row.robot_id.val == robot_id).insertionSort
    fun a b => b.timestamp ≤ a.timestamp).head?

theorem head_filter {rows : List TelemetryRow} (p : TelemetryRow → Bool)
    (hrows : rows.Pairwise fun a b => p b = true → p a = true) :
    (rows.filter p).head? = rows.head?.filter p := by
  cases rows with
  | nil => rfl
  | cons row rows =>
      by_cases hrow : p row = true
      · simp [Option.filter, hrow]
      · have hnone : rows.filter p = [] := by
          refine List.filter_eq_nil_iff.mpr fun other hother hp => hrow ?_
          exact (List.pairwise_cons.mp hrows).1 other hother hp
        simp [Option.filter, hrow, hnone]

-- A window only hides the newest row, it brings up no other.
theorem latest_eq_newest (hhistory : 0 < settings.fleet_history_per_robot) (robot_id : Int) :
    latest settings db_now telemetry robot_id =
      (newest_row telemetry robot_id).filter (in_window settings db_now) := by
  have hsplit : partition settings db_now telemetry robot_id =
      ((telemetry.filter fun row => row.robot_id.val == robot_id).insertionSort
        fun a b => b.timestamp ≤ a.timestamp).filter (in_window settings db_now) := by
    rw [Newest.filter_insertionSort, List.filter_filter]
    rfl
  rw [latest_eq_head hhistory, hsplit, newest_row]
  refine head_filter _ ((List.pairwise_insertionSort _ _).imp fun {a b} hle hin => ?_)
  exact decide_eq_true ((of_decide_eq_true hin).trans_le hle)

theorem after_window_start {now t window_minutes : Int} (hwindow : 3 < window_minutes)
    (hage : now - t ≤ 180 * 1000000) : now - window_minutes * 60000000 < t := by
  omega

theorem in_window_of_fresh (hwindow : 3 < settings.fleet_window_minutes) (hfresh : fresh now row = true) :
    in_window settings now row = true :=
  decide_eq_true (after_window_start hwindow (of_decide_eq_true hfresh))

-- A fresh reading is in both windows, if that of the list is not too short.
theorem latest_fresh_iff (hwindow : 3 < settings.fleet_window_minutes)
    (hhistory : 0 < settings.fleet_history_per_robot) (hfresh : fresh now row = true) :
    latest (one_per_robot settings) now telemetry robot_id = some row ↔
      latest settings now telemetry robot_id = some row := by
  have hshort : 3 < (one_per_robot settings).fleet_window_minutes := by simp [one_per_robot]
  rw [latest_eq_newest Int.one_pos, latest_eq_newest hhistory, Option.filter_eq_some_iff,
    Option.filter_eq_some_iff, in_window_of_fresh hwindow hfresh, in_window_of_fresh hshort hfresh]

end Newest

section Shown

variable {settings : FleetSettings} {upper : String → String} {roster : Roster}
  {telemetry : List TelemetryRow} {now : Instant} {robot_id : Int} {status : String}
  {listed : List Summary}

def shown_status (settings : FleetSettings) (upper : String → String) (telemetry : List TelemetryRow)
    (now : Instant) (robot_id : Int) : String :=
  ((latest settings now telemetry robot_id).map fun row =>
    derive_status settings upper row (now - row.timestamp)).getD OFFLINE

-- Whether it is in the roster or not.
theorem status_of_listed (hhistory : 0 < settings.fleet_history_per_robot)
    (h : robots settings upper roster telemetry now now = some listed) {summary : Summary}
    (hsummary : summary ∈ listed) :
    summary.status = shown_status settings upper telemetry now summary.robot_id := by
  rw [shown_status]
  rcases mem_robots h hsummary with hheard | ⟨hnone, robot, -, -, hsilent⟩
  · obtain ⟨row, hlatest, -, hstatus⟩ := heard_eq_some hheard
    rw [hlatest, hstatus]
    rfl
  · have hrates := (robots_isSome_iff ..).mp (Option.isSome_of_eq_some h)
    have hquiet : latest settings now telemetry summary.robot_id = none := by
      rw [latest_eq_none_iff hhistory]
      intro hreports
      have hsome := (heard_isSome_iff upper now hrates).mpr ⟨hhistory, hreports⟩
      rw [hnone] at hsome
      cases hsome
    rw [hquiet, hsilent]
    rfl

theorem mem_listed (hhistory : 0 < settings.fleet_history_per_robot)
    (h : robots settings upper roster telemetry now now = some listed) :
    (robot_id, status) ∈ listed.map (fun summary => (summary.robot_id, summary.status)) ↔
      Shown settings roster telemetry now robot_id ∧
        status = shown_status settings upper telemetry now robot_id := by
  have hids := mem_robot_ids h robot_id
  simp only [hhistory, true_and, List.mem_map] at hids
  rw [Shown, ← hids, List.mem_map]
  constructor
  · rintro ⟨summary, hsummary, heq⟩
    cases heq
    exact ⟨⟨summary, hsummary, rfl⟩, status_of_listed hhistory h hsummary⟩
  · rintro ⟨⟨summary, hsummary, rfl⟩, rfl⟩
    exact ⟨summary, hsummary, by rw [status_of_listed hhistory h hsummary]⟩

-- A robot that has a row in the window is shown, with what its newest says.
theorem shown_of_latest {row : TelemetryRow} (hhistory : 0 < settings.fleet_history_per_robot)
    (hlatest : latest settings now telemetry robot_id = some row) :
    Shown settings roster telemetry now robot_id := by
  obtain ⟨⟨hrow, hwindow, hrobot⟩, -⟩ := latest_spec hhistory hlatest
  exact Or.inr ⟨row, hrow, hwindow, hrobot⟩

theorem shown_status_of_latest {row : TelemetryRow}
    (hlatest : latest settings now telemetry robot_id = some row) :
    shown_status settings upper telemetry now robot_id =
      derive_status settings upper row (now - row.timestamp) := by
  rw [shown_status, hlatest]
  rfl

theorem mem_counted (hwindow : 3 < settings.fleet_window_minutes)
    (hhistory : 0 < settings.fleet_history_per_robot) :
    (robot_id, status) ∈ (latest_rows settings telemetry now now).map
        (fun row => (row.robot_id.val, counted_status upper row)) ↔
      ∃ row, latest settings now telemetry robot_id = some row ∧ fresh now row = true ∧
        counted_status upper row = status := by
  rw [List.mem_map]
  constructor
  · rintro ⟨row, hrow, heq⟩
    cases heq
    obtain ⟨hlatest, hfresh⟩ := mem_latest_rows.mp hrow
    exact ⟨row, (latest_fresh_iff hwindow hhistory hfresh).mp hlatest, hfresh, rfl⟩
  · rintro ⟨row, hlatest, hfresh, rfl⟩
    have hrobot := (latest_spec hhistory hlatest).1.2.2
    subst hrobot
    exact ⟨row, mem_latest_rows.mpr ⟨(latest_fresh_iff hwindow hhistory hfresh).mpr hlatest, hfresh⟩, rfl⟩

end Shown

section Statuses

variable {settings : FleetSettings} {upper : String → String} {now : Instant} {row : TelemetryRow}

theorem derive_late (h : Late settings now row) :
    derive_status settings upper row (now - row.timestamp) = OFFLINE := if_pos h

-- With a status both say the same of a reading that is not late.
theorem derive_counted (h : ¬ Late settings now row) (hstatus : ∃ status ∈ row.status, status.val ≠ "") :
    derive_status settings upper row (now - row.timestamp) = counted_status upper row := by
  obtain ⟨status, hsome, hne⟩ := hstatus
  unfold Late at h
  rw [derive_status, if_neg h, counted_status, show row.status = some status from hsome]
  simp only [if_neg hne]

theorem status_missing (h : ¬ ∃ status ∈ row.status, status.val ≠ "") (status : Varchar 32)
    (hsome : row.status = some status) : status.val = "" :=
  by_contra fun hne => h ⟨status, hsome, hne⟩

-- Without one analytics counts the robot as UNKNOWN, and the list shows it as ACTIVE.
theorem counted_unknown (hstatus : ¬ ∃ status ∈ row.status, status.val ≠ "") :
    counted_status upper row = "UNKNOWN" := by
  cases hrow : row.status with
  | none => rw [counted_status, hrow]
  | some status =>
      rw [counted_status, hrow]
      exact if_pos (status_missing hstatus status hrow)

theorem derive_active (h : ¬ Late settings now row) (hstatus : ¬ ∃ status ∈ row.status, status.val ≠ "") :
    derive_status settings upper row (now - row.timestamp) = "ACTIVE" := by
  unfold Late at h
  cases hrow : row.status with
  | none => rw [derive_status, if_neg h, hrow]
  | some status =>
      rw [derive_status, if_neg h, hrow]
      exact if_pos (status_missing hstatus status hrow)

theorem has_status_of_listed (hlisted : counted_status upper row ∈ statuses) :
    ∃ status ∈ row.status, status.val ≠ "" := by
  by_contra hnone
  rw [counted_unknown hnone] at hlisted
  exact absurd hlisted (by decide)

-- What both views make of one reading.
theorem same_status_reading :
    (∀ status ∈ statuses, (fresh now row = true ∧ counted_status upper row = status ↔
        status = derive_status settings upper row (now - row.timestamp))) ↔
      SameStatus settings upper now row := by
  have hoffline : OFFLINE ∈ statuses := by decide
  have hactive : "ACTIVE" ∈ statuses := by decide
  by_cases hfresh : fresh now row = true
  · rw [SameStatus, if_pos hfresh]
    by_cases hlate : Late settings now row
    · rw [derive_late hlate]
      constructor
      · intro hagree
        exact Or.inl ⟨hlate, ((hagree OFFLINE hoffline).mpr rfl).2⟩
      · rintro (⟨-, hcounted⟩ | ⟨hnot, -⟩)
        · intro status _
          rw [hcounted]
          exact ⟨fun h => h.2.symm, fun h => ⟨hfresh, h.symm⟩⟩
        · exact absurd hlate hnot
    · constructor
      · intro hagree
        refine Or.inr ⟨hlate, by_contra fun hnone => ?_⟩
        have hcounted := ((hagree "ACTIVE" hactive).mpr (derive_active hlate hnone).symm).2
        rw [counted_unknown hnone] at hcounted
        exact absurd hcounted (by decide)
      · rintro (⟨hlate', -⟩ | ⟨-, hstatus⟩)
        · exact absurd hlate' hlate
        · intro status _
          rw [derive_counted hlate hstatus]
          exact ⟨fun h => h.2.symm, fun h => ⟨hfresh, h.symm⟩⟩
  · rw [SameStatus, if_neg hfresh]
    constructor
    · intro hagree
      refine ⟨fun hlate => hfresh ?_, fun hmem => hfresh ((hagree _ hmem).mpr rfl).1⟩
      exact ((hagree OFFLINE hoffline).mpr (derive_late hlate).symm).1
    · rintro ⟨-, hnot⟩ status hstatus
      exact ⟨fun h => absurd h.1 hfresh, fun h => absurd (h ▸ hstatus) hnot⟩

end Statuses

section Views

variable {settings : FleetSettings} {upper : String → String} {roster : Roster}
  {telemetry : List TelemetryRow} {now : Instant} {robot_id : Int} {listed : List Summary}

-- The robots and statuses of the two views.
abbrev counted (settings : FleetSettings) (upper : String → String) (telemetry : List TelemetryRow)
    (now : Instant) : List (Int × String) :=
  (latest_rows settings telemetry now now).map fun row => (row.robot_id.val, counted_status upper row)

abbrev reported (listed : List Summary) : List (Int × String) :=
  listed.map fun summary => (summary.robot_id, summary.status)

-- A robot that is counted is listed with the same status, or as OFFLINE.
theorem counted_kept (hwindow : 3 < settings.fleet_window_minutes)
    (hhistory : 0 < settings.fleet_history_per_robot)
    (hlisted : robots settings upper roster telemetry now now = some listed) {status : String}
    (hstatus : status ∈ statuses) (h : (robot_id, status) ∈ counted settings upper telemetry now) :
    (robot_id, status) ∈ reported listed ∨ (robot_id, OFFLINE) ∈ reported listed := by
  obtain ⟨row, hlatest, hfresh, rfl⟩ := (mem_counted hwindow hhistory).mp h
  have hshown : Shown settings roster telemetry now robot_id := shown_of_latest hhistory hlatest
  by_cases hlate : Late settings now row
  · refine Or.inr ((mem_listed hhistory hlisted).mpr ⟨hshown, ?_⟩)
    rw [shown_status_of_latest hlatest, derive_late hlate]
  · refine Or.inl ((mem_listed hhistory hlisted).mpr ⟨hshown, ?_⟩)
    rw [shown_status_of_latest hlatest, derive_counted hlate (has_status_of_listed hstatus)]

-- Robot by robot the views agree when its newest reading is one that both say the same of.
theorem same_status_iff (hwindow : 3 < settings.fleet_window_minutes)
    (hhistory : 0 < settings.fleet_history_per_robot)
    (hlisted : robots settings upper roster telemetry now now = some listed) :
    (∀ status ∈ statuses, ((robot_id, status) ∈ counted settings upper telemetry now ↔
        (robot_id, status) ∈ reported listed)) ↔
      (Shown settings roster telemetry now robot_id →
        ∃ row, latest settings now telemetry robot_id = some row ∧ SameStatus settings upper now row) := by
  simp only [mem_counted hwindow hhistory, mem_listed hhistory hlisted]
  cases hlatest : latest settings now telemetry robot_id with
  | none =>
      have hoffline : shown_status settings upper telemetry now robot_id = OFFLINE := by
        rw [shown_status, hlatest]
        rfl
      simp only [reduceCtorEq, false_and, exists_false, false_iff, not_and, hoffline]
      exact ⟨fun h hshown => h OFFLINE (by decide) hshown rfl, fun h _ _ hshown => (h hshown).elim⟩
  | some row =>
      have hshown : Shown settings roster telemetry now robot_id := shown_of_latest hhistory hlatest
      simp only [Option.some.injEq, exists_eq_left', hshown, true_and, forall_const,
        shown_status_of_latest hlatest]
      exact same_status_reading

-- With both views taken at one instant, the counts are equal exactly when the trend is there, no
-- estimate divides by a rate that is rounded to zero, and each robot that is listed has a newest
-- reading of which both say the same: no robot makes up for another. The window of the list must
-- be longer than the three minutes of analytics.
theorem status_views_agree_iff
    (hdated : ∀ row ∈ telemetry, 0 ≤ row.timestamp ∧ row.timestamp < wallLimit)
    (hwindow : 3 < settings.fleet_window_minutes) (hhistory : 0 < settings.fleet_history_per_robot) :
    ViewsAgree settings upper roster telemetry now ↔
      RatesKept settings now telemetry ∧ Reported 20 now telemetry ∧
        ∀ robot_id, Shown settings roster telemetry now robot_id →
          ∃ row, latest settings now telemetry robot_id = some row ∧ SameStatus settings upper now row := by
  have hcounted : ((counted settings upper telemetry now).map Prod.fst).Nodup := by
    rw [List.map_map]
    exact nodup_latest_rows
  rw [← robots_isSome_iff upper roster now, Option.isSome_iff_exists, ← exists_and_right]
  refine exists_congr fun listed => and_congr_right fun h => ?_
  have hlisted : ((reported listed).map Prod.fst).Nodup := by
    rw [List.map_map]
    exact (robots_sorted h).imp fun hlt => hlt.ne
  refine exists_analytics_iff hdated fun result hresult => ?_
  obtain ⟨trend, -, rfl⟩ := analytics_eq_some.mp hresult
  have hoffline : OFFLINE ∈ statuses := by decide
  have hcounts := Cells.labels_agree_iff hcounted hlisted hoffline
    fun status hstatus robot_id hmem => counted_kept hwindow hhistory h hstatus hmem
  simp only [List.map_map] at hcounts
  simp only [robot_status_breakdown, List.forall_mem_map]
  refine hcounts.trans ⟨fun hagree robot_id => ?_, fun hagree status hstatus robot_id => ?_⟩
  · exact (same_status_iff hwindow hhistory h).mp fun status hstatus => hagree status hstatus robot_id
  · exact (same_status_iff hwindow hhistory h).mpr (hagree robot_id) status hstatus

-- A minute and a half after its last reading, which said ACTIVE.
theorem silent_robot_disagrees : ¬ ∀ (settings : FleetSettings) (upper : String → String)
    (roster : Roster) (telemetry : List TelemetryRow) (now : Instant),
    (∀ row ∈ telemetry, Accepted row) → ViewsAgree settings upper roster telemetry now := by
  intro hagree
  obtain ⟨listed, hlisted, result, hresult, hcounts⟩ :=
    hagree defaults id retiredNine activeTable 43290000000 accepted_of_toList
  have hbreakdown : (get_fleet_analytics defaults id none activeTable 43290000000 43290000000).map
      (fun result => result.robot_status_breakdown.head?) = some (some ⟨"ACTIVE", 1⟩) := by
    decide +kernel
  have hshown : (robots defaults id retiredNine activeTable 43290000000 43290000000).map
      (fun listed => (listed.map Summary.status).count "ACTIVE") = some 0 := by
    decide +kernel
  rw [hlisted, Option.map_some, Option.some.injEq] at hshown
  rw [hresult, Option.map_some, Option.some.injEq] at hbreakdown
  have hactive := hcounts ⟨"ACTIVE", 1⟩ (List.mem_of_mem_head? hbreakdown)
  rw [hshown] at hactive
  cases hactive

theorem status_views_agree_active : live_robots activeTable noon.wall = [7] ∧
    ViewsAgree defaults id retiredNine activeTable noon.wall := by
  have hlatest : ((latest defaults noon.wall activeTable 7).map fun row => (fresh noon.wall row,
      counted_status id row, derive_status defaults id row (noon.wall - row.timestamp))) =
        some (true, "ACTIVE", "ACTIVE") := by
    decide +kernel
  obtain ⟨row, hlatest, hrow⟩ := Option.map_eq_some_iff.mp hlatest
  simp only [Prod.mk.injEq] at hrow
  obtain ⟨hfresh, hcounted, hderived⟩ := hrow
  refine ⟨by decide +kernel, (status_views_agree_iff
    (fun row hrow => dated_of_accepted (accepted_of_toList row hrow)) (by decide) (by decide)).mpr
      ⟨(robots_isSome_iff id retiredNine noon.wall).mp (by decide +kernel),
        by simp only [Reported]; decide +kernel, fun robot_id hshown => ?_⟩⟩
  have hseven : robot_id = 7 := by
    have hroster : ∀ p ∈ retiredNine.rows, p.2.is_active = true → p.1 = 7 := by decide
    rcases hshown with ⟨robot, hrobot, hactive⟩ | ⟨other, hother, -, rfl⟩
    · exact hroster _ hrobot hactive
    · revert other
      decide +kernel
  subst hseven
  refine ⟨row, hlatest, ?_⟩
  rw [SameStatus, if_pos hfresh]
  have hstatus : counted_status id row ∈ statuses := by
    rw [hcounted]
    decide
  refine Or.inr ⟨fun hlate => ?_, has_status_of_listed hstatus⟩
  rw [derive_late hlate] at hderived
  exact absurd hderived (by decide)

end Views

end FleetOps.Fleet
