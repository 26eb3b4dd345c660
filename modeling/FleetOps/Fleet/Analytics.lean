import FleetOps.Fleet.HealthTrend
import FleetOps.Library.Cells

namespace FleetOps

namespace PyFloat

-- `lower <= value < upper`
def within (lower upper : Int) : PyFloat → Bool
  | .finite q => decide ((lower : Rat) ≤ q ∧ q < upper)
  | _ => false

theorem not_within {lower upper lower' upper' : Int} {value : PyFloat} (hle : upper ≤ lower')
    (h : value.within lower upper = true) : value.within lower' upper' = false := by
  cases value with
  | nan | inf | neg_inf => rfl
  | finite q =>
      have hle' : (upper : Rat) ≤ lower' := by exact_mod_cast hle
      have hbelow := (of_decide_eq_true h).2.trans_le hle'
      exact decide_eq_false fun hin => absurd hin.1 (not_le.mpr hbelow)

-- Two ranges of which the one begins where the other ends are one range.
theorem within_or {lower middle upper : Int} (hlower : lower ≤ middle) (hupper : middle ≤ upper)
    (value : PyFloat) :
    (value.within lower middle || value.within middle upper) = value.within lower upper := by
  cases value with
  | nan | inf | neg_inf => rfl
  | finite q =>
      have hlower' : (lower : Rat) ≤ middle := by exact_mod_cast hlower
      have hupper' : (middle : Rat) ≤ upper := by exact_mod_cast hupper
      simp only [within, ← Bool.decide_or, decide_eq_decide]
      constructor
      · rintro (⟨hlo, hhi⟩ | ⟨hlo, hhi⟩)
        · exact ⟨hlo, hhi.trans_le hupper'⟩
        · exact ⟨hlower'.trans hlo, hhi⟩
      · rintro ⟨hlo, hhi⟩
        rcases lt_or_ge q middle with hbelow | hnot
        · exact Or.inl ⟨hlo, hbelow⟩
        · exact Or.inr ⟨hnot, hhi⟩

end PyFloat

namespace Fleet

open Calendar Dict Telemetry

structure DistributionBucket where
  range : String
  count : Nat

structure MissionCompletion where
  mission_type : String
  count : Nat

structure StatusBreakdownItem where
  status : String
  count : Nat
  deriving DecidableEq

structure FleetAnalytics where
  fleet_health_trend : List TrendPoint
  battery_distribution : List DistributionBucket
  temperature_distribution : List DistributionBucket
  mission_completion_count : List MissionCompletion
  robot_status_breakdown : List StatusBreakdownItem

section Missions

-- `mission_progress >= 100`. To the database NaN is above all numbers.
def completed : PyFloat → Bool
  | .finite q => decide (100 ≤ q)
  | .nan | .inf => true
  | .neg_inf => false

def mission_types : List String := ["PATROL", "DELIVERY", "INSPECTION"]

-- The distinct missions of each type that have been completed in a day. Of a type that is
-- none of the three the count is dropped.
def get_mission_completions (db_now : Instant) (telemetry : List TelemetryRow) :
    List MissionCompletion :=
  let rows := telemetry.filter fun row =>
    decide (db_now - 86400 * 1000000 < row.timestamp) && row.mission_progress.any completed
  mission_types.map fun mission_type =>
    let of_type := rows.filter fun row => row.mission_type.map Subtype.val == some mission_type
    ⟨mission_type, (of_type.filterMap TelemetryRow.mission_id).dedup.length⟩

end Missions

section Model

variable (settings : FleetSettings) (upper : String → String)

-- `get_recent_per_robot(per_robot_limit=1)`, the window of which is fifteen minutes.
def one_per_robot : FleetSettings :=
  { settings with fleet_window_minutes := 15, fleet_history_per_robot := 1 }

-- Not older than 180 seconds.
def fresh (now : Instant) (row : TelemetryRow) : Bool := decide (now - row.timestamp ≤ 180 * 1000000)

def latest_rows (telemetry : List TelemetryRow) (db_now now : Instant) : List TelemetryRow :=
  (get_recent_per_robot (one_per_robot settings) db_now telemetry).filterMap fun p =>
    p.2.getLast?.filter (fresh now)

def battery_ranges : List (Int × Int) := [(0, 20), (20, 40), (40, 60), (60, 80), (80, 101)]

def temperature_ranges : List (Int × Int) := [(0, 40), (40, 55), (55, 70), (70, 85), (85, 200)]

def battery_label (lower upper : Int) : String :=
  toString lower ++ "-" ++ toString (if upper < 101 then upper - 1 else 100) ++ "%"

def temperature_label (lower upper : Int) : String :=
  toString lower ++ "-" ++ (if upper < 200 then toString (upper - 1) ++ "C" else "95C+")

def distribution (ranges : List (Int × Int)) (label : Int → Int → String)
    (value : TelemetryRow → PyFloat) (rows : List TelemetryRow) : List DistributionBucket :=
  ranges.map fun r => ⟨label r.1 r.2, rows.countP fun row => (value row).within r.1 r.2⟩

def battery_distribution : List TelemetryRow → List DistributionBucket :=
  distribution battery_ranges battery_label TelemetryRow.battery

def temperature_distribution : List TelemetryRow → List DistributionBucket :=
  distribution temperature_ranges temperature_label TelemetryRow.temperature

def counted_status (row : TelemetryRow) : String :=
  match row.status with
  | some status => if status.val = "" then "UNKNOWN" else upper status.val
  | none => "UNKNOWN"

def statuses : List String := ["ACTIVE", "LOW POWER", "OVERHEATING", "OFFLINE", "CHARGING", "DEAD"]

def robot_status_breakdown (rows : List TelemetryRow) : List StatusBreakdownItem :=
  statuses.map fun status => ⟨status, (rows.map (counted_status upper)).count status⟩

-- `cached` is what the cache holds. `none` is what the trend raises.
def get_fleet_analytics (cached : Option FleetAnalytics) (telemetry : List TelemetryRow)
    (db_now now : Instant) : Option FleetAnalytics :=
  match if settings.opt_read_cache then cached else none with
  | some result => some result
  | none => do
      let fleet_health_trend ← get_fleet_health_trend 20 db_now telemetry
      let rows := latest_rows settings telemetry db_now now
      some
        { fleet_health_trend := fleet_health_trend
          battery_distribution := battery_distribution rows
          temperature_distribution := temperature_distribution rows
          mission_completion_count := get_mission_completions db_now telemetry
          robot_status_breakdown := robot_status_breakdown upper rows }

-- The time of a robot's latest reading.
def last_reported (telemetry : List TelemetryRow) (robot_id : Int) : Option Instant :=
  ((telemetry.filter fun row => row.robot_id.val == robot_id).map TelemetryRow.timestamp).max?

-- The robots whose latest reading is not older than 180 seconds.
def live_robots (telemetry : List TelemetryRow) (now : Instant) : List Int :=
  (telemetry.map fun row => row.robot_id.val).dedup.filter fun robot_id =>
    (last_reported telemetry robot_id).any fun t => decide (now - t ≤ 180 * 1000000)

def range_cells (ranges : List (Int × Int)) (value : TelemetryRow → PyFloat) :
    List (TelemetryRow → Bool) :=
  ranges.map fun r row => (value row).within r.1 r.2

def status_cells : List (TelemetryRow → Bool) :=
  statuses.map fun status row => counted_status upper row == status

-- The counts add up to the live robots, each of which is counted in one cell, and once.
def CountsLive (telemetry : List TelemetryRow) (db_now now : Instant)
    (cells : List (TelemetryRow → Bool)) (counts : List Nat) : Prop :=
  counts.sum = (live_robots telemetry now).length ∧
    ∀ robot_id ∈ live_robots telemetry now,
      (Cells.counts cells ((latest_rows settings telemetry db_now now).filter
        fun row => row.robot_id.val = robot_id)).sum = 1

structure CountsAllLive (telemetry : List TelemetryRow) (db_now now : Instant)
    (result : FleetAnalytics) : Prop where
  battery : CountsLive settings telemetry db_now now
    (range_cells battery_ranges TelemetryRow.battery)
    (result.battery_distribution.map DistributionBucket.count)
  temperature : CountsLive settings telemetry db_now now
    (range_cells temperature_ranges TelemetryRow.temperature)
    (result.temperature_distribution.map DistributionBucket.count)
  status : CountsLive settings telemetry db_now now (status_cells upper)
    (result.robot_status_breakdown.map StatusBreakdownItem.count)

-- The reading that the query picks is in the ranges and in the list.
def Listed (row : TelemetryRow) : Prop :=
  row.battery.within 0 101 = true ∧ row.temperature.within 0 200 = true ∧
    counted_status upper row ∈ statuses

end Model

section Live

variable {settings : FleetSettings} {telemetry : List TelemetryRow} {db_now now : Instant}
  {robot_id : Int} {row : TelemetryRow}

theorem mem_live_robots :
    robot_id ∈ live_robots telemetry now ↔
      ∃ row ∈ telemetry, row.robot_id.val = robot_id ∧ fresh now row = true := by
  rw [live_robots, List.mem_filter, List.mem_dedup]
  constructor
  · rintro ⟨-, hany⟩
    obtain ⟨t, ht, hage⟩ := (Option.any_eq_true _ _).mp hany
    obtain ⟨row, hrow, rfl⟩ := List.mem_map.mp (List.max?_eq_some_iff.mp ht).1
    obtain ⟨hrow, hrobot⟩ := List.mem_filter.mp hrow
    exact ⟨row, hrow, by simpa using hrobot, hage⟩
  · rintro ⟨row, hrow, hrobot, hfresh⟩
    have hmem : row.timestamp ∈ (telemetry.filter fun row => row.robot_id.val == robot_id).map
        TelemetryRow.timestamp :=
      List.mem_map_of_mem (List.mem_filter.mpr ⟨hrow, by simpa using hrobot⟩)
    obtain ⟨t, ht⟩ := Option.isSome_iff_exists.mp (List.isSome_max?_of_mem hmem)
    have hle := (List.max?_eq_some_iff.mp ht).2 _ hmem
    refine ⟨List.mem_map.mpr ⟨row, hrow, hrobot⟩, (Option.any_eq_true _ _).mpr ⟨t, ht, ?_⟩⟩
    exact decide_eq_true ((Int.sub_le_sub_left hle now).trans (of_decide_eq_true hfresh))

-- The row that the query picks is fresh when any of the robot's rows is.
theorem fresh_of_live (hlatest : latest (one_per_robot settings) db_now telemetry robot_id = some row)
    (hlive : robot_id ∈ live_robots telemetry now) : fresh now row = true := by
  obtain ⟨other, hother, hrobot, hfresh⟩ := mem_live_robots.mp hlive
  have hle := latest_newest Int.one_pos hlatest other hother hrobot
  exact decide_eq_true ((Int.sub_le_sub_left hle now).trans (of_decide_eq_true hfresh))

theorem mem_group {p : Int × List TelemetryRow}
    (hp : p ∈ get_recent_per_robot (one_per_robot settings) db_now telemetry)
    (hrow : p.2.getLast? = some row) :
    latest (one_per_robot settings) db_now telemetry p.1 = some row ∧ row.robot_id.val = p.1 := by
  have hlatest : latest (one_per_robot settings) db_now telemetry p.1 = some row := by
    rw [latest, (lookup_iff_mem nodup_recent).mpr hp]
    exact hrow
  exact ⟨hlatest, (latest_spec Int.one_pos hlatest).1.2.2⟩

theorem mem_latest_rows :
    row ∈ latest_rows settings telemetry db_now now ↔
      latest (one_per_robot settings) db_now telemetry row.robot_id.val = some row ∧
        fresh now row = true := by
  simp only [latest_rows, List.mem_filterMap, Option.filter_eq_some_iff]
  constructor
  · rintro ⟨p, hp, hlast, hfresh⟩
    obtain ⟨hlatest, hrobot⟩ := mem_group hp hlast
    exact ⟨hrobot ▸ hlatest, hfresh⟩
  · rintro ⟨hlatest, hfresh⟩
    obtain ⟨rows, hrows, hlast⟩ := Option.bind_eq_some_iff.mp hlatest
    exact ⟨_, mem_of_lookup hrows, hlast, hfresh⟩

theorem nodup_latest_rows :
    ((latest_rows settings telemetry db_now now).map fun row => row.robot_id.val).Nodup := by
  rw [List.Nodup, List.pairwise_map, latest_rows, List.pairwise_filterMap]
  refine (List.pairwise_map.mp nodup_recent).imp_of_mem fun {p q} hp hq hne row hrow other hother heq => ?_
  have hfirst := (mem_group hp (Option.filter_eq_some_iff.mp hrow).1).2
  have hsecond := (mem_group hq (Option.filter_eq_some_iff.mp hother).1).2
  exact hne (hfirst.symm.trans (heq.trans hsecond))

theorem live_of_mem_latest_rows (h : row ∈ latest_rows settings telemetry db_now now) :
    row.robot_id.val ∈ live_robots telemetry now := by
  obtain ⟨hlatest, hfresh⟩ := mem_latest_rows.mp h
  exact mem_live_robots.mpr ⟨row, (latest_spec Int.one_pos hlatest).1.1, rfl, hfresh⟩

theorem mem_latest_rows_of_live
    (hlatest : latest (one_per_robot settings) db_now telemetry robot_id = some row)
    (hlive : robot_id ∈ live_robots telemetry now) :
    row ∈ latest_rows settings telemetry db_now now ∧ row.robot_id.val = robot_id := by
  have hrobot := (latest_spec Int.one_pos hlatest).1.2.2
  subst hrobot
  exact ⟨mem_latest_rows.mpr ⟨hlatest, fresh_of_live hlatest hlive⟩, rfl⟩

-- If the query picks a row of each live robot, the rows are one for each.
theorem latest_rows_perm (h : ∀ robot_id ∈ live_robots telemetry now,
      ∃ row, latest (one_per_robot settings) db_now telemetry robot_id = some row) :
    ((latest_rows settings telemetry db_now now).map fun row => row.robot_id.val).Perm
      (live_robots telemetry now) := by
  have hnodup : (live_robots telemetry now).Nodup := (List.nodup_dedup _).filter _
  refine (List.perm_ext_iff_of_nodup nodup_latest_rows hnodup).mpr fun robot_id => ?_
  rw [List.mem_map]
  constructor
  · rintro ⟨row, hrow, rfl⟩
    exact live_of_mem_latest_rows hrow
  · intro hlive
    obtain ⟨row, hlatest⟩ := h robot_id hlive
    exact ⟨row, mem_latest_rows_of_live hlatest hlive⟩

end Live

section Cover

variable {settings : FleetSettings} {upper : String → String} {telemetry : List TelemetryRow}
  {db_now now : Instant} {row : TelemetryRow} {cells : List (TelemetryRow → Bool)}

theorem counted_live_iff (hcells : Cells.Apart cells) {robot_id : Int}
    (hlive : robot_id ∈ live_robots telemetry now) :
    (Cells.counts cells ((latest_rows settings telemetry db_now now).filter
        fun row => row.robot_id.val = robot_id)).sum = 1 ↔
      ∃ row, latest (one_per_robot settings) db_now telemetry robot_id = some row ∧
        Cells.covered cells row = true := by
  rw [Cells.counted_once_iff hcells nodup_latest_rows]
  constructor
  · rintro ⟨row, hrow, rfl, hcovered⟩
    exact ⟨row, (mem_latest_rows.mp hrow).1, hcovered⟩
  · rintro ⟨row, hlatest, hcovered⟩
    obtain ⟨hrow, hrobot⟩ := mem_latest_rows_of_live hlatest hlive
    exact ⟨row, hrow, hrobot, hcovered⟩

-- All live robots are counted when the row of each is picked by the query and is in a cell.
theorem counts_live_iff (hcells : Cells.Apart cells) :
    CountsLive settings telemetry db_now now cells
        (Cells.counts cells (latest_rows settings telemetry db_now now)) ↔
      ∀ robot_id ∈ live_robots telemetry now,
        ∃ row, latest (one_per_robot settings) db_now telemetry robot_id = some row ∧
          Cells.covered cells row = true := by
  constructor
  · intro h robot_id hlive
    exact (counted_live_iff hcells hlive).mp (h.2 robot_id hlive)
  · intro h
    have hcovered : ∀ row ∈ latest_rows settings telemetry db_now now, Cells.covered cells row = true := by
      intro row hrow
      obtain ⟨row', hlatest, hcovered⟩ := h _ (live_of_mem_latest_rows hrow)
      rw [(mem_latest_rows.mp hrow).1] at hlatest
      cases hlatest
      exact hcovered
    have hperm := latest_rows_perm fun robot_id hlive => (h robot_id hlive).imp fun _ => And.left
    refine ⟨?_, fun robot_id hlive => (counted_live_iff hcells hlive).mpr (h robot_id hlive)⟩
    rw [(Cells.sum_counts_eq_length hcells).mpr hcovered, ← hperm.length_eq, List.length_map]

-- Of two ranges the later begins where the earlier ends, or above.
theorem range_cells_apart {ranges : List (Int × Int)} (value : TelemetryRow → PyFloat)
    (hranges : ranges.Pairwise fun r s => r.2 ≤ s.1) : Cells.Apart (range_cells ranges value) := by
  rw [Cells.Apart, range_cells, List.pairwise_map]
  exact hranges.imp fun hle _ hin => PyFloat.not_within hle hin

theorem status_cells_apart : Cells.Apart (status_cells upper) := by
  have hnodup : statuses.Nodup := by decide
  rw [Cells.Apart, status_cells, List.pairwise_map]
  refine hnodup.imp fun {s t} hne row hs => ?_
  have hstatus : counted_status upper row = s := by simpa using hs
  simpa [hstatus] using hne

-- The ranges follow one another from the one bound to the other.
def Adjoin : Int → List (Int × Int) → Int → Prop
  | lower, [], upper => lower = upper
  | lower, r :: ranges, upper => r.1 = lower ∧ lower ≤ r.2 ∧ Adjoin r.2 ranges upper

theorem le_of_adjoin {ranges : List (Int × Int)} {lower upper : Int} (h : Adjoin lower ranges upper) :
    lower ≤ upper := by
  induction ranges generalizing lower with
  | nil => exact le_of_eq h
  | cons r ranges ih => exact h.2.1.trans (ih h.2.2)

theorem range_covered {ranges : List (Int × Int)} {value : TelemetryRow → PyFloat} {lower upper : Int}
    (h : Adjoin lower ranges upper) :
    Cells.covered (range_cells ranges value) row = (value row).within lower upper := by
  induction ranges generalizing lower with
  | nil =>
      obtain rfl : lower = upper := h
      cases hvalue : value row with
      | nan | inf | neg_inf => rfl
      | finite q => exact (decide_eq_false fun hin => absurd hin.2 (not_lt.mpr hin.1)).symm
  | cons r ranges ih =>
      obtain ⟨rfl, hle, hrest⟩ := h
      have hcons : Cells.covered (range_cells (r :: ranges) value) row =
          ((value row).within r.1 r.2 || Cells.covered (range_cells ranges value) row) := rfl
      rw [hcons, ih hrest, PyFloat.within_or hle (le_of_adjoin hrest)]

theorem battery_covered : Cells.covered (range_cells battery_ranges TelemetryRow.battery) row =
    row.battery.within 0 101 :=
  range_covered (by simp [battery_ranges, Adjoin])

theorem temperature_covered : Cells.covered (range_cells temperature_ranges TelemetryRow.temperature) row =
    row.temperature.within 0 200 :=
  range_covered (by simp [temperature_ranges, Adjoin])

theorem status_covered : Cells.covered (status_cells upper) row = true ↔
    counted_status upper row ∈ statuses := by
  simp [Cells.covered, status_cells]

theorem counts_distribution (ranges : List (Int × Int)) (label : Int → Int → String)
    (value : TelemetryRow → PyFloat) (rows : List TelemetryRow) :
    (distribution ranges label value rows).map DistributionBucket.count =
      Cells.counts (range_cells ranges value) rows := by
  simp [distribution, Cells.counts, range_cells, Function.comp_def]

theorem counts_breakdown (rows : List TelemetryRow) :
    (robot_status_breakdown upper rows).map StatusBreakdownItem.count =
      Cells.counts (status_cells upper) rows := by
  simp [robot_status_breakdown, Cells.counts, status_cells, List.count, List.countP_map,
    Function.comp_def]

theorem analytics_eq_some {result : FleetAnalytics} :
    get_fleet_analytics settings upper none telemetry db_now now = some result ↔
      ∃ trend, get_fleet_health_trend 20 db_now telemetry = some trend ∧
        result =
          { fleet_health_trend := trend
            battery_distribution := battery_distribution (latest_rows settings telemetry db_now now)
            temperature_distribution :=
              temperature_distribution (latest_rows settings telemetry db_now now)
            mission_completion_count := get_mission_completions db_now telemetry
            robot_status_breakdown :=
              robot_status_breakdown upper (latest_rows settings telemetry db_now now) } := by
  have hnone : (if settings.opt_read_cache then (none : Option FleetAnalytics) else none) = none :=
    ite_self none
  rw [get_fleet_analytics, hnone]
  simp only [Option.bind_eq_bind, Option.bind_eq_some_iff, Option.some.injEq]
  exact exists_congr fun trend => and_congr_right fun _ => eq_comm

theorem counts_all_live_iff {result : FleetAnalytics}
    (h : get_fleet_analytics settings upper none telemetry db_now now = some result) :
    CountsAllLive settings upper telemetry db_now now result ↔
      ∀ robot_id ∈ live_robots telemetry now,
        ∃ row, latest (one_per_robot settings) db_now telemetry robot_id = some row ∧
          Listed upper row := by
  obtain ⟨trend, -, rfl⟩ := analytics_eq_some.mp h
  have hbattery : Cells.Apart (range_cells battery_ranges TelemetryRow.battery) :=
    range_cells_apart _ (by decide)
  have htemperature : Cells.Apart (range_cells temperature_ranges TelemetryRow.temperature) :=
    range_cells_apart _ (by decide)
  have hstatus : Cells.Apart (status_cells upper) := status_cells_apart
  constructor
  · rintro ⟨hb, ht, hs⟩ robot_id hlive
    rw [battery_distribution, counts_distribution, counts_live_iff hbattery] at hb
    rw [temperature_distribution, counts_distribution, counts_live_iff htemperature] at ht
    rw [counts_breakdown, counts_live_iff hstatus] at hs
    obtain ⟨row, hlatest, hbcovered⟩ := hb robot_id hlive
    obtain ⟨row', hlatest', htcovered⟩ := ht robot_id hlive
    obtain ⟨row'', hlatest'', hscovered⟩ := hs robot_id hlive
    cases hlatest.symm.trans hlatest'
    cases hlatest.symm.trans hlatest''
    exact ⟨row, hlatest, battery_covered ▸ hbcovered, temperature_covered ▸ htcovered,
      status_covered.mp hscovered⟩
  · intro hlisted
    constructor
    · rw [battery_distribution, counts_distribution, counts_live_iff hbattery]
      intro robot_id hlive
      obtain ⟨row, hlatest, hrow, -, -⟩ := hlisted robot_id hlive
      exact ⟨row, hlatest, battery_covered.trans hrow⟩
    · rw [temperature_distribution, counts_distribution, counts_live_iff htemperature]
      intro robot_id hlive
      obtain ⟨row, hlatest, -, hrow, -⟩ := hlisted robot_id hlive
      exact ⟨row, hlatest, temperature_covered.trans hrow⟩
    · rw [counts_breakdown, counts_live_iff hstatus]
      intro robot_id hlive
      obtain ⟨row, hlatest, -, -, hrow⟩ := hlisted robot_id hlive
      exact ⟨row, hlatest, status_covered.mpr hrow⟩

theorem exists_analytics_iff (hdated : ∀ row ∈ telemetry, 0 ≤ row.timestamp ∧ row.timestamp < wallLimit)
    {P : FleetAnalytics → Prop} {Q : Prop} (hP : ∀ result,
      get_fleet_analytics settings upper none telemetry db_now now = some result → (P result ↔ Q)) :
    (∃ result, get_fleet_analytics settings upper none telemetry db_now now = some result ∧ P result) ↔
      Reported 20 db_now telemetry ∧ Q := by
  have htrend : (get_fleet_health_trend 20 db_now telemetry).isSome = true ↔
      (0 : Int) ≤ 20 ∧ Reported 20 db_now telemetry := health_trend_isSome_iff hdated
  constructor
  · rintro ⟨result, hresult, hp⟩
    obtain ⟨trend, hsome, -⟩ := analytics_eq_some.mp hresult
    exact ⟨(htrend.mp (Option.isSome_iff_exists.mpr ⟨trend, hsome⟩)).2, (hP result hresult).mp hp⟩
  · rintro ⟨hreported, hq⟩
    obtain ⟨trend, hsome⟩ := Option.isSome_iff_exists.mp (htrend.mpr ⟨by decide, hreported⟩)
    obtain ⟨result, hresult⟩ : ∃ result,
        get_fleet_analytics settings upper none telemetry db_now now = some result :=
      ⟨_, analytics_eq_some.mpr ⟨trend, hsome, rfl⟩⟩
    exact ⟨result, hresult, (hP result hresult).mpr hq⟩

-- The breakdowns are there and account for the live robots exactly when the trend is there and the
-- reading that the query picks of each is in the ranges and its status in the list.
theorem breakdowns_account_iff (haccepted : ∀ row ∈ telemetry, Accepted row) :
    (∃ result, get_fleet_analytics settings upper none telemetry db_now now = some result ∧
      CountsAllLive settings upper telemetry db_now now result) ↔
      Reported 20 db_now telemetry ∧ ∀ robot_id ∈ live_robots telemetry now,
        ∃ row, latest (one_per_robot settings) db_now telemetry robot_id = some row ∧
          Listed upper row :=
  exists_analytics_iff (fun row hrow => dated_of_accepted (haccepted row hrow))
    fun _ => counts_all_live_iff

-- The simulator reports a robot that the operator has halted as STOPPED.
def stoppedTable : List TelemetryRow :=
  (stored_row inlineEnv noon noon { fullReading with status := some "STOPPED" }).toList

theorem stopped_robot_uncounted : ¬ ∀ (settings : FleetSettings) (upper : String → String)
    (telemetry : List TelemetryRow) (now : Instant),
    (∀ row ∈ telemetry, Accepted row ∧ finite_row row = true) →
    ∃ result, get_fleet_analytics settings upper none telemetry now now = some result ∧
      CountsAllLive settings upper telemetry now now result := by
  intro haccounts
  obtain ⟨result, hresult, -, -, hstatus⟩ := haccounts defaults id stoppedTable noon.wall
    fun row hrow => ⟨accepted_of_toList row hrow, by revert row; decide +kernel⟩
  have hcounts : (get_fleet_analytics defaults id none stoppedTable noon.wall noon.wall).map
      (fun result => (result.robot_status_breakdown.map StatusBreakdownItem.count).sum) = some 0 := by
    decide +kernel
  have hlive : (live_robots stoppedTable noon.wall).length = 1 := by decide +kernel
  rw [hresult, Option.map_some, Option.some.injEq, hstatus.1, hlive] at hcounts
  cases hcounts

def activeTable : List TelemetryRow :=
  (stored_row inlineEnv noon noon { fullReading with status := some "ACTIVE" }).toList

theorem breakdowns_account_active : live_robots activeTable noon.wall = [7] ∧
    ∃ result, get_fleet_analytics defaults id none activeTable noon.wall noon.wall = some result ∧
      CountsAllLive defaults id activeTable noon.wall noon.wall result := by
  have hlive : live_robots activeTable noon.wall = [7] := by decide +kernel
  have hlisted : ((latest (one_per_robot defaults) noon.wall activeTable 7).map fun row =>
      (row.battery.within 0 101, row.temperature.within 0 200, counted_status id row)) =
        some (true, true, "ACTIVE") := by
    decide +kernel
  obtain ⟨row, hlatest, hrow⟩ := Option.map_eq_some_iff.mp hlisted
  simp only [Prod.mk.injEq] at hrow
  obtain ⟨hbattery, htemperature, hstatus⟩ := hrow
  refine ⟨hlive, (breakdowns_account_iff accepted_of_toList).mpr
    ⟨by simp only [Reported]; decide +kernel, fun robot_id hmem => ?_⟩⟩
  have hmem' : robot_id ∈ live_robots activeTable noon.wall := hmem
  rw [hlive, List.mem_singleton] at hmem'
  subst hmem'
  exact ⟨row, hlatest, hbattery, htemperature, by rw [hstatus]; decide⟩

end Cover

end Fleet

end FleetOps
