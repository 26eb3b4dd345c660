import Mathlib.Tactic.Linarith
import Mathlib.Tactic.Positivity
import FleetOps.Fleet.Timeline
import FleetOps.Library.Newest

namespace FleetOps

namespace PyFloat

def add : PyFloat → PyFloat → PyFloat
  | .finite a, .finite b => .finite (a + b)
  | .nan, _ | _, .nan | .inf, .neg_inf | .neg_inf, .inf => .nan
  | .inf, _ | _, .inf => .inf
  | .neg_inf, _ | _, .neg_inf => .neg_inf

-- `a < b`
def lt : PyFloat → PyFloat → Bool
  | .finite a, .finite b => decide (a < b)
  | .finite _, .inf | .neg_inf, .finite _ | .neg_inf, .inf => true
  | _, _ => false

-- `max(a, b)` and `min(a, b)`, which keep the first of two that do not compare.
protected def max (a b : PyFloat) : PyFloat := if a.lt b then b else a

protected def min (a b : PyFloat) : PyFloat := if b.lt a then b else a

-- A value that is no number clamps as well.
theorem clamp_mem (value : PyFloat) : ∃ q : Rat,
    (PyFloat.finite 0).max ((PyFloat.finite 100).min value) = .finite q ∧ 0 ≤ q ∧ q ≤ 100 := by
  have hfull : (PyFloat.finite 0).max (.finite 100) = .finite 100 := by decide
  have hzero : (PyFloat.finite 0).max .neg_inf = .finite 0 := by decide
  cases value with
  | nan | inf => exact ⟨100, hfull, by norm_num, le_rfl⟩
  | neg_inf => exact ⟨0, hzero, le_rfl, by norm_num⟩
  | finite q =>
      by_cases hhigh : q < 100
      · have hmin : (PyFloat.finite 100).min (.finite q) = .finite q := if_pos (decide_eq_true hhigh)
        by_cases hlow : 0 < q
        · exact ⟨q, by rw [hmin]; exact if_pos (decide_eq_true hlow), hlow.le, hhigh.le⟩
        · refine ⟨0, ?_, le_rfl, by norm_num⟩
          rw [hmin]
          exact if_neg (by simpa [lt] using hlow)
      · have hmin : (PyFloat.finite 100).min (.finite q) = .finite 100 :=
          if_neg (by simpa [lt] using hhigh)
        exact ⟨100, by rw [hmin, hfull], by norm_num, le_rfl⟩

-- Rounding leaves no bounds that are whole.
theorem roundHalfEven_mem {q : Rat} {lo hi : Int} (hlo : (lo : Rat) ≤ q) (hhi : q ≤ hi) :
    lo ≤ roundHalfEven q ∧ roundHalfEven q ≤ hi := by
  have hfloor : lo ≤ q.floor := Rat.le_floor_iff.mpr hlo
  have hle : q.floor ≤ hi := by exact_mod_cast (Rat.floor_le q).trans hhi
  by_cases hrest : q - q.floor < 1 / 2
  · simp only [roundHalfEven, if_pos hrest]
    exact ⟨hfloor, hle⟩
  · have hbelow : q.floor < hi := by
      refine lt_of_le_of_ne hle fun heq => hrest ?_
      rw [heq]
      linarith
    simp only [roundHalfEven, if_neg hrest]
    split_ifs <;> omega

theorem round_mem {q : Rat} {n : Nat} (hlo : 0 ≤ q) (hhi : q ≤ n) :
    ∃ r, (PyFloat.finite q).round 1 = .finite r ∧ 0 ≤ r ∧ r ≤ n := by
  have htenths : ((0 : Int) : Rat) ≤ q * 10 ^ 1 ∧ q * 10 ^ 1 ≤ ((n * 10 : Int) : Rat) := by
    push_cast
    constructor <;> linarith
  obtain ⟨hlo', hhi'⟩ := roundHalfEven_mem htenths.1 htenths.2
  have hlo'' : (0 : Rat) ≤ roundHalfEven (q * 10 ^ 1) := by exact_mod_cast hlo'
  have hhi'' : (roundHalfEven (q * 10 ^ 1) : Rat) ≤ n * 10 := by exact_mod_cast hhi'
  refine ⟨_, rfl, by positivity, ?_⟩
  rw [div_le_iff₀ (by norm_num)]
  simpa using hhi''

end PyFloat

namespace Fleet

open Calendar Telemetry

section Model

-- `avg` of a column. NULLs are left out, and of nothing else it is NULL. The error of the
-- database for a sum that overflows is not modelled.
def avg (column : List (Option PyFloat)) : Option PyFloat :=
  match column.filterMap id with
  | [] => none
  | value :: values =>
      ((value :: values).foldl PyFloat.add (.finite 0)).div (.finite (values.length + 1))

-- A row of the query for the trend.
structure Bucket where
  bucket : Instant
  avg_battery : Option PyFloat
  avg_temperature : Option PyFloat
  avg_batt_h : Option PyFloat
  avg_motor_h : Option PyFloat
  avg_sensor_h : Option PyFloat
  avg_net_h : Option PyFloat

structure TrendPoint where
  timestamp : String
  health_score : PyFloat

-- `date_trunc("minute", timestamp)`
def minute (row : TelemetryRow) : Instant := row.timestamp - row.timestamp % 60000000

variable (limit_minutes : Int) (db_now : Instant) (telemetry : List TelemetryRow)

def trend_rows : List TelemetryRow :=
  telemetry.filter fun row => decide (db_now - limit_minutes * 60000000 < row.timestamp)

def bucket_of (rows : List TelemetryRow) (bucket : Instant) : Bucket :=
  let rows := rows.filter fun row => minute row == bucket
  { bucket := bucket
    avg_battery := avg (rows.map fun row => some row.battery)
    avg_temperature := avg (rows.map fun row => some row.temperature)
    avg_batt_h := avg (rows.map TelemetryRow.battery_health)
    avg_motor_h := avg (rows.map TelemetryRow.motor_health)
    avg_sensor_h := avg (rows.map TelemetryRow.sensor_health)
    avg_net_h := avg (rows.map TelemetryRow.network_health) }

-- The minutes of the rows, the last first.
def minutes (rows : List TelemetryRow) : List Instant :=
  (rows.map minute).dedup.insertionSort fun a b => b ≤ a

def trend_buckets : List Bucket :=
  let rows := trend_rows limit_minutes db_now telemetry
  ((minutes rows).take limit_minutes.toNat).map (bucket_of rows)

-- `none` is the TypeError of an average that is None.
def trend_point (row : Bucket) : Option TrendPoint := do
  let avg_batt_h ← row.avg_batt_h
  let avg_motor_h ← row.avg_motor_h
  let avg_sensor_h ← row.avg_sensor_h
  let avg_net_h ← row.avg_net_h
  let avg_component ← (((avg_batt_h.add avg_motor_h).add avg_sensor_h).add avg_net_h).div (.finite 4)
  let avg_battery ← row.avg_battery
  let avg_temperature ← row.avg_temperature
  let score :=
    ((avg_component.mul (.finite (55 / 100))).add (avg_battery.mul (.finite (30 / 100)))).sub
      (((PyFloat.finite 0).max (avg_temperature.sub (.finite 55))).mul (.finite (11 / 10)))
  let score := (PyFloat.finite 0).max ((PyFloat.finite 100).min score)
  let timestamp ← iso (some row.bucket)
  some ⟨timestamp, score.round 1⟩

-- A LIMIT that is negative is an error of the database.
def get_fleet_health_trend : Option (List TrendPoint) :=
  if limit_minutes < 0 then none
  else (trend_buckets limit_minutes db_now telemetry).reverse.mapM trend_point

-- The columns whose averages are NULL when no row of the minute has a value.
def components : List (TelemetryRow → Option PyFloat) :=
  [TelemetryRow.battery_health, TelemetryRow.motor_health, TelemetryRow.sensor_health,
    TelemetryRow.network_health]

-- In each minute that the limit lets through, each component is reported by some row.
def Reported : Prop :=
  let rows := trend_rows limit_minutes db_now telemetry
  ∀ row ∈ rows, ((minutes rows).countP fun later => decide (minute row < later) : Nat) < limit_minutes →
    ∀ component ∈ components, ∃ other ∈ rows, minute other = minute row ∧ (component other).isSome = true

-- The time of the one point is before that of the other.
def Earlier (a b : TrendPoint) : Prop :=
  ∃ d₁ d₂, parse_time_text a.timestamp = some d₁ ∧ parse_time_text b.timestamp = some d₂ ∧
    d₁.instant < d₂.instant

structure WellFormed (trend : List TrendPoint) : Prop where
  at_most : trend.length ≤ limit_minutes
  minutes : ∀ point ∈ trend, ∃ d, parse_time_text point.timestamp = some d ∧ d.instant % 60000000 = 0
  increasing : trend.Pairwise Earlier
  scores : ∀ point ∈ trend, ∃ q, point.health_score = .finite q ∧ 0 ≤ q ∧ q ≤ 100

end Model

section Points

theorem avg_isSome_iff {column : List (Option PyFloat)} :
    (avg column).isSome = true ↔ ∃ value ∈ column, value.isSome = true := by
  unfold avg
  split
  · rename_i hnone
    rw [List.filterMap_eq_nil_iff] at hnone
    simp only [Option.isSome_none, Bool.false_eq_true, false_iff, not_exists, not_and]
    intro value hvalue
    rw [show value = none from hnone value hvalue]
    exact Bool.false_ne_true
  · rename_i first values hvalues
    have hcount : PyFloat.finite (values.length + 1) ≠ .finite 0 := by
      intro h
      exact Nat.cast_add_one_ne_zero values.length (PyFloat.finite.inj h)
    have hfirst : first ∈ column.filterMap id := hvalues ▸ List.mem_cons_self
    obtain ⟨value, hvalue, hsome⟩ := List.mem_filterMap.mp hfirst
    exact ⟨fun _ => ⟨value, hvalue, by rw [show value = some first from hsome]; rfl⟩,
      fun _ => PyFloat.div_isSome hcount⟩

variable {row : Bucket} {point : TrendPoint}

-- What a point is given that no average is missing.
theorem trend_point_spec (h : trend_point row = some point) :
    (row.avg_batt_h.isSome = true ∧ row.avg_motor_h.isSome = true ∧ row.avg_sensor_h.isSome = true ∧
      row.avg_net_h.isSome = true) ∧
    iso (some row.bucket) = some point.timestamp ∧
    ∃ q, point.health_score = .finite q ∧ 0 ≤ q ∧ q ≤ 100 := by
  simp only [trend_point, Option.bind_eq_bind, Option.bind_eq_some_iff] at h
  obtain ⟨_, hbatt, _, hmotor, _, hsensor, _, hnet, _, -, _, -, _, -, timestamp, hiso, h⟩ := h
  cases h
  refine ⟨⟨?_, ?_, ?_, ?_⟩, hiso, ?_⟩
  · rw [hbatt, Option.isSome_some]
  · rw [hmotor, Option.isSome_some]
  · rw [hsensor, Option.isSome_some]
  · rw [hnet, Option.isSome_some]
  · obtain ⟨q, hq, hlo, hhi⟩ := PyFloat.clamp_mem _
    rw [hq]
    exact PyFloat.round_mem hlo hhi

theorem trend_point_isSome (hbatt : row.avg_batt_h.isSome = true) (hmotor : row.avg_motor_h.isSome = true)
    (hsensor : row.avg_sensor_h.isSome = true) (hnet : row.avg_net_h.isSome = true)
    (hbattery : row.avg_battery.isSome = true) (htemperature : row.avg_temperature.isSome = true)
    (hbucket : (iso (some row.bucket)).isSome = true) : (trend_point row).isSome = true := by
  obtain ⟨batt, hbatt⟩ := Option.isSome_iff_exists.mp hbatt
  obtain ⟨motor, hmotor⟩ := Option.isSome_iff_exists.mp hmotor
  obtain ⟨sensor, hsensor⟩ := Option.isSome_iff_exists.mp hsensor
  obtain ⟨net, hnet⟩ := Option.isSome_iff_exists.mp hnet
  obtain ⟨battery, hbattery⟩ := Option.isSome_iff_exists.mp hbattery
  obtain ⟨temperature, htemperature⟩ := Option.isSome_iff_exists.mp htemperature
  obtain ⟨timestamp, hbucket⟩ := Option.isSome_iff_exists.mp hbucket
  obtain ⟨component, hcomponent⟩ := Option.isSome_iff_exists.mp
    (PyFloat.div_isSome (a := ((batt.add motor).add sensor).add net) (b := .finite 4) (by decide))
  simp only [trend_point, hbatt, hmotor, hsensor, hnet, hbattery, htemperature, hbucket, hcomponent,
    Option.bind_eq_bind, Option.bind_some, Option.isSome_some]

end Points

section Times

theorem iso_of_nameable {t : Int} (hpos : 0 ≤ t) (hlimit : t < wallLimit) :
    (iso (some t)).isSome = true := by
  have hrange : 0 ≤ t ∧ t.toNat < wallLimit := by omega
  obtain ⟨text, htext, -⟩ := parse_time_text_to_iso ⟨t.toNat, hrange.2⟩
  rw [iso, Option.bind_some, dif_pos hrange, htext]
  rfl

-- The text of a stored time is read back as it.
theorem parse_iso {t : Instant} {text : String} (h : iso (some t) = some text) :
    ∃ d, parse_time_text text = some d ∧ d.instant = t := by
  rw [iso, Option.bind_some] at h
  split at h
  · rename_i hrange
    obtain ⟨text', htext', -, hparse⟩ := parse_time_text_to_iso ⟨t.toNat, hrange.2⟩
    rw [htext'] at h
    cases h
    exact ⟨_, hparse, (instant_utc _).trans (Int.toNat_of_nonneg hrange.1)⟩
  · cases h

theorem truncated (t : Int) :
    (t - t % 60000000) % 60000000 = 0 ∧ t - t % 60000000 ≤ t ∧ (0 ≤ t → 0 ≤ t - t % 60000000) := by
  omega

theorem minute_mod (row : TelemetryRow) : minute row % 60000000 = 0 := (truncated row.timestamp).1

theorem minute_nameable {row : TelemetryRow} (hpos : 0 ≤ row.timestamp) (hlimit : row.timestamp < wallLimit) :
    0 ≤ minute row ∧ minute row < wallLimit :=
  ⟨(truncated row.timestamp).2.2 hpos, (truncated row.timestamp).2.1.trans_lt hlimit⟩

theorem mem_minutes {rows : List TelemetryRow} {m : Instant} :
    m ∈ minutes rows ↔ ∃ row ∈ rows, minute row = m := by
  rw [minutes, List.mem_insertionSort, List.mem_dedup, List.mem_map]

theorem minutes_decreasing (rows : List TelemetryRow) : (minutes rows).Pairwise (· > ·) := by
  have hnodup : (minutes rows).Nodup :=
    (List.perm_insertionSort _ _).nodup_iff.mpr (List.nodup_dedup _)
  have hsorted : (minutes rows).Pairwise fun a b => b ≤ a := List.pairwise_insertionSort _ _
  exact hsorted.imp₂ (fun _ _ hle hne => lt_of_le_of_ne hle (Ne.symm hne)) hnodup

end Times

section Trend

variable {limit_minutes : Int} {db_now : Instant} {telemetry : List TelemetryRow}
  {trend : List TrendPoint}

-- The buckets are those of the minutes that fewer than the limit come after.
theorem mem_trend_buckets {bucket : Bucket} :
    bucket ∈ trend_buckets limit_minutes db_now telemetry ↔
      ∃ row ∈ trend_rows limit_minutes db_now telemetry,
        ((minutes (trend_rows limit_minutes db_now telemetry)).countP
          fun later => decide (minute row < later) : Nat) < limit_minutes ∧
        bucket_of (trend_rows limit_minutes db_now telemetry) (minute row) = bucket := by
  have hdecreasing := minutes_decreasing (trend_rows limit_minutes db_now telemetry)
  simp only [trend_buckets, List.mem_map]
  constructor
  · rintro ⟨m, hm, rfl⟩
    have hmem := List.mem_of_mem_take hm
    obtain ⟨row, hrow, rfl⟩ := mem_minutes.mp hmem
    have hcount := (Newest.mem_take_of_decreasing hdecreasing hmem).mp hm
    exact ⟨row, hrow, by omega, rfl⟩
  · rintro ⟨row, hrow, hcount, rfl⟩
    have hmem := mem_minutes.mpr ⟨row, hrow, rfl⟩
    exact ⟨minute row, (Newest.mem_take_of_decreasing hdecreasing hmem).mpr (by omega), rfl⟩

-- A column of a bucket has an average when some row of the minute has a value in it.
theorem avg_bucket_isSome {rows : List TelemetryRow} {m : Instant}
    {column : TelemetryRow → Option PyFloat} :
    (avg ((rows.filter fun row => minute row == m).map column)).isSome = true ↔
      ∃ row ∈ rows, minute row = m ∧ (column row).isSome = true := by
  rw [avg_isSome_iff]
  constructor
  · rintro ⟨value, hvalue, hsome⟩
    obtain ⟨row, hrow, rfl⟩ := List.mem_map.mp hvalue
    obtain ⟨hrow, hminute⟩ := List.mem_filter.mp hrow
    exact ⟨row, hrow, by simpa using hminute, hsome⟩
  · rintro ⟨row, hrow, hminute, hsome⟩
    exact ⟨column row, List.mem_map_of_mem (List.mem_filter.mpr ⟨hrow, by simpa using hminute⟩), hsome⟩

theorem health_trend_isSome_iff (hdated : ∀ row ∈ telemetry, 0 ≤ row.timestamp ∧ row.timestamp < wallLimit) :
    (get_fleet_health_trend limit_minutes db_now telemetry).isSome = true ↔
      0 ≤ limit_minutes ∧ Reported limit_minutes db_now telemetry := by
  constructor
  · intro h
    obtain ⟨trend, htrend⟩ := Option.isSome_iff_exists.mp h
    unfold get_fleet_health_trend at htrend
    split at htrend
    · cases htrend
    · rename_i hlimit
      refine ⟨not_lt.mp hlimit, fun row hrow hcount => ?_⟩
      have hbucket := mem_trend_buckets.mpr ⟨row, hrow, hcount, rfl⟩
      obtain ⟨point, -, hpoint⟩ := mem_of_mapM htrend _ (List.mem_reverse.mpr hbucket)
      obtain ⟨⟨hbatt, hmotor, hsensor, hnet⟩, -⟩ := trend_point_spec hpoint
      simp only [components, List.forall_mem_cons, List.not_mem_nil, false_imp_iff, implies_true, and_true]
      exact ⟨avg_bucket_isSome.mp hbatt, avg_bucket_isSome.mp hmotor, avg_bucket_isSome.mp hsensor,
        avg_bucket_isSome.mp hnet⟩
  · rintro ⟨hlimit, hreported⟩
    have hpoints : ∀ bucket ∈ (trend_buckets limit_minutes db_now telemetry).reverse,
        (trend_point bucket).isSome = true := by
      intro bucket hbucket
      obtain ⟨row, hrow, hcount, rfl⟩ := mem_trend_buckets.mp (List.mem_reverse.mp hbucket)
      have heach := hreported row hrow hcount
      simp only [components, List.forall_mem_cons, List.not_mem_nil, false_imp_iff, implies_true,
        and_true] at heach
      obtain ⟨hbatt, hmotor, hsensor, hnet⟩ := heach
      obtain ⟨hpos, hlimit⟩ := hdated row (List.mem_filter.mp hrow).1
      have hname := minute_nameable hpos hlimit
      exact trend_point_isSome (avg_bucket_isSome.mpr hbatt) (avg_bucket_isSome.mpr hmotor)
        (avg_bucket_isSome.mpr hsensor) (avg_bucket_isSome.mpr hnet)
        (avg_bucket_isSome.mpr ⟨row, hrow, rfl, rfl⟩) (avg_bucket_isSome.mpr ⟨row, hrow, rfl, rfl⟩)
        (iso_of_nameable hname.1 hname.2)
    obtain ⟨trend, htrend, -⟩ := mapM_eq_some_of_forall hpoints
    rw [get_fleet_health_trend, if_neg (not_lt.mpr hlimit), htrend]
    rfl

theorem well_formed_of_trend (h : get_fleet_health_trend limit_minutes db_now telemetry = some trend) :
    WellFormed limit_minutes trend := by
  unfold get_fleet_health_trend at h
  split at h
  · cases h
  · rename_i hlimit
    have hpoints := forall₂_of_mapM h
    have hrises : (trend_buckets limit_minutes db_now telemetry).reverse.Pairwise
        fun a b => a.bucket < b.bucket := by
      rw [List.pairwise_reverse, trend_buckets, List.pairwise_map]
      exact (minutes_decreasing _).sublist (List.take_sublist _ _)
    constructor
    · have hlength : trend.length ≤ limit_minutes.toNat := by
        rw [← hpoints.length_eq, List.length_reverse, trend_buckets, List.length_map]
        exact List.length_take_le _ _
      omega
    · intro point hpoint
      obtain ⟨bucket, hbucket, hpoint⟩ := exists_of_mem_mapM h point hpoint
      obtain ⟨row, -, -, rfl⟩ := mem_trend_buckets.mp (List.mem_reverse.mp hbucket)
      obtain ⟨d, hparse, hinstant⟩ := parse_iso (trend_point_spec hpoint).2.1
      exact ⟨d, hparse, hinstant ▸ minute_mod row⟩
    · refine (pairwise_of_forall₂ hpoints hrises fun a b p q hab ha hb => ?_).mp hrises
      obtain ⟨d₁, hparse₁, hinstant₁⟩ := parse_iso (trend_point_spec ha).2.1
      obtain ⟨d₂, hparse₂, hinstant₂⟩ := parse_iso (trend_point_spec hb).2.1
      exact ⟨fun _ => ⟨d₁, d₂, hparse₁, hparse₂, by rw [hinstant₁, hinstant₂]; exact hab⟩, fun _ => hab⟩
    · intro point hpoint
      obtain ⟨bucket, -, hpoint⟩ := exists_of_mem_mapM h point hpoint
      exact (trend_point_spec hpoint).2.2

-- The row of a reading that is accepted, whichever way it is stored.
def Accepted (row : TelemetryRow) : Prop :=
  ∃ (env : Env) (received_at now : Utc) (data : TelemetryCreate),
    stored_row env received_at now data = some row

theorem dated_of_accepted {row : TelemetryRow} (h : Accepted row) :
    0 ≤ row.timestamp ∧ row.timestamp < wallLimit := by
  obtain ⟨env, received_at, now, data, hstored⟩ := h
  obtain ⟨-, t, -, htime⟩ := holds_of_stored_row hstored
  rw [htime]
  exact ⟨Int.natCast_nonneg _, Int.ofNat_lt.mpr t.hwall⟩

-- The trend is there, and well formed, exactly when no component is missing from all the rows of
-- a minute that it is about.
theorem health_trend_total_iff (haccepted : ∀ row ∈ telemetry, Accepted row) :
    (∃ trend, get_fleet_health_trend limit_minutes db_now telemetry = some trend ∧
      WellFormed limit_minutes trend) ↔
      0 ≤ limit_minutes ∧ Reported limit_minutes db_now telemetry := by
  rw [← health_trend_isSome_iff fun row hrow => dated_of_accepted (haccepted row hrow),
    Option.isSome_iff_exists]
  constructor
  · rintro ⟨trend, htrend, -⟩
    exact ⟨trend, htrend⟩
  · rintro ⟨trend, htrend⟩
    exact ⟨trend, htrend, well_formed_of_trend htrend⟩

def finite_row (row : TelemetryRow) : Bool :=
  [some row.battery, some row.temperature, some row.speed, row.mission_progress, row.battery_health,
    row.motor_health, row.sensor_health, row.network_health, row.x, row.y].all
      fun value => value.all PyFloat.isFinite

-- A reading with all its components, and one with none.
def fullReading : TelemetryCreate :=
  { plainReading 7 (.finite 80) with
    battery_health := some (.finite 90)
    motor_health := some (.finite 100)
    sensor_health := some (.finite 0)
    network_health := some (.finite 100) }

def fullTable : List TelemetryRow := (stored_row inlineEnv noon noon fullReading).toList

def bareTable : List TelemetryRow :=
  (stored_row inlineEnv noon noon (plainReading 7 (.finite 80))).toList

theorem accepted_of_toList {env : Env} {received_at now : Utc} {data : TelemetryCreate} :
    ∀ row ∈ (stored_row env received_at now data).toList, Accepted row :=
  fun _ hrow => ⟨env, received_at, now, data, Option.mem_toList.mp hrow⟩

theorem bare_minute_fails : ¬ ∀ (limit_minutes : Int) (db_now : Instant) (telemetry : List TelemetryRow),
    0 ≤ limit_minutes → (∀ row ∈ telemetry, Accepted row ∧ finite_row row = true) →
    ∃ trend, get_fleet_health_trend limit_minutes db_now telemetry = some trend ∧
      WellFormed limit_minutes trend := by
  intro htotal
  obtain ⟨trend, htrend, -⟩ := htotal 20 noon.wall bareTable (by decide)
    fun row hrow => ⟨accepted_of_toList row hrow, by revert row; decide +kernel⟩
  have hnone : (get_fleet_health_trend 20 noon.wall bareTable).isSome = false := by decide +kernel
  rw [htrend] at hnone
  cases hnone

theorem health_trend_total_full : fullTable.length = 1 ∧
    ∃ trend, get_fleet_health_trend 20 noon.wall fullTable = some trend ∧ WellFormed 20 trend :=
  ⟨by decide +kernel, (health_trend_total_iff accepted_of_toList).mpr
    ⟨by decide, by simp only [Reported]; decide +kernel⟩⟩

end Trend

end Fleet

end FleetOps
