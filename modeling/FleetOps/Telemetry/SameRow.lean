import FleetOps.Telemetry.Acknowledged
import FleetOps.Telemetry.Worker

namespace FleetOps.Telemetry

open Calendar Dict Text Worker

section Paths

-- What a reading leaves: its row, and what `mark_seen` is called with.
abbrev Stored := TelemetryRow × List (Int × Datetime)

-- The direct path; `none` if a step raises.
def direct_insert (max_clock_skew_seconds : Int) (data : TelemetryCreate) (received_at : Utc) :
    Option Stored := do
  let ts ← resolve_timestamp max_clock_skew_seconds data.timestamp received_at
  let telemetry ← columns (InsertDict.of data ts)
  some (telemetry, [(telemetry.robot_id.val, ts.datetime)])

-- The buffered path up to the text that is put on the stream.
def queued_text (orjson : Orjson) (serialize : Datetime → String) (max_clock_skew_seconds : Int)
    (data : TelemetryCreate) (received_at : Utc) : Option orjson.Text := do
  let ts ← resolve_timestamp max_clock_skew_seconds data.timestamp received_at
  let payload ← stamped serialize data ts
  orjson.dumps (.obj payload)

-- What the worker makes of the text, on its own in a batch, at the time `now`.
def worker_insert (orjson : Orjson) (text : orjson.Text) (now : Utc) : Option Stored :=
  match parse orjson now (some text) with
  | .row d => do
      let telemetry ← columns d
      let latest_by_robot ← latest_by_robot [] (Worker.lastSeen [(0, d)])
      some (telemetry, latest_by_robot)
  | _ => none

def buffered_insert (orjson : Orjson) (serialize : Datetime → String) (max_clock_skew_seconds : Int)
    (data : TelemetryCreate) (received_at now : Utc) : Option Stored :=
  (queued_text orjson serialize max_clock_skew_seconds data received_at).bind fun text =>
    worker_insert orjson text now

end Paths

section Conditions

-- JSON has a number for each float of the reading.
def finite_numbers (data : TelemetryCreate) : Bool :=
  data.battery.isFinite && data.temperature.isFinite && data.speed.isFinite &&
    data.mission_progress.all PyFloat.isFinite && data.battery_health.all PyFloat.isFinite &&
    data.motor_health.all PyFloat.isFinite && data.sensor_health.all PyFloat.isFinite &&
    data.network_health.all PyFloat.isFinite && data.x.all PyFloat.isFinite &&
    data.y.all PyFloat.isFinite

-- Offsets are read in hours and minutes.
def WholeMinutes (t : Datetime) : Prop := ∀ offset ∈ t.utcoffset, offset % 60000000 = 0

-- The model library writes a time so that it reads back.
def ReadsBack (serialize : Datetime → String) : Prop :=
  ∀ t, WholeMinutes t → parse_time_text (serialize t) = some t

end Conditions

section Values

theorem written_float {value : PyFloat} (h : value.isFinite = true) :
    (Json.float value).written = .float value := by
  simp [Json.written, h]

theorem written_optional_float {value : Option PyFloat} (h : value.all PyFloat.isFinite = true) :
    (optional Json.float value).written = optional Json.float value := by
  cases value with
  | none => rfl
  | some value => exact written_float h

theorem finite_of_double {value number : PyFloat} (h : double (Json.float value).written = some number) :
    value.isFinite = true := by
  have hsome := double_written_isSome value
  rw [h] at hsome
  exact hsome.symm

-- A number that is not finite is kept by the one path and lost by the other.
theorem finite_of_nullable {value number : Option PyFloat}
    (hread : nullable double (optional Json.float value).written = some number)
    (hgiven : nullable double (optional Json.float value) = some number) :
    value.all PyFloat.isFinite = true := by
  cases value with
  | none => rfl
  | some value =>
      have hnumber : some value = number := Option.some.inj hgiven
      subst hnumber
      cases value with
      | finite => rfl
      | nan | inf | neg_inf => cases hread

theorem mission_start_read {serialize : Datetime → String} (hserialize : ReadsBack serialize)
    {start : Option Datetime} (hminutes : ∀ t ∈ start, WholeMinutes t) :
    (start.bind fun t => parse_time_text (serialize t)) = start := by
  cases start with
  | none => rfl
  | some t => exact hserialize t (hminutes t rfl)

-- With finite numbers the worker inserts what the direct path inserts.
theorem read_eq_of {serialize : Datetime → String} (hserialize : ReadsBack serialize)
    {data : TelemetryCreate} (hminutes : ∀ t ∈ data.mission_start_time, WholeMinutes t)
    (hfinite : finite_numbers data = true) (ts : Utc) :
    InsertDict.read serialize data ts = InsertDict.of data ts := by
  simp only [finite_numbers, Bool.and_eq_true] at hfinite
  obtain ⟨⟨⟨⟨⟨⟨⟨⟨⟨hbattery, htemperature⟩, hspeed⟩, hprogress⟩, hbh⟩, hmh⟩, hsh⟩, hnh⟩, hx⟩, hy⟩ := hfinite
  simp only [InsertDict.read, InsertDict.of, written_float hbattery, written_float htemperature,
    written_float hspeed, written_optional_float hprogress, written_optional_float hbh,
    written_optional_float hmh, written_optional_float hsh, written_optional_float hnh,
    written_optional_float hx, written_optional_float hy, mission_start_read hserialize hminutes]

-- The float columns of a row are its values'.
structure FloatColumns (d : InsertDict) (row : TelemetryRow) : Prop where
  battery : double d.battery = some row.battery
  temperature : double d.temperature = some row.temperature
  speed : double d.speed = some row.speed
  mission_progress : nullable double d.mission_progress = some row.mission_progress
  battery_health : nullable double d.battery_health = some row.battery_health
  motor_health : nullable double d.motor_health = some row.motor_health
  sensor_health : nullable double d.sensor_health = some row.sensor_health
  network_health : nullable double d.network_health = some row.network_health
  x : nullable double d.x = some row.x
  y : nullable double d.y = some row.y

theorem floatColumns_of_columns {d : InsertDict} {row : TelemetryRow} (h : columns d = some row) :
    FloatColumns d row := by
  obtain ⟨_, _, h⟩ := Option.bind_eq_some_iff.mp h
  obtain ⟨_, hbattery, h⟩ := Option.bind_eq_some_iff.mp h
  obtain ⟨_, htemperature, h⟩ := Option.bind_eq_some_iff.mp h
  obtain ⟨_, hspeed, h⟩ := Option.bind_eq_some_iff.mp h
  iterate 3 obtain ⟨_, _, h⟩ := Option.bind_eq_some_iff.mp h
  obtain ⟨_, hprogress, h⟩ := Option.bind_eq_some_iff.mp h
  obtain ⟨_, hbh, h⟩ := Option.bind_eq_some_iff.mp h
  obtain ⟨_, hmh, h⟩ := Option.bind_eq_some_iff.mp h
  obtain ⟨_, hsh, h⟩ := Option.bind_eq_some_iff.mp h
  obtain ⟨_, hnh, h⟩ := Option.bind_eq_some_iff.mp h
  obtain ⟨_, hx, h⟩ := Option.bind_eq_some_iff.mp h
  obtain ⟨_, hy, h⟩ := Option.bind_eq_some_iff.mp h
  cases h
  exact ⟨hbattery, htemperature, hspeed, hprogress, hbh, hmh, hsh, hnh, hx, hy⟩

theorem finite_of_same_row {serialize : Datetime → String} {data : TelemetryCreate} {ts : Utc}
    {row : TelemetryRow} (hgiven : columns (InsertDict.of data ts) = some row)
    (hread : columns (InsertDict.read serialize data ts) = some row) : finite_numbers data = true := by
  have hg := floatColumns_of_columns hgiven
  have hr := floatColumns_of_columns hread
  simp only [finite_numbers, finite_of_double hr.battery, finite_of_double hr.temperature,
    finite_of_double hr.speed, finite_of_nullable hr.mission_progress hg.mission_progress,
    finite_of_nullable hr.battery_health hg.battery_health,
    finite_of_nullable hr.motor_health hg.motor_health,
    finite_of_nullable hr.sensor_health hg.sensor_health,
    finite_of_nullable hr.network_health hg.network_health, finite_of_nullable hr.x hg.x,
    finite_of_nullable hr.y hg.y, Bool.and_self]

end Values

section Comparison

variable {orjson : Orjson} {serialize : Datetime → String} {max_clock_skew_seconds : Int}
  {data : TelemetryCreate} {received_at : Utc}

theorem parse_published {ts : Utc} {payload : Dict} (hstamped : stamped serialize data ts = some payload)
    {text : orjson.Text} (htext : orjson.dumps (.obj payload) = some text) (now : Utc) :
    parse orjson now (some text) = .row (InsertDict.read serialize data ts) := by
  have hloads := orjson.loads_dumps _ _ htext
  simp only [parse, Option.bind_some, hloads, Json.written, parseDecoded,
    any_battery_stamped hstamped, if_true, payload_to_insert_dict_stamped hstamped]

theorem encodable_of_int32 {value : Int} (h : int32 value = true) :
    (Json.int value).encodable = true := by
  simp only [int32, decide_eq_true_eq] at h
  simp only [Json.encodable, decide_eq_true_eq]
  omega

-- What a reading leaves that both paths take the same time for.
theorem buffered_insert_eq {ts : Utc}
    (hts : resolve_timestamp max_clock_skew_seconds data.timestamp received_at = some ts)
    {robot_id : Integer} (hrobot : integer (.int data.robot_id) = some robot_id) (now : Utc) :
    buffered_insert orjson serialize max_clock_skew_seconds data received_at now =
      (columns (InsertDict.read serialize data ts)).map fun row =>
        (row, [(robot_id.val, ts.datetime)]) := by
  obtain ⟨iso, hiso, _, _⟩ := parse_time_text_to_iso ts
  obtain ⟨payload, hstamped⟩ : ∃ payload, stamped serialize data ts = some payload := by
    simp [stamped, hiso]
  have hint32 : int32 data.robot_id = true := by
    rw [← integer_isSome, hrobot]
    rfl
  obtain ⟨text, htext⟩ := Option.isSome_iff_exists.mp
    ((orjson.dumps_isSome (.obj payload)).trans
      ((encodable_stamped hstamped).trans (encodable_of_int32 hint32)))
  have hqueued : queued_text orjson serialize max_clock_skew_seconds data received_at = some text := by
    simp only [queued_text, hts, hstamped, htext, Option.bind_eq_bind, Option.bind_some]
  have hseen : latest_by_robot [] (Worker.lastSeen [(0, InsertDict.read serialize data ts)]) =
      some [(robot_id.val, ts.datetime)] := by
    simp [Worker.lastSeen, InsertDict.read, hrobot, latest_by_robot, setItem]
  rw [buffered_insert, hqueued, Option.bind_some, worker_insert, parse_published hstamped htext]
  simp only [hseen, Option.bind_eq_bind, Option.bind_some]
  cases columns (InsertDict.read serialize data ts) <;> rfl

-- Where the direct path stores a reading, the buffered path stores the same exactly if
-- each number of the reading is finite.
theorem same_row_iff (hserialize : ReadsBack serialize)
    (hminutes : ∀ t ∈ data.mission_start_time, WholeMinutes t) {stored : Stored}
    (hdirect : direct_insert max_clock_skew_seconds data received_at = some stored) (now : Utc) :
    buffered_insert orjson serialize max_clock_skew_seconds data received_at now = some stored ↔
      finite_numbers data = true := by
  obtain ⟨ts, hts, hdirect⟩ := Option.bind_eq_some_iff.mp hdirect
  obtain ⟨row, hrow, hdirect⟩ := Option.bind_eq_some_iff.mp hdirect
  cases hdirect
  rw [buffered_insert_eq hts (columns_robot hrow).1]
  constructor
  · intro h
    obtain ⟨row', hread, heq⟩ := Option.map_eq_some_iff.mp h
    cases heq
    exact finite_of_same_row hrow hread
  · intro hfinite
    rw [read_eq_of hserialize hminutes hfinite, hrow]
    rfl

end Comparison

section OneReading

-- `isoformat` writes as the model library does unless the time is UTC.
def iso_text (t : Datetime) : String := String.ofList (isoformat t)

theorem zed_not_mem_isoformat (t : Datetime) : 'Z' ∉ isoformat t := by
  have hplain : ∀ n, 'Z' ∉ format_time n := fun n h => absurd (plain_of_mem_time h) (by decide)
  have hoffset : ∀ o, 'Z' ∉ format_offset o := by
    intro o h
    rcases List.mem_cons.mp h with h | h
    · split at h <;> cases h
    · refine hplain o.natAbs (List.mem_append.mpr ?_)
      rcases List.mem_append.mp h with h | h
      · exact Or.inl h
      · split at h
        · cases h
        · exact Or.inr h
  intro h
  simp only [isoformat, List.mem_append, List.mem_cons] at h
  rcases h with h | h | h | h
  · exact absurd (plain_of_mem_date h) (by decide)
  · cases h
  · exact hplain _ h
  · cases hzone : t.utcoffset with
    | none =>
        rw [hzone] at h
        cases h
    | some o =>
        rw [hzone] at h
        exact hoffset o h

theorem readsBack_iso_text : ReadsBack iso_text := by
  intro t _
  have hlist : (iso_text t).toList = isoformat t := String.toList_ofList
  have hsame : replace "Z".toList "+00:00".toList (isoformat t) = isoformat t :=
    replace_absent [] _ (zed_not_mem_isoformat t)
  rw [parse_time_text, hlist, hsame, fromisoformat_isoformat]

-- Robot 7 reports a battery level of NaN.
theorem nan_reading_differs : ¬ ∀ (orjson : Orjson) (serialize : Datetime → String)
    (max_clock_skew_seconds : Int) (data : TelemetryCreate) (received_at now : Utc) (stored : Stored),
    ReadsBack serialize → (∀ t ∈ data.mission_start_time, WholeMinutes t) →
    direct_insert max_clock_skew_seconds data received_at = some stored →
    buffered_insert orjson serialize max_clock_skew_seconds data received_at now = some stored := by
  intro hsame
  obtain ⟨stored, hdirect⟩ := Option.isSome_iff_exists.mp
    (show (direct_insert 300 (plainReading 7 .nan) noon).isSome = true by decide +kernel)
  have hbuffered := hsame .values iso_text 300 (plainReading 7 .nan) noon noon stored
    readsBack_iso_text (fun _ ht => nomatch ht) hdirect
  rw [buffered_insert_eq (show _ = some noon from rfl) (show _ = some ⟨7, by decide⟩ by decide)] at hbuffered
  obtain ⟨row, hread, _⟩ := Option.map_eq_some_iff.mp hbuffered
  have hsome := columns_read_isSome iso_text (plainReading 7 .nan) noon
  have hrefused : storable (plainReading 7 .nan) = false := by decide
  rw [hread, hrefused] at hsome
  cases hsome

-- A mission that started at one in the morning, five and a half hours east of UTC.
def missionReading : TelemetryCreate :=
  { plainReading 7 (.finite 91) with
    mission_start_time := some ⟨3600000000, some 19800000000, by decide, by decide⟩ }

theorem same_row_mission : ∃ stored, direct_insert 300 missionReading noon = some stored ∧
    buffered_insert .values iso_text 300 missionReading noon noon = some stored := by
  obtain ⟨stored, hdirect⟩ := Option.isSome_iff_exists.mp
    (show (direct_insert 300 missionReading noon).isSome = true by decide +kernel)
  have hminutes : ∀ t ∈ missionReading.mission_start_time, WholeMinutes t := by
    rintro _ ⟨⟩ _ ⟨⟩
    decide
  exact ⟨stored, hdirect, (same_row_iff readsBack_iso_text hminutes hdirect noon).mpr (by decide)⟩

end OneReading

end FleetOps.Telemetry
