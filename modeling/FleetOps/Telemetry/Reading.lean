import FleetOps.Columns
import FleetOps.Library.Datetime

namespace FleetOps.Telemetry

open Calendar Dict Text

structure TelemetryCreate where
  robot_id : Int
  battery : PyFloat
  temperature : PyFloat
  speed : PyFloat
  timestamp : Option Datetime
  status : Option String
  mission_id : Option String
  mission_type : Option String
  mission_progress : Option PyFloat
  mission_start_time : Option Datetime
  battery_health : Option PyFloat
  motor_health : Option PyFloat
  sensor_health : Option PyFloat
  network_health : Option PyFloat
  x : Option PyFloat
  y : Option PyFloat

section Timestamps

-- `_to_iso` of a value that is not None. A naive value is taken as UTC, and so
-- is its instant.
def to_iso (value : Datetime) : Option String :=
  value.astimezone_utc.map fun t =>
    String.ofList (replace "+00:00".toList "Z".toList (isoformat t.datetime))

-- Device time unless it is too far ahead of server time. `none` is the
-- OverflowError of `astimezone`. `total_seconds()` is a double, which for limits below 2^33
-- seconds compares as the exact difference does.
def resolve_timestamp (max_clock_skew_seconds : Int) (reported : Option Datetime)
    (received_at : Utc) : Option Utc :=
  match reported with
  | none => some received_at
  | some reported => reported.astimezone_utc.map fun t =>
      if (t.wall : Int) - received_at.wall > max_clock_skew_seconds * 1000000 then received_at
      else t

-- The worker's reading of a time text; `none` is a ValueError.
def parse_time_text (raw : String) : Option Datetime :=
  fromisoformat (replace "Z".toList "+00:00".toList raw.toList)

end Timestamps

section Payload

-- `model_dump(mode="json")`. The model library writes a datetime its own way.
def model_dump (serialize : Datetime → String) (data : TelemetryCreate) : Dict :=
  [("robot_id", .int data.robot_id),
   ("battery", .float data.battery),
   ("temperature", .float data.temperature),
   ("speed", .float data.speed),
   ("timestamp", optional (.str ∘ serialize) data.timestamp),
   ("status", optional .str data.status),
   ("mission_id", optional .str data.mission_id),
   ("mission_type", optional .str data.mission_type),
   ("mission_progress", optional .float data.mission_progress),
   ("mission_start_time", optional (.str ∘ serialize) data.mission_start_time),
   ("battery_health", optional .float data.battery_health),
   ("motor_health", optional .float data.motor_health),
   ("sensor_health", optional .float data.sensor_health),
   ("network_health", optional .float data.network_health),
   ("x", optional .float data.x),
   ("y", optional .float data.y)]

-- The payload that a reading is broadcast as, its timestamp resolved.
def stamped (serialize : Datetime → String) (data : TelemetryCreate) (ts : Utc) : Option Dict :=
  (to_iso ts.datetime).map fun text => setItem (model_dump serialize data) "timestamp" (.str text)

end Payload

section Rows

-- The values of an INSERT, before the database has looked at them.
structure InsertDict where
  robot_id : Json
  battery : Json
  temperature : Json
  speed : Json
  status : Json
  mission_id : Json
  mission_type : Json
  mission_progress : Json
  mission_start_time : Option Datetime
  battery_health : Json
  motor_health : Json
  sensor_health : Json
  network_health : Json
  x : Json
  y : Json
  timestamp : Datetime

def get (p : Dict) (key : String) (fallback : Json) : Json := (p.lookup key).getD fallback

-- Python's truth of a payload value.
def truthy : Json → Bool
  | .null => false
  | .bool flag => flag
  | .int value => value != 0
  | .float value => value != .finite 0
  | .str text => text != ""
  | .arr items => !items.isEmpty
  | .obj fields => !fields.isEmpty

-- `str` of a value. That of anything but a text is in no date format, so that it
-- need not be told.
def str_of : Json → Option String
  | .str text => some text
  | _ => none

def payload_to_insert_dict (now : Utc) (p : Dict) : InsertDict where
  robot_id := get p "robot_id" (.int 0)
  battery := get p "battery" (.float (.finite 0))
  temperature := get p "temperature" (.float (.finite 0))
  speed := get p "speed" (.float (.finite 0))
  status := get p "status" (.str "UNKNOWN")
  mission_id := get p "mission_id" .null
  mission_type := get p "mission_type" .null
  mission_progress := get p "mission_progress" .null
  mission_start_time := (str_of (get p "mission_start_time" .null)).bind parse_time_text
  battery_health := get p "battery_health" .null
  motor_health := get p "motor_health" .null
  sensor_health := get p "sensor_health" .null
  network_health := get p "network_health" .null
  x := get p "x" .null
  y := get p "y" .null
  timestamp :=
    let ts_raw := get p "timestamp" .null
    let ts_raw := if truthy ts_raw then ts_raw else .str (String.ofList (isoformat now.datetime))
    ((str_of ts_raw).bind parse_time_text).getD now.datetime

-- What `TelemetryRepository.insert` hands to the INSERT.
def InsertDict.of (data : TelemetryCreate) (timestamp : Utc) : InsertDict where
  robot_id := .int data.robot_id
  battery := .float data.battery
  temperature := .float data.temperature
  speed := .float data.speed
  status := optional .str data.status
  mission_id := optional .str data.mission_id
  mission_type := optional .str data.mission_type
  mission_progress := optional .float data.mission_progress
  mission_start_time := data.mission_start_time
  battery_health := optional .float data.battery_health
  motor_health := optional .float data.motor_health
  sensor_health := optional .float data.sensor_health
  network_health := optional .float data.network_health
  x := optional .float data.x
  y := optional .float data.y
  timestamp := timestamp.datetime

-- A row of the telemetry table meets the constraints of its columns.
structure TelemetryRow where
  robot_id : Integer
  battery : PyFloat
  temperature : PyFloat
  speed : PyFloat
  status : Option (Varchar 32)
  mission_id : Option (Varchar 64)
  mission_type : Option (Varchar 32)
  mission_progress : Option PyFloat
  mission_start_time : Option Instant
  battery_health : Option PyFloat
  motor_health : Option PyFloat
  sensor_health : Option PyFloat
  network_health : Option PyFloat
  x : Option PyFloat
  y : Option PyFloat
  timestamp : Instant
  deriving DecidableEq

-- The row that the INSERT makes of its values; `none` if a column refuses one.
def columns (d : InsertDict) : Option TelemetryRow := do
  some
    { robot_id := ← integer d.robot_id
      battery := ← double d.battery
      temperature := ← double d.temperature
      speed := ← double d.speed
      status := ← nullable (varchar 32) d.status
      mission_id := ← nullable (varchar 64) d.mission_id
      mission_type := ← nullable (varchar 32) d.mission_type
      mission_progress := ← nullable double d.mission_progress
      mission_start_time := d.mission_start_time.map Datetime.instant
      battery_health := ← nullable double d.battery_health
      motor_health := ← nullable double d.motor_health
      sensor_health := ← nullable double d.sensor_health
      network_health := ← nullable double d.network_health
      x := ← nullable double d.x
      y := ← nullable double d.y
      timestamp := d.timestamp.instant }

theorem columns_robot {d : InsertDict} {row : TelemetryRow} (h : columns d = some row) :
    integer d.robot_id = some row.robot_id ∧ row.timestamp = d.timestamp.instant := by
  obtain ⟨robot_id, hrobot, h⟩ := Option.bind_eq_some_iff.mp h
  iterate 13 obtain ⟨_, _, h⟩ := Option.bind_eq_some_iff.mp h
  cases h
  exact ⟨hrobot, rfl⟩

end Rows

section TimeTexts

-- The worker reads back the time that a payload was stamped with.
theorem parse_time_text_to_iso (t : Utc) :
    ∃ text, to_iso t.datetime = some text ∧ text ≠ "" ∧ parse_time_text text = some t.datetime := by
  obtain ⟨s, hplain, hiso⟩ := isoformat_utc t
  have hplus : '+' ∉ s := fun h => absurd (hplain '+' h) (by decide)
  have hzed : 'Z' ∉ s := fun h => absurd (hplain 'Z' h) (by decide)
  have hto : replace "+00:00".toList "Z".toList (isoformat t.datetime) = s ++ ['Z'] := by
    rw [hiso]
    exact replace_suffix _ hplus
  have hback : replace "Z".toList "+00:00".toList (s ++ ['Z']) = isoformat t.datetime := by
    rw [hiso]
    exact replace_suffix _ hzed
  refine ⟨String.ofList (s ++ ['Z']), ?_, ?_, ?_⟩
  · simp only [to_iso, astimezone_utc_datetime, Option.map_some, hto]
  · intro hempty
    have hlist := congrArg String.toList hempty
    simp at hlist
  · have htext : (String.ofList (s ++ ['Z'])).toList = s ++ ['Z'] := String.toList_ofList
    rw [parse_time_text, htext, hback, fromisoformat_isoformat]

end TimeTexts

section StoredReadings

-- The INSERT values that the worker makes of a reading published through the
-- stream: a number that JSON cannot write has become null.
def InsertDict.read (serialize : Datetime → String) (data : TelemetryCreate) (timestamp : Utc) :
    InsertDict where
  robot_id := .int data.robot_id
  battery := (Json.float data.battery).written
  temperature := (Json.float data.temperature).written
  speed := (Json.float data.speed).written
  status := optional .str data.status
  mission_id := optional .str data.mission_id
  mission_type := optional .str data.mission_type
  mission_progress := (optional .float data.mission_progress).written
  mission_start_time := data.mission_start_time.bind fun t => parse_time_text (serialize t)
  battery_health := (optional .float data.battery_health).written
  motor_health := (optional .float data.motor_health).written
  sensor_health := (optional .float data.sensor_health).written
  network_health := (optional .float data.network_health).written
  x := (optional .float data.x).written
  y := (optional .float data.y).written
  timestamp := timestamp.datetime

@[simp] theorem str_of_str (text : String) : str_of (.str text) = some text := rfl

theorem written_optional_str (value : Option String) :
    (optional Json.str value).written = optional Json.str value := by
  cases value <;> rfl

theorem payload_to_insert_dict_stamped {serialize : Datetime → String} {data : TelemetryCreate}
    {ts : Utc} {payload : Dict} (h : stamped serialize data ts = some payload) (now : Utc) :
    payload_to_insert_dict now (writtenFields payload) = InsertDict.read serialize data ts := by
  obtain ⟨text, hiso, hne, hparse⟩ := parse_time_text_to_iso ts
  simp only [stamped, hiso, Option.map_some, Option.some.injEq] at h
  subst h
  have hstart : (str_of ((optional (Json.str ∘ serialize) data.mission_start_time).written)).bind
      parse_time_text = data.mission_start_time.bind fun t => parse_time_text (serialize t) := by
    cases data.mission_start_time <;> rfl
  simp [payload_to_insert_dict, InsertDict.read, get, lookup_writtenFields, lookup_setItem, model_dump,
    List.lookup_cons, written_optional_str, hstart, Json.written, truthy, hne, hparse]

theorem any_battery_stamped {serialize : Datetime → String} {data : TelemetryCreate} {ts : Utc}
    {payload : Dict} (h : stamped serialize data ts = some payload) :
    (writtenFields payload).any (fun p => p.1 == "battery") = true := by
  obtain ⟨text, hiso, _, _⟩ := parse_time_text_to_iso ts
  simp only [stamped, hiso, Option.map_some, Option.some.injEq] at h
  subst h
  rfl

theorem encodable_optional {α : Type} {json : α → Json} (h : ∀ a, (json a).encodable = true)
    (value : Option α) : (optional json value).encodable = true := by
  cases value with
  | none => rfl
  | some a => exact h a

-- Only a robot number can keep a reading's payload from being written.
theorem encodable_stamped {serialize : Datetime → String} {data : TelemetryCreate} {ts : Utc}
    {payload : Dict} (h : stamped serialize data ts = some payload) :
    (Json.obj payload).encodable = (Json.int data.robot_id).encodable := by
  obtain ⟨text, hiso, _, _⟩ := parse_time_text_to_iso ts
  simp only [stamped, hiso, Option.map_some, Option.some.injEq] at h
  subst h
  have hfloat : ∀ value, (Json.float value).encodable = true := fun _ => rfl
  have hstr : ∀ value, (Json.str value).encodable = true := fun _ => rfl
  have htime : ∀ t, ((Json.str ∘ serialize) t).encodable = true := fun _ => rfl
  simp [setItem, assign, model_dump, Json.encodable, encodableFields, encodableField,
    encodable_optional hfloat, encodable_optional hstr, encodable_optional htime]

-- What the telemetry table asks of a reading that comes through the stream.
def storable (data : TelemetryCreate) : Bool :=
  int32 data.robot_id && data.battery.isFinite && data.temperature.isFinite &&
    data.speed.isFinite && data.status.all (fits 32) && data.mission_id.all (fits 64) &&
    data.mission_type.all (fits 32)

theorem isSome_bind_const {α β : Type} {value : Option α} {f : α → Option β} {b : Bool}
    (hf : ∀ a, (f a).isSome = b) : (value.bind f).isSome = (value.isSome && b) := by
  cases value <;> simp [hf]

theorem columns_isSome (d : InsertDict) : (columns d).isSome =
    ((integer d.robot_id).isSome && ((double d.battery).isSome && ((double d.temperature).isSome &&
      ((double d.speed).isSome && ((nullable (varchar 32) d.status).isSome &&
      ((nullable (varchar 64) d.mission_id).isSome && ((nullable (varchar 32) d.mission_type).isSome &&
      ((nullable double d.mission_progress).isSome && ((nullable double d.battery_health).isSome &&
      ((nullable double d.motor_health).isSome && ((nullable double d.sensor_health).isSome &&
      ((nullable double d.network_health).isSome && ((nullable double d.x).isSome &&
      ((nullable double d.y).isSome && true)))))))))))))) := by
  unfold columns
  refine isSome_bind_const fun _ => isSome_bind_const fun _ => isSome_bind_const fun _ =>
    isSome_bind_const fun _ => isSome_bind_const fun _ => isSome_bind_const fun _ =>
    isSome_bind_const fun _ => isSome_bind_const fun _ => isSome_bind_const fun _ =>
    isSome_bind_const fun _ => isSome_bind_const fun _ => isSome_bind_const fun _ =>
    isSome_bind_const fun _ => isSome_bind_const fun _ => rfl

-- The insertable readings are the storable ones.
theorem columns_read_isSome (serialize : Datetime → String) (data : TelemetryCreate)
    (timestamp : Utc) :
    (columns (InsertDict.read serialize data timestamp)).isSome = storable data := by
  rw [columns_isSome]
  simp only [InsertDict.read, integer_isSome, double_written_isSome, nullable_double_written,
    nullable_varchar_isSome, Bool.and_true, storable, Bool.and_assoc]

end StoredReadings

end FleetOps.Telemetry
