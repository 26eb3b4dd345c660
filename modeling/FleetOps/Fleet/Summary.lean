import FleetOps.Telemetry.Database

namespace FleetOps

section Floats

namespace PyFloat

-- Arithmetic on doubles without their rounding: results are exact. Where it matters that a result
-- is too small for a double, `underflow` says so.
def sign : PyFloat → Int
  | .finite q => if 0 < q then 1 else if q < 0 then -1 else 0
  | .nan => 0
  | .inf => 1
  | .neg_inf => -1

def infinite (sign : Int) : PyFloat := if 0 < sign then .inf else if sign < 0 then .neg_inf else .nan

def sub : PyFloat → PyFloat → PyFloat
  | .finite a, .finite b => .finite (a - b)
  | .nan, _ | _, .nan | .inf, .inf | .neg_inf, .neg_inf => .nan
  | .inf, _ | _, .neg_inf => .inf
  | .neg_inf, _ | _, .inf => .neg_inf

def mul : PyFloat → PyFloat → PyFloat
  | .finite a, .finite b => .finite (a * b)
  | .nan, _ | _, .nan => .nan
  | a, b => infinite (a.sign * b.sign)

-- `none` is the ZeroDivisionError.
def div : PyFloat → PyFloat → Option PyFloat
  | a, .finite b => if b = 0 then none else match a with
      | .finite a => some (.finite (a / b))
      | a => some (infinite (a.sign * (PyFloat.finite b).sign))
  | .finite _, .inf | .finite _, .neg_inf => some (.finite 0)
  | _, _ => some .nan

-- Half of the least double above zero. What is not above it is rounded to zero.
def tiny : Rat := 1 / 2 ^ 1075

def underflow : PyFloat → PyFloat
  | .finite q => if |q| ≤ tiny then .finite 0 else .finite q
  | value => value

-- `a <= 0`
def le_zero : PyFloat → Bool
  | .finite q => decide (q ≤ 0)
  | .neg_inf => true
  | _ => false

def roundHalfEven (q : Rat) : Int :=
  let rest := q - q.floor
  if rest < 1 / 2 then q.floor
  else if 1 / 2 < rest then q.floor + 1
  else if q.floor % 2 = 0 then q.floor else q.floor + 1

theorem div_isSome {a b : PyFloat} (hb : b ≠ .finite 0) : (a.div b).isSome = true := by
  cases b with
  | finite q =>
      have hq : q ≠ 0 := fun h => hb (by rw [h])
      cases a <;> simp [div, hq]
  | nan | inf | neg_inf => cases a <;> rfl

theorem tiny_pos : 0 < tiny := by
  decide +kernel

theorem underflow_eq_zero_iff {a : PyFloat} :
    a.underflow = .finite 0 ↔ ∃ q, a = .finite q ∧ |q| ≤ tiny := by
  cases a with
  | finite q =>
      simp only [underflow, finite.injEq, exists_eq_left']
      split
      · rename_i hsmall
        simp [hsmall]
      · rename_i hlarge
        have hq : q ≠ 0 := fun h => hlarge (by rw [h, abs_zero]; exact tiny_pos.le)
        simp [hq, hlarge]
  | nan | inf | neg_inf => simp [underflow]

theorem underflow_of_ne_zero {a : PyFloat} (h : a.underflow ≠ .finite 0) : a.underflow = a := by
  cases a with
  | finite q =>
      simp only [underflow] at h ⊢
      split at h
      · exact absurd rfl h
      · rename_i hlarge
        rw [if_neg hlarge]
  | nan | inf | neg_inf => rfl

theorem div_eq_none_iff {a b : PyFloat} : a.div b = none ↔ b = .finite 0 := by
  cases b with
  | finite q =>
      by_cases hq : q = 0
      · simp [div, hq]
      · cases a <;> simp [div, hq]
  | nan | inf | neg_inf => cases a <;> simp [div]

-- A rate above zero is rounded to zero.
theorem rate_eq_zero_iff {a : PyFloat} {span : Rat} (ha : a.le_zero = false) (hspan : 0 < span) :
    (a.div (.finite span)).map underflow = some (.finite 0) ↔
      ∃ q, a = .finite q ∧ 0 < q ∧ q / span ≤ tiny := by
  have hne : span ≠ 0 := hspan.ne'
  cases a with
  | finite q =>
      have hq : 0 < q := by simpa [le_zero] using ha
      have habs : |q / span| = q / span := abs_of_pos (div_pos hq hspan)
      simp [div, hne, underflow_eq_zero_iff, habs, hq]
  | nan | inf => simp [div, hne, infinite, sign, hspan, underflow]
  | neg_inf => cases ha

-- `round(value, ndigits)`
def round (ndigits : Nat) : PyFloat → PyFloat
  | .finite q => .finite (roundHalfEven (q * 10 ^ ndigits) / 10 ^ ndigits)
  | value => value

end PyFloat

end Floats

namespace Fleet

open Calendar Telemetry

structure FleetSettings where
  offline_after_seconds : Int
  fleet_window_minutes : Int
  fleet_history_per_robot : Int
  opt_read_cache : Bool

def OFFLINE : String := "OFFLINE"

-- What is reported of one robot.
structure Summary where
  robot_id : Int
  battery : PyFloat
  temperature : PyFloat
  speed : PyFloat
  status : String
  mission_id : Option String
  mission_type : Option String
  mission_progress : Option PyFloat
  mission_start_time : Option String
  last_seen : Option String
  runtime_remaining_minutes : Option PyFloat
  x : PyFloat
  y : PyFloat
  battery_health : PyFloat
  motor_health : PyFloat
  sensor_health : PyFloat
  network_health : PyFloat

section Robots

-- `_iso(_as_utc(value))` of a stored time, which is one that a datetime can name.
def iso (value : Option Instant) : Option String :=
  value.bind fun t =>
    if h : 0 ≤ t ∧ t.toNat < wallLimit then to_iso (Utc.datetime ⟨t.toNat, lt_wallLimit h⟩) else none

-- `upper` is `str.upper`.
variable (settings : FleetSettings) (upper : String → String)

-- Ages are in microseconds.
def derive_status (latest : TelemetryRow) (age : Int) : String :=
  if settings.offline_after_seconds * 1000000 < age then OFFLINE
  else match latest.status with
    | some status => if status.val = "" then "ACTIVE" else upper status.val
    | none => "ACTIVE"

def health (value : Option PyFloat) : PyFloat := (value.map (PyFloat.round 2)).getD (.finite 100)

-- `latest.battery_health or 100.0`
def health_or_full : Option PyFloat → PyFloat
  | some (.finite q) => if q = 0 then .finite 100 else .finite q
  | some value => value
  | none => .finite 100

-- The outer option is a ZeroDivisionError.
def estimate_runtime_minutes (rows : List TelemetryRow) : Option (Option PyFloat) :=
  match rows.head?, rows.getLast? with
  | some oldest, some latest =>
      if rows.length < 2 then some none
      else
        let span_minutes : Rat := ((latest.timestamp - oldest.timestamp : Int) : Rat) / 60000000
        let drained := oldest.battery.sub latest.battery
        if span_minutes ≤ 0 ∨ drained.le_zero then some none
        else do
          let drain_per_minute ← (drained.div (.finite span_minutes)).map PyFloat.underflow
          let share ← (health_or_full latest.battery_health).div (.finite 100)
          let effective_battery := latest.battery.mul share
          let runtime ← effective_battery.div drain_per_minute
          some (some (runtime.round 1))
  | _, _ => some none

-- The battery has drained, but by so little over the time that the rate is rounded to zero. The
-- time is taken exactly; as a double of minutes it is that up to some centuries.
def Underflows (rows : List TelemetryRow) : Prop :=
  ∃ oldest latest drained, rows.head? = some oldest ∧ rows.getLast? = some latest ∧ 2 ≤ rows.length ∧
    oldest.timestamp < latest.timestamp ∧ oldest.battery.sub latest.battery = .finite drained ∧
    0 < drained ∧
    drained / (((latest.timestamp - oldest.timestamp : Int) : Rat) / 60000000) ≤ PyFloat.tiny

-- Nothing else is divided by that can be zero.
theorem estimate_eq_none_iff (rows : List TelemetryRow) :
    estimate_runtime_minutes rows = none ↔ Underflows rows := by
  unfold estimate_runtime_minutes Underflows
  cases hfirst : rows.head? with
  | none => simp
  | some oldest =>
      cases hlast : rows.getLast? with
      | none => simp
      | some latest =>
          simp only [Option.some.injEq, exists_and_left, exists_eq_left']
          split
          · rename_i hshort
            simp [not_le.mpr hshort]
          · rename_i hlong
            have hspan : 0 < ((latest.timestamp - oldest.timestamp : Int) : Rat) / 60000000 ↔
                oldest.timestamp < latest.timestamp := by
              rw [lt_div_iff₀ (by norm_num), zero_mul]
              exact_mod_cast sub_pos
            split
            · rename_i hguard
              refine iff_of_false (by simp) ?_
              rintro ⟨-, hpositive, drained, hdrained, hpos, -⟩
              rcases hguard with hguard | hguard
              · exact absurd (hspan.mpr hpositive) (not_lt.mpr hguard)
              · rw [hdrained] at hguard
                exact absurd (of_decide_eq_true hguard) (not_le.mpr hpos)
            · rename_i hguard
              simp only [not_or, not_le, Bool.not_eq_true] at hguard
              obtain ⟨hpositive, hdrained⟩ := hguard
              obtain ⟨rate, hrate⟩ := Option.isSome_iff_exists.mp (PyFloat.div_isSome
                (a := oldest.battery.sub latest.battery) fun h => hpositive.ne' (PyFloat.finite.inj h))
              obtain ⟨share, hshare⟩ := Option.isSome_iff_exists.mp (PyFloat.div_isSome
                (a := health_or_full latest.battery_health) (b := .finite 100) (by decide))
              have hzero := PyFloat.rate_eq_zero_iff hdrained hpositive
              rw [hrate, Option.map_some, Option.some.injEq] at hzero
              rw [hrate, hshare]
              simp only [Option.map_some, Option.bind_eq_bind, Option.bind_some]
              rw [← hzero, ← PyFloat.div_eq_none_iff (a := latest.battery.mul share)]
              cases (latest.battery.mul share).div rate.underflow <;>
                simp [not_lt.mp hlong, hspan.mp hpositive]

-- The outer option is that error again.
def summarize_robot_history (now : Instant) (rows : List TelemetryRow) : Option (Option Summary) :=
  match rows.getLast? with
  | none => some none
  | some latest => (estimate_runtime_minutes rows).map fun runtime_remaining_minutes => some
    { robot_id := latest.robot_id.val
      battery := latest.battery.round 2
      temperature := latest.temperature.round 2
      speed := latest.speed.round 2
      status := derive_status settings upper latest (now - latest.timestamp)
      mission_id := latest.mission_id.map Subtype.val
      mission_type := latest.mission_type.map Subtype.val
      mission_progress := latest.mission_progress.map (PyFloat.round 1)
      mission_start_time := iso latest.mission_start_time
      last_seen := iso (some latest.timestamp)
      runtime_remaining_minutes
      x := (latest.x.map (PyFloat.round 2)).getD (.finite 0)
      y := (latest.y.map (PyFloat.round 2)).getD (.finite 0)
      battery_health := health latest.battery_health
      motor_health := health latest.motor_health
      sensor_health := health latest.sensor_health
      network_health := health latest.network_health }

def summarize_silent_robot (robot_id : Int) (robot : Robot) : Summary where
  robot_id := robot_id
  battery := .finite 0
  temperature := .finite 0
  speed := .finite 0
  status := OFFLINE
  mission_id := none
  mission_type := none
  mission_progress := none
  mission_start_time := none
  last_seen := iso robot.last_seen
  runtime_remaining_minutes := none
  x := .finite 0
  y := .finite 0
  battery_health := .finite 0
  motor_health := .finite 0
  sensor_health := .finite 0
  network_health := .finite 0

end Robots

end Fleet

end FleetOps
