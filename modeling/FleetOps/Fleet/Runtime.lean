import FleetOps.Fleet.Listing

namespace FleetOps.Fleet

open Telemetry

section Model

-- The estimate as it is before it is rounded, and without an underflow.
def exact_runtime_minutes (rows : List TelemetryRow) : Option (Option PyFloat) :=
  match rows.head?, rows.getLast? with
  | some oldest, some latest =>
      if rows.length < 2 then some none
      else
        let span_minutes : Rat := ((latest.timestamp - oldest.timestamp : Int) : Rat) / 60000000
        let drained := oldest.battery.sub latest.battery
        if span_minutes ≤ 0 ∨ drained.le_zero then some none
        else do
          let drain_per_minute ← drained.div (.finite span_minutes)
          let share ← (health_or_full latest.battery_health).div (.finite 100)
          let effective_battery := latest.battery.mul share
          let runtime ← effective_battery.div drain_per_minute
          some (some runtime)
  | _, _ => some none

theorem estimate_eq_rounded {rows : List TelemetryRow} (hrate : ¬ Underflows rows) :
    estimate_runtime_minutes rows =
      (exact_runtime_minutes rows).map (Option.map (PyFloat.round 1)) := by
  rw [← estimate_eq_none_iff] at hrate
  revert hrate
  cases hfirst : rows.head? with
  | none =>
      simp [estimate_runtime_minutes, exact_runtime_minutes, hfirst]
  | some oldest =>
      cases hlast : rows.getLast? with
      | none =>
          simp [estimate_runtime_minutes, exact_runtime_minutes, hfirst, hlast]
      | some latest =>
          simp only [estimate_runtime_minutes, exact_runtime_minutes, hfirst, hlast]
          split
          · exact fun _ => rfl
          · split
            · exact fun _ => rfl
            · intro hrate
              cases hdrain : (oldest.battery.sub latest.battery).div
                  (.finite (((latest.timestamp - oldest.timestamp : Int) : Rat) / 60000000)) with
              | none => rfl
              | some rate =>
                  have hrate' : rate.underflow = rate := by
                    refine PyFloat.underflow_of_ne_zero fun hzero => hrate ?_
                    rw [hdrain, Option.map_some, hzero]
                    simp [PyFloat.div]
                  simp only [Option.map_some, hrate', Option.bind_eq_bind, Option.map_bind,
                    Function.comp_def, Option.bind_some]

-- The history whose last reading reports this battery health.
def withHealth (older : List TelemetryRow) (latest : TelemetryRow) (health : Option PyFloat) :
    List TelemetryRow :=
  older ++ [{ latest with battery_health := health }]

-- Of two healths the lower has no longer estimate, none is negative, a health of zero leaves
-- nothing and a missing one counts as full. That the estimates are there says that no division
-- raises.
def RespectsHealth (older : List TelemetryRow) (latest : TelemetryRow) (h₁ h₂ : Rat) : Prop :=
  ∃ e₁ e₂,
    exact_runtime_minutes (withHealth older latest (some (.finite h₁))) = some (some (.finite e₁)) ∧
    exact_runtime_minutes (withHealth older latest (some (.finite h₂))) = some (some (.finite e₂)) ∧
    e₁ ≤ e₂ ∧ (0 ≤ e₁ ∧ 0 ≤ e₂) ∧ (h₁ = 0 → e₁ = 0) ∧ (h₂ = 0 → e₂ = 0) ∧
    exact_runtime_minutes (withHealth older latest none) =
      exact_runtime_minutes (withHealth older latest (some (.finite 100)))

end Model

section Estimates

variable {older : List TelemetryRow} {oldest latest : TelemetryRow} {b₀ b₁ h₁ h₂ : Rat}

def spanMinutes (oldest latest : TelemetryRow) : Rat :=
  ((latest.timestamp - oldest.timestamp : Int) : Rat) / 60000000

-- What the code makes of a health.
def countedHealth (health : Rat) : Rat := if health = 0 then 100 else health

theorem span_pos (hspan : oldest.timestamp < latest.timestamp) : 0 < spanMinutes oldest latest := by
  have hpos : (0 : Rat) < ((latest.timestamp - oldest.timestamp : Int) : Rat) := by
    exact_mod_cast sub_pos.mpr hspan
  exact div_pos hpos (by norm_num)

-- The estimate of a draining battery, its health taken as the code takes it.
theorem exact_runtime (hfirst : older.head? = some oldest) (hspan : oldest.timestamp < latest.timestamp)
    (h₀ : oldest.battery = .finite b₀) (h₁ : latest.battery = .finite b₁) (hdrain : b₁ < b₀)
    {health : Option PyFloat} {q : Rat} (hhealth : health_or_full health = .finite q) :
    exact_runtime_minutes (withHealth older latest health) =
      some (some (.finite (b₁ * (q / 100) / ((b₀ - b₁) / spanMinutes oldest latest)))) := by
  have hspan' := span_pos hspan
  have hrate : (b₀ - b₁) / spanMinutes oldest latest ≠ 0 := (div_pos (sub_pos.mpr hdrain) hspan').ne'
  have hhead : (withHealth older latest health).head? = some oldest := by
    rw [withHealth, List.head?_append, hfirst]
    rfl
  have hlast : (withHealth older latest health).getLast? = some { latest with battery_health := health } :=
    List.getLast?_concat
  have hlength : ¬ (withHealth older latest health).length < 2 := by
    obtain ⟨rest, rfl⟩ := List.head?_eq_some_iff.mp hfirst
    simp [withHealth]
  have hguard : ¬ (spanMinutes oldest latest ≤ 0 ∨ (PyFloat.finite (b₀ - b₁)).le_zero = true) := by
    rintro (hle | hle)
    · exact absurd hle (not_le.mpr hspan')
    · exact absurd (of_decide_eq_true hle) (not_le.mpr (sub_pos.mpr hdrain))
  simp only [exact_runtime_minutes, hhead, hlast, hlength, if_false, h₀, h₁, PyFloat.sub]
  rw [← spanMinutes, if_neg hguard]
  simp only [PyFloat.div, hspan'.ne', if_false, hhealth, PyFloat.mul, hrate, Option.bind_eq_bind,
    Option.bind_some]
  norm_num [PyFloat.div, PyFloat.mul, hrate]

theorem health_counted (q : Rat) :
    health_or_full (some (.finite q)) = .finite (countedHealth q) := by
  rw [health_or_full, countedHealth]
  split <;> rfl

theorem countedHealth_pos {health : Rat} (h : 0 ≤ health) : 0 < countedHealth health := by
  rw [countedHealth]
  split
  · norm_num
  · rename_i hne
    exact lt_of_le_of_ne h (Ne.symm hne)

theorem runtime_nonneg_iff {rate counted : Rat} (hrate : 0 < rate) (hcounted : 0 < counted) :
    0 ≤ b₁ * (counted / 100) / rate ↔ 0 ≤ b₁ := by
  rw [le_div_iff₀ hrate, zero_mul,
    mul_nonneg_iff_of_pos_right (div_pos hcounted (by norm_num : (0 : Rat) < 100))]

theorem runtime_eq_zero_iff {rate counted : Rat} (hrate : 0 < rate) (hcounted : 0 < counted) :
    b₁ * (counted / 100) / rate = 0 ↔ b₁ = 0 := by
  have hshare : counted / 100 ≠ 0 := (div_pos hcounted (by norm_num : (0 : Rat) < 100)).ne'
  rw [div_eq_zero_iff, or_iff_left hrate.ne', mul_eq_zero, or_iff_left hshare]

-- The estimate respects the battery health exactly when the battery is not below zero, nor above
-- it with a health of zero reported, which the code takes for a missing one.
theorem runtime_respects_health_iff (hfirst : older.head? = some oldest)
    (hspan : oldest.timestamp < latest.timestamp) (h₀ : oldest.battery = .finite b₀)
    (h₁' : latest.battery = .finite b₁) (hdrain : b₁ < b₀) (hpos : 0 ≤ h₁) (hle : h₁ ≤ h₂) :
    RespectsHealth older latest h₁ h₂ ↔ 0 ≤ b₁ ∧ (h₁ = 0 → b₁ = 0) := by
  have hrate : 0 < (b₀ - b₁) / spanMinutes oldest latest :=
    div_pos (sub_pos.mpr hdrain) (span_pos hspan)
  have hfirst' := exact_runtime hfirst hspan h₀ h₁' hdrain (health_counted h₁)
  have hsecond := exact_runtime hfirst hspan h₀ h₁' hdrain (health_counted h₂)
  have hcounted := countedHealth_pos hpos
  have hcounted' := countedHealth_pos (hpos.trans hle)
  constructor
  · rintro ⟨e₁, e₂, he₁, -, -, ⟨hnonneg, -⟩, hzero, -⟩
    rw [hfirst', Option.some.injEq, Option.some.injEq, PyFloat.finite.injEq] at he₁
    subst he₁
    exact ⟨(runtime_nonneg_iff hrate hcounted).mp hnonneg,
      fun h => (runtime_eq_zero_iff hrate hcounted).mp (hzero h)⟩
  · rintro ⟨hnonneg, hzero⟩
    refine ⟨_, _, hfirst', hsecond, ?_, ⟨(runtime_nonneg_iff hrate hcounted).mpr hnonneg,
      (runtime_nonneg_iff hrate hcounted').mpr hnonneg⟩,
      fun h => (runtime_eq_zero_iff hrate hcounted).mpr (hzero h),
      fun h => (runtime_eq_zero_iff hrate hcounted').mpr (hzero (le_antisymm (h ▸ hle) hpos)), ?_⟩
    · by_cases h : h₁ = 0
      · rw [hzero h]
        simp
      · have h' : h₂ ≠ 0 := fun hnone => h (le_antisymm (hnone ▸ hle) hpos)
        rw [countedHealth, countedHealth, if_neg h, if_neg h']
        gcongr
    · have hfull : health_or_full (some (.finite 100)) = .finite 100 := by decide
      rw [exact_runtime hfirst hspan h₀ h₁' hdrain hfull]
      exact exact_runtime hfirst hspan h₀ h₁' hdrain rfl

-- Ten points drained in ten minutes.
def charged (battery : Rat) (timestamp : Instant) : TelemetryRow :=
  { plainRow ⟨7, by decide⟩ timestamp with battery := .finite battery }

theorem failed_battery_runs_on : ¬ ∀ (older : List TelemetryRow) (oldest latest : TelemetryRow)
    (b₀ b₁ h₁ h₂ : Rat), older.head? = some oldest → oldest.timestamp < latest.timestamp →
    oldest.battery = .finite b₀ → latest.battery = .finite b₁ → b₁ < b₀ → 0 ≤ h₁ → h₁ ≤ h₂ →
    h₂ ≤ 100 → RespectsHealth older latest h₁ h₂ := by
  intro hrespects
  obtain ⟨e₁, -, he₁, -, -, -, hzero, -⟩ := hrespects [charged 100 0] (charged 100 0)
    (charged 90 600000000) 100 90 0 50 rfl (by decide) rfl rfl (by norm_num) (by norm_num)
    (by norm_num) (by norm_num)
  rw [exact_runtime rfl (by decide) rfl rfl (by norm_num) (health_counted 0)] at he₁
  rw [Option.some.injEq, Option.some.injEq, PyFloat.finite.injEq, hzero rfl] at he₁
  have hrate : (0 : Rat) < (100 - 90) / spanMinutes (charged 100 0) (charged 90 600000000) :=
    div_pos (by norm_num) (span_pos (by decide))
  rw [runtime_eq_zero_iff hrate (countedHealth_pos le_rfl)] at he₁
  norm_num at he₁

theorem runtime_respects_health_worn : RespectsHealth [charged 100 0] (charged 90 600000000) 50 80 :=
  (runtime_respects_health_iff rfl (by decide) rfl rfl (by norm_num) (by norm_num) (by norm_num)).mpr
    ⟨by norm_num, by norm_num⟩

end Estimates

end FleetOps.Fleet
