import FleetOps.Telemetry.Calls
import FleetOps.Telemetry.SameRow

namespace FleetOps.Telemetry

open Calendar

section Times

-- The time in UTC of the device is one that a datetime can name.
def Nameable (reported : Option Datetime) : Prop :=
  ∀ r ∈ reported, 0 ≤ r.instant ∧ r.instant < wallLimit

-- Device time, or server time when there is none or it is too far ahead.
def agreed_time (max_clock_skew_seconds : Int) (reported : Option Datetime) (received_at : Utc) :
    Instant :=
  match reported with
  | none => received_at.wall
  | some r =>
      if r.instant - received_at.wall ≤ max_clock_skew_seconds * 1000000 then r.instant
      else received_at.wall

-- The timestamp resolves to the agreed time, and the worker reads that time back.
def ResolvesWell (max_clock_skew_seconds : Int) (reported : Option Datetime) (received_at : Utc) :
    Prop :=
  ∃ t, resolve_timestamp max_clock_skew_seconds reported received_at = some t ∧
    (t.wall : Int) = agreed_time max_clock_skew_seconds reported received_at ∧
    ∃ text, to_iso t.datetime = some text ∧ parse_time_text text = some t.datetime ∧
      ∀ now p, p.lookup "timestamp" = some (.str text) →
        (payload_to_insert_dict now p).timestamp = t.datetime

end Times

section Resolution

variable {max_clock_skew_seconds : Int} {reported : Option Datetime} {received_at t : Utc}

theorem utc_ext {u : Utc} (h : (u.wall : Int) = t.wall) : u = t := by
  cases u
  cases t
  congr 1
  exact Int.ofNat.inj h

theorem astimezone_utc_eq_some {r : Datetime} : r.astimezone_utc = some t ↔ (t.wall : Int) = r.instant := by
  unfold Datetime.astimezone_utc
  have hwall := t.hwall
  constructor
  · intro h
    split at h
    · rename_i hrange
      cases h
      exact Int.toNat_of_nonneg hrange.1
    · cases h
  · intro h
    have hrange : 0 ≤ r.instant ∧ r.instant.toNat < wallLimit := by omega
    rw [dif_pos hrange]
    refine congrArg some (utc_ext ?_)
    rw [h]
    exact Int.toNat_of_nonneg hrange.1

-- The timestamp is converted to UTC before it is looked at.
theorem resolve_timestamp_eq_some :
    resolve_timestamp max_clock_skew_seconds reported received_at = some t ↔
      Nameable reported ∧ (t.wall : Int) = agreed_time max_clock_skew_seconds reported received_at := by
  cases reported with
  | none =>
      simp only [resolve_timestamp, Nameable, agreed_time, Option.some.injEq]
      exact ⟨fun h => ⟨by simp, by rw [h]⟩, fun h => utc_ext h.2.symm⟩
  | some r =>
      simp only [resolve_timestamp, Nameable, agreed_time, Option.map_eq_some_iff, Option.mem_def,
        Option.some.injEq, forall_eq']
      constructor
      · rintro ⟨u, hu, rfl⟩
        have hinstant := astimezone_utc_eq_some.mp hu
        have hwall := u.hwall
        refine ⟨by omega, ?_⟩
        rw [← hinstant]
        split <;> split <;> omega
      · rintro ⟨⟨hpos, hlimit⟩, hagreed⟩
        have hwall : r.instant.toNat < wallLimit := by omega
        have hinstant : (r.instant.toNat : Int) = r.instant := Int.toNat_of_nonneg hpos
        refine ⟨⟨r.instant.toNat, hwall⟩, astimezone_utc_eq_some.mpr hinstant, utc_ext ?_⟩
        rw [hagreed, hinstant]
        by_cases hskew : r.instant - received_at.wall ≤ max_clock_skew_seconds * 1000000
        · rw [if_pos hskew, if_neg (by omega)]
          exact hinstant
        · rw [if_neg hskew, if_pos (by omega)]

theorem resolves_well_iff :
    ResolvesWell max_clock_skew_seconds reported received_at ↔ Nameable reported := by
  constructor
  · rintro ⟨t, ht, -⟩
    exact (resolve_timestamp_eq_some.mp ht).1
  · intro hname
    have hsome : ∃ t, resolve_timestamp max_clock_skew_seconds reported received_at = some t := by
      cases reported with
      | none => exact ⟨received_at, rfl⟩
      | some r =>
          obtain ⟨hpos, hlimit⟩ := hname r rfl
          have hutc : r.astimezone_utc = some ⟨r.instant.toNat, by omega⟩ :=
            astimezone_utc_eq_some.mpr (Int.toNat_of_nonneg hpos)
          rw [resolve_timestamp, hutc]
          exact ⟨_, rfl⟩
    obtain ⟨t, ht⟩ := hsome
    obtain ⟨text, hiso, hne, hparse⟩ := parse_time_text_to_iso t
    refine ⟨t, ht, (resolve_timestamp_eq_some.mp ht).2, text, hiso, hparse, fun now p hp => ?_⟩
    simp [payload_to_insert_dict, get, hp, truthy, hne, hparse]

-- A batch resolves when every reading of it does.
theorem resolve_isSome_iff (settings : Settings) (id : TaskId) (data : List TelemetryCreate) :
    (resolve settings id received_at data).isSome = true ↔ ∀ d ∈ data, Nameable d.timestamp := by
  have hsome : ∀ d : TelemetryCreate, Nameable d.timestamp ↔
      (resolve_timestamp settings.max_clock_skew_seconds d.timestamp received_at).isSome = true := by
    intro d
    have hwell : ResolvesWell settings.max_clock_skew_seconds d.timestamp received_at ↔
        Nameable d.timestamp := resolves_well_iff
    rw [← hwell, Option.isSome_iff_exists]
    exact ⟨fun ⟨t, ht, _⟩ => ⟨t, ht⟩,
      fun ⟨t, ht⟩ => resolves_well_iff.mpr (resolve_timestamp_eq_some.mp ht).1⟩
  constructor
  · intro h d hd
    obtain ⟨rows, hrows⟩ := Option.isSome_iff_exists.mp h
    obtain ⟨i, hi, hget⟩ := List.getElem_of_mem hd
    have hmem : (d, i) ∈ data.zipIdx := by
      rw [List.mk_mem_zipIdx_iff_getElem?, List.getElem?_eq_getElem hi, hget]
    obtain ⟨row, -, hrow⟩ := mem_of_mapM hrows (d, i) hmem
    obtain ⟨t, ht, -⟩ := Option.map_eq_some_iff.mp hrow
    exact (hsome d).mpr (Option.isSome_iff_exists.mpr ⟨t, ht⟩)
  · intro h
    refine Option.isSome_iff_exists.mpr ?_
    have hall : ∀ p ∈ data.zipIdx,
        ((resolve_timestamp settings.max_clock_skew_seconds p.1.timestamp received_at).map
          fun timestamp => (⟨(id, p.2), p.1, timestamp⟩ : Measured)).isSome = true := by
      intro p hp
      rw [Option.isSome_map]
      exact (hsome p.1).mp (h p.1 (List.fst_mem_of_mem_zipIdx hp))
    obtain ⟨rows, hrows, -⟩ := mapM_eq_some_of_forall hall
    exact ⟨rows, hrows⟩

-- A timestamp resolves, to the agreed time and with a text that reads back, exactly when its time
-- in UTC is in the years a datetime can name, and one that does not fails the batch it is in.
theorem timestamps_resolve (settings : Settings) (received_at : Utc) :
    (∀ reported, ResolvesWell settings.max_clock_skew_seconds reported received_at ↔ Nameable reported) ∧
    ∀ id data, (resolve settings id received_at data).isSome = true ↔ ∀ d ∈ data, Nameable d.timestamp :=
  ⟨fun _ => resolves_well_iff, fun id data => resolve_isSome_iff settings id data⟩

-- 9999-12-31T23:59:00-01:00
def lastHour : Datetime where
  wall := wallLimit - 60000000
  utcoffset := some (-3600000000)
  hwall := by decide
  hoffset := by decide

-- 2026-01-01T00:00:00+00:00
def newYear : Utc where
  wall := 739616 * microsPerDay
  hwall := by decide

theorem last_hour_overflows : ¬ ∀ (max_clock_skew_seconds : Int) (reported : Option Datetime)
    (received_at : Utc), ResolvesWell max_clock_skew_seconds reported received_at := by
  intro h
  obtain ⟨t, ht, -⟩ := h 300 (some lastHour) newYear
  have hoverflow : resolve_timestamp 300 (some lastHour) newYear = none := by decide
  rw [hoverflow] at ht
  cases ht

end Resolution

end FleetOps.Telemetry
