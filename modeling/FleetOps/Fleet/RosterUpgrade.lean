import FleetOps.Fleet.LastSeen
import FleetOps.Library.Tables
import FleetOps.Telemetry.Retention

namespace FleetOps.Fleet.RosterUpgrade

open Calendar Dict Tables Telemetry

section Model

-- A row of the robots table before the upgrade, without its id.
structure PriorRow where
  name : Option String
  model : Option String
  firmware_version : Option String
  is_active : Bool
  registered_at : Option Instant
  decommissioned_at : Option Instant

-- `op.add_column`: a nullable column is NULL in the rows that are there.
def add_column (row : PriorRow) : RobotRow where
  name := row.name
  model := row.model
  firmware_version := row.firmware_version
  is_active := row.is_active
  registered_at := row.registered_at
  last_seen := none
  decommissioned_at := row.decommissioned_at

-- MAX(timestamp) and MIN(timestamp)
def max_ts (rows : List TelemetryRow) : Option Instant := (rows.map TelemetryRow.timestamp).max?

def min_ts (rows : List TelemetryRow) : Option Instant := (rows.map TelemetryRow.timestamp).min?

-- Backfill from existing telemetry.
def backfill (telemetry : List TelemetryRow) (robots : List (Integer × RobotRow)) :
    List (Integer × RobotRow) :=
  update_from Prod.fst (fun r ts => (r.1, { r.2 with last_seen := ts }))
    ((groupBy TelemetryRow.robot_id telemetry).map fun t => (t.1, max_ts t.2)) robots

-- The row that the upgrade gives a robot that has telemetry but no roster row.
def registered (rows : List TelemetryRow) : RobotRow where
  name := none
  model := none
  firmware_version := none
  is_active := true
  registered_at := min_ts rows
  last_seen := max_ts rows
  decommissioned_at := none

def unregistered (telemetry : List TelemetryRow) (robots : List (Integer × RobotRow)) :
    List (Integer × RobotRow) :=
  (groupBy TelemetryRow.robot_id (anti_join TelemetryRow.robot_id (robots.map Prod.fst) telemetry)).map
    fun t => (t.1, registered t.2)

-- `none` is a violation of the primary key. The index that is made constrains nothing.
def upgrade (robots : List (Integer × PriorRow)) (telemetry : List TelemetryRow) :
    Option (List (Integer × RobotRow) × List TelemetryRow) :=
  let robots := backfill telemetry (robots.map fun r => (r.1, add_column r.2))
  (insert_into Prod.fst robots (unregistered telemetry robots)).map fun robots => (robots, telemetry)

end Model

section Rows

variable {robots : List (Integer × PriorRow)} {telemetry : List TelemetryRow} {id : Integer} {row : RobotRow}

-- What a robot has reported.
def reported (telemetry : List TelemetryRow) (id : Integer) : List TelemetryRow :=
  telemetry.filter fun reading => reading.robot_id == id

-- The upgraded roster: the rows that were there, and those of the robots that only had reported.
def upgraded (robots : List (Integer × PriorRow)) (telemetry : List TelemetryRow) :
    List (Integer × RobotRow) :=
  let robots := backfill telemetry (robots.map fun r => (r.1, add_column r.2))
  robots ++ unregistered telemetry robots

theorem lookup_max_ts : (((groupBy TelemetryRow.robot_id telemetry).map fun t => (t.1, max_ts t.2)).lookup
    id).getD none = max_ts (reported telemetry id) := by
  rw [lookup_map_snd, lookup_groupBy]
  split
  · rename_i hnil
    rw [reported, hnil]
    rfl
  · rfl

-- Where nothing joins, the new column is NULL still, and so is the maximum of nothing.
theorem backfill_eq : backfill telemetry (robots.map fun r => (r.1, add_column r.2)) =
    robots.map fun r => (r.1, { add_column r.2 with last_seen := max_ts (reported telemetry r.1) }) := by
  rw [backfill, update_from, List.map_map]
  refine List.map_congr_left fun r _ => ?_
  have hset : ∀ joined : Option (Option Instant),
      ((joined.map fun ts => (r.1, { add_column r.2 with last_seen := ts })).getD (r.1, add_column r.2)) =
        (r.1, { add_column r.2 with last_seen := joined.getD none }) := by
    intro joined
    cases joined <;> rfl
  rw [← lookup_max_ts]
  exact hset (((groupBy TelemetryRow.robot_id telemetry).map fun t => (t.1, max_ts t.2)).lookup r.1)

theorem mem_unregistered {rs : List (Integer × RobotRow)} : (id, row) ∈ unregistered telemetry rs ↔
    id ∉ rs.map Prod.fst ∧ reported telemetry id ≠ [] ∧ row = registered (reported telemetry id) := by
  rw [unregistered, List.mem_map]
  constructor
  · rintro ⟨⟨k, group⟩, hmem, heq⟩
    obtain ⟨hk, hgroup, rfl⟩ := mem_groupBy_anti_join.mp hmem
    cases heq
    exact ⟨hk, hgroup, rfl⟩
  · rintro ⟨hid, hne, rfl⟩
    exact ⟨(id, reported telemetry id), mem_groupBy_anti_join.mpr ⟨hid, hne, rfl⟩, rfl⟩

theorem ids_backfill : (backfill telemetry (robots.map fun r => (r.1, add_column r.2))).map Prod.fst =
    robots.map Prod.fst := by
  rw [backfill_eq, List.map_map]
  rfl

theorem nodup_ids_upgraded (hids : (robots.map Prod.fst).Nodup) :
    ((upgraded robots telemetry).map Prod.fst).Nodup := by
  rw [upgraded, List.map_append, List.nodup_append]
  refine ⟨by rw [ids_backfill]; exact hids, ?_, fun id hid id' hid' => ?_⟩
  · rw [unregistered, List.map_map]
    exact nodup_keys_groupBy _ _
  · rintro rfl
    obtain ⟨⟨k, row⟩, hmem, rfl⟩ := List.mem_map.mp hid'
    exact (mem_unregistered.mp hmem).1 hid

-- No insert violates the primary key.
theorem upgrade_eq (hids : (robots.map Prod.fst).Nodup) (telemetry : List TelemetryRow) :
    upgrade robots telemetry = some (upgraded robots telemetry, telemetry) := by
  simp only [upgrade]
  rw [insert_into_of_nodup (nodup_ids_upgraded hids)]
  rfl

-- The rows of the upgraded roster, by where a robot was before.
theorem mem_upgraded : (id, row) ∈ upgraded robots telemetry ↔
    (∃ prior, (id, prior) ∈ robots ∧
      row = { add_column prior with last_seen := max_ts (reported telemetry id) }) ∨
    (id ∉ robots.map Prod.fst ∧ reported telemetry id ≠ [] ∧ row = registered (reported telemetry id)) := by
  simp only [upgraded, List.mem_append, mem_unregistered, ids_backfill]
  rw [backfill_eq, List.mem_map]
  refine or_congr_left ⟨?_, ?_⟩
  · rintro ⟨⟨k, prior⟩, hmem, heq⟩
    cases heq
    exact ⟨prior, hmem, rfl⟩
  · rintro ⟨prior, hmem, rfl⟩
    exact ⟨(id, prior), hmem, rfl⟩

end Rows

section Invariant

variable {robots : List (Integer × PriorRow)} {telemetry : List TelemetryRow} {id : Integer} {row : RobotRow}

-- The times of a robot's telemetry.
def timestamps (telemetry : List TelemetryRow) (id : Integer) : Set Instant :=
  { t | ∃ reading ∈ telemetry, reading.robot_id = id ∧ reading.timestamp = t }

theorem mem_timestamps {t : Instant} : t ∈ timestamps telemetry id ↔
    t ∈ (reported telemetry id).map TelemetryRow.timestamp := by
  simp only [timestamps, reported, Set.mem_ofPred_eq, List.mem_map, List.mem_filter, beq_iff_eq, and_assoc]

theorem max_ts_eq_some {t : Instant} : max_ts (reported telemetry id) = some t ↔
    IsGreatest (timestamps telemetry id) t := by
  rw [max_ts, List.max?_eq_some_iff, IsGreatest, mem_upperBounds, mem_timestamps]
  exact and_congr_right fun _ => forall_congr' fun s => by rw [mem_timestamps]

theorem min_ts_eq_some {t : Instant} : min_ts (reported telemetry id) = some t ↔
    IsLeast (timestamps telemetry id) t := by
  rw [min_ts, List.min?_eq_some_iff, IsLeast, mem_lowerBounds, mem_timestamps]
  exact and_congr_right fun _ => forall_congr' fun s => by rw [mem_timestamps]

theorem reported_eq_nil : reported telemetry id = [] ↔ ∀ reading ∈ telemetry, reading.robot_id ≠ id := by
  simp only [reported, List.filter_eq_nil_iff, beq_iff_eq]

theorem exists_max_ts (h : reported telemetry id ≠ []) : ∃ t, max_ts (reported telemetry id) = some t := by
  obtain ⟨reading, hreading⟩ := List.exists_mem_of_ne_nil _ h
  exact Option.isSome_iff_exists.mp (List.isSome_max?_of_mem (List.mem_map_of_mem hreading))

theorem exists_min_ts (h : reported telemetry id ≠ []) : ∃ t, min_ts (reported telemetry id) = some t := by
  obtain ⟨reading, hreading⟩ := List.exists_mem_of_ne_nil _ h
  exact Option.isSome_iff_exists.mp (List.isSome_min?_of_mem (List.mem_map_of_mem hreading))

-- The upgraded roster against the tables before.
structure Established (robots : List (Integer × PriorRow)) (telemetry : List TelemetryRow)
    (robots' : List (Integer × RobotRow)) : Prop where
  ids : (robots'.map Prod.fst).Nodup
  known : ∀ id row, (id, row) ∈ robots' → id ∈ robots.map Prod.fst ∨
    ∃ reading ∈ telemetry, reading.robot_id = id
  reporting : ∀ reading ∈ telemetry, ∃ row t, (reading.robot_id, row) ∈ robots' ∧ row.last_seen = some t ∧
    IsGreatest (timestamps telemetry reading.robot_id) t
  silent : ∀ id prior, (id, prior) ∈ robots → (∀ reading ∈ telemetry, reading.robot_id ≠ id) →
    (id, { add_column prior with last_seen := none }) ∈ robots'
  others : ∀ id prior row, (id, prior) ∈ robots → (id, row) ∈ robots' →
    row = { add_column prior with last_seen := row.last_seen }
  added : ∀ id row, (id, row) ∈ robots' → id ∉ robots.map Prod.fst → row.is_active = true ∧
    ∃ t, row.registered_at = some t ∧ IsLeast (timestamps telemetry id) t

theorem established_upgraded (hids : (robots.map Prod.fst).Nodup) :
    Established robots telemetry (upgraded robots telemetry) where
  ids := nodup_ids_upgraded hids
  known := by
    intro id row hrow
    rcases mem_upgraded.mp hrow with ⟨prior, hprior, -⟩ | ⟨-, hne, -⟩
    · exact .inl (List.mem_map_of_mem hprior)
    · refine .inr ?_
      by_contra hnone
      push Not at hnone
      exact hne (reported_eq_nil.mpr hnone)
  reporting := by
    intro reading hreading
    have hne : reported telemetry reading.robot_id ≠ [] := fun hnil =>
      reported_eq_nil.mp hnil reading hreading rfl
    obtain ⟨t, ht⟩ := exists_max_ts hne
    by_cases hid : reading.robot_id ∈ robots.map Prod.fst
    · obtain ⟨⟨id, prior⟩, hprior, heq⟩ := List.mem_map.mp hid
      exact ⟨_, t, mem_upgraded.mpr (.inl ⟨prior, heq ▸ hprior, rfl⟩), ht, max_ts_eq_some.mp ht⟩
    · exact ⟨_, t, mem_upgraded.mpr (.inr ⟨hid, hne, rfl⟩), ht, max_ts_eq_some.mp ht⟩
  silent := by
    intro id prior hprior hsilent
    refine mem_upgraded.mpr (.inl ⟨prior, hprior, ?_⟩)
    rw [reported_eq_nil.mpr hsilent]
    rfl
  others := by
    intro id prior row hprior hrow
    rcases mem_upgraded.mp hrow with ⟨prior', hprior', rfl⟩ | ⟨hid, -, -⟩
    · cases (List.inj_on_of_nodup_map hids hprior hprior' rfl)
      rfl
    · exact absurd (List.mem_map_of_mem hprior) hid
  added := by
    intro id row hrow hid
    rcases mem_upgraded.mp hrow with ⟨prior, hprior, -⟩ | ⟨-, hne, rfl⟩
    · exact absurd (List.mem_map_of_mem hprior) hid
    · obtain ⟨t, ht⟩ := exists_min_ts hne
      exact ⟨rfl, t, ht, min_ts_eq_some.mp ht⟩

-- The roster is as if all the telemetry had been registered when it came.
theorem marked_upgraded (hids : (robots.map Prod.fst).Nodup) (telemetry : List TelemetryRow) (id : Integer) :
    Marked (timestamps telemetry id) ((robots.lookup id).map add_column)
      ((upgraded robots telemetry).lookup id) := by
  have hnodup : ((upgraded robots telemetry).map Prod.fst).Nodup := nodup_ids_upgraded hids
  have hempty : reported telemetry id = [] → timestamps telemetry id = ∅ := by
    intro hnil
    rw [Set.eq_empty_iff_forall_notMem]
    intro t ht
    rw [mem_timestamps, hnil] at ht
    cases ht
  cases hprior : robots.lookup id with
  | some prior =>
      have hrow := (lookup_iff_mem hnodup).mpr (mem_upgraded.mpr (.inl ⟨prior, mem_of_lookup hprior, rfl⟩))
      rw [hrow]
      by_cases hnil : reported telemetry id = []
      · rw [hempty hnil, hnil]
        exact .unmentioned _ rfl
      · obtain ⟨t, ht⟩ := exists_max_ts hnil
        have hgreatest := max_ts_eq_some.mp ht
        rw [ht]
        refine .seen (add_column prior) t ⟨t, hgreatest.1⟩ ?_
        have hnone : { s | (add_column prior).last_seen = some s } = (∅ : Set Instant) :=
          Set.eq_empty_iff_forall_notMem.mpr fun _ hs => (nomatch hs)
        rw [hnone, Set.union_empty]
        exact hgreatest
  | none =>
      have hid : id ∉ robots.map Prod.fst := by
        rw [mem_keys_iff, hprior]
        exact Bool.false_ne_true
      by_cases hnil : reported telemetry id = []
      · have hrow : (upgraded robots telemetry).lookup id = none := by
          rw [← Option.not_isSome_iff_eq_none, ← mem_keys_iff]
          intro hmem
          obtain ⟨⟨k, row⟩, hrow, rfl⟩ := List.mem_map.mp hmem
          rcases mem_upgraded.mp hrow with ⟨prior, hmem, -⟩ | ⟨-, hne, -⟩
          · exact hid (List.mem_map_of_mem hmem)
          · exact hne hnil
        rw [hrow, hempty hnil]
        exact .unmentioned _ rfl
      · rw [(lookup_iff_mem hnodup).mpr (mem_upgraded.mpr (.inr ⟨hid, hnil, rfl⟩))]
        obtain ⟨t, ht⟩ := exists_max_ts hnil
        obtain ⟨t', ht'⟩ := exists_min_ts hnil
        rw [registered, ht, ht']
        exact .added t' t (max_ts_eq_some.mp ht)

-- The upgrade succeeds, leaves the telemetry alone, and every robot is known with its latest report.
theorem upgrade_establishes (hids : (robots.map Prod.fst).Nodup) (telemetry : List TelemetryRow) :
    ∃ robots', upgrade robots telemetry = some (robots', telemetry) ∧
      Established robots telemetry robots' :=
  ⟨_, upgrade_eq hids telemetry, established_upgraded hids⟩

-- A robot that reports, one that never did, and one that the roster does not have.
def roster : List (Integer × PriorRow) :=
  [((Retention.reading 0).robot_id, ⟨some "first", none, none, true, some 0, none⟩),
    (⟨2, by decide⟩, ⟨none, none, none, false, some 0, some 10⟩)]

def readings : List TelemetryRow :=
  [Retention.reading 900, Retention.reading 400, { Retention.reading 500 with robot_id := ⟨3, by decide⟩ }]

theorem roster_upgrade_establishes : ∃ robots', upgrade roster readings = some (robots', readings) ∧
    Established roster readings robots' :=
  upgrade_establishes (by decide) readings

example : (upgraded roster readings).map (fun r => (r.1.val, r.2.registered_at, r.2.last_seen)) =
    [(1, some 0, some 900), (2, some 0, none), (3, some 500, some 500)] := by
  decide +kernel

end Invariant

end FleetOps.Fleet.RosterUpgrade
