import Mathlib.Data.List.Sort
import FleetOps.Fleet.Summary

namespace FleetOps.Fleet

open Calendar Dict Telemetry

-- The robots table.
structure Roster where
  rows : List (Int × Robot)
  primary_key : (rows.map Prod.fst).Nodup

section Model

variable (settings : FleetSettings) (upper : String → String)

def list_active (roster : Roster) : List (Int × Robot) :=
  (roster.rows.filter fun p => p.2.is_active).insertionSort fun p q => p.1 ≤ q.1

-- Later than now() less the window.
def in_window (db_now : Instant) (row : TelemetryRow) : Bool :=
  decide (db_now - settings.fleet_window_minutes * 60000000 < row.timestamp)

-- One robot's rows in the window, newest first. Of rows at one instant the table's
-- order decides, which can be any.
def partition (db_now : Instant) (telemetry : List TelemetryRow) (robot_id : Int) :
    List TelemetryRow :=
  (telemetry.filter fun row => in_window settings db_now row && row.robot_id.val == robot_id)
    |>.insertionSort fun a b => b.timestamp ≤ a.timestamp

-- The rows ranked within the limit, by robot and newest first.
def recent_rows (db_now : Instant) (telemetry : List TelemetryRow) : List TelemetryRow :=
  let robots := ((telemetry.filter (in_window settings db_now)).map fun row => row.robot_id.val).dedup
  (robots.insertionSort (· ≤ ·)).flatMap fun robot_id =>
    (partition settings db_now telemetry robot_id).take settings.fleet_history_per_robot.toNat

def get_recent_per_robot (db_now : Instant) (telemetry : List TelemetryRow) :
    List (Int × List TelemetryRow) :=
  (groupBy (fun row : TelemetryRow => row.robot_id.val) (recent_rows settings db_now telemetry)).map
    fun (robot_id, rows) => (robot_id, rows.reverse)

-- `summarize_robot_history(rows) if rows else None`, or the silent summary.
def registered_summary (now : Instant) (grouped : List (Int × List TelemetryRow))
    (p : Int × Robot) : Option Summary :=
  match grouped.lookup p.1 with
  | some rows => (summarize_robot_history settings upper now rows).map fun summary =>
      summary.getD (summarize_silent_robot p.1 p.2)
  | none => some (summarize_silent_robot p.1 p.2)

def add_unregistered (now : Instant) (summaries : List (Int × Summary))
    (p : Int × List TelemetryRow) : Option (List (Int × Summary)) :=
  if (summaries.lookup p.1).isSome then some summaries
  else (summarize_robot_history settings upper now p.2).map fun summary =>
    match summary with
    | some summary => setItem summaries p.1 summary
    | none => summaries

-- `none` is the ZeroDivisionError of an estimate.
def summaries (roster : Roster) (telemetry : List TelemetryRow) (db_now now : Instant) :
    Option (List (Int × Summary)) := do
  let grouped := get_recent_per_robot settings db_now telemetry
  let registered ← (list_active roster).foldlM
    (fun d p => (registered_summary settings upper now grouped p).map (setItem d p.1)) []
  grouped.foldlM (add_unregistered settings upper now) registered

-- `[summaries[robot_id] for robot_id in sorted(summaries)]`
def robots (roster : Roster) (telemetry : List TelemetryRow) (db_now now : Instant) :
    Option (List Summary) :=
  (summaries settings upper roster telemetry db_now now).map fun d =>
    ((d.map Prod.fst).insertionSort (· ≤ ·)).filterMap fun robot_id => d.lookup robot_id

-- `cached` is what the cache holds for the page.
def get_fleet_status (cached : Option (List Summary)) (roster : Roster)
    (telemetry : List TelemetryRow) (db_now now : Instant) (limit skip : Nat) : Option (List Summary) :=
  match if settings.opt_read_cache then cached else none with
  | some page => some page
  | none => (robots settings upper roster telemetry db_now now).map fun robots =>
      (robots.drop skip).take limit

end Model

section Query

variable {settings : FleetSettings} {db_now : Instant} {telemetry : List TelemetryRow}

-- The robot has telemetry inside the window.
def Reports (settings : FleetSettings) (db_now : Instant) (telemetry : List TelemetryRow)
    (robot_id : Int) : Prop :=
  ∃ row ∈ telemetry, in_window settings db_now row = true ∧ row.robot_id.val = robot_id

theorem mem_partition {robot_id : Int} {row : TelemetryRow} :
    row ∈ partition settings db_now telemetry robot_id ↔
      row ∈ telemetry ∧ in_window settings db_now row = true ∧ row.robot_id.val = robot_id := by
  simp [partition, List.mem_insertionSort]

theorem partition_ne_nil_iff {robot_id : Int} :
    partition settings db_now telemetry robot_id ≠ [] ↔ Reports settings db_now telemetry robot_id := by
  simp only [Reports, ← mem_partition]
  exact ⟨List.exists_mem_of_ne_nil _, fun ⟨_, hrow⟩ => List.ne_nil_of_mem hrow⟩

-- A loop over distinct keys of which one yields anything.
theorem flatMap_single {α β : Type} [DecidableEq α] (key : α) {keys : List α} (hkeys : keys.Nodup)
    {f : α → List β} (hf : ∀ k, k ≠ key → f k = []) :
    keys.flatMap f = if key ∈ keys then f key else [] := by
  induction keys with
  | nil => rfl
  | cons k keys ih =>
      obtain ⟨hnot, hrest⟩ := List.nodup_cons.mp hkeys
      rw [List.flatMap_cons, ih hrest]
      by_cases hk : k = key
      · subst hk
        simp [hnot]
      · simp [hf k hk, Ne.symm hk]

-- A robot's group is its ranked rows.
theorem filter_recent_rows (robot_id : Int) :
    (recent_rows settings db_now telemetry).filter (fun row => row.robot_id.val == robot_id) =
      (partition settings db_now telemetry robot_id).take
        settings.fleet_history_per_robot.toNat := by
  have hrobot : ∀ k, ∀ row ∈ (partition settings db_now telemetry k).take
      settings.fleet_history_per_robot.toNat, row.robot_id.val = k :=
    fun k row hrow => (mem_partition.mp (List.mem_of_mem_take hrow)).2.2
  rw [recent_rows, List.filter_flatMap, flatMap_single robot_id]
  · split
    · rw [List.filter_eq_self]
      intro row hrow
      simpa using hrobot robot_id row hrow
    · rename_i hnot
      have hnil : partition settings db_now telemetry robot_id = [] := by
        by_contra hne
        obtain ⟨row, hrow, hwindow, hid⟩ := partition_ne_nil_iff.mp hne
        refine hnot ((List.mem_insertionSort _).mpr (List.mem_dedup.mpr ?_))
        exact List.mem_map.mpr ⟨row, List.mem_filter.mpr ⟨hrow, hwindow⟩, hid⟩
      rw [hnil, List.take_nil]
  · exact (List.perm_insertionSort _ _).nodup_iff.mpr (List.nodup_dedup _)
  · intro k hk
    rw [List.filter_eq_nil_iff]
    intro row hrow
    simpa [hrobot k row hrow] using hk

theorem lookup_recent (settings : FleetSettings) (db_now : Instant) (telemetry : List TelemetryRow)
    (robot_id : Int) :
    (get_recent_per_robot settings db_now telemetry).lookup robot_id =
      if (partition settings db_now telemetry robot_id).take settings.fleet_history_per_robot.toNat = []
      then none
      else some ((partition settings db_now telemetry robot_id).take
        settings.fleet_history_per_robot.toNat).reverse := by
  have hmap := lookup_map_snd
    (groupBy (fun row : TelemetryRow => row.robot_id.val) (recent_rows settings db_now telemetry))
    List.reverse robot_id
  rw [lookup_groupBy, filter_recent_rows] at hmap
  rw [get_recent_per_robot, hmap]
  split <;> rfl

-- The newest of a robot's ranked rows, `rows[-1]` of its group.
def latest (settings : FleetSettings) (db_now : Instant) (telemetry : List TelemetryRow)
    (robot_id : Int) : Option TelemetryRow :=
  ((get_recent_per_robot settings db_now telemetry).lookup robot_id).bind List.getLast?

theorem latest_eq_head (hhistory : 0 < settings.fleet_history_per_robot) (robot_id : Int) :
    latest settings db_now telemetry robot_id =
      (partition settings db_now telemetry robot_id).head? := by
  rw [latest, lookup_recent]
  have hpos : 0 < settings.fleet_history_per_robot.toNat := by omega
  cases hrows : partition settings db_now telemetry robot_id with
  | nil => simp
  | cons row rows =>
      obtain ⟨n, hn⟩ := Nat.exists_eq_succ_of_ne_zero hpos.ne'
      simp [hn]

theorem latest_eq_none_iff (hhistory : 0 < settings.fleet_history_per_robot) {robot_id : Int} :
    latest settings db_now telemetry robot_id = none ↔ ¬ Reports settings db_now telemetry robot_id := by
  rw [latest_eq_head hhistory, List.head?_eq_none_iff, ← partition_ne_nil_iff, not_not]

-- It is one of the robot's rows in the window, and none of these is newer.
theorem latest_spec (hhistory : 0 < settings.fleet_history_per_robot) {robot_id : Int}
    {row : TelemetryRow} (h : latest settings db_now telemetry robot_id = some row) :
    (row ∈ telemetry ∧ in_window settings db_now row = true ∧ row.robot_id.val = robot_id) ∧
    ∀ other ∈ telemetry, in_window settings db_now other = true → other.robot_id.val = robot_id →
      other.timestamp ≤ row.timestamp := by
  rw [latest_eq_head hhistory] at h
  refine ⟨mem_partition.mp (List.mem_of_head? h), fun other hother hwindow hrobot => ?_⟩
  have hmem := mem_partition.mpr ⟨hother, hwindow, hrobot⟩
  have hsorted : (partition settings db_now telemetry robot_id).Pairwise
      fun a b => b.timestamp ≤ a.timestamp := List.pairwise_insertionSort _ _
  obtain ⟨rows, hrows⟩ := List.head?_eq_some_iff.mp h
  rw [hrows] at hmem hsorted
  rcases List.mem_cons.mp hmem with rfl | hmem
  · exact le_rfl
  · exact (List.pairwise_cons.mp hsorted).1 other hmem

-- Nor is any row outside the window.
theorem latest_newest (hhistory : 0 < settings.fleet_history_per_robot) {robot_id : Int}
    {row : TelemetryRow} (h : latest settings db_now telemetry robot_id = some row) :
    ∀ other ∈ telemetry, other.robot_id.val = robot_id → other.timestamp ≤ row.timestamp := by
  obtain ⟨⟨-, hwindow, -⟩, hnewest⟩ := latest_spec hhistory h
  intro other hother hrobot
  by_cases hin : in_window settings db_now other = true
  · exact hnewest other hother hin hrobot
  · have hout := not_lt.mp (of_decide_eq_false (Bool.eq_false_iff.mpr hin))
    exact hout.trans (of_decide_eq_true hwindow).le

-- A row newer than all others of its robot is picked whatever the table's order.
theorem latest_of_newest (hhistory : 0 < settings.fleet_history_per_robot) {robot_id : Int}
    {row : TelemetryRow} (hrow : row ∈ telemetry) (hwindow : in_window settings db_now row = true)
    (hrobot : row.robot_id.val = robot_id)
    (hnewest : ∀ other ∈ telemetry, other.robot_id.val = robot_id →
      other = row ∨ other.timestamp < row.timestamp) :
    latest settings db_now telemetry robot_id = some row := by
  cases hlatest : latest settings db_now telemetry robot_id with
  | none => exact absurd ⟨row, hrow, hwindow, hrobot⟩ ((latest_eq_none_iff hhistory).mp hlatest)
  | some other =>
      obtain ⟨⟨hother, -, hrobot'⟩, hgreatest⟩ := latest_spec hhistory hlatest
      have hle := hgreatest row hrow hwindow hrobot
      rcases hnewest other hother hrobot' with rfl | hlt
      · rfl
      · exact absurd hle (not_le.mpr hlt)

theorem nodup_recent :
    ((get_recent_per_robot settings db_now telemetry).map Prod.fst).Nodup := by
  rw [get_recent_per_robot, List.map_map]
  exact nodup_keys_groupBy _ _

end Query

section Summaries

variable {settings : FleetSettings} {upper : String → String} {roster : Roster}
  {telemetry : List TelemetryRow} {db_now now : Instant}

-- No estimate divides by a rate that is rounded to zero.
def RatesKept (settings : FleetSettings) (db_now : Instant) (telemetry : List TelemetryRow) : Prop :=
  ∀ p ∈ get_recent_per_robot settings db_now telemetry, ¬ Underflows p.2

theorem summarize_isSome_iff (settings : FleetSettings) (upper : String → String) (now : Instant)
    {rows : List TelemetryRow} :
    (summarize_robot_history settings upper now rows).isSome = true ↔ ¬ Underflows rows := by
  rw [← estimate_eq_none_iff, summarize_robot_history]
  cases hlast : rows.getLast? with
  | none => simp [estimate_runtime_minutes, hlast]
  | some latest => simp [Option.isSome_iff_ne_none]

theorem summarize_eq_some {rows : List TelemetryRow} {summary : Summary}
    (h : summarize_robot_history settings upper now rows = some (some summary)) :
    ∃ latest, rows.getLast? = some latest ∧ summary.robot_id = latest.robot_id.val ∧
      summary.status = derive_status settings upper latest (now - latest.timestamp) := by
  rw [summarize_robot_history] at h
  cases hlast : rows.getLast? with
  | none =>
      rw [hlast] at h
      cases h
  | some latest =>
      rw [hlast] at h
      obtain ⟨runtime, -, hsummary⟩ := Option.map_eq_some_iff.mp h
      cases hsummary
      exact ⟨latest, rfl, rfl, rfl⟩

-- The summary of a robot that has been heard of in the window.
def heard (settings : FleetSettings) (upper : String → String) (telemetry : List TelemetryRow)
    (db_now now : Instant) (robot_id : Int) : Option Summary :=
  ((get_recent_per_robot settings db_now telemetry).lookup robot_id).bind fun rows =>
    (summarize_robot_history settings upper now rows).join

-- It is about the newest of the robot's rows.
theorem heard_eq_some {robot_id : Int} {summary : Summary}
    (h : heard settings upper telemetry db_now now robot_id = some summary) :
    ∃ row, latest settings db_now telemetry robot_id = some row ∧ summary.robot_id = row.robot_id.val ∧
      summary.status = derive_status settings upper row (now - row.timestamp) := by
  obtain ⟨rows, hrows, hsummary⟩ := Option.bind_eq_some_iff.mp h
  obtain ⟨row, hlast, hid, hstatus⟩ := summarize_eq_some (Option.join_eq_some_iff.mp hsummary)
  exact ⟨row, by rw [latest, hrows, Option.bind_some, hlast], hid, hstatus⟩

theorem latest_robot_id {robot_id : Int} {row : TelemetryRow}
    (h : latest settings db_now telemetry robot_id = some row) :
    row ∈ telemetry ∧ row.robot_id.val = robot_id := by
  obtain ⟨rows, hrows, hlast⟩ := Option.bind_eq_some_iff.mp h
  rw [lookup_recent] at hrows
  split at hrows <;> cases hrows
  have hmem := List.mem_of_mem_take (List.mem_reverse.mp (List.mem_of_getLast? hlast))
  exact ⟨(mem_partition.mp hmem).1, (mem_partition.mp hmem).2.2⟩

theorem heard_robot_id {robot_id : Int} {summary : Summary}
    (h : heard settings upper telemetry db_now now robot_id = some summary) :
    summary.robot_id = robot_id := by
  obtain ⟨row, hlatest, hid, -⟩ := heard_eq_some h
  exact hid.trans (latest_robot_id hlatest).2

theorem heard_isSome_iff (upper : String → String) (now : Instant)
    (hrates : RatesKept settings db_now telemetry) {robot_id : Int} :
    (heard settings upper telemetry db_now now robot_id).isSome = true ↔
      0 < settings.fleet_history_per_robot ∧ Reports settings db_now telemetry robot_id := by
  have htake : (partition settings db_now telemetry robot_id).take
      settings.fleet_history_per_robot.toNat = [] ↔ ¬ (0 < settings.fleet_history_per_robot ∧
        Reports settings db_now telemetry robot_id) := by
    rw [← partition_ne_nil_iff, List.take_eq_nil_iff]
    constructor
    · rintro (h | h) ⟨hpos, hne⟩
      · omega
      · exact hne h
    · intro h
      by_cases hpos : 0 < settings.fleet_history_per_robot
      · exact Or.inr (by_contra fun hne => h ⟨hpos, hne⟩)
      · exact Or.inl (by omega)
  have hlookup := lookup_recent settings db_now telemetry robot_id
  rw [heard]
  split at hlookup
  · rename_i hnil
    rw [hlookup]
    simpa using htake.mp hnil
  · rename_i hne
    have hkept := hrates _ (mem_of_lookup hlookup)
    obtain ⟨summary, hsummary⟩ := Option.isSome_iff_exists.mp
      ((summarize_isSome_iff settings upper now).mpr hkept)
    have hsome : summary.isSome = true := by
      rw [summarize_robot_history,
        List.getLast?_eq_some_getLast (List.reverse_ne_nil_iff.mpr hne)] at hsummary
      obtain ⟨_, -, rfl⟩ := Option.map_eq_some_iff.mp hsummary
      rfl
    rw [hlookup, Option.bind_some, hsummary, Option.join_some, hsome]
    exact ⟨fun _ => by_contra fun h => hne (htake.mpr h), fun _ => rfl⟩

section Unregistered

variable {grouped : List (Int × List TelemetryRow)} {d filled : List (Int × Summary)}

theorem add_unregistered_eq_some {p : Int × List TelemetryRow}
    (h : add_unregistered settings upper now d p = some filled) :
    ((d.lookup p.1).isSome = true ∧ filled = d) ∨ (d.lookup p.1 = none ∧
      ((summarize_robot_history settings upper now p.2 = some none ∧ filled = d) ∨
        ∃ summary, summarize_robot_history settings upper now p.2 = some (some summary) ∧
          filled = setItem d p.1 summary)) := by
  rw [add_unregistered] at h
  split at h
  · rename_i hold
    cases h
    exact .inl ⟨hold, rfl⟩
  · rename_i hnew
    obtain ⟨summary, hsummary, heq⟩ := Option.map_eq_some_iff.mp h
    refine .inr ⟨Option.not_isSome_iff_eq_none.mp hnew, ?_⟩
    cases summary with
    | none => exact .inl ⟨hsummary, heq.symm⟩
    | some summary => exact .inr ⟨summary, hsummary, heq.symm⟩

theorem lookup_add_unregistered (hgrouped : (grouped.map Prod.fst).Nodup)
    (h : grouped.foldlM (add_unregistered settings upper now) d = some filled) (robot_id : Int) :
    filled.lookup robot_id = (d.lookup robot_id).or ((grouped.lookup robot_id).bind fun rows =>
      (summarize_robot_history settings upper now rows).join) := by
  induction grouped generalizing d with
  | nil =>
      cases h
      simp
  | cons p grouped ih =>
      obtain ⟨k, rows⟩ := p
      rw [List.foldlM_cons] at h
      obtain ⟨next, hnext, hrest⟩ := Option.bind_eq_some_iff.mp h
      rw [ih (List.nodup_cons.mp hgrouped).2 hrest]
      by_cases hk : robot_id = k
      · subst hk
        rw [lookup_eq_none_of_nodup hgrouped, List.lookup_cons_self]
        rcases add_unregistered_eq_some hnext with
          ⟨hold, rfl⟩ | ⟨hnew, ⟨hsummary, rfl⟩ | ⟨summary, hsummary, rfl⟩⟩
        · obtain ⟨summary, hsummary⟩ := Option.isSome_iff_exists.mp hold
          simp [hsummary]
        · simp [hnew, hsummary]
        · simp [hnew, hsummary, lookup_setItem]
      · have hbeq : (robot_id == k) = false := beq_false_of_ne hk
        rw [List.lookup_cons, hbeq]
        congr 1
        rcases add_unregistered_eq_some hnext with ⟨-, rfl⟩ | ⟨-, ⟨-, rfl⟩ | ⟨summary, -, rfl⟩⟩
        · rfl
        · rfl
        · rw [lookup_setItem, if_neg (by simpa using hk)]

theorem nodup_add_unregistered (hd : (d.map Prod.fst).Nodup)
    (h : grouped.foldlM (add_unregistered settings upper now) d = some filled) :
    (filled.map Prod.fst).Nodup := by
  induction grouped generalizing d with
  | nil =>
      cases h
      exact hd
  | cons p grouped ih =>
      rw [List.foldlM_cons] at h
      obtain ⟨next, hnext, hrest⟩ := Option.bind_eq_some_iff.mp h
      refine ih ?_ hrest
      rcases add_unregistered_eq_some hnext with ⟨-, rfl⟩ | ⟨-, ⟨-, rfl⟩ | ⟨summary, -, rfl⟩⟩
      · exact hd
      · exact hd
      · exact nodup_keys_setItem hd _ _

-- Each robot that is not in yet is summarized.
theorem add_unregistered_isSome_iff (hgrouped : (grouped.map Prod.fst).Nodup) :
    (grouped.foldlM (add_unregistered settings upper now) d).isSome = true ↔
      ∀ p ∈ grouped, d.lookup p.1 = none → ¬ Underflows p.2 := by
  induction grouped generalizing d with
  | nil => simp
  | cons p grouped ih =>
      obtain ⟨hnot, hrest⟩ := List.nodup_cons.mp hgrouped
      rw [List.foldlM_cons, List.forall_mem_cons]
      cases hnext : add_unregistered settings upper now d p with
      | none =>
          simp only [Option.bind_eq_bind, Option.bind_none, Option.isSome_none, Bool.false_eq_true, false_iff]
          rintro ⟨hkept, -⟩
          rw [add_unregistered] at hnext
          split at hnext
          · cases hnext
          · rename_i hnew
            have hsome := (summarize_isSome_iff settings upper now).mpr
              (hkept (Option.not_isSome_iff_eq_none.mp hnew))
            rw [Option.map_eq_none_iff.mp hnext] at hsome
            cases hsome
      | some next =>
          have hsame : ∀ q ∈ grouped, next.lookup q.1 = d.lookup q.1 := by
            intro q hq
            have hne : q.1 ≠ p.1 := fun heq => hnot (heq ▸ List.mem_map_of_mem hq)
            rcases add_unregistered_eq_some hnext with ⟨-, rfl⟩ | ⟨-, ⟨-, rfl⟩ | ⟨summary, -, rfl⟩⟩
            · rfl
            · rfl
            · rw [lookup_setItem, if_neg (by simpa using hne)]
          have hfirst : d.lookup p.1 = none → ¬ Underflows p.2 := by
            intro hnew
            rw [← summarize_isSome_iff settings upper now]
            rcases add_unregistered_eq_some hnext with ⟨hold, -⟩ | ⟨-, ⟨hsummary, -⟩ | ⟨summary, hsummary, -⟩⟩
            · rw [hnew] at hold
              cases hold
            · rw [hsummary]
              rfl
            · rw [hsummary]
              rfl
          simp only [Option.bind_eq_bind, Option.bind_some, ih hrest]
          refine ⟨fun h => ⟨hfirst, fun q hq hnew => h q hq (hsame q hq ▸ hnew)⟩, fun h q hq hnew => ?_⟩
          exact h.2 q hq (hsame q hq ▸ hnew)

end Unregistered

theorem nodup_list_active (roster : Roster) : ((list_active roster).map Prod.fst).Nodup := by
  have hperm : (list_active roster).Perm (roster.rows.filter fun p => p.2.is_active) :=
    List.perm_insertionSort _ _
  rw [(hperm.map Prod.fst).nodup_iff]
  exact roster.primary_key.sublist (List.filter_sublist.map _)

theorem registered_isSome_iff (settings : FleetSettings) (upper : String → String) (now : Instant)
    {grouped : List (Int × List TelemetryRow)} (p : Int × Robot) :
    (registered_summary settings upper now grouped p).isSome = true ↔
      ∀ rows, grouped.lookup p.1 = some rows → ¬ Underflows rows := by
  rw [registered_summary]
  cases grouped.lookup p.1 with
  | none => simp
  | some rows => simp [summarize_isSome_iff]

theorem registered_eq {p : Int × Robot} {summary : Summary}
    (h : registered_summary settings upper now (get_recent_per_robot settings db_now telemetry) p =
      some summary) :
    summary = (heard settings upper telemetry db_now now p.1).getD (summarize_silent_robot p.1 p.2) := by
  rw [registered_summary] at h
  rw [heard]
  split at h
  · rename_i rows hrows
    obtain ⟨found, hfound, rfl⟩ := Option.map_eq_some_iff.mp h
    rw [hrows, Option.bind_some, hfound, Option.join_some]
  · rename_i hnone
    cases h
    rw [hnone]
    rfl

theorem summaries_eq_some {d : List (Int × Summary)}
    (h : summaries settings upper roster telemetry db_now now = some d) :
    ∃ registered, (list_active roster).foldlM (fun d p => (registered_summary settings upper now
        (get_recent_per_robot settings db_now telemetry) p).map (setItem d p.1)) [] = some registered ∧
      (get_recent_per_robot settings db_now telemetry).foldlM (add_unregistered settings upper now)
        registered = some d :=
  Option.bind_eq_some_iff.mp h

theorem lookup_summaries {d : List (Int × Summary)}
    (h : summaries settings upper roster telemetry db_now now = some d) (robot_id : Int) :
    d.lookup robot_id =
      (((list_active roster).lookup robot_id).map fun robot =>
        (heard settings upper telemetry db_now now robot_id).getD
          (summarize_silent_robot robot_id robot)).or
        (heard settings upper telemetry db_now now robot_id) := by
  obtain ⟨registered, hregistered, hrest⟩ := summaries_eq_some h
  have hlookup := lookup_foldlM_setItem (nodup_list_active roster) hregistered robot_id
  rw [lookup_add_unregistered nodup_recent hrest, hlookup, List.lookup_nil, Option.or_none]
  cases hactive : (list_active roster).lookup robot_id with
  | none => rfl
  | some robot =>
      have hsome := foldlM_setItem_isSome_iff.mp (Option.isSome_of_eq_some hregistered) _
        (mem_of_lookup hactive)
      obtain ⟨summary, hsummary⟩ := Option.isSome_iff_exists.mp hsome
      rw [Option.bind_some, hsummary, registered_eq hsummary]
      rfl

theorem nodup_summaries {d : List (Int × Summary)}
    (h : summaries settings upper roster telemetry db_now now = some d) : (d.map Prod.fst).Nodup := by
  obtain ⟨registered, hregistered, hrest⟩ := summaries_eq_some h
  exact nodup_add_unregistered (nodup_foldlM_setItem hregistered List.nodup_nil) hrest

-- Whether it is in the roster or not, a robot is summarized once.
theorem summaries_isSome_iff :
    (summaries settings upper roster telemetry db_now now).isSome = true ↔
      RatesKept settings db_now telemetry := by
  constructor
  · intro hsome p hp
    obtain ⟨d, hd⟩ := Option.isSome_iff_exists.mp hsome
    obtain ⟨registered, hregistered, hrest⟩ := summaries_eq_some hd
    have hall := foldlM_setItem_isSome_iff.mp (Option.isSome_of_eq_some hregistered)
    have hothers := (add_unregistered_isSome_iff nodup_recent).mp (Option.isSome_of_eq_some hrest) p hp
    cases hactive : (list_active roster).lookup p.1 with
    | none =>
        refine hothers ?_
        rw [lookup_foldlM_setItem (nodup_list_active roster) hregistered, hactive]
        rfl
    | some robot =>
        exact (registered_isSome_iff _ _ _ _).mp (hall _ (mem_of_lookup hactive)) p.2
          ((lookup_iff_mem nodup_recent).mpr hp)
  · intro hrates
    obtain ⟨registered, hregistered⟩ := Option.isSome_iff_exists.mp
      ((foldlM_setItem_isSome_iff (d := [])).mpr fun p (_ : p ∈ list_active roster) =>
        (registered_isSome_iff settings upper now p).mpr fun rows hrows =>
          hrates _ (mem_of_lookup hrows))
    rw [summaries]
    simp only [hregistered, Option.bind_eq_bind, Option.bind_some]
    exact (add_unregistered_isSome_iff nodup_recent).mpr fun p hp _ => hrates p hp

theorem summaries_robot_id {d : List (Int × Summary)}
    (h : summaries settings upper roster telemetry db_now now = some d) {robot_id : Int}
    {summary : Summary} (hsummary : d.lookup robot_id = some summary) : summary.robot_id = robot_id := by
  rw [lookup_summaries h, Option.or_eq_some_iff] at hsummary
  rcases hsummary with hsummary | ⟨_, hsummary⟩
  · obtain ⟨robot, _, rfl⟩ := Option.map_eq_some_iff.mp hsummary
    cases hheard : heard settings upper telemetry db_now now robot_id with
    | none => rfl
    | some summary => exact heard_robot_id hheard
  · exact heard_robot_id hsummary

end Summaries

section Listing

variable {settings : FleetSettings} {upper : String → String} {roster : Roster}
  {telemetry : List TelemetryRow} {db_now now : Instant} {listed : List Summary}

theorem robots_isSome_iff (upper : String → String) (roster : Roster) (now : Instant) :
    (robots settings upper roster telemetry db_now now).isSome = true ↔
      RatesKept settings db_now telemetry := by
  rw [robots, Option.isSome_map, summaries_isSome_iff]

-- The list names the keys of the dict, sorted.
theorem robots_eq_some (h : robots settings upper roster telemetry db_now now = some listed) :
    ∃ d, summaries settings upper roster telemetry db_now now = some d ∧
      listed.map Summary.robot_id = (d.map Prod.fst).insertionSort (· ≤ ·) ∧
      ∀ summary, summary ∈ listed ↔ d.lookup summary.robot_id = some summary := by
  obtain ⟨d, hd, rfl⟩ := Option.map_eq_some_iff.mp h
  have hall : ∀ keys : List Int, (∀ k ∈ keys, k ∈ d.map Prod.fst) →
      (keys.filterMap fun robot_id => d.lookup robot_id).map Summary.robot_id = keys := by
    intro keys hkeys
    induction keys with
    | nil => rfl
    | cons k keys ih =>
        obtain ⟨summary, hsummary⟩ := Option.isSome_iff_exists.mp
          ((mem_keys_iff _ k).mp (hkeys k (List.mem_cons_self ..)))
        simp only [List.filterMap_cons, hsummary, List.map_cons, summaries_robot_id hd hsummary]
        rw [ih fun k hk => hkeys k (List.mem_cons_of_mem _ hk)]
  refine ⟨d, hd, hall _ fun k hk => (List.mem_insertionSort _).mp hk, fun summary => ?_⟩
  rw [List.mem_filterMap]
  constructor
  · rintro ⟨k, _, hk⟩
    rw [summaries_robot_id hd hk]
    exact hk
  · intro hsummary
    refine ⟨summary.robot_id, (List.mem_insertionSort _).mpr ?_, hsummary⟩
    rw [mem_keys_iff, hsummary]
    rfl

theorem robots_sorted (h : robots settings upper roster telemetry db_now now = some listed) :
    (listed.map Summary.robot_id).Pairwise (· < ·) := by
  obtain ⟨d, hd, hids, -⟩ := robots_eq_some h
  rw [hids]
  have hnodup : ((d.map Prod.fst).insertionSort (· ≤ ·)).Nodup :=
    (List.perm_insertionSort _ _).nodup_iff.mpr (nodup_summaries hd)
  exact (List.pairwise_insertionSort (· ≤ ·) _).imp₂ (fun _ _ hle hne => lt_of_le_of_ne hle hne) hnodup

theorem lookup_list_active {robot_id : Int} {robot : Robot} :
    (list_active roster).lookup robot_id = some robot ↔
      (robot_id, robot) ∈ roster.rows ∧ robot.is_active = true := by
  rw [lookup_iff_mem (nodup_list_active roster), list_active, List.mem_insertionSort,
    List.mem_filter]

-- A summary on the list is the silent one of an active robot, or that of its newest row.
theorem mem_robots (h : robots settings upper roster telemetry db_now now = some listed)
    {summary : Summary} (hsummary : summary ∈ listed) :
    heard settings upper telemetry db_now now summary.robot_id = some summary ∨
      (heard settings upper telemetry db_now now summary.robot_id = none ∧
        ∃ robot, (summary.robot_id, robot) ∈ roster.rows ∧ robot.is_active = true ∧
          summary = summarize_silent_robot summary.robot_id robot) := by
  obtain ⟨d, hd, -, hmem⟩ := robots_eq_some h
  have hlookup := (hmem summary).mp hsummary
  rw [lookup_summaries hd, Option.or_eq_some_iff] at hlookup
  rcases hlookup with hlookup | ⟨_, hlookup⟩
  · obtain ⟨robot, hrobot, heq⟩ := Option.map_eq_some_iff.mp hlookup
    cases hheard : heard settings upper telemetry db_now now summary.robot_id with
    | none =>
        rw [hheard] at heq
        obtain ⟨hrow, hactive⟩ := lookup_list_active.mp hrobot
        exact Or.inr ⟨rfl, robot, hrow, hactive, heq.symm⟩
    | some found =>
        rw [hheard] at heq
        exact Or.inl (congrArg some heq)
  · exact Or.inl hlookup

-- Who is listed: the active robots, and whoever reports without being one of them.
theorem mem_robot_ids (h : robots settings upper roster telemetry db_now now = some listed)
    (robot_id : Int) :
    robot_id ∈ listed.map Summary.robot_id ↔
      (∃ robot, (robot_id, robot) ∈ roster.rows ∧ robot.is_active = true) ∨
        (0 < settings.fleet_history_per_robot ∧ Reports settings db_now telemetry robot_id) := by
  have hrates := (robots_isSome_iff ..).mp (Option.isSome_of_eq_some h)
  obtain ⟨d, hd, hids, -⟩ := robots_eq_some h
  rw [hids, List.mem_insertionSort, mem_keys_iff, lookup_summaries hd, Option.isSome_or,
    Option.isSome_map, Bool.or_eq_true, heard_isSome_iff upper now hrates, Option.isSome_iff_exists]
  simp only [lookup_list_active]

theorem count_robot_ids (h : robots settings upper roster telemetry db_now now = some listed)
    {robot_id : Int} (hmem : robot_id ∈ listed.map Summary.robot_id) :
    (listed.map Summary.robot_id).count robot_id = 1 :=
  List.count_eq_one_of_mem ((robots_sorted h).imp fun hlt => hlt.ne) hmem

theorem get_fleet_status_page (limit skip : Nat) :
    get_fleet_status settings upper none roster telemetry db_now now limit skip =
      (robots settings upper roster telemetry db_now now).map fun robots =>
        (robots.drop skip).take limit := by
  unfold get_fleet_status
  cases settings.opt_read_cache <;> rfl

theorem mem_of_mem_page {limit skip : Nat} {page : List Summary}
    (h : get_fleet_status settings upper none roster telemetry db_now now limit skip = some page) :
    ∃ listed, robots settings upper roster telemetry db_now now = some listed ∧ page ⊆ listed := by
  rw [get_fleet_status_page] at h
  obtain ⟨listed, hlisted, rfl⟩ := Option.map_eq_some_iff.mp h
  exact ⟨listed, hlisted, fun _ hmem => List.mem_of_mem_drop (List.mem_of_mem_take hmem)⟩

-- The first pages of a list are its first rows.
theorem pages_eq_take {α : Type} (rows : List α) (limit pages : Nat) :
    (List.range pages).flatMap (fun page => (rows.drop (page * limit)).take limit) =
      rows.take (pages * limit) := by
  induction pages with
  | zero => simp
  | succ pages ih =>
      rw [List.range_succ, List.flatMap_append, ih, Nat.succ_mul, List.take_add]
      simp

-- Every active robot is listed once, and so is every robot without a roster row that reports in
-- the window, by increasing id. A listed robot that does not report is OFFLINE, last seen when
-- the roster says.
structure NoneMissing (settings : FleetSettings) (roster : Roster) (telemetry : List TelemetryRow)
    (db_now : Instant) (listed : List Summary) : Prop where
  active : ∀ robot_id robot, (robot_id, robot) ∈ roster.rows → robot.is_active = true →
    (listed.map Summary.robot_id).count robot_id = 1
  unregistered : 0 < settings.fleet_history_per_robot → ∀ robot_id,
    robot_id ∉ roster.rows.map Prod.fst → Reports settings db_now telemetry robot_id →
    (listed.map Summary.robot_id).count robot_id = 1
  increasing : (listed.map Summary.robot_id).Pairwise (· < ·)
  silent : ∀ robot_id robot, (robot_id, robot) ∈ roster.rows → robot.is_active = true →
    ¬ Reports settings db_now telemetry robot_id →
    ∀ summary ∈ listed, summary.robot_id = robot_id →
      summary.status = OFFLINE ∧ summary.last_seen = iso robot.last_seen

-- The roster has one row a robot.
theorem roster_row_unique {robot_id : Int} {robot other : Robot} (hrow : (robot_id, robot) ∈ roster.rows)
    (hother : (robot_id, other) ∈ roster.rows) : robot = other := by
  have hsame := (lookup_iff_mem roster.primary_key).mpr hrow
  rw [(lookup_iff_mem roster.primary_key).mpr hother] at hsame
  exact (Option.some.inj hsame).symm

theorem none_missing (h : robots settings upper roster telemetry db_now now = some listed) :
    NoneMissing settings roster telemetry db_now listed where
  active robot_id robot hrow hactive :=
    count_robot_ids h ((mem_robot_ids h _).mpr (Or.inl ⟨robot, hrow, hactive⟩))
  unregistered hhistory robot_id _ hreports :=
    count_robot_ids h ((mem_robot_ids h _).mpr (Or.inr ⟨hhistory, hreports⟩))
  increasing := robots_sorted h
  silent := by
    intro robot_id robot hrow hactive hsilent summary hsummary hid
    subst hid
    rcases mem_robots h hsummary with hheard | ⟨-, other, hother, -, heq⟩
    · obtain ⟨row, hlatest, -, -⟩ := heard_eq_some hheard
      obtain ⟨rows, hrows, hlast⟩ := Option.bind_eq_some_iff.mp hlatest
      rw [lookup_recent] at hrows
      split at hrows <;> cases hrows
      have hmem := List.mem_of_mem_take (List.mem_reverse.mp (List.mem_of_getLast? hlast))
      exact absurd (partition_ne_nil_iff.mp (List.ne_nil_of_mem hmem)) hsilent
    · rw [heq, roster_row_unique hrow hother]
      exact ⟨rfl, rfl⟩

-- No robot is missing from the list, of which the pages make up the whole, exactly when no
-- estimate divides by a rate that is rounded to zero: then there is no list.
theorem no_robot_missing_iff (settings : FleetSettings) (upper : String → String) (roster : Roster)
    (telemetry : List TelemetryRow) (db_now now : Instant) :
    (∃ listed, robots settings upper roster telemetry db_now now = some listed ∧
      NoneMissing settings roster telemetry db_now listed ∧
      ∀ limit pages, 0 < limit → listed.length ≤ pages * limit →
        ((List.range pages).mapM fun page =>
          get_fleet_status settings upper none roster telemetry db_now now limit (page * limit)).map
            List.flatten = some listed) ↔
      RatesKept settings db_now telemetry := by
  rw [← robots_isSome_iff upper roster now, Option.isSome_iff_exists]
  refine exists_congr fun listed => ⟨And.left, fun h => ⟨h, none_missing h, ?_⟩⟩
  intro limit pages _ hlength
  have hpages : (List.range pages).mapM (fun page =>
      get_fleet_status settings upper none roster telemetry db_now now limit (page * limit)) =
        some ((List.range pages).map fun page => (listed.drop (page * limit)).take limit) := by
    simp only [get_fleet_status_page, h, Option.map_some]
    exact List.mapM_pure
  rw [hpages, Option.map_some, ← List.flatMap_def, pages_eq_take, List.take_of_length_le hlength]

-- Decommissioned robots are kept out exactly while none of them reports, or nobody is listed.
theorem decommissioned_excluded_iff (settings : FleetSettings) (upper : String → String) (roster : Roster)
    (telemetry : List TelemetryRow) (db_now now : Instant) :
    (∀ robot_id robot, (robot_id, robot) ∈ roster.rows → robot.is_active = false →
      ∀ limit skip page,
        get_fleet_status settings upper none roster telemetry db_now now limit skip = some page →
          robot_id ∉ page.map Summary.robot_id) ↔
      (RatesKept settings db_now telemetry →
        ∀ robot_id robot, (robot_id, robot) ∈ roster.rows → robot.is_active = false →
          ¬ (0 < settings.fleet_history_per_robot ∧ Reports settings db_now telemetry robot_id)) := by
  constructor
  · intro hexcluded hrates robot_id robot hrow hretired hreports
    obtain ⟨listed, hlisted⟩ := Option.isSome_iff_exists.mp
      ((robots_isSome_iff upper roster now).mpr hrates)
    refine hexcluded robot_id robot hrow hretired listed.length 0 listed ?_
      ((mem_robot_ids hlisted robot_id).mpr (Or.inr hreports))
    rw [get_fleet_status_page, hlisted, Option.map_some, List.drop_zero, List.take_length]
  · intro hsilent robot_id robot hrow hretired limit skip page hpage hmem
    obtain ⟨listed, hlisted, hsub⟩ := mem_of_mem_page hpage
    have hrates := (robots_isSome_iff ..).mp (Option.isSome_of_eq_some hlisted)
    rcases (mem_robot_ids hlisted robot_id).mp (List.map_subset _ hsub hmem) with
      ⟨robot', hrow', hactive⟩ | hreports
    · rw [roster_row_unique hrow' hrow, hretired] at hactive
      cases hactive
    · exact hsilent hrates robot_id robot hrow hretired hreports

end Listing

section Examples

def defaults : FleetSettings := ⟨60, 15, 30, true⟩

-- A full battery, reported at the given time.
def plainRow (robot_id : Integer) (timestamp : Instant) : TelemetryRow where
  robot_id := robot_id
  battery := .finite 100
  temperature := .finite 20
  speed := .finite 0
  status := none
  mission_id := none
  mission_type := none
  mission_progress := none
  mission_start_time := none
  battery_health := none
  motor_health := none
  sensor_health := none
  network_health := none
  x := none
  y := none
  timestamp := timestamp

-- Robot 9 has been retired and is still reporting; robot 7 is silent.
def retiredNine : Roster := ⟨[(9, ⟨false, none⟩), (7, ⟨true, none⟩)], by decide⟩

def nineReports : List TelemetryRow := [plainRow ⟨9, by decide⟩ 1000000]

theorem retired_robot_listed : ¬ ∀ (settings : FleetSettings) (upper : String → String)
    (roster : Roster) (telemetry : List TelemetryRow) (db_now now : Instant) (robot_id : Int)
    (robot : Robot), (robot_id, robot) ∈ roster.rows → robot.is_active = false →
    ∀ limit skip page,
      get_fleet_status settings upper none roster telemetry db_now now limit skip = some page →
        robot_id ∉ page.map Summary.robot_id := by
  intro hexcluded
  have hids : (get_fleet_status defaults id none retiredNine nineReports 2000000 2000000 1000 0).map
      (List.map Summary.robot_id) = some [7, 9] := by
    decide +kernel
  obtain ⟨page, hpage, hids⟩ := Option.map_eq_some_iff.mp hids
  refine hexcluded defaults id retiredNine nineReports 2000000 2000000 9 ⟨false, none⟩ (by decide) rfl
    1000 0 page hpage ?_
  rw [hids]
  decide

-- The battery of robot 9 has drained by the least a double can, in ten minutes.
def drainedNine : List TelemetryRow :=
  [{ plainRow ⟨9, by decide⟩ 0 with battery := .finite (1 / 2 ^ 1074) },
    { plainRow ⟨9, by decide⟩ 600000000 with battery := .finite 0 }]

-- Robot 7 is active, and nobody is listed.
theorem drained_fleet_unlisted : ¬ ∀ (settings : FleetSettings) (upper : String → String)
    (roster : Roster) (telemetry : List TelemetryRow) (db_now now : Instant),
    ∃ listed, robots settings upper roster telemetry db_now now = some listed ∧
      NoneMissing settings roster telemetry db_now listed ∧
      ∀ limit pages, 0 < limit → listed.length ≤ pages * limit →
        ((List.range pages).mapM fun page =>
          get_fleet_status settings upper none roster telemetry db_now now limit (page * limit)).map
            List.flatten = some listed := by
  intro hlisted
  obtain ⟨listed, hlisted, -⟩ := hlisted defaults id retiredNine drainedNine 600000000 600000000
  have hnone : (robots defaults id retiredNine drainedNine 600000000 600000000).isSome = false := by
    decide +kernel
  rw [hlisted] at hnone
  cases hnone

end Examples

end FleetOps.Fleet
