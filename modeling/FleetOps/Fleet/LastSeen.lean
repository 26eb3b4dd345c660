import Mathlib.Logic.Function.Basic
import Mathlib.Order.Bounds.Basic
import FleetOps.Telemetry.Database

namespace FleetOps.Fleet

open Calendar Telemetry

section Model

-- A row of the robots table, without its id.
structure RobotRow where
  name : Option String
  model : Option String
  firmware_version : Option String
  is_active : Bool
  registered_at : Option Instant
  last_seen : Option Instant
  decommissioned_at : Option Instant

abbrev Robots := Int → Option RobotRow

-- GREATEST ignores NULLs.
def greatest : Option Instant → Option Instant → Option Instant
  | some a, some b => some (max a b)
  | a, b => a.or b

-- The row after ON CONFLICT DO UPDATE, or the one inserted with the column defaults.
def upsert_row (now seen_at : Instant) : Option RobotRow → RobotRow
  | some row =>
      { row with last_seen := greatest (some seen_at) (row.last_seen.or (some seen_at)) }
  | none =>
      { name := none
        model := none
        firmware_version := none
        is_active := true
        registered_at := some now
        last_seen := some seen_at
        decommissioned_at := none }

def mark_seen (now : Instant) (robots : Robots) : List (Int × Datetime) → Robots
  | [] => robots
  | (robot_id, seen_at) :: rows =>
      mark_seen now
        (Function.update robots robot_id (some (upsert_row now seen_at.instant (robots robot_id))))
        rows

-- A batch of (robot_id, timestamp) and the time of its upsert.
abbrev Batch := Instant × List (Int × Datetime)

-- `none` is a TypeError over a naive and an aware timestamp.
def register_robots (robots : Robots) (batch : Batch) : Option Robots :=
  (latest_by_robot [] batch.2).map (mark_seen batch.1 robots)

def replay (robots : Robots) (batches : List Batch) : Option Robots :=
  batches.foldlM register_robots robots

end Model

section Marked

-- The times that rows hold for a robot.
def times (rows : List (Int × Datetime)) (robot_id : Int) : Set Instant :=
  { t | ∃ p ∈ rows, p.1 = robot_id ∧ p.2.instant = t }

-- What a robot's row is after the times have been applied to it.
inductive Marked (applied : Set Instant) : Option RobotRow → Option RobotRow → Prop where
  | unmentioned (row : Option RobotRow) (hnone : applied = ∅) : Marked applied row row
  | seen (row : RobotRow) (t : Instant) (hsome : applied.Nonempty)
      (hgreatest : IsGreatest (applied ∪ { s | row.last_seen = some s }) t) :
      Marked applied (some row) (some { row with last_seen := some t })
  | added (registered_at t : Instant) (hgreatest : IsGreatest applied t) :
      Marked applied none (some ⟨none, none, none, true, some registered_at, some t, none⟩)

theorem isGreatest_insert {times : Set Instant} {t : Instant} (h : IsGreatest times t) (s : Instant) :
    IsGreatest (insert s times) (max s t) := by
  constructor
  · rcases le_total s t with hle | hle
    · rw [max_eq_right hle]
      exact Set.mem_insert_of_mem _ h.1
    · rw [max_eq_left hle]
      exact Set.mem_insert s times
  · rintro u (rfl | hu)
    · exact le_max_left _ _
    · exact (h.2 hu).trans (le_max_right _ _)

theorem Marked.upsert {applied : Set Instant} {row row' : Option RobotRow}
    (h : Marked applied row row') (now seen_at : Instant) :
    Marked (insert seen_at applied) row (some (upsert_row now seen_at row')) := by
  cases h with
  | unmentioned _ hnone =>
      subst hnone
      cases row with
      | none => exact .added now seen_at (by simp)
      | some row =>
          cases hold : row.last_seen with
          | none =>
              have hrow : upsert_row now seen_at (some row) = { row with last_seen := some seen_at } := by
                simp [upsert_row, hold, greatest]
              rw [hrow]
              exact .seen row seen_at (Set.insert_nonempty _ _) (by simp [hold])
          | some t =>
              have hrow : upsert_row now seen_at (some row) =
                  { row with last_seen := some (max seen_at t) } := by
                simp [upsert_row, hold, greatest]
              rw [hrow]
              refine .seen row (max seen_at t) (Set.insert_nonempty _ _) ?_
              have hset : insert seen_at ∅ ∪ { s | row.last_seen = some s } = {seen_at, t} := by
                ext s
                simp [hold, eq_comm, or_comm]
              rw [hset]
              exact isGreatest_insert isGreatest_singleton seen_at
  | seen row t hsome hgreatest =>
      have hrow : upsert_row now seen_at (some { row with last_seen := some t }) =
          { row with last_seen := some (max seen_at t) } := by
        simp [upsert_row, greatest]
      rw [hrow]
      refine .seen row (max seen_at t) (Set.insert_nonempty _ _) ?_
      rw [Set.insert_union]
      exact isGreatest_insert hgreatest seen_at
  | added registered_at t hgreatest =>
      exact .added registered_at (max seen_at t) (isGreatest_insert hgreatest seen_at)

-- Times that are not later than an applied one make no difference.
theorem Marked.mono {applied applied' : Set Instant} {row row' : Option RobotRow}
    (h : Marked applied row row') (hsub : applied ⊆ applied')
    (hcover : ∀ t' ∈ applied', ∃ t ∈ applied, t' ≤ t) : Marked applied' row row' := by
  cases h with
  | unmentioned _ hnone =>
      refine .unmentioned row ?_
      rw [Set.eq_empty_iff_forall_notMem]
      intro t' ht'
      obtain ⟨t, ht, _⟩ := hcover t' ht'
      rw [hnone] at ht
      exact ht
  | seen row t hsome hgreatest =>
      refine .seen row t (hsome.mono hsub) ⟨?_, ?_⟩
      · exact hgreatest.1.imp (fun h => hsub h) id
      · rintro s (hs | hs)
        · obtain ⟨u, hu, hle⟩ := hcover s hs
          exact hle.trans (hgreatest.2 (Or.inl hu))
        · exact hgreatest.2 (Or.inr hs)
  | added registered_at t hgreatest =>
      refine .added registered_at t ⟨hsub hgreatest.1, fun s hs => ?_⟩
      obtain ⟨u, hu, hle⟩ := hcover s hs
      exact hle.trans (hgreatest.2 hu)

end Marked

section Batches

theorem marked_mark_seen (now : Instant) {robots robots' : Robots} {applied : Int → Set Instant}
    (h : ∀ id, Marked (applied id) (robots id) (robots' id)) (rows : List (Int × Datetime)) :
    ∀ id, Marked (applied id ∪ times rows id) (robots id) (mark_seen now robots' rows id) := by
  induction rows generalizing robots' applied with
  | nil =>
      intro id
      have hnil : applied id ∪ times [] id = applied id := by simp [times]
      rw [hnil]
      exact h id
  | cons p rows ih =>
      obtain ⟨robot_id, seen_at⟩ := p
      intro id
      let marked := Function.update applied robot_id (insert seen_at.instant (applied robot_id))
      let next := Function.update robots' robot_id
        (some (upsert_row now seen_at.instant (robots' robot_id)))
      have hmarked : ∀ k, Marked (marked k) (robots k) (next k) := by
        intro k
        by_cases hk : k = robot_id
        · subst hk
          simp only [marked, next, Function.update_self]
          exact (h k).upsert now seen_at.instant
        · simp only [marked, next, Function.update_of_ne hk]
          exact h k
      have htimes : Function.update applied robot_id (insert seen_at.instant (applied robot_id)) id ∪
          times rows id = applied id ∪ times ((robot_id, seen_at) :: rows) id := by
        ext t
        by_cases hid : id = robot_id
        · subst hid
          simp only [Function.update_self, times, Set.mem_union, Set.mem_insert_iff, Set.mem_ofPred_eq,
            List.mem_cons, exists_eq_or_imp, true_and]
          tauto
        · simp only [Function.update_of_ne hid, times, Set.mem_union, Set.mem_ofPred_eq, List.mem_cons,
            exists_eq_or_imp, Ne.symm hid, false_and, false_or]
      rw [← htimes]
      exact ih hmarked id

theorem marked_register_robots {robots robots' : Robots} {applied : Int → Set Instant}
    (h : ∀ id, Marked (applied id) (robots id) (robots' id)) {batch : Batch}
    (haware : ∀ p ∈ batch.2, p.2.aware = true) :
    ∃ final, register_robots robots' batch = some final ∧
      ∀ id, Marked (applied id ∪ times batch.2 id) (robots id) (final id) := by
  obtain ⟨latest, hlatest⟩ := Option.isSome_iff_exists.mp
    (latest_by_robot_isSome [] (by simp) haware)
  refine ⟨mark_seen batch.1 robots' latest, by simp [register_robots, hlatest], fun id => ?_⟩
  -- The dict holds times of the batch, and one no earlier than each of them.
  have hsub : times latest id ⊆ times batch.2 id := by
    rintro t ⟨p, hp, hid, ht⟩
    rcases mem_latest_by_robot hlatest p hp with hseen | hrow
    · cases hseen
    · exact ⟨p, hrow, hid, ht⟩
  refine (marked_mark_seen batch.1 h latest id).mono (Set.union_subset_union_right _ hsub) ?_
  rintro t (ht | ⟨p, hp, hid, ht⟩)
  · exact ⟨t, Or.inl ht, le_refl t⟩
  · subst hid ht
    obtain ⟨t', hlookup, hle⟩ := (latest_by_robot_covers hlatest).2 p hp
    exact ⟨t'.instant, Or.inr ⟨_, Dict.mem_of_lookup hlookup, rfl, rfl⟩, hle⟩

-- The times that a sequence of batches holds for a robot.
def applied (batches : List Batch) (robot_id : Int) : Set Instant :=
  times (batches.flatMap Prod.snd) robot_id

theorem applied_cons (batch : Batch) (batches : List Batch) (robot_id : Int) :
    applied (batch :: batches) robot_id = times batch.2 robot_id ∪ applied batches robot_id := by
  ext t
  simp only [applied, times, List.flatMap_cons, List.mem_append, Set.mem_union, Set.mem_ofPred_eq,
    or_and_right, exists_or]

theorem marked_replay {robots robots' : Robots} {before : Int → Set Instant}
    (h : ∀ id, Marked (before id) (robots id) (robots' id)) {batches : List Batch}
    (haware : ∀ batch ∈ batches, ∀ p ∈ batch.2, p.2.aware = true) :
    ∃ final, replay robots' batches = some final ∧
      ∀ id, Marked (before id ∪ applied batches id) (robots id) (final id) := by
  induction batches generalizing robots' before with
  | nil =>
      refine ⟨robots', rfl, fun id => ?_⟩
      have hnil : applied [] id = ∅ := by simp [applied, times]
      rw [hnil, Set.union_empty]
      exact h id
  | cons batch batches ih =>
      obtain ⟨next, hnext, hmarked⟩ := marked_register_robots h (haware batch (List.mem_cons_self ..))
      obtain ⟨final, hfinal, hrest⟩ := ih hmarked
        fun b hb => haware b (List.mem_cons_of_mem _ hb)
      refine ⟨final, ?_, fun id => ?_⟩
      · rw [replay, List.foldlM_cons, hnext]
        exact hfinal
      · rw [applied_cons, ← Set.union_assoc]
        exact hrest id

end Batches

section Maximum

-- The row up to the time of its insertion.
def RobotRow.unregistered (row : RobotRow) : RobotRow := { row with registered_at := none }

-- The times applied to a robot leave one row, but for when it was inserted.
theorem Marked.unique {applied : Set Instant} {row left right : Option RobotRow}
    (hleft : Marked applied row left) (hright : Marked applied row right) :
    (row.isSome = true → left = right) ∧
      left.map RobotRow.unregistered = right.map RobotRow.unregistered := by
  cases hleft with
  | unmentioned _ hnone =>
      cases hright with
      | unmentioned => exact ⟨fun _ => rfl, rfl⟩
      | seen _ _ hsome => exact absurd hnone hsome.ne_empty
      | added _ _ hgreatest => exact absurd hnone (Set.nonempty_of_mem hgreatest.1).ne_empty
  | seen row t hsome hgreatest =>
      cases hright with
      | unmentioned _ hnone => exact absurd hnone hsome.ne_empty
      | seen _ t' _ hgreatest' =>
          rw [hgreatest.unique hgreatest']
          exact ⟨fun _ => rfl, rfl⟩
  | added registered_at t hgreatest =>
      cases hright with
      | unmentioned _ hnone => exact absurd hnone (Set.nonempty_of_mem hgreatest.1).ne_empty
      | added _ t' hgreatest' =>
          rw [hgreatest.unique hgreatest']
          exact ⟨nofun, rfl⟩

theorem Marked.of_empty {row row' : Option RobotRow} (h : Marked ∅ row row') : row' = row := by
  cases h with
  | unmentioned => rfl
  | seen _ _ hsome => exact absurd rfl hsome.ne_empty
  | added _ _ hgreatest => exact hgreatest.1.elim

theorem Marked.of_some {applied : Set Instant} (hsome : applied.Nonempty) {row : RobotRow}
    {row' : Option RobotRow} (h : Marked applied (some row) row') :
    ∃ t, row' = some { row with last_seen := some t } ∧
      IsGreatest (applied ∪ { s | row.last_seen = some s }) t := by
  cases h with
  | unmentioned _ hnone => exact absurd hnone hsome.ne_empty
  | seen _ t _ hgreatest => exact ⟨t, rfl, hgreatest⟩

theorem Marked.of_none {applied : Set Instant} (hsome : applied.Nonempty) {row' : Option RobotRow}
    (h : Marked applied none row') : ∃ row t, row' = some row ∧ row.is_active = true ∧
      row.last_seen = some t ∧ IsGreatest applied t := by
  cases h with
  | unmentioned _ hnone => exact absurd hnone hsome.ne_empty
  | added registered_at t hgreatest => exact ⟨_, t, rfl, rfl, rfl, hgreatest⟩

-- However the readings come in batches, in which order and how often: a robot on the
-- roster keeps its row but for last_seen, which is the latest of its own and the times
-- applied to it; one that is not is added, active, with the latest of these; and a
-- robot without a reading is left alone.
theorem last_seen_maximum (robots : Robots) {batches : List Batch}
    (haware : ∀ batch ∈ batches, ∀ p ∈ batch.2, p.2.aware = true) :
    ∃ final, replay robots batches = some final ∧
      (∀ id, applied batches id = ∅ → final id = robots id) ∧
      (∀ id row, robots id = some row → (applied batches id).Nonempty → ∃ t,
        final id = some { row with last_seen := some t } ∧
        IsGreatest (applied batches id ∪ { s | row.last_seen = some s }) t) ∧
      (∀ id, robots id = none → (applied batches id).Nonempty → ∃ row t, final id = some row ∧
        row.is_active = true ∧ row.last_seen = some t ∧ IsGreatest (applied batches id) t) ∧
      ∀ batches' : List Batch,
        (∀ p, p ∈ batches'.flatMap Prod.snd ↔ p ∈ batches.flatMap Prod.snd) →
        ∃ final', replay robots batches' = some final' ∧
          ∀ id, ((robots id).isSome = true → final' id = final id) ∧
            (final' id).map RobotRow.unregistered = (final id).map RobotRow.unregistered := by
  have hstart : ∀ id, Marked ∅ (robots id) (robots id) := fun id => .unmentioned _ rfl
  obtain ⟨final, hfinal, hmarked⟩ := marked_replay hstart haware
  simp only [Set.empty_union] at hmarked
  refine ⟨final, hfinal, fun id hnone => ?_, fun id row hrow hsome => ?_, fun id hrow hsome => ?_,
    fun batches' hsame => ?_⟩
  · have h := hmarked id
    rw [hnone] at h
    exact h.of_empty
  · have h := hmarked id
    rw [hrow] at h
    exact h.of_some hsome
  · have h := hmarked id
    rw [hrow] at h
    exact h.of_none hsome
  · have haware' : ∀ batch ∈ batches', ∀ p ∈ batch.2, p.2.aware = true := by
      intro batch hbatch p hp
      obtain ⟨batch', hbatch', hp'⟩ := List.mem_flatMap.mp
        ((hsame p).mp (List.mem_flatMap.mpr ⟨batch, hbatch, hp⟩))
      exact haware batch' hbatch' p hp'
    obtain ⟨final', hfinal', hmarked'⟩ := marked_replay hstart haware'
    refine ⟨final', hfinal', fun id => ?_⟩
    have hsets : applied batches' id = applied batches id := by
      ext t
      simp only [applied, times, hsame]
    have h := hmarked' id
    rw [Set.empty_union, hsets] at h
    exact h.unique (hmarked id)

end Maximum

section Statement

open RowStore

variable {σ ι : Type} [DecidableEq σ]

-- What the tables of the telemetry paths keep of the row.
def RobotRow.robot (row : RobotRow) : Robot := ⟨row.is_active, row.last_seen⟩

theorem robot_upsert_row (now seen_at : Instant) (row : Option RobotRow) :
    (upsert_row now seen_at row).robot =
      upsert seen_at (row.map fun row => (Version.robot row.robot : Version ι)) := by
  cases row with
  | none => rfl
  | some row =>
      cases hold : row.last_seen <;>
      simp [upsert_row, RobotRow.robot, upsert, hold, greatest]

-- The statement that a transaction of these paths makes is this one.
theorem visible_upsert_robots {st : Store σ Key (Version ι)} {s : σ} (now : Instant)
    {robots : Robots}
    (h : ∀ id, st.visible s (.robot id) = (robots id).map fun row => .robot row.robot)
    (rows : List (Int × Datetime)) (id : Int) :
    (upsert_robots st s rows).visible s (.robot id) =
      (mark_seen now robots rows id).map fun row => .robot row.robot := by
  induction rows generalizing st robots with
  | nil => exact h id
  | cons p rows ih =>
      obtain ⟨robot_id, seen_at⟩ := p
      rw [upsert_robots, mark_seen]
      refine ih fun k => ?_
      rw [Store.visible, mine_write_self, Store.write, ← List.append_assoc, latest_concat]
      by_cases hk : k = robot_id
      · subst hk
        rw [if_pos rfl, Function.update_self, Option.map_some, robot_upsert_row (ι := ι), h k]
      · rw [if_neg (by simpa using Ne.symm hk), Function.update_of_ne hk]
        exact h k

end Statement

section TwoOrders

def clockAt (wall : Nat) (h : wall < wallLimit) : Datetime := (Utc.mk wall h).datetime

-- Two readings of a new robot, the later one first, and a replay of it.
def replayedBatches : List Batch :=
  [(3, [(4, clockAt 2 (by decide)), (4, clockAt 1 (by decide))]), (5, [(4, clockAt 2 (by decide))])]

theorem last_seen_replayed : ∃ final row, replay (fun _ => none) replayedBatches = some final ∧
    final 4 = some row ∧ row.is_active = true ∧ row.last_seen = some 2 := by
  obtain ⟨final, hfinal, _, _, hadded, _⟩ := last_seen_maximum (fun _ => none)
    (show ∀ batch ∈ replayedBatches, ∀ p ∈ batch.2, p.2.aware = true by decide)
  have hmem : (2 : Instant) ∈ applied replayedBatches 4 :=
    ⟨(4, clockAt 2 (by decide)), by decide, rfl, rfl⟩
  obtain ⟨row, t, hrow, hactive, ht, hgreatest⟩ := hadded 4 rfl ⟨2, hmem⟩
  have hall : ∀ p ∈ replayedBatches.flatMap Prod.snd, p.2.instant ≤ 2 := by decide
  have hle : t ≤ 2 := by
    obtain ⟨p, hp, _, rfl⟩ := hgreatest.1
    exact hall p hp
  have heq : t = 2 := le_antisymm hle (hgreatest.2 hmem)
  exact ⟨final, row, hfinal, hrow, hactive, heq ▸ ht⟩

end TwoOrders

end FleetOps.Fleet
