import Mathlib.Data.List.Nodup
import FleetOps.Library.Runs
import FleetOps.Telemetry.Reading

namespace FleetOps.Telemetry.Retention

open Runs

-- A row of the telemetry table under its primary key.
abbrev Row := Nat × TelemetryRow

structure Table where
  rows : List Row
  ids : (rows.map Prod.fst).Nodup

-- `Telemetry.timestamp < limit_date`
def older (limit_date : Instant) (row : Row) : Bool := decide (row.2.timestamp < limit_date)

-- `now - timedelta(days=settings.retention_days)`, in microseconds.
def limit_date (retention : Int) (now : Instant) : Instant := now - retention

def Table.insert (table : Table) (row : Row) : Option Table :=
  if h : row.1 ∈ table.rows.map Prod.fst then none
  else some {
    rows := table.rows ++ [row]
    ids := by
      rw [List.map_append, List.map_singleton]
      exact List.nodup_append.mpr ⟨table.ids, List.nodup_singleton _,
        fun a ha b hb => by rw [List.mem_singleton.mp hb]; exact ne_of_mem_of_not_mem ha h⟩ }

-- DELETE ... WHERE id IN ids: what it takes, and what it leaves.
def Table.taken (table : Table) (ids : List Nat) : List Row := table.rows.filter fun row => row.1 ∈ ids

def Table.delete (table : Table) (ids : List Nat) : Table where
  rows := table.rows.filter fun row => row.1 ∉ ids
  ids := (List.filter_sublist.map Prod.fst).nodup table.ids

-- SELECT id ... WHERE timestamp < limit_date LIMIT 10000, without an order: any rows that many.
def Selects (limit_date : Instant) (table : Table) (ids : List Nat) : Prop :=
  ids.Nodup ∧ (∀ id ∈ ids, ∃ row ∈ table.rows, row.1 = id ∧ older limit_date row = true) ∧
    ids.length = min 10000 (table.rows.countP (older limit_date))

instance (limit_date : Instant) (table : Table) (ids : List Nat) :
    Decidable (Selects limit_date table ids) :=
  inferInstanceAs (Decidable (_ ∧ _ ∧ _))

-- A call of `prune_old_telemetry` on the committed table, which other sessions insert into.
structure Pruning where
  table : Table
  total_deleted : Nat
  returned : Option Nat

def Pruning.start (table : Table) : Pruning := ⟨table, 0, none⟩

inductive Step where
  -- another session commits a row
  | insert (row : Row)
  -- one transaction of the loop, with the ids the database selects
  | chunk (ids : List Nat)

def step (limit_date : Instant) (s : Pruning) : Step → Option Pruning
  | .insert row =>
      if s.returned.isSome then none
      else (s.table.insert row).map fun table => { s with table }
  | .chunk ids =>
      if s.returned.isNone ∧ Selects limit_date s.table ids then
        let deleted_count := (s.table.taken ids).length
        let total_deleted := s.total_deleted + deleted_count
        some {
          table := s.table.delete ids
          total_deleted
          returned := if deleted_count = 0 then some total_deleted else none }
      else none

def Step.inserted : Step → List Row
  | .insert row => [row]
  | .chunk _ => []

def Step.isChunk : Step → Bool
  | .insert _ => false
  | .chunk _ => true

def deleted (s : Pruning) : Step → List Row
  | .insert _ => []
  | .chunk ids => s.table.taken ids

def inserted (steps : List Step) : List Row := steps.flatMap Step.inserted

section Tables

variable {limit : Instant} {table table' : Table} {ids : List Nat} {row : Row}

theorem Table.insert_eq_some (h : table.insert row = some table') : table'.rows = table.rows ++ [row] := by
  rw [insert] at h
  split at h
  · cases h
  · obtain rfl := Option.some.inj h
    rfl

theorem Table.eq_of_id {a b : Row} (ha : a ∈ table.rows) (hb : b ∈ table.rows) (hid : a.1 = b.1) :
    a = b :=
  List.inj_on_of_nodup_map table.ids ha hb hid

theorem older_of_taken (hselects : Selects limit table ids) (hrow : row ∈ table.taken ids) :
    older limit row = true := by
  obtain ⟨hmem, hid⟩ := List.mem_filter.mp hrow
  obtain ⟨other, hother, heq, holder⟩ := hselects.2.1 _ (of_decide_eq_true hid)
  rwa [Table.eq_of_id hmem hother heq.symm]

-- The loop ends on a query that selected nothing, and so found nothing.
theorem not_older_of_taken_eq_nil (hselects : Selects limit table ids) (hnil : table.taken ids = [])
    (hrow : row ∈ table.rows) : older limit row = false := by
  have hids : ids = [] := by
    rw [List.eq_nil_iff_forall_not_mem]
    intro id hid
    obtain ⟨other, hother, rfl, -⟩ := hselects.2.1 id hid
    have htaken : other ∈ table.taken ids := List.mem_filter.mpr ⟨hother, decide_eq_true hid⟩
    rw [hnil] at htaken
    exact List.not_mem_nil htaken
  have hlength := hselects.2.2
  rw [hids, List.length_nil] at hlength
  have hcount : table.rows.countP (older limit) = 0 := by omega
  simpa using List.countP_eq_zero.mp hcount row hrow

theorem Table.delete_append_taken (table : Table) (ids : List Nat) :
    ((table.delete ids).rows ++ table.taken ids).Perm table.rows := by
  have hsplit := List.filter_append_perm (fun row : Row => decide (row.1 ∈ ids)) table.rows
  refine List.Perm.trans List.perm_append_comm ?_
  simpa [delete, taken] using hsplit

theorem countP_delete (hselects : Selects limit table ids) :
    (table.delete ids).rows.countP (older limit) + (table.taken ids).length =
      table.rows.countP (older limit) := by
  have htaken : (table.taken ids).countP (older limit) = (table.taken ids).length :=
    List.countP_eq_length.mpr fun row hrow => older_of_taken hselects hrow
  rw [← (table.delete_append_taken ids).countP_eq, List.countP_append, htaken]

theorem filter_delete (hselects : Selects limit table ids) :
    (table.delete ids).rows.filter (fun row => !older limit row) =
      table.rows.filter fun row => !older limit row := by
  rw [Table.delete, List.filter_filter]
  apply List.filter_congr
  intro row hrow
  by_cases hid : row.1 ∈ ids
  · have holder := older_of_taken hselects (List.mem_filter.mpr ⟨hrow, decide_eq_true hid⟩)
    simp [holder]
  · simp [hid]

-- The database always has a selection to make.
theorem exists_selects (limit : Instant) (table : Table) :
    ∃ ids, Selects limit table ids := by
  refine ⟨((table.rows.filter (older limit)).take 10000).map Prod.fst, ?_, ?_, ?_⟩
  · exact (((List.take_sublist _ _).trans List.filter_sublist).map Prod.fst).nodup table.ids
  · intro id hid
    obtain ⟨row, hrow, rfl⟩ := List.mem_map.mp hid
    obtain ⟨hmem, holder⟩ := List.mem_filter.mp (List.mem_of_mem_take hrow)
    exact ⟨row, hmem, rfl, holder⟩
  · rw [List.length_map, List.length_take, List.countP_eq_length_filter]

end Tables

section Calls

variable {limit : Instant} {s t u : Pruning}

-- What a transaction can do, with the guards it has passed.
theorem chunk_eq_some {ids : List Nat} (h : step limit s (.chunk ids) = some t) :
    s.returned = none ∧ Selects limit s.table ids ∧ t.table = s.table.delete ids ∧
      t.total_deleted = s.total_deleted + (s.table.taken ids).length ∧
      t.returned = if (s.table.taken ids).length = 0 then some t.total_deleted else none := by
  simp only [step] at h
  split at h
  · rename_i hguard
    obtain rfl := Option.some.inj h
    exact ⟨Option.isNone_iff_eq_none.mp hguard.1, hguard.2, rfl, rfl, rfl⟩
  · cases h

theorem insert_eq_some {row : Row} (h : step limit s (.insert row) = some t) :
    s.returned = none ∧ t.table.rows = s.table.rows ++ [row] ∧ t.total_deleted = s.total_deleted ∧
      t.returned = none := by
  simp only [step] at h
  split at h
  · cases h
  · rename_i hreturned
    obtain ⟨table, htable, rfl⟩ := Option.map_eq_some_iff.mp h
    have hnone : s.returned = none := Option.not_isSome_iff_eq_none.mp hreturned
    exact ⟨hnone, Table.insert_eq_some htable, rfl, hnone⟩

-- At most so many transactions are left, were nothing more inserted.
def Pruning.rank (limit : Instant) (s : Pruning) : Nat :=
  if s.returned.isSome then 0 else s.table.rows.countP (older limit) + 1

-- What lies between two states of a call: the rows that went, those that came, and the
-- transactions it took.
structure Accounts (limit : Instant) (s t : Pruning) (gone came : List Row) (chunks : Nat) : Prop
    where
  rows : (t.table.rows ++ gone).Perm (s.table.rows ++ came)
  kept : t.table.rows.filter (fun row => !older limit row) =
    (s.table.rows ++ came).filter fun row => !older limit row
  older : ∀ row ∈ gone, row.2.timestamp < limit
  total : t.total_deleted = s.total_deleted + gone.length
  rank : t.rank limit + chunks ≤ s.rank limit + came.countP (Retention.older limit)

theorem Accounts.refl (s : Pruning) : Accounts limit s s [] [] 0 where
  rows := List.Perm.refl _
  kept := by rw [List.append_nil]
  older := by simp
  total := rfl
  rank := by simp

theorem Accounts.trans {gone gone' came came' : List Row} {chunks chunks' : Nat}
    (h : Accounts limit s t gone came chunks) (h' : Accounts limit t u gone' came' chunks') :
    Accounts limit s u (gone ++ gone') (came ++ came') (chunks + chunks') where
  rows := by
    have hleft : (u.table.rows ++ (gone ++ gone')).Perm (t.table.rows ++ came' ++ gone) := by
      refine (List.perm_append_comm_assoc _ _ _).trans ?_
      exact (List.Perm.append_left gone h'.rows).trans List.perm_append_comm
    have hright : (t.table.rows ++ came' ++ gone).Perm (s.table.rows ++ came ++ came') := by
      have hmove : (t.table.rows ++ came' ++ gone).Perm (t.table.rows ++ gone ++ came') := by
        rw [List.append_assoc, List.append_assoc]
        exact List.Perm.append_left _ List.perm_append_comm
      exact hmove.trans (List.Perm.append_right came' h.rows)
    rw [← List.append_assoc s.table.rows]
    exact hleft.trans hright
  kept := by
    rw [h'.kept, List.filter_append, h.kept, ← List.filter_append, List.append_assoc]
  older := fun row hrow => (List.mem_append.mp hrow).elim (h.older row) (h'.older row)
  total := by
    rw [h'.total, h.total, List.length_append, Nat.add_assoc]
  rank := by
    have hfirst := h.rank
    have hsecond := h'.rank
    rw [List.countP_append]
    omega

theorem accounts_step {e : Step} (h : step limit s e = some t) :
    Accounts limit s t (deleted s e) e.inserted (if e.isChunk then 1 else 0) := by
  cases e with
  | insert row =>
      obtain ⟨hreturned, hrows, htotal, hreturned'⟩ := insert_eq_some h
      refine ⟨?_, ?_, by simp [deleted], by simp [deleted, htotal], ?_⟩
      · simp [deleted, Step.inserted, hrows]
      · simp [Step.inserted, hrows]
      · simp only [Pruning.rank, hreturned, hreturned', hrows, Step.inserted, Step.isChunk,
          List.countP_append, Option.isSome_none, Bool.false_eq_true, ite_false]
        omega
  | chunk ids =>
      obtain ⟨hreturned, hselects, htable, htotal, hreturned'⟩ := chunk_eq_some h
      have hcount := countP_delete hselects
      refine ⟨?_, ?_, ?_, htotal, ?_⟩
      · simpa [Step.inserted, deleted, htable] using s.table.delete_append_taken ids
      · simpa [Step.inserted, htable] using filter_delete hselects
      · exact fun row hrow => of_decide_eq_true (older_of_taken hselects hrow)
      · simp only [Pruning.rank, hreturned, hreturned', htable, Step.inserted, Step.isChunk,
          List.countP_nil, Option.isSome_none, Bool.false_eq_true, ite_false, ite_true]
        by_cases hnil : (s.table.taken ids).length = 0
        · simp [hnil]
        · simp only [hnil, ite_false, Option.isSome_none, Bool.false_eq_true]
          omega

theorem accounts_run {steps : List Step} (hrun : exec (step limit) s steps = some t) :
    Accounts limit s t (trace (step limit) deleted s steps) (inserted steps)
      (steps.countP Step.isChunk) := by
  induction steps generalizing s with
  | nil =>
      cases hrun
      exact Accounts.refl _
  | cons e steps ih =>
      obtain ⟨u, hu, hrest⟩ := (exec_cons_iff s t e steps).mp hrun
      have haccounts := (accounts_step hu).trans (ih hrest)
      rw [trace_cons hu, List.countP_cons, Nat.add_comm]
      exact haccounts

-- A call returns the rows it counted, and on a table without a row that is older.
def Returns (limit : Instant) (s : Pruning) : Prop :=
  ∀ n, s.returned = some n →
    n = s.total_deleted ∧ ∀ row ∈ s.table.rows, limit ≤ row.2.timestamp

theorem returns_step {e : Step} (h : step limit s e = some t) : Returns limit t := by
  intro n hn
  cases e with
  | insert row =>
      obtain ⟨-, -, -, hreturned⟩ := insert_eq_some h
      rw [hreturned] at hn
      cases hn
  | chunk ids =>
      obtain ⟨-, hselects, htable, -, hreturned⟩ := chunk_eq_some h
      rw [hreturned] at hn
      split at hn
      · rename_i hlength
        refine ⟨(Option.some.inj hn).symm, fun row hrow => ?_⟩
        rw [htable] at hrow
        have hfalse := not_older_of_taken_eq_nil hselects (List.length_eq_zero_iff.mp hlength)
          (List.mem_of_mem_filter hrow)
        exact not_lt.mp (of_decide_eq_false hfalse)
      · cases hn

theorem exists_chunk (limit : Instant) (h : s.returned = none) :
    ∃ ids t, step limit s (.chunk ids) = some t := by
  obtain ⟨ids, hselects⟩ := exists_selects limit s.table
  have hguard : s.returned.isNone = true ∧ Selects limit s.table ids := ⟨by rw [h]; rfl, hselects⟩
  exact ⟨ids, _, if_pos hguard⟩

-- Left alone, a call comes to its end.
theorem exists_return (s : Pruning) : ∃ steps t, (∀ e ∈ steps, e.isChunk = true) ∧
    exec (step limit) s steps = some t ∧ t.returned.isSome = true := by
  induction hrank : s.rank limit using Nat.strong_induction_on generalizing s with
  | _ n ih =>
      cases hreturned : s.returned with
      | some total => exact ⟨[], s, by simp, rfl, by rw [hreturned]; rfl⟩
      | none =>
          obtain ⟨ids, t, ht⟩ := exists_chunk limit hreturned
          have hless := (accounts_step ht).rank
          simp only [Step.isChunk, Step.inserted, List.countP_nil, ite_true] at hless
          obtain ⟨steps, u, hchunks, hrun, hdone⟩ := ih (t.rank limit) (by omega) t rfl
          exact ⟨.chunk ids :: steps, u, List.forall_mem_cons.mpr ⟨rfl, hchunks⟩,
            (exec_cons_iff _ _ _ _).mpr ⟨t, ht, hrun⟩, hdone⟩

-- Whatever the database selects and the others insert, what goes is what has expired.
theorem prune_old_telemetry_exact (retention : Int) (now : Instant) (table : Table) {steps : List Step}
    (hrun : exec (step (limit_date retention now)) (.start table) steps = some s) :
    let gone := trace (step (limit_date retention now)) deleted (.start table) steps
    (steps.countP Step.isChunk ≤ table.rows.countP (older (limit_date retention now)) +
      (inserted steps).countP (older (limit_date retention now)) + 1) ∧
    (∃ more t, (∀ e ∈ more, e.isChunk = true) ∧
      exec (step (limit_date retention now)) s more = some t ∧ t.returned.isSome = true) ∧
    (∀ row ∈ gone, row.2.timestamp < limit_date retention now) ∧
    (s.table.rows ++ gone).Perm (table.rows ++ inserted steps) ∧
    s.table.rows.filter (fun row => !older (limit_date retention now) row) =
      (table.rows ++ inserted steps).filter (fun row => !older (limit_date retention now) row) ∧
    ∀ n, s.returned = some n →
      n = gone.length ∧ ∀ row ∈ s.table.rows, limit_date retention now ≤ row.2.timestamp := by
  have haccounts := accounts_run hrun
  have hreturns : Returns (limit_date retention now) s := by
    refine exec_invariant (fun _ _ _ _ h => returns_step h) ?_ hrun
    intro n hn
    cases hn
  refine ⟨?_, exists_return s, haccounts.older, haccounts.rows, haccounts.kept, fun n hn => ?_⟩
  · have hrank := haccounts.rank
    simp only [Pruning.rank, Pruning.start, Option.isSome_none, Bool.false_eq_true, ite_false] at hrank
    omega
  · obtain ⟨rfl, hrows⟩ := hreturns n hn
    refine ⟨?_, hrows⟩
    rw [haccounts.total, Pruning.start, Nat.zero_add]

end Calls

section Sample

def reading (timestamp : Instant) : TelemetryRow where
  robot_id := ⟨1, by decide⟩
  battery := .finite 50
  temperature := .finite 20
  speed := .finite 0
  status := none
  mission_id := none
  mission_type := none
  mission_progress := none
  mission_start_time := none
  battery_health := none
  motor_health := none
  sensor_health := none
  network_health := none
  x := none
  y := none
  timestamp

def twoRows : Table where
  rows := [(1, reading 0), (2, reading 900)]
  ids := by decide

-- A backdated row that comes between two transactions goes with the next one.
theorem prune_old_telemetry_late : ∃ s,
    exec (step (limit_date 100 1000)) (.start twoRows)
      [.chunk [1], .insert (3, reading 10), .chunk [3], .chunk []] = some s ∧
    s.returned = some 2 ∧ ∀ row ∈ s.table.rows, 900 ≤ row.2.timestamp := by
  refine exec_exists (P := fun s => s.returned = some 2) (by decide) fun s hrun hreturned => ?_
  exact ⟨hreturned, ((prune_old_telemetry_exact 100 1000 twoRows hrun).2.2.2.2.2 2 hreturned).2⟩

end Sample

end FleetOps.Telemetry.Retention
