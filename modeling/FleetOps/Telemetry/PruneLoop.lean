import FleetOps.Telemetry.Retention

namespace FleetOps.Telemetry.Retention

open Runs

-- One second of the clock.
def SECOND : Int := 1000000

-- `ex=3600` of "lock:db_pruner"
def lock_ttl : Int := 3600 * SECOND

-- What the lifespan passes to the loop.
def initial_delay_seconds : Int := 300 * SECOND
def interval_seconds : Int := 1800 * SECOND

inductive Phase where
  | sleeping (wake : Instant)
  -- inside `prune_old_telemetry`
  | pruning (started : Instant) (total_deleted : Nat)

-- The loop in its process, with the key in Redis and the table. `last` remembers when the last
-- iteration began and when it was over.
structure Loop where
  now : Instant
  lock : Option Instant
  table : Table
  phase : Phase
  last : Option (Instant × Instant)

def Loop.start (now : Instant) (lock : Option Instant) (table : Table) : Loop :=
  ⟨now, lock, table, .sleeping (now + initial_delay_seconds), none⟩

inductive Event where
  | tick (microseconds : Nat)
  -- the loop wakes and tries to set the lock
  | iterate
  | chunk (ids : List Nat)
  -- another session inserts a reading, which has not expired on its way
  | insert (row : Row)

-- The key is gone once its time to live has passed.
def Loop.lockFree (s : Loop) : Bool := s.lock.all fun expires => decide (expires ≤ s.now)

-- One transaction, and after the last one the sleep.
def Loop.chunk (retention : Int) (s : Loop) (started : Instant) (total_deleted : Nat) (ids : List Nat) :
    Option Loop :=
  (step (limit_date retention started) ⟨s.table, total_deleted, none⟩ (.chunk ids)).map fun call =>
    match call.returned with
    | some _ => { s with
        table := call.table
        phase := .sleeping (s.now + interval_seconds)
        last := some (started, s.now) }
    | none => { s with table := call.table, phase := .pruning started call.total_deleted }

def prune_loop (retention : Int) (s : Loop) : Event → Option Loop
  | .tick microseconds =>
      match s.phase with
      | .sleeping wake =>
          if s.now + microseconds ≤ wake then some { s with now := s.now + microseconds } else none
      | .pruning _ _ => some { s with now := s.now + microseconds }
  | .iterate =>
      match s.phase with
      | .sleeping wake =>
          if s.now ≠ wake then none
          else if s.lockFree then
            some { s with lock := some (s.now + lock_ttl), phase := .pruning s.now 0 }
          else some { s with phase := .sleeping (s.now + interval_seconds), last := some (s.now, s.now) }
      | .pruning _ _ => none
  | .chunk ids =>
      match s.phase with
      | .sleeping _ => none
      | .pruning started total_deleted => s.chunk retention started total_deleted ids
  | .insert row =>
      if limit_date retention s.now ≤ row.2.timestamp then
        (s.table.insert row).map fun table => { s with table }
      else none

-- After every iteration no row is older than the retention as of that iteration's start.
def Retained (retention : Int) (s : Loop) : Prop :=
  ∀ start ended, s.last = some (start, ended) →
    ∀ row ∈ s.table.rows, limit_date retention start ≤ row.2.timestamp

def Loop.elapsed (s : Loop) : Int :=
  match s.phase with
  | .sleeping _ => 0
  | .pruning started _ => s.now - started

-- No row is older than the retention, one interval and the time spent on pruning since.
def Bounded (retention : Int) (s : Loop) : Prop :=
  ∀ start ended, s.last = some (start, ended) → ∀ row ∈ s.table.rows,
    s.now - row.2.timestamp ≤ retention + interval_seconds + (ended - start + s.elapsed)

-- An iteration gets the lock, or would have nothing to delete.
def Prunes (retention : Int) (s : Loop) (e : Event) : Prop :=
  e = .iterate → s.lockFree = true ∨
    ∀ row ∈ s.table.rows, limit_date retention s.now ≤ row.2.timestamp

section Steps

variable {retention : Int} {s t : Loop}

theorem tick_eq_some {microseconds : Nat} (h : prune_loop retention s (.tick microseconds) = some t) :
    (∀ wake, s.phase = .sleeping wake → s.now + microseconds ≤ wake) ∧
      t = { s with now := s.now + microseconds } := by
  simp only [prune_loop] at h
  cases hphase : s.phase with
  | sleeping wake =>
      rw [hphase] at h
      simp only at h
      split at h
      · rename_i hwake
        refine ⟨fun wake' heq => ?_, (Option.some.inj h).symm⟩
        cases heq
        exact hwake
      · cases h
  | pruning started total_deleted =>
      rw [hphase] at h
      exact ⟨fun wake heq => (nomatch heq), (Option.some.inj h).symm⟩

theorem iterate_eq_some (h : prune_loop retention s .iterate = some t) :
    s.phase = .sleeping s.now ∧
      (s.lockFree = true ∧ t = { s with lock := some (s.now + lock_ttl), phase := .pruning s.now 0 } ∨
        s.lockFree = false ∧
          t = { s with phase := .sleeping (s.now + interval_seconds), last := some (s.now, s.now) }) := by
  simp only [prune_loop] at h
  cases hphase : s.phase with
  | pruning started total_deleted =>
      rw [hphase] at h
      cases h
  | sleeping wake =>
      rw [hphase] at h
      simp only at h
      split at h
      · cases h
      · rename_i hwake
        rw [not_not] at hwake
        subst hwake
        refine ⟨rfl, ?_⟩
        split at h
        · rename_i hlock
          exact .inl ⟨hlock, (Option.some.inj h).symm⟩
        · rename_i hlock
          exact .inr ⟨Bool.not_eq_true _ ▸ hlock, (Option.some.inj h).symm⟩

theorem insert_event_eq_some {row : Row} (h : prune_loop retention s (.insert row) = some t) :
    limit_date retention s.now ≤ row.2.timestamp ∧
      ∃ table, table.rows = s.table.rows ++ [row] ∧ t = { s with table } := by
  simp only [prune_loop] at h
  split at h
  · rename_i hfresh
    obtain ⟨table, htable, rfl⟩ := Option.map_eq_some_iff.mp h
    exact ⟨hfresh, table, Table.insert_eq_some htable, rfl⟩
  · cases h

-- A transaction leaves a part of the rows, and the last one none that had expired.
theorem chunk_event_eq_some {ids : List Nat} (h : prune_loop retention s (.chunk ids) = some t) :
    ∃ started total_deleted, s.phase = .pruning started total_deleted ∧
      (∀ row ∈ t.table.rows, row ∈ s.table.rows) ∧ t.now = s.now ∧ t.lock = s.lock ∧
      ((t.last = s.last ∧ ∃ total, t.phase = .pruning started total) ∨
        (t.last = some (started, s.now) ∧ t.phase = .sleeping (s.now + interval_seconds) ∧
          ∀ row ∈ t.table.rows, limit_date retention started ≤ row.2.timestamp)) := by
  simp only [prune_loop] at h
  cases hphase : s.phase with
  | sleeping wake =>
      rw [hphase] at h
      cases h
  | pruning started total_deleted =>
      rw [hphase] at h
      obtain ⟨call, hcall, hcont⟩ := Option.map_eq_some_iff.mp h
      obtain ⟨-, -, htable, -, -⟩ := chunk_eq_some hcall
      have hrows : ∀ row ∈ call.table.rows, row ∈ s.table.rows := by
        intro row hrow
        rw [htable] at hrow
        exact List.mem_of_mem_filter hrow
      refine ⟨started, total_deleted, rfl, ?_⟩
      cases hreturned : call.returned with
      | none =>
          rw [hreturned] at hcont
          subst hcont
          exact ⟨hrows, rfl, rfl, .inl ⟨rfl, _, rfl⟩⟩
      | some total =>
          rw [hreturned] at hcont
          subst hcont
          exact ⟨hrows, rfl, rfl, .inr ⟨rfl, rfl, (returns_step hcall total hreturned).2⟩⟩

end Steps

section Runs

variable {retention : Int} {s t : Loop}

-- What a run keeps as long as its iterations prune: where the clock stands between two
-- iterations, and what the last one left.
structure Inv (retention : Int) (s : Loop) : Prop where
  rows : Retained retention s
  finished : ∀ start ended, s.last = some (start, ended) → start ≤ ended ∧ ended ≤ s.now
  sleeping : ∀ wake, s.phase = .sleeping wake → s.now ≤ wake ∧
    ∀ start ended, s.last = some (start, ended) → wake = ended + interval_seconds
  pruning : ∀ started total_deleted, s.phase = .pruning started total_deleted → started ≤ s.now ∧
    ∀ start ended, s.last = some (start, ended) → started = ended + interval_seconds

theorem le_add_delay (a : Int) : a ≤ a + initial_delay_seconds := by
  simp only [initial_delay_seconds, SECOND]
  omega

theorem le_add_interval (a : Int) : a ≤ a + interval_seconds := by
  simp only [interval_seconds, SECOND]
  omega

theorem age_le {retention start ended now timestamp elapsed : Int}
    (hlimit : limit_date retention start ≤ timestamp) (hnow : now ≤ ended + interval_seconds + elapsed) :
    now - timestamp ≤ retention + interval_seconds + (ended - start + elapsed) := by
  have hstart : start - retention ≤ timestamp := hlimit
  omega

theorem elapsed_le (now ended : Int) :
    now ≤ ended + interval_seconds + (now - (ended + interval_seconds)) := by
  omega

theorem Inv.start_le (hinv : Inv retention s) {start ended : Instant} (h : s.last = some (start, ended)) :
    start ≤ s.now :=
  (hinv.finished start ended h).1.trans (hinv.finished start ended h).2

theorem inv_start (now : Instant) (lock : Option Instant) (table : Table) :
    Inv retention (.start now lock table) where
  rows := fun _ _ h => nomatch h
  finished := fun _ _ h => nomatch h
  sleeping := fun wake h => by
    obtain rfl := Phase.sleeping.inj h
    exact ⟨le_add_delay now, fun _ _ h => nomatch h⟩
  pruning := fun _ _ h => nomatch h

theorem limit_date_mono {retention : Int} {a b : Instant} (h : a ≤ b) :
    limit_date retention a ≤ limit_date retention b :=
  Int.sub_le_sub_right h retention

theorem inv_tick {microseconds : Nat} (hinv : Inv retention s)
    (h : prune_loop retention s (.tick microseconds) = some t) : Inv retention t := by
  obtain ⟨hwake, rfl⟩ := tick_eq_some h
  refine ⟨hinv.rows, fun start ended hlast => ?_, fun wake hphase => ?_, fun started total hphase => ?_⟩
  · obtain ⟨hstart, hended⟩ := hinv.finished start ended hlast
    exact ⟨hstart, hended.trans (Int.le_add_of_nonneg_right (Int.natCast_nonneg _))⟩
  · exact ⟨hwake wake hphase, (hinv.sleeping wake hphase).2⟩
  · have hstarted := hinv.pruning started total hphase
    exact ⟨hstarted.1.trans (Int.le_add_of_nonneg_right (Int.natCast_nonneg _)), hstarted.2⟩

theorem inv_iterate (hinv : Inv retention s) (hprunes : Prunes retention s .iterate)
    (h : prune_loop retention s .iterate = some t) : Inv retention t := by
  obtain ⟨hphase, ⟨-, rfl⟩ | ⟨hlock, rfl⟩⟩ := iterate_eq_some h
  · refine ⟨hinv.rows, hinv.finished, fun _ heq => (nomatch heq), fun started total heq => ?_⟩
    obtain ⟨rfl, -⟩ := Phase.pruning.inj heq
    exact ⟨le_refl _, (hinv.sleeping _ hphase).2⟩
  · have hrows := (hprunes rfl).resolve_left (by rw [hlock]; exact Bool.false_ne_true)
    refine ⟨fun start ended hlast => ?_, fun start ended hlast => ?_, fun wake heq => ?_,
      fun _ _ heq => nomatch heq⟩
    · obtain ⟨rfl, rfl⟩ := Prod.mk.inj (Option.some.inj hlast)
      exact hrows
    · obtain ⟨rfl, rfl⟩ := Prod.mk.inj (Option.some.inj hlast)
      exact ⟨le_refl _, le_refl _⟩
    · obtain rfl := Phase.sleeping.inj heq
      refine ⟨?_, fun start ended hlast => ?_⟩
      · exact le_add_interval s.now
      · obtain ⟨rfl, rfl⟩ := Prod.mk.inj (Option.some.inj hlast)
        rfl

theorem inv_chunk {ids : List Nat} (hinv : Inv retention s)
    (h : prune_loop retention s (.chunk ids) = some t) : Inv retention t := by
  obtain ⟨started, total, hphase, hrows, hnow, -, hcase⟩ := chunk_event_eq_some h
  have hstarted := hinv.pruning started total hphase
  rcases hcase with ⟨hlast, total', hphase'⟩ | ⟨hlast, hphase', hleft⟩
  · refine ⟨?_, ?_, fun wake heq => ?_, fun started' total'' heq => ?_⟩
    · intro start ended heq row hrow
      exact hinv.rows start ended (hlast ▸ heq) row (hrows row hrow)
    · rw [hlast, hnow]
      exact hinv.finished
    · rw [hphase'] at heq
      cases heq
    · rw [hphase'] at heq
      obtain ⟨rfl, -⟩ := Phase.pruning.inj heq
      rw [hnow, hlast]
      exact hstarted
  · refine ⟨?_, ?_, fun wake heq => ?_, fun _ _ heq => ?_⟩
    · intro start ended heq
      rw [hlast] at heq
      obtain ⟨rfl, -⟩ := Prod.mk.inj (Option.some.inj heq)
      exact hleft
    · intro start ended heq
      rw [hlast] at heq
      obtain ⟨rfl, rfl⟩ := Prod.mk.inj (Option.some.inj heq)
      exact ⟨hstarted.1, hnow.ge⟩
    · rw [hphase'] at heq
      obtain rfl := Phase.sleeping.inj heq
      refine ⟨?_, fun start ended heq => ?_⟩
      · rw [hnow]
        exact le_add_interval s.now
      · rw [hlast] at heq
        obtain ⟨-, rfl⟩ := Prod.mk.inj (Option.some.inj heq)
        rfl
    · rw [hphase'] at heq
      cases heq

theorem inv_insert {row : Row} (hinv : Inv retention s)
    (h : prune_loop retention s (.insert row) = some t) : Inv retention t := by
  obtain ⟨hfresh, table, htable, rfl⟩ := insert_event_eq_some h
  refine ⟨fun start ended hlast other hother => ?_, hinv.finished, hinv.sleeping, hinv.pruning⟩
  rw [htable] at hother
  rcases List.mem_append.mp hother with hother | hother
  · exact hinv.rows start ended hlast other hother
  · obtain rfl := List.mem_singleton.mp hother
    exact (limit_date_mono (hinv.start_le hlast)).trans hfresh

theorem inv_step {e : Event} (hinv : Inv retention s) (hprunes : Prunes retention s e)
    (h : prune_loop retention s e = some t) : Inv retention t := by
  cases e with
  | tick microseconds => exact inv_tick hinv h
  | iterate => exact inv_iterate hinv hprunes h
  | chunk ids => exact inv_chunk hinv h
  | insert row => exact inv_insert hinv h

-- An iteration that is skipped leaves what it found.
theorem prunes_of_retained {e : Event} (h : prune_loop retention s e = some t)
    (hrows : Retained retention t) : Prunes retention s e := by
  rintro rfl
  obtain ⟨-, ⟨hlock, -⟩ | ⟨-, rfl⟩⟩ := iterate_eq_some h
  · exact .inl hlock
  · exact .inr (hrows s.now s.now rfl)

theorem bounded_of_inv (hinv : Inv retention s) : Bounded retention s := by
  intro start ended hlast row hrow
  have hlimit := hinv.rows start ended hlast row hrow
  cases hphase : s.phase with
  | sleeping wake =>
      obtain ⟨hwake, hover⟩ := hinv.sleeping wake hphase
      rw [hover start ended hlast] at hwake
      simp only [Loop.elapsed, hphase]
      exact age_le hlimit (by rw [Int.add_zero]; exact hwake)
  | pruning started total_deleted =>
      obtain ⟨-, hstarted⟩ := hinv.pruning started total_deleted hphase
      simp only [Loop.elapsed, hphase, hstarted start ended hlast]
      exact age_le hlimit (elapsed_le s.now ended)

theorem retained_along (hinv : Inv retention s) {events : List Event}
    (hprunes : Along (prune_loop retention) (Prunes retention) s events) :
    Along (prune_loop retention)
      (fun s e => ∀ t, prune_loop retention s e = some t → Retained retention t) s events := by
  induction events generalizing s with
  | nil => trivial
  | cons e events ih =>
      exact ⟨fun t ht => (inv_step hinv hprunes.1 ht).rows,
        fun t ht => ih (inv_step hinv hprunes.1 ht) (hprunes.2 t ht)⟩

theorem prunes_along {events : List Event} (hrun : exec (prune_loop retention) s events = some t)
    (hrows : Along (prune_loop retention)
      (fun s e => ∀ t, prune_loop retention s e = some t → Retained retention t) s events) :
    Along (prune_loop retention) (Prunes retention) s events := by
  induction events generalizing s with
  | nil => trivial
  | cons e events ih =>
      obtain ⟨u, hu, hrest⟩ := (exec_cons_iff s t e events).mp hrun
      exact along_cons hu (prunes_of_retained hu (hrows.1 u hu)) (ih hrest (hrows.2 u hu))

-- The retention holds after every iteration of a run exactly when every iteration prunes, or
-- finds nothing to prune; and then no row outlives it by more than an interval and the pruning.
theorem prune_loop_retains_iff (retention : Int) (now : Instant) (lock : Option Instant) (table : Table)
    {events : List Event} (hrun : exec (prune_loop retention) (.start now lock table) events = some t) :
    (Along (prune_loop retention)
        (fun s e => ∀ u, prune_loop retention s e = some u → Retained retention u)
        (.start now lock table) events ↔
      Along (prune_loop retention) (Prunes retention) (.start now lock table) events) ∧
    (Along (prune_loop retention) (Prunes retention) (.start now lock table) events →
      Retained retention t ∧ Bounded retention t) := by
  refine ⟨⟨prunes_along hrun, retained_along (inv_start now lock table)⟩, fun hprunes => ?_⟩
  have hinv : Inv retention t := exec_along_invariant (fun s e t hc hi h => inv_step hi hc h) hprunes
    (inv_start now lock table) hrun
  exact ⟨hinv.rows, bounded_of_inv hinv⟩

-- Whose lock stands: that of the prune that runs, or of the last one. After an iteration that
-- was skipped it is about to run out.
structure Locked (s : Loop) : Prop where
  pruning : ∀ started total_deleted, s.phase = .pruning started total_deleted →
    s.lock = some (started + lock_ttl) ∧ started ≤ s.now
  first : ∀ wake, s.phase = .sleeping wake → s.last = none → s.lock = none
  sleeping : ∀ wake start ended, s.phase = .sleeping wake → s.last = some (start, ended) →
    start ≤ ended ∧ wake = ended + interval_seconds ∧
      (s.lock = some (start + lock_ttl) ∨ ∃ expires, s.lock = some expires ∧ expires ≤ wake)

theorem locked_start (now : Instant) (table : Table) : Locked (.start now none table) where
  pruning := fun _ _ h => nomatch h
  first := fun _ _ _ => rfl
  sleeping := fun _ _ _ _ h => nomatch h

theorem expires_le {start ended : Int} (h : start ≤ ended) :
    start + lock_ttl ≤ ended + interval_seconds + interval_seconds := by
  simp only [lock_ttl, interval_seconds, SECOND]
  omega

theorem lockFree_of_le {expires : Instant} (hlock : s.lock = some expires) (h : expires ≤ s.now) :
    s.lockFree = true := by
  rw [Loop.lockFree, hlock]
  exact decide_eq_true h

theorem not_lockFree {expires : Instant} (hlock : s.lock = some expires) :
    s.lockFree = false ↔ s.now < expires := by
  rw [Loop.lockFree, hlock, Option.all_some, decide_eq_false_iff_not]
  exact not_le

theorem locked_step {e : Event} (hlocked : Locked s) (h : prune_loop retention s e = some t) :
    Locked t := by
  cases e with
  | tick microseconds =>
      obtain ⟨-, rfl⟩ := tick_eq_some h
      refine ⟨fun started total heq => ?_, hlocked.first, hlocked.sleeping⟩
      obtain ⟨hlock, hstarted⟩ := hlocked.pruning started total heq
      exact ⟨hlock, hstarted.trans (Int.le_add_of_nonneg_right (Int.natCast_nonneg _))⟩
  | insert row =>
      obtain ⟨-, table, -, rfl⟩ := insert_event_eq_some h
      exact ⟨hlocked.pruning, hlocked.first, hlocked.sleeping⟩
  | iterate =>
      obtain ⟨hphase, ⟨-, rfl⟩ | ⟨hlock, rfl⟩⟩ := iterate_eq_some h
      · refine ⟨fun started total heq => ?_, fun _ heq => (nomatch heq),
          fun _ _ _ heq => nomatch heq⟩
        obtain ⟨rfl, -⟩ := Phase.pruning.inj heq
        exact ⟨rfl, le_refl _⟩
      · refine ⟨fun _ _ heq => (nomatch heq), fun _ _ hlast => (nomatch hlast),
          fun wake start ended heq hlast => ?_⟩
        obtain rfl := Phase.sleeping.inj heq
        obtain ⟨rfl, rfl⟩ := Prod.mk.inj (Option.some.inj hlast)
        refine ⟨le_refl _, rfl, .inr ?_⟩
        -- the lock that is in the way is the last prune's, which began an interval ago or more
        cases hbefore : s.last with
        | none =>
            rw [Loop.lockFree, hlocked.first _ hphase hbefore] at hlock
            cases hlock
        | some last =>
            obtain ⟨start, ended⟩ := last
            obtain ⟨hle, hwake, hlock' | ⟨expires, hlock', hexpires⟩⟩ :=
              hlocked.sleeping _ start ended hphase hbefore
            · refine ⟨_, hlock', ?_⟩
              rw [hwake]
              exact expires_le hle
            · rw [lockFree_of_le hlock' hexpires] at hlock
              cases hlock
  | chunk ids =>
      obtain ⟨started, total, hphase, -, hnow, hlock, hcase⟩ := chunk_event_eq_some h
      obtain ⟨hheld, hstarted⟩ := hlocked.pruning started total hphase
      rcases hcase with ⟨-, total', hphase'⟩ | ⟨hlast, hphase', -⟩
      · refine ⟨fun started' total'' heq => ?_, fun wake heq => ?_, fun wake _ _ heq => ?_⟩
        · rw [hphase'] at heq
          obtain ⟨rfl, -⟩ := Phase.pruning.inj heq
          rw [hlock, hnow]
          exact ⟨hheld, hstarted⟩
        · rw [hphase'] at heq
          cases heq
        · rw [hphase'] at heq
          cases heq
      · refine ⟨fun _ _ heq => ?_, fun _ _ hnone => ?_, fun wake start ended heq hsome => ?_⟩
        · rw [hphase'] at heq
          cases heq
        · rw [hlast] at hnone
          cases hnone
        · rw [hphase'] at heq
          rw [hlast] at hsome
          obtain rfl := Phase.sleeping.inj heq
          obtain ⟨rfl, rfl⟩ := Prod.mk.inj (Option.some.inj hsome)
          exact ⟨hstarted, rfl, .inl (hlock.trans hheld)⟩

theorem expired_iff (start ended : Int) :
    ended + interval_seconds < start + lock_ttl ↔ ended - start < interval_seconds := by
  simp only [lock_ttl, interval_seconds, SECOND]
  omega

-- The cadence the lock really gives: an iteration is skipped when the one before it pruned, and
-- took less than an interval for it.
theorem skipped_iff (retention : Int) (now : Instant) (table : Table) {events : List Event}
    (hrun : exec (prune_loop retention) (.start now none table) events = some s)
    (hwake : s.phase = .sleeping s.now) {start ended : Instant} (hlast : s.last = some (start, ended)) :
    s.lockFree = false ↔ s.lock = some (start + lock_ttl) ∧ ended - start < interval_seconds := by
  have hlocked : Locked s := exec_invariant (fun _ _ _ => locked_step) (locked_start now table) hrun
  obtain ⟨-, hnow, hlock | ⟨expires, hlock, hexpires⟩⟩ := hlocked.sleeping _ start ended hwake hlast
  · rw [not_lockFree hlock, hlock, hnow]
    simp only [true_and]
    exact expired_iff start ended
  · rw [lockFree_of_le hlock hexpires]
    constructor
    · intro h
      cases h
    · rintro ⟨hother, hshort⟩
      rw [hlock] at hother
      obtain rfl := Option.some.inj hother
      rw [hnow] at hexpires
      exact absurd ((expired_iff start ended).mpr hshort) (not_lt.mpr hexpires)

-- One row, which is 800 seconds short of a day old when the loop starts.
def agingTable : Table where
  rows := [(1, reading (800 * SECOND))]
  ids := by decide

def day : Int := 24 * 3600 * SECOND

-- The loop starts a day after the epoch of these rows.
def agingStart : Loop := .start day none agingTable

-- An iteration that deletes nothing, and takes no time.
def firstIteration : List Event := [.tick 300000000, .iterate, .chunk []]

theorem prune_loop_retains_first : ∃ t, exec (prune_loop day) agingStart firstIteration = some t ∧
    t.last.isSome = true ∧ Retained day t ∧ Bounded day t := by
  refine exec_exists (P := fun t => t.last.isSome = true) (by decide +kernel) fun t hrun hlast => ?_
  have hprunes : Along (prune_loop day) (Prunes day) agingStart firstIteration := by
    refine ⟨fun h => (nomatch h), fun t ht => ⟨fun _ => .inl ?_, fun u _ => ⟨fun h => (nomatch h), ?_⟩⟩⟩
    · rw [(tick_eq_some ht).2]
      rfl
    · exact fun _ _ => trivial
  exact ⟨hlast, (prune_loop_retains_iff day day none agingTable hrun).2 hprunes⟩

-- The next one finds the key of the first, and the row stays although it has expired.
theorem skipped_iteration_keeps_expired : ∃ t,
    exec (prune_loop day) agingStart (firstIteration ++ [.tick 1800000000, .iterate]) = some t ∧
    ¬ Retained day t := by
  refine exec_exists (P := fun t => t.last = some (day + 2100 * SECOND, day + 2100 * SECOND) ∧
    t.table.rows = agingTable.rows) (by decide +kernel) fun t _ hfinal hretained => ?_
  obtain ⟨hlast, hrows⟩ := hfinal
  have hrow : (1, reading (800 * SECOND)) ∈ t.table.rows := by
    rw [hrows]
    exact List.mem_singleton_self _
  have hlimit := hretained _ _ hlast _ hrow
  revert hlimit
  decide

end Runs

end FleetOps.Telemetry.Retention
