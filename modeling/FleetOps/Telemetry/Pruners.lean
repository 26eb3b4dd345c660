import Mathlib.Data.Finset.Max
import Mathlib.Algebra.Order.Group.Int
import FleetOps.Telemetry.PruneLoop

namespace FleetOps.Telemetry.PruneLoops

open Retention (Row Table limit_date lock_ttl SECOND)
open Runs

-- What `prune_loop` is started with in each of the processes.
structure Loops (ω : Type*) where
  use_redis_lock : ω → Bool
  initial_delay_seconds : ω → Int
  interval_seconds : ω → Int

-- `asyncio.sleep(3600)` after an exception
def retry_seconds : Int := 3600 * SECOND

inductive Phase where
  | sleeping (wake : Int)
  -- inside `prune_old_telemetry`
  | pruning (started : Int) (total_deleted : Nat)
  | stopped

-- What comes of a SET NX EX: it may have gone through where the client is told otherwise.
inductive Reply where
  | answered
  | unheard
  | unreached

-- The processes around one Redis and one table. When passes have started, and which of them are
-- through, is remembered.
structure Pruners (ω : Type*) where
  now : Int
  lock : Option Int
  table : Table
  phase : ω → Phase
  started : List Int
  finished : List Int

inductive Event (ω : Type*) where
  | tick (microseconds : Nat)
  -- a loop wakes
  | iterate (w : ω) (reply : Reply)
  | chunk (w : ω) (ids : List Nat)
  -- a transaction raises
  | fail (w : ω)
  -- the process is gone, and another one in its place
  | stop (w : ω)
  | restart (w : ω)
  -- Redis loses the key
  | forget
  -- another session inserts a reading
  | insert (row : Row)

section Model

variable {ω : Type*} [DecidableEq ω] (loops : Loops ω) (retention : Int)

def Pruners.start (now : Int) (lock : Option Int) (table : Table) : Pruners ω :=
  ⟨now, lock, table, fun w => .sleeping (now + loops.initial_delay_seconds w), [], []⟩

def Pruners.to (s : Pruners ω) (w : ω) (phase : Phase) : Pruners ω :=
  { s with phase := Function.update s.phase w phase }

-- A pass counts from its SET: the reply's way back is left out.
def Pruners.prune (s : Pruners ω) (w : ω) : Pruners ω :=
  { s.to w (.pruning s.now 0) with started := s.started ++ [s.now] }

def Pruners.lockFree (s : Pruners ω) : Bool := s.lock.all fun expires => decide (expires ≤ s.now)

-- SET NX EX
def Pruners.set (s : Pruners ω) : Pruners ω :=
  if s.lockFree then { s with lock := some (s.now + lock_ttl) } else s

def Pruners.iterate (s : Pruners ω) (w : ω) (reply : Reply) : Pruners ω :=
  if loops.use_redis_lock w then
    match reply with
    | .answered =>
        if s.lockFree then s.set.prune w else s.to w (.sleeping (s.now + loops.interval_seconds w))
    | .unheard => s.set.to w (.sleeping (s.now + retry_seconds))
    | .unreached => s.to w (.sleeping (s.now + retry_seconds))
  else s.prune w

-- One transaction of a pass, and after the last one the sleep.
def Pruners.chunk (s : Pruners ω) (w : ω) (pass : Int) (total_deleted : Nat) (ids : List Nat) :
    Option (Pruners ω) :=
  (Retention.step (limit_date retention pass) ⟨s.table, total_deleted, none⟩ (.chunk ids)).map fun call =>
    match call.returned with
    | some _ => { s.to w (.sleeping (s.now + loops.interval_seconds w)) with
        table := call.table
        finished := s.finished ++ [pass] }
    | none => { s.to w (.pruning pass call.total_deleted) with table := call.table }

def prune_loops (s : Pruners ω) : Event ω → Option (Pruners ω)
  | .tick microseconds => some { s with now := s.now + microseconds }
  | .iterate w reply =>
      match s.phase w with
      | .sleeping wake => if wake ≤ s.now then some (s.iterate loops w reply) else none
      | .pruning _ _ | .stopped => none
  | .chunk w ids =>
      match s.phase w with
      | .pruning pass total_deleted => s.chunk loops retention w pass total_deleted ids
      | .sleeping _ | .stopped => none
  | .fail w =>
      match s.phase w with
      | .pruning _ _ => some (s.to w (.sleeping (s.now + retry_seconds)))
      | .sleeping _ | .stopped => none
  | .stop w => some (s.to w .stopped)
  | .restart w =>
      match s.phase w with
      | .stopped => some (s.to w (.sleeping (s.now + loops.initial_delay_seconds w)))
      | .sleeping _ | .pruning _ _ => none
  | .forget => some { s with lock := none }
  | .insert row => (s.table.insert row).map fun table => { s with table }

end Model

section Steps

variable {ω : Type*} {s t : Pruners ω}

theorem lockFree_iff : s.lockFree = true ↔ ∀ expires, s.lock = some expires → expires ≤ s.now := by
  cases hlock : s.lock with
  | none => simp [Pruners.lockFree, hlock]
  | some expires => simp [Pruners.lockFree, hlock]

variable [DecidableEq ω] {loops : Loops ω} {retention : Int}

theorem iterate_eq_some {w : ω} {reply : Reply}
    (h : prune_loops loops retention s (.iterate w reply) = some t) :
    ∃ wake, s.phase w = .sleeping wake ∧ wake ≤ s.now ∧ t = s.iterate loops w reply := by
  simp only [prune_loops] at h
  split at h
  · rename_i wake hphase
    split at h
    · rename_i hwake
      exact ⟨wake, hphase, hwake, (Option.some.inj h).symm⟩
    · cases h
  all_goals cases h

-- Which of its ways an iteration goes.
theorem iterate_cases (s : Pruners ω) (w : ω) (reply : Reply) :
    (loops.use_redis_lock w = false ∧ s.iterate loops w reply = s.prune w) ∨
    (loops.use_redis_lock w = true ∧ s.lockFree = true ∧ s.iterate loops w reply =
      { s.prune w with lock := some (s.now + lock_ttl) }) ∨
    (s.lockFree = false ∧ s.iterate loops w reply =
      s.to w (.sleeping (s.now + loops.interval_seconds w))) ∨
    (reply ≠ .answered ∧ (s.iterate loops w reply = s.to w (.sleeping (s.now + retry_seconds)) ∨
      s.iterate loops w reply = s.set.to w (.sleeping (s.now + retry_seconds)))) := by
  cases hlock : loops.use_redis_lock w with
  | false => exact .inl ⟨rfl, by simp [Pruners.iterate, hlock]⟩
  | true =>
      simp only [Pruners.iterate, hlock, if_true]
      cases reply with
      | answered =>
          cases hfree : s.lockFree with
          | false => exact .inr (.inr (.inl ⟨rfl, rfl⟩))
          | true =>
              refine .inr (.inl ⟨trivial, rfl, ?_⟩)
              simp only [if_true, Pruners.set, hfree]
              rfl
      | unheard => exact .inr (.inr (.inr ⟨by simp, .inr rfl⟩))
      | unreached => exact .inr (.inr (.inr ⟨by simp, .inl rfl⟩))

-- A transaction goes on with its pass, or ends it with no row left that had expired for it.
theorem chunk_eq_some {w : ω} {ids : List Nat}
    (h : prune_loops loops retention s (.chunk w ids) = some t) :
    ∃ pass total, s.phase w = .pruning pass total ∧
      (∀ row ∈ t.table.rows, row ∈ s.table.rows) ∧
      ((∃ total', t = { s.to w (.pruning pass total') with table := t.table }) ∨
        t = { s.to w (.sleeping (s.now + loops.interval_seconds w)) with
            table := t.table
            finished := s.finished ++ [pass] } ∧
          ∀ row ∈ t.table.rows, limit_date retention pass ≤ row.2.timestamp) := by
  simp only [prune_loops] at h
  split at h
  · rename_i pass total hphase
    obtain ⟨call, hcall, hcont⟩ := Option.map_eq_some_iff.mp h
    obtain ⟨-, -, htable, -, -⟩ := Retention.chunk_eq_some hcall
    have hrows : ∀ row ∈ call.table.rows, row ∈ s.table.rows := by
      intro row hrow
      rw [htable] at hrow
      exact List.mem_of_mem_filter hrow
    refine ⟨pass, total, hphase, ?_⟩
    cases hreturned : call.returned with
    | none =>
        rw [hreturned] at hcont
        subst hcont
        exact ⟨hrows, .inl ⟨_, rfl⟩⟩
    | some count =>
        rw [hreturned] at hcont
        subst hcont
        exact ⟨hrows, .inr ⟨rfl, (Retention.returns_step hcall count hreturned).2⟩⟩
  all_goals cases h

theorem fail_eq_some {w : ω} (h : prune_loops loops retention s (.fail w) = some t) :
    t = s.to w (.sleeping (s.now + retry_seconds)) := by
  simp only [prune_loops] at h
  split at h
  · exact (Option.some.inj h).symm
  all_goals cases h

theorem restart_eq_some {w : ω} (h : prune_loops loops retention s (.restart w) = some t) :
    s.phase w = .stopped ∧ t = s.to w (.sleeping (s.now + loops.initial_delay_seconds w)) := by
  simp only [prune_loops] at h
  split at h
  · rename_i hphase
    exact ⟨hphase, (Option.some.inj h).symm⟩
  all_goals cases h

theorem insert_eq_some {row : Row} (h : prune_loops loops retention s (.insert row) = some t) :
    ∃ table, table.rows = s.table.rows ++ [row] ∧ t = { s with table } := by
  obtain ⟨table, htable, rfl⟩ := Option.map_eq_some_iff.mp h
  exact ⟨table, Retention.Table.insert_eq_some htable, rfl⟩

end Steps

section Spaced

variable {ω : Type*} {s t : Pruners ω}

-- The key outlives every pass that has started less than its time to live ago.
structure Guarded (s : Pruners ω) : Prop where
  lock : ∀ pass ∈ s.started, s.now < pass + lock_ttl → ∃ expires, s.lock = some expires ∧
    pass + lock_ttl ≤ expires
  spaced : s.started.Pairwise fun a b => a + lock_ttl ≤ b

theorem Guarded.of_lock (h : Guarded s) (hnow : s.now ≤ t.now) (hlock : t.lock = s.lock)
    (hstarted : t.started = s.started) : Guarded t where
  lock := by
    intro pass hpass hlate
    rw [hstarted] at hpass
    rw [hlock]
    exact h.lock pass hpass (hnow.trans_lt hlate)
  spaced := hstarted ▸ h.spaced

-- With the key free, all of them are so long ago.
theorem Guarded.before (h : Guarded s) (hfree : s.lockFree = true) {pass : Int}
    (hpass : pass ∈ s.started) : pass + lock_ttl ≤ s.now := by
  by_contra hlate
  obtain ⟨expires, hlock, hexpires⟩ := h.lock pass hpass (not_le.mp hlate)
  have hnow := lockFree_iff.mp hfree expires hlock
  omega

theorem Guarded.set (h : Guarded s) : Guarded s.set := by
  rw [Pruners.set]
  split
  · rename_i hfree
    refine ⟨fun pass hpass hlate => ?_, h.spaced⟩
    have hbefore := h.before hfree hpass
    have hnow : s.now < pass + lock_ttl := hlate
    omega
  · exact h

variable [DecidableEq ω] {loops : Loops ω} {retention : Int}

theorem Guarded.step {e : Event ω} (h : Guarded s) (hlocks : ∀ w, loops.use_redis_lock w = true)
    (hkept : e ≠ .forget) (hstep : prune_loops loops retention s e = some t) : Guarded t := by
  cases e with
  | tick n =>
      cases hstep
      exact h.of_lock (Int.le_add_of_nonneg_right (Int.natCast_nonneg n)) rfl rfl
  | iterate w reply =>
      obtain ⟨wake, -, -, rfl⟩ := iterate_eq_some hstep
      rcases iterate_cases s w reply with
        ⟨hlock, -⟩ | ⟨-, hfree, heq⟩ | ⟨-, heq⟩ | ⟨-, heq | heq⟩
      · rw [hlocks w] at hlock
        cases hlock
      · rw [heq]
        refine ⟨fun pass hpass hlate => ⟨_, rfl, ?_⟩, ?_⟩
        · rcases List.mem_append.mp hpass with hpass | hpass
          · have hbefore := h.before hfree hpass
            have hnow : s.now < pass + lock_ttl := hlate
            omega
          · rw [List.mem_singleton.mp hpass]
        · refine List.pairwise_append.mpr ⟨h.spaced, List.pairwise_singleton _ _, fun a ha b hb => ?_⟩
          rw [List.mem_singleton.mp hb]
          exact h.before hfree ha
      · rw [heq]
        exact h.of_lock le_rfl rfl rfl
      · rw [heq]
        exact h.of_lock le_rfl rfl rfl
      · rw [heq]
        exact h.set.of_lock le_rfl rfl rfl
  | chunk w ids =>
      obtain ⟨pass, total, -, -, ⟨total', heq⟩ | ⟨heq, -⟩⟩ := chunk_eq_some hstep <;>
      · rw [heq]
        exact h.of_lock le_rfl rfl rfl
  | fail w =>
      obtain rfl := fail_eq_some hstep
      exact h.of_lock le_rfl rfl rfl
  | stop w =>
      cases hstep
      exact h.of_lock le_rfl rfl rfl
  | restart w =>
      obtain ⟨-, rfl⟩ := restart_eq_some hstep
      exact h.of_lock le_rfl rfl rfl
  | forget => exact absurd rfl hkept
  | insert row =>
      obtain ⟨table, -, rfl⟩ := insert_eq_some hstep
      exact h.of_lock le_rfl rfl rfl

-- Passes of processes that use the lock start an hour apart or more, whichever processes they are
-- and whatever happens to them, to Redis and to the database, as long as Redis keeps the key. The
-- lock is not given back, so this is its time to live and no matter of how long a pass takes.
theorem passes_spaced (hlocks : ∀ w, loops.use_redis_lock w = true) {now : Int} {lock : Option Int}
    {table : Table} {events : List (Event ω)} (hkept : .forget ∉ events)
    (hrun : exec (prune_loops loops retention) (.start loops now lock table) events = some t) :
    t.started.Pairwise fun a b => a + lock_ttl ≤ b := by
  have hstart : Guarded (Pruners.start loops now lock table) :=
    ⟨fun pass hpass => absurd hpass List.not_mem_nil, .nil⟩
  have halong : Along (prune_loops loops retention) (fun _ e => e ≠ .forget)
      (.start loops now lock table) events := by
    refine along_of_forall ?_ _
    rintro _ e he rfl
    exact hkept he
  exact (exec_along_invariant (fun _ _ _ hc hi h => hi.step hlocks hc h) halong hstart hrun).spaced

end Spaced

section Covered

variable {ω : Type*} (loops : Loops ω) (retention : Int) (p : ω) (longest begun : Int)

-- Process `p` stays, wakes when it should and finds Redis; no pass fails, is cut off or takes more
-- than `longest`; and no reading has expired when it is inserted.
structure Healthy (s : Pruners ω) (e : Event ω) : Prop where
  punctual : ∀ n, e = .tick n → (∀ wake, s.phase p = .sleeping wake → s.now + n ≤ wake) ∧
    ∀ w pass total, s.phase w = .pruning pass total → s.now + n ≤ pass + longest
  answered : ∀ w reply, e = .iterate w reply → reply = .answered
  unfailing : ∀ w, e ≠ .fail w
  alive : ∀ w, e = .stop w → w ≠ p ∧ ∀ pass total, s.phase w ≠ .pruning pass total
  fresh : ∀ row, e = .insert row → limit_date retention s.now ≤ row.2.timestamp

-- When the newest pass started.
def newest (s : Pruners ω) : Int := s.started.getLast?.getD begun

-- The next one starts within this time, and `p` sees to it.
def cadence : Int := lock_ttl + loops.interval_seconds p + longest

structure Covered (s : Pruners ω) : Prop where
  newest : newest begun s ≤ s.now ∧ begun ≤ newest begun s ∧ ∀ pass ∈ s.started, pass ≤ newest begun s
  lock : ∀ expires, s.lock = some expires → expires ≤ PruneLoops.newest begun s + lock_ttl
  awake : s.phase p ≠ .stopped ∧ ∀ wake, s.phase p = .sleeping wake →
    s.now ≤ wake ∧ wake ≤ PruneLoops.newest begun s + cadence loops p longest
  running : ∀ w pass total, s.phase w = .pruning pass total →
    pass ∈ s.started ∧ s.now ≤ pass + longest
  started : ∀ pass ∈ s.started, pass ∈ s.finished ∨ ∃ w total, s.phase w = .pruning pass total
  gaps : ∀ pass, pass = begun ∨ pass ∈ s.started → PruneLoops.newest begun s ≤ pass ∨
    ∃ next ∈ s.started, pass < next ∧ next ≤ pass + cadence loops p longest
  finished : ∀ pass ∈ s.finished, pass ∈ s.started ∧
    ∀ row ∈ s.table.rows, limit_date retention pass ≤ row.2.timestamp

variable {loops retention p longest begun} {s t : Pruners ω}

-- Before `p` is late, a pass has started.
theorem Covered.now_le (h : Covered loops retention p longest begun s)
    (hinterval : 0 ≤ loops.interval_seconds p) :
    s.now ≤ PruneLoops.newest begun s + cadence loops p longest := by
  have httl : 0 ≤ lock_ttl := by decide
  cases hphase : s.phase p with
  | stopped => exact absurd hphase h.awake.1
  | sleeping wake =>
      obtain ⟨hnow, hwake⟩ := h.awake.2 wake hphase
      exact hnow.trans hwake
  | pruning pass total =>
      obtain ⟨hpass, hnow⟩ := h.running p pass total hphase
      have hnewest := h.newest.2.2 pass hpass
      rw [cadence]
      omega

-- Of passes that are through, one is the newest.
theorem exists_newest {passes : List Int} (h : passes ≠ []) :
    ∃ pass ∈ passes, ∀ other ∈ passes, other ≤ pass := by
  have hne : passes.toFinset.Nonempty := ⟨_, List.mem_toFinset.mpr (List.head_mem h)⟩
  obtain ⟨pass, hpass, hle⟩ := passes.toFinset.exists_max_image id hne
  exact ⟨pass, List.mem_toFinset.mp hpass, fun other hother => hle other (List.mem_toFinset.mpr hother)⟩

-- A pass and the next one: where the next is not through, it has not been running for long.
theorem Covered.since (h : Covered loops retention p longest begun s)
    (hinterval : 0 ≤ loops.interval_seconds p) (hlongest : 0 ≤ longest) {pass : Int}
    (hpass : pass = begun ∨ pass ∈ s.started) (hlast : ∀ other ∈ s.finished, other ≤ pass) :
    s.now ≤ pass + (cadence loops p longest + longest) := by
  rcases h.gaps pass hpass with hnewest | ⟨next, hnext, hless, hle⟩
  · have hnow := h.now_le hinterval
    omega
  · rcases h.started next hnext with hdone | ⟨w, total, hphase⟩
    · exact absurd (hlast next hdone) (not_le.mpr hless)
    · have hrunning := (h.running w next total hphase).2
      omega

theorem covered_start {now : Int} {lock : Option Int} {table : Table}
    (hlock : ∀ expires, lock = some expires → expires ≤ now + lock_ttl) (hlongest : 0 ≤ longest)
    (hdelay : 0 ≤ loops.initial_delay_seconds p)
    (hfirst : loops.initial_delay_seconds p ≤ lock_ttl + loops.interval_seconds p) :
    Covered loops retention p longest now (.start loops now lock table) where
  newest := ⟨le_rfl, le_rfl, fun pass hpass => absurd hpass List.not_mem_nil⟩
  lock := hlock
  awake := by
    refine ⟨fun h => (by cases h), fun wake h => ?_⟩
    obtain rfl := Phase.sleeping.inj h
    show now ≤ now + loops.initial_delay_seconds p ∧ now + loops.initial_delay_seconds p ≤ now + _
    rw [cadence]
    omega
  running := fun w pass total h => by cases h
  started := fun pass hpass => absurd hpass List.not_mem_nil
  gaps := by
    rintro pass (rfl | hpass)
    · exact .inl le_rfl
    · exact absurd hpass List.not_mem_nil
  finished := fun pass hpass => absurd hpass List.not_mem_nil

theorem Covered.tick (h : Covered loops retention p longest begun s) {n : Nat}
    (hhealthy : Healthy retention p longest s (.tick n)) :
    Covered loops retention p longest begun { s with now := s.now + n } where
  newest := by
    have hlater : s.now ≤ s.now + n := Int.le_add_of_nonneg_right (Int.natCast_nonneg n)
    exact ⟨h.newest.1.trans hlater, h.newest.2⟩
  lock := h.lock
  awake := ⟨h.awake.1, fun wake hwake =>
    ⟨(hhealthy.punctual n rfl).1 wake hwake, (h.awake.2 wake hwake).2⟩⟩
  running := fun w pass total hphase =>
    ⟨(h.running w pass total hphase).1, (hhealthy.punctual n rfl).2 w pass total hphase⟩
  started := h.started
  gaps := h.gaps
  finished := h.finished

variable [DecidableEq ω]

theorem newest_prune (s : Pruners ω) (w : ω) : PruneLoops.newest begun (s.prune w) = s.now := by
  simp [PruneLoops.newest, Pruners.prune]

-- A process that neither starts nor leaves a pass changes nothing, as long as `p` wakes in time.
theorem Covered.to_sleeping (h : Covered loops retention p longest begun s) {w : ω} {wake : Int}
    (hidle : ∀ pass total, s.phase w ≠ .pruning pass total) {phase : Phase}
    (hphase : phase = .sleeping wake ∨ phase = .stopped ∧ w ≠ p)
    (hwake : w = p → s.now ≤ wake ∧ wake ≤ PruneLoops.newest begun s + cadence loops p longest) :
    Covered loops retention p longest begun (s.to w phase) where
  newest := h.newest
  lock := h.lock
  awake := by
    simp only [Pruners.to]
    by_cases hp : p = w
    · subst hp
      rw [Function.update_self]
      rcases hphase with rfl | ⟨-, hne⟩
      · refine ⟨by simp, fun wake' heq => ?_⟩
        obtain rfl := Phase.sleeping.inj heq
        exact hwake rfl
      · exact absurd rfl hne
    · rw [Function.update_of_ne hp]
      exact h.awake
  running := by
    intro v pass total heq
    simp only [Pruners.to] at heq
    by_cases hv : v = w
    · subst hv
      rw [Function.update_self] at heq
      rcases hphase with rfl | ⟨rfl, -⟩ <;> cases heq
    · rw [Function.update_of_ne hv] at heq
      exact h.running v pass total heq
  started := by
    intro pass hpass
    rcases h.started pass hpass with hdone | ⟨v, total, hv⟩
    · exact .inl hdone
    · refine .inr ⟨v, total, ?_⟩
      have hne : v ≠ w := fun heq => hidle pass total (heq ▸ hv)
      simp only [Pruners.to, Function.update_of_ne hne]
      exact hv
  gaps := h.gaps
  finished := h.finished

theorem Covered.prune (h : Covered loops retention p longest begun s) {w : ω} {wake : Int}
    (hinterval : 0 ≤ loops.interval_seconds p) (hlongest : 0 ≤ longest) (hphase : s.phase w = .sleeping wake)
    {lock : Option Int} (hlock : ∀ expires, lock = some expires → expires ≤ s.now + lock_ttl) :
    Covered loops retention p longest begun { s.prune w with lock } := by
  have hlate := h.now_le hinterval
  have hnow : PruneLoops.newest begun { s.prune w with lock } = s.now := newest_prune s w
  refine ⟨?_, ?_, ?_, ?_, ?_, ?_, ?_⟩
  · rw [hnow]
    refine ⟨le_rfl, h.newest.2.1.trans h.newest.1, fun pass hpass => ?_⟩
    rcases List.mem_append.mp hpass with hpass | hpass
    · exact (h.newest.2.2 pass hpass).trans h.newest.1
    · rw [List.mem_singleton.mp hpass]
  · rw [hnow]
    exact hlock
  · rw [hnow]
    show Function.update _ _ _ _ ≠ _ ∧ ∀ wake, Function.update _ _ _ _ = _ → s.now ≤ wake ∧ _
    by_cases hp : p = w
    · subst hp
      rw [Function.update_self]
      exact ⟨by simp, fun _ heq => by cases heq⟩
    · rw [Function.update_of_ne hp]
      refine ⟨h.awake.1, fun wake' hwake' => ?_⟩
      obtain ⟨hbefore, hafter⟩ := h.awake.2 wake' hwake'
      have hnewest := h.newest.1
      exact ⟨hbefore, by omega⟩
  · intro v pass total heq
    have hv' : Function.update s.phase w (.pruning s.now 0) v = .pruning pass total := heq
    show pass ∈ s.started ++ [s.now] ∧ s.now ≤ pass + longest
    by_cases hv : v = w
    · subst hv
      rw [Function.update_self] at hv'
      obtain ⟨rfl, -⟩ := Phase.pruning.inj hv'
      exact ⟨by simp, by omega⟩
    · rw [Function.update_of_ne hv] at hv'
      obtain ⟨hmem, hrunning⟩ := h.running v pass total hv'
      exact ⟨List.mem_append_left _ hmem, hrunning⟩
  · intro pass hpass
    show pass ∈ s.finished ∨ ∃ v total, Function.update s.phase w (.pruning s.now 0) v = _
    rcases List.mem_append.mp hpass with hpass | hpass
    · rcases h.started pass hpass with hdone | ⟨v, total, hv⟩
      · exact .inl hdone
      · refine .inr ⟨v, total, ?_⟩
        have hne : v ≠ w := by
          rintro rfl
          rw [hphase] at hv
          cases hv
        rw [Function.update_of_ne hne]
        exact hv
    · rw [List.mem_singleton.mp hpass]
      exact .inr ⟨w, 0, Function.update_self ..⟩
  · rw [hnow]
    intro pass hpass
    show s.now ≤ pass ∨ ∃ next ∈ s.started ++ [s.now], _
    by_cases hlast : s.now ≤ pass
    · exact .inl hlast
    · refine .inr ?_
      have hold : pass = begun ∨ pass ∈ s.started := by
        rcases hpass with hpass | hpass
        · exact .inl hpass
        · rcases List.mem_append.mp hpass with hpass | hpass
          · exact .inr hpass
          · rw [List.mem_singleton.mp hpass] at hlast
            exact absurd le_rfl hlast
      rcases h.gaps pass hold with hnewest | ⟨next, hnext, hless, hle⟩
      · exact ⟨s.now, by simp, not_le.mp hlast, by omega⟩
      · exact ⟨next, List.mem_append_left _ hnext, hless, hle⟩
  · intro pass hpass
    obtain ⟨hmem, hrows⟩ := h.finished pass hpass
    exact ⟨List.mem_append_left _ hmem, hrows⟩

-- A transaction of a pass that goes on.
theorem Covered.delete (h : Covered loops retention p longest begun s) {w : ω} {pass : Int}
    {total total' : Nat} (hphase : s.phase w = .pruning pass total) {table : Table}
    (hrows : ∀ row ∈ table.rows, row ∈ s.table.rows) :
    Covered loops retention p longest begun { s.to w (.pruning pass total') with table } where
  newest := h.newest
  lock := h.lock
  awake := by
    show Function.update _ _ _ _ ≠ _ ∧ ∀ wake, Function.update _ _ _ _ = _ → _
    by_cases hp : p = w
    · subst hp
      rw [Function.update_self]
      exact ⟨by simp, fun _ heq => by cases heq⟩
    · rw [Function.update_of_ne hp]
      exact h.awake
  running := by
    intro v pass' total'' heq
    have hv' : Function.update s.phase w (.pruning pass total') v = .pruning pass' total'' := heq
    by_cases hv : v = w
    · subst hv
      rw [Function.update_self] at hv'
      obtain ⟨rfl, -⟩ := Phase.pruning.inj hv'
      exact h.running v pass total hphase
    · rw [Function.update_of_ne hv] at hv'
      exact h.running v pass' total'' hv'
  started := by
    intro pass' hpass
    show pass' ∈ s.finished ∨ ∃ v total, Function.update s.phase w (.pruning pass total') v = _
    rcases h.started pass' hpass with hdone | ⟨v, total'', hv⟩
    · exact .inl hdone
    · refine .inr ?_
      by_cases hne : v = w
      · subst hne
        obtain ⟨rfl, -⟩ := Phase.pruning.inj (hphase.symm.trans hv)
        exact ⟨v, total', Function.update_self ..⟩
      · exact ⟨v, total'', by rw [Function.update_of_ne hne, hv]⟩
  gaps := h.gaps
  finished := by
    intro pass' hpass
    obtain ⟨hmem, hkept⟩ := h.finished pass' hpass
    exact ⟨hmem, fun row hrow => hkept row (hrows row hrow)⟩

-- The last transaction of a pass.
theorem Covered.finish (h : Covered loops retention p longest begun s) {w : ω} {pass : Int} {total : Nat}
    (hinterval : 0 ≤ loops.interval_seconds p) (hphase : s.phase w = .pruning pass total) {table : Table}
    (hrows : ∀ row ∈ table.rows, row ∈ s.table.rows)
    (hpruned : ∀ row ∈ table.rows, limit_date retention pass ≤ row.2.timestamp) :
    Covered loops retention p longest begun
      { s.to w (.sleeping (s.now + loops.interval_seconds w)) with
        table
        finished := s.finished ++ [pass] } where
  newest := h.newest
  lock := h.lock
  awake := by
    show Function.update _ _ _ _ ≠ _ ∧ ∀ wake, Function.update _ _ _ _ = _ → s.now ≤ wake ∧ wake ≤
      PruneLoops.newest begun s + _
    by_cases hp : p = w
    · subst hp
      rw [Function.update_self]
      refine ⟨by simp, fun wake heq => ?_⟩
      obtain rfl := Phase.sleeping.inj heq
      obtain ⟨hmem, hrunning⟩ := h.running p pass total hphase
      have hnewest := h.newest.2.2 pass hmem
      have httl : 0 ≤ lock_ttl := by decide
      rw [cadence]
      omega
    · rw [Function.update_of_ne hp]
      exact h.awake
  running := by
    intro v pass' total' heq
    have hv' : Function.update s.phase w (.sleeping (s.now + loops.interval_seconds w)) v =
        .pruning pass' total' := heq
    by_cases hv : v = w
    · subst hv
      rw [Function.update_self] at hv'
      cases hv'
    · rw [Function.update_of_ne hv] at hv'
      exact h.running v pass' total' hv'
  started := by
    intro pass' hpass
    show pass' ∈ s.finished ++ [pass] ∨ ∃ v total, Function.update s.phase w _ v = _
    rcases h.started pass' hpass with hdone | ⟨v, total', hv⟩
    · exact .inl (List.mem_append_left _ hdone)
    · by_cases hne : v = w
      · subst hne
        obtain ⟨rfl, -⟩ := Phase.pruning.inj (hphase.symm.trans hv)
        exact .inl (by simp)
      · exact .inr ⟨v, total', by rw [Function.update_of_ne hne, hv]⟩
  gaps := h.gaps
  finished := by
    intro pass' hpass
    rcases List.mem_append.mp hpass with hpass | hpass
    · obtain ⟨hmem, hkept⟩ := h.finished pass' hpass
      exact ⟨hmem, fun row hrow => hkept row (hrows row hrow)⟩
    · rw [List.mem_singleton.mp hpass]
      exact ⟨(h.running w pass total hphase).1, hpruned⟩

theorem Covered.iterate (h : Covered loops retention p longest begun s) {w : ω} {wake : Int}
    (hinterval : 0 ≤ loops.interval_seconds p) (hlongest : 0 ≤ longest)
    (hphase : s.phase w = .sleeping wake) :
    Covered loops retention p longest begun (s.iterate loops w .answered) := by
  have hidle : ∀ pass total, s.phase w ≠ .pruning pass total := fun pass total heq => by
    rw [hphase] at heq
    cases heq
  rcases iterate_cases s w .answered with ⟨-, heq⟩ | ⟨-, -, heq⟩ | ⟨hheld, heq⟩ | ⟨hne, -⟩
  · rw [heq]
    refine h.prune hinterval hlongest hphase fun expires hlock => ?_
    have hexpires := h.lock expires hlock
    have hnewest := h.newest.1
    omega
  · rw [heq]
    refine h.prune hinterval hlongest hphase fun expires hlock => ?_
    exact (Option.some.inj hlock).ge
  · rw [heq]
    refine h.to_sleeping hidle (.inl rfl) ?_
    rintro rfl
    -- the key that is in the way is the newest pass's, or an older one
    obtain ⟨expires, hlock, hexpires⟩ : ∃ expires, s.lock = some expires ∧ s.now < expires := by
      by_contra hfree
      refine Bool.false_ne_true (hheld.symm.trans (lockFree_iff.mpr fun expires hlock => ?_))
      exact not_lt.mp fun hlate => hfree ⟨expires, hlock, hlate⟩
    have hbound := h.lock expires hlock
    rw [cadence]
    omega
  · exact absurd rfl hne

theorem Covered.step {e : Event ω} (h : Covered loops retention p longest begun s)
    (hinterval : 0 ≤ loops.interval_seconds p) (hlongest : 0 ≤ longest)
    (hhealthy : Healthy retention p longest s e) (hstep : prune_loops loops retention s e = some t) :
    Covered loops retention p longest begun t := by
  cases e with
  | tick n =>
      cases hstep
      exact h.tick hhealthy
  | iterate w reply =>
      obtain rfl := hhealthy.answered w reply rfl
      obtain ⟨wake, hphase, -, rfl⟩ := iterate_eq_some hstep
      exact h.iterate hinterval hlongest hphase
  | chunk w ids =>
      obtain ⟨pass, total, hphase, hrows, ⟨total', heq⟩ | ⟨heq, hpruned⟩⟩ := chunk_eq_some hstep
      · rw [heq]
        exact h.delete hphase hrows
      · rw [heq]
        exact h.finish hinterval hphase hrows hpruned
  | fail w => exact absurd rfl (hhealthy.unfailing w)
  | stop w =>
      cases hstep
      obtain ⟨hne, hidle⟩ := hhealthy.alive w rfl
      have hother : w = p → s.now ≤ s.now ∧ s.now ≤ PruneLoops.newest begun s + cadence loops p longest :=
        fun heq => absurd heq hne
      exact h.to_sleeping hidle (.inr ⟨rfl, hne⟩) hother
  | restart w =>
      obtain ⟨hphase, rfl⟩ := restart_eq_some hstep
      refine h.to_sleeping (fun pass total heq => ?_) (.inl rfl) ?_
      · rw [hphase] at heq
        cases heq
      · rintro rfl
        exact absurd hphase h.awake.1
  | forget =>
      cases hstep
      exact ⟨h.newest, fun _ heq => (by cases heq), h.awake, h.running, h.started, h.gaps, h.finished⟩
  | insert row =>
      obtain ⟨table, htable, rfl⟩ := insert_eq_some hstep
      refine ⟨h.newest, h.lock, h.awake, h.running, h.started, h.gaps, fun pass hpass => ?_⟩
      obtain ⟨hmem, hkept⟩ := h.finished pass hpass
      refine ⟨hmem, fun other hother => ?_⟩
      rw [htable] at hother
      rcases List.mem_append.mp hother with hother | hother
      · exact hkept other hother
      · rw [List.mem_singleton.mp hother]
        have hpast : pass ≤ s.now := (h.newest.2.2 pass hmem).trans h.newest.1
        exact (Retention.limit_date_mono hpast).trans (hhealthy.fresh row rfl)

-- However many processes prune, start and stop between their passes, and whichever of them gets the
-- key, as long as none fails: once the first passes are due, no row outlives the retention by more
-- than the key's time to live, the interval of a process that keeps going, and twice the longest
-- pass.
theorem rows_pruned {now : Int} {lock : Option Int} {table : Table} {events : List (Event ω)}
    (hinterval : 0 ≤ loops.interval_seconds p) (hlongest : 0 ≤ longest)
    (hdelay : 0 ≤ loops.initial_delay_seconds p)
    (hfirst : loops.initial_delay_seconds p ≤ lock_ttl + loops.interval_seconds p)
    (hlock : ∀ expires, lock = some expires → expires ≤ now + lock_ttl)
    (hhealthy : Along (prune_loops loops retention) (Healthy retention p longest)
      (.start loops now lock table) events)
    (hrun : exec (prune_loops loops retention) (.start loops now lock table) events = some t)
    (hlate : now + (cadence loops p longest + longest) < t.now) :
    ∀ row ∈ t.table.rows, t.now - row.2.timestamp ≤ retention + (cadence loops p longest + longest) := by
  have hcovered : Covered loops retention p longest now t :=
    exec_along_invariant (fun _ _ _ hc hi h => hi.step hinterval hlongest hc h) hhealthy
      (covered_start hlock hlongest hdelay hfirst) hrun
  intro row hrow
  by_cases hnone : t.finished = []
  · have hsince := hcovered.since hinterval hlongest (.inl rfl) fun other hother => by
      rw [hnone] at hother
      exact absurd hother List.not_mem_nil
    omega
  · obtain ⟨pass, hpass, hlast⟩ := exists_newest hnone
    obtain ⟨hmem, hrows⟩ := hcovered.finished pass hpass
    have hsince := hcovered.since hinterval hlongest (.inr hmem) hlast
    have hlimit : pass - retention ≤ row.2.timestamp := hrows row hrow
    have hnow : t.now - row.2.timestamp ≤ retention + (t.now - pass) := by omega
    omega

end Covered

section Runs

open Retention (day agingTable reading)

-- An API process and a worker.
def apiAndWorker : Loops Bool where
  use_redis_lock := fun _ => true
  initial_delay_seconds := fun w => if w then 0 else 300 * SECOND
  interval_seconds := fun w => if w then 86400 * SECOND else 1800 * SECOND

-- The worker prunes at once, before the row has expired; the API process finds its key twice.
def twoPasses : List (Event Bool) :=
  [.iterate true .answered, .chunk true [], .tick 300000000, .iterate false .answered, .tick 1800000000,
    .iterate false .answered, .tick 1800000000, .iterate false .answered, .chunk false [1], .chunk false [],
    .insert (2, reading (day + 3900 * SECOND)), .tick 1800000000]

theorem passes_spaced_twice : ∃ t,
    exec (prune_loops apiAndWorker day) (.start apiAndWorker day none agingTable) twoPasses = some t ∧
    t.started.length = 2 ∧ t.started.Pairwise fun a b => a + lock_ttl ≤ b :=
  exec_exists (P := fun t => t.started.length = 2) (by decide +kernel) fun _ hrun hlength =>
    ⟨hlength, passes_spaced (fun _ => rfl) (by simp [twoPasses]) hrun⟩

theorem healthy_iterate (s : Pruners Bool) (w : Bool) : Healthy day false 0 s (.iterate w .answered) := by
  constructor <;> simp

theorem healthy_chunk (s : Pruners Bool) (w : Bool) (ids : List Nat) :
    Healthy day false 0 s (.chunk w ids) := by
  constructor <;> simp

theorem healthy_insert {s : Pruners Bool} {row : Row} (h : limit_date day s.now ≤ row.2.timestamp) :
    Healthy day false 0 s (.insert row) := by
  constructor <;> simp [h]

theorem healthy_tick {s : Pruners Bool} {n : Nat} {wake other : Int} (hwake : s.phase false = .sleeping wake)
    (hother : s.phase true = .sleeping other) (hnow : s.now + n ≤ wake) :
    Healthy day false 0 s (.tick n) where
  punctual := by
    intro m heq
    obtain rfl := Event.tick.inj heq
    refine ⟨fun wake' hwake' => ?_, fun w pass total hw => ?_⟩
    · obtain rfl := Phase.sleeping.inj (hwake.symm.trans hwake')
      exact hnow
    · cases w with
      | false => cases hwake.symm.trans hw
      | true => cases hother.symm.trans hw
  answered := by simp
  unfailing := by simp
  alive := by simp
  fresh := by simp

theorem twoPasses_healthy : Along (prune_loops apiAndWorker day) (Healthy day false 0)
    (.start apiAndWorker day none agingTable) twoPasses := by
  refine along_cons rfl (healthy_iterate _ _) (along_cons rfl (healthy_chunk _ _ _) ?_)
  refine along_cons rfl (healthy_tick rfl rfl (by decide)) (along_cons rfl (healthy_iterate _ _) ?_)
  refine along_cons rfl (healthy_tick rfl rfl (by decide)) (along_cons rfl (healthy_iterate _ _) ?_)
  refine along_cons rfl (healthy_tick rfl rfl (by decide)) (along_cons rfl (healthy_iterate _ _) ?_)
  refine along_cons rfl (healthy_chunk _ _ _) (along_cons rfl (healthy_chunk _ _ _) ?_)
  refine along_cons rfl (healthy_insert (by decide)) ?_
  exact ⟨healthy_tick rfl rfl (by decide), fun _ _ => trivial⟩

theorem rows_pruned_twice : ∃ t,
    exec (prune_loops apiAndWorker day) (.start apiAndWorker day none agingTable) twoPasses = some t ∧
    t.table.rows.length = 1 ∧
    ∀ row ∈ t.table.rows, t.now - row.2.timestamp ≤ day + (cadence apiAndWorker false 0 + 0) := by
  refine exec_exists (P := fun t => t.table.rows.length = 1 ∧ t.now = day + 5700 * SECOND) (by decide +kernel)
    fun t hrun hfinal => ⟨hfinal.1, rows_pruned (by decide) le_rfl (by decide) (by decide) (by simp)
      twoPasses_healthy hrun ?_⟩
  rw [hfinal.2]
  decide

end Runs

end FleetOps.Telemetry.PruneLoops
