import FleetOps.Json
import FleetOps.Library.Runs

namespace FleetOps.Command.ScannerLock

open Runs

-- `ex=10` of "lock:timeout_scanner", in microseconds.
def lock_ttl : Int := 10000000

inductive Phase where
  -- asleep, or about to try for the lock
  | idle
  | scanning (acquired : Instant)
  -- out of `scan_for_timeouts`, with the DELETE still to come
  | releasing (acquired : Instant)

-- The workers around one Redis. The key holds "1" for everyone; whose SET it was is kept here
-- only to speak about it.
structure Scanners (ω : Type) where
  now : Instant
  lock : Option (ω × Instant)
  phase : ω → Phase

def Scanners.start {ω : Type} (now : Instant) (lock : Option (ω × Instant)) : Scanners ω :=
  ⟨now, lock, fun _ => .idle⟩

inductive Event (ω : Type) where
  | tick (microseconds : Nat)
  -- SET NX EX
  | set (w : ω)
  -- the scan ends, with or without an exception
  | scanned (w : ω)
  | delete (w : ω)
  -- the worker dies on its way, or Redis does not get its DELETE
  | lost (w : ω)

section Model

variable {ω : Type} [DecidableEq ω]

-- The key is there until its time to live has passed.
def Scanners.held (s : Scanners ω) : Bool := s.lock.any fun l => decide (s.now < l.2)

def Scanners.to (s : Scanners ω) (w : ω) (phase : Phase) : Scanners ω :=
  { s with phase := Function.update s.phase w phase }

def timeout_worker_loop (s : Scanners ω) : Event ω → Option (Scanners ω)
  | .tick microseconds => some { s with now := s.now + microseconds }
  | .set w =>
      match s.phase w with
      | .idle =>
          if s.held then some s
          else some { s.to w (.scanning s.now) with lock := some (w, s.now + lock_ttl) }
      | .scanning _ | .releasing _ => none
  | .scanned w =>
      match s.phase w with
      | .scanning acquired => some (s.to w (.releasing acquired))
      | .idle | .releasing _ => none
  | .delete w =>
      match s.phase w with
      | .releasing _ => some { s.to w .idle with lock := none }
      | .idle | .scanning _ => none
  | .lost w => some (s.to w .idle)

end Model

def Phase.scans : Phase → Bool
  | .scanning _ => true
  | .idle | .releasing _ => false

-- Since when a worker has owed its DELETE.
def Phase.owes : Phase → Option Instant
  | .scanning acquired | .releasing acquired => some acquired
  | .idle => none

section Runs

variable {ω : Type} {s t : Scanners ω}

def Exclusive (s : Scanners ω) : Prop :=
  ∀ v w, (s.phase v).scans = true → (s.phase w).scans = true → v = w

-- A DELETE takes no lock that another worker holds.
def DeletesOwn (s : Scanners ω) (e : Event ω) : Prop :=
  ∀ w, e = .delete w → ∀ owner expires, s.lock = some (owner, expires) → s.now < expires → owner = w

-- No SET comes through while another worker still owes its DELETE.
def Undisputed (s : Scanners ω) (e : Event ω) : Prop :=
  ∀ w, e = .set w → s.held = false → ∀ v, v ≠ w → (s.phase v).owes = none

-- Time does not pass the time to live of a lock before its DELETE.
def Timely (s : Scanners ω) (e : Event ω) : Prop :=
  ∀ microseconds, e = .tick microseconds →
    ∀ w acquired, (s.phase w).owes = some acquired → s.now + microseconds < acquired + lock_ttl

theorem now_lt (now : Int) : now < now + lock_ttl := by
  simp only [lock_ttl]
  omega

theorem owes_of_scans {phase : Phase} (h : phase.scans = true) : ∃ acquired, phase.owes = some acquired := by
  cases phase with
  | idle => cases h
  | scanning acquired => exact ⟨acquired, rfl⟩
  | releasing acquired => cases h

-- One worker at most owes its DELETE, and no lock but its own can be in Redis then.
def Alone (s : Scanners ω) : Prop :=
  ∀ w acquired, (s.phase w).owes = some acquired →
    (∀ v acquired', (s.phase v).owes = some acquired' → v = w) ∧
      ∀ owner expires, s.lock = some (owner, expires) → owner = w

theorem alone_start (now : Instant) (lock : Option (ω × Instant)) : Alone (.start now lock) :=
  fun _ _ h => nomatch h

theorem alone_of_le (hs : Alone s)
    (howes : ∀ w acquired, (t.phase w).owes = some acquired → (s.phase w).owes = some acquired)
    (hlock : ∀ l, t.lock = some l → s.lock = some l) : Alone t := by
  intro w acquired hw
  obtain ⟨hone, hown⟩ := hs w acquired (howes w acquired hw)
  exact ⟨fun v acquired' hv => hone v acquired' (howes v acquired' hv),
    fun owner expires hl => hown owner expires (hlock _ hl)⟩

theorem Alone.exclusive (hs : Alone s) : Exclusive s := by
  intro v w hv hw
  obtain ⟨a, ha⟩ := owes_of_scans hv
  obtain ⟨b, hb⟩ := owes_of_scans hw
  exact (hs w b hb).1 v a ha

-- Each worker that owes its DELETE has its own lock in Redis.
def Covered (s : Scanners ω) : Prop :=
  ∀ w acquired, (s.phase w).owes = some acquired →
    s.lock = some (w, acquired + lock_ttl) ∧ s.now < acquired + lock_ttl

theorem Covered.undisputed (hs : Covered s) (e : Event ω) : Undisputed s e := by
  rintro w - hheld v -
  cases howes : (s.phase v).owes with
  | none => rfl
  | some acquired =>
      obtain ⟨hlock, hnow⟩ := hs v acquired howes
      have hlive : s.held = true := by
        rw [Scanners.held, hlock]
        exact decide_eq_true hnow
      rw [hlive] at hheld
      cases hheld

variable [DecidableEq ω]

theorem set_eq_some {w : ω} (h : timeout_worker_loop s (.set w) = some t) :
    s.phase w = .idle ∧ (s.held = true ∧ t = s ∨ s.held = false ∧
      t = { s.to w (.scanning s.now) with lock := some (w, s.now + lock_ttl) }) := by
  simp only [timeout_worker_loop] at h
  cases hphase : s.phase w with
  | idle =>
      rw [hphase] at h
      simp only at h
      refine ⟨rfl, ?_⟩
      split at h
      · rename_i hheld
        exact .inl ⟨hheld, (Option.some.inj h).symm⟩
      · rename_i hheld
        exact .inr ⟨Bool.not_eq_true _ ▸ hheld, (Option.some.inj h).symm⟩
  | scanning acquired | releasing acquired =>
      rw [hphase] at h
      cases h

theorem scanned_eq_some {w : ω} (h : timeout_worker_loop s (.scanned w) = some t) :
    ∃ acquired, s.phase w = .scanning acquired ∧ t = s.to w (.releasing acquired) := by
  simp only [timeout_worker_loop] at h
  cases hphase : s.phase w with
  | scanning acquired =>
      rw [hphase] at h
      exact ⟨acquired, rfl, (Option.some.inj h).symm⟩
  | idle | releasing acquired =>
      rw [hphase] at h
      cases h

theorem delete_eq_some {w : ω} (h : timeout_worker_loop s (.delete w) = some t) :
    ∃ acquired, s.phase w = .releasing acquired ∧ t = { s.to w .idle with lock := none } := by
  simp only [timeout_worker_loop] at h
  cases hphase : s.phase w with
  | releasing acquired =>
      rw [hphase] at h
      exact ⟨acquired, rfl, (Option.some.inj h).symm⟩
  | idle | scanning acquired =>
      rw [hphase] at h
      cases h

theorem owes_to {w v : ω} {phase : Phase} {acquired : Instant}
    (h : ((s.to w phase).phase v).owes = some acquired) :
    v = w ∧ phase.owes = some acquired ∨ v ≠ w ∧ (s.phase v).owes = some acquired := by
  by_cases hv : v = w
  · subst hv
    have hself : (s.to v phase).phase v = phase := Function.update_self _ _ _
    rw [hself] at h
    exact .inl ⟨rfl, h⟩
  · have hother : (s.to w phase).phase v = s.phase v := Function.update_of_ne hv _ _
    rw [hother] at h
    exact .inr ⟨hv, h⟩

theorem owes_to_idle {w v : ω} {acquired : Instant}
    (h : ((s.to w .idle).phase v).owes = some acquired) :
    v ≠ w ∧ (s.phase v).owes = some acquired := by
  rcases owes_to h with ⟨-, h⟩ | h
  · cases h
  · exact h

theorem owes_to_releasing {w v : ω} {acquired a : Instant} (hphase : s.phase w = .scanning a)
    (h : ((s.to w (.releasing a)).phase v).owes = some acquired) : (s.phase v).owes = some acquired := by
  rcases owes_to h with ⟨rfl, howes⟩ | ⟨-, howes⟩
  · rw [hphase]
    exact howes
  · exact howes

theorem alone_step {e : Event ω} (hs : Alone s) (hc : Undisputed s e)
    (h : timeout_worker_loop s e = some t) : Alone t := by
  cases e with
  | tick microseconds =>
      obtain rfl := Option.some.inj h
      exact hs
  | set w =>
      obtain ⟨-, ⟨-, rfl⟩ | ⟨hheld, rfl⟩⟩ := set_eq_some h
      · exact hs
      · have hothers := hc w rfl hheld
        have hself : ∀ v acquired, ((s.to w (.scanning s.now)).phase v).owes = some acquired → v = w := by
          intro v acquired hv
          rcases owes_to hv with ⟨rfl, -⟩ | ⟨hne, hv⟩
          · rfl
          · rw [hothers v hne] at hv
            cases hv
        intro v acquired hv
        obtain rfl := hself v acquired hv
        refine ⟨hself, fun owner expires hlock => ?_⟩
        exact (Prod.mk.inj (Option.some.inj hlock)).1.symm
  | scanned w =>
      obtain ⟨acquired, hphase, rfl⟩ := scanned_eq_some h
      exact alone_of_le hs (fun v a hv => owes_to_releasing hphase hv) fun _ hl => hl
  | delete w =>
      obtain ⟨acquired, hphase, rfl⟩ := delete_eq_some h
      refine alone_of_le hs (fun v a hv => (owes_to_idle hv).2) fun _ hl => ?_
      cases hl
  | lost w =>
      obtain rfl := Option.some.inj h
      exact alone_of_le hs (fun v a hv => (owes_to_idle hv).2) fun _ hl => hl

theorem Alone.deletesOwn {e : Event ω} (hs : Alone s) (h : timeout_worker_loop s e = some t) :
    DeletesOwn s e := by
  rintro w rfl owner expires hlock -
  obtain ⟨acquired, hphase, -⟩ := delete_eq_some h
  exact (hs w acquired (by rw [hphase]; rfl)).2 owner expires hlock

theorem deletesOwn_along (hs : Alone s) {events : List (Event ω)}
    (hrun : exec timeout_worker_loop s events = some t)
    (hc : Along timeout_worker_loop Undisputed s events) :
    Along timeout_worker_loop DeletesOwn s events := by
  induction events generalizing s with
  | nil => trivial
  | cons e events ih =>
      obtain ⟨u, hu, hrest⟩ := (exec_cons_iff s t e events).mp hrun
      exact along_cons hu (hs.deletesOwn hu) (ih (alone_step hs hc.1 hu) hrest (hc.2 u hu))

-- A SET that does come through puts two workers into the scan, or the other's DELETE before it
-- takes the new lock.
theorem disputed_breaks {w : ω} (h : timeout_worker_loop s (.set w) = some t)
    (hc : ¬ Undisputed s (.set w)) :
    ¬ Exclusive t ∨ ∃ v u, timeout_worker_loop t (.delete v) = some u ∧ ¬ DeletesOwn t (.delete v) := by
  simp only [Undisputed, not_forall] at hc
  obtain ⟨w', heq, hheld, v, hne, howes⟩ := hc
  cases heq
  obtain ⟨-, ⟨hheld', -⟩ | ⟨-, rfl⟩⟩ := set_eq_some h
  · rw [hheld] at hheld'
    cases hheld'
  · have hphase : (s.to w (.scanning s.now)).phase v = s.phase v := Function.update_of_ne hne _ _
    have hself : (s.to w (.scanning s.now)).phase w = .scanning s.now := Function.update_self _ _ _
    cases hv : s.phase v with
    | idle =>
        rw [hv] at howes
        exact absurd rfl howes
    | scanning acquired =>
        refine .inl fun hone => hne (hone v w ?_ ?_)
        · rw [hphase, hv]
          rfl
        · rw [hself]
          rfl
    | releasing acquired =>
        refine .inr ⟨v, { (s.to w (.scanning s.now)).to v .idle with lock := none }, ?_, fun hown => hne ?_⟩
        · simp only [timeout_worker_loop, hphase, hv]
          rfl
        · exact (hown v rfl w _ rfl (now_lt s.now)).symm

-- The lock excludes as long as no SET comes through that finds the key gone, but a worker that
-- has not sent its DELETE; one that does is the end of it.
theorem scanner_lock_excludes_iff (now : Instant) (lock : Option (ω × Instant)) {events : List (Event ω)}
    (hrun : exec timeout_worker_loop (.start now lock) events = some t) :
    (Along timeout_worker_loop Undisputed (.start now lock) events →
      Exclusive t ∧ Along timeout_worker_loop DeletesOwn (.start now lock) events) ∧
    ∀ w u, timeout_worker_loop t (.set w) = some u → ¬ Undisputed t (.set w) →
      ¬ Exclusive u ∨ ∃ v x, timeout_worker_loop u (.delete v) = some x ∧ ¬ DeletesOwn u (.delete v) := by
  refine ⟨fun hc => ?_, fun w u => disputed_breaks⟩
  have ht : Alone t := exec_along_invariant (fun s e u hc hs h => alone_step hs hc h) hc
    (alone_start now lock) hrun
  exact ⟨ht.exclusive, deletesOwn_along (alone_start now lock) hrun hc⟩

theorem covered_step {e : Event ω} (hs : Covered s) (hc : Timely s e)
    (h : timeout_worker_loop s e = some t) : Covered t := by
  cases e with
  | tick microseconds =>
      obtain rfl := Option.some.inj h
      exact fun w acquired hw => ⟨(hs w acquired hw).1, hc microseconds rfl w acquired hw⟩
  | set w =>
      obtain ⟨-, ⟨-, rfl⟩ | ⟨hheld, rfl⟩⟩ := set_eq_some h
      · exact hs
      · intro v acquired hv
        rcases owes_to hv with ⟨rfl, howes⟩ | ⟨hne, howes⟩
        · obtain rfl := Option.some.inj howes
          exact ⟨rfl, now_lt s.now⟩
        · rw [hs.undisputed (.set w) w rfl hheld v hne] at howes
          cases howes
  | scanned w =>
      obtain ⟨acquired, hphase, rfl⟩ := scanned_eq_some h
      exact fun v a hv => hs v a (owes_to_releasing hphase hv)
  | delete w =>
      obtain ⟨acquired, hphase, rfl⟩ := delete_eq_some h
      intro v a hv
      obtain ⟨hne, hv⟩ := owes_to_idle hv
      obtain ⟨hlock, -⟩ := hs v a hv
      rw [(hs w acquired (by rw [hphase]; rfl)).1] at hlock
      exact absurd (Prod.mk.inj (Option.some.inj hlock)).1.symm hne
  | lost w =>
      obtain rfl := Option.some.inj h
      exact fun v a hv => hs v a (owes_to_idle hv).2

-- Every scan that is over, DELETE included, within its lock's time to live is left alone.
theorem undisputed_of_timely (hs : Covered s) {events : List (Event ω)}
    (hc : Along timeout_worker_loop Timely s events) : Along timeout_worker_loop Undisputed s events := by
  induction events generalizing s with
  | nil => trivial
  | cons e events ih =>
      exact ⟨hs.undisputed e, fun t ht => ih (covered_step hs hc.1 ht) (hc.2 t ht)⟩

section Sample

-- Two workers, the first of which scans in time.
theorem scanner_lock_excludes_first : ∃ t,
    exec timeout_worker_loop (.start 0 none) [.set true, .set false, .scanned true, .delete true] = some t ∧
    Exclusive t := by
  have hcovered : Covered (Scanners.start (ω := Bool) 0 none) := fun _ _ h => nomatch h
  have htimely : Along timeout_worker_loop Timely (Scanners.start 0 none)
      [.set true, .set false, .scanned true, .delete true] :=
    along_of_forall (fun s e he _ htick => by simp [htick] at he) _
  exact ⟨_, rfl, ((scanner_lock_excludes_iff 0 none rfl).1 (undisputed_of_timely hcovered htimely)).1⟩

-- The first one takes longer than its lock lives: both scan, and then its DELETE takes the
-- second one's lock.
theorem overrun_scan_breaks : ∃ t,
    exec timeout_worker_loop (.start 0 none) [.set true, .tick 10000000, .set false] = some t ∧
    ¬ Exclusive t ∧
    ∃ u, exec timeout_worker_loop t [.scanned true] = some u ∧
      (∃ v, timeout_worker_loop u (.delete true) = some v) ∧ ¬ DeletesOwn u (.delete true) := by
  refine ⟨_, rfl, fun hone => ?_, _, rfl, ⟨_, rfl⟩, fun hown => ?_⟩
  · exact Bool.noConfusion (hone true false rfl rfl)
  · exact Bool.noConfusion (hown true rfl false 20000000 rfl (by decide))

end Sample

end Runs

end FleetOps.Command.ScannerLock
