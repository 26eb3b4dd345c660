import FleetOps.Telemetry.Faults

namespace FleetOps.Telemetry.Worker

open Calendar ConsumerGroup RowStore Runs

variable {config : Config}

section Definitions

-- The entry is no telemetry, or it makes a row that can stand in any batch: the columns
-- take its values, and its time can be compared with every other.
def Insertable (orjson : Orjson) (payload : Option orjson.Text) : Prop :=
  ∀ now, parse orjson now payload = .skip ∨
    ∃ d, parse orjson now payload = .row d ∧ (columns d).isSome = true ∧ d.timestamp.aware = true

-- A step of a time in which Redis and the database answer and of the workers `w` runs.
def Healthy (config : Config) (w : WorkerId) : Event config.orjson.Text → Prop
  | .pool (.xadd payload) => Insertable config.orjson payload
  | .pool (.advance v _ _) => v = w
  | _ => False

def Event.awaits {T : Type} (w : WorkerId) : Event T → Bool
  | .pool (.advance v _ _) => decide (v = w)
  | _ => false

def State.reading : State → Bool
  | .read => true
  | _ => false

-- How often `w` comes to the first await of its loop.
def iterations (config : Config) (w : WorkerId) :
    Deployment config.orjson.Text → List (Event config.orjson.Text) → Nat
  | _, [] => 0
  | d, e :: events =>
      match d.step config e with
      | none => 0
      | some t => (e.awaits w && (t.pool.workers w).reading).toNat + iterations config w t events

abbrev Continues (config : Config) (w : WorkerId) (d : Deployment config.orjson.Text)
    (events : List (Event config.orjson.Text)) (t : Deployment config.orjson.Text) : Prop :=
  (∀ e ∈ events, Healthy config w e) ∧ exec (Deployment.step config) d events = some t

end Definitions

section Iterations

variable {d t u : Deployment config.orjson.Text} {w : WorkerId}
  {events more : List (Event config.orjson.Text)}

theorem iterations_le (d : Deployment config.orjson.Text) (w : WorkerId)
    (events : List (Event config.orjson.Text)) :
    iterations config w d events ≤ events.countP (Event.awaits w) := by
  induction events generalizing d with
  | nil => exact Nat.le_refl _
  | cons e events ih =>
      simp only [iterations, List.countP_cons]
      split
      · exact Nat.zero_le _
      · rename_i t _
        have hrest := ih t
        cases e.awaits w <;> cases (t.pool.workers w).reading <;> simp <;> omega

theorem iterations_append (h : exec (Deployment.step config) d events = some t) :
    iterations config w d (events ++ more) = iterations config w d events + iterations config w t more := by
  induction events generalizing d with
  | nil =>
      cases h
      simp [iterations]
  | cons e events ih =>
      obtain ⟨v, hv, hrest⟩ := (exec_cons_iff ..).mp h
      simp only [List.cons_append, iterations, hv, ih hrest, Nat.add_assoc]

theorem Continues.append (h : Continues config w d events t) (h' : Continues config w t more u) :
    Continues config w d (events ++ more) u := by
  refine ⟨fun e he => ?_, (exec_append_iff ..).mpr ⟨t, h.2, h'.2⟩⟩
  exact (List.mem_append.mp he).elim (h.1 e) (h'.1 e)

-- What a healthy step can be.
inductive HealthyStep (d : Deployment config.orjson.Text) (w : WorkerId) :
    Event config.orjson.Text → Deployment config.orjson.Text → Prop where
  | xadd (payload : Option config.orjson.Text) (hinsertable : Insertable config.orjson payload) :
      HealthyStep d w (.pool (.xadd payload))
        { d with pool := { d.pool with group := d.pool.group.xadd payload } }
  | enter (now : Int) (clock : EntryId → Utc) (pool : Pool config.orjson.Text)
      (hcreating : d.creating w = true) (hpool : d.pool.step config (.start w) = some pool) :
      HealthyStep d w (.pool (.advance w now clock)) ⟨true, Function.update d.creating w false, pool⟩
  | loop (now : Int) (clock : EntryId → Utc) (pool : Pool config.orjson.Text)
      (hcreating : d.creating w = false)
      (hpool : d.pool.step config (d.reply w (.advance w now clock)) = some pool) :
      HealthyStep d w (.pool (.advance w now clock)) { d with pool := pool }

theorem healthy_step {e : Event config.orjson.Text} (he : Healthy config w e)
    (h : d.step config e = some t) : HealthyStep d w e t := by
  cases e with
  | restart => cases he
  | pool l =>
      cases l with
      | xadd payload =>
          cases h
          exact .xadd payload he
      | advance v now clock =>
          obtain rfl : v = w := he
          simp only [Deployment.step] at h
          split at h
          · rename_i hcreating
            obtain ⟨pool, hpool, rfl⟩ := Option.map_eq_some_iff.mp h
            exact .enter now clock pool hcreating hpool
          · rename_i hcreating
            obtain ⟨pool, hpool, rfl⟩ := Option.map_eq_some_iff.mp h
            exact .loop now clock pool (by simpa using hcreating) hpool
      | start | fail | lose | stop => cases he

end Iterations

section Loop

variable {s t : Pool config.orjson.Text} {w : WorkerId} {now : Int} {clock : EntryId → Utc}

-- The awaits that are left of an iteration at most.
def State.toRead : State → Nat
  | .read => 300
  | .claim => 299
  | .fresh => 298
  | .process _ batch => batch.remaining + 1
  | .ack _ | .pause | .stopped => 0

theorem toRead_startBatch (g : Group String (Option config.orjson.Text)) {ids : List EntryId}
    (hlen : ids.length ≤ 100) (clock : EntryId → Utc) :
    startBatch config g clock ids ≠ .stopped ∧ (startBatch config g clock ids).toRead ≤ 204 := by
  unfold startBatch
  cases hparse : parseAll config.orjson clock (messages g ids) with
  | none => exact ⟨by simp, Nat.zero_le _⟩
  | some rows =>
      have hrows : rows.length ≤ 100 := by
        rw [parseAll_eq hparse]
        exact (List.length_filterMap_le _ _).trans ((List.length_filterMap_le _ _).trans hlen)
      simp only [BatchState.begin]
      split
      · exact ⟨by simp [afterBatch], Nat.zero_le _⟩
      · split
        · exact ⟨by simp [afterBatch], by simp [afterBatch, State.toRead, BatchState.remaining]⟩
        · rw [afterBatch_nextRow]
          refine ⟨by simp, ?_⟩
          cases rows with
          | nil => simp [nextRow, State.toRead, BatchState.remaining]
          | cons row rest =>
              simp only [List.length_cons] at hrows
              simp only [nextRow, State.toRead, BatchState.remaining]
              omega

-- An await that is answered ends the iteration or brings its end nearer.
theorem toRead_advance (h : s.step config (.advance w now clock) = some t) :
    t.workers w = .read ∨
      t.workers w ≠ .stopped ∧ (t.workers w).toRead < (s.workers w).toRead := by
  cases hstate : s.workers w with
  | read =>
      simp only [Pool.step, act, hstate, advance, Option.map_some, Option.some.injEq] at h
      subst h
      simp only [Function.update_self]
      split
      · exact Or.inr ⟨by simp, by simp [State.toRead]⟩
      · have hlen : (s.group.history (config.consumer_name w) now 100).2.length ≤ 100 := by
          simp [Group.history]
        obtain ⟨hrunning, hle⟩ := toRead_startBatch s.group hlen clock
        exact Or.inr ⟨hrunning, hle.trans_lt (by simp [State.toRead])⟩
  | claim =>
      simp only [Pool.step, act, hstate, advance, Option.map_some, Option.some.injEq] at h
      subst h
      simp only [Function.update_self]
      split
      · exact Or.inr ⟨by simp, by simp [State.toRead]⟩
      · exact Or.inl rfl
  | fresh =>
      simp only [Pool.step, act, hstate, advance, Option.map_some, Option.some.injEq] at h
      subst h
      simp only [Function.update_self]
      split
      · exact Or.inl rfl
      · have hlen : (s.group.fresh (config.consumer_name w) now 100).2.length ≤ 100 := by
          simp [Group.fresh]
        obtain ⟨hrunning, hle⟩ := toRead_startBatch s.group hlen clock
        exact Or.inr ⟨hrunning, hle.trans_lt (by simp [State.toRead])⟩
  | process ids batch =>
      simp only [Pool.step, act, hstate, advance, Option.map_map, Option.map_eq_some_iff] at h
      obtain ⟨⟨db, batch'⟩, hbatch, rfl⟩ := h
      have hlt := remaining_lt hbatch
      simp only [Function.comp_apply, Function.update_self]
      refine Or.inr ⟨?_, ?_⟩
      · cases batch' <;> simp [afterBatch]
      · cases batch' <;> simp only [afterBatch, State.toRead] <;> omega
  | ack ids =>
      simp only [Pool.step, act, hstate, advance, Option.map_some, Option.some.injEq] at h
      subst h
      exact Or.inl (Function.update_self ..)
  | pause =>
      simp only [Pool.step, act, hstate, advance, Option.map_some, Option.some.injEq] at h
      subst h
      exact Or.inl (Function.update_self ..)
  | stopped =>
      simp only [Pool.step, act, hstate, advance, Option.map_none] at h
      cases h

-- So does a NOGROUP error.
theorem toRead_fail (hneeds : (s.workers w).needsGroup = true) (h : s.step config (.fail w) = some t) :
    t.workers w ≠ .stopped ∧ (t.workers w).toRead < (s.workers w).toRead ∧ t.group = s.group := by
  cases hstate : s.workers w with
  | read | claim | fresh =>
      simp only [Pool.step, act, hstate, fail, Option.map_some, Option.some.injEq] at h
      subst h
      exact ⟨by simp, by simp [State.toRead], rfl⟩
  | process | ack | pause | stopped =>
      rw [hstate] at hneeds
      cases hneeds

-- A running loop is never stuck.
theorem advance_enabled (hfree : s.db.store.theirs w = []) (hlive : (s.workers w).live = true)
    (hrunning : s.workers w ≠ .stopped) (now : Int) (clock : EntryId → Utc) :
    ∃ t, s.step config (.advance w now clock) = some t := by
  cases hstate : s.workers w with
  | process ids batch =>
      rw [hstate] at hlive
      obtain ⟨db, batch', hbatch⟩ := process_batch_enabled hfree
        (by simpa [State.live] using hlive)
      simp only [Pool.step, act, hstate, advance, hbatch, Option.map_some]
      exact ⟨_, rfl⟩
  | read | claim | fresh | ack | pause => simp [Pool.step, act, hstate, advance]
  | stopped => exact absurd hstate hrunning

end Loop

section Attendance

variable {d t : Deployment config.orjson.Text} {w : WorkerId} {events : List (Event config.orjson.Text)}

-- `w` runs its loop or is about to, and no other worker has a transaction open.
structure Attended (w : WorkerId) (d : Deployment config.orjson.Text) : Prop where
  sound : d.Sound
  alone : ∀ v, v ≠ w → (d.pool.workers v).processing = false
  running : d.creating w = true ∨ d.pool.workers w ≠ .stopped

theorem Attended.theirs (hd : Attended w d) : d.pool.db.store.theirs w = [] :=
  theirs_eq_nil fun v hv => hd.sound.idle v (hd.alone v hv)

theorem reply_cases (d : Deployment config.orjson.Text) (w : WorkerId) (l : Label config.orjson.Text) :
    (d.reply w l = l ∧ (d.grouped = true ∨ (d.pool.workers w).needsGroup = false)) ∨
      (d.reply w l = .fail w ∧ d.grouped = false ∧ (d.pool.workers w).needsGroup = true) := by
  unfold Deployment.reply
  cases d.grouped <;> cases (d.pool.workers w).needsGroup <;> simp

theorem loop_toRead {now : Int} {clock : EntryId → Utc} {pool : Pool config.orjson.Text}
    (h : d.pool.step config (d.reply w (.advance w now clock)) = some pool) :
    pool.workers w = .read ∨
      pool.workers w ≠ .stopped ∧ (pool.workers w).toRead < (d.pool.workers w).toRead := by
  rcases reply_cases d w (.advance w now clock) with ⟨hreply, _⟩ | ⟨hreply, _, hneeds⟩
  · rw [hreply] at h
    exact toRead_advance h
  · rw [hreply] at h
    obtain ⟨hrunning, hlt, _⟩ := toRead_fail hneeds h
    exact Or.inr ⟨hrunning, hlt⟩

theorem workers_enter {s pool : Pool config.orjson.Text} (h : s.step config (.start w) = some pool) :
    pool.workers w = .read := by
  simp only [Pool.step, act] at h
  split at h
  · simp only [Option.map_some, Option.some.injEq] at h
    subst h
    exact Function.update_self ..
  · cases h

theorem Attended.step (hd : Attended w d) {e : Event config.orjson.Text} (he : Healthy config w e)
    (h : d.step config e = some t) : Attended w t := by
  have hsound := hd.sound.step h
  cases healthy_step he h with
  | xadd payload _ => exact ⟨hsound, hd.alone, hd.running⟩
  | enter now clock pool hcreating hpool =>
      refine ⟨hsound, fun v hv => ?_, Or.inr ?_⟩
      · rw [workers_of_ne (fun hw => hv (by cases hw; rfl)) hpool]
        exact hd.alone v hv
      · rw [workers_enter hpool]
        nofun
  | loop now clock pool hcreating hpool =>
      refine ⟨hsound, fun v hv => ?_, Or.inr ?_⟩
      · have hworker : (d.reply w (.advance w now clock)).worker = some w := by
          rcases reply_cases d w (.advance w now clock) with ⟨hreply, _⟩ | ⟨hreply, _⟩ <;>
            rw [hreply] <;> rfl
        rw [workers_of_ne (fun hw => hv (Option.some.inj (hw.symm.trans hworker))) hpool]
        exact hd.alone v hv
      · rcases loop_toRead hpool with hread | ⟨hrunning, _⟩
        · rw [hread]
          nofun
        · exact hrunning

theorem Attended.continues (hd : Attended w d) (h : Continues config w d events t) : Attended w t :=
  exec_invariant_of_mem (fun _ _ _ he hu hstep => hu.step he hstep) h.1 hd h.2

theorem attended_enabled (hd : Attended w d) (now : Int) (clock : EntryId → Utc) :
    ∃ t, d.step config (.pool (.advance w now clock)) = some t := by
  by_cases hcreating : d.creating w = true
  · have hstopped := hd.sound.creating w hcreating
    simp only [Deployment.step, hcreating, if_true, Deployment.enter, Pool.step, act, hstopped,
      Option.map_some]
    exact ⟨_, rfl⟩
  · have hrunning := hd.running.resolve_left hcreating
    simp only [Deployment.step, hcreating, Deployment.act]
    rcases reply_cases d w (.advance w now clock) with ⟨hreply, _⟩ | ⟨hreply, _, hneeds⟩
    · obtain ⟨pool, hpool⟩ := advance_enabled hd.theirs (hd.sound.live w) hrunning now clock
      rw [hreply, hpool]
      exact ⟨_, rfl⟩
    · rw [hreply]
      cases hstate : d.pool.workers w with
      | read | claim | fresh =>
          simp only [Pool.step, Worker.act, hstate, fail, Option.map_some]
          exact ⟨_, rfl⟩
      | process | ack | pause | stopped =>
          rw [hstate] at hneeds
          cases hneeds

theorem attended_next (d : Deployment config.orjson.Text) (hd : Attended w d) :
    ∃ now clock t, d.step config (.pool (.advance w now clock)) = some t ∧ Attended w t := by
  obtain ⟨t, ht⟩ := attended_enabled hd 0 fun _ => ⟨0, by decide⟩
  exact ⟨_, _, t, ht, hd.step (e := .pool (.advance w _ _)) rfl ht⟩

-- A running loop completes its iteration, whatever `I` has the awaits answer.
theorem next_iteration {I : Deployment config.orjson.Text → Prop}
    (hnext : ∀ u, I u → ∃ now clock t, u.step config (.pool (.advance w now clock)) = some t ∧ I t)
    (hd : I d) : ∃ more u, Continues config w d more u ∧ I u ∧ 0 < iterations config w d more := by
  induction hn : (d.pool.workers w).toRead using Nat.strong_induction_on generalizing d with
  | _ n ih =>
      subst hn
      obtain ⟨now, clock, t, ht, hinv⟩ := hnext d hd
      have he : Healthy config w (.pool (.advance w now clock)) := rfl
      have hread : t.pool.workers w = .read ∨
          (t.pool.workers w).toRead < (d.pool.workers w).toRead := by
        cases healthy_step he ht with
        | enter _ _ pool _ hpool => exact Or.inl (workers_enter hpool)
        | loop _ _ pool _ hpool => exact (loop_toRead hpool).imp_right And.right
      have hcount : ∀ more, iterations config w d (.pool (.advance w now clock) :: more) =
          (t.pool.workers w).reading.toNat + iterations config w t more := by
        intro more
        simp [iterations, ht, Event.awaits]
      rcases hread with hread | hlt
      · refine ⟨[_], t, ⟨by simpa using he, (exec_cons_iff ..).mpr ⟨t, ht, rfl⟩⟩, hinv, ?_⟩
        rw [hcount, hread]
        simp [State.reading]
      · obtain ⟨more, u, hmore, hu, hpos⟩ := ih _ hlt hinv rfl
        refine ⟨_ :: more, u, ⟨?_, (exec_cons_iff ..).mpr ⟨t, ht, hmore.2⟩⟩, hu, ?_⟩
        · simpa using ⟨he, hmore.1⟩
        · rw [hcount]
          omega

theorem many_iterations {I : Deployment config.orjson.Text → Prop}
    (hnext : ∀ u, I u → ∃ now clock t, u.step config (.pool (.advance w now clock)) = some t ∧ I t)
    (hd : I d) (n : Nat) :
    ∃ events t, Continues config w d events t ∧ I t ∧ n ≤ iterations config w d events := by
  induction n with
  | zero => exact ⟨[], d, ⟨by simp, rfl⟩, hd, Nat.zero_le _⟩
  | succ n ih =>
      obtain ⟨events, t, hevents, ht, hle⟩ := ih
      obtain ⟨more, u, hmore, hu, hpos⟩ := next_iteration hnext ht
      refine ⟨events ++ more, u, hevents.append hmore, hu, ?_⟩
      rw [iterations_append hevents.2]
      omega

end Attendance

end FleetOps.Telemetry.Worker
