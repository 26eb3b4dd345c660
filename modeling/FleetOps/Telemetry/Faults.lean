import FleetOps.Telemetry.ExactlyOnce
import FleetOps.Telemetry.Poison

namespace FleetOps.Telemetry.Worker

open Calendar ConsumerGroup RowStore Runs

variable (config : Config)

-- A pool whose Redis may have no consumer group. A worker that is `creating` awaits
-- its XGROUP CREATE and has not entered its loop.
structure Deployment (T : Type) where
  grouped : Bool
  creating : WorkerId → Bool
  pool : Pool T

def Deployment.init {T : Type} : Deployment T := ⟨false, fun _ => false, .init⟩

-- `restart` is Redis coming back without its stream and the group.
inductive Event (T : Type) where
  | pool (l : Label T)
  | restart

-- The awaits that raise NOGROUP where there is no group. XACK does not.
def State.needsGroup : State → Bool
  | .read | .claim | .fresh => true
  | _ => false

variable {config}

def Deployment.reply (d : Deployment config.orjson.Text) (w : WorkerId)
    (l : Label config.orjson.Text) : Label config.orjson.Text :=
  if !d.grouped && (d.pool.workers w).needsGroup then .fail w else l

variable (config)

def Deployment.act (d : Deployment config.orjson.Text) (l : Label config.orjson.Text) :
    Option (Deployment config.orjson.Text) :=
  (d.pool.step config l).map fun pool => { d with pool := pool }

-- Whatever XGROUP CREATE has raised is logged, and the loop begins.
def Deployment.enter (d : Deployment config.orjson.Text) (w : WorkerId) (grouped : Bool) :
    Option (Deployment config.orjson.Text) :=
  (d.pool.step config (.start w)).map fun pool =>
    ⟨grouped, Function.update d.creating w false, pool⟩

def Deployment.step (d : Deployment config.orjson.Text) :
    Event config.orjson.Text → Option (Deployment config.orjson.Text)
  | .pool (.xadd payload) => d.act config (.xadd payload)
  | .pool (.start w) =>
      match d.pool.workers w, d.creating w with
      | .stopped, false => some { d with creating := Function.update d.creating w true }
      | _, _ => none
  | .pool (.advance w now clock) =>
      if d.creating w then d.enter config w true
      else d.act config (d.reply w (.advance w now clock))
  | .pool (.fail w) => if d.creating w then d.enter config w d.grouped else d.act config (.fail w)
  | .pool (.lose w now) =>
      if d.creating w then d.enter config w true else d.act config (d.reply w (.lose w now))
  | .pool (.stop w) => (d.pool.step config (.stop w)).map fun pool =>
      ⟨d.grouped, Function.update d.creating w false, pool⟩
  | .restart => some { d with
      grouped := false
      pool := { d.pool with group := d.pool.group.reset } }

variable {config}

section Soundness

-- The loop never holds a batch that has ended.
def State.live : State → Bool
  | .process _ batch => decide (0 < batch.remaining)
  | _ => true

structure Deployment.Sound (d : Deployment config.orjson.Text) : Prop where
  group : d.pool.group.Sound
  db : d.pool.db.Sound
  idle : ∀ w, (d.pool.workers w).processing = false → d.pool.db.store.mine w = []
  live : ∀ w, (d.pool.workers w).live = true
  creating : ∀ w, d.creating w = true → d.pool.workers w = .stopped

theorem live_afterBatch (ids : List EntryId) (batch : BatchState) :
    (afterBatch ids batch).live = true := by
  cases batch <;> simp [afterBatch, State.live, BatchState.remaining]

theorem live_startBatch (g : Group String (Option config.orjson.Text)) (clock : EntryId → Utc)
    (ids : List EntryId) : (startBatch config g clock ids).live = true := by
  unfold startBatch
  split
  · rfl
  · exact live_afterBatch _ _

theorem live_of_free {state : State} (h : state.free = true) : state.live = true := by
  cases state <;> first | rfl | cases h

theorem Move.live {s : Pool config.orjson.Text} {w : WorkerId} {l : Label config.orjson.Text}
    {group : Group String (Option config.orjson.Text)} {db : Database WorkerId EntryId}
    {state : State} (h : Move config s w l group db state) : state.live = true := by
  cases h with
  | idle _ _ _ _ _ hstate | drop _ _ _ hstate | ack _ _ _ hstate => exact live_of_free hstate
  | abort _ _ hstate => rcases hstate with rfl | rfl <;> rfl
  | unacked => rfl
  | reread | take => exact live_startBatch _ _ _
  | process ids batch batch' => exact live_afterBatch ids batch'

theorem live_step {s t : Pool config.orjson.Text} (hs : ∀ v, (s.workers v).live = true)
    {l : Label config.orjson.Text} (h : s.step config l = some t) :
    ∀ v, (t.workers v).live = true := by
  intro v
  rcases step_cases h with ⟨payload, rfl⟩ | ⟨w, group, db, state, hmove, rfl⟩
  · exact hs v
  · by_cases hv : v = w
    · subst hv
      simp only [Function.update_self]
      exact hmove.live
    · simp only [Function.update_of_ne hv]
      exact hs v

-- Only the worker that a label is about changes its state.
theorem workers_of_ne {s t : Pool config.orjson.Text} {l : Label config.orjson.Text} {v : WorkerId}
    (hv : l.worker ≠ some v) (h : s.step config l = some t) : t.workers v = s.workers v := by
  cases l with
  | xadd payload =>
      cases h
      rfl
  | start w | advance w now clock | fail w | lose w now | stop w =>
      simp only [Pool.step, Option.map_eq_some_iff] at h
      obtain ⟨out, _, rfl⟩ := h
      exact Function.update_of_ne (fun heq => hv (by rw [heq]; rfl)) _ _

-- A step of the pool, as long as the workers that create the group take no part in it.
theorem Deployment.Sound.pool_step {d : Deployment config.orjson.Text} (hd : d.Sound)
    {l : Label config.orjson.Text} {pool : Pool config.orjson.Text} (h : d.pool.step config l = some pool)
    (grouped : Bool) (creating : WorkerId → Bool)
    (hcreating : ∀ v, creating v = true → pool.workers v = .stopped) :
    (⟨grouped, creating, pool⟩ : Deployment config.orjson.Text).Sound where
  group := (sound_step ⟨hd.group, hd.db⟩ h).1
  db := (sound_step ⟨hd.group, hd.db⟩ h).2
  idle := idle_step hd.db hd.idle h
  live := live_step hd.live h
  creating := hcreating

theorem Deployment.Sound.step {d t : Deployment config.orjson.Text} (hd : d.Sound)
    {e : Event config.orjson.Text} (h : d.step config e = some t) : t.Sound := by
  -- A worker that is still creating the group is another one than the label's.
  have hact : ∀ {l : Label config.orjson.Text}, (∀ w, l.worker = some w → d.creating w = false) →
      d.act config l = some t → t.Sound := by
    intro l hl h
    obtain ⟨pool, hpool, rfl⟩ := Option.map_eq_some_iff.mp h
    refine hd.pool_step hpool _ _ fun v hv => ?_
    rw [workers_of_ne (fun hw => ?_) hpool]
    · exact hd.creating v hv
    · rw [hl v hw] at hv
      cases hv
  have hleave : ∀ {w : WorkerId} {l : Label config.orjson.Text} {grouped : Bool}
      {pool : Pool config.orjson.Text}, l.worker = some w → d.pool.step config l = some pool →
      (⟨grouped, Function.update d.creating w false, pool⟩ : Deployment config.orjson.Text).Sound := by
    intro w l grouped pool hl hpool
    refine hd.pool_step hpool _ _ fun v hv => ?_
    have hne : v ≠ w := by
      rintro rfl
      simp at hv
    rw [Function.update_of_ne hne] at hv
    rw [workers_of_ne (fun hw => hne ?_) hpool]
    · exact hd.creating v hv
    · exact Option.some.inj (hw.symm.trans hl)
  have hreply : ∀ {w : WorkerId} {l : Label config.orjson.Text}, l.worker = some w →
      (d.reply w l).worker = some w := by
    intro w l hl
    unfold Deployment.reply
    split
    · rfl
    · exact hl
  have henter : ∀ {w : WorkerId} {grouped : Bool}, d.enter config w grouped = some t → t.Sound := by
    intro w grouped h
    obtain ⟨pool, hpool, rfl⟩ := Option.map_eq_some_iff.mp h
    exact hleave rfl hpool
  cases e with
  | pool l =>
      cases l with
      | xadd payload => exact hact (by simp [Label.worker]) h
      | start w =>
          simp only [Deployment.step] at h
          split at h
          · rename_i hstopped _
            cases h
            refine ⟨hd.group, hd.db, hd.idle, hd.live, fun v hv => ?_⟩
            by_cases hw : v = w
            · rw [hw]
              exact hstopped
            · exact hd.creating v (by simpa [hw] using hv)
          · cases h
      | advance w now clock | lose w now =>
          simp only [Deployment.step] at h
          split at h
          · exact henter h
          · rename_i hnot
            refine hact (fun v hv => ?_) h
            rw [hreply rfl] at hv
            cases hv
            simpa using hnot
      | fail w =>
          simp only [Deployment.step] at h
          split at h
          · exact henter h
          · rename_i hnot
            refine hact (fun v hv => ?_) h
            cases hv
            simpa using hnot
      | stop w =>
          simp only [Deployment.step, Option.map_eq_some_iff] at h
          obtain ⟨pool, hpool, rfl⟩ := h
          exact hleave rfl hpool
  | restart =>
      cases h
      exact ⟨Group.sound_reset _, hd.db, hd.idle, hd.live, hd.creating⟩

theorem deployment_sound_init : (Deployment.init : Deployment config.orjson.Text).Sound where
  group := Group.sound_empty
  db := sound_empty_database
  idle := fun _ _ => rfl
  live := fun _ => rfl
  creating := fun _ h => by cases h

abbrev Survives (config : Config) (events : List (Event config.orjson.Text))
    (d : Deployment config.orjson.Text) : Prop :=
  exec (Deployment.step config) Deployment.init events = some d

theorem sound_of_survives {events : List (Event config.orjson.Text)}
    {d : Deployment config.orjson.Text} (hrun : Survives config events d) : d.Sound :=
  exec_invariant (fun _ _ _ hu hstep => hu.step hstep) deployment_sound_init hrun

end Soundness

end FleetOps.Telemetry.Worker
