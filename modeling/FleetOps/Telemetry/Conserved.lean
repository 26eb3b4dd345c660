import FleetOps.Telemetry.Acknowledged

namespace FleetOps.Telemetry

open RowStore Runs

variable {env : Env} {T : Type}

-- Readings are counted here as in the tables.
local instance beqSource : BEq Source := instBEqOfDecidableEq

section Model

-- The process with its lifespan. `buffered` only records what went through
-- `telemetry_buffer.buffer`.
structure Lifespan (T : Type) where
  service : Service T
  closed : Bool
  buffered : List Source

def Lifespan.init : Lifespan T := ⟨.init, false, []⟩

inductive LifespanLabel where
  | serve (l : Label)
  | shutdown

def Service.buffers (s : Service T) : Label → List Source
  | .advance id _ =>
      match s.tasks id with
      | some (.call _ (.buffer rows)) => rows.map Measured.source
      | _ => []
  | _ => []

-- A CancelledError or another failure of a flush.
def Service.cancels (s : Service T) : Label → Bool
  | .fail id =>
      match s.tasks id with
      | some (.flush _) => true
      | _ => false
  | _ => false

-- The shutdown cancels `buffer_flush_task` and does no more: of the service only a flush
-- that was under way is still seen to end.
def Lifespan.step (env : Env) (s : Lifespan env.orjson.Text) :
    LifespanLabel → Option (Lifespan env.orjson.Text)
  | .serve l =>
      if s.closed && !s.service.cancels l then none
      else (s.service.step env l).map fun t =>
        { s with service := t, buffered := s.buffered ++ s.service.buffers l }
  | .shutdown => if s.closed then none else some { s with closed := true }

end Model

section Amounts

def Service.pendingOf (s : Service T) (source : Source) : Nat :=
  (s.pending.map Measured.source).count source

-- What a flush has taken and not committed yet.
def Task.held : Task → List Source
  | .flush state => state.rows.map Measured.source
  | .call _ _ => []

-- What the task's transaction has inserted.
def Task.inserts : Task → List Source
  | .call _ (.commit_insert rows _) | .flush (.commit rows) => rows.map Measured.source
  | _ => []

def Service.held (s : Service T) (id : TaskId) : List Source := ((s.tasks id).map Task.held).getD []

def Service.inserts (s : Service T) (id : TaskId) : List Source :=
  ((s.tasks id).map Task.inserts).getD []

-- Where a buffered reading is.
inductive Spot where
  | pending
  | held (id : TaskId)
  | committed
  | lost
  deriving DecidableEq

-- It is there once, and nowhere else.
structure Service.At (s : Service T) (source : Source) (spot : Spot) : Prop where
  pending : s.pendingOf source = if spot = .pending then 1 else 0
  held : ∀ id, (s.held id).count source = if spot = .held id then 1 else 0
  committed : s.db.rowsOf source = if spot = .committed then 1 else 0

theorem Service.At.unique {s : Service T} {source : Source} {spot spot' : Spot}
    (h : s.At source spot) (h' : s.At source spot') : spot = spot' := by
  have hpending := h.pending.symm.trans h'.pending
  have hcommitted := h.committed.symm.trans h'.committed
  have hheld := fun id => (h.held id).symm.trans (h'.held id)
  cases spot with
  | pending =>
      cases spot' <;> simp at hpending
      rfl
  | committed =>
      cases spot' <;> simp at hcommitted
      rfl
  | held id =>
      have hid := hheld id
      cases spot' <;> simp at hid
      rw [hid]
  | lost =>
      cases spot' with
      | lost => rfl
      | held id => simpa using hheld id
      | pending => simp at hpending
      | committed => simp at hcommitted

end Amounts

section Ledger

-- The states of a call after its reading has been buffered, if it has.
def CallState.past : CallState → Bool
  | .publish _ _ | .acknowledged _ | .raised => true
  | _ => false

-- The readings of a call bear its number, each its own.
def Own (id : TaskId) (rows : List Measured) : Prop :=
  (rows.map Measured.source).Nodup ∧ ∀ row ∈ rows, row.source.1 = id

def Task.own (id : TaskId) : Task → Prop
  | .call _ (.insert rows) | .call _ (.commit_insert rows _) | .call _ (.buffer rows) => Own id rows
  | _ => True

-- The call may still buffer its readings.
def Unbuffered : Option Task → Prop
  | none | some (.call _ (.buffer _)) => True
  | _ => False

-- The call has buffered its readings, if it does at all.
def Past : Option Task → Prop
  | some (.call _ state) => state.past = true
  | _ => False

structure Ledger (s : Lifespan T) : Prop where
  sound : s.service.db.Sound
  inserts : ∀ id source, s.service.db.openRowsOf id source = (s.service.inserts id).count source
  own : ∀ id task, s.service.tasks id = some task → task.own id
  fresh : ∀ source : Source, Unbuffered (s.service.tasks source.1) → s.service.db.rowsOf source = 0
  nodup : s.buffered.Nodup
  past : ∀ source ∈ s.buffered, Past (s.service.tasks source.1)
  known : ∀ source, (source ∈ s.service.pending.map Measured.source ∨
    ∃ id, source ∈ s.service.held id) → source ∈ s.buffered
  spot : ∀ source ∈ s.buffered, ∃ spot, s.service.At source spot

-- Where the next step of a flush takes what it holds.
def Service.landing (s : Service T) (id : TaskId) : Spot :=
  match s.tasks id with
  | some (.flush (.insert rows)) => if (insertRows rows).isSome then .held id else .lost
  | some (.flush (.commit _)) => .committed
  | _ => .held id

-- Where a step takes a reading.
def Service.moved (s : Service T) (l : Label) (spot : Spot) : Spot :=
  match l with
  | .flush id => if spot = .pending then .held id else spot
  | .advance id _ => if spot = .held id then s.landing id else spot
  | .fail id => if spot = .held id then .lost else spot
  | .call _ _ _ | .connect | .disconnect => spot

end Ledger

section Frames

variable {s t : Service T} {id : TaskId} {task : Task} {source : Source} {spot : Spot}

theorem held_eq (h : s.tasks id = some task) : s.held id = task.held := by
  simp [Service.held, h]

theorem held_of_none (h : s.tasks id = none) : s.held id = [] := by
  simp [Service.held, h]

theorem inserts_eq (h : s.tasks id = some task) : s.inserts id = task.inserts := by
  simp [Service.inserts, h]

theorem held_update (h : t.tasks = Function.update s.tasks id (some task)) (id' : TaskId) :
    t.held id' = if id' = id then task.held else s.held id' := by
  by_cases hid : id' = id
  · subst hid
    simp [Service.held, h]
  · simp [Service.held, h, hid]

theorem inserts_update (h : t.tasks = Function.update s.tasks id (some task)) (id' : TaskId) :
    t.inserts id' = if id' = id then task.inserts else s.inserts id' := by
  by_cases hid : id' = id
  · subst hid
    simp [Service.inserts, h]
  · simp [Service.inserts, h, hid]

theorem Service.At.congr (hat : s.At source spot) (hpending : t.pendingOf source = s.pendingOf source)
    (hheld : ∀ id, (t.held id).count source = (s.held id).count source)
    (hrows : t.db.rowsOf source = s.db.rowsOf source) : t.At source spot where
  pending := hpending.trans hat.pending
  held := fun id => (hheld id).trans (hat.held id)
  committed := hrows.trans hat.committed

-- A step of a task that takes and holds nothing leaves a reading where it is.
theorem Service.At.of_idle (hat : s.At source spot)
    (htasks : t.tasks = Function.update s.tasks id (some task)) (hheld : s.held id = [])
    (hidle : task.held = []) (hpending : t.pendingOf source = s.pendingOf source)
    (hrows : t.db.rowsOf source = s.db.rowsOf source) : t.At source spot := by
  refine hat.congr hpending (fun id' => ?_) hrows
  rw [held_update htasks]
  split
  · rename_i hid
    rw [hid, hheld, hidle]
  · rfl

end Frames

section Calls

variable {s : Service env.orjson.Text} {id : TaskId} {added : List Nat} {call : Ingestion}
  {state state' : CallState} {db : Database TaskId Source} {pending : List Measured}
  {entries : List (Entry env.orjson.Text)}

theorem held_call {s : Service T} (h : s.tasks id = some (.call call state)) : s.held id = [] :=
  held_eq h

-- The step lemma of a call: what it adds to the buffer, and where it is then.
theorem next_buffers (htask : s.tasks id = some (.call call state))
    (h : CallStep env s id added call state db pending state' entries) :
    pending.map Measured.source =
        s.pending.map Measured.source ++ s.buffers (.advance id added) ∧
      (s.buffers (.advance id added) ≠ [] ∨ state.past = true → state'.past = true) ∧
      ¬Unbuffered (some (.call call state')) ∧
      ((Task.call call state).own id → (Task.call call state').own id) := by
  simp only [Service.buffers, htask]
  cases h <;> simp [CallState.past, Unbuffered, Task.own]

-- What its transaction has inserted follows the state of a call.
theorem next_inserts (hdb : s.db.Sound)
    (h : CallStep env s id added call state db pending state' entries) {source : Source}
    (hopen : s.db.openRowsOf id source = (Task.call call state).inserts.count source) :
    db.openRowsOf id source = (Task.call call state').inserts.count source := by
  cases h with
  | insert rows values hvalues =>
      rw [(rowsOf_insert_telemetry hdb id values source).2, hopen, map_fst_insertRows hvalues]
      simp [Task.inserts]
  | refused | commit_one | commit_batch | unconverted_batch | commit | unconverted =>
      simp [Task.inserts]
  | mark_seen rows row_id latest hlatest db hseen =>
      rw [(rowsOf_mark_seen hdb hseen source).2]
      exact hopen
  | refresh | buffer | publish => exact hopen

end Calls

section Steps

variable {s : Lifespan env.orjson.Text} {t : Service env.orjson.Text} {l : Label} {source : Source}
  {spot : Spot}

-- The readings of a call that can still change the buffer or the table are not buffered.
theorem Ledger.not_mem_own (hledger : Ledger s) (hmem : source ∈ s.buffered) {id : TaskId}
    {call : Ingestion} {state : CallState} (htask : s.service.tasks id = some (.call call state))
    (hpast : state.past = false) {rows : List Measured} (hown : Own id rows) :
    source ∉ rows.map Measured.source := by
  intro hsource
  obtain ⟨row, hrow, rfl⟩ := List.mem_map.mp hsource
  have hbuffered := hledger.past _ hmem
  rw [hown.2 row hrow, htask] at hbuffered
  exact Bool.noConfusion (hpast.symm.trans hbuffered)

theorem Ledger.inserts_eq_zero (hledger : Ledger s) (hmem : source ∈ s.buffered) {id : TaskId}
    {call : Ingestion} {state : CallState} (htask : s.service.tasks id = some (.call call state)) :
    s.service.db.openRowsOf id source = 0 := by
  rw [hledger.inserts, inserts_eq htask]
  cases state with
  | commit_insert rows row_id =>
      exact List.count_eq_zero_of_not_mem
        (hledger.not_mem_own hmem htask rfl (hledger.own id _ htask))
  | _ => rfl

theorem Ledger.not_mem_buffers (hledger : Ledger s) (hmem : source ∈ s.buffered) :
    source ∉ s.service.buffers l := by
  cases l with
  | advance id added =>
      simp only [Service.buffers]
      split
      · rename_i call rows htask
        exact hledger.not_mem_own hmem htask rfl (hledger.own id _ htask)
      · simp
  | _ => simp [Service.buffers]

-- A flush takes what is pending.
theorem at_taken {s t : Service T} {id : TaskId} (hat : s.At source spot)
    (hnone : s.tasks id = none) (hpending : t.pending = []) (hdb : t.db = s.db)
    (htasks : t.tasks = Function.update s.tasks id
      (some (.flush (if s.pending.isEmpty then .ended else .insert s.pending)))) :
    t.At source (s.moved (.flush id) spot) := by
  have htaken : (t.held id).count source = s.pendingOf source := by
    rw [held_update htasks, if_pos rfl]
    cases hrows : s.pending with
    | nil => simp [Task.held, FlushState.rows, Service.pendingOf, hrows]
    | cons row rows => simp [Task.held, FlushState.rows, Service.pendingOf, hrows]
  have hother : ∀ id', id' ≠ id → t.held id' = s.held id' := by
    intro id' hne
    rw [held_update htasks, if_neg hne]
  simp only [Service.moved]
  by_cases hspot : spot = .pending
  · subst hspot
    rw [if_pos rfl]
    refine ⟨by simp [Service.pendingOf, hpending], fun id' => ?_, hdb ▸ hat.committed⟩
    by_cases hid : id' = id
    · rw [hid, htaken, hat.pending]
      simp
    · rw [hother id' hid, hat.held id']
      simp [Ne.symm hid]
  · rw [if_neg hspot]
    have hzero : s.pendingOf source = 0 := by rw [hat.pending, if_neg hspot]
    refine hat.congr (by rw [Service.pendingOf, hpending, hzero]; rfl) (fun id' => ?_) (by rw [hdb])
    by_cases hid : id' = id
    · rw [hid, htaken, hzero, held_of_none hnone, List.count_nil]
    · rw [hother id' hid]

-- A flush lets go of what it holds, which is in the table then or nowhere.
theorem at_released {s t : Service T} {id : TaskId} {task : Task} {there : Spot}
    (hat : s.At source spot) (hthere : there = .committed ∨ there = .lost)
    (htasks : t.tasks = Function.update s.tasks id (some task)) (hidle : task.held = [])
    (hpending : t.pending = s.pending)
    (hrows : t.db.rowsOf source =
      s.db.rowsOf source + if there = .committed then (s.held id).count source else 0) :
    t.At source (if spot = .held id then there else spot) := by
  by_cases hspot : spot = .held id
  · subst hspot
    have hmine : (s.held id).count source = 1 := by simpa using hat.held id
    rw [if_pos rfl]
    refine ⟨?_, fun id' => ?_, ?_⟩
    · have hnone : s.pendingOf source = 0 := by simpa using hat.pending
      rw [Service.pendingOf, hpending]
      rcases hthere with rfl | rfl <;> simpa [Service.pendingOf] using hnone
    · have hnone : there ≠ .held id' := by rcases hthere with rfl | rfl <;> simp
      rw [held_update htasks, if_neg hnone]
      by_cases hid : id' = id
      · rw [if_pos hid, hidle, List.count_nil]
      · rw [if_neg hid, hat.held id', if_neg (by simpa using Ne.symm hid)]
    · rw [hrows, hmine, hat.committed]
      simp
  · rw [if_neg hspot]
    have hnone : (s.held id).count source = 0 := by rw [hat.held id, if_neg hspot]
    refine hat.congr (by rw [Service.pendingOf, hpending]; rfl) (fun id' => ?_) ?_
    · rw [held_update htasks]
      by_cases hid : id' = id
      · rw [if_pos hid, hidle, hid, hnone, List.count_nil]
      · rw [if_neg hid]
    · rw [hrows, hnone, ite_self, Nat.add_zero]

-- What a step of a flush does with the readings it holds.
theorem at_flushed {s : Service env.orjson.Text} {id : TaskId} {added : List Nat}
    {state state' : FlushState} {db : Database TaskId Source} (hdb : s.db.Sound)
    (hopen : s.db.openRowsOf id source = (s.inserts id).count source) (hat : s.At source spot)
    (htask : s.tasks id = some (.flush state)) (h : FlushStep s.db id state db state') :
    Service.At { s with db := db, tasks := Function.update s.tasks id (some (.flush state')) } source
      (s.moved (.advance id added) spot) := by
  simp only [Service.moved]
  cases h with
  | refused rows hvalues =>
      have hlost : s.landing id = .lost := by simp [Service.landing, htask, hvalues]
      rw [hlost]
      exact at_released hat (Or.inr rfl) rfl rfl rfl rfl
  | insert rows values hvalues =>
      have hkept : s.landing id = .held id := by simp [Service.landing, htask, hvalues]
      rw [hkept, ite_eq_right_iff.mpr Eq.symm]
      refine hat.congr rfl (fun id' => ?_) (rowsOf_insert_telemetry hdb id values source).1
      rw [@held_update _ s _ id (.flush (.commit rows)) rfl]
      split
      · rename_i hid
        rw [hid, held_eq htask]
        rfl
      · rfl
  | commit rows =>
      have hcommitted : s.landing id = .committed := by simp [Service.landing, htask]
      rw [hcommitted]
      refine at_released hat (Or.inl rfl) rfl rfl rfl ?_
      rw [rowsOf_commit, hopen, inserts_eq htask, held_eq htask, if_pos rfl]
      rfl
  | mark_seen rows =>
      have hkept : s.landing id = .held id := by simp [Service.landing, htask]
      rw [hkept, ite_eq_right_iff.mpr Eq.symm]
      exact hat.of_idle rfl (held_eq htask) rfl rfl rfl

-- A failure loses what a flush holds.
theorem at_failed {s : Service T} {id : TaskId} {task : Task} (hat : s.At source spot)
    (htask : s.tasks id = some task) :
    Service.At { s with
      db := s.db.rollback id
      tasks := Function.update s.tasks id (some task.abort) } source (s.moved (.fail id) spot) := by
  have hidle : task.abort.held = [] := by cases task <;> rfl
  exact at_released hat (Or.inr rfl) rfl hidle rfl rfl

-- A buffered reading goes where the step takes it.
theorem Ledger.at_moved (hledger : Ledger s) (hstep : s.service.step env l = some t)
    (hmem : source ∈ s.buffered) (hat : s.service.At source spot) :
    t.At source (s.service.moved l spot) := by
  cases service_step hstep with
  | call id now ingestion hfree => exact hat.of_idle rfl (held_of_none hfree) rfl rfl rfl
  | flush id hfree => exact at_taken hat hfree rfl rfl rfl
  | next id added call state htask db pending state' entries hnext =>
      have hkept : s.service.landing id = .held id := by simp [Service.landing, htask]
      simp only [Service.moved]
      rw [hkept, ite_eq_right_iff.mpr Eq.symm]
      refine hat.of_idle rfl (held_call htask) rfl ?_ ?_
      · simp [Service.pendingOf, (next_buffers htask hnext).1,
          List.count_eq_zero_of_not_mem (hledger.not_mem_buffers hmem)]
      · exact (hnext.change hledger.sound).1.rowsOf_eq (hledger.inserts_eq_zero hmem htask)
  | flushed id added state htask db state' hflush =>
      exact at_flushed hledger.sound (hledger.inserts id source) hat htask hflush
  | fail id task htask => exact at_failed hat htask
  | connect | disconnect => exact hat.congr rfl (fun _ => rfl) rfl

theorem own_resolve {settings : Settings} {id : TaskId} {now : Calendar.Utc}
    {data : List TelemetryCreate} {rows : List Measured}
    (h : resolve settings id now data = some rows) : Own id rows := by
  have hsources : rows.map Measured.source = data.zipIdx.map fun p => (id, p.2) := by
    refine map_of_mapM ?_ h
    rintro ⟨d, i⟩ row hrow
    obtain ⟨timestamp, _, rfl⟩ := Option.map_eq_some_iff.mp hrow
    rfl
  refine ⟨?_, fun row hrow => ?_⟩
  · have hplaces : data.zipIdx.map (fun p => (id, p.2)) =
        (data.zipIdx.map Prod.snd).map (Prod.mk id) := by
      rw [List.map_map]
      rfl
    rw [hsources, hplaces, List.zipIdx_map_snd]
    exact (List.nodup_range' 1).map (Prod.mk_right_injective id)
  · have hmem : row.source ∈ rows.map Measured.source := List.mem_map_of_mem hrow
    rw [hsources, List.mem_map] at hmem
    obtain ⟨p, _, hp⟩ := hmem
    rw [← hp]

-- What a call is at its first await: its rows are its own, and nothing is inserted.
theorem begin_own (env : Env) (viewers : Nat) (id : TaskId) (now : Calendar.Utc) (call : Ingestion) :
    (Task.call call (call.begin env viewers id now)).own id ∧
      (Task.call call (call.begin env viewers id now)).inserts = [] := by
  rcases begin_cases env viewers id now call with
    hraised | ⟨rows, hrows, ⟨_, out, _, hpublish⟩ | hinsert | hpending⟩
  · rw [hraised]
    exact ⟨trivial, rfl⟩
  · rw [hpublish]
    exact ⟨trivial, rfl⟩
  · rw [hinsert]
    exact ⟨own_resolve hrows, rfl⟩
  · rw [hpending]
    exact ⟨own_resolve hrows, rfl⟩

theorem past_not_unbuffered {task : Option Task} (h : Past task) : ¬Unbuffered task := by
  rcases task with _ | ⟨_, state⟩ | _
  · exact h.elim
  · cases state <;> simp_all [Past, CallState.past, Unbuffered]
  · exact h.elim

-- An open transaction has no row of a reading that is yet to be buffered.
theorem Ledger.open_eq_zero {T : Type} {s : Lifespan T} (hledger : Ledger s) {id : TaskId}
    (hne : source.1 ≠ id) (hfree : Unbuffered (s.service.tasks source.1)) :
    s.service.db.openRowsOf id source = 0 := by
  rw [hledger.inserts]
  cases htask : s.service.tasks id with
  | none => simp [Service.inserts, htask]
  | some task =>
      rw [inserts_eq htask]
      refine List.count_eq_zero_of_not_mem fun hmem => ?_
      rcases task with ⟨_, state⟩ | state
      · cases state with
        | commit_insert rows row_id =>
            obtain ⟨row, hrow, rfl⟩ := List.mem_map.mp hmem
            exact hne ((hledger.own id _ htask).2 row hrow)
        | _ => cases hmem
      · cases state with
        | commit rows =>
            have hheld : source ∈ s.service.held id := by
              rw [held_eq htask]
              exact hmem
            exact past_not_unbuffered (hledger.past _ (hledger.known _ (Or.inr ⟨id, hheld⟩))) hfree
        | _ => cases hmem

-- What a step of the task `id` has to show: `new` is what it buffers.
theorem Ledger.of_task {T : Type} {s t : Lifespan T} (hledger : Ledger s) {id : TaskId} {task : Task}
    (new : List Source) (hchange : Change id s.service.db t.service.db)
    (htasks : t.service.tasks = Function.update s.service.tasks id (some task))
    (hinserts : ∀ source, t.service.db.openRowsOf id source = task.inserts.count source)
    (hown : task.own id)
    (hfree : Unbuffered (some task) → s.service.tasks id = none)
    (hbuffered : t.buffered = s.buffered ++ new) (hnodup : new.Nodup)
    (hnew : ∀ source ∈ new, source.1 = id ∧ source ∉ s.buffered)
    (hpast : new ≠ [] ∨ Past (s.service.tasks id) → Past (some task))
    (hpending : ∀ source ∈ t.service.pending.map Measured.source, source ∈ t.buffered)
    (hheld : ∀ source ∈ task.held, source ∈ t.buffered)
    (hspot : ∀ source ∈ t.buffered, ∃ spot, t.service.At source spot) : Ledger t where
  sound := hchange.sound hledger.sound
  inserts := by
    intro id' source
    rw [inserts_update htasks]
    by_cases hid : id' = id
    · rw [if_pos hid, hid, hinserts]
    · rw [if_neg hid, hchange.openRowsOf_of_ne hid, hledger.inserts]
  own := by
    rw [htasks]
    exact forall_update hown fun id' task' _ => hledger.own id' task'
  fresh := by
    intro source hunbuffered
    rw [htasks] at hunbuffered
    by_cases hid : source.1 = id
    · rw [hid, Function.update_self] at hunbuffered
      have hnone := hfree hunbuffered
      have hopen : s.service.db.openRowsOf id source = 0 := by
        rw [hledger.inserts]
        simp [Service.inserts, hnone]
      rw [hchange.rowsOf_eq hopen]
      exact hledger.fresh source (by rw [hid, hnone]; trivial)
    · rw [Function.update_of_ne hid] at hunbuffered
      rw [hchange.rowsOf_eq (hledger.open_eq_zero hid hunbuffered)]
      exact hledger.fresh source hunbuffered
  nodup := by
    rw [hbuffered]
    refine List.nodup_append.mpr ⟨hledger.nodup, hnodup, ?_⟩
    rintro source hmem _ hsource rfl
    exact (hnew source hsource).2 hmem
  past := by
    intro source hmem
    rw [hbuffered] at hmem
    rw [htasks]
    by_cases hid : source.1 = id
    · rw [hid, Function.update_self]
      refine hpast ?_
      rcases List.mem_append.mp hmem with hmem | hmem
      · exact Or.inr (hid ▸ hledger.past source hmem)
      · exact Or.inl (List.ne_nil_of_mem hmem)
    · rw [Function.update_of_ne hid]
      rcases List.mem_append.mp hmem with hmem | hmem
      · exact hledger.past source hmem
      · exact absurd (hnew source hmem).1 hid
  known := by
    rintro source (hmem | ⟨id', hmem⟩)
    · exact hpending source hmem
    · rw [held_update htasks] at hmem
      split at hmem
      · exact hheld source hmem
      · rw [hbuffered]
        exact List.mem_append_left _ (hledger.known source (Or.inr ⟨id', hmem⟩))
  spot := hspot

theorem Ledger.not_mem_of_unbuffered {T : Type} {s : Lifespan T} (hledger : Ledger s)
    (hfree : Unbuffered (s.service.tasks source.1)) : source ∉ s.buffered :=
  fun hmem => past_not_unbuffered (hledger.past source hmem) hfree

-- A reading is pending once as soon as it is buffered.
theorem Ledger.at_pending {T : Type} {s : Lifespan T} {t : Service T} (hledger : Ledger s)
    (hfree : Unbuffered (s.service.tasks source.1)) {new : List Source} (hnodup : new.Nodup)
    (hmem : source ∈ new)
    (hpending : t.pending.map Measured.source = s.service.pending.map Measured.source ++ new)
    (hheld : ∀ id, (t.held id).count source = (s.service.held id).count source)
    (hrows : t.db.rowsOf source = s.service.db.rowsOf source) : t.At source .pending := by
  have hbefore := hledger.not_mem_of_unbuffered hfree
  refine ⟨?_, fun id => ?_, ?_⟩
  · have hnone : source ∉ s.service.pending.map Measured.source :=
      fun h => hbefore (hledger.known source (Or.inl h))
    rw [Service.pendingOf, hpending, List.count_append, List.count_eq_zero_of_not_mem hnone,
      List.count_eq_one_of_mem hnodup hmem]
    rfl
  · rw [hheld, List.count_eq_zero_of_not_mem
      fun h => hbefore (hledger.known source (Or.inr ⟨id, h⟩))]
    rfl
  · rw [hrows, hledger.fresh source hfree]
    rfl

-- A step of a task that buffers nothing.
theorem Ledger.of_idle_task {T : Type} {s t : Lifespan T} (hledger : Ledger s) {id : TaskId}
    {task : Task} (hchange : Change id s.service.db t.service.db)
    (htasks : t.service.tasks = Function.update s.service.tasks id (some task))
    (hinserts : ∀ source, t.service.db.openRowsOf id source = task.inserts.count source)
    (hown : task.own id) (hfree : Unbuffered (some task) → s.service.tasks id = none)
    (hbuffered : t.buffered = s.buffered) (hpast : Past (s.service.tasks id) → Past (some task))
    (hpending : ∀ source ∈ t.service.pending.map Measured.source, source ∈ s.buffered)
    (hheld : ∀ source ∈ task.held, source ∈ s.buffered)
    (hspot : ∀ source ∈ s.buffered, ∃ spot, t.service.At source spot) : Ledger t := by
  rw [← hbuffered] at hpending hheld hspot
  exact hledger.of_task [] hchange htasks hinserts hown hfree (by simp [hbuffered])
    List.nodup_nil (by simp) (by simpa using hpast) hpending hheld hspot

theorem mem_buffers {T : Type} {s : Service T} {l : Label} (hmem : source ∈ s.buffers l) :
    ∃ id added call rows, l = .advance id added ∧ s.tasks id = some (.call call (.buffer rows)) ∧
      s.buffers l = rows.map Measured.source := by
  cases l with
  | advance id added =>
      simp only [Service.buffers] at hmem
      split at hmem
      · rename_i call rows htask
        exact ⟨id, added, call, rows, rfl, htask, by simp [Service.buffers, htask]⟩
      · cases hmem
  | _ => cases hmem

theorem flush_inserts {db db' : Database TaskId Source} (hdb : db.Sound) {id : TaskId}
    {state state' : FlushState} (h : FlushStep db id state db' state')
    (hopen : db.openRowsOf id source = (Task.flush state).inserts.count source) :
    db'.openRowsOf id source = (Task.flush state').inserts.count source ∧
      (source ∈ (Task.flush state').held → source ∈ (Task.flush state).held) := by
  cases h with
  | insert rows values hvalues =>
      rw [(rowsOf_insert_telemetry hdb id values source).2, hopen, map_fst_insertRows hvalues]
      simp [Task.inserts, Task.held, FlushState.rows]
  | refused | commit | mark_seen => simp [Task.inserts, Task.held, FlushState.rows]

-- What a step buffers is the call's own, and is pending then.
theorem Ledger.at_buffered (hledger : Ledger s) (hstep : s.service.step env l = some t) :
    (s.service.buffers l).Nodup ∧ ∀ source ∈ s.service.buffers l,
      (∃ added, l = .advance source.1 added) ∧ source ∉ s.buffered ∧ t.At source .pending := by
  cases hbuffers : s.service.buffers l with
  | nil => simp
  | cons first rest =>
      obtain ⟨id, added, call, rows, rfl, htask, hrows⟩ := mem_buffers
        (show first ∈ s.service.buffers l from hbuffers ▸ List.mem_cons_self ..)
      have hown : Own id rows := hledger.own id _ htask
      rw [← hbuffers, hrows]
      refine ⟨hown.1, fun source hmem => ?_⟩
      have hid : source.1 = id := by
        obtain ⟨row, hrow, rfl⟩ := List.mem_map.mp hmem
        exact hown.2 row hrow
      have hfree : Unbuffered (s.service.tasks source.1) := by
        rw [hid, htask]
        trivial
      refine ⟨⟨added, hid ▸ rfl⟩, hledger.not_mem_of_unbuffered hfree, ?_⟩
      simp only [Service.step, htask] at hstep
      obtain ⟨⟨db, pending, state', entries⟩, hnext, rfl⟩ := Option.map_eq_some_iff.mp hstep
      have hcall := next_step hnext
      have hopen : s.service.db.openRowsOf id source = 0 := by
        rw [hledger.inserts, inserts_eq htask]
        rfl
      refine hledger.at_pending hfree hown.1 hmem (hrows ▸ (next_buffers htask hcall).1)
        (fun id' => ?_) ((hcall.change hledger.sound).1.rowsOf_eq hopen)
      rw [@held_update _ s.service _ id (.call call state') rfl]
      split
      · rename_i heq
        rw [heq, held_call htask]
        rfl
      · rfl

-- The step lemma of the process while it serves.
theorem Ledger.serve (hledger : Ledger s) (hstep : s.service.step env l = some t) :
    Ledger { s with service := t, buffered := s.buffered ++ s.service.buffers l } := by
  have hmoved : ∀ source ∈ s.buffered, ∃ spot, t.At source spot := by
    intro source hmem
    obtain ⟨spot, hat⟩ := hledger.spot source hmem
    exact ⟨_, hledger.at_moved hstep hmem hat⟩
  have hkept : ∀ source ∈ s.service.pending.map Measured.source, source ∈ s.buffered :=
    fun source hmem => hledger.known source (Or.inl hmem)
  obtain ⟨hnodup, hnew⟩ := hledger.at_buffered hstep
  have hclosed : ∀ id, s.service.tasks id = none → ∀ source, s.service.db.openRowsOf id source = 0 := by
    intro id hnone source
    rw [hledger.inserts]
    simp [Service.inserts, hnone]
  cases service_step hstep with
  | call id now ingestion hnone =>
      obtain ⟨hown, hinserts⟩ := begin_own env s.service.viewers id now ingestion
      rw [show s.service.buffers (.call id now ingestion) = [] from rfl, List.append_nil]
      refine hledger.of_idle_task .same rfl (fun source => ?_) hown (fun _ => hnone) rfl
        (by simp [hnone, Past]) hkept (by simp [Task.held]) hmoved
      rw [hinserts, List.count_nil]
      exact hclosed id hnone source
  | flush id hnone =>
      rw [show s.service.buffers (.flush id) = [] from rfl, List.append_nil]
      refine hledger.of_idle_task .same rfl (fun source => ?_) trivial (fun h => h.elim) rfl
        (by simp [hnone, Past]) (by simp) (fun source hmem => hkept source ?_) hmoved
      · refine (hclosed id hnone source).trans ?_
        cases s.service.pending.isEmpty <;> rfl
      · cases hempty : s.service.pending.isEmpty with
        | true => simp [Task.held, FlushState.rows, hempty] at hmem
        | false => simpa [Task.held, FlushState.rows, hempty] using hmem
  | next id added call state htask db pending state' entries hnext =>
      obtain ⟨hpending, hpast, hbound, hown⟩ := next_buffers htask hnext
      refine hledger.of_task _ (hnext.change hledger.sound).1 rfl (fun source => ?_)
        (hown (hledger.own id _ htask)) (fun h => absurd h hbound) rfl hnodup ?_ ?_ ?_
        (by simp [Task.held]) ?_
      · refine next_inserts hledger.sound hnext ?_
        rw [hledger.inserts, inserts_eq htask]
      · intro source hmem
        obtain ⟨⟨_, hlabel⟩, hbefore, _⟩ := hnew source hmem
        cases hlabel
        exact ⟨rfl, hbefore⟩
      · rintro (h | h)
        · exact hpast (Or.inl h)
        · rw [htask] at h
          exact hpast (Or.inr h)
      · intro source hmem
        rw [hpending] at hmem
        rcases List.mem_append.mp hmem with hmem | hmem
        · exact List.mem_append_left _ (hkept source hmem)
        · exact List.mem_append_right _ hmem
      · intro source hmem
        rcases List.mem_append.mp hmem with hmem | hmem
        · exact hmoved source hmem
        · exact ⟨.pending, (hnew source hmem).2.2⟩
  | flushed id added state htask db state' hflush =>
      have hbuffers : s.service.buffers (.advance id added) = [] := by simp [Service.buffers, htask]
      have hrows : ∀ source, db.openRowsOf id source = (Task.flush state').inserts.count source ∧
          (source ∈ (Task.flush state').held → source ∈ (Task.flush state).held) := by
        intro source
        refine flush_inserts hledger.sound hflush ?_
        rw [hledger.inserts, inserts_eq htask]
      rw [hbuffers, List.append_nil]
      refine hledger.of_idle_task (hflush.change hledger.sound) rfl
        (fun source => (hrows source).1) trivial (fun h => h.elim) rfl (by simp [htask, Past]) hkept
        (fun source hmem => ?_) hmoved
      refine hledger.known source (Or.inr ⟨id, ?_⟩)
      rw [held_eq htask]
      exact (hrows source).2 hmem
  | fail id task htask =>
      rw [show s.service.buffers (.fail id) = [] from rfl, List.append_nil]
      refine hledger.of_idle_task .rollback rfl (fun source => ?_) (by cases task <;> trivial)
        (fun h => by cases task <;> exact h.elim) rfl (fun h => ?_) hkept
        (fun source hmem => by cases task <;> cases hmem) hmoved
      · rw [openRowsOf_rollback]
        cases task <;> rfl
      · rw [htask] at h
        cases task with
        | call ingestion state => rfl
        | flush state => exact h.elim
  | connect | disconnect =>
      simp only [Service.buffers, List.append_nil]
      exact ⟨hledger.sound, hledger.inserts, hledger.own, hledger.fresh, hledger.nodup, hledger.past,
        hledger.known, hmoved⟩

end Steps

section Conservation

-- Each buffered reading is there once, in the buffer or in the table, except while a flush
-- that has taken it is under way; after the shutdown it is in the table.
structure Lifespan.Conserved (s : Lifespan T) : Prop where
  once : ∀ source ∈ s.buffered, s.service.pendingOf source + s.service.db.rowsOf source ≤ 1
  available : ∀ source ∈ s.buffered,
    s.service.pendingOf source + s.service.db.rowsOf source = 1 ∨ s.service.flushing source
  quiet : s.service.quiet → ∀ source ∈ s.buffered,
    s.service.pendingOf source + s.service.db.rowsOf source = 1
  shutdown : s.closed = true → ∀ source ∈ s.buffered, s.service.db.rowsOf source = 1

-- A flush that has taken readings does not fail and is not cancelled before they are
-- committed, and at the shutdown there is none to flush.
def Unbroken (s : Lifespan T) : LifespanLabel → Prop
  | .serve (.advance id _) =>
      match s.service.tasks id with
      | some (.flush (.insert rows)) => (insertRows rows).isSome = true
      | _ => True
  | .serve (.fail id) =>
      match s.service.tasks id with
      | some (.flush state) => state.rows = []
      | _ => True
  | .serve _ => True
  | .shutdown => s.service.pending = [] ∧ s.service.quiet

def Lifespan.Kept (s : Lifespan T) : Prop :=
  ∀ source ∈ s.buffered, ∃ spot, s.service.At source spot ∧ spot ≠ .lost ∧
    (s.closed = true → spot = .committed)

variable {source : Source} {spot : Spot} {l : Label}

theorem mem_held_iff {s : Service T} : (∃ id, source ∈ s.held id) ↔ s.flushing source := by
  constructor
  · rintro ⟨id, hmem⟩
    cases htask : s.tasks id with
    | none => simp [Service.held, htask] at hmem
    | some task =>
        rw [held_eq htask] at hmem
        cases task with
        | call ingestion state => cases hmem
        | flush state =>
            obtain ⟨row, hrow, hsource⟩ := List.mem_map.mp hmem
            exact ⟨id, state, htask, row, hrow, hsource⟩
  · rintro ⟨id, state, htask, row, hrow, hsource⟩
    refine ⟨id, ?_⟩
    rw [held_eq htask]
    exact List.mem_map.mpr ⟨row, hrow, hsource⟩

theorem Service.At.of_mem_held {s : Service T} (hat : s.At source spot) {id : TaskId}
    (hmem : source ∈ s.held id) : spot = .held id := by
  by_contra hne
  have hzero := hat.held id
  rw [if_neg hne] at hzero
  exact List.count_eq_zero.mp hzero hmem

theorem Ledger.conserved_iff {s : Lifespan T} (hledger : Ledger s) : s.Conserved ↔ s.Kept := by
  constructor
  · intro h source hmem
    obtain ⟨spot, hat⟩ := hledger.spot source hmem
    refine ⟨spot, hat, ?_, fun hclosed => ?_⟩
    · rintro rfl
      rcases h.available source hmem with hone | hflush
      · rw [hat.pending, hat.committed] at hone
        cases hone
      · obtain ⟨id, hheld⟩ := mem_held_iff.mpr hflush
        cases hat.of_mem_held hheld
    · by_contra hne
      have hone := h.shutdown hclosed source hmem
      rw [hat.committed, if_neg hne] at hone
      cases hone
  · intro h
    have hsum : ∀ source ∈ s.buffered,
        s.service.pendingOf source + s.service.db.rowsOf source ≤ 1 ∧
          (s.service.pendingOf source + s.service.db.rowsOf source = 1 ∨ s.service.flushing source) := by
      intro source hmem
      obtain ⟨spot, hat, hlost, _⟩ := h source hmem
      rw [hat.pending, hat.committed]
      cases spot with
      | pending | committed => simp
      | held id =>
          have hcount : 0 < (s.service.held id).count source := by simp [hat.held id]
          simpa using mem_held_iff.mp ⟨id, List.count_pos_iff.mp hcount⟩
      | lost => exact absurd rfl hlost
    refine ⟨fun source hmem => (hsum source hmem).1, fun source hmem => (hsum source hmem).2, ?_, ?_⟩
    · intro hquiet source hmem
      refine (hsum source hmem).2.resolve_right ?_
      rintro ⟨id, state, htask, row, hrow, _⟩
      rw [hquiet id state htask] at hrow
      cases hrow
    · intro hclosed source hmem
      obtain ⟨spot, hat, _, hcommitted⟩ := h source hmem
      rw [hat.committed, hcommitted hclosed]
      rfl

theorem moved_committed (s : Service T) (l : Label) : s.moved l .committed = .committed := by
  cases l <;> rfl

theorem moved_lost (s : Service T) (l : Label) : s.moved l .lost = .lost := by
  cases l <;> rfl

-- Only what a flush holds can get lost.
theorem held_of_moved_lost {s : Service T} (h : s.moved l spot = .lost) :
    spot = .lost ∨ ∃ id, spot = .held id := by
  cases spot with
  | pending => cases l <;> simp [Service.moved] at h
  | held id => exact Or.inr ⟨id, rfl⟩
  | committed =>
      rw [moved_committed] at h
      cases h
  | lost => exact Or.inl rfl

theorem committed_of_moved {s : Service T} (hcancels : s.cancels l = true)
    (h : s.moved l spot = .committed) : spot = .committed := by
  cases l with
  | fail id =>
      simp only [Service.moved] at h
      split at h
      · cases h
      · exact h
  | _ => cases hcancels

theorem landing_lost_iff {s : Service T} {id : TaskId} :
    s.landing id = .lost ↔ ∃ rows, s.tasks id = some (.flush (.insert rows)) ∧ insertRows rows = none := by
  unfold Service.landing
  split
  · rename_i rows htask
    simp [htask]
  · rename_i rows htask
    simp [htask]
  · rename_i hinsert hcommit
    simp only [reduceCtorEq, false_iff, not_exists, not_and]
    exact fun rows htask => absurd htask (hinsert rows)

-- A step is unbroken exactly if it loses no reading.
theorem unbroken_iff {s : Lifespan T} : Unbroken s (.serve l) ↔
    ∀ id, s.service.moved l (.held id) = .lost → s.service.held id = [] := by
  cases l with
  | advance id added =>
      have hmoved : ∀ id', s.service.moved (.advance id added) (.held id') = .lost ↔
          id' = id ∧ s.service.landing id = .lost := by
        intro id'
        by_cases hid : id' = id <;> simp [Service.moved, hid]
      simp only [hmoved, landing_lost_iff]
      constructor
      · rintro h _ ⟨rfl, rows, htask, hnone⟩
        simp [Unbroken, htask, hnone] at h
      · intro h
        simp only [Unbroken]
        split
        · rename_i rows htask
          cases hvalues : insertRows rows with
          | some values => rfl
          | none =>
              have hheld := h id ⟨rfl, rows, htask, hvalues⟩
              rw [held_eq htask] at hheld
              have hrows : rows = [] := List.map_eq_nil_iff.mp hheld
              subst hrows
              cases hvalues
        · trivial
  | fail id =>
      have hmoved : ∀ id', s.service.moved (.fail id) (.held id') = .lost ↔ id' = id := by
        intro id'
        by_cases hid : id' = id <;> simp [Service.moved, hid]
      simp only [hmoved, forall_eq, Unbroken]
      split
      · rename_i state htask
        rw [held_eq htask]
        exact List.map_eq_nil_iff.symm
      · rename_i hother
        refine iff_of_true trivial ?_
        cases htask : s.service.tasks id with
        | none => exact held_of_none htask
        | some task =>
            cases task with
            | call ingestion state => exact held_call htask
            | flush state => exact absurd htask (hother state)
  | _ => simp [Unbroken, Service.moved]

theorem Ledger.serve_kept {s : Lifespan env.orjson.Text} (hledger : Ledger s)
    {t : Service env.orjson.Text} (hstep : s.service.step env l = some t)
    (hopen : s.closed = true → s.service.cancels l = true) :
    Lifespan.Kept { s with service := t, buffered := s.buffered ++ s.service.buffers l } ↔
      s.Kept ∧ Unbroken s (.serve l) := by
  rw [unbroken_iff]
  constructor
  · intro h
    have hold : ∀ source ∈ s.buffered, ∀ spot, s.service.At source spot →
        s.service.moved l spot ≠ .lost ∧ (s.closed = true → s.service.moved l spot = .committed) := by
      intro source hmem spot hat
      obtain ⟨spot', hat', hlost, hcommitted⟩ := h source (List.mem_append_left _ hmem)
      rw [← hat'.unique (hledger.at_moved hstep hmem hat)]
      exact ⟨hlost, hcommitted⟩
    refine ⟨fun source hmem => ?_, fun id hlost => ?_⟩
    · obtain ⟨spot, hat⟩ := hledger.spot source hmem
      obtain ⟨hkept, hcommitted⟩ := hold source hmem spot hat
      refine ⟨spot, hat, ?_, fun hclosed => committed_of_moved (hopen hclosed) (hcommitted hclosed)⟩
      rintro rfl
      exact hkept (moved_lost s.service l)
    · refine List.eq_nil_iff_forall_not_mem.mpr fun source hheld => ?_
      have hmem := hledger.known source (Or.inr ⟨id, hheld⟩)
      obtain ⟨spot, hat⟩ := hledger.spot source hmem
      have hkept := (hold source hmem spot hat).1
      rw [hat.of_mem_held hheld] at hkept
      exact hkept hlost
  · rintro ⟨hkept, hunbroken⟩ source hmem
    rcases List.mem_append.mp hmem with hmem | hmem
    · obtain ⟨spot, hat, hlost, hcommitted⟩ := hkept source hmem
      refine ⟨_, hledger.at_moved hstep hmem hat, fun hgone => ?_, fun hclosed => ?_⟩
      · obtain ⟨id, rfl⟩ := (held_of_moved_lost hgone).resolve_left hlost
        have hcount := hat.held id
        rw [hunbroken id hgone] at hcount
        simp at hcount
      · rw [hcommitted hclosed, moved_committed]
    · refine ⟨.pending, ((hledger.at_buffered hstep).2 source hmem).2.2, by simp, fun hclosed => ?_⟩
      obtain ⟨added, rfl⟩ := ((hledger.at_buffered hstep).2 source hmem).1
      cases hopen hclosed

theorem Ledger.close_kept {s : Lifespan T} (hledger : Ledger s) :
    Lifespan.Kept { s with closed := true } ↔ s.Kept ∧ Unbroken s .shutdown := by
  constructor
  · intro h
    have hat : ∀ source ∈ s.buffered, s.service.At source .committed := by
      intro source hmem
      obtain ⟨spot, hat, _, hcommitted⟩ := h source hmem
      exact hcommitted rfl ▸ hat
    refine ⟨fun source hmem => ⟨_, hat source hmem, by simp, fun _ => rfl⟩, ?_, ?_⟩
    · refine List.eq_nil_iff_forall_not_mem.mpr fun row hrow => ?_
      have hpending : row.source ∈ s.service.pending.map Measured.source := List.mem_map_of_mem hrow
      have hzero := (hat _ (hledger.known _ (Or.inl hpending))).pending
      exact List.count_eq_zero.mp hzero hpending
    · refine fun id state htask => List.eq_nil_iff_forall_not_mem.mpr fun row hrow => ?_
      have hheld : row.source ∈ s.service.held id := by
        rw [held_eq htask]
        exact List.mem_map_of_mem hrow
      cases (hat _ (hledger.known _ (Or.inr ⟨id, hheld⟩))).of_mem_held hheld
  · rintro ⟨hkept, hpending, hquiet⟩ source hmem
    obtain ⟨spot, hat, hlost, _⟩ := hkept source hmem
    refine ⟨spot, hat, hlost, fun _ => ?_⟩
    cases spot with
    | committed => rfl
    | lost => exact absurd rfl hlost
    | pending =>
        have hone := hat.pending
        simp [Service.pendingOf, hpending] at hone
    | held id =>
        have hcount : 0 < (s.service.held id).count source := by simp [hat.held id]
        obtain ⟨id', state, htask, row, hrow, _⟩ := mem_held_iff.mp ⟨id, List.count_pos_iff.mp hcount⟩
        rw [hquiet id' state htask] at hrow
        cases hrow

-- The step lemma: a step keeps the books, and everything, exactly if it is unbroken.
theorem Ledger.step {s t : Lifespan env.orjson.Text} {l : LifespanLabel} (hledger : Ledger s)
    (hstep : s.step env l = some t) : Ledger t ∧ (t.Kept ↔ s.Kept ∧ Unbroken s l) := by
  cases l with
  | serve l =>
      simp only [Lifespan.step] at hstep
      split at hstep
      · cases hstep
      · rename_i hopen
        obtain ⟨u, hserve, rfl⟩ := Option.map_eq_some_iff.mp hstep
        refine ⟨hledger.serve hserve, hledger.serve_kept hserve fun hclosed => ?_⟩
        simpa [hclosed] using hopen
  | shutdown =>
      simp only [Lifespan.step] at hstep
      split at hstep <;> cases hstep
      exact ⟨⟨hledger.sound, hledger.inserts, hledger.own, hledger.fresh, hledger.nodup, hledger.past,
        hledger.known, hledger.spot⟩, hledger.close_kept⟩

theorem ledger_init : Ledger (Lifespan.init : Lifespan T) where
  sound := sound_empty_database
  inserts := by simp [Lifespan.init, Service.init, Service.inserts, Database.openRowsOf, inserted,
    Database.empty, RowStore.Store.empty, RowStore.Store.mine]
  own := by simp [Lifespan.init, Service.init]
  fresh := by simp [Lifespan.init, Service.init, Database.rowsOf, Database.telemetry, inserted,
    Database.empty, RowStore.Store.empty]
  nodup := List.nodup_nil
  past := by simp [Lifespan.init]
  known := by simp [Lifespan.init, Service.init, Service.held]
  spot := by simp [Lifespan.init]

-- The readings are conserved in a run exactly if all its steps are unbroken.
theorem conserved_iff_unbroken {labels : List LifespanLabel} {s : Lifespan env.orjson.Text}
    (hrun : exec (Lifespan.step env) Lifespan.init labels = some s) :
    s.Conserved ↔ Along (Lifespan.step env) Unbroken Lifespan.init labels := by
  have hledger : Ledger s :=
    exec_invariant (I := Ledger) (fun u l v hu hstep => (hu.step hstep).1) ledger_init hrun
  have hiff := exec_along_iff (C := Unbroken) (I := Ledger) (P := Lifespan.Kept)
    (fun u l v hu hstep => hu.step hstep) ledger_init hrun
  rw [hledger.conserved_iff, hiff]
  exact and_iff_right (by simp [Lifespan.Kept, Lifespan.init])

end Conservation

section Broken

def deferredEnv : Env where
  settings := { defaults with
    websocket_backend := "direct"
    defer_writes_without_viewers := true
    opt_redis_buffer := false }
  orjson := .values
  serialize := fun _ => ""

-- A reading that is buffered, and a flush that takes it.
def deferred : List LifespanLabel :=
  [.serve (.call 0 noon (.ingest (plainReading 1 (.finite 91)))), .serve (.advance 0 [])]

-- A flush that fails at its INSERT, and a shutdown before the next interval, leave the
-- reading nowhere.
theorem deferred_reading_lost : deferredEnv.settings.accepted = true ∧
    (∃ s, exec (Lifespan.step deferredEnv) .init (deferred ++ [.serve (.flush 1), .serve (.fail 1)]) =
        some s ∧ s.service.quiet ∧ s.buffered = [(0, 0)] ∧
        s.service.pendingOf (0, 0) + s.service.db.rowsOf (0, 0) = 0) ∧
      ∃ s, exec (Lifespan.step deferredEnv) .init (deferred ++ [.shutdown]) = some s ∧
        s.closed = true ∧ s.service.quiet ∧ s.buffered = [(0, 0)] ∧
        s.service.db.rowsOf (0, 0) = 0 := by
  refine ⟨by decide +kernel, ⟨_, rfl, ?_, rfl, rfl⟩, ⟨_, rfl, rfl, ?_, rfl, rfl⟩⟩
  · intro id state htask
    rcases id with _ | _ | id
    · cases htask
    · cases htask
      rfl
    · cases htask
  · intro id state htask
    rcases id with _ | id
    · cases htask
    · cases htask

theorem conserved_iff_unbroken_flushed :
    ∃ s, exec (Lifespan.step deferredEnv) .init
        (deferred ++ [.serve (.flush 1), .serve (.advance 1 []), .serve (.advance 1 []), .shutdown]) =
          some s ∧ s.buffered = [(0, 0)] ∧ s.Conserved := by
  have hrun : exec (Lifespan.step deferredEnv) .init
      (deferred ++ [.serve (.flush 1), .serve (.advance 1 []), .serve (.advance 1 []), .shutdown]) =
        some _ := rfl
  refine ⟨_, hrun, rfl, (conserved_iff_unbroken hrun).mpr ?_⟩
  refine along_cons rfl trivial (along_cons rfl trivial (along_cons rfl trivial
    (along_cons rfl rfl (along_cons rfl trivial (along_cons rfl ⟨rfl, ?_⟩ trivial)))))
  intro id state htask
  rcases id with _ | _ | id
  · cases htask
  · cases htask
    rfl
  · cases htask

end Broken

end FleetOps.Telemetry
