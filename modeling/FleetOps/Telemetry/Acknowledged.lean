import FleetOps.Telemetry.Calls

namespace FleetOps.Telemetry

open Dict Runs RowStore

variable {env : Env} {held : Source → Prop}

abbrev Run (env : Env) (labels : List Label) (s : Service env.orjson.Text) : Prop :=
  exec (Service.step env) Service.init labels = some s

-- Where an acknowledged reading can be. `held` are those that the ingest stream
-- holds or has brought to the table.
def Service.stored {T : Type} (s : Service T) (held : Source → Prop) (source : Source) : Prop :=
  held source ∨ (∃ row, (source, row) ∈ s.db.telemetry) ∨ ∃ row ∈ s.pending, row.source = source

-- The rows that a flush has taken from the buffer and not committed yet.
def FlushState.rows : FlushState → List Measured
  | .insert rows | .commit rows => rows
  | .mark_seen _ | .ended => []

def Service.flushing {T : Type} (s : Service T) (source : Source) : Prop :=
  ∃ id state, s.tasks id = some (.flush state) ∧ ∃ row ∈ state.rows, row.source = source

def Service.secured {T : Type} (s : Service T) (held : Source → Prop) (source : Source) : Prop :=
  s.stored held source ∨ s.flushing source

-- The steps that can lose readings do not: a publish of the buffered path goes to
-- Redis and every entry is encoded and added, and a flush reaches its commit.
def dependable (env : Env) (s : Service env.orjson.Text) : Label → Prop
  | .advance id added =>
      match s.tasks id with
      | some (.call _ (.publish payloads _)) =>
          env.settings.opt_redis_buffer = true →
            env.settings.websocket_backend ≠ "direct" ∧
              (∀ p ∈ payloads, (Json.obj p.2).encodable = true) ∧ ∀ i < payloads.length, i ∈ added
      | some (.flush (.insert rows)) => (insertRows rows).isSome = true
      | _ => True
  | .fail id =>
      match s.tasks id with
      | some (.flush state) => state.rows = []
      | _ => True
  | _ => True

-- The sources of a call's readings are all among `sources`.
def Covers (id : TaskId) (n : Nat) (sources : List Source) : Prop := ∀ i < n, (id, i) ∈ sources

def CallState.holds (env : Env) (held : Source → Prop) (s : Service env.orjson.Text) (id : TaskId)
    (n : Nat) : CallState → Prop
  | .insert rows | .buffer rows => Covers id n (rows.map Measured.source)
  | .commit_insert _ _ => Covers id n ((inserted (s.db.store.mine id)).map Prod.fst)
  | .refresh _ _ | .mark_seen _ _ | .commit _ _ => Covers id n (s.db.telemetry.map Prod.fst)
  | .publish payloads _ =>
      (env.settings.opt_redis_buffer = true ∧ Covers id n (payloads.map Prod.fst)) ∨
        ∀ i < n, s.secured held (id, i)
  | .acknowledged _ => ∀ i < n, s.secured held (id, i)
  | .raised => True

def Task.holds (env : Env) (held : Source → Prop) (s : Service env.orjson.Text) (id : TaskId) :
    Task → Prop
  | .call ingestion state => state.holds env held s id ingestion.readings.length
  | .flush (.commit rows) =>
      ∀ row ∈ rows, row.source ∈ (inserted (s.db.store.mine id)).map Prod.fst
  | .flush _ => True

structure Inv (env : Env) (held : Source → Prop) (s : Service env.orjson.Text) : Prop where
  sound : s.db.Sound
  holds : ∀ id task, s.tasks id = some task → task.holds env held s id

section Rows

theorem resolve_covers {settings : Settings} {id : TaskId} {now : Calendar.Utc}
    {data : List TelemetryCreate} {rows : List Measured}
    (h : resolve settings id now data = some rows) :
    Covers id data.length (rows.map Measured.source) := by
  intro i hi
  have hmem : (data[i], i) ∈ data.zipIdx := by
    rw [List.mk_mem_zipIdx_iff_getElem?]
    simp [hi]
  obtain ⟨row, hrow, heq⟩ := mem_of_mapM h _ hmem
  obtain ⟨timestamp, _, rfl⟩ := Option.map_eq_some_iff.mp heq
  exact List.mem_map_of_mem hrow

theorem covers_of_mapM {α : Type} {f : Measured → Option (Source × α)}
    (hf : ∀ row p, f row = some p → p.1 = row.source) {id : TaskId} {n : Nat}
    {rows : List Measured} {out : List (Source × α)} (h : rows.mapM f = some out)
    (hrows : Covers id n (rows.map Measured.source)) : Covers id n (out.map Prod.fst) := by
  intro i hi
  obtain ⟨row, hrow, hsource⟩ := List.mem_map.mp (hrows i hi)
  obtain ⟨p, hp, heq⟩ := mem_of_mapM h row hrow
  exact List.mem_map.mpr ⟨p, hp, (hf row p heq).trans hsource⟩

theorem insertRows_source {row : Measured} {p : Source × TelemetryRow}
    (h : ((columns (.of row.data row.timestamp)).map fun r => (row.source, r)) = some p) :
    p.1 = row.source := by
  obtain ⟨r, _, rfl⟩ := Option.map_eq_some_iff.mp h
  rfl

theorem map_fst_insertRows {rows : List Measured} {values : List (Source × TelemetryRow)}
    (h : insertRows rows = some values) : values.map Prod.fst = rows.map Measured.source :=
  map_of_mapM (fun _ _ => insertRows_source) h

theorem payloads_source {serialize : Calendar.Datetime → String} {row : Measured}
    {p : Source × Dict}
    (h : ((stamped serialize row.data row.timestamp).map fun payload => (row.source, payload)) =
      some p) : p.1 = row.source := by
  obtain ⟨r, _, rfl⟩ := Option.map_eq_some_iff.mp h
  rfl

-- Every payload becomes an entry if all are encoded and every XADD takes effect.
theorem broadcast_covers {out : List (Source × Dict)} {added : List Nat}
    (hbackend : env.settings.websocket_backend ≠ "direct")
    (hencode : ∀ p ∈ out, (Json.obj p.2).encodable = true)
    (hadded : ∀ i < out.length, i ∈ added) :
    ∀ p ∈ out, ∃ entry ∈ broadcast env out added, entry.source = p.1 := by
  obtain ⟨entries, hentries, hlen⟩ := mapM_eq_some_of_forall
    (f := fun p : Source × Dict => (env.orjson.dumps (.obj p.2)).map (Entry.mk p.1))
    fun p (hp : p ∈ out) => by rw [Option.isSome_map, env.orjson.dumps_isSome, hencode p hp]
  intro p hp
  obtain ⟨entry, hentry, heq⟩ := mem_of_mapM hentries p hp
  obtain ⟨text, _, rfl⟩ := Option.map_eq_some_iff.mp heq
  refine ⟨⟨p.1, text⟩, ?_, rfl⟩
  obtain ⟨i, hi, hget⟩ := List.getElem_of_mem hentry
  simp only [broadcast, if_neg hbackend, hentries, List.mem_map, List.mem_filter,
    decide_eq_true_eq]
  refine ⟨(⟨p.1, text⟩, i), ⟨?_, hadded i (hlen ▸ hi)⟩, rfl⟩
  rw [List.mk_mem_zipIdx_iff_getElem?, List.getElem?_eq_getElem hi, hget]

end Rows

section Steps

section Changes

variable {s : Service env.orjson.Text} {id : TaskId} {added : List Nat} {call : Ingestion}
  {state state' : CallState} {db : Database TaskId Source} {pending : List Measured}
  {entries : List (Entry env.orjson.Text)}

-- A call changes the database in its own transaction and only adds to the buffer.
theorem CallStep.change (hdb : s.db.Sound)
    (h : CallStep env s id added call state db pending state' entries) :
    Change id s.db db ∧ ∀ row ∈ s.pending, row ∈ pending := by
  cases h with
  | refused => exact ⟨.rollback, fun _ hrow => hrow⟩
  | insert => exact ⟨insert_telemetry_change hdb id _, fun _ hrow => hrow⟩
  | commit_one | commit_batch | unconverted_batch | commit | unconverted =>
      exact ⟨.commit, fun _ hrow => hrow⟩
  | refresh | publish => exact ⟨.same, fun _ hrow => hrow⟩
  | mark_seen rows row_id latest hlatest db hseen =>
      exact ⟨mark_seen_change hdb hseen, fun _ hrow => hrow⟩
  | buffer => exact ⟨.same, fun _ hrow => List.mem_append_left _ hrow⟩

theorem FlushStep.change {db db' : Database TaskId Source} {state state' : FlushState}
    (hdb : db.Sound) (h : FlushStep db id state db' state') : Change id db db' := by
  cases h with
  | refused | mark_seen => exact .rollback
  | insert => exact insert_telemetry_change hdb id _
  | commit => exact .commit

end Changes

-- The task that takes a step.
def Label.actor : Label → Option TaskId
  | .call id _ _ | .flush id | .advance id _ | .fail id => some id
  | .connect | .disconnect => none

-- A step changes the database in the transaction of its task, and no other task.
theorem step_spec {s t : Service env.orjson.Text} {l : Label} (hdb : s.db.Sound)
    (hstep : s.step env l = some t) :
    match l.actor with
    | some id => Change id s.db t.db ∧ ∃ task, t.tasks = Function.update s.tasks id (some task)
    | none => t.db = s.db ∧ t.tasks = s.tasks := by
  cases service_step hstep with
  | call | flush => exact ⟨.same, _, rfl⟩
  | next id added call state htask db pending state' entries hnext => exact ⟨(hnext.change hdb).1, _, rfl⟩
  | flushed id added state htask db state' hflush => exact ⟨hflush.change hdb, _, rfl⟩
  | fail => exact ⟨.rollback, _, rfl⟩
  | connect | disconnect => exact ⟨rfl, rfl⟩

-- What a step leaves of a task that does not take it.
structure Grows (held : Source → Prop) (s t : Service env.orjson.Text) : Prop where
  telemetry : ∀ p ∈ s.db.telemetry, p ∈ t.db.telemetry
  secured : ∀ source, s.secured held source → t.secured held source

theorem Task.holds_of_grows {s t : Service env.orjson.Text} (hgrows : Grows held s t)
    {id : TaskId} (hmine : t.db.store.mine id = s.db.store.mine id) {task : Task}
    (h : task.holds env held s id) : task.holds env held t id := by
  have htelemetry : ∀ source, source ∈ s.db.telemetry.map Prod.fst →
      source ∈ t.db.telemetry.map Prod.fst := by
    intro source hsource
    obtain ⟨p, hp, rfl⟩ := List.mem_map.mp hsource
    exact List.mem_map_of_mem (hgrows.telemetry p hp)
  cases task with
  | call ingestion state =>
      cases state with
      | insert rows | buffer rows | raised => exact h
      | commit_insert rows row_id =>
          simp only [Task.holds, CallState.holds, hmine] at h ⊢
          exact h
      | refresh rows row_id | mark_seen rows row_id | commit rows row_id =>
          exact fun i hi => htelemetry _ (h i hi)
      | publish payloads ack =>
          exact h.imp_right fun hsecured i hi => hgrows.secured _ (hsecured i hi)
      | acknowledged ack => exact fun i hi => hgrows.secured _ (h i hi)
  | flush state =>
      cases state with
      | insert rows | mark_seen rows | ended => trivial
      | commit rows =>
          simp only [Task.holds, hmine] at h ⊢
          exact h

-- A reading in the telemetry table is secured, whatever else changes.
theorem secured_of_telemetry {s : Service env.orjson.Text} {source : Source}
    (h : source ∈ s.db.telemetry.map Prod.fst) : s.secured held source := by
  obtain ⟨⟨_, row⟩, hp, rfl⟩ := List.mem_map.mp h
  exact Or.inl (Or.inr (Or.inl ⟨row, hp⟩))

-- A step that keeps what is stored and leaves each flush its rows, or has
-- committed them, keeps every reading secured.
theorem grows_of {s t : Service env.orjson.Text}
    (htelemetry : ∀ p ∈ s.db.telemetry, p ∈ t.db.telemetry)
    (hpending : ∀ row ∈ s.pending, row ∈ t.pending ∨ t.flushing row.source)
    (hflush : ∀ id state, s.tasks id = some (.flush state) → ∀ row ∈ state.rows,
      t.secured held row.source) : Grows held s t where
  telemetry := htelemetry
  secured := by
    rintro source ((hheld | ⟨row, hrow⟩ | ⟨row, hrow, hsource⟩) |
      ⟨id, state, htask, row, hrow, hsource⟩)
    · exact Or.inl (Or.inl hheld)
    · exact Or.inl (Or.inr (Or.inl ⟨row, htelemetry _ hrow⟩))
    · rcases hpending row hrow with h | h
      · exact Or.inl (Or.inr (Or.inr ⟨row, h, hsource⟩))
      · exact Or.inr (hsource ▸ h)
    · exact hsource ▸ hflush id state htask row hrow

theorem secured_of_flush {T : Type} {t : Service T} (id : TaskId) {state : FlushState}
    (htask : t.tasks id = some (.flush state)) {row : Measured} (hrow : row ∈ state.rows) :
    t.secured held row.source :=
  Or.inr ⟨id, state, htask, row, hrow, rfl⟩

theorem other_of_call {s : Service env.orjson.Text} {id id' : TaskId} {task : Task}
    {state : FlushState} (htask : s.tasks id = some task) (hother : ∀ state, task ≠ .flush state)
    (hflush : s.tasks id' = some (.flush state)) : id' ≠ id := by
  rintro rfl
  rw [htask] at hflush
  exact hother state (Option.some.inj hflush)

theorem grows_call {s : Service env.orjson.Text} {id : TaskId} {added : List Nat} {call : Ingestion}
    {state state' : CallState} {db : Database TaskId Source} {pending : List Measured}
    {entries : List (Entry env.orjson.Text)} (hdb : s.db.Sound)
    (htask : s.tasks id = some (.call call state))
    (h : CallStep env s id added call state db pending state' entries) :
    Grows held s { s with
      stream := s.stream ++ entries
      db := db
      pending := pending
      tasks := Function.update s.tasks id (some (.call call state')) } := by
  obtain ⟨hchange, hpending⟩ := h.change hdb
  refine grows_of (fun p hp => hchange.telemetry_subset hp)
    (fun row hrow => Or.inl (hpending row hrow)) ?_
  intro id' flush hflush row hrow
  have hne : id' ≠ id := other_of_call htask (by simp) hflush
  exact secured_of_flush id' (by simpa [hne] using hflush) hrow

theorem grows_flush {s : Service env.orjson.Text} (hinv : Inv env held s) {id : TaskId}
    {state state' : FlushState} {db : Database TaskId Source}
    (htask : s.tasks id = some (.flush state)) (h : FlushStep s.db id state db state')
    (hrows : ∀ rows, state = .insert rows → (insertRows rows).isSome = true) :
    Grows held s { s with db := db, tasks := Function.update s.tasks id (some (.flush state')) } := by
  have hchange := h.change hinv.sound
  refine grows_of (fun p hp => hchange.telemetry_subset hp)
    (fun row hrow => Or.inl hrow) ?_
  intro id' other hother row hrow
  by_cases hid : id' = id
  · subst hid
    obtain rfl : other = state := by
      rw [htask] at hother
      cases hother
      rfl
    cases h with
    | refused rows hvalues =>
        have hsome := hrows rows rfl
        rw [hvalues] at hsome
        cases hsome
    | insert rows values =>
        have hkept : row ∈ (FlushState.commit rows).rows := hrow
        exact secured_of_flush id' (Function.update_self _ _ _) hkept
    | commit rows =>
        apply secured_of_telemetry
        rw [telemetry_commit, List.map_append]
        exact List.mem_append_right _ (hinv.holds id' _ htask row hrow)
    | mark_seen rows => cases hrow
  · exact secured_of_flush id' (by simpa [hid] using hother) hrow

theorem grows_step {s t : Service env.orjson.Text} {l : Label} (hinv : Inv env held s)
    (hdep : dependable env s l) (hstep : s.step env l = some t) : Grows held s t := by
  cases service_step hstep with
  | call id now ingestion hfree =>
      refine grows_of (fun _ hp => hp) (fun _ hrow => Or.inl hrow) ?_
      intro id' state hflush row hrow
      have hne : id' ≠ id := by
        rintro rfl
        simp [hflush] at hfree
      exact secured_of_flush id' (by simpa [hne] using hflush) hrow
  | flush id hfree =>
      refine grows_of (fun _ hp => hp) (fun row hrow => Or.inr ?_) ?_
      · have hne : s.pending.isEmpty = false := by
          rw [List.isEmpty_eq_false_iff]
          exact List.ne_nil_of_mem hrow
        exact ⟨id, .insert s.pending, by simp [hne], row, hrow, rfl⟩
      · intro id' state hflush row hrow
        have hne : id' ≠ id := by
          rintro rfl
          simp [hflush] at hfree
        exact secured_of_flush id' (by simpa [hne] using hflush) hrow
  | next id added call state htask db pending state' entries hnext =>
      exact grows_call hinv.sound htask hnext
  | flushed id added state htask db state' hflush =>
      refine grows_flush hinv htask hflush ?_
      rintro rows rfl
      simpa [dependable, htask] using hdep
  | fail id task =>
      refine grows_of (fun _ hp => hp) (fun _ hrow => Or.inl hrow) ?_
      intro id' state hflush row hrow
      have hne : id' ≠ id := by
        rintro rfl
        simp only [dependable, hflush] at hdep
        rw [hdep] at hrow
        cases hrow
      exact secured_of_flush id' (by simpa [hne] using hflush) hrow
  | connect | disconnect =>
      exact grows_of (fun _ hp => hp) (fun _ hrow => Or.inl hrow)
        fun id' state hflush row hrow => secured_of_flush id' hflush hrow

theorem secured_of_covers {s : Service env.orjson.Text} {id : TaskId} {n : Nat}
    (h : Covers id n (s.db.telemetry.map Prod.fst)) : ∀ i < n, s.secured held (id, i) :=
  fun i hi => secured_of_telemetry (h i hi)

theorem begin_holds {s : Service env.orjson.Text} (viewers : Nat) (id : TaskId) (now : Calendar.Utc)
    (call : Ingestion) :
    (call.begin env viewers id now).holds env held s id call.readings.length := by
  rcases begin_cases env viewers id now call with
    hraised | ⟨rows, hrows, ⟨hbuffer, out, hout, hpublish⟩ | hinsert | hpending⟩
  · rw [hraised]
    trivial
  · rw [hpublish]
    exact Or.inl ⟨hbuffer, covers_of_mapM (fun _ _ h => payloads_source h) hout (resolve_covers hrows)⟩
  · rw [hinsert]
    exact resolve_covers hrows
  · rw [hpending]
    exact resolve_covers hrows

-- The step lemma of a call: what it has secured so far.
theorem next_holds {s : Service env.orjson.Text} (hinv : Inv env held s) {id : TaskId} {added : List Nat}
    {call : Ingestion} {state state' : CallState} {db : Database TaskId Source}
    {pending : List Measured} {entries : List (Entry env.orjson.Text)}
    (htask : s.tasks id = some (.call call state)) (hdep : dependable env s (.advance id added))
    (hnew : env.settings.opt_redis_buffer = true → ∀ entry ∈ entries, held entry.source)
    (h : CallStep env s id added call state db pending state' entries) :
    state'.holds env held { s with
      stream := s.stream ++ entries
      db := db
      pending := pending
      tasks := Function.update s.tasks id (some (.call call state')) } id call.readings.length := by
  have hgrows : Grows held s _ := grows_call hinv.sound htask h
  have hold : state.holds env held s id call.readings.length := hinv.holds id _ htask
  have hcommitted : Covers id call.readings.length ((inserted (s.db.store.mine id)).map Prod.fst) →
      Covers id call.readings.length ((s.db.commit id).telemetry.map Prod.fst) := by
    intro hcovers i hi
    rw [telemetry_commit, List.map_append]
    exact List.mem_append_right _ (hcovers i hi)
  cases h with
  | refused | unconverted_batch | unconverted => trivial
  | insert rows values hvalues =>
      have hmine := (insert_telemetry_spec hinv.sound id values).2.2
      have hcovers := covers_of_mapM (fun _ _ h => insertRows_source h) hvalues hold
      simp only [CallState.holds, hmine, List.map_append]
      exact fun i hi => List.mem_append_right _ (hcovers i hi)
  | commit_one | commit_batch => exact hcommitted hold
  | refresh => exact hold
  | mark_seen =>
      intro i hi
      obtain ⟨p, hp, hsource⟩ := List.mem_map.mp (hold i hi)
      exact List.mem_map.mpr ⟨p, hgrows.telemetry p hp, hsource⟩
  | commit => exact Or.inr fun i hi => hgrows.secured _ (secured_of_covers hold i hi)
  | buffer rows =>
      refine Or.inr fun i hi => Or.inl (Or.inr (Or.inr ?_))
      obtain ⟨row, hrow, hsource⟩ := List.mem_map.mp (hold i hi)
      exact ⟨row, List.mem_append_right _ hrow, hsource⟩
  | publish out ack =>
      rcases hold with ⟨hbuffer, hcovers⟩ | hsecured
      · simp only [dependable, htask] at hdep
        obtain ⟨hbackend, hencode, hadded⟩ := hdep hbuffer
        intro i hi
        obtain ⟨p, hp, hsource⟩ := List.mem_map.mp (hcovers i hi)
        obtain ⟨entry, hentry, heq⟩ := broadcast_covers hbackend hencode hadded p hp
        exact Or.inl (Or.inl (heq.trans hsource ▸ hnew hbuffer entry hentry))
      · exact fun i hi => hgrows.secured _ (hsecured i hi)

theorem flush_holds {s : Service env.orjson.Text} (hinv : Inv env held s) {id : TaskId}
    {state state' : FlushState} {db : Database TaskId Source} {tasks : TaskId → Option Task}
    (h : FlushStep s.db id state db state') :
    (Task.flush state').holds env held { s with db := db, tasks := tasks } id := by
  cases h with
  | refused | commit | mark_seen => trivial
  | insert rows values hvalues =>
      intro row hrow
      obtain ⟨p, hp, heq⟩ := mem_of_mapM hvalues row hrow
      have hmine := (insert_telemetry_spec hinv.sound id values).2.2
      simp only [hmine, List.map_append]
      exact List.mem_append_right _ (List.mem_map.mpr ⟨p, hp, insertRows_source heq⟩)

-- The task that takes a step has what its new state promises, the others keep
-- what theirs do.
theorem inv_of_grows {s t : Service env.orjson.Text} {id : TaskId} {task : Task} (hinv : Inv env held s)
    (hchange : Change id s.db t.db) (hgrows : Grows held s t)
    (htasks : t.tasks = Function.update s.tasks id (some task)) (hown : task.holds env held t id) :
    Inv env held t where
  sound := hchange.sound hinv.sound
  holds := by
    rw [htasks]
    exact forall_update hown fun id' task' hid htask' =>
      Task.holds_of_grows hgrows (hchange.mine_of_ne hid) (hinv.holds id' task' htask')

-- The entries that the buffered path adds have to be held from then on.
theorem Inv.step {s t : Service env.orjson.Text} {l : Label} (hdep : dependable env s l)
    (hnew : env.settings.opt_redis_buffer = true →
      ∀ entry ∈ t.stream.drop s.stream.length, held entry.source)
    (hinv : Inv env held s) (hstep : s.step env l = some t) : Inv env held t := by
  have hgrows := grows_step hinv hdep hstep
  cases service_step hstep with
  | call id now ingestion => exact inv_of_grows hinv .same hgrows rfl (begin_holds _ id now ingestion)
  | flush id =>
      refine inv_of_grows hinv .same hgrows rfl ?_
      cases s.pending.isEmpty <;> trivial
  | next id added call state htask db pending state' entries hnext =>
      rw [List.drop_left] at hnew
      exact inv_of_grows hinv (hnext.change hinv.sound).1 hgrows rfl
        (next_holds hinv htask hdep hnew hnext)
  | flushed id added state htask db state' hflush =>
      exact inv_of_grows hinv (hflush.change hinv.sound) hgrows rfl (flush_holds hinv hflush)
  | fail id task =>
      refine inv_of_grows hinv .rollback hgrows rfl ?_
      cases task <;> trivial
  | connect | disconnect =>
      exact ⟨hinv.sound, fun id task htask => Task.holds_of_grows hgrows rfl (hinv.holds id task htask)⟩

theorem inv_init : Inv env held Service.init where
  sound := sound_empty_database
  holds := by simp [Service.init]

end Steps

theorem Inv.mono {held' : Source → Prop} {s : Service env.orjson.Text} (hinv : Inv env held s)
    (hheld : ∀ source, held source → held' source) : Inv env held' s where
  sound := hinv.sound
  holds := fun id task htask => by
    have hsecured : ∀ source, s.secured held source → s.secured held' source :=
      fun source h => h.imp_left fun hstored => hstored.imp_left (hheld source)
    have hold := hinv.holds id task htask
    cases task with
    | flush state => cases state <;> exact hold
    | call ingestion state =>
        cases state with
        | publish payloads ack => exact hold.imp_right fun h i hi => hsecured _ (h i hi)
        | acknowledged ack => exact fun i hi => hsecured _ (hold i hi)
        | insert | commit_insert | refresh | mark_seen | commit | buffer | raised => exact hold

-- No flush is between taking the buffer and its commit.
def Service.quiet {T : Type} (s : Service T) : Prop :=
  ∀ id state, s.tasks id = some (.flush state) → state.rows = []

-- An acknowledged reading is stored, or in the hands of a flush that has yet to
-- commit it.
theorem Inv.acknowledged {s : Service env.orjson.Text} (hinv : Inv env held s) {id : TaskId}
    {call : Ingestion} {ack : Ack} (hack : s.tasks id = some (.call call (.acknowledged ack))) :
    ∀ i < call.readings.length,
      (s.stored held (id, i) ∨ s.flushing (id, i)) ∧ (s.quiet → s.stored held (id, i)) := by
  intro i hi
  have hsecured : s.secured held (id, i) := hinv.holds id _ hack i hi
  refine ⟨hsecured, fun hquiet => ?_⟩
  rcases hsecured with hstored | ⟨id', state, htask, row, hrow, _⟩
  · exact hstored
  · rw [hquiet id' state htask] at hrow
    cases hrow

section Single

-- The defaults of `Settings`.
def defaults : Settings where
  app_env := "development"
  cors_origins := "http://localhost:5173,http://localhost:3000"
  telemetry_api_key := "key"
  auth_mode := none
  jwt_secret := none
  websocket_backend := "redis"
  defer_writes_without_viewers := false
  max_clock_skew_seconds := 300
  opt_redis_buffer := true
  opt_batch_insert := true
  telemetry_stream_maxlen := 100000

-- A robot's plain report of its number and its battery.
def plainReading (robot_id : Int) (battery : PyFloat) : TelemetryCreate where
  robot_id := robot_id
  battery := battery
  temperature := .finite 30
  speed := .finite 1
  timestamp := none
  status := none
  mission_id := none
  mission_type := none
  mission_progress := none
  mission_start_time := none
  battery_health := none
  motor_health := none
  sensor_health := none
  network_health := none
  x := none
  y := none

theorem begin_publish (hbuffer : env.settings.opt_redis_buffer = true) (viewers : Nat) (id : TaskId)
    (now : Calendar.Utc) (data : TelemetryCreate) (hnow : data.timestamp = none) :
    ∃ payload, stamped env.serialize data now = some payload ∧
      (Ingestion.ingest data).begin env viewers id now =
        .publish [((id, 0), payload)] ⟨"Telemetry queued in Redis", some 0⟩ := by
  obtain ⟨text, hiso, _, _⟩ := parse_time_text_to_iso now
  have hstamped : stamped env.serialize data now =
      some (setItem (model_dump env.serialize data) "timestamp" (.str text)) := by
    simp [stamped, hiso]
  refine ⟨_, hstamped, ?_⟩
  simp [Ingestion.begin, resolve, Ingestion.readings, resolve_timestamp, hnow, hbuffer, payloads,
    hstamped, Ingestion.ack]

-- The service with nothing but one call of `ingest` in it.
def Service.single (env : Env) (data : TelemetryCreate) (stream : List (Entry env.orjson.Text))
    (state : CallState) : Service env.orjson.Text where
  viewers := 0
  stream := stream
  db := .empty
  pending := []
  tasks := Function.update (fun _ => none) 0 (some (.call (.ingest data) state))

-- The acknowledgement of the buffered path.
def queued : Ack := ⟨"Telemetry queued in Redis", some 0⟩

theorem single_quiet (data : TelemetryCreate) (stream : List (Entry env.orjson.Text))
    (state : CallState) : (Service.single env data stream state).quiet := by
  intro id flush htask
  by_cases hid : id = 0
  · subst hid
    simp [Service.single] at htask
  · simp [Service.single, hid] at htask

-- One call up to its publish and up to its acknowledgement.
theorem step_call (hbuffer : env.settings.opt_redis_buffer = true) (now : Calendar.Utc)
    (data : TelemetryCreate) (hnow : data.timestamp = none) :
    ∃ payload, stamped env.serialize data now = some payload ∧
      Service.init.step env (.call 0 now (.ingest data)) =
        some (.single env data [] (.publish [((0, 0), payload)] queued)) := by
  obtain ⟨payload, hstamped, hbegin⟩ := begin_publish hbuffer 0 0 now data hnow
  refine ⟨payload, hstamped, ?_⟩
  simp only [Service.step, Service.init, hbegin, Option.isSome_none, Bool.false_eq_true, if_false]
  rfl

theorem step_publish (data : TelemetryCreate) (payloads : List (Source × Dict)) (added : List Nat) :
    (Service.single env data [] (.publish payloads queued)).step env (.advance 0 added) =
      some (.single env data (broadcast env payloads added) (.acknowledged queued)) := by
  simp only [Service.step, Service.single, Function.update_self, Ingestion.next, Option.map_some,
    Function.update_idem, List.nil_append]

def noon : Calendar.Utc := ⟨43200000000, by decide⟩

def redisEnv : Env := ⟨defaults, .values, fun _ => ""⟩

end Single

end FleetOps.Telemetry
