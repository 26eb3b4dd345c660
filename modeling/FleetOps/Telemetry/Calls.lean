import FleetOps.Telemetry.Ingest

namespace FleetOps.Telemetry

open Dict

variable {env : Env}

section Lists

theorem mem_of_mapM {α β : Type} {f : α → Option β} {xs : List α} {ys : List β}
    (h : xs.mapM f = some ys) : ∀ x ∈ xs, ∃ y ∈ ys, f x = some y := by
  induction xs generalizing ys with
  | nil => simp
  | cons x xs ih =>
      simp only [List.mapM_cons, Option.bind_eq_bind, Option.bind_eq_some_iff] at h
      obtain ⟨y, hy, zs, hzs, heq⟩ := h
      cases heq
      intro a ha
      rcases List.mem_cons.mp ha with rfl | ha
      · exact ⟨y, by simp, hy⟩
      · obtain ⟨z, hz, hfa⟩ := ih hzs a ha
        exact ⟨z, List.mem_cons_of_mem _ hz, hfa⟩

theorem exists_of_mem_mapM {α β : Type} {f : α → Option β} {xs : List α} {ys : List β}
    (h : xs.mapM f = some ys) : ∀ y ∈ ys, ∃ x ∈ xs, f x = some y := by
  induction xs generalizing ys with
  | nil =>
      cases h
      simp
  | cons x xs ih =>
      simp only [List.mapM_cons, Option.bind_eq_bind, Option.bind_eq_some_iff] at h
      obtain ⟨y, hy, zs, hzs, heq⟩ := h
      cases heq
      intro b hb
      rcases List.mem_cons.mp hb with rfl | hb
      · exact ⟨x, by simp, hy⟩
      · obtain ⟨a, ha, hfa⟩ := ih hzs b hb
        exact ⟨a, List.mem_cons_of_mem _ ha, hfa⟩

theorem forall₂_of_mapM {α β : Type} {f : α → Option β} {xs : List α} {ys : List β}
    (h : xs.mapM f = some ys) : List.Forall₂ (fun x y => f x = some y) xs ys := by
  induction xs generalizing ys with
  | nil =>
      cases h
      exact .nil
  | cons x xs ih =>
      simp only [List.mapM_cons, Option.bind_eq_bind, Option.bind_eq_some_iff] at h
      obtain ⟨y, hy, zs, hzs, heq⟩ := h
      cases heq
      exact .cons hy (ih hzs)

theorem map_of_mapM {α β γ : Type} {f : α → Option β} {g : β → γ} {k : α → γ}
    (hf : ∀ x y, f x = some y → g y = k x) {xs : List α} {ys : List β} (h : xs.mapM f = some ys) :
    ys.map g = xs.map k := by
  induction xs generalizing ys with
  | nil =>
      cases h
      rfl
  | cons x xs ih =>
      simp only [List.mapM_cons, Option.bind_eq_bind, Option.bind_eq_some_iff] at h
      obtain ⟨y, hy, zs, hzs, heq⟩ := h
      cases heq
      rw [List.map_cons, List.map_cons, hf x y hy, ih hzs]

theorem mapM_eq_some_of_forall {α β : Type} {f : α → Option β} {xs : List α}
    (h : ∀ x ∈ xs, (f x).isSome = true) : ∃ ys, xs.mapM f = some ys ∧ ys.length = xs.length := by
  induction xs with
  | nil => exact ⟨[], rfl, rfl⟩
  | cons x xs ih =>
      obtain ⟨y, hy⟩ := Option.isSome_iff_exists.mp (h x (by simp))
      obtain ⟨ys, hys, hlen⟩ := ih fun a ha => h a (List.mem_cons_of_mem _ ha)
      exact ⟨y :: ys, by simp [List.mapM_cons, hy, hys], by simp [hlen]⟩

end Lists

section Rows

theorem stamped_isSome (serialize : Calendar.Datetime → String) (data : TelemetryCreate)
    (ts : Calendar.Utc) : (stamped serialize data ts).isSome = true := by
  obtain ⟨text, hiso, _, _⟩ := parse_time_text_to_iso ts
  simp [stamped, hiso]

-- A resolved timestamp can be written, and with it the payload of the row.
theorem payloads_isSome (serialize : Calendar.Datetime → String) (rows : List Measured) :
    ∃ out, payloads serialize rows = some out := by
  have hrow : ∀ row ∈ rows, ((stamped serialize row.data row.timestamp).map
      fun payload => (row.source, payload)).isSome = true :=
    fun row _ => by rw [Option.isSome_map, stamped_isSome]
  obtain ⟨out, hout, _⟩ := mapM_eq_some_of_forall hrow
  exact ⟨out, hout⟩

-- The broadcast of a row names its robot and the resolved timestamp.
theorem lookup_broadcast_dict {row : Measured} {payload : Dict}
    (h : telemetry_to_broadcast_dict row = some payload) :
    payload.lookup "robot_id" = some (.int row.data.robot_id) ∧
      payload.lookup "battery" = some (.float row.data.battery) ∧
      ∃ text, to_iso row.timestamp.datetime = some text ∧
        payload.lookup "timestamp" = some (.str text) := by
  simp only [telemetry_to_broadcast_dict, Option.bind_eq_bind] at h
  split at h
  all_goals
    obtain ⟨_, _, h⟩ := Option.bind_eq_some_iff.mp h
    obtain ⟨text, hiso, h⟩ := Option.bind_eq_some_iff.mp h
    cases h
    exact ⟨rfl, rfl, text, hiso, rfl⟩

-- Resolved timestamps are aware, so that they compare.
theorem latest_isSome (rows : List Measured) : ∃ latest, latest_by_robot [] (lastSeen rows) =
    some latest ∧ (rows ≠ [] → latest ≠ []) := by
  have haware : ∀ p ∈ lastSeen rows, p.2.aware = true := by
    simp only [lastSeen, List.mem_map, forall_exists_index, and_imp, forall_apply_eq_imp_iff₂]
    exact fun row _ => rfl
  obtain ⟨latest, hlatest⟩ := Option.isSome_iff_exists.mp
    (latest_by_robot_isSome [] (by simp) haware)
  refine ⟨latest, hlatest, ?_⟩
  rintro hne rfl
  obtain ⟨row, hrow⟩ := List.exists_mem_of_ne_nil rows hne
  obtain ⟨t, ht, _⟩ := (latest_by_robot_covers hlatest).2 _ (List.mem_map_of_mem hrow)
  cases ht

end Rows

section Steps

-- What the next step of a call can do to the database and the buffer, where it takes the
-- call, and what it adds to the stream.
inductive CallStep (env : Env) (s : Service env.orjson.Text) (id : TaskId) (added : List Nat)
    (call : Ingestion) : CallState → Database TaskId Source → List Measured → CallState →
      List (Entry env.orjson.Text) → Prop where
  | refused (rows : List Measured) (hvalues : insertRows rows = none) :
      CallStep env s id added call (.insert rows) (s.db.rollback id) s.pending .raised []
  | insert (rows : List Measured) (values : List (Source × TelemetryRow))
      (hvalues : insertRows rows = some values) :
      CallStep env s id added call (.insert rows) (insert_telemetry s.db id values) s.pending
        (.commit_insert rows s.db.serial) []
  | commit_one (rows : List Measured) (row_id : Nat) (data : TelemetryCreate)
      (hcall : call = .ingest data) :
      CallStep env s id added call (.commit_insert rows row_id) (s.db.commit id) s.pending
        (.refresh rows row_id) []
  | commit_batch (rows : List Measured) (row_id : Nat) (data : List TelemetryCreate)
      (hcall : call = .ingest_batch data) (out : List (Source × Dict))
      (hout : broadcastDicts rows = some out) :
      CallStep env s id added call (.commit_insert rows row_id) (s.db.commit id) s.pending
        (.mark_seen rows row_id) []
  | unconverted_batch (rows : List Measured) (row_id : Nat) (data : List TelemetryCreate)
      (hcall : call = .ingest_batch data) (hout : broadcastDicts rows = none) :
      CallStep env s id added call (.commit_insert rows row_id) (s.db.commit id) s.pending .raised []
  | refresh (rows : List Measured) (row_id : Nat) :
      CallStep env s id added call (.refresh rows row_id) s.db s.pending (.mark_seen rows row_id) []
  | mark_seen (rows : List Measured) (row_id : Nat) (latest : List (Int × Calendar.Datetime))
      (hlatest : latest_by_robot [] (lastSeen rows) = some latest) (db : Database TaskId Source)
      (hseen : mark_seen s.db id latest = some db) :
      CallStep env s id added call (.mark_seen rows row_id) db s.pending (.commit rows row_id) []
  | commit (rows : List Measured) (row_id : Nat) (out : List (Source × Dict))
      (hout : broadcastDicts rows = some out) :
      CallStep env s id added call (.commit rows row_id) (s.db.commit id) s.pending
        (.publish out (call.ack row_id "received")) []
  | unconverted (rows : List Measured) (row_id : Nat) (hout : broadcastDicts rows = none) :
      CallStep env s id added call (.commit rows row_id) (s.db.commit id) s.pending .raised []
  | buffer (rows : List Measured) (out : List (Source × Dict))
      (hout : payloads env.serialize rows = some out) :
      CallStep env s id added call (.buffer rows) s.db (s.pending ++ rows)
        (.publish out (call.ack 0 "buffered")) []
  | publish (out : List (Source × Dict)) (ack : Ack) :
      CallStep env s id added call (.publish out ack) s.db s.pending (.acknowledged ack)
        (broadcast env out added)

theorem next_step {s : Service env.orjson.Text} {id : TaskId} {added : List Nat} {call : Ingestion}
    {state state' : CallState} {db : Database TaskId Source} {pending : List Measured}
    {entries : List (Entry env.orjson.Text)}
    (h : call.next env s id added state = some (db, pending, state', entries)) :
    CallStep env s id added call state db pending state' entries := by
  cases state with
  | insert rows =>
      simp only [Ingestion.next] at h
      split at h <;> cases h
      · rename_i hvalues
        exact .refused rows hvalues
      · rename_i values hvalues
        exact .insert rows values hvalues
  | commit_insert rows row_id =>
      cases call with
      | ingest data =>
          cases h
          exact .commit_one rows row_id data rfl
      | ingest_batch data =>
          simp only [Ingestion.next] at h
          split at h <;> cases h
          · rename_i hout
            exact .unconverted_batch rows row_id data rfl hout
          · rename_i out hout
            exact .commit_batch rows row_id data rfl out hout
  | refresh rows row_id =>
      cases h
      exact .refresh rows row_id
  | mark_seen rows row_id =>
      obtain ⟨latest, hlatest, _⟩ := latest_isSome rows
      simp only [Ingestion.next, hlatest] at h
      obtain ⟨db', hseen, heq⟩ := Option.map_eq_some_iff.mp h
      cases heq
      exact .mark_seen rows row_id latest hlatest _ hseen
  | commit rows row_id =>
      simp only [Ingestion.next] at h
      split at h <;> cases h
      · rename_i hout
        exact .unconverted rows row_id hout
      · rename_i out hout
        exact .commit rows row_id out hout
  | buffer rows =>
      obtain ⟨out, hout⟩ := payloads_isSome env.serialize rows
      simp only [Ingestion.next, hout] at h
      cases h
      exact .buffer rows out hout
  | publish out ack =>
      cases h
      exact .publish out ack
  | acknowledged ack => cases h
  | raised => cases h

-- The same of a flush.
inductive FlushStep (db : Database TaskId Source) (id : TaskId) :
    FlushState → Database TaskId Source → FlushState → Prop where
  | refused (rows : List Measured) (hvalues : insertRows rows = none) :
      FlushStep db id (.insert rows) (db.rollback id) .ended
  | insert (rows : List Measured) (values : List (Source × TelemetryRow))
      (hvalues : insertRows rows = some values) :
      FlushStep db id (.insert rows) (insert_telemetry db id values) (.commit rows)
  | commit (rows : List Measured) : FlushStep db id (.commit rows) (db.commit id) (.mark_seen rows)
  | mark_seen (rows : List Measured) : FlushStep db id (.mark_seen rows) (db.rollback id) .ended

theorem flush_step {db db' : Database TaskId Source} {id : TaskId} {state state' : FlushState}
    (h : flush db id state = some (db', state')) : FlushStep db id state db' state' := by
  cases state with
  | insert rows =>
      simp only [flush] at h
      split at h <;> cases h
      · rename_i hvalues
        exact .refused rows hvalues
      · rename_i values hvalues
        exact .insert rows values hvalues
  | commit rows =>
      cases h
      exact .commit rows
  | mark_seen rows =>
      cases h
      exact .mark_seen rows
  | ended => cases h

-- What a step of the service can be.
inductive ServiceStep (env : Env) (s : Service env.orjson.Text) :
    Label → Service env.orjson.Text → Prop where
  | call (id : TaskId) (now : Calendar.Utc) (ingestion : Ingestion) (hfree : s.tasks id = none) :
      ServiceStep env s (.call id now ingestion) { s with
        tasks := Function.update s.tasks id
          (some (.call ingestion (ingestion.begin env s.viewers id now))) }
  | flush (id : TaskId) (hfree : s.tasks id = none) :
      ServiceStep env s (.flush id) { s with
        pending := []
        tasks := Function.update s.tasks id
          (some (.flush (if s.pending.isEmpty then .ended else .insert s.pending))) }
  | next (id : TaskId) (added : List Nat) (call : Ingestion) (state : CallState)
      (htask : s.tasks id = some (.call call state)) (db : Database TaskId Source)
      (pending : List Measured) (state' : CallState) (entries : List (Entry env.orjson.Text))
      (hstep : CallStep env s id added call state db pending state' entries) :
      ServiceStep env s (.advance id added) { s with
        stream := s.stream ++ entries
        db := db
        pending := pending
        tasks := Function.update s.tasks id (some (.call call state')) }
  | flushed (id : TaskId) (added : List Nat) (state : FlushState)
      (htask : s.tasks id = some (.flush state)) (db : Database TaskId Source) (state' : FlushState)
      (hstep : FlushStep s.db id state db state') :
      ServiceStep env s (.advance id added) { s with
        db := db
        tasks := Function.update s.tasks id (some (.flush state')) }
  | fail (id : TaskId) (task : Task) (htask : s.tasks id = some task)
      (hfallible : task.fallible = true) :
      ServiceStep env s (.fail id) { s with
        db := s.db.rollback id
        tasks := Function.update s.tasks id (some task.abort) }
  | connect : ServiceStep env s .connect { s with viewers := s.viewers + 1 }
  | disconnect (hviewers : s.viewers ≠ 0) :
      ServiceStep env s .disconnect { s with viewers := s.viewers - 1 }

-- The inversion of a step.
theorem service_step {s t : Service env.orjson.Text} {l : Label} (h : s.step env l = some t) :
    ServiceStep env s l t := by
  cases l with
  | call id now ingestion =>
      simp only [Service.step] at h
      split at h <;> cases h
      rename_i hfree
      exact .call id now ingestion (by simpa using hfree)
  | flush id =>
      simp only [Service.step] at h
      split at h <;> cases h
      rename_i hfree
      exact .flush id (by simpa using hfree)
  | advance id added =>
      simp only [Service.step] at h
      split at h
      · cases h
      · rename_i call state htask
        obtain ⟨⟨db, pending, state', entries⟩, hnext, rfl⟩ := Option.map_eq_some_iff.mp h
        exact .next id added call state htask db pending state' entries (next_step hnext)
      · rename_i state htask
        obtain ⟨⟨db, state'⟩, hflush, rfl⟩ := Option.map_eq_some_iff.mp h
        exact .flushed id added state htask db state' (flush_step hflush)
  | fail id =>
      simp only [Service.step, Option.bind_eq_some_iff] at h
      obtain ⟨task, htask, hfail⟩ := h
      split at hfail <;> cases hfail
      rename_i hfallible
      exact .fail id task htask hfallible
  | connect =>
      cases h
      exact .connect
  | disconnect =>
      simp only [Service.step] at h
      split at h <;> cases h
      rename_i hviewers
      exact .disconnect hviewers

end Steps

section Begin

-- Where a call is at its first await: it raised, or it has its rows.
theorem begin_cases (env : Env) (viewers : Nat) (id : TaskId) (now : Calendar.Utc) (call : Ingestion) :
    (call.begin env viewers id now = .raised) ∨
      ∃ rows, resolve env.settings id now call.readings = some rows ∧
        ((env.settings.opt_redis_buffer = true ∧ ∃ out, payloads env.serialize rows = some out ∧
            call.begin env viewers id now = .publish out (call.ack 0 "queued in Redis")) ∨
          call.begin env viewers id now = .insert rows ∨
          call.begin env viewers id now = .buffer rows) := by
  unfold Ingestion.begin
  cases hrows : resolve env.settings id now call.readings with
  | none => exact Or.inl rfl
  | some rows =>
      refine Or.inr ⟨rows, rfl, ?_⟩
      obtain ⟨out, hout⟩ := payloads_isSome env.serialize rows
      simp only [hout]
      split
      · rename_i hbuffer
        exact Or.inl ⟨hbuffer, out, rfl, rfl⟩
      · split
        · exact Or.inr (Or.inl rfl)
        · exact Or.inr (Or.inr rfl)

end Begin

section Broadcasts

-- An entry of a broadcast is one of its payloads, written.
theorem exists_of_mem_broadcast {payloads : List (Source × Dict)} {added : List Nat}
    {entry : Entry env.orjson.Text} (h : entry ∈ broadcast env payloads added) :
    ∃ p ∈ payloads, p.1 = entry.source ∧ env.orjson.dumps (.obj p.2) = some entry.payload := by
  unfold broadcast at h
  split_ifs at h
  · cases h
  · split at h
    · cases h
    · rename_i entries hentries
      obtain ⟨⟨_, i⟩, hfiltered, rfl⟩ := List.mem_map.mp h
      have hmem := List.fst_mem_of_mem_zipIdx (List.mem_filter.mp hfiltered).1
      obtain ⟨p, hp, heq⟩ := exists_of_mem_mapM hentries _ hmem
      obtain ⟨text, htext, heq⟩ := Option.map_eq_some_iff.mp heq
      rw [← heq]
      exact ⟨p, hp, rfl, htext⟩

end Broadcasts

end FleetOps.Telemetry
