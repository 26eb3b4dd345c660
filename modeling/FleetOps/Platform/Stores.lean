import FleetOps.Fleet.Offline
import FleetOps.Telemetry.Capped

namespace FleetOps.Platform

open ConsumerGroup Runs
open Fleet (ingested workerConfig)
open Telemetry (Env Source)
open Telemetry.Worker (Capped EntryId WorkerId)

variable {env : Env} {consumer_name : WorkerId → String}

section Definitions

-- What can hold a reading: the services of the API with the table and the buffer,
-- and the ingest stream with the workers that drain it.
structure Stores (T : Type) where
  api : State T
  ingest : Capped T

def Stores.init {T : Type} : Stores T := ⟨.init, .init⟩

-- `trim` is the MAXLEN of an earlier XADD taking effect, `restart` a Redis that
-- comes back without the stream.
inductive StoresLabel (T : Type) where
  | api (label : Label)
  | worker (label : Telemetry.Worker.Label T)
  | trim (n : Nat)
  | restart

-- Every entry is gone, and the group with the stream. The reads of the workers fail
-- until one of them has created the group again.
def lost {T : Type} (c : Capped T) : Capped T :=
  { c with
    pool := { c.pool with group := (c.pool.group.trim c.pool.group.entries.length).reset }
    trimmed := max c.trimmed c.pool.group.entries.length }

def xadds {T : Type} (c : Capped T) (new : List (Entry T)) : Capped T :=
  new.foldl (fun ingest entry => ingest.xadd (some entry.payload)) c

-- XADD trims by whole nodes of the stream and leaves `STREAM_MAXLEN` entries at least.
def Stores.step (env : Env) (consumer_name : WorkerId → String) (s : Stores env.orjson.Text) :
    StoresLabel env.orjson.Text → Option (Stores env.orjson.Text)
  | .api label => (s.api.step env label).map fun api =>
      { api := api
        ingest := xadds s.ingest (ingested (api.added.drop s.api.added.length)) }
  | .worker (.xadd _) => none
  | .worker label => (s.ingest.step (workerConfig env consumer_name) (.pool label)).map fun ingest =>
      { s with ingest := ingest }
  | .trim n =>
      if env.settings.telemetry_stream_maxlen + n ≤ s.ingest.pool.group.entries.length then
        (s.ingest.step (workerConfig env consumer_name) (.trim n)).map fun ingest =>
          { s with ingest := ingest }
      else none
  | .restart => some { s with ingest := lost s.ingest }

-- The entry at this position of the ingest stream was added for the reading.
def Stores.brings {T : Type} (s : Stores T) (id : EntryId) (source : Source) : Prop :=
  ∃ entry, (ingested s.api.added)[id]? = some entry ∧ entry.origin = .reading source

-- An entry of the telemetry stream, a committed row of the telemetry table, which a
-- worker or the service has inserted, or an element of `_pending`.
def Stores.stored {T : Type} (s : Stores T) (source : Source) : Prop :=
  (∃ id, s.brings id source ∧ s.ingest.trimmed ≤ id) ∨
    (∃ id row, s.brings id source ∧ (id, row) ∈ s.ingest.pool.db.telemetry) ∨
    (∃ row, (source, row) ∈ s.api.telemetry.db.telemetry) ∨
    ∃ row ∈ s.api.telemetry.pending, row.source = source

-- Of every reading among the first `n` entries a worker has committed the row.
def Stores.persisted {T : Type} (s : Stores T) (n : Nat) : Prop :=
  ∀ p ∈ (ingested s.api.added).zipIdx, p.2 < n → p.1.origin.isReading = true →
    p.2 ∈ s.ingest.pool.db.telemetry.map Prod.fst

-- The steps that can lose readings do not. The entries of the buffered path are all
-- there is of their readings: they are not taken away before their rows are committed.
def Stores.dependable (env : Env) (s : Stores env.orjson.Text) :
    StoresLabel env.orjson.Text → Prop
  | .api (.telemetry label) => Telemetry.dependable env s.api.telemetry label
  | .trim n => env.settings.opt_redis_buffer = true → s.persisted n
  | .restart => env.settings.opt_redis_buffer = true →
      s.persisted s.ingest.pool.group.entries.length
  | _ => True

-- What the stream has of a buffered reading, or has brought to the table.
def Stores.held (env : Env) (s : Stores env.orjson.Text) (source : Source) : Prop :=
  env.settings.opt_redis_buffer = true ∧ ∃ id, s.brings id source ∧
    (s.ingest.trimmed ≤ id ∨ id ∈ s.ingest.pool.db.telemetry.map Prod.fst)

structure Keeps (env : Env) (s : Stores env.orjson.Text) : Prop where
  inv : Telemetry.Inv env (s.held env) s.api.telemetry
  db : s.ingest.pool.db.Sound
  length : s.ingest.pool.group.entries.length = (ingested s.api.added).length
  trimmed : s.ingest.trimmed ≤ s.ingest.pool.group.entries.length

end Definitions

section Steps

variable {s t : Stores env.orjson.Text}

-- What a step of the API adds to the streams, and for which readings.
theorem added_step {s t : State env.orjson.Text} {label : Label} (h : s.step env label = some t) :
    ∃ new, t.added = s.added ++ new ∧
      (t.telemetry = s.telemetry ∨
        ∃ l, label = .telemetry l ∧ s.telemetry.step env l = some t.telemetry ∧
          new = (t.telemetry.stream.drop s.telemetry.stream.length).map telemetryEntry) := by
  cases label with
  | command action =>
      obtain ⟨commands, _, h⟩ := Option.bind_eq_some_iff.mp h
      obtain ⟨new, _, rfl⟩ := Option.map_eq_some_iff.mp h
      exact ⟨new, rfl, Or.inl rfl⟩
  | telemetry l =>
      obtain ⟨telemetry, hstep, rfl⟩ := Option.map_eq_some_iff.mp h
      exact ⟨_, rfl, Or.inr ⟨l, rfl, hstep, rfl⟩⟩
  | event label =>
      obtain ⟨events, _, h⟩ := Option.bind_eq_some_iff.mp h
      obtain ⟨new, _, rfl⟩ := Option.map_eq_some_iff.mp h
      exact ⟨new, rfl, Or.inl rfl⟩

theorem ingested_append {T : Type} (old new : List (Entry T)) :
    ingested (old ++ new) = ingested old ++ ingested new := List.filter_append ..

theorem ingested_telemetryEntry {T : Type} (entries : List (Telemetry.Entry T)) :
    ingested (entries.map telemetryEntry) = entries.map telemetryEntry := by
  simp [ingested, telemetryEntry]

-- The entries of a step go to the end of the stream.
theorem xadds_spec {T : Type} (c : Capped T) (new : List (Entry T)) :
    (xadds c new).pool.group.entries.length = c.pool.group.entries.length + new.length ∧
      (xadds c new).trimmed = c.trimmed ∧ (xadds c new).pool.db = c.pool.db := by
  induction new generalizing c with
  | nil => exact ⟨rfl, rfl, rfl⟩
  | cons entry new ih =>
      obtain ⟨hlength, htrimmed, hdb⟩ := ih (c.xadd (some entry.payload))
      refine ⟨hlength.trans ?_, htrimmed, hdb⟩
      simp only [Capped.xadd, Group.xadd, List.length_append, List.length_cons, List.length_nil]
      omega

theorem brings_append {T : Type} {s t : Stores T} {new : List (Entry T)}
    (h : t.api.added = s.api.added ++ new) {id : EntryId} {source : Source}
    (hbrings : s.brings id source) : t.brings id source := by
  obtain ⟨entry, hget, horigin⟩ := hbrings
  refine ⟨entry, ?_, horigin⟩
  rw [h, ingested_append, List.getElem?_append_left (List.getElem?_eq_some_iff.mp hget).1]
  exact hget

-- What is held stays so unless a trimmed entry has no row.
theorem held_mono (hbrings : ∀ id source, s.brings id source → t.brings id source)
    (hrows : ∀ id ∈ s.ingest.pool.db.telemetry.map Prod.fst,
      id ∈ t.ingest.pool.db.telemetry.map Prod.fst)
    (htrimmed : env.settings.opt_redis_buffer = true → ∀ id source, s.brings id source →
      s.ingest.trimmed ≤ id →
        t.ingest.trimmed ≤ id ∨ id ∈ t.ingest.pool.db.telemetry.map Prod.fst) :
    ∀ source, s.held env source → t.held env source := by
  rintro source ⟨hbuffer, id, hid, hkept | hrow⟩
  · exact ⟨hbuffer, id, hbrings id source hid, htrimmed hbuffer id source hid hkept⟩
  · exact ⟨hbuffer, id, hbrings id source hid, Or.inr (hrows id hrow)⟩

theorem mem_of_persisted {T : Type} {s : Stores T} {n : Nat} (h : s.persisted n) {id : EntryId}
    {source : Source} (hid : id < n) (hbrings : s.brings id source) :
    id ∈ s.ingest.pool.db.telemetry.map Prod.fst := by
  obtain ⟨entry, hget, horigin⟩ := hbrings
  refine h (entry, id) (List.mk_mem_zipIdx_iff_getElem?.mpr hget) hid ?_
  rw [horigin]
  rfl

theorem Keeps.api (hs : Keeps env s) {label : Label} {api : State env.orjson.Text}
    (hdep : s.dependable env (.api label)) (h : s.api.step env label = some api) :
    Keeps env ⟨api, xadds s.ingest (ingested (api.added.drop s.api.added.length))⟩ := by
  obtain ⟨new, hadded, htelemetry⟩ := added_step h
  have hdrop : api.added.drop s.api.added.length = new := by rw [hadded, List.drop_left]
  rw [hdrop]
  obtain ⟨hlength, htrimmed, hdb⟩ := xadds_spec s.ingest (ingested new)
  have hlen : s.ingest.pool.group.entries.length + (ingested new).length =
      (ingested api.added).length := by
    rw [hadded, ingested_append, List.length_append, hs.length]
  have hheld : ∀ source, s.held env source →
      Stores.held env ⟨api, xadds s.ingest (ingested new)⟩ source := by
    refine held_mono (fun _ _ => brings_append hadded) ?_ fun _ _ _ _ hle => Or.inl ?_
    · rw [hdb]
      exact fun _ hid => hid
    · rw [htrimmed]
      exact hle
  refine
    { inv := ?_
      db := by rw [hdb]; exact hs.db
      length := hlength.trans hlen
      trimmed := by rw [htrimmed, hlength]; exact hs.trimmed.trans (Nat.le_add_right _ _) }
  rcases htelemetry with hsame | ⟨l, rfl, hstep, rfl⟩
  · rw [hsame]
    exact hs.inv.mono hheld
  · refine (hs.inv.mono hheld).step hdep (fun hbuffer entry hentry => ⟨hbuffer, ?_⟩) hstep
    -- The entry is at the end of the stream, where nothing has been trimmed.
    obtain ⟨i, hi, hget⟩ := List.getElem_of_mem hentry
    refine ⟨(ingested s.api.added).length + i, ⟨telemetryEntry entry, ?_, rfl⟩, Or.inl ?_⟩
    · rw [hadded, ingested_append, List.getElem?_append_right (Nat.le_add_right _ _),
        Nat.add_sub_cancel_left, ingested_telemetryEntry, List.getElem?_map,
        List.getElem?_eq_getElem hi, hget]
      rfl
    · rw [htrimmed]
      have hle := hs.trimmed
      rw [hs.length] at hle
      omega

theorem Keeps.worker (hs : Keeps env s) {w : WorkerId} {l : Telemetry.Worker.Label env.orjson.Text}
    (hl : l.worker = some w) {out : Telemetry.Worker.Outcome env.orjson.Text}
    (h : s.ingest.act (workerConfig env consumer_name) w l = some out) :
    Keeps env { s with ingest := { s.ingest with
      pool := ⟨out.1, out.2.1, Function.update s.ingest.pool.workers w out.2.2⟩
      acknowledged := s.ingest.acknowledged ++ Telemetry.Worker.acks s.ingest.pool w l } } := by
  obtain ⟨hchange, hentries⟩ := Capped.act_spec hs.db hl h
  have hrows : ∀ id ∈ s.ingest.pool.db.telemetry.map Prod.fst, id ∈ out.2.1.telemetry.map Prod.fst := by
    intro id hid
    obtain ⟨p, hp, rfl⟩ := List.mem_map.mp hid
    exact List.mem_map_of_mem (hchange.telemetry_subset hp)
  exact
    { inv := hs.inv.mono (held_mono (fun _ _ hbrings => hbrings) hrows fun _ _ _ _ hle => Or.inl hle)
      db := hchange.sound hs.db
      length := by rw [hentries]; exact hs.length
      trimmed := by rw [hentries]; exact hs.trimmed }

-- The entries up to `n` are taken away, by a trim or with the stream.
theorem Keeps.cut (hs : Keeps env s) {n : Nat}
    (hn : env.settings.opt_redis_buffer = true → s.persisted n) {ingest : Capped env.orjson.Text}
    (hdb : ingest.pool.db = s.ingest.pool.db)
    (hlength : ingest.pool.group.entries.length = s.ingest.pool.group.entries.length)
    (htrimmed : ingest.trimmed = max s.ingest.trimmed (min n s.ingest.pool.group.entries.length)) :
    Keeps env { s with ingest := ingest } where
  inv := by
    refine hs.inv.mono (held_mono (fun _ _ hbrings => hbrings) (by rw [hdb]; exact fun _ h => h) ?_)
    intro hbuffer id source hbrings hle
    by_cases hid : id < n
    · rw [hdb]
      exact Or.inr (mem_of_persisted (hn hbuffer) hid hbrings)
    · have hge : n ≤ id := Nat.le_of_not_lt hid
      rw [htrimmed]
      exact Or.inl (max_le hle ((min_le_left _ _).trans hge))
  db := by rw [hdb]; exact hs.db
  length := hlength.trans hs.length
  trimmed := by
    have hle := hs.trimmed
    rw [htrimmed, hlength]
    omega

theorem Keeps.step (hs : Keeps env s) {l : StoresLabel env.orjson.Text} (hdep : s.dependable env l)
    (h : s.step env consumer_name l = some t) : Keeps env t := by
  cases l with
  | api label =>
      obtain ⟨api, hapi, rfl⟩ := Option.map_eq_some_iff.mp h
      exact hs.api hdep hapi
  | worker label =>
      cases label with
      | xadd payload => cases h
      | start w | advance w now clock | fail w | lose w now | stop w =>
          obtain ⟨ingest, hingest, rfl⟩ := Option.map_eq_some_iff.mp h
          obtain ⟨out, hact, rfl⟩ := Option.map_eq_some_iff.mp hingest
          exact hs.worker rfl hact
  | trim n =>
      simp only [Stores.step] at h
      split at h
      · cases h
        exact hs.cut hdep rfl (by simp [Group.trim]) rfl
      · cases h
  | restart =>
      cases h
      exact hs.cut hdep rfl (by simp [lost, Group.reset, Group.trim]) (by simp [lost])

theorem keeps_init : Keeps env Stores.init where
  inv := Telemetry.inv_init
  db := Telemetry.sound_empty_database
  length := rfl
  trimmed := le_refl 0

end Steps

-- Along dependable steps no acknowledged reading is dropped: it is stored, or in the
-- hands of a flush that has yet to commit it.
theorem acknowledged_stored {labels : List (StoresLabel env.orjson.Text)} {s : Stores env.orjson.Text}
    (hrun : exec (Stores.step env consumer_name) Stores.init labels = some s)
    (hdependable : Along (Stores.step env consumer_name) (Stores.dependable env) Stores.init labels)
    {id : Telemetry.TaskId} {call : Telemetry.Ingestion} {ack : Telemetry.Ack}
    (hack : s.api.telemetry.tasks id = some (.call call (.acknowledged ack))) :
    ∀ i < call.readings.length,
      (s.stored (id, i) ∨ s.api.telemetry.flushing (id, i)) ∧
        (s.api.telemetry.quiet → s.stored (id, i)) := by
  have hkeeps : Keeps env s := exec_along_invariant (I := Keeps env)
    (fun _ _ _ hdep hu hstep => hu.step hdep hstep) hdependable keeps_init hrun
  have hstored : ∀ source, s.api.telemetry.stored (s.held env) source → s.stored source := by
    rintro source (⟨_, id, hbrings, hkept | hrow⟩ | hrest)
    · exact Or.inl ⟨id, hbrings, hkept⟩
    · obtain ⟨⟨id, row⟩, hp, rfl⟩ := List.mem_map.mp hrow
      exact Or.inr (Or.inl ⟨id, row, hbrings, hp⟩)
    · exact Or.inr (Or.inr hrest)
  intro i hi
  obtain ⟨hkept, hquiet⟩ := hkeeps.inv.acknowledged hack i hi
  exact ⟨hkept.imp_left (hstored _), fun h => hstored _ (hquiet h)⟩

section OneReading

open Telemetry (Service broadcast defaults noon plainReading queued single_quiet stamped)

-- One POST of a reading, up to its acknowledgement.
def posted {T : Type} (now : Calendar.Utc) (data : Telemetry.TelemetryCreate) (added : List Nat) :
    List (StoresLabel T) :=
  [.api (.telemetry (.call 0 now (.ingest data))), .api (.telemetry (.advance 0 added))]

theorem run_posted (env : Env) (consumer_name : WorkerId → String)
    (hbuffer : env.settings.opt_redis_buffer = true) (now : Calendar.Utc)
    (data : Telemetry.TelemetryCreate) (hnow : data.timestamp = none) (added : List Nat) :
    ∃ payload, stamped env.serialize data now = some payload ∧
      exec (Stores.step env consumer_name) Stores.init (posted now data added) =
        some ⟨⟨.init, .single env data (broadcast env [((0, 0), payload)] added) (.acknowledged queued),
            .init, (broadcast env [((0, 0), payload)] added).map telemetryEntry⟩,
          xadds .init (ingested ((broadcast env [((0, 0), payload)] added).map telemetryEntry))⟩ := by
  obtain ⟨payload, hstamped, hcall⟩ := Telemetry.step_call hbuffer now data hnow
  have hfirst : Stores.init.step env consumer_name (.api (.telemetry (.call 0 now (.ingest data)))) =
      some ⟨⟨.init, .single env data [] (.publish [((0, 0), payload)] queued), .init, []⟩, .init⟩ := by
    simp only [Stores.step, State.step, Stores.init, State.init, hcall]
    rfl
  refine ⟨payload, hstamped, ?_⟩
  rw [posted, exec_cons_iff]
  refine ⟨_, hfirst, ?_⟩
  simp only [exec, Stores.step, State.step, Telemetry.step_publish]
  rfl

def directEnv : Env := ⟨{ defaults with websocket_backend := "direct" }, .values, fun _ => ""⟩

-- With the buffer on and the fan-out in process, a reading is acknowledged as
-- queued and is nowhere afterwards, although nothing has failed.
theorem acknowledged_reading_dropped : directEnv.settings.accepted = true ∧
    ∃ s, exec (Stores.step directEnv fun _ => "worker") Stores.init
        (posted noon (plainReading 1 (.finite 91)) [0]) = some s ∧
      s.api.telemetry.tasks 0 =
        some (.call (.ingest (plainReading 1 (.finite 91))) (.acknowledged queued)) ∧
      s.api.telemetry.quiet ∧ ¬ s.stored (0, 0) := by
  obtain ⟨payload, _, hrun⟩ :=
    run_posted directEnv (fun _ => "worker") rfl noon (plainReading 1 (.finite 91)) rfl [0]
  refine ⟨by decide +kernel, _, hrun, by simp [Service.single], single_quiet _ _ _, ?_⟩
  have hnone : broadcast directEnv [((0, 0), payload)] [0] = [] := rfl
  rw [hnone]
  rintro (⟨id, ⟨entry, hget, _⟩, _⟩ | ⟨id, _, ⟨entry, hget, _⟩, _⟩ | ⟨row, hrow⟩ | ⟨row, hrow, _⟩)
  · cases hget
  · cases hget
  · cases hrow
  · cases hrow

-- A step that fails nothing, seen by evaluation.
def faultless (env : Env) (s : Stores env.orjson.Text) : StoresLabel env.orjson.Text → Bool
  | .api (.telemetry (.advance id added)) =>
      match s.api.telemetry.tasks id with
      | some (.call _ (.publish payloads _)) =>
          env.settings.websocket_backend != "direct" &&
            payloads.all (fun p => (Json.obj p.2).encodable) &&
            (List.range payloads.length).all fun i => added.contains i
      | some (.flush _) => false
      | _ => true
  | .api (.telemetry (.fail _)) => false
  | .trim n => (ingested s.api.added).zipIdx.all fun p =>
      decide (p.2 < n → p.1.origin.isReading = true →
        p.2 ∈ s.ingest.pool.db.telemetry.map Prod.fst)
  | .restart => false
  | _ => true

theorem dependable_of_faultless (s : Stores env.orjson.Text) (l : StoresLabel env.orjson.Text)
    (h : faultless env s l = true) : s.dependable env l := by
  cases l with
  | worker => trivial
  | restart => cases h
  | trim n =>
      intro _ p hp
      exact of_decide_eq_true (List.all_eq_true.mp h p hp)
  | api label =>
      cases label with
      | command | event => trivial
      | telemetry label =>
          cases label with
          | call | flush | connect | disconnect => trivial
          | fail => cases h
          | advance id added =>
              simp only [faultless] at h
              simp only [Stores.dependable, Telemetry.dependable]
              cases htask : s.api.telemetry.tasks id with
              | none => trivial
              | some task =>
                  rw [htask] at h
                  cases task with
                  | flush => cases h
                  | call ingestion state =>
                      cases state with
                      | publish payloads ack =>
                          simp only [Bool.and_eq_true, bne_iff_ne, List.all_eq_true, List.mem_range,
                            List.contains_iff_mem] at h
                          exact fun _ => ⟨h.1.1, h.1.2, h.2⟩
                      | insert | commit_insert | refresh | mark_seen | commit | buffer | acknowledged
                      | raised => trivial

def cappedEnv : Env := ⟨{ defaults with telemetry_stream_maxlen := 0 }, .values, fun _ => ""⟩

-- A worker drains the stream, and its first entry is trimmed.
def drainedTrimmed : List (StoresLabel cappedEnv.orjson.Text) :=
  [.worker (.start 0)] ++ List.replicate 7 (.worker (.advance 0 0 fun _ => noon)) ++ [.trim 1]

def postedDrained : List (StoresLabel cappedEnv.orjson.Text) :=
  posted noon (plainReading 1 (.finite 91)) [0] ++ drainedTrimmed

-- The workers and the stream leave the services alone.
theorem api_of_run {s t : Stores env.orjson.Text} {labels : List (StoresLabel env.orjson.Text)}
    (hlabels : ∀ l ∈ labels, ∀ label, l ≠ .api label)
    (hrun : exec (Stores.step env consumer_name) s labels = some t) : t.api = s.api := by
  refine exec_invariant_of_mem (I := fun u => u.api = s.api) ?_ hlabels rfl hrun
  intro u l v hl hu h
  cases l with
  | api label => exact absurd rfl (hl label)
  | worker label =>
      cases label with
      | xadd payload => cases h
      | start | advance | fail | lose | stop =>
          obtain ⟨_, _, rfl⟩ := Option.map_eq_some_iff.mp h
          exact hu
  | trim n =>
      simp only [Stores.step] at h
      split at h
      · cases h
        exact hu
      · cases h
  | restart =>
      cases h
      exact hu

theorem acknowledged_stored_drained : ∃ s,
    exec (Stores.step cappedEnv fun _ => "worker") Stores.init postedDrained = some s ∧
      s.ingest.trimmed = 1 ∧ s.stored (0, 0) := by
  have hfaultless : Along (Stores.step cappedEnv fun _ => "worker")
      (fun s l => faultless cappedEnv s l = true) Stores.init postedDrained := by
    decide +kernel
  refine exec_exists (P := fun s => s.ingest.trimmed = 1) (by decide +kernel) fun s hs htrimmed => ?_
  obtain ⟨payload, _, hposted⟩ :=
    run_posted cappedEnv (fun _ => "worker") rfl noon (plainReading 1 (.finite 91)) rfl [0]
  obtain ⟨u, hu, hdrained⟩ := (exec_append_iff _ _ _ _).mp hs
  obtain rfl := Option.some.inj (hposted.symm.trans hu)
  have hapi := api_of_run (by simp [drainedTrimmed]) hdrained
  have hack : s.api.telemetry.tasks 0 =
      some (.call (.ingest (plainReading 1 (.finite 91))) (.acknowledged queued)) := by
    rw [hapi]
    simp [Service.single]
  have hquiet : s.api.telemetry.quiet := by
    rw [hapi]
    exact single_quiet _ _ _
  exact ⟨htrimmed, (acknowledged_stored hs (hfaultless.mono dependable_of_faultless) hack 0
    (by decide)).2 hquiet⟩

end OneReading

end FleetOps.Platform
