import FleetOps.Telemetry.Acknowledged
import FleetOps.Telemetry.ExactlyOnce

namespace FleetOps.Telemetry

open Calendar Dict RowStore Runs

section Rows

variable {σ ι : Type} {P : TelemetryRow → Prop} {db : Database σ ι}

-- Every telemetry row that was written, committed or not, meets `P`.
def Database.All (P : TelemetryRow → Prop) (db : Database σ ι) : Prop :=
  ∀ w ∈ db.store.log ++ db.store.dirty, ∀ source row, w.after = .telemetry source row → P row

theorem all_empty : (Database.empty : Database σ ι).All P := by
  simp [Database.All, Database.empty, Store.empty]

theorem Database.All.of_telemetry (h : db.All P) {p : ι × TelemetryRow} (hp : p ∈ db.telemetry) :
    P p.2 := by
  obtain ⟨w, hw, hafter⟩ := List.mem_filterMap.mp hp
  cases hrow : w.after with
  | telemetry source row =>
      rw [hrow] at hafter
      cases hafter
      exact h w (List.mem_append_left _ hw) source row hrow
  | robot row =>
      rw [hrow] at hafter
      cases hafter

variable [DecidableEq σ]

theorem Database.All.commit (h : db.All P) (s : σ) : (db.commit s).All P := by
  intro w hw
  apply h w
  simp only [Database.commit, Store.commit, List.mem_append, mem_mine, mem_theirs] at hw ⊢
  rcases hw with (hw | hw) | hw
  · exact Or.inl hw
  · exact Or.inr hw.1
  · exact Or.inr hw.1

theorem Database.All.rollback (h : db.All P) (s : σ) : (db.rollback s).All P := by
  intro w hw
  apply h w
  simp only [Database.rollback, Store.rollback, List.mem_append, mem_theirs] at hw ⊢
  exact hw.imp_right And.left

-- One more write, of a row that meets `P` or of a robot.
theorem all_write (h : db.All P) (s : σ) (key : Key) {version : Version ι} (serial : Nat)
    (hversion : ∀ source row, version = .telemetry source row → P row) :
    (⟨db.store.write s key version, serial⟩ : Database σ ι).All P := by
  intro w hw
  simp only [Store.write, ← List.append_assoc] at hw
  rcases List.mem_append.mp hw with hw | hw
  · exact h w hw
  · rw [List.mem_singleton.mp hw]
    exact hversion

theorem Database.All.insert_telemetry (h : db.All P) (s : σ) {rows : List (ι × TelemetryRow)}
    (hrows : ∀ p ∈ rows, P p.2) : (insert_telemetry db s rows).All P := by
  induction rows generalizing db with
  | nil => exact h
  | cons p rows ih =>
      obtain ⟨source, row⟩ := p
      refine ih (all_write h s _ _ ?_) fun p hp => hrows p (List.mem_cons_of_mem _ hp)
      rintro _ _ ⟨⟩
      exact hrows (source, row) (List.mem_cons_self ..)

theorem all_upsert_robots (s : σ) (rows : List (Int × Datetime)) {st : Store σ Key (Version ι)}
    (serial : Nat) (h : (⟨st, serial⟩ : Database σ ι).All P) :
    (⟨upsert_robots st s rows, serial⟩ : Database σ ι).All P := by
  induction rows generalizing st with
  | nil => exact h
  | cons p rows ih =>
      obtain ⟨id, seen_at⟩ := p
      refine ih (all_write h s (.robot id) serial ?_)
      rintro _ _ ⟨⟩

theorem Database.All.mark_seen (h : db.All P) {s : σ} {seen : List (Int × Datetime)}
    {db' : Database σ ι} (hseen : mark_seen db s seen = some db') : db'.All P := by
  unfold Telemetry.mark_seen at hseen
  split at hseen <;> cases hseen
  exact all_upsert_robots s seen db.serial h

end Rows

section Readings

-- What is asked of a robot's number and the time of its reading.
variable {P : Int → Instant → Prop}

def TelemetryRow.Meets (P : Int → Instant → Prop) (row : TelemetryRow) : Prop :=
  P row.robot_id.val row.timestamp

def Measured.Meets (P : Int → Instant → Prop) (row : Measured) : Prop :=
  P row.data.robot_id row.timestamp.wall

-- Whatever row the worker makes of the fields meets `P`.
def Tells (P : Int → Instant → Prop) (fields : Dict) : Prop :=
  ∀ now row, columns (payload_to_insert_dict now fields) = some row → row.Meets P

-- So does what it makes of an entry of the stream.
def EntryTells (P : Int → Instant → Prop) (orjson : Orjson) (payload : Option orjson.Text) : Prop :=
  ∀ fields, Worker.telemetryDict orjson payload = some fields → Tells P fields

theorem meets_of_columns {d : InsertDict} {row : TelemetryRow} {robot_id : Int} {ts : Utc}
    (hrobot : d.robot_id = .int robot_id) (hts : d.timestamp = ts.datetime)
    (h : columns d = some row) (hmeets : P robot_id ts.wall) : row.Meets P := by
  obtain ⟨hinteger, htime⟩ := columns_robot h
  rw [hrobot, integer] at hinteger
  split at hinteger
  · have hnumber : robot_id = row.robot_id.val := congrArg Subtype.val (Option.some.inj hinteger)
    rw [TelemetryRow.Meets, htime, hts, instant_utc, ← hnumber]
    exact hmeets
  · cases hinteger

theorem meets_insertRows {rows : List Measured} {values : List (Source × TelemetryRow)}
    (hvalues : insertRows rows = some values) (hrows : ∀ row ∈ rows, row.Meets P) :
    ∀ p ∈ values, p.2.Meets P := by
  intro p hp
  obtain ⟨row, hrow, heq⟩ := exists_of_mem_mapM hvalues p hp
  obtain ⟨value, hvalue, rfl⟩ := Option.map_eq_some_iff.mp heq
  exact meets_of_columns rfl rfl hvalue (hrows row hrow)

theorem tells_stamped {serialize : Datetime → String} {data : TelemetryCreate} {ts : Utc}
    {payload : Dict} (h : stamped serialize data ts = some payload) (hmeets : P data.robot_id ts.wall) :
    Tells P (writtenFields payload) := by
  intro now row hrow
  rw [payload_to_insert_dict_stamped h now] at hrow
  exact meets_of_columns rfl rfl hrow hmeets

theorem tells_broadcast {row : Measured} {payload : Dict}
    (h : telemetry_to_broadcast_dict row = some payload) (hmeets : row.Meets P) :
    Tells P (writtenFields payload) := by
  obtain ⟨text, hiso, hne, hparse⟩ := parse_time_text_to_iso row.timestamp
  obtain ⟨hrobot, _, text', hiso', htime⟩ := lookup_broadcast_dict h
  obtain rfl : text = text' := Option.some.inj (hiso.symm.trans hiso')
  intro now value hvalue
  refine meets_of_columns ?_ ?_ hvalue hmeets
  · simp [payload_to_insert_dict, get, lookup_writtenFields, hrobot, Json.written]
  · simp [payload_to_insert_dict, get, lookup_writtenFields, htime, Json.written, truthy, str_of, hne,
      hparse]

theorem entryTells_of_dumps {orjson : Orjson} {payload : Dict} {text : orjson.Text}
    (h : orjson.dumps (.obj payload) = some text) (htells : Tells P (writtenFields payload)) :
    EntryTells P orjson (some text) := by
  intro fields hfields
  simp only [Worker.telemetryDict, Option.bind_some, orjson.loads_dumps _ _ h, Json.written] at hfields
  split at hfields <;> cases hfields
  exact htells

end Readings

section Services

variable {env : Env} {P : Int → Instant → Prop}

-- The readings that a task may still write or buffer.
def CallState.rows : CallState → List Measured
  | .insert rows | .commit_insert rows _ | .refresh rows _ | .mark_seen rows _ | .commit rows _
  | .buffer rows => rows
  | .publish _ _ | .acknowledged _ | .raised => []

def CallState.Stems (P : Int → Instant → Prop) : CallState → Prop
  | .publish payloads _ => ∀ p ∈ payloads, Tells P (writtenFields p.2)
  | state => ∀ row ∈ state.rows, row.Meets P

def Task.Stems (P : Int → Instant → Prop) : Task → Prop
  | .call _ state => state.Stems P
  | .flush state => ∀ row ∈ state.rows, row.Meets P

-- All that the service holds, has stored or has published meets `P`.
structure Service.Stems (P : Int → Instant → Prop) (s : Service env.orjson.Text) : Prop where
  db : s.db.All (TelemetryRow.Meets P)
  pending : ∀ row ∈ s.pending, row.Meets P
  tasks : ∀ id task, s.tasks id = some task → task.Stems P
  stream : ∀ entry ∈ s.stream, EntryTells P env.orjson (some entry.payload)

-- What the readings of a call are resolved to meets `P`.
def Label.Brings (P : Int → Instant → Prop) (settings : Settings) : Label → Prop
  | .call _ now ingestion => ∀ data ∈ ingestion.readings, ∀ ts,
      resolve_timestamp settings.max_clock_skew_seconds data.timestamp now = some ts →
        P data.robot_id ts.wall
  | _ => True

theorem meets_resolve {settings : Settings} {id : TaskId} {now : Utc} {data : List TelemetryCreate}
    {rows : List Measured} (h : resolve settings id now data = some rows)
    (hdata : ∀ d ∈ data, ∀ ts,
      resolve_timestamp settings.max_clock_skew_seconds d.timestamp now = some ts →
        P d.robot_id ts.wall) : ∀ row ∈ rows, row.Meets P := by
  intro row hrow
  obtain ⟨⟨d, i⟩, hd, heq⟩ := exists_of_mem_mapM h row hrow
  obtain ⟨ts, hts, rfl⟩ := Option.map_eq_some_iff.mp heq
  exact hdata d (List.fst_mem_of_mem_zipIdx hd) ts hts

theorem tells_payloads {serialize : Datetime → String} {rows : List Measured}
    {out : List (Source × Dict)} (h : payloads serialize rows = some out)
    (hrows : ∀ row ∈ rows, row.Meets P) : ∀ p ∈ out, Tells P (writtenFields p.2) := by
  intro p hp
  obtain ⟨row, hrow, heq⟩ := exists_of_mem_mapM h p hp
  obtain ⟨payload, hstamped, rfl⟩ := Option.map_eq_some_iff.mp heq
  exact tells_stamped hstamped (hrows row hrow)

theorem tells_broadcastDicts {rows : List Measured} {out : List (Source × Dict)}
    (h : broadcastDicts rows = some out) (hrows : ∀ row ∈ rows, row.Meets P) :
    ∀ p ∈ out, Tells P (writtenFields p.2) := by
  intro p hp
  obtain ⟨row, hrow, heq⟩ := exists_of_mem_mapM h p hp
  obtain ⟨payload, hdict, rfl⟩ := Option.map_eq_some_iff.mp heq
  exact tells_broadcast hdict (hrows row hrow)

theorem entryTells_broadcast {payloads : List (Source × Dict)} {added : List Nat}
    (h : ∀ p ∈ payloads, Tells P (writtenFields p.2)) :
    ∀ entry ∈ broadcast env payloads added, EntryTells P env.orjson (some entry.payload) := by
  intro entry hentry
  obtain ⟨p, hp, _, hdumps⟩ := exists_of_mem_broadcast hentry
  exact entryTells_of_dumps hdumps (h p hp)

theorem stems_raised : CallState.raised.Stems P :=
  List.forall_mem_nil _

theorem begin_stems {viewers : Nat} {id : TaskId} {now : Utc} {call : Ingestion}
    (h : (Label.call id now call).Brings P env.settings) :
    (call.begin env viewers id now).Stems P := by
  rcases begin_cases env viewers id now call with
    hraised | ⟨rows, hrows, ⟨_, out, hout, hpublish⟩ | hinsert | hpending⟩
  · rw [hraised]
    exact stems_raised
  · rw [hpublish]
    exact tells_payloads hout (meets_resolve hrows h)
  · rw [hinsert]
    exact meets_resolve hrows h
  · rw [hpending]
    exact meets_resolve hrows h

-- The step lemma of a call.
theorem CallStep.stems {s : Service env.orjson.Text} (hs : s.Stems P) {id : TaskId} {added : List Nat}
    {call : Ingestion} {state state' : CallState} {db : Database TaskId Source}
    {pending : List Measured} {entries : List (Entry env.orjson.Text)} (hstate : state.Stems P)
    (h : CallStep env s id added call state db pending state' entries) :
    db.All (TelemetryRow.Meets P) ∧ (∀ row ∈ pending, row.Meets P) ∧ state'.Stems P ∧
      ∀ entry ∈ entries, EntryTells P env.orjson (some entry.payload) := by
  cases h with
  | refused => exact ⟨hs.db.rollback id, hs.pending, stems_raised, List.forall_mem_nil _⟩
  | insert rows values hvalues =>
      exact ⟨hs.db.insert_telemetry id (meets_insertRows hvalues hstate), hs.pending, hstate,
        List.forall_mem_nil _⟩
  | commit_one | commit_batch => exact ⟨hs.db.commit id, hs.pending, hstate, List.forall_mem_nil _⟩
  | unconverted_batch | unconverted =>
      exact ⟨hs.db.commit id, hs.pending, stems_raised, List.forall_mem_nil _⟩
  | refresh => exact ⟨hs.db, hs.pending, hstate, List.forall_mem_nil _⟩
  | mark_seen rows row_id latest hlatest db hseen =>
      exact ⟨hs.db.mark_seen hseen, hs.pending, hstate, List.forall_mem_nil _⟩
  | commit rows row_id out hout =>
      exact ⟨hs.db.commit id, hs.pending, tells_broadcastDicts hout hstate, List.forall_mem_nil _⟩
  | buffer rows out hout =>
      exact ⟨hs.db, List.forall_mem_append.mpr ⟨hs.pending, hstate⟩, tells_payloads hout hstate,
        List.forall_mem_nil _⟩
  | publish out ack => exact ⟨hs.db, hs.pending, List.forall_mem_nil _, entryTells_broadcast hstate⟩

theorem FlushStep.stems {db db' : Database TaskId Source} (hdb : db.All (TelemetryRow.Meets P))
    {id : TaskId} {state state' : FlushState} (hrows : ∀ row ∈ state.rows, row.Meets P)
    (h : FlushStep db id state db' state') :
    db'.All (TelemetryRow.Meets P) ∧ ∀ row ∈ state'.rows, row.Meets P := by
  cases h with
  | refused | mark_seen => exact ⟨hdb.rollback id, List.forall_mem_nil _⟩
  | insert rows values hvalues =>
      exact ⟨hdb.insert_telemetry id (meets_insertRows hvalues hrows), hrows⟩
  | commit => exact ⟨hdb.commit id, List.forall_mem_nil _⟩

theorem Service.Stems.step {s t : Service env.orjson.Text} {l : Label} (hbrings : l.Brings P env.settings)
    (hs : s.Stems P) (hstep : s.step env l = some t) : t.Stems P := by
  have hothers : ∀ id id' task, id' ≠ id → s.tasks id' = some task → task.Stems P :=
    fun _ id' task _ => hs.tasks id' task
  cases service_step hstep with
  | call id now ingestion =>
      exact ⟨hs.db, hs.pending, forall_update (begin_stems hbrings) (hothers id), hs.stream⟩
  | flush id =>
      refine ⟨hs.db, List.forall_mem_nil _, forall_update ?_ (hothers id), hs.stream⟩
      show ∀ row ∈ (if s.pending.isEmpty then FlushState.ended else .insert s.pending).rows, row.Meets P
      split
      · exact List.forall_mem_nil _
      · exact hs.pending
  | next id added call state htask db pending state' entries hnext =>
      obtain ⟨hdb, hpending, hstate, hentries⟩ := hnext.stems hs (hs.tasks id _ htask)
      exact ⟨hdb, hpending, forall_update hstate (hothers id),
        List.forall_mem_append.mpr ⟨hs.stream, hentries⟩⟩
  | flushed id added state htask db state' hflush =>
      obtain ⟨hdb, hrows⟩ := hflush.stems hs.db (hs.tasks id _ htask)
      exact ⟨hdb, hs.pending, forall_update hrows (hothers id), hs.stream⟩
  | fail id task =>
      refine ⟨hs.db.rollback id, hs.pending, forall_update ?_ (hothers id), hs.stream⟩
      cases task with
      | call ingestion state => exact stems_raised
      | flush state => exact List.forall_mem_nil _
  | connect | disconnect => exact ⟨hs.db, hs.pending, hs.tasks, hs.stream⟩

theorem stems_init : (Service.init : Service env.orjson.Text).Stems P where
  db := all_empty
  pending := List.forall_mem_nil _
  tasks := by rintro _ _ ⟨⟩
  stream := List.forall_mem_nil _

end Services

namespace Worker

variable {config : Config} {P : Int → Instant → Prop}

-- The rows that a worker has made of its entries and may still insert.
def State.rest : State → List Parsed
  | .process _ batch => batch.rest
  | _ => []

def Makes (P : Int → Instant → Prop) (rows : List Parsed) : Prop :=
  ∀ p ∈ rows, ∀ row, columns p.2 = some row → row.Meets P

-- All that the workers are given, hold or have stored meets `P`.
structure Pool.Stems (P : Int → Instant → Prop) (s : Pool config.orjson.Text) : Prop where
  entries : ∀ payload ∈ s.group.entries, EntryTells P config.orjson payload
  db : s.db.All (TelemetryRow.Meets P)
  workers : ∀ w, Makes P (s.workers w).rest

theorem rest_afterBatch (ids : List EntryId) (batch : BatchState) :
    (afterBatch ids batch).rest = batch.rest := by
  cases batch <;> rfl

theorem rest_of_free {state : State} (h : state.free = true) : state.rest = [] := by
  cases state <;> first | rfl | cases h

theorem makes_parseAll {s : Pool config.orjson.Text} (hs : s.Stems P) {clock : EntryId → Utc}
    {ids : List EntryId} {rows : List Parsed}
    (h : parseAll config.orjson clock (messages s.group ids) = some rows) : Makes P rows := by
  rw [parseAll_eq h]
  intro p hp row hrow
  obtain ⟨⟨id, payload⟩, hmessage, heq⟩ := List.mem_filterMap.mp hp
  obtain ⟨fields, hfields, rfl⟩ := Option.map_eq_some_iff.mp heq
  obtain ⟨_, hget⟩ := mem_messages.mp hmessage
  exact hs.entries payload (List.mem_of_getElem? hget) fields hfields _ row hrow

theorem makes_startBatch {s : Pool config.orjson.Text} (hs : s.Stems P) (clock : EntryId → Utc)
    (ids : List EntryId) : Makes P (startBatch config s.group clock ids).rest := by
  unfold startBatch
  cases hparse : parseAll config.orjson clock (messages s.group ids) with
  | none => exact List.forall_mem_nil _
  | some rows =>
      have hrows := makes_parseAll hs hparse
      simp only [rest_afterBatch, BatchState.begin]
      split
      · exact List.forall_mem_nil _
      · split
        · exact hrows
        · rw [rest_nextRow]
          exact hrows

theorem process_batch_stems {db db' : Database WorkerId EntryId} (hdb : db.All (TelemetryRow.Meets P))
    {w : WorkerId} {batch batch' : BatchState} (hrest : Makes P batch.rest)
    (h : process_batch db w batch = some (db', batch')) :
    db'.All (TelemetryRow.Meets P) ∧ Makes P batch'.rest := by
  cases process_batch_step h with
  | refused | refused_row | incomparable => exact ⟨hdb.rollback w, List.forall_mem_nil _⟩
  | insert rows values hvalues =>
      refine ⟨hdb.insert_telemetry w fun p hp => ?_, List.forall_mem_nil _⟩
      obtain ⟨parsed, hparsed, heq⟩ := exists_of_mem_mapM hvalues p hp
      obtain ⟨row, hrow, rfl⟩ := Option.map_eq_some_iff.mp heq
      exact hrest parsed hparsed row hrow
  | insert_row done row rest value hvalue =>
      obtain ⟨hfirst, hrest'⟩ := List.forall_mem_cons.mp hrest
      exact ⟨hdb.insert_telemetry w (List.forall_mem_singleton.mpr (hfirst value hvalue)), hrest'⟩
  | commit_row done rest =>
      rw [rest_nextRow]
      exact ⟨hdb.commit w, hrest⟩
  | mark_seen rows latest hlatest db' hseen => exact ⟨hdb.mark_seen hseen, List.forall_mem_nil _⟩
  | commit rows => exact ⟨hdb.commit w, List.forall_mem_nil _⟩

-- What a move leaves of the database and makes of its worker.
theorem Move.stems {s : Pool config.orjson.Text} (hs : s.Stems P) {w : WorkerId}
    {l : Label config.orjson.Text} {group : ConsumerGroup.Group String (Option config.orjson.Text)}
    {db : Database WorkerId EntryId} {state : State} (h : Move config s w l group db state) :
    db.All (TelemetryRow.Meets P) ∧ Makes P state.rest := by
  have hfree : ∀ state : State, state.free = true → Makes P state.rest := by
    intro state hstate
    rw [rest_of_free hstate]
    exact List.forall_mem_nil _
  cases h with
  | idle consumer now ids state _ hstate => exact ⟨hs.db, hfree state hstate⟩
  | abort state _ hstate =>
      refine ⟨hs.db.rollback w, ?_⟩
      rcases hstate with rfl | rfl <;> exact List.forall_mem_nil _
  | unacked => exact ⟨hs.db, List.forall_mem_nil _⟩
  | reread | take => exact ⟨hs.db, makes_startBatch hs _ _⟩
  | drop now state _ hstate => exact ⟨hs.db, hfree state hstate⟩
  | process ids batch batch' db hprocess _ hbatch =>
      have hrest : Makes P batch.rest := by
        have h := hs.workers w
        rwa [hprocess] at h
      rw [rest_afterBatch]
      exact process_batch_stems hs.db hrest hbatch
  | ack ids state _ hstate => exact ⟨hs.db, hfree state hstate⟩

theorem Pool.Stems.xadd {s : Pool config.orjson.Text} (hs : s.Stems P)
    {payload : Option config.orjson.Text} (hpayload : EntryTells P config.orjson payload) :
    ({ s with group := s.group.xadd payload } : Pool config.orjson.Text).Stems P :=
  ⟨List.forall_mem_append.mpr ⟨hs.entries, List.forall_mem_singleton.mpr hpayload⟩, hs.db, hs.workers⟩

theorem Pool.Stems.step {s t : Pool config.orjson.Text} (hs : s.Stems P)
    {l : Label config.orjson.Text} (hl : l.worker.isSome = true) (h : s.step config l = some t) :
    t.Stems P := by
  obtain ⟨w, hw⟩ := Option.isSome_iff_exists.mp hl
  obtain ⟨group, db, state, hmove, rfl⟩ := move_of_step hw h
  obtain ⟨hdb, hrest⟩ := hmove.stems hs
  refine ⟨?_, hdb, fun v => ?_⟩
  · rw [hmove.entries]
    exact hs.entries
  · show Makes P (Function.update s.workers w state v).rest
    by_cases hv : v = w
    · subst hv
      rw [Function.update_self]
      exact hrest
    · rw [Function.update_of_ne hv]
      exact hs.workers v

theorem stems_init : (Pool.init : Pool config.orjson.Text).Stems P where
  entries := List.forall_mem_nil _
  db := all_empty
  workers := fun _ => List.forall_mem_nil _

end Worker

end FleetOps.Telemetry
