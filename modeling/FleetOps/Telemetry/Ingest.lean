import Mathlib.Logic.Function.Basic
import FleetOps.Config
import FleetOps.Library.Runs
import FleetOps.Telemetry.Database

namespace FleetOps.Telemetry

open Calendar

abbrev TaskId := Nat

-- A reading is told apart by the call that brought it and its place in there.
abbrev Source := TaskId × Nat

-- The configuration, the JSON library and the model library's way to write a
-- datetime.
structure Env where
  settings : Settings
  orjson : Orjson
  serialize : Datetime → String

-- A reading with its resolved timestamp.
structure Measured where
  source : Source
  data : TelemetryCreate
  timestamp : Utc

structure Entry (T : Type) where
  source : Source
  payload : T

structure Ack where
  message : String
  id : Option Nat
  deriving DecidableEq

inductive Ingestion where
  | ingest (data : TelemetryCreate)
  | ingest_batch (data : List TelemetryCreate)

def Ingestion.readings : Ingestion → List TelemetryCreate
  | .ingest data => [data]
  | .ingest_batch data => data

-- The acknowledgement of a call; `single` is the id that `ingest` reports.
def Ingestion.ack (single : Nat) (how : String) : Ingestion → Ack
  | .ingest _ => ⟨"Telemetry " ++ how, some single⟩
  | .ingest_batch data => ⟨toString data.length ++ " telemetry readings " ++ how, none⟩

-- The awaits of `ingest` and `ingest_batch`, and how they end. A call whose
-- publish is a background task has sent its acknowledgement by then.
inductive CallState where
  | insert (rows : List Measured)
  | commit_insert (rows : List Measured) (id : Nat)
  | refresh (rows : List Measured) (id : Nat)
  | mark_seen (rows : List Measured) (id : Nat)
  | commit (rows : List Measured) (id : Nat)
  | buffer (rows : List Measured)
  | publish (payloads : List (Source × Dict)) (ack : Ack)
  | acknowledged (ack : Ack)
  | raised

inductive FlushState where
  | insert (rows : List Measured)
  | commit (rows : List Measured)
  | mark_seen (rows : List Measured)
  | ended

inductive Task where
  | call (ingestion : Ingestion) (state : CallState)
  | flush (state : FlushState)

structure Service (T : Type) where
  viewers : Nat
  stream : List (Entry T)
  db : Database TaskId Source
  pending : List Measured
  tasks : TaskId → Option Task

def Service.init {T : Type} : Service T := ⟨0, [], .empty, [], fun _ => none⟩

section Rows

def resolve (settings : Settings) (id : TaskId) (received_at : Utc) (data : List TelemetryCreate) :
    Option (List Measured) :=
  data.zipIdx.mapM fun (d, i) =>
    (resolve_timestamp settings.max_clock_skew_seconds d.timestamp received_at).map fun timestamp =>
      ⟨(id, i), d, timestamp⟩

-- The rows of an INSERT; the statement fails if a column refuses a value.
def insertRows (rows : List Measured) : Option (List (Source × TelemetryRow)) :=
  rows.mapM fun row => (columns (.of row.data row.timestamp)).map fun r => (row.source, r)

def payloads (serialize : Datetime → String) (rows : List Measured) :
    Option (List (Source × Dict)) :=
  rows.mapM fun row => (stamped serialize row.data row.timestamp).map fun payload =>
    (row.source, payload)

-- `_telemetry_to_broadcast_dict`; `none` is an OverflowError of `_to_iso`.
def telemetry_to_broadcast_dict (row : Measured) : Option Dict := do
  let mission_start_time ← match row.data.mission_start_time with
    | none => some .null
    | some t => (to_iso t).map .str
  let timestamp ← to_iso row.timestamp.datetime
  some
    [("robot_id", .int row.data.robot_id),
     ("battery", .float row.data.battery),
     ("temperature", .float row.data.temperature),
     ("speed", .float row.data.speed),
     ("status", optional .str row.data.status),
     ("mission_id", optional .str row.data.mission_id),
     ("mission_type", optional .str row.data.mission_type),
     ("mission_progress", optional .float row.data.mission_progress),
     ("mission_start_time", mission_start_time),
     ("battery_health", optional .float row.data.battery_health),
     ("motor_health", optional .float row.data.motor_health),
     ("sensor_health", optional .float row.data.sensor_health),
     ("network_health", optional .float row.data.network_health),
     ("x", optional .float row.data.x),
     ("y", optional .float row.data.y),
     ("timestamp", .str timestamp)]

def broadcastDicts (rows : List Measured) : Option (List (Source × Dict)) :=
  rows.mapM fun row => (telemetry_to_broadcast_dict row).map fun payload => (row.source, payload)

def lastSeen (rows : List Measured) : List (Int × Datetime) :=
  rows.map fun row => (row.data.robot_id, row.timestamp.datetime)

end Rows

-- `manager.broadcast` and `broadcast_batch` on the telemetry stream. `added` are
-- the entries whose XADD takes effect; whatever fails is logged and dropped. What
-- the MAXLEN of an XADD takes away is not seen by the service.
def broadcast (env : Env) (payloads : List (Source × Dict)) (added : List Nat) :
    List (Entry env.orjson.Text) :=
  if env.settings.websocket_backend = "direct" then []
  else match payloads.mapM fun p => (env.orjson.dumps (.obj p.2)).map (Entry.mk p.1) with
    | none => []
    | some entries => (entries.zipIdx.filter fun p => decide (p.2 ∈ added)).map Prod.fst

-- Up to the first await.
def Ingestion.begin (env : Env) (viewers : Nat) (id : TaskId) (now : Utc) (call : Ingestion) :
    CallState :=
  match resolve env.settings id now call.readings with
  | none => .raised
  | some rows =>
      if env.settings.opt_redis_buffer then
        match payloads env.serialize rows with
        | none => .raised
        | some payloads => .publish payloads (call.ack 0 "queued in Redis")
      else if !env.settings.defer_writes_without_viewers || decide (viewers > 0) then .insert rows
      else .buffer rows

-- What a step leaves: the database, `_pending`, the next state and the new entries.
abbrev Outcome (T α : Type) := Database TaskId Source × List Measured × α × List (Entry T)

def Ingestion.next (env : Env) (s : Service env.orjson.Text) (id : TaskId) (added : List Nat)
    (call : Ingestion) : CallState → Option (Outcome env.orjson.Text CallState)
  | .insert rows =>
      match insertRows rows with
      | none => some (s.db.rollback id, s.pending, .raised, [])
      | some values =>
          some (insert_telemetry s.db id values, s.pending, .commit_insert rows s.db.serial, [])
  | .commit_insert rows row_id =>
      match call with
      | .ingest _ => some (s.db.commit id, s.pending, .refresh rows row_id, [])
      | .ingest_batch _ =>
          match broadcastDicts rows with
          | none => some (s.db.commit id, s.pending, .raised, [])
          | some _ => some (s.db.commit id, s.pending, .mark_seen rows row_id, [])
  | .refresh rows row_id => some (s.db, s.pending, .mark_seen rows row_id, [])
  | .mark_seen rows row_id =>
      match latest_by_robot [] (lastSeen rows) with
      | none => some (s.db.rollback id, s.pending, .raised, [])
      | some latest => (mark_seen s.db id latest).map fun db =>
          (db, s.pending, .commit rows row_id, [])
  | .commit rows row_id =>
      match broadcastDicts rows with
      | none => some (s.db.commit id, s.pending, .raised, [])
      | some payloads =>
          some (s.db.commit id, s.pending, .publish payloads (call.ack row_id "received"), [])
  | .buffer rows =>
      match payloads env.serialize rows with
      | none => some (s.db, s.pending ++ rows, .raised, [])
      | some payloads =>
          some (s.db, s.pending ++ rows, .publish payloads (call.ack 0 "buffered"), [])
  | .publish payloads ack =>
      some (s.db, s.pending, .acknowledged ack, broadcast env payloads added)
  | .acknowledged _ => none
  | .raised => none

-- `insert_many` commits inside the `session.begin()` block of `flush`, so that
-- `mark_seen` finds the block's transaction closed and raises.
def flush (db : Database TaskId Source) (id : TaskId) :
    FlushState → Option (Database TaskId Source × FlushState)
  | .insert rows =>
      match insertRows rows with
      | none => some (db.rollback id, .ended)
      | some values => some (insert_telemetry db id values, .commit rows)
  | .commit rows => some (db.commit id, .mark_seen rows)
  | .mark_seen _ => some (db.rollback id, .ended)
  | .ended => none

-- Whether a statement or an await of the task may raise here. A publish cannot:
-- its errors are swallowed.
def Task.fallible : Task → Bool
  | .call _ (.publish _ _) | .call _ (.acknowledged _) | .call _ .raised => false
  | .flush .ended => false
  | _ => true

def Task.abort : Task → Task
  | .call ingestion _ => .call ingestion .raised
  | .flush _ => .flush .ended

inductive Label where
  | call (id : TaskId) (now : Utc) (ingestion : Ingestion)
  | flush (id : TaskId)
  | advance (id : TaskId) (added : List Nat)
  | fail (id : TaskId)
  | connect
  | disconnect

def Service.step (env : Env) (s : Service env.orjson.Text) : Label → Option (Service env.orjson.Text)
  | .call id now ingestion =>
      if (s.tasks id).isSome then none
      else some { s with
        tasks := Function.update s.tasks id
          (some (.call ingestion (ingestion.begin env s.viewers id now))) }
  | .flush id =>
      if (s.tasks id).isSome then none
      else some { s with
        pending := []
        tasks := Function.update s.tasks id
          (some (.flush (if s.pending.isEmpty then .ended else .insert s.pending))) }
  | .advance id added =>
      match s.tasks id with
      | none => none
      | some (.call ingestion state) =>
          (ingestion.next env s id added state).map fun (db, pending, state, entries) =>
            { s with
              stream := s.stream ++ entries
              db := db
              pending := pending
              tasks := Function.update s.tasks id (some (.call ingestion state)) }
      | some (.flush state) => (flush s.db id state).map fun (db, state) =>
          { s with db := db, tasks := Function.update s.tasks id (some (.flush state)) }
  | .fail id =>
      (s.tasks id).bind fun task =>
        if task.fallible then some { s with
          db := s.db.rollback id
          tasks := Function.update s.tasks id (some task.abort) }
        else none
  | .connect => some { s with viewers := s.viewers + 1 }
  | .disconnect => if s.viewers = 0 then none else some { s with viewers := s.viewers - 1 }

end FleetOps.Telemetry
