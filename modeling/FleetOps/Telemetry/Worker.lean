import Mathlib.Logic.Function.Basic
import FleetOps.Library.ConsumerGroup
import FleetOps.Library.Runs
import FleetOps.Telemetry.Database

namespace FleetOps.Telemetry.Worker

open Calendar ConsumerGroup

abbrev WorkerId := Nat
abbrev EntryId := Nat

-- The insert values made of an entry.
abbrev Parsed := EntryId × InsertDict

section ProcessBatch

-- What `process_batch` makes of one entry. Its payload text is `none` where the
-- field is missing or empty.
inductive Parse where
  | skip
  | row (d : InsertDict)
  | error

-- `"battery" in decoded`, and `decoded.get` where that holds: a number, a bool and
-- None are no containers, and a text or a list has no `get`.
def parseDecoded (now : Utc) : Json → Parse
  | .obj d => if d.any (fun p => p.1 == "battery") then .row (payload_to_insert_dict now d) else .skip
  | .str text => if Text.contains "battery".toList text.toList then .error else .skip
  | .arr items =>
      if items.any (fun item => match item with | .str text => text == "battery" | _ => false) then
        .error
      else .skip
  | _ => .error

def parse (orjson : Orjson) (now : Utc) (payload : Option orjson.Text) : Parse :=
  match payload.bind orjson.loads with
  | none => .skip
  | some decoded => parseDecoded now decoded

-- The loop over `stream_messages`; `none` if it raises. `clock` is the time at
-- which each message is looked at.
def parseAll (orjson : Orjson) (clock : EntryId → Utc) :
    List (EntryId × Option orjson.Text) → Option (List Parsed)
  | [] => some []
  | (id, payload) :: messages =>
      match parse orjson (clock id) payload with
      | .error => none
      | .skip => parseAll orjson clock messages
      | .row d => (parseAll orjson clock messages).map fun rows => (id, d) :: rows

-- The awaits of `process_batch`.
inductive BatchState where
  | insert (rows : List Parsed)
  | insert_row (done : List Parsed) (row : Parsed) (rest : List Parsed)
  | commit_row (done : List Parsed) (rest : List Parsed)
  | mark_seen (rows : List Parsed)
  | commit (rows : List Parsed)
  | returned
  | raised

def insertRows (rows : List Parsed) : Option (List (EntryId × TelemetryRow)) :=
  rows.mapM fun p => (columns p.2).map fun row => (p.1, row)

-- What `_register_robots` reads of the rows. They have been inserted, so that
-- each robot_id is an integer.
def lastSeen (rows : List Parsed) : List (Int × Datetime) :=
  rows.filterMap fun p => (integer p.2.robot_id).map fun robot_id => (robot_id.val, p.2.timestamp)

def nextRow (done rest : List Parsed) : BatchState :=
  match rest with
  | [] => .mark_seen done
  | row :: rest => .insert_row done row rest

def BatchState.begin (opt_batch_insert : Bool) (rows : List Parsed) : BatchState :=
  if rows.isEmpty then .returned
  else if opt_batch_insert then .insert rows
  else nextRow [] rows

def process_batch (db : Database WorkerId EntryId) (w : WorkerId) :
    BatchState → Option (Database WorkerId EntryId × BatchState)
  | .insert rows =>
      match insertRows rows with
      | none => some (db.rollback w, .raised)
      | some values => some (insert_telemetry db w values, .mark_seen rows)
  | .insert_row done row rest =>
      match columns row.2 with
      | none => some (db.rollback w, .raised)
      | some value => some (insert_telemetry db w [(row.1, value)], .commit_row (done ++ [row]) rest)
  | .commit_row done rest => some (db.commit w, nextRow done rest)
  | .mark_seen rows =>
      match latest_by_robot [] (lastSeen rows) with
      | none => some (db.rollback w, .raised)
      | some latest => (mark_seen db w latest).map fun db => (db, .commit rows)
  | .commit _ => some (db.commit w, .returned)
  | .returned => none
  | .raised => none

end ProcessBatch

-- The awaits of one iteration of `redis_to_db_sync_worker`. `pause` is the sleep
-- before a retry, `stopped` a worker that is not running.
inductive State where
  | read
  | claim
  | fresh
  | process (message_ids : List EntryId) (state : BatchState)
  | ack (message_ids : List EntryId)
  | pause
  | stopped

-- The JSON library, the worker's flag and each worker's consumer name, which its
-- host name makes: two workers may share one.
structure Config where
  orjson : Orjson
  opt_batch_insert : Bool
  consumer_name : WorkerId → String

structure Pool (T : Type) where
  group : Group String (Option T)
  db : Database WorkerId EntryId
  workers : WorkerId → State

def Pool.init {T : Type} : Pool T := ⟨.empty, .empty, fun _ => .stopped⟩

-- The entries of a reply, with their fields.
def messages {T : Type} (g : Group String (Option T)) (ids : List EntryId) :
    List (EntryId × Option T) :=
  ids.filterMap fun id => (g.entries[id]?).map fun payload => (id, payload)

variable (config : Config)

-- After a call of `process_batch` has taken a step: the loop acknowledges what it
-- returned and retries after an error.
def afterBatch (message_ids : List EntryId) : BatchState → State
  | .returned => .ack message_ids
  | .raised => .pause
  | state => .process message_ids state

def startBatch (g : Group String (Option config.orjson.Text)) (clock : EntryId → Utc)
    (message_ids : List EntryId) : State :=
  match parseAll config.orjson clock (messages g message_ids) with
  | none => .pause
  | some rows => afterBatch message_ids (.begin config.opt_batch_insert rows)

-- `advance` is the next await succeeding; `fail` the same await raising without
-- effect; `lose` a Redis command that takes effect but whose reply is an error;
-- `stop` a crash or a cancellation between two steps.
inductive Label (T : Type) where
  | xadd (payload : Option T)
  | start (w : WorkerId)
  | advance (w : WorkerId) (now : Int) (clock : EntryId → Utc)
  | fail (w : WorkerId)
  | lose (w : WorkerId) (now : Int)
  | stop (w : WorkerId)

def Label.worker {T : Type} : Label T → Option WorkerId
  | .xadd _ => none
  | .start w | .advance w _ _ | .fail w | .lose w _ | .stop w => some w

-- What a step of a worker leaves: the group, the database and its own state.
abbrev Outcome (T : Type) := Group String (Option T) × Database WorkerId EntryId × State

def advance (s : Pool config.orjson.Text) (w : WorkerId) (now : Int) (clock : EntryId → Utc) :
    State → Option (Outcome config.orjson.Text)
  | .read =>
      let (group, ids) := s.group.history (config.consumer_name w) now 100
      some (group, s.db, if ids.isEmpty then .claim else startBatch config s.group clock ids)
  | .claim =>
      let (group, ids) := s.group.xautoclaim (config.consumer_name w) now 60000 100
      some (group, s.db, if ids.isEmpty then .fresh else .read)
  | .fresh =>
      let (group, ids) := s.group.fresh (config.consumer_name w) now 100
      some (group, s.db, if ids.isEmpty then .read else startBatch config s.group clock ids)
  | .process ids state =>
      (process_batch s.db w state).map fun (db, state) => (s.group, db, afterBatch ids state)
  | .ack ids => some (s.group.xack ids, s.db, .read)
  | .pause => some (s.group, s.db, .read)
  | .stopped => none

-- An exception while claiming is swallowed; any other ends the iteration.
def fail (s : Pool config.orjson.Text) (w : WorkerId) : State → Option (Outcome config.orjson.Text)
  | .read | .fresh | .ack _ => some (s.group, s.db, .pause)
  | .claim => some (s.group, s.db, .fresh)
  | .process _ _ => some (s.group, s.db.rollback w, .pause)
  | .pause | .stopped => none

def lose (s : Pool config.orjson.Text) (w : WorkerId) (now : Int) :
    State → Option (Outcome config.orjson.Text)
  | .read => some ((s.group.history (config.consumer_name w) now 100).1, s.db, .pause)
  | .claim =>
      some ((s.group.xautoclaim (config.consumer_name w) now 60000 100).1, s.db, .fresh)
  | .fresh => some ((s.group.fresh (config.consumer_name w) now 100).1, s.db, .pause)
  | .ack ids => some (s.group.xack ids, s.db, .pause)
  | .process _ _ | .pause | .stopped => none

-- What a label makes its worker do.
def act (s : Pool config.orjson.Text) (w : WorkerId) :
    Label config.orjson.Text → Option (Outcome config.orjson.Text)
  | .xadd _ => none
  | .start _ =>
      match s.workers w with
      | .stopped => some (s.group, s.db, .read)
      | _ => none
  | .advance _ now clock => advance config s w now clock (s.workers w)
  | .fail _ => fail config s w (s.workers w)
  | .lose _ now => lose config s w now (s.workers w)
  | .stop _ => some (s.group, s.db.rollback w, .stopped)

def Pool.step (s : Pool config.orjson.Text) (l : Label config.orjson.Text) :
    Option (Pool config.orjson.Text) :=
  match l with
  | .xadd payload => some { s with group := s.group.xadd payload }
  | .start w | .advance w _ _ | .fail w | .lose w _ | .stop w =>
      (act config s w l).map fun (group, db, state) =>
        ⟨group, db, Function.update s.workers w state⟩

end FleetOps.Telemetry.Worker
