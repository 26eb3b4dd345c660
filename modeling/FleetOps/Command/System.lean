import Mathlib.Logic.Function.Basic
import FleetOps.Library.RowStore
import FleetOps.Library.Runs
import FleetOps.Command.Row

namespace FleetOps.Command

abbrev RequestId := Nat
abbrev Table := RowStore.Store RequestId CommandId RobotCommand

inductive Error where
  | http (status_code : Nat) (detail : String)
  | database

-- The two Redis streams `manager.broadcast` can be given.
inductive StreamName where
  | telemetry_stream
  | event_stream
  deriving DecidableEq, Repr

-- A command message on a stream. `rest` holds the other fields of `_to_dict`
-- where the sender starts from that dictionary.
structure Message where
  stream : StreamName
  type : String
  robot_id : Int
  command_type : String
  status : Status
  command_id : CommandId
  timestamp : Instant
  rest : Option CommandDict

def dictMessage (type : String) (payload : CommandDict) (now : Instant) : Message where
  stream := .event_stream
  type := type
  robot_id := payload.robot_id
  command_type := payload.command_type
  status := payload.status
  command_id := payload.command_id
  timestamp := now
  rest := some payload

-- What the database and the network decide: the row a LIMIT 1 query or a key
-- lookup returns, the order of an unordered result, whether a publish succeeds.
inductive Choice where
  | quiet
  | row (id : CommandId)
  | noRow
  | rows (ids : List CommandId)
  | publish (delivered : Bool)

-- UPDATE robot_commands SET values WHERE id = :id AND cond. The condition is
-- evaluated on the latest version the statement may see; a matching row that
-- another open transaction holds makes it wait, which is `none` here. The flag
-- is `rowcount > 0`. Where a column refuses a value, no matching row is written.
def updateWhere (db : Table) (r : RequestId) (id : CommandId) (cond : RobotCommand → Bool)
    (values : Option Values) : Option (Table × Bool) :=
  match db.visible r id with
  | none => some (db, false)
  | some row =>
      if cond row then
        if db.locked r id then none
        else values.map fun values => (db.write r id (values.apply row), true)
      else some (db, false)

def published (message : Message) (choice : Choice) : Option (List Message) :=
  match choice with
  | .publish true => some [message]
  | .publish false => some []
  | _ => none

-- Each service function is resumed at its next await. A state names the
-- statement it waits for and carries the local variables still needed.
inductive CreateState where
  | insert (cmd : CommandDict)
  | commit (cmd : CommandDict)
  | rollback
  | recover
  | broadcast (payload : CommandDict) (now : Instant)
  | returned (payload : CommandDict)
  | raised (error : Error)

-- The recovery SELECT compares with the key as it was sent, NULL with IS NULL.
def requested (robot_id : Int) (command : CommandCreate) (row : RobotCommand) : Bool :=
  decide (row.robot_id.val = robot_id) &&
    decide (row.idempotency_key.map Subtype.val = command.idempotency_key)

def create_command (robot_id : Int) (command : CommandCreate) (db : Table) (r : RequestId)
    (choice : Choice) : CreateState → Option (Table × CreateState × List Message)
  | .insert cmd => (inserted cmd).bind fun row =>
      if db.rows.any (collides row) then some (db, .rollback, [])
      -- The unique index makes a second inserter wait for the first to end.
      else if db.dirty.any (fun w => collides row w.after && decide (w.writer ≠ r)) then none
      else some (db.write r row.id row, .commit cmd, [])
  -- The commit does not expire the object: the answer has the texts as they were sent.
  | .commit cmd => some (db.commit r, .broadcast cmd cmd.created_at, [])
  | .rollback => some (db.rollback r, .recover, [])
  | .recover =>
      match choice with
      | .row id => (db.committed id).bind fun existing_cmd =>
          if requested robot_id command existing_cmd then
            some (db, .returned (to_dict existing_cmd), [])
          else none
      | .noRow =>
          if db.rows.any (requested robot_id command) then none
          else some (db, .raised (.http 500 "Database conflict handling failed"), [])
      | _ => none
  | .broadcast payload now =>
      (published (dictMessage "COMMAND_CREATED" payload now) choice).map fun out =>
        (db, .returned payload, out)
  | .returned _ => none
  | .raised _ => none

structure ClaimedCommand where
  id : CommandId
  command_type : String
  payload : Option Dict

def claimedCommand (record : RobotCommand) : ClaimedCommand :=
  ⟨record.id, record.command_type.val, record.payload⟩

inductive ClaimState where
  | select (claimed : List ClaimedCommand)
  | stamp (claimed : List ClaimedCommand) (record : RobotCommand)
  | update (claimed : List ClaimedCommand) (record : RobotCommand) (now : Instant)
  | commit (claimed : List ClaimedCommand) (record : RobotCommand) (now : Instant)
  | rollback (claimed : List ClaimedCommand)
  | broadcast (claimed : List ClaimedCommand) (record : RobotCommand) (now : Instant)
  | returned (claimed : List ClaimedCommand)
  | raised (error : Error)

def pendingFor (robot_id : Int) (row : RobotCommand) : Bool :=
  decide (row.robot_id.val = robot_id) && decide (row.status = .PENDING)

-- The oldest PENDING row of the robot; several may share the least `created_at`.
def get_next_pending (robot_id : Int) (db : Table) (choice : Choice) :
    Option (Option RobotCommand) :=
  match choice with
  | .row id => (db.committed id).bind fun record =>
      if pendingFor robot_id record ∧ (db.rows.filter (pendingFor robot_id)).all
          (fun other => decide (record.created_at ≤ other.created_at)) then some (some record)
      else none
  | .noRow => if db.rows.any (pendingFor robot_id) then none else some none
  | _ => none

def try_dispatch (command_id : CommandId) (now : Instant) (db : Table) (r : RequestId) :
    Option (Table × Bool) :=
  updateWhere db r command_id (fun row => decide (row.status = .PENDING))
    (some { status := .DISPATCHED, dispatched_at := some now })

-- No stream is passed, so `manager.broadcast` falls back to its default.
def dispatchMessage (robot_id : Int) (record : RobotCommand) (now : Instant) : Message where
  stream := .telemetry_stream
  type := "COMMAND_UPDATE"
  robot_id := robot_id
  command_type := record.command_type.val
  status := .DISPATCHED
  command_id := record.id
  timestamp := now
  rest := none

def claim_pending_commands (robot_id : Int) (db : Table) (r : RequestId) (now : Instant)
    (choice : Choice) : ClaimState → Option (Table × ClaimState × List Message)
  | .select claimed => (get_next_pending robot_id db choice).map fun found =>
      match found with
      | none => (db, .returned claimed, [])
      | some record => (db, .stamp claimed record, [])
  | .stamp claimed record => some (db, .update claimed record now, [])
  | .update claimed record stamped => (try_dispatch record.id stamped db r).map fun (db, won) =>
      if won then (db, .commit claimed record stamped, []) else (db, .rollback claimed, [])
  | .commit claimed record stamped =>
      some (db.commit r, .broadcast (claimed ++ [claimedCommand record]) record stamped, [])
  | .rollback claimed => some (db.rollback r, .select claimed, [])
  | .broadcast claimed record stamped =>
      (published (dispatchMessage robot_id record stamped) choice).map fun out =>
        (db, .select claimed, out)
  | .returned _ => none
  | .raised _ => none

inductive UpdateState where
  | select
  | stamp (record : RobotCommand)
  | update (current_status new_status : Status) (now : Instant)
  | commit (new_status : Status) (now : Instant) (matched : Bool)
  | reread (new_status : Status) (now : Instant) (matched : Bool)
  | broadcast (payload : CommandDict) (now : Instant)
  | returned (payload : CommandDict)
  | raised (error : Error)

-- The synchronous part of `update_status` between its read and its UPDATE.
def checkTransition (record : RobotCommand) (update_data : CommandStatusUpdate) (now : Instant) :
    UpdateState :=
  if update_data.status = record.status.text then .returned (to_dict record)
  else if record.status ∈ TERMINAL_STATES then
    .raised (.http 400 ("Cannot transition from terminal state " ++ record.status.text))
  else
    match (VALID_TRANSITIONS record.status).find?
        (fun s => decide (s.text = update_data.status)) with
    | none => .raised (.http 400 ("Invalid transition from " ++ record.status.text ++ " to " ++
        update_data.status))
    | some new_status => .update record.status new_status now

def get_or_404 (command_id : CommandId) (db : Table) : Except Error RobotCommand :=
  match db.committed command_id with
  | none => .error (.http 404 "Command not found")
  | some record => .ok record

-- What `update_status` does with its second read, once its UPDATE is committed.
def afterReread (new_status : Status) (matched : Bool) (now : Instant) (current : RobotCommand) :
    UpdateState :=
  if matched then .broadcast (to_dict current) now
  else if current.status = new_status then .returned (to_dict current)
  else .raised (.http 409 ("Command was concurrently updated to " ++ current.status.text ++
    "; transition to " ++ new_status.text ++ " no longer applies"))

def update_status (command_id : CommandId) (update_data : CommandStatusUpdate) (db : Table)
    (r : RequestId) (now : Instant) (choice : Choice) :
    UpdateState → Option (Table × UpdateState × List Message)
  | .select =>
      match get_or_404 command_id db with
      | .error e => some (db, .raised e, [])
      | .ok record => some (db, .stamp record, [])
  | .stamp record => some (db, checkTransition record update_data now, [])
  | .update current_status new_status stamped =>
      (updateWhere db r command_id (fun row => decide (row.status = current_status))
        (transition_values new_status update_data stamped)).map fun (db, matched) =>
          (db, .commit new_status stamped matched, [])
  | .commit new_status stamped matched =>
      some (db.commit r, .reread new_status stamped matched, [])
  | .reread new_status stamped matched =>
      match get_or_404 command_id db with
      | .error e => some (db, .raised e, [])
      | .ok current => some (db, afterReread new_status matched stamped current, [])
  | .broadcast payload stamped =>
      (published (dictMessage "COMMAND_UPDATE" payload stamped) choice).map fun out =>
        (db, .returned payload, out)
  | .returned _ => none
  | .raised _ => none

inductive ScanState where
  | select (now : Instant)
  | update (now started : Instant) (expired timed_out : List RobotCommand)
  | commit (now : Instant) (timed_out : List RobotCommand)
  | broadcast (now : Instant) (timed_out : List RobotCommand)
  | returned
  | raised (error : Error)

def overdue (now : Instant) (row : RobotCommand) : Bool :=
  match row.expires_at with
  | none => false
  | some expires_at => decide (expires_at < now) && decide (row.status ∉ TERMINAL_STATES)

theorem length_toString_integer (value : Integer) : (toString value.val).length ≤ 11 := by
  obtain ⟨value, hvalue⟩ := value
  have hbounds : -2 ^ 31 ≤ value ∧ value < 2 ^ 31 := of_decide_eq_true hvalue
  have hnat : ∀ n : Nat, n ≤ 2 ^ 31 → (toString n).length ≤ 10 := fun n hn =>
    (Nat.length_repr_le_iff (by omega)).mpr (by omega)
  cases value with
  | ofNat n =>
      have hn : (n : Int) < 2 ^ 31 := hbounds.2
      exact (hnat n (by omega)).trans (by omega)
  | negSucc n =>
      have hdigits := hnat (n + 1) (by omega)
      show ("-" ++ toString (n + 1)).length ≤ 11
      rw [String.length_append]
      exact Nat.add_le_add_left hdigits 1

def timeoutText (timeout_seconds : Option Integer) : Varchar 255 :=
  ⟨"Command did not complete within " ++
      timeout_seconds.elim "None" (fun seconds => toString seconds.val) ++ " seconds",
    by
      have hvalue :
          (timeout_seconds.elim "None" fun seconds => toString seconds.val).length ≤ 11 := by
        cases timeout_seconds with
        | none => decide
        | some value => exact length_toString_integer value
      simp only [String.length_append]
      exact (Nat.add_le_add_right (Nat.add_le_add_left hvalue _) _).trans (by decide)⟩

-- `func.now()` is the start of the scan's transaction, its first SELECT.
def timeoutValues (cmd : RobotCommand) (started : Instant) : Values where
  status := .TIMEOUT
  completed_at := some started
  error_code := some (some ⟨"TIMEOUT", by decide⟩)
  error_message := some (some (timeoutText cmd.timeout_seconds))

def timeoutMessage (cmd : RobotCommand) (now : Instant) : Message where
  stream := .event_stream
  type := "COMMAND_UPDATE"
  robot_id := cmd.robot_id.val
  command_type := cmd.command_type.val
  status := .TIMEOUT
  command_id := cmd.id
  timestamp := now
  rest := none

def afterUpdates (now : Instant) (timed_out : List RobotCommand) : ScanState :=
  if timed_out.isEmpty then .returned else .commit now timed_out

def nextUpdate (now started : Instant) (expired timed_out : List RobotCommand) : ScanState :=
  if expired.isEmpty then afterUpdates now timed_out else .update now started expired timed_out

def scan_for_timeouts (db : Table) (r : RequestId) (clock : Instant) (choice : Choice) :
    ScanState → Option (Table × ScanState × List Message)
  | .select now =>
      match choice with
      | .rows ids =>
          if ids.Perm ((db.rows.filter (overdue now)).map RobotCommand.id) then
            some (db, nextUpdate now clock (ids.filterMap db.committed) [], [])
          else none
      | _ => none
  | .update now started expired timed_out =>
      match expired with
      | [] => some (db, afterUpdates now timed_out, [])
      | cmd :: rest =>
          (updateWhere db r cmd.id (fun row => decide (row.status ∉ TERMINAL_STATES))
            (some (timeoutValues cmd started))).map fun (db, matched) =>
              (db, nextUpdate now started rest (if matched then timed_out ++ [cmd] else timed_out), [])
  | .commit now timed_out => some (db.commit r, .broadcast now timed_out, [])
  | .broadcast now timed_out =>
      match timed_out with
      | [] => some (db, .returned, [])
      | cmd :: rest => (published (timeoutMessage cmd now) choice).map fun out =>
          (db, if rest.isEmpty then .returned else .broadcast now rest, out)
  | .returned => none
  | .raised _ => none

-- A call in progress, or its outcome.
inductive Request where
  | create (robot_id : Int) (command : CommandCreate) (state : CreateState)
  | claim (robot_id : Int) (state : ClaimState)
  | update (command_id : CommandId) (update_data : CommandStatusUpdate) (state : UpdateState)
  | scan (state : ScanState)

inductive Call where
  | create_command (cmd_id : CommandId) (robot_id : Int) (command : CommandCreate)
  | claim_pending_commands (robot_id : Int)
  | update_status (command_id : CommandId) (update_data : CommandStatusUpdate)
  | scan_for_timeouts

-- Up to the first await. `cmd_id` is the `uuid4` drawn by the call.
def Call.begin (now : Instant) : Call → Request
  | .create_command cmd_id robot_id command =>
      .create robot_id command (.insert (new_cmd cmd_id robot_id command now))
  | .claim_pending_commands robot_id => .claim robot_id (.select [])
  | .update_status command_id update_data => .update command_id update_data .select
  | .scan_for_timeouts => .scan (.select now)

def Request.next (db : Table) (r : RequestId) (now : Instant) (choice : Choice) :
    Request → Option (Table × Request × List Message)
  | .create robot_id command state =>
      (create_command robot_id command db r choice state).map fun (db, state, out) =>
        (db, .create robot_id command state, out)
  | .claim robot_id state =>
      (claim_pending_commands robot_id db r now choice state).map fun (db, state, out) =>
        (db, .claim robot_id state, out)
  | .update command_id update_data state =>
      (update_status command_id update_data db r now choice state).map fun (db, state, out) =>
        (db, .update command_id update_data state, out)
  | .scan state =>
      (scan_for_timeouts db r now choice state).map fun (db, state, out) =>
        (db, .scan state, out)

def Request.finished : Request → Bool
  | .create _ _ (.returned _) | .create _ _ (.raised _) => true
  | .claim _ (.returned _) | .claim _ (.raised _) => true
  | .update _ _ (.returned _) | .update _ _ (.raised _) => true
  | .scan .returned | .scan (.raised _) => true
  | _ => false

def Request.abort : Request → Request
  | .create robot_id command _ => .create robot_id command (.raised .database)
  | .claim robot_id _ => .claim robot_id (.raised .database)
  | .update command_id update_data _ => .update command_id update_data (.raised .database)
  | .scan _ => .scan (.raised .database)

structure System where
  db : Table
  requests : RequestId → Option Request
  published : List (RequestId × Message)

def System.init : System := ⟨.empty, fun _ => none, []⟩

-- `fail` is a statement or an await that raises: the session closes without a
-- commit, and the call ends with that error.
inductive Action where
  | start (r : RequestId) (now : Instant) (call : Call)
  | advance (r : RequestId) (now : Instant) (choice : Choice)
  | fail (r : RequestId)

def Action.actor : Action → RequestId
  | .start r _ _ => r
  | .advance r _ _ => r
  | .fail r => r

def System.step (s : System) : Action → Option System
  | .start r now call =>
      match s.requests r with
      | some _ => none
      | none => some { s with requests := Function.update s.requests r (some (call.begin now)) }
  | .advance r now choice =>
      (s.requests r).bind fun request =>
        (request.next s.db r now choice).map fun (db, request, out) =>
          { db := db
            requests := Function.update s.requests r (some request)
            published := s.published ++ out.map fun message => (r, message) }
  | .fail r =>
      (s.requests r).bind fun request =>
        if request.finished then none
        else some { s with
          db := s.db.rollback r
          requests := Function.update s.requests r (some request.abort) }

abbrev Reaches (s : System) (actions : List Action) (t : System) : Prop :=
  Runs.exec System.step s actions = some t

-- The steps of a call that no other call interferes with and whose publish succeeds.
def createRun (r : RequestId) (now : Instant) (cmd_id : CommandId) (robot_id : Int)
    (command : CommandCreate) : List Action :=
  [.start r now (.create_command cmd_id robot_id command), .advance r now .quiet,
    .advance r now .quiet, .advance r now (.publish true)]

def claimTurn (r : RequestId) (now : Instant) (id : CommandId) : List Action :=
  [.advance r now (.row id), .advance r now .quiet, .advance r now .quiet, .advance r now .quiet,
    .advance r now (.publish true)]

def claimRun (r : RequestId) (now : Instant) (robot_id : Int) (ids : List CommandId) :
    List Action :=
  .start r now (.claim_pending_commands robot_id) :: ids.flatMap (claimTurn r now) ++
    [.advance r now .noRow]

def updateRun (r : RequestId) (now : Instant) (command_id : CommandId)
    (update_data : CommandStatusUpdate) : List Action :=
  .start r now (.update_status command_id update_data) ::
    List.replicate 5 (.advance r now .quiet) ++ [.advance r now (.publish true)]

end FleetOps.Command
