import FleetOps.Columns
import FleetOps.Command.Status

namespace FleetOps.Command

abbrev CommandId := Nat

structure CommandCreate where
  command_type : String
  payload : Option Dict
  timeout_seconds : Option Int
  idempotency_key : Option String

structure CommandStatusUpdate where
  status : String
  error_code : Option String
  error_message : Option String
  result : Option Dict

-- A row of the table. It meets the constraints of its columns.
structure RobotCommand where
  id : CommandId
  robot_id : Integer
  command_type : Varchar 64
  payload : Option Dict
  status : Status
  idempotency_key : Option (Varchar 128)
  timeout_seconds : Option Integer
  created_at : Instant
  dispatched_at : Option Instant
  acknowledged_at : Option Instant
  started_at : Option Instant
  completed_at : Option Instant
  expires_at : Option Instant
  error_code : Option (Varchar 64)
  error_message : Option (Varchar 255)
  result : Option Dict

def RobotCommand.stamp (row : RobotCommand) : Stage → Option Instant
  | .dispatched => row.dispatched_at
  | .acknowledged => row.acknowledged_at
  | .started => row.started_at
  | .completed => row.completed_at

-- What `_to_dict` reads of a command; its two times go out in ISO format. The
-- object a create holds in memory is one too: no column has cut its texts.
structure CommandDict where
  command_id : CommandId
  robot_id : Int
  command_type : String
  payload : Option Dict
  status : Status
  idempotency_key : Option String
  timeout_seconds : Option Int
  expires_at : Option Instant
  created_at : Instant
  error_code : Option String
  error_message : Option String
  result : Option Dict

def to_dict (record : RobotCommand) : CommandDict where
  command_id := record.id
  robot_id := record.robot_id.val
  command_type := record.command_type.val
  payload := record.payload
  status := record.status
  idempotency_key := record.idempotency_key.map Subtype.val
  timeout_seconds := record.timeout_seconds.map Subtype.val
  expires_at := record.expires_at
  created_at := record.created_at
  error_code := record.error_code.map Subtype.val
  error_message := record.error_message.map Subtype.val
  result := record.result

-- `if command.timeout_seconds` is false for a missing and for a zero timeout.
def expiry (timeout_seconds : Option Int) (now : Instant) : Option Instant :=
  match timeout_seconds with
  | none => none
  | some seconds => if seconds = 0 then none else some (now + seconds * 1000000)

def new_cmd (cmd_id : CommandId) (robot_id : Int) (command : CommandCreate) (now : Instant) :
    CommandDict where
  command_id := cmd_id
  robot_id := robot_id
  command_type := command.command_type
  payload := command.payload
  status := .PENDING
  idempotency_key := command.idempotency_key
  timeout_seconds := command.timeout_seconds
  expires_at := expiry command.timeout_seconds now
  created_at := now
  error_code := none
  error_message := none
  result := none

-- The row that the INSERT of a new command makes; `none` if a column refuses a value.
def inserted (cmd : CommandDict) : Option RobotCommand := do
  some
    { id := cmd.command_id
      robot_id := ← integer (.int cmd.robot_id)
      command_type := ← varchar 64 (.str cmd.command_type)
      payload := cmd.payload
      status := cmd.status
      idempotency_key := ← nullable (varchar 128) (optional .str cmd.idempotency_key)
      timeout_seconds := ← nullable integer (optional .int cmd.timeout_seconds)
      created_at := cmd.created_at
      dispatched_at := none
      acknowledged_at := none
      started_at := none
      completed_at := none
      expires_at := cmd.expires_at
      error_code := none
      error_message := none
      result := none }

-- What a row keeps of the object it was inserted from.
structure NewRow (cmd : CommandDict) (row : RobotCommand) : Prop where
  id : row.id = cmd.command_id
  robot_id : row.robot_id.val = cmd.robot_id
  command_type : varchar 64 (.str cmd.command_type) = some row.command_type
  payload : row.payload = cmd.payload
  status : row.status = cmd.status
  idempotency_key :
    nullable (varchar 128) (optional .str cmd.idempotency_key) = some row.idempotency_key
  timeout_seconds :
    nullable integer (optional .int cmd.timeout_seconds) = some row.timeout_seconds
  created_at : row.created_at = cmd.created_at
  expires_at : row.expires_at = cmd.expires_at
  stamps : ∀ stage, row.stamp stage = none

theorem newRow_inserted {cmd : CommandDict} {row : RobotCommand} (h : inserted cmd = some row) :
    NewRow cmd row := by
  obtain ⟨robot_id, hrobot, h⟩ := Option.bind_eq_some_iff.mp h
  obtain ⟨command_type, htype, h⟩ := Option.bind_eq_some_iff.mp h
  obtain ⟨idempotency_key, hkey, h⟩ := Option.bind_eq_some_iff.mp h
  obtain ⟨timeout_seconds, htimeout, h⟩ := Option.bind_eq_some_iff.mp h
  cases h
  exact ⟨rfl, integer_eq_some hrobot, htype, rfl, rfl, hkey, htimeout, rfl, rfl,
    fun stage => by cases stage <;> rfl⟩

-- The primary key and `uix_robot_id_idempotency_key`, where NULL keys differ.
def collides (a b : RobotCommand) : Bool :=
  decide (a.id = b.id) || (decide (a.robot_id = b.robot_id) && a.idempotency_key.isSome &&
    decide (a.idempotency_key = b.idempotency_key))

-- The columns an UPDATE sets. A column it does not name keeps its value.
structure Values where
  status : Status
  dispatched_at : Option Instant := none
  acknowledged_at : Option Instant := none
  started_at : Option Instant := none
  completed_at : Option Instant := none
  error_code : Option (Option (Varchar 64)) := none
  error_message : Option (Option (Varchar 255)) := none
  result : Option (Option Dict) := none

def Values.apply (values : Values) (row : RobotCommand) : RobotCommand :=
  { row with
    status := values.status
    dispatched_at := values.dispatched_at.or row.dispatched_at
    acknowledged_at := values.acknowledged_at.or row.acknowledged_at
    started_at := values.started_at.or row.started_at
    completed_at := values.completed_at.or row.completed_at
    error_code := values.error_code.getD row.error_code
    error_message := values.error_message.getD row.error_message
    result := values.result.getD row.result }

-- `if update_data.result` is false for a missing and for an empty dictionary.
def truthy (result : Option Dict) : Bool :=
  match result with
  | none => false
  | some fields => !fields.isEmpty

-- The values of the three statuses a command ends in without success; `none`
-- if a column refuses one.
def closing_values (new_status : Status) (update_data : CommandStatusUpdate) (now : Instant) :
    Option Values := do
  some
    { status := new_status
      completed_at := some now
      error_code := some (← nullable (varchar 64) (optional .str update_data.error_code))
      error_message := some (← nullable (varchar 255) (optional .str update_data.error_message))
      result := if truthy update_data.result then some update_data.result else none }

def transition_values (new_status : Status) (update_data : CommandStatusUpdate) (now : Instant) :
    Option Values :=
  match new_status with
  | .DISPATCHED => some { status := new_status, dispatched_at := some now }
  | .ACKNOWLEDGED => some { status := new_status, acknowledged_at := some now }
  | .EXECUTING => some { status := new_status, started_at := some now }
  | .COMPLETED =>
      some { status := new_status, completed_at := some now, result := some update_data.result }
  | .PENDING => some { status := new_status }
  | .FAILED | .TIMEOUT | .CANCELLED => closing_values new_status update_data now

-- What no UPDATE of the program touches.
def SameCommand (a b : RobotCommand) : Prop :=
  a.id = b.id ∧ a.robot_id = b.robot_id ∧ a.command_type = b.command_type ∧
    a.payload = b.payload ∧ a.idempotency_key = b.idempotency_key ∧
    a.timeout_seconds = b.timeout_seconds ∧ a.created_at = b.created_at ∧
    a.expires_at = b.expires_at

-- One committed change of a command: it appears as a fresh PENDING row, or
-- takes a listed transition and stamps the stage it enters and no other.
def Advance (id : CommandId) : Option RobotCommand → RobotCommand → Prop
  | none, row => row.id = id ∧ row.status = .PENDING ∧ ∀ stage, row.stamp stage = none
  | some old, row => SameCommand old row ∧ row.status ∈ VALID_TRANSITIONS old.status ∧
      ∀ stage, if row.status.stage = some stage then (row.stamp stage).isSome
        else row.stamp stage = old.stamp stage

theorem advance_new {cmd_id : CommandId} {robot_id : Int} {command : CommandCreate} {now : Instant}
    {row : RobotCommand} (h : inserted (new_cmd cmd_id robot_id command now) = some row) :
    Advance cmd_id none row :=
  ⟨(newRow_inserted h).id, (newRow_inserted h).status, (newRow_inserted h).stamps⟩

theorem sameCommand_apply (values : Values) (row : RobotCommand) :
    SameCommand row (values.apply row) := by
  simp [SameCommand, Values.apply]

theorem closing_values_eq_some {new_status : Status} {update_data : CommandStatusUpdate}
    {now : Instant} {values : Values} (h : closing_values new_status update_data now = some values) :
    values.status = new_status ∧ values.dispatched_at = none ∧ values.acknowledged_at = none ∧
      values.started_at = none ∧ values.completed_at = some now := by
  obtain ⟨error_code, _, h⟩ := Option.bind_eq_some_iff.mp h
  obtain ⟨error_message, _, h⟩ := Option.bind_eq_some_iff.mp h
  cases h
  exact ⟨rfl, rfl, rfl, rfl, rfl⟩

-- A transition sets its status and the column of the stage it enters, no other stage's.
theorem transition_values_eq_some {new_status : Status} {update_data : CommandStatusUpdate}
    {now : Instant} {values : Values}
    (h : transition_values new_status update_data now = some values) (row : RobotCommand) :
    (values.apply row).status = new_status ∧ ∀ stage, (values.apply row).stamp stage =
      if new_status.stage = some stage then some now else row.stamp stage := by
  have hclosing : ∀ {closing}, closing_values closing update_data now = some values →
      closing.stage = some .completed → (values.apply row).status = closing ∧
        ∀ stage, (values.apply row).stamp stage =
          if closing.stage = some stage then some now else row.stamp stage := by
    intro closing h hstage
    obtain ⟨hstatus, hdispatched, hacknowledged, hstarted, hcompleted⟩ := closing_values_eq_some h
    refine ⟨hstatus, fun stage => ?_⟩
    cases stage <;> simp [hstage, Values.apply, RobotCommand.stamp, hdispatched, hacknowledged,
      hstarted, hcompleted]
  cases new_status with
  | FAILED => exact hclosing h rfl
  | TIMEOUT => exact hclosing h rfl
  | CANCELLED => exact hclosing h rfl
  | _ =>
      cases h
      refine ⟨rfl, fun stage => ?_⟩
      cases stage <;> simp [Status.stage, Values.apply, RobotCommand.stamp]

theorem advance_transition {id : CommandId} {row : RobotCommand} {new_status : Status}
    {update_data : CommandStatusUpdate} {now : Instant} {values : Values}
    (hvalues : transition_values new_status update_data now = some values)
    (hvalid : new_status ∈ VALID_TRANSITIONS row.status) :
    Advance id (some row) (values.apply row) := by
  obtain ⟨hstatus, hstamps⟩ := transition_values_eq_some hvalues row
  refine ⟨sameCommand_apply _ row, by rwa [hstatus], fun stage => ?_⟩
  rw [hstatus, hstamps]
  split_ifs with hstage
  · rfl
  · rfl

theorem advance_dispatch {id : CommandId} {row : RobotCommand} (now : Instant)
    (hpending : row.status = .PENDING) :
    Advance id (some row)
      (Values.apply { status := .DISPATCHED, dispatched_at := some now } row) := by
  refine ⟨sameCommand_apply _ row, by simp [hpending, VALID_TRANSITIONS, Values.apply], fun stage => ?_⟩
  cases stage <;> simp [Status.stage, Values.apply, RobotCommand.stamp]

theorem advance_timeout {id : CommandId} {row : RobotCommand} (now : Instant)
    (code : Option (Option (Varchar 64))) (message : Option (Option (Varchar 255)))
    (hopen : row.status ∉ TERMINAL_STATES) :
    Advance id (some row) (Values.apply
      { status := .TIMEOUT, completed_at := some now, error_code := code, error_message := message }
      row) := by
  refine ⟨sameCommand_apply _ row, timeout_valid hopen, fun stage => ?_⟩
  cases stage <;> simp [Status.stage, Values.apply, RobotCommand.stamp]

end FleetOps.Command
