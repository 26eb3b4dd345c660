import FleetOps.Command.System

namespace FleetOps.Robot

open FleetOps.Command

-- The `status_to_patch` of `robot_loop`. An empty command type is no action.
def status_to_patch (cmd_action : String) : String :=
  if cmd_action = "RETURN_TO_BASE" ∨ cmd_action = "EMERGENCY_STOP" ∨ cmd_action = "RESUME" then
    "COMPLETED"
  else "FAILED"

def report (status : String) : CommandStatusUpdate := ⟨status, none, none, none⟩

def replay : CommandStatusUpdate :=
  ⟨"COMPLETED", none, none, some [("message", .str "Already processed")]⟩

-- The PATCHes that `robot_loop` sends for one claimed command, in order.
def reports (processed_command_ids : List CommandId) (cmd_obj : ClaimedCommand) :
    List CommandStatusUpdate :=
  if cmd_obj.id ∈ processed_command_ids then [replay]
  else [report "ACKNOWLEDGED", report "EXECUTING", report (status_to_patch cmd_obj.command_type)]

-- The robot remembers its last hundred commands.
def remember (processed_command_ids : List CommandId) (cmd_id : CommandId) : List CommandId :=
  if cmd_id ∈ processed_command_ids then processed_command_ids
  else if (processed_command_ids ++ [cmd_id]).length > 100 then
    (processed_command_ids ++ [cmd_id]).tail
  else processed_command_ids ++ [cmd_id]

-- `for cmd_obj in data`: each command of a claim response with its PATCHes.
def robot_loop : List CommandId → List ClaimedCommand →
    List (ClaimedCommand × List CommandStatusUpdate)
  | _, [] => []
  | processed_command_ids, cmd_obj :: data =>
      (cmd_obj, reports processed_command_ids cmd_obj) ::
        robot_loop (remember processed_command_ids cmd_obj.id) data

def stored (s : System) (id : CommandId) : Option Status := (s.db.committed id).map (·.status)

def terminal (s : System) (id : CommandId) : Bool :=
  (stored s id).any fun status => decide (status ∈ TERMINAL_STATES)

-- A robot reporting on one command to a backend that also serves others. The
-- robot goes on to its next PATCH when the one before is answered or its client
-- gives it up; a PATCH that is given up can still arrive, so several may be in
-- the air and several may be served at once.
structure Session where
  system : System
  command_id : CommandId
  waiting : List CommandStatusUpdate
  flying : List CommandStatusUpdate
  arrived : List (RequestId × CommandStatusUpdate)

-- The statuses that the PATCHes which have arrived ask for, each with its call.
def Session.heard (u : Session) : List (RequestId × String) :=
  u.arrived.map fun p => (p.1, p.2.status)

def Session.start (system : System) (command_id : CommandId) (plan : List CommandStatusUpdate) :
    Session := ⟨system, command_id, plan, [], []⟩

-- `act` is a step of a call that the backend serves, the robot's PATCHes among them.
inductive Label where
  | send
  | lose (i : Nat)
  | arrive (i : Nat) (r : RequestId) (now : Instant)
  | act (action : Action)

def Session.step (u : Session) : Label → Option Session
  | .send =>
      match u.waiting with
      | [] => none
      | patch :: waiting => some { u with waiting := waiting, flying := u.flying ++ [patch] }
  | .lose i => if i < u.flying.length then some { u with flying := u.flying.eraseIdx i } else none
  | .arrive i r now =>
      u.flying[i]?.bind fun patch =>
        (u.system.step (.start r now (.update_status u.command_id patch))).map fun system =>
          { u with
            system := system
            flying := u.flying.eraseIdx i
            arrived := u.arrived ++ [(r, patch)] }
  | .act action => (u.system.step action).map fun system => { u with system := system }

-- The PATCH has been answered, or it failed with its UPDATE committed.
def delivered (s : System) (r : RequestId) : Bool :=
  match s.requests r with
  | some (.update _ _ (.returned _)) | some (.update _ _ (.raised (.http _ _))) => true
  | some (.update _ _ (.raised .database)) => !(s.db.done r).isEmpty
  | _ => false

-- Nobody but the robot makes the command terminal.
def quiet (u : Session) : Label → Bool
  | .act action =>
      u.arrived.any (fun p => decide (p.1 = action.actor)) || terminal u.system u.command_id ||
        !(u.system.step action).any fun system => terminal system u.command_id
  | _ => true

-- What the SELECT of a PATCH has to read, and its UPDATE to find still there.
def admitted (s : System) (id : CommandId) (outcome : String) : UpdateState → Bool
  | .select => (stored s id).any fun status =>
      (VALID_TRANSITIONS status).any fun next => decide (next.text = outcome)
  | .update current _ _ => decide (stored s id = some current)
  | _ => true

-- The step is not one at which the PATCH with the outcome is turned away.
def admits (outcome : String) (u : Session) : Label → Bool
  | .act (.advance r _ _) =>
      match u.arrived.any (fun p => decide (p.1 = r ∧ p.2.status = outcome)), u.system.requests r with
      | true, some (.update _ _ state) => admitted u.system u.command_id outcome state
      | _, _ => true
  | _ => true

end FleetOps.Robot
