import Mathlib.Data.List.Basic

namespace FleetOps.Command

inductive Status where
  | PENDING
  | DISPATCHED
  | ACKNOWLEDGED
  | EXECUTING
  | COMPLETED
  | FAILED
  | TIMEOUT
  | CANCELLED
  deriving DecidableEq, Repr

namespace Status

def text : Status → String
  | PENDING => "PENDING"
  | DISPATCHED => "DISPATCHED"
  | ACKNOWLEDGED => "ACKNOWLEDGED"
  | EXECUTING => "EXECUTING"
  | COMPLETED => "COMPLETED"
  | FAILED => "FAILED"
  | TIMEOUT => "TIMEOUT"
  | CANCELLED => "CANCELLED"

end Status

def TERMINAL_STATES : List Status := [.COMPLETED, .FAILED, .TIMEOUT, .CANCELLED]

-- A state the table does not list has no successors.
def VALID_TRANSITIONS : Status → List Status
  | .PENDING => [.DISPATCHED, .CANCELLED, .TIMEOUT]
  | .DISPATCHED => [.ACKNOWLEDGED, .FAILED, .CANCELLED, .TIMEOUT]
  | .ACKNOWLEDGED => [.EXECUTING, .FAILED, .TIMEOUT, .COMPLETED]
  | .EXECUTING => [.COMPLETED, .FAILED, .TIMEOUT]
  | _ => []

-- The lifecycle column that a state's entry is recorded in.
inductive Stage where
  | dispatched
  | acknowledged
  | started
  | completed
  deriving DecidableEq, Repr

def Status.stage : Status → Option Stage
  | PENDING => none
  | DISPATCHED => some .dispatched
  | ACKNOWLEDGED => some .acknowledged
  | EXECUTING => some .started
  | COMPLETED | FAILED | TIMEOUT | CANCELLED => some .completed

def Stage.rank : Stage → Nat
  | .dispatched => 1
  | .acknowledged => 2
  | .started => 3
  | .completed => 4

-- How far a state is along the lifecycle. The table only moves forward.
def Status.rank (s : Status) : Nat :=
  match s.stage with
  | none => 0
  | some stage => stage.rank

theorem rank_of_stage {status : Status} {stage : Stage} (h : status.stage = some stage) :
    status.rank = stage.rank := by
  simp only [Status.rank, h]

theorem rank_lt_of_valid {current next : Status} (h : next ∈ VALID_TRANSITIONS current) :
    current.rank < next.rank := by
  revert h
  cases current <;> cases next <;> decide

theorem valid_terminal {current next : Status} (hterminal : current ∈ TERMINAL_STATES) :
    next ∉ VALID_TRANSITIONS current := by
  cases current <;> simp_all [TERMINAL_STATES, VALID_TRANSITIONS]

theorem timeout_valid {current : Status} (h : current ∉ TERMINAL_STATES) :
    Status.TIMEOUT ∈ VALID_TRANSITIONS current := by
  cases current <;> simp_all [TERMINAL_STATES, VALID_TRANSITIONS]

end FleetOps.Command
