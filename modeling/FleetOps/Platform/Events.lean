import Mathlib.Logic.Function.Basic
import FleetOps.Library.Runs
import FleetOps.Telemetry.Reading

namespace FleetOps.Platform

open Calendar Text

abbrev EventRequestId := Nat

structure EventCreate where
  robot_id : Int
  message : String

-- A row of the events table meets the constraints of its columns.
structure EventRow where
  id : Nat
  robot_id : Integer
  message : Varchar 512
  timestamp : Utc

-- The awaits of `create_event`, and how it ends.
inductive EventState where
  | commit (event : EventCreate) (timestamp : Utc)
  | refresh (id : Nat)
  | broadcast (new_event : EventRow)
  | returned (id : Nat)
  | raised

structure Events where
  rows : List EventRow
  serial : Nat
  requests : EventRequestId → Option EventState
  published : List (EventRequestId × EventRow)

def Events.init : Events := ⟨[], 1, fun _ => none, []⟩

-- The row that the INSERT makes; `none` if a column refuses a value.
def newEvent (id : Nat) (event : EventCreate) (timestamp : Utc) : Option EventRow := do
  some ⟨id, ← integer (.int event.robot_id), ← varchar 512 (.str event.message), timestamp⟩

def zulu (t : Utc) : String :=
  String.ofList (replace "+00:00".toList "Z".toList (isoformat t.datetime))

def eventDict (new_event : EventRow) : Dict :=
  [("type", .str "EVENT"),
   ("robot_id", .int new_event.robot_id.1),
   ("message", .str new_event.message.1),
   ("timestamp", .str (zulu new_event.timestamp))]

-- `delivered` tells whether the XADD takes effect; a failed one is logged only.
def create_event (s : Events) (r : EventRequestId) (delivered : Bool) : EventState → Option Events
  | .commit event timestamp =>
      match newEvent s.serial event timestamp with
      | none => some { s with requests := Function.update s.requests r (some .raised) }
      | some new_event => some { s with
          rows := s.rows ++ [new_event]
          serial := s.serial + 1
          requests := Function.update s.requests r (some (.refresh new_event.id)) }
  | .refresh id =>
      (s.rows.find? fun row => decide (row.id = id)).map fun new_event =>
        { s with requests := Function.update s.requests r (some (.broadcast new_event)) }
  | .broadcast new_event => some { s with
      requests := Function.update s.requests r (some (.returned new_event.id))
      published := s.published ++ if delivered then [(r, new_event)] else [] }
  | .returned _ => none
  | .raised => none

def EventState.fallible : EventState → Bool
  | .commit _ _ | .refresh _ => true
  | _ => false

inductive EventLabel where
  | post (r : EventRequestId) (now : Utc) (event : EventCreate)
  | advance (r : EventRequestId) (delivered : Bool)
  | fail (r : EventRequestId)

def Events.step (s : Events) : EventLabel → Option Events
  | .post r now event =>
      if (s.requests r).isSome then none
      else some { s with requests := Function.update s.requests r (some (.commit event now)) }
  | .advance r delivered => (s.requests r).bind (create_event s r delivered)
  | .fail r => (s.requests r).bind fun state =>
      if state.fallible then
        some { s with requests := Function.update s.requests r (some .raised) }
      else none

end FleetOps.Platform
