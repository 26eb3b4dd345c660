import FleetOps.Json
import FleetOps.Library.Runs

namespace FleetOps.Dashboard

open Dict

section JavaScript

-- `String(value)` and `new Date(value).getTime()` of what JSON can hold; `none` is NaN.
structure Browser where
  toText : Json → String
  getTime : Json → Option Int
  toText_str : ∀ text, toText (.str text) = text
  getTime_undefined : getTime (.str "undefined") = none

def truthy : Json → Bool
  | .null => false
  | .bool flag => flag
  | .int value => value != 0
  | .float value => value != .finite 0 && value != .nan
  | .str text => text != ""
  | .arr _ | .obj _ => true

-- A property that is missing is undefined.
def Browser.text (b : Browser) (value : Option Json) : String := (value.map b.toText).getD "undefined"

def isTruthy (value : Option Json) : Bool := value.any truthy

-- `{ ...target, ...source }`
def spread (target source : Dict) : Dict := source.foldl (fun d p => setItem d p.1 p.2) target

-- A property name that is an array index.
def arrayIndex (key : String) : Option Nat :=
  key.toNat?.filter fun n => toString n == key && n < 2 ^ 32 - 1

-- `Object.keys`: the indices by size, then the other names in the order they were added.
def objectKeys {α : Type} (d : List (String × α)) : List String :=
  ((d.filterMap fun p => (arrayIndex p.1).map fun n => (n, p.1)).mergeSort
      (fun p q => decide (p.1 ≤ q.1))).map Prod.snd ++
    (d.filter fun p => (arrayIndex p.1).isNone).map Prod.fst

end JavaScript

section Events

variable (b : Browser)

def EVENT_BUFFER_LIMIT : Nat := 200

-- `event.message || event.action || ""`
def eventText (event : Dict) : String :=
  if isTruthy (event.lookup "message") then b.text (event.lookup "message")
  else if isTruthy (event.lookup "action") then b.text (event.lookup "action")
  else ""

def eventKey (event : Dict) : String :=
  b.text (event.lookup "robot_id") ++ "|" ++ b.text (event.lookup "timestamp") ++ "|" ++ eventText b event

-- The loop over the events, with the set of keys seen so far.
def unseen (seen : List String) : List Dict → List Dict
  | [] => []
  | event :: events =>
      if eventKey b event ∈ seen then unseen seen events
      else event :: unseen (eventKey b event :: seen) events

-- A missing or unparseable timestamp counts as 0.
def eventAt (event : Dict) : Int := ((event.lookup "timestamp").bind b.getTime).getD 0

-- The comparator `at(b) - at(a)` puts `a` first unless it is positive.
def dedupeEvents (events : List Dict) : List Dict :=
  ((unseen b [] events).mergeSort fun x y => decide (eventAt b y - eventAt b x ≤ 0)).take
    EVENT_BUFFER_LIMIT

end Events

section Hook

variable (b : Browser)

structure PendingUpdates where
  robots : List (String × Dict)
  events : List Dict

-- The state of the hook, as far as messages and responses change it; `updateTimer` is whether
-- the timeout is armed.
structure FleetData where
  robots : List Dict
  events : List Dict
  pendingUpdates : PendingUpdates
  updateTimer : Bool

namespace FleetData

def init : FleetData := ⟨[], [], ⟨[], []⟩, false⟩

def idText (robot : Dict) : String := b.text (robot.lookup "robot_id")

-- `findIndex` and the write at what it finds, or the push.
def setRobot (msg : Dict) : List Dict → List Dict
  | [] => [msg]
  | robot :: robots =>
      if idText b robot = idText b msg then spread robot msg :: robots
      else robot :: setRobot msg robots

-- Properties are read off any value but null; what is no object has none of these.
def fields : Json → Dict
  | .obj fields => fields
  | _ => []

def buffer (pending : PendingUpdates) (lastMessage : Dict) : PendingUpdates :=
  if isTruthy (lastMessage.lookup "type") then
    if (lastMessage.lookup "type").any (fun | .str text => text == "EVENT" | _ => false) &&
        isTruthy (lastMessage.lookup "message") then
      { pending with events := lastMessage :: pending.events }
    else pending
  else if isTruthy (lastMessage.lookup "robot_id") && (lastMessage.lookup "battery").isSome then
    { pending with robots := setItem pending.robots (idText b lastMessage) lastMessage }
  else pending

def handleMessage (s : FleetData) (lastMessage : Json) : FleetData :=
  if truthy lastMessage then
    { s with pendingUpdates := buffer b s.pendingUpdates (fields lastMessage), updateTimer := true }
  else s

def applyRobot (updates : List (String × Dict)) (robots : List Dict) (id : String) : List Dict :=
  match updates.lookup id with
  | some msg => setRobot b msg robots
  | none => robots

def applyRobots (updates : List (String × Dict)) (robots : List Dict) : List Dict :=
  (objectKeys updates).foldl (applyRobot b updates) robots

-- The callback of the timeout.
def flush (s : FleetData) : FleetData where
  robots := applyRobots b s.pendingUpdates.robots s.robots
  events :=
    if s.pendingUpdates.events = [] then s.events
    else dedupeEvents b (s.pendingUpdates.events ++ s.events)
  pendingUpdates := ⟨[], []⟩
  updateTimer := false

-- `none` is a response that is no array.
def fetchRobots (s : FleetData) (data : Option (List Dict)) : FleetData :=
  { s with robots := data.getD [] }

def backfillEvents (s : FleetData) (data : Option (List Dict)) : FleetData :=
  let normalized := (data.getD []).map fun event => setItem event "type" (.str "EVENT")
  { s with events := dedupeEvents b (s.events ++ normalized) }

end FleetData

-- A frame arrives, the timeout fires or a response does.
inductive DataLabel where
  | message (lastMessage : Json)
  | flush
  | robots (data : Option (List Dict))
  | events (data : Option (List Dict))

def FleetData.step (s : FleetData) : DataLabel → Option FleetData
  | .message lastMessage => some (s.handleMessage b lastMessage)
  | .flush => if s.updateTimer then some (s.flush b) else none
  | .robots data => some (s.fetchRobots data)
  | .events data => some (s.backfillEvents b data)

end Hook

end FleetOps.Dashboard
