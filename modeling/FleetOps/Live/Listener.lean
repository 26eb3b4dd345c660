import FleetOps.Json
import FleetOps.Command.System

namespace FleetOps.Live

open Command (StreamName)

-- What `last_ids` holds for a stream: "$" until the stream has delivered, then the id
-- of the last entry it delivered. An entry's id is its position in the stream.
inductive Cursor where
  | new
  | after (id : Nat)
  deriving DecidableEq

-- The position from which an XREAD returns entries: "$" is taken as it starts.
def Cursor.start (length : Nat) : Cursor → Nat
  | .new => length
  | .after id => id + 1

-- `listen_to_redis` is blocked in an XREAD, or somewhere between two of them: handling a
-- reply, in `asyncio.sleep(0.001)`, or in the sleep before a retry.
inductive Phase where
  | between
  | reading (start : StreamName → Nat)

-- The two streams, of whose entries only the payload field counts, and the listener.
-- `first` records how long the streams were when the first XREAD started, `fanned_out`
-- the calls of `_fan_out` with the stream each message came from.
structure Listener (orjson : Orjson) where
  streams : StreamName → List (Option orjson.Text)
  last_ids : StreamName → Cursor
  phase : Phase
  first : Option (StreamName → Nat)
  fanned_out : List (StreamName × Json)

variable {orjson : Orjson}

-- `count=100` is for each stream.
def count : Nat := 100

namespace Listener

def init (streams : StreamName → List (Option orjson.Text)) : Listener orjson where
  streams := streams
  last_ids := fun _ => .new
  phase := .between
  first := none
  fanned_out := []

-- Where an XREAD that started now would read on.
def next (t : Listener orjson) (stream : StreamName) : Nat :=
  (t.last_ids stream).start (t.streams stream).length

def messages (t : Listener orjson) (start : Nat) (stream : StreamName) :
    List (Option orjson.Text × Nat) :=
  (((t.streams stream).drop start).take count).zipIdx start

-- One message of a reply. One without a payload, or with one that does not decode, only
-- moves the cursor.
def handle (stream : StreamName) (t : Listener orjson) (message : Option orjson.Text × Nat) :
    Listener orjson :=
  { t with
    last_ids := Function.update t.last_ids stream (.after message.2)
    fanned_out := t.fanned_out ++ ((message.1.bind orjson.loads).map (stream, ·)).toList }

def serve (start : StreamName → Nat) (included : StreamName → Bool) (t : Listener orjson)
    (stream : StreamName) : Listener orjson :=
  if included stream then (t.messages (start stream) stream).foldl (handle stream) t else t

-- The two loops over a reply.
def answer (start : StreamName → Nat) (included : StreamName → Bool) (t : Listener orjson) :
    Listener orjson :=
  [StreamName.telemetry_stream, .event_stream].foldl (serve start included) t

def xadd (t : Listener orjson) (stream : StreamName) (payload : Option orjson.Text) :
    Listener orjson :=
  { t with streams := Function.update t.streams stream (t.streams stream ++ [payload]) }

def xread (t : Listener orjson) : Listener orjson :=
  { t with phase := .reading t.next, first := some (t.first.getD t.next) }

-- The XREAD is over, by its reply or without one.
def leave (t : Listener orjson) : Listener orjson := { t with phase := .between }

def waiting (t : Listener orjson) (start : StreamName → Nat) (stream : StreamName) :
    List (Option orjson.Text) :=
  (t.streams stream).drop (start stream)

inductive Label (orjson : Orjson) where
  | xadd (stream : StreamName) (payload : Option orjson.Text)
  | xread
  -- The XREAD returns entries, of both streams or of those it was woken for.
  | reply (included : StreamName → Bool)
  | timeout
  | error

-- The handling of a reply does not await, so no other step falls into it.
def step (t : Listener orjson) : Label orjson → Option (Listener orjson)
  | .xadd stream payload => some (t.xadd stream payload)
  | .xread =>
      match t.phase with
      | .between => some t.xread
      | .reading _ => none
  | .reply included =>
      match t.phase with
      | .between => none
      | .reading start =>
          if [StreamName.telemetry_stream, .event_stream].any
              fun stream => included stream && !(t.waiting start stream).isEmpty then
            some (t.answer start included).leave
          else none
  | .timeout =>
      match t.phase with
      | .between => none
      | .reading start =>
          if [StreamName.telemetry_stream, .event_stream].all
              fun stream => (t.waiting start stream).isEmpty then
            some t.leave
          else none
  | .error =>
      match t.phase with
      | .between => none
      | .reading _ => some t.leave

end Listener

end FleetOps.Live
