import FleetOps.Command.System
import FleetOps.Telemetry.Ingest
import FleetOps.Platform.Events

namespace FleetOps.Platform

open Calendar Dict
open Command (StreamName Message CommandDict)
open Telemetry (Env)

section Messages

-- The datetime that names an instant; Python has none outside the years 1 to 9999.
def utc (now : Instant) : Option Utc :=
  if h : 0 ≤ now ∧ now.toNat < wallLimit then some ⟨now.toNat, lt_wallLimit h⟩ else none

-- The fields of `_to_dict`. A command id stands for its UUID text.
def commandFields (payload : CommandDict) : Option Dict := do
  let expires_at ← match payload.expires_at with
    | none => some .null
    | some t => (utc t).map fun t => .str (String.ofList (isoformat t.datetime))
  let created_at ← utc payload.created_at
  some
    [("command_id", .str (toString payload.command_id)),
     ("robot_id", .int payload.robot_id),
     ("command_type", .str payload.command_type),
     ("payload", optional .obj payload.payload),
     ("status", .str payload.status.text),
     ("idempotency_key", optional .str payload.idempotency_key),
     ("timeout_seconds", optional .int payload.timeout_seconds),
     ("expires_at", expires_at),
     ("created_at", .str (String.ofList (isoformat created_at.datetime))),
     ("error_code", optional .str payload.error_code),
     ("error_message", optional .str payload.error_message),
     ("result", optional .obj payload.result)]

-- The dictionary that a command message is broadcast as.
def messageDict (message : Message) : Option Dict :=
  (utc message.timestamp).bind fun timestamp =>
    match message.rest with
    | some payload => (commandFields payload).map fun fields =>
        setItem (setItem fields "type" (.str message.type)) "timestamp" (.str (zulu timestamp))
    | none => some
        [("type", .str message.type),
         ("robot_id", .int message.robot_id),
         ("command_type", .str message.command_type),
         ("status", .str message.status.text),
         ("command_id", .str (toString message.command_id)),
         ("timestamp", .str (zulu timestamp))]

end Messages

-- What an entry was broadcast for.
inductive Origin where
  | reading (source : Telemetry.Source)
  | command (r : Command.RequestId) (message : Message)
  | event (r : EventRequestId) (new_event : EventRow)

def Origin.isReading : Origin → Bool
  | .reading _ => true
  | _ => false

structure Entry (T : Type) where
  stream : StreamName
  origin : Origin
  payload : T

-- The parts of the system that broadcast, and every entry they ever added to a
-- stream. The trimming of a stream takes nothing back here.
structure State (T : Type) where
  commands : Command.System
  telemetry : Telemetry.Service T
  events : Events
  added : List (Entry T)

def State.init {T : Type} : State T := ⟨.init, .init, .init, []⟩

inductive Label where
  | command (action : Command.Action)
  | telemetry (label : Telemetry.Label)
  | event (label : EventLabel)

section Broadcasts

variable (env : Env)

-- `broadcast` of one message; one that cannot be written is never delivered.
def xadd (stream : StreamName) (origin : Origin) (data : Option Dict) :
    Option (Entry env.orjson.Text) :=
  data.bind fun data => (env.orjson.dumps (.obj data)).map fun payload => ⟨stream, origin, payload⟩

def commandEntry (p : Command.RequestId × Message) : Option (Entry env.orjson.Text) :=
  xadd env p.2.stream (.command p.1 p.2) (messageDict p.2)

-- The route names `event_stream`.
def eventEntry (p : EventRequestId × EventRow) : Option (Entry env.orjson.Text) :=
  xadd env .event_stream (.event p.1 p.2) (some (eventDict p.2))

-- No call of the telemetry service names a stream.
def telemetryEntry {T : Type} (entry : Telemetry.Entry T) : Entry T :=
  ⟨.telemetry_stream, .reading entry.source, entry.payload⟩

-- The entries of the messages that a step has delivered. With the backend
-- "direct" they are fanned out and reach no stream.
def entries {M : Type} (entry : M → Option (Entry env.orjson.Text)) (sent : List M) :
    Option (List (Entry env.orjson.Text)) :=
  if env.settings.websocket_backend = "direct" then some [] else sent.mapM entry

def State.step (s : State env.orjson.Text) : Label → Option (State env.orjson.Text)
  | .command action => (s.commands.step action).bind fun commands =>
      (entries env (commandEntry env) (commands.published.drop s.commands.published.length)).map
        fun new => { s with commands := commands, added := s.added ++ new }
  | .telemetry label => (s.telemetry.step env label).map fun telemetry =>
      { s with
        telemetry := telemetry
        added := s.added ++ (telemetry.stream.drop s.telemetry.stream.length).map telemetryEntry }
  | .event label => (s.events.step label).bind fun events =>
      (entries env (eventEntry env) (events.published.drop s.events.published.length)).map
        fun new => { s with events := events, added := s.added ++ new }

end Broadcasts

end FleetOps.Platform
