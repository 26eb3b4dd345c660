import Mathlib.Logic.Function.Basic
import FleetOps.Library.LossyQueue
import FleetOps.Library.Runs

namespace FleetOps.Live

open LossyQueue

-- A connection is its own identity: starlette compares WebSocket objects by `is`.
abbrev WebSocket := Nat

-- Max frames buffered per client before we start dropping the oldest.
def CLIENT_QUEUE_MAXSIZE : Nat := 256

variable {Frame : Type*}

section Queues

-- asyncio.Queue(maxsize) as its two non-waiting operations see it: `none` is QueueFull
-- in the first and QueueEmpty in the second. A maxsize of zero means no bound.
def put_nowait (maxsize : Nat) (queue : List Frame) (data : Frame) : Option (List Frame) :=
  if 0 < maxsize ∧ maxsize ≤ queue.length then none else some (queue ++ [data])

def get_nowait : List Frame → Option (Frame × List Frame)
  | [] => none
  | oldest :: queue => some (oldest, queue)

-- One turn of the loop in `_enqueue_to_all_clients`: the queue it leaves, and the frames
-- for which it increments websocket_frames_dropped_total.
def enqueue (queue : List Frame) (data : Frame) : List Frame × List Frame :=
  match put_nowait CLIENT_QUEUE_MAXSIZE queue data with
  | some queue => (queue, [])
  | none =>
      match get_nowait queue with
      | some (oldest, rest) =>
          match put_nowait CLIENT_QUEUE_MAXSIZE rest data with
          | some queue => (queue, [oldest])
          | none => (rest, [oldest, data])
      | none =>
          match put_nowait CLIENT_QUEUE_MAXSIZE queue data with
          | some queue => (queue, [])
          | none => (queue, [data])

theorem enqueue_of_room {queue : List Frame} (h : queue.length < CLIENT_QUEUE_MAXSIZE)
    (data : Frame) : enqueue queue data = (queue ++ [data], []) := by
  have hput : put_nowait CLIENT_QUEUE_MAXSIZE queue data = some (queue ++ [data]) :=
    if_neg fun hfull => absurd hfull.2 (by omega)
  simp only [enqueue, hput]

-- Only the oldest frame goes: its place is free when the new one is put again.
theorem enqueue_of_full {queue : List Frame} (h : queue.length = CLIENT_QUEUE_MAXSIZE)
    (data : Frame) : enqueue queue data = (queue.drop 1 ++ [data], queue.take 1) := by
  have hput : put_nowait CLIENT_QUEUE_MAXSIZE queue data = none :=
    if_pos ⟨by decide, h.ge⟩
  cases queue with
  | nil => simp [CLIENT_QUEUE_MAXSIZE] at h
  | cons oldest rest =>
      have hagain : put_nowait CLIENT_QUEUE_MAXSIZE rest data = some (rest ++ [data]) := by
        refine if_neg fun hfull => ?_
        simp only [List.length_cons] at h
        omega
      simp [enqueue, hput, get_nowait, hagain]

end Queues

-- What a client's sender task is suspended in: `queue.get()` or `websocket.send_json(data)`.
inductive Sender (Frame : Type*) where
  | getting
  | sending (data : Frame)

-- The connection manager in bounded mode. The last four fields only record: every frame
-- fanned out, how many there were when a client connected, the frames a client's sender
-- took, and each increment of websocket_frames_dropped_total with the client and the
-- frame it was for.
structure Manager (Frame : Type*) where
  active_connections : List WebSocket
  queues : WebSocket → Option (List Frame)
  senders : WebSocket → Option (Sender Frame)
  frames : List Frame
  joined : WebSocket → Option Nat
  taken : WebSocket → List Frame
  counted : List (WebSocket × Frame)

namespace Manager

def init : Manager Frame where
  active_connections := []
  queues := fun _ => none
  senders := fun _ => none
  frames := []
  joined := fun _ => none
  taken := fun _ => []
  counted := []

-- The part of `connect` after `websocket.accept()`, which does not await.
def connect (m : Manager Frame) (websocket : WebSocket) : Manager Frame :=
  { m with
    active_connections := m.active_connections ++ [websocket]
    queues := Function.update m.queues websocket (some [])
    senders := Function.update m.senders websocket (some .getting)
    joined := Function.update m.joined websocket (some m.frames.length) }

def disconnect (m : Manager Frame) (websocket : WebSocket) : Manager Frame :=
  { m with
    active_connections := m.active_connections.erase websocket
    queues := Function.update m.queues websocket none
    senders := Function.update m.senders websocket none }

def enqueue_to_client (data : Frame) (m : Manager Frame) (websocket : WebSocket) :
    Manager Frame :=
  match m.queues websocket with
  | none => m
  | some queue =>
      { m with
        queues := Function.update m.queues websocket (some (enqueue queue data).1)
        counted := m.counted ++ (enqueue queue data).2.map (websocket, ·) }

def enqueue_to_all_clients (m : Manager Frame) (data : Frame) : Manager Frame :=
  m.active_connections.foldl (enqueue_to_client data) m

-- `_fan_out` with `bounded_fanout` on.
def fan_out (m : Manager Frame) (data : Frame) : Manager Frame :=
  { m.enqueue_to_all_clients data with frames := m.frames ++ [data] }

-- The frames fanned out since the client connected, and those counted as dropped for it.
def since (m : Manager Frame) (websocket : WebSocket) : List Frame :=
  m.frames.drop ((m.joined websocket).getD 0)

def dropped (m : Manager Frame) (websocket : WebSocket) : List Frame :=
  (m.counted.filter (fun p => p.1 = websocket)).map Prod.snd

end Manager

inductive Label (Frame : Type*) where
  | connect (websocket : WebSocket)
  | fan_out (data : Frame)
  -- The sender's `queue.get()` returns, its `send_json` returns, its `send_json` raises.
  | got (websocket : WebSocket)
  | sent (websocket : WebSocket)
  | send_failed (websocket : WebSocket)
  -- The endpoint's own `manager.disconnect`.
  | disconnect (websocket : WebSocket)

-- A WebSocket object is accepted once. A sender that waits in `queue.get()` wakes when its
-- queue holds a frame; one whose send fails disconnects its client.
def step (m : Manager Frame) : Label Frame → Option (Manager Frame)
  | .connect websocket =>
      if m.joined websocket = none then some (m.connect websocket) else none
  | .fan_out data => some (m.fan_out data)
  | .got websocket =>
      match m.senders websocket, m.queues websocket with
      | some .getting, some queue =>
          (get_nowait queue).map fun (data, rest) =>
            { m with
              queues := Function.update m.queues websocket (some rest)
              senders := Function.update m.senders websocket (some (.sending data))
              taken := Function.update m.taken websocket (m.taken websocket ++ [data]) }
      | _, _ => none
  | .sent websocket =>
      match m.senders websocket with
      | some (.sending _) =>
          some { m with senders := Function.update m.senders websocket (some .getting) }
      | _ => none
  | .send_failed websocket =>
      match m.senders websocket with
      | some (.sending _) => some (m.disconnect websocket)
      | _ => none
  | .disconnect websocket => some (m.disconnect websocket)

end FleetOps.Live
