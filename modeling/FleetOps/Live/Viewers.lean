import FleetOps.Live.Fanout

namespace FleetOps.Live

open Runs

variable {Process Frame : Type*}

namespace Manager

def connection_count (m : Manager Frame) : Nat := m.active_connections.length

end Manager

section Model

def IDLE_AFTER_CONSECUTIVE_ZERO_POLLS : Nat := 4

-- `ViewerState.active` and the counter of `viewer_watch_loop`, with the count of a response
-- that a process has computed and the loop has not read yet.
structure Watch where
  active : Bool
  consecutive_zero : Nat
  response : Option Nat

-- One address behind which each process has a connection manager of its own, and the
-- simulator that polls it.
structure Deployment (Process Frame : Type*) where
  managers : Process → Manager Frame
  watch : Watch

namespace Watch

def init : Watch where
  active := true
  consecutive_zero := 0
  response := none

-- What the loop does with `active_connections`.
def read (w : Watch) (count : Nat) : Watch :=
  if 0 < count then { active := true, consecutive_zero := 0, response := none }
  else
    { active := w.active && !decide (IDLE_AFTER_CONSECUTIVE_ZERO_POLLS ≤ w.consecutive_zero + 1)
      consecutive_zero := w.consecutive_zero + 1
      response := none }

end Watch

-- A poll is answered by the process it is routed to and then read, or it fails: whatever is
-- raised is swallowed, also when the response got lost.
inductive ViewerLabel (Process Frame : Type*) where
  | manager (process : Process) (l : Label Frame)
  | viewer_count (process : Process)
  | read
  | failed

namespace Deployment

def init : Deployment Process Frame where
  managers := fun _ => Manager.init
  watch := Watch.init

variable [DecidableEq Process]

def step (s : Deployment Process Frame) : ViewerLabel Process Frame → Option (Deployment Process Frame)
  | .manager process l =>
      (Live.step (s.managers process) l).map fun m =>
        { s with managers := Function.update s.managers process m }
  | .viewer_count process =>
      if s.watch.response = none then
        some { s with watch := { s.watch with
          response := some (s.managers process).connection_count } }
      else none
  | .read => s.watch.response.map fun count => { s with watch := s.watch.read count }
  | .failed => some { s with watch := { s.watch with response := none } }

end Deployment

end Model

section Watched

variable [DecidableEq Process]

def Connected (s : Deployment Process Frame) (process : Process) (websocket : WebSocket) : Prop :=
  websocket ∈ (s.managers process).active_connections

-- Polls all made while a socket stays connected do not turn the fleet off: from a state with
-- no zero counted and no response on its way, as long as the socket is there.
def StaysActive (run : List (ViewerLabel Process Frame)) : Prop :=
  ∀ before during rest s t process websocket, run = before ++ during ++ rest →
    exec Deployment.step Deployment.init before = some s → s.watch.consecutive_zero = 0 →
    s.watch.response = none → s.watch.active = true → exec Deployment.step s during = some t →
    Along Deployment.step (fun u _ => Connected u process websocket) s during → t.watch.active = true

-- A poll is answered by a process with a connection if any process has one.
def Served (s : Deployment Process Frame) : ViewerLabel Process Frame → Prop
  | .viewer_count process =>
      ∀ other, 0 < (s.managers other).connection_count → 0 < (s.managers process).connection_count
  | _ => True

-- No zero is counted and none is on its way.
def Seen (s : Deployment Process Frame) : Prop :=
  s.watch.active = true ∧ s.watch.consecutive_zero = 0 ∧ s.watch.response ≠ some 0

theorem seen_step {s t : Deployment Process Frame} {l : ViewerLabel Process Frame} {process : Process}
    {websocket : WebSocket} (hconnected : Connected s process websocket) (hserved : Served s l)
    (hs : Seen s) (hstep : s.step l = some t) : Seen t := by
  obtain ⟨hactive, hzero, hresponse⟩ := hs
  cases l with
  | manager other l =>
      obtain ⟨m, -, rfl⟩ := Option.map_eq_some_iff.mp hstep
      exact ⟨hactive, hzero, hresponse⟩
  | viewer_count other =>
      simp only [Deployment.step] at hstep
      split at hstep
      · cases hstep
        have hcount : 0 < (s.managers other).connection_count :=
          hserved process (List.length_pos_of_mem hconnected)
        exact ⟨hactive, hzero, fun h => hcount.ne' (Option.some.inj h)⟩
      · cases hstep
  | read =>
      obtain ⟨count, hcount, rfl⟩ := Option.map_eq_some_iff.mp hstep
      have hpos : 0 < count := Nat.pos_of_ne_zero fun h => hresponse (h ▸ hcount)
      rw [Seen, Watch.read, if_pos hpos]
      exact ⟨rfl, rfl, nofun⟩
  | failed =>
      cases hstep
      exact ⟨hactive, hzero, nofun⟩

theorem stays_active_of_served {run : List (ViewerLabel Process Frame)}
    (hserved : Along Deployment.step Served Deployment.init run) : StaysActive run := by
  intro before during rest s t process websocket hrun hbefore hzero hresponse hactive hduring hconnected
  rw [hrun, List.append_assoc] at hserved
  have hsegment : Along Deployment.step Served s during := (hserved.right hbefore).left
  have hseen : Seen s := ⟨hactive, hzero, by simp [hresponse]⟩
  exact (exec_along_invariant (fun u l v hc hu hstep => seen_step hc.1 hc.2 hu hstep)
    (hconnected.and hsegment) hseen hduring).1

-- With one process every poll is served.
theorem stays_active_of_subsingleton [Subsingleton Process] (run : List (ViewerLabel Process Frame)) :
    StaysActive run := by
  refine stays_active_of_served (along_of_forall (fun s l _ => ?_) _)
  cases l with
  | viewer_count process =>
      intro other hother
      rwa [Subsingleton.elim process other]
  | manager | read | failed => trivial

-- Four polls answered by the process without the socket.
def misrouted : List (ViewerLabel (Fin 4) Unit) :=
  (List.replicate 4 [.viewer_count 1, .read]).flatten

theorem not_stays_active : ¬ ∀ run : List (ViewerLabel (Fin 4) Unit),
    (exec Deployment.step Deployment.init run).isSome = true → StaysActive run := by
  intro h
  have hrun := h (.manager 0 (.connect 7) :: misrouted) rfl
  have hoff := hrun [.manager 0 (.connect 7)] misrouted [] _ _ 0 7 rfl rfl rfl rfl rfl rfl
    (by unfold Connected; decide)
  cases hoff

theorem stays_active_of_served_poll :
    StaysActive ([.manager 1 (.connect 7), .viewer_count 1, .read] : List (ViewerLabel (Fin 4) Unit)) := by
  refine stays_active_of_served ⟨trivial, fun s hs => ⟨?_, fun t _ => ⟨trivial, fun _ _ => trivial⟩⟩⟩
  cases hs
  intro other _
  decide

end Watched

end FleetOps.Live
