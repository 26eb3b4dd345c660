import Mathlib.Data.List.Nodup
import FleetOps.Live.Fanout

namespace FleetOps.Live.Registry

open Runs

variable {Frame : Type*}

-- The queue and the sender task that one `connect` makes. `none` is a sender that has returned.
structure Connection (Frame : Type*) where
  websocket : WebSocket
  queue : List Frame
  sender : Option (Sender Frame)
  cancelled : Bool

namespace Connection

variable (c : Connection Frame)

-- `task.cancel()`, which does nothing to a task that is done.
def cancel : Connection Frame := if c.sender.isSome then { c with cancelled := true } else c

-- Its `queue.get()` returns; a cancelled task is thrown the CancelledError instead.
def got : Option (Connection Frame) :=
  match c.sender, c.cancelled with
  | some .getting, false =>
      (get_nowait c.queue).map fun p => { c with queue := p.2, sender := some (.sending p.1) }
  | _, _ => none

def sent : Option (Connection Frame) :=
  match c.sender, c.cancelled with
  | some (.sending _), false => some { c with sender := some .getting }
  | _, _ => none

def finish : Connection Frame := { c with sender := none }

-- Cancelled, or returning.
def Retired : Prop := c.cancelled = true ∨ c.sender = none

end Connection

-- The connection manager in bounded mode with its tasks and its gauge. A queue or a sender is
-- the number of the `connect` that made it.
structure Manager (Frame : Type*) where
  active_connections : List WebSocket
  queues : WebSocket → Option Nat
  senders : WebSocket → Option Nat
  connections : List (Connection Frame)
  websocket_connections_active : Int

namespace Manager

def init : Manager Frame where
  active_connections := []
  queues := fun _ => none
  senders := fun _ => none
  connections := []
  websocket_connections_active := 0

variable (m : Manager Frame)

def connection_count : Nat := m.active_connections.length

-- The part of `connect` after `websocket.accept()`, which does not await.
def connect (websocket : WebSocket) : Manager Frame where
  active_connections := m.active_connections ++ [websocket]
  queues := Function.update m.queues websocket (some m.connections.length)
  senders := Function.update m.senders websocket (some m.connections.length)
  connections := m.connections ++ [⟨websocket, [], some .getting, false⟩]
  websocket_connections_active := m.websocket_connections_active + 1

def disconnect (websocket : WebSocket) : Manager Frame :=
  let m :=
    if websocket ∈ m.active_connections then
      { m with
        active_connections := m.active_connections.erase websocket
        websocket_connections_active := m.websocket_connections_active - 1 }
    else m
  let m := { m with queues := Function.update m.queues websocket none }
  match m.senders websocket with
  | none => m
  | some sender =>
      { m with
        senders := Function.update m.senders websocket none
        connections := m.connections.modify sender Connection.cancel }

def enqueue_to_client (data : Frame) (m : Manager Frame) (websocket : WebSocket) : Manager Frame :=
  match m.queues websocket with
  | none => m
  | some queue =>
      { m with
        connections := m.connections.modify queue fun c => { c with queue := (enqueue c.queue data).1 } }

def enqueue_to_all_clients (data : Frame) : Manager Frame :=
  m.active_connections.foldl (enqueue_to_client data) m

-- A sender's `send_json` raises.
def send_failed (k : Nat) (c : Connection Frame) : Manager Frame :=
  let m := m.disconnect c.websocket
  { m with connections := m.connections.modify k Connection.finish }

end Manager

inductive Label (Frame : Type*) where
  | connect (websocket : WebSocket)
  -- The endpoint's on its way out, or anyone's.
  | disconnect (websocket : WebSocket)
  | fan_out (data : Frame)
  | got (k : Nat)
  | sent (k : Nat)
  | send_failed (k : Nat)
  -- A CancelledError ends the sender, whoever cancelled it.
  | stopped (k : Nat)

def step (m : Manager Frame) : Label Frame → Option (Manager Frame)
  | .connect websocket => if websocket ∈ m.active_connections then none else some (m.connect websocket)
  | .disconnect websocket => some (m.disconnect websocket)
  | .fan_out data => some (m.enqueue_to_all_clients data)
  | .got k =>
      m.connections[k]?.bind fun c =>
        c.got.map fun c => { m with connections := m.connections.set k c }
  | .sent k =>
      m.connections[k]?.bind fun c =>
        c.sent.map fun c => { m with connections := m.connections.set k c }
  | .send_failed k =>
      m.connections[k]?.bind fun c =>
        match c.sender with
        | some (.sending _) => some (m.send_failed k c)
        | _ => none
  | .stopped k =>
      m.connections[k]?.bind fun c =>
        if c.sender.isSome then some { m with connections := m.connections.set k c.finish } else none

-- The three containers and the gauge agree, and no sender outlives its registration.
structure InStep (m : Manager Frame) : Prop where
  nodup : m.active_connections.Nodup
  queues : ∀ websocket, (m.queues websocket).isSome = true ↔ websocket ∈ m.active_connections
  senders : ∀ websocket, (m.senders websocket).isSome = true ↔ websocket ∈ m.active_connections
  removed : ∀ (k : Nat) c, m.connections[k]? = some c → m.senders c.websocket ≠ some k → c.Retired
  gauge : m.websocket_connections_active = m.connection_count
  gauge_nonneg : 0 ≤ m.websocket_connections_active

-- Each registered sender is one that was made for its client.
structure Sound (m : Manager Frame) : Prop extends InStep m where
  own : ∀ websocket k, m.senders websocket = some k →
    ∃ c, m.connections[k]? = some c ∧ c.websocket = websocket

section Steps

variable {m m' : Manager Frame} {websocket : WebSocket} {k : Nat} {c : Connection Frame}

theorem sound_init : Sound (Manager.init : Manager Frame) where
  nodup := List.nodup_nil
  queues := by simp [Manager.init]
  senders := by simp [Manager.init]
  removed := by simp [Manager.init]
  gauge := rfl
  gauge_nonneg := Int.le_refl 0
  own := by simp [Manager.init]

-- What a step may make of a connection.
def Carried (c c' : Connection Frame) : Prop := c'.websocket = c.websocket ∧ (c.Retired → c'.Retired)

theorem getElem?_modify_eq_some {connections : List (Connection Frame)}
    {f : Connection Frame → Connection Frame} {j : Nat} {c' : Connection Frame}
    (h : (connections.modify k f)[j]? = some c') :
    ∃ c, connections[j]? = some c ∧ c' = if k = j then f c else c := by
  rw [List.getElem?_modify] at h
  obtain ⟨c, hc, rfl⟩ := Option.map_eq_some_iff.mp h
  exact ⟨c, hc, rfl⟩

-- A step of a task or a queue leaves the registry alone.
theorem Sound.modify (h : Sound m) {f : Connection Frame → Connection Frame}
    (hf : ∀ c, m.connections[k]? = some c → Carried c (f c)) :
    Sound { m with connections := m.connections.modify k f } where
  nodup := h.nodup
  queues := h.queues
  senders := h.senders
  removed := by
    intro j c' hc' hsender
    obtain ⟨c, hc, rfl⟩ := getElem?_modify_eq_some hc'
    by_cases hj : k = j
    · subst hj
      obtain ⟨hwebsocket, hretired⟩ := hf c hc
      rw [if_pos rfl] at hsender ⊢
      rw [hwebsocket] at hsender
      exact hretired (h.removed k c hc hsender)
    · rw [if_neg hj] at hsender ⊢
      exact h.removed j c hc hsender
  gauge := h.gauge
  gauge_nonneg := h.gauge_nonneg
  own := by
    intro websocket j hsender
    obtain ⟨c, hc, hwebsocket⟩ := h.own websocket j hsender
    by_cases hj : k = j
    · subst hj
      exact ⟨f c, by rw [List.getElem?_modify_eq, hc]; rfl, (hf c hc).1.trans hwebsocket⟩
    · exact ⟨c, by rw [List.getElem?_modify_ne _ _ hj, hc], hwebsocket⟩

theorem Sound.set (h : Sound m) {c' : Connection Frame} (hc : m.connections[k]? = some c)
    (hcarried : Carried c c') : Sound { m with connections := m.connections.set k c' } := by
  rw [List.set_eq_modify]
  refine h.modify fun d hd => ?_
  cases hc.symm.trans hd
  exact hcarried

theorem carried_got {c' : Connection Frame} (h : c.got = some c') : Carried c c' := by
  unfold Connection.got at h
  split at h
  · rename_i hsender hcancelled
    obtain ⟨p, -, rfl⟩ := Option.map_eq_some_iff.mp h
    exact ⟨rfl, fun hretired => by simp [Connection.Retired, hsender, hcancelled] at hretired⟩
  · cases h

theorem carried_sent {c' : Connection Frame} (h : c.sent = some c') : Carried c c' := by
  unfold Connection.sent at h
  split at h
  · rename_i hsender hcancelled
    cases h
    exact ⟨rfl, fun hretired => by simp [Connection.Retired, hsender, hcancelled] at hretired⟩
  · cases h

theorem carried_finish (c : Connection Frame) : Carried c c.finish := ⟨rfl, fun _ => .inr rfl⟩

theorem retired_cancel (c : Connection Frame) : c.cancel.Retired := by
  unfold Connection.cancel
  split
  · exact .inl rfl
  · rename_i hdone
    exact .inr (Option.not_isSome_iff_eq_none.mp hdone)

theorem carried_cancel (c : Connection Frame) : Carried c c.cancel := by
  refine ⟨?_, fun _ => retired_cancel c⟩
  unfold Connection.cancel
  split <;> rfl

theorem isSome_update_iff {f : WebSocket → Option Nat} {k : Nat} {clients : List WebSocket}
    (hf : ∀ w, (f w).isSome = true ↔ w ∈ clients) (w : WebSocket) :
    (Function.update f websocket (some k) w).isSome = true ↔ w ∈ clients ++ [websocket] := by
  rw [List.mem_append, List.mem_singleton]
  by_cases hw : w = websocket
  · subst hw
    simp
  · simp [hf, hw]

theorem isSome_update_none_iff {f : WebSocket → Option Nat} {clients : List WebSocket}
    (hnodup : clients.Nodup) (hf : ∀ w, (f w).isSome = true ↔ w ∈ clients) (w : WebSocket) :
    (Function.update f websocket none w).isSome = true ↔ w ∈ clients.erase websocket := by
  by_cases hw : w = websocket
  · subst hw
    simp [hnodup.not_mem_erase]
  · rw [Function.update_of_ne hw, hf, List.mem_erase_of_ne hw]

theorem Sound.connect (h : Sound m) (hnew : websocket ∉ m.active_connections) :
    Sound (m.connect websocket) where
  nodup := by
    refine List.nodup_append.mpr ⟨h.nodup, List.nodup_singleton _, fun w hw w' hw' => ?_⟩
    rintro rfl
    exact hnew (List.mem_singleton.mp hw' ▸ hw)
  queues := isSome_update_iff h.queues
  senders := isSome_update_iff h.senders
  removed := by
    intro k c hc hsender
    simp only [Manager.connect] at hc hsender
    rcases Nat.lt_or_ge k m.connections.length with hlt | hge
    · rw [List.getElem?_append_left hlt] at hc
      refine h.removed k c hc fun hold => hsender ?_
      rw [Function.update_of_ne, hold]
      rintro rfl
      exact hnew ((h.senders c.websocket).mp (by rw [hold]; rfl))
    · -- the sender that is made here is registered
      rw [List.getElem?_append_right hge, List.getElem?_singleton] at hc
      split at hc
      · rename_i hk
        cases hc
        rw [Function.update_self] at hsender
        exact absurd (congrArg some (by omega)) hsender
      · cases hc
  gauge := by
    have hgauge := h.gauge
    simp only [Manager.connect, Manager.connection_count, List.length_append,
      List.length_singleton] at hgauge ⊢
    omega
  gauge_nonneg := Int.add_nonneg h.gauge_nonneg (by decide)
  own := by
    intro w k hsender
    simp only [Manager.connect] at hsender ⊢
    by_cases hw : w = websocket
    · subst hw
      rw [Function.update_self, Option.some.injEq] at hsender
      subst hsender
      exact ⟨⟨w, [], some .getting, false⟩, by simp, rfl⟩
    · rw [Function.update_of_ne hw] at hsender
      obtain ⟨c, hc, hwebsocket⟩ := h.own w k hsender
      exact ⟨c, by rw [List.getElem?_append_left (List.getElem?_eq_some_iff.mp hc).1, hc], hwebsocket⟩

-- What `disconnect` leaves, whether the socket was there or not.
theorem disconnect_eq (h : Sound m) (websocket : WebSocket) : m.disconnect websocket =
    { active_connections := m.active_connections.erase websocket
      queues := Function.update m.queues websocket none
      senders := Function.update m.senders websocket none
      connections :=
        (m.senders websocket).elim m.connections fun k => m.connections.modify k Connection.cancel
      websocket_connections_active := (m.active_connections.erase websocket).length } := by
  have hgauge := h.gauge
  rw [Manager.connection_count] at hgauge
  by_cases hmem : websocket ∈ m.active_connections
  · have hlength := List.length_erase_add_one hmem
    obtain ⟨k, hk⟩ := Option.isSome_iff_exists.mp ((h.senders websocket).mpr hmem)
    simp only [Manager.disconnect, if_pos hmem, hk, Option.elim_some, hgauge, Manager.mk.injEq, true_and]
    omega
  · have hnone : m.senders websocket = none := by
      rw [← Option.not_isSome_iff_eq_none, h.senders]
      exact hmem
    have hsame : Function.update m.senders websocket none = m.senders := by
      rw [← hnone, Function.update_eq_self]
    simp only [Manager.disconnect, if_neg hmem, hnone, Option.elim_none, hsame, hgauge,
      List.erase_of_not_mem hmem]

-- A client goes once its sender is retired.
theorem Sound.unregister (h : Sound m)
    (hretired : ∀ k c, m.senders websocket = some k → m.connections[k]? = some c → c.Retired) :
    Sound
      { m with
        active_connections := m.active_connections.erase websocket
        queues := Function.update m.queues websocket none
        senders := Function.update m.senders websocket none
        websocket_connections_active := (m.active_connections.erase websocket).length } where
  nodup := h.nodup.erase websocket
  queues := isSome_update_none_iff h.nodup h.queues
  senders := isSome_update_none_iff h.nodup h.senders
  removed := by
    intro k c hc hsender
    by_cases hold : m.senders c.websocket = some k
    · by_cases hw : c.websocket = websocket
      · exact hretired k c (hw ▸ hold) hc
      · exact absurd ((Function.update_of_ne hw _ _).trans hold) hsender
    · exact h.removed k c hc hold
  gauge := rfl
  gauge_nonneg := Int.natCast_nonneg _
  own := by
    intro w k hsender
    by_cases hw : w = websocket
    · subst hw
      simp at hsender
    · exact h.own w k ((Function.update_of_ne hw _ _).symm.trans hsender)

theorem Sound.disconnect (h : Sound m) (websocket : WebSocket) : Sound (m.disconnect websocket) := by
  rw [disconnect_eq h websocket]
  cases hsender : m.senders websocket with
  | none =>
      refine h.unregister fun k c hk _ => ?_
      rw [hsender] at hk
      cases hk
  | some k =>
      have hcancelled := h.modify (k := k) (f := Connection.cancel) fun c _ => carried_cancel c
      refine hcancelled.unregister fun j c hj hc => ?_
      cases hsender.symm.trans hj
      obtain ⟨d, -, rfl⟩ := getElem?_modify_eq_some hc
      rw [if_pos rfl]
      exact retired_cancel d

-- The endpoint and the sender may both report one close.
theorem disconnect_idempotent (h : Sound m) (websocket : WebSocket) :
    (m.disconnect websocket).disconnect websocket = m.disconnect websocket := by
  have hgone : websocket ∉ m.active_connections.erase websocket := h.nodup.not_mem_erase
  rw [disconnect_eq (h.disconnect websocket), disconnect_eq h websocket]
  simp only [Function.update_self, Option.elim_none, Function.update_idem, List.erase_of_not_mem hgone]

theorem Sound.enqueue_to_all_clients (h : Sound m) (data : Frame) :
    Sound (m.enqueue_to_all_clients data) := by
  have hfold : ∀ (clients : List WebSocket) {m : Manager Frame}, Sound m →
      Sound (clients.foldl (Manager.enqueue_to_client data) m) := by
    intro clients
    induction clients with
    | nil => exact fun h => h
    | cons websocket clients ih =>
        intro m h
        refine ih ?_
        unfold Manager.enqueue_to_client
        split
        · exact h
        · exact h.modify fun c _ => ⟨rfl, fun hretired => hretired⟩
  exact hfold m.active_connections h

theorem sound_step {l : Label Frame} (h : Sound m) (hstep : step m l = some m') : Sound m' := by
  cases l with
  | connect websocket =>
      simp only [step] at hstep
      split at hstep
      · cases hstep
      · rename_i hnew
        cases hstep
        exact h.connect hnew
  | disconnect websocket =>
      cases hstep
      exact h.disconnect websocket
  | fan_out data =>
      cases hstep
      exact h.enqueue_to_all_clients data
  | got k =>
      obtain ⟨c, hc, hstep⟩ := Option.bind_eq_some_iff.mp hstep
      obtain ⟨c', hgot, rfl⟩ := Option.map_eq_some_iff.mp hstep
      exact h.set hc (carried_got hgot)
  | sent k =>
      obtain ⟨c, hc, hstep⟩ := Option.bind_eq_some_iff.mp hstep
      obtain ⟨c', hsent, rfl⟩ := Option.map_eq_some_iff.mp hstep
      exact h.set hc (carried_sent hsent)
  | send_failed k =>
      obtain ⟨c, hc, hstep⟩ := Option.bind_eq_some_iff.mp hstep
      split at hstep
      · cases hstep
        exact (h.disconnect c.websocket).modify fun d _ => carried_finish d
      · cases hstep
  | stopped k =>
      obtain ⟨c, hc, hstep⟩ := Option.bind_eq_some_iff.mp hstep
      split at hstep
      · cases hstep
        exact h.set hc (carried_finish c)
      · cases hstep

-- In every state that is reached the containers and the gauge agree.
theorem registry_in_step {run : List (Label Frame)} (hrun : exec step Manager.init run = some m) : InStep m :=
  (exec_invariant (fun _ _ _ h hstep => sound_step h hstep) sound_init hrun).toInStep

-- One client's send fails, and its endpoint and someone who never knew it disconnect it again;
-- another closes while its sender waits.
def churn : List (Label Unit) :=
  [.connect 1, .connect 2, .connect 3, .fan_out (), .got 0, .send_failed 0, .disconnect 1, .disconnect 1,
    .disconnect 9, .disconnect 2, .stopped 1, .got 2, .sent 2]

theorem registry_in_step_churn : ∃ m, exec step Manager.init churn = some m ∧
    m.active_connections = [3] ∧ InStep m := by
  obtain ⟨m, hm⟩ := Option.isSome_iff_exists.mp
    (by decide : (exec step Manager.init churn).isSome = true)
  have hactive : (exec step Manager.init churn).map Manager.active_connections = some [3] := by decide
  rw [hm, Option.map_some, Option.some.injEq] at hactive
  exact ⟨m, hm, hactive, registry_in_step hm⟩

end Steps

end FleetOps.Live.Registry
