import Mathlib.Data.List.Basic
import FleetOps.Library.Runs

namespace FleetOps.Dashboard

open Runs

section Model

abbrev SocketId := Nat
abbrev TimerId := Nat

inductive ReadyState where
  | CONNECTING
  | OPEN
  | CLOSING
  | CLOSED
  deriving DecidableEq

-- A socket is CLOSED from its close event on.
structure WebSocket where
  readyState : ReadyState
  opened : Bool

-- The callback of the reconnect timeout, and that of the interval which the open event of a
-- socket has set.
inductive Callback where
  | connect
  | ping (socket : SocketId)

structure Timer where
  id : TimerId
  callback : Callback

-- One instance of the effect: the variables of its closure, the sockets it has constructed, the
-- calls of `connect` that await their ticket and the timers that are armed.
structure Effect (M : Type*) where
  shouldReconnect : Bool
  connecting : Nat
  sockets : List WebSocket
  ws : Option SocketId
  timers : List Timer
  nextTimer : TimerId
  reconnectTimeout : Option TimerId
  pingInterval : Option TimerId
  isConnected : Bool
  sent : List SocketId
  received : List M

def Callback.isConnect : Callback → Bool
  | .connect => true
  | .ping _ => false

def WebSocket.live (socket : WebSocket) : Bool := socket.readyState != .CLOSED

def WebSocket.close (socket : WebSocket) : WebSocket :=
  { socket with readyState := match socket.readyState with
    | .CONNECTING | .OPEN => .CLOSING
    | readyState => readyState }

def WebSocket.open (socket : WebSocket) : WebSocket where
  readyState := match socket.readyState with
    | .CONNECTING => .OPEN
    | readyState => readyState
  opened := true

namespace Effect

variable {M : Type*}

def setSocket (e : Effect M) (s : SocketId) (socket : WebSocket) : Effect M :=
  { e with sockets := e.sockets.set s socket }

-- `setTimeout` and `setInterval`; the id is the one that was next.
def arm (e : Effect M) (callback : Callback) : Effect M :=
  { e with timers := ⟨e.nextTimer, callback⟩ :: e.timers, nextTimer := e.nextTimer + 1 }

-- `clearTimeout` and `clearInterval`
def clear (e : Effect M) (id : Option TimerId) : Effect M :=
  { e with timers := e.timers.filter fun timer => some timer.id != id }

def current (e : Effect M) : Option WebSocket := e.ws.bind fun s => e.sockets[s]?

-- `ws?.readyState === WebSocket.OPEN`
def isOpen (e : Effect M) : Bool := e.current.any fun socket => socket.readyState == .OPEN

-- `ws?.close()`
def closeCurrent (e : Effect M) : Effect M :=
  match e.ws, e.current with
  | some s, some socket => e.setSocket s socket.close
  | _, _ => e

def scheduleReconnect (e : Effect M) : Effect M :=
  if e.shouldReconnect then { e.arm .connect with reconnectTimeout := some e.nextTimer } else e

-- Up to the ticket request.
def connect (e : Effect M) : Effect M :=
  if e.isOpen then e else { e with connecting := e.connecting + 1 }

-- The rest of `connect`, once the ticket is there.
def ticketed (e : Effect M) : Effect M :=
  if e.shouldReconnect then
    { e with sockets := e.sockets ++ [⟨.CONNECTING, false⟩], ws := some e.sockets.length }
  else e

def onopen (e : Effect M) (s : SocketId) : Effect M :=
  { e.arm (.ping s) with isConnected := true, pingInterval := some e.nextTimer }

def ping (e : Effect M) : Effect M :=
  match e.ws with
  | some s => if e.isOpen then { e with sent := e.sent ++ [s] } else e
  | none => e

-- `parse` is `JSON.parse`, which may throw.
def onmessage (parse : String → Option M) (e : Effect M) (data : String) : Effect M :=
  if data = "ping" ∨ data = "pong" then e else { e with received := e.received ++ (parse data).toList }

def onclose (e : Effect M) : Effect M :=
  ({ e with isConnected := false }.clear e.pingInterval).scheduleReconnect

def cleanup (e : Effect M) : Effect M :=
  (({ e with shouldReconnect := false }.clear e.pingInterval).clear e.reconnectTimeout).closeCurrent

def init : Effect M where
  shouldReconnect := true
  connecting := 1
  sockets := []
  ws := none
  timers := []
  nextTimer := 0
  reconnectTimeout := none
  pingInterval := none
  isConnected := false
  sent := []
  received := []

end Effect

-- What can happen to the effect.
inductive SocketLabel where
  | ticket (granted : Bool)
  | open (s : SocketId)
  | message (s : SocketId) (data : String)
  | error (s : SocketId)
  | close (s : SocketId)
  | fire (id : TimerId)
  | unmount

namespace Effect

variable {M : Type*}

-- The socket, up to its close event.
def liveSocket (e : Effect M) (s : SocketId) : Option WebSocket :=
  e.sockets[s]?.filter WebSocket.live

def step (parse : String → Option M) (e : Effect M) : SocketLabel → Option (Effect M)
  | .ticket granted =>
      if 0 < e.connecting then
        let e := { e with connecting := e.connecting - 1 }
        some (if granted then e.ticketed else e.scheduleReconnect)
      else none
  | .open s => (e.liveSocket s).bind fun socket =>
      if socket.opened then none else some ((e.setSocket s socket.open).onopen s)
  | .message s data => (e.liveSocket s).map fun _ => e.onmessage parse data
  | .error s => (e.liveSocket s).map fun _ => e.closeCurrent
  | .close s => (e.liveSocket s).map fun socket =>
      (e.setSocket s { socket with readyState := .CLOSED }).onclose
  | .fire id => (e.timers.find? fun timer => timer.id == id).map fun timer =>
      match timer.callback with
      | .connect => (e.clear (some id)).connect
      | .ping _ => e.ping
  | .unmount => if e.shouldReconnect then some e.cleanup else none

end Effect

end Model

namespace Effect

variable {M : Type*} {n : Nat} {e t : Effect M} {s : SocketId} {old new : WebSocket}

section Counts

-- How many sockets are not closed, reconnect timeouts pending and heartbeats live.
def live (e : Effect M) : Nat := e.sockets.countP WebSocket.live

def reconnects (e : Effect M) : Nat := e.timers.countP fun timer => timer.callback.isConnect

def heartbeats (e : Effect M) : Nat := e.timers.countP fun timer => !timer.callback.isConnect

-- What the effect has under way.
def pending (e : Effect M) : Nat := e.connecting + e.live + e.reconnects

theorem liveSocket_eq_some : e.liveSocket s = some old ↔ e.sockets[s]? = some old ∧ old.live = true := by
  simp [liveSocket, Option.filter_eq_some_iff]

@[simp] theorem live_close (socket : WebSocket) : socket.close.live = socket.live := by
  rcases socket with ⟨_ | _ | _ | _, _⟩ <;> rfl

@[simp] theorem live_open (socket : WebSocket) : socket.open.live = socket.live := by
  rcases socket with ⟨_ | _ | _ | _, _⟩ <;> rfl

theorem liveSocket_setSocket (hs : e.sockets[s]? = some old) (s' : SocketId) :
    (e.setSocket s new).liveSocket s' =
      if s' = s then (if new.live then some new else none) else e.liveSocket s' := by
  obtain ⟨hlt, -⟩ := List.getElem?_eq_some_iff.mp hs
  by_cases hs' : s' = s
  · subst hs'
    rw [if_pos rfl, liveSocket, setSocket, List.getElem?_set_self hlt, Option.filter_some]
  · rw [if_neg hs', liveSocket, setSocket, List.getElem?_set_ne (Ne.symm hs'), liveSocket]

theorem live_setSocket (hs : e.sockets[s]? = some old) (new : WebSocket) :
    (e.setSocket s new).live + (if old.live then 1 else 0) = e.live + (if new.live then 1 else 0) := by
  obtain ⟨hlt, hget⟩ := List.getElem?_eq_some_iff.mp hs
  have hset := List.countP_set (p := WebSocket.live) (a := new) hlt
  have hpos : old.live = true → 0 < e.live :=
    fun hlive => List.countP_pos_iff.mpr ⟨old, List.mem_of_getElem? hs, hlive⟩
  rw [hget] at hset
  rw [live, setSocket, hset, ← live]
  by_cases hold : old.live = true
  · have hle := hpos hold
    rw [if_pos hold]
    omega
  · rw [if_neg hold]
    omega

end Counts

-- While mounted, `n` things are under way. The variables of the closure name the socket that is
-- not closed and the timers that are armed; a heartbeat has been set by the open event of a socket
-- that is not closed.
structure Inv (n : Nat) (e : Effect M) : Prop where
  mounted : e.shouldReconnect = true → e.pending = n
  unmounted : e.shouldReconnect = false → e.pending ≤ 1 ∧ e.reconnects = 0
  current : ∀ s socket, e.liveSocket s = some socket → e.ws = some s
  fresh : ∀ timer ∈ e.timers, timer.id < e.nextTimer
  nodup : (e.timers.map Timer.id).Nodup
  reconnect : ∀ timer ∈ e.timers, timer.callback = .connect → e.reconnectTimeout = some timer.id
  heartbeat : ∀ timer ∈ e.timers, ∀ s, timer.callback = .ping s →
    e.pingInterval = some timer.id ∧ ∃ socket, e.liveSocket s = some socket ∧ socket.opened = true

section Operations

-- Whatever happens to a socket but its closing.
theorem Inv.setSocket (h : Inv n e) (hs : e.sockets[s]? = some old) (hlive : new.live = old.live)
    (hopened : old.opened = true → new.opened = true) : Inv n (e.setSocket s new) where
  mounted hmounted := by
    have hcount := live_setSocket hs new
    have hpending := h.mounted hmounted
    rw [hlive] at hcount
    have hsame : (e.setSocket s new).live = e.live := by omega
    rw [pending, hsame]
    exact hpending
  unmounted hunmounted := by
    have hcount := live_setSocket hs new
    have hpending := h.unmounted hunmounted
    rw [hlive] at hcount
    have hsame : (e.setSocket s new).live = e.live := by omega
    rw [pending, hsame]
    exact hpending
  current s' socket hsocket := by
    rw [liveSocket_setSocket hs] at hsocket
    by_cases hs' : s' = s
    · rw [if_pos hs', hlive] at hsocket
      have hold : old.live = true := by
        by_contra hnot
        rw [if_neg hnot] at hsocket
        cases hsocket
      rw [hs']
      exact h.current s old (liveSocket_eq_some.mpr ⟨hs, hold⟩)
    · rw [if_neg hs'] at hsocket
      exact h.current s' socket hsocket
  fresh := h.fresh
  nodup := h.nodup
  reconnect := h.reconnect
  heartbeat timer htimer s' hping := by
    obtain ⟨hinterval, socket, hsocket, hopen⟩ := h.heartbeat timer htimer s' hping
    refine ⟨hinterval, ?_⟩
    rw [liveSocket_setSocket hs]
    by_cases hs' : s' = s
    · subst hs'
      obtain ⟨hget, hlive'⟩ := liveSocket_eq_some.mp hsocket
      rw [hs] at hget
      cases hget
      rw [if_pos rfl, hlive, hlive']
      exact ⟨new, rfl, hopened hopen⟩
    · rw [if_neg hs']
      exact ⟨socket, hsocket, hopen⟩

theorem Inv.closeCurrent (h : Inv n e) : Inv n e.closeCurrent := by
  unfold Effect.closeCurrent
  split
  · rename_i s socket hws hcurrent
    rw [Effect.current, hws] at hcurrent
    exact h.setSocket hcurrent (live_close socket) id
  · exact h

theorem mem_clear {id : Option TimerId} {timer : Timer} :
    timer ∈ (e.clear id).timers ↔ timer ∈ e.timers ∧ some timer.id ≠ id := by
  simp [clear]

theorem Inv.clear (h : Inv n e) (id : Option TimerId)
    (hkeeps : e.shouldReconnect = true → ∀ timer ∈ e.timers, timer.callback = .connect → some timer.id ≠ id) :
    Inv n (e.clear id) where
  mounted hmounted := by
    have hsame : (e.clear id).reconnects = e.reconnects := by
      rw [reconnects, Effect.clear, List.countP_filter]
      refine List.countP_congr fun timer htimer => ?_
      have hkeep := hkeeps hmounted timer htimer
      cases hcallback : timer.callback with
      | connect => simp [Callback.isConnect, hkeep hcallback]
      | ping s => simp [Callback.isConnect]
    rw [pending, hsame]
    exact h.mounted hmounted
  unmounted hunmounted := by
    obtain ⟨hpending, hnone⟩ := h.unmounted hunmounted
    have hle : (e.clear id).reconnects ≤ e.reconnects := List.filter_sublist.countP_le
    rw [pending] at hpending ⊢
    exact ⟨by
      have : (e.clear id).live = e.live := rfl
      have : (e.clear id).connecting = e.connecting := rfl
      omega, by omega⟩
  current := h.current
  fresh timer htimer := h.fresh timer (mem_clear.mp htimer).1
  nodup := h.nodup.sublist (List.filter_sublist.map _)
  reconnect timer htimer := h.reconnect timer (mem_clear.mp htimer).1
  heartbeat timer htimer := h.heartbeat timer (mem_clear.mp htimer).1

-- Once its heartbeat is cleared, the socket may close.
theorem Inv.closed (h : Inv 1 e) (hs : e.liveSocket s = some old)
    (hquiet : ∀ timer ∈ e.timers, timer.callback = .connect) (hnew : new.live = false) :
    Inv 0 (e.setSocket s new) := by
  obtain ⟨hget, hlive⟩ := liveSocket_eq_some.mp hs
  have hcount := live_setSocket hget new
  rw [hlive, hnew, if_pos rfl, if_neg Bool.false_ne_true] at hcount
  refine ⟨fun hmounted => ?_, fun hunmounted => ?_, fun s' socket hsocket => ?_, h.fresh, h.nodup,
    h.reconnect, fun timer htimer s' hping => ?_⟩
  · have hpending := h.mounted hmounted
    simp only [pending] at hpending ⊢
    have hsame : (e.setSocket s new).connecting = e.connecting := rfl
    have hsame' : (e.setSocket s new).reconnects = e.reconnects := rfl
    omega
  · obtain ⟨hpending, hnone⟩ := h.unmounted hunmounted
    simp only [pending] at hpending ⊢
    have hsame : (e.setSocket s new).connecting = e.connecting := rfl
    have hsame' : (e.setSocket s new).reconnects = e.reconnects := rfl
    omega
  · rw [liveSocket_setSocket hget, hnew] at hsocket
    by_cases hs' : s' = s
    · rw [if_pos hs'] at hsocket
      cases hsocket
    · rw [if_neg hs'] at hsocket
      exact h.current s' socket hsocket
  · rw [hquiet timer htimer] at hping
    cases hping

-- Clearing the interval that the closure names leaves no heartbeat.
theorem Inv.quiet (h : Inv n e) : ∀ timer ∈ (e.clear e.pingInterval).timers, timer.callback = .connect := by
  intro timer htimer
  obtain ⟨hmem, hne⟩ := mem_clear.mp htimer
  cases hcallback : timer.callback with
  | connect => rfl
  | ping s => exact absurd (h.heartbeat timer hmem s hcallback).1.symm hne

-- The id of a timer that is set is none that is in use.
theorem Inv.fresh_arm (h : Inv n e) (callback : Callback) :
    ∀ timer ∈ (e.arm callback).timers, timer.id < (e.arm callback).nextTimer := by
  intro timer htimer
  rcases List.mem_cons.mp htimer with rfl | htimer
  · exact Nat.lt_succ_self _
  · exact Nat.lt_succ_of_lt (h.fresh timer htimer)

theorem Inv.nodup_arm (h : Inv n e) (callback : Callback) :
    ((e.arm callback).timers.map Timer.id).Nodup := by
  refine List.nodup_cons.mpr ⟨fun hmem => ?_, h.nodup⟩
  obtain ⟨timer, htimer, hid⟩ := List.mem_map.mp hmem
  exact absurd (h.fresh timer htimer) (by rw [hid]; exact Nat.lt_irrefl _)

theorem Inv.scheduleReconnect (h : Inv 0 e) : Inv 1 e.scheduleReconnect := by
  unfold Effect.scheduleReconnect
  by_cases hmounted : e.shouldReconnect = true
  · have hpending := h.mounted hmounted
    have hnone : ∀ timer ∈ e.timers, timer.callback ≠ .connect := by
      intro timer htimer hconnect
      have hpos : 0 < e.reconnects :=
        List.countP_pos_iff.mpr ⟨timer, htimer, by simp [hconnect, Callback.isConnect]⟩
      simp only [pending] at hpending
      omega
    rw [if_pos hmounted]
    refine ⟨fun _ => ?_, fun hunmounted => ?_, h.current, h.fresh_arm .connect, h.nodup_arm .connect,
      fun timer htimer hconnect => ?_, fun timer htimer s hping => ?_⟩
    · have hcount : (e.arm .connect).reconnects = e.reconnects + 1 := List.countP_cons_of_pos rfl
      simp only [pending] at hpending ⊢
      exact (congrArg (e.connecting + e.live + ·) hcount).trans (by omega)
    · exact absurd (hmounted.symm.trans hunmounted) (by decide)
    · rcases List.mem_cons.mp htimer with rfl | htimer
      · rfl
      · exact absurd hconnect (hnone timer htimer)
    · rcases List.mem_cons.mp htimer with rfl | htimer
      · cases hping
      · exact h.heartbeat timer htimer s hping
  · rw [if_neg hmounted]
    exact ⟨fun hnot => absurd hnot hmounted, h.unmounted, h.current, h.fresh, h.nodup, h.reconnect,
      h.heartbeat⟩

theorem Inv.ticketed (h : Inv 0 e) : Inv 1 e.ticketed := by
  unfold Effect.ticketed
  by_cases hmounted : e.shouldReconnect = true
  · have hpending := h.mounted hmounted
    rw [if_pos hmounted]
    have hdead : ∀ s socket, e.liveSocket s = some socket → False := by
      intro s socket hsocket
      obtain ⟨hget, hlive⟩ := liveSocket_eq_some.mp hsocket
      have hpos : 0 < e.live := List.countP_pos_iff.mpr ⟨socket, List.mem_of_getElem? hget, hlive⟩
      simp only [pending] at hpending
      omega
    refine ⟨fun _ => ?_, fun hunmounted => ?_, fun s socket hsocket => ?_, h.fresh, h.nodup,
      h.reconnect, fun timer htimer s hping => ?_⟩
    · have hcount : (e.sockets ++ [(⟨.CONNECTING, false⟩ : WebSocket)]).countP WebSocket.live =
          e.live + 1 := by
        rw [List.countP_append]
        rfl
      simp only [pending, live, reconnects] at hpending hcount ⊢
      omega
    · exact absurd (hmounted.symm.trans hunmounted) (by decide)
    · obtain ⟨hget, hlive⟩ := liveSocket_eq_some.mp hsocket
      rcases Nat.lt_or_ge s e.sockets.length with hlt | hge
      · rw [List.getElem?_append_left hlt] at hget
        exact (hdead s socket (liveSocket_eq_some.mpr ⟨hget, hlive⟩)).elim
      · have hlast := (List.getElem?_eq_some_iff.mp hget).1
        simp only [List.length_append, List.length_singleton] at hlast
        have heq : e.sockets.length = s := by omega
        exact congrArg some heq
    · obtain ⟨-, socket, hsocket, -⟩ := h.heartbeat timer htimer s hping
      exact (hdead s socket hsocket).elim
  · rw [if_neg hmounted]
    exact ⟨fun hnot => absurd hnot hmounted, h.unmounted, h.current, h.fresh, h.nodup, h.reconnect,
      h.heartbeat⟩

-- A socket opens once, so that no heartbeat is live when it does.
theorem Inv.onopen (h : Inv n e) (hs : e.liveSocket s = some old) (hopened : old.opened = true)
    (hquiet : ∀ timer ∈ e.timers, timer.callback = .connect) : Inv n (e.onopen s) := by
  have hcount : (e.onopen s).reconnects = e.reconnects :=
    List.countP_cons_of_neg (by simp [Callback.isConnect])
  refine ⟨fun hmounted => ?_, fun hunmounted => ?_, h.current, h.fresh_arm (.ping s), h.nodup_arm (.ping s),
    fun timer htimer hconnect => ?_, fun timer htimer s' hping => ?_⟩
  · rw [pending, hcount]
    exact h.mounted hmounted
  · rw [pending, hcount]
    exact h.unmounted hunmounted
  · rcases List.mem_cons.mp htimer with rfl | htimer
    · cases hconnect
    · exact h.reconnect timer htimer hconnect
  · rcases List.mem_cons.mp htimer with rfl | htimer
    · cases hping
      exact ⟨rfl, old, hs, hopened⟩
    · rw [hquiet timer htimer] at hping
      cases hping

-- The timeout that fires is the only thing under way.
theorem Inv.fired {timer : Timer} (h : Inv 1 e) (htimer : timer ∈ e.timers)
    (hconnect : timer.callback = .connect) :
    Inv 0 (e.clear (some timer.id)) ∧ e.shouldReconnect = true ∧ e.live = 0 := by
  have hpos : 0 < e.reconnects :=
    List.countP_pos_iff.mpr ⟨timer, htimer, by simp [hconnect, Callback.isConnect]⟩
  have hmounted : e.shouldReconnect = true := by
    by_contra hnot
    have hnone := (h.unmounted (Bool.not_eq_true _ ▸ hnot)).2
    omega
  have hpending := h.mounted hmounted
  rw [pending] at hpending
  have hcleared : (e.clear (some timer.id)).reconnects = 0 := by
    refine List.countP_eq_zero.mpr fun timer' htimer' hconnect' => ?_
    obtain ⟨hmem, hne⟩ := mem_clear.mp htimer'
    cases hcallback : timer'.callback with
    | connect =>
        exact hne ((h.reconnect timer' hmem hcallback).symm.trans (h.reconnect timer htimer hconnect))
    | ping s => simp [hcallback, Callback.isConnect] at hconnect'
  refine ⟨⟨fun _ => ?_, fun hunmounted => ?_, h.current, fun timer' htimer' => ?_, ?_,
    fun timer' htimer' => ?_, fun timer' htimer' => ?_⟩, hmounted, by omega⟩
  · have hsame : (e.clear (some timer.id)).connecting = e.connecting := rfl
    have hsame' : (e.clear (some timer.id)).live = e.live := rfl
    rw [pending]
    omega
  · exact absurd (hmounted.symm.trans hunmounted) (by decide)
  · exact h.fresh timer' (mem_clear.mp htimer').1
  · exact h.nodup.sublist (List.filter_sublist.map _)
  · exact h.reconnect timer' (mem_clear.mp htimer').1
  · exact h.heartbeat timer' (mem_clear.mp htimer').1

-- With every socket closed, `connect` does ask for a ticket.
theorem Inv.connect (h : Inv 0 e) (hmounted : e.shouldReconnect = true) (hdead : e.live = 0) :
    Inv 1 e.connect := by
  have hclosed : e.isOpen = false := by
    rw [isOpen, Option.any_eq_false]
    intro socket hcurrent
    obtain ⟨s, -, hget⟩ := Option.bind_eq_some_iff.mp hcurrent
    have hlive := List.countP_eq_zero.mp hdead socket (List.mem_of_getElem? hget)
    rcases socket with ⟨_ | _ | _ | _, _⟩ <;> first | rfl | exact absurd rfl hlive
  have hpending := h.mounted hmounted
  rw [Effect.connect, hclosed, if_neg Bool.false_ne_true]
  refine ⟨fun _ => ?_, fun hunmounted => ?_, h.current, h.fresh, h.nodup, h.reconnect, h.heartbeat⟩
  · simp only [pending, live, reconnects] at hpending ⊢
    omega
  · exact absurd (hmounted.symm.trans hunmounted) (by decide)

theorem Inv.cleanup (h : Inv 1 e) (hmounted : e.shouldReconnect = true) : Inv 1 e.cleanup := by
  refine Inv.closeCurrent ?_
  have hpending := h.mounted hmounted
  refine ⟨fun hnot => absurd hnot (by simp [Effect.clear]), fun _ => ?_, h.current,
    fun timer htimer => ?_, ?_, fun timer htimer => ?_, fun timer htimer => ?_⟩
  · have hcleared : (({ e with shouldReconnect := false }.clear e.pingInterval).clear
        e.reconnectTimeout).reconnects = 0 := by
      refine List.countP_eq_zero.mpr fun timer htimer hconnect => ?_
      obtain ⟨hmem, hne⟩ := mem_clear.mp htimer
      cases hcallback : timer.callback with
      | connect => exact hne (h.reconnect timer (mem_clear.mp hmem).1 hcallback).symm
      | ping s => simp [hcallback, Callback.isConnect] at hconnect
    refine ⟨?_, hcleared⟩
    rw [pending, hcleared]
    exact Nat.le_trans (Nat.le_add_right (e.connecting + e.live) e.reconnects) (Nat.le_of_eq hpending)
  · exact h.fresh timer (mem_clear.mp (mem_clear.mp htimer).1).1
  · exact h.nodup.sublist ((List.filter_sublist.trans List.filter_sublist).map _)
  · exact h.reconnect timer (mem_clear.mp (mem_clear.mp htimer).1).1
  · exact h.heartbeat timer (mem_clear.mp (mem_clear.mp htimer).1).1

end Operations

section Steps

variable {parse : String → Option M} {l : SocketLabel}

theorem Inv.ping (h : Inv n e) : Inv n e.ping := by
  unfold Effect.ping
  split
  · split
    · exact ⟨h.mounted, h.unmounted, h.current, h.fresh, h.nodup, h.reconnect, h.heartbeat⟩
    · exact h
  · exact h

theorem Inv.onmessage (h : Inv n e) (data : String) : Inv n (e.onmessage parse data) := by
  unfold Effect.onmessage
  split
  · exact h
  · exact ⟨h.mounted, h.unmounted, h.current, h.fresh, h.nodup, h.reconnect, h.heartbeat⟩

theorem inv_init : Inv 1 (init : Effect M) :=
  ⟨fun _ => rfl, nofun, nofun, nofun, List.nodup_nil, nofun, nofun⟩

theorem Inv.ended (h : Inv 1 e) (hconnecting : 0 < e.connecting) :
    Inv 0 { e with connecting := e.connecting - 1 } := by
  refine ⟨fun hmounted => ?_, fun hunmounted => ?_, h.current, h.fresh, h.nodup, h.reconnect, h.heartbeat⟩
  · have hpending := h.mounted hmounted
    simp only [pending, live, reconnects] at hpending ⊢
    omega
  · obtain ⟨hpending, hnone⟩ := h.unmounted hunmounted
    simp only [pending, live, reconnects] at hpending hnone ⊢
    omega

-- The open event finds no heartbeat: one would be of this socket, which has not opened yet.
theorem Inv.silent (h : Inv n e) (hs : e.liveSocket s = some old) (hopened : old.opened = false) :
    ∀ timer ∈ e.timers, timer.callback = .connect := by
  intro timer htimer
  cases hcallback : timer.callback with
  | connect => rfl
  | ping s' =>
      obtain ⟨-, socket, hsocket, hopen⟩ := h.heartbeat timer htimer s' hcallback
      have hsame : s' = s :=
        Option.some.inj ((h.current s' socket hsocket).symm.trans (h.current s old hs))
      rw [hsame, hs] at hsocket
      cases hsocket
      rw [hopened] at hopen
      cases hopen

theorem Inv.step (h : Inv 1 e) (hstep : e.step parse l = some t) : Inv 1 t := by
  cases l with
  | ticket granted =>
      simp only [Effect.step] at hstep
      split at hstep
      · rename_i hconnecting
        cases hstep
        cases granted with
        | true => exact (h.ended hconnecting).ticketed
        | false => exact (h.ended hconnecting).scheduleReconnect
      · cases hstep
  | «open» s =>
      obtain ⟨socket, hs, hopen⟩ := Option.bind_eq_some_iff.mp hstep
      obtain ⟨hget, hlive⟩ := liveSocket_eq_some.mp hs
      split at hopen
      · cases hopen
      · rename_i hopened
        cases hopen
        have hset : Inv 1 (e.setSocket s socket.open) := h.setSocket hget (live_open socket) fun _ => rfl
        have hopen : (e.setSocket s socket.open).liveSocket s = some socket.open := by
          rw [liveSocket_setSocket hget, if_pos rfl, live_open, hlive, if_pos rfl]
        exact hset.onopen hopen rfl (h.silent hs (Bool.not_eq_true _ ▸ hopened))
  | message s data =>
      obtain ⟨socket, hs, rfl⟩ := Option.map_eq_some_iff.mp hstep
      exact h.onmessage data
  | error s =>
      obtain ⟨socket, hs, rfl⟩ := Option.map_eq_some_iff.mp hstep
      exact h.closeCurrent
  | close s =>
      obtain ⟨socket, hs, rfl⟩ := Option.map_eq_some_iff.mp hstep
      have hnone : e.shouldReconnect = true → ∀ timer ∈ e.timers, timer.callback = .connect →
          some timer.id ≠ e.pingInterval := by
        intro hmounted timer htimer hconnect
        obtain ⟨hget, hlive⟩ := liveSocket_eq_some.mp hs
        have hpos : 0 < e.live := List.countP_pos_iff.mpr ⟨socket, List.mem_of_getElem? hget, hlive⟩
        have hpos' : 0 < e.reconnects :=
          List.countP_pos_iff.mpr ⟨timer, htimer, by simp [hconnect, Callback.isConnect]⟩
        have hpending := h.mounted hmounted
        rw [pending] at hpending
        omega
      have hclosed : Inv 0 ((e.clear e.pingInterval).setSocket s { socket with readyState := .CLOSED }) :=
        (h.clear e.pingInterval hnone).closed hs h.quiet rfl
      have hquiet : Inv 0 { (e.clear e.pingInterval).setSocket s { socket with readyState := .CLOSED } with
          isConnected := false } :=
        ⟨hclosed.mounted, hclosed.unmounted, hclosed.current, hclosed.fresh, hclosed.nodup,
          hclosed.reconnect, hclosed.heartbeat⟩
      exact hquiet.scheduleReconnect
  | fire id =>
      obtain ⟨timer, htimer, rfl⟩ := Option.map_eq_some_iff.mp hstep
      have hid : timer.id = id := by simpa using List.find?_some htimer
      have hmem := List.mem_of_find?_eq_some htimer
      split
      · rename_i hconnect
        obtain ⟨hcleared, hmounted, hdead⟩ := h.fired hmem hconnect
        rw [hid] at hcleared
        exact hcleared.connect hmounted hdead
      · exact h.ping
  | unmount =>
      simp only [Effect.step] at hstep
      split at hstep
      · rename_i hmounted
        cases hstep
        exact h.cleanup hmounted
      · cases hstep

-- The cleanup is run once, and no socket is constructed after it.
theorem step_unmounted (hunmounted : e.shouldReconnect = false) (hstep : e.step parse l = some t) :
    t.shouldReconnect = false ∧ t.sockets.length = e.sockets.length := by
  have hclose : e.closeCurrent.shouldReconnect = false ∧
      e.closeCurrent.sockets.length = e.sockets.length := by
    unfold closeCurrent
    split
    · exact ⟨hunmounted, List.length_set⟩
    · exact ⟨hunmounted, rfl⟩
  cases l with
  | ticket granted =>
      simp only [Effect.step] at hstep
      split at hstep
      · cases hstep
        cases granted <;> simp [ticketed, scheduleReconnect, hunmounted]
      · cases hstep
  | «open» s =>
      obtain ⟨socket, -, hopen⟩ := Option.bind_eq_some_iff.mp hstep
      split at hopen
      · cases hopen
      · cases hopen
        exact ⟨hunmounted, List.length_set⟩
  | message s data =>
      obtain ⟨socket, -, rfl⟩ := Option.map_eq_some_iff.mp hstep
      unfold onmessage
      split <;> exact ⟨hunmounted, rfl⟩
  | error s =>
      obtain ⟨socket, -, rfl⟩ := Option.map_eq_some_iff.mp hstep
      exact hclose
  | close s =>
      obtain ⟨socket, -, rfl⟩ := Option.map_eq_some_iff.mp hstep
      simp [onclose, scheduleReconnect, clear, setSocket, hunmounted]
  | fire id =>
      obtain ⟨timer, -, rfl⟩ := Option.map_eq_some_iff.mp hstep
      split
      · unfold connect
        split <;> exact ⟨hunmounted, rfl⟩
      · unfold ping
        split
        · split <;> exact ⟨hunmounted, rfl⟩
        · exact ⟨hunmounted, rfl⟩
  | unmount =>
      simp [Effect.step, hunmounted] at hstep

end Steps

section Runs

variable {parse : String → Option M} {labels : List SocketLabel}

-- At most one heartbeat can be armed: they would share the id that the closure names.
theorem Inv.heartbeats_le (h : Inv n e) : e.heartbeats ≤ 1 := by
  rw [heartbeats, List.countP_eq_length_filter]
  by_contra hmany
  obtain ⟨a, b, rest, hfilter⟩ : ∃ a b rest,
      e.timers.filter (fun timer => !timer.callback.isConnect) = a :: b :: rest := by
    generalize e.timers.filter (fun timer => !timer.callback.isConnect) = armed at hmany ⊢
    match armed with
    | [] | [_] => simp at hmany
    | a :: b :: rest => exact ⟨a, b, rest, rfl⟩
  have hinterval : ∀ timer ∈ a :: b :: rest, e.pingInterval = some timer.id := by
    intro timer hmem
    rw [← hfilter] at hmem
    obtain ⟨htimer, hping⟩ := List.mem_filter.mp hmem
    cases hcallback : timer.callback with
    | connect => simp [hcallback, Callback.isConnect] at hping
    | ping s => exact (h.heartbeat timer htimer s hcallback).1
  have hnodup : ((a :: b :: rest).map Timer.id).Nodup := by
    rw [← hfilter]
    exact h.nodup.sublist (List.filter_sublist.map _)
  have hsame : a.id = b.id :=
    Option.some.inj ((hinterval a (by simp)).symm.trans (hinterval b (by simp)))
  simp [hsame] at hnodup

-- With all sockets closed after the unmount, no timer is armed.
theorem Inv.disarmed (h : Inv n e) (hunmounted : e.shouldReconnect = false) (hdead : e.live = 0) :
    e.timers = [] := by
  refine List.eq_nil_iff_forall_not_mem.mpr fun timer htimer => ?_
  cases hcallback : timer.callback with
  | connect =>
      have hpos : 0 < e.reconnects :=
        List.countP_pos_iff.mpr ⟨timer, htimer, by simp [hcallback, Callback.isConnect]⟩
      have hnone := (h.unmounted hunmounted).2
      omega
  | ping s =>
      obtain ⟨-, socket, hsocket, -⟩ := h.heartbeat timer htimer s hcallback
      obtain ⟨hget, hlive⟩ := liveSocket_eq_some.mp hsocket
      exact List.countP_eq_zero.mp hdead socket (List.mem_of_getElem? hget) hlive

theorem Inv.run (h : Inv 1 e) (hrun : exec (Effect.step parse) e labels = some t) : Inv 1 t :=
  exec_invariant (I := Inv 1) (fun _ _ _ h hstep => h.step hstep) h hrun

-- One thing at a time is under way, a ticket request, a socket or a reconnect timeout, and while
-- mounted one always is. One heartbeat at most is live, of a socket that is not closed. After the
-- unmount no socket is constructed and no reconnect timeout armed, and once the socket is closed
-- no timer is.
theorem one_socket (hrun : exec (step parse) init labels = some e) :
    e.connecting + e.live + e.reconnects ≤ 1 ∧
    (e.shouldReconnect = true → e.connecting + e.live + e.reconnects = 1) ∧
    (e.heartbeats ≤ 1 ∧ ∀ timer ∈ e.timers, ∀ s, timer.callback = .ping s →
      (e.liveSocket s).isSome = true) ∧
    (e.shouldReconnect = false → e.reconnects = 0 ∧ (e.live = 0 → e.timers = []) ∧
      ∀ later t, exec (step parse) e later = some t →
        t.shouldReconnect = false ∧ t.sockets.length = e.sockets.length) := by
  have h : Inv 1 e := inv_init.run hrun
  refine ⟨?_, h.mounted, ⟨h.heartbeats_le, fun timer htimer s hping => ?_⟩, fun hunmounted =>
    ⟨(h.unmounted hunmounted).2, h.disarmed hunmounted, fun later t hlater => ?_⟩⟩
  · cases hmounted : e.shouldReconnect with
    | true => exact Nat.le_of_eq (h.mounted hmounted)
    | false => exact (h.unmounted hmounted).1
  · obtain ⟨-, socket, hsocket, -⟩ := h.heartbeat timer htimer s hping
    rw [hsocket]
    rfl
  · refine exec_invariant
      (I := fun u : Effect M => u.shouldReconnect = false ∧ u.sockets.length = e.sockets.length)
      (fun u l v hu hstep => ?_) ⟨hunmounted, rfl⟩ hlater
    obtain ⟨hv, hlength⟩ := step_unmounted hu.1 hstep
    exact ⟨hv, hlength.trans hu.2⟩

-- Refused once, connected, dropped, and unmounted while the next socket is opening.
def droppedRun : List SocketLabel :=
  [.ticket false, .fire 0, .ticket true, .open 0, .message 0 "pong", .fire 1, .error 0, .close 0,
    .fire 2, .ticket true, .unmount, .open 1, .close 1]

theorem one_socket_dropped : ∃ e : Effect Unit, exec (step fun _ => none) init droppedRun = some e ∧
    e.shouldReconnect = false ∧ e.live = 0 ∧ e.timers = [] := by
  obtain ⟨e, hrun⟩ := Option.isSome_iff_exists.mp
    (by decide +kernel : (exec (step fun _ => none) (init : Effect Unit) droppedRun).isSome = true)
  have hended : ((exec (step fun _ => none) (init : Effect Unit) droppedRun).any
      fun e => !e.shouldReconnect && e.live == 0) = true := by decide +kernel
  rw [hrun, Option.any_some, Bool.and_eq_true, Bool.not_eq_true', beq_iff_eq] at hended
  exact ⟨e, hrun, hended.1, hended.2, ((one_socket hrun).2.2.2 hended.1).2.1 hended.2⟩

end Runs

end Effect

end FleetOps.Dashboard
