import FleetOps.Live.Fanout

namespace FleetOps.Live

open Runs LossyQueue

variable {Frame : Type*}

-- What one client sees of a label.
inductive Event (Frame : Type*) where
  | connect
  | broadcast (data : Frame)
  | take
  | disconnect

def event (websocket : WebSocket) : Label Frame → Option (Event Frame)
  | .connect w => if w = websocket then some .connect else none
  | .fan_out data => some (.broadcast data)
  | .got w => if w = websocket then some .take else none
  | .sent _ => none
  | .send_failed w => if w = websocket then some .disconnect else none
  | .disconnect w => if w = websocket then some .disconnect else none

-- A client on its own, over an ideal lossy queue.
inductive Client (Frame : Type*) where
  | new
  | connected (channel : Channel Frame)
  | gone (taken : List Frame)

namespace Client

def step : Client Frame → Event Frame → Client Frame
  | .new, .connect => .connected .empty
  | .connected c, .broadcast data => .connected (c.push CLIENT_QUEUE_MAXSIZE data)
  | .connected c, .take => .connected c.take
  | .connected c, .disconnect => .gone c.taken
  | c, _ => c

def Sound : Client Frame → Prop
  | .connected c => c.Sound CLIENT_QUEUE_MAXSIZE
  | _ => True

theorem Sound.step {c : Client Frame} (hc : c.Sound) (e : Event Frame) : (c.step e).Sound := by
  have hpos : 0 < CLIENT_QUEUE_MAXSIZE := by decide
  cases c with
  | new =>
      cases e with
      | connect => exact Channel.sound_empty
      | broadcast data => trivial
      | take => trivial
      | disconnect => trivial
  | connected c =>
      have hsound : c.Sound CLIENT_QUEUE_MAXSIZE := hc
      cases e with
      | connect => exact hsound
      | broadcast data => exact hsound.push hpos data
      | take => exact hsound.take
      | disconnect => trivial
  | gone taken => cases e <;> trivial

theorem Sound.run {c : Client Frame} (hc : c.Sound) (es : List (Event Frame)) :
    (es.foldl Client.step c).Sound := by
  induction es generalizing c with
  | nil => exact hc
  | cons e es ih => exact ih (hc.step e)

end Client

namespace Manager

-- The client that the manager keeps for a connection.
def client (m : Manager Frame) (websocket : WebSocket) : Client Frame :=
  match m.joined websocket, m.queues websocket with
  | none, _ => .new
  | some _, some queue =>
      .connected ⟨m.since websocket, m.taken websocket, m.dropped websocket, queue⟩
  | some _, none => .gone (m.taken websocket)

structure Sound (m : Manager Frame) : Prop where
  nodup : m.active_connections.Nodup
  active : ∀ websocket, (m.queues websocket).isSome ↔ websocket ∈ m.active_connections
  known : ∀ websocket ∈ m.active_connections, (m.joined websocket).isSome
  joined : ∀ websocket n, m.joined websocket = some n → n ≤ m.frames.length
  bound : ∀ websocket queue, m.queues websocket = some queue → queue.length ≤ CLIENT_QUEUE_MAXSIZE
  new : ∀ websocket, m.joined websocket = none →
    m.taken websocket = [] ∧ m.dropped websocket = []

theorem sound_init : (init : Manager Frame).Sound where
  nodup := List.nodup_nil
  active := by simp [init]
  known := by simp [init]
  joined := by simp [init]
  bound := by simp [init]
  new := by simp [init, dropped]

variable {m : Manager Frame} {websocket : WebSocket}

section Broadcast

-- What a turn of the broadcast loop reads and writes of a client.
def share (m : Manager Frame) (websocket : WebSocket) : Option (List Frame) × List Frame :=
  (m.queues websocket, m.dropped websocket)

def Turn (data : Frame) (old new : Option (List Frame) × List Frame) : Prop :=
  match old.1 with
  | none => new = old
  | some queue => new = (some (enqueue queue data).1, old.2 ++ (enqueue queue data).2)

theorem enqueue_to_client_self (m : Manager Frame) (data : Frame) (websocket : WebSocket) :
    Turn data (m.share websocket) ((m.enqueue_to_client data websocket).share websocket) := by
  cases h : m.queues websocket with
  | none => simp [Turn, share, enqueue_to_client, h]
  | some queue =>
      simp [Turn, share, enqueue_to_client, h, dropped, List.filter_map, Function.comp_def]

theorem enqueue_to_client_other (m : Manager Frame) (data : Frame) {w : WebSocket}
    (hw : w ≠ websocket) :
    (m.enqueue_to_client data w).share websocket = m.share websocket := by
  cases h : m.queues w with
  | none => simp [enqueue_to_client, h]
  | some queue =>
      simp [share, enqueue_to_client, h, Function.update_of_ne hw.symm, dropped, List.filter_map,
        Function.comp_def, hw]

theorem enqueue_to_client_frame (m : Manager Frame) (data : Frame) (w : WebSocket) :
    (m.enqueue_to_client data w).active_connections = m.active_connections ∧
      (m.enqueue_to_client data w).frames = m.frames ∧
      (m.enqueue_to_client data w).joined = m.joined ∧
      (m.enqueue_to_client data w).taken = m.taken := by
  cases h : m.queues w with
  | none => simp [enqueue_to_client, h]
  | some queue => simp [enqueue_to_client, h]

-- A client that appears once in the list gets the frame once, whoever else is in it.
theorem foldl_enqueue_share (data : Frame) (websocket : WebSocket) {clients : List WebSocket}
    (hnodup : clients.Nodup)
    (m : Manager Frame) :
    (websocket ∉ clients →
      (clients.foldl (enqueue_to_client data) m).share websocket = m.share websocket) ∧
    (websocket ∈ clients →
      Turn data (m.share websocket)
        ((clients.foldl (enqueue_to_client data) m).share websocket)) := by
  induction clients generalizing m with
  | nil => simp
  | cons w clients ih =>
      obtain ⟨hhead, htail⟩ := List.nodup_cons.mp hnodup
      obtain ⟨hout, hin⟩ := ih htail (m.enqueue_to_client data w)
      refine ⟨fun hnot => ?_, fun hmem => ?_⟩
      · simp only [List.mem_cons, not_or] at hnot
        exact (hout hnot.2).trans (m.enqueue_to_client_other data (Ne.symm hnot.1))
      · by_cases hw : w = websocket
        · subst hw
          have hturn := m.enqueue_to_client_self data w
          rw [← hout hhead] at hturn
          exact hturn
        · have hrest : websocket ∈ clients := (List.mem_cons.mp hmem).resolve_left (Ne.symm hw)
          have hturn := hin hrest
          rw [m.enqueue_to_client_other data hw] at hturn
          exact hturn

theorem foldl_enqueue_frame (data : Frame) (clients : List WebSocket) (m : Manager Frame) :
    (clients.foldl (enqueue_to_client data) m).active_connections = m.active_connections ∧
      (clients.foldl (enqueue_to_client data) m).frames = m.frames ∧
      (clients.foldl (enqueue_to_client data) m).joined = m.joined ∧
      (clients.foldl (enqueue_to_client data) m).taken = m.taken := by
  induction clients generalizing m with
  | nil => simp
  | cons w clients ih =>
      obtain ⟨hactive, hframes, hjoined, htaken⟩ := ih (m.enqueue_to_client data w)
      obtain ⟨hactive', hframes', hjoined', htaken'⟩ := m.enqueue_to_client_frame data w
      exact ⟨hactive.trans hactive', hframes.trans hframes', hjoined.trans hjoined',
        htaken.trans htaken'⟩

theorem fan_out_frame (m : Manager Frame) (data : Frame) :
    (m.fan_out data).active_connections = m.active_connections ∧
      (m.fan_out data).joined = m.joined ∧ (m.fan_out data).taken = m.taken := by
  obtain ⟨hactive, _, hjoined, htaken⟩ := foldl_enqueue_frame data m.active_connections m
  exact ⟨hactive, hjoined, htaken⟩

-- Every client that has a queue is in the list, so each of them gets the frame.
theorem Sound.fan_out_share (hm : m.Sound) (data : Frame) (websocket : WebSocket) :
    Turn data (m.share websocket) ((m.fan_out data).share websocket) := by
  obtain ⟨hout, hin⟩ := foldl_enqueue_share data websocket hm.nodup m
  by_cases hmem : websocket ∈ m.active_connections
  · exact hin hmem
  · have hqueue : m.queues websocket = none := by
      simpa using mt (hm.active websocket).mp hmem
    have hsame : (m.fan_out data).share websocket = m.share websocket := hout hmem
    rw [hsame]
    simp [Turn, share, hqueue]

end Broadcast

section Refinement

theorem push_eq {queue : List Frame} (h : queue.length ≤ CLIENT_QUEUE_MAXSIZE)
    (sent taken dropped : List Frame) (data : Frame) :
    Channel.push CLIENT_QUEUE_MAXSIZE ⟨sent, taken, dropped, queue⟩ data =
      ⟨sent ++ [data], taken, dropped ++ (enqueue queue data).2, (enqueue queue data).1⟩ := by
  rcases h.lt_or_eq with hroom | hfull
  · simp [Channel.push, hroom, enqueue_of_room hroom]
  · simp [Channel.push, hfull, enqueue_of_full hfull]

theorem enqueue_bound {queue : List Frame} (h : queue.length ≤ CLIENT_QUEUE_MAXSIZE)
    (data : Frame) : (enqueue queue data).1.length ≤ CLIENT_QUEUE_MAXSIZE := by
  rcases h.lt_or_eq with hroom | hfull
  · rw [enqueue_of_room hroom, List.length_append, List.length_singleton]
    exact hroom
  · rw [enqueue_of_full hfull, List.length_append, List.length_drop, hfull, List.length_singleton]
    decide

theorem client_new (h : m.joined websocket = none) : m.client websocket = .new := by
  simp [client, h]

theorem Sound.client_connected (hm : m.Sound) {queue : List Frame}
    (h : m.queues websocket = some queue) :
    m.client websocket =
      .connected ⟨m.since websocket, m.taken websocket, m.dropped websocket, queue⟩ := by
  have hactive := (hm.active websocket).mp (by simp [h])
  obtain ⟨n, hn⟩ := Option.isSome_iff_exists.mp (hm.known websocket hactive)
  simp [client, hn, h]

-- Without a queue only a connect is noticed.
theorem client_idle (h : m.queues websocket = none) {e : Event Frame} (he : e ≠ .connect) :
    (m.client websocket).step e = m.client websocket := by
  cases hjoined : m.joined websocket with
  | none =>
      rw [client_new hjoined]
      cases e with
      | connect => exact absurd rfl he
      | broadcast data => rfl
      | take => rfl
      | disconnect => rfl
  | some n =>
      simp only [client, hjoined, h]
      cases e <;> rfl

-- Two managers that agree on what concerns a client have the same client.
theorem client_congr {m' : Manager Frame} (hjoined : m'.joined websocket = m.joined websocket)
    (hqueues : m'.queues websocket = m.queues websocket)
    (htaken : m'.taken websocket = m.taken websocket)
    (hcounted : m'.counted = m.counted) (hframes : m'.frames = m.frames) :
    m'.client websocket = m.client websocket := by
  simp only [client, since, dropped, hjoined, hqueues, htaken, hcounted, hframes]

theorem Sound.connect (hm : m.Sound) {w : WebSocket} (hw : m.joined w = none) :
    (m.connect w).Sound := by
  have hout : w ∉ m.active_connections := fun hmem => by
    have := hm.known w hmem
    simp [hw] at this
  refine ⟨?_, fun v => ?_, fun v hv => ?_, fun v n hn => ?_, fun v queue hv => ?_, fun v hv => ?_⟩
  · exact List.nodup_append.mpr ⟨hm.nodup, by simp, fun a ha b hb hab => by
      rw [List.mem_singleton.mp hb] at hab
      exact hout (hab ▸ ha)⟩
  all_goals by_cases hvw : v = w
  · simp [Manager.connect, hvw]
  · simpa [Manager.connect, Function.update_of_ne hvw, hvw] using hm.active v
  · simp [Manager.connect, hvw]
  · simp only [Manager.connect, List.mem_append, List.mem_singleton, hvw, or_false] at hv
    simpa [Manager.connect, Function.update_of_ne hvw] using hm.known v hv
  · simp only [Manager.connect, hvw, Function.update_self, Option.some.injEq] at hn
    exact hn.ge
  · simp only [Manager.connect, Function.update_of_ne hvw] at hn
    exact hm.joined v n hn
  · simp only [Manager.connect, hvw, Function.update_self, Option.some.injEq] at hv
    simp [← hv]
  · simp only [Manager.connect, Function.update_of_ne hvw] at hv
    exact hm.bound v queue hv
  · simp [Manager.connect, hvw] at hv
  · simp only [Manager.connect, Function.update_of_ne hvw] at hv
    exact hm.new v hv

theorem Sound.disconnect (hm : m.Sound) (w : WebSocket) : (m.disconnect w).Sound := by
  refine ⟨hm.nodup.erase w, fun v => ?_, fun v hv => hm.known v (List.mem_of_mem_erase hv),
    hm.joined, fun v queue hv => ?_, hm.new⟩
  all_goals by_cases hvw : v = w
  · simp [Manager.disconnect, hvw, hm.nodup.not_mem_erase]
  · simpa [Manager.disconnect, Function.update_of_ne hvw, hm.nodup.mem_erase_iff, hvw]
      using hm.active v
  · simp [Manager.disconnect, hvw] at hv
  · simp only [Manager.disconnect, Function.update_of_ne hvw] at hv
    exact hm.bound v queue hv

theorem Sound.fan_out (hm : m.Sound) (data : Frame) : (m.fan_out data).Sound := by
  obtain ⟨hactive, hjoined, htaken⟩ := m.fan_out_frame data
  have hshare := hm.fan_out_share data
  have hsome : ∀ w, ((m.fan_out data).queues w).isSome = (m.queues w).isSome := fun w => by
    have hturn := hshare w
    cases hqueue : m.queues w <;> simp_all [Turn, share]
  refine ⟨hactive ▸ hm.nodup, fun w => ?_, fun w hw => ?_, fun w n hn => ?_,
    fun w queue hw => ?_, fun w hw => ?_⟩
  · rw [hsome, hactive]
    exact hm.active w
  · rw [hactive] at hw
    rw [hjoined]
    exact hm.known w hw
  · rw [hjoined] at hn
    exact (hm.joined w n hn).trans (by simp [Manager.fan_out])
  · have hturn := hshare w
    cases hqueue : m.queues w with
    | none => simp [Turn, share, hqueue, hw] at hturn
    | some old =>
        simp only [Turn, share, hqueue, Prod.mk.injEq, hw, Option.some.injEq] at hturn
        rw [hturn.1]
        exact enqueue_bound (hm.bound w old hqueue) data
  · rw [hjoined] at hw
    obtain ⟨hnone, hdropped⟩ := hm.new w hw
    refine ⟨htaken ▸ hnone, ?_⟩
    have hturn := hshare w
    have hqueue : m.queues w = none := by
      by_contra hsome'
      have hmem := (hm.active w).mp (Option.isSome_iff_ne_none.mpr hsome')
      have := hm.known w hmem
      simp [hw] at this
    simp only [Turn, share, hqueue, Prod.mk.injEq] at hturn
    exact hturn.2.trans hdropped

theorem Sound.got (hm : m.Sound) {w : WebSocket} {data : Frame} {rest : List Frame}
    (hqueue : m.queues w = some (data :: rest)) (senders : WebSocket → Option (Sender Frame)) :
    ({ m with queues := Function.update m.queues w (some rest)
              senders := senders
              taken := Function.update m.taken w (m.taken w ++ [data]) } :
      Manager Frame).Sound := by
  have hactive := (hm.active w).mp (by simp [hqueue])
  refine ⟨hm.nodup, fun v => ?_, hm.known, hm.joined, fun v queue hv => ?_, fun v hv => ?_⟩
  all_goals by_cases hvw : v = w
  · simp [hvw, hactive]
  · simpa [Function.update_of_ne hvw] using hm.active v
  · simp only [hvw, Function.update_self, Option.some.injEq] at hv
    have hbound := hm.bound w _ hqueue
    rw [← hv]
    exact (Nat.le_succ _).trans hbound
  · simp only [Function.update_of_ne hvw] at hv
    exact hm.bound v queue hv
  · have hknown := hm.known w hactive
    simp only [hvw] at hv
    simp [hv] at hknown
  · simp only [Function.update_of_ne hvw]
    exact hm.new v hv

-- The client after a broadcast is the ideal one after a push.
theorem Sound.client_fan_out (hm : m.Sound) (data : Frame) (websocket : WebSocket) :
    (m.fan_out data).client websocket = (m.client websocket).step (.broadcast data) := by
  have hturn := hm.fan_out_share data websocket
  obtain ⟨_, hjoined, htaken⟩ := m.fan_out_frame data
  cases hqueue : m.queues websocket with
  | none =>
      simp only [Turn, share, hqueue, Prod.mk.injEq] at hturn
      rw [client_idle hqueue (by simp)]
      simp only [client, hjoined, hturn.1, htaken, hqueue]
      cases m.joined websocket <;> rfl
  | some queue =>
      simp only [Turn, share, hqueue, Prod.mk.injEq] at hturn
      rw [(hm.fan_out data).client_connected hturn.1, hm.client_connected hqueue]
      have hsince : (m.fan_out data).since websocket = m.since websocket ++ [data] := by
        have hle : (m.joined websocket).getD 0 ≤ m.frames.length := by
          cases hj : m.joined websocket with
          | none => exact Nat.zero_le _
          | some n => exact hm.joined websocket n hj
        rw [since, since, hjoined]
        exact List.drop_append_of_le_length hle
      rw [Client.step, push_eq (hm.bound websocket queue hqueue), hsince, hturn.2, htaken]

theorem client_disconnect_self (hm : m.Sound) :
    (m.disconnect websocket).client websocket = (m.client websocket).step .disconnect := by
  cases hqueue : m.queues websocket with
  | none =>
      rw [client_idle hqueue (by simp)]
      simp [client, since, dropped, disconnect, hqueue]
  | some queue =>
      rw [hm.client_connected hqueue]
      have hactive := (hm.active websocket).mp (by simp [hqueue])
      obtain ⟨n, hn⟩ := Option.isSome_iff_exists.mp (hm.known websocket hactive)
      simp [client, disconnect, hn, Client.step]

theorem client_disconnect_other {w : WebSocket} (hw : w ≠ websocket) :
    (m.disconnect w).client websocket = m.client websocket :=
  client_congr rfl (Function.update_of_ne hw.symm _ _) rfl rfl rfl

end Refinement

end Manager

section Steps

variable {m m' : Manager Frame} {websocket : WebSocket}

-- What a step can do.
theorem step_cases {l : Label Frame} (hstep : step m l = some m') :
    (∃ w, l = .connect w ∧ m.joined w = none ∧ m' = m.connect w) ∨
    (∃ data, l = .fan_out data ∧ m' = m.fan_out data) ∨
    (∃ w data rest, l = .got w ∧ m.queues w = some (data :: rest) ∧
      m' = { m with
        queues := Function.update m.queues w (some rest)
        senders := Function.update m.senders w (some (.sending data))
        taken := Function.update m.taken w (m.taken w ++ [data]) }) ∨
    (∃ w, l = .sent w ∧
      m' = { m with senders := Function.update m.senders w (some .getting) }) ∨
    (∃ w, (l = .send_failed w ∨ l = .disconnect w) ∧ m' = m.disconnect w) := by
  cases l with
  | connect w =>
      simp only [step] at hstep
      split at hstep
      · rename_i hnew
        exact Or.inl ⟨w, rfl, hnew, (Option.some.inj hstep).symm⟩
      · cases hstep
  | fan_out data => exact Or.inr (Or.inl ⟨data, rfl, (Option.some.inj hstep).symm⟩)
  | got w =>
      simp only [step] at hstep
      split at hstep
      · rename_i queue _ hqueue
        cases queue with
        | nil => cases hstep
        | cons data rest =>
            exact Or.inr (Or.inr (Or.inl ⟨w, data, rest, rfl, hqueue, (Option.some.inj hstep).symm⟩))
      · cases hstep
  | sent w =>
      simp only [step] at hstep
      split at hstep
      · exact Or.inr (Or.inr (Or.inr (Or.inl ⟨w, rfl, (Option.some.inj hstep).symm⟩)))
      · cases hstep
  | send_failed w =>
      simp only [step] at hstep
      split at hstep
      · exact Or.inr (Or.inr (Or.inr (Or.inr ⟨w, Or.inl rfl, (Option.some.inj hstep).symm⟩)))
      · cases hstep
  | disconnect w =>
      exact Or.inr (Or.inr (Or.inr (Or.inr ⟨w, Or.inr rfl, (Option.some.inj hstep).symm⟩)))

theorem sound_step {l : Label Frame} (hm : m.Sound) (hstep : step m l = some m') : m'.Sound := by
  rcases step_cases hstep with ⟨w, rfl, hnew, rfl⟩ | ⟨data, rfl, rfl⟩ |
    ⟨w, data, rest, rfl, hqueue, rfl⟩ | ⟨w, rfl, rfl⟩ | ⟨w, _, rfl⟩
  · exact hm.connect hnew
  · exact hm.fan_out data
  · exact hm.got hqueue _
  · exact ⟨hm.nodup, hm.active, hm.known, hm.joined, hm.bound, hm.new⟩
  · exact hm.disconnect w

def Client.follow (c : Client Frame) : Option (Event Frame) → Client Frame
  | none => c
  | some e => c.step e

-- The manager's client moves as the ideal one does, and only on its own events.
theorem client_step {l : Label Frame} (hm : m.Sound) (hstep : step m l = some m')
    (websocket : WebSocket) :
    m'.client websocket = (m.client websocket).follow (event websocket l) := by
  rcases step_cases hstep with ⟨w, rfl, hnew, rfl⟩ | ⟨data, rfl, rfl⟩ |
    ⟨w, data, rest, rfl, hqueue, rfl⟩ | ⟨w, rfl, rfl⟩ | ⟨w, hl, rfl⟩
  · by_cases hw : w = websocket
    · subst hw
      obtain ⟨htaken, hdropped⟩ := hm.new w hnew
      have hsince : (m.connect w).since w = [] := by
        simp [Manager.since, Manager.connect]
      have hdropped' : (m.connect w).dropped w = [] := hdropped
      have hqueue' : (m.connect w).queues w = some [] := Function.update_self _ _ _
      rw [(hm.connect hnew).client_connected hqueue', hsince, hdropped', Manager.client_new hnew]
      simp [event, Client.follow, Client.step, Channel.empty, Manager.connect, htaken]
    · have hevent : event websocket (.connect w : Label Frame) = none := if_neg hw
      rw [hevent]
      exact Manager.client_congr (Function.update_of_ne (Ne.symm hw) _ _)
        (Function.update_of_ne (Ne.symm hw) _ _) rfl rfl rfl
  · exact hm.client_fan_out data websocket
  · by_cases hw : w = websocket
    · subst hw
      rw [(hm.got hqueue _).client_connected (Function.update_self _ _ _), hm.client_connected hqueue]
      simp [event, Client.follow, Client.step, Channel.take, Manager.since, Manager.dropped]
    · have hevent : event websocket (.got w : Label Frame) = none := if_neg hw
      rw [hevent]
      exact Manager.client_congr rfl (Function.update_of_ne (Ne.symm hw) _ _)
        (Function.update_of_ne (Ne.symm hw) _ _) rfl rfl
  · exact Manager.client_congr rfl rfl rfl rfl rfl
  · by_cases hw : w = websocket
    · subst hw
      have hevent : event w l = some .disconnect := by
        rcases hl with rfl | rfl <;> exact if_pos rfl
      rw [hevent]
      exact Manager.client_disconnect_self hm
    · have hevent : event websocket l = none := by
        rcases hl with rfl | rfl <;> exact if_neg hw
      rw [hevent]
      exact Manager.client_disconnect_other hw

theorem sound_of_run {ls : List (Label Frame)} (hm : m.Sound) (hrun : exec step m ls = some m') :
    m'.Sound :=
  exec_invariant (I := Manager.Sound) (fun _ _ _ => sound_step) hm hrun

-- Over a run, the client is the ideal one over its events.
theorem client_run {ls : List (Label Frame)} (hm : m.Sound) (hrun : exec step m ls = some m')
    (websocket : WebSocket) :
    m'.client websocket =
      (ls.filterMap (event websocket)).foldl Client.step (m.client websocket) := by
  induction ls generalizing m with
  | nil =>
      cases hrun
      rfl
  | cons l ls ih =>
      obtain ⟨u, hl, hls⟩ := (exec_cons_iff m m' l ls).mp hrun
      rw [ih (sound_step hm hl) hls, client_step hm hl websocket]
      cases he : event websocket l <;> simp [Client.follow, he]

-- What is left of a client when only its frames matter.
def Client.queue : Client Frame → Option (List Frame)
  | .connected c => some c.queue
  | _ => none

def Client.taken : Client Frame → List Frame
  | .new => []
  | .connected c => c.taken
  | .gone taken => taken

theorem Manager.Sound.client_queue (hm : m.Sound) (websocket : WebSocket) :
    (m.client websocket).queue = m.queues websocket := by
  cases hqueue : m.queues websocket with
  | none =>
      simp only [Manager.client, hqueue]
      cases m.joined websocket <;> rfl
  | some queue =>
      rw [hm.client_connected hqueue]
      rfl

theorem Manager.Sound.client_taken (hm : m.Sound) (websocket : WebSocket) :
    (m.client websocket).taken = m.taken websocket := by
  cases hjoined : m.joined websocket with
  | none =>
      rw [Manager.client_new hjoined]
      exact (hm.new websocket hjoined).1.symm
  | some n =>
      simp only [Manager.client, hjoined]
      cases m.queues websocket <;> rfl

-- A connected client has taken, and holds in its queue, frames broadcast since it
-- connected, in their order. The queue is a suffix of these frames: every frame before it
-- was taken or is counted as dropped. The newest frame is the last of the queue, or the
-- last one taken. Another run with the same broadcasts and the same own events leaves the
-- same queue and the same taken frames.
theorem fresh_suffix {ls : List (Label Frame)} (hrun : exec step .init ls = some m)
    (hactive : websocket ∈ m.active_connections) :
    (∃ queue, m.queues websocket = some queue ∧
      (m.taken websocket ++ queue).Sublist (m.since websocket) ∧
      queue.length ≤ CLIENT_QUEUE_MAXSIZE ∧
      (∃ older, m.since websocket = older ++ queue ∧
        Merge (m.taken websocket) (m.dropped websocket) older) ∧
      (∀ before newest, m.since websocket = before ++ [newest] →
        (∃ rest, queue = rest ++ [newest]) ∨
          (queue = [] ∧ ∃ taken, m.taken websocket = taken ++ [newest] ∧
            Merge taken (m.dropped websocket) before)) ∧
      Merge (m.taken websocket ++ queue) (m.dropped websocket) (m.since websocket)) ∧
    ∀ ls' m', exec step .init ls' = some m' →
      ls'.filterMap (event websocket) = ls.filterMap (event websocket) →
      m'.queues websocket = m.queues websocket ∧ m'.taken websocket = m.taken websocket := by
  have hm := sound_of_run Manager.sound_init hrun
  have hclient := client_run Manager.sound_init hrun websocket
  have hnew : (Manager.init : Manager Frame).client websocket = .new := Manager.client_new rfl
  rw [hnew] at hclient
  refine ⟨?_, fun ls' m' hrun' hevents => ?_⟩
  · obtain ⟨queue, hqueue⟩ := Option.isSome_iff_exists.mp ((hm.active websocket).mpr hactive)
    have hideal : (m.client websocket).Sound := by
      rw [hclient]
      exact Client.Sound.run (c := .new) trivial _
    rw [hm.client_connected hqueue] at hideal
    have hchannel : Channel.Sound CLIENT_QUEUE_MAXSIZE
      ⟨m.since websocket, m.taken websocket, m.dropped websocket, queue⟩ := hideal
    exact ⟨queue, hqueue, hchannel.merge.sublist, hchannel.bound, hchannel.front, hchannel.fresh,
      hchannel.merge⟩
  · have hm' := sound_of_run Manager.sound_init hrun'
    have hclient' := client_run Manager.sound_init hrun' websocket
    rw [hnew, hevents, ← hclient] at hclient'
    rw [← hm.client_queue, ← hm.client_taken, ← hm'.client_queue, ← hm'.client_taken, hclient']
    exact ⟨rfl, rfl⟩

-- Client 1 keeps its frames while client 2 stalls and goes.
def stalled : List (Label Nat) :=
  [.connect 1, .connect 2, .fan_out 10, .got 1, .got 2, .fan_out 11, .send_failed 2, .sent 1,
    .fan_out 12]

theorem fresh_suffix_stalled :
    ∃ m, exec step .init stalled = some m ∧ m.taken 1 = [10] ∧ m.since 1 = [10, 11, 12] ∧
      (∃ queue, m.queues 1 = some queue ∧ Merge ([10] ++ queue) (m.dropped 1) [10, 11, 12]) ∧
      ∀ ls' m', exec step .init ls' = some m' →
        ls'.filterMap (event 1) = stalled.filterMap (event 1) →
        m'.queues 1 = m.queues 1 ∧ m'.taken 1 = m.taken 1 := by
  have hrun : exec step (.init : Manager Nat) stalled =
      some (((exec step .init stalled).getD .init)) := rfl
  obtain ⟨⟨queue, hqueue, _, _, _, _, hmerge⟩, hsame⟩ :=
    fresh_suffix (show exec step .init stalled = some ((exec step .init stalled).getD .init) from rfl)
      (show 1 ∈ _ by decide)
  exact ⟨_, hrun, rfl, rfl, ⟨queue, hqueue, hmerge⟩, hsame⟩

end Steps

end FleetOps.Live
