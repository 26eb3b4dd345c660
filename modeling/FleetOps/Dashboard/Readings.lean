import FleetOps.Dashboard.FleetData
import FleetOps.Telemetry.Ingest

namespace FleetOps.Dashboard

open Dict Runs FleetData

section Readings

-- What is displayed of a robot.
def displayedKeys : List String := ["battery", "temperature", "speed", "x", "y"]

def values (entry : Dict) : List (Option Json) := displayedKeys.map fun key => entry.lookup key

structure Reading where
  time : Int
  values : List (Option Json)
  deriving Inhabited

variable (b : Browser)

def timeOf (entry : Dict) (key : String) : Int := ((entry.lookup key).bind b.getTime).getD 0

def frameReading (msg : Dict) : Reading := ⟨timeOf b msg "timestamp", values msg⟩

def entryReading (entry : Dict) : Reading := ⟨timeOf b entry "last_seen", values entry⟩

-- A live telemetry frame: of all that the backend sends, what has no type and tells a robot and
-- its battery.
def telemetry (lastMessage : Json) : Option Dict :=
  let msg := fields lastMessage
  if !isTruthy (msg.lookup "type") && (msg.lookup "robot_id").isSome &&
      (msg.lookup "battery").isSome then some msg else none

def robotTelemetry (id : String) (lastMessage : Json) : Option Dict :=
  (telemetry lastMessage).filter fun msg => idText b msg == id

def FleetData.displayed (s : FleetData) (id : String) : Option Dict :=
  s.robots.find? fun robot => idText b robot = id

-- A robot on the screen, as a register that is written by a timeout or by a response.
structure Screen where
  shown : Option Reading
  buffered : Option Reading

def Screen.next (id : String) (screen : Screen) : DataLabel → Screen
  | .message lastMessage =>
      match robotTelemetry b id lastMessage with
      | some msg => { screen with buffered := some (frameReading b msg) }
      | none => screen
  | .flush => ⟨screen.buffered.or screen.shown, none⟩
  | .robots data =>
      { screen with
        shown := ((data.getD []).find? fun robot => idText b robot = id).map (entryReading b) }
  | .events _ => screen

def screen (id : String) (labels : List DataLabel) : Screen :=
  labels.foldl (Screen.next b id) ⟨none, none⟩

-- The readings of a robot that come with a frame or a response.
def delivered (id : String) : DataLabel → List Reading
  | .message lastMessage => ((robotTelemetry b id lastMessage).map (frameReading b)).toList
  | .robots data =>
      (((data.getD []).find? fun robot => idText b robot = id).map (entryReading b)).toList
  | .flush | .events _ => []

-- The payload of a reading: an object with the number of its robot and all that is displayed.
structure Complete (msg : Dict) : Prop where
  nodup : (msg.map Prod.fst).Nodup
  keys : ∀ key ∈ displayedKeys, key ∈ msg.map Prod.fst
  robot : ∃ n, msg.lookup "robot_id" = some (.int n)

def CompleteFrames (labels : List DataLabel) : Prop :=
  ∀ lastMessage, .message lastMessage ∈ labels → ∀ msg, telemetry lastMessage = some msg → Complete msg

end Readings

section Payloads

open Telemetry

theorem keys_writtenFields (fields : Dict) : (writtenFields fields).map Prod.fst = fields.map Prod.fst := by
  induction fields with
  | nil => rfl
  | cons field fields ih =>
      obtain ⟨key, value⟩ := field
      exact congrArg (key :: ·) ih

-- What the backend puts on the stream of a reading is complete.
theorem complete_stamped {serialize : Calendar.Datetime → String} {data : TelemetryCreate}
    {ts : Calendar.Utc} {payload : Dict} (h : stamped serialize data ts = some payload) :
    Complete (writtenFields payload) := by
  obtain ⟨text, -, rfl⟩ := Option.map_eq_some_iff.mp h
  have hkeys : (setItem (model_dump serialize data) "timestamp" (.str text)).map Prod.fst =
      (model_dump serialize data).map Prod.fst := by
    rw [keys_setItem]
    rfl
  refine ⟨?_, ?_, data.robot_id, ?_⟩
  · rw [keys_writtenFields, hkeys]
    simp only [model_dump, List.map_cons, List.map_nil]
    decide
  · rw [keys_writtenFields, hkeys]
    simp only [model_dump, List.map_cons, List.map_nil]
    decide
  · rw [lookup_writtenFields, lookup_setItem, if_neg (by decide)]
    rfl

theorem complete_broadcast {row : Measured} {payload : Dict}
    (h : telemetry_to_broadcast_dict row = some payload) : Complete (writtenFields payload) := by
  simp only [telemetry_to_broadcast_dict, Option.bind_eq_bind] at h
  split at h
  all_goals
    obtain ⟨_, _, h⟩ := Option.bind_eq_some_iff.mp h
    obtain ⟨_, _, h⟩ := Option.bind_eq_some_iff.mp h
    cases h
    refine ⟨?_, ?_, row.data.robot_id, ?_⟩
    · rw [keys_writtenFields]
      simp only [List.map_cons, List.map_nil]
      decide
    · rw [keys_writtenFields]
      simp only [List.map_cons, List.map_nil]
      decide
    · rw [lookup_writtenFields]
      rfl

end Payloads

section Writes

variable {b : Browser} {msg robot : Dict} {robots : List Dict} {id : String}

theorem lookup_spread (hnodup : (msg.map Prod.fst).Nodup) (key : String) :
    (spread robot msg).lookup key = (msg.lookup key).or (robot.lookup key) := by
  rw [spread, lookup_foldl_setItem hnodup]
  simp

theorem values_spread (h : Complete msg) : values (spread robot msg) = values msg := by
  refine List.map_congr_left fun key hkey => ?_
  obtain ⟨value, hvalue⟩ := Option.isSome_iff_exists.mp ((mem_keys_iff msg key).mp (h.keys key hkey))
  rw [lookup_spread h.nodup, hvalue, Option.some_or]

theorem idText_spread (h : Complete msg) : idText b (spread robot msg) = idText b msg := by
  obtain ⟨n, hn⟩ := h.robot
  rw [idText, idText, lookup_spread h.nodup, hn, Option.some_or]

theorem displayed_setRobot (h : Complete msg) :
    ((setRobot b msg robots).find? fun robot => idText b robot = id).map values =
      if idText b msg = id then some (values msg)
      else (robots.find? fun robot => idText b robot = id).map values := by
  induction robots with
  | nil => by_cases hmsg : idText b msg = id <;> simp [setRobot, hmsg]
  | cons robot robots ih =>
      by_cases hrobot : idText b robot = idText b msg
      · rw [setRobot, if_pos hrobot, List.find?_cons, List.find?_cons, idText_spread h, hrobot]
        by_cases hmsg : idText b msg = id
        · simp [hmsg, values_spread h]
        · simp [hmsg]
      · rw [setRobot, if_neg hrobot, List.find?_cons, List.find?_cons]
        by_cases hid' : idText b robot = id
        · have hmsg : idText b msg ≠ id := fun hmsg => hrobot (hid'.trans hmsg.symm)
          simp [hid', hmsg]
        · simp only [hid', decide_false]
          exact ih

theorem mem_objectKeys {α : Type} {d : List (String × α)} {key : String} :
    key ∈ objectKeys d ↔ key ∈ d.map Prod.fst := by
  simp only [objectKeys, List.mem_append, List.mem_map, List.mem_mergeSort, List.mem_filterMap,
    List.mem_filter, Option.map_eq_some_iff]
  constructor
  · rintro (⟨_, ⟨p, hp, n, hn, rfl⟩, rfl⟩ | ⟨p, ⟨hp, -⟩, rfl⟩)
    · exact ⟨p, hp, rfl⟩
    · exact ⟨p, hp, rfl⟩
  · rintro ⟨p, hp, rfl⟩
    cases hindex : arrayIndex p.1 with
    | none => exact Or.inr ⟨p, ⟨hp, by simp [hindex]⟩, rfl⟩
    | some n => exact Or.inl ⟨(n, p.1), ⟨p, hp, n, hindex, rfl⟩, rfl⟩

-- The buffered frames: each under the id it names, and complete.
structure Buffered (b : Browser) (updates : List (String × Dict)) : Prop where
  complete : ∀ id msg, updates.lookup id = some msg → Complete msg
  named : ∀ id msg, updates.lookup id = some msg → idText b msg = id

-- The last write of a robot's frame is the only one, as far as it is displayed.
theorem displayed_applyRobots {updates : List (String × Dict)} (h : Buffered b updates) (id : String)
    (robots : List Dict) :
    ((applyRobots b updates robots).find? fun robot => idText b robot = id).map values =
      ((updates.lookup id).map values).or
        ((robots.find? fun robot => idText b robot = id).map values) := by
  have hfold : ∀ (ids : List String) (robots : List Dict),
      ((ids.foldl (applyRobot b updates) robots).find? fun robot => idText b robot = id).map values =
      if id ∈ ids then ((updates.lookup id).map values).or
        ((robots.find? fun robot => idText b robot = id).map values)
      else (robots.find? fun robot => idText b robot = id).map values := by
    intro ids
    induction ids with
    | nil => exact fun robots => rfl
    | cons other ids ih =>
        intro robots
        rw [List.foldl_cons, ih]
        cases hother : updates.lookup other with
        | none =>
            by_cases hsame : id = other
            · subst hsame
              simp [applyRobot, hother]
            · simp [applyRobot, hother, hsame]
        | some msg =>
            have hname := h.named other msg hother
            rw [applyRobot, hother, displayed_setRobot (h.complete other msg hother), hname]
            by_cases hsame : id = other
            · subst hsame
              simp [hother]
            · simp [hsame, Ne.symm hsame]
  rw [applyRobots, hfold]
  split
  · rfl
  · rename_i hnot
    rw [mem_objectKeys, mem_keys_iff, Bool.not_eq_true, Option.isSome_eq_false_iff,
      Option.isNone_iff_eq_none] at hnot
    rw [hnot, Option.map_none, Option.none_or]

end Writes

section Simulation

variable {b : Browser} {id : String} {s t : FleetData} {l : DataLabel} {scr : Screen}

theorem telemetry_eq_some {lastMessage : Json} {msg : Dict} (h : telemetry lastMessage = some msg) :
    msg = fields lastMessage := by
  simp only [telemetry] at h
  split at h
  · exact (Option.some.inj h).symm
  · cases h

theorem telemetry_fields {lastMessage : Json} (h : (fields lastMessage).lookup "robot_id" = none) :
    telemetry lastMessage = none := by
  simp [telemetry, h]

-- The hook takes no frame for telemetry that names no robot or robot 0.
theorem pending_handleMessage (s : FleetData) (lastMessage : Json) :
    (s.handleMessage b lastMessage).robots = s.robots ∧
      (s.handleMessage b lastMessage).pendingUpdates.robots =
        match (telemetry lastMessage).filter fun msg => isTruthy (msg.lookup "robot_id") with
        | some msg => setItem s.pendingUpdates.robots (idText b msg) msg
        | none => s.pendingUpdates.robots := by
  unfold handleMessage
  by_cases htruthy : truthy lastMessage = true
  · rw [if_pos htruthy]
    refine ⟨rfl, ?_⟩
    simp only [buffer, telemetry]
    by_cases htype : isTruthy ((fields lastMessage).lookup "type") = true
    · rw [if_pos htype]
      split <;> simp [htype]
    · rw [if_neg htype]
      cases hrobot : (fields lastMessage).lookup "robot_id" with
      | none => simp [isTruthy]
      | some robot =>
          by_cases hbattery : ((fields lastMessage).lookup "battery").isSome
          · by_cases hnamed : isTruthy (some robot) = true
            · simp [htype, hbattery, hrobot, hnamed, Option.filter]
            · simp [htype, hbattery, hrobot, hnamed, Option.filter]
          · simp [hbattery]
  · rw [if_neg htruthy]
    have hfields : fields lastMessage = [] := by
      cases lastMessage <;> first | rfl | exact absurd rfl htruthy
    rw [telemetry_fields (by rw [hfields]; rfl)]
    exact ⟨rfl, rfl⟩

theorem Buffered.setItem {updates : List (String × Dict)} {msg : Dict} (h : Buffered b updates)
    (hmsg : Complete msg) : Buffered b (Dict.setItem updates (idText b msg) msg) := by
  constructor <;> intro id other hother <;> rw [lookup_setItem] at hother <;> split at hother
  · cases hother
    exact hmsg
  · exact h.complete id other hother
  · rename_i hname
    cases hother
    exact (beq_iff_eq.mp hname).symm
  · exact h.named id other hother

theorem Complete.robot_zero {msg : Dict} (h : Complete msg)
    (hzero : isTruthy (msg.lookup "robot_id") = false) : idText b msg = b.toText (.int 0) := by
  obtain ⟨n, hn⟩ := h.robot
  rw [hn] at hzero
  have hn0 : n = 0 := by simpa [isTruthy, truthy] using hzero
  rw [idText, hn, hn0]
  rfl

-- The hook and the register of one robot.
structure Simulates (b : Browser) (id : String) (s : FleetData) (scr : Screen) : Prop where
  shown : (s.displayed b id).map values = scr.shown.map Reading.values
  buffered : (s.pendingUpdates.robots.lookup id).map (frameReading b) = scr.buffered
  frames : Buffered b s.pendingUpdates.robots

-- The frames of robot 0 do not reach the buffer.
theorem Simulates.step (h : Simulates b id s scr) (hid : id ≠ b.toText (.int 0))
    (hcomplete : ∀ lastMessage, l = .message lastMessage → ∀ msg, telemetry lastMessage = some msg →
      Complete msg) (hstep : s.step b l = some t) : Simulates b id t (scr.next b id l) := by
  cases l with
  | message lastMessage =>
      cases hstep
      obtain ⟨hrobots, hpending⟩ := pending_handleMessage (b := b) s lastMessage
      simp only [Screen.next, robotTelemetry]
      cases hmsg : telemetry lastMessage with
      | none =>
          rw [hmsg, Option.filter_none] at hpending
          rw [Option.filter_none]
          exact ⟨by rw [displayed, hrobots]; exact h.shown, by rw [hpending]; exact h.buffered,
            by rw [hpending]; exact h.frames⟩
      | some msg =>
          rw [hmsg] at hpending
          have hmsg' := hcomplete lastMessage rfl msg hmsg
          cases hnamed : isTruthy (msg.lookup "robot_id") with
          | false =>
              rw [Option.filter_some_neg (by simpa using hnamed)] at hpending
              have hother : idText b msg ≠ id := fun hname => hid (hname.symm.trans (hmsg'.robot_zero hnamed))
              rw [Option.filter_some_neg (by simpa using hother)]
              exact ⟨by rw [displayed, hrobots]; exact h.shown, by rw [hpending]; exact h.buffered,
                by rw [hpending]; exact h.frames⟩
          | true =>
              rw [Option.filter_some_pos (by simpa using hnamed)] at hpending
              have hframes : Buffered b (s.handleMessage b lastMessage).pendingUpdates.robots := by
                rw [hpending]
                exact h.frames.setItem hmsg'
              by_cases hname : idText b msg = id
              · rw [Option.filter_some_pos (by simpa using hname)]
                refine ⟨by rw [displayed, hrobots]; exact h.shown, ?_, hframes⟩
                rw [hpending, lookup_setItem, hname, if_pos (by simp)]
                rfl
              · rw [Option.filter_some_neg (by simpa using hname)]
                refine ⟨by rw [displayed, hrobots]; exact h.shown, ?_, hframes⟩
                rw [hpending, lookup_setItem, if_neg (by simpa using Ne.symm hname)]
                exact h.buffered
  | flush =>
      simp only [FleetData.step] at hstep
      split at hstep
      · cases hstep
        refine ⟨?_, rfl, ⟨by simp [flush], by simp [flush]⟩⟩
        have happly := displayed_applyRobots h.frames id s.robots
        have hvalues : (s.pendingUpdates.robots.lookup id).map values =
            scr.buffered.map Reading.values := by
          rw [← h.buffered, Option.map_map]
          rfl
        rw [hvalues, ← displayed, h.shown] at happly
        rw [displayed, flush, happly, Screen.next]
        cases scr.buffered <;> rfl
      · cases hstep
  | robots data =>
      cases hstep
      refine ⟨?_, h.buffered, h.frames⟩
      rw [Screen.next, Option.map_map]
      rfl
  | events data =>
      cases hstep
      exact ⟨h.shown, h.buffered, h.frames⟩

theorem simulates_run {labels : List DataLabel} (hid : id ≠ b.toText (.int 0))
    (hcomplete : CompleteFrames labels) (hrun : exec (FleetData.step b) FleetData.init labels = some s) :
    Simulates b id s (screen b id labels) := by
  induction labels using List.reverseRecOn generalizing s with
  | nil =>
      cases hrun
      exact ⟨rfl, rfl, nofun, nofun⟩
  | append_singleton labels l ih =>
      obtain ⟨u, hbefore, hlast⟩ := (exec_append_iff _ _ labels [l]).mp hrun
      obtain ⟨v, hstep, heq⟩ := (exec_cons_iff _ _ l []).mp hlast
      cases heq
      have hu := ih (fun lastMessage hmem => hcomplete lastMessage (List.mem_append_left _ hmem)) hbefore
      rw [screen, List.foldl_append]
      exact hu.step hid (fun lastMessage hl => hcomplete lastMessage (by simp [hl])) hstep

end Simulation

section Order

variable {b : Browser} {id : String} {labels : List DataLabel} {s : FleetData}

def IsNewest (readings : List Reading) (r : Reading) : Prop :=
  r ∈ readings ∧ ∀ other ∈ readings, other.time ≤ r.time

-- Every delivery is as new as all before it. A response reports the robot once one has been
-- delivered, and does not overtake a frame of it.
def InOrder (b : Browser) (id : String) (labels : List DataLabel) : Prop :=
  ∀ before l after, labels = before ++ l :: after →
    (∀ r ∈ delivered b id l, ∀ other ∈ before.flatMap (delivered b id), other.time ≤ r.time) ∧
    ∀ data, l = .robots data → (screen b id before).buffered = none ∧
      (delivered b id l = [] → before.flatMap (delivered b id) = [])

theorem IsNewest.append {readings : List Reading} {r : Reading}
    (h : ∀ other ∈ readings, other.time ≤ r.time) : IsNewest (readings ++ [r]) r := by
  refine ⟨by simp, fun other hother => ?_⟩
  rcases List.mem_append.mp hother with hother | hother
  · exact h other hother
  · rw [List.mem_singleton.mp hother]

-- In order, what is buffered or else shown is the newest reading that was delivered.
theorem newest_screen (h : InOrder b id labels) :
    match (screen b id labels).buffered.or (screen b id labels).shown with
    | some r => IsNewest (labels.flatMap (delivered b id)) r
    | none => labels.flatMap (delivered b id) = [] := by
  induction labels using List.reverseRecOn with
  | nil => rfl
  | append_singleton labels l ih =>
      have hbefore := ih fun before l' after hsplit =>
        h before l' (after ++ [l]) (by rw [hsplit, List.append_assoc, List.cons_append])
      obtain ⟨htimes, hresponse⟩ := h labels l [] rfl
      have hscreen : screen b id (labels ++ [l]) = (screen b id labels).next b id l := by
        simp [screen]
      have hdelivered : (labels ++ [l]).flatMap (delivered b id) =
          labels.flatMap (delivered b id) ++ delivered b id l := by simp
      rw [hscreen, hdelivered]
      cases l with
      | message lastMessage =>
          simp only [Screen.next, delivered] at htimes ⊢
          cases hmsg : robotTelemetry b id lastMessage with
          | none =>
              rw [Option.map_none, Option.toList_none, List.append_nil]
              exact hbefore
          | some msg =>
              simp only [hmsg, Option.map_some, Option.toList_some] at htimes ⊢
              exact IsNewest.append (htimes _ (by simp))
      | flush =>
          simp only [Screen.next, delivered, List.append_nil, Option.none_or]
          exact hbefore
      | robots data =>
          obtain ⟨hnone, habsent⟩ := hresponse data rfl
          simp only [Screen.next, delivered, hnone, Option.none_or] at htimes habsent ⊢
          cases hentry : (data.getD []).find? fun robot => decide (idText b robot = id) with
          | none =>
              simp only [hentry, Option.map_none, Option.toList_none, List.append_nil] at habsent ⊢
              exact habsent trivial
          | some entry =>
              simp only [hentry, Option.map_some, Option.toList_some] at htimes ⊢
              exact IsNewest.append (htimes _ (by simp))
      | events data =>
          simp only [Screen.next, delivered, List.append_nil]
          exact hbefore

-- A robot other than robot 0 is displayed as what was written last says: a timeout writes the
-- last of its frames that came since the timeout before, a response what it reports of the robot.
-- With deliveries in order and no frame of the robot buffered, that is the newest reading delivered.
theorem shows_last_written (hid : id ≠ b.toText (.int 0)) (hcomplete : CompleteFrames labels)
    (hrun : exec (FleetData.step b) FleetData.init labels = some s) :
    (s.displayed b id).map values = (screen b id labels).shown.map Reading.values ∧
    (InOrder b id labels → (screen b id labels).buffered = none →
      labels.flatMap (delivered b id) ≠ [] →
      ∃ r, IsNewest (labels.flatMap (delivered b id)) r ∧ (s.displayed b id).map values = some r.values) := by
  have hshown := (simulates_run hid hcomplete hrun).shown
  refine ⟨hshown, fun horder hbuffered hany => ?_⟩
  have hnewest := newest_screen horder
  rw [hbuffered, Option.none_or] at hnewest
  cases hr : (screen b id labels).shown with
  | none =>
      rw [hr] at hnewest
      exact absurd hnewest hany
  | some r =>
      rw [hr] at hnewest hshown
      exact ⟨r, hnewest, hshown⟩

end Order

section Examples

def clock : Browser where
  toText
    | .str text => text
    | .int value => toString value
    | _ => "value"
  getTime
    | .str "2026-08-08T10:00:01Z" => some 1786183201000
    | .str "2026-08-08T10:00:02Z" => some 1786183202000
    | _ => none
  toText_str _ := rfl
  getTime_undefined := rfl

def frame (battery : Rat) (timestamp : String) : Dict :=
  [("robot_id", .int 7), ("battery", .float (.finite battery)), ("temperature", .float (.finite 30)),
    ("speed", .float (.finite 1)), ("timestamp", .str timestamp), ("status", .str "ACTIVE"),
    ("x", .float (.finite 2)), ("y", .float (.finite 3))]

def older : Dict := frame 90 "2026-08-08T10:00:01Z"

def newer : Dict := frame 40 "2026-08-08T10:00:02Z"

theorem complete_frame (battery : Rat) (timestamp : String) : Complete (frame battery timestamp) := by
  refine ⟨?_, ?_, 7, rfl⟩ <;> simp only [frame, List.map_cons, List.map_nil] <;> decide

theorem complete_frames {labels : List DataLabel}
    (h : ∀ lastMessage, .message lastMessage ∈ labels → lastMessage = .obj older ∨ lastMessage = .obj newer) :
    CompleteFrames labels := by
  intro lastMessage hmem msg hmsg
  rw [telemetry_eq_some hmsg]
  rcases h lastMessage hmem with rfl | rfl <;> exact complete_frame _ _

-- A reading that was uploaded late is shown in place of a newer one.
def lateRun : List DataLabel := [.message (.obj newer), .message (.obj older), .flush]

theorem late_reading_shown : ∃ s, exec (FleetData.step clock) FleetData.init lateRun = some s ∧
    IsNewest (lateRun.flatMap (delivered clock "7")) (frameReading clock newer) ∧
    (s.displayed clock "7").map values = some (values older) ∧ values older ≠ values newer := by
  have hcomplete : CompleteFrames lateRun := complete_frames fun lastMessage hmem => by
    simp only [lateRun, List.mem_cons, DataLabel.message.injEq, List.not_mem_nil, or_false,
      reduceCtorEq] at hmem
    exact hmem.symm
  have hdelivered : lateRun.flatMap (delivered clock "7") =
      [frameReading clock newer, frameReading clock older] := by
    rfl
  refine ⟨_, rfl, ?_, ?_, ?_⟩
  · rw [hdelivered]
    refine ⟨by simp, fun other hother => ?_⟩
    simp only [List.mem_cons, List.not_mem_nil, or_false] at hother
    rcases hother with rfl | rfl
    · exact Int.le_refl _
    · decide
  · exact (simulates_run (by decide) hcomplete rfl).shown
  · intro h
    have hbattery : some (Json.float (.finite 90)) = some (Json.float (.finite 40)) := (List.cons.inj h).1
    exact absurd (PyFloat.finite.inj (Json.float.inj (Option.some.inj hbattery))) (by decide)

def promptRun : List DataLabel := [.message (.obj older), .message (.obj newer), .flush]

theorem shows_last_written_prompt :
    ∃ s, exec (FleetData.step clock) FleetData.init promptRun = some s ∧
      ∃ r, IsNewest (promptRun.flatMap (delivered clock "7")) r ∧
        (s.displayed clock "7").map values = some r.values := by
  have hcomplete : CompleteFrames promptRun := complete_frames fun lastMessage hmem => by
    simp only [promptRun, List.mem_cons, DataLabel.message.injEq, List.not_mem_nil, or_false,
      reduceCtorEq] at hmem
    exact hmem
  have horder : InOrder clock "7" promptRun := by
    intro before l after hsplit
    rcases before with _ | ⟨_, _ | ⟨_, _ | ⟨_, before⟩⟩⟩
    · cases hsplit
      exact ⟨fun r _ other hother => (by cases hother), fun data hdata => (by cases hdata)⟩
    · cases hsplit
      refine ⟨fun r hr other hother => ?_, fun data hdata => (by cases hdata)⟩
      rw [List.mem_singleton.mp (hr : r ∈ [frameReading clock newer]),
        List.mem_singleton.mp (hother : other ∈ [frameReading clock older])]
      decide
    · cases hsplit
      exact ⟨fun r hr => (by cases hr), fun data hdata => (by cases hdata)⟩
    · cases before <;> cases hsplit
  exact ⟨_, rfl, (shows_last_written (by decide) hcomplete rfl).2 horder rfl (by decide +revert)⟩

end Examples

end FleetOps.Dashboard
