import FleetOps.Telemetry.Moves

namespace FleetOps.Telemetry.Worker

open Calendar ConsumerGroup Dict RowStore Runs

variable {config : Config}

abbrev Run (config : Config) (labels : List (Label config.orjson.Text))
    (s : Pool config.orjson.Text) : Prop :=
  exec (Pool.step config) Pool.init labels = some s

section Definitions

-- The row an entry's object is stored as; the clock matters only where the object
-- has no readable timestamp.
def RowOf (d : Dict) (row : TelemetryRow) : Prop :=
  ∃ now, columns (payload_to_insert_dict now d) = some row

-- The robot of a row has been written to the roster with a time no earlier.
def Seen (writes : List (Write WorkerId Key (Version EntryId))) (row : TelemetryRow) : Prop :=
  ∃ w ∈ writes, w.key = .robot row.robot_id.val ∧
    ∃ robot t, w.after = .robot robot ∧ robot.last_seen = some t ∧ row.timestamp ≤ t

-- Not telemetry, or persisted with its robot.
def Settled (config : Config) (s : Pool config.orjson.Text) (id : EntryId) : Prop :=
  ∃ payload, s.group.entries[id]? = some payload ∧
    ∀ d, telemetryDict config.orjson payload = some d →
      ∃ row, RowOf d row ∧ (id, row) ∈ s.db.telemetry ∧ Seen s.db.store.log row

-- The rows are the insert values of the entries' telemetry.
def Parsing (config : Config) (s : Pool config.orjson.Text) (ids : List EntryId)
    (rows : List Parsed) : Prop :=
  ∀ id ∈ ids, ∃ payload, s.group.entries[id]? = some payload ∧
    ∀ d, telemetryDict config.orjson payload = some d →
      ∃ now, (id, payload_to_insert_dict now d) ∈ rows

-- What the open transaction of a batch has written so far.
def BatchState.holds (config : Config) (s : Pool config.orjson.Text) (w : WorkerId)
    (ids : List EntryId) : BatchState → Prop
  | .insert rows => Parsing config s ids rows
  | .mark_seen rows => Parsing config s ids rows ∧
      ∀ p ∈ rows, ∃ row, columns p.2 = some row ∧ (p.1, row) ∈ inserted (s.db.store.mine w)
  | .commit rows => Parsing config s ids rows ∧
      ∀ p ∈ rows, ∃ row, columns p.2 = some row ∧ (p.1, row) ∈ inserted (s.db.store.mine w) ∧
        Seen (s.db.store.mine w) row
  | _ => False

def State.holds (config : Config) (s : Pool config.orjson.Text) (w : WorkerId) : State → Prop
  | .process ids state => state.holds config s w ids
  | .ack ids => ∀ id ∈ ids, Settled config s id
  | _ => True

structure Inv (config : Config) (s : Pool config.orjson.Text) : Prop where
  group : s.group.Sound
  db : s.db.Sound
  acked : ∀ id, s.group.acked id → Settled config s id
  workers : ∀ w, (s.workers w).holds config s w
  idle : ∀ w, (s.workers w).processing = false → s.db.store.mine w = []

end Definitions

section Frame

-- Entries stay where they are and commits are final.
structure Extends (s t : Pool config.orjson.Text) : Prop where
  entries : ∀ (id : EntryId) (payload : Option config.orjson.Text),
    s.group.entries[id]? = some payload → t.group.entries[id]? = some payload
  log : ∃ more, t.db.store.log = s.db.store.log ++ more

variable {s t : Pool config.orjson.Text}

theorem Extends.settled (h : Extends s t) {id : EntryId} (hid : Settled config s id) :
    Settled config t id := by
  obtain ⟨payload, hget, hrow⟩ := hid
  obtain ⟨more, hmore⟩ := h.log
  refine ⟨payload, h.entries id payload hget, fun d hd => ?_⟩
  obtain ⟨row, hof, hin, w, hw, hkey, hafter⟩ := hrow d hd
  refine ⟨row, hof, ?_, w, ?_, hkey, hafter⟩
  · rw [Database.telemetry, hmore, inserted_append]
    exact List.mem_append_left _ hin
  · rw [hmore]
    exact List.mem_append_left _ hw

theorem Extends.parsing (h : Extends s t) {ids : List EntryId} {rows : List Parsed}
    (hp : Parsing config s ids rows) : Parsing config t ids rows := by
  intro id hid
  obtain ⟨payload, hget, hrows⟩ := hp id hid
  exact ⟨payload, h.entries id payload hget, hrows⟩

theorem Extends.holds (h : Extends s t) {w : WorkerId}
    (hmine : t.db.store.mine w = s.db.store.mine w) {state : State} (hold : state.holds config s w) :
    state.holds config t w := by
  cases state with
  | process ids batch =>
      cases batch with
      | insert rows => exact h.parsing hold
      | mark_seen rows | commit rows =>
          simp only [State.holds, BatchState.holds, hmine] at hold ⊢
          exact ⟨h.parsing hold.1, hold.2⟩
      | insert_row | commit_row | returned | raised => exact hold
  | ack ids => exact fun id hid => h.settled (hold id hid)
  | read | claim | fresh | pause | stopped => trivial

theorem holds_of_free {w : WorkerId} {state : State} (h : state.free = true) :
    state.holds config s w := by
  cases state <;> trivial

end Frame

section Batch

variable {s t : Pool config.orjson.Text} {w : WorkerId}

theorem parsing_of_parseAll {clock : EntryId → Utc} {ids : List EntryId}
    (hids : ∀ id ∈ ids, id < s.group.entries.length) (hentries : t.group.entries = s.group.entries)
    {rows : List Parsed}
    (hparse : parseAll config.orjson clock (messages s.group ids) = some rows) :
    Parsing config t ids rows := by
  intro id hid
  obtain ⟨entry, hget⟩ : ∃ entry, s.group.entries[id]? = some entry :=
    ⟨_, List.getElem?_eq_getElem (hids id hid)⟩
  refine ⟨_, by rw [hentries]; exact hget, fun d hd => ⟨clock id, ?_⟩⟩
  rw [parseAll_eq hparse, List.mem_filterMap]
  exact ⟨_, mem_messages.mpr ⟨hid, hget⟩, by simp [hd]⟩

-- A batch that has been handed over and parsed is inserted as one statement.
theorem startBatch_holds (hopt : config.opt_batch_insert = true) (clock : EntryId → Utc)
    {ids : List EntryId} (hids : ∀ id ∈ ids, id < s.group.entries.length)
    (hentries : t.group.entries = s.group.entries) :
    (startBatch config s.group clock ids).holds config t w := by
  unfold startBatch
  cases hparse : parseAll config.orjson clock (messages s.group ids) with
  | none => trivial
  | some rows =>
      have hparsing : Parsing config t ids rows := parsing_of_parseAll hids hentries hparse
      simp only [BatchState.begin, hopt, if_true]
      by_cases hempty : rows.isEmpty = true
      · -- No row: no entry of the batch is telemetry.
        rw [if_pos hempty]
        intro id hid
        obtain ⟨payload, hget, htelemetry⟩ := hparsing id hid
        refine ⟨payload, hget, fun d hd => ?_⟩
        obtain ⟨now, hmem⟩ := htelemetry d hd
        rw [List.isEmpty_iff.mp hempty] at hmem
        cases hmem
      · rw [if_neg hempty]
        exact hparsing

theorem mem_insertRows {rows : List Parsed} {values : List (EntryId × TelemetryRow)}
    (h : insertRows rows = some values) {p : Parsed} (hp : p ∈ rows) :
    ∃ row, columns p.2 = some row ∧ (p.1, row) ∈ values := by
  induction rows generalizing values with
  | nil => cases hp
  | cons q rows ih =>
      simp only [insertRows, List.mapM_cons, Option.pure_def, Option.bind_eq_bind,
        Option.bind_eq_some_iff, Option.map_eq_some_iff, Option.some.injEq] at h
      obtain ⟨value, ⟨row, hrow, rfl⟩, rest, hrest, rfl⟩ := h
      rcases List.mem_cons.mp hp with rfl | hp
      · exact ⟨row, hrow, List.mem_cons_self ..⟩
      · obtain ⟨row', hrow', hmem⟩ := ih hrest hp
        exact ⟨row', hrow', List.mem_cons_of_mem _ hmem⟩

-- The roster statement covers every row whose robot and time it was given.
theorem seen_of_mark_seen {db db' : Database WorkerId EntryId} (hdb : db.Sound) {rows : List Parsed}
    {latest : List (Int × Datetime)} (hlatest : latest_by_robot [] (lastSeen rows) = some latest)
    (hseen : mark_seen db w latest = some db') {p : Parsed} (hp : p ∈ rows) {row : TelemetryRow}
    (hrow : columns p.2 = some row) : Seen (db'.store.mine w) row := by
  obtain ⟨hrobot, htime⟩ := columns_robot hrow
  have hpair : (row.robot_id.val, p.2.timestamp) ∈ lastSeen rows :=
    List.mem_filterMap.mpr ⟨p, hp, by simp [hrobot]⟩
  obtain ⟨t', hlookup, hle⟩ := (latest_by_robot_covers hlatest).2 _ hpair
  obtain ⟨_, _, _, hwrites⟩ := mark_seen_spec hdb hseen
  obtain ⟨write, hwrite, hkey, robot, t, hafter, hlast, hlt⟩ := hwrites _ (mem_of_lookup hlookup)
  exact ⟨write, hwrite, hkey, robot, t, hafter, hlast, htime ▸ hle.trans hlt⟩

-- One statement of a batch in flight: what it promised is kept or written.
theorem process_batch_holds (hdb : s.db.Sound) {ids : List EntryId} {state state' : BatchState}
    {db : Database WorkerId EntryId} (hold : state.holds config s w ids)
    (hstep : process_batch s.db w state = some (db, state'))
    (hentries : t.group.entries = s.group.entries) (htdb : t.db = db) :
    (afterBatch ids state').holds config t w := by
  have hchange := process_batch_change hdb hstep
  have hext : Extends s t :=
    ⟨fun id payload h => hentries ▸ h, htdb ▸ hchange.log_prefix⟩
  cases process_batch_step hstep with
  | refused | incomparable => trivial
  | insert rows values hvalues =>
      obtain ⟨_, _, hmine⟩ := insert_telemetry_spec hdb w values
      refine ⟨hext.parsing hold, fun p hp => ?_⟩
      obtain ⟨row, hrow, hmem⟩ := mem_insertRows hvalues hp
      rw [htdb, hmine]
      exact ⟨row, hrow, List.mem_append_right _ hmem⟩
  | mark_seen rows latest hlatest db' hseen =>
      obtain ⟨_, _, hins, _⟩ := mark_seen_spec hdb hseen
      refine ⟨hext.parsing hold.1, fun p hp => ?_⟩
      obtain ⟨row, hrow, hmem⟩ := hold.2 p hp
      rw [htdb, hins]
      exact ⟨row, hrow, hmem, seen_of_mark_seen hdb hlatest hseen hp hrow⟩
  | commit rows =>
      intro id hid
      obtain ⟨payload, hget, hrows⟩ := hold.1 id hid
      refine ⟨payload, hext.entries id payload hget, fun d hd => ?_⟩
      obtain ⟨now, hmem⟩ := hrows d hd
      obtain ⟨row, hrow, hin, write, hwrite, hafter⟩ := hold.2 _ hmem
      rw [htdb]
      refine ⟨row, ⟨now, hrow⟩, ?_, write, ?_, hafter⟩
      · rw [telemetry_commit]
        exact List.mem_append_right _ hin
      · exact List.mem_append_right _ hwrite
  | refused_row | insert_row | commit_row => exact hold.elim

end Batch

section Preservation

variable {s t : Pool config.orjson.Text} {w : WorkerId} {l : Label config.orjson.Text}
  {group : Group String (Option config.orjson.Text)} {db : Database WorkerId EntryId} {state : State}

theorem Move.acked (h : Move config s w l group db state) {id : EntryId} (hid : group.acked id) :
    s.group.acked id ∨ ∃ ids, s.workers w = .ack ids ∧ id ∈ ids := by
  cases h with
  | idle => exact Or.inl ((Group.acked_deliver ..).mp hid)
  | reread => exact Or.inl ((Group.acked_deliver ..).mp hid)
  | abort | unacked | process => exact Or.inl hid
  | take | drop => exact Or.inl (Group.acked_of_fresh _ _ _ hid)
  | ack ids _ hack =>
      rcases Group.acked_xack _ hid with hold | ⟨hmem, _⟩
      · exact Or.inl hold
      · exact Or.inr ⟨ids, hack, hmem⟩

theorem Move.holds (hopt : config.opt_batch_insert = true) (hs : Inv config s)
    (h : Move config s w l group db state) (hentries : t.group.entries = s.group.entries)
    (htdb : t.db = db) : state.holds config t w := by
  cases h with
  | idle _ _ _ state _ hstate | drop _ state _ hstate | ack _ state _ hstate =>
      exact holds_of_free hstate
  | abort state _ hstate => rcases hstate with rfl | rfl <;> trivial
  | unacked => trivial
  | reread now clock =>
      refine startBatch_holds hopt clock (fun id hid => ?_) hentries
      have hlt := hs.group.delivered id (Group.mem_history _ _ _ hid)
      exact hlt.trans_le hs.group.length
  | take now clock =>
      refine startBatch_holds hopt clock (fun id hid => ?_) hentries
      have hlt := ((Group.mem_fresh _ _ _).mp hid).2
      exact hlt.trans_le (hs.group.fresh (config.consumer_name w) now 100).length
  | process ids batch batch' db hprocess _ hbatch =>
      have hold := hs.workers w
      rw [hprocess] at hold
      exact process_batch_holds hs.db hold hbatch hentries htdb

theorem Inv.step (hopt : config.opt_batch_insert = true) (hs : Inv config s)
    (h : s.step config l = some t) : Inv config t := by
  have hidle := idle_step hs.db hs.idle h
  rcases step_cases h with ⟨payload, rfl⟩ | ⟨w, group, db, state, hmove, rfl⟩
  · have hext : Extends s { s with group := s.group.xadd payload } :=
      ⟨fun id p hp => by
        rw [Group.xadd, List.getElem?_append_left (List.getElem?_eq_some_iff.mp hp).1]
        exact hp, ⟨[], by simp⟩⟩
    exact
      { group := hs.group.xadd payload
        db := hs.db
        acked := fun id hid => hext.settled (hs.acked id hid)
        workers := fun w => hext.holds rfl (hs.workers w)
        idle := hidle }
  · have hchange := hmove.change hs.db
    have hext : Extends s ⟨group, db, Function.update s.workers w state⟩ :=
      ⟨fun id payload hp => hmove.entries ▸ hp, hchange.log_prefix⟩
    refine
      { group := hmove.sound hs.group
        db := hchange.sound hs.db
        acked := fun id hid => ?_
        workers := fun w' => ?_
        idle := hidle }
    · rcases hmove.acked hid with hold | ⟨ids, hack, hmem⟩
      · exact hext.settled (hs.acked id hold)
      · have hsettled := hs.workers w
        rw [hack] at hsettled
        exact hext.settled (hsettled id hmem)
    · by_cases hw : w' = w
      · subst hw
        simp only [Function.update_self]
        exact hmove.holds hopt hs hmove.entries rfl
      · simp only [Function.update_of_ne hw]
        exact hext.holds (hchange.mine_of_ne hw) (hs.workers w')

theorem inv_init : Inv config Pool.init where
  group := Group.sound_empty
  db := sound_empty_database
  acked := fun id hid => absurd hid.1 (Nat.not_lt_zero id)
  workers := fun _ => trivial
  idle := fun _ _ => rfl

theorem inv_of_run (hopt : config.opt_batch_insert = true) {labels : List (Label config.orjson.Text)}
    (hrun : Run config labels s) : Inv config s :=
  exec_invariant (fun _ _ _ hu hstep => hu.step hopt hstep) inv_init hrun

end Preservation

section Calls

variable {s t : Pool config.orjson.Text} {w : WorkerId}

-- Inside a call only its last statement commits, and the call then returns.
theorem Move.done_of_call (hs : Inv config s) (hcall : (s.workers w).processing = true)
    {l : Label config.orjson.Text} {group : Group String (Option config.orjson.Text)}
    {db : Database WorkerId EntryId} {state : State} (h : Move config s w l group db state) :
    db.store.done w = s.db.store.done w ∨ ∃ ids, state = .ack ids := by
  cases h with
  | idle _ _ _ _ hfree =>
      rw [processing_of_free hfree] at hcall
      cases hcall
  | abort => exact Or.inl rfl
  | reread _ _ hstate | take _ _ hstate | drop _ _ hstate | unacked _ hstate =>
      rw [hstate] at hcall
      cases hcall
  | process ids batch batch' db hprocess _ hbatch =>
      have hold := hs.workers w
      rw [hprocess] at hold
      cases process_batch_step hbatch with
      | refused | incomparable => exact Or.inl rfl
      | insert rows values =>
          obtain ⟨_, hwrites, _⟩ := insert_telemetry_spec hs.db w values
          exact Or.inl (by simp only [Store.done, hwrites.log_eq])
      | mark_seen rows latest hlatest db hseen =>
          obtain ⟨_, hwrites, _⟩ := mark_seen_spec hs.db hseen
          exact Or.inl (by simp only [Store.done, hwrites.log_eq])
      | commit rows => exact Or.inr ⟨ids, rfl⟩
      | refused_row | insert_row | commit_row => exact hold.elim
  | ack ids _ hack =>
      rw [hack] at hcall
      cases hcall

-- While `w` is inside a call nothing of it is committed, unless it has returned.
theorem done_of_call (hopt : config.opt_batch_insert = true) {call : List (Label config.orjson.Text)}
    (hs : Inv config s)
    (hcall : Along (Pool.step config) (fun u _ => (u.workers w).processing = true) s call)
    (hrun : exec (Pool.step config) s call = some t) :
    Inv config t ∧ (t.db.store.done w = s.db.store.done w ∨ ∃ ids, t.workers w = .ack ids) := by
  refine exec_along_invariant (I := fun u => Inv config u ∧
    (u.db.store.done w = s.db.store.done w ∨ ∃ ids, u.workers w = .ack ids)) ?_ hcall
    ⟨hs, Or.inl rfl⟩ hrun
  intro u l v hprocessing hu hstep
  refine ⟨hu.1.step hopt hstep, ?_⟩
  have hdone : u.db.store.done w = s.db.store.done w := by
    rcases hu.2 with hdone | ⟨ids, hack⟩
    · exact hdone
    · rw [hack] at hprocessing
      cases hprocessing
  rcases step_cases hstep with ⟨payload, rfl⟩ | ⟨w', group, db, state, hmove, rfl⟩
  · exact Or.inl hdone
  · by_cases hw : w = w'
    · subst hw
      rcases hmove.done_of_call hu.1 hprocessing with hkeep | ⟨ids, rfl⟩
      · exact Or.inl (hkeep.trans hdone)
      · exact Or.inr ⟨ids, by simp⟩
    · exact Or.inl (((hmove.change hu.1.db).done_of_ne hw).trans hdone)

-- Reading a batch writes nothing.
theorem db_of_read {now : Int} {clock : EntryId → Utc}
    (hread : s.workers w = .read ∨ s.workers w = .fresh)
    (hstep : s.step config (.advance w now clock) = some t) : t.db = s.db := by
  rcases hread with hstate | hstate <;>
  · simp only [Pool.step, act, hstate, advance, Option.map_some, Option.some.injEq] at hstep
    subst hstep
    rfl

end Calls

-- An acknowledged entry is not telemetry, or its row is committed and its robot
-- is on the roster, seen no earlier than the row says. A call of `process_batch`
-- that has raised, or has been cut off, leaves nothing behind.
theorem acknowledged_persisted (hopt : config.opt_batch_insert = true)
    {labels : List (Label config.orjson.Text)} {s : Pool config.orjson.Text}
    (hrun : Run config labels s) :
    (∀ id, s.group.acked id → ∃ payload, s.group.entries[id]? = some payload ∧
      ∀ d, telemetryDict config.orjson payload = some d →
        ∃ key row robot last_seen, RowOf d row ∧
          s.db.store.committed (.telemetry key) = some (.telemetry id row) ∧
          s.db.robot row.robot_id.val = some robot ∧ robot.last_seen = some last_seen ∧
          row.timestamp ≤ last_seen) ∧
    ∀ w now clock call u t, (s.workers w = .read ∨ s.workers w = .fresh) →
      s.step config (.advance w now clock) = some u → exec (Pool.step config) u call = some t →
      Along (Pool.step config) (fun v _ => (v.workers w).processing = true) u call →
      (t.workers w = .pause ∨ t.workers w = .stopped) →
      t.db.store.done w = s.db.store.done w ∧ t.db.store.mine w = [] := by
  have hinv := inv_of_run hopt hrun
  refine ⟨fun id hid => ?_, ?_⟩
  · obtain ⟨payload, hget, hsettled⟩ := hinv.acked id hid
    refine ⟨payload, hget, fun d hd => ?_⟩
    obtain ⟨row, hof, hrow, write, hwrite, hkey, robot, t, hafter, ht, hle⟩ := hsettled d hd
    obtain ⟨key, hcommitted⟩ := hinv.db.committed_telemetry hrow
    obtain ⟨robot', t', hrobot, ht', hlt⟩ := hinv.db.robot_of_mem hwrite hkey hafter ht
    exact ⟨key, row, robot', t', hof, hcommitted, hrobot, ht', hle.trans hlt⟩
  · intro w now clock call u t hread hstep hcall halong hend
    obtain ⟨ht, hdone⟩ := done_of_call hopt (hinv.step hopt hstep) halong hcall
    rw [db_of_read hread hstep] at hdone
    refine ⟨?_, ht.idle w ?_⟩
    · rcases hdone with hdone | ⟨ids, hack⟩
      · exact hdone
      · rcases hend with hend | hend <;>
        · rw [hend] at hack
          cases hack
    · rcases hend with hend | hend <;>
      · rw [hend]
        rfl

section OneBatch

def batchConfig : Config := ⟨.values, true, fun _ => "worker"⟩

theorem noon_lt_wallLimit : 43200000000 < wallLimit := by decide

def noonUtc : Utc := ⟨43200000000, noon_lt_wallLimit⟩

-- A worker's `n` next steps, all taken at one time.
def steps (w : WorkerId) (n : Nat) : List (Label batchConfig.orjson.Text) :=
  List.replicate n (.advance w 0 fun _ => noonUtc)

def robotReading : Option batchConfig.orjson.Text :=
  some (some (.obj [("robot_id", .int 7), ("battery", .float (.finite 91))]))

-- One entry, drained by one worker.
def drained : List (Label batchConfig.orjson.Text) := [.xadd robotReading, .start 0] ++ steps 0 7

theorem acknowledged_persisted_drained : ∃ s : Pool batchConfig.orjson.Text, Run batchConfig drained s ∧
    s.group.acked 0 ∧ ∃ key row robot, s.db.store.committed (.telemetry key) =
      some (.telemetry 0 row) ∧ s.db.robot row.robot_id.val = some robot := by
  refine exec_exists (P := fun s => (0 < s.group.delivered ∧ 0 ∉ s.group.ids) ∧
    ((s.group.entries[0]?).bind (telemetryDict batchConfig.orjson)).isSome = true)
      (by decide +kernel) fun s hs hdrained => ?_
  obtain ⟨hacked, htelemetry⟩ := hdrained
  obtain ⟨payload, hget, hrow⟩ := (acknowledged_persisted rfl hs).1 0 hacked
  obtain ⟨d, hd⟩ := Option.isSome_iff_exists.mp htelemetry
  rw [hget] at hd
  obtain ⟨key, row, robot, _, _, hcommitted, hrobot, _⟩ := hrow d hd
  exact ⟨hacked, key, row, robot, hcommitted, hrobot⟩

end OneBatch

end FleetOps.Telemetry.Worker
