import FleetOps.Command.Steps

namespace FleetOps.Command

open RowStore

abbrev RowWrite := Write RequestId CommandId RobotCommand

-- A record some SELECT returned still has its row, whatever happened to the
-- row's status in the meantime.
def Seen (db : Table) (record : RobotCommand) : Prop :=
  ∃ row, db.committed record.id = some row ∧ SameCommand record row

-- A payload names this robot and key, and answers for a committed row of the
-- robot under what the column makes of the key.
def Answers (db : Table) (robot_id : Int) (command : CommandCreate) (payload : CommandDict) : Prop :=
  payload.robot_id = robot_id ∧ payload.idempotency_key = command.idempotency_key ∧
    ∃ row, db.committed payload.command_id = some row ∧ row.robot_id.val = robot_id ∧
      nullable (varchar 128) (optional .str command.idempotency_key) = some row.idempotency_key

-- What a request's local variables say about the table.
def Consistent (db : Table) : Request → Prop
  | .create robot_id command (.insert cmd) => ∃ id now, cmd = new_cmd id robot_id command now
  | .create robot_id command (.commit cmd) => ∃ id now, cmd = new_cmd id robot_id command now
  | .create robot_id command (.broadcast payload _) => Answers db robot_id command payload
  | .create robot_id command (.returned payload) => Answers db robot_id command payload
  | .claim robot_id (.stamp _ record) => record.robot_id.val = robot_id ∧ Seen db record
  | .claim robot_id (.update _ record _) => record.robot_id.val = robot_id ∧ Seen db record
  | .claim robot_id (.commit _ record _) => record.robot_id.val = robot_id ∧ Seen db record
  | .update command_id _ (.stamp record) => record.id = command_id ∧ Seen db record
  | .update _ update_data (.update current new _) =>
      new ∈ VALID_TRANSITIONS current ∧ new.text = update_data.status
  | .update _ update_data (.commit new _ _) => new.text = update_data.status
  | .update _ update_data (.reread new _ _) => new.text = update_data.status
  | .scan (.update _ _ expired timed_out) => ∀ cmd ∈ expired ++ timed_out, Seen db cmd
  | .scan (.commit _ timed_out) => ∀ cmd ∈ timed_out, Seen db cmd
  | _ => True

-- How far a request has got: its open writes, and its committed ones.
def Ledger : Request → List RowWrite → List RowWrite → Prop
  | .create _ _ (.commit cmd), mine, done =>
      done = [] ∧ ∃ w, mine = [w] ∧ inserted cmd = some w.after
  | .create _ _ (.broadcast payload now), mine, done =>
      mine = [] ∧ ∃ w, done = [w] ∧ inserted payload = some w.after ∧ now = payload.created_at
  | .create _ _ (.returned payload), mine, done =>
      mine = [] ∧ (done = [] ∨ ∃ w, done = [w] ∧ inserted payload = some w.after)
  | .create _ _ (.raised .database), mine, _ => mine = []
  | .create _ _ _, mine, done => mine = [] ∧ done = []
  | .claim _ (.commit claimed record _), mine, done =>
      claimed.map ClaimedCommand.id = done.map Write.key ∧ ∃ w, mine = [w] ∧ w.key = record.id
  | .claim _ (.select claimed), mine, done
  | .claim _ (.stamp claimed _), mine, done
  | .claim _ (.update claimed _ _), mine, done
  | .claim _ (.rollback claimed), mine, done
  | .claim _ (.broadcast claimed _ _), mine, done
  | .claim _ (.returned claimed), mine, done =>
      mine = [] ∧ claimed.map ClaimedCommand.id = done.map Write.key
  | .claim _ (.raised _), mine, _ => mine = []
  | .update _ _ (.commit new _ true), mine, done =>
      done = [] ∧ ∃ w, mine = [w] ∧ w.after.status = new
  | .update _ _ (.reread new _ true), mine, done => mine = [] ∧ ∃ w, done = [w] ∧ w.after.status = new
  | .update _ _ (.broadcast _ _), mine, done => mine = [] ∧ ∃ w, done = [w]
  | .update _ _ (.returned _), mine, done => mine = [] ∧ (done = [] ∨ ∃ w, done = [w])
  | .update _ _ (.raised .database), mine, _ => mine = []
  | .update _ _ _, mine, done => mine = [] ∧ done = []
  | .scan (.update _ _ _ timed_out), mine, done
  | .scan (.commit _ timed_out), mine, done =>
      done = [] ∧ mine.map Write.key = timed_out.map RobotCommand.id
  | .scan (.select _), mine, done => mine = [] ∧ done = []
  | .scan _, mine, _ => mine = []

def dispatched (now : Instant) (row : RobotCommand) : RobotCommand :=
  Values.apply { status := .DISPATCHED, dispatched_at := some now } row

-- The writes that a call can make, whatever state it is in.
def Authored : Request → RowWrite → Prop
  | .create robot_id command _, w =>
      w.before = none ∧ ∃ now, inserted (new_cmd w.key robot_id command now) = some w.after
  | .claim robot_id _, w => ∃ old now, w.before = some old ∧ old.status = .PENDING ∧
      old.robot_id.val = robot_id ∧ w.after = dispatched now old
  | .update command_id update_data _, w => w.key = command_id ∧ ∃ old new now values,
      w.before = some old ∧ new ∈ VALID_TRANSITIONS old.status ∧ new.text = update_data.status ∧
        transition_values new update_data now = some values ∧ w.after = values.apply old
  | .scan _, w => ∃ old cmd started, w.before = some old ∧ old.status ∉ TERMINAL_STATES ∧
      w.after = (timeoutValues cmd started).apply old

structure Local (db : Table) (r : RequestId) (request : Request) : Prop where
  consistent : Consistent db request
  ledger : Ledger request (db.mine r) (db.done r)
  authored : ∀ w ∈ db.mine r ++ db.done r, Authored request w

structure Inv (s : System) : Prop where
  sound : Sound Advance s.db
  idle : ∀ r, s.requests r = none → s.db.mine r = [] ∧ s.db.done r = []
  active : ∀ r request, s.requests r = some request → Local s.db r request

theorem sameCommand_trans {a b c : RobotCommand} (hab : SameCommand a b) (hbc : SameCommand b c) :
    SameCommand a c := by
  unfold SameCommand at *
  grind

theorem sameCommand_refl (a : RobotCommand) : SameCommand a a := by simp [SameCommand]

theorem Seen.effect {db db' : Table} {r : RequestId} {record : RobotCommand}
    (hsound : Sound Advance db) (heffect : Effect Advance db r db') (hseen : Seen db record) :
    Seen db' record := by
  obtain ⟨row, hrow, hsame⟩ := hseen
  obtain ⟨row', hrow', hsame'⟩ := hsound.committed_effect heffect sameCommand_refl
    (fun _ _ _ => sameCommand_trans) (fun _ _ _ h => h.1) hrow
  exact ⟨row', hrow', sameCommand_trans hsame hsame'⟩

theorem Answers.effect {db db' : Table} {r : RequestId} {robot_id : Int} {command : CommandCreate}
    {payload : CommandDict} (hsound : Sound Advance db) (heffect : Effect Advance db r db')
    (hanswers : Answers db robot_id command payload) : Answers db' robot_id command payload := by
  obtain ⟨hnamed, hnamed', row, hrow, hrobot, hkey⟩ := hanswers
  obtain ⟨row', hrow', hsame⟩ := hsound.committed_effect heffect sameCommand_refl
    (fun _ _ _ => sameCommand_trans) (fun _ _ _ h => h.1) hrow
  obtain ⟨_, hrobot', _, _, hkey', _⟩ := hsame
  exact ⟨hnamed, hnamed', row', hrow', by rw [← hrobot', hrobot], by rw [hkey, hkey']⟩

theorem Consistent.effect {db db' : Table} {r : RequestId} (hsound : Sound Advance db)
    (heffect : Effect Advance db r db') {request : Request} (h : Consistent db request) :
    Consistent db' request := by
  cases request with
  | create robot_id command state =>
      cases state with
      | broadcast payload now => exact Answers.effect hsound heffect h
      | returned payload => exact Answers.effect hsound heffect h
      | _ => exact h
  | claim robot_id state =>
      cases state with
      | stamp claimed record => exact ⟨h.1, h.2.effect hsound heffect⟩
      | update claimed record now => exact ⟨h.1, h.2.effect hsound heffect⟩
      | commit claimed record now => exact ⟨h.1, h.2.effect hsound heffect⟩
      | _ => exact h
  | update command_id update_data state =>
      cases state with
      | stamp record => exact ⟨h.1, h.2.effect hsound heffect⟩
      | _ => exact h
  | scan state =>
      cases state with
      | update now started expired timed_out =>
          exact fun cmd hcmd => (h cmd hcmd).effect hsound heffect
      | commit now timed_out => exact fun cmd hcmd => (h cmd hcmd).effect hsound heffect
      | _ => exact h

-- A step of one request leaves what is known about the others.
theorem Local.effect_of_ne {db db' : Table} {r r' : RequestId} (hsound : Sound Advance db)
    (heffect : Effect Advance db r db') (hne : r' ≠ r) {request : Request}
    (h : Local db r' request) : Local db' r' request where
  consistent := h.consistent.effect hsound heffect
  ledger := by
    rw [heffect.mine_of_ne hne, heffect.done_of_ne hne]
    exact h.ledger
  authored := by
    rw [heffect.mine_of_ne hne, heffect.done_of_ne hne]
    exact h.authored

theorem id_eq_key {db : Table} (hsound : Sound Advance db) :
    ∀ w ∈ db.log ++ db.dirty, w.after.id = w.key :=
  hsound.forall_after (P := fun key row => row.id = key) (fun _ _ h => h.1)
    (fun _ _ _ hbefore h => h.1.1.symm.trans hbefore)

theorem committed_id {db : Table} (hsound : Sound Advance db) {id : CommandId}
    {row : RobotCommand} (hrow : db.committed id = some row) : row.id = id := by
  obtain ⟨w, hw, hkey, hafter⟩ := exists_write_of_latest hrow
  rw [← hafter, ← hkey]
  exact id_eq_key hsound w (List.mem_append_left _ hw)

theorem seen_of_committed {db : Table} (hsound : Sound Advance db) {id : CommandId}
    {row : RobotCommand} (hrow : db.committed id = some row) : Seen db row :=
  ⟨row, by rwa [committed_id hsound hrow], sameCommand_refl row⟩

theorem create_local {robot_id : Int} {command : CommandCreate} {db db' : Table} {r : RequestId}
    {state state' : CreateState} {out : List Message} (hsound : Sound Advance db)
    (hlocal : Local db r (.create robot_id command state))
    (hstep : CreateStep robot_id command db r state db' state' out) :
    Effect Advance db r db' ∧ Local db' r (.create robot_id command state') := by
  obtain ⟨hcons, hledger, hauth⟩ := hlocal
  cases hstep with
  | violation cmd new row hnew hrow hcollides => exact ⟨.same, trivial, hledger, hauth⟩
  | insert cmd new hnew hrows hdirty =>
      obtain ⟨id, now, rfl⟩ := hcons
      obtain ⟨hmine, hdone⟩ := hledger
      obtain rfl : new.id = id := (newRow_inserted hnew).id
      have hnone : db.committed new.id = none := by
        cases hrow : db.committed new.id with
        | none => rfl
        | some row =>
            have hcollides := hrows row (mem_rows.mpr ⟨new.id, hrow⟩)
            simp [collides, committed_id hsound hrow] at hcollides
      have hfree : db.locked r new.id = false := by
        refine (locked_eq_false_iff r new.id).mpr fun w hw hkey => hdirty w hw ?_
        have hid := id_eq_key hsound w (List.mem_append_right _ hw)
        simp [collides, hid, hkey]
      have hvisible : db.visible r new.id = none := by rw [visible_of_mine_nil hmine, hnone]
      refine ⟨.write new.id _ hfree (by rw [hvisible]; exact advance_new hnew),
        ⟨new.id, now, rfl⟩, ?_, ?_⟩
      · simp [Ledger, mine_write_self, hmine, hdone, hnew]
      · simp only [mine_write_self, hmine, done_write, hdone, List.nil_append, List.append_nil,
          List.mem_singleton, forall_eq]
        exact ⟨hvisible, now, hnew⟩
  | commit cmd =>
      obtain ⟨id, now, rfl⟩ := hcons
      obtain ⟨hdone, w, hmine, hnew⟩ := hledger
      have hkept := newRow_inserted hnew
      have hw : w ∈ db.mine r := by simp [hmine]
      have hid := id_eq_key hsound w (List.mem_append_right _ (mem_mine.mp hw).1)
      have hkey : w.key = id := hid.symm.trans hkept.id
      have hrow : (db.commit r).committed id = some w.after := by
        rw [committed_commit, Store.visible, hmine, latest_concat, if_pos hkey]
      refine ⟨.commit, ⟨rfl, rfl, _, hrow, hkept.robot_id, hkept.idempotency_key⟩,
        ⟨mine_commit_self db r, w, ?_, hnew, rfl⟩, fun w hw => hauth w (mem_own_of_commit hw)⟩
      simp [hdone, hmine]
  | rollback =>
      exact ⟨.rollback, trivial, ⟨mine_rollback_self db r, hledger.2⟩,
        fun w hw => hauth w (mem_own_of_rollback hw)⟩
  | recovered id row hrow hrobot hkey =>
      refine ⟨.same, ⟨hrobot, hkey, row, ?_, hrobot, ?_⟩, ⟨hledger.1, Or.inl hledger.2⟩, hauth⟩
      · rwa [to_dict, committed_id hsound hrow]
      · rw [← hkey, nullable_varchar_val]
  | unrecovered hnone => exact ⟨.same, trivial, hledger, hauth⟩
  | broadcast payload now delivered =>
      obtain ⟨hmine, w, hdone, hpayload, _⟩ := hledger
      exact ⟨.same, hcons, ⟨hmine, Or.inr ⟨w, hdone, hpayload⟩⟩, hauth⟩

theorem claim_local {robot_id : Int} {db db' : Table} {r : RequestId} {state state' : ClaimState}
    {out : List Message} (hsound : Sound Advance db)
    (hlocal : Local db r (.claim robot_id state))
    (hstep : ClaimStep robot_id db r state db' state' out) :
    Effect Advance db r db' ∧ Local db' r (.claim robot_id state') := by
  obtain ⟨hcons, hledger, hauth⟩ := hlocal
  cases hstep with
  | drained claimed hnone => exact ⟨.same, trivial, hledger, hauth⟩
  | found claimed id record hrow hpending holdest =>
      have hrobot : record.robot_id.val = robot_id := by
        simp only [pendingFor, Bool.and_eq_true, decide_eq_true_eq] at hpending
        exact hpending.1
      exact ⟨.same, ⟨hrobot, seen_of_committed hsound hrow⟩, hledger, hauth⟩
  | stamp claimed record now => exact ⟨.same, hcons, hledger, hauth⟩
  | won claimed record row now hrow hpending hfree =>
      obtain ⟨hrobot, hseen⟩ := hcons
      obtain ⟨hmine, hdone⟩ := hledger
      have hcommitted := visible_of_mine_nil hmine record.id
      have heffect : Effect Advance db r (db.write r record.id (dispatched now row)) :=
        .write record.id _ hfree (by rw [hrow]; exact advance_dispatch now hpending)
      obtain ⟨row', hrow', hsame⟩ := hseen
      have hrows : row' = row := by
        rw [hrow, hrow'] at hcommitted
        exact (Option.some.inj hcommitted).symm
      subst hrows
      refine ⟨heffect, ⟨hrobot, row', hrow', hsame⟩, ⟨hdone, ?_⟩, ?_⟩
      · simp [mine_write_self, hmine]
      · simp only [mine_write_self, hmine, done_write, List.nil_append, List.singleton_append,
          List.forall_mem_cons]
        exact ⟨⟨row', now, hrow, hpending, by rw [← hsame.2.1, hrobot], rfl⟩,
          fun w hw => hauth w (List.mem_append_right _ hw)⟩
  | lost claimed record now hmiss => exact ⟨.same, trivial, hledger, hauth⟩
  | commit claimed record now =>
      obtain ⟨hdone, w, hmine, hkey⟩ := hledger
      refine ⟨.commit, trivial, ⟨mine_commit_self db r, ?_⟩,
        fun w hw => hauth w (mem_own_of_commit hw)⟩
      simp [hdone, hmine, hkey, claimedCommand]
  | rollback claimed =>
      exact ⟨.rollback, trivial, ⟨mine_rollback_self db r, hledger.2⟩,
        fun w hw => hauth w (mem_own_of_rollback hw)⟩
  | broadcast claimed record now delivered => exact ⟨.same, trivial, hledger, hauth⟩

-- The validated branch of `update_status` names a listed transition.
theorem checkTransition_consistent {db : Table} {command_id : CommandId} {r : RequestId}
    {update_data : CommandStatusUpdate} (record : RobotCommand) (now : Instant)
    (hmine : db.mine r = []) (hdone : db.done r = []) :
    Local db r (.update command_id update_data (checkTransition record update_data now)) := by
  have hauth : ∀ state, ∀ w ∈ db.mine r ++ db.done r,
      Authored (.update command_id update_data state) w := by simp [hmine, hdone]
  unfold checkTransition
  split
  · exact ⟨trivial, ⟨hmine, Or.inl hdone⟩, hauth _⟩
  · split
    · exact ⟨trivial, ⟨hmine, hdone⟩, hauth _⟩
    · split
      · exact ⟨trivial, ⟨hmine, hdone⟩, hauth _⟩
      · rename_i new hnew
        have htext := List.find?_some hnew
        exact ⟨⟨List.mem_of_find?_eq_some hnew, of_decide_eq_true htext⟩, ⟨hmine, hdone⟩, hauth _⟩

theorem update_local {command_id : CommandId} {update_data : CommandStatusUpdate} {db db' : Table}
    {r : RequestId} {state state' : UpdateState} {out : List Message} (hsound : Sound Advance db)
    (hlocal : Local db r (.update command_id update_data state))
    (hstep : UpdateStep command_id update_data db r state db' state' out) :
    Effect Advance db r db' ∧ Local db' r (.update command_id update_data state') := by
  obtain ⟨hcons, hledger, hauth⟩ := hlocal
  cases hstep with
  | missing hnone => exact ⟨.same, trivial, hledger, hauth⟩
  | select record hrow =>
      exact ⟨.same, ⟨committed_id hsound hrow, seen_of_committed hsound hrow⟩, hledger, hauth⟩
  | check record now =>
      exact ⟨.same, checkTransition_consistent record now hledger.1 hledger.2⟩
  | matched current new now row values hrow hcurrent hfree hvalues =>
      obtain ⟨hvalid, htext⟩ := hcons
      obtain ⟨hmine, hdone⟩ := hledger
      subst hcurrent
      refine ⟨.write command_id _ hfree (by rw [hrow]; exact advance_transition hvalues hvalid),
        htext, ⟨hdone, ⟨r, command_id, db.visible r command_id, values.apply row⟩, ?_, ?_⟩, ?_⟩
      · simp [mine_write_self, hmine]
      · exact (transition_values_eq_some hvalues row).1
      · simp only [mine_write_self, hmine, done_write, hdone, List.nil_append, List.append_nil,
          List.mem_singleton, forall_eq]
        exact ⟨rfl, row, new, now, values, hrow, hvalid, htext, hvalues, rfl⟩
  | missed current new now hmiss => exact ⟨.same, hcons.2, hledger, hauth⟩
  | commit new now matched =>
      cases matched with
      | false =>
          refine ⟨.commit, hcons, ⟨mine_commit_self db r, ?_⟩,
            fun w hw => hauth w (mem_own_of_commit hw)⟩
          simp [hledger.1, hledger.2]
      | true =>
          obtain ⟨hdone, w, hmine, hnew⟩ := hledger
          refine ⟨.commit, hcons, ⟨mine_commit_self db r, w, ?_, hnew⟩,
            fun w hw => hauth w (mem_own_of_commit hw)⟩
          simp [hdone, hmine]
  | vanished new now matched hnone =>
      cases matched with
      | false => exact ⟨.same, trivial, hledger, hauth⟩
      | true =>
          obtain ⟨hmine, w, hdone, _⟩ := hledger
          have hw : w ∈ db.done r := by simp [hdone]
          obtain ⟨hkey, _⟩ := hauth w (List.mem_append_right _ hw)
          obtain ⟨row, hrow⟩ := latest_isSome_of_mem (mem_done.mp hw).1
          rw [hkey] at hrow
          exact absurd (hrow.symm.trans hnone) (by simp)
  | reread new now matched current hrow =>
      cases matched with
      | false =>
          simp only [afterReread, Bool.false_eq_true, if_false]
          split_ifs with hstatus
          · exact ⟨.same, trivial, ⟨hledger.1, Or.inl hledger.2⟩, hauth⟩
          · exact ⟨.same, trivial, hledger, hauth⟩
      | true =>
          obtain ⟨hmine, w, hdone, _⟩ := hledger
          exact ⟨.same, trivial, ⟨hmine, w, hdone⟩, hauth⟩
  | broadcast payload now delivered =>
      exact ⟨.same, trivial, ⟨hledger.1, Or.inr hledger.2⟩, hauth⟩

theorem afterUpdates_local {db : Table} {r : RequestId} {now : Instant}
    {timed_out : List RobotCommand} (hseen : ∀ cmd ∈ timed_out, Seen db cmd)
    (hdone : db.done r = []) (hmine : (db.mine r).map Write.key = timed_out.map RobotCommand.id)
    (hauth : ∀ w ∈ db.mine r ++ db.done r, Authored (.scan .returned) w) :
    Local db r (.scan (afterUpdates now timed_out)) := by
  unfold afterUpdates
  split
  · rename_i hempty
    rw [List.isEmpty_iff.mp hempty] at hmine
    exact ⟨trivial, List.map_eq_nil_iff.mp hmine, hauth⟩
  · exact ⟨hseen, ⟨hdone, hmine⟩, hauth⟩

theorem nextUpdate_local {db : Table} {r : RequestId} {now started : Instant}
    {expired timed_out : List RobotCommand} (hseen : ∀ cmd ∈ expired ++ timed_out, Seen db cmd)
    (hdone : db.done r = []) (hmine : (db.mine r).map Write.key = timed_out.map RobotCommand.id)
    (hauth : ∀ w ∈ db.mine r ++ db.done r, Authored (.scan .returned) w) :
    Local db r (.scan (nextUpdate now started expired timed_out)) := by
  unfold nextUpdate
  split
  · exact afterUpdates_local (fun cmd hcmd => hseen cmd (List.mem_append_right _ hcmd)) hdone hmine
      hauth
  · exact ⟨hseen, ⟨hdone, hmine⟩, hauth⟩

theorem scan_local {db db' : Table} {r : RequestId} {clock : Instant} {state state' : ScanState}
    {out : List Message} (hsound : Sound Advance db) (hlocal : Local db r (.scan state))
    (hstep : ScanStep db r clock state db' state' out) :
    Effect Advance db r db' ∧ Local db' r (.scan state') := by
  obtain ⟨hcons, hledger, hauth⟩ := hlocal
  cases hstep with
  | select now ids hids =>
      refine ⟨.same, nextUpdate_local (fun cmd hcmd => ?_) hledger.2 (by simp [hledger.1]) hauth⟩
      rw [List.append_nil, List.mem_filterMap] at hcmd
      obtain ⟨id, _, hrow⟩ := hcmd
      exact seen_of_committed hsound hrow
  | skip now started timed_out => exact ⟨.same, afterUpdates_local hcons hledger.1 hledger.2 hauth⟩
  | matched now started cmd rest timed_out row hrow hopen hfree =>
      obtain ⟨hdone, hmine⟩ := hledger
      have heffect : Effect Advance db r (db.write r cmd.id ((timeoutValues cmd started).apply row)) :=
        .write cmd.id _ hfree (by rw [hrow]; exact advance_timeout started _ _ hopen)
      refine ⟨heffect, nextUpdate_local (fun other hother => ?_) hdone ?_ ?_⟩
      · have hmem : other ∈ cmd :: rest ++ timed_out := by
          simp only [List.mem_append, List.mem_cons] at hother ⊢
          tauto
        exact (hcons other hmem).effect hsound heffect
      · simp [mine_write_self, hmine]
      · simp only [mine_write_self, done_write, hdone, List.append_nil, List.mem_append,
          List.mem_singleton]
        rintro w (hw | rfl)
        · exact hauth w (List.mem_append_left _ hw)
        · exact ⟨row, cmd, started, hrow, hopen, rfl⟩
  | missed now started cmd rest timed_out hmiss =>
      exact ⟨.same, nextUpdate_local (fun other hother => hcons other (List.mem_cons_of_mem _ hother))
        hledger.1 hledger.2 hauth⟩
  | commit now timed_out =>
      exact ⟨.commit, trivial, mine_commit_self db r, fun w hw => hauth w (mem_own_of_commit hw)⟩
  | announced now => exact ⟨.same, trivial, hledger, hauth⟩
  | broadcast now cmd rest delivered =>
      refine ⟨.same, ?_⟩
      split <;> exact ⟨trivial, hledger, hauth⟩

theorem begin_local {db : Table} {r : RequestId} (now : Instant) (call : Call)
    (hmine : db.mine r = []) (hdone : db.done r = []) : Local db r (call.begin now) := by
  cases call with
  | create_command cmd_id robot_id command =>
      exact ⟨⟨cmd_id, now, rfl⟩, ⟨hmine, hdone⟩, by simp [hmine, hdone]⟩
  | claim_pending_commands robot_id =>
      exact ⟨trivial, ⟨hmine, by simp [hdone]⟩, by simp [hmine, hdone]⟩
  | update_status command_id update_data =>
      exact ⟨trivial, ⟨hmine, hdone⟩, by simp [hmine, hdone]⟩
  | scan_for_timeouts => exact ⟨trivial, ⟨hmine, hdone⟩, by simp [hmine, hdone]⟩

theorem abort_local {db : Table} {r : RequestId} {request : Request} (hlocal : Local db r request) :
    Local (db.rollback r) r request.abort := by
  have hauth := hlocal.authored
  cases request <;>
    exact ⟨trivial, mine_rollback_self db r, fun w hw => hauth w (mem_own_of_rollback hw)⟩

-- What a step of the system leaves: one request acts on the table, and its own
-- state is the only one to change.
structure Acts (s : System) (r : RequestId) (t : System) : Prop where
  effect : Effect Advance s.db r t.db
  acting : ∃ request, t.requests r = some request ∧ Local t.db r request
  others : ∀ r', r' ≠ r → t.requests r' = s.requests r'

theorem Inv.acts {s t : System} {action : Action} (hinv : Inv s) (h : s.step action = some t) :
    Acts s action.actor t := by
  have hothers : ∀ r request r', r' ≠ r →
      Function.update s.requests r (some request) r' = s.requests r' :=
    fun r request r' hne => Function.update_of_ne hne _ _
  cases system_step h with
  | start r now call hidle =>
      obtain ⟨hmine, hdone⟩ := hinv.idle r hidle
      exact ⟨.same, ⟨_, by simp [Action.actor], begin_local now call hmine hdone⟩, hothers r _⟩
  | create r now choice robot_id command state state' db' out hrequest hstep =>
      obtain ⟨heffect, hlocal⟩ := create_local hinv.sound (hinv.active r _ hrequest) hstep
      exact ⟨heffect, ⟨_, by simp [Action.actor], hlocal⟩, hothers r _⟩
  | claim r now choice robot_id state state' db' out hrequest hstep =>
      obtain ⟨heffect, hlocal⟩ := claim_local hinv.sound (hinv.active r _ hrequest) hstep
      exact ⟨heffect, ⟨_, by simp [Action.actor], hlocal⟩, hothers r _⟩
  | update r now choice command_id update_data state state' db' out hrequest hstep =>
      obtain ⟨heffect, hlocal⟩ := update_local hinv.sound (hinv.active r _ hrequest) hstep
      exact ⟨heffect, ⟨_, by simp [Action.actor], hlocal⟩, hothers r _⟩
  | scan r now choice state state' db' out hrequest hstep =>
      obtain ⟨heffect, hlocal⟩ := scan_local hinv.sound (hinv.active r _ hrequest) hstep
      exact ⟨heffect, ⟨_, by simp [Action.actor], hlocal⟩, hothers r _⟩
  | fail r request hrequest hopen =>
      exact ⟨.rollback, ⟨_, by simp [Action.actor], abort_local (hinv.active r _ hrequest)⟩,
        hothers r _⟩

theorem Inv.step {s t : System} {action : Action} (hinv : Inv s) (h : s.step action = some t) :
    Inv t := by
  obtain ⟨heffect, ⟨request, hrequest, hlocal⟩, hothers⟩ := hinv.acts h
  refine ⟨hinv.sound.effect heffect, fun r' hidle => ?_, fun r' request' hrequest' => ?_⟩
  · by_cases hr : r' = action.actor
    · rw [hr, hrequest] at hidle
      cases hidle
    · rw [hothers r' hr] at hidle
      rw [heffect.mine_of_ne hr, heffect.done_of_ne hr]
      exact hinv.idle r' hidle
  · by_cases hr : r' = action.actor
    · rw [hr, hrequest] at hrequest'
      cases hrequest'
      rwa [hr]
    · rw [hothers r' hr] at hrequest'
      exact (hinv.active r' request' hrequest').effect_of_ne hinv.sound heffect hr

-- A request that has ended keeps its outcome.
theorem System.step_finished {s t : System} {action : Action} (h : s.step action = some t)
    {r : RequestId} {request : Request} (hrequest : s.requests r = some request)
    (hfinished : request.finished = true) : t.requests r = some request := by
  have hother : ∀ r' request', s.requests r' = some request' → request'.finished = false → r ≠ r' := by
    rintro r' request' hrequest' hopen rfl
    rw [hrequest] at hrequest'
    cases hrequest'
    rw [hfinished] at hopen
    cases hopen
  cases system_step h with
  | start r' now call hidle =>
      have hne : r ≠ r' := by
        rintro rfl
        rw [hrequest] at hidle
        cases hidle
      simpa only [Function.update_of_ne hne] using hrequest
  | create r' now choice robot_id command state state' db' out hrequest' hstep =>
      have hne := hother r' _ hrequest' (by cases hstep <;> rfl)
      simpa only [Function.update_of_ne hne] using hrequest
  | claim r' now choice robot_id state state' db' out hrequest' hstep =>
      have hne := hother r' _ hrequest' (by cases hstep <;> rfl)
      simpa only [Function.update_of_ne hne] using hrequest
  | update r' now choice command_id update_data state state' db' out hrequest' hstep =>
      have hne := hother r' _ hrequest' (by cases hstep <;> rfl)
      simpa only [Function.update_of_ne hne] using hrequest
  | scan r' now choice state state' db' out hrequest' hstep =>
      have hne := hother r' _ hrequest' (by cases hstep <;> rfl)
      simpa only [Function.update_of_ne hne] using hrequest
  | fail r' request' hrequest' hopen =>
      have hne := hother r' _ hrequest' hopen
      simpa only [Function.update_of_ne hne] using hrequest

def Action.starts : Action → Option RequestId
  | .start r _ _ => some r
  | _ => none

theorem System.step_idle {s t : System} {action : Action} (h : s.step action = some t)
    {r : RequestId} (hidle : s.requests r = none) (hother : action.starts ≠ some r) :
    t.requests r = none := by
  have hne : ∀ {r' request}, s.requests r' = some request → r ≠ r' := by
    rintro r' request hrequest rfl
    rw [hidle] at hrequest
    cases hrequest
  cases system_step h with
  | start r' now call hidle' =>
      have hr : r ≠ r' := fun heq => hother (by rw [heq]; rfl)
      simpa only [Function.update_of_ne hr] using hidle
  | create r' now choice robot_id command state state' db' out hrequest hstep =>
      simpa only [Function.update_of_ne (hne hrequest)] using hidle
  | claim r' now choice robot_id state state' db' out hrequest hstep =>
      simpa only [Function.update_of_ne (hne hrequest)] using hidle
  | update r' now choice command_id update_data state state' db' out hrequest hstep =>
      simpa only [Function.update_of_ne (hne hrequest)] using hidle
  | scan r' now choice state state' db' out hrequest hstep =>
      simpa only [Function.update_of_ne (hne hrequest)] using hidle
  | fail r' request hrequest hopen =>
      simpa only [Function.update_of_ne (hne hrequest)] using hidle

-- Only the requests that a run starts are there at its end.
theorem Reaches.idle {s t : System} {actions : List Action} (hrun : Reaches s actions t)
    {r : RequestId} (hidle : s.requests r = none) (hother : r ∉ actions.filterMap Action.starts) :
    t.requests r = none := by
  induction actions generalizing s with
  | nil =>
      cases hrun
      exact hidle
  | cons action rest ih =>
      obtain ⟨u, hstep, hrest⟩ := (Runs.exec_cons_iff s t action rest).mp hrun
      have hne : action.starts ≠ some r := by
        intro hstarts
        exact hother (by simp [hstarts])
      refine ih hrest (System.step_idle hstep hidle hne) fun hmem => hother ?_
      rw [List.filterMap_cons]
      cases action.starts with
      | none => exact hmem
      | some r' => exact List.mem_cons_of_mem _ hmem

theorem Reaches.finished {s t : System} {actions : List Action} (hrun : Reaches s actions t)
    {r : RequestId} {request : Request} (hrequest : s.requests r = some request)
    (hfinished : request.finished = true) : t.requests r = some request :=
  Runs.exec_invariant (I := fun u => u.requests r = some request)
    (fun _ _ _ hu hstep => System.step_finished hstep hu hfinished) hrequest hrun

theorem inv_init : Inv System.init where
  sound := sound_empty
  idle := fun _ _ => ⟨rfl, rfl⟩
  active := by simp [System.init]

theorem Inv.run {s t : System} {actions : List Action} (hinv : Inv s) (hrun : Reaches s actions t) :
    Inv t :=
  Runs.exec_invariant (fun _ _ _ hu hstep => Inv.step hu hstep) hinv hrun

theorem Inv.log_subset {s t : System} {actions : List Action} (hinv : Inv s)
    (hrun : Reaches s actions t) : s.db.log ⊆ t.db.log := by
  refine Runs.exec_relation (I := Inv) (R := fun u v => u.db.log ⊆ v.db.log)
    (fun _ => List.Subset.refl _) (fun _ _ _ => List.Subset.trans) (fun u action v hu hstep => ?_)
    hinv hrun
  obtain ⟨more, hmore⟩ := (hu.acts hstep).effect.log_prefix
  exact ⟨hu.step hstep, by rw [hmore]; exact List.subset_append_left _ _⟩

end FleetOps.Command
