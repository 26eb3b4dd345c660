import FleetOps.Command.Lifecycle
import FleetOps.Command.Published

namespace FleetOps.Command

open RowStore

-- `uuid4` draws an id that no row and no pending insert has.
def Unused (s : System) (id : CommandId) : Prop :=
  (∀ w ∈ s.db.log ++ s.db.dirty, w.key ≠ id) ∧
  ∀ r robot_id command cmd, s.requests r = some (.create robot_id command (.insert cmd)) →
    cmd.command_id ≠ id

def FreshIds (s : System) : Action → Prop
  | .start _ _ (.create_command cmd_id _ _) => Unused s cmd_id
  | _ => True

def drawn : Action → Option CommandId
  | .start _ _ (.create_command cmd_id _ _) => some cmd_id
  | _ => none

-- What one step does to the rows: it writes and keeps versions of rows that
-- were there, or inserts a command that collides with none.
inductive TableStep (s t : System) : Prop where
  | traced (hold : ∀ w ∈ t.db.log ++ t.db.dirty,
      ∃ v ∈ s.db.log ++ s.db.dirty, v.key = w.key ∧ SameCommand v.after w.after) : TableStep s t
  | insert (r : RequestId) (robot_id : Int) (command : CommandCreate) (cmd : CommandDict)
      (new : RobotCommand)
      (hbefore : s.requests r = some (.create robot_id command (.insert cmd)))
      (hafter : t.requests r = some (.create robot_id command (.commit cmd)))
      (hid : new.id = cmd.command_id) (hdb : t.db = s.db.write r new.id new)
      (hrows : ∀ row ∈ s.db.rows, collides new row = false)
      (hdirty : ∀ w ∈ s.db.dirty, collides new w.after = false) : TableStep s t

theorem tableStep_of_subset {s t : System}
    (hsub : ∀ w ∈ t.db.log ++ t.db.dirty, w ∈ s.db.log ++ s.db.dirty) : TableStep s t :=
  .traced fun w hw => ⟨w, hsub w hw, rfl, sameCommand_refl w.after⟩

theorem tableStep_same {s t : System} (hdb : t.db = s.db) : TableStep s t :=
  tableStep_of_subset fun w hw => by rwa [← hdb]

theorem tableStep_commit {s t : System} {r : RequestId} (hdb : t.db = s.db.commit r) :
    TableStep s t := by
  refine tableStep_of_subset fun w hw => ?_
  simp only [hdb, Store.commit, List.mem_append, mem_mine, mem_theirs] at hw ⊢
  tauto

theorem tableStep_rollback {s t : System} {r : RequestId} (hdb : t.db = s.db.rollback r) :
    TableStep s t := by
  refine tableStep_of_subset fun w hw => ?_
  simp only [hdb, Store.rollback, List.mem_append, mem_theirs] at hw ⊢
  tauto

theorem tableStep_update {s t : System} {r : RequestId} {key : CommandId}
    {old : RobotCommand} {values : Values} (hold : s.db.visible r key = some old)
    (hdb : t.db = s.db.write r key (values.apply old)) : TableStep s t := by
  obtain ⟨v, hv, hkey, hafter⟩ := exists_write_of_latest hold
  have hmem : v ∈ s.db.log ++ s.db.dirty := by
    simp only [List.mem_append, mem_mine] at hv ⊢
    exact hv.imp_right And.left
  refine .traced fun w hw => ?_
  simp only [hdb, Store.write, ← List.append_assoc] at hw
  rcases List.mem_append.mp hw with hw | hw
  · exact ⟨w, hw, rfl, sameCommand_refl w.after⟩
  · rw [List.mem_singleton.mp hw]
    exact ⟨v, hmem, hkey, hafter ▸ sameCommand_apply values old⟩

theorem tableStep_of_step {s t : System} {action : Action} (hinv : Inv s)
    (h : s.step action = some t) : TableStep s t := by
  cases system_step h with
  | start r now call hidle => exact tableStep_same rfl
  | create r now choice robot_id command state state' db' out hrequest hstep =>
      have hledger := (hinv.active r _ hrequest).ledger
      cases hstep with
      | insert cmd new hnew hrows hdirty =>
          refine .insert r robot_id command cmd new hrequest (by simp) (newRow_inserted hnew).id rfl
            hrows fun w hw => ?_
          by_contra hcollides
          have hmine : w ∈ s.db.mine r :=
            mem_mine.mpr ⟨hw, hdirty w hw (by simpa using hcollides)⟩
          rw [hledger.1] at hmine
          cases hmine
      | commit cmd => exact tableStep_commit rfl
      | rollback => exact tableStep_rollback rfl
      | _ => exact tableStep_same rfl
  | claim r now choice robot_id state state' db' out hrequest hstep =>
      cases hstep with
      | won claimed record row now hrow hpending hfree => exact tableStep_update hrow rfl
      | commit claimed record now => exact tableStep_commit rfl
      | rollback claimed => exact tableStep_rollback rfl
      | _ => exact tableStep_same rfl
  | update r now choice command_id update_data state state' db' out hrequest hstep =>
      cases hstep with
      | matched current new now row values hrow hcurrent hfree hvalues =>
          exact tableStep_update hrow rfl
      | commit new now matched => exact tableStep_commit rfl
      | _ => exact tableStep_same rfl
  | scan r now choice state state' db' out hrequest hstep =>
      cases hstep with
      | matched now started cmd rest timed_out row hrow hopen hfree => exact tableStep_update hrow rfl
      | commit now timed_out => exact tableStep_commit rfl
      | _ => exact tableStep_same rfl
  | fail r request hrequest hopen => exact tableStep_rollback rfl

-- Every id in the table or in a pending insert is one of these.
structure Uses (s : System) (ids : List CommandId) : Prop where
  keys : ∀ w ∈ s.db.log ++ s.db.dirty, w.key ∈ ids
  pending : ∀ r robot_id command cmd,
    s.requests r = some (.create robot_id command (.insert cmd)) → cmd.command_id ∈ ids

-- A create waits for its INSERT only until it has acted.
theorem insert_origin {s t : System} {action : Action} (h : s.step action = some t) {r : RequestId}
    {robot_id : Int} {command : CommandCreate} {cmd : CommandDict}
    (hinsert : t.requests r = some (.create robot_id command (.insert cmd))) :
    s.requests r = some (.create robot_id command (.insert cmd)) ∨
      ∃ now, action = .start r now (.create_command cmd.command_id robot_id command) := by
  have hacted : ∀ {r' request}, t.requests = Function.update s.requests r' (some request) →
      request ≠ .create robot_id command (.insert cmd) →
      s.requests r = some (.create robot_id command (.insert cmd)) := by
    intro r' request hrequests hne
    rw [hrequests] at hinsert
    by_cases hr : r = r'
    · subst hr
      rw [Function.update_self] at hinsert
      exact absurd (Option.some.inj hinsert) hne
    · rwa [Function.update_of_ne hr] at hinsert
  cases system_step h with
  | start r' now call hidle =>
      by_cases hr : r = r'
      · subst hr
        simp only [Function.update_self, Option.some.injEq] at hinsert
        cases call with
        | create_command cmd_id robot_id' command' =>
            cases hinsert
            exact Or.inr ⟨now, rfl⟩
        | _ => cases hinsert
      · exact Or.inl (by simpa only [Function.update_of_ne hr] using hinsert)
  | create r' now choice robot_id' command' state state' db' out hrequest hstep =>
      exact Or.inl (hacted rfl (by cases hstep <;> simp))
  | claim r' now choice robot_id' state state' db' out hrequest hstep =>
      exact Or.inl (hacted rfl (by simp))
  | update r' now choice command_id update_data state state' db' out hrequest hstep =>
      exact Or.inl (hacted rfl (by simp))
  | scan r' now choice state state' db' out hrequest hstep =>
      exact Or.inl (hacted rfl (by simp))
  | fail r' request hrequest hopen =>
      exact Or.inl (hacted rfl (by cases request <;> simp [Request.abort]))

theorem Uses.step {s t : System} {action : Action} {ids : List CommandId} (hinv : Inv s)
    (huses : Uses s ids) (h : s.step action = some t) :
    Uses t (ids ++ (drawn action).toList) where
  keys := by
    intro w hw
    refine List.mem_append_left _ ?_
    cases tableStep_of_step hinv h with
    | traced hold =>
        obtain ⟨v, hv, hkey, _⟩ := hold w hw
        rw [← hkey]
        exact huses.keys v hv
    | insert r robot_id command cmd new hbefore hafter hid hdb hrows hdirty =>
        simp only [hdb, Store.write, ← List.append_assoc] at hw
        rcases List.mem_append.mp hw with hw | hw
        · exact huses.keys w hw
        · rw [List.mem_singleton.mp hw, hid]
          exact huses.pending r robot_id command cmd hbefore
  pending := by
    intro r robot_id command cmd hinsert
    rcases insert_origin h hinsert with hwaiting | ⟨now, rfl⟩
    · exact List.mem_append_left _ (huses.pending r robot_id command cmd hwaiting)
    · simp [drawn]

-- Ids that are drawn once in a run are fresh wherever they are drawn.
theorem along_freshIds {actions : List Action} (hnodup : (actions.filterMap drawn).Nodup) :
    Runs.Along System.step FreshIds System.init actions := by
  suffices h : ∀ (s : System) (ids : List CommandId), Inv s → Uses s ids →
      (∀ id ∈ actions.filterMap drawn, id ∉ ids) → Runs.Along System.step FreshIds s actions from
    h System.init [] inv_init ⟨by simp [System.init, Store.empty], by simp [System.init]⟩ (by simp)
  induction actions with
  | nil => exact fun _ _ _ _ _ => trivial
  | cons action rest ih =>
      intro s ids hinv huses hnew
      have hsplit : (action :: rest).filterMap drawn =
          (drawn action).toList ++ rest.filterMap drawn := by
        rw [List.filterMap_cons]
        cases drawn action <;> rfl
      rw [hsplit] at hnodup hnew
      obtain ⟨_, hrest, hdisjoint⟩ := List.nodup_append'.mp hnodup
      refine ⟨?_, fun t hstep => ih hrest t _ (hinv.step hstep) (huses.step hinv hstep) ?_⟩
      · cases action with
        | start r now call =>
            cases call with
            | create_command cmd_id robot_id command =>
                have hid : cmd_id ∉ ids := hnew cmd_id (by simp [drawn])
                refine ⟨fun w hw hkey => hid (hkey ▸ huses.keys w hw), ?_⟩
                intro r' robot_id' command' cmd hinsert hcmd
                exact hid (hcmd ▸ huses.pending r' robot_id' command' cmd hinsert)
            | _ => trivial
        | _ => trivial
      · intro id hid hmem
        rcases List.mem_append.mp hmem with hmem | hmem
        · exact hnew id (List.mem_append_right _ hid) hmem
        · exact hdisjoint hmem hid

theorem collides_comm (a b : RobotCommand) : collides a b = collides b a := by
  have hkeys : (a.idempotency_key = b.idempotency_key) → a.idempotency_key.isSome =
      b.idempotency_key.isSome := fun h => by rw [h]
  by_cases h : a.idempotency_key = b.idempotency_key
  · simp [collides, h, eq_comm]
  · simp [collides, h, Ne.symm h, eq_comm]

theorem collides_congr {a a' b b' : RobotCommand} (ha : SameCommand a a') (hb : SameCommand b b') :
    collides a b = collides a' b' := by
  obtain ⟨haid, harobot, _, _, hakey, _⟩ := ha
  obtain ⟨hbid, hbrobot, _, _, hbkey, _⟩ := hb
  simp only [collides, haid, harobot, hakey, hbid, hbrobot, hbkey]

-- An insert that collides with no row and no open write collides with no version.
theorem collides_insert {db : Table} (hsound : Sound Advance db) {cmd : RobotCommand}
    (hrows : ∀ row ∈ db.rows, collides cmd row = false)
    (hdirty : ∀ w ∈ db.dirty, collides cmd w.after = false) :
    ∀ w ∈ db.log ++ db.dirty, collides cmd w.after = false := by
  intro w hw
  rcases List.mem_append.mp hw with hw | hw
  · obtain ⟨row, hrow, hsame⟩ := hsound.committed_of_mem sameCommand_refl
      (fun _ _ _ => sameCommand_trans) (fun _ _ _ h => h.1) hw
    rw [collides_congr (sameCommand_refl cmd) hsame]
    exact hrows row (mem_rows.mpr ⟨w.key, hrow⟩)
  · exact hdirty w hw

-- The column keeps the key, but without the blanks that are too many for it.
def shortened (command : CommandCreate) : Bool := command.idempotency_key.any (padded 128)

theorem key_kept {command : CommandCreate} {row : RobotCommand}
    (hkey : nullable (varchar 128) (optional .str command.idempotency_key) =
      some row.idempotency_key) (hplain : shortened command = false) :
    row.idempotency_key.map Subtype.val = command.idempotency_key :=
  (nullable_varchar_eq_some hkey).resolve_right fun hpadded => by
    rw [shortened, hpadded] at hplain
    cases hplain

-- A create that meets a violation lost to a row with what the column makes of
-- its key, which it can find unless that is another key.
def Recovers (db : Table) (r : RequestId) (robot_id : Int) (command : CommandCreate) :
    CreateState → Prop
  | .rollback | .recover => command.idempotency_key.isSome ∧ ∃ id row,
      db.committed id = some row ∧ row.robot_id.val = robot_id ∧
        nullable (varchar 128) (optional .str command.idempotency_key) = some row.idempotency_key
  | .returned _ => command.idempotency_key = none → db.done r ≠ []
  | .raised error => error = .database ∨ shortened command = true
  | _ => True

-- No two commands share an id or a robot and key, and no pending insert has an
-- id that is in use.
structure Distinct (s : System) : Prop where
  pairs : ∀ w ∈ s.db.log ++ s.db.dirty, ∀ v ∈ s.db.log ++ s.db.dirty, w.key ≠ v.key →
    collides w.after v.after = false
  unused : ∀ r robot_id command cmd,
    s.requests r = some (.create robot_id command (.insert cmd)) →
      ∀ w ∈ s.db.log ++ s.db.dirty, w.key ≠ cmd.command_id
  separate : ∀ r r' robot_id robot_id' command command' cmd cmd', r ≠ r' →
    s.requests r = some (.create robot_id command (.insert cmd)) →
    s.requests r' = some (.create robot_id' command' (.insert cmd')) →
      cmd.command_id ≠ cmd'.command_id
  recovers : ∀ r robot_id command state,
    s.requests r = some (.create robot_id command state) → Recovers s.db r robot_id command state

theorem Distinct.pairs_step {s t : System} (hinv : Inv s) (hdistinct : Distinct s)
    (hstep : TableStep s t) : ∀ w ∈ t.db.log ++ t.db.dirty, ∀ v ∈ t.db.log ++ t.db.dirty,
      w.key ≠ v.key → collides w.after v.after = false := by
  intro w hw v hv hne
  cases hstep with
  | traced hold =>
      obtain ⟨w₀, hw₀, hwkey, hwsame⟩ := hold w hw
      obtain ⟨v₀, hv₀, hvkey, hvsame⟩ := hold v hv
      rw [← collides_congr hwsame hvsame]
      exact hdistinct.pairs w₀ hw₀ v₀ hv₀ (by rwa [hwkey, hvkey])
  | insert r robot_id command cmd new hbefore hafter hid hdb hrows hdirty =>
      have hnew := collides_insert hinv.sound hrows hdirty
      simp only [hdb, Store.write, ← List.append_assoc] at hw hv
      rcases List.mem_append.mp hw with hw | hw <;> rcases List.mem_append.mp hv with hv | hv
      · exact hdistinct.pairs w hw v hv hne
      · rw [List.mem_singleton.mp hv, collides_comm]
        exact hnew w hw
      · rw [List.mem_singleton.mp hw]
        exact hnew v hv
      · rw [List.mem_singleton.mp hw, List.mem_singleton.mp hv] at hne
        exact absurd rfl hne

theorem Distinct.unused_step {s t : System} {action : Action} (hdistinct : Distinct s)
    (hfresh : FreshIds s action) (h : s.step action = some t) (hstep : TableStep s t)
    {r : RequestId} {robot_id : Int} {command : CommandCreate} {cmd : CommandDict}
    (hinsert : t.requests r = some (.create robot_id command (.insert cmd))) :
    ∀ w ∈ t.db.log ++ t.db.dirty, w.key ≠ cmd.command_id := by
  rcases insert_origin h hinsert with hwaiting | ⟨now, rfl⟩
  · intro w hw
    cases hstep with
    | traced hold =>
        obtain ⟨v, hv, hkey, _⟩ := hold w hw
        rw [← hkey]
        exact hdistinct.unused r robot_id command cmd hwaiting v hv
    | insert r' robot_id' command' cmd' new hbefore hafter hid hdb hrows hdirty =>
        have hne : r' ≠ r := by
          rintro rfl
          rw [hafter] at hinsert
          cases hinsert
        simp only [hdb, Store.write, ← List.append_assoc] at hw
        rcases List.mem_append.mp hw with hw | hw
        · exact hdistinct.unused r robot_id command cmd hwaiting w hw
        · rw [List.mem_singleton.mp hw, hid]
          exact hdistinct.separate r' r _ _ _ _ _ _ hne hbefore hwaiting
  · cases system_step h with
    | start _ _ _ hidle => exact hfresh.1

theorem Distinct.separate_step {s t : System} {action : Action} (hdistinct : Distinct s)
    (hfresh : FreshIds s action) (h : s.step action = some t) {r r' : RequestId}
    {robot_id robot_id' : Int} {command command' : CommandCreate} {cmd cmd' : CommandDict}
    (hne : r ≠ r') (hinsert : t.requests r = some (.create robot_id command (.insert cmd)))
    (hinsert' : t.requests r' = some (.create robot_id' command' (.insert cmd'))) :
    cmd.command_id ≠ cmd'.command_id := by
  rcases insert_origin h hinsert with hwaiting | ⟨now, rfl⟩
  · rcases insert_origin h hinsert' with hwaiting' | ⟨now', rfl⟩
    · exact hdistinct.separate r r' _ _ _ _ _ _ hne hwaiting hwaiting'
    · exact hfresh.2 r robot_id command cmd hwaiting
  · rcases insert_origin h hinsert' with hwaiting' | ⟨now', hstart⟩
    · exact (hfresh.2 r' robot_id' command' cmd' hwaiting').symm
    · injection hstart with hr
      exact absurd hr hne

theorem Recovers.effect {db db' : Table} {r r' : RequestId} {robot_id : Int}
    {command : CommandCreate} {state : CreateState} (hsound : Sound Advance db)
    (heffect : Effect Advance db r' db') (hne : r ≠ r')
    (h : Recovers db r robot_id command state) : Recovers db' r robot_id command state := by
  have hrow : (∃ id row, db.committed id = some row ∧ row.robot_id.val = robot_id ∧
      nullable (varchar 128) (optional .str command.idempotency_key) = some row.idempotency_key) →
      ∃ id row, db'.committed id = some row ∧ row.robot_id.val = robot_id ∧
        nullable (varchar 128) (optional .str command.idempotency_key) =
          some row.idempotency_key := by
    rintro ⟨id, row, hrow, hrobot, hkey⟩
    obtain ⟨row', hrow', hsame⟩ := hsound.committed_effect heffect sameCommand_refl
      (fun _ _ _ => sameCommand_trans) (fun _ _ _ h => h.1) hrow
    obtain ⟨_, hrobot', _, _, hkey', _⟩ := hsame
    exact ⟨id, row', hrow', by rw [← hrobot', hrobot], by rw [hkey, hkey']⟩
  cases state with
  | rollback => exact ⟨h.1, hrow h.2⟩
  | recover => exact ⟨h.1, hrow h.2⟩
  | returned payload => exact fun hnone => by rw [heffect.done_of_ne hne]; exact h hnone
  | _ => exact h

theorem create_recovers {s : System} (hinv : Inv s) (hdistinct : Distinct s) {robot_id : Int}
    {command : CommandCreate} {db' : Table} {r : RequestId} {state state' : CreateState}
    {out : List Message} (hrequest : s.requests r = some (.create robot_id command state))
    (hstep : CreateStep robot_id command s.db r state db' state' out) :
    Recovers db' r robot_id command state' := by
  have hrecovers := hdistinct.recovers r robot_id command state hrequest
  obtain ⟨hcons, hledger, _⟩ := hinv.active r _ hrequest
  cases hstep with
  | violation cmd new row hnew hrow hcollides =>
      obtain ⟨id, now, rfl⟩ := hcons
      obtain ⟨key, hkey⟩ := mem_rows.mp hrow
      have hkept := newRow_inserted hnew
      have hid : new.id ≠ row.id := by
        rw [committed_id hinv.sound hkey, hkept.id]
        obtain ⟨w, hw, hwkey, _⟩ := exists_write_of_latest hkey
        rw [← hwkey]
        exact (hdistinct.unused r robot_id command _ hrequest w (List.mem_append_left _ hw)).symm
      simp only [collides, hid, decide_false, Bool.false_or, Bool.and_eq_true,
        decide_eq_true_eq] at hcollides
      obtain ⟨⟨hrobot, hsome⟩, hsame⟩ := hcollides
      have hcolumn : nullable (varchar 128) (optional .str command.idempotency_key) =
          some new.idempotency_key := hkept.idempotency_key
      exact ⟨by rw [← isSome_of_nullable_varchar hcolumn, hsome], key, row, hkey,
        by rw [← hrobot]; exact hkept.robot_id, by rw [hcolumn, hsame]⟩
  | insert cmd new hnew hrows hdirty => trivial
  | commit cmd => trivial
  | rollback => exact hrecovers
  | recovered id row hrow hrobot hkey =>
      intro hnone
      have hsome := hrecovers.1
      rw [hnone] at hsome
      cases hsome
  | unrecovered hnone =>
      obtain ⟨_, id, row, hrow, hrobot, hkey⟩ := hrecovers
      exact Or.inr ((nullable_varchar_eq_some hkey).resolve_left
        (hnone row (mem_rows.mpr ⟨id, hrow⟩) hrobot))
  | broadcast payload now delivered =>
      obtain ⟨_, w, hdone, _⟩ := hledger
      intro _
      simp [hdone]

theorem Distinct.recovers_acted {s : System} (hinv : Inv s) (hdistinct : Distinct s) {db' : Table}
    {r' : RequestId} {request : Request} (heffect : Effect Advance s.db r' db')
    (hacting : ∀ robot_id command state, request = .create robot_id command state →
      Recovers db' r' robot_id command state) {r : RequestId} {robot_id : Int}
    {command : CommandCreate} {state : CreateState}
    (hrequest : Function.update s.requests r' (some request) r =
      some (.create robot_id command state)) : Recovers db' r robot_id command state := by
  by_cases hr : r = r'
  · subst hr
    rw [Function.update_self] at hrequest
    exact hacting robot_id command state (Option.some.inj hrequest)
  · rw [Function.update_of_ne hr] at hrequest
    exact (hdistinct.recovers r robot_id command state hrequest).effect hinv.sound heffect hr

theorem Distinct.recovers_step {s t : System} {action : Action} (hinv : Inv s)
    (hdistinct : Distinct s) (h : s.step action = some t) {r : RequestId} {robot_id : Int}
    {command : CommandCreate} {state : CreateState}
    (hrequest : t.requests r = some (.create robot_id command state)) :
    Recovers t.db r robot_id command state := by
  cases system_step h with
  | start r' now call hidle =>
      refine hdistinct.recovers_acted hinv .same (fun robot_id' command' state' heq => ?_) hrequest
      cases call <;> cases heq
      trivial
  | create r' now choice robot_id' command' state₀ state' db' out hrequest' hstep =>
      obtain ⟨heffect, _⟩ := create_local hinv.sound (hinv.active r' _ hrequest') hstep
      refine hdistinct.recovers_acted hinv heffect (fun _ _ _ heq => ?_) hrequest
      cases heq
      exact create_recovers hinv hdistinct hrequest' hstep
  | claim r' now choice robot_id' state₀ state' db' out hrequest' hstep =>
      obtain ⟨heffect, _⟩ := claim_local hinv.sound (hinv.active r' _ hrequest') hstep
      exact hdistinct.recovers_acted hinv heffect (by simp) hrequest
  | update r' now choice command_id update_data state₀ state' db' out hrequest' hstep =>
      obtain ⟨heffect, _⟩ := update_local hinv.sound (hinv.active r' _ hrequest') hstep
      exact hdistinct.recovers_acted hinv heffect (by simp) hrequest
  | scan r' now choice state₀ state' db' out hrequest' hstep =>
      obtain ⟨heffect, _⟩ := scan_local hinv.sound (hinv.active r' _ hrequest') hstep
      exact hdistinct.recovers_acted hinv heffect (by simp) hrequest
  | fail r' request hrequest' hopen =>
      refine hdistinct.recovers_acted hinv .rollback (fun _ _ _ heq => ?_) hrequest
      cases request <;> cases heq
      exact Or.inl rfl

theorem Distinct.step {s t : System} {action : Action} (hinv : Inv s) (hdistinct : Distinct s)
    (hfresh : FreshIds s action) (h : s.step action = some t) : Distinct t :=
  have hstep := tableStep_of_step hinv h
  { pairs := hdistinct.pairs_step hinv hstep
    unused := fun _ _ _ _ hinsert => hdistinct.unused_step hfresh h hstep hinsert
    separate := fun _ _ _ _ _ _ _ _ hne hinsert hinsert' =>
      hdistinct.separate_step hfresh h hne hinsert hinsert'
    recovers := fun _ _ _ _ hrequest => hdistinct.recovers_step hinv h hrequest }

theorem distinct_init : Distinct System.init where
  pairs := by simp [System.init, Store.empty]
  unused := by simp [System.init]
  separate := by simp [System.init]
  recovers := by simp [System.init]

theorem distinct_run {actions : List Action} {s : System} (hs : Reaches System.init actions s)
    (hfresh : Runs.Along System.step FreshIds System.init actions) : Distinct s := by
  have h : Inv s ∧ Distinct s := Runs.exec_along_invariant (I := fun u => Inv u ∧ Distinct u)
    (fun u action v hc hu hstep => ⟨hu.1.step hstep, hu.2.step hu.1 hc hstep⟩) hfresh
    ⟨inv_init, distinct_init⟩ hs
  exact h.2

-- The rows of one robot and key are one row.
theorem Distinct.row_unique {s : System} (hdistinct : Distinct s) {id id' : CommandId}
    {row row' : RobotCommand} (hrow : s.db.committed id = some row)
    (hrow' : s.db.committed id' = some row') (hrobot : row.robot_id = row'.robot_id)
    (hkey : row.idempotency_key = row'.idempotency_key) (hsome : row.idempotency_key.isSome) :
    id = id' := by
  obtain ⟨w, hw, rfl, rfl⟩ := exists_write_of_latest hrow
  obtain ⟨v, hv, rfl, rfl⟩ := exists_write_of_latest hrow'
  by_contra hne
  have hfree := hdistinct.pairs w (List.mem_append_left _ hw) v (List.mem_append_left _ hv) hne
  simp [collides, hrobot, ← hkey, hsome] at hfree

-- The insert of a committed row was made by a create for its robot, under a key
-- that the column makes the row's of.
theorem inserted_by {s : System} (hinv : Inv s) {id : CommandId} {row : RobotCommand}
    (hrow : s.db.committed id = some row) : ∃ w ∈ s.db.log, w.key = id ∧ w.before = none ∧
      SameCommand w.after row ∧ ∃ command state,
        s.requests w.writer = some (.create row.robot_id.val command state) ∧
          nullable (varchar 128) (optional .str command.idempotency_key) =
            some row.idempotency_key := by
  obtain ⟨w, ws, hhistory, hbefore, hinsert, _⟩ := history_cases hinv.sound hrow
  have hmem : w ∈ s.db.history id := by simp [hhistory]
  obtain ⟨hw, rfl⟩ := mem_lineage.mp hmem
  obtain ⟨row', hrow', hsame⟩ := hinv.sound.committed_of_mem sameCommand_refl
    (fun _ _ _ => sameCommand_trans) (fun _ _ _ h => h.1) hw
  rw [hrow] at hrow'
  cases hrow'
  refine ⟨w, hw, rfl, hbefore, hsame, ?_⟩
  have hdone : w ∈ s.db.done w.writer := mem_done.mpr ⟨hw, rfl⟩
  cases hrequest : s.requests w.writer with
  | none =>
      rw [(hinv.idle w.writer hrequest).2] at hdone
      cases hdone
  | some request =>
      have hauth := (hinv.active w.writer request hrequest).authored w (List.mem_append_right _ hdone)
      cases request with
      | create robot_id command state =>
          obtain ⟨_, now, hnew⟩ := hauth
          have hkept := newRow_inserted hnew
          obtain ⟨_, hrobot, _, _, hkey, _⟩ := hsame
          rw [← hrobot, ← hkey]
          exact ⟨command, state, by rw [hkept.robot_id]; rfl, hkept.idempotency_key⟩
      | claim robot_id state =>
          obtain ⟨old, _, hold, _⟩ := hauth
          rw [hbefore] at hold
          cases hold
      | update command_id update_data state =>
          obtain ⟨_, old, _, _, _, hold, _⟩ := hauth
          rw [hbefore] at hold
          cases hold
      | scan state =>
          obtain ⟨old, _, _, hold, _⟩ := hauth
          rw [hbefore] at hold
          cases hold

theorem insert_unique {s : System} (hinv : Inv s) {v w : RowWrite} (hv : v ∈ s.db.log)
    (hw : w ∈ s.db.log) (hkey : v.key = w.key) (hvnew : v.before = none) (hwnew : w.before = none) :
    v = w := by
  have hpending : ∀ u ∈ s.db.log, u.before = none → u.after.status = .PENDING := by
    intro u hu hbefore
    have hguard := hinv.sound.guard u (List.mem_append_left _ hu)
    rw [hbefore] at hguard
    exact hguard.2.1
  exact eq_of_rank hinv.sound hv hw hkey (by rw [hpending v hv hvnew, hpending w hw hwnew])

-- A create without a key answers with the row it inserted itself.
theorem own_insert {s : System} (hinv : Inv s) (hdistinct : Distinct s) {r : RequestId}
    {robot_id : Int} {command : CommandCreate} {payload : CommandDict}
    (hreturned : s.requests r = some (.create robot_id command (.returned payload)))
    (hnull : command.idempotency_key = none) :
    ∃ w ∈ s.db.log, w.writer = r ∧ w.key = payload.command_id ∧ w.before = none := by
  obtain ⟨_, hledger, hauth⟩ := hinv.active r _ hreturned
  obtain ⟨_, hdone | ⟨w, hdone, hpayload⟩⟩ := hledger
  · exact absurd hdone (hdistinct.recovers r robot_id command _ hreturned hnull)
  · have hw : w ∈ s.db.done r := by simp [hdone]
    obtain ⟨hbefore, _⟩ := hauth w (List.mem_append_right _ hw)
    obtain ⟨hlog, hwriter⟩ := mem_done.mp hw
    have hid := id_eq_key hinv.sound w (List.mem_append_left _ hlog)
    exact ⟨w, hlog, hwriter, hid.symm.trans (newRow_inserted hpayload).id, hbefore⟩

-- Two creates whose keys are kept as they are answer with one command exactly
-- when they name one robot and one key.
theorem same_id_iff {s : System} (hinv : Inv s) (hdistinct : Distinct s) {r r' : RequestId}
    {robot_id robot_id' : Int} {command command' : CommandCreate} {payload payload' : CommandDict}
    (hne : r ≠ r') (hreturned : s.requests r = some (.create robot_id command (.returned payload)))
    (hreturned' : s.requests r' = some (.create robot_id' command' (.returned payload')))
    (hplain : shortened command = false) (hplain' : shortened command' = false) :
    payload.command_id = payload'.command_id ↔ robot_id = robot_id' ∧
      command.idempotency_key = command'.idempotency_key ∧ command.idempotency_key.isSome := by
  obtain ⟨_, _, row, hrow, rfl, hkey⟩ := (hinv.active r _ hreturned).consistent
  obtain ⟨_, _, row', hrow', rfl, hkey'⟩ := (hinv.active r' _ hreturned').consistent
  constructor
  · intro hid
    rw [hid, hrow'] at hrow
    cases hrow
    have hkeys : command.idempotency_key = command'.idempotency_key := by
      rw [← key_kept hkey hplain, key_kept hkey' hplain']
    refine ⟨rfl, hkeys, ?_⟩
    by_contra hnone
    have hnull : command.idempotency_key = none := by simpa using hnone
    obtain ⟨w, hw, hwriter, hwkey, hwnew⟩ := own_insert hinv hdistinct hreturned hnull
    obtain ⟨v, hv, hwriter', hvkey, hvnew⟩ :=
      own_insert hinv hdistinct hreturned' (hkeys ▸ hnull)
    have hwv : w = v := insert_unique hinv hw hv (by rw [hwkey, hvkey, hid]) hwnew hvnew
    exact hne (by rw [← hwriter, ← hwriter', hwv])
  · rintro ⟨hrobot, hkeys, hsome⟩
    rw [hkeys, hkey'] at hkey
    have hcolumn : row.idempotency_key = row'.idempotency_key := (Option.some.inj hkey).symm
    refine hdistinct.row_unique hrow hrow' (Subtype.ext hrobot) hcolumn ?_
    rw [hcolumn, isSome_of_nullable_varchar hkey', ← hkeys, hsome]

def announces (robot_id : Int) (key : String) (p : RequestId × Message) : Bool :=
  decide (p.2.type = "COMMAND_CREATED") && p.2.rest.any fun d =>
    decide (d.robot_id = robot_id ∧ d.idempotency_key = some key)

-- The COMMAND_CREATED broadcasts for one robot and key.
def creations (s : System) (robot_id : Int) (key : String) : List (RequestId × Message) :=
  s.published.filter (announces robot_id key)

theorem mem_sent {s : System} {p : RequestId × Message} : p ∈ s.published → p.2 ∈ s.sent p.1 :=
  fun hp => List.mem_map.mpr ⟨p, List.mem_filter.mpr ⟨hp, by simp⟩, rfl⟩

-- A COMMAND_CREATED message is the one its sender owes for its committed insert.
theorem created_sender {s : System} (hinv : Inv s) (hannounced : Announced s)
    {p : RequestId × Message} (hp : p ∈ s.published) (htype : p.2.type = "COMMAND_CREATED") :
    ∃ w payload, s.db.done p.1 = [w] ∧ s.sent p.1 = [createdMessage payload] ∧
      p.2 = createdMessage payload ∧ w.before = none ∧ inserted payload = some w.after := by
  have hsent := mem_sent hp
  cases hrequest : s.requests p.1 with
  | none =>
      rw [hannounced.idle p.1 hrequest] at hsent
      cases hsent
  | some request =>
      have hsends := hannounced.active p.1 request hrequest
      have hother : (∀ m ∈ s.sent p.1, m.type = "COMMAND_UPDATE") → False := by
        intro htypes
        rw [htypes p.2 hsent] at htype
        exact absurd htype (by decide)
      cases request with
      | create robot_id command state =>
          have hlocal := hinv.active p.1 _ hrequest
          have hempty : s.sent p.1 ≠ [] := List.ne_nil_of_mem hsent
          cases state with
          | returned payload =>
              rcases hsends with ⟨_, hnil⟩ | ⟨w, hdone, hone⟩
              · exact absurd hnil hempty
              · have hw : w ∈ s.db.mine p.1 ++ s.db.done p.1 := by simp [hdone]
                obtain ⟨_, hnone | ⟨v, hone', hpayload⟩⟩ := hlocal.ledger
                · simp [hnone] at hdone
                · obtain rfl : v = w := by simpa [hone'] using hdone
                  rw [hone] at hsent
                  exact ⟨v, payload, hdone, hone, List.mem_singleton.mp hsent,
                    (hlocal.authored v hw).1, hpayload⟩
          | commit cmd => exact absurd hsends hempty
          | broadcast payload now => exact absurd hsends hempty
          | _ => exact absurd hsends.2 hempty
      | claim robot_id state => exact (hother hsends).elim
      | update command_id update_data state =>
          refine (hother ?_).elim
          cases state with
          | returned payload =>
              rcases hsends with ⟨_, hnil⟩ | ⟨w, now, _, hone⟩
              · simp [hnil]
              · simp [hone, dictMessage]
          | _ =>
              have hnil : s.sent p.1 = [] := hsends
              simp [hnil]
      | scan state => exact (hother hsends).elim

theorem announces_pair {robot_id : Int} {key : String} {p : RequestId × Message}
    {payload : CommandDict} (hp : announces robot_id key p = true)
    (hmessage : p.2 = createdMessage payload) :
    payload.robot_id = robot_id ∧ payload.idempotency_key = some key := by
  simp only [announces, Bool.and_eq_true, Option.any_eq_true, decide_eq_true_eq] at hp
  obtain ⟨_, d, hrest, hd⟩ := hp
  rw [hmessage] at hrest
  cases hrest
  exact hd

theorem creations_le_one {s : System} (hinv : Inv s) (hdistinct : Distinct s)
    (hannounced : Announced s) (robot_id : Int) (key : String) :
    (creations s robot_id key).length ≤ 1 := by
  have hsender : ∀ p ∈ creations s robot_id key, ∃ w, s.db.done p.1 = [w] ∧
      (s.sent p.1).length = 1 ∧ w.before = none ∧ w.after.robot_id.val = robot_id ∧
        nullable (varchar 128) (optional .str (some key)) = some w.after.idempotency_key := by
    intro p hp
    obtain ⟨hp, hpair⟩ := List.mem_filter.mp hp
    have htype : p.2.type = "COMMAND_CREATED" := by
      simp only [announces, Bool.and_eq_true, decide_eq_true_eq] at hpair
      exact hpair.1
    obtain ⟨w, payload, hdone, hsent, hmessage, hnew, hpayload⟩ :=
      created_sender hinv hannounced hp htype
    obtain ⟨hrobot, hkey⟩ := announces_pair hpair hmessage
    have hkept := newRow_inserted hpayload
    exact ⟨w, hdone, by rw [hsent]; rfl, hnew, hkept.robot_id.trans hrobot,
      hkey ▸ hkept.idempotency_key⟩
  -- One request sent all of them, and no request sends two.
  have hsame : ∀ p ∈ creations s robot_id key, ∀ q ∈ creations s robot_id key, p.1 = q.1 := by
    intro p hp q hq
    obtain ⟨w, hw, _, hwnew, hwrobot, hwkey⟩ := hsender p hp
    obtain ⟨v, hv, _, hvnew, hvrobot, hvkey⟩ := hsender q hq
    obtain ⟨hwlog, hwwriter⟩ := mem_done.mp (by simp [hw] : w ∈ s.db.done p.1)
    obtain ⟨hvlog, hvwriter⟩ := mem_done.mp (by simp [hv] : v ∈ s.db.done q.1)
    have hrobots : w.after.robot_id = v.after.robot_id := Subtype.ext (hwrobot.trans hvrobot.symm)
    have hkeys : w.after.idempotency_key = v.after.idempotency_key :=
      Option.some.inj (hwkey.symm.trans hvkey)
    have hsome : v.after.idempotency_key.isSome = true := isSome_of_nullable_varchar hvkey
    have hkey : w.key = v.key := by
      by_contra hne
      have hfree := hdistinct.pairs w (List.mem_append_left _ hwlog) v
        (List.mem_append_left _ hvlog) hne
      simp [collides, hrobots, hkeys, hsome] at hfree
    rw [← hwwriter, ← hvwriter, insert_unique hinv hwlog hvlog hkey hwnew hvnew]
  cases hlist : creations s robot_id key with
  | nil => simp
  | cons p rest =>
      rw [← hlist]
      have hp : p ∈ creations s robot_id key := by simp [hlist]
      obtain ⟨w, _, hsent, _⟩ := hsender p hp
      have hsub : (creations s robot_id key).Sublist
          (s.published.filter fun q => decide (q.1 = p.1)) := by
        have hall : (creations s robot_id key).filter (fun q => decide (q.1 = p.1)) =
            creations s robot_id key :=
          List.filter_eq_self.mpr fun q hq => by simpa using hsame q hq p hp
        rw [← hall]
        exact List.filter_sublist.filter _
      have hlength : (s.published.filter fun q => decide (q.1 = p.1)).length =
          (s.sent p.1).length := by
        rw [System.sent, List.length_map]
      have hle := hsub.length_le
      rw [hlength, hsent] at hle
      exact hle

-- Once every create for the pair has ended, a committed row has been announced.
theorem creations_ne_nil {s : System} (hinv : Inv s) (hannounced : Announced s)
    (hplain : ∀ r robot_id command state,
      s.requests r = some (.create robot_id command state) → shortened command = false)
    {key : String} {id : CommandId} {row : RobotCommand} (hrow : s.db.committed id = some row)
    (hkey : row.idempotency_key.map Subtype.val = some key)
    (hended : ∀ r command state, s.requests r = some (.create row.robot_id.val command state) →
      command.idempotency_key = some key →
      (Request.create row.robot_id.val command state).finished = true) :
    creations s row.robot_id.val key ≠ [] := by
  obtain ⟨w, hw, _, _, _, command, state, hrequest, hcolumn⟩ := inserted_by hinv hrow
  have hcommand : command.idempotency_key = some key := by
    rw [← key_kept hcolumn (hplain _ _ _ _ hrequest), hkey]
  have hdone : w ∈ s.db.done w.writer := mem_done.mpr ⟨hw, rfl⟩
  have hfinished := hended w.writer command state hrequest hcommand
  have hsends := hannounced.active w.writer _ hrequest
  cases state with
  | returned payload =>
      obtain ⟨hrobot, hnamed, _⟩ := (hinv.active w.writer _ hrequest).consistent
      rcases hsends with ⟨hnil, _⟩ | ⟨_, _, hone⟩
      · simp [hnil] at hdone
      · have hsent : createdMessage payload ∈ s.sent w.writer := by simp [hone]
        obtain ⟨p, hp, hmessage⟩ := List.mem_map.mp hsent
        obtain ⟨hp, _⟩ := List.mem_filter.mp hp
        refine List.ne_nil_of_mem (List.mem_filter.mpr ⟨hp, ?_⟩ :
          p ∈ creations s row.robot_id.val key)
        simp [announces, hmessage, createdMessage, dictMessage, hrobot, hnamed, hcommand]
  | raised error =>
      rw [hsends.1] at hdone
      cases hdone
  | _ => cases hfinished

-- A create that is given a key which its column shortens.
def shortens : Action → Bool
  | .start _ _ (.create_command _ _ command) => shortened command
  | _ => false

-- A create under way has the key it was started with.
theorem create_origin {s t : System} {action : Action} (h : s.step action = some t) {r : RequestId}
    {robot_id : Int} {command : CommandCreate} {state : CreateState}
    (hcreate : t.requests r = some (.create robot_id command state)) :
    (∃ before, s.requests r = some (.create robot_id command before)) ∨
      ∃ now cmd_id, action = .start r now (.create_command cmd_id robot_id command) := by
  have hacted : ∀ {r' request before}, t.requests = Function.update s.requests r' (some request) →
      s.requests r' = some before →
      (request = .create robot_id command state → ∃ state₀, before = .create robot_id command state₀) →
      ∃ state₀, s.requests r = some (.create robot_id command state₀) := by
    intro r' request before hrequests hbefore hsame
    rw [hrequests] at hcreate
    by_cases hr : r = r'
    · subst hr
      rw [Function.update_self] at hcreate
      obtain ⟨state₀, rfl⟩ := hsame (Option.some.inj hcreate)
      exact ⟨state₀, hbefore⟩
    · rw [Function.update_of_ne hr] at hcreate
      exact ⟨state, hcreate⟩
  cases system_step h with
  | start r' now call hidle =>
      by_cases hr : r = r'
      · subst hr
        simp only [Function.update_self, Option.some.injEq] at hcreate
        cases call with
        | create_command cmd_id robot_id' command' =>
            cases hcreate
            exact Or.inr ⟨now, cmd_id, rfl⟩
        | _ => cases hcreate
      · exact Or.inl ⟨state, by simpa only [Function.update_of_ne hr] using hcreate⟩
  | create r' now choice robot_id' command' state₀ state' db' out hrequest hstep =>
      refine Or.inl (hacted rfl hrequest fun heq => ?_)
      cases heq
      exact ⟨state₀, rfl⟩
  | claim r' now choice robot_id' state₀ state' db' out hrequest hstep =>
      exact Or.inl (hacted rfl hrequest (by simp))
  | update r' now choice command_id update_data state₀ state' db' out hrequest hstep =>
      exact Or.inl (hacted rfl hrequest (by simp))
  | scan r' now choice state₀ state' db' out hrequest hstep =>
      exact Or.inl (hacted rfl hrequest (by simp))
  | fail r' request hrequest hopen =>
      refine Or.inl (hacted rfl hrequest fun heq => ?_)
      cases request <;> cases heq
      exact ⟨_, rfl⟩

theorem keys_kept {actions : List Action} {s : System} (hs : Reaches System.init actions s)
    (hkeys : ∀ action ∈ actions, shortens action = false) : ∀ r robot_id command state,
      s.requests r = some (.create robot_id command state) → shortened command = false := by
  refine Runs.exec_invariant_of_mem (A := fun action => shortens action = false)
    (I := fun u => ∀ r robot_id command state,
      u.requests r = some (.create robot_id command state) → shortened command = false)
    (fun u action v haction hu hstep r robot_id command state hcreate => ?_)
    hkeys (fun _ _ _ _ h => by cases h) hs
  rcases create_origin hstep hcreate with ⟨before, hbefore⟩ | ⟨now, cmd_id, rfl⟩
  · exact hu r robot_id command before hbefore
  · exact haction

-- Creation is idempotent for a robot and a key, and only for these, however
-- the calls overlap with one another and with claims, updates and scans, as long
-- as no key is one that its column shortens.
theorem create_idempotent {actions : List Action} {s : System}
    (hs : Reaches System.init actions s) (huuid : (actions.filterMap drawn).Nodup)
    (hkeys : ∀ action ∈ actions, shortens action = false) :
    (∀ r r' robot_id robot_id' command command' payload payload', r ≠ r' →
      s.requests r = some (.create robot_id command (.returned payload)) →
      s.requests r' = some (.create robot_id' command' (.returned payload')) →
      (payload.command_id = payload'.command_id ↔ robot_id = robot_id' ∧
        command.idempotency_key = command'.idempotency_key ∧ command.idempotency_key.isSome)) ∧
    (∀ id id' row row', s.db.committed id = some row → s.db.committed id' = some row' →
      row.robot_id = row'.robot_id → row.idempotency_key = row'.idempotency_key →
      row.idempotency_key.isSome → id = id') ∧
    (∀ r robot_id command status_code detail,
      s.requests r ≠ some (.create robot_id command (.raised (.http status_code detail)))) ∧
    (AllDelivered actions → ∀ robot_id key,
      (creations s robot_id key).length ≤ 1 ∧
      ((∀ r command state, s.requests r = some (.create robot_id command state) →
        command.idempotency_key = some key → (Request.create robot_id command state).finished) →
      (∃ r command payload, s.requests r = some (.create robot_id command (.returned payload)) ∧
        command.idempotency_key = some key) →
      (creations s robot_id key).length = 1)) := by
  have hinv : Inv s := inv_init.run hs
  have hdistinct : Distinct s := distinct_run hs (along_freshIds huuid)
  have hplain := keys_kept hs hkeys
  refine ⟨fun r r' _ _ _ _ _ _ hne h h' =>
      same_id_iff hinv hdistinct hne h h' (hplain _ _ _ _ h) (hplain _ _ _ _ h'),
    fun _ _ _ _ => hdistinct.row_unique, ?_, ?_⟩
  · intro r robot_id command status_code detail hraised
    rcases hdistinct.recovers r robot_id command _ hraised with herror | hshort
    · cases herror
    · rw [hplain _ _ _ _ hraised] at hshort
      cases hshort
  · intro hdelivered robot_id key
    have hannounced := announced_run hs hdelivered
    have hle := creations_le_one hinv hdistinct hannounced robot_id key
    refine ⟨hle, ?_⟩
    rintro hended ⟨r, command, payload, hreturned, hcommand⟩
    obtain ⟨_, _, row, hrow, rfl, hcolumn⟩ := (hinv.active r _ hreturned).consistent
    have hkey := (key_kept hcolumn (hplain _ _ _ _ hreturned)).trans hcommand
    have hne := creations_ne_nil hinv hannounced hplain hrow hkey hended
    exact le_antisymm hle (List.length_pos_iff.mpr hne)

-- The robot, the key and the answer's id of a finished create.
def createResponse : Option Request → Option (Int × Option String × CommandId)
  | some (.create robot_id command (.returned payload)) =>
      some (robot_id, command.idempotency_key, payload.command_id)
  | _ => none

theorem returned_of_createResponse {request : Option Request} {robot_id : Int}
    {key : Option String} {id : CommandId} (h : createResponse request = some (robot_id, key, id)) :
    ∃ command payload, request = some (.create robot_id command (.returned payload)) ∧
      command.idempotency_key = key ∧ payload.command_id = id := by
  unfold createResponse at h
  split at h <;> cases h
  exact ⟨_, _, rfl, rfl, rfl⟩

-- Two creates with one key race: the loser of the INSERT waits, collides,
-- rolls back and answers with the winner's row before that is announced.
def createRace : List Action :=
  [.start 0 10 (.create_command 7 1 ⟨"RESUME", none, none, some "k"⟩),
    .start 1 11 (.create_command 8 1 ⟨"RESUME", none, none, some "k"⟩),
    .advance 0 12 .quiet, .advance 0 13 .quiet, .advance 1 14 .quiet, .advance 1 15 .quiet,
    .advance 1 16 (.row 7), .advance 0 17 (.publish true)] ++
  createRun 2 18 9 2 ⟨"RESUME", none, none, some "k"⟩

theorem create_idempotent_race : ∃ s, Reaches System.init createRace s ∧
    createResponse (s.requests 0) = some (1, some "k", 7) ∧
    createResponse (s.requests 1) = some (1, some "k", 7) ∧
    createResponse (s.requests 2) = some (2, some "k", 9) ∧
    (creations s 1 "k").length = 1 := by
  have hrun : ((Runs.exec System.step System.init createRace).any fun s =>
      createResponse (s.requests 0) = some (1, some "k", 7) ∧
      createResponse (s.requests 1) = some (1, some "k", 7) ∧
      createResponse (s.requests 2) = some (2, some "k", 9)) = true := by
    decide +kernel
  simp only [Option.any_eq_true, decide_eq_true_eq] at hrun
  obtain ⟨s, hs, hzero, hone, htwo⟩ := hrun
  obtain ⟨_, _, _, hcreations⟩ := create_idempotent hs (by decide) (by decide +kernel)
  obtain ⟨command₀, payload₀, hrequest₀, hkey₀, _⟩ := returned_of_createResponse hzero
  obtain ⟨command₁, payload₁, hrequest₁, _⟩ := returned_of_createResponse hone
  obtain ⟨command₂, payload₂, hrequest₂, _⟩ := returned_of_createResponse htwo
  refine ⟨s, hs, hzero, hone, htwo,
    (hcreations (by decide +kernel) 1 "k").2 ?_ ⟨0, command₀, payload₀, hrequest₀, hkey₀⟩⟩
  intro r command state hrequest _
  by_cases hr : r ∈ createRace.filterMap Action.starts
  · have hcases : r = 0 ∨ r = 1 ∨ 2 = r := by
      simpa [createRace, createRun, Action.starts] using hr
    rcases hcases with rfl | rfl | rfl
    · rw [hrequest₀] at hrequest
      cases hrequest
      rfl
    · rw [hrequest₁] at hrequest
      cases hrequest
      rfl
    · rw [hrequest₂] at hrequest
      cases hrequest
  · rw [Reaches.idle hs rfl hr] at hrequest
    cases hrequest

def createFailure : Option Request → Option (Int × Option String × Nat × String)
  | some (.create robot_id command (.raised (.http status_code detail))) =>
      some (robot_id, command.idempotency_key, status_code, detail)
  | _ => none

-- A key one blank longer than its column, which keeps it without the blank.
def blankEnded : String := String.ofList (List.replicate 128 'k' ++ [' '])

-- The second create with the key collides with the row of the first and does
-- not find it under the key as it was sent.
def createTwice : List Action :=
  createRun 0 10 7 1 ⟨"RESUME", none, none, some blankEnded⟩ ++
    [.start 1 20 (.create_command 8 1 ⟨"RESUME", none, none, some blankEnded⟩),
      .advance 1 20 .quiet, .advance 1 20 .quiet, .advance 1 20 .noRow]

theorem blank_ended_key_fails : ∃ s, Reaches System.init createTwice s ∧
    (createTwice.filterMap drawn).Nodup ∧
    createResponse (s.requests 0) = some (1, some blankEnded, 7) ∧
    createFailure (s.requests 1) =
      some (1, some blankEnded, 500, "Database conflict handling failed") := by
  have hrun : ((Runs.exec System.step System.init createTwice).any fun s =>
      createResponse (s.requests 0) = some (1, some blankEnded, 7) ∧
      createFailure (s.requests 1) =
        some (1, some blankEnded, 500, "Database conflict handling failed")) = true := by
    decide +kernel
  simp only [Option.any_eq_true, decide_eq_true_eq] at hrun
  obtain ⟨s, hs, hfirst, hsecond⟩ := hrun
  exact ⟨s, hs, by decide, hfirst, hsecond⟩

end FleetOps.Command
