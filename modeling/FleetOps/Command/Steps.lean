import FleetOps.Command.System

namespace FleetOps.Command

open RowStore

-- The rows an UPDATE with this guard may match, and what it leaves.
inductive UpdateOutcome (db : Table) (r : RequestId) (id : CommandId)
    (cond : RobotCommand → Bool) (values : Option Values) : Table → Bool → Prop where
  | matched (row : RobotCommand) (kept : Values) (hrow : db.visible r id = some row)
      (hcond : cond row = true) (hfree : db.locked r id = false) (hkept : values = some kept) :
      UpdateOutcome db r id cond values (db.write r id (kept.apply row)) true
  | missed (hmiss : ∀ row, db.visible r id = some row → cond row = false) :
      UpdateOutcome db r id cond values db false

theorem updateWhere_outcome {db db' : Table} {r : RequestId} {id : CommandId}
    {cond : RobotCommand → Bool} {values : Option Values} {matched : Bool}
    (h : updateWhere db r id cond values = some (db', matched)) :
    UpdateOutcome db r id cond values db' matched := by
  unfold updateWhere at h
  split at h
  · rename_i hnone
    cases h
    exact .missed (by simp [hnone])
  · rename_i row hrow
    by_cases hcond : cond row
    · cases hfree : db.locked r id <;> simp only [hcond, hfree] at h
      · obtain ⟨kept, hkept, h⟩ := Option.map_eq_some_iff.mp h
        cases h
        exact .matched row kept hrow hcond hfree hkept
      · cases h
    · simp only [hcond] at h
      cases h
      refine .missed fun row' hrow' => ?_
      rw [hrow] at hrow'
      cases hrow'
      simpa using hcond

inductive CreateStep (robot_id : Int) (command : CommandCreate) (db : Table) (r : RequestId) :
    CreateState → Table → CreateState → List Message → Prop where
  | violation (cmd : CommandDict) (new row : RobotCommand) (hnew : inserted cmd = some new)
      (hrow : row ∈ db.rows) (hcollides : collides new row = true) :
      CreateStep robot_id command db r (.insert cmd) db .rollback []
  | insert (cmd : CommandDict) (new : RobotCommand) (hnew : inserted cmd = some new)
      (hrows : ∀ row ∈ db.rows, collides new row = false)
      (hdirty : ∀ w ∈ db.dirty, collides new w.after = true → w.writer = r) :
      CreateStep robot_id command db r (.insert cmd) (db.write r new.id new) (.commit cmd) []
  | commit (cmd : CommandDict) :
      CreateStep robot_id command db r (.commit cmd) (db.commit r)
        (.broadcast cmd cmd.created_at) []
  | rollback : CreateStep robot_id command db r .rollback (db.rollback r) .recover []
  | recovered (id : CommandId) (row : RobotCommand) (hrow : db.committed id = some row)
      (hrobot : row.robot_id.val = robot_id)
      (hkey : row.idempotency_key.map Subtype.val = command.idempotency_key) :
      CreateStep robot_id command db r .recover db (.returned (to_dict row)) []
  | unrecovered (hnone : ∀ row ∈ db.rows, row.robot_id.val = robot_id →
      row.idempotency_key.map Subtype.val ≠ command.idempotency_key) :
      CreateStep robot_id command db r .recover db
        (.raised (.http 500 "Database conflict handling failed")) []
  | broadcast (payload : CommandDict) (now : Instant) (delivered : Bool) :
      CreateStep robot_id command db r (.broadcast payload now) db (.returned payload)
        (if delivered then [dictMessage "COMMAND_CREATED" payload now] else [])

theorem published_eq {message : Message} {choice : Choice} {out : List Message}
    (h : published message choice = some out) :
    ∃ delivered, choice = .publish delivered ∧ out = if delivered then [message] else [] := by
  unfold published at h
  split at h <;> cases h
  · exact ⟨true, rfl, rfl⟩
  · exact ⟨false, rfl, rfl⟩

theorem create_command_step {robot_id : Int} {command : CommandCreate} {db db' : Table}
    {r : RequestId} {choice : Choice} {state state' : CreateState} {out : List Message}
    (h : create_command robot_id command db r choice state = some (db', state', out)) :
    CreateStep robot_id command db r state db' state' out := by
  cases state with
  | insert cmd =>
      obtain ⟨new, hnew, h⟩ := Option.bind_eq_some_iff.mp h
      split at h
      · rename_i hany
        cases h
        obtain ⟨row, hrow, hcollides⟩ := List.any_eq_true.mp hany
        exact .violation cmd new row hnew hrow hcollides
      · rename_i hany
        split at h
        · cases h
        · rename_i hdirty
          cases h
          refine .insert cmd new hnew (by simpa using hany) fun w hw hcollides => ?_
          by_contra hne
          exact hdirty (List.any_eq_true.mpr ⟨w, hw, by simp [hcollides, hne]⟩)
  | commit cmd => cases h; exact .commit cmd
  | rollback => cases h; exact .rollback
  | recover =>
      simp only [create_command] at h
      split at h
      · rename_i id
        obtain ⟨row, hrow, h⟩ := Option.bind_eq_some_iff.mp h
        split at h
        · rename_i hmatch
          cases h
          simp only [requested, Bool.and_eq_true, decide_eq_true_eq] at hmatch
          exact .recovered id row hrow hmatch.1 hmatch.2
        · cases h
      · split at h
        · cases h
        · rename_i hnone
          cases h
          refine .unrecovered fun row hrow hrobot hkey => hnone ?_
          exact List.any_eq_true.mpr ⟨row, hrow, by simp [requested, hrobot, hkey]⟩
      · cases h
  | broadcast payload now =>
      obtain ⟨out', hout, h⟩ := Option.map_eq_some_iff.mp h
      cases h
      obtain ⟨delivered, _, rfl⟩ := published_eq hout
      exact .broadcast payload now delivered
  | returned payload => cases h
  | raised error => cases h

inductive ClaimStep (robot_id : Int) (db : Table) (r : RequestId) :
    ClaimState → Table → ClaimState → List Message → Prop where
  | drained (claimed : List ClaimedCommand)
      (hnone : ∀ row ∈ db.rows, pendingFor robot_id row = false) :
      ClaimStep robot_id db r (.select claimed) db (.returned claimed) []
  | found (claimed : List ClaimedCommand) (id : CommandId) (record : RobotCommand)
      (hrow : db.committed id = some record) (hpending : pendingFor robot_id record = true)
      (holdest : ∀ other ∈ db.rows, pendingFor robot_id other = true →
        record.created_at ≤ other.created_at) :
      ClaimStep robot_id db r (.select claimed) db (.stamp claimed record) []
  | stamp (claimed : List ClaimedCommand) (record : RobotCommand) (now : Instant) :
      ClaimStep robot_id db r (.stamp claimed record) db (.update claimed record now) []
  | won (claimed : List ClaimedCommand) (record row : RobotCommand) (now : Instant)
      (hrow : db.visible r record.id = some row) (hpending : row.status = .PENDING)
      (hfree : db.locked r record.id = false) :
      ClaimStep robot_id db r (.update claimed record now)
        (db.write r record.id (Values.apply { status := .DISPATCHED, dispatched_at := some now } row))
        (.commit claimed record now) []
  | lost (claimed : List ClaimedCommand) (record : RobotCommand) (now : Instant)
      (hmiss : ∀ row, db.visible r record.id = some row → row.status ≠ .PENDING) :
      ClaimStep robot_id db r (.update claimed record now) db (.rollback claimed) []
  | commit (claimed : List ClaimedCommand) (record : RobotCommand) (now : Instant) :
      ClaimStep robot_id db r (.commit claimed record now) (db.commit r)
        (.broadcast (claimed ++ [claimedCommand record]) record now) []
  | rollback (claimed : List ClaimedCommand) :
      ClaimStep robot_id db r (.rollback claimed) (db.rollback r) (.select claimed) []
  | broadcast (claimed : List ClaimedCommand) (record : RobotCommand) (now : Instant)
      (delivered : Bool) :
      ClaimStep robot_id db r (.broadcast claimed record now) db (.select claimed)
        (if delivered then [dispatchMessage robot_id record now] else [])

theorem claim_step {robot_id : Int} {db db' : Table} {r : RequestId} {now : Instant}
    {choice : Choice} {state state' : ClaimState} {out : List Message}
    (h : claim_pending_commands robot_id db r now choice state = some (db', state', out)) :
    ClaimStep robot_id db r state db' state' out := by
  cases state with
  | select claimed =>
      obtain ⟨found, hfound, h⟩ := Option.map_eq_some_iff.mp h
      simp only [get_next_pending] at hfound
      split at hfound
      · rename_i id
        obtain ⟨record, hrow, hfound⟩ := Option.bind_eq_some_iff.mp hfound
        split at hfound
        · rename_i hmatch
          cases hfound
          cases h
          refine .found claimed id record hrow hmatch.1 fun other hother hpending => ?_
          have hall := List.all_eq_true.mp hmatch.2 other
            (List.mem_filter.mpr ⟨hother, hpending⟩)
          exact of_decide_eq_true hall
        · cases hfound
      · split at hfound
        · cases hfound
        · rename_i hnone
          cases hfound
          cases h
          exact .drained claimed (by simpa using hnone)
      · cases hfound
  | stamp claimed record => cases h; exact .stamp claimed record now
  | update claimed record stamped =>
      obtain ⟨⟨db₁, won⟩, hupdate, h⟩ := Option.map_eq_some_iff.mp h
      cases updateWhere_outcome hupdate with
      | matched row kept hrow hcond hfree hkept =>
          cases hkept
          cases h
          exact .won claimed record row stamped hrow (of_decide_eq_true hcond) hfree
      | missed hmiss =>
          cases h
          exact .lost claimed record stamped fun row hrow => of_decide_eq_false (hmiss row hrow)
  | commit claimed record stamped => cases h; exact .commit claimed record stamped
  | rollback claimed => cases h; exact .rollback claimed
  | broadcast claimed record stamped =>
      obtain ⟨out', hout, h⟩ := Option.map_eq_some_iff.mp h
      cases h
      obtain ⟨delivered, _, rfl⟩ := published_eq hout
      exact .broadcast claimed record stamped delivered
  | returned claimed => cases h
  | raised error => cases h

inductive UpdateStep (command_id : CommandId) (update_data : CommandStatusUpdate) (db : Table)
    (r : RequestId) : UpdateState → Table → UpdateState → List Message → Prop where
  | missing (hnone : db.committed command_id = none) :
      UpdateStep command_id update_data db r .select db (.raised (.http 404 "Command not found")) []
  | select (record : RobotCommand) (hrow : db.committed command_id = some record) :
      UpdateStep command_id update_data db r .select db (.stamp record) []
  | check (record : RobotCommand) (now : Instant) :
      UpdateStep command_id update_data db r (.stamp record) db
        (checkTransition record update_data now) []
  | matched (current new : Status) (now : Instant) (row : RobotCommand) (values : Values)
      (hrow : db.visible r command_id = some row) (hcurrent : row.status = current)
      (hfree : db.locked r command_id = false)
      (hvalues : transition_values new update_data now = some values) :
      UpdateStep command_id update_data db r (.update current new now)
        (db.write r command_id (values.apply row))
        (.commit new now true) []
  | missed (current new : Status) (now : Instant)
      (hmiss : ∀ row, db.visible r command_id = some row → row.status ≠ current) :
      UpdateStep command_id update_data db r (.update current new now) db (.commit new now false) []
  | commit (new : Status) (now : Instant) (matched : Bool) :
      UpdateStep command_id update_data db r (.commit new now matched) (db.commit r)
        (.reread new now matched) []
  | vanished (new : Status) (now : Instant) (matched : Bool)
      (hnone : db.committed command_id = none) :
      UpdateStep command_id update_data db r (.reread new now matched) db
        (.raised (.http 404 "Command not found")) []
  | reread (new : Status) (now : Instant) (matched : Bool) (current : RobotCommand)
      (hrow : db.committed command_id = some current) :
      UpdateStep command_id update_data db r (.reread new now matched) db
        (afterReread new matched now current) []
  | broadcast (payload : CommandDict) (now : Instant) (delivered : Bool) :
      UpdateStep command_id update_data db r (.broadcast payload now) db (.returned payload)
        (if delivered then [dictMessage "COMMAND_UPDATE" payload now] else [])

theorem update_step {command_id : CommandId} {update_data : CommandStatusUpdate} {db db' : Table}
    {r : RequestId} {now : Instant} {choice : Choice} {state state' : UpdateState}
    {out : List Message}
    (h : update_status command_id update_data db r now choice state = some (db', state', out)) :
    UpdateStep command_id update_data db r state db' state' out := by
  cases state with
  | select =>
      simp only [update_status, get_or_404] at h
      cases hrow : db.committed command_id with
      | none => rw [hrow] at h; cases h; exact .missing hrow
      | some record => rw [hrow] at h; cases h; exact .select record hrow
  | stamp record => cases h; exact .check record now
  | update current new stamped =>
      obtain ⟨⟨db₁, matched⟩, hupdate, h⟩ := Option.map_eq_some_iff.mp h
      cases updateWhere_outcome hupdate with
      | matched row values hrow hcond hfree hvalues =>
          cases h
          exact .matched current new stamped row values hrow (of_decide_eq_true hcond) hfree hvalues
      | missed hmiss =>
          cases h
          exact .missed current new stamped fun row hrow => of_decide_eq_false (hmiss row hrow)
  | commit new stamped matched => cases h; exact .commit new stamped matched
  | reread new stamped matched =>
      simp only [update_status, get_or_404] at h
      cases hrow : db.committed command_id with
      | none => rw [hrow] at h; cases h; exact .vanished new stamped matched hrow
      | some current => rw [hrow] at h; cases h; exact .reread new stamped matched current hrow
  | broadcast payload stamped =>
      obtain ⟨out', hout, h⟩ := Option.map_eq_some_iff.mp h
      cases h
      obtain ⟨delivered, _, rfl⟩ := published_eq hout
      exact .broadcast payload stamped delivered
  | returned payload => cases h
  | raised error => cases h

inductive ScanStep (db : Table) (r : RequestId) (clock : Instant) :
    ScanState → Table → ScanState → List Message → Prop where
  | select (now : Instant) (ids : List CommandId)
      (hids : ids.Perm ((db.rows.filter (overdue now)).map RobotCommand.id)) :
      ScanStep db r clock (.select now) db
        (nextUpdate now clock (ids.filterMap db.committed) []) []
  | skip (now started : Instant) (timed_out : List RobotCommand) :
      ScanStep db r clock (.update now started [] timed_out) db (afterUpdates now timed_out) []
  | matched (now started : Instant) (cmd : RobotCommand) (rest timed_out : List RobotCommand)
      (row : RobotCommand) (hrow : db.visible r cmd.id = some row)
      (hopen : row.status ∉ TERMINAL_STATES) (hfree : db.locked r cmd.id = false) :
      ScanStep db r clock (.update now started (cmd :: rest) timed_out)
        (db.write r cmd.id ((timeoutValues cmd started).apply row))
        (nextUpdate now started rest (timed_out ++ [cmd])) []
  | missed (now started : Instant) (cmd : RobotCommand) (rest timed_out : List RobotCommand)
      (hmiss : ∀ row, db.visible r cmd.id = some row → row.status ∈ TERMINAL_STATES) :
      ScanStep db r clock (.update now started (cmd :: rest) timed_out) db
        (nextUpdate now started rest timed_out) []
  | commit (now : Instant) (timed_out : List RobotCommand) :
      ScanStep db r clock (.commit now timed_out) (db.commit r) (.broadcast now timed_out) []
  | announced (now : Instant) : ScanStep db r clock (.broadcast now []) db .returned []
  | broadcast (now : Instant) (cmd : RobotCommand) (rest : List RobotCommand) (delivered : Bool) :
      ScanStep db r clock (.broadcast now (cmd :: rest)) db
        (if rest.isEmpty then .returned else .broadcast now rest)
        (if delivered then [timeoutMessage cmd now] else [])

theorem scan_step {db db' : Table} {r : RequestId} {clock : Instant} {choice : Choice}
    {state state' : ScanState} {out : List Message}
    (h : scan_for_timeouts db r clock choice state = some (db', state', out)) :
    ScanStep db r clock state db' state' out := by
  cases state with
  | select now =>
      simp only [scan_for_timeouts] at h
      split at h
      · rename_i ids
        split at h
        · rename_i hids
          cases h
          exact .select now ids hids
        · cases h
      · cases h
  | update now started expired timed_out =>
      cases expired with
      | nil => cases h; exact .skip now started timed_out
      | cons cmd rest =>
          obtain ⟨⟨db₁, matched⟩, hupdate, h⟩ := Option.map_eq_some_iff.mp h
          cases updateWhere_outcome hupdate with
          | matched row kept hrow hcond hfree hkept =>
              cases hkept
              cases h
              exact .matched now started cmd rest timed_out row hrow (of_decide_eq_true hcond) hfree
          | missed hmiss =>
              cases h
              refine .missed now started cmd rest timed_out fun row hrow => ?_
              simpa using hmiss row hrow
  | commit now timed_out => cases h; exact .commit now timed_out
  | broadcast now timed_out =>
      cases timed_out with
      | nil => cases h; exact .announced now
      | cons cmd rest =>
          obtain ⟨out', hout, h⟩ := Option.map_eq_some_iff.mp h
          cases h
          obtain ⟨delivered, _, rfl⟩ := published_eq hout
          exact .broadcast now cmd rest delivered
  | returned => cases h
  | raised error => cases h

-- One step of the system, split by who acts and how.
inductive SystemStep (s : System) : Action → System → Prop where
  | start (r : RequestId) (now : Instant) (call : Call) (hidle : s.requests r = none) :
      SystemStep s (.start r now call)
        { s with requests := Function.update s.requests r (some (call.begin now)) }
  | create (r : RequestId) (now : Instant) (choice : Choice) (robot_id : Int)
      (command : CommandCreate) (state state' : CreateState) (db' : Table) (out : List Message)
      (hrequest : s.requests r = some (.create robot_id command state))
      (hstep : CreateStep robot_id command s.db r state db' state' out) :
      SystemStep s (.advance r now choice)
        ⟨db', Function.update s.requests r (some (.create robot_id command state')),
          s.published ++ out.map fun message => (r, message)⟩
  | claim (r : RequestId) (now : Instant) (choice : Choice) (robot_id : Int)
      (state state' : ClaimState) (db' : Table) (out : List Message)
      (hrequest : s.requests r = some (.claim robot_id state))
      (hstep : ClaimStep robot_id s.db r state db' state' out) :
      SystemStep s (.advance r now choice)
        ⟨db', Function.update s.requests r (some (.claim robot_id state')),
          s.published ++ out.map fun message => (r, message)⟩
  | update (r : RequestId) (now : Instant) (choice : Choice) (command_id : CommandId)
      (update_data : CommandStatusUpdate) (state state' : UpdateState) (db' : Table)
      (out : List Message)
      (hrequest : s.requests r = some (.update command_id update_data state))
      (hstep : UpdateStep command_id update_data s.db r state db' state' out) :
      SystemStep s (.advance r now choice)
        ⟨db', Function.update s.requests r (some (.update command_id update_data state')),
          s.published ++ out.map fun message => (r, message)⟩
  | scan (r : RequestId) (now : Instant) (choice : Choice) (state state' : ScanState)
      (db' : Table) (out : List Message)
      (hrequest : s.requests r = some (.scan state))
      (hstep : ScanStep s.db r now state db' state' out) :
      SystemStep s (.advance r now choice)
        ⟨db', Function.update s.requests r (some (.scan state')),
          s.published ++ out.map fun message => (r, message)⟩
  | fail (r : RequestId) (request : Request) (hrequest : s.requests r = some request)
      (hopen : request.finished = false) :
      SystemStep s (.fail r)
        ⟨s.db.rollback r, Function.update s.requests r (some request.abort), s.published⟩

theorem system_step {s t : System} {action : Action} (h : s.step action = some t) :
    SystemStep s action t := by
  cases action with
  | start r now call =>
      simp only [System.step] at h
      split at h
      · cases h
      · rename_i hidle
        cases h
        exact .start r now call hidle
  | advance r now choice =>
      obtain ⟨request, hrequest, h⟩ := Option.bind_eq_some_iff.mp h
      obtain ⟨⟨db, request', out⟩, hnext, h⟩ := Option.map_eq_some_iff.mp h
      cases h
      cases request with
      | create robot_id command state =>
          obtain ⟨⟨db₁, state', out₁⟩, hstep, h⟩ := Option.map_eq_some_iff.mp hnext
          cases h
          exact .create r now choice robot_id command state state' _ _ hrequest
            (create_command_step hstep)
      | claim robot_id state =>
          obtain ⟨⟨db₁, state', out₁⟩, hstep, h⟩ := Option.map_eq_some_iff.mp hnext
          cases h
          exact .claim r now choice robot_id state state' _ _ hrequest (claim_step hstep)
      | update command_id update_data state =>
          obtain ⟨⟨db₁, state', out₁⟩, hstep, h⟩ := Option.map_eq_some_iff.mp hnext
          cases h
          exact .update r now choice command_id update_data state state' _ _ hrequest
            (update_step hstep)
      | scan state =>
          obtain ⟨⟨db₁, state', out₁⟩, hstep, h⟩ := Option.map_eq_some_iff.mp hnext
          cases h
          exact .scan r now choice state state' _ _ hrequest (scan_step hstep)
  | fail r =>
      obtain ⟨request, hrequest, h⟩ := Option.bind_eq_some_iff.mp h
      split at h
      · cases h
      · rename_i hopen
        cases h
        exact .fail r request hrequest (by simpa using hopen)

end FleetOps.Command
