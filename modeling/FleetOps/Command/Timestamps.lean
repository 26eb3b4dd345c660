import FleetOps.Command.Lifecycle

namespace FleetOps.Command

open RowStore

section Definitions

def stages : List Stage := [.dispatched, .acknowledged, .started, .completed]

-- The times of a command that are set, from `created_at` to `completed_at`.
def RobotCommand.times (row : RobotCommand) : List Instant :=
  row.created_at :: stages.filterMap row.stamp

def Ordered (row : RobotCommand) : Prop := row.times.Pairwise (· ≤ ·)

-- The reading of the clock that an action takes, if it takes one.
def Action.time : Action → Option Instant
  | .start _ now _ => some now
  | .advance _ now _ => some now
  | .fail _ => none

-- One clock for all processes and the database, that does not go back.
def Monotone (actions : List Action) : Prop :=
  (actions.filterMap Action.time).Pairwise (· ≤ ·)

-- At its UPDATE of a command, a scan finds no time later than the start of its own
-- transaction: nobody has advanced the command since.
def settled (s : System) : Action → Bool
  | .advance r _ _ =>
      match s.requests r with
      | some (.scan (.update _ started (cmd :: _) _)) =>
          (s.db.visible r cmd.id).all fun row =>
            decide (row.status ∈ TERMINAL_STATES) || row.times.all fun time => decide (time ≤ started)
      | _ => true
  | _ => true

abbrev AllSettled (actions : List Action) : Prop :=
  Runs.Along System.step (fun s action => settled s action = true) System.init actions

end Definitions

section Rows

variable {row old : RobotCommand} {id : CommandId} {time : Instant} {stage : Stage}

-- A stage that a command has not reached is not stamped.
def Fresh (row : RobotCommand) : Prop :=
  ∀ stage : Stage, row.status.rank < stage.rank → row.stamp stage = none

theorem fresh_new (h : Advance id none row) : Fresh row := fun stage _ => h.2.2 stage

theorem fresh_step (h : Advance id (some old) row) (hold : Fresh old) : Fresh row := by
  intro stage hstage
  have hrank := rank_lt_of_valid h.2.1
  have hother : row.status.stage ≠ some stage := fun heq => by
    rw [rank_of_stage heq] at hstage
    exact absurd hstage (lt_irrefl _)
  have hstamp := h.2.2 stage
  rw [if_neg hother] at hstamp
  rw [hstamp]
  exact hold stage (hrank.trans hstage)

theorem fresh_writes {db : Table} (hsound : Sound Advance db) :
    ∀ w ∈ db.log ++ db.dirty, Fresh w.after :=
  hsound.forall_after (P := fun _ row => Fresh row) (fun _ _ h => fresh_new h)
    (fun _ _ _ hold h => fresh_step h hold)

theorem times_new (h : Advance id none row) : row.times = [row.created_at] := by
  have hnone : stages.filterMap row.stamp = [] :=
    List.filterMap_eq_nil_iff.mpr fun stage _ => h.2.2 stage
  rw [RobotCommand.times, hnone]

theorem stages_split (stage : Stage) : ∃ earlier later, stages = earlier ++ stage :: later ∧
    (∀ other ∈ earlier, other ≠ stage) ∧ ∀ other ∈ later, stage.rank < other.rank := by
  cases stage
  · exact ⟨[], [.acknowledged, .started, .completed], rfl, by decide, by decide⟩
  · exact ⟨[.dispatched], [.started, .completed], rfl, by decide, by decide⟩
  · exact ⟨[.dispatched, .acknowledged], [.completed], rfl, by decide, by decide⟩
  · exact ⟨[.dispatched, .acknowledged, .started], [], rfl, by decide, by decide⟩

-- A transition adds the time of the stage it enters, after those of the stages before.
theorem times_step (h : Advance id (some old) row) (hold : Fresh old)
    (hstage : row.status.stage = some stage) (htime : row.stamp stage = some time) :
    row.times = old.times ++ [time] := by
  have hrow := fresh_step h hold
  obtain ⟨hsame, hvalid, hstamps⟩ := h
  have hcreated : row.created_at = old.created_at := hsame.2.2.2.2.2.2.1.symm
  have hrank : row.status.rank = stage.rank := rank_of_stage hstage
  have hold' : ∀ other : Stage, stage.rank ≤ other.rank → old.stamp other = none := fun other hle =>
    hold other ((rank_lt_of_valid hvalid).trans_le (hrank.trans_le hle))
  obtain ⟨earlier, later, hsplit, hearlier, hlater⟩ := stages_split stage
  have hkept : earlier.filterMap row.stamp = earlier.filterMap old.stamp := by
    refine List.filterMap_congr fun other hother => ?_
    have hstamp := hstamps other
    have hne : row.status.stage ≠ some other := by
      rw [hstage]
      simpa using (hearlier other hother).symm
    rwa [if_neg hne] at hstamp
  have hnone : later.filterMap row.stamp = [] :=
    List.filterMap_eq_nil_iff.mpr fun other hother => hrow other (hrank.trans_lt (hlater other hother))
  have hnone' : (stage :: later).filterMap old.stamp = [] := by
    refine List.filterMap_eq_nil_iff.mpr fun other hother => hold' other ?_
    rcases List.mem_cons.mp hother with rfl | hother
    · exact le_refl _
    · exact (hlater other hother).le
  simp only [RobotCommand.times, hsplit, List.filterMap_append, hkept, hnone', hcreated,
    List.append_nil, List.cons_append]
  rw [List.filterMap_cons, htime, hnone]

-- A command stamped no earlier than before stays in order.
theorem ordered_step (stage : Stage) (time : Instant) (h : Advance id (some old) row)
    (hold : Fresh old) (hordered : Ordered old)
    (hstage : row.status.stage = some stage) (htime : row.stamp stage = some time)
    (hlate : ∀ t ∈ old.times, t ≤ time) :
    Ordered row ∧ ∀ t ∈ row.times, t ≤ time := by
  have htimes := times_step h hold hstage htime
  refine ⟨?_, fun t ht => ?_⟩
  · rw [Ordered, htimes, List.pairwise_append]
    exact ⟨hordered, List.pairwise_singleton _ _, fun a ha b hb => by
      rw [List.mem_singleton.mp hb]
      exact hlate a ha⟩
  · rw [htimes, List.mem_append, List.mem_singleton] at ht
    rcases ht with ht | rfl
    · exact hlate t ht
    · exact Int.le_refl _

end Rows

section Clock

-- A committed version of the command with this status, all of it before `stamped`.
def Version (db : Table) (id : CommandId) (status : Status) (stamped : Instant) : Prop :=
  ∃ w ∈ db.log, w.key = id ∧ w.after.status = status ∧ ∀ t ∈ w.after.times, t ≤ stamped

-- What a call has read of the clock, at the reading `clock`.
def Timed (clock : Instant) (db : Table) : Request → Prop
  | .create _ _ (.insert cmd) => cmd.created_at ≤ clock
  | .claim _ (.stamp _ record) => record.created_at ≤ clock
  | .claim _ (.update _ record stamped) => record.created_at ≤ stamped ∧ stamped ≤ clock
  | .update command_id _ (.stamp record) => Version db command_id record.status clock
  | .update command_id _ (.update current _ stamped) =>
      Version db command_id current stamped ∧ stamped ≤ clock
  | .scan (.update _ started _ _) => started ≤ clock
  | _ => True

structure Clocked (clock : Instant) (s : System) : Prop where
  ordered : ∀ w ∈ s.db.log ++ s.db.dirty, Ordered w.after ∧ ∀ t ∈ w.after.times, t ≤ clock
  timed : ∀ r request, s.requests r = some request → Timed clock s.db request

variable {db db' : Table} {clock later : Instant} {r : RequestId} {id : CommandId}

theorem Version.mono {status : Status} {stamped : Instant} (h : Version db id status stamped)
    (hlog : db.log ⊆ db'.log) (hle : stamped ≤ later) : Version db' id status later := by
  obtain ⟨w, hw, hkey, hstatus, htimes⟩ := h
  exact ⟨w, hlog hw, hkey, hstatus, fun t ht => Int.le_trans (htimes t ht) hle⟩

theorem Timed.mono {request : Request} (h : Timed clock db request) (hlog : db.log ⊆ db'.log)
    (hle : clock ≤ later) : Timed later db' request := by
  cases request with
  | create robot_id command state =>
      cases state with
      | insert cmd => exact Int.le_trans h hle
      | _ => trivial
  | claim robot_id state =>
      cases state with
      | stamp claimed record => exact Int.le_trans h hle
      | update claimed record stamped => exact ⟨h.1, Int.le_trans h.2 hle⟩
      | _ => trivial
  | update command_id update_data state =>
      cases state with
      | stamp record => exact Version.mono h hlog hle
      | update current new stamped => exact ⟨h.1.mono hlog (Int.le_refl _), Int.le_trans h.2 hle⟩
      | _ => trivial
  | scan state =>
      cases state with
      | update now started expired timed_out => exact Int.le_trans h hle
      | _ => trivial

-- What a SELECT returned is a committed version.
theorem version_of_committed {row : RobotCommand}
    (hordered : ∀ w ∈ db.log, ∀ t ∈ w.after.times, t ≤ clock) (hrow : db.committed id = some row) :
    Version db id row.status clock ∧ row.created_at ≤ clock := by
  obtain ⟨w, hw, hkey, rfl⟩ := exists_write_of_latest hrow
  exact ⟨⟨w, hw, hkey, rfl, hordered w hw⟩, hordered w hw _ (List.mem_cons_self ..)⟩

-- A row that has the status of a committed version is that version.
theorem Version.row_times (hsound : Sound Advance db) (hmine : db.mine r = []) {row : RobotCommand}
    {stamped : Instant} (h : Version db id row.status stamped) (hrow : db.visible r id = some row) :
    ∀ t ∈ row.times, t ≤ stamped := by
  obtain ⟨w, hw, hkey, hstatus, htimes⟩ := h
  rw [visible_of_mine_nil hmine] at hrow
  obtain ⟨v, hv, hvkey, rfl⟩ := exists_write_of_latest hrow
  have heq := eq_of_rank hsound hv hw (hvkey.trans hkey.symm) (by rw [hstatus])
  rw [heq]
  exact htimes

theorem visible_version (hsound : Sound Advance db) {row : RobotCommand}
    (hrow : db.visible r id = some row) :
    Fresh row ∧ ∃ w ∈ db.log ++ db.dirty, w.after = row := by
  obtain ⟨w, hw, _, rfl⟩ := exists_write_of_latest hrow
  have hmem : w ∈ db.log ++ db.dirty := by
    rcases List.mem_append.mp hw with hw | hw
    · exact List.mem_append_left _ hw
    · exact List.mem_append_right _ (mem_mine.mp hw).1
  exact ⟨fresh_writes hsound w hmem, w, hmem, rfl⟩

-- What a step does for the order of the times: it adds no version that is out of order,
-- and the call goes on with readings of the clock.
structure Stamps (later : Instant) (db db' : Table) (request : Request) : Prop where
  writes : ∀ w ∈ db'.log ++ db'.dirty, w ∈ db.log ++ db.dirty ∨
    (Ordered w.after ∧ ∀ t ∈ w.after.times, t ≤ later)
  timed : Timed later db' request

variable {out : List Message}

theorem create_stamps {robot_id : Int} {command : CommandCreate} {state state' : CreateState}
    (hlocal : Local db r (.create robot_id command state))
    (htimed : Timed clock db (.create robot_id command state)) (hle : clock ≤ later)
    (hstep : CreateStep robot_id command db r state db' state' out) :
    Stamps later db db' (.create robot_id command state') := by
  cases hstep with
  | violation cmd new row hnew hrow hcollides => exact ⟨fun _ hw => Or.inl hw, trivial⟩
  | insert cmd new hnew hrows hdirty =>
      refine ⟨fun w hw => (mem_writes_write hw).imp_right ?_, trivial⟩
      rintro rfl
      obtain ⟨id, now, rfl⟩ := hlocal.consistent
      have htimes := times_new (advance_new hnew)
      have hcreated : new.created_at ≤ clock := (newRow_inserted hnew).created_at ▸ htimed
      simp only [Ordered, htimes, List.mem_singleton, forall_eq]
      exact ⟨List.pairwise_singleton _ _, Int.le_trans hcreated hle⟩
  | commit cmd => exact ⟨fun _ hw => Or.inl (mem_writes_commit hw), trivial⟩
  | rollback => exact ⟨fun _ hw => Or.inl (mem_writes_rollback hw), trivial⟩
  | recovered id row hrow hrobot hkey => exact ⟨fun _ hw => Or.inl hw, trivial⟩
  | unrecovered hnone => exact ⟨fun _ hw => Or.inl hw, trivial⟩
  | broadcast payload now delivered => exact ⟨fun _ hw => Or.inl hw, trivial⟩

-- `stamped` is the clock when a claim has just found its command.
theorem claim_stamps {robot_id : Int} {state state' : ClaimState} (hsound : Sound Advance db)
    (hlocal : Local db r (.claim robot_id state))
    (hordered : ∀ w ∈ db.log ++ db.dirty, Ordered w.after ∧ ∀ t ∈ w.after.times, t ≤ clock)
    (htimed : Timed clock db (.claim robot_id state)) (hle : clock ≤ later)
    (hstamp : ∀ claimed record, state = .stamp claimed record → state' = .update claimed record later)
    (hstep : ClaimStep robot_id db r state db' state' out) :
    Stamps later db db' (.claim robot_id state') := by
  have hcons := hlocal.consistent
  have hledger := hlocal.ledger
  cases hstep with
  | drained claimed hnone => exact ⟨fun _ hw => Or.inl hw, trivial⟩
  | found claimed id record hrow hpending holdest =>
      have hcreated := (version_of_committed
        (fun w hw => (hordered w (List.mem_append_left _ hw)).2) hrow).2
      exact ⟨fun _ hw => Or.inl hw, Int.le_trans hcreated hle⟩
  | stamp claimed record now =>
      have hcreated : record.created_at ≤ clock := htimed
      cases hstamp claimed record rfl
      exact ⟨fun _ hw => Or.inl hw, Int.le_trans hcreated hle, Int.le_refl _⟩
  | won claimed record row now hrow hpending hfree =>
      obtain ⟨hcreated, hnow⟩ := htimed
      obtain ⟨hfresh, v, hv, rfl⟩ := visible_version hsound hrow
      -- The row is the record it found: nobody has claimed it since.
      obtain ⟨row', hrow', hsame⟩ := hcons.2
      rw [visible_of_mine_nil hledger.1, hrow'] at hrow
      cases hrow
      have htimes : v.after.times = [v.after.created_at] := by
        have hnone : stages.filterMap v.after.stamp = [] := by
          refine List.filterMap_eq_nil_iff.mpr fun stage _ => hfresh stage ?_
          rw [hpending]
          cases stage <;> decide
        rw [RobotCommand.times, hnone]
      have hlate : ∀ t ∈ v.after.times, t ≤ now := by
        rw [htimes]
        simp only [List.mem_singleton, forall_eq]
        rw [← hsame.2.2.2.2.2.2.1]
        exact hcreated
      have hadvance : Advance record.id (some v.after) (dispatched now v.after) :=
        advance_dispatch now hpending
      obtain ⟨hrises, hbound⟩ := ordered_step .dispatched now hadvance hfresh (hordered v hv).1 rfl rfl
        hlate
      refine ⟨fun w hw => (mem_writes_write hw).imp_right ?_, trivial⟩
      rintro rfl
      exact ⟨hrises, fun t ht => Int.le_trans (hbound t ht) (Int.le_trans hnow hle)⟩
  | lost claimed record now hmiss => exact ⟨fun _ hw => Or.inl hw, trivial⟩
  | commit claimed record now => exact ⟨fun _ hw => Or.inl (mem_writes_commit hw), trivial⟩
  | rollback claimed => exact ⟨fun _ hw => Or.inl (mem_writes_rollback hw), trivial⟩
  | broadcast claimed record now delivered => exact ⟨fun _ hw => Or.inl hw, trivial⟩

theorem stage_of_valid {current new : Status} (h : new ∈ VALID_TRANSITIONS current) :
    ∃ stage, new.stage = some stage := by
  cases new with
  | PENDING => cases current <;> simp [VALID_TRANSITIONS] at h
  | DISPATCHED => exact ⟨.dispatched, rfl⟩
  | ACKNOWLEDGED => exact ⟨.acknowledged, rfl⟩
  | EXECUTING => exact ⟨.started, rfl⟩
  | COMPLETED | FAILED | TIMEOUT | CANCELLED => exact ⟨.completed, rfl⟩

theorem check_timed {command_id : CommandId} {update_data : CommandStatusUpdate}
    {record : RobotCommand} (h : Version db command_id record.status clock) (hle : clock ≤ later) :
    Timed later db (.update command_id update_data (checkTransition record update_data later)) := by
  unfold checkTransition
  split
  · trivial
  · split
    · trivial
    · split
      · trivial
      · exact ⟨h.mono (List.Subset.refl _) hle, Int.le_refl _⟩

theorem update_stamps {command_id : CommandId} {update_data : CommandStatusUpdate}
    {state state' : UpdateState} (hsound : Sound Advance db)
    (hlocal : Local db r (.update command_id update_data state))
    (hordered : ∀ w ∈ db.log ++ db.dirty, Ordered w.after ∧ ∀ t ∈ w.after.times, t ≤ clock)
    (htimed : Timed clock db (.update command_id update_data state)) (hle : clock ≤ later)
    (hstamp : ∀ record, state = .stamp record → state' = checkTransition record update_data later)
    (hstep : UpdateStep command_id update_data db r state db' state' out) :
    Stamps later db db' (.update command_id update_data state') := by
  have hcons := hlocal.consistent
  have hledger := hlocal.ledger
  cases hstep with
  | missing hnone => exact ⟨fun _ hw => Or.inl hw, trivial⟩
  | select record hrow =>
      have hversion := (version_of_committed
        (fun w hw => (hordered w (List.mem_append_left _ hw)).2) hrow).1
      exact ⟨fun _ hw => Or.inl hw, hversion.mono (List.Subset.refl _) hle⟩
  | check record now =>
      rw [hstamp record rfl]
      exact ⟨fun _ hw => Or.inl hw, check_timed htimed hle⟩
  | matched current new now row values hrow hcurrent hfree hvalues =>
      obtain ⟨hversion, hnow⟩ := htimed
      obtain ⟨hvalid, _⟩ := hcons
      subst hcurrent
      have hlate := hversion.row_times hsound hledger.1 hrow
      obtain ⟨hfresh, v, hv, rfl⟩ := visible_version hsound hrow
      obtain ⟨stage, hstage⟩ := stage_of_valid hvalid
      obtain ⟨hentered, hstamps⟩ := transition_values_eq_some hvalues v.after
      have hadvance : Advance command_id (some v.after) _ := advance_transition hvalues hvalid
      obtain ⟨hrises, hbound⟩ := ordered_step stage now hadvance hfresh (hordered v hv).1
        (by rw [hentered, hstage]) (by rw [hstamps, if_pos hstage]) hlate
      refine ⟨fun w hw => (mem_writes_write hw).imp_right ?_, trivial⟩
      rintro rfl
      exact ⟨hrises, fun t ht => Int.le_trans (hbound t ht) (Int.le_trans hnow hle)⟩
  | missed current new now hmiss => exact ⟨fun _ hw => Or.inl hw, trivial⟩
  | commit new now matched => exact ⟨fun _ hw => Or.inl (mem_writes_commit hw), trivial⟩
  | vanished new now matched hnone => exact ⟨fun _ hw => Or.inl hw, trivial⟩
  | reread new now matched current hrow =>
      refine ⟨fun _ hw => Or.inl hw, ?_⟩
      unfold afterReread
      split
      · trivial
      · split <;> trivial
  | broadcast payload now delivered => exact ⟨fun _ hw => Or.inl hw, trivial⟩

theorem nextUpdate_timed {now started : Instant} {expired timed_out : List RobotCommand}
    (h : started ≤ clock) : Timed clock db (.scan (nextUpdate now started expired timed_out)) := by
  unfold nextUpdate afterUpdates
  split
  · split <;> trivial
  · exact h

theorem scan_stamps {state state' : ScanState} (hsound : Sound Advance db)
    (hordered : ∀ w ∈ db.log ++ db.dirty, Ordered w.after ∧ ∀ t ∈ w.after.times, t ≤ clock)
    (htimed : Timed clock db (.scan state)) (hle : clock ≤ later)
    (hsettled : ∀ now started cmd rest timed_out row, state = .update now started (cmd :: rest) timed_out →
      db.visible r cmd.id = some row → row.status ∉ TERMINAL_STATES →
        ∀ t ∈ row.times, t ≤ started)
    (hstep : ScanStep db r later state db' state' out) : Stamps later db db' (.scan state') := by
  cases hstep with
  | select now ids hids => exact ⟨fun _ hw => Or.inl hw, nextUpdate_timed (Int.le_refl _)⟩
  | skip now started timed_out =>
      refine ⟨fun _ hw => Or.inl hw, ?_⟩
      unfold afterUpdates
      split <;> trivial
  | matched now started cmd rest timed_out row hrow hopen hfree =>
      have hstarted : started ≤ clock := htimed
      have hlate := hsettled now started cmd rest timed_out row rfl hrow hopen
      obtain ⟨hfresh, v, hv, rfl⟩ := visible_version hsound hrow
      have hadvance : Advance cmd.id (some v.after) ((timeoutValues cmd started).apply v.after) :=
        advance_timeout started _ _ hopen
      obtain ⟨hrises, hbound⟩ := ordered_step .completed started hadvance hfresh (hordered v hv).1 rfl rfl
        hlate
      refine ⟨fun w hw => (mem_writes_write hw).imp_right ?_,
        nextUpdate_timed (Int.le_trans hstarted hle)⟩
      rintro rfl
      exact ⟨hrises, fun t ht => Int.le_trans (hbound t ht) (Int.le_trans hstarted hle)⟩
  | missed now started cmd rest timed_out hmiss =>
      exact ⟨fun _ hw => Or.inl hw, nextUpdate_timed (Int.le_trans htimed hle)⟩
  | commit now timed_out => exact ⟨fun _ hw => Or.inl (mem_writes_commit hw), trivial⟩
  | announced now => exact ⟨fun _ hw => Or.inl hw, trivial⟩
  | broadcast now cmd rest delivered =>
      refine ⟨fun _ hw => Or.inl hw, ?_⟩
      split <;> trivial

end Clock

section Runs

variable {s t : System} {clock later : Instant} {r : RequestId} {now : Instant} {choice : Choice}

-- The two steps at which a call samples the clock for a stamp.
theorem claim_samples {robot_id : Int} {claimed : List ClaimedCommand} {record : RobotCommand}
    (hrequest : s.requests r = some (.claim robot_id (.stamp claimed record)))
    (hstep : s.step (.advance r now choice) = some t) :
    t.requests r = some (.claim robot_id (.update claimed record now)) := by
  simp only [System.step, hrequest, Option.bind_some, Option.map_eq_some_iff, Request.next,
    claim_pending_commands] at hstep
  obtain ⟨_, ⟨_, hclaim, rfl⟩, rfl⟩ := hstep
  cases hclaim
  exact Function.update_self _ _ _

theorem update_samples {command_id : CommandId} {update_data : CommandStatusUpdate}
    {record : RobotCommand}
    (hrequest : s.requests r = some (.update command_id update_data (.stamp record)))
    (hstep : s.step (.advance r now choice) = some t) :
    t.requests r = some (.update command_id update_data (checkTransition record update_data now)) := by
  simp only [System.step, hrequest, Option.bind_some, Option.map_eq_some_iff, Request.next,
    update_status] at hstep
  obtain ⟨_, ⟨_, hupdate, rfl⟩, rfl⟩ := hstep
  cases hupdate
  exact Function.update_self _ _ _

theorem Clocked.acted (h : Clocked clock s) {db' : Table} {request : Request}
    {published : List (RequestId × Message)} (hle : clock ≤ later)
    (heffect : Effect Advance s.db r db') (hstamps : Stamps later s.db db' request) :
    Clocked later ⟨db', Function.update s.requests r (some request), published⟩ where
  ordered := by
    intro w hw
    rcases hstamps.writes w hw with hw | hnew
    · exact ⟨(h.ordered w hw).1, fun t ht => Int.le_trans ((h.ordered w hw).2 t ht) hle⟩
    · exact hnew
  timed := Runs.forall_update hstamps.timed fun r' request' _ hrequest =>
    (h.timed r' request' hrequest).mono heffect.log_subset hle

theorem begin_timed (db : Table) (now : Instant) (call : Call) : Timed now db (call.begin now) := by
  cases call with
  | create_command cmd_id robot_id command => exact Int.le_refl _
  | _ => trivial

theorem abort_timed (db : Table) (request : Request) : Timed clock db request.abort := by
  cases request <;> trivial

theorem Clocked.step (later : Instant) {action : Action} (hinv : Inv s) (h : Clocked clock s)
    (hsettled : settled s action = true) (hle : clock ≤ later)
    (htime : ∀ now, action.time = some now → now = later) (hstep : s.step action = some t) :
    Clocked later t := by
  cases system_step hstep with
  | start r now call hidle =>
      cases htime now rfl
      exact h.acted hle .same ⟨fun _ hw => Or.inl hw, begin_timed s.db _ call⟩
  | create r now choice robot_id command state state' db' out hrequest hown =>
      cases htime now rfl
      have hlocal := hinv.active r _ hrequest
      exact h.acted hle (create_local hinv.sound hlocal hown).1
        (create_stamps hlocal (h.timed r _ hrequest) hle hown)
  | claim r now choice robot_id state state' db' out hrequest hown =>
      cases htime now rfl
      have hlocal := hinv.active r _ hrequest
      refine h.acted hle (claim_local hinv.sound hlocal hown).1
        (claim_stamps hinv.sound hlocal h.ordered (h.timed r _ hrequest) hle ?_ hown)
      rintro claimed record rfl
      have hsampled := claim_samples hrequest hstep
      simp only [Function.update_self, Option.some.injEq, Request.claim.injEq] at hsampled
      exact hsampled.2
  | update r now choice command_id update_data state state' db' out hrequest hown =>
      cases htime now rfl
      have hlocal := hinv.active r _ hrequest
      refine h.acted hle (update_local hinv.sound hlocal hown).1
        (update_stamps hinv.sound hlocal h.ordered (h.timed r _ hrequest) hle ?_ hown)
      rintro record rfl
      have hsampled := update_samples hrequest hstep
      simp only [Function.update_self, Option.some.injEq, Request.update.injEq] at hsampled
      exact hsampled.2.2
  | scan r now choice state state' db' out hrequest hown =>
      cases htime now rfl
      refine h.acted hle (scan_local hinv.sound (hinv.active r _ hrequest) hown).1
        (scan_stamps hinv.sound h.ordered (h.timed r _ hrequest) hle ?_ hown)
      rintro now' started cmd rest timed_out row rfl hrow hopen t ht
      simp only [settled, hrequest, hrow, Option.all_some, Bool.or_eq_true, decide_eq_true_eq,
        List.all_eq_true] at hsettled
      exact hsettled.resolve_left hopen t ht
  | fail r request hrequest hopen =>
      exact h.acted hle .rollback ⟨fun _ hw => Or.inl (mem_writes_rollback hw), abort_timed _ request⟩

theorem clocked_init (clock : Instant) : Clocked clock System.init where
  ordered := by simp [System.init, Store.empty]
  timed := by simp [System.init]

theorem clocked_run {actions : List Action} (hinv : Inv s) (h : Clocked clock s)
    (hmonotone : Monotone actions) (hlate : ∀ now ∈ actions.filterMap Action.time, clock ≤ now)
    (hsettled : Runs.Along System.step (fun s action => settled s action = true) s actions)
    (hrun : Reaches s actions t) : ∃ later, Clocked later t := by
  induction actions generalizing s clock with
  | nil =>
      cases hrun
      exact ⟨clock, h⟩
  | cons action actions ih =>
      obtain ⟨u, hstep, hrest⟩ := (Runs.exec_cons_iff s t action actions).mp hrun
      have hsettled' := hsettled.2 u hstep
      unfold Monotone at hmonotone ih
      cases htime : action.time with
      | none =>
          rw [List.filterMap_cons, htime] at hmonotone hlate
          have hu := h.step clock hinv hsettled.1 (Int.le_refl _)
            (fun now hnow => by rw [htime] at hnow; cases hnow) hstep
          exact ih (hinv.step hstep) hu hmonotone hlate hsettled' hrest
      | some now =>
          rw [List.filterMap_cons, htime] at hmonotone hlate
          obtain ⟨hafter, hmonotone⟩ := List.pairwise_cons.mp hmonotone
          have hu := h.step now hinv hsettled.1 (hlate now (List.mem_cons_self ..))
            (fun now' hnow' => by rw [htime] at hnow'; exact (Option.some.inj hnow').symm) hstep
          exact ih (hinv.step hstep) hu hmonotone hafter hsettled' hrest

-- With one clock that does not go back, and no command advanced between a scan's SELECT
-- and its UPDATE of that command, the times of every committed command are in order.
theorem timestamps_ordered {actions : List Action} (hs : Reaches System.init actions s)
    (hmonotone : Monotone actions) (hsettled : AllSettled actions) :
    ∀ id row, s.db.committed id = some row → Ordered row := by
  obtain ⟨first, hfirst⟩ : ∃ first, ∀ now ∈ actions.filterMap Action.time, first ≤ now := by
    unfold Monotone at hmonotone
    cases htimes : actions.filterMap Action.time with
    | nil => exact ⟨0, by simp⟩
    | cons first times =>
        rw [htimes] at hmonotone
        refine ⟨first, fun now hnow => ?_⟩
        rcases List.mem_cons.mp hnow with rfl | hnow
        · exact Int.le_refl _
        · exact (List.pairwise_cons.mp hmonotone).1 now hnow
  obtain ⟨later, hclocked⟩ := clocked_run inv_init (clocked_init first) hmonotone hfirst hsettled hs
  intro id row hrow
  obtain ⟨w, hw, _, rfl⟩ := exists_write_of_latest hrow
  exact (hclocked.ordered w (List.mem_append_left _ hw)).1

end Runs

section Overtaken

-- A scan selects a command that has been dispatched; it is acknowledged before the scan's
-- UPDATE, which stamps the start of the scan's transaction.
def overtakenSweep : List Action :=
  createRun 0 10 7 1 ⟨"RESUME", none, some 5, none⟩ ++ claimRun 1 20 1 [7] ++
    [.start 2 6000000 .scan_for_timeouts, .advance 2 6000001 (.rows [7])] ++
    updateRun 3 6000002 7 ⟨"ACKNOWLEDGED", none, none, none⟩ ++
    [.advance 2 6000003 .quiet, .advance 2 6000004 .quiet]

theorem timestamps_overtaken : ¬ ∀ (actions : List Action) (s : System),
    Reaches System.init actions s → Monotone actions →
      ∀ id row, s.db.committed id = some row → Ordered row := by
  intro hordered
  let s := (Runs.exec System.step System.init overtakenSweep).getD System.init
  have hrun : Reaches System.init overtakenSweep s := rfl
  have hmonotone : Monotone overtakenSweep := by
    unfold Monotone
    decide +kernel
  have hrow := hordered overtakenSweep s hrun hmonotone 7 _ rfl
  have htimes : ¬ List.Pairwise (· ≤ ·) ([10, 20, 6000002, 6000001] : List Instant) := by decide
  exact htimes hrow

-- The same command, with no scan in between.
def settledRun : List Action :=
  createRun 0 10 7 1 ⟨"RESUME", none, some 5, none⟩ ++ claimRun 1 20 1 [7] ++
    updateRun 3 30 7 ⟨"ACKNOWLEDGED", none, none, none⟩ ++
    [.start 2 6000000 .scan_for_timeouts, .advance 2 6000001 (.rows [7]),
      .advance 2 6000003 .quiet, .advance 2 6000004 .quiet]

theorem timestamps_settled : ∃ s row, Reaches System.init settledRun s ∧
    s.db.committed 7 = some row ∧ row.times = [10, 20, 30, 6000001] ∧ Ordered row := by
  let s := (Runs.exec System.step System.init settledRun).getD System.init
  have hrun : Reaches System.init settledRun s := rfl
  have hmonotone : Monotone settledRun := by
    unfold Monotone
    decide +kernel
  exact ⟨s, _, hrun, rfl, rfl, timestamps_ordered hrun hmonotone (by decide +kernel) 7 _ rfl⟩

end Overtaken

end FleetOps.Command
