import FleetOps.Command.Lifecycle

namespace FleetOps.Command

open RowStore

-- A write that takes a command from PENDING to DISPATCHED, whoever makes it.
def dispatches (w : RowWrite) : Bool :=
  w.before.any (fun old => decide (old.status = .PENDING)) && decide (w.after.status = .DISPATCHED)

theorem rank_of_dispatches {w : RowWrite} (h : dispatches w = true) :
    w.after.status.rank = Status.DISPATCHED.rank := by
  simp only [dispatches, Bool.and_eq_true, decide_eq_true_eq] at h
  rw [h.2]

theorem dispatches_le_one {db : Table} (hsound : Sound Advance db) (id : CommandId) :
    ((db.history id).filter dispatches).length ≤ 1 :=
  filter_le_one_of_rank hsound id _ _ fun _ _ => rank_of_dispatches

theorem eq_of_dispatches {db : Table} (hsound : Sound Advance db) {v w : RowWrite}
    (hv : v ∈ db.log) (hw : w ∈ db.log) (hkey : v.key = w.key) (hdv : dispatches v = true)
    (hdw : dispatches w = true) : v = w :=
  eq_of_rank hsound hv hw hkey ((rank_of_dispatches hdv).trans (rank_of_dispatches hdw).symm)

theorem dispatches_of_authored {robot_id : Int} {state : ClaimState} {w : RowWrite}
    (h : Authored (.claim robot_id state) w) : dispatches w = true ∧ w.after.robot_id = robot_id := by
  obtain ⟨old, now, hbefore, hpending, hrobot, hafter⟩ := h
  rw [dispatches, hbefore, hafter]
  exact ⟨by simp [hpending, dispatched, Values.apply], hrobot⟩

-- Whatever a claim request commits is a dispatch of its own robot's command.
theorem done_dispatches {s : System} (hinv : Inv s) {r : RequestId} {robot_id : Int}
    {state : ClaimState} (hclaim : s.requests r = some (.claim robot_id state)) :
    ∀ w ∈ s.db.done r, dispatches w = true ∧ w.after.robot_id = robot_id := by
  intro w hw
  exact dispatches_of_authored ((hinv.active r _ hclaim).authored w (List.mem_append_right _ hw))

theorem done_keys_nodup {s : System} (hinv : Inv s) {r : RequestId} {robot_id : Int}
    {state : ClaimState} (hclaim : s.requests r = some (.claim robot_id state)) :
    ((s.db.done r).map Write.key).Nodup := by
  rw [List.nodup_iff_count_le_one]
  intro id
  have hdone := done_dispatches hinv hclaim
  have hsub : ((s.db.done r).filter fun w => decide (w.key = id)).Sublist
      ((s.db.history id).filter dispatches) := by
    have hall : ((s.db.done r).filter fun w => decide (w.key = id)).filter dispatches =
        (s.db.done r).filter fun w => decide (w.key = id) :=
      List.filter_eq_self.mpr fun w hw => (hdone w (List.mem_filter.mp hw).1).1
    rw [← hall]
    exact (List.filter_sublist.filter _).filter _
  have hcount : ((s.db.done r).map Write.key).count id =
      ((s.db.done r).filter fun w => decide (w.key = id)).length := by
    rw [List.count, List.countP_map, List.countP_eq_length_filter]
    exact congrArg List.length (List.filter_congr fun w _ => beq_eq_decide w.key id)
  have hone := dispatches_le_one hinv.sound id
  have hlength := hsub.length_le
  omega

theorem committed_robot {db : Table} (hsound : Sound Advance db) {w : RowWrite} (hw : w ∈ db.log) :
    ∃ row, db.committed w.key = some row ∧ row.robot_id = w.after.robot_id := by
  obtain ⟨row, hrow, hsame⟩ := hsound.committed_of_mem sameCommand_refl
    (fun _ _ _ => sameCommand_trans) (fun _ _ _ h => h.1) hw
  exact ⟨row, hrow, hsame.2.1.symm⟩

theorem claimed_write {s : System} (hinv : Inv s) {r : RequestId} {robot_id : Int}
    {claimed : List ClaimedCommand} (hclaim : s.requests r = some (.claim robot_id (.returned claimed)))
    {id : CommandId} (hid : id ∈ claimed.map ClaimedCommand.id) :
    ∃ w ∈ s.db.log, w.writer = r ∧ w.key = id ∧ dispatches w = true ∧
      w.after.robot_id.val = robot_id := by
  obtain ⟨_, hkeys⟩ := (hinv.active r _ hclaim).ledger
  rw [hkeys] at hid
  obtain ⟨w, hw, hkey⟩ := List.mem_map.mp hid
  obtain ⟨hdispatches, hrobot⟩ := done_dispatches hinv hclaim w hw
  obtain ⟨hlog, hwriter⟩ := mem_done.mp hw
  exact ⟨w, hlog, hwriter, hkey, hdispatches, hrobot⟩

-- A claim response holds commands of its own robot that this request, and no
-- other, took from PENDING to DISPATCHED.
theorem claim_exclusive {actions : List Action} {s : System} (hs : Reaches System.init actions s)
    {r : RequestId} {robot_id : Int} {claimed : List ClaimedCommand}
    (hclaim : s.requests r = some (.claim robot_id (.returned claimed))) :
    (claimed.map ClaimedCommand.id).Nodup ∧
    ∀ id ∈ claimed.map ClaimedCommand.id,
      (∃ row, s.db.committed id = some row ∧ row.robot_id.val = robot_id) ∧
      (∃ w, (s.db.history id).filter dispatches = [w] ∧ w.writer = r) ∧
      ∀ r' robot_id' claimed', s.requests r' = some (.claim robot_id' (.returned claimed')) →
        id ∈ claimed'.map ClaimedCommand.id → r' = r := by
  have hinv : Inv s := inv_init.run hs
  obtain ⟨_, hkeys⟩ := (hinv.active r _ hclaim).ledger
  refine ⟨by rw [hkeys]; exact done_keys_nodup hinv hclaim, fun id hid => ?_⟩
  obtain ⟨w, hw, hwriter, rfl, hdispatches, hrobot⟩ := claimed_write hinv hclaim hid
  refine ⟨?_, ?_, ?_⟩
  · obtain ⟨row, hrow, hrow'⟩ := committed_robot hinv.sound hw
    exact ⟨row, hrow, by rw [hrow', hrobot]⟩
  · have hmem : w ∈ (s.db.history w.key).filter dispatches :=
      List.mem_filter.mpr ⟨mem_lineage.mpr ⟨hw, rfl⟩, hdispatches⟩
    obtain ⟨u, hu⟩ := List.length_eq_one_iff.mp
      (le_antisymm (dispatches_le_one hinv.sound w.key) (List.length_pos_of_mem hmem))
    rw [hu, List.mem_singleton] at hmem
    exact ⟨u, hu, by rw [← hmem, hwriter]⟩
  · intro r' robot_id' claimed' hclaim' hid'
    obtain ⟨v, hv, hwriter', hkey, hdispatches', _⟩ := claimed_write hinv hclaim' hid'
    have hvw : v = w := eq_of_dispatches hinv.sound hv hw hkey hdispatches' hdispatches
    rw [← hwriter', ← hwriter, hvw]

-- The robot and the command ids of a finished claim's response.
def claimResponse : Option Request → Option (Int × List CommandId)
  | some (.claim robot_id (.returned claimed)) => some (robot_id, claimed.map ClaimedCommand.id)
  | _ => none

theorem returned_of_claimResponse {request : Option Request} {robot_id : Int}
    {ids : List CommandId} (h : claimResponse request = some (robot_id, ids)) :
    ∃ claimed, request = some (.claim robot_id (.returned claimed)) ∧
      claimed.map ClaimedCommand.id = ids := by
  unfold claimResponse at h
  split at h <;> cases h
  exact ⟨_, rfl, rfl⟩

-- Two polls of one robot race for the first of its two commands: both read it
-- as PENDING, the second loses and takes the other one.
theorem claim_exclusive_race : ∃ s,
    Reaches System.init (createRun 0 10 7 1 ⟨"RESUME", none, none, none⟩ ++
      createRun 1 11 8 1 ⟨"PAUSE", none, none, none⟩ ++
      [.start 2 20 (.claim_pending_commands 1), .start 3 20 (.claim_pending_commands 1),
        .advance 2 20 (.row 7), .advance 3 20 (.row 7), .advance 2 20 .quiet,
        .advance 3 20 .quiet, .advance 2 20 .quiet, .advance 2 20 .quiet,
        .advance 3 20 .quiet, .advance 3 20 .quiet] ++
      claimTurn 3 20 8 ++ [.advance 2 20 (.publish true), .advance 2 20 .noRow,
        .advance 3 20 .noRow]) s ∧
    claimResponse (s.requests 2) = some (1, [7]) ∧ claimResponse (s.requests 3) = some (1, [8]) ∧
    ∃ w, (s.db.history 7).filter dispatches = [w] ∧ w.writer = 2 := by
  refine Runs.exec_exists (P := fun s => claimResponse (s.requests 2) = some (1, [7]) ∧
    claimResponse (s.requests 3) = some (1, [8])) (by decide +kernel) fun s hs hresponses => ?_
  obtain ⟨hfirst, hsecond⟩ := hresponses
  obtain ⟨claimed, hclaim, hids⟩ := returned_of_claimResponse hfirst
  obtain ⟨_, hexclusive⟩ := claim_exclusive hs hclaim
  exact ⟨hfirst, hsecond, (hexclusive 7 (by simp [hids])).2.1⟩

end FleetOps.Command
