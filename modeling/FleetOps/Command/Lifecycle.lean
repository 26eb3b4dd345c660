import FleetOps.Command.Invariant

namespace FleetOps.Command

open RowStore

-- The statuses a command has had in the committed table, oldest first.
def committedStatuses (s : System) (id : CommandId) : List Status :=
  (s.db.history id).map fun w => w.after.status

def writesStamp (stage : Stage) (w : RowWrite) : Bool :=
  decide (w.after.stamp stage ≠ w.before.bind fun row => row.stamp stage)

theorem rank_lt_of_advance (id : CommandId) (before after : RobotCommand)
    (h : Advance id (some before) after) : before.status.rank < after.status.rank :=
  rank_lt_of_valid h.2.1

theorem isChain_of_linked {row : RobotCommand} {ws : List RowWrite}
    (hlinked : Linked (some row) ws) (hguard : ∀ w ∈ ws, Advance w.key w.before w.after) :
    List.IsChain (fun a b => b ∈ VALID_TRANSITIONS a)
      (row.status :: ws.map fun w => w.after.status) := by
  induction ws generalizing row with
  | nil => simp
  | cons w ws ih =>
      obtain ⟨hbefore, hrest⟩ := hlinked
      have hw := hguard w (by simp)
      rw [hbefore] at hw
      rw [List.map_cons, List.isChain_cons_cons]
      exact ⟨hw.2.1, ih hrest (fun v hv => hguard v (List.mem_cons_of_mem _ hv))⟩

theorem stamp_of_linked {row last : RobotCommand} {ws : List RowWrite} (stage : Stage)
    (hlinked : Linked (some row) ws) (hguard : ∀ w ∈ ws, Advance w.key w.before w.after)
    (hlast : ending (some row) ws = some last) :
    (last.stamp stage).isSome ↔
      (row.stamp stage).isSome ∨ ∃ w ∈ ws, w.after.status.stage = some stage := by
  induction ws generalizing row with
  | nil =>
      cases hlast
      simp
  | cons w ws ih =>
      obtain ⟨hbefore, hrest⟩ := hlinked
      have hw := hguard w (by simp)
      rw [hbefore] at hw
      have hstamp := hw.2.2 stage
      rw [ih hrest (fun v hv => hguard v (List.mem_cons_of_mem _ hv)) hlast]
      by_cases hstage : w.after.status.stage = some stage
      · simp only [hstage, if_true] at hstamp
        simp [hstamp, hstage]
      · simp only [hstage, if_false] at hstamp
        simp [hstamp, hstage]

-- A write that changes a stage's column enters that stage.
theorem stage_of_writesStamp {stage : Stage} {w : RowWrite}
    (hw : Advance w.key w.before w.after) (h : writesStamp stage w = true) :
    w.after.status.stage = some stage := by
  have hne := of_decide_eq_true h
  by_contra hstage
  cases hbefore : w.before with
  | none =>
      rw [hbefore] at hw hne
      exact hne (hw.2.2 stage)
  | some row =>
      rw [hbefore] at hw hne
      have hstamp := hw.2.2 stage
      simp only [hstage, if_false] at hstamp
      exact hne hstamp

theorem length_le_one_of_rank {ws : List RowWrite} (rank : Nat)
    (hpair : (ws.map fun w => w.after.status.rank).Pairwise (· < ·))
    (hrank : ∀ w ∈ ws, w.after.status.rank = rank) : ws.length ≤ 1 := by
  match ws with
  | [] => simp
  | [_] => simp
  | v :: w :: rest =>
      have hv := hrank v (by simp)
      have hw := hrank w (by simp)
      simp only [List.map_cons, List.pairwise_cons, List.mem_cons, forall_eq_or_imp] at hpair
      omega

theorem history_ranks {db : Table} (hsound : Sound Advance db) (id : CommandId) :
    ((db.history id).map fun w => w.after.status.rank).Pairwise (· < ·) :=
  (pairwise_rank_of_linked (fun row => row.status.rank) rank_lt_of_advance
    (hsound.history_linked id) (hsound.history_guard id)).1

-- The ranks along a history rise, so each is reached by one write at most.
theorem filter_le_one_of_rank {db : Table} (hsound : Sound Advance db) (id : CommandId)
    (p : RowWrite → Bool) (rank : Nat)
    (hrank : ∀ w ∈ db.history id, p w = true → w.after.status.rank = rank) :
    ((db.history id).filter p).length ≤ 1 := by
  have hpair := (history_ranks hsound id).sublist
    (List.filter_sublist (p := p).map fun w : RowWrite => w.after.status.rank)
  refine length_le_one_of_rank rank hpair fun w hw => ?_
  obtain ⟨hw, hpw⟩ := List.mem_filter.mp hw
  exact hrank w hw hpw

theorem eq_of_rank {db : Table} (hsound : Sound Advance db) {v w : RowWrite} (hv : v ∈ db.log)
    (hw : w ∈ db.log) (hkey : v.key = w.key)
    (hrank : v.after.status.rank = w.after.status.rank) : v = w := by
  have hone := filter_le_one_of_rank hsound w.key
    (fun u => decide (u.after.status.rank = w.after.status.rank)) _
    (fun u _ hu => of_decide_eq_true hu)
  have hmem : ∀ u ∈ db.log, u.key = w.key → u.after.status.rank = w.after.status.rank →
      u ∈ (db.history w.key).filter fun u => decide (u.after.status.rank = w.after.status.rank) :=
    fun u hu hukey hurank =>
      List.mem_filter.mpr ⟨mem_lineage.mpr ⟨hu, hukey⟩, decide_eq_true hurank⟩
  have hv' := hmem v hv hkey hrank
  have hw' := hmem w hw rfl rfl
  obtain ⟨u, hu⟩ := List.length_eq_one_iff.mp (le_antisymm hone (List.length_pos_of_mem hw'))
  rw [hu, List.mem_singleton] at hv' hw'
  rw [hv', hw']

theorem writesStamp_le_one {db : Table} (hsound : Sound Advance db) (id : CommandId)
    (stage : Stage) : ((db.history id).filter (writesStamp stage)).length ≤ 1 :=
  filter_le_one_of_rank hsound id _ stage.rank fun w hw hwrites =>
    rank_of_stage (stage_of_writesStamp (hsound.history_guard id w hw) hwrites)

-- The history of a committed row starts with its insert.
theorem history_cases {db : Table} (hsound : Sound Advance db) {id : CommandId}
    {row : RobotCommand} (hrow : db.committed id = some row) :
    ∃ w ws, db.history id = w :: ws ∧ w.before = none ∧ Advance w.key none w.after ∧
      Linked (some w.after) ws ∧ (∀ v ∈ ws, Advance v.key v.before v.after) ∧
      ending (some w.after) ws = some row := by
  have hlinked := hsound.history_linked id
  have hguard := hsound.history_guard id
  have hending : ending none (db.history id) = some row := hrow
  cases hhistory : db.history id with
  | nil =>
      rw [hhistory] at hending
      cases hending
  | cons w ws =>
      rw [hhistory] at hlinked hguard hending
      have hw := hguard w (by simp)
      rw [hlinked.1] at hw
      exact ⟨w, ws, rfl, hlinked.1, hw, hlinked.2,
        fun v hv => hguard v (List.mem_cons_of_mem _ hv), hending⟩

-- A terminal row is final: no write follows one.
def Settles (before after : RobotCommand) : Prop :=
  before.status ∈ TERMINAL_STATES → after = before

theorem settles_of_advance (id : CommandId) (before after : RobotCommand)
    (h : Advance id (some before) after) : Settles before after :=
  fun hterminal => absurd h.2.1 (valid_terminal hterminal)

theorem committed_settles {s t : System} {actions : List Action} (hinv : Inv s)
    (hrun : Reaches s actions t) {id : CommandId} {row : RobotCommand}
    (hrow : s.db.committed id = some row) :
    ∃ row', t.db.committed id = some row' ∧ Settles row row' := by
  refine Runs.exec_relation (I := Inv)
    (R := fun u v => ∀ row, u.db.committed id = some row →
      ∃ row', v.db.committed id = some row' ∧ Settles row row')
    (fun u row hu => ⟨row, hu, fun _ => rfl⟩) ?_ ?_ hinv hrun row hrow
  · rintro u v w huv hvw row hu
    obtain ⟨row', hv, hsettles⟩ := huv row hu
    obtain ⟨row'', hw, hsettles'⟩ := hvw row' hv
    refine ⟨row'', hw, fun hterminal => ?_⟩
    have heq := hsettles hterminal
    rw [← heq] at hterminal ⊢
    exact hsettles' (heq ▸ hterminal)
  · intro u action v hu hstep
    refine ⟨hu.step hstep, fun row hrow => ?_⟩
    exact hu.sound.committed_effect (hu.acts hstep).effect (fun _ _ => rfl)
      (fun a b c hab hbc hterminal => (hbc (hab hterminal ▸ hterminal)).trans (hab hterminal))
      settles_of_advance hrow

theorem getLast_of_ending {row last : RobotCommand} {ws : List RowWrite}
    (hlast : ending (some row) ws = some last) :
    (row.status :: ws.map fun w => w.after.status).getLast? = some last.status := by
  induction ws generalizing row with
  | nil =>
      cases hlast
      rfl
  | cons w ws ih =>
      rw [List.map_cons, List.getLast?_cons_cons]
      exact ih hlast

-- Whatever creates, claims, status updates and scans do to one table, in any
-- interleaving of their statements.
theorem command_lifecycle {past future : List Action} {s t : System}
    (hs : Reaches System.init past s) (ht : Reaches s future t) (id : CommandId) :
    (∀ row, t.db.committed id = some row →
      (committedStatuses t id).head? = some .PENDING ∧
      (committedStatuses t id).IsChain (fun a b => b ∈ VALID_TRANSITIONS a) ∧
      (committedStatuses t id).getLast? = some row.status ∧
      ∀ stage, (row.stamp stage).isSome ↔
        ∃ status ∈ committedStatuses t id, status.stage = some stage) ∧
    (∀ stage, ((t.db.history id).filter (writesStamp stage)).length ≤ 1) ∧
    (∀ row, s.db.committed id = some row → row.status ∈ TERMINAL_STATES →
      t.db.committed id = some row) := by
  have hinv : Inv s := inv_init.run hs
  have hsound := (hinv.run ht).sound
  refine ⟨fun row hrow => ?_, writesStamp_le_one hsound id, fun row hrow hterminal => ?_⟩
  · obtain ⟨w, ws, hhistory, _, ⟨_, hpending, hstamps⟩, hlinked, hguard, hending⟩ :=
      history_cases hsound hrow
    have hchain := isChain_of_linked hlinked hguard
    have hlast := getLast_of_ending hending
    rw [hpending] at hchain hlast
    have hstatuses : committedStatuses t id = .PENDING :: ws.map fun v => v.after.status := by
      rw [committedStatuses, hhistory, List.map_cons, hpending]
    rw [hstatuses]
    refine ⟨rfl, hchain, hlast, fun stage => ?_⟩
    rw [stamp_of_linked stage hlinked hguard hending, hstamps stage]
    simp [Status.stage]
  · obtain ⟨row', hrow', hsettles⟩ := committed_settles hinv ht hrow
    rw [hrow', hsettles hterminal]

-- A command is claimed, acknowledged and completed; a late failure report finds it final.
theorem command_lifecycle_completed : ∃ s t,
    Reaches System.init (createRun 0 10 7 1 ⟨"RESUME", none, none, none⟩ ++ claimRun 1 20 1 [7] ++
      updateRun 2 30 7 ⟨"ACKNOWLEDGED", none, none, none⟩ ++
      updateRun 3 40 7 ⟨"COMPLETED", none, none, none⟩) s ∧
    Reaches s ((updateRun 4 50 7 ⟨"FAILED", none, none, none⟩).take 3) t ∧
    committedStatuses t 7 = [.PENDING, .DISPATCHED, .ACKNOWLEDGED, .COMPLETED] ∧
    (committedStatuses t 7).IsChain (fun a b => b ∈ VALID_TRANSITIONS a) ∧
    t.db.committed 7 = s.db.committed 7 := by
  have hrun : ((Runs.exec System.step System.init (createRun 0 10 7 1 ⟨"RESUME", none, none, none⟩ ++
      claimRun 1 20 1 [7] ++ updateRun 2 30 7 ⟨"ACKNOWLEDGED", none, none, none⟩ ++
      updateRun 3 40 7 ⟨"COMPLETED", none, none, none⟩)).any fun s =>
      (s.db.committed 7).any (fun row => row.status ∈ TERMINAL_STATES) &&
      (Runs.exec System.step s ((updateRun 4 50 7 ⟨"FAILED", none, none, none⟩).take 3)).any fun t =>
        committedStatuses t 7 = [.PENDING, .DISPATCHED, .ACKNOWLEDGED, .COMPLETED]) = true := by
    decide +kernel
  simp only [Option.any_eq_true, Bool.and_eq_true, decide_eq_true_eq] at hrun
  obtain ⟨s, hs, ⟨row, hrow, hterminal⟩, t, ht, hstatuses⟩ := hrun
  obtain ⟨hpath, _, hfinal⟩ := command_lifecycle hs ht 7
  have hsame := hfinal row hrow hterminal
  exact ⟨s, t, hs, ht, hstatuses, (hpath row hsame).2.1, hsame.trans hrow.symm⟩

end FleetOps.Command
