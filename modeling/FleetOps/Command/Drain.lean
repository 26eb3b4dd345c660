import Mathlib.Data.Finset.Card
import Mathlib.Data.List.MinMax
import FleetOps.Command.ClaimFailure
import FleetOps.Command.Sweep

namespace FleetOps.Command

open RowStore

-- The commands of a robot that a poll could still take.
def waiting (db : Table) (robot_id : Int) : Finset CommandId :=
  ((db.rows.filter (pendingFor robot_id)).map RobotCommand.id).toFinset

-- The commit of a new command of this robot.
def inserts (robot_id : Int) (s : System) : Action → Bool
  | .advance r _ _ =>
      match s.requests r with
      | some (.create robot _ (.commit _)) => decide (robot = robot_id)
      | _ => false
  | _ => false

-- No command is created for the robot on the way.
def NoCreation (robot_id : Int) (s : System) (actions : List Action) : Prop :=
  Runs.Along System.step (fun u action => inserts robot_id u action = false) s actions

instance decidableNoCreation (robot_id : Int) (s : System) (actions : List Action) :
    Decidable (NoCreation robot_id s actions) :=
  inferInstanceAs (Decidable (Runs.Along _ _ s actions))

-- No step of another call changes a command of the robot.
def NoOtherWriter (r : RequestId) (robot_id : Int) (s : System) (actions : List Action) : Prop :=
  Runs.Along System.step (fun u action => action.actor ≠ r → ∀ v, u.step action = some v →
    ∀ id row, row.robot_id.val = robot_id →
      (v.db.committed id = some row ↔ u.db.committed id = some row)) s actions

def Older (db : Table) (id id' : CommandId) : Prop :=
  ∀ row row', db.committed id = some row → db.committed id' = some row' →
    row.created_at ≤ row'.created_at

-- Commands of the table in the order they were created.
def OldestFirst (db : Table) (ids : List CommandId) : Prop :=
  (∀ id ∈ ids, ∃ row, db.committed id = some row) ∧ ids.Pairwise (Older db)

-- The steps a claim still has when nothing is added to its queue: five for each
-- command that waits, of which the one in hand has had some.
def ClaimState.budget (ids : Finset CommandId) : ClaimState → Nat
  | .select _ => 5 * ids.card + 1
  | .stamp _ record => 5 * (ids.erase record.id).card + 5
  | .update _ record _ => 5 * (ids.erase record.id).card + 4
  | .commit _ record _ => 5 * (ids.erase record.id).card + 3
  | .rollback _ => 5 * ids.card + 2
  | .broadcast _ _ _ => 5 * ids.card + 2
  | .returned _ => 0
  | .raised _ => 0

-- The commands a claim has taken, with the one it is about to take.
def ClaimState.taken : ClaimState → List CommandId
  | .stamp claimed record | .update claimed record _ | .commit claimed record _ =>
      claimed.map ClaimedCommand.id ++ [record.id]
  | .select claimed | .rollback claimed | .broadcast claimed _ _ | .returned claimed =>
      claimed.map ClaimedCommand.id
  | .raised _ => []

section Queue

variable {db db' : Table} {r : RequestId} {robot_id : Int} {id : CommandId}

theorem pendingFor_iff {row : RobotCommand} :
    pendingFor robot_id row = true ↔ row.robot_id.val = robot_id ∧ row.status = .PENDING := by
  simp [pendingFor]

theorem mem_waiting (hsound : Sound Advance db) :
    id ∈ waiting db robot_id ↔ ∃ row, db.committed id = some row ∧ pendingFor robot_id row = true := by
  simp only [waiting, List.mem_toFinset, List.mem_map, List.mem_filter, mem_rows]
  constructor
  · rintro ⟨row, ⟨⟨key, hrow⟩, hpending⟩, rfl⟩
    exact ⟨row, by rwa [committed_id hsound hrow], hpending⟩
  · rintro ⟨row, hrow, hpending⟩
    exact ⟨row, ⟨⟨id, hrow⟩, hpending⟩, committed_id hsound hrow⟩

theorem waiting_eq_empty_iff :
    waiting db robot_id = ∅ ↔ ∀ row ∈ db.rows, pendingFor robot_id row = false := by
  simp [waiting, List.filter_eq_nil_iff]

-- A transaction that inserted nothing sees no row that is not committed.
theorem committed_of_visible (hsound : Sound Advance db)
    (hmine : ∀ w ∈ db.mine r, w.before ≠ none) {row : RobotCommand}
    (hrow : db.visible r id = some row) : ∃ row', db.committed id = some row' := by
  by_cases hid : id ∈ (db.mine r).map Write.key
  · have hne : lineage (db.mine r) id ≠ [] := by
      obtain ⟨w, hw, hkey⟩ := List.mem_map.mp hid
      exact List.ne_nil_of_mem (mem_lineage.mpr ⟨hw, hkey⟩)
    obtain ⟨w, ws, hlineage⟩ := List.exists_cons_of_ne_nil hne
    have hw : w ∈ db.mine r := (mem_lineage.mp (hlineage ▸ List.mem_cons_self)).1
    rcases hsound.lineage_split r id with ⟨hkey, _⟩ | ⟨hkey, _⟩
    · have hbefore := hsound.before_of_dirty (hkey.symm.trans hlineage)
      exact Option.ne_none_iff_exists'.mp (hbefore ▸ hmine w hw)
    · exact absurd hkey hne
  · exact ⟨row, by rwa [← visible_of_not_mem hid]⟩

-- A step may do this to a robot's queue when it adds nothing to it.
structure Kept (robot_id : Int) (db db' : Table) : Prop where
  rows : ∀ id row, db.committed id = some row →
    ∃ row', db'.committed id = some row' ∧ SameCommand row row'
  waiting : waiting db' robot_id ⊆ waiting db robot_id

end Queue

section Steps

variable {s t : System} {action : Action} {robot_id : Int}

-- Only a create commits a row that was not there.
theorem committed_origin (hinv : Inv s) (h : s.step action = some t)
    (hquiet : inserts robot_id s action = false) {id : CommandId} {row : RobotCommand}
    (hrow : t.db.committed id = some row) (hrobot : row.robot_id.val = robot_id) :
    ∃ row', s.db.committed id = some row' := by
  cases system_step h with
  | start r now call hidle => exact ⟨row, hrow⟩
  | create r now choice robot command state state' db' out hrequest hstep =>
      cases hstep with
      | commit cmd =>
          have hlocal := hinv.active r _ hrequest
          obtain ⟨_, w, hmine, hnew⟩ := hlocal.ledger
          obtain ⟨_, now', rfl⟩ := hlocal.consistent
          rw [committed_commit, Store.visible, hmine, latest_concat] at hrow
          split at hrow
          · have hother : robot ≠ robot_id := by simpa [inserts, hrequest] using hquiet
            refine absurd ?_ hother
            rw [← hrobot, ← Option.some.inj hrow]
            exact (newRow_inserted hnew).robot_id.symm
          · exact ⟨row, hrow⟩
      | _ => exact ⟨row, hrow⟩
  | claim r now choice robot state state' db' out hrequest hstep =>
      cases hstep with
      | commit claimed record now' =>
          refine committed_of_visible hinv.sound (fun w hw => ?_) hrow
          obtain ⟨old, _, hbefore, _⟩ :=
            (hinv.active r _ hrequest).authored w (List.mem_append_left _ hw)
          simp [hbefore]
      | _ => exact ⟨row, hrow⟩
  | update r now choice command_id update_data state state' db' out hrequest hstep =>
      cases hstep with
      | commit new now' matched =>
          refine committed_of_visible hinv.sound (fun w hw => ?_) hrow
          obtain ⟨_, old, _, _, _, hbefore, _⟩ :=
            (hinv.active r _ hrequest).authored w (List.mem_append_left _ hw)
          simp [hbefore]
      | _ => exact ⟨row, hrow⟩
  | scan r now choice state state' db' out hrequest hstep =>
      cases hstep with
      | commit now' timed_out =>
          refine committed_of_visible hinv.sound (fun w hw => ?_) hrow
          obtain ⟨old, _, _, hbefore, _⟩ :=
            (hinv.active r _ hrequest).authored w (List.mem_append_left _ hw)
          simp [hbefore]
      | _ => exact ⟨row, hrow⟩
  | fail r request hrequest hopen => exact ⟨row, hrow⟩

-- A command that is PENDING after a step was so before it: no transition leads back.
theorem kept_of_step (hinv : Inv s) (h : s.step action = some t)
    (hquiet : inserts robot_id s action = false) : Kept robot_id s.db t.db := by
  have heffect := (hinv.acts h).effect
  refine ⟨fun id row hrow => ?_, fun id hid => ?_⟩
  · exact hinv.sound.committed_effect heffect sameCommand_refl (fun _ _ _ => sameCommand_trans)
      (fun _ _ _ h => h.1) hrow
  · obtain ⟨row', hrow', hpending⟩ := (mem_waiting (hinv.step h).sound).mp hid
    obtain ⟨hrobot', hstatus'⟩ := pendingFor_iff.mp hpending
    obtain ⟨row, hrow⟩ := committed_origin hinv h hquiet hrow' hrobot'
    obtain ⟨row'', hrow'', hsame, hrank⟩ := hinv.sound.committed_effect
      (Q := fun a b => SameCommand a b ∧ a.status.rank ≤ b.status.rank) heffect
      (fun a => ⟨sameCommand_refl a, le_rfl⟩)
      (fun _ _ _ hab hbc => ⟨sameCommand_trans hab.1 hbc.1, hab.2.trans hbc.2⟩)
      (fun key a b h => ⟨h.1, (rank_lt_of_advance key a b h).le⟩) hrow
    rw [hrow'] at hrow''
    cases hrow''
    refine (mem_waiting hinv.sound).mpr ⟨row, hrow, pendingFor_iff.mpr ⟨?_, ?_⟩⟩
    · rw [hsame.2.1, hrobot']
    · rw [hstatus'] at hrank
      revert hrank
      cases row.status <;> decide

end Steps

section Claim

variable {s t : System} {action : Action} {r : RequestId} {robot_id : Int} {state : ClaimState}

-- What a step of the system is to a claim in progress.
inductive ClaimTurn (s : System) (r : RequestId) (robot_id : Int) (state : ClaimState)
    (action : Action) (t : System) : Prop where
  | own (hactor : action.actor = r) (state' : ClaimState) (out : List Message)
      (hstep : ClaimStep robot_id s.db r state t.db state' out)
      (hafter : t.requests r = some (.claim robot_id state')) : ClaimTurn s r robot_id state action t
  | failed (hactor : action.actor = r) (hopen : (Request.claim robot_id state).finished = false)
      (hdb : t.db = s.db.rollback r)
      (hafter : t.requests r = some (.claim robot_id (.raised .database))) :
      ClaimTurn s r robot_id state action t
  | other (hactor : action.actor ≠ r) (hafter : t.requests r = some (.claim robot_id state)) :
      ClaimTurn s r robot_id state action t

theorem claim_turn (h : s.step action = some t)
    (hclaim : s.requests r = some (.claim robot_id state)) : ClaimTurn s r robot_id state action t := by
  have hother : ∀ r' request, t.requests = Function.update s.requests r' (some request) →
      action.actor = r' → r ≠ r' → ClaimTurn s r robot_id state action t := by
    intro r' request hrequests hactor hne
    refine .other (by rw [hactor]; exact hne.symm) ?_
    rw [hrequests, Function.update_of_ne hne, hclaim]
  cases system_step h with
  | start r' now call hidle =>
      refine hother r' _ rfl rfl ?_
      rintro rfl
      rw [hclaim] at hidle
      cases hidle
  | create r' now choice robot command st st' db' out hrequest hstep =>
      refine hother r' _ rfl rfl ?_
      rintro rfl
      rw [hclaim] at hrequest
      cases hrequest
  | claim r' now choice robot st st' db' out hrequest hstep =>
      by_cases hr : r = r'
      · subst hr
        rw [hclaim] at hrequest
        cases hrequest
        exact .own rfl st' out hstep (by simp)
      · exact hother r' _ rfl rfl hr
  | update r' now choice command_id update_data st st' db' out hrequest hstep =>
      refine hother r' _ rfl rfl ?_
      rintro rfl
      rw [hclaim] at hrequest
      cases hrequest
  | scan r' now choice st st' db' out hrequest hstep =>
      refine hother r' _ rfl rfl ?_
      rintro rfl
      rw [hclaim] at hrequest
      cases hrequest
  | fail r' request hrequest hopen =>
      by_cases hr : r = r'
      · subst hr
        rw [hclaim] at hrequest
        cases hrequest
        exact .failed rfl hopen rfl (by simp [Request.abort])
      · exact hother r' _ rfl rfl hr

-- The commit of a claim dispatches the command in hand and touches no other.
theorem claim_commit (hinv : Inv s) {claimed : List ClaimedCommand} {record : RobotCommand}
    {now : Instant} (hclaim : s.requests r = some (.claim robot_id (.commit claimed record now))) :
    ∃ old stamped, s.db.committed record.id = some old ∧ pendingFor robot_id old = true ∧
      ∀ id, (s.db.commit r).committed id =
        if record.id = id then some (dispatched stamped old) else s.db.committed id := by
  have hlocal := hinv.active r _ hclaim
  obtain ⟨_, w, hmine, hkey⟩ := hlocal.ledger
  obtain ⟨old, stamped, hbefore, hpending, hrobot, hafter⟩ := hlocal.authored w (by simp [hmine])
  refine ⟨old, stamped, ?_, pendingFor_iff.mpr ⟨hrobot, hpending⟩, fun id => ?_⟩
  · rw [← hkey, committed_of_open_write hinv hmine, hbefore]
  · rw [committed_commit, Store.visible, hmine, latest_concat, hkey, hafter]
    rfl

theorem budget_mono {ids ids' : Finset CommandId} (h : ids ⊆ ids') (state : ClaimState) :
    state.budget ids ≤ state.budget ids' := by
  have hcard := Finset.card_le_card h
  have herase : ∀ id, (ids.erase id).card ≤ (ids'.erase id).card :=
    fun id => Finset.card_le_card (Finset.erase_subset_erase id h)
  cases state with
  | select claimed => simp only [ClaimState.budget]; omega
  | stamp claimed record => simp only [ClaimState.budget]; have := herase record.id; omega
  | update claimed record now => simp only [ClaimState.budget]; have := herase record.id; omega
  | commit claimed record now => simp only [ClaimState.budget]; have := herase record.id; omega
  | rollback claimed => simp only [ClaimState.budget]; omega
  | broadcast claimed record now => simp only [ClaimState.budget]; omega
  | returned claimed => exact Nat.le_refl _
  | raised error => exact Nat.le_refl _

-- A turn that loses its command to another finds it gone for good.
theorem claim_budget (hinv : Inv s) (hinv' : Inv t) (hkept : Kept robot_id s.db t.db)
    (hclaim : s.requests r = some (.claim robot_id state)) {state' : ClaimState}
    {out : List Message} (hstep : ClaimStep robot_id s.db r state t.db state' out) :
    state'.budget (waiting t.db robot_id) + 1 ≤ state.budget (waiting s.db robot_id) := by
  generalize hdb : t.db = db' at hstep hkept ⊢
  cases hstep with
  | drained claimed hnone => simp [ClaimState.budget]
  | found claimed id record hrow hpending holdest =>
      have hmem : record.id ∈ waiting s.db robot_id :=
        (mem_waiting hinv.sound).mpr ⟨record, by rwa [committed_id hinv.sound hrow], hpending⟩
      have hcard := Finset.card_erase_add_one hmem
      simp only [ClaimState.budget]
      omega
  | stamp claimed record now => simp only [ClaimState.budget]; omega
  | won claimed record row now hrow hpending hfree => exact Nat.le_refl _
  | lost claimed record now hmiss =>
      have hgone : record.id ∉ waiting s.db robot_id := by
        intro hmem
        obtain ⟨row, hrow, hpending⟩ := (mem_waiting hinv.sound).mp hmem
        refine hmiss row ?_ (pendingFor_iff.mp hpending).2
        rw [visible_of_mine_nil (hinv.active r _ hclaim).ledger.1, hrow]
      simp only [ClaimState.budget, Finset.erase_eq_of_notMem hgone]
      omega
  | commit claimed record now =>
      obtain ⟨old, stamped, -, -, hcommitted⟩ := claim_commit hinv hclaim
      have hgone : record.id ∉ waiting (s.db.commit r) robot_id := by
        intro hmem
        obtain ⟨row, hrow, hpending⟩ := (mem_waiting (hdb ▸ hinv'.sound)).mp hmem
        rw [hcommitted, if_pos rfl] at hrow
        cases hrow
        simp [pendingFor, dispatched, Values.apply] at hpending
      have hcard := Finset.card_le_card (Finset.subset_erase.mpr ⟨hkept.waiting, hgone⟩)
      simp only [ClaimState.budget]
      omega
  | rollback claimed => exact Nat.le_refl _
  | broadcast claimed record now delivered => exact Nat.le_refl _

-- The steps that the claim `r` may still take.
def System.claimBudget (r : RequestId) (s : System) : Nat :=
  match claimOf (s.requests r) with
  | some (robot_id, state) => state.budget (waiting s.db robot_id)
  | none => 0

theorem claimBudget_eq (hclaim : s.requests r = some (.claim robot_id state)) :
    s.claimBudget r = state.budget (waiting s.db robot_id) := by
  rw [System.claimBudget, hclaim]
  rfl

theorem claimBudget_step (hinv : Inv s) (h : s.step action = some t)
    (hquiet : inserts robot_id s action = false)
    (hclaim : s.requests r = some (.claim robot_id state)) :
    (∃ state', t.requests r = some (.claim robot_id state')) ∧
      t.claimBudget r + (if decide (action.actor = r) then 1 else 0) ≤ s.claimBudget r := by
  have hkept := kept_of_step hinv h hquiet
  rw [claimBudget_eq hclaim]
  cases claim_turn h hclaim with
  | own hactor state' out hstep hafter =>
      rw [claimBudget_eq hafter, decide_eq_true hactor]
      exact ⟨⟨state', hafter⟩, claim_budget hinv (hinv.step h) hkept hclaim hstep⟩
  | failed hactor hopen hdb hafter =>
      rw [claimBudget_eq hafter, decide_eq_true hactor]
      refine ⟨⟨_, hafter⟩, ?_⟩
      cases state <;> simp_all [ClaimState.budget, Request.finished]
  | other hactor hafter =>
      rw [claimBudget_eq hafter, decide_eq_false hactor]
      exact ⟨⟨state, hafter⟩, budget_mono hkept.waiting state⟩

end Claim

section Order

variable {s t : System} {db db' : Table} {action : Action} {r : RequestId} {robot_id : Int}
  {state state' : ClaimState}

-- All that a claim has taken is at least as old as what still waits.
structure Draining (db : Table) (robot_id : Int) (state : ClaimState) : Prop where
  ordered : OldestFirst db state.taken
  ahead : ∀ id ∈ state.taken, ∀ id' ∈ waiting db robot_id, Older db id id'
  drained : ∀ claimed, state = .returned claimed → waiting db robot_id = ∅

theorem Older.kept {id id' : CommandId} (h : Older db id id') (hkept : Kept robot_id db db')
    (hid : ∃ row, db.committed id = some row) (hid' : ∃ row, db.committed id' = some row) :
    Older db' id id' := by
  obtain ⟨row, hrow⟩ := hid
  obtain ⟨row', hrow'⟩ := hid'
  obtain ⟨later, hlater, hsame⟩ := hkept.rows id row hrow
  obtain ⟨later', hlater', hsame'⟩ := hkept.rows id' row' hrow'
  intro after after' hafter hafter'
  rw [hlater] at hafter
  rw [hlater'] at hafter'
  cases hafter
  cases hafter'
  rw [← hsame.2.2.2.2.2.2.1, ← hsame'.2.2.2.2.2.2.1]
  exact h row row' hrow hrow'

-- The claim takes nothing new.
theorem Draining.kept (h : Draining db robot_id state) (hsound : Sound Advance db)
    (hkept : Kept robot_id db db') (htaken : state'.taken.Sublist state.taken)
    (hdrained : ∀ claimed, state' = .returned claimed → waiting db' robot_id = ∅) :
    Draining db' robot_id state' where
  ordered := by
    refine ⟨fun id hid => ?_, (h.ordered.2.sublist htaken).imp_of_mem fun hid hid' hle => ?_⟩
    · obtain ⟨row, hrow⟩ := h.ordered.1 id (htaken.subset hid)
      obtain ⟨row', hrow', -⟩ := hkept.rows id row hrow
      exact ⟨row', hrow'⟩
    · exact hle.kept hkept (h.ordered.1 _ (htaken.subset hid)) (h.ordered.1 _ (htaken.subset hid'))
  ahead id hid id' hid' := by
    have hwaits := hkept.waiting hid'
    obtain ⟨row', hrow', -⟩ := (mem_waiting hsound).mp hwaits
    exact (h.ahead id (htaken.subset hid) id' hwaits).kept hkept
      (h.ordered.1 id (htaken.subset hid)) ⟨row', hrow'⟩
  drained := hdrained

theorem Draining.own (h : Draining s.db robot_id state) (hinv : Inv s)
    (hkept : Kept robot_id s.db db') {out : List Message}
    (hstep : ClaimStep robot_id s.db r state db' state' out) : Draining db' robot_id state' := by
  cases hstep with
  | drained claimed hnone =>
      exact h.kept hinv.sound hkept (List.Sublist.refl _)
        fun _ _ => waiting_eq_empty_iff.mpr hnone
  | found claimed id record hrow hpending holdest =>
      have hrecord : s.db.committed record.id = some record := by rwa [committed_id hinv.sound hrow]
      have hmem : record.id ∈ waiting s.db robot_id :=
        (mem_waiting hinv.sound).mpr ⟨record, hrecord, hpending⟩
      refine ⟨⟨fun other hother => ?_, ?_⟩, fun other hother id' hid' => ?_, by simp⟩
      · rcases List.mem_append.mp hother with hother | hother
        · exact h.ordered.1 other hother
        · rw [List.mem_singleton.mp hother]
          exact ⟨record, hrecord⟩
      · refine List.pairwise_append.mpr ⟨h.ordered.2, List.pairwise_singleton _ _, ?_⟩
        intro other hother id' hid'
        rw [List.mem_singleton.mp hid']
        exact h.ahead other hother record.id hmem
      · rcases List.mem_append.mp hother with hother | hother
        · exact h.ahead other hother id' hid'
        · rw [List.mem_singleton.mp hother]
          intro row row' hrow hrow'
          obtain ⟨row'', hrow'', hpending'⟩ := (mem_waiting hinv.sound).mp hid'
          rw [hrow'] at hrow''
          cases hrow''
          rw [hrecord] at hrow
          cases hrow
          exact holdest row' (mem_rows.mpr ⟨id', hrow'⟩) hpending'
  | stamp claimed record now => exact h.kept hinv.sound hkept (List.Sublist.refl _) (by simp)
  | won claimed record row now hrow hpending hfree =>
      exact h.kept hinv.sound hkept (List.Sublist.refl _) (by simp)
  | lost claimed record now hmiss =>
      exact h.kept hinv.sound hkept (List.sublist_append_left _ _) (by simp)
  | commit claimed record now =>
      refine h.kept hinv.sound hkept ?_ (by simp)
      simp [ClaimState.taken, claimedCommand]
  | rollback claimed => exact h.kept hinv.sound hkept (List.Sublist.refl _) (by simp)
  | broadcast claimed record now delivered =>
      exact h.kept hinv.sound hkept (List.Sublist.refl _) (by simp)

theorem Draining.step (h : Draining s.db robot_id state) (hinv : Inv s)
    (hstep : s.step action = some t) (hquiet : inserts robot_id s action = false)
    (hclaim : s.requests r = some (.claim robot_id state)) :
    ∃ state', t.requests r = some (.claim robot_id state') ∧ Draining t.db robot_id state' := by
  have hkept := kept_of_step hinv hstep hquiet
  cases claim_turn hstep hclaim with
  | own hactor state' out hown hafter => exact ⟨state', hafter, h.own hinv hkept hown⟩
  | failed hactor hopen hdb hafter => exact ⟨_, hafter, h.kept hinv.sound hkept (List.nil_sublist _) nofun⟩
  | other hactor hafter =>
      refine ⟨state, hafter, h.kept hinv.sound hkept (List.Sublist.refl _) fun claimed hreturned => ?_⟩
      exact Finset.subset_empty.mp (h.drained claimed hreturned ▸ hkept.waiting)

end Order

section Alone

variable {s t : System} {start db db' : Table} {action : Action} {r : RequestId} {robot_id : Int}
  {state state' : ClaimState}

def ClaimState.claimed : ClaimState → List ClaimedCommand
  | .select claimed | .stamp claimed _ | .update claimed _ _ | .commit claimed _ _
  | .rollback claimed | .broadcast claimed _ _ | .returned claimed => claimed
  | .raised _ => []

def ClaimState.record : ClaimState → Option RobotCommand
  | .stamp _ record | .update _ record _ | .commit _ record _ => some record
  | _ => none

-- A claim that no other call disturbs has taken what waited at its start and no longer does.
structure Alone (start db : Table) (robot_id : Int) (state : ClaimState) : Prop where
  listed : ∀ c ∈ state.claimed, ∃ row row', start.committed c.id = some row ∧
    pendingFor robot_id row = true ∧ claimedCommand row = c ∧ db.committed c.id = some row' ∧
    row'.robot_id = robot_id ∧ row'.status = .DISPATCHED
  left : ∀ id row, start.committed id = some row → pendingFor robot_id row = true →
    claimedCommand row ∈ state.claimed ∨ db.committed id = some row
  waits : ∀ id row, db.committed id = some row → pendingFor robot_id row = true →
    start.committed id = some row
  inHand : ∀ record, state.record = some record →
    db.committed record.id = some record ∧ pendingFor robot_id record = true

theorem alone_start : Alone db db robot_id (.select []) where
  listed := by simp [ClaimState.claimed]
  left _ _ hrow _ := Or.inr hrow
  waits _ _ hrow _ := hrow
  inHand := by simp [ClaimState.record]

theorem Alone.own (h : Alone start s.db robot_id state) (hinv : Inv s)
    (hclaim : s.requests r = some (.claim robot_id state)) {out : List Message}
    (hstep : ClaimStep robot_id s.db r state db' state' out) : Alone start db' robot_id state' := by
  cases hstep with
  | drained claimed hnone => exact ⟨h.listed, h.left, h.waits, by simp [ClaimState.record]⟩
  | found claimed id record hrow hpending holdest =>
      refine ⟨h.listed, h.left, h.waits, fun record' hrecord => ?_⟩
      cases hrecord
      exact ⟨by rwa [committed_id hinv.sound hrow], hpending⟩
  | stamp claimed record now => exact ⟨h.listed, h.left, h.waits, h.inHand⟩
  | won claimed record row now hrow hpending hfree => exact ⟨h.listed, h.left, h.waits, h.inHand⟩
  | lost claimed record now hmiss =>
      -- The command in hand is still PENDING, so the UPDATE matches it.
      obtain ⟨hrow, hpending⟩ := h.inHand record rfl
      refine absurd (pendingFor_iff.mp hpending).2 (hmiss record ?_)
      rwa [visible_of_mine_nil (hinv.active r _ hclaim).ledger.1]
  | commit claimed record now =>
      obtain ⟨hrecord, hpending⟩ := h.inHand record rfl
      obtain ⟨old, stamped, hold, -, hcommitted⟩ := claim_commit hinv hclaim
      rw [hrecord] at hold
      cases hold
      have hstart := h.waits record.id record hrecord hpending
      refine ⟨fun c hc => ?_, fun id row hrow hwaits => ?_, fun id row hrow hwaits => ?_,
        by simp [ClaimState.record]⟩
      · rcases List.mem_append.mp hc with hc | hc
        · obtain ⟨row, row', hrow, hwaited, hlisted, hrow', hrobot, hstatus⟩ := h.listed c hc
          refine ⟨row, row', hrow, hwaited, hlisted, ?_, hrobot, hstatus⟩
          have hne : record.id ≠ c.id := by
            intro hid
            rw [← hid, hrecord] at hrow'
            cases hrow'
            rw [(pendingFor_iff.mp hpending).2] at hstatus
            cases hstatus
          rw [hcommitted, if_neg hne, hrow']
        · rw [List.mem_singleton.mp hc]
          refine ⟨record, dispatched stamped record, hstart, hpending, rfl, ?_, ?_, rfl⟩
          · exact (hcommitted record.id).trans (if_pos rfl)
          · exact (pendingFor_iff.mp hpending).1
      · rcases h.left id row hrow hwaits with hlisted | hstill
        · exact Or.inl (List.mem_append_left _ hlisted)
        · by_cases hid : record.id = id
          · rw [← hid, hrecord] at hstill
            cases hstill
            exact Or.inl (List.mem_append_right _ (List.mem_singleton.mpr rfl))
          · exact Or.inr (by rw [hcommitted, if_neg hid, hstill])
      · rw [hcommitted] at hrow
        split at hrow
        · cases hrow
          simp [pendingFor, dispatched, Values.apply] at hwaits
        · exact h.waits id row hrow hwaits
  | rollback claimed => exact ⟨h.listed, h.left, h.waits, by simp [ClaimState.record]⟩
  | broadcast claimed record now delivered => exact ⟨h.listed, h.left, h.waits, by simp [ClaimState.record]⟩

-- What another call may do leaves the robot's commands as they are.
theorem Alone.other (h : Alone start db robot_id state)
    (hsame : ∀ id row, row.robot_id.val = robot_id →
      (db'.committed id = some row ↔ db.committed id = some row)) :
    Alone start db' robot_id state where
  listed c hc := by
    obtain ⟨row, row', hrow, hwaited, hlisted, hrow', hrobot, hstatus⟩ := h.listed c hc
    exact ⟨row, row', hrow, hwaited, hlisted, (hsame c.id row' hrobot).mpr hrow', hrobot, hstatus⟩
  left id row hrow hwaits :=
    (h.left id row hrow hwaits).imp_right (hsame id row (pendingFor_iff.mp hwaits).1).mpr
  waits id row hrow hwaits :=
    h.waits id row ((hsame id row (pendingFor_iff.mp hwaits).1).mp hrow) hwaits
  inHand record hrecord := by
    obtain ⟨hrow, hpending⟩ := h.inHand record hrecord
    exact ⟨(hsame record.id record (pendingFor_iff.mp hpending).1).mpr hrow, hpending⟩

-- A claim that has failed stays so.
def AloneOrRaised (start : Table) (r : RequestId) (robot_id : Int) (s : System) : Prop :=
  ∃ state, s.requests r = some (.claim robot_id state) ∧
    ((∃ error, state = .raised error) ∨ Alone start s.db robot_id state)

theorem AloneOrRaised.step (h : AloneOrRaised start r robot_id s) (hinv : Inv s)
    (hstep : s.step action = some t)
    (hothers : action.actor ≠ r → ∀ v, s.step action = some v → ∀ id row,
      row.robot_id.val = robot_id → (v.db.committed id = some row ↔ s.db.committed id = some row)) :
    AloneOrRaised start r robot_id t := by
  obtain ⟨state, hclaim, halone⟩ := h
  cases claim_turn hstep hclaim with
  | own hactor state' out hown hafter =>
      refine ⟨state', hafter, ?_⟩
      rcases halone with ⟨error, rfl⟩ | halone
      · cases hown
      · exact Or.inr (halone.own hinv hclaim hown)
  | failed hactor hopen hdb hafter => exact ⟨_, hafter, Or.inl ⟨.database, rfl⟩⟩
  | other hactor hafter => exact ⟨state, hafter, halone.imp_right fun h => h.other (hothers hactor t hstep)⟩

end Alone

section Drained

variable {s t : System} {r : RequestId} {robot_id : Int} {state : ClaimState}

-- The guarded UPDATE waits for a row that another open transaction has written.
def ClaimState.blocked (db : Table) (r : RequestId) : ClaimState → Bool
  | .update _ record _ => db.locked r record.id
  | _ => false

theorem select_enabled (robot_id : Int) (db : Table) :
    ∃ choice found, get_next_pending robot_id db choice = some found := by
  by_cases hany : db.rows.any (pendingFor robot_id) = true
  · cases hmin : (db.rows.filter (pendingFor robot_id)).argmin RobotCommand.created_at with
    | none =>
        obtain ⟨row, hrow, hpending⟩ := List.any_eq_true.mp hany
        have hmem := List.mem_filter.mpr ⟨hrow, hpending⟩
        rw [List.argmin_eq_none.mp hmin] at hmem
        cases hmem
    | some record =>
        obtain ⟨hrow, hpending⟩ := List.mem_filter.mp (List.argmin_mem hmin)
        obtain ⟨id, hid⟩ := mem_rows.mp hrow
        refine ⟨.row id, some record, ?_⟩
        rw [get_next_pending, hid, Option.bind_some, if_pos]
        refine ⟨hpending, List.all_eq_true.mpr fun other hother => decide_eq_true ?_⟩
        exact List.le_of_mem_argmin hother hmin
  · exact ⟨.noRow, none, by rw [get_next_pending, if_neg hany]⟩

-- A claim that has not ended can go on, or waits for a row of another's.
theorem claim_enabled (hclaim : s.requests r = some (.claim robot_id state)) :
    (Request.claim robot_id state).finished = true ∨ state.blocked s.db r = true ∨
      ∃ now choice t, s.step (.advance r now choice) = some t := by
  have hstep : ∀ choice, (claim_pending_commands robot_id s.db r 0 choice state).isSome = true →
      ∃ now choice t, s.step (.advance r now choice) = some t := by
    intro choice hsome
    obtain ⟨next, hnext⟩ := Option.isSome_iff_exists.mp hsome
    refine ⟨0, choice, Option.isSome_iff_exists.mp ?_⟩
    rw [System.step, hclaim, Option.bind_some, Request.next, hnext]
    rfl
  cases state with
  | select claimed =>
      obtain ⟨choice, found, hfound⟩ := select_enabled robot_id s.db
      refine Or.inr (Or.inr (hstep choice ?_))
      rw [claim_pending_commands, hfound]
      rfl
  | stamp claimed record => exact Or.inr (Or.inr (hstep .quiet rfl))
  | update claimed record now =>
      cases hlocked : s.db.locked r record.id with
      | true => exact Or.inr (Or.inl hlocked)
      | false =>
          have hupdate : ∃ outcome, try_dispatch record.id now s.db r = some outcome := by
            unfold try_dispatch updateWhere
            split
            · exact ⟨_, rfl⟩
            · split
              · rw [hlocked]
                exact ⟨_, rfl⟩
              · exact ⟨_, rfl⟩
          obtain ⟨outcome, hupdate⟩ := hupdate
          refine Or.inr (Or.inr (hstep .quiet ?_))
          rw [claim_pending_commands, hupdate]
          rfl
  | commit claimed record now => exact Or.inr (Or.inr (hstep .quiet rfl))
  | rollback claimed => exact Or.inr (Or.inr (hstep .quiet rfl))
  | broadcast claimed record now => exact Or.inr (Or.inr (hstep (.publish true) rfl))
  | returned claimed => exact Or.inl rfl
  | raised error => exact Or.inl rfl

-- The response of an undisturbed claim, each command once.
theorem Alone.response {start : Table} {claimed : List ClaimedCommand}
    (h : Alone start t.db robot_id (.returned claimed)) (hstart : Sound Advance start) (hinv : Inv t)
    (hclaim : t.requests r = some (.claim robot_id (.returned claimed)))
    (hempty : ∀ row ∈ t.db.rows, pendingFor robot_id row = false) :
    claimed.Perm ((start.rows.filter (pendingFor robot_id)).map claimedCommand) := by
  have hids : (claimed.map ClaimedCommand.id).Nodup := by
    rw [(hinv.active r _ hclaim).ledger.2]
    exact done_keys_nodup hinv hclaim
  have hrows : ((start.rows.filter (pendingFor robot_id)).map claimedCommand).Nodup := by
    refine List.Nodup.of_map ClaimedCommand.id ?_
    rw [List.map_map]
    have hnodup : (start.rows.map RobotCommand.id).Nodup := map_id_rows hstart ▸ List.nodup_dedup _
    exact hnodup.sublist (List.filter_sublist.map _)
  refine (List.perm_ext_iff_of_nodup (hids.of_map _) hrows).mpr fun c => ⟨fun hc => ?_, fun hc => ?_⟩
  · obtain ⟨row, -, hrow, hpending, hlisted, -⟩ := h.listed c hc
    exact List.mem_map.mpr ⟨row, List.mem_filter.mpr ⟨mem_rows.mpr ⟨c.id, hrow⟩, hpending⟩, hlisted⟩
  · obtain ⟨row, hrow, rfl⟩ := List.mem_map.mp hc
    obtain ⟨hrow, hpending⟩ := List.mem_filter.mp hrow
    obtain ⟨id, hid⟩ := mem_rows.mp hrow
    rcases h.left id row hid hpending with hlisted | hstill
    · exact hlisted
    · rw [hempty row (mem_rows.mpr ⟨id, hstill⟩)] at hpending
      cases hpending

-- A claim drains its robot's queue: it has a bounded number of steps to take, waits only for a
-- row that another open transaction holds, writes its own robot's commands only, and when it
-- returns it has them oldest first and none is left. Undisturbed, it returns all that waited.
theorem claim_drains {actions future : List Action} (hs : Reaches System.init actions s)
    (hclaim : s.requests r = some (.claim robot_id (.select []))) (hrun : Reaches s future t)
    (hquiet : NoCreation robot_id s future) :
    ∃ state, t.requests r = some (.claim robot_id state) ∧
      future.countP (fun action => decide (action.actor = r)) ≤ 5 * (waiting s.db robot_id).card + 1 ∧
      ((Request.claim robot_id state).finished = true ∨ state.blocked t.db r = true ∨
        ∃ now choice u, t.step (.advance r now choice) = some u) ∧
      (∀ w ∈ t.db.log ++ t.db.dirty, w.writer = r →
        ∃ old, w.before = some old ∧ old.robot_id = robot_id ∧ w.after.robot_id = robot_id) ∧
      ∀ claimed, state = .returned claimed →
        OldestFirst t.db (claimed.map ClaimedCommand.id) ∧
        (∀ row ∈ t.db.rows, pendingFor robot_id row = false) ∧
        (NoOtherWriter r robot_id s future →
          claimed.Perm ((s.db.rows.filter (pendingFor robot_id)).map claimedCommand) ∧
          ∀ c ∈ claimed, ∃ row, t.db.committed c.id = some row ∧ row.status = .DISPATCHED) := by
  have hinv : Inv s := inv_init.run hs
  have hinvt : Inv t := hinv.run hrun
  have hstart : Draining s.db robot_id (.select []) := ⟨⟨nofun, List.Pairwise.nil⟩, nofun, nofun⟩
  obtain ⟨-, state, hafter, hdraining⟩ := Runs.exec_along_invariant
    (I := fun u => Inv u ∧ ∃ state, u.requests r = some (.claim robot_id state) ∧
      Draining u.db robot_id state)
    (fun u action v hstill hu hstep => by
      obtain ⟨hu, state, hrequest, hdraining⟩ := hu
      exact ⟨hu.step hstep, hdraining.step hu hstep hstill hrequest⟩)
    hquiet ⟨hinv, _, hclaim, hstart⟩ hrun
  refine ⟨state, hafter, ?_, claim_enabled hafter, fun w hw hwriter => ?_, ?_⟩
  · have hbudget := Runs.exec_ranked (System.claimBudget r)
      (I := fun u => Inv u ∧ ∃ state, u.requests r = some (.claim robot_id state))
      (k := fun action => decide (action.actor = r))
      (fun u action v hstill hu hstep => by
        obtain ⟨hu, state, hrequest⟩ := hu
        obtain ⟨hnext, hle⟩ := claimBudget_step hu hstep hstill hrequest
        exact ⟨⟨hu.step hstep, hnext⟩, hle⟩)
      hquiet ⟨hinv, _, hclaim⟩ hrun
    rw [claimBudget_eq hclaim] at hbudget
    simp only [ClaimState.budget] at hbudget
    omega
  · have hown : w ∈ t.db.mine r ++ t.db.done r := by
      rcases List.mem_append.mp hw with hw | hw
      · exact List.mem_append_right _ (mem_done.mpr ⟨hw, hwriter⟩)
      · exact List.mem_append_left _ (mem_mine.mpr ⟨hw, hwriter⟩)
    obtain ⟨old, now, hbefore, -, hrobot, hlater⟩ := (hinvt.active r _ hafter).authored w hown
    exact ⟨old, hbefore, hrobot, by rw [hlater]; exact hrobot⟩
  · rintro claimed rfl
    have hempty := waiting_eq_empty_iff.mp (hdraining.drained claimed rfl)
    refine ⟨hdraining.ordered, hempty, fun halone => ?_⟩
    obtain ⟨-, state, hafter', hended⟩ := Runs.exec_along_invariant
      (I := fun u => Inv u ∧ AloneOrRaised s.db r robot_id u)
      (fun u action v hothers hu hstep => ⟨hu.1.step hstep, hu.2.step hu.1 hstep hothers⟩)
      halone ⟨hinv, _, hclaim, Or.inr alone_start⟩ hrun
    rw [hafter] at hafter'
    cases hafter'
    rcases hended with ⟨error, herror⟩ | hended
    · cases herror
    · refine ⟨hended.response hinv.sound hinvt hafter hempty, fun c hc => ?_⟩
      obtain ⟨-, row, -, -, -, hrow, -, hstatus⟩ := hended.listed c hc
      exact ⟨row, hrow, hstatus⟩

-- The robot of a claim that has taken nothing yet.
def polling : Option Request → Option Int
  | some (.claim robot_id (.select [])) => some robot_id
  | _ => none

theorem claim_of_polling {request : Option Request} (h : polling request = some robot_id) :
    request = some (.claim robot_id (.select [])) := by
  unfold polling at h
  split at h <;> cases h
  rfl

-- Another poll takes the command that this one had selected; it goes on with the next.
def racedRun : List Action :=
  [.advance 3 20 (.row 7), .advance 2 20 (.row 7), .advance 3 20 .quiet, .advance 3 20 .quiet,
    .advance 3 20 .quiet, .advance 2 20 .quiet, .advance 2 20 .quiet, .advance 2 20 .quiet] ++
  claimTurn 2 20 8 ++ [.advance 2 20 .noRow]

def racedStart : List Action :=
  createRun 0 10 7 1 ⟨"RESUME", none, none, none⟩ ++ createRun 1 11 8 1 ⟨"PAUSE", none, none, none⟩ ++
    [.start 2 20 (.claim_pending_commands 1), .start 3 20 (.claim_pending_commands 1)]

theorem claim_drains_raced : ∃ s t, Reaches System.init racedStart s ∧ Reaches s racedRun t ∧
    claimResponse (t.requests 2) = some (1, [8]) ∧ OldestFirst t.db [8] ∧
    ∀ row ∈ t.db.rows, pendingFor 1 row = false := by
  have hruns : ((Runs.exec System.step System.init racedStart).any fun s =>
      decide (polling (s.requests 2) = some 1) && decide (NoCreation 1 s racedRun) &&
        (Runs.exec System.step s racedRun).any fun t =>
          decide (claimResponse (t.requests 2) = some (1, [8]))) = true := by
    decide +kernel
  simp only [Option.any_eq_true, Bool.and_eq_true, decide_eq_true_eq] at hruns
  obtain ⟨s, hs, ⟨hpolling, hquiet⟩, t, ht, hresponse⟩ := hruns
  obtain ⟨claimed, hclaim, hids⟩ := returned_of_claimResponse hresponse
  obtain ⟨state, hafter, -, -, -, hdrained⟩ := claim_drains hs (claim_of_polling hpolling) ht hquiet
  rw [hclaim] at hafter
  cases hafter
  obtain ⟨hordered, hempty, -⟩ := hdrained claimed rfl
  exact ⟨s, t, hs, ht, hresponse, hids ▸ hordered, hempty⟩

end Drained

end FleetOps.Command
