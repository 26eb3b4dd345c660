import FleetOps.Command.Dispatch

namespace FleetOps.Command

open RowStore

-- The commands a request has an UPDATE of, committed or not.
def touched (s : System) (r : RequestId) : List CommandId :=
  (s.db.mine r ++ s.db.done r).map Write.key

-- Between `s` and `t` the claim `r` failed and no command is lost by it: none
-- is left dispatched, and all it had touched can be claimed by the next poll.
def LosesNoCommand (s : System) (r : RequestId) (robot_id : Int) (t : System) : Prop :=
  (∀ w ∈ t.db.done r, dispatches w = false) ∧
  ∀ id ∈ touched s r, ∃ row, t.db.committed id = some row ∧ pendingFor robot_id row = true

def claimOf : Option Request → Option (Int × ClaimState)
  | some (.claim robot_id state) => some (robot_id, state)
  | _ => none

theorem eq_of_claimOf {request : Option Request} {robot_id : Int} {state : ClaimState}
    (h : claimOf request = some (robot_id, state)) : request = some (.claim robot_id state) := by
  unfold claimOf at h
  split at h <;> cases h
  rfl

theorem open_writes_le_one {s : System} (hinv : Inv s) {r : RequestId} {robot_id : Int}
    {state : ClaimState} (hclaim : s.requests r = some (.claim robot_id state)) :
    (s.db.mine r).length ≤ 1 := by
  have hledger := (hinv.active r _ hclaim).ledger
  cases state with
  | commit claimed record now =>
      obtain ⟨_, w, hmine, _⟩ := hledger
      simp [hmine]
  | raised error =>
      have hmine : s.db.mine r = [] := hledger
      simp [hmine]
  | _ => simp [hledger.1]

-- The only open write of a claim was made over its row's committed version.
theorem committed_of_open_write {s : System} (hinv : Inv s) {r : RequestId} {w : RowWrite}
    (hmine : s.db.mine r = [w]) : s.db.committed w.key = w.before := by
  have hw : w ∈ s.db.mine r := by simp [hmine]
  rcases hinv.sound.lineage_split r w.key with ⟨hkey, _⟩ | ⟨hkey, _⟩
  · rw [hmine, lineage_singleton, if_pos rfl] at hkey
    exact (hinv.sound.before_of_dirty hkey.symm).symm
  · have hmem : w ∈ lineage (s.db.mine r) w.key := mem_lineage.mpr ⟨hw, rfl⟩
    rw [hkey] at hmem
    cases hmem

-- A dispatched command never shows as PENDING again.
theorem not_pending_of_dispatches {db : Table} (hsound : Sound Advance db) {w : RowWrite}
    (hw : w ∈ db.log) (hdispatches : dispatches w = true) {robot_id : Int} {row : RobotCommand}
    (hrow : db.committed w.key = some row) : pendingFor robot_id row = false := by
  obtain ⟨row', hrow', hrank⟩ := hsound.committed_of_mem
    (Q := fun a b => a.status.rank ≤ b.status.rank) (fun _ => le_rfl)
    (fun _ _ _ => le_trans) (fun id a b h => (rank_lt_of_advance id a b h).le) hw
  rw [hrow] at hrow'
  cases hrow'
  rw [rank_of_dispatches hdispatches] at hrank
  by_contra hpending
  simp only [pendingFor, Bool.and_eq_true, decide_eq_true_eq, Bool.not_eq_false] at hpending
  rw [hpending.2] at hrank
  exact absurd hrank (by decide)

theorem step_fail {s t : System} {r : RequestId} {request : Request}
    (hrequest : s.requests r = some request) (hfail : s.step (.fail r) = some t) :
    request.finished = false ∧ t.db = s.db.rollback r ∧ t.requests r = some request.abort := by
  cases system_step hfail with
  | fail r request' hrequest' hopen =>
      rw [hrequest] at hrequest'
      cases hrequest'
      exact ⟨hopen, rfl, by simp⟩

-- A claim that fails with nothing committed gives everything back; with a
-- committed turn behind it, that turn's command stays dispatched.
theorem failed_claim_keeps_iff {actions : List Action} {s t : System}
    (hs : Reaches System.init actions s) {r : RequestId} {robot_id : Int} {state : ClaimState}
    (hclaim : s.requests r = some (.claim robot_id state)) (hfail : s.step (.fail r) = some t) :
    LosesNoCommand s r robot_id t ↔ s.db.done r = [] := by
  have hinv : Inv s := inv_init.run hs
  obtain ⟨_, hdb, _⟩ := step_fail hclaim hfail
  have hdone : t.db.done r = s.db.done r := by rw [hdb, done_rollback]
  constructor
  · rintro ⟨hnone, _⟩
    by_contra hne
    obtain ⟨w, hw⟩ := List.exists_mem_of_ne_nil _ hne
    have hdispatches := (done_dispatches hinv hclaim w hw).1
    rw [hnone w (hdone ▸ hw)] at hdispatches
    cases hdispatches
  · intro hnil
    refine ⟨by simp [hdone, hnil], fun id hid => ?_⟩
    rw [touched, hnil, List.append_nil] at hid
    obtain ⟨w, hw, rfl⟩ := List.mem_map.mp hid
    obtain ⟨v, hv⟩ := List.length_eq_one_iff.mp
      (le_antisymm (open_writes_le_one hinv hclaim) (List.length_pos_of_mem hw))
    rw [hv, List.mem_singleton] at hw
    subst hw
    obtain ⟨old, now, hbefore, hpending, hrobot, _⟩ :=
      (hinv.active r _ hclaim).authored w (by simp [hv])
    refine ⟨old, ?_, by simp [pendingFor, hpending, hrobot]⟩
    rw [hdb, committed_rollback, committed_of_open_write hinv hv, hbefore]

-- What a failed claim had dispatched is never pending again, and no poll returns it.
theorem failed_claim_never_redelivered {actions future : List Action} {s t u : System}
    (hs : Reaches System.init actions s) {r : RequestId} {robot_id : Int} {state : ClaimState}
    (hclaim : s.requests r = some (.claim robot_id state)) (hfail : s.step (.fail r) = some t)
    (hu : Reaches t future u) {id : CommandId} (hid : id ∈ (s.db.done r).map Write.key) :
    (∀ row, u.db.committed id = some row → pendingFor robot_id row = false) ∧
    ∀ r' robot_id' claimed', u.requests r' = some (.claim robot_id' (.returned claimed')) →
      id ∉ claimed'.map ClaimedCommand.id := by
  have hinv : Inv s := inv_init.run hs
  obtain ⟨_, hdb, hraised⟩ := step_fail hclaim hfail
  have hinvt : Inv t := hinv.step hfail
  have hinvu : Inv u := hinvt.run hu
  have hended : u.requests r = some (.claim robot_id (.raised .database)) := hu.finished hraised rfl
  obtain ⟨w, hw, rfl⟩ := List.mem_map.mp hid
  have hdispatches := (done_dispatches hinv hclaim w hw).1
  obtain ⟨hlog, hwriter⟩ := mem_done.mp hw
  have hkept : w ∈ u.db.log := hinvt.log_subset hu (by rwa [hdb])
  refine ⟨fun row hrow => not_pending_of_dispatches hinvu.sound hkept hdispatches hrow, ?_⟩
  intro r' robot_id' claimed' hclaim' hreturned
  obtain ⟨v, hv, hvwriter, hvkey, hvdispatches, _⟩ := claimed_write hinvu hclaim' hreturned
  have hvw : v = w := eq_of_dispatches hinvu.sound hv hkept hvkey hvdispatches hdispatches
  have hrr : r' = r := by rw [← hvwriter, ← hwriter, hvw]
  rw [hrr, hended] at hclaim'
  cases hclaim'

-- A claim whose second SELECT fails: its one command is committed as DISPATCHED
-- and no response carries it.
theorem failed_claim_loses_command : ¬ ∀ (actions : List Action) (s t : System) (r : RequestId)
    (robot_id : Int) (state : ClaimState), Reaches System.init actions s →
      s.requests r = some (.claim robot_id state) → s.step (.fail r) = some t →
      LosesNoCommand s r robot_id t := by
  intro hclaims
  have hrun : ((Runs.exec System.step System.init (createRun 0 10 7 1 ⟨"RESUME", none, none, none⟩ ++
      .start 1 20 (.claim_pending_commands 1) :: claimTurn 1 20 7)).any fun s =>
      (claimOf (s.requests 1)).map Prod.fst = some 1 ∧
        (s.step (.fail 1)).any (fun t => (t.db.done 1).any dispatches) = true) = true := by
    decide +kernel
  simp only [Option.any_eq_true, decide_eq_true_eq, List.any_eq_true, Option.map_eq_some_iff] at hrun
  obtain ⟨s, hs, ⟨⟨robot_id, state⟩, hclaim, rfl⟩, t, hfail, w, hw, hdispatches⟩ := hrun
  have hkept := (hclaims _ s t 1 1 state hs (eq_of_claimOf hclaim) hfail).1 w hw
  rw [hdispatches] at hkept
  cases hkept

-- The same failure one statement earlier, at the commit, gives the command back.
theorem failed_claim_keeps_uncommitted : ∃ s t state,
    Reaches System.init (createRun 0 10 7 1 ⟨"RESUME", none, none, none⟩ ++
      [.start 1 20 (.claim_pending_commands 1), .advance 1 20 (.row 7), .advance 1 20 .quiet,
        .advance 1 20 .quiet]) s ∧
    s.requests 1 = some (.claim 1 state) ∧ s.step (.fail 1) = some t ∧ touched s 1 = [7] ∧
    LosesNoCommand s 1 1 t := by
  have hrun : ((Runs.exec System.step System.init (createRun 0 10 7 1 ⟨"RESUME", none, none, none⟩ ++
      [.start 1 20 (.claim_pending_commands 1), .advance 1 20 (.row 7), .advance 1 20 .quiet,
        .advance 1 20 .quiet])).any fun s =>
      (claimOf (s.requests 1)).map Prod.fst = some 1 ∧ touched s 1 = [7] ∧
        (s.db.done 1).length = 0 ∧ (s.step (.fail 1)).isSome = true) = true := by
    decide +kernel
  simp only [Option.any_eq_true, decide_eq_true_eq, Option.map_eq_some_iff, Option.isSome_iff_exists]
    at hrun
  obtain ⟨s, hs, ⟨⟨robot_id, state⟩, hclaim, rfl⟩, htouched, hdone, t, hfail⟩ := hrun
  have hrequest := eq_of_claimOf hclaim
  exact ⟨s, t, state, hs, hrequest, hfail, htouched,
    (failed_claim_keeps_iff hs hrequest hfail).mpr (List.length_eq_zero_iff.mp hdone)⟩

end FleetOps.Command
