import FleetOps.Command.Published

namespace FleetOps.Command

open RowStore

section Definitions

-- The row of a command has reached a terminal state.
def Closed (db : Table) (id : CommandId) : Prop :=
  ∃ row, db.committed id = some row ∧ row.status ∈ TERMINAL_STATES

-- The calls of `manager.broadcast` by a scan. Each comes with whether its publish succeeds:
-- one that does not is swallowed.
def scanCall (r : RequestId) (s : System) : Action → List (Message × Bool)
  | .advance r' _ (.publish delivered) =>
      match s.requests r' with
      | some (.scan (.broadcast now (cmd :: _))) =>
          if r' = r then [(timeoutMessage cmd now, delivered)] else []
      | _ => []
  | _ => []

def scanCalls (r : RequestId) (s : System) (actions : List Action) : List (Message × Bool) :=
  Runs.trace System.step (scanCall r) s actions

def called (calls : List (Message × Bool)) : List CommandId :=
  calls.map fun call => call.1.command_id

-- The scan awaits a statement of its transaction.
def ScanState.statement : ScanState → Bool
  | .select _ | .update _ _ _ _ | .commit _ _ => true
  | _ => false

-- The write is the timeout of a command whose deadline had passed at `now`.
def Overdue (now : Instant) (w : RowWrite) : Prop :=
  w.after.status = .TIMEOUT ∧ ∃ old expires_at, w.before = some old ∧
    old.expires_at = some expires_at ∧ expires_at < now

-- How far a scan has got with the commands it selected.
def Swept (db : Table) (r : RequestId) (now : Instant) (selected : List CommandId)
    (calls : List (Message × Bool)) : ScanState → Prop
  | .select _ => False
  | .update now' _ expired timed_out => now' = now ∧ calls = [] ∧
      ((timed_out ++ expired).map RobotCommand.id).Nodup ∧
      (∀ cmd ∈ expired, overdue now cmd = true) ∧
      ∀ id ∈ selected, id ∈ (timed_out ++ expired).map RobotCommand.id ∨ Closed db id
  | .commit _ timed_out => calls = [] ∧ (timed_out.map RobotCommand.id).Nodup ∧
      ∀ id ∈ selected, id ∈ timed_out.map RobotCommand.id ∨ Closed db id
  | .broadcast _ timed_out =>
      (db.done r).map Write.key = called calls ++ timed_out.map RobotCommand.id ∧
        ∀ id ∈ selected, Closed db id
  | .returned => (db.done r).map Write.key = called calls ∧ ∀ id ∈ selected, Closed db id
  | .raised _ => called calls <+: (db.done r).map Write.key

structure Sweep (db : Table) (r : RequestId) (now : Instant) (selected : List CommandId)
    (calls : List (Message × Bool)) (state : ScanState) : Prop where
  swept : Swept db r now selected calls state
  nodup : ((db.mine r ++ db.done r).map Write.key).Nodup
  overdue : ∀ w ∈ db.mine r ++ db.done r, Overdue now w

end Definitions

section Rows

variable {db db' : Table} {r : RequestId} {id : CommandId}

-- A terminal state is never left.
theorem terminal_of_advance (key : CommandId) (a b : RobotCommand) (h : Advance key (some a) b) :
    a.status ∈ TERMINAL_STATES → b.status ∈ TERMINAL_STATES :=
  fun hterminal => absurd h.2.1 (valid_terminal hterminal)

theorem Closed.effect (hsound : Sound Advance db) (heffect : Effect Advance db r db')
    (h : Closed db id) : Closed db' id := by
  obtain ⟨row, hrow, hterminal⟩ := h
  obtain ⟨row', hrow', hkeep⟩ := hsound.committed_effect
    (Q := fun a b => a.status ∈ TERMINAL_STATES → b.status ∈ TERMINAL_STATES) heffect
    (fun _ h => h) (fun _ _ _ hab hbc h => hbc (hab h)) terminal_of_advance hrow
  exact ⟨row', hrow', hkeep hterminal⟩

theorem closed_of_mem (hsound : Sound Advance db) {w : RowWrite} (hw : w ∈ db.log)
    (hterminal : w.after.status ∈ TERMINAL_STATES) : Closed db w.key := by
  obtain ⟨row, hrow, hkeep⟩ := hsound.committed_of_mem
    (Q := fun a b => a.status ∈ TERMINAL_STATES → b.status ∈ TERMINAL_STATES)
    (fun _ h => h) (fun _ _ _ hab hbc h => hbc (hab h)) terminal_of_advance hw
  exact ⟨row, hrow, hkeep hterminal⟩

-- A transaction that has not written a row sees its committed version.
theorem visible_of_not_mem (h : id ∉ (db.mine r).map Write.key) :
    db.visible r id = db.committed id := by
  refine latest_append_of_lineage_nil _ _ id ?_
  rw [lineage, List.filter_eq_nil_iff]
  intro w hw hkey
  exact h (List.mem_map.mpr ⟨w, hw, of_decide_eq_true hkey⟩)

theorem map_id_rows (hsound : Sound Advance db) : db.rows.map RobotCommand.id = db.keys := by
  have hall : ∀ key ∈ db.keys, ∃ row, db.committed key = some row ∧ row.id = key := by
    intro key hkey
    obtain ⟨w, hw, rfl⟩ := List.mem_map.mp (List.mem_dedup.mp hkey)
    obtain ⟨row, hrow⟩ := latest_isSome_of_mem hw
    exact ⟨row, hrow, committed_id hsound hrow⟩
  rw [Store.rows]
  generalize db.keys = keys at hall ⊢
  induction keys with
  | nil => rfl
  | cons key keys ih =>
      obtain ⟨row, hrow, hid⟩ := hall key (by simp)
      rw [List.filterMap_cons, hrow, List.map_cons, hid,
        ih fun k hk => hall k (List.mem_cons_of_mem _ hk)]

-- What the SELECT returns: the overdue commands, each once.
theorem selected_rows (hsound : Sound Advance db) {now : Instant} {ids : List CommandId}
    (hids : ids.Perm ((db.rows.filter (overdue now)).map RobotCommand.id)) :
    ids.Nodup ∧ (ids.filterMap db.committed).map RobotCommand.id = ids ∧
      (∀ cmd ∈ ids.filterMap db.committed, overdue now cmd = true) ∧
      ∀ id row, db.committed id = some row → overdue now row = true → id ∈ ids := by
  have hmem : ∀ id ∈ ids, ∃ row, db.committed id = some row ∧ overdue now row = true := by
    intro id hid
    obtain ⟨row, hrow, rfl⟩ := List.mem_map.mp (hids.mem_iff.mp hid)
    obtain ⟨hrow, hoverdue⟩ := List.mem_filter.mp hrow
    obtain ⟨key, hkey⟩ := mem_rows.mp hrow
    exact ⟨row, by rwa [committed_id hsound hkey], hoverdue⟩
  refine ⟨?_, ?_, fun cmd hcmd => ?_, fun id row hrow hoverdue => ?_⟩
  · refine hids.nodup_iff.mpr (List.Nodup.sublist (List.filter_sublist.map _) ?_)
    rw [map_id_rows hsound]
    exact List.nodup_dedup _
  · generalize ids = ids at hmem ⊢
    induction ids with
    | nil => rfl
    | cons id ids ih =>
        obtain ⟨row, hrow, _⟩ := hmem id (by simp)
        rw [List.filterMap_cons, hrow, List.map_cons, committed_id hsound hrow,
          ih fun k hk => hmem k (List.mem_cons_of_mem _ hk)]
  · obtain ⟨id, hid, hcmd⟩ := List.mem_filterMap.mp hcmd
    obtain ⟨row, hrow, hoverdue⟩ := hmem id hid
    rw [hrow] at hcmd
    cases hcmd
    exact hoverdue
  · refine hids.mem_iff.mpr (List.mem_map.mpr ⟨row, ?_, committed_id hsound hrow⟩)
    exact List.mem_filter.mpr ⟨mem_rows.mpr ⟨id, hrow⟩, hoverdue⟩

end Rows

section Calls

variable {s t : System} {r : RequestId} {now : Instant} {choice : Choice} {state : ScanState}

-- The command whose timeout the scan's next step announces.
def ScanState.calling : ScanState → List CommandId
  | .broadcast _ (cmd :: _) => [cmd.id]
  | _ => []

theorem scanCall_other {action : Action} (h : action.actor ≠ r) : scanCall r s action = [] := by
  cases action with
  | start r' now call => rfl
  | fail r' => rfl
  | advance r' now choice =>
      have hne : r' ≠ r := h
      cases choice with
      | publish delivered =>
          simp only [scanCall]
          split
          · rw [if_neg hne]
          · rfl
      | _ => rfl

theorem scanCall_quiet {state : ScanState} (hrequest : s.requests r = some (.scan state))
    (hquiet : state.calling = []) (action : Action) : scanCall r s action = [] := by
  by_cases hactor : action.actor = r
  · subst hactor
    cases action with
    | start r now call => rfl
    | fail r => rfl
    | advance r now choice =>
        cases choice with
        | publish delivered =>
            have hstate : s.requests r = some (.scan state) := hrequest
            simp only [scanCall, hstate]
            split
            · rename_i heq
              cases heq
              cases hquiet
            · rfl
        | _ => rfl
  · exact scanCall_other hactor

-- A step of a scan makes the call it is at, and puts on the stream what is delivered of it.
theorem scan_advance (h : s.step (.advance r now choice) = some t)
    (hrequest : s.requests r = some (.scan state)) :
    called (scanCall r s (.advance r now choice)) = state.calling ∧
      t.published = s.published ++
        ((scanCall r s (.advance r now choice)).filter Prod.snd).map fun call => (r, call.1) := by
  simp only [System.step, hrequest, Option.bind_some, Option.map_eq_some_iff, Request.next] at h
  obtain ⟨⟨db, request, out⟩, ⟨⟨db', state', out'⟩, hscan, heq⟩, rfl⟩ := h
  cases heq
  by_cases hquiet : state.calling = []
  · rw [scanCall_quiet hrequest hquiet, hquiet]
    have hout : out' = [] := by
      cases scan_step hscan with
      | broadcast now' cmd rest delivered => cases hquiet
      | _ => rfl
    simp [hout, called]
  · cases state with
    | broadcast now' timed_out =>
        cases timed_out with
        | nil => exact absurd rfl hquiet
        | cons cmd rest =>
            obtain ⟨out, hout, heq⟩ := Option.map_eq_some_iff.mp hscan
            cases heq
            obtain ⟨delivered, rfl, rfl⟩ := published_eq hout
            have hcall : scanCall r s (.advance r now (.publish delivered)) =
                [(timeoutMessage cmd now', delivered)] := by
              simp [scanCall, hrequest]
            rw [hcall]
            cases delivered <;> simp [called, ScanState.calling, timeoutMessage]
    | _ => exact absurd rfl hquiet

end Calls

section Steps

variable {db db' : Table} {r : RequestId} {now clock : Instant} {selected : List CommandId}
  {calls new : List (Message × Bool)} {state state' : ScanState} {out : List Message}

theorem Sweep.effect_of_ne {r' : RequestId} (hsound : Sound Advance db)
    (heffect : Effect Advance db r' db') (hne : r ≠ r') (h : Sweep db r now selected calls state) :
    Sweep db' r now selected calls state where
  swept := by
    have hdone := heffect.done_of_ne hne
    have hclosed : ∀ id, Closed db id → Closed db' id := fun id h => h.effect hsound heffect
    have hswept := h.swept
    cases state with
    | select now' => exact hswept
    | update now' started expired timed_out =>
        obtain ⟨hnow, hcalls, hnodup, hoverdue, hall⟩ := hswept
        exact ⟨hnow, hcalls, hnodup, hoverdue, fun id hid => (hall id hid).imp_right (hclosed id)⟩
    | commit now' timed_out =>
        obtain ⟨hcalls, hnodup, hall⟩ := hswept
        exact ⟨hcalls, hnodup, fun id hid => (hall id hid).imp_right (hclosed id)⟩
    | broadcast now' timed_out =>
        exact ⟨hdone ▸ hswept.1, fun id hid => hclosed id (hswept.2 id hid)⟩
    | returned => exact ⟨hdone ▸ hswept.1, fun id hid => hclosed id (hswept.2 id hid)⟩
    | raised error =>
        simp only [Swept, hdone]
        exact hswept
  nodup := by
    rw [heffect.mine_of_ne hne, heffect.done_of_ne hne]
    exact h.nodup
  overdue := by
    rw [heffect.mine_of_ne hne, heffect.done_of_ne hne]
    exact h.overdue

-- With no command left to update, the scan commits, or ends having moved none.
theorem swept_nextUpdate (started : Instant) (expired timed_out : List RobotCommand)
    (hdone : db.done r = [])
    (h : Swept db r now selected [] (.update now started expired timed_out)) :
    Swept db r now selected [] (nextUpdate now started expired timed_out) := by
  unfold nextUpdate
  split
  · rename_i hempty
    rw [List.isEmpty_iff.mp hempty] at h
    obtain ⟨_, _, hnodup, _, hall⟩ := h
    rw [List.append_nil] at hnodup hall
    unfold afterUpdates
    split
    · rename_i hnone
      rw [List.isEmpty_iff.mp hnone] at hall
      refine ⟨by simp [hdone, called], fun id hid => (hall id hid).resolve_left (by simp)⟩
    · exact ⟨rfl, hnodup, hall⟩
  · exact h

theorem not_written {cmd : RobotCommand} {rest timed_out : List RobotCommand}
    (hids : ((timed_out ++ cmd :: rest).map RobotCommand.id).Nodup)
    (hmine : (db.mine r).map Write.key = timed_out.map RobotCommand.id) :
    cmd.id ∉ (db.mine r).map Write.key := by
  rw [hmine]
  rw [List.map_append, List.map_cons, List.nodup_append] at hids
  exact fun hmem => hids.2.2 cmd.id hmem cmd.id (by simp) rfl

-- The row that the scan updates is the command it selected, whatever its status is by now.
theorem overdue_write {cmd row after : RobotCommand} (hlate : overdue now cmd = true)
    (hsame : SameCommand cmd row) (hafter : after.status = .TIMEOUT) :
    Overdue now ⟨r, cmd.id, some row, after⟩ := by
  simp only [overdue] at hlate
  split at hlate
  · cases hlate
  · rename_i expires_at hexpires
    simp only [Bool.and_eq_true, decide_eq_true_eq] at hlate
    refine ⟨hafter, row, expires_at, rfl, ?_, hlate.1⟩
    rw [← hexpires]
    exact hsame.2.2.2.2.2.2.2.symm

-- A command that is closed is not one of those left to update.
theorem closed_or_left {cmd : RobotCommand} {rest timed_out : List RobotCommand} {id : CommandId}
    (hclosed : Closed db cmd.id)
    (hid : id ∈ (timed_out ++ cmd :: rest).map RobotCommand.id ∨ Closed db id) :
    id ∈ (timed_out ++ rest).map RobotCommand.id ∨ Closed db id := by
  rcases hid with hmem | hid
  · simp only [List.map_append, List.map_cons, List.mem_append, List.mem_cons] at hmem ⊢
    rcases hmem with hmem | rfl | hmem
    · exact Or.inl (Or.inl hmem)
    · exact Or.inr hclosed
    · exact Or.inl (Or.inr hmem)
  · exact Or.inr hid

theorem Sweep.step (hsound : Sound Advance db) (hlocal : Local db r (.scan state))
    (h : Sweep db r now selected calls state) (hnew : called new = state.calling)
    (hstep : ScanStep db r clock state db' state' out) :
    Sweep db' r now selected (calls ++ new) state' := by
  have heffect := (scan_local hsound hlocal hstep).1
  have hcons := hlocal.consistent
  have hledger := hlocal.ledger
  have hquiet : state.calling = [] → new = [] := fun hnil =>
    List.map_eq_nil_iff.mp (hnew.trans hnil)
  obtain ⟨hswept, hnodup, hoverdue⟩ := h
  cases hstep with
  | select now' ids hids => exact hswept.elim
  | skip now' started timed_out =>
      obtain ⟨rfl, rfl, hrest⟩ := hswept
      rw [hquiet rfl, List.append_nil]
      exact ⟨swept_nextUpdate started [] timed_out hledger.1 ⟨rfl, rfl, hrest⟩, hnodup, hoverdue⟩
  | matched now' started cmd rest timed_out row hrow hopen hfree =>
      obtain ⟨rfl, rfl, hids, hexpired, hall⟩ := hswept
      obtain ⟨hdone, hmine⟩ := hledger
      rw [hquiet rfl, List.append_nil]
      have hmoved : timed_out ++ [cmd] ++ rest = timed_out ++ cmd :: rest := by simp
      have hfresh := not_written hids hmine
      refine ⟨swept_nextUpdate started rest _ hdone ⟨rfl, rfl, by rwa [hmoved],
        fun c hc => hexpired c (List.mem_cons_of_mem _ hc), ?_⟩, ?_, ?_⟩
      · rw [hmoved]
        exact fun id hid => (hall id hid).imp_right fun hclosed => hclosed.effect hsound heffect
      · rw [mine_write_self, done_write, hdone, List.append_nil, List.map_append]
        rw [hdone, List.append_nil] at hnodup
        refine List.nodup_append.mpr ⟨hnodup, by simp, ?_⟩
        rintro key hkey key' hkey' rfl
        simp only [List.map_cons, List.map_nil, List.mem_singleton] at hkey'
        exact hfresh (hkey' ▸ hkey)
      · simp only [mine_write_self, done_write, List.mem_append, List.mem_singleton]
        rintro w ((hw | rfl) | hw)
        · exact hoverdue w (List.mem_append_left _ hw)
        · obtain ⟨row', hrow', hsame⟩ := hcons cmd (by simp)
          rw [visible_of_not_mem hfresh] at hrow ⊢
          rw [hrow] at hrow'
          cases hrow'
          exact hrow ▸ overdue_write (hexpired cmd (by simp)) hsame rfl
        · exact hoverdue w (List.mem_append_right _ hw)
  | missed now' started cmd rest timed_out hmiss =>
      obtain ⟨rfl, rfl, hids, hexpired, hall⟩ := hswept
      obtain ⟨hdone, hmine⟩ := hledger
      rw [hquiet rfl, List.append_nil]
      have hfresh := not_written hids hmine
      have hclosed : Closed db cmd.id := by
        obtain ⟨row, hrow, _⟩ := hcons cmd (by simp)
        exact ⟨row, hrow, hmiss row (by rwa [visible_of_not_mem hfresh])⟩
      refine ⟨swept_nextUpdate started rest _ hdone ⟨rfl, rfl, ?_,
        fun c hc => hexpired c (List.mem_cons_of_mem _ hc), fun id hid => ?_⟩, hnodup, hoverdue⟩
      · refine hids.sublist (List.Sublist.map _ ?_)
        exact (List.sublist_cons_self cmd rest).append_left timed_out
      · exact closed_or_left hclosed (hall id hid)
  | commit now' timed_out =>
      obtain ⟨rfl, hids, hall⟩ := hswept
      obtain ⟨hdone, hmine⟩ := hledger
      rw [hquiet rfl, List.append_nil]
      have hown : (db.commit r).mine r ++ (db.commit r).done r = db.mine r ++ db.done r := by
        simp [hdone]
      refine ⟨⟨?_, fun id hid => ?_⟩, hown ▸ hnodup, hown ▸ hoverdue⟩
      · simp [hdone, hmine, called]
      · rcases hall id hid with hmem | hclosed
        · rw [← hmine] at hmem
          obtain ⟨w, hw, rfl⟩ := List.mem_map.mp hmem
          refine closed_of_mem (hsound.commit r) (List.mem_append_right _ hw) ?_
          rw [(hoverdue w (List.mem_append_left _ hw)).1]
          decide
        · exact hclosed.effect hsound heffect
  | announced now' =>
      rw [hquiet rfl, List.append_nil]
      exact ⟨⟨by simpa using hswept.1, hswept.2⟩, hnodup, hoverdue⟩
  | broadcast now' cmd rest delivered =>
      obtain ⟨hdone, hclosed⟩ := hswept
      have hcalled : called (calls ++ new) = called calls ++ [cmd.id] := by
        rw [called, List.map_append, ← called, ← called, hnew]
        rfl
      refine ⟨?_, hnodup, hoverdue⟩
      cases rest with
      | nil => exact ⟨by rw [hcalled]; exact hdone, hclosed⟩
      | cons next rest => exact ⟨by simpa [hcalled] using hdone, hclosed⟩

-- In every state, the calls made are for the first of the commands that the scan has moved.
theorem called_prefix (h : Swept db r now selected calls state) :
    called calls <+: (db.done r).map Write.key := by
  cases state with
  | select now' => exact h.elim
  | update now' started expired timed_out =>
      rw [h.2.1]
      exact List.nil_prefix
  | commit now' timed_out =>
      rw [h.1]
      exact List.nil_prefix
  | broadcast now' timed_out => exact ⟨_, h.1.symm⟩
  | returned => exact ⟨[], by rw [List.append_nil]; exact h.1.symm⟩
  | raised error => exact h

-- An exception ends the scan with what it had announced so far.
theorem Sweep.abort (h : Sweep db r now selected calls state) :
    Sweep (db.rollback r) r now selected calls (.raised .database) where
  swept := by
    rw [Swept, done_rollback]
    exact called_prefix h.swept
  nodup := by
    rw [mine_rollback_self, done_rollback]
    exact h.nodup.sublist (List.Sublist.map _ (List.sublist_append_right _ _))
  overdue := fun w hw => h.overdue w (mem_own_of_rollback hw)

end Steps

section Runs

variable {s t : System} {r : RequestId} {now clock : Instant} {ids : List CommandId}
  {calls : List (Message × Bool)} {actions : List Action}

-- The scan of request `r`, from its SELECT on.
def Sweeping (r : RequestId) (now : Instant) (selected : List CommandId) (s : System)
    (calls : List (Message × Bool)) : Prop :=
  Inv s ∧ ∃ state, s.requests r = some (.scan state) ∧ Sweep s.db r now selected calls state

theorem Sweeping.step {selected : List CommandId} {action : Action}
    (h : Sweeping r now selected s calls) (hstep : s.step action = some t) :
    Sweeping r now selected t (calls ++ scanCall r s action) := by
  obtain ⟨hinv, state, hrequest, hsweep⟩ := h
  refine ⟨hinv.step hstep, ?_⟩
  by_cases hactor : action.actor = r
  · cases system_step hstep with
    | start r' now' call hidle =>
        have hr : r' = r := hactor
        rw [hr, hrequest] at hidle
        cases hidle
    | create r' now' choice robot_id command state₁ state' db' out hrequest' hown =>
        have hr : r' = r := hactor
        rw [hr, hrequest] at hrequest'
        cases hrequest'
    | claim r' now' choice robot_id state₁ state' db' out hrequest' hown =>
        have hr : r' = r := hactor
        rw [hr, hrequest] at hrequest'
        cases hrequest'
    | update r' now' choice command_id update_data state₁ state' db' out hrequest' hown =>
        have hr : r' = r := hactor
        rw [hr, hrequest] at hrequest'
        cases hrequest'
    | scan r' now' choice state₁ state' db' out hrequest' hown =>
        have hr : r' = r := hactor
        subst hr
        rw [hrequest] at hrequest'
        cases hrequest'
        exact ⟨state', Function.update_self _ _ _, hsweep.step hinv.sound (hinv.active r' _ hrequest)
          (scan_advance hstep hrequest).1 hown⟩
    | fail r' request hrequest' hopen =>
        have hr : r' = r := hactor
        subst hr
        rw [hrequest] at hrequest'
        cases hrequest'
        have hnone : scanCall r' s (.fail r') = [] := rfl
        rw [hnone, List.append_nil]
        exact ⟨_, Function.update_self _ _ _, hsweep.abort⟩
  · obtain ⟨heffect, _, hothers⟩ := hinv.acts hstep
    rw [scanCall_other hactor, List.append_nil]
    exact ⟨state, (hothers r (Ne.symm hactor)).trans hrequest,
      hsweep.effect_of_ne hinv.sound heffect (Ne.symm hactor)⟩

-- What the SELECT of a scan starts from.
theorem sweeping_select (hinv : Inv s) (hrequest : s.requests r = some (.scan (.select now)))
    (hstep : s.step (.advance r clock (.rows ids)) = some t) :
    Sweeping r now ids t [] ∧
      ∀ id row, s.db.committed id = some row → overdue now row = true → id ∈ ids := by
  have hinv' := hinv.step hstep
  simp only [System.step, hrequest, Option.bind_some, Option.map_eq_some_iff, Request.next] at hstep
  obtain ⟨⟨db, request, out⟩, ⟨⟨db', state', out'⟩, hscan, heq⟩, rfl⟩ := hstep
  cases heq
  simp only [scan_for_timeouts] at hscan
  split at hscan
  · rename_i hids
    cases hscan
    obtain ⟨hnodup, hmap, hoverdue, hall⟩ := selected_rows hinv.sound hids
    obtain ⟨hmine, hdone⟩ := (hinv.active r _ hrequest).ledger
    refine ⟨⟨hinv', _, Function.update_self _ _ _, swept_nextUpdate clock _ [] hdone
      ⟨rfl, rfl, ?_, hoverdue, fun id hid => Or.inl ?_⟩, ?_, ?_⟩, hall⟩
    · rwa [List.nil_append, hmap]
    · rwa [List.nil_append, hmap]
    · simp [hmine, hdone]
    · simp [hmine, hdone]
  · cases hscan

theorem sent_of_ne {action : Action} (hstep : s.step action = some t) (hne : action.actor ≠ r) :
    t.sent r = s.sent r := by
  have hout : ∀ {db requests} (r' : RequestId) (out : List Message), r' ≠ r →
      (System.mk db requests (s.published ++ out.map fun message => (r', message))).sent r =
        s.sent r := by
    intro db requests r' out hr
    rw [sent_eq, if_neg hr, List.append_nil]
    rfl
  cases system_step hstep with
  | start r' now call hidle => rfl
  | create r' now choice robot_id command state state' db' out hrequest hown => exact hout r' out hne
  | claim r' now choice robot_id state state' db' out hrequest hown => exact hout r' out hne
  | update r' now choice command_id update_data state state' db' out hrequest hown =>
      exact hout r' out hne
  | scan r' now choice state state' db' out hrequest hown => exact hout r' out hne
  | fail r' request hrequest hopen => rfl

-- What a scan has put on the stream is what was delivered of its calls, of which it makes
-- none while it is at a statement.
structure Heard (r : RequestId) (s : System) (calls : List (Message × Bool)) : Prop where
  idle : s.requests r = none → s.sent r = [] ∧ calls = []
  scan : ∀ state, s.requests r = some (.scan state) →
    s.sent r = (calls.filter Prod.snd).map Prod.fst ∧ (state.statement = true → calls = [])

theorem heard_init (r : RequestId) : Heard r System.init [] where
  idle := fun _ => ⟨rfl, rfl⟩
  scan := fun _ h => nomatch h

theorem calling_of_statement {db db' : Table} {state state' : ScanState} {out : List Message}
    (hstep : ScanStep db r clock state db' state' out) (h : state'.statement = true) :
    state.statement = true ∧ state.calling = [] := by
  cases hstep with
  | announced now' => cases h
  | broadcast now' cmd rest delivered => cases rest <;> cases h
  | _ => exact ⟨rfl, rfl⟩

theorem Heard.step {action : Action} (h : Heard r s calls) (hstep : s.step action = some t) :
    Heard r t (calls ++ scanCall r s action) := by
  by_cases hactor : action.actor = r
  · subst hactor
    have hother : ∀ {db : Table} {request : Request} {published : List (RequestId × Message)},
        (∀ state, request ≠ .scan state) →
        Heard action.actor
          ⟨db, Function.update s.requests action.actor (some request), published⟩
          (calls ++ scanCall action.actor s action) := fun hrequest =>
      ⟨fun hnone => by simp at hnone, fun state hstate => by
        simp only [Function.update_self, Option.some.injEq] at hstate
        exact absurd hstate (hrequest state)⟩
    cases system_step hstep with
    | start r now call hidle =>
        obtain ⟨hsent, hcalls⟩ := h.idle hidle
        refine ⟨fun hnone => by simp [Action.actor] at hnone, fun state _ => ?_⟩
        simp only [scanCall, List.append_nil, hcalls]
        exact ⟨hsent, fun _ => trivial⟩
    | create r now choice robot_id command state state' db' out hrequest hown =>
        exact hother (by simp)
    | claim r now choice robot_id state state' db' out hrequest hown => exact hother (by simp)
    | update r now choice command_id update_data state state' db' out hrequest hown =>
        exact hother (by simp)
    | scan r now choice state state' db' out hrequest hown =>
        obtain ⟨hsent, hcalls⟩ := h.scan state hrequest
        obtain ⟨hcalled, hpublished⟩ := scan_advance hstep hrequest
        refine ⟨fun hnone => by simp [Action.actor] at hnone,
          fun state₁ hstate₁ => ⟨?_, fun hstatement => ?_⟩⟩
        · have hgrown := sent_eq db' (Function.update s.requests r (some (.scan state')))
            s.published r r (((scanCall r s (.advance r now choice)).filter Prod.snd).map Prod.fst)
          simp only at hpublished
          rw [hpublished, Action.actor]
          rw [if_pos rfl, List.map_map] at hgrown
          rw [List.filter_append, List.map_append, ← hsent]
          exact hgrown
        · simp only [Action.actor, Function.update_self, Option.some.injEq, Request.scan.injEq]
            at hstate₁
          subst hstate₁
          obtain ⟨hbefore, hquiet⟩ := calling_of_statement hown hstatement
          have hnone := List.map_eq_nil_iff.mp (hcalled.trans hquiet)
          rw [hcalls hbefore]
          exact hnone
    | fail r request hrequest hopen =>
        cases request with
        | scan state =>
            obtain ⟨hsent, _⟩ := h.scan state hrequest
            refine ⟨fun hnone => by simp [Action.actor] at hnone, fun state₁ hstate₁ => ?_⟩
            simp only [Action.actor, Function.update_self, Request.abort, Option.some.injEq,
              Request.scan.injEq] at hstate₁
            subst hstate₁
            rw [show scanCall (Action.fail r).actor s (.fail r) = [] from rfl, List.append_nil]
            exact ⟨hsent, by simp [ScanState.statement]⟩
        | create robot_id command state => exact hother (by simp [Request.abort])
        | claim robot_id state => exact hother (by simp [Request.abort])
        | update command_id update_data state => exact hother (by simp [Request.abort])
  · have hrequests : t.requests r = s.requests r := by
      cases system_step hstep with
      | _ => exact Function.update_of_ne (Ne.symm hactor) _ _
    have hsent := sent_of_ne hstep hactor
    rw [scanCall_other hactor, List.append_nil]
    refine ⟨fun hnone => ?_, fun state hstate => ?_⟩
    · rw [hsent]
      exact h.idle (hrequests ▸ hnone)
    · rw [hsent]
      exact h.scan state (hrequests ▸ hstate)

theorem heard_run (r : RequestId) (hrun : Reaches System.init actions s) :
    Heard r s (scanCalls r System.init actions) :=
  Runs.exec_trace_invariant (I := Heard r) (fun _ _ _ _ h hstep => h.step hstep) (heard_init r) hrun

theorem sweeping_run {selected : List CommandId} (h : Sweeping r now selected s [])
    (hrun : Reaches s actions t) : Sweeping r now selected t (scanCalls r s actions) :=
  Runs.exec_trace_invariant (I := Sweeping r now selected) (fun _ _ _ _ h hstep => h.step hstep) h
    hrun

-- A scan that has ended with an exception stays as it is.
def Stopped (r : RequestId) (s : System) (calls : List (Message × Bool)) : Prop :=
  Inv s ∧ (∃ error, s.requests r = some (.scan (.raised error))) ∧ s.db.done r = [] ∧ calls = []

theorem Stopped.step {action : Action} (h : Stopped r s calls) (hstep : s.step action = some t) :
    Stopped r t (calls ++ scanCall r s action) := by
  obtain ⟨hinv, ⟨error, hrequest⟩, hdone, hcalls⟩ := h
  have hmine : s.db.mine r = [] := (hinv.active r _ hrequest).ledger
  refine ⟨hinv.step hstep, ⟨error, System.step_finished hstep hrequest rfl⟩, ?_, ?_⟩
  · by_cases hactor : action.actor = r
    · have heffect := (hinv.acts hstep).effect
      rw [hactor] at heffect
      generalize t.db = db' at heffect ⊢
      cases heffect with
      | same => exact hdone
      | write key row hfree hrow => exact hdone
      | commit => rw [done_commit_self, hdone, hmine, List.nil_append]
      | rollback => exact hdone
    · rw [(hinv.acts hstep).effect.done_of_ne (Ne.symm hactor)]
      exact hdone
  · rw [hcalls, scanCall_quiet hrequest rfl action]
    rfl

-- From its SELECT on, a scan announces what it has committed and no other command, each
-- once; it moves overdue commands only; and when it returns, all it selected are in a
-- terminal state. A statement that raises leaves nothing moved and nothing announced.
theorem timeout_sweep (r : RequestId) :
    (∀ before after s₀ s now clock ids, Reaches System.init before s₀ →
      s₀.requests r = some (.scan (.select now)) →
      Reaches s₀ (.advance r clock (.rows ids) :: after) s →
      ∀ calls, calls = scanCalls r System.init (before ++ .advance r clock (.rows ids) :: after) →
        (s.requests r = some (.scan .returned) →
          called calls = (s.db.done r).map Write.key ∧
            ∀ id row, s₀.db.committed id = some row → overdue now row = true → Closed s.db id) ∧
        called calls <+: (s.db.done r).map Write.key ∧ ((s.db.done r).map Write.key).Nodup ∧
        s.sent r = (calls.filter Prod.snd).map Prod.fst ∧
        ∀ w ∈ s.db.done r, Overdue now w) ∧
    (∀ actions more s t u state, Reaches System.init actions s →
      s.requests r = some (.scan state) → state.statement = true → s.step (.fail r) = some t →
      Reaches t more u →
        u.db.done r = [] ∧ u.db.mine r = [] ∧ u.sent r = [] ∧
          scanCalls r System.init (actions ++ .fail r :: more) = []) := by
  refine ⟨fun before after s₀ s now clock ids hbefore hselect hrun calls hcalls => ?_,
    fun actions more s t u state hs hrequest hstatement hfail hmore => ?_⟩
  · have hwhole := (Runs.exec_append_iff _ _ _ _).mpr ⟨s₀, hbefore, hrun⟩
    have hheard := heard_run r hwhole
    obtain ⟨s₁, hstep, hafter⟩ := (Runs.exec_cons_iff _ _ _ _).mp hrun
    obtain ⟨hsweeping, hselected⟩ := sweeping_select (inv_init.run hbefore) hselect hstep
    -- Up to the SELECT, and at it, the scan has made no call.
    have hquiet : calls = scanCalls r s₁ after := by
      rw [hcalls, scanCalls, Runs.trace_append hbefore, Runs.trace_cons hstep]
      have hnone := ((heard_run r hbefore).scan _ hselect).2 rfl
      rw [scanCalls] at hnone
      rw [hnone]
      rfl
    obtain ⟨hinv, state, hrequest, hswept, hnodup, hoverdue⟩ := sweeping_run hsweeping hafter
    rw [← hquiet] at hswept
    rw [← hcalls] at hheard
    refine ⟨fun hreturned => ?_, called_prefix hswept,
      hnodup.sublist (List.Sublist.map _ (List.sublist_append_right _ _)),
      (hheard.scan state hrequest).1, fun w hw => hoverdue w (List.mem_append_right _ hw)⟩
    rw [hrequest] at hreturned
    cases hreturned
    exact ⟨hswept.1.symm, fun id row hrow hlate => hswept.2 id (hselected id row hrow hlate)⟩
  · have hinv := inv_init.run hs
    have hlocal := hinv.active r _ hrequest
    have hdone : s.db.done r = [] := by
      cases state with
      | select now' => exact hlocal.ledger.2
      | update now' started expired timed_out => exact hlocal.ledger.1
      | commit now' timed_out => exact hlocal.ledger.1
      | _ => cases hstatement
    have hbefore : scanCalls r System.init actions = [] :=
      ((heard_run r hs).scan state hrequest).2 hstatement
    have hstopped : Stopped r t [] := by
      refine ⟨hinv.step hfail, ⟨.database, ?_⟩, ?_, rfl⟩
      all_goals
        obtain ⟨request, hsome, hfail⟩ := Option.bind_eq_some_iff.mp hfail
        rw [hrequest] at hsome
        cases hsome
        split at hfail <;> cases hfail
      · exact Function.update_self _ _ _
      · exact hdone
    have hwhole : Reaches System.init (actions ++ .fail r :: more) u :=
      (Runs.exec_append_iff _ _ _ _).mpr
        ⟨s, hs, (Runs.exec_cons_iff _ _ _ _).mpr ⟨t, hfail, hmore⟩⟩
    obtain ⟨hinv', ⟨error, hraised⟩, hdone', hcalls⟩ :=
      Runs.exec_trace_invariant (I := Stopped r) (fun _ _ _ _ h hstep => h.step hstep) hstopped hmore
    have hnone : scanCalls r System.init (actions ++ .fail r :: more) = [] := by
      rw [scanCalls, Runs.trace_append hs, Runs.trace_cons hfail]
      rw [scanCalls] at hbefore
      rw [hbefore]
      exact hcalls
    have hsent := ((heard_run r hwhole).scan _ hraised).1
    rw [hnone] at hsent
    exact ⟨hdone', (hinv'.active r _ hraised).ledger, hsent, hnone⟩

end Runs

section Expired

-- A command with five seconds to run, and a scan six seconds later.
def expiredRun : List Action :=
  createRun 0 10 7 1 ⟨"RESUME", none, some 5, none⟩ ++ [.start 1 6000000 .scan_for_timeouts]

def sweepRun : List Action :=
  [.advance 1 6000001 (.rows [7]), .advance 1 6000002 .quiet, .advance 1 6000003 .quiet,
    .advance 1 6000004 (.publish true)]

theorem timeout_sweep_expired :
    ∃ s, Reaches System.init (expiredRun ++ sweepRun) s ∧
      called (scanCalls 1 System.init (expiredRun ++ sweepRun)) = (s.db.done 1).map Write.key ∧
      Closed s.db 7 ∧ ∀ w ∈ s.db.done 1, Overdue 6000000 w := by
  let s₀ := (Runs.exec System.step System.init expiredRun).getD System.init
  let s := (Runs.exec System.step s₀ sweepRun).getD s₀
  have hbefore : Reaches System.init expiredRun s₀ := rfl
  have hrun : Reaches s₀ sweepRun s := rfl
  obtain ⟨hreturned, _, _, _, hoverdue⟩ := (timeout_sweep 1).1 expiredRun _ s₀ s 6000000 6000001 [7]
    hbefore rfl hrun _ rfl
  obtain ⟨hcalled, hclosed⟩ := hreturned rfl
  exact ⟨s, (Runs.exec_append_iff _ _ _ _).mpr ⟨s₀, hbefore, hrun⟩, hcalled, hclosed 7 _ rfl rfl,
    hoverdue⟩

end Expired

end FleetOps.Command
