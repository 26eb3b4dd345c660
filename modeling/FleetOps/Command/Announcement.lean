import FleetOps.Command.Lifecycle
import FleetOps.Command.Published

namespace FleetOps.Command

open RowStore

-- At its second read an `update_status` call whose UPDATE matched finds its own
-- write still the newest of the command, and no failure ends the call between
-- its commit and its answer.
def undisturbed (s : System) : Action → Bool
  | .start _ _ _ => true
  | .advance r _ _ =>
      match s.requests r with
      | some (.update command_id _ (.reread _ _ true)) =>
          decide ((s.db.history command_id).getLast?.map Write.writer = some r)
      | _ => true
  | .fail r =>
      match s.requests r with
      | some (.update _ _ _) => (s.db.done r).isEmpty
      | _ => true

abbrev AllUndisturbed (actions : List Action) : Prop :=
  Runs.Along System.step (fun s action => undisturbed s action = true) System.init actions

-- What a call still knows of its own write when it answers.
def Truthful : Request → List RowWrite → Prop
  | .update _ _ (.broadcast payload _), done => ∃ w, done = [w] ∧ payload = to_dict w.after
  | .update _ _ (.returned payload), done => ∀ w ∈ done, payload = to_dict w.after
  | .update _ _ (.raised _), done => done = []
  | _, _ => True

theorem own_write {s : System} (hinv : Inv s) {r : RequestId} {command_id : CommandId}
    {update_data : CommandStatusUpdate} {new : Status} {now : Instant}
    (hrequest : s.requests r = some (.update command_id update_data (.reread new now true))) :
    ∃ w ∈ s.db.log, s.db.done r = [w] ∧ w.key = command_id ∧ w.after.status = new := by
  obtain ⟨_, hledger, hauth⟩ := hinv.active r _ hrequest
  obtain ⟨_, w, hdone, hnew⟩ := hledger
  have hw : w ∈ s.db.done r := by simp [hdone]
  obtain ⟨hkey, _⟩ := hauth w (List.mem_append_right _ hw)
  exact ⟨w, (mem_done.mp hw).1, hdone, hkey, hnew⟩

theorem newest_write {s : System} {id : CommandId} {current : RobotCommand}
    (hrow : s.db.committed id = some current) :
    ∃ v ∈ s.db.log, v.key = id ∧ v.after = current ∧ (s.db.history id).getLast? = some v := by
  cases hlast : (s.db.history id).getLast? with
  | none =>
      rw [List.getLast?_eq_none_iff] at hlast
      rw [Store.committed, (latest_eq_none_iff _ _).mpr hlast] at hrow
      cases hrow
  | some v =>
      obtain ⟨hv, hkey⟩ := mem_lineage.mp (List.mem_of_getLast? hlast)
      rw [Store.committed, latest, ← Store.history, ending_of_getLast none hlast] at hrow
      exact ⟨v, hv, hkey, Option.some.inj hrow, rfl⟩

theorem reread_own {s : System} (hinv : Inv s) {r : RequestId} {command_id : CommandId}
    {update_data : CommandStatusUpdate} {new : Status} {now : Instant} {current : RobotCommand}
    (hrequest : s.requests r = some (.update command_id update_data (.reread new now true)))
    (hrow : s.db.committed command_id = some current)
    (hwriter : (s.db.history command_id).getLast?.map Write.writer = some r) :
    ∃ w, s.db.done r = [w] ∧ current = w.after := by
  obtain ⟨w, _, hdone, _, _⟩ := own_write hinv hrequest
  obtain ⟨v, hv, _, hcurrent, hlast⟩ := newest_write hrow
  rw [hlast, Option.map_some, Option.some.injEq] at hwriter
  have hown : v ∈ s.db.done r := mem_done.mpr ⟨hv, hwriter⟩
  rw [hdone, List.mem_singleton] at hown
  exact ⟨w, hdone, by rw [← hcurrent, hown]⟩

-- The second read finds the requested status exactly when nobody has committed
-- a change of the command since the call's own.
theorem reread_status_iff {s : System} (hinv : Inv s) {r : RequestId} {command_id : CommandId}
    {update_data : CommandStatusUpdate} {new : Status} {now : Instant} {current : RobotCommand}
    (hrequest : s.requests r = some (.update command_id update_data (.reread new now true)))
    (hrow : s.db.committed command_id = some current) :
    current.status = new ↔ (s.db.history command_id).getLast?.map Write.writer = some r := by
  obtain ⟨w, hw, hdone, hkey, hnew⟩ := own_write hinv hrequest
  constructor
  · intro hstatus
    obtain ⟨v, hv, hvkey, hcurrent, hlast⟩ := newest_write hrow
    have hvw : v = w :=
      eq_of_rank hinv.sound hv hw (hvkey.trans hkey.symm) (by rw [hcurrent, hstatus, hnew])
    rw [hlast, hvw]
    exact congrArg some (mem_done.mp (by simp [hdone] : w ∈ s.db.done r)).2
  · intro hwriter
    obtain ⟨v, hv, hcurrent⟩ := reread_own hinv hrequest hrow hwriter
    rw [hdone, List.singleton_inj] at hv
    rw [hcurrent, ← hv, hnew]

theorem update_truthful {s : System} (hinv : Inv s) {r : RequestId} {clock : Instant}
    {choice : Choice} {command_id : CommandId} {update_data : CommandStatusUpdate} {db' : Table}
    {state state' : UpdateState} {out : List Message}
    (hundisturbed : undisturbed s (.advance r clock choice) = true)
    (hrequest : s.requests r = some (.update command_id update_data state))
    (htruthful : Truthful (.update command_id update_data state) (s.db.done r))
    (hstep : UpdateStep command_id update_data s.db r state db' state' out) :
    Truthful (.update command_id update_data state') (db'.done r) := by
  have hledger := (hinv.active r _ hrequest).ledger
  cases hstep with
  | missing hnone => exact hledger.2
  | select record hrow => trivial
  | check record now =>
      have hnone : ∀ w ∈ s.db.done r, False := by simp [hledger.2]
      unfold checkTransition
      split_ifs
      · exact fun w hw => (hnone w hw).elim
      · exact hledger.2
      · split
        · exact hledger.2
        · trivial
  | matched current new now row hrow hcurrent hfree => trivial
  | missed current new now hmiss => trivial
  | commit new now matched => trivial
  | vanished new now matched hnone =>
      cases matched with
      | false => exact hledger.2
      | true =>
          obtain ⟨w, hw, _, hkey, _⟩ := own_write hinv hrequest
          obtain ⟨row, hrow⟩ := latest_isSome_of_mem hw
          rw [hkey] at hrow
          exact absurd (hrow.symm.trans hnone) (by simp)
  | reread new now matched current hrow =>
      cases matched with
      | false =>
          simp only [afterReread, Bool.false_eq_true, if_false]
          split_ifs
          · simp [Truthful, hledger.2]
          · exact hledger.2
      | true =>
          have hwriter : (s.db.history command_id).getLast?.map Write.writer = some r := by
            simpa [undisturbed, hrequest] using hundisturbed
          obtain ⟨w, hdone, hcurrent⟩ := reread_own hinv hrequest hrow hwriter
          exact ⟨w, hdone, by rw [hcurrent]⟩
  | broadcast payload now delivered =>
      obtain ⟨w, hdone, hpayload⟩ := htruthful
      simp [Truthful, hdone, hpayload]

theorem truthful_step {s t : System} {action : Action} (hinv : Inv s)
    (htruthful : ∀ r request, s.requests r = some request → Truthful request (s.db.done r))
    (hundisturbed : undisturbed s action = true) (h : s.step action = some t) :
    ∀ r request, t.requests r = some request → Truthful request (t.db.done r) := by
  have hframe : ∀ {r' request db'}, Effect Advance s.db r' db' → Truthful request (db'.done r') →
      ∀ r request', Function.update s.requests r' (some request) r = some request' →
        Truthful request' (db'.done r) := by
    intro r' request db' heffect hacting
    refine Runs.forall_update hacting fun r request' hr hrequest => ?_
    rw [heffect.done_of_ne hr]
    exact htruthful r request' hrequest
  cases system_step h with
  | start r now call hidle =>
      exact hframe .same (by cases call <;> trivial)
  | create r now choice robot_id command state state' db' out hrequest hstep =>
      obtain ⟨heffect, _⟩ := create_local hinv.sound (hinv.active r _ hrequest) hstep
      exact hframe heffect trivial
  | claim r now choice robot_id state state' db' out hrequest hstep =>
      obtain ⟨heffect, _⟩ := claim_local hinv.sound (hinv.active r _ hrequest) hstep
      exact hframe heffect trivial
  | update r now choice command_id update_data state state' db' out hrequest hstep =>
      obtain ⟨heffect, _⟩ := update_local hinv.sound (hinv.active r _ hrequest) hstep
      exact hframe heffect (update_truthful hinv hundisturbed hrequest (htruthful r _ hrequest) hstep)
  | scan r now choice state state' db' out hrequest hstep =>
      obtain ⟨heffect, _⟩ := scan_local hinv.sound (hinv.active r _ hrequest) hstep
      exact hframe heffect trivial
  | fail r request hrequest hopen =>
      refine hframe .rollback ?_
      cases request with
      | update command_id update_data state =>
          have hdone : s.db.done r = [] := by simpa [undisturbed, hrequest] using hundisturbed
          rw [Request.abort, Truthful, done_rollback, hdone]
      | _ => trivial

theorem truthful_run {actions : List Action} {s : System} (hs : Reaches System.init actions s)
    (hundisturbed : AllUndisturbed actions) :
    ∀ r request, s.requests r = some request → Truthful request (s.db.done r) := by
  have h := Runs.exec_along_invariant
    (I := fun u => Inv u ∧ ∀ r request, u.requests r = some request → Truthful request (u.db.done r))
    (fun u action v hc hu hstep => ⟨hu.1.step hstep, truthful_step hu.1 hu.2 hc hstep⟩) hundisturbed
    ⟨inv_init, by simp [System.init]⟩ hs
  exact h.2

private theorem perm_of_filter_fst {α β : Type*} [DecidableEq α] [DecidableEq β]
    {xs ys : List (α × β)}
    (h : ∀ a, xs.filter (fun p => decide (p.1 = a)) = ys.filter fun p => decide (p.1 = a)) :
    xs.Perm ys := by
  rw [List.perm_iff_count]
  intro p
  have hcount : ∀ zs : List (α × β),
      zs.count p = (zs.filter fun q => decide (q.1 = p.1)).count p := fun zs =>
    (List.count_filter (by simp)).symm
  rw [hcount xs, hcount ys, h p.1]

def System.updates (s : System) (r : RequestId) : Bool :=
  match s.requests r with
  | some (.update _ _ _) => true
  | _ => false

-- The `update_status` broadcasts for a command: who sent them, and their status.
def updateBroadcasts (s : System) (id : CommandId) : List (RequestId × Status) :=
  (s.published.filter fun p => s.updates p.1 && decide (p.2.command_id = id)).map
    fun p => (p.1, p.2.status)

-- The transitions that `update_status` calls have committed for a command.
def updateTransitions (s : System) (id : CommandId) : List (RequestId × Status) :=
  ((s.db.history id).filter fun w => s.updates w.writer).map fun w => (w.writer, w.after.status)

-- Selecting one sender's entries first or last is the same.
private theorem filter_sender {α β : Type*} (xs : List α) (sender : α → RequestId)
    (updates : RequestId → Bool) (select : α → Bool) (value : α → β) (r : RequestId) :
    ((xs.filter fun x => updates (sender x) && select x).map fun x => (sender x, value x)).filter
        (fun p => decide (p.1 = r)) =
      if updates r then (((xs.filter fun x => decide (sender x = r)).filter select).map
        fun x => (r, value x)) else [] := by
  have hselect : ((fun p : RequestId × β => decide (p.1 = r)) ∘ fun x => (sender x, value x)) =
      fun x => decide (sender x = r) := rfl
  rw [List.filter_map, List.filter_filter, hselect]
  cases hr : updates r with
  | false =>
      have hnone : (xs.filter fun x => decide (sender x = r) && (updates (sender x) && select x)) = [] := by
        simp only [List.filter_eq_nil_iff, Bool.and_eq_true, decide_eq_true_eq]
        rintro x _ ⟨rfl, hupdates, _⟩
        rw [hr] at hupdates
        cases hupdates
      simp [hnone]
  | true =>
      rw [if_pos rfl, List.filter_filter]
      have hsame : ∀ x ∈ xs, (decide (sender x = r) && (updates (sender x) && select x)) =
          (select x && decide (sender x = r)) := by
        intro x _
        by_cases hx : sender x = r
        · simp [hx, hr]
        · simp [hx]
      rw [List.filter_congr hsame]
      refine List.map_congr_left fun x hx => ?_
      obtain ⟨_, hx⟩ := List.mem_filter.mp hx
      simp only [Bool.and_eq_true, decide_eq_true_eq] at hx
      rw [hx.2]

theorem updateBroadcasts_of (s : System) (id : CommandId) (r : RequestId) :
    (updateBroadcasts s id).filter (fun p => decide (p.1 = r)) =
      if s.updates r then ((s.sent r).filter fun m => decide (m.command_id = id)).map
        fun m => (r, m.status) else [] := by
  rw [updateBroadcasts, filter_sender s.published Prod.fst s.updates
    (fun p => decide (p.2.command_id = id)) (fun p => p.2.status) r, System.sent, List.filter_map,
    List.map_map]
  rfl

theorem updateTransitions_of (s : System) (id : CommandId) (r : RequestId) :
    (updateTransitions s id).filter (fun p => decide (p.1 = r)) =
      if s.updates r then ((s.db.done r).filter fun w => decide (w.key = id)).map
        fun w => (r, w.after.status) else [] := by
  have hsplit := filter_sender s.db.log Write.writer s.updates (fun w => decide (w.key = id))
    (fun w => w.after.status) r
  rw [Store.done, ← hsplit, updateTransitions, Store.history, lineage, List.filter_filter]

-- A call that has answered has announced its own write, if it made one.
theorem returned_sent {s : System} (hinv : Inv s) (hannounced : Announced s)
    (htruthful : ∀ r request, s.requests r = some request → Truthful request (s.db.done r))
    {r : RequestId} {command_id : CommandId} {update_data : CommandStatusUpdate}
    {payload : CommandDict}
    (hrequest : s.requests r = some (.update command_id update_data (.returned payload))) :
    (s.db.done r = [] ∧ s.sent r = []) ∨ ∃ w now, s.db.done r = [w] ∧ w.key = command_id ∧
      payload = to_dict w.after ∧ payload.command_id = command_id ∧
        s.sent r = [dictMessage "COMMAND_UPDATE" payload now] := by
  rcases hannounced.active r _ hrequest with hnone | ⟨w, now, hdone, hsent⟩
  · exact Or.inl hnone
  · have hw : w ∈ s.db.done r := by simp [hdone]
    obtain ⟨hkey, _⟩ := (hinv.active r _ hrequest).authored w (List.mem_append_right _ hw)
    have hpayload : payload = to_dict w.after := htruthful r _ hrequest w hw
    have hid := id_eq_key hinv.sound w (List.mem_append_left _ (mem_done.mp hw).1)
    exact Or.inr ⟨w, now, hdone, hkey, hpayload, by rw [hpayload, ← hkey, ← hid]; rfl, hsent⟩

-- What one `update_status` call has announced of a command is what it changed.
theorem announced_eq_changed {s : System} (hinv : Inv s) (hannounced : Announced s)
    (htruthful : ∀ r request, s.requests r = some request → Truthful request (s.db.done r))
    {id : CommandId} (hended : ∀ r update_data state,
      s.requests r = some (.update id update_data state) →
        (Request.update id update_data state).finished = true) (r : RequestId)
    (hupdates : s.updates r = true) :
    ((s.sent r).filter fun m => decide (m.command_id = id)).map (fun m => (r, m.status)) =
      ((s.db.done r).filter fun w => decide (w.key = id)).map fun w => (r, w.after.status) := by
  cases hrequest : s.requests r with
  | none => simp [System.updates, hrequest] at hupdates
  | some request =>
      cases request with
      | update command_id update_data state =>
          have hsends := hannounced.active r _ hrequest
          have hauth := (hinv.active r _ hrequest).authored
          cases state with
          | returned payload =>
              rcases returned_sent hinv hannounced htruthful hrequest with
                ⟨hdone, hsent⟩ | ⟨w, now, hdone, hkey, hpayload, hid, hsent⟩
              · simp [hdone, hsent]
              · have hstatus : payload.status = w.after.status := by rw [hpayload]; rfl
                rw [hdone, hsent]
                by_cases heq : command_id = id <;> simp [dictMessage, hid, hkey, heq, hstatus]
          | raised error =>
              have hdone : s.db.done r = [] := htruthful r _ hrequest
              have hsent : s.sent r = [] := hsends
              simp [hdone, hsent]
          | _ =>
              -- A call still under way is about another command.
              have hsent : s.sent r = [] := hsends
              have hne : command_id ≠ id := by
                rintro rfl
                cases hended r update_data _ hrequest
              have hdone : (s.db.done r).filter (fun w => decide (w.key = id)) = [] := by
                simp only [List.filter_eq_nil_iff, decide_eq_true_eq]
                intro w hw hkey
                exact hne ((hauth w (List.mem_append_right _ hw)).1.symm.trans hkey)
              simp [hsent, hdone]
      | _ => simp [System.updates, hrequest] at hupdates

-- Each call whose UPDATE matched answers with, and announces, the status it
-- requested and committed; so what is announced is what has happened.
theorem announcements_truthful {actions : List Action} {s : System}
    (hs : Reaches System.init actions s)
    (hundisturbed : AllUndisturbed actions) :
    (∀ r command_id update_data payload,
      s.requests r = some (.update command_id update_data (.returned payload)) →
      ∀ w ∈ s.db.done r, payload = to_dict w.after ∧ w.key = command_id ∧
        payload.status.text = update_data.status) ∧
    (AllDelivered actions →
      (∀ r command_id update_data payload,
        s.requests r = some (.update command_id update_data (.returned payload)) →
        s.db.done r ≠ [] → ∃ now, s.sent r = [dictMessage "COMMAND_UPDATE" payload now]) ∧
      ∀ id, (∀ r update_data state, s.requests r = some (.update id update_data state) →
        (Request.update id update_data state).finished = true) →
        (updateBroadcasts s id).Perm (updateTransitions s id)) := by
  have hinv : Inv s := inv_init.run hs
  have htruthful := truthful_run hs hundisturbed
  refine ⟨?_, fun hdelivered => ⟨?_, ?_⟩⟩
  · intro r command_id update_data payload hrequest w hw
    obtain ⟨hkey, old, new, now, values, _, _, htext, hvalues, hafter⟩ :=
      (hinv.active r _ hrequest).authored w (List.mem_append_right _ hw)
    have hpayload : payload = to_dict w.after := htruthful r _ hrequest w hw
    refine ⟨hpayload, hkey, ?_⟩
    rw [hpayload, hafter, ← htext, ← (transition_values_eq_some hvalues old).1]
    rfl
  · intro r command_id update_data payload hrequest hwrote
    rcases returned_sent hinv (announced_run hs hdelivered) htruthful hrequest with
      ⟨hdone, _⟩ | ⟨_, now, _, _, _, _, hsent⟩
    · exact absurd hdone hwrote
    · exact ⟨now, hsent⟩
  · intro id hended
    refine perm_of_filter_fst fun r => ?_
    rw [updateBroadcasts_of, updateTransitions_of]
    split
    · rename_i hupdates
      exact announced_eq_changed hinv (announced_run hs hdelivered) htruthful hended r hupdates
    · rfl

def updateResponse : Option Request → Option (CommandId × String × Status)
  | some (.update command_id update_data (.returned payload)) =>
      some (command_id, update_data.status, payload.status)
  | _ => none

theorem returned_of_updateResponse {request : Option Request} {command_id : CommandId}
    {requested : String} {status : Status}
    (h : updateResponse request = some (command_id, requested, status)) :
    ∃ update_data payload, request = some (.update command_id update_data (.returned payload)) ∧
      update_data.status = requested ∧ payload.status = status := by
  unfold updateResponse at h
  split at h <;> cases h
  exact ⟨_, _, rfl, rfl, rfl⟩

-- A command that robot 1 has acknowledged.
def acknowledgedRun : List Action :=
  createRun 0 10 7 1 ⟨"RESUME", none, none, none⟩ ++ claimRun 1 20 1 [7] ++
    updateRun 2 30 7 ⟨"ACKNOWLEDGED", none, none, none⟩

-- Between the commit of EXECUTING and its second read, COMPLETED is committed.
def overtakenRun : List Action :=
  acknowledgedRun ++ (updateRun 3 40 7 ⟨"EXECUTING", none, none, none⟩).take 5 ++
    updateRun 4 50 7 ⟨"COMPLETED", none, none, none⟩ ++
    [.advance 3 60 .quiet, .advance 3 61 (.publish true)]

theorem announcement_overtaken : ¬ ∀ (actions : List Action) (s : System) (r : RequestId)
    (command_id : CommandId) (update_data : CommandStatusUpdate) (payload : CommandDict),
    Reaches System.init actions s → AllDelivered actions →
    s.requests r = some (.update command_id update_data (.returned payload)) →
    s.db.done r ≠ [] → payload.status.text = update_data.status := by
  intro htruthful
  have hrun : ((Runs.exec System.step System.init overtakenRun).any fun s =>
      updateResponse (s.requests 3) = some (7, "EXECUTING", .COMPLETED) ∧
        (s.db.done 3).length = 1) = true := by
    decide +kernel
  simp only [Option.any_eq_true, decide_eq_true_eq] at hrun
  obtain ⟨s, hs, hresponse, hdone⟩ := hrun
  obtain ⟨update_data, payload, hrequest, hrequested, hstatus⟩ :=
    returned_of_updateResponse hresponse
  have hwrote : s.db.done 3 ≠ [] := by
    intro hnone
    rw [hnone] at hdone
    cases hdone
  have htext := htruthful overtakenRun s 3 7 update_data payload hs (by decide +kernel) hrequest hwrote
  rw [hstatus, hrequested] at htext
  revert htext
  decide

-- Without an overlap what is announced is what has happened.
theorem announcements_truthful_acknowledged : ∃ s, Reaches System.init acknowledgedRun s ∧
    updateBroadcasts s 7 = [(2, .ACKNOWLEDGED)] ∧
    (updateBroadcasts s 7).Perm (updateTransitions s 7) := by
  have hrun : ((Runs.exec System.step System.init acknowledgedRun).any fun s =>
      updateResponse (s.requests 2) = some (7, "ACKNOWLEDGED", .ACKNOWLEDGED) ∧
        s.updates 0 = false ∧ s.updates 1 = false ∧
        updateBroadcasts s 7 = [(2, .ACKNOWLEDGED)]) = true := by
    decide +kernel
  simp only [Option.any_eq_true, decide_eq_true_eq] at hrun
  obtain ⟨s, hs, hresponse, hzero, hone, hbroadcasts⟩ := hrun
  obtain ⟨update_data₂, payload, hrequest₂, _⟩ := returned_of_updateResponse hresponse
  obtain ⟨_, hannounced⟩ := announcements_truthful hs (by decide +kernel)
  refine ⟨s, hs, hbroadcasts, (hannounced (by decide +kernel)).2 7 ?_⟩
  intro r update_data state hrequest
  by_cases hr : r ∈ acknowledgedRun.filterMap Action.starts
  · have hcases : r = 0 ∨ 1 = r ∨ 2 = r := by
      simpa [acknowledgedRun, createRun, claimRun, claimTurn, updateRun, Action.starts] using hr
    rcases hcases with rfl | rfl | rfl
    · simp [System.updates, hrequest] at hzero
    · simp [System.updates, hrequest] at hone
    · rw [hrequest₂] at hrequest
      cases hrequest
      rfl
  · rw [Reaches.idle hs rfl hr] at hrequest
    cases hrequest

end FleetOps.Command
