import Mathlib.Data.List.Perm.Subperm
import FleetOps.Command.Dispatch
import FleetOps.Robot.Reports

namespace FleetOps.Robot

open FleetOps.Command RowStore

-- The command is there and not yet at its end.
def Open (s : System) (id : CommandId) : Prop :=
  ∃ status, stored s id = some status ∧ status ∉ TERMINAL_STATES

def Ended (s : System) (id : CommandId) (outcome : String) : Prop :=
  (stored s id).map Status.text = some outcome

section Statuses

variable {s t : System} {id : CommandId} {action : Action} {outcome : String}

theorem open_iff : Open s id ↔ (stored s id).isSome = true ∧ terminal s id = false := by
  cases h : stored s id <;> simp [Open, terminal, h]

theorem terminal_of_text (houtcome : outcome = "COMPLETED" ∨ outcome = "FAILED") {status : Status}
    (h : status.text = outcome) : status ∈ TERMINAL_STATES := by
  rcases houtcome with rfl | rfl <;> revert h <;> cases status <;> decide

theorem not_ended_of_open (houtcome : outcome = "COMPLETED" ∨ outcome = "FAILED")
    (hopen : Open s id) : ¬Ended s id outcome := by
  obtain ⟨status, hstored, hopen⟩ := hopen
  intro hended
  rw [Ended, hstored] at hended
  exact hopen (terminal_of_text houtcome (Option.some.inj hended))

-- A command does not disappear, and at its end it stays as it is.
theorem stored_step (hinv : Inv s) (h : s.step action = some t) {status : Status}
    (hstored : stored s id = some status) :
    ∃ status', stored t id = some status' ∧ (status ∈ TERMINAL_STATES → status' = status) := by
  obtain ⟨row, hrow, rfl⟩ := Option.map_eq_some_iff.mp hstored
  obtain ⟨row', hrow', hsettles⟩ :=
    committed_settles hinv ((Runs.exec_cons_iff s t action []).mpr ⟨t, h, rfl⟩) hrow
  exact ⟨row'.status, by rw [stored, hrow']; rfl, fun hterminal => by rw [hsettles hterminal]⟩

theorem Ended.step (houtcome : outcome = "COMPLETED" ∨ outcome = "FAILED") (hinv : Inv s)
    (h : s.step action = some t) (hended : Ended s id outcome) : Ended t id outcome := by
  obtain ⟨status, hstored, htext⟩ := Option.map_eq_some_iff.mp hended
  obtain ⟨status', hstored', hsame⟩ := stored_step hinv h hstored
  rw [Ended, hstored', hsame (terminal_of_text houtcome htext), Option.map_some, htext]

theorem Open.step (hinv : Inv s) (h : s.step action = some t) (hquiet : terminal t id = false)
    (hopen : Open s id) : Open t id := by
  obtain ⟨status, hstored, _⟩ := hopen
  obtain ⟨status', hstored', _⟩ := stored_step hinv h hstored
  exact open_iff.mpr ⟨by rw [hstored']; rfl, hquiet⟩

theorem stored_of_db (hdb : t.db = s.db) : stored t id = stored s id := by
  rw [stored, stored, hdb]

-- The step of a PATCH: it is served on, or fails.
inductive PatchStep (s t : System) (command_id : CommandId) (patch : CommandStatusUpdate)
    (state : UpdateState) (action : Action) : Prop where
  | served (r : RequestId) (now : Instant) (choice : Choice) (state' : UpdateState) (db' : Table)
      (out : List Message) (haction : action = .advance r now choice) (hdb : t.db = db')
      (hstep : UpdateStep command_id patch s.db r state db' state' out)
      (hafter : t.requests r = some (.update command_id patch state')) :
      PatchStep s t command_id patch state action
  | failed (r : RequestId) (haction : action = .fail r)
      (hopen : (Request.update command_id patch state).finished = false)
      (hdb : t.db = s.db.rollback r)
      (hafter : t.requests r = some (.update command_id patch (.raised .database))) :
      PatchStep s t command_id patch state action

theorem patch_step (h : s.step action = some t) {command_id : CommandId}
    {patch : CommandStatusUpdate} {state : UpdateState}
    (hrequest : s.requests action.actor = some (.update command_id patch state)) :
    PatchStep s t command_id patch state action := by
  have hsame : ∀ {r request}, s.requests r = some request → action.actor = r →
      request = .update command_id patch state := by
    rintro r request hbefore rfl
    exact Option.some.inj (hbefore.symm.trans hrequest)
  cases system_step h with
  | start r now call hidle =>
      rw [show (Action.start r now call).actor = r from rfl, hidle] at hrequest
      cases hrequest
  | update r now choice command_id' patch' before state' db' out hbefore hstep =>
      cases hsame hbefore rfl
      exact .served r now choice state' db' out rfl rfl hstep (by simp)
  | create r now choice robot_id command before state' db' out hbefore hstep =>
      cases hsame hbefore rfl
  | claim r now choice robot_id before state' db' out hbefore hstep => cases hsame hbefore rfl
  | scan r now choice before state' db' out hbefore hstep => cases hsame hbefore rfl
  | fail r request hbefore hopen =>
      cases hsame hbefore rfl
      exact .failed r rfl hopen rfl (by simp [Request.abort])

-- A PATCH leaves the status, or puts the one it asks for.
theorem stored_patch (id : CommandId) (hinv : Inv s) {command_id : CommandId}
    {patch : CommandStatusUpdate} {state : UpdateState}
    (hrequest : s.requests action.actor = some (.update command_id patch state))
    (h : s.step action = some t) :
    stored t id = stored s id ∨ ∃ new : Status, stored t id = some new ∧ new.text = patch.status := by
  obtain ⟨hcons, hledger, _⟩ := hinv.active _ _ hrequest
  cases patch_step h hrequest with
  | served r now choice state' db' out haction hdb hstep hafter =>
      subst haction
      cases hstep with
      | commit new now' matched =>
          rw [stored, stored, hdb, committed_commit]
          cases matched with
          | false =>
              have hmine : s.db.mine r = [] := hledger.1
              exact .inl (by rw [visible_of_mine_nil hmine])
          | true =>
              obtain ⟨_, w, hmine, hstatus⟩ := hledger
              have hmine' : s.db.mine r = [w] := hmine
              rw [Store.visible, hmine', latest_concat]
              split
              · exact .inr ⟨new, by rw [Option.map_some, hstatus], hcons⟩
              · exact .inl rfl
      | matched current new now' row values hrow hcurrent hfree hvalues =>
          exact .inl (by rw [stored, stored, hdb]; rfl)
      | _ => exact .inl (by rw [stored, stored, hdb])
  | failed r haction hopen hdb hafter =>
      exact .inl (by rw [stored, stored, hdb, committed_rollback])

end Statuses

section Stages

variable {s t : System} {id : CommandId} {outcome : String} {ok : Bool} {r : RequestId}
  {patch : CommandStatusUpdate}

-- Where the PATCH with the outcome stands; `ok` tells whether none of its steps
-- so far turned it away.
def Stage (s : System) (id : CommandId) (outcome : String) (ok : Bool) (r : RequestId) :
    UpdateState → Prop
  | .select => Open s id ∧ ok = true
  | .stamp record => Open s id ∧ record.status ∉ TERMINAL_STATES ∧
      ok = (VALID_TRANSITIONS record.status).any fun next => decide (next.text = outcome)
  | .update _ new _ => Open s id ∧ new.text = outcome ∧ ok = true
  | .commit new _ matched => Open s id ∧ new.text = outcome ∧ ok = matched
  | .reread new _ matched => new.text = outcome ∧ ok = matched ∧
      if matched then Ended s id outcome else Open s id
  | .broadcast _ _ | .returned _ => Ended s id outcome ∧ ok = true
  | .raised (.http _ _) => Open s id ∧ ok = false
  | .raised .database =>
      if (s.db.done r).isEmpty then Open s id else Ended s id outcome ∧ ok = true

theorem Stage.mono {state : UpdateState} (hopen : Open s id → Open t id)
    (hended : Ended s id outcome → Ended t id outcome) (hdone : t.db.done r = s.db.done r)
    (h : Stage s id outcome ok r state) : Stage t id outcome ok r state := by
  cases state with
  | select => exact ⟨hopen h.1, h.2⟩
  | stamp record => exact ⟨hopen h.1, h.2⟩
  | update current new now => exact ⟨hopen h.1, h.2⟩
  | commit new now matched => exact ⟨hopen h.1, h.2⟩
  | reread new now matched =>
      obtain ⟨htext, hok, hstored⟩ := h
      refine ⟨htext, hok, ?_⟩
      cases matched with
      | true => exact hended hstored
      | false => exact hopen hstored
  | broadcast payload now => exact ⟨hended h.1, h.2⟩
  | returned payload => exact ⟨hended h.1, h.2⟩
  | raised error =>
      cases error with
      | http status_code detail => exact ⟨hopen h.1, h.2⟩
      | database =>
          cases hempty : (s.db.done r).isEmpty with
          | true =>
              simp only [Stage, hdone, hempty, if_true] at h ⊢
              exact hopen h
          | false =>
              simp only [Stage, hdone, hempty, Bool.false_eq_true, if_false] at h ⊢
              exact ⟨hended h.1, h.2⟩

theorem stage_check (houtcome : patch.status = "COMPLETED" ∨ patch.status = "FAILED")
    {record : RobotCommand} (now : Instant) (h : Stage s id patch.status ok r (.stamp record)) :
    Stage s id patch.status ok r (checkTransition record patch now) := by
  obtain ⟨hopen, hrecord, hok⟩ := h
  unfold checkTransition
  split_ifs with hsame
  · exact absurd (terminal_of_text houtcome hsame.symm) hrecord
  · cases hfind : (VALID_TRANSITIONS record.status).find? fun s => decide (s.text = patch.status) with
    | none =>
        refine ⟨hopen, hok.trans (List.any_eq_false.mpr fun next hnext => ?_)⟩
        simpa using List.find?_eq_none.mp hfind next hnext
    | some new =>
        have htext := List.find?_some hfind
        refine ⟨hopen, of_decide_eq_true htext, hok.trans (List.any_eq_true.mpr ⟨new, ?_, htext⟩)⟩
        exact List.mem_of_find?_eq_some hfind

-- One step of the PATCH with the outcome.
theorem stage_step (houtcome : patch.status = "COMPLETED" ∨ patch.status = "FAILED") (hinv : Inv s)
    {state state' : UpdateState} {db' : Table} {out : List Message}
    (hrequest : s.requests r = some (.update id patch state))
    (h : Stage s id patch.status ok r state)
    (hstep : UpdateStep id patch s.db r state db' state' out) (hdb : t.db = db') :
    Stage t id patch.status (ok && admitted s id patch.status state) r state' := by
  obtain ⟨hcons, hledger, hauth⟩ := hinv.active r _ hrequest
  have hsame : db' = s.db → stored t id = stored s id := fun heq => stored_of_db (hdb.trans heq)
  have hplain : admitted s id patch.status state = true →
      (ok && admitted s id patch.status state) = ok := fun htrue => by rw [htrue, Bool.and_true]
  cases hstep with
  | missing hnone =>
      obtain ⟨status, hstored, _⟩ := h.1
      rw [stored, hnone] at hstored
      cases hstored
  | select record hrow =>
      obtain ⟨hopen, rfl⟩ := h
      have hstored : stored s id = some record.status := by rw [stored, hrow]; rfl
      obtain ⟨status, hstatus, hrecord⟩ := hopen
      obtain rfl : record.status = status := Option.some.inj (hstored.symm.trans hstatus)
      refine ⟨⟨record.status, (hsame rfl).trans hstored, hrecord⟩, hrecord, ?_⟩
      rw [admitted, hstored, Option.any_some, Bool.true_and]
  | check record now =>
      rw [hplain rfl]
      refine Stage.mono (fun hopen => ?_) (fun hended => ?_) (by rw [hdb])
        (stage_check houtcome now h)
      · rwa [Open, hsame rfl]
      · rwa [Ended, hsame rfl]
  | matched current new now row values hrow hcurrent hfree hvalues =>
      obtain ⟨⟨status, hstored, hstatus⟩, htext, rfl⟩ := h
      rw [visible_of_mine_nil hledger.1] at hrow
      have hnow : stored s id = some current := by rw [stored, hrow, Option.map_some, hcurrent]
      refine ⟨⟨status, by rw [← hstored, stored, stored, hdb]; rfl, hstatus⟩, htext, ?_⟩
      rw [admitted, hnow, decide_eq_true rfl, Bool.true_and]
  | missed current new now hmiss =>
      obtain ⟨⟨status, hstored, hstatus⟩, htext, rfl⟩ := h
      refine ⟨⟨status, (hsame rfl).trans hstored, hstatus⟩, htext, ?_⟩
      rw [admitted, Bool.true_and, decide_eq_false_iff_not]
      intro hnow
      obtain ⟨row, hrow, hrowstatus⟩ := Option.map_eq_some_iff.mp hnow
      exact hmiss row (by rw [visible_of_mine_nil hledger.1, hrow]) hrowstatus
  | commit new now matched =>
      obtain ⟨⟨status, hstored, hstatus⟩, htext, rfl⟩ := h
      rw [hplain rfl]
      refine ⟨htext, rfl, ?_⟩
      cases ok with
      | false =>
          have hkept : stored t id = stored s id := by
            rw [stored, stored, hdb, committed_commit, visible_of_mine_nil hledger.1]
          exact ⟨status, hkept.trans hstored, hstatus⟩
      | true =>
          obtain ⟨_, w, hmine, hnew⟩ := hledger
          obtain ⟨hkey, _⟩ := hauth w (by simp [hmine])
          show Ended t id patch.status
          rw [Ended, stored, hdb, committed_commit, Store.visible, hmine, latest_concat, if_pos hkey,
            Option.map_some, Option.map_some, hnew, htext]
  | vanished new now matched hnone =>
      obtain ⟨_, _, hstored⟩ := h
      cases matched with
      | true => simp [Ended, stored, hnone] at hstored
      | false => simp [Open, stored, hnone] at hstored
  | reread new now matched current hrow =>
      obtain ⟨htext, rfl, hstored⟩ := h
      rw [hplain rfl]
      cases ok with
      | true =>
          refine ⟨?_, rfl⟩
          rw [Ended, hsame rfl]
          exact hstored
      | false =>
          obtain ⟨status, hstatus, hopen⟩ := hstored
          have hcurrent : current.status = status := by
            rw [stored, hrow] at hstatus
            exact Option.some.inj hstatus
          have hne : current.status ≠ new := by
            rintro rfl
            exact hopen (hcurrent ▸ terminal_of_text houtcome htext)
          simp only [afterReread, Bool.false_eq_true, if_false, if_neg hne]
          exact ⟨⟨status, (hsame rfl).trans hstatus, hopen⟩, rfl⟩
  | broadcast payload now delivered =>
      rw [hplain rfl]
      refine ⟨?_, h.2⟩
      rw [Ended, hsame rfl]
      exact h.1

-- When it fails it has done nothing, or all it was going to do.
theorem stage_fail (hinv : Inv s) {state : UpdateState}
    (hrequest : s.requests r = some (.update id patch state))
    (hopen : (Request.update id patch state).finished = false)
    (h : Stage s id patch.status ok r state) (hdb : t.db = s.db.rollback r) :
    Stage t id patch.status ok r (.raised .database) := by
  have hledger := (hinv.active r _ hrequest).ledger
  have hdone : t.db.done r = s.db.done r := by rw [hdb, done_rollback]
  have hstored : stored t id = stored s id := by rw [stored, stored, hdb, committed_rollback]
  have hkept : Open s id → Open t id := fun hopen => by rwa [Open, hstored]
  have hkept' : Ended s id patch.status → Ended t id patch.status := fun hended => by
    rwa [Ended, hstored]
  simp only [Stage, hdone]
  cases state with
  | select => simpa [hledger.2] using hkept h.1
  | stamp record => simpa [hledger.2] using hkept h.1
  | update current new now => simpa [hledger.2] using hkept h.1
  | commit new now matched =>
      have hnil : s.db.done r = [] := by cases matched <;> first | exact hledger.1 | exact hledger.2
      simpa [hnil] using hkept h.1
  | reread new now matched =>
      obtain ⟨_, rfl, hstatus⟩ := h
      cases ok with
      | true =>
          obtain ⟨_, w, hone, _⟩ := hledger
          simpa [hone] using hkept' hstatus
      | false => simpa [hledger.2] using hkept hstatus
  | broadcast payload now =>
      obtain ⟨_, w, hone⟩ := hledger
      simpa [hone] using ⟨hkept' h.1, h.2⟩
  | returned payload => cases hopen
  | raised error => cases hopen

end Stages

section Runs

-- A robot's PATCHes for one command: one of them has the outcome, none of the
-- others makes the command terminal.
structure Reporting (plan : List CommandStatusUpdate) (outcome : String) : Prop where
  final : outcome = "COMPLETED" ∨ outcome = "FAILED"
  one : plan.countP (fun patch => decide (patch.status = outcome)) ≤ 1
  others : ∀ patch ∈ plan, patch.status = outcome ∨ patch.status = "ACKNOWLEDGED" ∨
    patch.status = "EXECUTING"

-- What is known of a session while `ok` tells how the PATCH with the outcome fared.
structure Tracks (plan : List CommandStatusUpdate) (outcome : String) (ok : Bool) (u : Session) :
    Prop where
  inv : Inv u.system
  plan : (u.arrived.map Prod.snd ++ u.flying ++ u.waiting).Subperm plan
  served : ∀ p ∈ u.arrived, ∃ state, u.system.requests p.1 = some (.update u.command_id p.2 state)
  single : ∀ p ∈ u.arrived, ∀ q ∈ u.arrived, p.2.status = outcome → q.2.status = outcome → p.1 = q.1
  unheard : (∀ p ∈ u.arrived, p.2.status ≠ outcome) → Open u.system u.command_id ∧ ok = true
  stage : ∀ p ∈ u.arrived, p.2.status = outcome → ∀ state,
    u.system.requests p.1 = some (.update u.command_id p.2 state) →
      Stage u.system u.command_id outcome ok p.1 state

variable {plan : List CommandStatusUpdate} {outcome : String} {ok : Bool} {u v : Session}

theorem Tracks.mem_plan (h : Tracks plan outcome ok u) {p : RequestId × CommandStatusUpdate}
    (hp : p ∈ u.arrived) : p.2 ∈ plan :=
  List.Subperm.subset h.plan (List.mem_append_left _ (List.mem_append_left _ (List.mem_map_of_mem hp)))

-- An action of the backend.
theorem Tracks.act (hplan : Reporting plan outcome) (h : Tracks plan outcome ok u) {action : Action}
    {system : System} (hstep : u.system.step action = some system)
    (hquiet : quiet u (.act action) = true) :
    Tracks plan outcome (ok && admits outcome u (.act action)) { u with system := system } := by
  have heffect := (h.inv.acts hstep).effect
  have hother := (h.inv.acts hstep).others
  have hended : Ended u.system u.command_id outcome → Ended system u.command_id outcome :=
    Ended.step hplan.final h.inv hstep
  -- only the PATCH with the outcome and the calls of others can end the command
  have hopen : (∀ p ∈ u.arrived, p.1 = action.actor → p.2.status ≠ outcome) →
      Open u.system u.command_id → Open system u.command_id := by
    intro hunrelated hopen
    refine hopen.step h.inv hstep ?_
    by_cases hown : ∃ p ∈ u.arrived, p.1 = action.actor
    · obtain ⟨p, hp, hactor⟩ := hown
      obtain ⟨state, hrequest⟩ := h.served p hp
      rw [hactor] at hrequest
      rcases stored_patch u.command_id h.inv hrequest hstep with hsame | ⟨new, hnew, htext⟩
      · rw [terminal, hsame]
        exact (open_iff.mp hopen).2
      · rcases hplan.others p.2 (h.mem_plan hp) with houtcome | hstatus
        · exact absurd houtcome (hunrelated p hp hactor)
        · rw [terminal, hnew, Option.any_some, decide_eq_false_iff_not]
          rw [← htext] at hstatus
          revert hstatus
          cases new <;> decide
    · simp only [quiet, Bool.or_eq_true, List.any_eq_true, decide_eq_true_eq, hown, false_or,
        (open_iff.mp hopen).2, Bool.false_eq_true, hstep, Option.any_some, Bool.not_eq_true'] at hquiet
      exact hquiet
  have hadmits : (∀ p ∈ u.arrived, p.1 = action.actor → p.2.status ≠ outcome) →
      admits outcome u (.act action) = true := by
    intro hunrelated
    cases action with
    | advance r now choice =>
        have hnone : (u.arrived.any fun p => decide (p.1 = r ∧ p.2.status = outcome)) = false := by
          simp only [List.any_eq_false, decide_eq_true_eq]
          exact fun p hp hboth => hunrelated p hp hboth.1 hboth.2
        simp only [admits, hnone]
    | _ => rfl
  refine ⟨h.inv.step hstep, h.plan, fun p hp => ?_, h.single, fun hunheard => ?_, ?_⟩
  · obtain ⟨state, hrequest⟩ := h.served p hp
    by_cases hactor : p.1 = action.actor
    · rw [hactor] at hrequest ⊢
      cases patch_step hstep hrequest with
      | served r now choice state' db' out haction hdb hpatch hafter =>
          subst haction
          exact ⟨state', hafter⟩
      | failed r haction hopen hdb hafter =>
          subst haction
          exact ⟨_, hafter⟩
    · exact ⟨state, (hother p.1 hactor).trans hrequest⟩
  · obtain ⟨hstill, rfl⟩ := h.unheard hunheard
    have hunrelated : ∀ p ∈ u.arrived, p.1 = action.actor → p.2.status ≠ outcome :=
      fun p hp _ => hunheard p hp
    exact ⟨hopen hunrelated hstill, by rw [hadmits hunrelated]; rfl⟩
  · intro p hp houtcome state hafter
    obtain ⟨before, hrequest⟩ := h.served p hp
    have hstage := h.stage p hp houtcome before hrequest
    by_cases hactor : p.1 = action.actor
    · rw [hactor] at hrequest hafter hstage
      cases patch_step hstep hrequest with
      | served r now choice state' db' out haction hdb hpatch hafter' =>
          subst haction
          cases hafter'.symm.trans hafter
          have hmine : (u.arrived.any fun q => decide (q.1 = r ∧ q.2.status = outcome)) = true :=
            List.any_eq_true.mpr ⟨p, hp, decide_eq_true ⟨hactor, houtcome⟩⟩
          have hadmitted : admits outcome u (.act (.advance r now choice)) =
              admitted u.system u.command_id outcome before := by
            simp only [admits, hmine]
            rw [show u.system.requests r = _ from hrequest]
          subst houtcome
          rw [hadmitted, hactor]
          exact stage_step hplan.final h.inv hrequest hstage hpatch hdb
      | failed r haction hunfinished hdb hafter' =>
          subst haction
          cases hafter'.symm.trans hafter
          subst houtcome
          rw [show admits p.2.status u (.act (.fail r)) = true from rfl, Bool.and_true, hactor]
          exact stage_fail h.inv hrequest hunfinished hstage hdb
    · have hunrelated : ∀ q ∈ u.arrived, q.1 = action.actor → q.2.status ≠ outcome := by
        intro q hq hqactor hqoutcome
        exact hactor ((h.single p hp q hq houtcome hqoutcome).trans hqactor)
      rw [hadmits hunrelated, Bool.and_true]
      rw [hother p.1 hactor] at hafter
      cases hafter.symm.trans hrequest
      exact hstage.mono (hopen hunrelated) hended (heffect.done_of_ne hactor)

-- As long as a PATCH with the outcome is in the air, none has arrived.
theorem Tracks.unheard_of_flying (hplan : Reporting plan outcome) (h : Tracks plan outcome ok u)
    {patch : CommandStatusUpdate} (hflying : patch ∈ u.flying) (houtcome : patch.status = outcome) :
    ∀ p ∈ u.arrived, p.2.status ≠ outcome := by
  have hcount := (List.Subperm.countP_le (fun patch => decide (patch.status = outcome)) h.plan).trans
    hplan.one
  have hpos : 0 < u.flying.countP fun patch => decide (patch.status = outcome) :=
    List.countP_pos_iff.mpr ⟨patch, hflying, decide_eq_true houtcome⟩
  rw [List.countP_append, List.countP_append] at hcount
  have hzero : (u.arrived.map Prod.snd).countP (fun patch => decide (patch.status = outcome)) = 0 := by
    omega
  intro p hp
  simpa using List.countP_eq_zero.mp hzero p.2 (List.mem_map_of_mem hp)

-- A PATCH arrives: its call starts, and nothing else happens.
theorem Tracks.arrive (hplan : Reporting plan outcome) (h : Tracks plan outcome ok u) {i : Nat}
    {r : RequestId} {now : Instant} (hstep : u.step (.arrive i r now) = some v) :
    Tracks plan outcome ok v := by
  obtain ⟨patch, hpatch, hstep⟩ := Option.bind_eq_some_iff.mp hstep
  obtain ⟨system, hstart, rfl⟩ := Option.map_eq_some_iff.mp hstep
  obtain ⟨hlen, rfl⟩ := List.getElem?_eq_some_iff.mp hpatch
  have hmem : u.flying[i] ∈ u.flying := List.getElem_mem hlen
  have hinv := h.inv.step hstart
  have hperm : ((u.arrived ++ [(r, u.flying[i])]).map Prod.snd ++ u.flying.eraseIdx i ++
      u.waiting).Perm (u.arrived.map Prod.snd ++ u.flying ++ u.waiting) := by
    refine List.Perm.append_right _ ?_
    rw [List.map_append, List.append_assoc]
    exact (List.getElem_cons_eraseIdx_perm hlen).append_left _
  cases system_step hstart with
  | start _ _ _ hidle =>
      have hne : ∀ p ∈ u.arrived, p.1 ≠ r := by
        rintro p hp rfl
        obtain ⟨state, hrequest⟩ := h.served p hp
        rw [hidle] at hrequest
        cases hrequest
      have hunheard := fun p hp houtcome => h.unheard_of_flying hplan hmem houtcome p hp
      refine ⟨hinv, hperm.subperm.trans h.plan, ?_, ?_, fun hnone => ?_, ?_⟩
      · intro p hp
        rcases List.mem_append.mp hp with hp | hp
        · obtain ⟨state, hrequest⟩ := h.served p hp
          exact ⟨state, by simpa only [Function.update_of_ne (hne p hp)] using hrequest⟩
        · rw [List.mem_singleton.mp hp]
          exact ⟨.select, by simp [Call.begin]⟩
      · intro p hp q hq hpoutcome hqoutcome
        rcases List.mem_append.mp hp with hp | hp <;> rcases List.mem_append.mp hq with hq | hq
        · exact h.single p hp q hq hpoutcome hqoutcome
        · rw [List.mem_singleton.mp hq] at hqoutcome
          exact absurd hpoutcome (hunheard p hp hqoutcome)
        · rw [List.mem_singleton.mp hp] at hpoutcome
          exact absurd hqoutcome (hunheard q hq hpoutcome)
        · rw [List.mem_singleton.mp hp, List.mem_singleton.mp hq]
      · exact h.unheard fun p hp => hnone p (List.mem_append_left _ hp)
      · intro p hp houtcome state hafter
        rcases List.mem_append.mp hp with hp | hp
        · simp only [Function.update_of_ne (hne p hp)] at hafter
          exact h.stage p hp houtcome state hafter
        · rw [List.mem_singleton.mp hp] at houtcome hafter
          simp only [Function.update_self, Option.some.injEq, Call.begin] at hafter
          cases hafter
          exact h.unheard fun q hq => hunheard q hq houtcome

theorem Tracks.step (hplan : Reporting plan outcome) (h : Tracks plan outcome ok u) {label : Label}
    (hstep : u.step label = some v) (hquiet : quiet u label = true) :
    v.command_id = u.command_id ∧ Tracks plan outcome (ok && admits outcome u label) v := by
  cases label with
  | send =>
      simp only [Session.step] at hstep
      split at hstep
      · cases hstep
      · rename_i patch waiting hwaiting
        cases hstep
        rw [show admits outcome u .send = true from rfl, Bool.and_true]
        refine ⟨rfl, h.inv, ?_, h.served, h.single, h.unheard, h.stage⟩
        have hall := h.plan
        rw [hwaiting] at hall
        simpa using hall
  | lose i =>
      simp only [Session.step] at hstep
      split at hstep
      · cases hstep
        rw [show admits outcome u (.lose i) = true from rfl, Bool.and_true]
        refine ⟨rfl, h.inv, ?_, h.served, h.single, h.unheard, h.stage⟩
        exact (((List.eraseIdx_sublist u.flying i).append_left _).append_right _).subperm.trans h.plan
      · cases hstep
  | arrive i r now =>
      have htracks := h.arrive hplan hstep
      obtain ⟨patch, _, hstep⟩ := Option.bind_eq_some_iff.mp hstep
      obtain ⟨system, _, rfl⟩ := Option.map_eq_some_iff.mp hstep
      rw [show admits outcome u (.arrive i r now) = true from rfl, Bool.and_true]
      exact ⟨rfl, htracks⟩
  | act action =>
      obtain ⟨system, hact, rfl⟩ := Option.map_eq_some_iff.mp hstep
      exact ⟨rfl, h.act hplan hact hquiet⟩

theorem Tracks.run (hplan : Reporting plan outcome) {labels : List Label}
    (h : Tracks plan outcome ok u)
    (hquiet : Runs.Along Session.step (fun w label => quiet w label = true) u labels)
    (hrun : Runs.exec Session.step u labels = some v) :
    v.command_id = u.command_id ∧ ∃ ok', Tracks plan outcome ok' v ∧ (ok' = true ↔ ok = true ∧
      Runs.Along Session.step (fun w label => admits outcome w label = true) u labels) := by
  induction labels generalizing u ok with
  | nil =>
      cases hrun
      exact ⟨rfl, ok, h, by simp [Runs.Along]⟩
  | cons label labels ih =>
      obtain ⟨w, hstep, hrest⟩ := (Runs.exec_cons_iff _ _ _ _).mp hrun
      obtain ⟨hid, hnext⟩ := h.step hplan hstep hquiet.1
      obtain ⟨hid', ok', htracks, hok⟩ := ih hnext (hquiet.2 w hstep) hrest
      refine ⟨hid'.trans hid, ok', htracks, ?_⟩
      rw [hok, Bool.and_eq_true, and_assoc]
      simp [Runs.Along, hstep]

end Runs

section Loop

theorem status_to_patch_cases (cmd_action : String) :
    status_to_patch cmd_action = "COMPLETED" ∨ status_to_patch cmd_action = "FAILED" := by
  unfold status_to_patch
  split
  · exact Or.inl rfl
  · exact Or.inr rfl

theorem reports_of_mem {processed_command_ids : List CommandId} {data : List ClaimedCommand}
    {cmd_obj : ClaimedCommand} {plan : List CommandStatusUpdate}
    (h : (cmd_obj, plan) ∈ robot_loop processed_command_ids data) :
    cmd_obj ∈ data ∧ ∃ processed, plan = reports processed cmd_obj := by
  induction data generalizing processed_command_ids with
  | nil => cases h
  | cons cmd rest ih =>
      rcases List.mem_cons.mp h with heq | h
      · cases heq
        exact ⟨List.mem_cons_self, processed_command_ids, rfl⟩
      · exact (ih h).imp_left (List.mem_cons_of_mem _)

theorem reporting_reports {processed_command_ids : List CommandId} {cmd_obj : ClaimedCommand}
    {final : CommandStatusUpdate}
    (hfinal : (reports processed_command_ids cmd_obj).getLast? = some final) :
    Reporting (reports processed_command_ids cmd_obj) final.status := by
  unfold reports at hfinal ⊢
  split at hfinal
  · rename_i hprocessed
    rw [if_pos hprocessed]
    cases hfinal
    exact ⟨.inl rfl, by decide, by simp⟩
  · rename_i hnew
    rw [if_neg hnew]
    cases hfinal
    rcases status_to_patch_cases cmd_obj.command_type with houtcome | houtcome <;>
      exact ⟨by simp [report, houtcome], by simp [report, houtcome], by simp [report]⟩

end Loop

-- Where nothing but the robot ends a claimed command, the PATCH with its outcome
-- leaves that outcome, once it is served, exactly when its SELECT read a status
-- that the outcome may follow and its UPDATE still found that status.
theorem outcome_stored_iff {past : List Action} {s : System} (hs : Reaches System.init past s)
    {rc : RequestId} {robot_id : Int} {claimed : List ClaimedCommand}
    (hclaim : s.requests rc = some (.claim robot_id (.returned claimed)))
    {processed_command_ids : List CommandId} {cmd_obj : ClaimedCommand}
    {plan : List CommandStatusUpdate}
    (hplan : (cmd_obj, plan) ∈ robot_loop processed_command_ids claimed)
    (hopen : terminal s cmd_obj.id = false) {labels : List Label} {u : Session}
    (hquiet : Runs.Along Session.step (fun w label => quiet w label = true)
      (Session.start s cmd_obj.id plan) labels)
    (hrun : Runs.exec Session.step (Session.start s cmd_obj.id plan) labels = some u)
    {final : CommandStatusUpdate} (hfinal : plan.getLast? = some final) {r : RequestId}
    (hheard : (r, final.status) ∈ u.heard) (hdelivered : delivered u.system r = true) :
    (stored u.system cmd_obj.id).map Status.text = some final.status ↔
      Runs.Along Session.step (fun w label => admits final.status w label = true)
        (Session.start s cmd_obj.id plan) labels := by
  have hinv : Inv s := inv_init.run hs
  obtain ⟨hmem, processed, rfl⟩ := reports_of_mem hplan
  have hreporting := reporting_reports hfinal
  obtain ⟨row, hrow, _⟩ := (claim_exclusive hs hclaim).2 cmd_obj.id (List.mem_map_of_mem hmem) |>.1
  have hpresent : (stored s cmd_obj.id).isSome = true := by
    rw [stored, hrow]
    rfl
  have hstart : Tracks (reports processed cmd_obj) final.status true
      (Session.start s cmd_obj.id (reports processed cmd_obj)) :=
    ⟨hinv, List.Subperm.refl _, by simp [Session.start], by simp [Session.start],
      fun _ => ⟨open_iff.mpr ⟨hpresent, hopen⟩, rfl⟩, by simp [Session.start]⟩
  obtain ⟨hid, ok, htracks, hok⟩ := hstart.run hreporting hquiet hrun
  simp only [true_and] at hok
  rw [← hok, show cmd_obj.id = u.command_id from hid.symm]
  obtain ⟨⟨r, patch⟩, hserved, heq⟩ := List.mem_map.mp hheard
  obtain ⟨rfl, hstatus⟩ := Prod.mk.inj heq
  obtain ⟨state, hrequest⟩ := htracks.served _ hserved
  have hstage := htracks.stage _ hserved hstatus state hrequest
  simp only at hrequest hstage
  rw [delivered, hrequest] at hdelivered
  cases state with
  | returned payload => exact iff_of_true hstage.1 hstage.2
  | raised error =>
      cases error with
      | http status_code detail =>
          exact iff_of_false (not_ended_of_open hreporting.final hstage.1) (by simp [hstage.2])
      | database =>
          have hdone : (u.system.db.done r).isEmpty = false := by simpa using hdelivered
          simp only [Stage, hdone, Bool.false_eq_true, if_false] at hstage
          exact iff_of_true hstage.1 hstage.2
  | _ => cases hdelivered

-- The steps by which a PATCH that nothing interferes with is served.
def serving (r : RequestId) (now : Instant) : List Label :=
  List.replicate 5 (.act (.advance r now .quiet)) ++ [.act (.advance r now (.publish true))]

def turnedAway (r : RequestId) (now : Instant) : List Label :=
  List.replicate 2 (.act (.advance r now .quiet))

def claimedSeven : List Action :=
  createRun 0 10 7 1 ⟨"RESUME", none, none, none⟩ ++ claimRun 1 20 1 [7]

def claimedTypes : Option Request → Option (Int × List (CommandId × String))
  | some (.claim robot_id (.returned claimed)) =>
      some (robot_id, claimed.map fun c => (c.id, c.command_type))
  | _ => none

theorem eq_of_claimedTypes {request : Option Request} {robot_id : Int} {id : CommandId}
    {command_type : String} (h : claimedTypes request = some (robot_id, [(id, command_type)])) :
    ∃ cmd, request = some (.claim robot_id (.returned [cmd])) ∧ cmd.id = id ∧
      cmd.command_type = command_type := by
  unfold claimedTypes at h
  split at h
  · rename_i claimed
    simp only [Option.some.injEq, Prod.mk.injEq, List.map_eq_singleton_iff] at h
    obtain ⟨rfl, cmd, rfl, rfl, rfl⟩ := h
    exact ⟨cmd, rfl, rfl, rfl⟩
  · cases h

def resumePlan : List CommandStatusUpdate :=
  [report "ACKNOWLEDGED", report "EXECUTING", report "COMPLETED"]

theorem resumePlan_eq {cmd : ClaimedCommand} (htype : cmd.command_type = "RESUME") :
    (cmd, resumePlan) ∈ robot_loop [] [cmd] := by
  simp [robot_loop, reports, status_to_patch, htype, resumePlan]

-- The robot's first PATCH is lost: the backend refuses the other two and keeps
-- the command DISPATCHED.
def acknowledgedLost : List Label :=
  [.send, .lose 0, .send, .arrive 0 2 30] ++ turnedAway 2 30 ++
    [.send, .arrive 0 3 40] ++ turnedAway 3 40

theorem outcome_refused : ¬ ∀ (past : List Action) (s : System) (rc : RequestId) (robot_id : Int)
    (claimed : List ClaimedCommand) (processed_command_ids : List CommandId)
    (cmd_obj : ClaimedCommand) (plan : List CommandStatusUpdate) (labels : List Label) (u : Session)
    (final : CommandStatusUpdate) (r : RequestId), Reaches System.init past s →
    s.requests rc = some (.claim robot_id (.returned claimed)) →
    (cmd_obj, plan) ∈ robot_loop processed_command_ids claimed → terminal s cmd_obj.id = false →
    Runs.Along Session.step (fun w label => quiet w label = true)
      (Session.start s cmd_obj.id plan) labels →
    Runs.exec Session.step (Session.start s cmd_obj.id plan) labels = some u →
    plan.getLast? = some final → (r, final.status) ∈ u.heard → delivered u.system r = true →
    (stored u.system cmd_obj.id).map Status.text = some final.status := by
  intro hclaimed
  have hrun : ((Runs.exec System.step System.init claimedSeven).any fun s =>
      claimedTypes (s.requests 1) = some (1, [(7, "RESUME")]) ∧ terminal s 7 = false ∧
      Runs.Along Session.step (fun w label => quiet w label = true) (Session.start s 7 resumePlan)
        acknowledgedLost ∧
      (Runs.exec Session.step (Session.start s 7 resumePlan) acknowledgedLost).any (fun u =>
        (3, "COMPLETED") ∈ u.heard ∧ delivered u.system 3 = true ∧
          stored u.system 7 = some .DISPATCHED) = true) = true := by
    decide +kernel
  simp only [Option.any_eq_true, decide_eq_true_eq] at hrun
  obtain ⟨s, hs, htypes, hopen, hquiet, u, hrun, hheard, hdelivered, hdispatched⟩ := hrun
  obtain ⟨cmd, hclaim, hid, htype⟩ := eq_of_claimedTypes htypes
  rw [← hid] at hopen hquiet hrun hdispatched
  have hcompleted := hclaimed claimedSeven s 1 1 [cmd] [] cmd resumePlan _ u (report "COMPLETED") 3 hs
    hclaim (resumePlan_eq htype) hopen hquiet hrun rfl hheard hdelivered
  rw [hdispatched] at hcompleted
  revert hcompleted
  decide

-- The client gives the first PATCH up while it is served: the others are refused
-- before its UPDATE, and the command stays ACKNOWLEDGED.
def acknowledgedLate : List Label :=
  [.send, .arrive 0 2 30, .act (.advance 2 30 .quiet), .send, .arrive 0 3 40] ++ turnedAway 3 40 ++
    [.send, .arrive 0 4 50] ++ turnedAway 4 50 ++ (serving 2 60).drop 1

example : ((Runs.exec System.step System.init claimedSeven).any fun s =>
    (Runs.exec Session.step (Session.start s 7 resumePlan) acknowledgedLate).any fun u =>
      delivered u.system 4 && decide (stored u.system 7 = some .ACKNOWLEDGED)) = true := by
  decide +kernel

-- With EXECUTING lost instead, the COMPLETED is stored.
def executingLost : List Label :=
  [.send, .arrive 0 2 30] ++ serving 2 30 ++ [.send, .lose 0, .send, .arrive 0 3 40] ++ serving 3 40

theorem outcome_stored_acknowledged : ∃ (s : System) (u : Session) (cmd : ClaimedCommand),
    Reaches System.init claimedSeven s ∧ s.requests 1 = some (.claim 1 (.returned [cmd])) ∧
    Runs.exec Session.step (Session.start s cmd.id resumePlan) executingLost = some u ∧
    (stored u.system cmd.id).map Status.text = some "COMPLETED" := by
  have hrun : ((Runs.exec System.step System.init claimedSeven).any fun s =>
      claimedTypes (s.requests 1) = some (1, [(7, "RESUME")]) ∧ terminal s 7 = false ∧
      Runs.Along Session.step (fun w label => quiet w label = true) (Session.start s 7 resumePlan)
        executingLost ∧
      Runs.Along Session.step (fun w label => admits "COMPLETED" w label = true)
        (Session.start s 7 resumePlan) executingLost ∧
      (Runs.exec Session.step (Session.start s 7 resumePlan) executingLost).any (fun u =>
        (3, "COMPLETED") ∈ u.heard ∧ delivered u.system 3 = true) = true) = true := by
    decide +kernel
  simp only [Option.any_eq_true, decide_eq_true_eq] at hrun
  obtain ⟨s, hs, htypes, hopen, hquiet, hadmits, u, hrun, hheard, hdelivered⟩ := hrun
  obtain ⟨cmd, hclaim, hid, htype⟩ := eq_of_claimedTypes htypes
  rw [← hid] at hopen hquiet hadmits hrun
  have hiff := outcome_stored_iff hs hclaim (resumePlan_eq htype) hopen hquiet hrun
    (rfl : resumePlan.getLast? = some (report "COMPLETED")) hheard hdelivered
  exact ⟨s, u, cmd, hs, hclaim, hrun, hiff.mpr hadmits⟩

end FleetOps.Robot
