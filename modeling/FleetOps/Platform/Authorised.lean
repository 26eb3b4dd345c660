import FleetOps.Auth.Vouched
import FleetOps.Command.Creation

namespace FleetOps.Platform

open Command (ClaimState ClaimedCommand RobotCommand SameCommand Seen)
open Runs

-- A request of POST /commands/{robot_id}, with what `create_command` draws if it comes to that.
structure Order where
  robot_id : Int
  command : Command.CommandCreate
  x_api_key : Option (List Char)
  x_console_ticket : Option (List Char)
  authorization : Option (List Char)
  request : Command.RequestId
  cmd_id : Command.CommandId
  created : Instant

def Order.access (o : Order) : Auth.Request :=
  .command o.robot_id o.x_api_key o.x_console_ticket o.authorization

def Order.action (o : Order) : Command.Action :=
  .start o.request o.created (.create_command o.cmd_id o.robot_id o.command)

-- The accounts with their sign-ins and tickets, and the commands of the robots.
structure Control where
  console : Auth.Console
  commands : Command.System

def Control.start (now : ℚ) (users : List Auth.User) : Control := ⟨.start now users, .init⟩

inductive ControlEvent where
  -- what else the console is asked, and the clock
  | access (request : Auth.Request)
  | send_command (order : Order)
  -- the calls under way, and the endpoints of the robots and the scanner
  | command (action : Command.Action)

def ControlEvent.access? : ControlEvent → Option Auth.Request
  | .access request => some request
  | .send_command order => some order.access
  | .command _ => none

-- What only `send_command` does.
def orders : Auth.Request → Bool
  | .command _ _ _ _ => true
  | _ => false

def creates : Command.Action → Bool
  | .start _ _ (.create_command _ _ _) => true
  | _ => false

section Model

variable (d : Auth.Deployment)

-- `create_command` is called after the dependencies of `send_command`, and nowhere else.
def control (s : Control) : ControlEvent → Option Control
  | .access request =>
      if orders request then none else (d.step s.console request).map fun console => { s with console }
  | .send_command o =>
      (d.step s.console o.access).bind fun console =>
        match d.send_command o.x_api_key o.x_console_ticket o.authorization s.console.now with
        | .ok _ => (s.commands.step o.action).map fun commands => ⟨console, commands⟩
        | .error _ => some { s with console }
  | .command action =>
      if creates action then none else (s.commands.step action).map fun commands => { s with commands }

def Unforged (s : Control) (e : ControlEvent) : Prop :=
  ∀ request, e.access? = some request → d.Unforged s.console request

-- The command of this row was ordered in the run: by someone signed in, with a role that may, and
-- let in by the key or a ticket that was good.
def Authorised (start : Control) (es : List ControlEvent) (row : RobotCommand) : Prop :=
  ∃ before o after u principal, es = before ++ .send_command o :: after ∧
    exec (control d) start before = some u ∧ o.robot_id = row.robot_id.val ∧
    (∃ created new, Command.inserted (Command.new_cmd row.id o.robot_id o.command created) = some new ∧
      SameCommand new row) ∧
    (∃ i ∈ u.console.signed, i.Traced d start.console (before.filterMap ControlEvent.access?) ∧
      i.Sound d ∧ i.Vouches u.console.now principal) ∧
    Auth.role_satisfies principal.role Auth.OPERATOR = true ∧
    u.console.Admitted d u.console.now o.x_api_key

end Model

section Steps

variable {d : Auth.Deployment} {s t : Control} {e : ControlEvent} {es : List ControlEvent}

-- An event reaches the console, the commands, or with an order that is let through both.
inductive ControlStep (d : Auth.Deployment) (s t : Control) : ControlEvent → Prop where
  | access (e : ControlEvent) (request : Auth.Request) (haccess : e.access? = some request)
      (hconsole : d.step s.console request = some t.console) (hcommands : t.commands = s.commands) :
      ControlStep d s t e
  | order (o : Order) (principal : Auth.Principal)
      (hconsole : d.step s.console o.access = some t.console)
      (hsent : d.send_command o.x_api_key o.x_console_ticket o.authorization s.console.now =
        .ok principal)
      (hcommands : s.commands.step o.action = some t.commands) : ControlStep d s t (.send_command o)
  | command (action : Command.Action)
      (hother : ∀ r now cmd_id robot_id command,
        action ≠ .start r now (.create_command cmd_id robot_id command))
      (hconsole : t.console = s.console) (hcommands : s.commands.step action = some t.commands) :
      ControlStep d s t (.command action)

theorem control_step (h : control d s e = some t) : ControlStep d s t e := by
  cases e with
  | access request =>
      simp only [control] at h
      split at h
      · cases h
      · obtain ⟨console, hconsole, rfl⟩ := Option.map_eq_some_iff.mp h
        exact .access _ request rfl hconsole rfl
  | send_command o =>
      obtain ⟨console, hconsole, hrest⟩ := Option.bind_eq_some_iff.mp h
      split at hrest
      · rename_i principal hsent
        obtain ⟨commands, hcommands, rfl⟩ := Option.map_eq_some_iff.mp hrest
        exact .order o principal hconsole hsent hcommands
      · cases hrest
        exact .access _ o.access rfl hconsole rfl
  | command action =>
      simp only [control] at h
      split at h
      · cases h
      · rename_i hcreates
        obtain ⟨commands, hcommands, rfl⟩ := Option.map_eq_some_iff.mp h
        refine .command action (fun r now cmd_id robot_id command heq => ?_) rfl hcommands
        rw [heq] at hcreates
        exact hcreates rfl

-- What the console is asked in a run is a run of its own.
theorem exec_console (hrun : exec (control d) s es = some t) :
    exec d.step s.console (es.filterMap ControlEvent.access?) = some t.console := by
  induction es generalizing s with
  | nil =>
      cases hrun
      rfl
  | cons e es ih =>
      obtain ⟨u, hu, hrest⟩ := (exec_cons_iff s t e es).mp hrun
      have hlater := ih hrest
      cases control_step hu with
      | access e request haccess hconsole hcommands =>
          rw [List.filterMap_cons, haccess]
          exact (exec_cons_iff _ _ _ _).mpr ⟨_, hconsole, hlater⟩
      | order o principal hconsole hsent hcommands =>
          exact (exec_cons_iff _ _ _ _).mpr ⟨_, hconsole, hlater⟩
      | command action hother hconsole hcommands =>
          rw [hconsole] at hlater
          exact hlater

theorem unforged_console (hunforged : Along (control d) (Unforged d) s es)
    (hrun : exec (control d) s es = some t) :
    Along d.step d.Unforged s.console (es.filterMap ControlEvent.access?) := by
  induction es generalizing s with
  | nil => trivial
  | cons e es ih =>
      obtain ⟨u, hu, hrest⟩ := (exec_cons_iff s t e es).mp hrun
      have hlater := ih (hunforged.2 u hu) hrest
      cases control_step hu with
      | access e request haccess hconsole hcommands =>
          rw [List.filterMap_cons, haccess]
          exact along_cons hconsole (hunforged.1 request haccess) hlater
      | order o principal hconsole hsent hcommands =>
          exact along_cons hconsole (hunforged.1 o.access rfl) hlater
      | command action hother hconsole hcommands =>
          rw [hconsole] at hlater
          exact hlater

-- The commands take their own steps.
theorem commands_step (h : control d s e = some t) :
    t.commands = s.commands ∨ ∃ action, s.commands.step action = some t.commands := by
  cases control_step h with
  | access e request haccess hconsole hcommands => exact .inl hcommands
  | order o principal hconsole hsent hcommands => exact .inr ⟨_, hcommands⟩
  | command action hother hconsole hcommands => exact .inr ⟨_, hcommands⟩

-- In a run of the whole, a create was started by an order that was let through.
theorem ordered (hrun : exec (control d) s es = some t) {r : Command.RequestId} {robot_id : Int}
    {command : Command.CommandCreate}
    (hcreate : ∃ state, t.commands.requests r = some (.create robot_id command state)) :
    (∃ state, s.commands.requests r = some (.create robot_id command state)) ∨
      ∃ before e after u, es = before ++ e :: after ∧ exec (control d) s before = some u ∧
        ∃ o principal, e = .send_command o ∧ o.robot_id = robot_id ∧ o.command = command ∧
          d.send_command o.x_api_key o.x_console_ticket o.authorization u.console.now = .ok principal := by
  refine exec_origin (P := fun s => ∃ state, s.commands.requests r = some (.create robot_id command state))
    (fun s e t hstep hafter => ?_) hrun hcreate
  cases control_step hstep with
  | access e request haccess hconsole hcommands =>
      rw [hcommands] at hafter
      exact .inl hafter
  | order o principal hconsole hsent hcommands =>
      obtain ⟨state, hafter⟩ := hafter
      rcases Command.create_origin hcommands hafter with hold | ⟨now, cmd_id, haction⟩
      · exact .inl hold
      · cases haction
        exact .inr ⟨o, principal, rfl, rfl, rfl, hsent⟩
  | command action hother hconsole hcommands =>
      obtain ⟨state, hafter⟩ := hafter
      rcases Command.create_origin hcommands hafter with hold | ⟨now, cmd_id, rfl⟩
      · exact .inl hold
      · exact absurd rfl (hother r now cmd_id robot_id command)

end Steps

section Claims

-- What a claim has for its response so far.
def held : ClaimState → List ClaimedCommand
  | .select claimed | .stamp claimed _ | .update claimed _ _ | .commit claimed _ _ | .rollback claimed
  | .broadcast claimed _ _ | .returned claimed => claimed
  | .raised _ => []

-- A claim gives commands of its own robot as they stand in the table.
def Faithful (s : Command.System) : Prop :=
  ∀ r robot_id state, s.requests r = some (.claim robot_id state) → ∀ c ∈ held state,
    ∃ record, Command.claimedCommand record = c ∧ record.robot_id.val = robot_id ∧ Seen s.db record

theorem faithful_init : Faithful .init := fun _ _ _ h => by cases h

theorem Faithful.step {s t : Command.System} {action : Command.Action} (hinv : Command.Inv s)
    (hfaithful : Faithful s) (h : s.step action = some t) : Faithful t := by
  have hacts := hinv.acts h
  have hkept : ∀ {r robot_id state}, s.requests r = some (.claim robot_id state) → ∀ c ∈ held state,
      ∃ record, Command.claimedCommand record = c ∧ record.robot_id.val = robot_id ∧ Seen t.db record := by
    intro r robot_id state hrequest c hc
    obtain ⟨record, hrecord, hrobot, hseen⟩ := hfaithful r robot_id state hrequest c hc
    exact ⟨record, hrecord, hrobot, hseen.effect hinv.sound hacts.effect⟩
  intro r robot_id state hrequest
  by_cases hr : r = action.actor
  · subst hr
    cases Command.system_step h with
    | start r now call hidle =>
        simp only [Command.Action.actor, Function.update_self, Option.some.injEq] at hrequest
        cases call <;> cases hrequest
        exact fun c hc => absurd hc List.not_mem_nil
    | claim r now choice robot_id' before after db' out hbefore hstep =>
        simp only [Command.Action.actor, Function.update_self, Option.some.injEq] at hrequest
        cases hrequest
        have hold := hkept hbefore
        cases hstep with
        | commit claimed record now =>
            intro c hc
            rcases List.mem_append.mp hc with hc | hc
            · exact hold c hc
            · rw [List.mem_singleton.mp hc]
              obtain ⟨hrobot, hseen⟩ := (hinv.active r _ hbefore).consistent
              exact ⟨record, rfl, hrobot, hseen.effect hinv.sound hacts.effect⟩
        | _ => exact hold
    | create r now choice robot_id' command before after db' out hbefore hstep =>
        simp [Command.Action.actor] at hrequest
    | update r now choice command_id update_data before after db' out hbefore hstep =>
        simp [Command.Action.actor] at hrequest
    | scan r now choice before after db' out hbefore hstep =>
        simp [Command.Action.actor] at hrequest
    | fail r request hbefore hopen =>
        simp only [Command.Action.actor, Function.update_self, Option.some.injEq] at hrequest
        cases request <;> cases hrequest
        exact fun c hc => absurd hc List.not_mem_nil
  · rw [hacts.others r hr] at hrequest
    exact hkept hrequest

end Claims

section Results

variable {d : Auth.Deployment} {t : Control} {es : List ControlEvent} {now : ℚ} {users : List Auth.User}

theorem commands_of_run (hrun : exec (control d) (.start now users) es = some t) :
    Command.Inv t.commands ∧ Faithful t.commands := by
  refine exec_invariant (I := fun s : Control => Command.Inv s.commands ∧ Faithful s.commands)
    ?_ ⟨Command.inv_init, faithful_init⟩ hrun
  rintro s e u ⟨hinv, hfaithful⟩ hstep
  rcases commands_step hstep with hsame | ⟨action, haction⟩
  · rw [hsame]
    exact ⟨hinv, hfaithful⟩
  · exact ⟨hinv.step haction, hfaithful.step hinv haction⟩

theorem row_authorised (hideal : d.jwt.Ideal) (hsign : ∀ payload, Auth.Hex (d.sign payload))
    (hmode : d.settings.auth_required = true) (hnow : 0 ≤ now)
    (hunforged : Along (control d) (Unforged d) (.start now users) es)
    (hrun : exec (control d) (.start now users) es = some t) {id : Command.CommandId}
    {row : RobotCommand} (hrow : t.commands.db.committed id = some row) :
    Authorised d (.start now users) es row := by
  obtain ⟨hinv, -⟩ := commands_of_run hrun
  obtain ⟨w, hw, rfl, -, hsame, command, state, hcreate, -⟩ := Command.inserted_by hinv hrow
  -- the row is what its create made of the order
  have hdone : w ∈ t.commands.db.done w.writer := RowStore.mem_done.mpr ⟨hw, rfl⟩
  obtain ⟨-, created, hafter⟩ :=
    (hinv.active w.writer _ hcreate).authored w (List.mem_append_right _ hdone)
  have hid := Command.committed_id hinv.sound hrow
  rcases ordered hrun ⟨state, hcreate⟩ with ⟨state', hnone⟩ | ⟨before, e, after, u, rfl, hbefore, o,
    principal, rfl, hrobot, rfl, hsent⟩
  · cases hnone
  · have hconsole := (Auth.sound_start hnow users).run hideal hsign hmode
      (unforged_console hunforged.left hbefore) (exec_console hbefore)
    have hunforged' := (hunforged.right hbefore).1 o.access rfl
    obtain ⟨haccess, hprincipal, hrole⟩ := Auth.send_command_eq_ok hsent
    obtain ⟨i, hi, -, hvouches⟩ := Auth.vouched_of_principal hideal hmode hconsole hunforged' hprincipal
    have htraced := (Auth.signed_traced (exec_console hbefore) hi).resolve_left List.not_mem_nil
    refine ⟨before, o, after, u, principal, rfl, hbefore, hrobot, ⟨created, w.after, ?_, hsame⟩,
      ⟨i, hi, htraced, (hconsole.signed i hi).1, hvouches⟩, hrole,
      Auth.admitted_now hsign hconsole hunforged' haccess⟩
    rw [hrobot, hid, hafter]

-- A claim's response gives what stands in the table.
theorem claimed_row (hrun : exec (control d) (.start now users) es = some t) {r : Command.RequestId}
    {robot_id : Int} {claimed : List ClaimedCommand}
    (hclaim : t.commands.requests r = some (.claim robot_id (.returned claimed))) :
    ∀ c ∈ claimed, ∃ row, t.commands.db.committed c.id = some row ∧ row.robot_id.val = robot_id ∧
      row.command_type.val = c.command_type ∧ row.payload = c.payload := by
  intro c hc
  obtain ⟨record, rfl, hrobot, row, hrow, hsame⟩ := (commands_of_run hrun).2 r robot_id _ hclaim c hc
  exact ⟨row, hrow, by rw [← hsame.2.1, hrobot], congrArg Subtype.val hsame.2.2.1.symm,
    hsame.2.2.2.1.symm⟩

-- Where a command of the table comes from, and whatever a robot was given is one of them.
theorem commands_authorised (hideal : d.jwt.Ideal) (hsign : ∀ payload, Auth.Hex (d.sign payload))
    (hmode : d.settings.auth_required = true) (hnow : 0 ≤ now)
    (hunforged : Along (control d) (Unforged d) (.start now users) es)
    (hrun : exec (control d) (.start now users) es = some t) :
    (∀ id row, t.commands.db.committed id = some row → Authorised d (.start now users) es row) ∧
    ∀ r robot_id claimed, t.commands.requests r = some (.claim robot_id (.returned claimed)) →
      ∀ c ∈ claimed, ∃ row, t.commands.db.committed c.id = some row ∧ row.robot_id.val = robot_id ∧
        row.command_type.val = c.command_type ∧ row.payload = c.payload ∧
        Authorised d (.start now users) es row := by
  have hrows : ∀ id row, t.commands.db.committed id = some row →
      Authorised d (.start now users) es row := fun _ _ hrow =>
    row_authorised hideal hsign hmode hnow hunforged hrun hrow
  refine ⟨hrows, fun r robot_id claimed hclaim c hc => ?_⟩
  obtain ⟨row, hrow, hrobot, htype, hpayload⟩ := claimed_row hrun hclaim c hc
  exact ⟨row, hrow, hrobot, htype, hpayload, hrows _ row hrow⟩

end Results

-- The calls under way and the robots' endpoints leave the console as it is.
theorem exec_commands {d : Auth.Deployment} {console : Auth.Console} {s t : Command.System}
    {actions : List Command.Action} (hother : ∀ action ∈ actions, creates action = false)
    (hrun : exec Command.System.step s actions = some t) :
    exec (control d) ⟨console, s⟩ (actions.map .command) = some ⟨console, t⟩ := by
  induction actions generalizing s with
  | nil =>
      cases hrun
      rfl
  | cons action actions ih =>
      obtain ⟨u, hu, hrest⟩ := (exec_cons_iff _ _ _ _).mp hrun
      have hlater := ih (fun a ha => hother a (List.mem_cons_of_mem _ ha)) hrest
      have hcreates : ¬creates action = true := by simp [hother action List.mem_cons_self]
      exact (exec_cons_iff _ _ _ _).mpr ⟨⟨console, u⟩, by simp [control, hcreates, hu], hlater⟩

theorem unforged_commands {d : Auth.Deployment} {s : Control} {actions : List Command.Action} :
    Along (control d) (Unforged d) s (actions.map .command) := by
  induction actions generalizing s with
  | nil => trivial
  | cons action actions ih => exact ⟨fun request h => (by cases h), fun t _ => ih⟩

-- An order that is let through.
theorem control_order {d : Auth.Deployment} {s : Control} {o : Order} {principal : Auth.Principal}
    {commands : Command.System}
    (hsent : d.send_command o.x_api_key o.x_console_ticket o.authorization s.console.now = .ok principal)
    (hcommands : s.commands.step o.action = some commands) :
    control d s (.send_command o) = some ⟨{ s.console with
      dispatched := s.console.dispatched ++ [⟨s.console.now, principal, o.robot_id, o.x_api_key,
        o.x_console_ticket, o.authorization⟩] }, commands⟩ := by
  have hconsole : d.step s.console o.access = _ := Auth.step_command hsent
  simp only [control, hconsole, hsent, hcommands, Option.bind_some, Option.map_some]

section Example

open Auth (plainDeployment)

-- The account signs in; a minute later it has a robot resume, which then fetches the command.
def firstOrder : Order where
  robot_id := 7
  command := ⟨"RESUME", none, none, some "k"⟩
  x_api_key := some "0123456789abcdef".toList
  x_console_ticket := none
  authorization := some Auth.firstHeader
  request := 0
  cmd_id := 3
  created := 1060

def firstCalls : List Command.Action :=
  [.advance 0 1060 .quiet, .advance 0 1060 .quiet, .advance 0 1060 (.publish true)] ++
    Command.claimRun 1 1061 7 [3]

def firstEvents : List ControlEvent :=
  .access (.login Auth.shortRequest false) :: .access (.tick 60) :: .send_command firstOrder ::
    firstCalls.map .command

def signedConsole : Auth.Console := { Auth.firstStart with signed := [Auth.firstSignIn] }

def waitedConsole : Auth.Console := { signedConsole with now := 1060 }

def orderedConsole : Auth.Console := { waitedConsole with
  dispatched := waitedConsole.dispatched ++ [⟨1060, ⟨"a", Auth.OPERATOR, true⟩, firstOrder.robot_id,
    firstOrder.x_api_key, firstOrder.x_console_ticket, firstOrder.authorization⟩] }

def orderedCommands : Command.System :=
  { Command.System.init with
    requests := Function.update (fun _ => none) 0
      (some (Command.Call.begin 1060 (.create_command 3 7 firstOrder.command))) }

theorem firstCalls_run : ∃ t, exec Command.System.step orderedCommands firstCalls = some t ∧
    t.requests 1 = some (.claim 7 (.returned [⟨3, "RESUME", none⟩])) := ⟨_, rfl, rfl⟩

theorem login_control : control plainDeployment (.start 1000 [Auth.operatorUser])
    (.access (.login Auth.shortRequest false)) = some ⟨signedConsole, .init⟩ := by
  have hlogin : plainDeployment.step (Auth.Console.start 1000 [Auth.operatorUser])
      (.login Auth.shortRequest false) = _ := Auth.login_step
  simp only [control, Control.start, orders, Bool.false_eq_true, if_false, hlogin]
  rfl

theorem tick_control : control plainDeployment ⟨signedConsole, .init⟩ (.access (.tick 60)) =
    some ⟨waitedConsole, .init⟩ := by
  have hnow : signedConsole.now + 60 = 1060 := by
    norm_num [signedConsole, Auth.firstStart, Auth.Console.start]
  have htick : plainDeployment.step signedConsole (.tick 60) = _ := Auth.step_tick (by norm_num)
  rw [hnow] at htick
  simp only [control, orders, Bool.false_eq_true, if_false, htick]
  rfl

theorem first_sent : plainDeployment.send_command firstOrder.x_api_key firstOrder.x_console_ticket
    firstOrder.authorization 1060 = .ok ⟨"a", Auth.OPERATOR, true⟩ := Auth.first_command

theorem first_created : Command.System.init.step firstOrder.action = some orderedCommands := rfl

theorem order_control : control plainDeployment ⟨waitedConsole, .init⟩ (.send_command firstOrder) =
    some ⟨orderedConsole, orderedCommands⟩ :=
  control_order (s := ⟨waitedConsole, .init⟩) first_sent first_created

theorem first_order_unforged : Unforged plainDeployment ⟨waitedConsole, .init⟩
    (.send_command firstOrder) := by
  intro request h
  cases h
  constructor
  · intro token claims hbearer _
    have hfirst := Auth.first_sound.bearer Auth.plainJwt_ideal
    exact ⟨Auth.firstSignIn, List.mem_singleton_self _, Option.some.inj (hfirst.symm.trans hbearer)⟩
  · intro payload hpayload
    cases hpayload

theorem firstEvents_run {t : Command.System}
    (hcalls : exec Command.System.step orderedCommands firstCalls = some t) :
    exec (control plainDeployment) (.start 1000 [Auth.operatorUser]) firstEvents =
      some ⟨orderedConsole, t⟩ := by
  have hrest : exec (control plainDeployment) ⟨orderedConsole, orderedCommands⟩
      (firstCalls.map .command) = some ⟨orderedConsole, t⟩ := exec_commands (by decide) hcalls
  exact (exec_cons_iff _ _ _ _).mpr ⟨_, login_control, (exec_cons_iff _ _ _ _).mpr ⟨_, tick_control,
    (exec_cons_iff _ _ _ _).mpr ⟨_, order_control, hrest⟩⟩⟩

theorem firstEvents_unforged : Along (control plainDeployment) (Unforged plainDeployment)
    (.start 1000 [Auth.operatorUser]) firstEvents := by
  have hnone : ∀ s request, request.authorization = none → request.console_ticket = none →
      Unforged plainDeployment s (.access request) := by
    intro s request hauthorization hticket r h
    cases h
    exact Auth.unforged_of_none hauthorization hticket
  exact along_cons login_control (hnone _ _ rfl rfl) (along_cons tick_control (hnone _ _ rfl rfl)
    (along_cons order_control first_order_unforged unforged_commands))

theorem commands_authorised_first : ∃ t,
    exec (control plainDeployment) (.start 1000 [Auth.operatorUser]) firstEvents = some t ∧
    t.commands.requests 1 = some (.claim 7 (.returned [⟨3, "RESUME", none⟩])) ∧
    ∃ row, t.commands.db.committed 3 = some row ∧ row.robot_id.val = 7 ∧ row.command_type.val = "RESUME" ∧
      Authorised plainDeployment (.start 1000 [Auth.operatorUser]) firstEvents row := by
  obtain ⟨t, hcalls, hclaim⟩ := firstCalls_run
  have hrun := firstEvents_run hcalls
  obtain ⟨-, hclaimed⟩ := commands_authorised Auth.plainJwt_ideal Auth.plain_hex (by decide) (by norm_num)
    firstEvents_unforged hrun
  obtain ⟨row, hrow, hrobot, htype, -, hauthorised⟩ := hclaimed 1 7 _ hclaim _ (List.mem_singleton_self _)
  exact ⟨_, hrun, hclaim, row, hrow, hrobot, htype, hauthorised⟩

end Example

end FleetOps.Platform
