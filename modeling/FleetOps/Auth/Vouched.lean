import FleetOps.Auth.Console

namespace FleetOps.Auth

open Runs

variable {d : Deployment}

-- What a request does to the console, if it is not refused.
inductive Effect (d : Deployment) (s : Console) : Request → Console → Prop where
  | tick {seconds : ℚ} (hpos : 0 ≤ seconds) : Effect d s (.tick seconds) { s with now := s.now + seconds }
  | edit (users : List User) : Effect d s (.edit users) { s with users }
  | signed {credentials : LoginRequest} {recorded : Bool} {i : SignIn}
      (hcredentials : i.credentials = credentials)
      (hfound : get_by_username s.users credentials.username = some i.user)
      (hmode : d.settings.auth_required = true) (hsound : i.Sound d) (hnow : i.now = s.now) :
      Effect d s (.login credentials recorded) { s with
        users := if recorded then touch_last_login s.users i.user.id s.now else s.users
        signed := s.signed ++ [i] }
  | minted {authorization x_api_key : Option (List Char)} {nonce : Nonce} {m : Mint}
      (hprincipal : d.principal authorization s.now = .ok m.principal)
      (hnow : m.now = s.now) :
      Effect d s (.ticket authorization x_api_key nonce) { s with minted := s.minted ++ [m] }
  | dispatched {robot_id : Int} {x_api_key x_console_ticket authorization : Option (List Char)}
      {principal : Principal}
      (hsent : d.send_command x_api_key x_console_ticket authorization s.now = .ok principal) :
      Effect d s (.command robot_id x_api_key x_console_ticket authorization) { s with
        dispatched := s.dispatched ++
          [⟨s.now, principal, robot_id, x_api_key, x_console_ticket, authorization⟩] }
  | watching {api_key ticket : Option (List Char)}
      (hconnect : websocket_endpoint d.sign d.decimal d.telemetry_api_key api_key ticket s.now =
        .ok .connect) :
      Effect d s (.watch api_key ticket) { s with watching := s.watching ++ [⟨s.now, api_key, ticket⟩] }
  | refused (r : Request) : Effect d s r s

theorem effect_of_step {s t : Console} {r : Request} (h : d.step s r = some t) : Effect d s r t := by
  cases r with
  | tick seconds =>
      simp only [Deployment.step] at h
      split at h
      · rename_i hpos
        cases h
        exact .tick hpos
      · cases h
  | edit users =>
      cases h
      exact .edit users
  | login credentials recorded =>
      simp only [Deployment.step] at h
      split at h
      · rename_i user response hfound hanswer
        cases h
        obtain ⟨hmode, hsound⟩ := login_eq_ok hfound hanswer
        exact .signed (i := ⟨s.now, user, credentials, _, _⟩) rfl hfound hmode hsound rfl
      · cases h
        exact .refused _
  | ticket authorization x_api_key nonce =>
      simp only [Deployment.step] at h
      split at h
      · rename_i principal issued hok
        cases h
        exact .minted (m := ⟨s.now, nonce, principal⟩) (create_console_ticket_eq_ok hok) rfl
      · cases h
        exact .refused _
  | command robot_id x_api_key x_console_ticket authorization =>
      simp only [Deployment.step] at h
      split at h
      · rename_i principal hok
        cases h
        exact .dispatched hok
      · cases h
        exact .refused _
  | watch api_key ticket =>
      simp only [Deployment.step] at h
      split at h
      · rename_i hok
        cases h
        exact .watching hok
      · cases h
        exact .refused _

theorem step_tick {s : Console} {seconds : ℚ} (hpos : 0 ≤ seconds) :
    d.step s (.tick seconds) = some { s with now := s.now + seconds } := if_pos hpos

theorem step_command {s : Console} {robot_id : Int}
    {x_api_key x_console_ticket authorization : Option (List Char)} {principal : Principal}
    (h : d.send_command x_api_key x_console_ticket authorization s.now = .ok principal) :
    d.step s (.command robot_id x_api_key x_console_ticket authorization) = some { s with
      dispatched := s.dispatched ++
        [⟨s.now, principal, robot_id, x_api_key, x_console_ticket, authorization⟩] } := by
  simp only [Deployment.step, h]

section Invariant

theorem SignIn.Vouches.mono {signed more : List SignIn} {now : ℚ} {principal : Principal}
    (h : ∃ i ∈ signed, i.Vouches now principal) : ∃ i ∈ signed ++ more, i.Vouches now principal := by
  obtain ⟨i, hi, hvouches⟩ := h
  exact ⟨i, List.mem_append_left more hi, hvouches⟩

theorem Console.Admitted.mono {s t : Console} (hminted : s.minted ⊆ t.minted) {now : ℚ}
    {api_key : Option (List Char)} (h : s.Admitted d now api_key) : t.Admitted d now api_key := by
  rcases h with hkey | ⟨m, hm, hlive⟩
  · exact .inl hkey
  · exact .inr ⟨m, hminted hm, hlive⟩

-- What was let in before stays accounted for by more that is on record.
theorem Console.Sound.extend {s t : Console} (hs : s.Sound d) (hnow : s.now ≤ t.now)
    (hsigned : ∀ i ∈ t.signed, i ∈ s.signed ∨ (i.Sound d ∧ i.now = s.now))
    (hmore : s.signed ⊆ t.signed)
    (hminted : ∀ m ∈ t.minted, m ∈ s.minted ∨
      (m.now = s.now ∧ ∃ i ∈ t.signed, i.Vouches m.now m.principal))
    (htickets : s.minted ⊆ t.minted)
    (hdispatched : ∀ x ∈ t.dispatched, x ∈ s.dispatched ∨
      ((∃ i ∈ t.signed, i.Vouches x.now x.principal) ∧
        role_satisfies x.principal.role OPERATOR = true ∧ t.Admitted d x.now x.x_api_key))
    (hwatching : ∀ w ∈ t.watching, w ∈ s.watching ∨ t.Admitted d w.now w.api_key) : t.Sound d where
  now := hs.now.trans hnow
  signed := by
    intro i hi
    rcases hsigned i hi with hold | ⟨hsound, heq⟩
    · obtain ⟨hsound, hpos, hsince⟩ := hs.signed i hold
      exact ⟨hsound, hpos, hsince.trans hnow⟩
    · exact ⟨hsound, heq ▸ hs.now, heq ▸ hnow⟩
  minted := by
    intro m hm
    rcases hminted m hm with hold | ⟨heq, hvouched⟩
    · obtain ⟨hsince, i, hi, hvouches⟩ := hs.minted m hold
      exact ⟨hsince.trans hnow, i, hmore hi, hvouches⟩
    · exact ⟨heq ▸ hnow, hvouched⟩
  dispatched := by
    intro x hx
    rcases hdispatched x hx with hold | hnew
    · obtain ⟨⟨i, hi, hvouches⟩, hrole, hadmitted⟩ := hs.dispatched x hold
      exact ⟨⟨i, hmore hi, hvouches⟩, hrole, hadmitted.mono htickets⟩
    · exact hnew
  watching := by
    intro w hw
    rcases hwatching w hw with hold | hnew
    · exact (hs.watching w hold).mono htickets
    · exact hnew

theorem sound_start {now : ℚ} (hnow : 0 ≤ now) (users : List User) :
    (Console.start now users).Sound d where
  now := hnow
  signed := by simp [Console.start]
  minted := by simp [Console.start]
  dispatched := by simp [Console.start]
  watching := by simp [Console.start]

theorem admitted_now (hsign : ∀ payload, Hex (d.sign payload)) {s : Console} (hs : s.Sound d)
    {r : Request} (hr : d.Unforged s r) {api_key : Option (List Char)}
    (h : api_key = some d.telemetry_api_key ∨
      verify_ticket d.sign d.decimal r.console_ticket SCOPE_CONSOLE s.now = .ok true) :
    s.Admitted d s.now api_key := by
  rcases h with hkey | hticket
  · exact .inl hkey
  · obtain ⟨m, hm, hlive⟩ := admitted_of_ticket hsign hr hticket
    exact .inr ⟨m, hm, (hs.minted m hm).1, hlive⟩

theorem Console.Sound.step (hideal : d.jwt.Ideal) (hsign : ∀ payload, Hex (d.sign payload))
    (hmode : d.settings.auth_required = true) {s t : Console} {r : Request} (hs : s.Sound d)
    (hr : d.Unforged s r) (hstep : d.step s r = some t) : t.Sound d := by
  cases effect_of_step hstep with
  | tick hpos =>
      exact hs.extend (by simpa using hpos) (fun _ hi => .inl hi) (fun _ hi => hi)
        (fun _ hm => .inl hm) (fun _ hm => hm) (fun _ hx => .inl hx) (fun _ hw => .inl hw)
  | edit users =>
      exact hs.extend le_rfl (fun _ hi => .inl hi) (fun _ hi => hi) (fun _ hm => .inl hm)
        (fun _ hm => hm) (fun _ hx => .inl hx) (fun _ hw => .inl hw)
  | @signed _ _ i _ _ _ hsound hnow =>
      refine hs.extend le_rfl ?_ (List.subset_append_left _ _) (fun _ hm => .inl hm)
        (fun _ hm => hm) (fun _ hx => .inl hx) (fun _ hw => .inl hw)
      intro j hj
      rcases List.mem_append.mp hj with hj | hj
      · exact .inl hj
      · rw [List.mem_singleton.mp hj]
        exact .inr ⟨hsound, hnow⟩
  | @minted _ _ _ m hprincipal hnow =>
      obtain ⟨i, hi, -, hvouches⟩ := vouched_of_principal hideal hmode hs hr hprincipal
      refine hs.extend le_rfl (fun _ hi => .inl hi) (fun _ hi => hi) ?_ (List.subset_append_left _ _)
        (fun _ hx => .inl hx) (fun _ hw => .inl hw)
      intro n hn
      rcases List.mem_append.mp hn with hn | hn
      · exact .inl hn
      · rw [List.mem_singleton.mp hn]
        exact .inr ⟨hnow, i, hi, hnow.symm ▸ hvouches⟩
  | dispatched hsent =>
      obtain ⟨haccess, hprincipal, hrole⟩ := send_command_eq_ok hsent
      obtain ⟨i, hi, -, hvouches⟩ := vouched_of_principal hideal hmode hs hr hprincipal
      refine hs.extend le_rfl (fun _ hi => .inl hi) (fun _ hi => hi) (fun _ hm => .inl hm)
        (fun _ hm => hm) ?_ (fun _ hw => .inl hw)
      intro x hx
      rcases List.mem_append.mp hx with hx | hx
      · exact .inl hx
      · rw [List.mem_singleton.mp hx]
        exact .inr ⟨⟨i, hi, hvouches⟩, hrole, admitted_now hsign hs hr haccess⟩
  | watching hconnect =>
      refine hs.extend le_rfl (fun _ hi => .inl hi) (fun _ hi => hi) (fun _ hm => .inl hm)
        (fun _ hm => hm) (fun _ hx => .inl hx) ?_
      intro w hw
      rcases List.mem_append.mp hw with hw | hw
      · exact .inl hw
      · rw [List.mem_singleton.mp hw]
        exact .inr (admitted_now hsign hs hr (connect_eq_ok hconnect))
  | refused => exact hs

theorem Console.Sound.run (hideal : d.jwt.Ideal) (hsign : ∀ payload, Hex (d.sign payload))
    (hmode : d.settings.auth_required = true) {s t : Console} {rs : List Request} (hs : s.Sound d)
    (hunforged : Along d.step d.Unforged s rs) (hrun : exec d.step s rs = some t) : t.Sound d :=
  exec_along_invariant (fun _ _ _ hr hs hstep => hs.step hideal hsign hmode hr hstep) hunforged hs hrun

end Invariant

section Results

-- The sign-in is one of the run: the account was in the table as it says.
def SignIn.Traced (d : Deployment) (s : Console) (rs : List Request) (i : SignIn) : Prop :=
  ∃ before recorded after u, rs = before ++ .login i.credentials recorded :: after ∧
    exec d.step s before = some u ∧ u.now = i.now ∧
    get_by_username u.users i.credentials.username = some i.user

theorem signed_traced {s t : Console} {rs : List Request} (hrun : exec d.step s rs = some t)
    {i : SignIn} (hi : i ∈ t.signed) : i ∈ s.signed ∨ i.Traced d s rs := by
  have hstep : ∀ s r t, d.step s r = some t → i ∈ t.signed → i ∈ s.signed ∨
      ∃ recorded, r = .login i.credentials recorded ∧ s.now = i.now ∧
        get_by_username s.users i.credentials.username = some i.user := by
    intro s r t hstep hi
    cases effect_of_step hstep with
    | @signed _ recorded j hcredentials hfound _ _ hnow =>
        rcases List.mem_append.mp hi with hi | hi
        · exact .inl hi
        · obtain rfl := List.mem_singleton.mp hi
          exact .inr ⟨recorded, by rw [hcredentials], hnow.symm, hcredentials ▸ hfound⟩
    | tick | edit | minted | dispatched | watching | refused => exact .inl hi
  rcases exec_origin hstep hrun hi with hold | ⟨before, r, after, u, hrs, hbefore, recorded, rfl, h⟩
  · exact .inl hold
  · exact .inr ⟨before, recorded, after, u, hrs, hbefore, h⟩

-- The master key, or a ticket that was still good and was itself given to someone signed in.
def Backed (d : Deployment) (s t : Console) (rs : List Request) (now : ℚ) (api_key : Option (List Char)) :
    Prop :=
  api_key = some d.telemetry_api_key ∨ ∃ m ∈ t.minted, m.now ≤ now ∧ now < m.expires_at d ∧
    ∃ j ∈ t.signed, j.Traced d s rs ∧ j.Sound d ∧ j.Vouches m.now m.principal

-- In required mode every command that was let through goes back to a sign-in of this run, by an
-- account in use that may drive robots and whose token had not expired; and a command or a live
-- socket was let in by the key or a ticket that goes back to one.
theorem dispatch_backed (hideal : d.jwt.Ideal) (hsign : ∀ payload, Hex (d.sign payload))
    (hmode : d.settings.auth_required = true) {now : ℚ} (hnow : 0 ≤ now) {users : List User}
    {rs : List Request} {t : Console}
    (hunforged : Along d.step d.Unforged (Console.start now users) rs)
    (hrun : exec d.step (Console.start now users) rs = some t) :
    (∀ x ∈ t.dispatched,
      (∃ i ∈ t.signed, i.Traced d (Console.start now users) rs ∧ i.Sound d ∧
        i.Vouches x.now x.principal ∧ (i.user.role = OPERATOR ∨ i.user.role = ADMIN)) ∧
      Backed d (Console.start now users) t rs x.now x.x_api_key) ∧
    ∀ w ∈ t.watching, Backed d (Console.start now users) t rs w.now w.api_key := by
  have hs := (sound_start hnow users).run hideal hsign hmode hunforged hrun
  have htraced : ∀ i ∈ t.signed, i.Traced d (Console.start now users) rs := by
    intro i hi
    rcases signed_traced hrun hi with hold | htraced
    · simp [Console.start] at hold
    · exact htraced
  have hbacked : ∀ time api_key, t.Admitted d time api_key →
      Backed d (Console.start now users) t rs time api_key := by
    rintro time api_key (hkey | ⟨m, hm, hsince, hlive⟩)
    · exact .inl hkey
    · obtain ⟨-, j, hj, hminted⟩ := hs.minted m hm
      exact .inr ⟨m, hm, hsince, hlive, j, hj, htraced j hj, (hs.signed j hj).1, hminted⟩
  constructor
  · intro x hx
    obtain ⟨⟨i, hi, hvouches⟩, hrole, hadmitted⟩ := hs.dispatched x hx
    refine ⟨⟨i, hi, htraced i hi, (hs.signed i hi).1, hvouches, ?_⟩, hbacked _ _ hadmitted⟩
    rw [hvouches.principal] at hrole
    exact (satisfies_operator _).mp hrole
  · intro w hw
    exact hbacked _ _ (hs.watching w hw)

-- No account of this name is in use.
def Disabled (username : String) (s : Console) (_ : Request) : Prop :=
  ∀ user ∈ s.users, user.username = username → user.is_active = false

theorem SignIn.Sound.expires_le {i : SignIn} (hi : i.Sound d) {now : ℚ} (hpos : 0 ≤ now)
    (hlive : now < i.expires_at) : (i.expires_at : ℚ) ≤ i.now + d.settings.jwt_ttl_seconds := by
  obtain ⟨hexpires, -⟩ := issue_access_token_eq_some hi.issued
  rw [Option.getD_none] at hexpires
  rw [hexpires] at hlive ⊢
  rcases le_or_gt 0 (i.now + d.settings.jwt_ttl_seconds) with hle | hlt
  · exact truncate_le hle
  · have hexpired : ((truncate (i.now + d.settings.jwt_ttl_seconds) : Int) : ℚ) ≤ 0 := by
      exact_mod_cast truncate_nonpos hlt
    linarith

-- Once an account is disabled or gone for good, what it signed in for is over within the
-- lifetime of a token, and the tickets it drew within that of a ticket more.
theorem disabled_account_locked_out (hideal : d.jwt.Ideal) (hsign : ∀ payload, Hex (d.sign payload))
    (hmode : d.settings.auth_required = true) {now : ℚ} (hnow : 0 ≤ now) {users : List User}
    {before after : List Request} {s t : Console} {username : String}
    (hunforged : Along d.step d.Unforged (Console.start now users) (before ++ after))
    (hbefore : exec d.step (Console.start now users) before = some s)
    (hdisabled : Along d.step (Disabled username) s after) (hafter : exec d.step s after = some t) :
    (∀ x ∈ t.dispatched, x.principal.username = username →
      x.now < s.now + d.settings.jwt_ttl_seconds) ∧
    (∀ m ∈ t.minted, m.principal.username = username →
      m.now < s.now + d.settings.jwt_ttl_seconds ∧
      (m.expires_at d : ℚ) < s.now + d.settings.jwt_ttl_seconds + d.settings.ticket_ttl_seconds) := by
  have hs := (sound_start hnow users).run hideal hsign hmode hunforged.left hbefore
  have ht := hs.run hideal hsign hmode (hunforged.right hbefore) hafter
  -- its sign-ins are all from before
  have hold : ∀ i ∈ t.signed, i.user.username = username → i.now ≤ s.now := by
    refine exec_along_invariant (I := fun u => ∀ i ∈ u.signed, i.user.username = username → i.now ≤ s.now)
      ?_ hdisabled (fun i hi _ => (hs.signed i hi).2.2) hafter
    intro u r v hoff hu hstep i hi hname
    cases effect_of_step hstep with
    | @signed _ _ j _ hfound _ hsound _ =>
        rcases List.mem_append.mp hi with hi | hi
        · exact hu i hi hname
        · obtain rfl := List.mem_singleton.mp hi
          have hin := hoff i.user (List.mem_of_find?_eq_some hfound) hname
          rw [hsound.active] at hin
          cases hin
    | tick | edit | minted | dispatched | watching | refused => exact hu i hi hname
  have hlate : ∀ i ∈ t.signed, ∀ (time : ℚ) (p : Principal), i.Vouches time p → p.username = username →
      time < s.now + d.settings.jwt_ttl_seconds := by
    intro i hi time p hvouches hname
    obtain ⟨hsound, hpos, -⟩ := ht.signed i hi
    have hsince := hold i hi (by rw [hvouches.principal] at hname; exact hname)
    have hexpires := hsound.expires_le (hpos.trans hvouches.since) hvouches.alive
    have halive := hvouches.alive
    linarith
  constructor
  · intro x hx hname
    obtain ⟨⟨i, hi, hvouches⟩, -⟩ := ht.dispatched x hx
    exact hlate i hi _ _ hvouches hname
  · intro m hm hname
    obtain ⟨-, i, hi, hvouches⟩ := ht.minted m hm
    have hminted := hlate i hi _ _ hvouches hname
    refine ⟨hminted, ?_⟩
    have hfloor := truncate_le ((ht.signed i hi).2.1.trans hvouches.since)
    have hexpires : ((m.expires_at d : Int) : ℚ) = truncate m.now + d.settings.ticket_ttl_seconds := by
      rw [Mint.expires_at, Issue.expires_at]
      push_cast
      rfl
    linarith

theorem SignIn.Sound.bearer (hideal : d.jwt.Ideal) {i : SignIn} (hi : i.Sound d) :
    bearer_token (some ("Bearer ".toList ++ i.token)) = some i.token := by
  obtain ⟨-, htoken⟩ := issue_access_token_eq_some hi.issued
  rw [htoken]
  exact bearer_token_header (hideal.no_blank _ _) (hideal.nonempty _ _)

theorem SignIn.Sound.principal_header (hideal : d.jwt.Ideal) {i : SignIn} (hi : i.Sound d)
    (hpos : 0 ≤ i.now) {now : ℚ} (hsince : i.now ≤ now) :
    d.principal (some ("Bearer ".toList ++ i.token)) now =
      if now < i.expires_at ∧ i.user.role ∈ ROLES then .ok ⟨i.user.username, i.user.role, true⟩
      else .error (.http_exception 401 "Invalid or expired token") := by
  rw [Deployment.principal, current_principal, hi.bearer hideal]
  simp only [hi.decode hideal hpos hsince]
  by_cases hlive : now < i.expires_at ∧ i.user.role ∈ ROLES
  · simp only [if_pos hlive]
  · simp only [if_neg hlive]

-- A token stands for the account as it was at the sign-in, to the end of its life and no further,
-- whatever is done to the account meanwhile; and nothing else stands for anyone.
theorem token_honoured (hideal : d.jwt.Ideal) (hsign : ∀ payload, Hex (d.sign payload))
    (hmode : d.settings.auth_required = true) {now : ℚ} (hnow : 0 ≤ now) {users : List User}
    {rs : List Request} {t : Console}
    (hunforged : Along d.step d.Unforged (Console.start now users) rs)
    (hrun : exec d.step (Console.start now users) rs = some t) :
    (∀ i ∈ t.signed, d.principal (some ("Bearer ".toList ++ i.token)) t.now =
      if t.now < i.expires_at ∧ i.user.role ∈ ROLES then .ok ⟨i.user.username, i.user.role, true⟩
      else .error (.http_exception 401 "Invalid or expired token")) ∧
    ∀ r, d.Unforged t r → ∀ principal, d.principal r.authorization t.now = .ok principal ↔
      ∃ i ∈ t.signed, bearer_token r.authorization = some i.token ∧ i.Vouches t.now principal := by
  have ht := (sound_start hnow users).run hideal hsign hmode hunforged hrun
  constructor
  · intro i hi
    obtain ⟨hsound, hpos, hsince⟩ := ht.signed i hi
    exact hsound.principal_header hideal hpos hsince
  · intro r hr principal
    constructor
    · exact vouched_of_principal hideal hmode ht hr
    · rintro ⟨i, hi, hbearer, hvouches⟩
      obtain ⟨hsound, hpos, hsince⟩ := ht.signed i hi
      refine (current_principal_required hmode).mpr ⟨i.token, hbearer, ?_⟩
      rw [hsound.decode hideal hpos hsince, if_pos ⟨hvouches.alive, hvouches.known⟩, hvouches.principal]
      exact ⟨rfl, rfl⟩

theorem principal_open (hmode : d.settings.auth_required = false) {s : Console} (hsigned : s.signed = [])
    {r : Request} (hr : d.Unforged s r) {principal : Principal}
    (h : d.principal r.authorization s.now = .ok principal) :
    bearer_token r.authorization = none ∧ principal = .anonymous := by
  rw [Deployment.principal, current_principal] at h
  split at h
  · rename_i hbearer
    rw [hmode] at h
    cases h
    exact ⟨hbearer, rfl⟩
  · rename_i token hbearer
    split at h
    · cases h
    · rename_i sub role hdecode
      obtain ⟨i, hi, -⟩ := hr.1 token _ hbearer (decode_of_decode_access_token hdecode)
      rw [hsigned] at hi
      cases hi

-- In open mode nothing is ever signed: a command passes without a token only, as the anonymous
-- operator's, on the master key or on a ticket that is still good.
theorem open_mode_anonymous (hsign : ∀ payload, Hex (d.sign payload))
    (hmode : d.settings.auth_required = false) {now : ℚ} {users : List User} {rs : List Request}
    {t : Console} (hunforged : Along d.step d.Unforged (Console.start now users) rs)
    (hrun : exec d.step (Console.start now users) rs = some t) :
    t.signed = [] ∧ ∀ x ∈ t.dispatched,
      bearer_token x.authorization = none ∧ x.principal = .anonymous ∧ t.Admitted d x.now x.x_api_key := by
  have hinv : t.signed = [] ∧ (∀ m ∈ t.minted, m.now ≤ t.now) ∧ ∀ x ∈ t.dispatched,
      bearer_token x.authorization = none ∧ x.principal = .anonymous ∧ t.Admitted d x.now x.x_api_key := by
    refine exec_along_invariant (I := fun s => s.signed = [] ∧ (∀ m ∈ s.minted, m.now ≤ s.now) ∧
      ∀ x ∈ s.dispatched, bearer_token x.authorization = none ∧ x.principal = .anonymous ∧
        s.Admitted d x.now x.x_api_key) ?_ hunforged (by simp [Console.start]) hrun
    rintro s r u hr ⟨hsigned, hminted, hdispatched⟩ hstep
    cases effect_of_step hstep with
    | tick hpos => exact ⟨hsigned, fun m hm => (hminted m hm).trans (by simpa using hpos), hdispatched⟩
    | edit | watching | refused => exact ⟨hsigned, hminted, hdispatched⟩
    | signed _ _ hrequired _ _ =>
        rw [hmode] at hrequired
        cases hrequired
    | minted _ hnow =>
        refine ⟨hsigned, ?_, ?_⟩
        · intro m hm
          rcases List.mem_append.mp hm with hm | hm
          · exact hminted m hm
          · rw [List.mem_singleton.mp hm, hnow]
        · intro x hx
          obtain ⟨hbearer, hprincipal, hadmitted⟩ := hdispatched x hx
          exact ⟨hbearer, hprincipal, hadmitted.mono (List.subset_append_left _ _)⟩
    | dispatched hsent =>
        refine ⟨hsigned, hminted, ?_⟩
        intro x hx
        rcases List.mem_append.mp hx with hx | hx
        · exact hdispatched x hx
        · obtain rfl := List.mem_singleton.mp hx
          obtain ⟨haccess, hprincipal, -⟩ := send_command_eq_ok hsent
          obtain ⟨hbearer, hanonymous⟩ := principal_open hmode hsigned hr hprincipal
          refine ⟨hbearer, hanonymous, ?_⟩
          rcases haccess with hkey | hticket
          · exact .inl hkey
          · obtain ⟨m, hm, hlive⟩ := admitted_of_ticket hsign hr hticket
            exact .inr ⟨m, hm, hminted m hm, hlive⟩
  exact ⟨hinv.1, hinv.2.2⟩

end Results

section Example

def letters (s : String) : List ℕ := s.toList.map Char.toNat

theorem letters_read (s : String) : String.ofList ((letters s).map Char.ofNat) = s := by
  have hread : Char.ofNat ∘ Char.toNat = id := funext Char.ofNat_toNat
  rw [letters, List.map_map, hread, List.map_id, String.ofList_toList]

-- A library that writes its claims as one number, in strokes.
def plainJwt : Jwt where
  encode := fun payload _ => List.replicate
    (Encodable.encode (letters payload.sub, letters payload.role, payload.iat, payload.exp) + 1) 'a'
  decode := fun token _ now =>
    (Encodable.decode (token.length - 1) : Option (List ℕ × List ℕ × ℤ × ℤ)).bind fun claims =>
      if claims.2.2.1 ≤ now ∧ now < claims.2.2.2 then
        some ⟨some (String.ofList (claims.1.map Char.ofNat)),
          some (String.ofList (claims.2.1.map Char.ofNat))⟩
      else none

theorem plainJwt_ideal : plainJwt.Ideal where
  decode_encode := by
    intro payload key now
    simp only [plainJwt, List.length_replicate, Nat.add_sub_cancel, Encodable.encodek,
      Option.bind_some, letters_read]
  no_blank := by
    intro payload key c hc
    rw [List.eq_of_mem_replicate hc]
    decide
  nonempty := by
    intro payload key h
    simpa [plainJwt] using congrArg List.length h

def plainDeployment : Deployment where
  bcrypt := plainBcrypt
  jwt := plainJwt
  sha256 := id
  sign := fun _ => List.replicate 64 'a'
  decimal := fun _ => none
  settings :=
    { app_env := "production"
      cors_origins := "https://fleet"
      telemetry_api_key := "0123456789abcdef"
      auth_mode := none
      jwt_secret := none
      websocket_backend := "redis"
      defer_writes_without_viewers := false
      max_clock_skew_seconds := 300
      opt_redis_buffer := true
      opt_batch_insert := true
      telemetry_stream_maxlen := 100000
      jwt_ttl_seconds := 3600
      ticket_ttl_seconds := 300
      require_auth_for_reads := false
      bootstrap_admin_username := none
      bootstrap_admin_password := none }
  dummy_hash := ""

def operatorUser : User := ⟨1, "a", written "x".toUTF8, OPERATOR, true, none⟩

def firstSignIn : SignIn where
  now := 1000
  user := operatorUser
  credentials := shortRequest
  token := plainJwt.encode ⟨"a", OPERATOR, 1000, 4600⟩ plainDeployment.key
  expires_at := 4600

def firstHeader : List Char := "Bearer ".toList ++ firstSignIn.token

def firstStart : Console := Console.start 1000 [operatorUser]

-- The account is deleted as soon as it has signed in.
def signInAndDelete : List Request := [.login shortRequest false, .edit []]

def commandAfter : List Request :=
  [.tick 60, .command 7 (some "0123456789abcdef".toList) none (some firstHeader)]

def deleted : Console := { firstStart with users := [], signed := [firstSignIn] }

def commanded : Console := { deleted with
  now := 1060
  dispatched := [⟨1060, ⟨"a", OPERATOR, true⟩, 7, some "0123456789abcdef".toList, none, some firstHeader⟩] }

theorem plain_hex (payload : List Char) : Hex (plainDeployment.sign payload) := by
  intro c hc
  rw [List.eq_of_mem_replicate hc]
  decide

theorem first_issue : issue_access_token plainJwt id plainDeployment.settings "a" OPERATOR none 1000 =
    some (firstSignIn.token, 4600) := by
  have hiat : truncate 1000 = 1000 := by norm_num [truncate]
  have hexp : truncate (1000 + ((3600 : Int) : ℚ)) = 4600 := by norm_num [truncate]
  rw [issue_access_token, Option.getD_none]
  change (if DATETIME_MIN ≤ 1000 + ((3600 : Int) : ℚ) ∧ 1000 + ((3600 : Int) : ℚ) < DATETIME_END then
    some (plainJwt.encode ⟨"a", OPERATOR, truncate 1000, truncate (1000 + ((3600 : Int) : ℚ))⟩ _,
      truncate (1000 + ((3600 : Int) : ℚ))) else none) = _
  rw [if_pos (by norm_num [DATETIME_MIN, DATETIME_END]), hiat, hexp]
  rfl

theorem first_sound : firstSignIn.Sound plainDeployment where
  username := rfl
  password := by
    have hhash : hash_password plainBcrypt "x" () = _ := hash_password_plain (by decide)
    exact (verify_password_eq_true plainBcrypt_ideal hhash "x").mpr (by decide)
  active := rfl
  issued := first_issue

theorem first_login : (plainDeployment.login [operatorUser] shortRequest 1000).answer =
    .ok ⟨firstSignIn.token, 4600, "a", OPERATOR⟩ := by
  have hmode : plainDeployment.settings.auth_required = true := by decide
  have hfound : get_by_username [operatorUser] shortRequest.username = some operatorUser := rfl
  have hpassword : verify_password plainDeployment.bcrypt shortRequest.password
      operatorUser.password_hash = true := first_sound.password
  have hissue : issue_access_token plainDeployment.jwt plainDeployment.sha256 plainDeployment.settings
      operatorUser.username operatorUser.role none 1000 = some (firstSignIn.token, 4600) := first_issue
  have hactive : operatorUser.is_active = true := rfl
  simp only [Deployment.login, hmode, hfound, hpassword, hactive, hissue, Bool.not_true, Bool.false_eq_true,
    if_false]
  rfl

theorem login_step : plainDeployment.step firstStart (.login shortRequest false) =
    some { firstStart with signed := [firstSignIn] } := by
  have hfound : get_by_username firstStart.users shortRequest.username = some operatorUser := rfl
  have hanswer : (plainDeployment.login firstStart.users shortRequest firstStart.now).answer = _ :=
    first_login
  simp only [Deployment.step, hfound, hanswer]
  rfl

theorem signInAndDelete_run : exec plainDeployment.step firstStart signInAndDelete = some deleted := by
  exact (exec_cons_iff _ _ _ _).mpr ⟨_, login_step, rfl⟩

theorem first_command : plainDeployment.send_command (some "0123456789abcdef".toList) none
    (some firstHeader) 1060 = .ok ⟨"a", OPERATOR, true⟩ := by
  have hkey : verify_console_access plainDeployment.sign plainDeployment.decimal
      plainDeployment.telemetry_api_key (some "0123456789abcdef".toList) none 1060 = .ok () := by
    have hvalid : is_valid_api_key plainDeployment.telemetry_api_key
        (some "0123456789abcdef".toList) = .ok true :=
      (is_valid_api_key_eq_true (by decide) _).mpr ⟨rfl, by decide⟩
    rw [verify_console_access, hvalid]
    rfl
  have hprincipal : plainDeployment.principal (some firstHeader) 1060 = .ok ⟨"a", OPERATOR, true⟩ := by
    have hsince : firstSignIn.now ≤ 1060 := by norm_num [firstSignIn]
    have hheader := first_sound.principal_header plainJwt_ideal (by norm_num [firstSignIn]) hsince
    have hlive : (1060 : ℚ) < firstSignIn.expires_at ∧ firstSignIn.user.role ∈ ROLES := by
      refine ⟨by norm_num [firstSignIn], by decide⟩
    rw [if_pos hlive] at hheader
    exact hheader
  rw [Deployment.send_command, hkey, hprincipal]
  rfl

theorem tick_step : plainDeployment.step deleted (.tick 60) = some { deleted with now := 1060 } := by
  have hnow : deleted.now + 60 = 1060 := by norm_num [deleted, firstStart, Console.start]
  exact (step_tick (by norm_num)).trans (by rw [hnow])

theorem commandAfter_run : exec plainDeployment.step deleted commandAfter = some commanded := by
  have hcommand : plainDeployment.step { deleted with now := 1060 } (.command 7 _ _ _) = _ :=
    step_command first_command
  exact (exec_cons_iff _ _ _ _).mpr ⟨_, tick_step, (exec_cons_iff _ _ _ _).mpr ⟨_, hcommand, rfl⟩⟩

-- Requests without a header of their own have nothing to forge.
theorem unforged_of_none {s : Console} {r : Request} (hauthorization : r.authorization = none)
    (hticket : r.console_ticket = none) : d.Unforged s r := by
  constructor
  · intro token claims hbearer
    rw [hauthorization] at hbearer
    cases hbearer
  · intro payload hpayload
    rw [hticket] at hpayload
    cases hpayload

theorem first_unforged : Along plainDeployment.step plainDeployment.Unforged firstStart
    (signInAndDelete ++ commandAfter) := by
  have hcommand : plainDeployment.Unforged { deleted with now := 1060 }
      (.command 7 (some "0123456789abcdef".toList) none (some firstHeader)) := by
    constructor
    · intro token claims hbearer _
      have hfirst := first_sound.bearer plainJwt_ideal
      exact ⟨firstSignIn, List.mem_singleton_self _, Option.some.inj (hfirst.symm.trans hbearer)⟩
    · intro payload hpayload
      cases hpayload
  have hedit : plainDeployment.step { firstStart with signed := [firstSignIn] } (.edit []) =
      some deleted := rfl
  refine along_cons login_step (unforged_of_none rfl rfl) ?_
  refine along_cons hedit (unforged_of_none rfl rfl) ?_
  refine along_cons tick_step (unforged_of_none rfl rfl) ?_
  exact ⟨hcommand, fun _ _ => trivial⟩

theorem first_run : exec plainDeployment.step firstStart (signInAndDelete ++ commandAfter) =
    some commanded :=
  (exec_append_iff _ _ _ _).mpr ⟨deleted, signInAndDelete_run, commandAfter_run⟩

-- A token outlives its account.
theorem dispatch_backed_first :
    (∀ x ∈ commanded.dispatched,
      (∃ i ∈ commanded.signed, i.Traced plainDeployment firstStart (signInAndDelete ++ commandAfter) ∧
        i.Sound plainDeployment ∧ i.Vouches x.now x.principal ∧
        (i.user.role = OPERATOR ∨ i.user.role = ADMIN)) ∧
      Backed plainDeployment firstStart commanded (signInAndDelete ++ commandAfter) x.now x.x_api_key) ∧
    ∀ w ∈ commanded.watching,
      Backed plainDeployment firstStart commanded (signInAndDelete ++ commandAfter) w.now w.api_key :=
  dispatch_backed plainJwt_ideal plain_hex (by decide) (by norm_num) first_unforged first_run

theorem disabled_account_locked_out_first :
    (∀ x ∈ commanded.dispatched, x.principal.username = "a" →
      x.now < deleted.now + plainDeployment.settings.jwt_ttl_seconds) ∧
    (∀ m ∈ commanded.minted, m.principal.username = "a" →
      m.now < deleted.now + plainDeployment.settings.jwt_ttl_seconds ∧
      (m.expires_at plainDeployment : ℚ) < deleted.now + plainDeployment.settings.jwt_ttl_seconds +
        plainDeployment.settings.ticket_ttl_seconds) := by
  have hempty : ∀ now : ℚ, ∀ r, Disabled "a" { deleted with now } r := by
    intro now r user huser
    cases huser
  exact disabled_account_locked_out plainJwt_ideal plain_hex (by decide) (by norm_num) first_unforged
    signInAndDelete_run (along_cons tick_step (hempty _ _) ⟨hempty _ _, fun _ _ => trivial⟩)
    commandAfter_run

theorem token_honoured_first :
    (∀ i ∈ commanded.signed, plainDeployment.principal (some ("Bearer ".toList ++ i.token)) commanded.now =
      if commanded.now < i.expires_at ∧ i.user.role ∈ ROLES then .ok ⟨i.user.username, i.user.role, true⟩
      else .error (.http_exception 401 "Invalid or expired token")) ∧
    ∀ r, plainDeployment.Unforged commanded r → ∀ principal,
      plainDeployment.principal r.authorization commanded.now = .ok principal ↔
        ∃ i ∈ commanded.signed, bearer_token r.authorization = some i.token ∧
          i.Vouches commanded.now principal :=
  token_honoured plainJwt_ideal plain_hex (by decide) (by norm_num) first_unforged first_run

def openDeployment : Deployment := { plainDeployment with
  settings := { plainDeployment.settings with auth_mode := some "open" } }

def anonymousCommand : Request := .command 7 (some "0123456789abcdef".toList) none none

def anonymousCommanded : Console := { Console.start 1000 [] with
  dispatched := [⟨1000, .anonymous, 7, some "0123456789abcdef".toList, none, none⟩] }

theorem anonymous_command : openDeployment.send_command (some "0123456789abcdef".toList) none none 1000 =
    .ok .anonymous := by
  have hvalid : is_valid_api_key openDeployment.telemetry_api_key
      (some "0123456789abcdef".toList) = .ok true :=
    (is_valid_api_key_eq_true (by decide) _).mpr ⟨rfl, by decide⟩
  have hkey : verify_console_access openDeployment.sign openDeployment.decimal
      openDeployment.telemetry_api_key (some "0123456789abcdef".toList) none 1000 = .ok () := by
    rw [verify_console_access, hvalid]
    rfl
  have hmode : openDeployment.settings.auth_required = false := by decide
  have hprincipal : openDeployment.principal none 1000 = .ok .anonymous := by
    rw [Deployment.principal, current_principal, bearer_token, hmode]
    rfl
  rw [Deployment.send_command, hkey, hprincipal]
  rfl

theorem open_mode_anonymous_first : anonymousCommanded.signed = [] ∧ ∀ x ∈ anonymousCommanded.dispatched,
    bearer_token x.authorization = none ∧ x.principal = .anonymous ∧
      anonymousCommanded.Admitted openDeployment x.now x.x_api_key := by
  have hrun : exec openDeployment.step (Console.start 1000 []) [anonymousCommand] =
      some anonymousCommanded :=
    (exec_cons_iff _ _ _ _).mpr ⟨_, step_command anonymous_command, rfl⟩
  have hunforged : Along openDeployment.step openDeployment.Unforged (Console.start 1000 [])
      [anonymousCommand] := ⟨unforged_of_none rfl rfl, fun _ _ => trivial⟩
  have hsign : ∀ payload, Hex (openDeployment.sign payload) := plain_hex
  exact open_mode_anonymous hsign (by decide) hunforged hrun

end Example

end FleetOps.Auth
