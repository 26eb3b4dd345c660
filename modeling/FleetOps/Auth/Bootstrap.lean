import FleetOps.Auth.Vouched

namespace FleetOps.Auth.Bootstrap

open Runs

-- Where a process stands in `bootstrap_admin_user`.
inductive Phase where
  -- before its start, or after its end
  | idle
  | counting
  -- it has counted no account
  | creating
  -- through without an exception, with an account configured
  | finished
  deriving DecidableEq

-- The processes that start over one users table.
structure Startup (ω : Type) where
  users : List User
  phase : ω → Phase

inductive Event (ω Salt : Type) where
  | boot (p : ω)
  | count (p : ω)
  -- `refreshed`: the read after the commit went well too
  | create (p : ω) (id : Nat) (salt : Salt) (refreshed : Bool)
  -- a statement raises, or the process is cancelled or dies
  | fail (p : ω)
  -- accounts are created, changed, disabled and deleted by hand
  | edit (users : List User)

section Model

variable {ω : Type} [DecidableEq ω] (bcrypt : Bcrypt) (settings : AuthSettings)

-- The two settings, where both are set to a text that is not empty.
def bootstrap_admin : Option (String × String) :=
  match settings.bootstrap_admin_username, settings.bootstrap_admin_password with
  | some username, some password => if username ≠ "" ∧ password ≠ "" then some (username, password) else none
  | _, _ => none

def Startup.to (s : Startup ω) (p : ω) (phase : Phase) : Startup ω :=
  { s with phase := Function.update s.phase p phase }

-- `UserRepository.create`: the name is unique, and so is the number the database gives.
def create (users : List User) (id : Nat) (username password_hash role : String) : Option (List User) :=
  if users.any fun user => user.username == username then none
  else some (users ++ [⟨id, username, password_hash, role, true, none⟩])

def bootstrap_admin_user (s : Startup ω) : Event ω bcrypt.Salt → Option (Startup ω)
  | .boot p =>
      if s.phase p = .idle ∨ s.phase p = .finished then
        if settings.auth_required && (bootstrap_admin settings).isSome then some (s.to p .counting)
        else some (s.to p .idle)
      else none
  | .count p =>
      if s.phase p = .counting then
        some (if s.users.length > 0 then s.to p .finished else s.to p .creating)
      else none
  | .create p id salt refreshed =>
      if s.phase p = .creating ∧ id ∉ s.users.map User.id then
        match bootstrap_admin settings with
        | none => none
        | some (username, password) =>
            match hash_password bcrypt password salt with
            | .error _ => some (s.to p .idle)
            | .ok password_hash =>
                match create s.users id username password_hash ADMIN with
                | none => some (s.to p .idle)
                | some users =>
                    some { s.to p (if refreshed then .finished else .idle) with users }
      else none
  | .fail p => some (s.to p .idle)
  | .edit users => some { s with users }

end Model

def Startup.start {ω : Type} (users : List User) : Startup ω := ⟨users, fun _ => .idle⟩

-- The account that the settings name, with a hash of their password.
structure Made (bcrypt : Bcrypt) (settings : AuthSettings) (user : User) : Prop where
  role : user.role = ADMIN
  active : user.is_active = true
  made : ∃ password salt, bootstrap_admin settings = some (user.username, password) ∧
    hash_password bcrypt password salt = .ok user.password_hash

section Steps

variable {ω : Type} [DecidableEq ω] {bcrypt : Bcrypt} {settings : AuthSettings} {s t : Startup ω}

-- What a start does to the table: nothing, or the first account of that name.
inductive Effect (bcrypt : Bcrypt) (settings : AuthSettings) (s : Startup ω) :
    Event ω bcrypt.Salt → Startup ω → Prop where
  | boot (p : ω) (hphase : s.phase p = .idle ∨ s.phase p = .finished) (phase : Phase)
      (hboot : phase = .counting ∨ phase = .idle) : Effect bcrypt settings s (.boot p) (s.to p phase)
  | found (p : ω) (hphase : s.phase p = .counting) (hsome : s.users ≠ []) :
      Effect bcrypt settings s (.count p) (s.to p .finished)
  | empty (p : ω) (hphase : s.phase p = .counting) (hnone : s.users = []) :
      Effect bcrypt settings s (.count p) (s.to p .creating)
  | made (p : ω) (salt : bcrypt.Salt) (refreshed : Bool) (user : User) (phase : Phase)
      (hphase : s.phase p = .creating) (hnew : ∀ other ∈ s.users, other.username ≠ user.username)
      (hmade : Made bcrypt settings user) (hdone : phase = .finished ∨ phase = .idle) :
      Effect bcrypt settings s (.create p user.id salt refreshed)
        { s.to p phase with users := s.users ++ [user] }
  | failed (e : Event ω bcrypt.Salt) (p : ω) (hown : ∀ users, e ≠ .edit users) :
      Effect bcrypt settings s e (s.to p .idle)
  | edit (users : List User) : Effect bcrypt settings s (.edit users) { s with users }

theorem effect_of_step {e : Event ω bcrypt.Salt} (h : bootstrap_admin_user bcrypt settings s e = some t) :
    Effect bcrypt settings s e t := by
  cases e with
  | boot p =>
      simp only [bootstrap_admin_user] at h
      split at h
      · rename_i hphase
        split at h
        · cases h
          exact .boot p hphase _ (.inl rfl)
        · cases h
          exact .boot p hphase _ (.inr rfl)
      · cases h
  | count p =>
      simp only [bootstrap_admin_user] at h
      split at h
      · rename_i hphase
        cases h
        split
        · rename_i hsome
          exact .found p hphase (List.ne_nil_of_length_pos hsome)
        · rename_i hnone
          exact .empty p hphase (List.eq_nil_of_length_eq_zero (by omega))
      · cases h
  | create p id salt refreshed =>
      simp only [bootstrap_admin_user] at h
      split at h
      · rename_i hphase
        split at h
        · cases h
        · rename_i username password hadmin
          split at h
          · cases h
            exact .failed _ p (by simp)
          · rename_i password_hash hhash
            rw [create] at h
            split at h
            · cases h
              exact .failed _ p (by simp)
            · rename_i users hcreate
              split at hcreate
              · cases hcreate
              · rename_i hnew
                cases hcreate
                cases h
                refine .made p salt refreshed ⟨id, username, password_hash, ADMIN, true, none⟩ _ hphase.1
                  ?_ ⟨rfl, rfl, password, salt, hadmin, hhash⟩ ?_
                · intro other hother heq
                  exact hnew (List.any_eq_true.mpr ⟨other, hother, beq_iff_eq.mpr heq⟩)
                · cases refreshed <;> simp
      · cases h
  | fail p =>
      cases h
      exact .failed _ p (by simp)
  | edit users =>
      cases h
      exact .edit users

end Steps

section Phases

variable {ω : Type} [DecidableEq ω] {s : Startup ω} {p q : ω} {phase phase' : Phase}

@[simp] theorem users_to : (s.to p phase).users = s.users := rfl

-- A phase that another one does not turn into was there before.
theorem phase_of_to (h : (s.to p phase).phase q = phase') (hne : phase ≠ phase') : s.phase q = phase' := by
  simp only [Startup.to] at h
  by_cases hq : q = p
  · subst hq
    rw [Function.update_self] at h
    exact absurd h hne
  · rwa [Function.update_of_ne hq] at h

end Phases

section Results

variable {ω : Type} [DecidableEq ω] {d : Deployment}

-- The table after what was done to it by hand.
def edited {ω Salt : Type} (users : List User) (es : List (Event ω Salt)) : List User :=
  es.foldl (fun users e => match e with
    | .edit users => users
    | _ => users) users

-- No process finds the table empty.
def FindsSome {ω Salt : Type} (s : Startup ω) (e : Event ω Salt) : Prop :=
  ∀ p, e = .count p → s.users ≠ []

def NoEdit {ω Salt : Type} (_ : Startup ω) (e : Event ω Salt) : Prop := ∀ users, e ≠ .edit users

-- Starting again, in any number of processes and however it goes, neither brings back an account
-- nor touches one, while some account is left at every count.
theorem restart_keeps_accounts {users : List User} {es : List (Event ω d.bcrypt.Salt)} {t : Startup ω}
    (hsome : Along (bootstrap_admin_user d.bcrypt d.settings) FindsSome (Startup.start users) es)
    (hrun : exec (bootstrap_admin_user d.bcrypt d.settings) (Startup.start users) es = some t) :
    t.users = edited users es := by
  have hgoal : ∀ s : Startup ω, (∀ p, s.phase p ≠ .creating) →
      Along (bootstrap_admin_user d.bcrypt d.settings) FindsSome s es →
      exec (bootstrap_admin_user d.bcrypt d.settings) s es = some t → t.users = edited s.users es := by
    clear hsome hrun
    induction es with
    | nil =>
        intro s _ _ hrun
        cases hrun
        rfl
    | cons e es ih =>
        intro s hs hsome hrun
        obtain ⟨u, hu, hrest⟩ := (exec_cons_iff s t e es).mp hrun
        have hkept : (∀ p, u.phase p ≠ .creating) ∧ u.users = edited s.users [e] := by
          cases effect_of_step hu with
          | boot p hphase phase hboot =>
              refine ⟨fun q hq => hs q (phase_of_to hq ?_), rfl⟩
              rcases hboot with rfl | rfl <;> decide
          | found p _ _ => exact ⟨fun q hq => hs q (phase_of_to hq (by decide)), rfl⟩
          | empty p _ hnone => exact absurd hnone (hsome.1 p rfl)
          | made p _ _ _ _ hphase => exact absurd hphase (hs p)
          | failed e p hown =>
              refine ⟨fun q hq => hs q (phase_of_to hq (by decide)), ?_⟩
              cases e with
              | edit users => exact absurd rfl (hown users)
              | boot | count | create | fail => rfl
          | edit users => exact ⟨hs, rfl⟩
        have hlast := ih u hkept.1 (hsome.2 u hu) hrest
        rw [hlast, hkept.2]
        rfl
  exact hgoal _ (fun _ => by simp [Startup.start]) hsome hrun

theorem Made.username {user other : User} (h : Made d.bcrypt d.settings user)
    (h' : Made d.bcrypt d.settings other) : other.username = user.username := by
  obtain ⟨password, salt, hadmin, -⟩ := h.made
  obtain ⟨password', salt', hadmin', -⟩ := h'.made
  rw [hadmin] at hadmin'
  exact (Prod.mk.inj (Option.some.inj hadmin')).1.symm

theorem Made.login (hideal : d.bcrypt.Ideal) (hmode : d.settings.auth_required = true) {user : User}
    (h : Made d.bcrypt d.settings user) {credentials : LoginRequest} (now : ℚ)
    (hcredentials : bootstrap_admin d.settings = some (credentials.username, credentials.password)) :
    (d.login [user] credentials now).answer =
      match issue_access_token d.jwt d.sha256 d.settings credentials.username ADMIN none now with
      | some (access_token, expires_at) => .ok ⟨access_token, expires_at, credentials.username, ADMIN⟩
      | none => .error .overflow_error := by
  obtain ⟨password, salt, hadmin, hhash⟩ := h.made
  rw [hcredentials] at hadmin
  obtain ⟨husername, rfl⟩ := Prod.mk.inj (Option.some.inj hadmin)
  have hfound : get_by_username [user] credentials.username = some user := by
    simp [get_by_username, husername]
  have hverified : verify_password d.bcrypt credentials.password user.password_hash = true := by
    rw [verify_password_eq_true hideal hhash]
    exact extract_of_size_le (hash_password_eq_ok hideal hhash).1
  simp only [Deployment.login, hmode, hfound, hverified, h.active, h.role, ← husername, Bool.not_true,
    Bool.false_eq_true, if_false]
  cases issue_access_token d.jwt d.sha256 d.settings credentials.username ADMIN none now with
  | none => rfl
  | some issued => rfl

-- Processes that start together over an empty table make one account at most, the configured
-- one; and when one of them has got through, that account is there and signs in.
theorem first_account (hideal : d.bcrypt.Ideal) (hmode : d.settings.auth_required = true)
    {es : List (Event ω d.bcrypt.Salt)} {t : Startup ω}
    (hedit : Along (bootstrap_admin_user d.bcrypt d.settings) NoEdit (Startup.start []) es)
    (hrun : exec (bootstrap_admin_user d.bcrypt d.settings) (Startup.start []) es = some t) :
    (t.users = [] ∨ ∃ user, t.users = [user] ∧ Made d.bcrypt d.settings user) ∧
    ∀ p, t.phase p = .finished → t.users ≠ [] ∧ ∀ credentials : LoginRequest, ∀ now,
      bootstrap_admin d.settings = some (credentials.username, credentials.password) →
        (d.login t.users credentials now).answer =
          match issue_access_token d.jwt d.sha256 d.settings credentials.username ADMIN none now with
          | some (access_token, expires_at) => .ok ⟨access_token, expires_at, credentials.username, ADMIN⟩
          | none => .error .overflow_error := by
  have hinv : (t.users = [] ∨ ∃ user, t.users = [user] ∧ Made d.bcrypt d.settings user) ∧
      ∀ p, t.phase p = .finished → t.users ≠ [] := by
    refine exec_along_invariant (I := fun s : Startup ω =>
      (s.users = [] ∨ ∃ user, s.users = [user] ∧ Made d.bcrypt d.settings user) ∧
        ∀ p, s.phase p = .finished → s.users ≠ []) ?_ hedit ?_ hrun
    · rintro s e u hown ⟨hone, hdone⟩ hstep
      cases effect_of_step hstep with
      | boot p _ phase hboot =>
          refine ⟨hone, fun q hq => hdone q (phase_of_to hq ?_)⟩
          rcases hboot with rfl | rfl <;> decide
      | found p _ hsome => exact ⟨hone, fun _ _ => hsome⟩
      | empty p _ _ => exact ⟨hone, fun q hq => hdone q (phase_of_to hq (by decide))⟩
      | made p salt refreshed user phase hphase hnew hmade hend =>
          refine ⟨.inr ⟨user, ?_, hmade⟩, by simp⟩
          rcases hone with hnone | ⟨other, hother, hmade'⟩
          · simp [hnone]
          · refine absurd (hmade.username hmade') (hnew other ?_)
            rw [hother]
            exact List.mem_singleton_self other
      | failed e p _ => exact ⟨hone, fun q hq => hdone q (phase_of_to hq (by decide))⟩
      | edit users => exact absurd rfl (hown users)
    · exact ⟨.inl rfl, fun p hp => by cases hp⟩
  refine ⟨hinv.1, fun p hp => ⟨hinv.2 p hp, ?_⟩⟩
  intro credentials now hcredentials
  rcases hinv.1 with hnone | ⟨user, huser, hmade⟩
  · exact absurd hnone (hinv.2 p hp)
  · rw [huser]
    exact hmade.login hideal hmode now hcredentials

end Results

section Example

def freshDeployment : Deployment := { plainDeployment with
  settings := { plainDeployment.settings with
    bootstrap_admin_username := some "a"
    bootstrap_admin_password := some "x" } }

-- Two processes count before either inserts, then start again.
def race : List (Event Bool Unit) :=
  [.boot true, .boot false, .count true, .count false, .create true 1 () true, .create false 2 () true,
    .boot false, .count false]

theorem race_runs : (exec (bootstrap_admin_user freshDeployment.bcrypt freshDeployment.settings)
    (Startup.start []) race).isSome = true := by
  have hhash : hash_password freshDeployment.bcrypt "x" () = .ok (written "x".toUTF8) :=
    hash_password_plain (by decide)
  have hmode : freshDeployment.settings.auth_required = true := by decide
  have hadmin : bootstrap_admin freshDeployment.settings = some ("a", "x") := by decide
  simp [race, exec, bootstrap_admin_user, hmode, hadmin, hhash, Startup.start, Startup.to, create,
    Function.update]

theorem first_account_race : ∃ t, exec (bootstrap_admin_user freshDeployment.bcrypt freshDeployment.settings)
    (Startup.start []) race = some t ∧
    (t.users = [] ∨ ∃ user, t.users = [user] ∧ Made freshDeployment.bcrypt freshDeployment.settings user) ∧
    ∀ p, t.phase p = .finished → t.users ≠ [] ∧ ∀ credentials : LoginRequest, ∀ now,
      bootstrap_admin freshDeployment.settings = some (credentials.username, credentials.password) →
        (freshDeployment.login t.users credentials now).answer =
          match issue_access_token freshDeployment.jwt freshDeployment.sha256 freshDeployment.settings
            credentials.username ADMIN none now with
          | some (access_token, expires_at) => .ok ⟨access_token, expires_at, credentials.username, ADMIN⟩
          | none => .error .overflow_error := by
  obtain ⟨t, ht⟩ := Option.isSome_iff_exists.mp race_runs
  have hown : ∀ e ∈ race, ∀ users, e ≠ .edit users := by simp [race]
  exact ⟨t, ht, first_account plainBcrypt_ideal (by decide)
    (along_of_forall (fun _ e he => hown e he) _) ht⟩

def restart : List (Event Bool Unit) := [.edit [operatorUser], .boot true, .count true]

theorem restart_keeps_accounts_once :
    ∃ t, exec (bootstrap_admin_user freshDeployment.bcrypt freshDeployment.settings)
      (Startup.start []) restart = some t ∧ t.users = edited [] restart := by
  have hmode : freshDeployment.settings.auth_required = true := by decide
  have hadmin : bootstrap_admin freshDeployment.settings = some ("a", "x") := by decide
  have hboot : bootstrap_admin_user freshDeployment.bcrypt freshDeployment.settings
      (Startup.start [operatorUser]) (.boot true) =
        some ((Startup.start [operatorUser]).to true .counting) := by
    simp [bootstrap_admin_user, hmode, hadmin, Startup.start]
  have hcount : bootstrap_admin_user freshDeployment.bcrypt freshDeployment.settings
      ((Startup.start [operatorUser]).to true .counting) (.count true) =
        some (((Startup.start [operatorUser]).to true .counting).to true .finished) := by
    simp [bootstrap_admin_user, Startup.start, Startup.to]
  have hrun : exec (bootstrap_admin_user freshDeployment.bcrypt freshDeployment.settings)
      (Startup.start []) restart = some _ :=
    (exec_cons_iff _ _ _ _).mpr ⟨_, rfl, (exec_cons_iff _ _ _ _).mpr ⟨_, hboot,
      (exec_cons_iff _ _ _ _).mpr ⟨_, hcount, rfl⟩⟩⟩
  have hsome : Along (bootstrap_admin_user freshDeployment.bcrypt freshDeployment.settings) FindsSome
      (Startup.start []) restart := by
    refine along_cons (t := Startup.start [operatorUser]) rfl (by rintro p ⟨⟩) ?_
    refine along_cons hboot (by rintro p ⟨⟩) ⟨?_, fun _ _ => trivial⟩
    intro p _
    simp [Startup.start]
  exact ⟨_, hrun, restart_keeps_accounts hsome hrun⟩

end Example

end FleetOps.Auth.Bootstrap
