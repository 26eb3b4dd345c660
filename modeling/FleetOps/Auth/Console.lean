import FleetOps.Auth.Identity
import FleetOps.Library.Runs

namespace FleetOps.Auth

open Decimal Runs

structure User where
  id : Nat
  username : String
  password_hash : String
  role : String
  is_active : Bool
  last_login_at : Option ℚ
  deriving DecidableEq

structure TokenResponse where
  access_token : List Char
  expires_at : Int
  username : String
  role : String

-- `UserRepository.get_by_username`
def get_by_username (users : List User) (username : String) : Option User :=
  users.find? fun user => user.username == username

-- `UserRepository.touch_last_login`
def touch_last_login (users : List User) (user_id : Nat) (now : ℚ) : List User :=
  users.map fun user => if user.id = user_id then { user with last_login_at := some now } else user

inductive Refusal where
  | http_exception (status_code : Nat) (detail : String)
  -- the lifetime of the token goes beyond what datetime has
  | overflow_error

-- The answer of a sign-in, with the calls of `verify_password` that were made for it.
structure Attempt where
  verified : List (String × String)
  answer : Except Refusal TokenResponse

-- The libraries and the configuration that the routes run with: `sha256` up to its hex digest,
-- `_sign` of the tickets, the digits `int` knows and `_DUMMY_HASH`.
structure Deployment where
  bcrypt : Bcrypt
  jwt : Jwt
  sha256 : String → String
  sign : List Char → List Char
  decimal : Char → Option Nat
  settings : AuthSettings
  dummy_hash : String

namespace Deployment

variable (d : Deployment)

def key : String := signing_key d.sha256 d.settings

def telemetry_api_key : List Char := d.settings.telemetry_api_key.toList

def principal (authorization : Option (List Char)) (now : ℚ) : Except Raised Principal :=
  current_principal d.jwt d.sha256 d.settings authorization now

def login (users : List User) (credentials : LoginRequest) (now : ℚ) : Attempt :=
  if !d.settings.auth_required then
    ⟨[], .error (.http_exception 404
      "This deployment runs with AUTH_MODE=open; there is nothing to sign in to.")⟩
  else match get_by_username users credentials.username with
    | none =>
        ⟨[(credentials.password, d.dummy_hash)],
          .error (.http_exception 401 "Invalid username or password")⟩
    | some user =>
        let verified := [(credentials.password, user.password_hash)]
        if !verify_password d.bcrypt credentials.password user.password_hash then
          ⟨verified, .error (.http_exception 401 "Invalid username or password")⟩
        else if !user.is_active then ⟨verified, .error (.http_exception 403 "Account is disabled")⟩
        else match issue_access_token d.jwt d.sha256 d.settings user.username user.role none now with
          | none => ⟨verified, .error .overflow_error⟩
          | some (access_token, expires_at) =>
              ⟨verified, .ok ⟨access_token, expires_at, user.username, user.role⟩⟩

def verify_read_access (x_api_key : Option (List Char)) : Except Raised Unit :=
  if !d.settings.require_auth_for_reads then .ok () else verify_api_key d.telemetry_api_key x_api_key

-- The call of `issue_ticket` in `create_console_ticket`.
def console_issue (nonce : Nonce) (now : ℚ) : Issue := ⟨SCOPE_CONSOLE, none, now, nonce⟩

-- Who was given the ticket, and the ticket.
def create_console_ticket (authorization x_api_key : Option (List Char)) (nonce : Nonce) (now : ℚ) :
    Except Raised (Principal × List Char × Int) := do
  let principal ← d.principal authorization now
  d.verify_read_access x_api_key
  let (ticket, expires_at) ←
    (issue_ticket d.sign d.settings.ticket_ttl_seconds (console_issue nonce now)).mapError .uncaught
  return (principal, ticket, expires_at)

-- What stands before the body of `send_command`: the client's credential, then the person's role.
def send_command (x_api_key x_console_ticket authorization : Option (List Char)) (now : ℚ) :
    Except Raised Principal := do
  verify_console_access d.sign d.decimal d.telemetry_api_key x_api_key x_console_ticket now
  let principal ← d.principal authorization now
  require_role OPERATOR principal

end Deployment

-- A sign-in that succeeded.
structure SignIn where
  now : ℚ
  user : User
  credentials : LoginRequest
  token : List Char
  expires_at : Int

-- A console ticket and the principal it was given to.
structure Mint where
  now : ℚ
  nonce : Nonce
  principal : Principal

def Mint.issue (m : Mint) : Issue := Deployment.console_issue m.nonce m.now

structure Dispatch where
  now : ℚ
  principal : Principal
  robot_id : Int
  x_api_key : Option (List Char)
  x_console_ticket : Option (List Char)
  authorization : Option (List Char)

-- A socket that was let in to the live feed.
structure Watch where
  now : ℚ
  api_key : Option (List Char)
  ticket : Option (List Char)

-- The accounts and, for the record, what has been signed and let in so far.
structure Console where
  now : ℚ
  users : List User
  signed : List SignIn
  minted : List Mint
  dispatched : List Dispatch
  watching : List Watch

def Console.start (now : ℚ) (users : List User) : Console := ⟨now, users, [], [], [], []⟩

inductive Request where
  | tick (seconds : ℚ)
  -- accounts are created, changed, disabled and deleted by hand
  | edit (users : List User)
  -- `recorded`: the stamp of the last login was written
  | login (credentials : LoginRequest) (recorded : Bool)
  | ticket (authorization x_api_key : Option (List Char)) (nonce : Nonce)
  | command (robot_id : Int) (x_api_key x_console_ticket authorization : Option (List Char))
  | watch (api_key ticket : Option (List Char))

-- The clock does not go back. A request that is refused changes nothing. A sign-in is one step, from
-- its query to its token: an edit of the accounts in between, which leaves it its token, is left out.
def Deployment.step (d : Deployment) (s : Console) : Request → Option Console
  | .tick seconds => if 0 ≤ seconds then some { s with now := s.now + seconds } else none
  | .edit users => some { s with users }
  | .login credentials recorded =>
      match get_by_username s.users credentials.username, (d.login s.users credentials s.now).answer with
      | some user, .ok response => some { s with
          users := if recorded then touch_last_login s.users user.id s.now else s.users
          signed := s.signed ++
            [⟨s.now, user, credentials, response.access_token, response.expires_at⟩] }
      | _, _ => some s
  | .ticket authorization x_api_key nonce =>
      match d.create_console_ticket authorization x_api_key nonce s.now with
      | .ok (principal, _) => some { s with
          minted := s.minted ++ [⟨s.now, nonce, principal⟩] }
      | .error _ => some s
  | .command robot_id x_api_key x_console_ticket authorization =>
      match d.send_command x_api_key x_console_ticket authorization s.now with
      | .ok principal => some { s with
          dispatched := s.dispatched ++
            [⟨s.now, principal, robot_id, x_api_key, x_console_ticket, authorization⟩] }
      | .error _ => some s
  | .watch api_key ticket =>
      match websocket_endpoint d.sign d.decimal d.telemetry_api_key api_key ticket s.now with
      | .ok .connect => some { s with watching := s.watching ++ [⟨s.now, api_key, ticket⟩] }
      | _ => some s

-- The header and the ticket that come with a request.
def Request.authorization : Request → Option (List Char)
  | .ticket authorization _ _ => authorization
  | .command _ _ _ authorization => authorization
  | _ => none

def Request.console_ticket : Request → Option (List Char)
  | .command _ _ x_console_ticket _ => x_console_ticket
  | .watch _ given => given
  | _ => none

-- Only what was signed here has a signature that holds.
def Deployment.Unforged (d : Deployment) (s : Console) (r : Request) : Prop :=
  (∀ token claims, bearer_token r.authorization = some token →
    d.jwt.decode token d.key s.now = some claims → ∃ i ∈ s.signed, i.token = token) ∧
  (∀ payload, r.console_ticket = some (payload ++ FIELD_SEP :: d.sign payload) →
    ∃ m ∈ s.minted, m.issue.payload d.settings.ticket_ttl_seconds = .ok payload)

-- The account was there with this password and in use.
structure SignIn.Sound (d : Deployment) (i : SignIn) : Prop where
  username : i.user.username = i.credentials.username
  password : verify_password d.bcrypt i.credentials.password i.user.password_hash = true
  active : i.user.is_active = true
  issued : issue_access_token d.jwt d.sha256 d.settings i.user.username i.user.role none i.now =
    some (i.token, i.expires_at)

-- The sign-in stands for this principal at this time.
structure SignIn.Vouches (i : SignIn) (now : ℚ) (principal : Principal) : Prop where
  since : i.now ≤ now
  alive : now < i.expires_at
  known : i.user.role ∈ ROLES
  principal : principal = ⟨i.user.username, i.user.role, true⟩

def Mint.expires_at (d : Deployment) (m : Mint) : Int := m.issue.expires_at d.settings.ticket_ttl_seconds

-- The master key, or a ticket that has not expired.
def Console.Admitted (d : Deployment) (s : Console) (now : ℚ) (api_key : Option (List Char)) : Prop :=
  api_key = some d.telemetry_api_key ∨ ∃ m ∈ s.minted, m.now ≤ now ∧ now < m.expires_at d

structure Console.Sound (d : Deployment) (s : Console) : Prop where
  now : 0 ≤ s.now
  signed : ∀ i ∈ s.signed, i.Sound d ∧ 0 ≤ i.now ∧ i.now ≤ s.now
  minted : ∀ m ∈ s.minted, m.now ≤ s.now ∧ ∃ i ∈ s.signed, i.Vouches m.now m.principal
  dispatched : ∀ x ∈ s.dispatched, (∃ i ∈ s.signed, i.Vouches x.now x.principal) ∧
    role_satisfies x.principal.role OPERATOR = true ∧ s.Admitted d x.now x.x_api_key
  watching : ∀ w ∈ s.watching, s.Admitted d w.now w.api_key

section Requests

variable {d : Deployment}

theorem mapError_eq_ok {α : Type} {x : Except TicketError α} {a : α}
    (h : x.mapError Raised.uncaught = .ok a) : x = .ok a := by
  cases x with
  | ok b =>
      cases h
      rfl
  | error e => cases h

theorem eq_of_is_valid_api_key {candidate : Option (List Char)} {key : List Char}
    (h : is_valid_api_key key candidate = .ok true) : candidate = some key := by
  cases candidate with
  | none => cases h
  | some text =>
      cases text with
      | nil => cases h
      | cons c text => exact congrArg some (compare_digest_eq_true.mp h).1

theorem truncate_le {t : ℚ} (h : 0 ≤ t) : (truncate t : ℚ) ≤ t := by
  rw [truncate, if_pos h]
  exact Int.floor_le t

theorem truncate_nonpos {t : ℚ} (h : t < 0) : truncate t ≤ 0 := by
  rw [truncate, if_neg (not_le.mpr h)]
  exact Int.ceil_le.mpr (by exact_mod_cast h.le)

theorem issue_access_token_eq_some {username role : String} {ttl_seconds : Option Int} {now : ℚ}
    {token : List Char} {expires_at : Int}
    (h : issue_access_token d.jwt d.sha256 d.settings username role ttl_seconds now =
      some (token, expires_at)) :
    expires_at = truncate (now + ttl_seconds.getD d.settings.jwt_ttl_seconds) ∧
      token = d.jwt.encode ⟨username, role, truncate now, expires_at⟩ d.key := by
  rw [issue_access_token] at h
  split at h
  · simp only [Option.some.injEq, Prod.mk.injEq] at h
    obtain ⟨rfl, rfl⟩ := h
    exact ⟨rfl, rfl⟩
  · cases h

-- A sign-in that is answered with a token found an account with this password, in use.
theorem login_eq_ok {users : List User} {credentials : LoginRequest} {now : ℚ} {user : User}
    {response : TokenResponse} (huser : get_by_username users credentials.username = some user)
    (h : (d.login users credentials now).answer = .ok response) :
    d.settings.auth_required = true ∧
      SignIn.Sound d ⟨now, user, credentials, response.access_token, response.expires_at⟩ := by
  have hname := List.find?_some huser
  rw [Deployment.login, huser] at h
  split at h
  · cases h
  · rename_i hmode
    simp only at h
    split at h
    · cases h
    · rename_i hpassword
      split at h
      · cases h
      · rename_i hactive
        split at h
        · cases h
        · rename_i access_token expires_at hissue
          cases h
          simp only [Bool.not_eq_true', Bool.not_eq_false] at hmode hpassword hactive
          exact ⟨hmode, beq_iff_eq.mp hname, hpassword, hactive, hissue⟩

-- What a sign-in signed decodes until it expires, whatever became of the account.
theorem SignIn.Sound.decode (hideal : d.jwt.Ideal) {i : SignIn} (hi : i.Sound d) (hnow : 0 ≤ i.now)
    {now : ℚ} (hsince : i.now ≤ now) :
    decode_access_token d.jwt d.sha256 d.settings i.token now =
      if now < i.expires_at ∧ i.user.role ∈ ROLES then some (i.user.username, i.user.role) else none := by
  obtain ⟨-, htoken⟩ := issue_access_token_eq_some hi.issued
  have hissued : (truncate i.now : ℚ) ≤ now := (truncate_le hnow).trans hsince
  have hname : i.user.username ≠ "" := by
    rw [hi.username]
    intro hempty
    have hmin := i.credentials.username_min
    rw [hempty] at hmin
    exact absurd hmin (by decide)
  have hdecode : decode_access_token d.jwt d.sha256 d.settings _ now = _ :=
    decode_access_token_encode hideal ⟨i.user.username, i.user.role, truncate i.now, i.expires_at⟩ now
  rw [htoken, Deployment.key]
  simpa [hissued, hname] using hdecode

-- In required mode whoever is let in has signed in before.
theorem vouched_of_principal (hideal : d.jwt.Ideal) (hmode : d.settings.auth_required = true)
    {s : Console} (hs : s.Sound d) {r : Request} (hr : d.Unforged s r) {principal : Principal}
    (h : d.principal r.authorization s.now = .ok principal) :
    ∃ i ∈ s.signed, bearer_token r.authorization = some i.token ∧ i.Vouches s.now principal := by
  obtain ⟨token, hbearer, hdecode, hauth⟩ := (current_principal_required hmode).mp h
  obtain ⟨i, hi, rfl⟩ := hr.1 token _ hbearer (decode_of_decode_access_token hdecode)
  obtain ⟨hsound, hpos, hsince⟩ := hs.signed i hi
  rw [hsound.decode hideal hpos hsince] at hdecode
  split at hdecode
  · rename_i hlive
    obtain ⟨username, role, authenticated⟩ := principal
    simp only [Option.some.injEq, Prod.mk.injEq] at hdecode hauth
    obtain ⟨rfl, rfl⟩ := hdecode
    subst hauth
    exact ⟨i, hi, hbearer, hsince, hlive.1, hlive.2, rfl⟩
  · cases hdecode

theorem admitted_of_ticket (hsign : ∀ payload, Hex (d.sign payload)) {s : Console} {r : Request}
    (hr : d.Unforged s r) {now : ℚ}
    (h : verify_ticket d.sign d.decimal r.console_ticket SCOPE_CONSOLE now = .ok true) :
    ∃ m ∈ s.minted, now < m.expires_at d := by
  obtain ⟨ticket, ticket_scope, expires_raw, nonce, expires_at, hticket, hfields, -, hint, hnow⟩ :=
    (verify_ticket_holds hsign (by decide) _ _).mp h
  have hsplit : ticket = join [VERSION, ticket_scope, expires_raw, nonce] ++ FIELD_SEP ::
      d.sign (join [VERSION, ticket_scope, expires_raw, nonce]) := by
    rw [← join_five, ← hfields, join_splitOn]
  obtain ⟨m, hm, hpayload⟩ := hr.2 _ (hticket.trans (congrArg some hsplit))
  obtain ⟨written, hwritten, hjoin⟩ := payload_eq_ok hpayload
  -- the four fields that were signed are those that were presented
  have hread : (join [VERSION, m.issue.scope, written, m.issue.nonce.text]).splitOn FIELD_SEP =
      [VERSION, ticket_scope, expires_raw, nonce] := by
    rw [hsplit, List.splitOn_append_cons_self, List.splitOn_eq_singleton (hsign _).dot_not_mem] at hfields
    rw [hjoin]
    exact List.append_cancel_right hfields
  obtain ⟨-, -, rfl⟩ := scope_of_splitOn (dot_not_mem_str hwritten) hread
  rw [int_str hwritten] at hint
  obtain rfl := Option.some.inj hint
  exact ⟨m, hm, hnow⟩

theorem bind_eq_ok {α β : Type} {x : Except Raised α} {f : α → Except Raised β} {b : β}
    (h : x >>= f = .ok b) : ∃ a, x = .ok a ∧ f a = .ok b := by
  cases x with
  | ok a => exact ⟨a, rfl, h⟩
  | error e => cases h

theorem create_console_ticket_eq_ok {authorization x_api_key : Option (List Char)} {nonce : Nonce}
    {now : ℚ} {principal : Principal} {ticket : List Char × Int}
    (h : d.create_console_ticket authorization x_api_key nonce now = .ok (principal, ticket)) :
    d.principal authorization now = .ok principal := by
  obtain ⟨p, hp, h⟩ := bind_eq_ok h
  obtain ⟨-, -, h⟩ := bind_eq_ok h
  obtain ⟨issued, -, h⟩ := bind_eq_ok h
  cases h
  exact hp

-- The three checks that let a command pass.
theorem send_command_eq_ok {x_api_key x_console_ticket authorization : Option (List Char)} {now : ℚ}
    {principal : Principal}
    (h : d.send_command x_api_key x_console_ticket authorization now = .ok principal) :
    (x_api_key = some d.telemetry_api_key ∨
      verify_ticket d.sign d.decimal x_console_ticket SCOPE_CONSOLE now = .ok true) ∧
    d.principal authorization now = .ok principal ∧
    role_satisfies principal.role OPERATOR = true := by
  obtain ⟨passed, haccess, h⟩ := bind_eq_ok h
  obtain ⟨p, hp, h⟩ := bind_eq_ok h
  have hrole : role_satisfies p.role OPERATOR = true ∧ p = principal := by
    rw [require_role] at h
    split at h
    · cases h
    · rename_i hrole
      cases h
      exact ⟨by simpa using hrole, rfl⟩
  obtain ⟨hrole, rfl⟩ := hrole
  refine ⟨?_, hp, hrole⟩
  rw [verify_console_access] at haccess
  obtain ⟨valid, hvalid, haccess⟩ := bind_eq_ok haccess
  cases valid with
  | true => exact .inl (eq_of_is_valid_api_key (mapError_eq_ok hvalid))
  | false =>
      obtain ⟨verified, hverified, haccess⟩ := bind_eq_ok haccess
      cases verified with
      | true => exact .inr (mapError_eq_ok hverified)
      | false => cases haccess

theorem connect_eq_ok {api_key ticket : Option (List Char)} {now : ℚ}
    (h : websocket_endpoint d.sign d.decimal d.telemetry_api_key api_key ticket now = .ok .connect) :
    api_key = some d.telemetry_api_key ∨
      verify_ticket d.sign d.decimal ticket SCOPE_CONSOLE now = .ok true := by
  rw [websocket_endpoint] at h
  obtain ⟨verified, hverified, h⟩ := bind_ok h
  cases verified with
  | true => exact .inr hverified
  | false =>
      obtain ⟨valid, hvalid, h⟩ := bind_ok h
      cases valid with
      | true => exact .inl (eq_of_is_valid_api_key hvalid)
      | false => cases h

end Requests

end FleetOps.Auth
