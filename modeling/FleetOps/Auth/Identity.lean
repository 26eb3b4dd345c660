import FleetOps.Auth.Access
import FleetOps.Auth.Passwords
import FleetOps.Config

namespace FleetOps.Auth

open Text

def VIEWER : String := "viewer"

def OPERATOR : String := "operator"

def ADMIN : String := "admin"

-- Least to most privileged.
def ROLES : List String := [VIEWER, OPERATOR, ADMIN]

-- `_RANK`
def rank (role : String) : Option Nat := ROLES.findIdx? fun known => known == role

def role_satisfies (actual required : String) : Bool :=
  match rank actual, rank required with
  | some a, some b => decide (b ≤ a)
  | _, _ => false

-- What `issue_access_token` signs.
structure Payload where
  sub : String
  role : String
  iat : Int
  exp : Int

-- What the code reads of a token's claims; `none` for a claim that is not there.
structure Claims where
  sub : Option String
  role : Option String

-- PyJWT below the two functions. `decode` is `none` where it raises `InvalidTokenError`.
structure Jwt where
  encode : Payload → String → List Char
  decode : List Char → String → ℚ → Option Claims

structure AuthSettings extends Settings where
  jwt_ttl_seconds : Int
  ticket_ttl_seconds : Int
  require_auth_for_reads : Bool
  bootstrap_admin_username : Option String
  bootstrap_admin_password : Option String

structure Principal where
  username : String
  role : String
  authenticated : Bool
  deriving DecidableEq

def Principal.anonymous : Principal := ⟨"anonymous", OPERATOR, false⟩

-- The seconds of the years that a datetime may have.
def DATETIME_MIN : ℚ := -62135596800

def DATETIME_END : ℚ := 253402300800

section Tokens

variable (jwt : Jwt) (sha256 : String → String) (settings : AuthSettings)

-- `sha256` is up to its hex digest. An empty secret is none.
def signing_key : String :=
  let secret := settings.jwt_secret.getD ""
  if secret ≠ "" then secret else sha256 (settings.telemetry_api_key ++ "jwt")

-- `none` is the `OverflowError` of a lifetime beyond the year 9999.
def issue_access_token (username role : String) (ttl_seconds : Option Int) (now : ℚ) :
    Option (List Char × Int) :=
  let expires_at := now + ttl_seconds.getD settings.jwt_ttl_seconds
  if DATETIME_MIN ≤ expires_at ∧ expires_at < DATETIME_END then
    let payload : Payload := ⟨username, role, truncate now, truncate expires_at⟩
    some (jwt.encode payload (signing_key sha256 settings), truncate expires_at)
  else none

-- The name and the role of a token that is valid now.
def decode_access_token (token : List Char) (now : ℚ) : Option (String × String) :=
  match jwt.decode token (signing_key sha256 settings) now with
  | some ⟨some sub, some role⟩ =>
      if sub ≠ "" ∧ (rank role).isSome then some (sub, role) else none
  | _ => none

-- `authorization.partition(" ")`, without the blank
def partition (s : List Char) : List Char × List Char :=
  (s.takeWhile (· != ' '), (s.dropWhile (· != ' ')).drop 1)

-- No letter outside ASCII is lowered to a letter of this scheme.
def bearer_token (authorization : Option (List Char)) : Option (List Char) :=
  match authorization with
  | none | some [] => none
  | some authorization =>
      let (scheme, token) := partition authorization
      if scheme.map Char.toLower ≠ "bearer".toList ∨ strip token = [] then none
      else some (strip token)

def current_principal (authorization : Option (List Char)) (now : ℚ) : Except Raised Principal :=
  match bearer_token authorization with
  | none =>
      if settings.auth_required then .error (.http_exception 401 "Not authenticated")
      else .ok .anonymous
  | some token =>
      match decode_access_token jwt sha256 settings token now with
      | none => .error (.http_exception 401 "Invalid or expired token")
      | some (sub, role) => .ok ⟨sub, role, true⟩

end Tokens

def require_role (required : String) (principal : Principal) : Except Raised Principal :=
  if !role_satisfies principal.role required then
    .error (.http_exception 403 ("Requires the " ++ required ++ " role"))
  else .ok principal

-- Signed claims are read back from their second of issue on and until they expire; a token is
-- a text without blanks.
structure Jwt.Ideal (jwt : Jwt) : Prop where
  decode_encode : ∀ payload key now, jwt.decode (jwt.encode payload key) key now =
    if payload.iat ≤ now ∧ now < payload.exp then some ⟨some payload.sub, some payload.role⟩ else none
  no_blank : ∀ payload key, ∀ c ∈ jwt.encode payload key, isSpace c = false
  nonempty : ∀ payload key, jwt.encode payload key ≠ []

section Roles

theorem rank_isSome (role : String) : (rank role).isSome = true ↔ role ∈ ROLES := by
  rw [rank, List.findIdx?_isSome, List.any_eq_true]
  constructor
  · rintro ⟨known, hknown, heq⟩
    exact beq_iff_eq.mp heq ▸ hknown
  · intro hmem
    exact ⟨role, hmem, beq_self_eq_true role⟩

-- A role that satisfies any requirement is one of the known ones.
theorem mem_roles_of_satisfies {actual required : String} (h : role_satisfies actual required = true) :
    actual ∈ ROLES := by
  rw [← rank_isSome]
  rw [role_satisfies] at h
  split at h
  · rename_i hactual _
    simp [hactual]
  · cases h

theorem satisfies_operator (role : String) :
    role_satisfies role OPERATOR = true ↔ role = OPERATOR ∨ role = ADMIN := by
  constructor
  · intro h
    have hmem := mem_roles_of_satisfies h
    simp only [ROLES, List.mem_cons, List.not_mem_nil, or_false] at hmem
    rcases hmem with rfl | hmem
    · exact absurd h (by decide)
    · exact hmem
  · rintro (rfl | rfl) <;> decide

end Roles

section Bearer

theorem partition_scheme {scheme : List Char} (hscheme : ' ' ∉ scheme) (token : List Char) :
    partition (scheme ++ ' ' :: token) = (scheme, token) := by
  have hall : ∀ c ∈ scheme, (c != ' ') = true := by
    intro c hc
    simp only [bne_iff_ne, ne_eq]
    rintro rfl
    exact hscheme hc
  rw [partition, List.takeWhile_append_of_pos hall, List.dropWhile_append_of_pos hall]
  simp

-- The header the dashboard sends carries its token.
theorem bearer_token_header {token : List Char} (hblank : ∀ c ∈ token, isSpace c = false)
    (hne : token ≠ []) : bearer_token (some ("Bearer ".toList ++ token)) = some token := by
  have hheader : "Bearer ".toList ++ token = "Bearer".toList ++ ' ' :: token := by simp
  have hstrip := strip_of_no_blank hblank hne
  rw [hheader, bearer_token, partition_scheme (by decide)]
  · simp only [hstrip]
    simp [hne]
  · simp

end Bearer

section Accepted

variable {jwt : Jwt} {sha256 : String → String} {settings : AuthSettings}

theorem decode_access_token_encode (hideal : jwt.Ideal) (payload : Payload) (now : ℚ) :
    decode_access_token jwt sha256 settings (jwt.encode payload (signing_key sha256 settings)) now =
      if payload.iat ≤ now ∧ now < payload.exp ∧ payload.sub ≠ "" ∧ payload.role ∈ ROLES then
        some (payload.sub, payload.role) else none := by
  rw [decode_access_token, hideal.decode_encode]
  by_cases hlive : payload.iat ≤ now ∧ now < payload.exp
  · simp [hlive, rank_isSome]
  · rw [if_neg hlive, if_neg fun h => hlive ⟨h.1, h.2.1⟩]

theorem decode_of_decode_access_token {token : List Char} {now : ℚ} {claims : String × String}
    (h : decode_access_token jwt sha256 settings token now = some claims) :
    jwt.decode token (signing_key sha256 settings) now = some ⟨some claims.1, some claims.2⟩ := by
  rw [decode_access_token] at h
  split at h
  · rename_i sub role hdecode
    split at h
    · cases h
      exact hdecode
    · cases h
  · cases h

-- In required mode nobody is let in without a token that decodes.
theorem current_principal_required (hmode : settings.auth_required = true)
    {authorization : Option (List Char)} {now : ℚ} {principal : Principal} :
    current_principal jwt sha256 settings authorization now = .ok principal ↔
      ∃ token, bearer_token authorization = some token ∧
        decode_access_token jwt sha256 settings token now =
          some (principal.username, principal.role) ∧ principal.authenticated = true := by
  rw [current_principal]
  cases hbearer : bearer_token authorization with
  | none => simp [hmode]
  | some token =>
      simp only [Option.some.injEq, exists_eq_left']
      cases hdecode : decode_access_token jwt sha256 settings token now with
      | none => simp
      | some claims =>
          obtain ⟨sub, role⟩ := claims
          obtain ⟨username, actual, authenticated⟩ := principal
          simp only [Except.ok.injEq, Principal.mk.injEq, Option.some.injEq, Prod.mk.injEq]
          constructor
          · rintro ⟨rfl, rfl, rfl⟩
            simp
          · rintro ⟨⟨rfl, rfl⟩, rfl⟩
            simp

end Accepted

end FleetOps.Auth
