import FleetOps.Auth.Vouched

namespace FleetOps.Auth

variable {d : Deployment}

-- The account is there and the password is its own.
def Deployment.Right (d : Deployment) (users : List User) (credentials : LoginRequest) : Prop :=
  ∃ user, get_by_username users credentials.username = some user ∧
    verify_password d.bcrypt credentials.password user.password_hash = true

-- What a caller sees of an attempt: the answer, and in its time the passwords that were hashed.
structure Seen where
  answer : Except Refusal TokenResponse
  hashed : List String

def Deployment.observe (d : Deployment) (users : List User) (credentials : LoginRequest) (now : ℚ) : Seen :=
  let attempt := d.login users credentials now
  ⟨attempt.answer, attempt.verified.map Prod.fst⟩

-- One attempt after another, each chosen by what was seen so far, against the accounts as they
-- are at that moment.
def Deployment.guess (d : Deployment) (strategy : List Seen → LoginRequest × ℚ)
    (accounts : Nat → List User) : Nat → List Seen
  | 0 => []
  | n + 1 =>
      let seen := d.guess strategy accounts n
      let (credentials, now) := strategy seen
      seen ++ [d.observe (accounts n) credentials now]

-- The answer to an attempt that presents no right password.
def Deployment.rejection (d : Deployment) (credentials : LoginRequest) : Seen :=
  if d.settings.auth_required then
    ⟨.error (.http_exception 401 "Invalid username or password"), [credentials.password]⟩
  else
    ⟨.error (.http_exception 404
      "This deployment runs with AUTH_MODE=open; there is nothing to sign in to."), []⟩

theorem observe_of_not_right {users : List User} {credentials : LoginRequest}
    (h : ¬d.Right users credentials) (now : ℚ) :
    d.observe users credentials now = d.rejection credentials := by
  rw [Deployment.observe, Deployment.rejection, Deployment.login]
  cases hmode : d.settings.auth_required with
  | false => simp
  | true =>
      cases hfound : get_by_username users credentials.username with
      | none => simp
      | some user =>
          have hwrong : verify_password d.bcrypt credentials.password user.password_hash = false := by
            rw [← Bool.not_eq_true]
            exact fun hright => h ⟨user, hfound, hright⟩
          simp [hwrong]

-- Guessing without ever presenting a right password tells one set of accounts from no other,
-- neither by an answer nor by the work done for it, whatever is tried and however the accounts
-- change meanwhile.
theorem guesses_alike (strategy : List Seen → LoginRequest × ℚ) (accounts others : Nat → List User)
    (n : Nat)
    (hwrong : ∀ k < n, ¬d.Right (accounts k) (strategy (d.guess strategy accounts k)).1)
    (hwrong' : ∀ k < n, ¬d.Right (others k) (strategy (d.guess strategy others k)).1) :
    d.guess strategy accounts n = d.guess strategy others n := by
  induction n with
  | zero => rfl
  | succ n ih =>
      have hseen := ih (fun k hk => hwrong k (Nat.lt_succ_of_lt hk)) fun k hk =>
        hwrong' k (Nat.lt_succ_of_lt hk)
      have hlast := observe_of_not_right (hwrong n (Nat.lt_succ_self n))
        (strategy (d.guess strategy accounts n)).2
      have hlast' := observe_of_not_right (hwrong' n (Nat.lt_succ_self n))
        (strategy (d.guess strategy others n)).2
      rw [← hseen] at hlast'
      simp only [Deployment.guess, ← hseen]
      rw [hlast, hlast']

section Example

def otherUser : User := ⟨1, "a", written "y".toUTF8, OPERATOR, false, none⟩

def twiceTheSame (_ : List Seen) : LoginRequest × ℚ := (shortRequest, 1000)

theorem otherUser_not_right : ¬plainDeployment.Right [otherUser] shortRequest := by
  rintro ⟨user, hfound, hright⟩
  obtain rfl := List.mem_singleton.mp (List.mem_of_find?_eq_some hfound)
  have hhash : hash_password plainBcrypt "y" () = _ := hash_password_plain (by decide)
  exact absurd ((verify_password_eq_true plainBcrypt_ideal hhash "x").mp hright) (by decide)

theorem guesses_alike_twice : plainDeployment.guess twiceTheSame (fun _ => []) 2 =
    plainDeployment.guess twiceTheSame (fun _ => [otherUser]) 2 := by
  refine guesses_alike twiceTheSame _ _ 2 ?_ fun _ _ => otherUser_not_right
  rintro k - ⟨user, hfound, -⟩
  cases hfound

end Example

end FleetOps.Auth
