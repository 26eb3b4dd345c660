import Mathlib

namespace FleetOps.Auth

inductive PasswordError where
  | value_error (message : String)
  | type_error
  -- a `ValueError` too
  | unicode_decode_error

-- The library below the two functions: `gensalt` draws the salt, `checkpw` may raise on a hash
-- it cannot read.
structure Bcrypt where
  Salt : Type
  hashpw : ByteArray → Salt → ByteArray
  checkpw : ByteArray → ByteArray → Except PasswordError Bool

-- `bytes.decode("utf-8")`
def decode (bytes : ByteArray) : Except PasswordError String :=
  match String.fromUTF8? bytes with
  | some text => .ok text
  | none => .error .unicode_decode_error

def hash_password (bcrypt : Bcrypt) (plaintext : String) (salt : bcrypt.Salt) :
    Except PasswordError String :=
  let encoded := plaintext.toUTF8
  if encoded.size > 72 then .error (.value_error "Password must be 72 bytes or fewer")
  else decode (bcrypt.hashpw encoded salt)

def verify_password (bcrypt : Bcrypt) (plaintext password_hash : String) : Bool :=
  match bcrypt.checkpw (plaintext.toUTF8.extract 0 72) password_hash.toUTF8 with
  | .ok same => same
  | .error _ => false

-- Lengths of both fields are in characters.
structure LoginRequest where
  username : String
  password : String
  username_min : 1 ≤ username.length
  username_max : username.length ≤ 64
  password_min : 1 ≤ password.length
  password_max : password.length ≤ 72

-- A hash is text, and on inputs of at most 72 bytes it is checked by its own input only.
structure Bcrypt.Ideal (bcrypt : Bcrypt) : Prop where
  text : ∀ bytes salt, ∃ hash : String, bcrypt.hashpw bytes salt = hash.toUTF8
  checkpw : ∀ given kept salt, given.size ≤ 72 → kept.size ≤ 72 →
    (bcrypt.checkpw given (bcrypt.hashpw kept salt) = .ok true ↔ given = kept)

section Passwords

variable {bcrypt : Bcrypt}

theorem decode_toUTF8 (text : String) : decode text.toUTF8 = .ok text := by
  have htext : String.fromUTF8? text.toUTF8 = some text := by
    rw [String.fromUTF8?, String.toUTF8_eq_toByteArray, dif_pos text.isValidUTF8]
    rfl
  rw [decode, htext]

theorem hash_password_of_size_le {plaintext : String} (h : plaintext.toUTF8.size ≤ 72)
    (salt : bcrypt.Salt) :
    hash_password bcrypt plaintext salt = decode (bcrypt.hashpw plaintext.toUTF8 salt) :=
  if_neg (Nat.not_lt.mpr h)

theorem hash_password_eq_ok (hideal : bcrypt.Ideal) {plaintext password_hash : String}
    {salt : bcrypt.Salt} (h : hash_password bcrypt plaintext salt = .ok password_hash) :
    plaintext.toUTF8.size ≤ 72 ∧ bcrypt.hashpw plaintext.toUTF8 salt = password_hash.toUTF8 := by
  rw [hash_password] at h
  split at h
  · cases h
  · rename_i hsize
    obtain ⟨hash, hhash⟩ := hideal.text plaintext.toUTF8 salt
    rw [hhash, decode_toUTF8] at h
    obtain rfl := Except.ok.inj h
    exact ⟨Nat.not_lt.mp hsize, hhash⟩

-- What is compared is the first 72 bytes of what is presented.
theorem verify_password_eq_true (hideal : bcrypt.Ideal) {plaintext password_hash : String}
    {salt : bcrypt.Salt} (h : hash_password bcrypt plaintext salt = .ok password_hash)
    (presented : String) : verify_password bcrypt presented password_hash = true ↔
      presented.toUTF8.extract 0 72 = plaintext.toUTF8 := by
  obtain ⟨hsize, hhash⟩ := hash_password_eq_ok hideal h
  have hpresented : (presented.toUTF8.extract 0 72).size ≤ 72 := by
    rw [ByteArray.size_extract]
    omega
  rw [← hideal.checkpw _ _ salt hpresented hsize, hhash, verify_password]
  cases bcrypt.checkpw (presented.toUTF8.extract 0 72) password_hash.toUTF8 with
  | ok same => simp
  | error e => simp

theorem extract_of_size_le {bytes : ByteArray} {limit : Nat} (h : bytes.size ≤ limit) :
    bytes.extract 0 limit = bytes := by
  have hall : bytes.extract 0 limit = bytes.extract 0 bytes.size := by
    ext1
    rw [ByteArray.data_extract, ByteArray.data_extract, Array.extract_eq_self_of_le h]
    exact Array.extract_size.symm
  rw [hall, ByteArray.extract_zero_size]

-- A password is the only one for its hash as far as the limit in bytes reaches.
theorem verify_password_iff (hideal : bcrypt.Ideal) {plaintext password_hash : String}
    {salt : bcrypt.Salt} (h : hash_password bcrypt plaintext salt = .ok password_hash)
    (request : LoginRequest) :
    (verify_password bcrypt request.password password_hash = true ↔ request.password = plaintext) ↔
      request.password.toUTF8.size ≤ 72 ∨
        request.password.toUTF8.extract 0 72 ≠ plaintext.toUTF8 := by
  have hsize := (hash_password_eq_ok hideal h).1
  rw [verify_password_eq_true hideal h]
  by_cases hlong : request.password.toUTF8.size ≤ 72
  · simp only [hlong, true_or, iff_true, extract_of_size_le hlong]
    exact String.toByteArray_inj
  · have hne : request.password ≠ plaintext := by
      intro heq
      rw [heq] at hlong
      exact hlong hsize
    simp only [hlong, hne, iff_false, false_or, ne_eq]

-- A library that keeps what it is given, a character for each byte.
def written (bytes : ByteArray) : String := String.ofList (bytes.data.toList.map Char.ofUInt8)

def plainBcrypt : Bcrypt where
  Salt := Unit
  hashpw := fun bytes _ => (written bytes).toUTF8
  checkpw := fun given hash => .ok (decide ((written given).toUTF8 = hash))

theorem written_injective {given kept : ByteArray} (h : written given = written kept) : given = kept := by
  have hchar : Function.Injective Char.ofUInt8 := by
    intro a b hab
    have hval : a.toUInt32 = b.toUInt32 := congrArg Char.val hab
    exact UInt8.toUInt32_inj.mp hval
  have hlist := String.ofList_injective h
  ext1
  exact Array.toList_inj.mp (hchar.list_map hlist)

theorem plainBcrypt_ideal : plainBcrypt.Ideal where
  text := fun _ _ => ⟨_, rfl⟩
  checkpw := by
    intro given kept salt _ _
    constructor
    · intro h
      exact written_injective (String.toByteArray_inj.mp (of_decide_eq_true (Except.ok.inj h)))
    · rintro rfl
      exact congrArg Except.ok (decide_eq_true rfl)

def shortRequest : LoginRequest where
  username := "a"
  password := "x"
  username_min := by decide
  username_max := by decide
  password_min := by decide
  password_max := by decide

theorem hash_password_plain {plaintext : String} (h : plaintext.toUTF8.size ≤ 72) :
    hash_password plainBcrypt plaintext () = .ok (written plaintext.toUTF8) :=
  (hash_password_of_size_le h _).trans (decode_toUTF8 _)

theorem verify_password_short :
    verify_password plainBcrypt shortRequest.password (written "x".toUTF8) = true ↔
      shortRequest.password = "x" := by
  have hhash : hash_password plainBcrypt "x" () = _ := hash_password_plain (by decide)
  exact (verify_password_iff plainBcrypt_ideal hhash shortRequest).mpr (.inl (by decide))

-- 36 characters of two bytes each.
def longPassword : String := String.ofList (List.replicate 36 'é')

def longRequest : LoginRequest where
  username := "a"
  password := longPassword ++ "a"
  username_min := by decide
  username_max := by decide
  password_min := by decide
  password_max := by decide

-- Its one character too many falls off the end, and it verifies for another password.
theorem longer_password_verifies :
    hash_password plainBcrypt longPassword () = .ok (written longPassword.toUTF8) ∧
      verify_password plainBcrypt longRequest.password (written longPassword.toUTF8) = true ∧
      longRequest.password ≠ longPassword := by
  have hsize : longPassword.toUTF8.size = 72 := by decide
  have hhash := hash_password_plain (Nat.le_of_eq hsize)
  refine ⟨hhash, (verify_password_eq_true plainBcrypt_ideal hhash _).mpr ?_, by decide⟩
  have happend : longRequest.password.toUTF8 = longPassword.toUTF8 ++ "a".toUTF8 :=
    String.toByteArray_append
  rw [happend, ByteArray.extract_append_eq_left hsize.symm]

end Passwords

end FleetOps.Auth
