import FleetOps.Json

namespace FleetOps

-- The columns of the tables: what each makes of a value, `none` where it refuses it.
section Columns

def int32 (value : Int) : Bool := decide (-2 ^ 31 ≤ value ∧ value < 2 ^ 31)

abbrev Integer := { value : Int // int32 value }
abbrev Varchar (n : Nat) := { s : String // s.length ≤ n }

def optional {α : Type} (json : α → Json) (value : Option α) : Json := (value.map json).getD .null

def integer : Json → Option Integer
  | .int value => if h : int32 value then some ⟨value, h⟩ else none
  | _ => none

def double : Json → Option PyFloat
  | .float value => some value
  | .int value => some (.finite value)
  | _ => none

-- A longer text is refused unless its excess is blanks, which are cut off.
def varchar (n : Nat) : Json → Option (Varchar n)
  | .str text =>
      if h : text.length ≤ n then some ⟨text, h⟩
      else if (text.toList.drop n).all (· == ' ') then
        some ⟨String.ofList (text.toList.take n), by
          rw [String.length_ofList, List.length_take]
          exact Nat.min_le_left _ _⟩
      else none
  | _ => none

def nullable {α : Type} (column : Json → Option α) : Json → Option (Option α)
  | .null => some none
  | value => (column value).map some

def fits (n : Nat) (text : String) : Bool :=
  decide (text.length ≤ n) || (text.toList.drop n).all (· == ' ')

-- Too long, and by blanks only.
def padded (n : Nat) (text : String) : Bool :=
  decide (n < text.length) && (text.toList.drop n).all (· == ' ')

theorem integer_eq_some {value : Int} {column : Integer} (h : integer (.int value) = some column) :
    column.val = value := by
  simp only [integer] at h
  split at h <;> cases h
  rfl

theorem varchar_val {n : Nat} (column : Varchar n) : varchar n (.str column.val) = some column := by
  rw [varchar, dif_pos column.property]

-- A text is kept as it is, or without the blanks it is too long by.
theorem varchar_eq_some {n : Nat} {text : String} {column : Varchar n}
    (h : varchar n (.str text) = some column) : column.val = text ∨ padded n text = true := by
  simp only [varchar] at h
  split at h
  · cases h
    exact .inl rfl
  · rename_i hlong
    split at h
    · rename_i hblank
      exact .inr (by rw [padded, hblank, decide_eq_true (Nat.lt_of_not_le hlong)]; rfl)
    · cases h

theorem nullable_varchar_val {n : Nat} (column : Option (Varchar n)) :
    nullable (varchar n) (optional .str (column.map Subtype.val)) = some column := by
  cases column with
  | none => rfl
  | some column => exact congrArg (Option.map some) (varchar_val column)

theorem nullable_varchar_eq_some {n : Nat} {value : Option String} {column : Option (Varchar n)}
    (h : nullable (varchar n) (optional .str value) = some column) :
    column.map Subtype.val = value ∨ value.any (padded n) = true := by
  cases value with
  | none =>
      cases h
      exact .inl rfl
  | some text =>
      obtain ⟨kept, hkept, rfl⟩ := Option.map_eq_some_iff.mp h
      exact (varchar_eq_some hkept).imp_left (congrArg some)

theorem isSome_of_nullable_varchar {n : Nat} {value : Option String} {column : Option (Varchar n)}
    (h : nullable (varchar n) (optional .str value) = some column) :
    column.isSome = value.isSome := by
  cases value with
  | none =>
      cases h
      rfl
  | some text =>
      obtain ⟨kept, _, rfl⟩ := Option.map_eq_some_iff.mp h
      rfl

theorem integer_isSome (value : Int) : (integer (.int value)).isSome = int32 value := by
  by_cases h : int32 value = true <;> simp [integer, h]

theorem double_written_isSome (value : PyFloat) :
    (double (Json.float value).written).isSome = value.isFinite := by
  cases value <;> rfl

theorem nullable_double_written (value : Option PyFloat) :
    (nullable double (optional .float value).written).isSome = true := by
  cases value with
  | none => rfl
  | some value => cases value <;> rfl

theorem nullable_varchar_isSome (n : Nat) (value : Option String) :
    (nullable (varchar n) (optional .str value)).isSome = value.all (fits n) := by
  cases value with
  | none => rfl
  | some text =>
      by_cases hlen : text.length ≤ n
      · simp [optional, nullable, varchar, fits, hlen]
      · by_cases hblank : (text.toList.drop n).all (· == ' ') = true <;>
          simp [optional, nullable, varchar, fits, hlen, hblank]

end Columns

end FleetOps
