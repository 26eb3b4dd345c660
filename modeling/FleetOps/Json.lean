import Mathlib.Algebra.Group.Int.Defs
import Mathlib.Algebra.Group.Nat.Defs
import Mathlib.Data.Rat.Defs
import FleetOps.Library.Dict

namespace FleetOps

-- A double, up to the sign of zero.
inductive PyFloat where
  | finite (value : Rat)
  | nan
  | inf
  | neg_inf
  deriving DecidableEq

def PyFloat.isFinite : PyFloat → Bool
  | .finite _ => true
  | _ => false

-- The Python values that JSON is written from and read into.
inductive Json where
  | null
  | bool (flag : Bool)
  | int (value : Int)
  | float (value : PyFloat)
  | str (text : String)
  | arr (items : List Json)
  | obj (fields : List (String × Json))

abbrev Dict := List (String × Json)

-- Instants are microseconds on one time line, as `datetime` counts them.
abbrev Instant := Int

section Encoding

-- An integer is written only if it fits in 64 bits, signed or unsigned.
mutual

def Json.encodable : Json → Bool
  | .int value => decide (-2 ^ 63 ≤ value ∧ value < 2 ^ 64)
  | .arr items => encodableItems items
  | .obj fields => encodableFields fields
  | _ => true

def encodableItems : List Json → Bool
  | [] => true
  | item :: items => item.encodable && encodableItems items

def encodableField : String × Json → Bool
  | (_, value) => value.encodable

def encodableFields : List (String × Json) → Bool
  | [] => true
  | field :: fields => encodableField field && encodableFields fields

end

-- What a written value reads back as: JSON has no NaN and no infinities, and
-- null stands for them.
mutual

def Json.written : Json → Json
  | .float value => if value.isFinite then .float value else .null
  | .arr items => .arr (writtenItems items)
  | .obj fields => .obj (writtenFields fields)
  | value => value

def writtenItems : List Json → List Json
  | [] => []
  | item :: items => item.written :: writtenItems items

def writtenField : String × Json → String × Json
  | (key, value) => (key, value.written)

def writtenFields : List (String × Json) → List (String × Json)
  | [] => []
  | field :: fields => writtenField field :: writtenFields fields

end

-- The JSON library, with what its users rely on. The texts it reads may be
-- more than those it writes.
structure Orjson where
  Text : Type
  dumps : Json → Option Text
  loads : Text → Option Json
  dumps_isSome : ∀ value, (dumps value).isSome = value.encodable
  loads_dumps : ∀ value text, dumps value = some text → loads text = some value.written

-- Texts taken up to what they decode to. `none` does not decode.
def Orjson.values : Orjson where
  Text := Option Json
  dumps value := if value.encodable then some (some value.written) else none
  loads text := text
  dumps_isSome value := by cases value.encodable <;> rfl
  loads_dumps value text h := by
    split at h
    · exact (Option.some.inj h).symm
    · cases h

theorem lookup_writtenFields (fields : Dict) (key : String) :
    (writtenFields fields).lookup key = (fields.lookup key).map Json.written := by
  induction fields with
  | nil => rfl
  | cons field fields ih =>
      obtain ⟨k, value⟩ := field
      simp only [writtenFields, writtenField, List.lookup_cons, ih]
      split <;> rfl

end Encoding

end FleetOps
