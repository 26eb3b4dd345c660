import Mathlib.Data.Rat.Defs
import Mathlib.Algebra.Order.Ring.Rat

-- What a program may do with doubles, whatever their rounding, and with what is no number
-- among them. A comparison is a Bool: both `lt a b` and `le b a` may be false.
class Floats (F : Type*) extends Add F, Sub F, Mul F, Div F, OfScientific F where
  lt : F → F → Bool
  le : F → F → Bool
  ofNat : Nat → F
  hypot : F → F → F
  round1 : F → F

namespace Floats

variable {F : Type*} [Floats F]

-- `min(a, b)` and `max(a, b)`, which keep the first of two that do not compare.
def min (a b : F) : F := if lt b a then b else a

def max (a b : F) : F := if lt a b then b else a

def clamp (value lo hi : F) : F := max lo (min hi value)

def lerp (a b t : F) : F := a + (b - a) * t

-- One of the bounds, or between them.
def Within (lo hi a : F) : Prop := a = lo ∨ a = hi ∨ lt lo a = true ∧ lt a hi = true

-- Whatever is clamped, what is no number included.
theorem within_clamp (value lo hi : F) : Within lo hi (clamp value lo hi) := by
  have hmin : min hi value = value ∧ lt value hi = true ∨ min hi value = hi := by
    rw [min]
    split
    · rename_i hlt
      exact .inl ⟨rfl, hlt⟩
    · exact .inr rfl
  rw [clamp, max]
  split
  · rename_i hlo
    rcases hmin with ⟨heq, hhi⟩ | heq
    · rw [heq] at hlo ⊢
      exact .inr (.inr ⟨hlo, hhi⟩)
    · exact .inr (.inl heq)
  · exact .inl rfl

-- The comparisons of doubles: what is no number is below and above nothing.
structure Ordered (F : Type*) [Floats F] : Prop where
  lt_irrefl : ∀ a : F, lt a a = false
  lt_trans : ∀ a b c : F, lt a b = true → lt b c = true → lt a c = true

theorem Ordered.lt_asymm (h : Ordered F) {a b : F} (hlt : lt a b = true) : lt b a = false := by
  by_contra hgt
  have hself := h.lt_trans a b a hlt (Bool.not_eq_false _ ▸ hgt)
  rw [h.lt_irrefl] at hself
  cases hself

-- What is within bounds is not below them.
theorem Within.not_lt (h : Ordered F) {lo hi a : F} (hbounds : lt lo hi = true) (ha : Within lo hi a) :
    lt a lo = false := by
  rcases ha with rfl | rfl | ⟨hlo, -⟩
  · exact h.lt_irrefl _
  · exact h.lt_asymm hbounds
  · exact h.lt_asymm hlo

-- Numbers without rounding. A length along an axis is exact, any other is cut off after six
-- digits.
instance : Floats ℚ where
  lt a b := decide (a < b)
  le a b := decide (a ≤ b)
  ofNat n := n
  hypot a b :=
    if a = 0 then |b| else if b = 0 then |a|
    else (Nat.sqrt ((a * a + b * b) * 10 ^ 12).floor.toNat : ℚ) / 10 ^ 6
  round1 a := ((a * 10 + 1 / 2).floor : ℚ) / 10

end Floats
