import Mathlib.Algebra.GroupWithZero.Nat
import Mathlib.Algebra.BigOperators.Group.List.Basic
import Mathlib.Data.List.Basic

namespace Calendar

-- The proleptic Gregorian calendar, with days counted from 0001-01-01.
def is_leap (year : Nat) : Bool :=
  year % 4 == 0 && (year % 100 != 0 || year % 400 == 0)

def days_before_year (year : Nat) : Nat :=
  (year - 1) * 365 + (year - 1) / 4 - (year - 1) / 100 + (year - 1) / 400

def monthLengths (leap : Bool) : List Nat :=
  [31, if leap then 29 else 28, 31, 30, 31, 30, 31, 31, 30, 31, 30, 31]

def days_in_month (year month : Nat) : Nat :=
  (monthLengths (is_leap year)).getD (month - 1) 0

def days_before_month (year month : Nat) : Nat :=
  ((monthLengths (is_leap year)).take (month - 1)).sum

structure Date where
  year : Nat
  month : Nat
  day : Nat
  hyear : 1 ≤ year
  hmonth : 1 ≤ month ∧ month ≤ 12
  hday : 1 ≤ day ∧ day ≤ days_in_month year month

def Date.days (date : Date) : Nat :=
  days_before_year date.year + days_before_month date.year date.month + (date.day - 1)

-- The year that day `n` falls in and the days of that year before it. The last
-- day of a leap cycle would start a fifth year, hence the bounds by three.
def yearOf (n : Nat) : Nat × Nat :=
  let n1 := n % 146097
  let n100 := min (n1 / 36524) 3
  let n2 := n1 - n100 * 36524
  let n3 := n2 % 1461
  let n365 := min (n3 / 365) 3
  (n / 146097 * 400 + n100 * 100 + n2 / 1461 * 4 + n365 + 1, n3 - n365 * 365)

def monthOf : List Nat → Nat → Nat × Nat
  | [], n => (0, n)
  | length :: lengths, n =>
      if n < length then (0, n) else ((monthOf lengths (n - length)).1 + 1,
        (monthOf lengths (n - length)).2)

section Cycles

variable {n400 n100 n4 n365 n n1 n2 n3 : Nat}

-- The days before a year that is given by its place in the cycles.
theorem days_of_cycles (hn : n = n400 * 146097 + n1) (hn1 : n1 = n100 * 36524 + n2)
    (hn2 : n2 = n4 * 1461 + n3) (hn3 : n365 * 365 ≤ n3) :
    (n400 * 400 + n100 * 100 + n4 * 4 + n365) * 365 + (n400 * 100 + n100 * 25 + n4) -
      (n400 * 4 + n100) + n400 + (n3 - n365 * 365) = n := by
  omega

-- The last day of a cycle would start another century, or a fifth year.
theorem centuries_of_min (hn1 : n1 < 146097) (hn100 : min (n1 / 36524) 3 = n100)
    (hn2 : n1 - n100 * 36524 = n2) :
    n2 < 36525 ∧ (n100 < 3 → n2 < 36524) ∧ n1 = n100 * 36524 + n2 ∧ n100 ≤ 3 := by
  omega

theorem years_of_min (hn3 : n3 < 1461) (hn365 : min (n3 / 365) 3 = n365) :
    n365 ≤ 3 ∧ n365 * 365 ≤ n3 ∧ (n365 < 3 → n3 < n365 * 365 + 365) := by
  omega

theorem leap_cycles (hn2 : n2 < 36525) (hn4 : n2 / 1461 = n4) (hn3 : n2 % 1461 = n3) :
    n2 = n4 * 1461 + n3 ∧ n3 < 1461 ∧ n4 ≤ 24 := by
  omega

theorem lt_of_cycles (hn2 : n2 < 36525 ∧ (n100 < 3 → n2 < 36524) ∧ n100 ≤ 3)
    (hn3 : n2 = n4 * 1461 + n3 ∧ n3 < 1461 ∧ n4 ≤ 24)
    (hn365 : n365 ≤ 3 ∧ n365 * 365 ≤ n3 ∧ (n365 < 3 → n3 < n365 * 365 + 365)) :
    n3 - n365 * 365 < if (n400 * 400 + n100 * 100 + n4 * 4 + n365 + 1) % 4 = 0 ∧
      (¬ (n400 * 400 + n100 * 100 + n4 * 4 + n365 + 1) % 100 = 0 ∨
        (n400 * 400 + n100 * 100 + n4 * 4 + n365 + 1) % 400 = 0) then 366 else 365 := by
  split <;> omega

end Cycles

theorem yearOf_spec (n : Nat) :
    1 ≤ (yearOf n).1 ∧ days_before_year (yearOf n).1 + (yearOf n).2 = n ∧
      (yearOf n).2 < (monthLengths (is_leap (yearOf n).1)).sum := by
  have hsum : ∀ leap : Bool, (monthLengths leap).sum = if leap then 366 else 365 := by decide
  rw [hsum]
  simp only [yearOf, days_before_year, is_leap, Bool.and_eq_true, Bool.or_eq_true, beq_iff_eq,
    bne_iff_ne]
  -- The cycles are named so that the goals are linear in them.
  obtain ⟨n400, n1, hn, hn1⟩ : ∃ n400 n1, n = n400 * 146097 + n1 ∧ n1 < 146097 :=
    ⟨n / 146097, n % 146097, by omega, by omega⟩
  have h400 : n / 146097 = n400 := by omega
  have hmod : n % 146097 = n1 := by omega
  rw [h400, hmod]
  generalize hn100 : min (n1 / 36524) 3 = n100
  generalize hn2 : n1 - n100 * 36524 = n2
  have h2 := centuries_of_min hn1 hn100 hn2
  generalize hn4 : n2 / 1461 = n4
  generalize hn3 : n2 % 1461 = n3
  have h3 := leap_cycles h2.1 hn4 hn3
  generalize hn365 : min (n3 / 365) 3 = n365
  have h365 := years_of_min h3.2.1 hn365
  have hyear : n400 * 400 + n100 * 100 + n4 * 4 + n365 + 1 - 1 =
      n400 * 400 + n100 * 100 + n4 * 4 + n365 := by omega
  rw [hyear]
  have hq4 : (n400 * 400 + n100 * 100 + n4 * 4 + n365) / 4 = n400 * 100 + n100 * 25 + n4 := by omega
  have hq100 : (n400 * 400 + n100 * 100 + n4 * 4 + n365) / 100 = n400 * 4 + n100 := by omega
  have hq400 : (n400 * 400 + n100 * 100 + n4 * 4 + n365) / 400 = n400 := by omega
  rw [hq4, hq100, hq400]
  exact ⟨Nat.le_add_left 1 _, days_of_cycles hn h2.2.2.1 h3.1 h365.2.1,
    lt_of_cycles ⟨h2.1, h2.2.1, h2.2.2.2⟩ h3 h365⟩

theorem monthOf_spec (lengths : List Nat) (n : Nat) (hn : n < lengths.sum) :
    (monthOf lengths n).1 < lengths.length ∧
      (lengths.take (monthOf lengths n).1).sum + (monthOf lengths n).2 = n ∧
      (monthOf lengths n).2 < lengths.getD (monthOf lengths n).1 0 := by
  induction lengths generalizing n with
  | nil => simp at hn
  | cons length lengths ih =>
      simp only [List.sum_cons] at hn
      unfold monthOf
      split
      · simpa using ‹n < length›
      · obtain ⟨hlen, hsum, hday⟩ := ih (n - length) (by omega)
        simp only [List.length_cons, List.take_succ_cons, List.sum_cons, List.getD_cons_succ]
        exact ⟨by omega, by omega, hday⟩

theorem month_bounds {leap : Bool} {month : Nat} (h : month < (monthLengths leap).length) :
    1 ≤ month + 1 ∧ month + 1 ≤ 12 :=
  ⟨Nat.le_add_left 1 month, h⟩

theorem day_bounds {year month day : Nat} (h : day < (monthLengths (is_leap year)).getD month 0) :
    1 ≤ day + 1 ∧ day + 1 ≤ days_in_month year (month + 1) :=
  ⟨Nat.le_add_left 1 day, h⟩

-- The date of a day number.
def dateOf (n : Nat) : Date :=
  have hyear := yearOf_spec n
  have hmonth := monthOf_spec _ _ hyear.2.2
  { year := (yearOf n).1
    month := (monthOf (monthLengths (is_leap (yearOf n).1)) (yearOf n).2).1 + 1
    day := (monthOf (monthLengths (is_leap (yearOf n).1)) (yearOf n).2).2 + 1
    hyear := hyear.1
    hmonth := month_bounds hmonth.1
    hday := day_bounds hmonth.2.2 }

theorem days_dateOf (n : Nat) : (dateOf n).days = n := by
  obtain ⟨_, hyear, hlt⟩ := yearOf_spec n
  obtain ⟨_, hmonth, _⟩ := monthOf_spec _ _ hlt
  simp only [Date.days, dateOf, days_before_month, Nat.add_sub_cancel]
  omega

theorem year_dateOf_le {n : Nat} (hn : n < 3652059) : (dateOf n).year ≤ 9999 := by
  -- year 10000 would begin on day 3652059
  have hspec := (yearOf_spec n).2.1
  have hyear : (dateOf n).year = (yearOf n).1 := rfl
  rw [hyear]
  generalize yearOf n = spec at hspec ⊢
  unfold days_before_year at hspec
  omega

end Calendar
