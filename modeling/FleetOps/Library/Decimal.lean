import FleetOps.Library.Text

namespace Decimal

open Text

-- The most digits that Python converts between an int and a text.
def MAX_STR_DIGITS : Nat := 4300

-- `str(n)`; `none` is ValueError.
def str (n : Int) : Option (List Char) :=
  let digits := Nat.toDigits 10 n.natAbs
  if digits.length ≤ MAX_STR_DIGITS then some (if n < 0 then '-' :: digits else digits) else none

-- The value of a decimal digit; `decimal` knows the digits outside ASCII.
def digit (decimal : Char → Option Nat) (c : Char) : Option Nat :=
  if c.isDigit then some (c.toNat - '0'.toNat) else if c.toNat < 128 then none else decimal c

-- Digits with at most one underscore between two of them.
def digits (decimal : Char → Option Nat) : List Char → Option (List Nat)
  | [] => none
  | [c] => (digit decimal c).map fun d => [d]
  | c :: '_' :: s => (digit decimal c).bind fun d => (digits decimal s).map (d :: ·)
  | c :: s => (digit decimal c).bind fun d => (digits decimal s).map (d :: ·)

def value (decimal : Char → Option Nat) (s : List Char) : Option Nat :=
  (digits decimal s).bind fun ds =>
    if ds.length ≤ MAX_STR_DIGITS then some (ds.foldl (fun n d => 10 * n + d) 0) else none

-- The separators of ASCII, which `str.strip` takes for blanks and `int` does not.
def isSeparator (c : Char) : Bool := 28 ≤ c.toNat && c.toNat ≤ 31

-- `int(s)`; `none` is ValueError.
def int (decimal : Char → Option Nat) (s : List Char) : Option Int :=
  if s.any isSeparator then none
  else
    match strip s with
    | '-' :: s => (value decimal s).map fun n : Nat => -(n : Int)
    | '+' :: s => (value decimal s).map fun n : Nat => (n : Int)
    | s => (value decimal s).map fun n : Nat => (n : Int)

variable {decimal : Char → Option Nat}

theorem digits_of_isDigit {s : List Char} (hs : ∀ c ∈ s, c.isDigit = true) (hne : s ≠ []) :
    digits decimal s = some (s.map fun c => c.toNat - '0'.toNat) := by
  have hdigit : ∀ c ∈ s, digit decimal c = some (c.toNat - '0'.toNat) :=
    fun c hc => if_pos (hs c hc)
  fun_induction digits decimal s with
  | case1 => exact absurd rfl hne
  | case2 c => simp [hdigit c (by simp)]
  | case3 c s ih => exact absurd (hs '_' (by simp)) (by decide)
  | case4 c s hnil hunderscore ih =>
      have hrest := ih (fun d hd => hs d (List.mem_cons_of_mem c hd)) (fun h => hnil h)
        fun d hd => hdigit d (List.mem_cons_of_mem c hd)
      simp [hdigit c (by simp), hrest]

theorem value_toDigits {n : Nat} (hlength : (Nat.toDigits 10 n).length ≤ MAX_STR_DIGITS) :
    value decimal (Nat.toDigits 10 n) = some n := by
  have hall : ∀ c ∈ Nat.toDigits 10 n, c.isDigit = true :=
    fun c hc => Nat.isDigit_of_mem_toDigits (by omega) (by omega) hc
  rw [value, digits_of_isDigit hall Nat.toDigits_ne_nil, Option.bind_some, List.length_map,
    if_pos hlength, List.foldl_map, ← Nat.ofDigitChars_eq_foldl, Nat.ofDigitChars_ten_toDigits]

theorem isSpace_of_isDigit {c : Char} (h : c.isDigit = true) : isSpace c = false := by
  simp only [Char.isDigit, Bool.and_eq_true, decide_eq_true_eq, UInt32.le_iff_toNat_le] at h
  have hlow : 48 ≤ c.toNat := h.1
  have hhigh : c.toNat ≤ 57 := h.2
  simp only [isSpace, Bool.or_eq_false_iff, Bool.and_eq_false_iff, decide_eq_false_iff_not,
    beq_eq_false_iff_ne]
  omega

theorem isSeparator_of_not_isSpace {c : Char} (h : isSpace c = false) : isSeparator c = false := by
  simp only [isSpace, Bool.or_eq_false_iff, Bool.and_eq_false_iff, decide_eq_false_iff_not,
    beq_eq_false_iff_ne] at h
  simp only [isSeparator, Bool.and_eq_false_iff, decide_eq_false_iff_not]
  omega

theorem int_of_no_blank {s : List Char} (hs : ∀ c ∈ s, isSpace c = false) :
    int decimal s =
      match strip s with
      | '-' :: s => (value decimal s).map fun n : Nat => -(n : Int)
      | '+' :: s => (value decimal s).map fun n : Nat => (n : Int)
      | s => (value decimal s).map fun n : Nat => (n : Int) := by
  have hany : s.any isSeparator = false :=
    List.any_eq_false.mpr fun c hc => by simp [isSeparator_of_not_isSpace (hs c hc)]
  rw [int, hany]
  rfl

-- Reading inverts writing.
theorem int_str {n : Int} {s : List Char} (h : str n = some s) : int decimal s = some n := by
  simp only [str] at h
  split at h
  · rename_i hlength
    have hall : ∀ c ∈ Nat.toDigits 10 n.natAbs, c.isDigit = true :=
      fun c hc => Nat.isDigit_of_mem_toDigits (by omega) (by omega) hc
    have hblank : ∀ c ∈ Nat.toDigits 10 n.natAbs, isSpace c = false :=
      fun c hc => isSpace_of_isDigit (hall c hc)
    split at h
    · rename_i hneg
      cases h
      have hsigned : ∀ c ∈ '-' :: Nat.toDigits 10 n.natAbs, isSpace c = false := fun c hc => by
        rcases List.mem_cons.mp hc with rfl | hc
        · decide
        · exact hblank c hc
      rw [int_of_no_blank hsigned, strip_of_no_blank hsigned (List.cons_ne_nil _ _)]
      simp only [value_toDigits hlength, Option.map_some, Option.some.injEq]
      omega
    · rename_i hneg
      cases h
      have hstrip := strip_of_no_blank hblank Nat.toDigits_ne_nil
      rw [int_of_no_blank hblank, hstrip]
      split
      · rename_i s heq
        exact absurd (hall '-' (by simp [heq])) (by decide)
      · rename_i s heq
        exact absurd (hall '+' (by simp [heq])) (by decide)
      · rw [value_toDigits hlength, Option.map_some]
        rw [Option.some.injEq]
        omega
  · cases h

theorem dot_not_mem_str {n : Int} {s : List Char} (h : str n = some s) : '.' ∉ s := by
  have hall : '.' ∉ Nat.toDigits 10 n.natAbs := fun hc =>
    absurd (Nat.isDigit_of_mem_toDigits (by omega) (by omega) hc) (by decide)
  simp only [str] at h
  split at h
  · split at h <;> cases h <;> simp [hall]
  · cases h

-- `f"{n:0{width}d}"`
def zero_padded (width n : Nat) : List Char :=
  let digits := Nat.toDigits 10 n
  List.replicate (width - digits.length) '0' ++ digits

-- The zeros in front do not change the number, so it can be read back.
theorem zero_padded_injective (width : Nat) : (zero_padded width).Injective := by
  have hread : ∀ n, Nat.ofDigitChars 10 (zero_padded width n) 0 = n := by
    intro n
    rw [zero_padded, Nat.ofDigitChars_append, Nat.ofDigitChars_replicate_zero, Nat.mul_zero,
      Nat.ofDigitChars_ten_toDigits]
  intro m n heq
  rw [← hread m, heq, hread n]

end Decimal
