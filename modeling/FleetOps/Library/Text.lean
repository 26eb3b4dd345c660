import Mathlib.Algebra.Group.Nat.Defs
import Mathlib.Data.List.Basic

namespace Text

-- Decimal digits of a fixed width, with leading zeros.
def digits : Nat → Nat → List Char
  | 0, _ => []
  | width + 1, n => digits width (n / 10) ++ [Nat.digitChar (n % 10)]

def number (s : List Char) : Option Nat :=
  s.foldlM (fun value c => if c.isDigit then some (10 * value + (c.toNat - 48)) else none) 0

def parse_digits (width : Nat) (s : List Char) : Option (Nat × List Char) :=
  if width ≤ s.length then (number (s.take width)).map fun n => (n, s.drop width) else none

def expect (c : Char) : List Char → Option (List Char)
  | [] => none
  | x :: xs => if x = c then some xs else none

-- The scan behind `replace`; `skip` characters still belong to a match.
def scan (old new : List Char) : Nat → List Char → List Char
  | _, [] => []
  | skip + 1, _ :: s => scan old new skip s
  | 0, c :: s =>
      if old.isPrefixOf (c :: s) then new ++ scan old new (old.length - 1) s
      else c :: scan old new 0 s

-- Python's `str.replace` for a text that is not empty.
def replace (old new s : List Char) : List Char := scan old new 0 s

-- Python's `part in s`.
def contains (part : List Char) : List Char → Bool
  | [] => part.isEmpty
  | c :: s => part.isPrefixOf (c :: s) || contains part s

-- The characters that `str.strip` takes for blanks.
def isSpace (c : Char) : Bool :=
  (9 ≤ c.toNat && c.toNat ≤ 13) || (28 ≤ c.toNat && c.toNat ≤ 32) || c.toNat == 0x85 ||
    c.toNat == 0xA0 || c.toNat == 0x1680 || (0x2000 ≤ c.toNat && c.toNat ≤ 0x200A) ||
    c.toNat == 0x2028 || c.toNat == 0x2029 || c.toNat == 0x202F || c.toNat == 0x205F ||
    c.toNat == 0x3000

def strip (s : List Char) : List Char := ((s.dropWhile isSpace).reverse.dropWhile isSpace).reverse

section Strip

theorem dropWhile_blanks {s : List Char} (hs : ∀ c ∈ s, isSpace c = true) (t : List Char) :
    (s ++ t).dropWhile isSpace = t.dropWhile isSpace := by
  induction s with
  | nil => rfl
  | cons c s ih =>
      rw [List.cons_append, List.dropWhile_cons_of_pos (hs c (by simp))]
      exact ih fun d hd => hs d (List.mem_cons_of_mem c hd)

theorem dropWhile_of_no_blank {s : List Char} (hs : ∀ c ∈ s, isSpace c = false) (hne : s ≠ [])
    (t : List Char) : (s ++ t).dropWhile isSpace = s ++ t := by
  cases s with
  | nil => exact absurd rfl hne
  | cons c s => exact List.dropWhile_cons_of_neg (by simp [hs c (by simp)])

-- The blanks around a text without blanks are what `strip` takes away.
theorem strip_padded {left s right : List Char} (hleft : ∀ c ∈ left, isSpace c = true)
    (hs : ∀ c ∈ s, isSpace c = false) (hne : s ≠ []) (hright : ∀ c ∈ right, isSpace c = true) :
    strip (left ++ s ++ right) = s := by
  have hback : ∀ c ∈ s.reverse, isSpace c = false := fun c hc => hs c (List.mem_reverse.mp hc)
  have hright' : ∀ c ∈ right.reverse, isSpace c = true :=
    fun c hc => hright c (List.mem_reverse.mp hc)
  have hne' : s.reverse ≠ [] := by simpa using hne
  rw [strip, List.append_assoc, dropWhile_blanks hleft, dropWhile_of_no_blank hs hne,
    List.reverse_append, dropWhile_blanks hright', ← List.append_nil s.reverse,
    dropWhile_of_no_blank hback hne', List.append_nil, List.reverse_reverse]

theorem strip_of_no_blank {s : List Char} (hs : ∀ c ∈ s, isSpace c = false) (hne : s ≠ []) :
    strip s = s := by
  have hnil : ∀ c ∈ ([] : List Char), isSpace c = true := fun _ hc => nomatch hc
  have hstrip := strip_padded hnil hs hne hnil
  rwa [List.nil_append, List.append_nil] at hstrip

end Strip

section Digits

theorem isDigit_digitChar_mod (n : Nat) : (Nat.digitChar (n % 10)).isDigit = true := by
  rw [Nat.isDigit_digitChar, decide_eq_true_eq]
  exact Nat.mod_lt n (by omega)

theorem toNat_digitChar_mod (n : Nat) : (Nat.digitChar (n % 10)).toNat - 48 = n % 10 := by
  rw [Nat.toNat_digitChar_of_lt_ten (Nat.mod_lt n (by omega))]
  omega

@[simp] theorem length_digits (width n : Nat) : (digits width n).length = width := by
  induction width generalizing n with
  | zero => rfl
  | succ width ih => simp [digits, ih]

theorem isDigit_of_mem_digits {width n : Nat} {c : Char} (hc : c ∈ digits width n) :
    c.isDigit = true := by
  induction width generalizing n with
  | zero => cases hc
  | succ width ih =>
      rcases List.mem_append.mp hc with hc | hc
      · exact ih hc
      · rw [List.mem_singleton.mp hc]
        exact isDigit_digitChar_mod n

theorem number_append_singleton (s : List Char) (c : Char) (hc : c.isDigit = true) :
    number (s ++ [c]) = (number s).map fun value => 10 * value + (c.toNat - 48) := by
  simp only [number, List.foldlM_append, List.foldlM_cons, List.foldlM_nil, hc]
  cases List.foldlM (fun value c => if c.isDigit = true then some (10 * value + (c.toNat - 48))
    else none) 0 s <;> rfl

theorem number_digits (width n : Nat) (hn : n < 10 ^ width) : number (digits width n) = some n := by
  induction width generalizing n with
  | zero =>
      have hzero : n = 0 := by omega
      subst hzero
      rfl
  | succ width ih =>
      have hlt : n / 10 < 10 ^ width := by
        rw [Nat.div_lt_iff_lt_mul (by omega), ← Nat.pow_succ]
        exact hn
      rw [digits, number_append_singleton _ _ (isDigit_digitChar_mod n), ih _ hlt,
        toNat_digitChar_mod, Option.map_some]
      congr 1
      omega

theorem parse_digits_append {width n : Nat} (hn : n < 10 ^ width) (rest : List Char) :
    parse_digits width (digits width n ++ rest) = some (n, rest) := by
  have htake : (digits width n ++ rest).take width = digits width n :=
    List.take_left' (length_digits width n)
  have hdrop : (digits width n ++ rest).drop width = rest :=
    List.drop_left' (length_digits width n)
  simp [parse_digits, htake, hdrop, number_digits width n hn]

theorem parse_digits_self {width n : Nat} (hn : n < 10 ^ width) :
    parse_digits width (digits width n) = some (n, []) := by
  have hrest := parse_digits_append hn []
  rwa [List.append_nil] at hrest

end Digits

section Replace

theorem scan_skip (old new xs s : List Char) : scan old new xs.length (xs ++ s) = scan old new 0 s := by
  induction xs with
  | nil => rfl
  | cons x xs ih => exact ih

-- A text that occurs only at the end is replaced there and nowhere else.
theorem replace_suffix {c : Char} {old s : List Char} (new : List Char) (hs : c ∉ s) :
    replace (c :: old) new (s ++ c :: old) = s ++ new := by
  induction s with
  | nil =>
      have hprefix : (c :: old).isPrefixOf (c :: old) = true := by simp
      have hskip := scan_skip (c :: old) new old []
      simp only [List.append_nil] at hskip
      simp only [replace, List.nil_append, scan, hprefix, if_true, List.length_cons,
        Nat.add_sub_cancel, hskip, List.append_nil]
  | cons x s ih =>
      have hx : c ≠ x := by
        rintro rfl
        exact hs (by simp)
      have hrest := ih fun hc => hs (List.mem_cons_of_mem x hc)
      simp only [replace] at hrest
      simp [replace, scan, hx, hrest]

-- A text without the first character is left as it is.
theorem replace_absent {c : Char} (old new : List Char) {s : List Char} (hs : c ∉ s) :
    replace (c :: old) new s = s := by
  induction s with
  | nil => rfl
  | cons x s ih =>
      have hx : c ≠ x := by
        rintro rfl
        exact hs (by simp)
      have hrest := ih fun hc => hs (List.mem_cons_of_mem x hc)
      simp only [replace] at hrest
      simp [replace, scan, hx, hrest]

end Replace

end Text
