import Mathlib.Data.Nat.Basic
import Mathlib.Data.List.TakeWhile
import Mathlib.Tactic.IntervalCases
import FleetOps.Library.Calendar
import FleetOps.Library.Text

namespace Calendar

open Text

abbrev microsPerDay : Nat := 86400000000

-- The end of the year 9999, the last one a datetime can name.
abbrev wallLimit : Nat := 3652059 * microsPerDay

-- A clock reading in microseconds since 0001-01-01T00:00 of that clock, naive
-- or with its distance to UTC.
structure Datetime where
  wall : Nat
  utcoffset : Option Int
  hwall : wall < wallLimit
  hoffset : ∀ offset ∈ utcoffset, offset.natAbs < microsPerDay
  deriving DecidableEq

-- The instant of a reading; a naive one is read as UTC.
def Datetime.instant (reading : Datetime) : Int := reading.wall - reading.utcoffset.getD 0

def Datetime.aware (reading : Datetime) : Bool := reading.utcoffset.isSome

-- A reading of the UTC clock, such as `datetime.now(timezone.utc)`.
structure Utc where
  wall : Nat
  hwall : wall < wallLimit
  deriving DecidableEq

def Utc.datetime (t : Utc) : Datetime :=
  ⟨t.wall, some 0, t.hwall, by
    rintro _ ⟨⟩
    decide⟩

theorem lt_wallLimit {now : Int} (h : 0 ≤ now ∧ now.toNat < wallLimit) : now.toNat < wallLimit := h.2

-- `astimezone(timezone.utc)`; `none` is an OverflowError.
def Datetime.astimezone_utc (reading : Datetime) : Option Utc :=
  if h : 0 ≤ reading.instant ∧ reading.instant.toNat < wallLimit then
    some ⟨reading.instant.toNat, h.2⟩
  else none

section Formatting

def format_hh_mm (t : Nat) : List Char :=
  digits 2 (t / 3600000000) ++ ':' :: digits 2 (t / 60000000 % 60)

def format_ss_ff (t : Nat) : List Char :=
  ':' :: (digits 2 (t / 1000000 % 60) ++
    if t % 1000000 = 0 then [] else '.' :: digits 6 (t % 1000000))

def format_time (t : Nat) : List Char := format_hh_mm t ++ format_ss_ff t

def format_offset (offset : Int) : List Char :=
  (if offset < 0 then '-' else '+') :: (format_hh_mm offset.natAbs ++
    if offset.natAbs % 60000000 = 0 then [] else format_ss_ff offset.natAbs)

def format_date (date : Date) : List Char :=
  digits 4 date.year ++ '-' :: (digits 2 date.month ++ '-' :: digits 2 date.day)

def isoformat (reading : Datetime) : List Char :=
  format_date (dateOf (reading.wall / microsPerDay)) ++ 'T' ::
    (format_time (reading.wall % microsPerDay) ++ (reading.utcoffset.map format_offset).getD [])

end Formatting

section Parsing

-- HH[:MM[:SS[.fff[fff]]]]
def parse_hh_mm_ss_ff (s : List Char) : Option (Nat × Nat × Nat × Nat) := do
  let (hour, s) ← parse_digits 2 s
  if s.isEmpty then return (hour, 0, 0, 0)
  let s ← expect ':' s
  let (minute, s) ← parse_digits 2 s
  if s.isEmpty then return (hour, minute, 0, 0)
  let s ← expect ':' s
  let (second, s) ← parse_digits 2 s
  if s.isEmpty then return (hour, minute, second, 0)
  let s ← expect '.' s
  let (fraction, _) ← parse_digits s.length s
  if s.length = 6 then return (hour, minute, second, fraction)
  if s.length = 3 then return (hour, minute, second, fraction * 1000)
  none

def micros (hour minute second micro : Nat) : Nat :=
  (hour * 3600 + minute * 60 + second) * 1000000 + micro

def parse_time (s : List Char) : Option Nat := do
  let (hour, minute, second, micro) ← parse_hh_mm_ss_ff s
  if hour < 24 ∧ minute < 60 ∧ second < 60 then some (micros hour minute second micro) else none

-- +HH:MM[:SS[.ffffff]]
def parse_offset : List Char → Option (Option Int)
  | [] => some none
  | sign :: s => do
      let (hour, minute, second, micro) ← parse_hh_mm_ss_ff s
      if s.length = 5 ∨ s.length = 8 ∨ s.length = 15 then
        let t : Int := micros hour minute second micro
        some (some (if sign = '-' then -t else t))
      else none

def parse_date (s : List Char) : Option (Date × List Char) := do
  let (year, s) ← parse_digits 4 s
  let s ← expect '-' s
  let (month, s) ← parse_digits 2 s
  let s ← expect '-' s
  let (day, s) ← parse_digits 2 s
  if h : 1 ≤ year ∧ (1 ≤ month ∧ month ≤ 12) ∧ 1 ≤ day ∧ day ≤ days_in_month year month then
    some (⟨year, month, day, h.1, h.2.1, h.2.2⟩, s)
  else none

def combine (date : Date) (t : Nat) (offset : Option Int) : Option Datetime :=
  if h : date.days * microsPerDay + t < wallLimit ∧ ∀ o ∈ offset, o.natAbs < microsPerDay then
    some ⟨date.days * microsPerDay + t, offset, h.1, h.2⟩
  else none

def isSign (c : Char) : Bool := c == '+' || c == '-'

-- `none` is Python's ValueError.
def fromisoformat (s : List Char) : Option Datetime := do
  match ← parse_date s with
  | (date, []) => combine date 0 none
  | (date, _ :: s) => do
      let t ← parse_time (s.takeWhile fun c => !isSign c)
      let offset ← parse_offset (s.dropWhile fun c => !isSign c)
      combine date t offset

end Parsing

@[simp] theorem instant_utc (t : Utc) : t.datetime.instant = t.wall := by
  simp [Datetime.instant, Utc.datetime]

@[simp] theorem astimezone_utc_datetime (t : Utc) : t.datetime.astimezone_utc = some t := by
  have hlt := t.hwall
  simp [Datetime.astimezone_utc, hlt]

section RoundTrip

theorem days_in_month_lt (year month : Nat) : days_in_month year month < 100 := by
  have hall : ∀ leap : Bool, ∀ i, (monthLengths leap).getD i 0 < 100 := by
    intro leap i
    rcases Nat.lt_or_ge i 12 with hi | hi
    · interval_cases i <;> cases leap <;> decide
    · have hlen : (monthLengths leap).length ≤ i := hi
      simp [List.getElem?_eq_none hlen]
  exact hall _ _

theorem parse_date_format {date : Date} (hyear : date.year ≤ 9999) (rest : List Char) :
    parse_date (format_date date ++ rest) = some (date, rest) := by
  have hday : date.day < 10 ^ 2 := date.hday.2.trans_lt (days_in_month_lt _ _)
  have hmonth : date.month < 10 ^ 2 := by
    have := date.hmonth
    omega
  have hy : date.year < 10 ^ 4 := by omega
  have hvalid := And.intro date.hyear (And.intro date.hmonth date.hday)
  simp [parse_date, format_date, expect, List.append_assoc, parse_digits_append hy,
    parse_digits_append hmonth, parse_digits_append hday, hvalid]

theorem parse_format_hh_mm {t : Nat} (ht : t < microsPerDay) :
    parse_hh_mm_ss_ff (format_hh_mm t) = some (t / 3600000000, t / 60000000 % 60, 0, 0) := by
  have hday : t < 86400000000 := ht
  have hh : t / 3600000000 < 10 ^ 2 := by omega
  have hm : t / 60000000 % 60 < 10 ^ 2 := by omega
  simp [parse_hh_mm_ss_ff, format_hh_mm, expect, parse_digits_append hh, parse_digits_self hm]

theorem parse_format_time {t : Nat} (ht : t < microsPerDay) :
    parse_hh_mm_ss_ff (format_time t) =
      some (t / 3600000000, t / 60000000 % 60, t / 1000000 % 60, t % 1000000) := by
  have hday : t < 86400000000 := ht
  have hh : t / 3600000000 < 10 ^ 2 := by omega
  have hm : t / 60000000 % 60 < 10 ^ 2 := by omega
  have hs : t / 1000000 % 60 < 10 ^ 2 := by omega
  have hf : t % 1000000 < 10 ^ 6 := by omega
  by_cases hzero : t % 1000000 = 0
  · simp [parse_hh_mm_ss_ff, format_time, format_hh_mm, format_ss_ff, expect, hzero,
      parse_digits_append hh, parse_digits_append hm, parse_digits_self hs]
  · simp [parse_hh_mm_ss_ff, format_time, format_hh_mm, format_ss_ff, expect, hzero,
      parse_digits_append hh, parse_digits_append hm, parse_digits_append hs, parse_digits_self hf]

theorem micros_fields (t : Nat) :
    micros (t / 3600000000) (t / 60000000 % 60) (t / 1000000 % 60) (t % 1000000) =
      t := by
  simp only [micros]
  omega

-- The characters of a date and of a clock time.
def plain (c : Char) : Bool := c.isDigit || c == '-' || c == ':' || c == '.' || c == 'T'

theorem plain_of_mem_digits {width n : Nat} {c : Char} (hc : c ∈ digits width n) :
    plain c = true := by
  simp [plain, isDigit_of_mem_digits hc]

theorem mem_format_time {t : Nat} {c : Char} (hc : c ∈ format_time t) :
    c.isDigit = true ∨ c = ':' ∨ c = '.' := by
  simp only [format_time, format_hh_mm, format_ss_ff, List.mem_append, List.mem_cons] at hc
  rcases hc with (hc | rfl | hc) | rfl | hc | hc
  · exact Or.inl (isDigit_of_mem_digits hc)
  · simp
  · exact Or.inl (isDigit_of_mem_digits hc)
  · simp
  · exact Or.inl (isDigit_of_mem_digits hc)
  · split at hc
    · cases hc
    · rcases List.mem_cons.mp hc with rfl | hc
      · simp
      · exact Or.inl (isDigit_of_mem_digits hc)

theorem not_sign_of_mem_time {t : Nat} {c : Char} (hc : c ∈ format_time t) : isSign c = false := by
  rcases mem_format_time hc with hdigit | rfl | rfl
  · simp only [isSign, Bool.or_eq_false_iff, beq_eq_false_iff_ne]
    constructor <;> rintro rfl <;> simp [Char.isDigit] at hdigit
  · rfl
  · rfl

theorem plain_of_mem_time {t : Nat} {c : Char} (hc : c ∈ format_time t) : plain c = true := by
  rcases mem_format_time hc with hdigit | rfl | rfl
  · simp [plain, hdigit]
  · rfl
  · rfl

theorem plain_of_mem_date {date : Date} {c : Char} (hc : c ∈ format_date date) :
    plain c = true := by
  simp only [format_date, List.mem_append, List.mem_cons] at hc
  rcases hc with hc | rfl | hc | rfl | hc
  · exact plain_of_mem_digits hc
  · rfl
  · exact plain_of_mem_digits hc
  · rfl
  · exact plain_of_mem_digits hc

-- A UTC reading prints its offset last.
theorem isoformat_utc (t : Utc) :
    ∃ s : List Char, (∀ c ∈ s, plain c = true) ∧
      isoformat t.datetime = s ++ ['+', '0', '0', ':', '0', '0'] := by
  refine ⟨format_date (dateOf (t.wall / microsPerDay)) ++ 'T' ::
    format_time (t.wall % microsPerDay), ?_, ?_⟩
  · intro c hc
    simp only [List.mem_append, List.mem_cons] at hc
    rcases hc with hc | rfl | hc
    · exact plain_of_mem_date hc
    · rfl
    · exact plain_of_mem_time hc
  · have hzero : format_offset 0 = ['+', '0', '0', ':', '0', '0'] := by decide
    simp [isoformat, Utc.datetime, hzero]

theorem parse_time_format {t : Nat} (ht : t < microsPerDay) :
    parse_time (format_time t) = some t := by
  have hday : t < 86400000000 := ht
  have hvalid : t / 3600000000 < 24 ∧ t / 60000000 % 60 < 60 ∧ t / 1000000 % 60 < 60 := by omega
  simp [parse_time, parse_format_time ht, hvalid, micros_fields]

@[simp] theorem length_format_hh_mm (t : Nat) : (format_hh_mm t).length = 5 := by
  simp [format_hh_mm]

theorem length_format_ss_ff (t : Nat) :
    (format_ss_ff t).length = 3 ∨ (format_ss_ff t).length = 10 := by
  by_cases hzero : t % 1000000 = 0 <;> simp [format_ss_ff, hzero]

theorem parse_offset_format {offset : Int} (hoffset : offset.natAbs < microsPerDay) :
    parse_offset (format_offset offset) = some (some offset) := by
  have hsigned : (if (if offset < 0 then '-' else '+') = '-' then -(offset.natAbs : Int)
      else (offset.natAbs : Int)) = offset := by
    by_cases hneg : offset < 0
    · simp only [hneg, if_true]
      omega
    · simp only [hneg, if_false]
      have hplus : ('+' = '-') = False := by decide
      simp only [hplus, if_false]
      omega
  by_cases hminute : offset.natAbs % 60000000 = 0
  · have hmicros : micros (offset.natAbs / 3600000000) (offset.natAbs / 60000000 % 60) 0 0 =
        offset.natAbs := by
      simp only [micros]
      omega
    simp only [format_offset, hminute, if_true, List.append_nil, parse_offset,
      parse_format_hh_mm hoffset, length_format_hh_mm, Option.bind_eq_bind, Option.bind_some,
      true_or, hmicros, hsigned]
  · have hlength := length_format_ss_ff offset.natAbs
    have htime := parse_format_time hoffset
    simp only [format_time] at htime
    simp only [format_offset, hminute, if_false, parse_offset, htime, List.length_append,
      length_format_hh_mm, Option.bind_eq_bind, Option.bind_some, micros_fields, hsigned]
    rw [if_pos (by omega)]

theorem year_of_wall (reading : Datetime) : (dateOf (reading.wall / microsPerDay)).year ≤ 9999 :=
  year_dateOf_le (Nat.div_lt_of_lt_mul (Nat.mul_comm _ _ ▸ reading.hwall))

theorem combine_fields (reading : Datetime) :
    combine (dateOf (reading.wall / microsPerDay)) (reading.wall % microsPerDay)
      reading.utcoffset = some reading := by
  have hsum : (dateOf (reading.wall / microsPerDay)).days * microsPerDay +
      reading.wall % microsPerDay = reading.wall := by
    rw [days_dateOf, Nat.div_add_mod']
  unfold combine
  simp only [hsum]
  exact dif_pos ⟨reading.hwall, reading.hoffset⟩

theorem parse_offset_getD (reading : Datetime) :
    parse_offset ((reading.utcoffset.map format_offset).getD []) = some reading.utcoffset ∧
      ∀ c ∈ ((reading.utcoffset.map format_offset).getD []).head?, isSign c = true := by
  cases hoffset : reading.utcoffset with
  | none => simp [parse_offset]
  | some offset =>
      refine ⟨parse_offset_format (reading.hoffset offset hoffset), ?_⟩
      intro c hc
      simp only [Option.map_some, Option.getD_some, format_offset, List.head?_cons,
        Option.mem_def, Option.some.injEq] at hc
      rw [← hc]
      split <;> rfl

-- What `isoformat` prints, `fromisoformat` reads back.
theorem fromisoformat_isoformat (reading : Datetime) :
    fromisoformat (isoformat reading) = some reading := by
  have hmod : reading.wall % microsPerDay < microsPerDay := Nat.mod_lt _ (by decide)
  have hclock : ∀ c ∈ format_time (reading.wall % microsPerDay), !isSign c := by
    intro c hc
    rw [not_sign_of_mem_time hc]
    rfl
  obtain ⟨hzone, hhead⟩ := parse_offset_getD reading
  generalize hs : (reading.utcoffset.map format_offset).getD [] = s at hzone hhead
  have htake : s.takeWhile (fun c => !isSign c) = [] := by
    cases s with
    | nil => rfl
    | cons c s => simp [hhead c rfl]
  have hdrop : s.dropWhile (fun c => !isSign c) = s := by
    cases s with
    | nil => rfl
    | cons c s => simp [hhead c rfl]
  simp only [isoformat, fromisoformat, parse_date_format (year_of_wall reading),
    Option.bind_eq_bind, Option.bind_some, hs]
  rw [List.takeWhile_append_of_pos hclock, List.dropWhile_append_of_pos hclock, htake, hdrop,
    List.append_nil]
  exact Option.bind_eq_some_iff.mpr ⟨_, parse_time_format hmod,
    Option.bind_eq_some_iff.mpr ⟨_, hzone, combine_fields reading⟩⟩

end RoundTrip

end Calendar
