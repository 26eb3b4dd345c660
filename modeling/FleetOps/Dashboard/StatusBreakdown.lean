import FleetOps.Library.Cells
import FleetOps.Library.Dict

namespace FleetOps.Dashboard.StatusBreakdown

open Dict

-- The values that can stand in `counts`: numbers, what `+= 1` makes of the rest, and the
-- functions and objects of the prototype with the text they convert to.
inductive JsValue where
  | number (n : Nat)
  | string (text : String)
  | object (text : String)
  deriving DecidableEq

-- `value + 1`
def JsValue.addOne : JsValue → JsValue
  | .number n => .number (n + 1)
  | .string text => .string (text ++ "1")
  | .object text => .string (text ++ "1")

def nativeCode (name : String) : JsValue := .object ("function " ++ name ++ "() \x7b [native code] \x7d")

-- What every object inherits.
def OBJECT_PROTOTYPE : List (String × JsValue) := [
  ("constructor", nativeCode "Object"),
  ("__defineGetter__", nativeCode "__defineGetter__"),
  ("__defineSetter__", nativeCode "__defineSetter__"),
  ("hasOwnProperty", nativeCode "hasOwnProperty"),
  ("__lookupGetter__", nativeCode "__lookupGetter__"),
  ("__lookupSetter__", nativeCode "__lookupSetter__"),
  ("isPrototypeOf", nativeCode "isPrototypeOf"),
  ("propertyIsEnumerable", nativeCode "propertyIsEnumerable"),
  ("toString", nativeCode "toString"),
  ("valueOf", nativeCode "valueOf"),
  ("__proto__", .object "[object Object]"),
  ("toLocaleString", nativeCode "toLocaleString")]

-- An object by its own properties.
abbrev JsObject := List (String × JsValue)

-- `object[key]`; where there is none, `key in object` is false.
def getProperty (object : JsObject) (key : String) : Option JsValue :=
  (object.lookup key).or (OBJECT_PROTOTYPE.lookup key)

-- `object[key] = value` of a value that is no object: the setter of `__proto__` ignores it.
def setProperty (object : JsObject) (key : String) (value : JsValue) : JsObject :=
  if key = "__proto__" then object else setItem object key value

-- Of the list of statuses, the keys.
def FLEET_STATUSES : List String :=
  ["ACTIVE", "CHARGING", "LOW POWER", "OVERHEATING", "STOPPED", "OFFLINE", "DEAD"]

-- A robot on the dashboard; its status may be missing.
structure Robot where
  status : Option String

-- The property key that a status is.
def Robot.key (robot : Robot) : String := robot.status.getD "undefined"

structure Breakdown where
  counts : JsObject
  other : Nat
  total : Nat

def tally (acc : JsObject × Nat) (robot : Robot) : JsObject × Nat :=
  match getProperty acc.1 robot.key with
  | some value => (setProperty acc.1 robot.key value.addOne, acc.2)
  | none => (acc.1, acc.2 + 1)

def statusBreakdown (robots : List Robot) : Breakdown :=
  let (counts, other) := robots.foldl tally (FLEET_STATUSES.map fun key => (key, .number 0), 0)
  { counts, other, total := robots.length }

section Counts

def Robot.known (robot : Robot) : Bool := decide (robot.key ∈ FLEET_STATUSES)

-- The status is the name of a property that every object inherits.
def Robot.inherited (robot : Robot) : Bool := decide (robot.key ∈ OBJECT_PROTOTYPE.map Prod.fst)

theorem not_inherited_of_mem {key : String} (h : key ∈ FLEET_STATUSES) :
    key ∉ OBJECT_PROTOTYPE.map Prod.fst := by
  revert key
  decide

theorem key_eq_iff {robot : Robot} {key : String} (h : key ∈ FLEET_STATUSES) :
    robot.key = key ↔ robot.status = some key := by
  have hundefined : key ≠ "undefined" := by
    rintro rfl
    revert h
    decide
  cases hstatus : robot.status with
  | none => simp [Robot.key, hstatus, hundefined.symm]
  | some text => simp [Robot.key, hstatus]

-- What the loop has made of the robots so far.
structure Tallied (robots : List Robot) (acc : JsObject × Nat) : Prop where
  counts : ∀ key ∈ FLEET_STATUSES,
    acc.1.lookup key = some (.number (robots.countP fun robot => robot.status = some key))
  keys : ∀ key value, acc.1.lookup key = some value →
    key ∈ FLEET_STATUSES ∨ key ∈ OBJECT_PROTOTYPE.map Prod.fst
  other : acc.2 = robots.countP fun robot => !robot.known && !robot.inherited

theorem tallied_start : Tallied [] (FLEET_STATUSES.map fun key => (key, .number 0), 0) where
  counts := by decide
  keys := fun key value h => by
    have hmem := mem_of_lookup h
    simp only [List.mem_map, Prod.mk.injEq] at hmem
    obtain ⟨k, hk, rfl, -⟩ := hmem
    exact .inl hk
  other := rfl

theorem lookup_setProperty {object : JsObject} {key k : String} (value : JsValue) (hne : k ≠ key) :
    (setProperty object key value).lookup k = object.lookup k := by
  rw [setProperty]
  split
  · rfl
  · rw [lookup_setItem, if_neg (by simpa using hne)]

theorem keys_setProperty {object : JsObject} {key k : String} {value v : JsValue}
    (h : (setProperty object key value).lookup k = some v) :
    k = key ∨ object.lookup k = some v := by
  by_cases hk : k = key
  · exact .inl hk
  · exact .inr (lookup_setProperty value hk ▸ h)

theorem getProperty_own {object : JsObject} {key : String} {value : JsValue}
    (h : object.lookup key = some value) : getProperty object key = some value := by
  rw [getProperty, h, Option.some_or]

-- A status of the list has its number, whatever else is in the object.
theorem tally_known {acc : JsObject × Nat} {robot : Robot} {n : Nat} (hknown : robot.key ∈ FLEET_STATUSES)
    (hcount : acc.1.lookup robot.key = some (.number n)) :
    tally acc robot = (setItem acc.1 robot.key (.number (n + 1)), acc.2) := by
  have hproto : robot.key ≠ "__proto__" := by
    intro heq
    rw [heq] at hknown
    revert hknown
    decide
  rw [tally, getProperty_own hcount]
  simp only [setProperty, hproto, ite_false, JsValue.addOne]

theorem getProperty_none {robots : List Robot} {acc : JsObject × Nat} (h : Tallied robots acc) {key : String}
    (hknown : key ∉ FLEET_STATUSES) (hinherited : key ∉ OBJECT_PROTOTYPE.map Prod.fst) :
    getProperty acc.1 key = none := by
  have hown : acc.1.lookup key = none := by
    cases hlookup : acc.1.lookup key with
    | none => rfl
    | some value => exact ((h.keys key value hlookup).elim hknown hinherited).elim
  rw [mem_keys_iff, Bool.not_eq_true, Option.isSome_eq_false_iff, Option.isNone_iff_eq_none] at hinherited
  rw [getProperty, hown, hinherited, Option.none_or]

theorem getProperty_inherited (object : JsObject) {key : String}
    (hinherited : key ∈ OBJECT_PROTOTYPE.map Prod.fst) : ∃ value, getProperty object key = some value := by
  obtain ⟨inherited, hlookup⟩ := Option.isSome_iff_exists.mp ((mem_keys_iff _ _).mp hinherited)
  rw [getProperty, hlookup]
  cases object.lookup key with
  | none => exact ⟨inherited, rfl⟩
  | some value => exact ⟨value, rfl⟩

theorem countP_snoc (p : Robot → Bool) (robots : List Robot) (robot : Robot) :
    (robots ++ [robot]).countP p = robots.countP p + if p robot then 1 else 0 := by
  rw [List.countP_append, List.countP_singleton]

theorem tallied_snoc {robots : List Robot} {acc : JsObject × Nat} (h : Tallied robots acc) (robot : Robot) :
    Tallied (robots ++ [robot]) (tally acc robot) := by
  by_cases hknown : robot.key ∈ FLEET_STATUSES
  · rw [tally_known hknown (h.counts robot.key hknown)]
    refine ⟨fun key hkey => ?_, fun key value hlookup => ?_, ?_⟩
    · rw [lookup_setItem, countP_snoc]
      by_cases heq : key = robot.key
      · have hstatus : robot.status = some robot.key := (key_eq_iff hknown).mp rfl
        simp [heq, hstatus]
      · have hstatus : robot.status ≠ some key := fun hs => heq ((key_eq_iff hkey).mpr hs).symm
        simp [heq, hstatus, h.counts key hkey]
    · rw [lookup_setItem] at hlookup
      split at hlookup
      · rename_i heq
        exact .inl (by rw [eq_of_beq heq]; exact hknown)
      · exact h.keys key value hlookup
    · rw [countP_snoc, h.other]
      simp [Robot.known, hknown]
  · by_cases hinherited : robot.key ∈ OBJECT_PROTOTYPE.map Prod.fst
    · obtain ⟨value, hvalue⟩ := getProperty_inherited acc.1 hinherited
      simp only [tally, hvalue]
      refine ⟨fun key hkey => ?_, fun key v hlookup => ?_, ?_⟩
      · have hne : key ≠ robot.key := fun heq => hknown (heq ▸ hkey)
        have hstatus : robot.status ≠ some key := fun hs => hne ((key_eq_iff hkey).mpr hs).symm
        rw [lookup_setProperty _ hne, h.counts key hkey, countP_snoc]
        simp [hstatus]
      · rcases keys_setProperty hlookup with rfl | hold
        · exact .inr hinherited
        · exact h.keys key v hold
      · rw [countP_snoc, h.other]
        simp [Robot.inherited, hinherited]
    · simp only [tally, getProperty_none h hknown hinherited]
      refine ⟨fun key hkey => ?_, h.keys, ?_⟩
      · have hstatus : robot.status ≠ some key := by
          intro hs
          rw [(key_eq_iff hkey).mpr hs] at hknown
          exact hknown hkey
        rw [h.counts key hkey, countP_snoc]
        simp [hstatus]
      · rw [countP_snoc, h.other]
        simp [Robot.known, Robot.inherited, hknown, hinherited]

theorem tallied (robots : List Robot) :
    Tallied robots (robots.foldl tally (FLEET_STATUSES.map fun key => (key, .number 0), 0)) := by
  induction robots using List.reverseRecOn with
  | nil => exact tallied_start
  | append_singleton robots robot ih =>
      rw [List.foldl_append]
      exact tallied_snoc ih robot

theorem apart_statuses : Cells.Apart
    (FLEET_STATUSES.map fun key (robot : Robot) => decide (robot.status = some key)) := by
  have hnodup : FLEET_STATUSES.Nodup := by decide
  refine List.pairwise_map.mpr (hnodup.imp fun hne robot hkey => ?_)
  rw [decide_eq_true_eq] at hkey
  rw [decide_eq_false_iff_not, hkey]
  exact fun heq => hne (Option.some.inj heq)

theorem covered_eq_known (robot : Robot) : Cells.covered
    (FLEET_STATUSES.map fun key (robot : Robot) => decide (robot.status = some key)) robot = robot.known := by
  rw [Bool.eq_iff_iff, Cells.covered, List.any_eq_true, Robot.known, decide_eq_true_eq]
  constructor
  · rintro ⟨cell, hcell, hstatus⟩
    obtain ⟨key, hkey, rfl⟩ := List.mem_map.mp hcell
    rw [(key_eq_iff hkey).mpr (of_decide_eq_true hstatus)]
    exact hkey
  · intro hknown
    exact ⟨_, List.mem_map_of_mem hknown, decide_eq_true ((key_eq_iff hknown).mp rfl)⟩

theorem sum_statuses (robots : List Robot) :
    (FLEET_STATUSES.map fun key => robots.countP fun robot => robot.status = some key).sum =
      robots.countP Robot.known := by
  have hsum := Cells.sum_counts apart_statuses robots
  rw [Cells.counts, List.map_map] at hsum
  exact hsum.trans (List.countP_congr fun robot _ => by rw [covered_eq_known robot])

-- A robot is of a listed status, or its status is an inherited name, or it is one of the others.
theorem length_eq_add (robots : List Robot) : robots.length =
    robots.countP Robot.known + robots.countP Robot.inherited +
      robots.countP (fun robot => !robot.known && !robot.inherited) := by
  have hdisjoint : ∀ robot : Robot, robot.known = true → robot.inherited = false := by
    intro robot hknown
    exact decide_eq_false (not_inherited_of_mem (of_decide_eq_true hknown))
  rw [← Cells.countP_or hdisjoint, List.length_eq_countP_add_countP (fun r => r.known || r.inherited)]
  congr 1
  refine List.countP_congr fun robot _ => ?_
  cases robot.known <;> cases robot.inherited <;> simp

theorem inherited_eq_false_iff {robot : Robot} : robot.inherited = false ↔
    ∀ text, robot.status = some text → text ∉ OBJECT_PROTOTYPE.map Prod.fst := by
  rw [Robot.inherited, decide_eq_false_iff_not, Robot.key]
  cases robot.status with
  | none =>
      exact ⟨fun _ _ h => (nomatch h), fun _ => by decide⟩
  | some text => simp

-- The breakdown adds up exactly when no status is the name of an inherited property.
theorem statusBreakdown_adds_up_iff (robots : List Robot) :
    (statusBreakdown robots).total = robots.length ∧
    (∀ key ∈ FLEET_STATUSES, getProperty (statusBreakdown robots).counts key =
      some (.number (robots.countP fun robot => robot.status = some key))) ∧
    ((FLEET_STATUSES.map fun key => robots.countP fun robot => robot.status = some key).sum +
        (statusBreakdown robots).other = (statusBreakdown robots).total ↔
      ∀ robot ∈ robots, ∀ text, robot.status = some text → text ∉ OBJECT_PROTOTYPE.map Prod.fst) := by
  have h := tallied robots
  refine ⟨rfl, fun key hkey => getProperty_own (h.counts key hkey), ?_⟩
  have hother : (statusBreakdown robots).other =
      robots.countP fun robot => !robot.known && !robot.inherited := h.other
  have htotal : (statusBreakdown robots).total = robots.length := rfl
  have hinherited : robots.countP Robot.inherited = 0 ↔
      ∀ robot ∈ robots, ∀ text, robot.status = some text → text ∉ OBJECT_PROTOTYPE.map Prod.fst := by
    simp only [List.countP_eq_zero, Bool.not_eq_true, inherited_eq_false_iff]
  rw [← hinherited, sum_statuses, hother, htotal, length_eq_add]
  omega

theorem constructor_lost : (FLEET_STATUSES.map fun key =>
      [Robot.mk (some "constructor")].countP fun robot => robot.status = some key).sum +
    (statusBreakdown [⟨some "constructor"⟩]).other ≠ (statusBreakdown [⟨some "constructor"⟩]).total := by
  decide

end Counts

end FleetOps.Dashboard.StatusBreakdown
