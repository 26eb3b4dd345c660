import FleetOps.Library.RowStore
import FleetOps.Telemetry.Reading

namespace FleetOps.Telemetry

open Calendar Dict RowStore

inductive Key where
  | telemetry (id : Nat)
  | robot (id : Int)
  deriving DecidableEq

structure Robot where
  is_active : Bool
  last_seen : Option Instant
  deriving DecidableEq

-- A row of one of the two tables. A telemetry row remembers which reading it
-- was made from, which the table itself does not store.
inductive Version (ι : Type) where
  | telemetry (source : ι) (row : TelemetryRow)
  | robot (row : Robot)
  deriving DecidableEq

-- The tables and the sequence that telemetry ids are drawn from.
structure Database (σ ι : Type) where
  store : Store σ Key (Version ι)
  serial : Nat

variable {σ ι : Type}

def Database.empty : Database σ ι := ⟨Store.empty, 1⟩

section Statements

variable [DecidableEq σ]

-- INSERT INTO telemetry VALUES rows, each row under the next id.
def insert_telemetry (db : Database σ ι) (s : σ) : List (ι × TelemetryRow) → Database σ ι
  | [] => db
  | (source, row) :: rows =>
      insert_telemetry
        ⟨db.store.write s (.telemetry db.serial) (.telemetry source row), db.serial + 1⟩ s rows

-- Python's `a > b`; `none` is the TypeError on a naive and an aware time.
def later (a b : Datetime) : Option Bool :=
  if a.aware = b.aware then some (decide (b.instant < a.instant)) else none

-- The loop that reduces rows to each robot's latest time.
def latest_by_robot : List (Int × Datetime) → List (Int × Datetime) →
    Option (List (Int × Datetime))
  | seen, [] => some seen
  | seen, (robot_id, ts) :: rows => do
      let newer ← (seen.lookup robot_id).elim (some true) (later ts)
      latest_by_robot (if newer then setItem seen robot_id ts else seen) rows

-- ON CONFLICT DO UPDATE SET last_seen = GREATEST(excluded, COALESCE(last_seen, excluded)).
def upsert (seen_at : Instant) : Option (Version ι) → Robot
  | some (.robot row) => { row with last_seen := some (max seen_at (row.last_seen.getD seen_at)) }
  | _ => ⟨true, some seen_at⟩

def upsert_robots (st : Store σ Key (Version ι)) (s : σ) :
    List (Int × Datetime) → Store σ Key (Version ι)
  | [] => st
  | (id, seen_at) :: rows =>
      upsert_robots
        (st.write s (.robot id) (.robot (upsert seen_at.instant (st.visible s (.robot id))))) s rows

-- The statement waits, which is `none`, while another transaction holds one of
-- its rows.
def mark_seen (db : Database σ ι) (s : σ) (last_seen_by_robot : List (Int × Datetime)) :
    Option (Database σ ι) :=
  if last_seen_by_robot.any fun p => db.store.locked s (.robot p.1) then none
  else some { db with store := upsert_robots db.store s last_seen_by_robot }

def Database.commit (db : Database σ ι) (s : σ) : Database σ ι :=
  { db with store := db.store.commit s }

def Database.rollback (db : Database σ ι) (s : σ) : Database σ ι :=
  { db with store := db.store.rollback s }

end Statements

-- The committed rows of the telemetry table: rows are only ever inserted.
def inserted (writes : List (Write σ Key (Version ι))) : List (ι × TelemetryRow) :=
  writes.filterMap fun w => match w.after with
    | .telemetry source row => some (source, row)
    | .robot _ => none

def Database.telemetry (db : Database σ ι) : List (ι × TelemetryRow) := inserted db.store.log

def Database.robot (db : Database σ ι) (id : Int) : Option Robot :=
  match db.store.committed (.robot id) with
  | some (.robot row) => some row
  | _ => none

section Rules

-- Telemetry rows are inserted, once. A robot's row is registered active and
-- then only its last_seen changes, forward.
inductive Follows : Key → Option (Version ι) → Version ι → Prop where
  | telemetry (id : Nat) (source : ι) (row : TelemetryRow) :
      Follows (.telemetry id) none (.telemetry source row)
  | register (id : Int) (seen_at : Instant) :
      Follows (.robot id) none (.robot ⟨true, some seen_at⟩)
  | seen (id : Int) (row : Robot) (seen_at : Instant) (hle : ∀ t ∈ row.last_seen, t ≤ seen_at) :
      Follows (.robot id) (some (.robot row)) (.robot { row with last_seen := some seen_at })

-- What later versions keep of an earlier one.
inductive Kept : Version ι → Version ι → Prop where
  | same (version : Version ι) : Kept version version
  | seen (row row' : Robot) (hle : ∀ t ∈ row.last_seen, ∃ t' ∈ row'.last_seen, t ≤ t') :
      Kept (.robot row) (.robot row')

theorem Kept.trans {a b c : Version ι} (hab : Kept a b) (hbc : Kept b c) : Kept a c := by
  cases hab with
  | same => exact hbc
  | seen row row' hle =>
      cases hbc with
      | same => exact .seen row row' hle
      | seen _ row'' hle' =>
          refine .seen row row'' fun t ht => ?_
          obtain ⟨t', ht', hlt⟩ := hle t ht
          obtain ⟨t'', ht'', hlt'⟩ := hle' t' ht'
          exact ⟨t'', ht'', hlt.trans hlt'⟩

theorem kept_of_follows {key : Key} {a b : Version ι} (h : Follows key (some a) b) : Kept a b := by
  cases h with
  | seen id row seen_at hle => exact .seen row _ fun t ht => ⟨seen_at, rfl, hle t ht⟩

end Rules

section LatestByRobot

-- Each robot of the rows is there with a time no earlier than any of its rows'.
theorem latest_by_robot_covers {seen rows latest : List (Int × Datetime)}
    (h : latest_by_robot seen rows = some latest) :
    (∀ id t, seen.lookup id = some t →
        ∃ t', latest.lookup id = some t' ∧ t.instant ≤ t'.instant) ∧
      ∀ p ∈ rows, ∃ t', latest.lookup p.1 = some t' ∧ p.2.instant ≤ t'.instant := by
  induction rows generalizing seen with
  | nil =>
      cases h
      exact ⟨fun id t ht => ⟨t, ht, le_refl _⟩, by simp⟩
  | cons p rows ih =>
      obtain ⟨robot_id, ts⟩ := p
      simp only [latest_by_robot, Option.bind_eq_bind, Option.bind_eq_some_iff] at h
      obtain ⟨newer, hnewer, hrest⟩ := h
      obtain ⟨hseen, hrows⟩ := ih hrest
      -- The dict after this row has the row's robot no earlier than both.
      have hnext : ∃ t, (if newer then setItem seen robot_id ts else seen).lookup robot_id =
          some t ∧ ts.instant ≤ t.instant ∧ ∀ old ∈ seen.lookup robot_id, old.instant ≤ t.instant := by
        cases hold : seen.lookup robot_id with
        | none =>
            rw [hold] at hnewer
            cases hnewer
            exact ⟨ts, by simp [lookup_setItem], le_refl _, by simp⟩
        | some old =>
            rw [hold] at hnewer
            simp only [Option.elim_some, later] at hnewer
            split at hnewer
            · by_cases hlt : old.instant < ts.instant
              · simp only [hlt, decide_true, Option.some.injEq] at hnewer
                subst hnewer
                exact ⟨ts, by simp [lookup_setItem], le_refl _, by simpa using hlt.le⟩
              · simp only [hlt, decide_false, Option.some.injEq] at hnewer
                subst hnewer
                exact ⟨old, by simp [hold], by omega, by simp⟩
            · cases hnewer
      obtain ⟨t, hlookup, hts, hold⟩ := hnext
      refine ⟨fun id old hid => ?_, ?_⟩
      · by_cases heq : id = robot_id
        · subst heq
          obtain ⟨t', ht', hle⟩ := hseen id t hlookup
          exact ⟨t', ht', (hold old hid).trans hle⟩
        · apply hseen id old
          split
          · rw [lookup_setItem, if_neg (by simpa using heq), hid]
          · exact hid
      · intro p hp
        rcases List.mem_cons.mp hp with rfl | hp
        · obtain ⟨t', ht', hle⟩ := hseen robot_id t hlookup
          exact ⟨t', ht', hts.trans hle⟩
        · exact hrows p hp

-- Every time in the dict is one of the rows'.
theorem mem_latest_by_robot {seen rows latest : List (Int × Datetime)}
    (h : latest_by_robot seen rows = some latest) : ∀ p ∈ latest, p ∈ seen ∨ p ∈ rows := by
  induction rows generalizing seen with
  | nil =>
      cases h
      exact fun p hp => Or.inl hp
  | cons q rows ih =>
      obtain ⟨robot_id, ts⟩ := q
      simp only [latest_by_robot, Option.bind_eq_bind, Option.bind_eq_some_iff] at h
      obtain ⟨newer, _, hrest⟩ := h
      intro p hp
      rcases ih hrest p hp with hseen | hrow
      · cases newer with
        | false => exact Or.inl hseen
        | true =>
            rcases mem_setItem hseen with rfl | hseen
            · exact Or.inr (List.mem_cons_self ..)
            · exact Or.inl hseen
      · exact Or.inr (List.mem_cons_of_mem _ hrow)

-- Aware times compare with each other.
theorem latest_by_robot_isSome (seen : List (Int × Datetime)) {rows : List (Int × Datetime)}
    (hseen : ∀ p ∈ seen, p.2.aware = true) (hrows : ∀ p ∈ rows, p.2.aware = true) :
    (latest_by_robot seen rows).isSome = true := by
  induction rows generalizing seen with
  | nil => rfl
  | cons p rows ih =>
      obtain ⟨robot_id, ts⟩ := p
      have hts : ts.aware = true := hrows (robot_id, ts) (by simp)
      have hset : ∀ p ∈ setItem seen robot_id ts, p.2.aware = true := by
        intro p hp
        rcases mem_setItem hp with rfl | hp
        · exact hts
        · exact hseen p hp
      have hrest : ∀ newer : Bool,
          (latest_by_robot (if newer then setItem seen robot_id ts else seen) rows).isSome := by
        intro newer
        refine ih _ ?_ fun p hp => hrows p (List.mem_cons_of_mem _ hp)
        cases newer
        · exact hseen
        · exact hset
      simp only [latest_by_robot, Option.bind_eq_bind]
      cases hold : seen.lookup robot_id with
      | none => exact hrest true
      | some old =>
          have hawake : old.aware = true := hseen _ (mem_of_lookup hold)
          simp only [Option.elim_some, later, hts, hawake, if_true, Option.bind_some]
          exact hrest _

end LatestByRobot

section Soundness

variable [DecidableEq σ]

structure Database.Sound (db : Database σ ι) : Prop where
  store : RowStore.Sound Follows db.store
  fresh : ∀ w ∈ db.store.log ++ db.store.dirty, ∀ id, w.key = .telemetry id → id < db.serial

omit [DecidableEq σ] in
theorem sound_empty_database : (Database.empty : Database σ ι).Sound where
  store := sound_empty
  fresh := by simp [Database.empty, Store.empty]

omit [DecidableEq σ] in
@[simp] theorem inserted_append (xs ys : List (Write σ Key (Version ι))) :
    inserted (xs ++ ys) = inserted xs ++ inserted ys :=
  List.filterMap_append

omit [DecidableEq σ] in
@[simp] theorem inserted_telemetry (s : σ) (key : Key) (before : Option (Version ι)) (source : ι)
    (row : TelemetryRow) :
    inserted [⟨s, key, before, .telemetry source row⟩] = [(source, row)] := rfl

omit [DecidableEq σ] in
@[simp] theorem inserted_robot (s : σ) (key : Key) (before : Option (Version ι)) (row : Robot) :
    inserted [(⟨s, key, before, .robot row⟩ : Write σ Key (Version ι))] = [] := rfl

theorem Database.Sound.next_free {db : Database σ ι} (hdb : db.Sound) (s : σ) :
    db.store.locked s (.telemetry db.serial) = false ∧
      db.store.visible s (.telemetry db.serial) = none := by
  constructor
  · rw [locked_eq_false_iff]
    intro w hw hkey
    have hlt := hdb.fresh w (List.mem_append_right _ hw) _ hkey
    omega
  · rw [Store.visible, latest_eq_none_iff, lineage, List.filter_eq_nil_iff]
    intro w hw
    simp only [decide_eq_true_eq]
    intro hkey
    have hmem : w ∈ db.store.log ++ db.store.dirty := by
      rcases List.mem_append.mp hw with hw | hw
      · exact List.mem_append_left _ hw
      · exact List.mem_append_right _ (mem_mine.mp hw).1
    have hlt := hdb.fresh w hmem _ hkey
    omega

theorem insert_telemetry_spec {db : Database σ ι} (hdb : db.Sound) (s : σ)
    (rows : List (ι × TelemetryRow)) :
    (insert_telemetry db s rows).Sound ∧
      Writes Follows s db.store (insert_telemetry db s rows).store ∧
      inserted ((insert_telemetry db s rows).store.mine s) = inserted (db.store.mine s) ++ rows := by
  induction rows generalizing db with
  | nil => exact ⟨hdb, .nil _, by simp [insert_telemetry]⟩
  | cons p rows ih =>
      obtain ⟨source, row⟩ := p
      obtain ⟨hfree, hnone⟩ := hdb.next_free s
      have hrow : Follows (.telemetry db.serial) (db.store.visible s (.telemetry db.serial))
          (.telemetry source row) := by
        rw [hnone]
        exact .telemetry _ _ _
      have hnext : (⟨db.store.write s (.telemetry db.serial) (.telemetry source row),
          db.serial + 1⟩ : Database σ ι).Sound :=
        { store := hdb.store.write hfree hrow
          fresh := by
            intro w hw id hkey
            simp only [Store.write, ← List.append_assoc] at hw
            rcases List.mem_append.mp hw with hw | hw
            · have hlt := hdb.fresh w hw id hkey
              exact Nat.lt_succ_of_lt hlt
            · rw [List.mem_singleton.mp hw] at hkey
              cases hkey
              exact Nat.lt_succ_self _ }
      obtain ⟨hsound, hwrites, hmine⟩ := ih hnext
      refine ⟨hsound, .cons _ _ hfree hrow hwrites, ?_⟩
      rw [insert_telemetry, hmine, mine_write_self]
      simp

omit [DecidableEq σ] in
theorem robot_rows {st : Store σ Key (Version ι)} (hs : RowStore.Sound Follows st) :
    ∀ w ∈ st.log ++ st.dirty, ∀ id, w.key = .robot id → ∃ row, w.after = .robot row := by
  have hall := hs.forall_after
    (P := fun key version => ∀ id, key = .robot id → ∃ row, version = .robot row) ?_ ?_
  · exact hall
  · intro key after h id hid
    cases h with
    | telemetry => cases hid
    | register => exact ⟨_, rfl⟩
  · intro key before after _ h id hid
    cases h with
    | seen => exact ⟨_, rfl⟩

theorem follows_upsert {st : Store σ Key (Version ι)} (hs : RowStore.Sound Follows st) (s : σ)
    (id : Int) (seen_at : Instant) :
    Follows (.robot id) (st.visible s (.robot id))
      (.robot (upsert seen_at (st.visible s (.robot id)))) := by
  cases hv : st.visible s (.robot id) with
  | none => exact .register id seen_at
  | some version =>
      obtain ⟨w, hw, hkey, hafter⟩ := exists_write_of_latest hv
      have hmem : w ∈ st.log ++ st.dirty := by
        rcases List.mem_append.mp hw with hw | hw
        · exact List.mem_append_left _ hw
        · exact List.mem_append_right _ (mem_mine.mp hw).1
      obtain ⟨row, hrow⟩ := robot_rows hs w hmem id hkey
      rw [← hafter, hrow]
      refine .seen id row _ fun t ht => ?_
      rw [Option.mem_def.mp ht]
      exact le_max_right _ _

omit [DecidableEq σ] in
theorem last_seen_upsert (seen_at : Instant) (version : Option (Version ι)) :
    ∃ t ∈ (upsert seen_at version).last_seen, seen_at ≤ t := by
  unfold upsert
  split
  · exact ⟨_, rfl, le_max_left _ _⟩
  · exact ⟨_, rfl, le_refl _⟩

-- The statement writes every robot it is given, with no earlier time.
theorem upsert_robots_spec {st : Store σ Key (Version ι)} (hs : RowStore.Sound Follows st) {s : σ}
    {rows : List (Int × Datetime)} (hfree : ∀ p ∈ rows, st.locked s (.robot p.1) = false) :
    Writes Follows s st (upsert_robots st s rows) ∧
      inserted ((upsert_robots st s rows).mine s) = inserted (st.mine s) ∧
      (∀ w ∈ (upsert_robots st s rows).dirty, w ∈ st.dirty ∨ ∃ id, w.key = .robot id) ∧
      ∀ p ∈ rows, ∃ w ∈ (upsert_robots st s rows).mine s, w.key = .robot p.1 ∧
        ∃ row t, w.after = .robot row ∧ row.last_seen = some t ∧ p.2.instant ≤ t := by
  induction rows generalizing st with
  | nil => exact ⟨.nil _, rfl, fun w hw => Or.inl hw, by simp⟩
  | cons p rows ih =>
      obtain ⟨id, seen_at⟩ := p
      have hlock : st.locked s (.robot id) = false := hfree _ (List.mem_cons_self ..)
      have hrow := follows_upsert hs s id seen_at.instant
      obtain ⟨hwrites, hins, hdirty, hrest⟩ := ih (hs.write hlock hrow) fun q hq => by
        rw [locked_write_self]
        exact hfree q (List.mem_cons_of_mem _ hq)
      refine ⟨.cons _ _ hlock hrow hwrites, ?_, ?_, ?_⟩
      · rw [upsert_robots, hins, mine_write_self]
        simp
      · intro w hw
        rcases hdirty w hw with hw | hw
        · rcases List.mem_append.mp hw with hw | hw
          · exact Or.inl hw
          · rw [List.mem_singleton.mp hw]
            exact Or.inr ⟨id, rfl⟩
        · exact Or.inr hw
      · intro q hq
        rcases List.mem_cons.mp hq with rfl | hq
        · obtain ⟨t, ht, hle⟩ := last_seen_upsert seen_at.instant (st.visible s (.robot id))
          refine ⟨_, hwrites.mine_subset (w := ⟨s, .robot id, st.visible s (.robot id), _⟩) ?_, rfl,
            _, t, rfl, ht, hle⟩
          rw [mine_write_self]
          exact List.mem_append_right _ (by simp)
        · exact hrest q hq

theorem mark_seen_spec {db db' : Database σ ι} (hdb : db.Sound) {s : σ}
    {seen : List (Int × Datetime)} (h : mark_seen db s seen = some db') :
    db'.Sound ∧ Writes Follows s db.store db'.store ∧
      inserted (db'.store.mine s) = inserted (db.store.mine s) ∧
      ∀ p ∈ seen, ∃ w ∈ db'.store.mine s, w.key = .robot p.1 ∧
        ∃ row t, w.after = .robot row ∧ row.last_seen = some t ∧ p.2.instant ≤ t := by
  unfold mark_seen at h
  split at h
  · cases h
  · rename_i hlocked
    cases h
    have hfree : ∀ p ∈ seen, db.store.locked s (.robot p.1) = false := by
      simpa using hlocked
    obtain ⟨hwrites, hins, hdirty, hseen⟩ := upsert_robots_spec hdb.store hfree
    refine ⟨⟨hdb.store.writes hwrites, ?_⟩, hwrites, hins, hseen⟩
    intro w hw id hkey
    rw [hwrites.log_eq] at hw
    rcases List.mem_append.mp hw with hw | hw
    · exact hdb.fresh w (List.mem_append_left _ hw) id hkey
    · rcases hdirty w hw with hw | ⟨robot_id, hrobot⟩
      · exact hdb.fresh w (List.mem_append_right _ hw) id hkey
      · rw [hrobot] at hkey
        cases hkey

theorem Database.Sound.commit {db : Database σ ι} (hdb : db.Sound) (s : σ) : (db.commit s).Sound where
  store := hdb.store.commit s
  fresh := by
    intro w hw
    apply hdb.fresh w
    simp only [Database.commit, Store.commit, List.mem_append, mem_mine, mem_theirs] at hw ⊢
    rcases hw with (hw | hw) | hw
    · exact Or.inl hw
    · exact Or.inr hw.1
    · exact Or.inr hw.1

theorem Database.Sound.rollback {db : Database σ ι} (hdb : db.Sound) (s : σ) :
    (db.rollback s).Sound where
  store := hdb.store.rollback s
  fresh := by
    intro w hw
    apply hdb.fresh w
    simp only [Database.rollback, Store.rollback, List.mem_append, mem_theirs] at hw ⊢
    exact hw.imp_right And.left

-- What one step of transaction `s` does to the database.
inductive Change (s : σ) (db : Database σ ι) : Database σ ι → Prop where
  | same : Change s db db
  | writes {db' : Database σ ι} (hsound : db'.Sound) (hw : Writes Follows s db.store db'.store) :
      Change s db db'
  | commit : Change s db (db.commit s)
  | rollback : Change s db (db.rollback s)

theorem insert_telemetry_change {db : Database σ ι} (hdb : db.Sound) (s : σ)
    (rows : List (ι × TelemetryRow)) : Change s db (insert_telemetry db s rows) :=
  .writes (insert_telemetry_spec hdb s rows).1 (insert_telemetry_spec hdb s rows).2.1

theorem mark_seen_change {db db' : Database σ ι} (hdb : db.Sound) {s : σ}
    {seen : List (Int × Datetime)} (h : mark_seen db s seen = some db') : Change s db db' :=
  .writes (mark_seen_spec hdb h).1 (mark_seen_spec hdb h).2.1

theorem Change.sound {s : σ} {db db' : Database σ ι} (h : Change s db db') (hdb : db.Sound) :
    db'.Sound := by
  cases h with
  | same => exact hdb
  | writes hsound _ => exact hsound
  | commit => exact hdb.commit s
  | rollback => exact hdb.rollback s

theorem Change.mine_of_ne {s : σ} {db db' : Database σ ι} (h : Change s db db') {s' : σ}
    (hne : s' ≠ s) : db'.store.mine s' = db.store.mine s' := by
  cases h with
  | same => rfl
  | writes _ hw => exact hw.mine_of_ne hne
  | commit => exact mine_commit_of_ne db.store hne
  | rollback => exact mine_rollback_of_ne db.store hne

theorem Change.done_of_ne {s : σ} {db db' : Database σ ι} (h : Change s db db') {s' : σ}
    (hne : s' ≠ s) : db'.store.done s' = db.store.done s' := by
  cases h with
  | same => rfl
  | writes _ hw => simp only [Store.done, hw.log_eq]
  | commit => exact done_commit_of_ne db.store hne
  | rollback => rfl

theorem Change.log_prefix {s : σ} {db db' : Database σ ι} (h : Change s db db') :
    ∃ more, db'.store.log = db.store.log ++ more := by
  cases h with
  | same => exact ⟨[], by simp⟩
  | writes _ hw => exact ⟨[], by simp [hw.log_eq]⟩
  | commit => exact ⟨db.store.mine s, rfl⟩
  | rollback => exact ⟨[], by simp [Database.rollback, Store.rollback]⟩

theorem Change.telemetry_subset {s : σ} {db db' : Database σ ι} (h : Change s db db')
    {p : ι × TelemetryRow} (hp : p ∈ db.telemetry) : p ∈ db'.telemetry := by
  obtain ⟨more, hmore⟩ := h.log_prefix
  rw [Database.telemetry, hmore, inserted_append]
  exact List.mem_append_left _ hp

omit [DecidableEq σ] in
theorem telemetry_rows {st : Store σ Key (Version ι)} (hs : RowStore.Sound Follows st) :
    ∀ w ∈ st.log ++ st.dirty, ∀ source row, w.after = .telemetry source row →
      ∃ id, w.key = .telemetry id := by
  refine hs.forall_after (P := fun key version => ∀ source row, version = .telemetry source row →
    ∃ id, key = .telemetry id) ?_ ?_
  · intro key after h source row hrow
    cases h with
    | telemetry id => exact ⟨id, rfl⟩
    | register => cases hrow
  · intro key before after _ h source row hrow
    cases h with
    | seen => cases hrow

omit [DecidableEq σ] in
-- A telemetry row that has been committed stays as it is.
theorem Database.Sound.committed_telemetry {db : Database σ ι} (hdb : db.Sound) {source : ι}
    {row : TelemetryRow} (h : (source, row) ∈ db.telemetry) :
    ∃ id, db.store.committed (.telemetry id) = some (.telemetry source row) := by
  obtain ⟨w, hw, hafter⟩ := List.mem_filterMap.mp h
  have hversion : w.after = .telemetry source row := by
    cases hrow : w.after with
    | telemetry source' row' =>
        rw [hrow] at hafter
        cases hafter
        rfl
    | robot _ =>
        rw [hrow] at hafter
        cases hafter
  obtain ⟨id, hkey⟩ := telemetry_rows hdb.store w (List.mem_append_left _ hw) source row hversion
  obtain ⟨version, hcommitted, hkept⟩ := hdb.store.committed_of_mem (Q := Kept) .same
    (fun _ _ _ => Kept.trans) (fun _ _ _ => kept_of_follows) hw
  rw [hversion] at hkept
  cases hkept
  exact ⟨id, hkey ▸ hcommitted⟩

omit [DecidableEq σ] in
-- A robot's committed row is never behind a time that was committed for it.
theorem Database.Sound.robot_of_mem {db : Database σ ι} (hdb : db.Sound)
    {w : Write σ Key (Version ι)} (hw : w ∈ db.store.log) {id : Int} (hkey : w.key = .robot id)
    {row : Robot} (hafter : w.after = .robot row) {t : Instant} (ht : row.last_seen = some t) :
    ∃ row' t', db.robot id = some row' ∧ row'.last_seen = some t' ∧ t ≤ t' := by
  obtain ⟨version, hcommitted, hkept⟩ := hdb.store.committed_of_mem (Q := Kept) .same
    (fun _ _ _ => Kept.trans) (fun _ _ _ => kept_of_follows) hw
  rw [hkey] at hcommitted
  rw [hafter] at hkept
  cases hkept with
  | same => exact ⟨row, t, by simp [Database.robot, hcommitted], ht, le_refl _⟩
  | seen _ row' hle =>
      obtain ⟨t', ht', hlt⟩ := hle t ht
      exact ⟨row', t', by simp [Database.robot, hcommitted], ht', hlt⟩

theorem telemetry_commit (db : Database σ ι) (s : σ) :
    (db.commit s).telemetry = db.telemetry ++ inserted (db.store.mine s) := by
  rw [Database.telemetry, Database.commit, log_commit, inserted_append]
  rfl

end Soundness

section Counts

-- The table has one row of the reading.
def Database.soleRow (db : Database σ ι) (source : ι) : Prop :=
  ∃! key, ∃ row, db.store.committed (.telemetry key) = some (.telemetry source row)

variable [DecidableEq ι]

-- How many rows of the table were made from a reading.
def Database.rowsOf (db : Database σ ι) (source : ι) : Nat :=
  (db.telemetry.map Prod.fst).count source

variable [DecidableEq σ]

-- How many more an open transaction has inserted.
def Database.openRowsOf (db : Database σ ι) (s : σ) (source : ι) : Nat :=
  ((inserted (db.store.mine s)).map Prod.fst).count source

@[simp] theorem rowsOf_commit (db : Database σ ι) (s : σ) (source : ι) :
    (db.commit s).rowsOf source = db.rowsOf source + db.openRowsOf s source := by
  simp [Database.rowsOf, Database.openRowsOf, telemetry_commit]

@[simp] theorem rowsOf_rollback (db : Database σ ι) (s : σ) (source : ι) :
    (db.rollback s).rowsOf source = db.rowsOf source := rfl

@[simp] theorem openRowsOf_commit (db : Database σ ι) (s : σ) (source : ι) :
    (db.commit s).openRowsOf s source = 0 := by
  simp [Database.openRowsOf, Database.commit, inserted]

@[simp] theorem openRowsOf_rollback (db : Database σ ι) (s : σ) (source : ι) :
    (db.rollback s).openRowsOf s source = 0 := by
  simp [Database.openRowsOf, Database.rollback, inserted]

theorem rowsOf_insert_telemetry {db : Database σ ι} (hdb : db.Sound) (s : σ)
    (rows : List (ι × TelemetryRow)) (source : ι) :
    (insert_telemetry db s rows).rowsOf source = db.rowsOf source ∧
      (insert_telemetry db s rows).openRowsOf s source =
        db.openRowsOf s source + (rows.map Prod.fst).count source := by
  obtain ⟨_, hwrites, hmine⟩ := insert_telemetry_spec hdb s rows
  exact ⟨by simp only [Database.rowsOf, Database.telemetry, hwrites.log_eq],
    by simp [Database.openRowsOf, hmine]⟩

theorem rowsOf_mark_seen {db db' : Database σ ι} (hdb : db.Sound) {s : σ}
    {seen : List (Int × Datetime)} (h : mark_seen db s seen = some db') (source : ι) :
    db'.rowsOf source = db.rowsOf source ∧ db'.openRowsOf s source = db.openRowsOf s source := by
  obtain ⟨_, hwrites, hmine, _⟩ := mark_seen_spec hdb h
  exact ⟨by simp only [Database.rowsOf, Database.telemetry, hwrites.log_eq],
    by simp only [Database.openRowsOf, hmine]⟩

theorem Change.openRowsOf_of_ne {s : σ} {db db' : Database σ ι} (h : Change s db db') {s' : σ}
    (hne : s' ≠ s) (source : ι) : db'.openRowsOf s' source = db.openRowsOf s' source := by
  simp only [Database.openRowsOf, h.mine_of_ne hne]

-- A step adds no row of a reading that its transaction has not inserted.
theorem Change.rowsOf_eq {s : σ} {db db' : Database σ ι} (h : Change s db db') {source : ι}
    (hopen : db.openRowsOf s source = 0) : db'.rowsOf source = db.rowsOf source := by
  cases h with
  | same | rollback => rfl
  | writes _ hw => simp only [Database.rowsOf, Database.telemetry, hw.log_eq]
  | commit => rw [rowsOf_commit, hopen, Nat.add_zero]

omit [DecidableEq σ] in
-- Two keys of one reading are two rows of it.
theorem unique_of_rowsOf {db : Database σ ι} {source : ι} (hrows : db.rowsOf source ≤ 1)
    {key key' : Nat} {row row' : TelemetryRow}
    (hkey : db.store.committed (.telemetry key) = some (.telemetry source row))
    (hkey' : db.store.committed (.telemetry key') = some (.telemetry source row')) : key = key' := by
  by_contra hne
  obtain ⟨w, hw, hwkey, hafter⟩ := exists_write_of_latest hkey
  obtain ⟨w', hw', hwkey', hafter'⟩ := exists_write_of_latest hkey'
  have hmem : ∀ {writes : List (Write σ Key (Version ι))} {v : Write σ Key (Version ι)}
      {r : TelemetryRow}, v ∈ writes → v.after = .telemetry source r →
        0 < ((inserted writes).map Prod.fst).count source := by
    intro writes v r hv hr
    rw [List.count_pos_iff]
    exact List.mem_map.mpr ⟨(source, r), List.mem_filterMap.mpr ⟨v, hv, by simp [hr]⟩, rfl⟩
  obtain ⟨before, rest, hlog⟩ := List.append_of_mem hw
  have hcount : db.rowsOf source = ((inserted before).map Prod.fst).count source +
      (1 + ((inserted rest).map Prod.fst).count source) := by
    have hcons : w :: rest = [w] ++ rest := rfl
    have hone : inserted [w] = [(source, row)] := by simp [inserted, hafter]
    simp only [Database.rowsOf, Database.telemetry, hlog, hcons, inserted_append, hone,
      List.map_append, List.count_append, List.map_cons, List.map_nil, List.count_singleton_self]
  have hother : w' ∈ before ∨ w' ∈ rest := by
    rw [hlog] at hw'
    rcases List.mem_append.mp hw' with h | h
    · exact Or.inl h
    · rcases List.mem_cons.mp h with rfl | h
      · rw [hwkey'] at hwkey
        cases hwkey
        exact absurd rfl hne
      · exact Or.inr h
  rcases hother with h | h
  · have hpos := hmem h hafter'
    omega
  · have hpos := hmem h hafter'
    omega

end Counts

end FleetOps.Telemetry
