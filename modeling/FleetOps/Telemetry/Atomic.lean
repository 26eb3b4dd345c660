import FleetOps.Telemetry.Acknowledged

namespace FleetOps.Telemetry

open Runs RowStore

variable {env : Env} {T : Type}

section Model

-- The states of a call that does not raise any more.
def CallState.succeeded : CallState → Bool
  | .publish _ _ | .acknowledged _ => true
  | _ => false

-- A call that raised has committed nothing; one that succeeded has all its readings in the
-- table and their robots in the roster.
structure Atomic (s : Service T) (id : TaskId) (ingestion : Ingestion) : Prop where
  raised : s.tasks id = some (.call ingestion .raised) → s.db.store.done id = []
  succeeded : ∀ state, s.tasks id = some (.call ingestion state) → state.succeeded = true →
    Covers id ingestion.readings.length (s.db.telemetry.map Prod.fst) ∧
      ∀ data ∈ ingestion.readings, (s.db.robot data.robot_id).isSome = true

-- What a call has committed while it still has steps to take that may raise.
def CallState.half : CallState → List Measured
  | .refresh rows _ | .mark_seen rows _ | .commit rows _ => rows
  | _ => []

-- Whether the step converts the rows of the call just after a commit.
def CallState.converts (ingestion : Ingestion) : CallState → List Measured
  | .commit_insert rows _ =>
      match ingestion with
      | .ingest _ => []
      | .ingest_batch _ => rows
  | .commit rows _ => rows
  | _ => []

-- Nothing of the call raises once its first commit has gone through: no statement or
-- commit that comes later, and no conversion to a payload.
def Unraised (id : TaskId) (ingestion : Ingestion) (s : Service T) : Label → Prop
  | .fail id' => id' = id →
      ∀ state, s.tasks id = some (.call ingestion state) → state.half = []
  | .advance id' _ => id' = id → ∀ state, s.tasks id = some (.call ingestion state) →
      (broadcastDicts (state.converts ingestion)).isSome = true
  | _ => True

end Model

section Invariant

-- The rows of a call are its readings.
structure RowsOf (id : TaskId) (readings : List TelemetryCreate) (rows : List Measured) : Prop where
  covers : Covers id readings.length (rows.map Measured.source)
  data : ∀ data ∈ readings, ∃ row ∈ rows, row.data = data

def Registers (db : Database TaskId Source) (id : TaskId) (rows : List Measured) : Prop :=
  ∀ row ∈ rows, ∃ w ∈ db.store.mine id, w.key = .robot row.data.robot_id

-- What the session of a direct call has written and committed, state by state.
def CallState.written (db : Database TaskId Source) (id : TaskId) (readings : List TelemetryCreate) :
    CallState → Prop
  | .insert rows => RowsOf id readings rows ∧ db.store.done id = [] ∧ db.store.mine id = []
  | .commit_insert rows _ => RowsOf id readings rows ∧ db.store.done id = [] ∧
      Covers id readings.length ((inserted (db.store.mine id)).map Prod.fst) ∧
      (db.store.mine id = [] ↔ rows = [])
  | .refresh rows _ | .mark_seen rows _ => RowsOf id readings rows ∧
      (db.store.done id = [] ↔ rows = []) ∧ db.store.mine id = [] ∧
      Covers id readings.length (db.telemetry.map Prod.fst)
  | .commit rows _ => RowsOf id readings rows ∧ (db.store.done id = [] ↔ rows = []) ∧
      Registers db id rows ∧ Covers id readings.length (db.telemetry.map Prod.fst) ∧
      (rows = [] → db.store.mine id = [])
  | .publish _ _ | .acknowledged _ => Covers id readings.length (db.telemetry.map Prod.fst) ∧
      ∀ data ∈ readings, (db.robot data.robot_id).isSome = true
  | .raised => True
  | .buffer _ => False

structure Direct (s : Service T) (id : TaskId) (ingestion : Ingestion) : Prop where
  sound : s.db.Sound
  written : ∃ state, s.tasks id = some (.call ingestion state) ∧ state.written s.db id ingestion.readings

def Service.raisedClean (s : Service T) (id : TaskId) (ingestion : Ingestion) : Prop :=
  s.tasks id = some (.call ingestion .raised) → s.db.store.done id = []

end Invariant

section Roster

theorem robot_isSome_iff {db : Database TaskId Source} (hdb : db.Sound) {robot_id : Int} :
    (db.robot robot_id).isSome = true ↔ ∃ w ∈ db.store.log, w.key = .robot robot_id := by
  have hrobot : ∀ version, db.store.committed (.robot robot_id) = some version →
      ∃ row, version = .robot row := by
    intro version hversion
    obtain ⟨w, hw, hkey, rfl⟩ := exists_write_of_latest hversion
    exact robot_rows hdb.store w (List.mem_append_left _ hw) robot_id hkey
  constructor
  · intro hsome
    cases hversion : db.store.committed (.robot robot_id) with
    | none => simp [Database.robot, hversion] at hsome
    | some version =>
        obtain ⟨w, hw, hkey, _⟩ := exists_write_of_latest hversion
        exact ⟨w, hw, hkey⟩
  · rintro ⟨w, hw, hkey⟩
    obtain ⟨version, hversion⟩ := latest_isSome_of_mem hw
    rw [hkey] at hversion
    obtain ⟨row, rfl⟩ := hrobot version hversion
    have hcommitted : db.store.committed (.robot robot_id) = some (.robot row) := hversion
    simp [Database.robot, hcommitted]

theorem Change.robot_isSome {s : TaskId} {db db' : Database TaskId Source} (h : Change s db db')
    (hdb : db.Sound) {robot_id : Int} (hsome : (db.robot robot_id).isSome = true) :
    (db'.robot robot_id).isSome = true := by
  obtain ⟨w, hw, hkey⟩ := (robot_isSome_iff hdb).mp hsome
  obtain ⟨more, hmore⟩ := h.log_prefix
  exact (robot_isSome_iff (h.sound hdb)).mpr ⟨w, hmore ▸ List.mem_append_left _ hw, hkey⟩

theorem Change.covers {s : TaskId} {db db' : Database TaskId Source} (h : Change s db db')
    {id : TaskId} {n : Nat} (hcovers : Covers id n (db.telemetry.map Prod.fst)) :
    Covers id n (db'.telemetry.map Prod.fst) := by
  intro i hi
  obtain ⟨p, hp, hsource⟩ := List.mem_map.mp (hcovers i hi)
  exact List.mem_map.mpr ⟨p, h.telemetry_subset hp, hsource⟩

end Roster

section Steps

variable {db db' : Database TaskId Source} {id : TaskId} {ingestion : Ingestion}

-- Another task's step leaves the session of a call as it is.
theorem written_other {state : CallState} (hdb : db.Sound) {id' : TaskId} (hne : id ≠ id')
    (hchange : Change id' db db') {readings : List TelemetryCreate}
    (h : state.written db id readings) : state.written db' id readings := by
  have hmine := hchange.mine_of_ne hne
  have hdone := hchange.done_of_ne hne
  cases state with
  | insert rows | commit_insert rows row_id =>
      simp only [CallState.written, hmine, hdone] at h ⊢
      exact h
  | refresh rows row_id | mark_seen rows row_id =>
      simp only [CallState.written, hmine, hdone] at h ⊢
      exact ⟨h.1, h.2.1, h.2.2.1, hchange.covers h.2.2.2⟩
  | commit rows row_id =>
      simp only [CallState.written, Registers, hmine, hdone] at h ⊢
      exact ⟨h.1, h.2.1, h.2.2.1, hchange.covers h.2.2.2.1, h.2.2.2.2⟩
  | publish payloads ack | acknowledged ack =>
      exact ⟨hchange.covers h.1, fun data hdata => hchange.robot_isSome hdb (h.2 data hdata)⟩
  | raised => trivial
  | buffer rows => exact h

theorem insert_telemetry_nil_iff {values : List (Source × TelemetryRow)} (hdb : db.Sound)
    (hmine : db.store.mine id = []) :
    (insert_telemetry db id values).store.mine id = [] ↔ values = [] := by
  have hinserted := (insert_telemetry_spec hdb id values).2.2
  rw [hmine] at hinserted
  constructor
  · intro hnil
    rw [hnil] at hinserted
    exact hinserted.symm
  · rintro rfl
    exact hmine

-- `mark_seen` writes the robot of every row.
theorem mark_seen_registers {rows : List Measured} {latest : List (Int × Calendar.Datetime)}
    (hdb : db.Sound) (hlatest : latest_by_robot [] (lastSeen rows) = some latest)
    (h : mark_seen db id latest = some db') : Registers db' id rows := by
  intro row hrow
  obtain ⟨t', hlookup, _⟩ := (latest_by_robot_covers hlatest).2
    (row.data.robot_id, row.timestamp.datetime) (List.mem_map.mpr ⟨row, hrow, rfl⟩)
  obtain ⟨w, hw, hkey, _⟩ := (mark_seen_spec hdb h).2.2.2 _ (Dict.mem_of_lookup hlookup)
  exact ⟨w, hw, hkey⟩

theorem ne_nil_of_broadcastDicts {rows : List Measured} (h : broadcastDicts rows = none) :
    rows ≠ [] := by
  rintro rfl
  cases h

theorem written_insert {rows : List Measured} {row_id : Nat} {values : List (Source × TelemetryRow)}
    {readings : List TelemetryCreate} (hdb : db.Sound) (hvalues : insertRows rows = some values)
    (h : (CallState.insert rows).written db id readings) :
    (CallState.commit_insert rows row_id).written (insert_telemetry db id values) id readings := by
  obtain ⟨hrows, hdone, hmine⟩ := h
  obtain ⟨_, hwrites, hinserted⟩ := insert_telemetry_spec hdb id values
  have hnil : values = [] ↔ rows = [] := by
    rw [← List.map_eq_nil_iff (f := Prod.fst), map_fst_insertRows hvalues, List.map_eq_nil_iff]
  refine ⟨hrows, ?_, ?_, ?_⟩
  · rw [Store.done, hwrites.log_eq]
    exact hdone
  · rw [hinserted, hmine]
    exact fun i hi => (map_fst_insertRows hvalues).symm ▸ hrows.covers i hi
  · rw [insert_telemetry_nil_iff hdb hmine, hnil]

-- The first commit.
theorem written_commit_insert {rows : List Measured} {row_id : Nat} {readings : List TelemetryCreate}
    (h : (CallState.commit_insert rows row_id).written db id readings) :
    (CallState.mark_seen rows row_id).written (db.commit id) id readings := by
  obtain ⟨hrows, hdone, hcovers, hnil⟩ := h
  have hdone' : (db.commit id).store.done id = db.store.mine id := by
    simp [Database.commit, hdone]
  refine ⟨hrows, by rw [hdone', hnil], mine_commit_self _ _, ?_⟩
  rw [telemetry_commit, List.map_append]
  exact fun i hi => List.mem_append_right _ (hcovers i hi)

theorem written_mark_seen {rows : List Measured} {row_id : Nat} {readings : List TelemetryCreate}
    {latest : List (Int × Calendar.Datetime)} (hdb : db.Sound)
    (hlatest : latest_by_robot [] (lastSeen rows) = some latest)
    (hseen : mark_seen db id latest = some db')
    (h : (CallState.mark_seen rows row_id).written db id readings) :
    (CallState.commit rows row_id).written db' id readings := by
  obtain ⟨hrows, hdone, hmine, hcovers⟩ := h
  refine ⟨hrows, ?_, mark_seen_registers hdb hlatest hseen,
    (mark_seen_change hdb hseen).covers hcovers, ?_⟩
  · rw [Store.done, (mark_seen_spec hdb hseen).2.1.log_eq]
    exact hdone
  · rintro rfl
    cases hlatest
    cases hseen
    exact hmine

-- The second commit.
theorem written_commit {rows : List Measured} {row_id : Nat} {readings : List TelemetryCreate}
    (hdb : db.Sound) (h : (CallState.commit rows row_id).written db id readings) (ack : Ack) :
    (CallState.acknowledged ack).written (db.commit id) id readings := by
  obtain ⟨hrows, _, hregisters, hcovers, _⟩ := h
  refine ⟨(Change.commit (s := id)).covers hcovers, fun data hdata => ?_⟩
  obtain ⟨row, hrow, rfl⟩ := hrows.data data hdata
  obtain ⟨w, hw, hkey⟩ := hregisters row hrow
  refine (robot_isSome_iff (hdb.commit id)).mpr ⟨w, ?_, hkey⟩
  rw [Database.commit, log_commit]
  exact List.mem_append_right _ hw

-- The step lemma of a direct call: what its session has written, and whether anything is
-- committed when it raises.
theorem next_written {s : Service env.orjson.Text} {added : List Nat} {state state' : CallState}
    {pending : List Measured} {entries : List (Entry env.orjson.Text)} (hdb : s.db.Sound)
    (hwritten : state.written s.db id ingestion.readings)
    (h : CallStep env s id added ingestion state db pending state' entries) :
    state'.written db id ingestion.readings ∧ state ≠ .raised ∧
      ((state' = .raised → db.store.done id = []) ↔
        (broadcastDicts (state.converts ingestion)).isSome = true) := by
  cases h with
  | refused rows hvalues => exact ⟨trivial, by simp, iff_of_true (fun _ => hwritten.2.1) rfl⟩
  | insert rows values hvalues =>
      exact ⟨written_insert hdb hvalues hwritten, by simp, iff_of_true (by simp) rfl⟩
  | commit_one rows row_id data hcall =>
      subst hcall
      exact ⟨written_commit_insert hwritten, by simp, iff_of_true (by simp) rfl⟩
  | commit_batch rows row_id data hcall out hout =>
      subst hcall
      refine ⟨written_commit_insert hwritten, by simp, iff_of_true (by simp) ?_⟩
      simp [CallState.converts, hout]
  | unconverted_batch rows row_id data hcall hout =>
      subst hcall
      refine ⟨trivial, by simp, ?_⟩
      rw [(written_commit_insert hwritten).2.1]
      simp [CallState.converts, hout, ne_nil_of_broadcastDicts hout]
  | refresh => exact ⟨hwritten, by simp, iff_of_true (by simp) rfl⟩
  | mark_seen rows row_id latest hlatest db hseen =>
      exact ⟨written_mark_seen hdb hlatest hseen hwritten, by simp, iff_of_true (by simp) rfl⟩
  | commit rows row_id out hout =>
      refine ⟨written_commit hdb hwritten ⟨"", none⟩, by simp, iff_of_true (by simp) ?_⟩
      simp [CallState.converts, hout]
  | unconverted rows row_id hout =>
      refine ⟨trivial, by simp, ?_⟩
      have hdone : (s.db.commit id).store.done id = s.db.store.done id ++ s.db.store.mine id := by
        simp [Database.commit]
      rw [hdone, List.append_eq_nil_iff, hwritten.2.1]
      simp [CallState.converts, hout, ne_nil_of_broadcastDicts hout]
  | buffer rows => exact hwritten.elim
  | publish => exact ⟨hwritten, by simp, iff_of_true (by simp) rfl⟩

-- Where a failure takes the call.
theorem abort_clean_iff {state : CallState} (hwritten : state.written db id ingestion.readings)
    (hfallible : (Task.call ingestion state).fallible = true) :
    db.store.done id = [] ↔ state.half = [] := by
  cases state with
  | insert rows => exact iff_of_true hwritten.2.1 rfl
  | commit_insert rows row_id => exact iff_of_true hwritten.2.1 rfl
  | refresh rows row_id | mark_seen rows row_id | commit rows row_id => exact hwritten.2.1
  | buffer rows => exact hwritten.elim
  | publish payloads ack | acknowledged ack | raised => cases hfallible

end Steps

section Runs

variable {s t : Service env.orjson.Text} {id : TaskId} {ingestion : Ingestion}

-- A step of another task, or of none.
theorem step_frame {l : Label} (hdb : s.db.Sound) (hstep : s.step env l = some t)
    (hactor : l.actor ≠ some id) :
    t.tasks id = s.tasks id ∧ ∃ id', id ≠ id' ∧ Change id' s.db t.db := by
  have hspec := step_spec hdb hstep
  cases hl : l.actor with
  | none =>
      simp only [hl] at hspec
      obtain ⟨hsame, htasks⟩ := hspec
      exact ⟨congrFun htasks id, id + 1, by simp, hsame ▸ .same⟩
  | some id' =>
      simp only [hl] at hspec
      obtain ⟨hchange, task, htasks⟩ := hspec
      have hne : id ≠ id' := by
        rintro rfl
        exact hactor hl
      exact ⟨by rw [htasks, Function.update_of_ne hne], id', hne, hchange⟩

theorem unraised_of_ne {l : Label} (hactor : l.actor ≠ some id) : Unraised id ingestion s l := by
  cases l with
  | advance id' added => exact fun hid => absurd (congrArg some hid) hactor
  | fail id' => exact fun hid => absurd (congrArg some hid) hactor
  | _ => trivial

-- A direct call stays one, and is clean after a step exactly if it was clean before and
-- the step does not make it raise with something committed.
theorem Direct.step {l : Label} (h : Direct s id ingestion) (hstep : s.step env l = some t) :
    Direct t id ingestion ∧
      (t.raisedClean id ingestion ↔ s.raisedClean id ingestion ∧ Unraised id ingestion s l) := by
  obtain ⟨hdb, state, htask, hwritten⟩ := h
  by_cases hactor : l.actor = some id
  · cases service_step hstep with
    | next id' added call state' htask' db pending state'' entries hnext =>
        cases hactor
        obtain ⟨rfl, rfl⟩ : ingestion = call ∧ state = state' := by
          rw [htask] at htask'
          cases htask'
          exact ⟨rfl, rfl⟩
        obtain ⟨hwritten', hraised, hclean⟩ := next_written hdb hwritten hnext
        refine ⟨⟨(hnext.change hdb).1.sound hdb, state'', Function.update_self .., hwritten'⟩, ?_⟩
        have hbefore : s.raisedClean id ingestion := by
          intro h
          rw [htask] at h
          cases h
          exact absurd rfl hraised
        have hunraised : Unraised id ingestion s (.advance id added) ↔
            (broadcastDicts (state.converts ingestion)).isSome = true := by
          simp [Unraised, htask]
        rw [hunraised, ← hclean, and_iff_right hbefore]
        simp [Service.raisedClean]
    | fail id' task htask' hfallible =>
        cases hactor
        obtain rfl : task = .call ingestion state := by
          rw [htask] at htask'
          cases htask'
          rfl
        refine ⟨⟨hdb.rollback id, .raised, Function.update_self .., trivial⟩, ?_⟩
        have hbefore : s.raisedClean id ingestion := by
          intro h
          rw [htask] at h
          cases h
          cases hfallible
        have hunraised : Unraised id ingestion s (.fail id) ↔ state.half = [] := by
          simp [Unraised, htask]
        rw [hunraised, ← abort_clean_iff hwritten hfallible, and_iff_right hbefore]
        simp [Service.raisedClean, Task.abort, Database.rollback]
    | flushed id' added state' htask' =>
        cases hactor
        rw [htask] at htask'
        cases htask'
    | call id' now ingestion' hfree | flush id' hfree =>
        cases hactor
        rw [htask] at hfree
        cases hfree
    | connect | disconnect => cases hactor
  · obtain ⟨hsame, id', hne, hchange⟩ := step_frame hdb hstep hactor
    refine ⟨⟨hchange.sound hdb, state, hsame.trans htask, written_other hdb hne hchange hwritten⟩, ?_⟩
    rw [and_iff_left (unraised_of_ne hactor)]
    simp only [Service.raisedClean, hsame, hchange.done_of_ne hne]

-- A task that does not exist yet has written nothing.
structure Blank (s : Service T) : Prop where
  sound : s.db.Sound
  blank : ∀ id, s.tasks id = none → s.db.store.done id = [] ∧ s.db.store.mine id = []

theorem Blank.step {l : Label} (h : Blank s) (hstep : s.step env l = some t) : Blank t where
  sound := by
    have hspec := step_spec h.sound hstep
    cases hl : l.actor with
    | none =>
        simp only [hl] at hspec
        exact hspec.1 ▸ h.sound
    | some id =>
        simp only [hl] at hspec
        exact hspec.1.sound h.sound
  blank := by
    intro id hnone
    by_cases hactor : l.actor = some id
    · have hspec := step_spec h.sound hstep
      simp only [hactor] at hspec
      obtain ⟨_, task, htasks⟩ := hspec
      rw [htasks, Function.update_self] at hnone
      cases hnone
    · obtain ⟨hsame, id', hne, hchange⟩ := step_frame h.sound hstep hactor
      rw [hchange.done_of_ne hne, hchange.mine_of_ne hne]
      exact h.blank id (hsame ▸ hnone)

theorem blank_init : Blank (Service.init : Service T) where
  sound := sound_empty_database
  blank := fun _ _ => ⟨rfl, rfl⟩

theorem resolve_rows {settings : Settings} {now : Calendar.Utc} {data : List TelemetryCreate}
    {rows : List Measured} (h : resolve settings id now data = some rows) : RowsOf id data rows where
  covers := resolve_covers h
  data := by
    have hdata : rows.map Measured.data = data.zipIdx.map Prod.fst := by
      refine map_of_mapM ?_ h
      rintro ⟨d, i⟩ row hrow
      obtain ⟨timestamp, _, rfl⟩ := Option.map_eq_some_iff.mp hrow
      rfl
    rw [List.zipIdx_map_fst] at hdata
    intro d hd
    rw [← hdata] at hd
    exact List.mem_map.mp hd

theorem begin_insert {viewers : Nat} {now : Calendar.Utc} {rows : List Measured}
    (h : ingestion.begin env viewers id now = .insert rows) :
    resolve env.settings id now ingestion.readings = some rows := by
  rcases begin_cases env viewers id now ingestion with
    hraised | ⟨rows', hrows, ⟨_, out, _, hpublish⟩ | hinsert | hpending⟩
  · cases hraised.symm.trans h
  · cases hpublish.symm.trans h
  · cases hinsert.symm.trans h
    exact hrows
  · cases hpending.symm.trans h

theorem direct_call (hblank : Blank s) {now : Calendar.Utc} {rows : List Measured}
    (hcall : s.step env (.call id now ingestion) = some t)
    (hdirect : t.tasks id = some (.call ingestion (.insert rows))) :
    Direct t id ingestion ∧ t.raisedClean id ingestion := by
  cases service_step hcall with
  | call id now ingestion hfree =>
      obtain ⟨hdone, hmine⟩ := hblank.blank id hfree
      have hbegin : ingestion.begin env s.viewers id now = .insert rows := by simpa using hdirect
      refine ⟨⟨hblank.sound, _, hdirect, resolve_rows (begin_insert hbegin), hdone, hmine⟩, ?_⟩
      intro hraised
      rw [hdirect] at hraised
      cases hraised

theorem Direct.whole_or_none_iff (h : Direct s id ingestion) :
    Atomic s id ingestion ↔ s.raisedClean id ingestion := by
  refine ⟨Atomic.raised, fun hclean => ⟨hclean, fun state htask hsucceeded => ?_⟩⟩
  obtain ⟨state', htask', hwritten⟩ := h.written
  rw [htask] at htask'
  cases htask'
  cases state with
  | publish payloads ack | acknowledged ack => exact hwritten
  | _ => cases hsucceeded

-- A direct call is atomic exactly if nothing of it raises after its first commit.
theorem atomic_iff {before after : List Label} {s₀ u : Service env.orjson.Text} {now : Calendar.Utc}
    {rows : List Measured} (hbefore : Run env before s₀)
    (hcall : s₀.step env (.call id now ingestion) = some u)
    (hdirect : u.tasks id = some (.call ingestion (.insert rows)))
    (hafter : exec (Service.step env) u after = some s) :
    Atomic s id ingestion ↔ Along (Service.step env) (Unraised id ingestion) u after := by
  have hblank : Blank s₀ :=
    exec_invariant (I := Blank) (fun _ _ _ hu hstep => hu.step hstep) blank_init hbefore
  obtain ⟨hu, hclean⟩ := direct_call hblank hcall hdirect
  have hs : Direct s id ingestion := exec_invariant (I := fun v => Direct v id ingestion)
    (fun _ _ _ hv hstep => (hv.step hstep).1) hu hafter
  have hiff := exec_along_iff (C := Unraised id ingestion) (I := fun v => Direct v id ingestion)
    (P := fun v => v.raisedClean id ingestion) (fun _ _ _ hv hstep => hv.step hstep) hu hafter
  rw [hs.whole_or_none_iff, hiff, and_iff_right hclean]

end Runs

section Interrupted

def writtenEnv : Env where
  settings := { defaults with websocket_backend := "direct", opt_redis_buffer := false }
  orjson := .values
  serialize := fun _ => ""

def reported : Ingestion := .ingest (plainReading 1 (.finite 91))

-- The roster upsert fails: the call raises, its reading is in the table and its robot is
-- not in the roster. The same happens to a batch.
theorem raised_with_reading : writtenEnv.settings.accepted = true ∧
    (∃ rows u s, Service.init.step writtenEnv (.call 0 noon reported) = some u ∧
      u.tasks 0 = some (.call reported (.insert rows)) ∧
      exec (Service.step writtenEnv) u [.advance 0 [], .advance 0 [], .advance 0 [], .fail 0] = some s ∧
      s.tasks 0 = some (.call reported .raised) ∧ s.db.rowsOf (0, 0) = 1 ∧ s.db.robot 1 = none ∧
      ¬Atomic s 0 reported) ∧
    ∃ rows u s, Service.init.step writtenEnv
        (.call 0 noon (.ingest_batch [plainReading 1 (.finite 91)])) = some u ∧
      u.tasks 0 = some (.call (.ingest_batch [plainReading 1 (.finite 91)]) (.insert rows)) ∧
      exec (Service.step writtenEnv) u [.advance 0 [], .advance 0 [], .fail 0] = some s ∧
      s.db.rowsOf (0, 0) = 1 ∧ s.db.robot 1 = none ∧
      ¬Atomic s 0 (.ingest_batch [plainReading 1 (.finite 91)]) := by
  refine ⟨by decide +kernel, ⟨_, _, _, rfl, rfl, rfl, rfl, rfl, rfl, fun h => ?_⟩,
    ⟨_, _, _, rfl, rfl, rfl, rfl, rfl, fun h => ?_⟩⟩
  · have hdone := h.raised rfl
    cases hdone
  · have hdone := h.raised rfl
    cases hdone

theorem atomic_iff_whole : ∃ rows u s, Service.init.step writtenEnv (.call 0 noon reported) = some u ∧
    u.tasks 0 = some (.call reported (.insert rows)) ∧
    exec (Service.step writtenEnv) u (List.replicate 6 (.advance 0 [])) = some s ∧
    Atomic s 0 reported ∧ s.db.rowsOf (0, 0) = 1 ∧ (s.db.robot 1).isSome = true := by
  refine ⟨_, _, _, rfl, rfl, rfl, ?_, rfl, rfl⟩
  refine (@atomic_iff writtenEnv _ 0 reported [] (List.replicate 6 (.advance 0 [])) Service.init _ noon _
    rfl rfl rfl rfl).mpr ?_
  refine along_cons rfl ?_ (along_cons rfl ?_ (along_cons rfl ?_ (along_cons rfl ?_
    (along_cons rfl ?_ (along_cons rfl ?_ trivial)))))
  all_goals
    intro _ state htask
    cases htask
    rfl

end Interrupted

end FleetOps.Telemetry
