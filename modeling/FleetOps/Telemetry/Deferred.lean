import FleetOps.Library.Session
import FleetOps.Telemetry.Acknowledged

namespace FleetOps.Telemetry

open Sessions

section Model

-- How a statement or a conversion fails. A statement that has to wait for a row is not
-- carried further here.
inductive Failure where
  | refused
  | overflow
  | type_error
  | waits
  deriving DecidableEq

abbrev DbProgram (α : Type) := Program (Database TaskId Source) Failure α

def engine (id : TaskId) : Engine (Database TaskId Source) where
  commit db := db.commit id
  rollback db := db.rollback id

def insertion (id : TaskId) (rows : List Measured) (db : Database TaskId Source) :
    Except Failure (Database TaskId Source) :=
  match insertRows rows with
  | none => .error .refused
  | some values => .ok (insert_telemetry db id values)

def upsertion (id : TaskId) (last_seen_by_robot : List (Int × Calendar.Datetime))
    (db : Database TaskId Source) : Except Failure (Database TaskId Source) :=
  match mark_seen db id last_seen_by_robot with
  | none => .error .waits
  | some db => .ok db

-- `add_all` leaves the INSERT to the commit.
def TelemetryRepository.insert_many (id : TaskId) (rows : List Measured) :
    DbProgram (List Measured) := do
  Program.execute (insertion id rows)
  Program.commit (engine id)
  return rows

def RobotRepository.mark_seen (id : TaskId) (last_seen_by_robot : List (Int × Calendar.Datetime)) :
    DbProgram Unit :=
  if last_seen_by_robot.isEmpty then return ()
  else Program.execute (upsertion id last_seen_by_robot)

def latestOf (telemetries : List Measured) : DbProgram (List (Int × Calendar.Datetime)) :=
  Program.eval (match latest_by_robot [] (lastSeen telemetries) with
    | none => .error .type_error
    | some latest => .ok latest)

-- The direct branch of `ingest_batch`.
def TelemetryService.ingest_batch (id : TaskId) (rows : List Measured) : DbProgram Ack := do
  let telemetries ← TelemetryRepository.insert_many id rows
  let _ ← Program.eval (match broadcastDicts telemetries with
    | none => .error .overflow
    | some payloads => .ok payloads)
  let latest ← latestOf telemetries
  RobotRepository.mark_seen id latest
  Program.commit (engine id)
  return ⟨toString rows.length ++ " telemetry readings received", none⟩

def telemetry_buffer.buffer (pending rows : List Measured) : List Measured := pending ++ rows

-- The `session.begin()` block of `flush`.
def telemetry_buffer.block (id : TaskId) (rows : List Measured) : DbProgram Unit :=
  Program.begin (engine id) do
    let telemetries ← TelemetryRepository.insert_many id rows
    let latest ← latestOf telemetries
    RobotRepository.mark_seen id latest

-- What `flush` returns and leaves in `_pending` and the database.
def telemetry_buffer.flush (id : TaskId) (pending : List Measured) (db : Database TaskId Source) :
    Except (Halt Failure) Nat × List Measured × Database TaskId Source :=
  if pending.isEmpty then (.ok 0, [], db)
  else
    let (result, db) := Program.session (engine id) (telemetry_buffer.block id pending) db
    (result.map fun _ => pending.length, [], db)

-- Buffering the readings call by call and flushing them.
def deferred_path (id : TaskId) (calls : List (List Measured)) (db : Database TaskId Source) :
    Except (Halt Failure) Nat × Database TaskId Source :=
  let (result, _, db) := telemetry_buffer.flush id (calls.foldl telemetry_buffer.buffer []) db
  (result, db)

def direct_path (id : TaskId) (rows : List Measured) (db : Database TaskId Source) :
    Except (Halt Failure) Ack × Database TaskId Source :=
  Program.session (engine id) (TelemetryService.ingest_batch id rows) db

-- The two paths leave the same telemetry rows, ids aside, and the same roster, and the
-- flush returns the number of the readings.
structure Agree (id : TaskId) (calls : List (List Measured)) (db : Database TaskId Source) :
    Prop where
  telemetry : ((deferred_path id calls db).2.telemetry.map Prod.snd).Perm
    ((direct_path id calls.flatten db).2.telemetry.map Prod.snd)
  roster : ∀ robot_id, (deferred_path id calls db).2.robot robot_id =
    (direct_path id calls.flatten db).2.robot robot_id
  count : (deferred_path id calls db).1 = .ok calls.flatten.length

end Model

section Paths

variable {id : TaskId} {rows : List Measured} {values : List (Source × TelemetryRow)}
  {db : Database TaskId Source}

theorem foldl_buffer (pending : List Measured) (calls : List (List Measured)) :
    calls.foldl telemetry_buffer.buffer pending = pending ++ calls.flatten := by
  induction calls generalizing pending with
  | nil => simp
  | cons rows calls ih =>
      rw [List.foldl_cons, ih, telemetry_buffer.buffer, List.flatten_cons, List.append_assoc]

theorem rollback_commit (db : Database TaskId Source) (id : TaskId) :
    (db.commit id).rollback id = db.commit id := by
  simp [Database.rollback, Database.commit, RowStore.Store.rollback, RowStore.Store.commit,
    RowStore.Store.theirs]

theorem rollback_rollback (db : Database TaskId Source) (id : TaskId) :
    (db.rollback id).rollback id = db.rollback id := by
  simp [Database.rollback, RowStore.Store.rollback, RowStore.Store.theirs]

theorem insert_many_ok {block : Block} (hblock : block ≠ .closed)
    (hvalues : insertRows rows = some values) :
    TelemetryRepository.insert_many id rows ⟨db, block⟩ =
      (.ok rows, ⟨(insert_telemetry db id values).commit id,
        if block = .begun then .closed else .none⟩) := by
  have hinsert : insertion id rows db = .ok (insert_telemetry db id values) := by
    simp only [insertion, hvalues]
  rw [TelemetryRepository.insert_many, Program.bind_ok (Program.execute_ok hblock hinsert)]
  cases block with
  | none => rfl
  | begun => rfl
  | closed => exact absurd rfl hblock

theorem insert_many_refused {block : Block} (hblock : block ≠ .closed)
    (hvalues : insertRows rows = none) :
    TelemetryRepository.insert_many id rows ⟨db, block⟩ =
      (.error (.raised .refused), ⟨db, block⟩) := by
  have hinsert : insertion id rows db = .error .refused := by
    simp only [insertion, hvalues]
  refine Program.bind_error ?_
  simp only [Program.execute, if_neg hblock, hinsert]

theorem latestOf_ok {latest : List (Int × Calendar.Datetime)} {s : Session (Database TaskId Source)}
    (hlatest : latest_by_robot [] (lastSeen rows) = some latest) : latestOf rows s = (.ok latest, s) := by
  simp only [latestOf, hlatest]
  rfl

-- Outside a block the statement goes through. On an empty dict none is sent, which is the
-- same as the statement without rows.
theorem mark_seen_run (id : TaskId) (latest : List (Int × Calendar.Datetime))
    (db : Database TaskId Source) :
    RobotRepository.mark_seen id latest ⟨db, .none⟩ =
      match mark_seen db id latest with
      | some db' => (.ok (), ⟨db', .none⟩)
      | none => (.error (.raised .waits), ⟨db, .none⟩) := by
  cases latest with
  | nil => rfl
  | cons p latest =>
      simp only [RobotRepository.mark_seen, List.isEmpty_cons, Bool.false_eq_true, if_false,
        Program.execute, reduceCtorEq, upsertion]
      cases mark_seen db id (p :: latest) <;> rfl

-- `mark_seen` comes after the commit of `insert_many`, in the same block.
theorem flush_ne_nil (hrows : rows ≠ []) (hvalues : insertRows rows = some values) :
    telemetry_buffer.flush id rows db =
      (.error .invalid_request, [], (insert_telemetry db id values).commit id) := by
  obtain ⟨latest, hlatest, hne⟩ := latest_isSome rows
  have hseen : RobotRepository.mark_seen id latest
      ⟨(insert_telemetry db id values).commit id, .closed⟩ =
        (.error .invalid_request, ⟨(insert_telemetry db id values).commit id, .closed⟩) := by
    rw [RobotRepository.mark_seen, if_neg (by simpa using hne hrows)]
    exact Program.execute_closed rfl
  have hblock : telemetry_buffer.block id rows ⟨db, .none⟩ =
      (.error .invalid_request, ⟨(insert_telemetry db id values).commit id, .none⟩) := by
    refine (Program.begin_error (e := .invalid_request)
      (t := ⟨(insert_telemetry db id values).commit id, .closed⟩) ?_).trans ?_
    · rw [Program.bind_ok (insert_many_ok (by simp) hvalues), Program.bind_ok (latestOf_ok hlatest)]
      exact hseen
    · simp only [engine, rollback_commit]
  rw [telemetry_buffer.flush, if_neg (by simpa using hrows)]
  simp only [Program.session_eq hblock, engine, rollback_commit]
  rfl

-- A refused INSERT leaves the database as it was.
theorem flush_refused (hrows : rows ≠ []) (hvalues : insertRows rows = none) :
    telemetry_buffer.flush id rows db =
      (.error (.raised .refused), [], db.rollback id) := by
  have hblock : telemetry_buffer.block id rows ⟨db, .none⟩ =
      (.error (.raised .refused), ⟨db.rollback id, .none⟩) :=
    Program.begin_error (Program.bind_error (insert_many_refused (by simp) hvalues))
  rw [telemetry_buffer.flush, if_neg (by simpa using hrows)]
  simp only [Program.session_eq hblock, engine, rollback_rollback]
  rfl

theorem flush_nil (id : TaskId) (db : Database TaskId Source) :
    telemetry_buffer.flush id [] db = (.ok 0, [], db) := rfl

-- The steps of a flush, one after the other, are the program's.
theorem flush_steps (hrows : rows ≠ []) : ∃ db₁ state₁, flush db id (.insert rows) = some (db₁, state₁) ∧
    ((state₁ = .ended ∧ (telemetry_buffer.flush id rows db).2.2 = db₁) ∨
      ∃ db₂ db₃, flush db₁ id state₁ = some (db₂, .mark_seen rows) ∧
        flush db₂ id (.mark_seen rows) = some (db₃, .ended) ∧
          (telemetry_buffer.flush id rows db).2.2 = db₃) := by
  cases hvalues : insertRows rows with
  | none =>
      refine ⟨db.rollback id, .ended, by simp only [flush, hvalues], Or.inl ⟨rfl, ?_⟩⟩
      rw [flush_refused hrows hvalues]
  | some values =>
      refine ⟨insert_telemetry db id values, .commit rows, by simp only [flush, hvalues],
        Or.inr ⟨_, _, rfl, rfl, ?_⟩⟩
      rw [flush_ne_nil hrows hvalues, rollback_commit]

-- The direct branch, when nothing in it fails.
theorem direct_path_ok {ack : Ack} (h : (direct_path id rows db).1 = .ok ack) :
    ∃ values latest payloads db', insertRows rows = some values ∧
      latest_by_robot [] (lastSeen rows) = some latest ∧ broadcastDicts rows = some payloads ∧
      mark_seen ((insert_telemetry db id values).commit id) id latest = some db' ∧
      (direct_path id rows db).2 = db'.commit id := by
  cases hvalues : insertRows rows with
  | none =>
      have hrefused : TelemetryService.ingest_batch id rows ⟨db, .none⟩ =
          (.error (.raised .refused), ⟨db, .none⟩) :=
        Program.bind_error (insert_many_refused (by simp) hvalues)
      rw [direct_path, Program.session_eq hrefused] at h
      cases h
  | some values =>
      obtain ⟨latest, hlatest, _⟩ := latest_isSome rows
      have hinsert : TelemetryRepository.insert_many id rows ⟨db, .none⟩ =
          (.ok rows, ⟨(insert_telemetry db id values).commit id, .none⟩) :=
        insert_many_ok (by simp) hvalues
      unfold direct_path at h ⊢
      unfold TelemetryService.ingest_batch Program.session at h ⊢
      rw [Program.bind_ok hinsert] at h ⊢
      cases hpayloads : broadcastDicts rows with
      | none =>
          simp only [hpayloads] at h
          rw [Program.bind_error (Program.eval_error_run _)] at h
          cases h
      | some payloads =>
          simp only [hpayloads] at h ⊢
          rw [Program.bind_ok Program.eval_ok_run, Program.bind_ok (latestOf_ok hlatest)] at h ⊢
          have hseen := mark_seen_run id latest ((insert_telemetry db id values).commit id)
          cases hstatement : mark_seen ((insert_telemetry db id values).commit id) id latest with
          | none =>
              simp only [hstatement] at hseen
              rw [Program.bind_error hseen] at h
              cases h
          | some db' =>
              simp only [hstatement] at hseen
              refine ⟨values, latest, payloads, db', rfl, hlatest, rfl, hstatement, ?_⟩
              rw [Program.bind_ok hseen]
              exact rollback_commit db' id

-- The steps of a direct call, one after the other, are the program's.
theorem direct_steps {env : Env} {s : Service env.orjson.Text} {data : List TelemetryCreate}
    {added : List Nat} {ack : Ack} (h : (direct_path id rows s.db).1 = .ok ack) :
    ∃ row_id payloads db₁ db₂ db₃ db₄,
      (Ingestion.ingest_batch data).next env s id added (.insert rows) =
        some (db₁, s.pending, .commit_insert rows row_id, []) ∧
      (Ingestion.ingest_batch data).next env { s with db := db₁ } id added (.commit_insert rows row_id) =
        some (db₂, s.pending, .mark_seen rows row_id, []) ∧
      (Ingestion.ingest_batch data).next env { s with db := db₂ } id added (.mark_seen rows row_id) =
        some (db₃, s.pending, .commit rows row_id, []) ∧
      (Ingestion.ingest_batch data).next env { s with db := db₃ } id added (.commit rows row_id) =
        some (db₄, s.pending, .publish payloads ((Ingestion.ingest_batch data).ack row_id "received"), []) ∧
      (direct_path id rows s.db).2 = db₄ := by
  obtain ⟨values, latest, payloads, db', hvalues, hlatest, hpayloads, hseen, hdirect⟩ :=
    direct_path_ok h
  refine ⟨s.db.serial, payloads, insert_telemetry s.db id values,
    (insert_telemetry s.db id values).commit id, db', db'.commit id, ?_, ?_, ?_, ?_, hdirect⟩
  · simp only [Ingestion.next, hvalues]
  · simp only [Ingestion.next, hpayloads]
  · simp only [Ingestion.next, hlatest, hseen, Option.map_some]
  · simp only [Ingestion.next, hpayloads]

theorem deferred_path_eq (id : TaskId) (calls : List (List Measured)) (db : Database TaskId Source) :
    deferred_path id calls db = ((telemetry_buffer.flush id calls.flatten db).1,
      (telemetry_buffer.flush id calls.flatten db).2.2) := by
  rw [deferred_path, foldl_buffer, List.nil_append]

-- A commit of a session without writes.
theorem log_commit_nil {db : Database TaskId Source} (hnew : db.store.mine id = []) :
    (db.commit id).store.log = db.store.log := by
  rw [Database.commit, RowStore.log_commit, hnew, List.append_nil]

-- On no readings the direct path leaves the tables as they are.
theorem direct_path_nil {ack : Ack} (hnew : db.store.mine id = [])
    (h : (direct_path id [] db).1 = .ok ack) : (direct_path id [] db).2.store.log = db.store.log := by
  obtain ⟨values, latest, _, db', hvalues, hlatest, _, hseen, hdirect⟩ := direct_path_ok h
  cases hvalues
  cases hlatest
  cases hseen
  have hagain : ((db.commit id).commit id).store.log = (db.commit id).store.log :=
    log_commit_nil (RowStore.mine_commit_self db.store id)
  exact (congrArg (fun d => d.store.log) hdirect).trans (hagain.trans (log_commit_nil hnew))

-- The telemetry rows are the same in any case.
theorem same_rows {calls : List (List Measured)} {ack : Ack} (hdb : db.Sound)
    (hnew : db.store.mine id = []) (h : (direct_path id calls.flatten db).1 = .ok ack) :
    (deferred_path id calls db).2.telemetry = (direct_path id calls.flatten db).2.telemetry := by
  rw [deferred_path_eq]
  by_cases hrows : calls.flatten = []
  · rw [hrows] at h ⊢
    rw [flush_nil, Database.telemetry, Database.telemetry, direct_path_nil hnew h]
  · obtain ⟨values, latest, _, db', hvalues, _, _, hseen, hdirect⟩ := direct_path_ok h
    have hinserted := ((insert_telemetry_spec hdb id values).1).commit id
    obtain ⟨_, hwrites, hmine, _⟩ := mark_seen_spec hinserted hseen
    have hopen : inserted (db'.store.mine id) = [] := by
      rw [hmine]
      simp [Database.commit, inserted]
    rw [flush_ne_nil hrows hvalues, hdirect, telemetry_commit db' id, hopen, List.append_nil]
    rw [Database.telemetry, Database.telemetry, hwrites.log_eq]

theorem mine_insert_telemetry {rows : List (Source × TelemetryRow)} {w : RowStore.Write TaskId Key
    (Version Source)} (h : w ∈ (insert_telemetry db id rows).store.mine id) :
    w ∈ db.store.mine id ∨ ∃ key, w.key = .telemetry key := by
  induction rows generalizing db with
  | nil => exact Or.inl h
  | cons p rows ih =>
      rcases ih h with hw | hw
      · rw [RowStore.mine_write_self] at hw
        rcases List.mem_append.mp hw with hw | hw
        · exact Or.inl hw
        · rw [List.mem_singleton.mp hw]
          exact Or.inr ⟨_, rfl⟩
      · exact Or.inr hw

-- The roster stays as it was.
theorem deferred_roster {calls : List (List Measured)} (hdb : db.Sound)
    (hnew : db.store.mine id = []) (robot_id : Int) :
    (deferred_path id calls db).2.robot robot_id = db.robot robot_id := by
  rw [deferred_path_eq]
  by_cases hrows : calls.flatten = []
  · rw [hrows, flush_nil]
  · cases hvalues : insertRows calls.flatten with
    | none =>
        rw [flush_refused hrows hvalues]
        rfl
    | some values =>
        have hlineage : RowStore.lineage ((insert_telemetry db id values).store.mine id)
            (.robot robot_id) = [] := by
          rw [List.eq_nil_iff_forall_not_mem]
          intro w hw
          obtain ⟨hmem, hkey⟩ := RowStore.mem_lineage.mp hw
          rcases mine_insert_telemetry hmem with hmine | ⟨key, htelemetry⟩
          · rw [hnew] at hmine
            cases hmine
          · rw [htelemetry] at hkey
            cases hkey
        have hcommitted : ((insert_telemetry db id values).commit id).store.committed
            (.robot robot_id) = db.store.committed (.robot robot_id) := by
          rw [Database.commit, RowStore.Store.committed, RowStore.log_commit,
            RowStore.latest_append_of_lineage_nil _ _ _ hlineage,
            (insert_telemetry_spec hdb id values).2.1.log_eq]
          rfl
        rw [flush_ne_nil hrows hvalues, Database.robot, hcommitted]
        rfl

-- Where nothing fails on the direct path, the two agree exactly on no readings at all.
theorem agree_iff {calls : List (List Measured)} {ack : Ack} (hnew : db.store.mine id = [])
    (h : (direct_path id calls.flatten db).1 = .ok ack) : Agree id calls db ↔ calls.flatten = [] := by
  constructor
  · intro hagree
    by_contra hne
    obtain ⟨values, _, _, _, hvalues, _⟩ := direct_path_ok h
    have hcount := hagree.count
    rw [deferred_path_eq, flush_ne_nil hne hvalues] at hcount
    cases hcount
  · intro hnil
    have hlog : (direct_path id calls.flatten db).2.store.log = db.store.log := by
      rw [hnil] at h ⊢
      exact direct_path_nil hnew h
    have hdeferred : deferred_path id calls db = (.ok 0, db) := by
      rw [deferred_path_eq, hnil, flush_nil]
    refine ⟨?_, fun robot_id => ?_, by rw [hdeferred, hnil]; rfl⟩
    · rw [hdeferred, Database.telemetry, Database.telemetry, hlog]
    · rw [hdeferred]
      simp only [Database.robot, RowStore.Store.committed, hlog]

end Paths

section Readings

-- One reading in one call of `buffer`.
def one : List (List Measured) := [[⟨(0, 0), plainReading 1 (.finite 91), noon⟩]]

-- The direct path writes it and registers its robot; the flush raises and does not.
theorem not_agree_one : (direct_path 1 one.flatten .empty).1 =
      .ok ⟨"1 telemetry readings received", none⟩ ∧ ¬Agree 1 one .empty := by
  refine ⟨rfl, fun hagree => ?_⟩
  have hraised : (deferred_path 1 one .empty).1 = .error .invalid_request := rfl
  have hcount := hagree.count
  rw [hraised] at hcount
  cases hcount

theorem agree_iff_none : Agree 1 [[], []] .empty := by
  have hdirect : (direct_path 1 [[], []].flatten .empty).1 =
      .ok ⟨"0 telemetry readings received", none⟩ := rfl
  exact (agree_iff rfl hdirect).mpr rfl

end Readings

end FleetOps.Telemetry
