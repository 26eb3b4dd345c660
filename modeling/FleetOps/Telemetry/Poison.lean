import FleetOps.Telemetry.Acknowledged
import FleetOps.Telemetry.Persistence

namespace FleetOps.Telemetry.Worker

open Calendar ConsumerGroup Dict RowStore Runs

variable {config : Config}

section Definitions

-- The entry is what the buffered path publishes for the reading.
def Published (config : Config) (serialize : Datetime → String) (s : Pool config.orjson.Text)
    (id : EntryId) (data : TelemetryCreate) : Prop :=
  ∃ ts payload text, stamped serialize data ts = some payload ∧
    config.orjson.dumps (.obj payload) = some text ∧ s.group.entries[id]? = some (some text)

-- The entries that the worker's next read hands to `process_batch`.
def taken (config : Config) (s : Pool config.orjson.Text) (w : WorkerId) (now : Int) :
    List EntryId :=
  match s.workers w with
  | .read => (s.group.history (config.consumer_name w) now 100).2
  | .fresh => (s.group.fresh (config.consumer_name w) now 100).2
  | _ => []

-- The rows of a batch are made of the readings it was published from.
structure MadeOf (serialize : Datetime → String) (readings : EntryId → TelemetryCreate)
    (ids : List EntryId) (rows : List Parsed) : Prop where
  row : ∀ p ∈ rows, p.1 ∈ ids ∧ ∃ ts, p.2 = InsertDict.read serialize (readings p.1) ts
  all : ∀ id ∈ ids, ∃ p ∈ rows, p.1 = id

-- The INSERT of the row has been made by the worker.
def Written (s : Pool config.orjson.Text) (w : WorkerId) (p : Parsed) : Prop :=
  ∃ row, (p.1, row) ∈ s.db.telemetry ++ inserted (s.db.store.mine w)

-- Where a call stands: what it has inserted a column has accepted.
def BatchState.stands (s : Pool config.orjson.Text) (w : WorkerId)
    (serialize : Datetime → String) (readings : EntryId → TelemetryCreate) (ids : List EntryId) :
    BatchState → Prop
  | .insert rows => MadeOf serialize readings ids rows
  | .insert_row done row rest => MadeOf serialize readings ids (done ++ row :: rest) ∧
      ∀ p ∈ done, storable (readings p.1) = true ∧ Written s w p
  | .commit_row done rest => MadeOf serialize readings ids (done ++ rest) ∧
      ∀ p ∈ done, storable (readings p.1) = true ∧ Written s w p
  | .mark_seen rows | .commit rows => MadeOf serialize readings ids rows ∧
      ∀ p ∈ rows, storable (readings p.1) = true ∧ Written s w p
  | _ => False

-- A step that is part of the call and neither fails nor stops its worker.
def within (config : Config) (w : WorkerId) (s : Pool config.orjson.Text)
    (l : Label config.orjson.Text) : Prop :=
  (s.workers w).processing = true ∧ l ≠ .fail w ∧ l ≠ .stop w

-- What has become of the call: it goes on, it has returned with every entry
-- persisted, or it has raised over a reading that the table refuses.
def State.outcome (s : Pool config.orjson.Text) (w : WorkerId) (serialize : Datetime → String)
    (readings : EntryId → TelemetryCreate) (ids : List EntryId) : State → Prop
  | .process ids' batch => ids' = ids ∧ batch.stands s w serialize readings ids
  | .ack ids' => ids' = ids ∧
      ∀ id ∈ ids, storable (readings id) = true ∧ ∃ row, (id, row) ∈ s.db.telemetry
  | .pause => ∃ id ∈ ids, storable (readings id) = false
  | _ => False

end Definitions

section Published

variable {serialize : Datetime → String}

theorem telemetryDict_published {s : Pool config.orjson.Text} {id : EntryId} {data : TelemetryCreate}
    (h : Published config serialize s id data) : ∃ payload ts d,
      s.group.entries[id]? = some payload ∧ telemetryDict config.orjson payload = some d ∧
        ∀ now, payload_to_insert_dict now d = InsertDict.read serialize data ts := by
  obtain ⟨ts, payload, text, hstamped, hdumps, hget⟩ := h
  have hloads := config.orjson.loads_dumps _ _ hdumps
  refine ⟨some text, ts, writtenFields payload, hget, ?_,
    fun now => payload_to_insert_dict_stamped hstamped now⟩
  simp [telemetryDict, hloads, Json.written, any_battery_stamped hstamped]

theorem columns_of_read {readings : EntryId → TelemetryCreate} {ids : List EntryId}
    {rows : List Parsed} (hrows : MadeOf serialize readings ids rows) {p : Parsed} (hp : p ∈ rows) :
    (columns p.2).isSome = storable (readings p.1) := by
  obtain ⟨_, ts, heq⟩ := hrows.row p hp
  rw [heq]
  exact columns_read_isSome serialize (readings p.1) ts

end Published

section Call

variable {s t : Pool config.orjson.Text} {w : WorkerId} {serialize : Datetime → String}
  {readings : EntryId → TelemetryCreate} {ids : List EntryId} {rows : List Parsed}

theorem parseAll_isSome {orjson : Orjson} (clock : EntryId → Utc)
    {messages : List (EntryId × Option orjson.Text)}
    (h : ∀ m ∈ messages, (telemetryDict orjson m.2).isSome = true) :
    ∃ rows, parseAll orjson clock messages = some rows := by
  induction messages with
  | nil => exact ⟨[], rfl⟩
  | cons m messages ih =>
      obtain ⟨id, payload⟩ := m
      obtain ⟨rows, hrows⟩ := ih fun m hm => h m (List.mem_cons_of_mem _ hm)
      rcases parse_cases orjson (clock id) payload with ⟨d, _, hparse⟩ | ⟨hnone, _⟩
      · refine ⟨(id, payload_to_insert_dict (clock id) d) :: rows, ?_⟩
        simp only [parseAll, hparse, hrows, Option.map_some]
      · have hsome := h (id, payload) (List.mem_cons_self ..)
        rw [hnone] at hsome
        cases hsome

-- Published entries all parse, into rows made of their readings.
theorem madeOf_parseAll (clock : EntryId → Utc)
    (hpublished : ∀ id ∈ ids, Published config serialize s id (readings id)) :
    ∃ rows, parseAll config.orjson clock (messages s.group ids) = some rows ∧
      MadeOf serialize readings ids rows := by
  have hall : ∀ m ∈ messages s.group ids, (telemetryDict config.orjson m.2).isSome = true := by
    rintro ⟨id, payload⟩ hm
    obtain ⟨hid, hget⟩ := mem_messages.mp hm
    obtain ⟨payload', _, d, hget', hd, _⟩ := telemetryDict_published (hpublished id hid)
    rw [hget] at hget'
    cases hget'
    simp [hd]
  obtain ⟨rows, hrows⟩ := parseAll_isSome clock hall
  refine ⟨rows, hrows, ?_, fun id hid => ?_⟩
  · intro p hp
    rw [parseAll_eq hrows] at hp
    obtain ⟨⟨id, payload⟩, hm, hrow⟩ := List.mem_filterMap.mp hp
    obtain ⟨d, hd, rfl⟩ := Option.map_eq_some_iff.mp hrow
    obtain ⟨hid, hget⟩ := mem_messages.mp hm
    obtain ⟨payload', ts, d', hget', hd', hread⟩ := telemetryDict_published (hpublished id hid)
    rw [hget] at hget'
    cases hget'
    rw [hd] at hd'
    cases hd'
    exact ⟨hid, ts, hread _⟩
  · obtain ⟨payload, _, d, hget, hd, _⟩ := telemetryDict_published (hpublished id hid)
    rw [parseAll_eq hrows]
    exact ⟨(id, payload_to_insert_dict (clock id) d),
      List.mem_filterMap.mpr ⟨(id, payload), mem_messages.mpr ⟨hid, hget⟩, by simp [hd]⟩, rfl⟩

theorem nextRow_stands {done rest : List Parsed} (hrows : MadeOf serialize readings ids (done ++ rest))
    (hdone : ∀ p ∈ done, storable (readings p.1) = true ∧ Written s w p) :
    (nextRow done rest).stands s w serialize readings ids := by
  cases rest with
  | nil =>
      rw [List.append_nil] at hrows
      exact ⟨hrows, hdone⟩
  | cons row rest => exact ⟨hrows, hdone⟩

theorem startBatch_outcome (clock : EntryId → Utc) (hne : ids ≠ [])
    (hpublished : ∀ id ∈ ids, Published config serialize s id (readings id)) :
    (startBatch config s.group clock ids).outcome t w serialize readings ids := by
  obtain ⟨rows, hrows, hmade⟩ := madeOf_parseAll clock hpublished
  have hsome : rows ≠ [] := by
    obtain ⟨id, hid⟩ := List.exists_mem_of_ne_nil ids hne
    obtain ⟨p, hp, _⟩ := hmade.all id hid
    exact List.ne_nil_of_mem hp
  unfold startBatch
  simp only [hrows, BatchState.begin, List.isEmpty_iff, hsome, if_false]
  by_cases hopt : config.opt_batch_insert = true
  · rw [if_pos hopt]
    exact ⟨rfl, hmade⟩
  · rw [if_neg hopt]
    have hstands : (nextRow [] rows).stands t w serialize readings ids :=
      nextRow_stands hmade (by simp)
    cases rows with
    | nil => exact absurd rfl hsome
    | cons row rest => exact ⟨rfl, hstands⟩

theorem insertRows_isSome (rows : List Parsed) :
    (insertRows rows).isSome = rows.all fun p => (columns p.2).isSome := by
  induction rows with
  | nil => rfl
  | cons p rows ih =>
      simp only [insertRows] at ih
      cases hrow : columns p.2 with
      | none => simp [insertRows, hrow]
      | some row =>
          rw [List.all_cons, hrow, ← ih]
          cases hrest : rows.mapM fun p => (columns p.2).map fun row => (p.1, row) <;>
          simp [insertRows, hrow, hrest]

theorem lastSeen_aware {rows : List Parsed} (hrows : MadeOf serialize readings ids rows) :
    ∀ p ∈ lastSeen rows, p.2.aware = true := by
  intro p hp
  obtain ⟨q, hq, hpair⟩ := List.mem_filterMap.mp hp
  obtain ⟨robot_id, _, rfl⟩ := Option.map_eq_some_iff.mp hpair
  obtain ⟨_, ts, heq⟩ := hrows.row q hq
  simp only [heq]
  rfl

theorem storable_of_insertRows (hrows : MadeOf serialize readings ids rows)
    (h : (insertRows rows).isSome = true) : ∀ p ∈ rows, storable (readings p.1) = true := by
  intro p hp
  rw [insertRows_isSome, List.all_eq_true] at h
  rw [← columns_of_read hrows hp]
  exact h p hp

theorem unstorable_of_insertRows (hrows : MadeOf serialize readings ids rows)
    (h : insertRows rows = none) : ∃ id ∈ ids, storable (readings id) = false := by
  have hnone : (insertRows rows).isSome = false := by rw [h]; rfl
  rw [insertRows_isSome, List.all_eq_false] at hnone
  obtain ⟨p, hp, hcolumn⟩ := hnone
  refine ⟨p.1, (hrows.row p hp).1, ?_⟩
  rw [← columns_of_read hrows hp]
  simpa using hcolumn

theorem Written.frame {w' : WorkerId} (hchange : Change w' s.db t.db) (hne : w ≠ w') {p : Parsed}
    (h : Written s w p) : Written t w p := by
  obtain ⟨row, hrow⟩ := h
  refine ⟨row, ?_⟩
  rw [hchange.mine_of_ne hne]
  rcases List.mem_append.mp hrow with hrow | hrow
  · exact List.mem_append_left _ (hchange.telemetry_subset hrow)
  · exact List.mem_append_right _ hrow

theorem BatchState.stands_frame (hwritten : ∀ p, Written s w p → Written t w p) {batch : BatchState}
    (h : batch.stands s w serialize readings ids) : batch.stands t w serialize readings ids := by
  cases batch with
  | insert rows => exact h
  | insert_row | commit_row | mark_seen | commit =>
      exact ⟨h.1, fun p hp => ⟨(h.2 p hp).1, hwritten p (h.2 p hp).2⟩⟩
  | returned | raised => exact h

-- One statement of the call.
theorem process_batch_outcome (hdb : s.db.Sound) {batch batch' : BatchState}
    (hstands : batch.stands s w serialize readings ids) {db : Database WorkerId EntryId}
    (hbatch : process_batch s.db w batch = some (db, batch')) (htdb : t.db = db) :
    (afterBatch ids batch').outcome t w serialize readings ids := by
  cases process_batch_step hbatch with
  | refused rows hvalues => exact unstorable_of_insertRows hstands hvalues
  | insert rows values hvalues =>
      obtain ⟨_, hwrites, hmine⟩ := insert_telemetry_spec hdb w values
      refine ⟨rfl, hstands, fun p hp => ⟨?_, ?_⟩⟩
      · exact storable_of_insertRows hstands (by rw [hvalues]; rfl) p hp
      · obtain ⟨row, _, hmem⟩ := mem_insertRows hvalues hp
        refine ⟨row, List.mem_append_right _ ?_⟩
        rw [htdb, hmine]
        exact List.mem_append_right _ hmem
  | refused_row done row rest hreject =>
      obtain ⟨hrows, _⟩ := hstands
      have hrow := columns_of_read hrows (show row ∈ done ++ row :: rest by simp)
      rw [hreject] at hrow
      exact ⟨row.1, (hrows.row row (by simp)).1, hrow.symm⟩
  | insert_row done row rest value hvalue =>
      obtain ⟨hrows, hdone⟩ := hstands
      have hrow := columns_of_read hrows (show row ∈ done ++ row :: rest by simp)
      rw [hvalue] at hrow
      obtain ⟨_, hwrites, hmine⟩ := insert_telemetry_spec hdb w [(row.1, value)]
      have htelemetry : t.db.telemetry = s.db.telemetry := by
        simp only [htdb, Database.telemetry, hwrites.log_eq]
      refine ⟨rfl, by simpa using hrows, fun p hp => ?_⟩
      rw [Written, htelemetry, htdb, hmine]
      rcases List.mem_append.mp hp with hp | hp
      · obtain ⟨hstorable, value', hmem⟩ := hdone p hp
        rw [← List.append_assoc]
        exact ⟨hstorable, value', List.mem_append_left _ hmem⟩
      · rw [List.mem_singleton.mp hp]
        exact ⟨hrow.symm, value, by simp⟩
  | commit_row done rest =>
      obtain ⟨hrows, hdone⟩ := hstands
      have hstands' : (nextRow done rest).stands t w serialize readings ids := by
        refine nextRow_stands hrows fun p hp => ⟨(hdone p hp).1, ?_⟩
        obtain ⟨value, hmem⟩ := (hdone p hp).2
        refine ⟨value, List.mem_append_left _ ?_⟩
        rw [htdb, telemetry_commit]
        exact hmem
      cases rest <;> exact ⟨rfl, hstands'⟩
  | incomparable rows hreject =>
      have hsome := latest_by_robot_isSome [] (by simp) (lastSeen_aware hstands.1)
      rw [hreject] at hsome
      cases hsome
  | mark_seen rows latest hlatest db hseen =>
      obtain ⟨hrows, hdone⟩ := hstands
      obtain ⟨_, hwrites, hmine, _⟩ := mark_seen_spec hdb hseen
      refine ⟨rfl, hrows, fun p hp => ⟨(hdone p hp).1, ?_⟩⟩
      obtain ⟨value, hmem⟩ := (hdone p hp).2
      refine ⟨value, ?_⟩
      rw [htdb, hmine, Database.telemetry, hwrites.log_eq]
      exact hmem
  | commit rows =>
      obtain ⟨hrows, hdone⟩ := hstands
      refine ⟨rfl, fun id hid => ?_⟩
      obtain ⟨p, hp, rfl⟩ := hrows.all id hid
      obtain ⟨hstorable, value, hmem⟩ := hdone p hp
      refine ⟨hstorable, value, ?_⟩
      rw [htdb, telemetry_commit]
      exact hmem

theorem outcome_of_call (hs : s.db.Sound)
    (hstart : (s.workers w).outcome s w serialize readings ids)
    {call : List (Label config.orjson.Text)}
    (hcall : Along (Pool.step config) (within config w) s call)
    (hrun : exec (Pool.step config) s call = some t) :
    t.db.Sound ∧ (t.workers w).outcome t w serialize readings ids := by
  refine exec_along_invariant (I := fun v : Pool config.orjson.Text =>
    v.db.Sound ∧ (v.workers w).outcome v w serialize readings ids) ?_ hcall ⟨hs, hstart⟩ hrun
  rintro u l v ⟨hprocessing, hfail, hstop⟩ ⟨hdb, houtcome⟩ hstep
  cases hstate : u.workers w with
  | process ids' batch =>
      rw [hstate] at houtcome
      obtain ⟨rfl, hstands⟩ := houtcome
      rcases step_cases hstep with ⟨payload, rfl⟩ | ⟨w', group, db, state, hmove, rfl⟩
      · refine ⟨hdb, ?_⟩
        simp only [hstate]
        exact ⟨rfl, hstands⟩
      · refine ⟨(hmove.change hdb).sound hdb, ?_⟩
        by_cases hw : w = w'
        · subst hw
          simp only [Function.update_self]
          cases hmove with
          | process ids'' batch'' batch' db hprocess _ hbatch =>
              rw [hstate] at hprocess
              cases hprocess
              exact process_batch_outcome hdb hstands hbatch rfl
          | abort _ hcut _ =>
              rcases hcut with hcut | hcut
              · exact absurd hcut hfail
              · exact absurd hcut hstop
          | idle _ _ _ _ hfree =>
              rw [hstate] at hfree
              cases hfree
          | unacked _ hold | reread _ _ hold | take _ _ hold | drop _ _ hold | ack _ _ hold =>
              rw [hstate] at hold
              cases hold
        · simp only [Function.update_of_ne hw, hstate]
          exact ⟨rfl, BatchState.stands_frame (fun p hp => hp.frame (hmove.change hdb) hw) hstands⟩
  | read | claim | fresh | ack | pause | stopped =>
      rw [hstate] at hprocessing
      cases hprocessing

end Call

section Progress

variable {s : Pool config.orjson.Text} {w : WorkerId} {serialize : Datetime → String}
  {readings : EntryId → TelemetryCreate} {ids : List EntryId}

-- How many statements a call has to make at most.
def BatchState.remaining : BatchState → Nat
  | .insert _ => 3
  | .insert_row _ _ rest => 2 * rest.length + 4
  | .commit_row _ rest => 2 * rest.length + 3
  | .mark_seen _ => 2
  | .commit _ => 1
  | .returned | .raised => 0

theorem remaining_lt {db db' : Database WorkerId EntryId} {batch batch' : BatchState}
    (hbatch : process_batch db w batch = some (db', batch')) : batch'.remaining < batch.remaining := by
  cases process_batch_step hbatch with
  | commit_row done rest =>
      cases rest with
      | nil => simp [nextRow, BatchState.remaining]
      | cons row rest =>
          simp only [nextRow, BatchState.remaining, List.length_cons]
          omega
  | refused | insert | refused_row | insert_row | incomparable | mark_seen | commit =>
      simp [BatchState.remaining]

-- A statement opens no other transaction.
theorem theirs_of_process_batch {db db' : Database WorkerId EntryId} (hdb : db.Sound)
    {batch batch' : BatchState} (hbatch : process_batch db w batch = some (db', batch'))
    (hfree : db.store.theirs w = []) : db'.store.theirs w = [] := by
  have hrollback : (db.rollback w).store.theirs w = [] := by
    have hdirty : (db.rollback w).store.dirty = [] := hfree
    rw [Store.theirs, hdirty, List.filter_nil]
  cases process_batch_step hbatch with
  | refused | refused_row | incomparable | commit_row | commit => exact hrollback
  | insert rows values => exact (insert_telemetry_spec hdb w values).2.1.theirs_eq.trans hfree
  | insert_row done row rest value =>
      exact (insert_telemetry_spec hdb w [(row.1, value)]).2.1.theirs_eq.trans hfree
  | mark_seen rows latest hlatest db' hseen => exact (mark_seen_spec hdb hseen).2.1.theirs_eq.trans hfree

-- With no other transaction open no statement waits.
theorem process_batch_enabled {db : Database WorkerId EntryId} (hfree : db.store.theirs w = [])
    {batch : BatchState} (hpos : 0 < batch.remaining) :
    ∃ db' batch', process_batch db w batch = some (db', batch') := by
  cases batch with
  | insert rows =>
      simp only [process_batch]
      split <;> exact ⟨_, _, rfl⟩
  | insert_row done row rest =>
      simp only [process_batch]
      split <;> exact ⟨_, _, rfl⟩
  | mark_seen rows =>
      simp only [process_batch]
      split
      · exact ⟨_, _, rfl⟩
      · rename_i latest _
        have hseen : mark_seen db w latest =
            some { db with store := upsert_robots db.store w latest } := by
          unfold mark_seen
          rw [if_neg (by simp [Store.locked, hfree])]
        rw [hseen]
        exact ⟨_, _, rfl⟩
  | commit_row | commit => exact ⟨_, _, rfl⟩
  | returned | raised => cases hpos

-- Left alone, the call ends.
theorem call_ends (hs : s.db.Sound) (hstart : (s.workers w).outcome s w serialize readings ids)
    (hfree : s.db.store.theirs w = []) :
    ∃ call t, exec (Pool.step config) s call = some t ∧
      Along (Pool.step config) (within config w) s call ∧ (t.workers w).processing = false := by
  cases hstate : s.workers w with
  | process ids' batch =>
      rw [hstate] at hstart
      obtain ⟨rfl, hstands⟩ := hstart
      -- The statements left to the call decrease.
      induction hn : batch.remaining using Nat.strong_induction_on generalizing s batch with
      | _ n ih =>
          subst hn
          have hpos : 0 < batch.remaining := by
            cases batch with
            | returned | raised => exact hstands.elim
            | insert | insert_row | commit_row | mark_seen | commit => simp [BatchState.remaining]
          obtain ⟨db, batch', hbatch⟩ := process_batch_enabled hfree hpos
          have hstep : s.step config (.advance w 0 fun _ => ⟨0, by decide⟩) = some
              ⟨s.group, db, Function.update s.workers w (afterBatch ids' batch')⟩ := by
            simp only [Pool.step, act, hstate, advance, hbatch, Option.map_some]
          have hwithin : within config w s (.advance w 0 fun _ => ⟨0, by decide⟩) :=
            ⟨by rw [hstate]; rfl, by simp, by simp⟩
          have houtcome := process_batch_outcome
            (t := ⟨s.group, db, Function.update s.workers w (afterBatch ids' batch')⟩) hs hstands
            hbatch rfl
          cases hnext : afterBatch ids' batch' with
          | process ids'' batch'' =>
              have heq : ids'' = ids' ∧ batch'' = batch' := by
                cases batch' <;> cases hnext <;> exact ⟨rfl, rfl⟩
              obtain ⟨rfl, rfl⟩ := heq
              rw [hnext] at houtcome hstep
              obtain ⟨call, t, hrun, halong, hend⟩ := ih batch''.remaining
                (remaining_lt hbatch) ((process_batch_change hs hbatch).sound hs)
                (theirs_of_process_batch hs hbatch hfree) batch''
                (Function.update_self ..) houtcome.2 rfl
              refine ⟨_ :: call, t, (exec_cons_iff ..).mpr ⟨_, hstep, hrun⟩, ⟨hwithin, ?_⟩, hend⟩
              intro v hv
              rw [hstep] at hv
              cases hv
              exact halong
          | read | claim | fresh | ack | pause | stopped =>
              rw [hnext] at hstep
              refine ⟨[_], _, (exec_cons_iff ..).mpr ⟨_, hstep, rfl⟩, ⟨hwithin, fun _ _ => trivial⟩, ?_⟩
              simp only [Function.update_self]
              rfl
  | read | claim | fresh | ack | pause | stopped =>
      exact ⟨[], s, rfl, trivial, by rw [hstate]; rfl⟩

end Progress

section Main

variable {s u : Pool config.orjson.Text} {w : WorkerId} {now : Int} {clock : EntryId → Utc}

-- What a worker reads is processed if there is any of it.
theorem step_read (hstep : s.step config (.advance w now clock) = some u)
    (hne : taken config s w now ≠ []) :
    u.workers w = startBatch config s.group clock (taken config s w now) ∧ u.db = s.db ∧
      (s.group.Sound → ∀ id ∈ taken config s w now, id < u.group.delivered) := by
  unfold taken at hne ⊢
  cases hstate : s.workers w with
  | read =>
      simp only [hstate] at hne
      simp only [Pool.step, act, hstate, advance, Option.map_some, Option.some.injEq,
        List.isEmpty_iff, hne, if_false] at hstep
      subst hstep
      refine ⟨by simp, rfl, fun hgroup id hid => ?_⟩
      exact hgroup.delivered id (Group.mem_history _ _ _ hid)
  | fresh =>
      simp only [hstate] at hne
      simp only [Pool.step, act, hstate, advance, Option.map_some, Option.some.injEq,
        List.isEmpty_iff, hne, if_false] at hstep
      subst hstep
      exact ⟨by simp, rfl, fun _ id hid => ((Group.mem_fresh _ _ _).mp hid).2⟩
  | claim | process | ack | pause | stopped =>
      simp only [hstate] at hne
      exact absurd rfl hne

theorem acked_of_ack {t v : Pool config.orjson.Text} {ids : List EntryId} (hack : t.workers w = .ack ids)
    (hstep : t.step config (.advance w now clock) = some v) {id : EntryId} (hid : id ∈ ids)
    (hdelivered : id < t.group.delivered) : v.group.acked id := by
  simp only [Pool.step, act, hack, advance, Option.map_some, Option.some.injEq] at hstep
  subst hstep
  refine ⟨hdelivered, ?_⟩
  rw [Group.ids_xack, List.mem_filter, decide_eq_true_eq]
  exact fun h => h.2 hid

-- A batch of published readings raises exactly if the table refuses one of them.
-- Otherwise every entry of it is persisted, and acknowledged next; and with no
-- other transaction open the call gets to its end.
theorem poisoned_iff {labels : List (Label config.orjson.Text)} (hrun : Run config labels s)
    {serialize : Datetime → String} {readings : EntryId → TelemetryCreate}
    (hstep : s.step config (.advance w now clock) = some u) (hne : taken config s w now ≠ [])
    (hpublished : ∀ id ∈ taken config s w now, Published config serialize s id (readings id)) :
    (∀ call t, exec (Pool.step config) u call = some t →
      Along (Pool.step config) (within config w) u call → (t.workers w).processing = false →
      (t.workers w = .pause ↔ ∃ id ∈ taken config s w now, storable (readings id) = false) ∧
      (t.workers w = .ack (taken config s w now) ↔
        ∀ id ∈ taken config s w now, storable (readings id) = true) ∧
      (t.workers w = .ack (taken config s w now) → ∀ id ∈ taken config s w now,
        (∃ row, (id, row) ∈ t.db.telemetry) ∧
        ∀ now' clock' v, t.step config (.advance w now' clock') = some v → v.group.acked id)) ∧
    ((∀ w', w' ≠ w → s.db.store.mine w' = []) → ∃ call t, exec (Pool.step config) u call = some t ∧
      Along (Pool.step config) (within config w) u call ∧ (t.workers w).processing = false) := by
  obtain ⟨hgroup, hdb⟩ := sound_of_run hrun
  obtain ⟨hworker, hsame, hdelivered⟩ := step_read hstep hne
  have hstart : (u.workers w).outcome u w serialize readings (taken config s w now) := by
    rw [hworker]
    exact startBatch_outcome clock hne hpublished
  have hudb : u.db.Sound := hsame ▸ hdb
  refine ⟨fun call t hcall halong hend => ?_, fun hfree => ?_⟩
  · have houtcome := (outcome_of_call hudb hstart halong hcall).2
    have hle := delivered_le hcall
    cases hstate : t.workers w with
    | ack ids =>
        rw [hstate] at houtcome
        obtain ⟨rfl, hall⟩ := houtcome
        refine ⟨⟨nofun, ?_⟩, ⟨fun _ id hid => (hall id hid).1, fun _ => rfl⟩, fun _ id hid => ?_⟩
        · rintro ⟨id, hid, hbad⟩
          rw [(hall id hid).1] at hbad
          cases hbad
        · exact ⟨(hall id hid).2, fun now' clock' v hv =>
            acked_of_ack hstate hv hid ((hdelivered hgroup id hid).trans_le hle)⟩
    | pause =>
        rw [hstate] at houtcome
        refine ⟨⟨fun _ => houtcome, fun _ => rfl⟩, ⟨nofun, fun hall => ?_⟩, nofun⟩
        obtain ⟨id, hid, hbad⟩ := houtcome
        rw [hall id hid] at hbad
        cases hbad
    | process => rw [hstate] at hend; cases hend
    | read | claim | fresh | stopped =>
        rw [hstate] at houtcome
        exact houtcome.elim
  · refine call_ends hudb hstart ?_
    rw [hsame]
    exact theirs_eq_nil hfree

end Main

section TwoReadings

-- What the buffered path adds to the stream for a reading.
def published (data : TelemetryCreate) : Option batchConfig.orjson.Text :=
  (stamped (fun _ => "") data noonUtc).bind fun payload => batchConfig.orjson.dumps (.obj payload)

theorem published_spec {s : Pool batchConfig.orjson.Text} {id : EntryId} {data : TelemetryCreate}
    (hencode : (Json.int data.robot_id).encodable = true)
    (hget : s.group.entries[id]? = some (published data)) :
    Published batchConfig (fun _ => "") s id data := by
  obtain ⟨iso, hiso, _, _⟩ := parse_time_text_to_iso noonUtc
  have hstamped : ∃ payload, stamped (fun _ => "") data noonUtc = some payload := by
    simp [stamped, hiso]
  obtain ⟨payload, hpayload⟩ := hstamped
  have hdumps : (batchConfig.orjson.dumps (.obj payload)).isSome = true := by
    rw [batchConfig.orjson.dumps_isSome, encodable_stamped hpayload]
    exact hencode
  obtain ⟨text, htext⟩ := Option.isSome_iff_exists.mp hdumps
  refine ⟨noonUtc, payload, text, hpayload, htext, ?_⟩
  rw [hget, published, hpayload, Option.bind_some, htext]

-- Two readings are on the stream and a worker is about to read them.
def arrivals (first second : TelemetryCreate) : List (Label batchConfig.orjson.Text) :=
  [.xadd (published first), .xadd (published second), .start 0] ++ steps 0 2

def readingOf (first second : TelemetryCreate) (id : EntryId) : TelemetryCreate :=
  if id = 0 then first else second

theorem arrivals_run (first second : TelemetryCreate)
    (hfirst : (Json.int first.robot_id).encodable = true)
    (hsecond : (Json.int second.robot_id).encodable = true) :
    ∃ s u, Run batchConfig (arrivals first second) s ∧
      s.step batchConfig (.advance 0 0 fun _ => noonUtc) = some u ∧
      taken batchConfig s 0 0 = [0, 1] ∧ (∀ w, s.db.store.mine w = []) ∧
      ∀ id ∈ [0, 1], Published batchConfig (fun _ => "") s id (readingOf first second id) := by
  refine ⟨_, _, rfl, rfl, rfl, fun _ => rfl, fun id hid => ?_⟩
  rcases List.mem_pair.mp hid with rfl | rfl
  · exact published_spec hfirst rfl
  · exact published_spec hsecond rfl

-- A battery level of NaN is accepted, and reads back from JSON as null.
theorem poisoned_batch : ¬ ∀ (config : Config) (serialize : Datetime → String)
    (readings : EntryId → TelemetryCreate) (labels : List (Label config.orjson.Text))
    (s u t : Pool config.orjson.Text) (w : WorkerId) (now : Int) (clock : EntryId → Utc)
    (call : List (Label config.orjson.Text)), Run config labels s →
    s.step config (.advance w now clock) = some u → taken config s w now ≠ [] →
    (∀ id ∈ taken config s w now, Published config serialize s id (readings id)) →
    exec (Pool.step config) u call = some t → Along (Pool.step config) (within config w) u call →
    (t.workers w).processing = false → t.workers w ≠ .pause := by
  intro hnever
  obtain ⟨s, u, hrun, hstep, htaken, hfree, hpublished⟩ :=
    arrivals_run (plainReading 7 .nan) (plainReading 8 (.finite 91)) (by decide) (by decide)
  have hne : taken batchConfig s 0 0 ≠ [] := by rw [htaken]; nofun
  obtain ⟨hworker, hsame, _⟩ := step_read hstep hne
  rw [← htaken] at hpublished
  have hdb : u.db.Sound := hsame ▸ (sound_of_run hrun).2
  have hstart : (u.workers 0).outcome u 0 (fun _ => "")
      (readingOf (plainReading 7 .nan) (plainReading 8 (.finite 91))) (taken batchConfig s 0 0) := by
    rw [hworker]
    exact startBatch_outcome _ hne hpublished
  have hopen : u.db.store.theirs 0 = [] := by
    rw [hsame]
    exact theirs_eq_nil fun w' _ => hfree w'
  obtain ⟨call, t, hcall, halong, hend⟩ := call_ends hdb hstart hopen
  have houtcome := (outcome_of_call hdb hstart halong hcall).2
  have hpause := hnever batchConfig _ _ _ s u t 0 0 _ call hrun hstep hne hpublished hcall halong hend
  cases hstate : t.workers 0 with
  | pause => exact hpause hstate
  | ack ids =>
      rw [hstate] at houtcome
      have hbad := (houtcome.2 0 (by rw [htaken]; decide)).1
      revert hbad
      decide
  | process => rw [hstate] at hend; cases hend
  | read | claim | fresh | stopped =>
      rw [hstate] at houtcome
      exact houtcome.elim

theorem poisoned_iff_storable : ∃ t : Pool batchConfig.orjson.Text, t.workers 0 = .ack [0, 1] ∧
    ∀ id ∈ [0, 1], ∃ row, (id, row) ∈ t.db.telemetry := by
  obtain ⟨s, u, hrun, hstep, htaken, hfree, hpublished⟩ :=
    arrivals_run (plainReading 7 (.finite 90)) (plainReading 8 (.finite 91)) (by decide) (by decide)
  have hne : taken batchConfig s 0 0 ≠ [] := by rw [htaken]; nofun
  rw [← htaken] at hpublished
  obtain ⟨houtcome, hends⟩ := poisoned_iff hrun hstep hne hpublished
  obtain ⟨call, t, hcall, halong, hend⟩ := hends fun w' _ => hfree w'
  obtain ⟨_, hreturns, hpersisted⟩ := houtcome call t hcall halong hend
  rw [htaken] at hreturns hpersisted
  have hack := hreturns.mpr (by decide)
  exact ⟨t, hack, fun id hid => (hpersisted hack id hid).1⟩

end TwoReadings

end FleetOps.Telemetry.Worker
