import FleetOps.Telemetry.Persistence

namespace FleetOps.Telemetry.Worker

open Calendar ConsumerGroup RowStore Runs

variable {config : Config}

section Definitions

def isTelemetry (config : Config) (s : Pool config.orjson.Text) (id : EntryId) : Bool :=
  ((s.group.entries[id]?).bind (telemetryDict config.orjson)).isSome

-- The rows of a batch whose INSERT has been made, and the others.
def BatchState.done : BatchState → List Parsed
  | .insert_row done _ _ | .commit_row done _ => done
  | .mark_seen rows | .commit rows => rows
  | _ => []

def BatchState.rest : BatchState → List Parsed
  | .insert rows | .commit_row _ rows => rows
  | .insert_row _ row rest => row :: rest
  | _ => []

-- The next statement of the batch raises although the database is up.
def BatchState.rejects : BatchState → Bool
  | .insert rows => (insertRows rows).isNone
  | .insert_row _ row _ => (columns row.2).isNone
  | .mark_seen rows => (latest_by_robot [] (lastSeen rows)).isNone
  | _ => false

-- The condition on a step. A worker does not lose a batch that has a committed
-- row: no step that fails, stops or is refused is taken then. And a worker that
-- asks for its pending entries is not given one that a worker is dealing with.
def clean (config : Config) (s : Pool config.orjson.Text) : Label config.orjson.Text → Prop
  | .fail w | .stop w => ∀ id ∈ (s.workers w).hands, s.db.rowsOf id = 0
  | .advance w now _ =>
      match s.workers w with
      | .read => ∀ id ∈ (s.group.history (config.consumer_name w) now 100).2,
          ∀ w', id ∉ (s.workers w').hands
      | .process ids batch => batch.rejects = true → ∀ id ∈ ids, s.db.rowsOf id = 0
      | _ => True
  | _ => True

-- The rows of a batch are its telemetry entries, each once.
structure Covers (config : Config) (s : Pool config.orjson.Text) (ids : List EntryId)
    (rows : List Parsed) : Prop where
  nodup : (rows.map Prod.fst).Nodup
  mem : ∀ id, id ∈ rows.map Prod.fst ↔ id ∈ ids ∧ isTelemetry config s id = true

-- What a worker's transaction and the table hold of its batch.
def State.owes (config : Config) (s : Pool config.orjson.Text) (w : WorkerId) : State → Prop
  | .process ids batch => Covers config s ids (batch.done ++ batch.rest) ∧
      ∀ id ∈ ids, s.db.rowsOf id + s.db.openRowsOf w id = (batch.done.map Prod.fst).count id
  | .ack ids => ∀ id ∈ ids,
      s.db.rowsOf id = (isTelemetry config s id).toNat ∧ s.db.openRowsOf w id = 0
  | _ => True

structure Ledger (config : Config) (s : Pool config.orjson.Text) : Prop where
  group : s.group.Sound
  db : s.db.Sound
  pending : ∀ w, ∀ id ∈ (s.workers w).hands, id ∈ s.group.ids
  apart : ∀ w w', w ≠ w' → ∀ id ∈ (s.workers w).hands, id ∉ (s.workers w').hands
  own : ∀ w id, id ∉ (s.workers w).hands → s.db.openRowsOf w id = 0
  waiting : ∀ id ∈ s.group.ids, (∀ w, id ∉ (s.workers w).hands) → s.db.rowsOf id = 0
  unread : ∀ id, s.group.delivered ≤ id → s.db.rowsOf id = 0
  acked : ∀ id, s.group.acked id → s.db.rowsOf id = (isTelemetry config s id).toNat
  owes : ∀ w, (s.workers w).owes config s w

end Definitions

section Frame

variable {s t : Pool config.orjson.Text} {w : WorkerId}

theorem isTelemetry_of_entries (id : EntryId) (h : t.group.entries[id]? = s.group.entries[id]?) :
    isTelemetry config t id = isTelemetry config s id := by
  unfold isTelemetry
  rw [h]

theorem owes_of_free {state : State} (h : state.free = true) : state.owes config s w := by
  cases state <;> trivial

-- A worker's part is kept where the entries and the rows of its batch are.
theorem State.owes_frame {state : State} (howes : state.owes config s w)
    (hentries : ∀ id ∈ state.hands, t.group.entries[id]? = s.group.entries[id]?)
    (hrows : ∀ id ∈ state.hands, t.db.rowsOf id = s.db.rowsOf id)
    (hopen : ∀ id, t.db.openRowsOf w id = s.db.openRowsOf w id) : state.owes config t w := by
  cases state with
  | process ids batch =>
      obtain ⟨hcovers, hcount⟩ := howes
      refine ⟨⟨hcovers.nodup, fun id => ?_⟩, fun id hid => ?_⟩
      · rw [hcovers.mem id]
        constructor <;>
        · rintro ⟨hid, htelemetry⟩
          have hsame : isTelemetry config t id = isTelemetry config s id :=
            isTelemetry_of_entries id (hentries id hid)
          exact ⟨hid, by simp_all⟩
      · rw [hrows id hid, hopen id]
        exact hcount id hid
  | ack ids =>
      intro id hid
      rw [hrows id hid, isTelemetry_of_entries id (hentries id hid), hopen id]
      exact howes id hid
  | read | claim | fresh | pause | stopped => trivial

theorem Ledger.lt_length (hs : Ledger config s) {id : EntryId} (hid : id ∈ s.group.ids) :
    id < s.group.entries.length :=
  (hs.group.delivered id hid).trans_le hs.group.length

theorem Ledger.xadd (hs : Ledger config s) (payload : Option config.orjson.Text) :
    Ledger config { s with group := s.group.xadd payload } := by
  have hentries : ∀ id < s.group.entries.length,
      (s.group.xadd payload).entries[id]? = s.group.entries[id]? := by
    intro id hid
    rw [Group.xadd, List.getElem?_append_left hid]
  exact
    { group := hs.group.xadd payload
      db := hs.db
      pending := hs.pending
      apart := hs.apart
      own := hs.own
      waiting := hs.waiting
      unread := hs.unread
      acked := fun id hid => by
        have hlt : id < s.group.entries.length := hid.1.trans_le hs.group.length
        rw [isTelemetry_of_entries (s := s) id (hentries id hlt)]
        exact hs.acked id hid
      owes := fun w => State.owes_frame (hs.owes w)
        (fun id hid => hentries id (hs.lt_length (hs.pending w id hid))) (fun _ _ => rfl)
        (fun _ => rfl) }

-- The rows of entries that a worker is not dealing with are none of its business.
theorem Ledger.rowsOf_eq (hs : Ledger config s) {db : Database WorkerId EntryId}
    (hchange : Change w s.db db) {id : EntryId} (hid : id ∉ (s.workers w).hands) :
    db.rowsOf id = s.db.rowsOf id :=
  hchange.rowsOf_eq (hs.own w id hid)

-- One worker moves: what has to be shown is about its own batch, the one it
-- leaves and the one it has then.
theorem Ledger.move (hs : Ledger config s)
    (hothers : ∀ w', w' ≠ w → t.workers w' = s.workers w') (hsound : t.group.Sound)
    (hchange : Change w s.db t.db) (hentries : t.group.entries = s.group.entries)
    (hdelivered : s.group.delivered ≤ t.group.delivered)
    (hnew : ∀ id ∈ t.group.ids, id ∈ s.group.ids ∨ s.group.delivered ≤ id)
    (hhands : ∀ id ∈ (t.workers w).hands,
      id ∈ t.group.ids ∧ ∀ w', w' ≠ w → id ∉ (s.workers w').hands)
    (hkeep : ∀ w', w' ≠ w → ∀ id ∈ (s.workers w').hands, id ∈ t.group.ids)
    (hown : ∀ id, id ∉ (t.workers w).hands → t.db.openRowsOf w id = 0)
    (hdropped : ∀ id ∈ (s.workers w).hands, id ∉ (t.workers w).hands → id ∈ t.group.ids →
      t.db.rowsOf id = 0)
    (hacked : ∀ id, t.group.acked id → s.group.acked id ∨
      (id ∈ (s.workers w).hands ∧ t.db.rowsOf id = (isTelemetry config s id).toNat))
    (howes : (t.workers w).owes config t w) : Ledger config t := by
  have hentry : ∀ id : EntryId, t.group.entries[id]? = s.group.entries[id]? := by simp [hentries]
  refine
    { group := hsound
      db := hchange.sound hs.db
      pending := fun w' id hid => ?_
      apart := fun w₁ w₂ hne id hid hid' => ?_
      own := fun w' id hid => ?_
      waiting := fun id hid hfree => ?_
      unread := fun id hid => ?_
      acked := fun id hid => ?_
      owes := fun w' => ?_ }
  · by_cases hw : w' = w
    · rw [hw] at hid
      exact (hhands id hid).1
    · rw [hothers w' hw] at hid
      exact hkeep w' hw id hid
  · by_cases hw₁ : w₁ = w
    · have hw₂ : w₂ ≠ w := fun h => hne (hw₁.trans h.symm)
      rw [hw₁] at hid
      rw [hothers w₂ hw₂] at hid'
      exact (hhands id hid).2 w₂ hw₂ hid'
    · rw [hothers w₁ hw₁] at hid
      by_cases hw₂ : w₂ = w
      · rw [hw₂] at hid'
        exact (hhands id hid').2 w₁ hw₁ hid
      · rw [hothers w₂ hw₂] at hid'
        exact hs.apart w₁ w₂ hne id hid hid'
  · by_cases hw : w' = w
    · rw [hw] at hid ⊢
      exact hown id hid
    · rw [hothers w' hw] at hid
      rw [hchange.openRowsOf_of_ne hw]
      exact hs.own w' id hid
  · have hrest : ∀ w', w' ≠ w → id ∉ (s.workers w').hands := by
      intro w' hw
      have h := hfree w'
      rwa [hothers w' hw] at h
    by_cases hold : id ∈ (s.workers w).hands
    · exact hdropped id hold (hfree w) hid
    · rw [hs.rowsOf_eq hchange hold]
      rcases hnew id hid with hpending | hunread
      · refine hs.waiting id hpending fun w' => ?_
        by_cases hw : w' = w
        · rw [hw]
          exact hold
        · exact hrest w' hw
      · exact hs.unread id hunread
  · have hold : id ∉ (s.workers w).hands := by
      intro hmem
      have hlt := hs.group.delivered id (hs.pending w id hmem)
      omega
    rw [hs.rowsOf_eq hchange hold]
    exact hs.unread id (hdelivered.trans hid)
  · rw [isTelemetry_of_entries (s := s) id (hentry id)]
    rcases hacked id hid with hold | ⟨_, hrows⟩
    · rw [hs.rowsOf_eq hchange fun hmem => hold.2 (hs.pending w id hmem)]
      exact hs.acked id hold
    · exact hrows
  · by_cases hw : w' = w
    · rw [hw]
      exact howes
    · rw [hothers w' hw]
      refine State.owes_frame (hs.owes w') (fun id _ => hentry id) (fun id hid => ?_)
        fun id => hchange.openRowsOf_of_ne hw id
      exact hs.rowsOf_eq hchange fun hmem => hs.apart w' w hw id hid hmem

end Frame

section Batch

variable {s t : Pool config.orjson.Text} {w : WorkerId}

theorem map_fst_parseAll {clock : EntryId → Utc} {ids : List EntryId} {rows : List Parsed}
    (h : parseAll config.orjson clock (messages s.group ids) = some rows) :
    rows.map Prod.fst = ids.filter (isTelemetry config s) := by
  rw [parseAll_eq h]
  clear h
  induction ids with
  | nil => rfl
  | cons id ids ih =>
      rw [messages] at ih ⊢
      rcases Option.eq_none_or_eq_some s.group.entries[id]? with hget | ⟨payload, hget⟩
      · simpa [isTelemetry, hget] using ih
      · cases hd : telemetryDict config.orjson payload with
        | none => simpa [isTelemetry, hget, hd] using ih
        | some d => simpa [isTelemetry, hget, hd] using ih

theorem covers_parseAll (hentries : t.group.entries = s.group.entries) {clock : EntryId → Utc}
    {ids : List EntryId} (hnodup : ids.Nodup) {rows : List Parsed}
    (h : parseAll config.orjson clock (messages s.group ids) = some rows) :
    Covers config t ids rows where
  nodup := by
    rw [map_fst_parseAll h]
    exact hnodup.filter _
  mem := fun id => by
    rw [map_fst_parseAll h, List.mem_filter,
      isTelemetry_of_entries (s := s) (t := t) id (by rw [hentries])]

@[simp] theorem done_nextRow (done rest : List Parsed) : (nextRow done rest).done = done := by
  cases rest <;> rfl

@[simp] theorem rest_nextRow (done rest : List Parsed) : (nextRow done rest).rest = rest := by
  cases rest <;> rfl

theorem afterBatch_nextRow (ids : List EntryId) (done rest : List Parsed) :
    afterBatch ids (nextRow done rest) = .process ids (nextRow done rest) := by
  cases rest <;> rfl

-- A batch starts with nothing inserted.
theorem startBatch_owes (hentries : t.group.entries = s.group.entries) (clock : EntryId → Utc)
    {ids : List EntryId} (hnodup : ids.Nodup) (hrows : ∀ id ∈ ids, t.db.rowsOf id = 0)
    (hopen : ∀ id ∈ ids, t.db.openRowsOf w id = 0) :
    (startBatch config s.group clock ids).owes config t w ∧
      ((startBatch config s.group clock ids).hands = ids ∨
        (startBatch config s.group clock ids).hands = []) := by
  unfold startBatch
  cases hparse : parseAll config.orjson clock (messages s.group ids) with
  | none => exact ⟨trivial, Or.inr rfl⟩
  | some rows =>
      have hcovers := covers_parseAll hentries hnodup hparse
      have hcount : ∀ id ∈ ids, t.db.rowsOf id + t.db.openRowsOf w id = 0 := by
        intro id hid
        rw [hrows id hid, hopen id hid]
      simp only [BatchState.begin]
      by_cases hempty : rows.isEmpty = true
      · rw [if_pos hempty]
        refine ⟨fun id hid => ?_, Or.inl rfl⟩
        have hno : isTelemetry config t id = false := by
          rw [Bool.eq_false_iff]
          intro htelemetry
          have hmem := (hcovers.mem id).mpr ⟨hid, htelemetry⟩
          rw [List.isEmpty_iff.mp hempty] at hmem
          cases hmem
        rw [hrows id hid, hno]
        exact ⟨rfl, hopen id hid⟩
      · rw [if_neg hempty]
        by_cases hopt : config.opt_batch_insert = true
        · rw [if_pos hopt]
          exact ⟨⟨hcovers, hcount⟩, Or.inl rfl⟩
        · rw [if_neg hopt, afterBatch_nextRow]
          refine ⟨⟨?_, ?_⟩, Or.inl rfl⟩
          · simpa using hcovers
          · simpa using hcount

theorem map_fst_insertRows {rows : List Parsed} {values : List (EntryId × TelemetryRow)}
    (h : insertRows rows = some values) : values.map Prod.fst = rows.map Prod.fst := by
  induction rows generalizing values with
  | nil =>
      cases h
      rfl
  | cons p rows ih =>
      simp only [insertRows, List.mapM_cons, Option.pure_def, Option.bind_eq_bind,
        Option.bind_eq_some_iff, Option.map_eq_some_iff, Option.some.injEq] at h
      obtain ⟨value, ⟨row, _, rfl⟩, rest, hrest, rfl⟩ := h
      simp [ih hrest]

-- Each statement of a batch adds its rows to the open transaction or moves them
-- to the table.
theorem process_batch_owes (hs : Ledger config s) {ids : List EntryId} {batch batch' : BatchState}
    (hprocess : s.workers w = .process ids batch) {db : Database WorkerId EntryId}
    (hbatch : process_batch s.db w batch = some (db, batch'))
    (hentries : t.group.entries = s.group.entries) (htdb : t.db = db) :
    (afterBatch ids batch').owes config t w ∧
      (∀ id, id ∉ (afterBatch ids batch').hands → t.db.openRowsOf w id = 0) ∧
      ((afterBatch ids batch').hands = ids ∨
        ((afterBatch ids batch').hands = [] ∧ batch.rejects = true ∧
          ∀ id, t.db.rowsOf id = s.db.rowsOf id)) := by
  have howes := hs.owes w
  have hown := hs.own w
  rw [hprocess] at howes hown
  obtain ⟨hcovers, hcount⟩ := howes
  have hcovers' : Covers config t ids (batch.done ++ batch.rest) :=
    ⟨hcovers.nodup, fun id => by
      rw [isTelemetry_of_entries (s := s) (t := t) id (by rw [hentries])]
      exact hcovers.mem id⟩
  -- An entry that is not in the batch has no row in it.
  have hrow : ∀ (rows : List Parsed), (∀ p ∈ rows, p ∈ batch.done ++ batch.rest) →
      ∀ id, id ∉ ids → (rows.map Prod.fst).count id = 0 := by
    intro rows hrows id hid
    rw [List.count_eq_zero]
    intro hmem
    obtain ⟨p, hp, rfl⟩ := List.mem_map.mp hmem
    exact hid ((hcovers.mem p.1).mp (List.mem_map_of_mem (hrows p hp))).1
  rw [htdb]
  cases process_batch_step hbatch with
  | refused rows hreject =>
      exact ⟨trivial, by simp, Or.inr ⟨rfl, by simp [BatchState.rejects, hreject], by simp⟩⟩
  | insert rows values hvalues =>
      have hinsert := rowsOf_insert_telemetry hs.db w values
      rw [map_fst_insertRows hvalues] at hinsert
      refine ⟨⟨by simpa [BatchState.done, BatchState.rest] using hcovers', fun id hid => ?_⟩,
        fun id hid => ?_, Or.inl rfl⟩
      · have hzero := hcount id hid
        simp only [BatchState.done, List.map_nil, List.count_nil] at hzero
        rw [htdb, (hinsert id).1, (hinsert id).2]
        simp only [BatchState.done]
        omega
      · rw [(hinsert id).2, hown id hid, hrow rows (by simp [BatchState.done, BatchState.rest]) id hid]
  | refused_row done row rest hreject =>
      exact ⟨trivial, by simp, Or.inr ⟨rfl, by simp [BatchState.rejects, hreject], by simp⟩⟩
  | insert_row done row rest value =>
      have hinsert := rowsOf_insert_telemetry hs.db w [(row.1, value)]
      refine ⟨⟨by simpa [BatchState.done, BatchState.rest] using hcovers', fun id hid => ?_⟩,
        fun id hid => ?_, Or.inl rfl⟩
      · have hdone := hcount id hid
        simp only [BatchState.done] at hdone
        rw [htdb, (hinsert id).1, (hinsert id).2]
        simp only [BatchState.done, List.map_append, List.count_append, List.map_cons, List.map_nil]
        omega
      · rw [(hinsert id).2, hown id hid, Nat.zero_add]
        exact hrow [row] (by simp [BatchState.done, BatchState.rest]) id hid
  | commit_row done rest =>
      rw [afterBatch_nextRow]
      refine ⟨⟨by rw [done_nextRow, rest_nextRow]; exact hcovers', fun id hid => ?_⟩, by simp, Or.inl rfl⟩
      rw [htdb, rowsOf_commit, openRowsOf_commit, done_nextRow]
      exact hcount id hid
  | incomparable rows hreject =>
      exact ⟨trivial, by simp, Or.inr ⟨rfl, by simp [BatchState.rejects, hreject], by simp⟩⟩
  | mark_seen rows latest hlatest db hseen =>
      have hmark := rowsOf_mark_seen hs.db hseen
      refine ⟨⟨hcovers', fun id hid => ?_⟩, fun id hid => ?_, Or.inl rfl⟩
      · rw [htdb, (hmark id).1, (hmark id).2]
        exact hcount id hid
      · rw [(hmark id).2]
        exact hown id hid
  | commit rows =>
      refine ⟨fun id hid => ⟨?_, by simp [htdb]⟩, by simp, Or.inl rfl⟩
      rw [htdb, rowsOf_commit, hcount id hid]
      have hmem := hcovers'.mem id
      simp only [BatchState.done, BatchState.rest, List.append_nil] at hmem ⊢
      by_cases htelemetry : isTelemetry config t id = true
      · rw [List.count_eq_one_of_mem (by simpa [BatchState.done, BatchState.rest] using hcovers'.nodup)
          (hmem.mpr ⟨hid, htelemetry⟩), htelemetry]
        rfl
      · rw [List.count_eq_zero.mpr fun h => htelemetry (hmem.mp h).2]
        simp [htelemetry]

end Batch

section Preservation

variable {s t : Pool config.orjson.Text} {w : WorkerId} {l : Label config.orjson.Text}
  {group : Group String (Option config.orjson.Text)} {db : Database WorkerId EntryId} {state : State}

-- A step that acknowledges nothing and hands over nothing that is being dealt with.
theorem Ledger.quiet (hs : Ledger config s) (hchange : Change w s.db db)
    (hgroup : group.Sound) (hentries : group.entries = s.group.entries)
    (hdelivered : group.delivered = s.group.delivered) (hids : group.ids = s.group.ids)
    (hhands : ∀ id ∈ state.hands, id ∈ s.group.ids ∧ ∀ w', w' ≠ w → id ∉ (s.workers w').hands)
    (hown : ∀ id, id ∉ state.hands → db.openRowsOf w id = 0)
    (hdropped : ∀ id ∈ (s.workers w).hands, id ∉ state.hands → db.rowsOf id = 0)
    (howes : state.owes config ⟨group, db, Function.update s.workers w state⟩ w) :
    Ledger config ⟨group, db, Function.update s.workers w state⟩ := by
  apply hs.move (w := w) <;> simp only [Function.update_self, hids]
  · exact fun w' hw => Function.update_of_ne hw ..
  · exact hgroup
  · exact hchange
  · exact hentries
  · exact hdelivered.ge
  · exact fun id hid => Or.inl hid
  · exact hhands
  · exact fun w' _ id hid => hs.pending w' id hid
  · exact hown
  · exact fun id hid hnot _ => hdropped id hid hnot
  · intro id hid
    refine Or.inl ⟨?_, ?_⟩
    · rw [← hdelivered]
      exact hid.1
    · rw [← hids]
      exact hid.2
  · exact howes

-- Entries are handed out for the first time.
theorem Ledger.fresh (hs : Ledger config s) (now : Int)
    (hfree : (s.workers w).free = true)
    (hhands : state.hands = (s.group.fresh (config.consumer_name w) now 100).2 ∨ state.hands = [])
    (howes : state.owes config ⟨(s.group.fresh (config.consumer_name w) now 100).1, s.db,
      Function.update s.workers w state⟩ w) :
    Ledger config ⟨(s.group.fresh (config.consumer_name w) now 100).1, s.db,
      Function.update s.workers w state⟩ := by
  have hnone : (s.workers w).hands = [] := hands_of_free hfree
  have hnew : ∀ id ∈ (s.group.fresh (config.consumer_name w) now 100).2, s.group.delivered ≤ id :=
    fun id hid => ((Group.mem_fresh _ _ _).mp hid).1
  have hsub : ∀ id ∈ state.hands, id ∈ (s.group.fresh (config.consumer_name w) now 100).2 := by
    intro id hid
    rcases hhands with h | h <;> rw [h] at hid
    · exact hid
    · cases hid
  apply hs.move (w := w) <;> simp only [Function.update_self, Group.ids_fresh, List.mem_append, hnone]
  · exact fun w' hw => Function.update_of_ne hw ..
  · exact hs.group.fresh _ _ _
  · exact .same
  · rfl
  · exact Nat.le_add_right _ _
  · exact fun id hid => hid.imp_right (hnew id)
  · refine fun id hid => ⟨Or.inr (hsub id hid), fun w' _ hmem => ?_⟩
    have hlt := hs.group.delivered id (hs.pending w' id hmem)
    have hle := hnew id (hsub id hid)
    omega
  · exact fun w' _ id hid => Or.inl (hs.pending w' id hid)
  · exact fun id _ => hs.own w id (by simp [hnone])
  · simp
  · exact fun id hid => Or.inl (Group.acked_of_fresh _ _ _ hid)
  · exact howes

theorem Ledger.xack (hs : Ledger config s) {ids : List EntryId} (hack : s.workers w = .ack ids)
    (hstate : state.free = true) :
    Ledger config ⟨s.group.xack ids, s.db, Function.update s.workers w state⟩ := by
  have howes := hs.owes w
  have hapart := hs.apart w
  have hpending := hs.pending w
  have hown := hs.own w
  rw [hack] at howes hapart hpending hown
  have hnone : state.hands = [] := hands_of_free hstate
  apply hs.move (w := w) <;>
    simp only [Function.update_self, Group.ids_xack, List.mem_filter, decide_eq_true_eq, hnone, hack]
  · exact fun w' hw => Function.update_of_ne hw ..
  · exact hs.group.xack ids
  · exact .same
  · rfl
  · exact le_refl _
  · exact fun id hid => Or.inl hid.1
  · simp
  · exact fun w' hw id hid => ⟨hs.pending w' id hid, fun hmem => hapart w' hw.symm id hmem hid⟩
  · intro id _
    by_cases hid : id ∈ ids
    · exact (howes id hid).2
    · exact hown id hid
  · exact fun id hid _ hmem => absurd hid hmem.2
  · intro id hid
    rcases Group.acked_xack _ hid with hold | ⟨hmem, _⟩
    · exact Or.inl hold
    · exact Or.inr ⟨hmem, (howes id hmem).1⟩
  · exact owes_of_free hstate

theorem nodup_history (hgroup : s.group.Sound) (consumer : String) (now : Int) (count : Nat) :
    (s.group.history consumer now count).2.Nodup := by
  have hsub : (s.group.history consumer now count).2.Sublist s.group.ids :=
    ((List.take_sublist _ _).trans List.filter_sublist).map _
  exact (hgroup.sorted.sublist hsub).imp fun hlt => hlt.ne

theorem Ledger.reread (hs : Ledger config s) (hread : s.workers w = .read) (now : Int)
    (clock : EntryId → Utc) (hclean : ∀ id ∈ (s.group.history (config.consumer_name w) now 100).2,
      ∀ w', id ∉ (s.workers w').hands) :
    Ledger config ⟨(s.group.history (config.consumer_name w) now 100).1, s.db,
      Function.update s.workers w (startBatch config s.group clock
        (s.group.history (config.consumer_name w) now 100).2)⟩ := by
  have hnone : (s.workers w).hands = [] := by rw [hread]; rfl
  have hopen : ∀ id, s.db.openRowsOf w id = 0 := fun id => hs.own w id (by simp [hnone])
  have hids : ∀ id ∈ (s.group.history (config.consumer_name w) now 100).2, id ∈ s.group.ids :=
    fun id hid => Group.mem_history _ _ _ hid
  obtain ⟨howes, hhands⟩ := startBatch_owes (s := s)
    (t := ⟨(s.group.history (config.consumer_name w) now 100).1, s.db,
      Function.update s.workers w (startBatch config s.group clock
        (s.group.history (config.consumer_name w) now 100).2)⟩) (w := w) rfl clock
    (nodup_history hs.group (config.consumer_name w) now 100)
    (fun id hid => hs.waiting id (hids id hid) (hclean id hid)) (fun id _ => hopen id)
  refine hs.quiet .same (hs.group.deliver _ _ _) rfl rfl (Group.ids_deliver ..) ?_
    (fun id _ => hopen id) (by simp [hnone]) howes
  intro id hid
  rcases hhands with heq | heq <;> rw [heq] at hid
  · exact ⟨hids id hid, fun w' _ => hclean id hid w'⟩
  · cases hid

theorem Ledger.process (hs : Ledger config s) {ids : List EntryId} {batch batch' : BatchState}
    {db : Database WorkerId EntryId} (hprocess : s.workers w = .process ids batch)
    (hbatch : process_batch s.db w batch = some (db, batch'))
    (hclean : batch.rejects = true → ∀ id ∈ ids, s.db.rowsOf id = 0) :
    Ledger config ⟨s.group, db, Function.update s.workers w (afterBatch ids batch')⟩ := by
  obtain ⟨howes, hown, hhands⟩ := process_batch_owes
    (t := ⟨s.group, db, Function.update s.workers w (afterBatch ids batch')⟩) hs hprocess hbatch
    rfl rfl
  refine hs.quiet (process_batch_change hs.db hbatch) hs.group rfl rfl rfl ?_ hown ?_ howes
  · intro id hid
    rcases hhands with heq | ⟨heq, _⟩ <;> rw [heq] at hid
    · have hold : id ∈ (s.workers w).hands := by rwa [hprocess]
      exact ⟨hs.pending w id hold, fun w' hw => hs.apart w w' hw.symm id hold⟩
    · cases hid
  · intro id hid hnot
    rw [hprocess] at hid
    rcases hhands with heq | ⟨_, hreject, hrows⟩
    · rw [heq] at hnot
      exact absurd hid hnot
    · exact (hrows id).trans (hclean hreject id hid)

theorem Ledger.step (hs : Ledger config s) (hclean : clean config s l)
    (h : s.step config l = some t) : Ledger config t := by
  rcases step_cases h with ⟨payload, rfl⟩ | ⟨w, group, db, state, hmove, rfl⟩
  · exact hs.xadd payload
  cases hmove with
  | idle consumer now ids _ hfree hstate =>
      have hnone := hands_of_free hfree
      refine hs.quiet .same (hs.group.deliver _ _ _) rfl rfl (Group.ids_deliver ..) ?_ ?_ ?_
        (owes_of_free hstate)
      · simp [hands_of_free hstate]
      · exact fun id _ => hs.own w id (by simp [hnone])
      · simp [hnone]
  | abort _ hcut hstate =>
      have hfree : state.free = true := by rcases hstate with rfl | rfl <;> rfl
      have hrows : ∀ id ∈ (s.workers w).hands, s.db.rowsOf id = 0 := by
        rcases hcut with rfl | rfl <;> exact hclean
      refine hs.quiet .rollback hs.group rfl rfl rfl ?_ (by simp) ?_ (owes_of_free hfree)
      · simp [hands_of_free hfree]
      · exact fun id hid _ => hrows id hid
  | unacked ids hack hcut =>
      subst hcut
      have howes := hs.owes w
      rw [hack] at howes
      refine hs.quiet .same hs.group rfl rfl rfl (by simp [State.hands]) ?_
        (fun id hid _ => hclean id hid) trivial
      intro id _
      by_cases hid : id ∈ ids
      · exact (howes id hid).2
      · exact hs.own w id (by rw [hack]; exact hid)
  | reread now clock hread hlabel =>
      subst hlabel
      simp only [clean, hread] at hclean
      exact hs.reread hread now clock hclean
  | take now clock hfresh =>
      have hfree : (s.workers w).free = true := by rw [hfresh]; rfl
      have hunread : ∀ id ∈ (s.group.fresh (config.consumer_name w) now 100).2, s.db.rowsOf id = 0 :=
        fun id hid => hs.unread id ((Group.mem_fresh _ _ _).mp hid).1
      obtain ⟨howes, hhands⟩ := startBatch_owes (s := s)
        (t := ⟨(s.group.fresh (config.consumer_name w) now 100).1, s.db,
          Function.update s.workers w (startBatch config s.group clock
            (s.group.fresh (config.consumer_name w) now 100).2)⟩) (w := w) rfl clock
        List.nodup_range' hunread
        (fun id _ => hs.own w id (by simp [hands_of_free hfree]))
      exact hs.fresh now hfree hhands howes
  | drop now _ hfresh hstate =>
      exact hs.fresh now (by rw [hfresh]; rfl) (Or.inr (hands_of_free hstate)) (owes_of_free hstate)
  | process ids batch batch' db hprocess hlabel hbatch =>
      obtain ⟨now, clock, rfl⟩ := hlabel
      simp only [clean, hprocess] at hclean
      exact hs.process hprocess hbatch hclean
  | ack ids _ hack hstate => exact hs.xack hack hstate

theorem ledger_init : Ledger config Pool.init where
  group := Group.sound_empty
  db := sound_empty_database
  pending := fun _ _ hid => nomatch hid
  apart := fun _ _ _ _ hid => nomatch hid
  own := fun _ _ _ => rfl
  waiting := fun _ _ _ => rfl
  unread := fun _ _ => rfl
  acked := fun _ hid => absurd hid.1 (Nat.not_lt_zero _)
  owes := fun _ => trivial

theorem Ledger.rowsOf_le_one (hs : Ledger config s) (id : EntryId) : s.db.rowsOf id ≤ 1 := by
  by_cases hpending : id ∈ s.group.ids
  · by_cases hfree : ∀ w, id ∉ (s.workers w).hands
    · exact (hs.waiting id hpending hfree).trans_le (Nat.zero_le 1)
    · obtain ⟨w, hid⟩ := not_forall_not.mp hfree
      have howes := hs.owes w
      cases hstate : s.workers w with
      | process ids batch =>
          rw [hstate] at howes hid
          have hcount := howes.2 id hid
          have hnodup : (batch.done.map Prod.fst).Nodup := by
            have h := howes.1.nodup
            rw [List.map_append] at h
            exact h.of_append_left
          have hle := List.nodup_iff_count_le_one.mp hnodup id
          omega
      | ack ids =>
          rw [hstate] at howes hid
          rw [(howes id hid).1]
          exact Bool.toNat_le _
      | read | claim | fresh | pause | stopped =>
          rw [hstate] at hid
          cases hid
  · by_cases hlt : id < s.group.delivered
    · rw [hs.acked id ⟨hlt, hpending⟩]
      exact Bool.toNat_le _
    · exact (hs.unread id (Nat.le_of_not_lt hlt)).trans_le (Nat.zero_le 1)

-- An acknowledged entry that is telemetry has its one row.
theorem Ledger.soleRow (hs : Ledger config s) {id : EntryId} (hid : s.group.acked id)
    (htelemetry : isTelemetry config s id = true) : s.db.soleRow id := by
  have hone : s.db.rowsOf id = 1 := by rw [hs.acked id hid, htelemetry, Bool.toNat_true]
  obtain ⟨p, hp, hsource⟩ : ∃ p ∈ s.db.telemetry, p.1 = id := by
    have hpos : 0 < (s.db.telemetry.map Prod.fst).count id := by
      rw [Database.rowsOf] at hone
      omega
    exact List.mem_map.mp (List.count_pos_iff.mp hpos)
  obtain ⟨source, row⟩ := p
  subst hsource
  obtain ⟨key, hkey⟩ := hs.db.committed_telemetry hp
  refine ⟨key, ⟨row, hkey⟩, ?_⟩
  rintro key' ⟨row', hkey'⟩
  exact unique_of_rowsOf hone.le hkey' hkey

end Preservation

end FleetOps.Telemetry.Worker
