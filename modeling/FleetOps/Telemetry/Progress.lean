import FleetOps.Telemetry.Iterations

namespace FleetOps.Telemetry.Worker

open Calendar ConsumerGroup RowStore Runs

variable {config : Config}

section Batches

variable {s t : Pool config.orjson.Text} {w : WorkerId} {ids : List EntryId}

-- The rows of a batch that the tables take.
structure Takeable (config : Config) (s : Pool config.orjson.Text) (ids : List EntryId)
    (rows : List Parsed) : Prop where
  parsing : Parsing config s ids rows
  columns : ∀ p ∈ rows, (columns p.2).isSome = true
  aware : ∀ p ∈ rows, p.2.timestamp.aware = true

-- A worker that is on its way to acknowledge its batch, and what it has saved of it.
def State.sure (config : Config) (s : Pool config.orjson.Text) (w : WorkerId) : State → Prop
  | .process ids batch => Takeable config s ids (batch.done ++ batch.rest) ∧
      ∀ p ∈ batch.done, Written s w p
  | .ack ids => ∀ id ∈ ids, isTelemetry config s id = true → ∃ row, (id, row) ∈ s.db.telemetry
  | _ => False

-- How many awaits a batch needs at most before its XACK is answered.
def State.left : State → Nat
  | .process _ batch => batch.remaining + 1
  | .ack _ => 1
  | _ => 0

theorem isTelemetry_eq_true {id : EntryId} (h : isTelemetry config s id = true) :
    ∃ payload d, s.group.entries[id]? = some payload ∧ telemetryDict config.orjson payload = some d := by
  obtain ⟨d, hd⟩ := Option.isSome_iff_exists.mp h
  obtain ⟨payload, hget, hd⟩ := Option.bind_eq_some_iff.mp hd
  exact ⟨payload, d, hget, hd⟩

theorem Takeable.accepts {batch : BatchState}
    (h : Takeable config s ids (batch.done ++ batch.rest)) : batch.rejects = false := by
  cases batch with
  | insert rows =>
      have hsome : (insertRows rows).isSome = true := by
        rw [insertRows_isSome, List.all_eq_true]
        exact fun p hp => h.columns p (by simpa [BatchState.done, BatchState.rest] using hp)
      obtain ⟨values, hvalues⟩ := Option.isSome_iff_exists.mp hsome
      simp [BatchState.rejects, hvalues]
  | insert_row done row rest =>
      obtain ⟨value, hvalue⟩ := Option.isSome_iff_exists.mp
        (h.columns row (by simp [BatchState.rest]))
      simp [BatchState.rejects, hvalue]
  | mark_seen rows =>
      have haware : ∀ p ∈ lastSeen rows, p.2.aware = true := by
        intro p hp
        obtain ⟨q, hq, hpair⟩ := List.mem_filterMap.mp hp
        obtain ⟨robot_id, _, rfl⟩ := Option.map_eq_some_iff.mp hpair
        exact h.aware q (by simpa [BatchState.done, BatchState.rest] using hq)
      obtain ⟨latest, hlatest⟩ := Option.isSome_iff_exists.mp
        (latest_by_robot_isSome [] (by simp) haware)
      simp [BatchState.rejects, hlatest]
  | commit_row | commit | returned | raised => rfl

-- One statement of a batch that the database takes: its rows are written, and committed
-- by the time it returns.
theorem process_batch_written (hdb : s.db.Sound) {batch batch' : BatchState}
    {db : Database WorkerId EntryId} (hbatch : process_batch s.db w batch = some (db, batch'))
    (haccepts : batch.rejects = false) (hdone : ∀ p ∈ batch.done, Written s w p) (htdb : t.db = db) :
    (batch' = .returned ∧ ∀ p ∈ batch.done ++ batch.rest, ∃ row, (p.1, row) ∈ t.db.telemetry) ∨
      (0 < batch'.remaining ∧ batch'.done ++ batch'.rest = batch.done ++ batch.rest ∧
        ∀ p ∈ batch'.done, Written t w p) := by
  have hkept : ∀ values, t.db = insert_telemetry s.db w values →
      t.db.telemetry ++ inserted (t.db.store.mine w) =
        s.db.telemetry ++ inserted (s.db.store.mine w) ++ values := by
    intro values hvalues
    obtain ⟨_, hwrites, hmine⟩ := insert_telemetry_spec hdb w values
    rw [hvalues, hmine, Database.telemetry, hwrites.log_eq, ← List.append_assoc]
    rfl
  cases process_batch_step hbatch with
  | refused rows hnone => simp [BatchState.rejects, hnone] at haccepts
  | insert rows values hvalues =>
      refine Or.inr ⟨by simp [BatchState.remaining], by simp [BatchState.done, BatchState.rest],
        fun p hp => ?_⟩
      obtain ⟨row, _, hmem⟩ := mem_insertRows hvalues hp
      refine ⟨row, ?_⟩
      rw [hkept values htdb]
      exact List.mem_append_right _ hmem
  | refused_row done row rest hnone => simp [BatchState.rejects, hnone] at haccepts
  | insert_row done row rest value =>
      refine Or.inr ⟨by simp [BatchState.remaining], by simp [BatchState.done, BatchState.rest],
        fun p hp => ?_⟩
      rw [Written, hkept _ htdb]
      rcases List.mem_append.mp hp with hp | hp
      · obtain ⟨value', hmem⟩ := hdone p hp
        exact ⟨value', List.mem_append_left _ hmem⟩
      · rw [List.mem_singleton.mp hp]
        exact ⟨value, by simp⟩
  | commit_row done rest =>
      refine Or.inr ⟨by cases rest <;> simp [nextRow, BatchState.remaining],
        by rw [done_nextRow, rest_nextRow]; rfl, fun p hp => ?_⟩
      rw [done_nextRow] at hp
      obtain ⟨value, hmem⟩ := hdone p hp
      refine ⟨value, List.mem_append_left _ ?_⟩
      rw [htdb, telemetry_commit]
      exact hmem
  | incomparable rows hnone => simp [BatchState.rejects, hnone] at haccepts
  | mark_seen rows latest hlatest db hseen =>
      obtain ⟨_, hwrites, hmine, _⟩ := mark_seen_spec hdb hseen
      refine Or.inr ⟨by simp [BatchState.remaining], rfl, fun p hp => ?_⟩
      obtain ⟨value, hmem⟩ := hdone p hp
      refine ⟨value, ?_⟩
      rw [htdb, hmine, Database.telemetry, hwrites.log_eq]
      exact hmem
  | commit rows =>
      refine Or.inl ⟨rfl, fun p hp => ?_⟩
      obtain ⟨value, hmem⟩ := hdone p (by simpa [BatchState.done, BatchState.rest] using hp)
      refine ⟨value, ?_⟩
      rw [htdb, telemetry_commit]
      exact hmem

-- What a sure worker has is kept where the entries and its rows are.
theorem State.sure_frame (hentries : ∀ (id : EntryId) (payload : Option config.orjson.Text),
      s.group.entries[id]? = some payload → t.group.entries[id]? = some payload)
    (hdb : t.db = s.db) {state : State} (hlt : ∀ id ∈ state.hands, id < s.group.entries.length)
    (h : state.sure config s w) : state.sure config t w := by
  cases state with
  | process ids batch =>
      obtain ⟨htakeable, hdone⟩ := h
      refine ⟨⟨fun id hid => ?_, htakeable.columns, htakeable.aware⟩, fun p hp => ?_⟩
      · obtain ⟨payload, hget, hrows⟩ := htakeable.parsing id hid
        exact ⟨payload, hentries id payload hget, hrows⟩
      · rw [Written, hdb]
        exact hdone p hp
  | ack ids =>
      intro id hid htelemetry
      rw [hdb]
      have hget : s.group.entries[id]? = some _ := List.getElem?_eq_getElem (hlt id hid)
      have hsame : t.group.entries[id]? = s.group.entries[id]? := by rw [hget, hentries id _ hget]
      exact h id hid (isTelemetry_of_entries id hsame ▸ htelemetry)
  | read | claim | fresh | pause | stopped => exact h

theorem sure_afterBatch (hdb : s.db.Sound) {batch batch' : BatchState}
    {db : Database WorkerId EntryId} (hsure : (State.process ids batch).sure config s w)
    (hbatch : process_batch s.db w batch = some (db, batch'))
    (hentries : t.group.entries = s.group.entries) (htdb : t.db = db) :
    (afterBatch ids batch').sure config t w ∧ (afterBatch ids batch').hands = ids ∧
      (afterBatch ids batch').left ≤ batch'.remaining + 1 := by
  obtain ⟨htakeable, hdone⟩ := hsure
  rcases process_batch_written hdb hbatch htakeable.accepts hdone htdb with
    ⟨rfl, hsaved⟩ | ⟨hpos, hrows, hwritten⟩
  · refine ⟨fun id hid htelemetry => ?_, rfl, Nat.le_refl _⟩
    obtain ⟨payload, d, hget, hd⟩ := isTelemetry_eq_true htelemetry
    obtain ⟨payload', hget', hmem⟩ := htakeable.parsing id hid
    rw [hentries, hget'] at hget
    cases hget
    obtain ⟨now, hrow⟩ := hmem d hd
    exact hsaved _ hrow
  · have hafter : afterBatch ids batch' = .process ids batch' := by
      cases batch' <;> first | rfl | (simp [BatchState.remaining] at hpos)
    rw [hafter]
    refine ⟨⟨?_, hwritten⟩, rfl, Nat.le_refl _⟩
    rw [hrows]
    exact ⟨fun id hid => by rw [hentries]; exact htakeable.parsing id hid, htakeable.columns,
      htakeable.aware⟩

theorem parseAll_insertable {orjson : Orjson} (clock : EntryId → Utc)
    {messages : List (EntryId × Option orjson.Text)} (h : ∀ m ∈ messages, Insertable orjson m.2) :
    ∃ rows, parseAll orjson clock messages = some rows ∧ rows.length ≤ messages.length ∧
      ∀ p ∈ rows, (columns p.2).isSome = true ∧ p.2.timestamp.aware = true := by
  induction messages with
  | nil => exact ⟨[], rfl, Nat.le_refl _, by simp⟩
  | cons m messages ih =>
      obtain ⟨id, payload⟩ := m
      obtain ⟨rows, hrows, hlen, htaken⟩ := ih fun m hm => h m (List.mem_cons_of_mem _ hm)
      rcases h (id, payload) (by simp) (clock id) with hskip | ⟨d, hparse, hd⟩
      · exact ⟨rows, by simp only [parseAll, hskip, hrows], Nat.le_succ_of_le hlen, htaken⟩
      · refine ⟨(id, d) :: rows, by simp only [parseAll, hparse, hrows, Option.map_some],
          Nat.succ_le_succ hlen, fun p hp => ?_⟩
        rcases List.mem_cons.mp hp with rfl | hp
        · exact hd
        · exact htaken p hp

-- A batch of insertable entries is started, and can only be saved and acknowledged.
theorem sure_startBatch (clock : EntryId → Utc) (hlen : ids.length ≤ 100)
    (hids : ∀ id ∈ ids, id < s.group.entries.length)
    (hinsertable : ∀ id ∈ ids, ∀ payload, s.group.entries[id]? = some payload →
      Insertable config.orjson payload)
    (hentries : t.group.entries = s.group.entries) :
    (startBatch config s.group clock ids).sure config t w ∧
      (startBatch config s.group clock ids).hands = ids ∧
      (startBatch config s.group clock ids).left ≤ 204 := by
  have hmessages : ∀ m ∈ messages s.group ids, Insertable config.orjson m.2 := by
    rintro ⟨id, payload⟩ hm
    obtain ⟨hid, hget⟩ := mem_messages.mp hm
    exact hinsertable id hid payload hget
  obtain ⟨rows, hrows, hshort, htaken⟩ := parseAll_insertable clock hmessages
  have hparsing : Parsing config t ids rows := parsing_of_parseAll hids hentries hrows
  have htakeable : Takeable config t ids rows :=
    ⟨hparsing, fun p hp => (htaken p hp).1, fun p hp => (htaken p hp).2⟩
  have hfew : rows.length ≤ 100 :=
    hshort.trans ((List.length_filterMap_le _ _).trans hlen)
  simp only [startBatch, hrows, BatchState.begin]
  by_cases hempty : rows.isEmpty = true
  · rw [if_pos hempty]
    refine ⟨fun id hid htelemetry => ?_, rfl, by simp [afterBatch, State.left]⟩
    obtain ⟨payload, d, hget, hd⟩ := isTelemetry_eq_true htelemetry
    obtain ⟨payload', hget', hmem⟩ := hparsing id hid
    rw [hget'] at hget
    cases hget
    obtain ⟨now, hrow⟩ := hmem d hd
    rw [List.isEmpty_iff.mp hempty] at hrow
    cases hrow
  · rw [if_neg hempty]
    by_cases hopt : config.opt_batch_insert = true
    · rw [if_pos hopt]
      exact ⟨⟨htakeable, by simp [BatchState.done]⟩, rfl,
        by simp [afterBatch, State.left, BatchState.remaining]⟩
    · rw [if_neg hopt, afterBatch_nextRow]
      refine ⟨⟨by simpa using htakeable, by simp⟩, rfl, ?_⟩
      cases rows with
      | nil => simp [nextRow, State.left, BatchState.remaining]
      | cons row rest =>
          simp only [List.length_cons] at hfew
          simp only [nextRow, State.left, BatchState.remaining]
          omega

end Batches

section Waiting

variable {s t : Pool config.orjson.Text} {w : WorkerId} {target n : Nat} {now : Int}
  {clock : EntryId → Utc}

-- Nothing but `w` is at work. It waits for the telemetry of `target`.
structure Calm (config : Config) (w : WorkerId) (target : EntryId) (s : Pool config.orjson.Text) :
    Prop where
  group : s.group.Sound
  db : s.db.Sound
  idle : ∀ v, (s.workers v).processing = false → s.db.store.mine v = []
  alone : ∀ v, v ≠ w → (s.workers v).processing = false
  telemetry : isTelemetry config s target = true

-- All that can still be read is insertable, and what has not been read yet is.
def Clear (config : Config) (group : Group String (Option config.orjson.Text)) : Prop :=
  ∀ id payload, ¬ group.acked id → group.entries[id]? = some payload → Insertable config.orjson payload

def Unread (config : Config) (group : Group String (Option config.orjson.Text)) : Prop :=
  ∀ id payload, group.delivered ≤ id → group.entries[id]? = some payload →
    Insertable config.orjson payload

-- The awaits to the next batch. A worker with pending entries of its own reads them at once.
def State.rank (config : Config) (s : Pool config.orjson.Text) (w : WorkerId) : State → Nat
  | .read => if s.group.owns (config.consumer_name w) then 0 else 2
  | .claim => 1
  | .fresh => 0
  | .process _ batch => batch.remaining + 3
  | .ack _ | .pause | .stopped => 3

-- At most `n` awaits are left until `target` is acknowledged. Each entry that has to be
-- acknowledged before costs no more than an iteration, which has less than 210 of them.
inductive Near (config : Config) (w : WorkerId) (target n : Nat) (s : Pool config.orjson.Text) : Prop where
  | before (hclear : Clear config s.group) (hdelivered : s.group.delivered ≤ target)
      (hle : 210 * s.group.outstanding target + (s.workers w).rank config s w ≤ n)
  | sure (hsure : (s.workers w).sure config s w) (hhands : ∀ id ∈ (s.workers w).hands, id < s.group.delivered)
      (hleft : (target ∈ (s.workers w).hands ∧ (s.workers w).left ≤ n) ∨
        (Clear config s.group ∧ s.group.delivered ≤ target ∧
          210 * (s.group.xack (s.workers w).hands).outstanding target + 2 + (s.workers w).left ≤ n))
  | next (hfresh : s.workers w = .fresh) (hunread : Unread config s.group)
      (hdelivered : s.group.delivered ≤ target) (hlt : target < s.group.delivered + 100) (hle : 205 ≤ n)

def Saved (target : EntryId) (s : Pool config.orjson.Text) : Prop :=
  s.db.Sound ∧ (∃ row, (target, row) ∈ s.db.telemetry) ∧ s.group.acked target

theorem Move.acked_of_acked {l : Label config.orjson.Text}
    {group : Group String (Option config.orjson.Text)} {db : Database WorkerId EntryId} {state : State}
    (h : Move config s w l group db state) {id : EntryId} (hid : s.group.acked id) : group.acked id := by
  cases h with
  | idle => exact (Group.acked_deliver ..).mpr hid
  | reread => exact (Group.acked_deliver ..).mpr hid
  | abort | unacked | process => exact hid
  | take | drop => exact Group.acked_fresh_of_acked _ _ _ hid
  | ack => exact Group.acked_xack_of_acked _ hid

theorem Saved.step {l : Label config.orjson.Text} (hs : Saved target s)
    (h : s.step config l = some t) : Saved target t := by
  obtain ⟨hdb, ⟨row, hrow⟩, hacked⟩ := hs
  rcases step_cases h with ⟨payload, rfl⟩ | ⟨v, group, db, state, hmove, rfl⟩
  · exact ⟨hdb, ⟨row, hrow⟩, hacked⟩
  · have hchange := hmove.change hdb
    exact ⟨hchange.sound hdb, ⟨row, hchange.telemetry_subset hrow⟩, hmove.acked_of_acked hacked⟩

theorem Calm.target_lt (hs : Calm config w target s) : target < s.group.entries.length := by
  obtain ⟨payload, _, hget, _⟩ := isTelemetry_eq_true hs.telemetry
  exact (List.getElem?_eq_some_iff.mp hget).1

theorem Calm.step {l : Label config.orjson.Text} (hs : Calm config w target s)
    (hl : l.worker = some w) (h : s.step config l = some t) : Calm config w target t := by
  obtain ⟨hgroup, hdb⟩ := sound_step ⟨hs.group, hs.db⟩ h
  have hidle := idle_step hs.db hs.idle h
  obtain ⟨group, db, state, hmove, rfl⟩ := move_of_step hl h
  refine ⟨hgroup, hdb, hidle, fun v hv => ?_, ?_⟩
  · simp only [Function.update_of_ne hv]
    exact hs.alone v hv
  · rw [isTelemetry_of_entries (s := s) target (by rw [hmove.entries])]
    exact hs.telemetry

theorem Calm.xadd (hs : Calm config w target s) (payload : Option config.orjson.Text) :
    Calm config w target { s with group := s.group.xadd payload } where
  group := hs.group.xadd payload
  db := hs.db
  idle := hs.idle
  alone := hs.alone
  telemetry := by
    rw [isTelemetry_of_entries (s := s) target]
    · exact hs.telemetry
    · rw [Group.xadd, List.getElem?_append_left hs.target_lt]

theorem Clear.step {l : Label config.orjson.Text} (hs : Clear config s.group) (hl : l.worker = some w)
    (h : s.step config l = some t) : Clear config t.group := by
  obtain ⟨group, db, state, hmove, rfl⟩ := move_of_step hl h
  intro id payload hid hget
  rw [hmove.entries] at hget
  exact hs id payload (fun hacked => hid (hmove.acked_of_acked hacked)) hget

theorem insertable_xadd {group : Group String (Option config.orjson.Text)} {P : EntryId → Prop}
    (h : ∀ id payload, P id → group.entries[id]? = some payload → Insertable config.orjson payload)
    {payload : Option config.orjson.Text} (hinsertable : Insertable config.orjson payload) :
    ∀ id payload', P id → (group.xadd payload).entries[id]? = some payload' →
      Insertable config.orjson payload' := by
  intro id payload' hid hget
  by_cases hlt : id < group.entries.length
  · rw [Group.xadd, List.getElem?_append_left hlt] at hget
    exact h id payload' hid hget
  · rw [Group.xadd, List.getElem?_append_right (Nat.le_of_not_lt hlt)] at hget
    have hmem := List.mem_of_getElem? hget
    rw [List.mem_singleton] at hmem
    exact hmem ▸ hinsertable

theorem Near.xadd (hs : Calm config w target s) (hnear : Near config w target n s)
    {payload : Option config.orjson.Text} (hinsertable : Insertable config.orjson payload) :
    Near config w target n { s with group := s.group.xadd payload } := by
  cases hnear with
  | before hclear hdelivered hle =>
      refine .before (insertable_xadd hclear hinsertable) hdelivered ?_
      cases hstate : s.workers w <;> rw [hstate] at hle <;> exact hle
  | sure hsure hhands hleft =>
      have hkept : ∀ (id : EntryId) (p : Option config.orjson.Text),
          s.group.entries[id]? = some p → (s.group.xadd payload).entries[id]? = some p := by
        intro id p hget
        rw [Group.xadd, List.getElem?_append_left (List.getElem?_eq_some_iff.mp hget).1]
        exact hget
      refine .sure (State.sure_frame (t := { s with group := s.group.xadd payload }) hkept rfl
        (fun id hid => (hhands id hid).trans_le hs.group.length) hsure) hhands ?_
      refine hleft.imp_right fun h => ⟨insertable_xadd h.1 hinsertable, h.2⟩
  | next hfresh hunread hdelivered hlt hle =>
      exact .next hfresh (insertable_xadd hunread hinsertable) hdelivered hlt hle

-- A batch of insertable entries leads to the target, or nearer to it.
theorem near_startBatch {ids : List EntryId} (hlen : ids.length ≤ 100)
    {group : Group String (Option config.orjson.Text)} (hgroup : group.Sound)
    (hentries : group.entries = s.group.entries) (hids : ∀ id ∈ ids, id < group.delivered)
    (hinsertable : ∀ id ∈ ids, ∀ payload, s.group.entries[id]? = some payload →
      Insertable config.orjson payload)
    (hreach : (target ∈ ids ∧ 204 < n) ∨ (Clear config group ∧ group.delivered ≤ target ∧
      210 * (group.xack ids).outstanding target + 206 < n)) (clock : EntryId → Utc) :
    ∃ m < n, Near config w target m
      ⟨group, s.db, Function.update s.workers w (startBatch config s.group clock ids)⟩ := by
  have hlt : ∀ id ∈ ids, id < s.group.entries.length := by
    intro id hid
    rw [← hentries]
    exact (hids id hid).trans_le hgroup.length
  obtain ⟨hsure, hhands, hleft⟩ := sure_startBatch
    (t := ⟨group, s.db, Function.update s.workers w (startBatch config s.group clock ids)⟩) (w := w)
    clock hlen hlt hinsertable hentries
  refine ⟨n - 1, by omega, .sure ?_ ?_ ?_⟩ <;> simp only [Function.update_self, hhands]
  · exact hsure
  · exact hids
  · rcases hreach with ⟨hmem, hpos⟩ | ⟨hclear, hbefore, hless⟩
    · exact Or.inl ⟨hmem, by omega⟩
    · exact Or.inr ⟨hclear, hbefore, by omega⟩

theorem near_of_history (hs : Calm config w target s) (hclear : Clear config s.group) (now : Int)
    (hclear' : Clear config (s.group.history (config.consumer_name w) now 100).1)
    (hdelivered : s.group.delivered ≤ target)
    (howns : s.group.owns (config.consumer_name w) = true)
    (hle : 210 * s.group.outstanding target ≤ n) (clock : EntryId → Utc) :
    ∃ m < n, Near config w target m
      ⟨(s.group.history (config.consumer_name w) now 100).1, s.db, Function.update s.workers w
        (startBatch config s.group clock (s.group.history (config.consumer_name w) now 100).2)⟩ := by
  have hpending : ∀ id ∈ (s.group.history (config.consumer_name w) now 100).2, id ∈ s.group.ids :=
    fun id hid => Group.mem_history _ _ _ hid
  have hless := Group.outstanding_xack_history s.group (config.consumer_name w) now
    (show 0 < 100 by decide) howns target
  have hfew : 210 * ((s.group.history (config.consumer_name w) now 100).1.xack
      (s.group.history (config.consumer_name w) now 100).2).outstanding target + 206 < n := by
    omega
  refine near_startBatch ?_ (hs.group.deliver _ _ _) rfl
    (fun id hid => hs.group.delivered id (hpending id hid)) (fun id hid payload => ?_)
    (Or.inr ⟨hclear', hdelivered, hfew⟩) clock
  · simp [Group.history]
  · exact hclear id payload fun hacked => hacked.2 (hpending id hid)

theorem near_of_fresh (hs : Calm config w target s) (hclear : Clear config s.group) (now : Int)
    (hclear' : Clear config (s.group.fresh (config.consumer_name w) now 100).1)
    (hdelivered : s.group.delivered ≤ target)
    (hle : 210 * s.group.outstanding target ≤ n) (clock : EntryId → Utc) :
    ∃ m < n, Near config w target m
      ⟨(s.group.fresh (config.consumer_name w) now 100).1, s.db, Function.update s.workers w
        (startBatch config s.group clock (s.group.fresh (config.consumer_name w) now 100).2)⟩ := by
  have hpos : 0 < s.group.outstanding target := by
    unfold Group.outstanding
    omega
  refine near_startBatch ?_ (hs.group.fresh _ _ _) rfl
    (fun id hid => ((Group.mem_fresh s.group (config.consumer_name w) now).mp hid).2)
    (fun id hid payload => hclear id payload fun hacked => ?_) ?_ clock
  · simp [Group.fresh]
  · have hnew := (Group.mem_fresh s.group (config.consumer_name w) now).mp hid
    have hold := hacked.1
    omega
  · rcases Group.outstanding_xack_fresh s.group (config.consumer_name w) now
      (show 0 < 100 by decide) hdelivered hs.target_lt with hmem | ⟨hbefore, hless⟩
    · exact Or.inl ⟨hmem, by omega⟩
    · exact Or.inr ⟨hclear', hbefore, by omega⟩

-- The loop while `target` has not been delivered and no sure batch is in hand.
theorem near_of_before (hs : Calm config w target s) (hclear : Clear config s.group)
    (hdelivered : s.group.delivered ≤ target)
    (hle : 210 * s.group.outstanding target + (s.workers w).rank config s w ≤ n)
    (h : s.step config (.advance w now clock) = some t) : ∃ m < n, Near config w target m t := by
  have hclear' := hclear.step rfl h
  cases hstate : s.workers w with
  | read =>
      rw [hstate] at hle
      simp only [Pool.step, act, hstate, advance, Option.map_some, Option.some.injEq] at h
      subst h
      simp only [State.rank] at hle
      by_cases howns : s.group.owns (config.consumer_name w) = true
      · rw [if_pos howns] at hle
        have hids : (s.group.history (config.consumer_name w) now 100).2 ≠ [] := by
          intro hnil
          rw [Group.history_eq_nil _ _ _ (by decide), howns] at hnil
          cases hnil
        rw [if_neg (by simpa using hids)]
        exact near_of_history hs hclear now hclear' hdelivered howns (by omega) clock
      · have hnil : (s.group.history (config.consumer_name w) now 100).2 = [] := by
          rw [Group.history_eq_nil _ _ _ (by decide)]
          simpa using howns
        rw [if_neg howns] at hle
        refine ⟨n - 1, by omega, .before hclear' hdelivered ?_⟩
        simp only [hnil, List.isEmpty_nil, if_true, Function.update_self, State.rank]
        rw [Group.outstanding_history]
        omega
  | claim =>
      rw [hstate] at hle
      simp only [Pool.step, act, hstate, advance, Option.map_some, Option.some.injEq] at h
      subst h
      simp only [State.rank] at hle
      refine ⟨n - 1, by omega, .before hclear' hdelivered ?_⟩
      simp only [Function.update_self]
      rw [Group.outstanding_xautoclaim]
      split
      · simp only [State.rank]
        omega
      · rename_i hids
        have howns := s.group.owns_of_xautoclaim (config.consumer_name w) now
          fun hnil => hids (List.isEmpty_iff.mpr hnil)
        simp only [State.rank]
        rw [if_pos howns]
        omega
  | fresh =>
      rw [hstate] at hle
      simp only [Pool.step, act, hstate, advance, Option.map_some, Option.some.injEq] at h
      subst h
      have hids : (s.group.fresh (config.consumer_name w) now 100).2 ≠ [] := by
        have hmem : s.group.delivered ∈ (s.group.fresh (config.consumer_name w) now 100).2 := by
          have hlt := hs.target_lt
          simp only [Group.fresh, List.mem_range'_1]
          omega
        exact List.ne_nil_of_mem hmem
      rw [if_neg (by simpa using hids)]
      exact near_of_fresh hs hclear now hclear' hdelivered (by omega) clock
  | process ids batch =>
      rw [hstate] at hle
      simp only [Pool.step, act, hstate, advance, Option.map_map, Option.map_eq_some_iff] at h
      obtain ⟨⟨db, batch'⟩, hbatch, rfl⟩ := h
      have hlt := remaining_lt hbatch
      simp only [State.rank] at hle
      refine ⟨n - 1, by omega, .before hclear' hdelivered ?_⟩
      simp only [Function.comp_apply, Function.update_self]
      cases batch' <;> simp only [afterBatch, State.rank] <;> omega
  | ack ids =>
      rw [hstate] at hle
      simp only [Pool.step, act, hstate, advance, Option.map_some, Option.some.injEq] at h
      subst h
      simp only [State.rank] at hle
      refine ⟨n - 1, by omega, .before hclear' hdelivered ?_⟩
      have hfewer := Group.outstanding_xack_le s.group ids target
      simp only [Function.update_self, State.rank]
      split <;> omega
  | pause =>
      rw [hstate] at hle
      simp only [Pool.step, act, hstate, advance, Option.map_some, Option.some.injEq] at h
      subst h
      simp only [State.rank] at hle
      refine ⟨n - 1, by omega, .before hclear' hdelivered ?_⟩
      simp only [Function.update_self, State.rank]
      split <;> omega
  | stopped =>
      simp only [Pool.step, act, hstate, advance, Option.map_none] at h
      cases h

-- The loop with a sure batch in hand.
theorem near_of_sure (hs : Calm config w target s) (hsure : (s.workers w).sure config s w)
    (hhands : ∀ id ∈ (s.workers w).hands, id < s.group.delivered)
    (hleft : (target ∈ (s.workers w).hands ∧ (s.workers w).left ≤ n) ∨
      (Clear config s.group ∧ s.group.delivered ≤ target ∧
        210 * (s.group.xack (s.workers w).hands).outstanding target + 2 + (s.workers w).left ≤ n))
    (h : s.step config (.advance w now clock) = some t) :
    Saved target t ∨ ∃ m < n, Near config w target m t := by
  have hstep := h
  cases hstate : s.workers w with
  | process ids batch =>
      rw [hstate] at hsure hhands hleft
      simp only [Pool.step, act, hstate, advance, Option.map_map, Option.map_eq_some_iff] at h
      obtain ⟨⟨db, batch'⟩, hbatch, rfl⟩ := h
      have hlt := remaining_lt hbatch
      obtain ⟨hsure', hsame, hleft'⟩ := sure_afterBatch
        (t := ⟨s.group, db, Function.update s.workers w (afterBatch ids batch')⟩) hs.db hsure hbatch rfl rfl
      simp only [State.left] at hleft
      refine Or.inr ⟨n - 1, by omega, .sure ?_ ?_ ?_⟩ <;>
        simp only [Function.comp_apply, Function.update_self, hsame]
      · exact hsure'
      · exact hhands
      · rcases hleft with ⟨hmem, hle⟩ | ⟨hclear, hbefore, hle⟩
        · exact Or.inl ⟨hmem, by omega⟩
        · refine Or.inr ⟨hclear, hbefore, ?_⟩
          simp only [State.hands] at hle ⊢
          omega
  | ack ids =>
      rw [hstate] at hsure hhands hleft
      by_cases hmem : target ∈ ids
      · refine Or.inl ⟨(sound_step ⟨hs.group, hs.db⟩ h).2, ?_,
          acked_of_ack hstate h hmem (hhands target hmem)⟩
        simp only [Pool.step, act, hstate, advance, Option.map_some, Option.some.injEq] at h
        subst h
        exact hsure target hmem hs.telemetry
      · rcases hleft with ⟨hin, _⟩ | ⟨hclear, hbefore, hle⟩
        · exact absurd hin hmem
        · have hclear' := hclear.step rfl hstep
          simp only [Pool.step, act, hstate, advance, Option.map_some, Option.some.injEq] at h
          subst h
          simp only [State.hands, State.left] at hle
          refine Or.inr ⟨n - 1, by omega, .before hclear' hbefore ?_⟩
          simp only [Function.update_self, State.rank]
          split <;> omega
  | read | claim | fresh | pause | stopped =>
      rw [hstate] at hsure
      exact hsure.elim

-- The loop just before it reads `target`.
theorem near_of_next (hs : Calm config w target s) (hfresh : s.workers w = .fresh)
    (hunread : Unread config s.group) (hdelivered : s.group.delivered ≤ target)
    (hlt : target < s.group.delivered + 100) (hle : 205 ≤ n)
    (h : s.step config (.advance w now clock) = some t) : ∃ m < n, Near config w target m t := by
  simp only [Pool.step, act, hfresh, advance, Option.map_some, Option.some.injEq] at h
  subst h
  have hmem : target ∈ (s.group.fresh (config.consumer_name w) now 100).2 := by
    have hentries := hs.target_lt
    simp only [Group.fresh, List.mem_range'_1]
    omega
  rw [if_neg (by simpa using List.ne_nil_of_mem hmem)]
  refine near_startBatch ?_ (hs.group.fresh _ _ _) rfl
    (fun id hid => ((Group.mem_fresh s.group (config.consumer_name w) now).mp hid).2)
    (fun id hid payload => hunread id payload ?_) (Or.inl ⟨hmem, hle⟩) clock
  · simp [Group.fresh]
  · exact ((Group.mem_fresh s.group (config.consumer_name w) now).mp hid).1

theorem Near.step (hs : Calm config w target s) (hnear : Near config w target n s)
    (h : s.step config (.advance w now clock) = some t) :
    Saved target t ∨ ∃ m < n, Near config w target m t := by
  cases hnear with
  | before hclear hdelivered hle => exact Or.inr (near_of_before hs hclear hdelivered hle h)
  | sure hsure hhands hleft => exact near_of_sure hs hsure hhands hleft h
  | next hfresh hunread hdelivered hlt hle =>
      exact Or.inr (near_of_next hs hfresh hunread hdelivered hlt hle h)

-- A worker that has just entered its loop.
theorem Near.enter (hstopped : s.workers w = .stopped) (hnear : Near config w target n s)
    (h : s.step config (.start w) = some t) : ∃ m < n, Near config w target m t := by
  cases hnear with
  | before hclear hdelivered hle =>
      have hclear' := hclear.step rfl h
      rw [hstopped] at hle
      simp only [Pool.step, act, hstopped, Option.map_some, Option.some.injEq] at h
      subst h
      simp only [State.rank] at hle
      refine ⟨n - 1, by omega, .before hclear' hdelivered ?_⟩
      simp only [Function.update_self, State.rank]
      split <;> omega
  | sure hsure =>
      rw [hstopped] at hsure
      exact hsure.elim
  | next hfresh =>
      rw [hstopped] at hfresh
      cases hfresh

end Waiting

end FleetOps.Telemetry.Worker
