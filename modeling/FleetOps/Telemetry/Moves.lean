import FleetOps.Telemetry.Worker

namespace FleetOps.Telemetry.Worker

open Calendar ConsumerGroup Dict RowStore

variable {config : Config}

section Hands

-- Inside a call of `process_batch`, which holds a session open.
def State.processing : State → Bool
  | .process _ _ => true
  | _ => false

-- The entries a worker is dealing with.
def State.hands : State → List EntryId
  | .process message_ids _ | .ack message_ids => message_ids
  | _ => []

-- Between two batches.
def State.free : State → Bool
  | .process _ _ | .ack _ => false
  | _ => true

theorem processing_of_free {state : State} (h : state.free = true) : state.processing = false := by
  cases state <;> first | rfl | cases h

theorem hands_of_free {state : State} (h : state.free = true) : state.hands = [] := by
  cases state <;> first | rfl | cases h

end Hands

-- What one step of worker `w` can do to the group, the database and its own
-- state. The first rule is for the steps between two batches that hand over none.
inductive Move (config : Config) (s : Pool config.orjson.Text) (w : WorkerId)
    (l : Label config.orjson.Text) :
    Group String (Option config.orjson.Text) → Database WorkerId EntryId → State → Prop where
  | idle (consumer : String) (now : Int) (ids : List EntryId) (state : State)
      (hfree : (s.workers w).free = true) (hstate : state.free = true) :
      Move config s w l (s.group.deliver consumer now ids) s.db state
  | abort (state : State) (hcut : l = .fail w ∨ l = .stop w)
      (hstate : state = .pause ∨ state = .stopped) :
      Move config s w l s.group (s.db.rollback w) state
  | unacked (ids : List EntryId) (hack : s.workers w = .ack ids) (hcut : l = .fail w) :
      Move config s w l s.group s.db .pause
  | reread (now : Int) (clock : EntryId → Utc) (hread : s.workers w = .read)
      (hlabel : l = .advance w now clock) :
      Move config s w l (s.group.history (config.consumer_name w) now 100).1 s.db
        (startBatch config s.group clock (s.group.history (config.consumer_name w) now 100).2)
  | take (now : Int) (clock : EntryId → Utc) (hfresh : s.workers w = .fresh) :
      Move config s w l (s.group.fresh (config.consumer_name w) now 100).1 s.db
        (startBatch config s.group clock (s.group.fresh (config.consumer_name w) now 100).2)
  | drop (now : Int) (state : State) (hfresh : s.workers w = .fresh) (hstate : state.free = true) :
      Move config s w l (s.group.fresh (config.consumer_name w) now 100).1 s.db state
  | process (ids : List EntryId) (state state' : BatchState) (db : Database WorkerId EntryId)
      (hprocess : s.workers w = .process ids state) (hlabel : ∃ now clock, l = .advance w now clock)
      (hbatch : process_batch s.db w state = some (db, state')) :
      Move config s w l s.group db (afterBatch ids state')
  | ack (ids : List EntryId) (state : State) (hack : s.workers w = .ack ids)
      (hstate : state.free = true) :
      Move config s w l (s.group.xack ids) s.db state

theorem deliver_nil {κ α : Type} [DecidableEq κ] (g : Group κ α) (consumer : κ) (now : Int) :
    g.deliver consumer now [] = g := by
  simp [Group.deliver]

-- A step that touches nothing but the worker's own state.
theorem Move.still (s : Pool config.orjson.Text) (w : WorkerId) (l : Label config.orjson.Text)
    (state : State) (hfree : (s.workers w).free = true) (hstate : state.free = true) :
    Move config s w l s.group s.db state := by
  have h : Move config s w l (s.group.deliver "" 0 []) s.db state := .idle "" 0 [] state hfree hstate
  rwa [deliver_nil] at h

theorem move_of_advance {s : Pool config.orjson.Text} {w : WorkerId} {now : Int}
    {clock : EntryId → Utc} {out : Outcome config.orjson.Text}
    (h : advance config s w now clock (s.workers w) = some out) :
    Move config s w (.advance w now clock) out.1 out.2.1 out.2.2 := by
  cases hstate : s.workers w with
  | read =>
      rw [hstate] at h
      cases h
      simp only
      split
      · exact .idle _ _ _ _ (by rw [hstate]; rfl) rfl
      · exact .reread now clock hstate rfl
  | claim =>
      rw [hstate] at h
      cases h
      simp only
      split <;> exact .idle _ _ _ _ (by rw [hstate]; rfl) rfl
  | fresh =>
      rw [hstate] at h
      cases h
      simp only
      split
      · exact .drop now _ hstate rfl
      · exact .take now clock hstate
  | process ids state =>
      rw [hstate] at h
      obtain ⟨⟨db, state'⟩, hbatch, rfl⟩ := Option.map_eq_some_iff.mp h
      exact .process ids state state' db hstate ⟨now, clock, rfl⟩ hbatch
  | ack ids =>
      rw [hstate] at h
      cases h
      exact .ack ids _ hstate rfl
  | pause =>
      rw [hstate] at h
      cases h
      exact .still s w _ _ (by rw [hstate]; rfl) rfl
  | stopped =>
      rw [hstate] at h
      cases h

theorem move_of_fail {s : Pool config.orjson.Text} {w : WorkerId} {out : Outcome config.orjson.Text}
    (h : fail config s w (s.workers w) = some out) :
    Move config s w (.fail w) out.1 out.2.1 out.2.2 := by
  cases hstate : s.workers w with
  | read | fresh | claim =>
      rw [hstate] at h
      cases h
      exact .still s w _ _ (by rw [hstate]; rfl) rfl
  | ack ids =>
      rw [hstate] at h
      cases h
      exact .unacked ids hstate rfl
  | process ids state =>
      rw [hstate] at h
      cases h
      exact .abort _ (Or.inl rfl) (Or.inl rfl)
  | pause | stopped =>
      rw [hstate] at h
      cases h

theorem move_of_lose {s : Pool config.orjson.Text} {w : WorkerId} {now : Int}
    {out : Outcome config.orjson.Text} (h : lose config s w now (s.workers w) = some out) :
    Move config s w (.lose w now) out.1 out.2.1 out.2.2 := by
  cases hstate : s.workers w with
  | read | claim =>
      rw [hstate] at h
      cases h
      exact .idle _ _ _ _ (by rw [hstate]; rfl) rfl
  | fresh =>
      rw [hstate] at h
      cases h
      exact .drop now _ hstate rfl
  | ack ids =>
      rw [hstate] at h
      cases h
      exact .ack ids _ hstate rfl
  | process | pause | stopped =>
      rw [hstate] at h
      cases h

theorem move_of_act {s : Pool config.orjson.Text} {w : WorkerId} {l : Label config.orjson.Text}
    (hl : l.worker = some w) {out : Outcome config.orjson.Text} (h : act config s w l = some out) :
    Move config s w l out.1 out.2.1 out.2.2 := by
  cases l with
  | xadd payload => cases hl
  | start _ =>
      simp only [act] at h
      split at h
      · rename_i hstate
        cases h
        exact .still s w _ _ (by rw [hstate]; rfl) rfl
      · cases h
  | advance _ now clock =>
      cases hl
      exact move_of_advance h
  | fail _ =>
      cases hl
      exact move_of_fail h
  | lose _ now =>
      cases hl
      exact move_of_lose h
  | stop _ =>
      cases hl
      cases h
      exact .abort _ (Or.inr rfl) (Or.inr rfl)

theorem move_of_step {s t : Pool config.orjson.Text} {w : WorkerId} {l : Label config.orjson.Text}
    (hl : l.worker = some w) (h : s.step config l = some t) :
    ∃ group db state, Move config s w l group db state ∧
      t = ⟨group, db, Function.update s.workers w state⟩ := by
  cases l with
  | xadd payload => cases hl
  | start v | advance v now clock | fail v | lose v now | stop v =>
      obtain rfl : v = w := Option.some.inj hl
      simp only [Pool.step, Option.map_eq_some_iff] at h
      obtain ⟨⟨group, db, state⟩, hact, rfl⟩ := h
      exact ⟨group, db, state, move_of_act rfl hact, rfl⟩

-- The inversion of a step: an XADD, or a move of one worker.
theorem step_cases {s t : Pool config.orjson.Text} {l : Label config.orjson.Text}
    (h : s.step config l = some t) :
    (∃ payload, t = { s with group := s.group.xadd payload }) ∨
      ∃ w group db state, Move config s w l group db state ∧
        t = ⟨group, db, Function.update s.workers w state⟩ := by
  cases hl : l.worker with
  | none =>
      cases l with
      | xadd payload =>
          cases h
          exact Or.inl ⟨payload, rfl⟩
      | start | advance | fail | lose | stop => cases hl
  | some w => exact Or.inr ⟨w, move_of_step hl h⟩

section Parsing

-- The telemetry object of an entry: it has a payload, which decodes to an object
-- with a battery field.
def telemetryDict (orjson : Orjson) (payload : Option orjson.Text) : Option Dict :=
  match payload.bind orjson.loads with
  | some (.obj d) => if d.any (fun p => p.1 == "battery") then some d else none
  | _ => none

theorem parse_cases (orjson : Orjson) (now : Utc) (payload : Option orjson.Text) :
    (∃ d, telemetryDict orjson payload = some d ∧
        parse orjson now payload = .row (payload_to_insert_dict now d)) ∨
      (telemetryDict orjson payload = none ∧
        (parse orjson now payload = .skip ∨ parse orjson now payload = .error)) := by
  unfold telemetryDict parse
  cases payload.bind orjson.loads with
  | none => exact Or.inr ⟨rfl, Or.inl rfl⟩
  | some decoded =>
      cases decoded with
      | obj d =>
          by_cases hbattery : d.any (fun p => p.1 == "battery") = true
          · exact Or.inl ⟨d, by simp [hbattery], by simp [parseDecoded, hbattery]⟩
          · exact Or.inr ⟨by simp [hbattery], Or.inl (by simp [parseDecoded, hbattery])⟩
      | str _ | arr _ =>
          refine Or.inr ⟨rfl, ?_⟩
          simp only [parseDecoded]
          split
          · exact Or.inr rfl
          · exact Or.inl rfl
      | null | bool | int | float => exact Or.inr ⟨rfl, Or.inr rfl⟩

-- The rows of a batch that parses are its telemetry entries, in order.
theorem parseAll_eq {orjson : Orjson} {clock : EntryId → Utc}
    {messages : List (EntryId × Option orjson.Text)} {rows : List Parsed}
    (h : parseAll orjson clock messages = some rows) :
    rows = messages.filterMap fun m =>
      (telemetryDict orjson m.2).map fun d => (m.1, payload_to_insert_dict (clock m.1) d) := by
  induction messages generalizing rows with
  | nil =>
      cases h
      rfl
  | cons m messages ih =>
      obtain ⟨id, payload⟩ := m
      rcases parse_cases orjson (clock id) payload with ⟨d, hd, hparse⟩ | ⟨hd, hparse | hparse⟩
      · simp only [parseAll, hparse, Option.map_eq_some_iff] at h
        obtain ⟨rest, hrest, rfl⟩ := h
        simp [hd, ih hrest]
      · simp only [parseAll, hparse] at h
        simp [hd, ih h]
      · simp only [parseAll, hparse] at h
        cases h

theorem mem_messages {T : Type} {g : Group String (Option T)} {ids : List EntryId} {id : EntryId}
    {payload : Option T} :
    (id, payload) ∈ messages g ids ↔ id ∈ ids ∧ g.entries[id]? = some payload := by
  simp only [messages, List.mem_filterMap, Option.map_eq_some_iff, Prod.mk.injEq]
  constructor
  · rintro ⟨id', hid, payload', hget, rfl, rfl⟩
    exact ⟨hid, hget⟩
  · rintro ⟨hid, hget⟩
    exact ⟨id, hid, payload, hget, rfl, rfl⟩

end Parsing

section Batches

-- What the next statement of a batch can do to the database, and where it takes the batch.
inductive BatchStep (db : Database WorkerId EntryId) (w : WorkerId) :
    BatchState → Database WorkerId EntryId → BatchState → Prop where
  | refused (rows : List Parsed) (hvalues : insertRows rows = none) :
      BatchStep db w (.insert rows) (db.rollback w) .raised
  | insert (rows : List Parsed) (values : List (EntryId × TelemetryRow))
      (hvalues : insertRows rows = some values) :
      BatchStep db w (.insert rows) (insert_telemetry db w values) (.mark_seen rows)
  | refused_row (done : List Parsed) (row : Parsed) (rest : List Parsed)
      (hvalue : columns row.2 = none) :
      BatchStep db w (.insert_row done row rest) (db.rollback w) .raised
  | insert_row (done : List Parsed) (row : Parsed) (rest : List Parsed) (value : TelemetryRow)
      (hvalue : columns row.2 = some value) :
      BatchStep db w (.insert_row done row rest) (insert_telemetry db w [(row.1, value)])
        (.commit_row (done ++ [row]) rest)
  | commit_row (done rest : List Parsed) :
      BatchStep db w (.commit_row done rest) (db.commit w) (nextRow done rest)
  | incomparable (rows : List Parsed) (hlatest : latest_by_robot [] (lastSeen rows) = none) :
      BatchStep db w (.mark_seen rows) (db.rollback w) .raised
  | mark_seen (rows : List Parsed) (latest : List (Int × Datetime))
      (hlatest : latest_by_robot [] (lastSeen rows) = some latest) (db' : Database WorkerId EntryId)
      (hseen : mark_seen db w latest = some db') :
      BatchStep db w (.mark_seen rows) db' (.commit rows)
  | commit (rows : List Parsed) : BatchStep db w (.commit rows) (db.commit w) .returned

theorem process_batch_step {db db' : Database WorkerId EntryId} {w : WorkerId}
    {batch batch' : BatchState} (h : process_batch db w batch = some (db', batch')) :
    BatchStep db w batch db' batch' := by
  cases batch with
  | insert rows =>
      simp only [process_batch] at h
      split at h <;> cases h
      · rename_i hvalues
        exact .refused rows hvalues
      · rename_i values hvalues
        exact .insert rows values hvalues
  | insert_row done row rest =>
      simp only [process_batch] at h
      split at h <;> cases h
      · rename_i hvalue
        exact .refused_row done row rest hvalue
      · rename_i value hvalue
        exact .insert_row done row rest value hvalue
  | commit_row done rest =>
      cases h
      exact .commit_row done rest
  | mark_seen rows =>
      simp only [process_batch] at h
      split at h
      · rename_i hlatest
        cases h
        exact .incomparable rows hlatest
      · rename_i latest hlatest
        obtain ⟨db'', hseen, heq⟩ := Option.map_eq_some_iff.mp h
        cases heq
        exact .mark_seen rows latest hlatest _ hseen
  | commit rows =>
      cases h
      exact .commit rows
  | returned | raised => cases h

theorem process_batch_change {db db' : Database WorkerId EntryId} (hdb : db.Sound) {w : WorkerId}
    {state state' : BatchState} (h : process_batch db w state = some (db', state')) :
    Change w db db' := by
  cases process_batch_step h with
  | refused | refused_row | incomparable => exact .rollback
  | insert | insert_row => exact insert_telemetry_change hdb w _
  | commit_row | commit => exact .commit
  | mark_seen rows latest hlatest db' hseen => exact mark_seen_change hdb hseen

variable {w : WorkerId} {l : Label config.orjson.Text} {db : Database WorkerId EntryId}
  {group : Group String (Option config.orjson.Text)} {state : State}

theorem Move.change {s : Pool config.orjson.Text} (hdb : s.db.Sound)
    (h : Move config s w l group db state) : Change w s.db db := by
  cases h with
  | idle | unacked | reread | take | drop | ack => exact .same
  | abort => exact .rollback
  | process ids state state' db hprocess _ hbatch => exact process_batch_change hdb hbatch

theorem Move.entries {s : Pool config.orjson.Text}
    (h : Move config s w l group db state) : group.entries = s.group.entries := by
  cases h <;> rfl

theorem Move.sound {s : Pool config.orjson.Text} (hgroup : s.group.Sound)
    (h : Move config s w l group db state) : group.Sound := by
  cases h with
  | idle => exact hgroup.deliver _ _ _
  | abort | unacked | process => exact hgroup
  | reread => exact hgroup.deliver _ _ _
  | take | drop => exact hgroup.fresh _ _ _
  | ack => exact hgroup.xack _

theorem Move.delivered {s : Pool config.orjson.Text} (h : Move config s w l group db state) :
    s.group.delivered ≤ group.delivered := by
  cases h with
  | take | drop => exact Nat.le_add_right _ _
  | idle | abort | unacked | reread | process | ack => exact le_refl _

-- Between two batches a worker has no transaction open.
theorem afterBatch_idle {db db' : Database WorkerId EntryId} {w : WorkerId} {ids : List EntryId}
    {state state' : BatchState} (hstep : process_batch db w state = some (db', state'))
    (hidle : (afterBatch ids state').processing = false) : db'.store.mine w = [] := by
  cases process_batch_step hstep with
  | refused | refused_row | incomparable => exact mine_rollback_self ..
  | commit_row | commit => exact mine_commit_self ..
  | insert | insert_row | mark_seen => cases hidle

theorem Move.idle_mine {s : Pool config.orjson.Text}
    (hs : ∀ v, (s.workers v).processing = false → s.db.store.mine v = [])
    (h : Move config s w l group db state) (hidle : state.processing = false) :
    db.store.mine w = [] := by
  cases h with
  | idle _ _ _ _ hfree => exact hs w (processing_of_free hfree)
  | abort => exact mine_rollback_self ..
  | reread _ _ hstate | take _ _ hstate | drop _ _ hstate | unacked _ hstate =>
      exact hs w (by rw [hstate]; rfl)
  | process ids batch batch' db hprocess _ hbatch => exact afterBatch_idle hbatch hidle
  | ack ids _ hack => exact hs w (by rw [hack]; rfl)

theorem idle_step {s t : Pool config.orjson.Text} (hdb : s.db.Sound)
    (hs : ∀ v, (s.workers v).processing = false → s.db.store.mine v = [])
    {l : Label config.orjson.Text} (h : s.step config l = some t) :
    ∀ v, (t.workers v).processing = false → t.db.store.mine v = [] := by
  intro v hidle
  rcases step_cases h with ⟨payload, rfl⟩ | ⟨w, group, db, state, hmove, rfl⟩
  · exact hs v hidle
  · by_cases hv : v = w
    · subst hv
      simp only [Function.update_self] at hidle
      exact hmove.idle_mine hs hidle
    · simp only [Function.update_of_ne hv] at hidle
      rw [(hmove.change hdb).mine_of_ne hv]
      exact hs v hidle

end Batches

section Runs

variable {s t : Pool config.orjson.Text}

theorem sound_step {l : Label config.orjson.Text} (hs : s.group.Sound ∧ s.db.Sound)
    (h : s.step config l = some t) : t.group.Sound ∧ t.db.Sound := by
  rcases step_cases h with ⟨payload, rfl⟩ | ⟨w, group, db, state, hmove, rfl⟩
  · exact ⟨hs.1.xadd payload, hs.2⟩
  · exact ⟨hmove.sound hs.1, (hmove.change hs.2).sound hs.2⟩

theorem sound_of_run {labels : List (Label config.orjson.Text)}
    (hrun : Runs.exec (Pool.step config) Pool.init labels = some s) :
    s.group.Sound ∧ s.db.Sound :=
  Runs.exec_invariant (I := fun u : Pool config.orjson.Text => u.group.Sound ∧ u.db.Sound)
    (fun _ _ _ hu hstep => sound_step hu hstep) ⟨Group.sound_empty, sound_empty_database⟩ hrun

-- What has been delivered stays delivered.
theorem delivered_le {labels : List (Label config.orjson.Text)}
    (hrun : Runs.exec (Pool.step config) s labels = some t) :
    s.group.delivered ≤ t.group.delivered := by
  refine Runs.exec_relation (I := fun _ => True)
    (R := fun u v : Pool config.orjson.Text => u.group.delivered ≤ v.group.delivered)
    (fun _ => le_refl _) (fun _ _ _ => le_trans) ?_ trivial hrun
  intro u l v _ hstep
  refine ⟨trivial, ?_⟩
  rcases step_cases hstep with ⟨payload, rfl⟩ | ⟨w, group, db, state, hmove, rfl⟩
  · exact le_refl _
  · exact hmove.delivered

end Runs

end FleetOps.Telemetry.Worker
