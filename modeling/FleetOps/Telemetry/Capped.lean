import FleetOps.Telemetry.ExactlyOnce

namespace FleetOps.Telemetry.Worker

open Calendar ConsumerGroup RowStore Runs

variable {config : Config}

section Definitions

-- The workers on a stream whose length is capped. Besides what Redis holds there
-- are the payloads of all entries ever added, how many of the first ones are gone,
-- and the entries that an XACK has taken off the pending list.
structure Capped (T : Type) where
  pool : Pool T
  trimmed : Nat
  sent : List (Option T)
  acknowledged : List EntryId

def Capped.init {T : Type} : Capped T := ⟨.init, 0, [], []⟩

def Capped.xadd {T : Type} (c : Capped T) (payload : Option T) : Capped T :=
  { c with
    pool := { c.pool with group := c.pool.group.xadd payload }
    sent := c.sent ++ [payload] }

-- An XADD with a MAXLEN trims as well. Where it stops is up to Redis.
inductive CappedLabel (T : Type) where
  | pool (label : Label T)
  | trim (n : Nat)

variable (config : Config)

def Capped.claim (c : Capped config.orjson.Text) (w : WorkerId) (now : Int) :
    Group String (Option config.orjson.Text) × List EntryId :=
  c.pool.group.xautoclaim_trimmed c.trimmed (config.consumer_name w) now 60000 100

-- XAUTOCLAIM alone looks whether a pending entry is still there.
def Capped.act (c : Capped config.orjson.Text) (w : WorkerId) (l : Label config.orjson.Text) :
    Option (Outcome config.orjson.Text) :=
  match c.pool.workers w, l with
  | .claim, .advance _ now _ =>
      let (group, ids) := c.claim config w now
      some (group, c.pool.db, if ids.isEmpty then .fresh else .read)
  | .claim, .lose _ now => some ((c.claim config w now).1, c.pool.db, .fresh)
  | _, _ => Worker.act config c.pool w l

-- The entries that a step takes off the pending list with an XACK.
def acks {T : Type} (s : Pool T) (w : WorkerId) : Label T → List EntryId
  | .advance _ _ _ | .lose _ _ =>
      match s.workers w with
      | .ack ids => ids.filter fun id => decide (id ∈ s.group.ids)
      | _ => []
  | _ => []

def Capped.step (c : Capped config.orjson.Text) :
    CappedLabel config.orjson.Text → Option (Capped config.orjson.Text)
  | .pool (.xadd payload) => some (c.xadd payload)
  | .pool l => l.worker.bind fun w => (c.act config w l).map fun (group, db, state) =>
      { c with
        pool := ⟨group, db, Function.update c.pool.workers w state⟩
        acknowledged := c.acknowledged ++ acks c.pool w l }
  | .trim n => some { c with
      pool := { c.pool with group := c.pool.group.trim n }
      trimmed := max c.trimmed (min n c.pool.group.entries.length) }

def Capped.isTelemetry (c : Capped config.orjson.Text) (id : EntryId) : Bool :=
  ((c.sent[id]?).bind (telemetryDict config.orjson)).isSome

-- The other condition on a step: it does not come upon a pending entry that has
-- been trimmed, neither in a worker's own entries nor in an XAUTOCLAIM.
def Capped.whole (c : Capped config.orjson.Text) (w : WorkerId) : Label config.orjson.Text → Prop
  | .advance _ now _ =>
      match c.pool.workers w with
      | .read => ∀ id ∈ (c.pool.group.history (config.consumer_name w) now 100).2, c.trimmed ≤ id
      | .claim => ∀ id ∈ c.pool.group.scanned c.trimmed now 60000 100, c.trimmed ≤ id
      | _ => True
  | .lose _ now =>
      match c.pool.workers w with
      | .claim => ∀ id ∈ c.pool.group.scanned c.trimmed now 60000 100, c.trimmed ≤ id
      | _ => True
  | _ => True

def Capped.clean (c : Capped config.orjson.Text) : CappedLabel config.orjson.Text → Prop
  | .pool l => Worker.clean config c.pool l ∧ ∀ w, l.worker = some w → c.whole config w l
  | .trim _ => True

end Definitions

section Erasing

variable {s : Pool config.orjson.Text} {n : Nat}

-- The pool as Redis holds it once the first `n` entries are gone.
def Pool.erase (s : Pool config.orjson.Text) (n : Nat) : Pool config.orjson.Text :=
  { s with group := s.group.erase n }

theorem messages_erase {T : Type} {g : Group String (Option T)} {ids : List EntryId}
    (hids : ∀ id ∈ ids, n ≤ id) : messages (g.erase n) ids = messages g ids := by
  apply List.filterMap_congr
  intro id hid
  have hentry : (g.erase n).entries[id]? = g.entries[id]? := by
    rw [Group.getElem?_erase]
    simp [Nat.not_lt.mpr (hids id hid)]
  rw [hentry]

theorem startBatch_erase {g : Group String (Option config.orjson.Text)} {clock : EntryId → Utc}
    {ids : List EntryId} (hids : ∀ id ∈ ids, n ≤ id) :
    startBatch config (g.erase n) clock ids = startBatch config g clock ids := by
  unfold startBatch
  rw [messages_erase hids]

variable {w : WorkerId} {l : Label config.orjson.Text} {sent : List (Option config.orjson.Text)}
  {acknowledged : List EntryId}

-- A worker that comes upon no trimmed entry does what it would do if none were gone.
theorem act_erase (hn : n ≤ s.group.delivered) (hl : l.worker = some w)
    (hwhole : Capped.whole config ⟨s.erase n, n, sent, acknowledged⟩ w l) :
    Capped.act config ⟨s.erase n, n, sent, acknowledged⟩ w l =
      (act config s w l).map fun out => (out.1.erase n, out.2) := by
  cases l with
  | xadd => cases hl
  | start v | fail v | stop v =>
      cases hstate : s.workers w <;> simp [Capped.act, Pool.erase, hstate, act, fail]
  | advance v now clock =>
      cases hstate : s.workers w with
      | read =>
          simp only [Capped.whole, Pool.erase, hstate] at hwhole
          simp only [Capped.act, Pool.erase, hstate, act, advance, Option.map_some]
          rw [startBatch_erase hwhole]
          rfl
      | claim =>
          simp only [Capped.whole, Pool.erase, hstate] at hwhole
          simp only [Capped.act, Pool.erase, hstate, act, advance, Option.map_some, Capped.claim,
            Group.xautoclaim_trimmed_eq _ _ hwhole]
          rfl
      | fresh =>
          have hnew : ∀ id ∈ (s.group.fresh (config.consumer_name w) now 100).2, n ≤ id :=
            fun id hid => hn.trans ((Group.mem_fresh _ _ _).mp hid).1
          simp only [Capped.act, Pool.erase, hstate, act, advance, Option.map_some,
            Group.fresh_erase, startBatch_erase hnew]
      | process ids batch =>
          simp only [Capped.act, Pool.erase, hstate, act, advance, Option.map_map]
          rfl
      | ack | pause | stopped => simp [Capped.act, Pool.erase, hstate, act, advance, Group.xack_erase]
  | lose v now =>
      cases hstate : s.workers w with
      | claim =>
          simp only [Capped.whole, Pool.erase, hstate] at hwhole
          simp only [Capped.act, Pool.erase, hstate, act, lose, Option.map_some, Capped.claim,
            Group.xautoclaim_trimmed_eq _ _ hwhole]
          rfl
      | fresh =>
          simp only [Capped.act, Pool.erase, hstate, act, lose, Option.map_some, Group.fresh_erase]
      | read => simp [Capped.act, Pool.erase, hstate, act, lose, Group.history, Group.deliver_erase]
      | process | ack | pause | stopped =>
          simp [Capped.act, Pool.erase, hstate, act, lose, Group.xack_erase]

end Erasing

-- A worker changes the database in its own transaction, and no entry.
theorem Capped.act_spec {c : Capped config.orjson.Text} {w : WorkerId}
    {l : Label config.orjson.Text} {out : Outcome config.orjson.Text} (hdb : c.pool.db.Sound)
    (hl : l.worker = some w) (h : c.act config w l = some out) :
    Change w c.pool.db out.2.1 ∧ out.1.entries = c.pool.group.entries := by
  have hclaim : ∀ now, (c.claim config w now).1.entries = c.pool.group.entries := fun _ => rfl
  unfold Capped.act at h
  split at h
  · cases h
    exact ⟨.same, hclaim _⟩
  · cases h
    exact ⟨.same, hclaim _⟩
  · have hmove := move_of_act hl h
    exact ⟨hmove.change hdb, hmove.entries⟩

section Acknowledging

variable {s t : Pool config.orjson.Text} {w : WorkerId} {l : Label config.orjson.Text}
  {group : Group String (Option config.orjson.Text)} {db : Database WorkerId EntryId} {state : State}
  {id : EntryId}

theorem Move.ids (h : Move config s w l group db state) (hid : id ∈ group.ids) :
    id ∈ s.group.ids ∨ s.group.delivered ≤ id := by
  cases h with
  | idle =>
      rw [Group.ids_deliver] at hid
      exact Or.inl hid
  | reread now =>
      have hsame : (s.group.history (config.consumer_name w) now 100).1.ids = s.group.ids :=
        Group.ids_deliver ..
      rw [hsame] at hid
      exact Or.inl hid
  | abort | unacked | process => exact Or.inl hid
  | take | drop =>
      rw [Group.ids_fresh, List.mem_append, Group.mem_fresh] at hid
      exact hid.imp_right And.left
  | ack =>
      rw [Group.ids_xack] at hid
      exact Or.inl (List.mem_of_mem_filter hid)

-- What is acknowledged stays so.
theorem Move.keeps_acked (h : Move config s w l group db state) (hid : s.group.acked id) :
    group.acked id := by
  cases h with
  | idle | reread => exact (Group.acked_deliver ..).mpr hid
  | abort | unacked | process => exact hid
  | take | drop => exact Group.acked_fresh_of_acked _ _ _ hid
  | ack => exact Group.acked_xack_of_acked _ hid

theorem mem_acks (hid : id ∈ acks s w l) :
    id ∈ s.group.ids ∧ ∃ ids, s.workers w = .ack ids ∧ id ∈ ids ∧
      ((∃ v now clock, l = .advance v now clock) ∨ ∃ v now, l = .lose v now) := by
  cases l with
  | xadd | start | fail | stop => cases hid
  | advance v now clock =>
      simp only [acks] at hid
      split at hid
      · rename_i ids hack
        rw [List.mem_filter, decide_eq_true_eq] at hid
        exact ⟨hid.2, ids, hack, hid.1, Or.inl ⟨v, now, clock, rfl⟩⟩
      · cases hid
  | lose v now =>
      simp only [acks] at hid
      split at hid
      · rename_i ids hack
        rw [List.mem_filter, decide_eq_true_eq] at hid
        exact ⟨hid.2, ids, hack, hid.1, Or.inr ⟨v, now, rfl⟩⟩
      · cases hid

-- What a step takes off the pending list with an XACK is acknowledged then.
theorem acked_of_acks (hgroup : s.group.Sound) (h : act config s w l = some (group, db, state))
    (hid : id ∈ acks s w l) : group.acked id := by
  obtain ⟨hpending, ids, hack, hmem, hlabel⟩ := mem_acks hid
  have hxack : group = s.group.xack ids := by
    rcases hlabel with ⟨v, now, clock, rfl⟩ | ⟨v, now, rfl⟩
    · rw [act, hack] at h
      cases h
      rfl
    · rw [act, hack] at h
      cases h
      rfl
  rw [hxack]
  exact hgroup.acked_xack hmem hpending

end Acknowledging

-- The stream as if nothing had been trimmed, but for the entries that went before
-- anyone was given them. The invariant of the workers is about this one.
section Traces

variable {s t : Pool config.orjson.Text} {c d : Capped config.orjson.Text}

structure Traces (config : Config) (c : Capped config.orjson.Text) (s : Pool config.orjson.Text) :
    Prop where
  ledger : Ledger config s
  pool : c.pool = s.erase c.trimmed
  trimmed : c.trimmed ≤ s.group.delivered
  length : s.group.entries.length = c.sent.length
  sent : ∀ id, s.group.delivered ≤ id ∨ id ∈ s.group.ids ∨ id ∈ c.acknowledged →
    s.group.entries[id]? = c.sent[id]?
  acknowledged : ∀ id ∈ c.acknowledged, s.group.acked id

theorem Ledger.skip (hs : Ledger config s) (n : Nat) :
    Ledger config { s with group := s.group.skip n } := by
  have hhands : ∀ w, ∀ id ∈ (s.workers w).hands, id < s.group.delivered :=
    fun w id hid => hs.group.delivered id (hs.pending w id hid)
  refine
    { group := hs.group.skip n
      db := hs.db
      pending := hs.pending
      apart := hs.apart
      own := hs.own
      waiting := hs.waiting
      unread := fun id hid => hs.unread id (le_of_max_le_left hid)
      acked := fun id hid => ?_
      owes := fun w => State.owes_frame (hs.owes w)
        (fun id hid => s.group.getElem?_skip_of_lt n (hhands w id hid)) (fun _ _ => rfl) fun _ => rfl }
  by_cases hlt : id < s.group.delivered
  · rw [isTelemetry_of_entries (s := s) id (s.group.getElem?_skip_of_lt n hlt)]
    exact hs.acked id ⟨hlt, hid.2⟩
  · have hn : id < n := by
      have hmax := hid.1
      simp only [Group.skip] at hmax
      omega
    have hnone : isTelemetry config { s with group := s.group.skip n } id = false := by
      rw [isTelemetry, Group.getElem?_skip]
      cases s.group.entries[id]? with
      | none => rfl
      | some entry => simp [hn, Nat.le_of_not_lt hlt, telemetryDict]
    rw [hnone]
    exact hs.unread id (Nat.le_of_not_lt hlt)

theorem Traces.xadd (hs : Traces config c s) (payload : Option config.orjson.Text) :
    Traces config (c.xadd payload) { s with group := s.group.xadd payload } where
  ledger := hs.ledger.xadd payload
  pool := by
    simp only [Capped.xadd, hs.pool, Pool.erase]
    rw [Group.xadd_erase _ _ (hs.trimmed.trans hs.ledger.group.length)]
  trimmed := hs.trimmed
  length := by simp [Capped.xadd, Group.xadd, hs.length]
  sent := fun id hid => by
    simp only [Capped.xadd, Group.xadd, List.getElem?_append, hs.length]
    rw [hs.sent id hid]
  acknowledged := hs.acknowledged

theorem Traces.trim (hs : Traces config c s) (n : Nat) :
    Traces config { c with
      pool := { c.pool with group := c.pool.group.trim n }
      trimmed := max c.trimmed (min n c.pool.group.entries.length) }
      { s with group := s.group.skip n } where
  ledger := hs.ledger.skip n
  pool := by
    rw [hs.pool]
    simp only [Pool.erase, Group.length_erase, Group.trim_erase]
  trimmed := by
    rw [hs.pool]
    simp only [Group.skip, Pool.erase, Group.length_erase]
    exact max_le_max_right _ hs.trimmed
  length := by simp [hs.length]
  sent := fun id hid => by
    rw [← hs.sent id (hid.imp_left le_of_max_le_left), Group.getElem?_skip]
    have hkept : ¬(s.group.delivered ≤ id ∧ id < n ∧ id < s.group.entries.length) := by
      rintro ⟨hle, hn, hlt⟩
      rcases hid with hnew | hpending | hacked
      · simp only [Group.skip] at hnew
        omega
      · exact absurd (hs.ledger.group.delivered id hpending) (by omega)
      · exact absurd (hs.acknowledged id hacked).1 (by omega)
    rcases Nat.lt_or_ge id s.group.entries.length with hlt | hge
    · have hsame : ¬(s.group.delivered ≤ id ∧ id < n) := fun h => hkept ⟨h.1, h.2, hlt⟩
      simp [hsame]
    · rw [List.getElem?_eq_none hge]
      rfl
  acknowledged := fun id hid =>
    ⟨lt_max_of_lt_left (hs.acknowledged id hid).1, (hs.acknowledged id hid).2⟩

theorem Traces.act (hs : Traces config c s) {w : WorkerId} {l : Label config.orjson.Text}
    (hl : l.worker = some w) (hclean : Worker.clean config s l) (hwhole : c.whole config w l)
    {out : Outcome config.orjson.Text} (h : c.act config w l = some out) :
    ∃ t, Traces config { c with
      pool := ⟨out.1, out.2.1, Function.update c.pool.workers w out.2.2⟩
      acknowledged := c.acknowledged ++ acks c.pool w l } t := by
  obtain ⟨pool, trimmed, sent, acknowledged⟩ := c
  obtain rfl : pool = s.erase trimmed := hs.pool
  rw [act_erase hs.trimmed hl hwhole] at h
  obtain ⟨⟨group, db, state⟩, hact, rfl⟩ := Option.map_eq_some_iff.mp h
  have hmove := move_of_act hl hact
  have hstep : s.step config l = some ⟨group, db, Function.update s.workers w state⟩ := by
    cases l with
    | xadd => cases hl
    | start v | advance v now clock | fail v | lose v now | stop v =>
        cases hl
        simp [Pool.step, hact]
  refine ⟨⟨group, db, Function.update s.workers w state⟩,
    { ledger := hs.ledger.step hclean hstep
      pool := rfl
      trimmed := hs.trimmed.trans hmove.delivered
      length := by rw [hmove.entries, hs.length]
      sent := fun id hid => ?_
      acknowledged := fun id hid => ?_ }⟩
  · rw [hmove.entries]
    refine hs.sent id ?_
    rcases hid with hnew | hpending | hacked
    · exact Or.inl (hmove.delivered.trans hnew)
    · exact (hmove.ids hpending).elim (fun h => Or.inr (Or.inl h)) Or.inl
    · rcases List.mem_append.mp hacked with hold | hack
      · exact Or.inr (Or.inr hold)
      · exact Or.inr (Or.inl (mem_acks hack).1)
  · rcases List.mem_append.mp hid with hold | hack
    · exact hmove.keeps_acked (hs.acknowledged id hold)
    · exact acked_of_acks hs.ledger.group hact hack

theorem Traces.step (hs : Traces config c s) {l : CappedLabel config.orjson.Text}
    (hclean : c.clean config l) (h : c.step config l = some d) : ∃ t, Traces config d t := by
  cases l with
  | trim n =>
      cases h
      exact ⟨_, hs.trim n⟩
  | pool l =>
      cases hl : l.worker with
      | none =>
          cases l with
          | xadd payload =>
              cases h
              exact ⟨_, hs.xadd payload⟩
          | start | advance | fail | lose | stop => cases hl
      | some w =>
          have hclean' : Worker.clean config s l := by
            have hpool := hclean.1
            rw [hs.pool] at hpool
            exact hpool
          cases l with
          | xadd => cases hl
          | start v | advance v now clock | fail v | lose v now | stop v =>
              cases hl
              obtain ⟨out, hact, rfl⟩ := Option.map_eq_some_iff.mp h
              exact hs.act rfl hclean' (hclean.2 _ rfl) hact

theorem traces_init : Traces config Capped.init Pool.init where
  ledger := ledger_init
  pool := rfl
  trimmed := le_refl 0
  length := rfl
  sent := fun _ _ => rfl
  acknowledged := fun _ hid => by cases hid

end Traces

-- Along clean steps no entry is inserted twice, and an entry that has been taken off
-- the pending list with an XACK has its row if it was telemetry.
theorem acknowledged_once {labels : List (CappedLabel config.orjson.Text)}
    {c : Capped config.orjson.Text}
    (hrun : exec (Capped.step config) Capped.init labels = some c)
    (hclean : Along (Capped.step config) (Capped.clean config) Capped.init labels) :
    (∀ id, c.pool.db.rowsOf id ≤ 1) ∧
      ∀ id ∈ c.acknowledged, c.isTelemetry config id = true → c.pool.db.soleRow id := by
  have hstep : ∀ (u : Capped config.orjson.Text) (l : CappedLabel config.orjson.Text)
      (v : Capped config.orjson.Text), u.clean config l → (∃ s, Traces config u s) →
      u.step config l = some v → ∃ s, Traces config v s := by
    intro u l v hc hu h
    obtain ⟨s, hs⟩ := hu
    exact hs.step hc h
  obtain ⟨s, hs⟩ := exec_along_invariant hstep hclean ⟨_, traces_init⟩ hrun
  have hdb : c.pool.db = s.db := by rw [hs.pool]; rfl
  rw [hdb]
  refine ⟨hs.ledger.rowsOf_le_one, fun id hid htelemetry => ?_⟩
  refine hs.ledger.soleRow (hs.acknowledged id hid) ?_
  rw [isTelemetry, hs.sent id (Or.inr (Or.inr hid))]
  exact htelemetry

section OneBatch

-- A step that nothing disturbs and that is not handed an entry again.
def undisturbed (config : Config) (c : Capped config.orjson.Text) : CappedLabel config.orjson.Text → Bool
  | .pool (.fail _) | .pool (.stop _) | .pool (.lose _ _) => false
  | .pool (.advance w now _) =>
      match c.pool.workers w with
      | .read => (c.pool.group.history (config.consumer_name w) now 100).2.isEmpty
      | .claim => c.pool.group.pending.isEmpty
      | .process _ batch => !batch.rejects
      | _ => true
  | _ => true

theorem clean_of_undisturbed (c : Capped config.orjson.Text) (l : CappedLabel config.orjson.Text)
    (h : undisturbed config c l = true) : c.clean config l := by
  cases l with
  | trim => trivial
  | pool l =>
      cases l with
      | xadd | start => exact ⟨trivial, fun _ _ => trivial⟩
      | fail w | stop w | lose w => cases h
      | advance w now clock =>
          simp only [undisturbed] at h
          simp only [Capped.clean, Label.worker, Option.some.injEq, forall_eq', Capped.whole,
            Worker.clean]
          cases hstate : c.pool.workers w with
          | read =>
              rw [hstate] at h
              simp [List.isEmpty_iff.mp h]
          | claim =>
              rw [hstate] at h
              simp [Group.scanned, List.isEmpty_iff.mp h]
          | process ids batch =>
              rw [hstate] at h
              refine ⟨fun hreject => ?_, trivial⟩
              simp [hreject] at h
          | fresh | ack | pause | stopped => exact ⟨trivial, trivial⟩

def inPool (labels : List (Label batchConfig.orjson.Text)) :
    List (CappedLabel batchConfig.orjson.Text) :=
  labels.map .pool

-- One entry, drained by one worker and trimmed after that.
def drainedTrimmed : List (CappedLabel batchConfig.orjson.Text) := inPool drained ++ [.trim 1]

theorem acknowledged_once_drained : ∃ c : Capped batchConfig.orjson.Text,
    exec (Capped.step batchConfig) Capped.init drainedTrimmed = some c ∧ c.pool.db.soleRow 0 := by
  have hundisturbed : Along (Capped.step batchConfig) (fun c l => undisturbed batchConfig c l = true)
      Capped.init drainedTrimmed := by
    decide +kernel
  refine exec_exists (P := fun c => 0 ∈ c.acknowledged ∧ c.isTelemetry batchConfig 0 = true)
    (by decide +kernel) fun c hc hdrained => ?_
  obtain ⟨hacked, htelemetry⟩ := hdrained
  exact (acknowledged_once hc (hundisturbed.mono clean_of_undisturbed)).2 0 hacked htelemetry

-- The batch is committed, its XACK fails, and the worker reads it again.
def drainedTwice : List (CappedLabel batchConfig.orjson.Text) :=
  inPool ([.xadd robotReading, .start 0] ++ steps 0 6 ++ [.fail 0] ++ steps 0 6)

def sourceAt (s : Pool batchConfig.orjson.Text) (key : Nat) : Option EntryId :=
  match s.db.store.committed (.telemetry key) with
  | some (.telemetry source _) => some source
  | _ => none

theorem eq_of_sourceAt {s : Pool batchConfig.orjson.Text} {key : Nat} {id : EntryId}
    (h : sourceAt s key = some id) :
    ∃ row, s.db.store.committed (.telemetry key) = some (.telemetry id row) := by
  unfold sourceAt at h
  split at h
  · rename_i source row hrow
    cases h
    exact ⟨row, hrow⟩
  · cases h

theorem acknowledged_twice : ¬ ∀ (config : Config) (labels : List (CappedLabel config.orjson.Text))
    (c : Capped config.orjson.Text) (id : EntryId),
    exec (Capped.step config) Capped.init labels = some c → id ∈ c.acknowledged →
    c.isTelemetry config id = true → c.pool.db.soleRow id := by
  intro honce
  have hrun : ((exec (Capped.step batchConfig) Capped.init drainedTwice).any fun c =>
      decide (0 ∈ c.acknowledged) && c.isTelemetry batchConfig 0 &&
        decide (sourceAt c.pool 1 = some 0 ∧ sourceAt c.pool 2 = some 0)) = true := by
    decide +kernel
  simp only [Option.any_eq_true, Bool.and_eq_true, decide_eq_true_eq] at hrun
  obtain ⟨c, hc, ⟨hacked, htelemetry⟩, hfirst, hsecond⟩ := hrun
  obtain ⟨key, _, hunique⟩ := honce batchConfig drainedTwice c 0 hc hacked htelemetry
  have hone := hunique 1 (eq_of_sourceAt hfirst)
  have htwo := hunique 2 (eq_of_sourceAt hsecond)
  omega

-- The INSERT fails, the entry is trimmed, and the worker reads it again: nothing is
-- left to insert and the entry is acknowledged without a row.
example : ((exec (Capped.step batchConfig) Capped.init
    (inPool ([.xadd robotReading, .start 0] ++ steps 0 3 ++ [.fail 0]) ++ [.trim 1] ++
      inPool (steps 0 3))).any fun c =>
    decide (0 ∈ c.acknowledged) && c.isTelemetry batchConfig 0 &&
      decide (c.pool.db.rowsOf 0 = 0)) = true := by
  decide +kernel

end OneBatch

end FleetOps.Telemetry.Worker
