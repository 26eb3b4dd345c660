import FleetOps.Telemetry.Faults

namespace FleetOps.Telemetry.Worker

open Calendar ConsumerGroup RowStore Runs

variable {config : Config}

section Definitions

-- `process_batch` raises over every batch that has the entry.
def Refused (orjson : Orjson) (payload : Option orjson.Text) : Prop :=
  ∀ now, parse orjson now payload = .error ∨
    ∃ d, parse orjson now payload = .row d ∧ columns d = none

-- A row that the table refuses is still to be inserted.
def BatchState.blocked (batch : BatchState) : Prop :=
  ∃ p ∈ batch.rest, columns p.2 = none

-- No worker is ever past the INSERT of a refused entry.
def State.wary (config : Config) (s : Pool config.orjson.Text) : State → Prop
  | .process ids batch => ∀ id ∈ ids, ∃ payload, s.group.entries[id]? = some payload ∧
      (Refused config.orjson payload → batch.blocked)
  | .ack ids => ∀ id ∈ ids, ∃ payload, s.group.entries[id]? = some payload ∧
      ¬ Refused config.orjson payload
  | _ => True

-- The next read is one of the worker's pending entries, not one of new ones.
def State.returns : State → Bool
  | .fresh | .stopped => false
  | _ => true

-- A refused entry is pending, and `w` is not just about to read new entries.
structure Blocked (config : Config) (w : WorkerId) (s : Pool config.orjson.Text) : Prop where
  pending : ∃ id ∈ s.group.ids, ∃ payload, s.group.entries[id]? = some payload ∧
    Refused config.orjson payload
  wary : (s.workers w).wary config s
  returns : (s.workers w).returns = true

end Definitions

section Batches

variable {s t : Pool config.orjson.Text} {w : WorkerId} {ids : List EntryId}

theorem exists_refused_row {orjson : Orjson} {clock : EntryId → Utc}
    {messages : List (EntryId × Option orjson.Text)} {rows : List Parsed}
    (hparse : parseAll orjson clock messages = some rows) {id : EntryId} {payload : Option orjson.Text}
    (hmem : (id, payload) ∈ messages) (hrefused : Refused orjson payload) :
    ∃ p ∈ rows, columns p.2 = none := by
  induction messages generalizing rows with
  | nil => cases hmem
  | cons m messages ih =>
      obtain ⟨id', payload'⟩ := m
      rcases List.mem_cons.mp hmem with heq | hmem
      · cases heq
        rcases hrefused (clock id) with herror | ⟨d, hrow, hnone⟩
        · simp only [parseAll, herror] at hparse
          cases hparse
        · simp only [parseAll, hrow, Option.map_eq_some_iff] at hparse
          obtain ⟨rest, _, rfl⟩ := hparse
          exact ⟨(id, d), List.mem_cons_self .., hnone⟩
      · cases hfirst : parse orjson (clock id') payload' with
        | error =>
            simp only [parseAll, hfirst] at hparse
            cases hparse
        | skip =>
            simp only [parseAll, hfirst] at hparse
            exact ih hparse hmem
        | row d =>
            simp only [parseAll, hfirst, Option.map_eq_some_iff] at hparse
            obtain ⟨rest, hrest, rfl⟩ := hparse
            obtain ⟨p, hp, hnone⟩ := ih hrest hmem
            exact ⟨p, List.mem_cons_of_mem _ hp, hnone⟩

theorem State.wary_frame (hentries : ∀ (id : EntryId) (payload : Option config.orjson.Text),
      s.group.entries[id]? = some payload → t.group.entries[id]? = some payload)
    {state : State} (h : state.wary config s) : state.wary config t := by
  cases state with
  | process ids batch | ack ids =>
      intro id hid
      obtain ⟨payload, hget, hrefused⟩ := h id hid
      exact ⟨payload, hentries id payload hget, hrefused⟩
  | read | claim | fresh | pause | stopped => trivial

theorem wary_of_free {state : State} (h : state.free = true) : state.wary config s := by
  cases state <;> trivial

-- A batch with a refused row raises before it is through.
theorem blocked_process_batch {db db' : Database WorkerId EntryId} {batch batch' : BatchState}
    (hbatch : process_batch db w batch = some (db', batch')) (hblocked : batch.blocked) :
    batch' = .raised ∨ batch'.blocked := by
  obtain ⟨p, hp, hnone⟩ := hblocked
  cases process_batch_step hbatch with
  | refused | refused_row | incomparable => exact Or.inl rfl
  | insert rows values hvalues =>
      obtain ⟨row, hrow, _⟩ := mem_insertRows hvalues hp
      rw [hnone] at hrow
      cases hrow
  | insert_row done row rest value hvalue =>
      rcases List.mem_cons.mp hp with rfl | hp
      · rw [hnone] at hvalue
        cases hvalue
      · exact Or.inr ⟨p, hp, hnone⟩
  | commit_row done rest => exact Or.inr ⟨p, by rw [rest_nextRow]; exact hp, hnone⟩
  | mark_seen | commit => cases hp

theorem wary_afterBatch {batch batch' : BatchState} (hwary : (State.process ids batch).wary config s)
    (hentries : t.group.entries = s.group.entries)
    (hblocked : batch.blocked → batch' = .raised ∨ batch'.blocked) :
    (afterBatch ids batch').wary config t := by
  cases batch' with
  | raised => trivial
  | returned =>
      intro id hid
      obtain ⟨payload, hget, hrefused⟩ := hwary id hid
      refine ⟨payload, hentries ▸ hget, fun h => ?_⟩
      rcases hblocked (hrefused h) with hraised | ⟨p, hp, _⟩
      · cases hraised
      · cases hp
  | insert | insert_row | commit_row | mark_seen | commit =>
      intro id hid
      obtain ⟨payload, hget, hrefused⟩ := hwary id hid
      exact ⟨payload, hentries ▸ hget, fun h => (hblocked (hrefused h)).resolve_left nofun⟩

theorem wary_startBatch (clock : EntryId → Utc) (hids : ∀ id ∈ ids, id < s.group.entries.length)
    (hentries : t.group.entries = s.group.entries) :
    (startBatch config s.group clock ids).wary config t := by
  unfold startBatch
  cases hparse : parseAll config.orjson clock (messages s.group ids) with
  | none => trivial
  | some rows =>
      have hwary : (State.process ids (.insert rows)).wary config s := by
        intro id hid
        have hget := List.getElem?_eq_getElem (hids id hid)
        exact ⟨_, hget, exists_refused_row hparse (mem_messages.mpr ⟨hid, hget⟩)⟩
      refine wary_afterBatch hwary hentries ?_
      rintro ⟨p, hp, hnone⟩
      refine Or.inr ⟨p, ?_, hnone⟩
      simp only [BatchState.begin]
      split
      · rename_i hempty
        rw [List.isEmpty_iff.mp hempty] at hp
        exact hp
      · split
        · exact hp
        · rw [rest_nextRow]
          exact hp

theorem returns_afterBatch (ids : List EntryId) (batch : BatchState) :
    (afterBatch ids batch).returns = true := by
  cases batch <;> rfl

theorem returns_startBatch (g : Group String (Option config.orjson.Text)) (clock : EntryId → Utc)
    (ids : List EntryId) : (startBatch config g clock ids).returns = true := by
  unfold startBatch
  split
  · rfl
  · exact returns_afterBatch _ _

end Batches

section Steps

variable {s t : Pool config.orjson.Text} {w : WorkerId} {l : Label config.orjson.Text}
  {group : Group String (Option config.orjson.Text)} {db : Database WorkerId EntryId} {state : State}

theorem Move.wary (hs : s.group.Sound) (hwary : (s.workers w).wary config s)
    (h : Move config s w l group db state) (hentries : t.group.entries = s.group.entries) :
    state.wary config t := by
  cases h with
  | idle _ _ _ _ _ hstate | drop _ _ _ hstate | ack _ _ _ hstate => exact wary_of_free hstate
  | abort _ _ hstate => rcases hstate with rfl | rfl <;> trivial
  | unacked => trivial
  | reread now clock =>
      refine wary_startBatch clock (fun id hid => ?_) hentries
      exact (hs.delivered id (Group.mem_history _ _ _ hid)).trans_le hs.length
  | take now clock =>
      refine wary_startBatch clock (fun id hid => ?_) hentries
      exact ((Group.mem_fresh _ _ _).mp hid).2.trans_le (hs.fresh _ _ _).length
  | process ids batch batch' db hprocess _ hbatch =>
      rw [hprocess] at hwary
      exact wary_afterBatch hwary hentries (blocked_process_batch hbatch)

-- An entry stays pending until its batch is acknowledged.
theorem Move.pending (h : Move config s w l group db state) {id : EntryId} (hid : id ∈ s.group.ids) :
    id ∈ group.ids ∨ ∃ ids, s.workers w = .ack ids ∧ id ∈ ids := by
  cases h with
  | idle | reread => exact Or.inl (by simpa [Group.history] using hid)
  | abort | unacked | process => exact Or.inl hid
  | take | drop => exact Or.inl (by rw [Group.ids_fresh]; exact List.mem_append_left _ hid)
  | ack ids _ hack =>
      by_cases hmem : id ∈ ids
      · exact Or.inr ⟨ids, hack, hmem⟩
      · refine Or.inl ?_
        rw [Group.ids_xack]
        exact List.mem_filter.mpr ⟨hid, by simpa using hmem⟩

theorem Move.delivered_eq (hfresh : s.workers w ≠ .fresh) (h : Move config s w l group db state) :
    group.delivered = s.group.delivered := by
  cases h with
  | take _ _ hstate | drop _ _ hstate => exact absurd hstate hfresh
  | idle | abort | unacked | reread | process | ack => rfl

theorem wary_step (hgroup : s.group.Sound) (hs : ∀ v, (s.workers v).wary config s)
    (h : s.step config l = some t) : ∀ v, (t.workers v).wary config t := by
  intro v
  rcases step_cases h with ⟨payload, rfl⟩ | ⟨w, group, db, state, hmove, rfl⟩
  · refine State.wary_frame (fun id p hget => ?_) (hs v)
    rw [Group.xadd, List.getElem?_append_left (List.getElem?_eq_some_iff.mp hget).1]
    exact hget
  · by_cases hv : v = w
    · subst hv
      simp only [Function.update_self]
      exact hmove.wary hgroup (hs v) hmove.entries
    · simp only [Function.update_of_ne hv]
      exact State.wary_frame (fun id p hget => hmove.entries ▸ hget) (hs v)

-- As long as it is late enough for XAUTOCLAIM, a blocked worker stays blocked.
theorem blocked_advance (hs : Blocked config w s) (hgroup : s.group.Sound) :
    ∃ now, ∀ clock t, s.step config (.advance w now clock) = some t →
      Blocked config w t ∧ t.group.delivered = s.group.delivered := by
  obtain ⟨id, hid, payload, hget, hrefused⟩ := hs.pending
  obtain ⟨now, hclaim⟩ : ∃ now, (s.group.xautoclaim (config.consumer_name w) now 60000 100).2 ≠ [] :=
    Group.exists_xautoclaim_ne_nil s.group (config.consumer_name w) 60000 (by decide) hid
  refine ⟨now, fun clock t h => ?_⟩
  have hreturns : (t.workers w).returns = true := by
    have hbefore := hs.returns
    cases hstate : s.workers w with
    | read =>
        simp only [Pool.step, act, hstate, advance, Option.map_some, Option.some.injEq] at h
        subst h
        simp only [Function.update_self]
        split
        · rfl
        · exact returns_startBatch ..
    | claim =>
        simp only [Pool.step, act, hstate, advance, Option.map_some, Option.some.injEq] at h
        subst h
        simp only [Function.update_self]
        rw [if_neg (by simpa using hclaim)]
        rfl
    | process ids batch =>
        simp only [Pool.step, act, hstate, advance, Option.map_map, Option.map_eq_some_iff] at h
        obtain ⟨⟨db, batch'⟩, _, rfl⟩ := h
        simp only [Function.comp_apply, Function.update_self]
        exact returns_afterBatch ids batch'
    | ack | pause =>
        simp only [Pool.step, act, hstate, advance, Option.map_some, Option.some.injEq] at h
        subst h
        simp only [Function.update_self]
        rfl
    | fresh | stopped =>
        rw [hstate] at hbefore
        cases hbefore
  obtain ⟨group, db, state, hmove, rfl⟩ := move_of_step rfl h
  have hfresh : s.workers w ≠ .fresh := by
    intro hstate
    have hbefore := hs.returns
    rw [hstate] at hbefore
    cases hbefore
  refine ⟨⟨⟨id, ?_, payload, hmove.entries ▸ hget, hrefused⟩, ?_, hreturns⟩, hmove.delivered_eq hfresh⟩
  · rcases hmove.pending hid with hpending | ⟨ids, hack, hmem⟩
    · exact hpending
    · have hwary := hs.wary
      rw [hack] at hwary
      obtain ⟨payload', hget', hnot⟩ := hwary id hmem
      rw [hget] at hget'
      cases hget'
      exact absurd hrefused hnot
  · simp only [Function.update_self]
    exact hmove.wary hgroup hs.wary hmove.entries

-- A worker that enters its loop comes to the refused entry first.
theorem blocked_start (hpending : ∃ id ∈ s.group.ids, ∃ payload, s.group.entries[id]? = some payload ∧
      Refused config.orjson payload) (hstopped : s.workers w = .stopped)
    (h : s.step config (.start w) = some t) :
    Blocked config w t ∧ t.group.delivered = s.group.delivered := by
  simp only [Pool.step, act, hstopped, Option.map_some, Option.some.injEq] at h
  subst h
  refine ⟨⟨hpending, ?_, ?_⟩, rfl⟩ <;> simp only [Function.update_self]
  · trivial
  · rfl

-- A worker that reads a full batch of new entries comes to it afterwards.
theorem blocked_fresh (hpending : ∃ id ∈ s.group.ids, ∃ payload, s.group.entries[id]? = some payload ∧
      Refused config.orjson payload) (hfresh : s.workers w = .fresh)
    (hfull : s.group.delivered + 100 ≤ s.group.entries.length) {now : Int} {clock : EntryId → Utc}
    (h : s.step config (.advance w now clock) = some t) :
    Blocked config w t ∧ t.group.delivered = s.group.delivered + 100 := by
  have hids : (s.group.fresh (config.consumer_name w) now 100).2 = List.range' s.group.delivered 100 := by
    simp only [Group.fresh]
    congr 1
    omega
  have hsome : (s.group.fresh (config.consumer_name w) now 100).2.isEmpty = false := by
    rw [hids]
    simp
  simp only [Pool.step, act, hfresh, advance, Option.map_some, Option.some.injEq] at h
  subst h
  refine ⟨⟨?_, ?_, ?_⟩, ?_⟩
  · obtain ⟨id, hid, hentry⟩ := hpending
    refine ⟨id, ?_, hentry⟩
    simp only [Group.ids_fresh]
    exact List.mem_append_left _ hid
  · simp only [Function.update_self, hsome]
    rw [hids]
    exact wary_startBatch clock (fun id hid => (List.mem_range'_1.mp hid).2.trans_le hfull) rfl
  · simp only [Function.update_self, hsome]
    exact returns_startBatch ..
  · show s.group.delivered + (s.group.fresh (config.consumer_name w) now 100).2.length = _
    rw [hids, List.length_range']

end Steps

section Deployments

-- A deployment's pool takes a step, is left alone, or loses its stream.
theorem pool_of_step {d t : Deployment config.orjson.Text} {e : Event config.orjson.Text}
    (h : d.step config e = some t) :
    t.pool = d.pool ∨ t.pool = { d.pool with group := d.pool.group.reset } ∨
      ∃ l, d.pool.step config l = some t.pool := by
  have hact : ∀ {l : Label config.orjson.Text}, d.act config l = some t →
      ∃ l, d.pool.step config l = some t.pool := by
    intro l h
    obtain ⟨pool, hpool, rfl⟩ := Option.map_eq_some_iff.mp h
    exact ⟨l, hpool⟩
  have henter : ∀ {w : WorkerId} {grouped : Bool}, d.enter config w grouped = some t →
      ∃ l, d.pool.step config l = some t.pool := by
    intro w grouped h
    obtain ⟨pool, hpool, rfl⟩ := Option.map_eq_some_iff.mp h
    exact ⟨.start w, hpool⟩
  cases e with
  | pool l =>
      cases l with
      | xadd payload => exact Or.inr (Or.inr (hact h))
      | start w =>
          simp only [Deployment.step] at h
          split at h <;> cases h
          exact Or.inl rfl
      | advance | fail | lose =>
          simp only [Deployment.step] at h
          split at h
          · exact Or.inr (Or.inr (henter h))
          · exact Or.inr (Or.inr (hact h))
      | stop w =>
          simp only [Deployment.step, Option.map_eq_some_iff] at h
          obtain ⟨pool, hpool, rfl⟩ := h
          exact Or.inr (Or.inr ⟨.stop w, hpool⟩)
  | restart =>
      cases h
      exact Or.inr (Or.inl rfl)

theorem wary_of_survives {events : List (Event config.orjson.Text)} {d : Deployment config.orjson.Text}
    (hrun : Survives config events d) : ∀ v, (d.pool.workers v).wary config d.pool := by
  have hinv : d.Sound ∧ ∀ v, (d.pool.workers v).wary config d.pool := by
    refine exec_invariant (I := fun u : Deployment config.orjson.Text => u.Sound ∧
      ∀ v, (u.pool.workers v).wary config u.pool) ?_ ⟨deployment_sound_init, fun _ => trivial⟩ hrun
    rintro u e t ⟨hu, hwary⟩ hstep
    refine ⟨hu.step hstep, ?_⟩
    rcases pool_of_step hstep with hsame | hreset | ⟨l, hpool⟩
    · rw [hsame]
      exact hwary
    · rw [hreset]
      exact fun v => State.wary_frame (fun _ _ hget => hget) (hwary v)
    · exact wary_step hu.group hwary hpool
  exact hinv.2

end Deployments

end FleetOps.Telemetry.Worker
