import FleetOps.Telemetry.Progress
import FleetOps.Telemetry.Refused

namespace FleetOps.Telemetry.Worker

open Calendar ConsumerGroup RowStore Runs

variable {config : Config}

section Definitions

-- Telemetry that no worker had been given is persisted and acknowledged.
def Recovered (config : Config) (d t : Deployment config.orjson.Text) : Prop :=
  ∃ id, d.pool.group.delivered ≤ id ∧ isTelemetry config d.pool id = true ∧
    (∃ row, (id, row) ∈ t.pool.db.telemetry) ∧ t.pool.group.acked id

-- A bounded number of further iterations is enough, and the loop always gets to a further one.
structure Recovers (config : Config) (d : Deployment config.orjson.Text) (w : WorkerId) : Prop where
  bounded : ∃ n, ∀ events t, Continues config w d events t → n ≤ iterations config w d events →
    Recovered config d t
  goes_on : ∀ events t, Continues config w d events t →
    ∃ more u, Continues config w t more u ∧ 0 < iterations config w t more

-- The group is there or will be, and no refused entry is pending. One that is does no
-- harm where the next read is one of new entries and takes some telemetry.
structure Ready (config : Config) (d : Deployment config.orjson.Text) (w : WorkerId) : Prop where
  group : d.grouped = true ∨ d.creating w = true
  clear : (∀ id ∈ d.pool.group.ids, ∀ payload, d.pool.group.entries[id]? = some payload →
      ¬ Refused config.orjson payload) ∨
    (d.pool.workers w = .fresh ∧ ∃ id, d.pool.group.delivered ≤ id ∧
      id < d.pool.group.delivered + 100 ∧ isTelemetry config d.pool id = true)

end Definitions

section Stuck

variable {d t u : Deployment config.orjson.Text} {w : WorkerId} {first : List (Event config.orjson.Text)}

-- The worker does not recover if some continuation without recovery goes on for ever.
theorem not_recovers {I : Deployment config.orjson.Text → Prop}
    (hnext : ∀ v, I v → ∃ now clock t, v.step config (.pool (.advance w now clock)) = some t ∧ I t)
    (hnone : ∀ t, I t → ¬ Recovered config d t) (hfirst : Continues config w d first u) (hu : I u) :
    ¬ Recovers config d w := by
  intro hrecovers
  obtain ⟨n, hbounded⟩ := hrecovers.bounded
  obtain ⟨events, t, hevents, ht, hle⟩ := many_iterations hnext hu n
  refine hnone t ht (hbounded (first ++ events) t (hfirst.append hevents) ?_)
  rw [iterations_append hfirst.2]
  omega

-- An await that does not need the group leaves what is delivered as it is.
theorem delivered_of_not_needsGroup {s pool : Pool config.orjson.Text} {now : Int} {clock : EntryId → Utc}
    (hfree : (s.workers w).needsGroup = false) (h : s.step config (.advance w now clock) = some pool) :
    pool.group.delivered = s.group.delivered := by
  obtain ⟨group, db, state, hmove, rfl⟩ := move_of_step rfl h
  refine hmove.delivered_eq fun hfresh => ?_
  rw [hfresh] at hfree
  cases hfree

-- Without the group nothing is delivered.
theorem not_recovers_ungrouped (hd : Attended w d) (hgrouped : d.grouped = false)
    (hcreating : d.creating w = false) : ¬ Recovers config d w := by
  have hfirst : Continues config w d [] d := ⟨by simp, rfl⟩
  refine not_recovers (I := fun v => Attended w v ∧ v.grouped = false ∧ v.creating w = false ∧
    v.pool.group.delivered = d.pool.group.delivered) ?_ ?_ hfirst
    ⟨hd, hgrouped, hcreating, rfl⟩
  · rintro v ⟨hv, hvgrouped, hvcreating, hsame⟩
    obtain ⟨t, ht⟩ := attended_enabled hv 0 fun _ => ⟨0, by decide⟩
    have he : Healthy config w (.pool (.advance w 0 fun _ => ⟨0, by decide⟩)) := rfl
    refine ⟨_, _, t, ht, hv.step he ht, ?_⟩
    cases healthy_step he ht with
    | enter _ _ _ hentering _ =>
        rw [hvcreating] at hentering
        cases hentering
    | loop now clock pool _ hpool =>
        refine ⟨hvgrouped, hvcreating, ?_⟩
        rcases reply_cases v w (.advance w 0 fun _ => ⟨0, by decide⟩) with
          ⟨hreply, hneeds⟩ | ⟨hreply, _, hneeds⟩
        · rw [hreply] at hpool
          rw [hvgrouped] at hneeds
          rw [delivered_of_not_needsGroup (hneeds.resolve_left nofun) hpool]
          exact hsame
        · rw [hreply] at hpool
          obtain ⟨_, _, hgroup⟩ := toRead_fail hneeds hpool
          rw [hgroup]
          exact hsame
  · rintro t ⟨_, _, _, hsame⟩ ⟨id, hid, _, _, hacked⟩
    have hlt := hacked.1
    omega

theorem reply_of_grouped (hgrouped : d.grouped = true) (l : Label config.orjson.Text) : d.reply w l = l := by
  simp [Deployment.reply, hgrouped]

-- A worker that is blocked stays so: its batch is refused again and again.
theorem not_recovers_blocked (hfirst : Continues config w d first u) (hu : Attended w u)
    (hgrouped : u.grouped = true) (hcreating : u.creating w = false) (hblocked : Blocked config w u.pool)
    (hnone : ∀ id, d.pool.group.delivered ≤ id → isTelemetry config d.pool id = true →
      u.pool.group.delivered ≤ id) : ¬ Recovers config d w := by
  refine not_recovers (I := fun v => Attended w v ∧ v.grouped = true ∧ v.creating w = false ∧
    Blocked config w v.pool ∧ v.pool.group.delivered = u.pool.group.delivered) ?_ ?_ hfirst
    ⟨hu, hgrouped, hcreating, hblocked, rfl⟩
  · rintro v ⟨hv, hvgrouped, hvcreating, hvblocked, hsame⟩
    obtain ⟨now, hnow⟩ := blocked_advance hvblocked hv.sound.group
    obtain ⟨t, ht⟩ := attended_enabled hv now fun _ => ⟨0, by decide⟩
    have he : Healthy config w (.pool (.advance w now fun _ => ⟨0, by decide⟩)) := rfl
    refine ⟨_, _, t, ht, hv.step he ht, ?_⟩
    cases healthy_step he ht with
    | enter _ _ _ hentering _ =>
        rw [hvcreating] at hentering
        cases hentering
    | loop _ clock pool _ hpool =>
        rw [reply_of_grouped hvgrouped] at hpool
        obtain ⟨hstill, hdelivered⟩ := hnow _ _ hpool
        exact ⟨hvgrouped, hvcreating, hstill, hdelivered.trans hsame⟩
  · rintro t ⟨_, _, _, _, hsame⟩ ⟨id, hid, htelemetry, _, hacked⟩
    have hlt := hacked.1
    have hle := hnone id hid htelemetry
    omega

-- So does a refused entry block the worker in the end, unless it reads telemetry at once.
theorem not_recovers_refused (hd : Attended w d) (hwary : (d.pool.workers w).wary config d.pool)
    (hgroup : d.grouped = true ∨ d.creating w = true)
    (hpending : ∃ id ∈ d.pool.group.ids, ∃ payload, d.pool.group.entries[id]? = some payload ∧
      Refused config.orjson payload)
    (htelemetry : ∃ id, d.pool.group.delivered ≤ id ∧ isTelemetry config d.pool id = true)
    (hfar : d.pool.workers w = .fresh → ∀ id, d.pool.group.delivered ≤ id →
      isTelemetry config d.pool id = true → d.pool.group.delivered + 100 ≤ id) :
    ¬ Recovers config d w := by
  obtain ⟨t, ht⟩ := attended_enabled hd 0 fun _ => ⟨0, by decide⟩
  have he : Healthy config w (.pool (.advance w 0 fun _ => ⟨0, by decide⟩)) := rfl
  have hfirst : Continues config w d [.pool (.advance w 0 fun _ => ⟨0, by decide⟩)] t :=
    ⟨by simpa using he, (exec_cons_iff ..).mpr ⟨t, ht, rfl⟩⟩
  have hattended := hd.step he ht
  by_cases hcreating : d.creating w = true
  · cases healthy_step he ht with
    | enter _ _ pool _ hpool =>
        obtain ⟨hblocked, hsame⟩ := blocked_start hpending (hd.sound.creating w hcreating) hpool
        refine not_recovers_blocked hfirst hattended rfl (Function.update_self ..) hblocked fun id hid _ => ?_
        rw [hsame]
        exact hid
    | loop _ _ _ hnot _ =>
        rw [hcreating] at hnot
        cases hnot
  · have hgrouped := hgroup.resolve_right hcreating
    rw [Bool.not_eq_true] at hcreating
    by_cases hfresh : d.pool.workers w = .fresh
    · cases healthy_step he ht with
      | enter _ _ _ hentering _ =>
          rw [hcreating] at hentering
          cases hentering
      | loop _ _ pool _ hpool =>
          rw [reply_of_grouped hgrouped] at hpool
          have hfull : d.pool.group.delivered + 100 ≤ d.pool.group.entries.length := by
            obtain ⟨id, hid, htelemetry⟩ := htelemetry
            obtain ⟨payload, _, hget, _⟩ := isTelemetry_eq_true htelemetry
            exact (hfar hfresh id hid htelemetry).trans (List.getElem?_eq_some_iff.mp hget).1.le
          obtain ⟨hblocked, hdelivered⟩ := blocked_fresh hpending hfresh hfull hpool
          refine not_recovers_blocked hfirst hattended hgrouped hcreating hblocked fun id hid htelemetry => ?_
          rw [hdelivered]
          exact hfar hfresh id hid htelemetry
    · have hreturns : (d.pool.workers w).returns = true := by
        have hrunning := hd.running.resolve_left (by simp [hcreating])
        cases hstate : d.pool.workers w with
        | fresh => exact absurd hstate hfresh
        | stopped => exact absurd hstate hrunning
        | read | claim | process | ack | pause => rfl
      have hfirst : Continues config w d [] d := ⟨by simp, rfl⟩
      exact not_recovers_blocked hfirst hd hgrouped hcreating ⟨hpending, hwary, hreturns⟩ fun _ hid _ => hid

end Stuck

section Recovery

variable {d t : Deployment config.orjson.Text} {w : WorkerId}

theorem saved_step {target : EntryId} {e : Event config.orjson.Text} (he : Healthy config w e)
    (hd : Saved target d.pool) (h : d.step config e = some t) : Saved target t.pool := by
  cases healthy_step he h with
  | xadd payload _ => exact hd.step (l := .xadd payload) rfl
  | enter _ _ _ _ hpool | loop _ _ _ _ hpool => exact hd.step hpool

-- A healthy step of a deployment whose group is there, or is about to be.
theorem near_step {target n : Nat} (hd : Attended w d) (hgroup : d.grouped = true ∨ d.creating w = true)
    (hcalm : Calm config w target d.pool) (hnear : Near config w target n d.pool)
    {e : Event config.orjson.Text} (he : Healthy config w e) (h : d.step config e = some t) :
    Saved target t.pool ∨ ∃ m, (t.grouped = true ∨ t.creating w = true) ∧ Calm config w target t.pool ∧
      Near config w target m t.pool ∧ if e.awaits w then m < n else m ≤ n := by
  cases healthy_step he h with
  | xadd payload hinsertable =>
      exact Or.inr ⟨n, hgroup, hcalm.xadd payload, hnear.xadd hcalm hinsertable, Nat.le_refl _⟩
  | enter now clock pool hcreating hpool =>
      obtain ⟨m, hlt, hm⟩ := hnear.enter (hd.sound.creating w hcreating) hpool
      refine Or.inr ⟨m, Or.inl rfl, hcalm.step rfl hpool, hm, ?_⟩
      rw [if_pos (by simp [Event.awaits])]
      exact hlt
  | loop now clock pool hcreating hpool =>
      have hgrouped : d.grouped = true := by
        rcases hgroup with hgrouped | hentering
        · exact hgrouped
        · rw [hcreating] at hentering
          cases hentering
      have hreply : d.reply w (.advance w now clock) = .advance w now clock := by
        simp [Deployment.reply, hgrouped]
      rw [hreply] at hpool
      rcases hnear.step hcalm hpool with hsaved | ⟨m, hlt, hm⟩
      · exact Or.inl hsaved
      · refine Or.inr ⟨m, Or.inl hgrouped, hcalm.step rfl hpool, hm, ?_⟩
        rw [if_pos (by simp [Event.awaits])]
        exact hlt

-- A worker that is ready has some telemetry near.
theorem near_of_ready (hready : Ready config d w) (hunread : Unread config d.pool.group)
    (hpending : ∀ id ∈ d.pool.group.ids, ∀ payload, d.pool.group.entries[id]? = some payload →
      Insertable config.orjson payload ∨ Refused config.orjson payload)
    (htelemetry : ∃ id, d.pool.group.delivered ≤ id ∧ isTelemetry config d.pool id = true) :
    ∃ target n, d.pool.group.delivered ≤ target ∧ isTelemetry config d.pool target = true ∧
      Near config w target n d.pool := by
  rcases hready.clear with hclear | ⟨hfresh, target, hdelivered, hlt, htarget⟩
  · obtain ⟨target, hdelivered, htarget⟩ := htelemetry
    refine ⟨target, _, hdelivered, htarget,
      .before (fun id payload hid hget => ?_) hdelivered (Nat.le_refl _)⟩
    by_cases hnew : d.pool.group.delivered ≤ id
    · exact hunread id payload hnew hget
    · have hmem : id ∈ d.pool.group.ids := by
        by_contra hnot
        exact hid ⟨Nat.lt_of_not_le hnew, hnot⟩
      exact (hpending id hmem payload hget).resolve_right (hclear id hmem payload hget)
  · exact ⟨target, 205, hdelivered, htarget, .next hfresh hunread hdelivered hlt (Nat.le_refl _)⟩

-- Redis and the database are back, after any faults, and what has not been read yet is
-- insertable: the loop recovers exactly if it is ready.
theorem worker_recovers {before : List (Event config.orjson.Text)} (hrun : Survives config before d)
    (hrunning : d.creating w = true ∨ d.pool.workers w ≠ .stopped)
    (halone : ∀ v, v ≠ w → (d.pool.workers v).processing = false)
    (hunread : ∀ id payload, d.pool.group.delivered ≤ id → d.pool.group.entries[id]? = some payload →
      Insertable config.orjson payload)
    (hpending : ∀ id ∈ d.pool.group.ids, ∀ payload, d.pool.group.entries[id]? = some payload →
      Insertable config.orjson payload ∨ Refused config.orjson payload)
    (htelemetry : ∃ id, d.pool.group.delivered ≤ id ∧ isTelemetry config d.pool id = true) :
    Recovers config d w ↔ Ready config d w := by
  have hsound := sound_of_survives hrun
  have hd : Attended w d := ⟨hsound, halone, hrunning⟩
  constructor
  · intro hrecovers
    have hgroup : d.grouped = true ∨ d.creating w = true := by
      by_contra hnone
      simp only [not_or, Bool.not_eq_true] at hnone
      exact not_recovers_ungrouped hd hnone.1 hnone.2 hrecovers
    refine ⟨hgroup, ?_⟩
    by_contra hblocked
    obtain ⟨hrefused, hfar⟩ := not_or.mp hblocked
    refine not_recovers_refused hd (wary_of_survives hrun w) hgroup ?_ htelemetry
      (fun hfresh id hid htarget => ?_) hrecovers
    · simpa using hrefused
    · by_contra hnear
      exact hfar ⟨hfresh, id, hid, Nat.lt_of_not_le hnear, htarget⟩
  · intro hready
    obtain ⟨target, n, hdelivered, htarget, hnear⟩ := near_of_ready hready hunread hpending htelemetry
    have hcalm : Calm config w target d.pool := ⟨hsound.group, hsound.db, hsound.idle, halone, htarget⟩
    refine ⟨⟨n + 1, fun events t hevents hle => ?_⟩, fun events t hevents => ?_⟩
    · have hsaved : Saved target t.pool := by
        refine exec_within (I := fun n (u : Deployment config.orjson.Text) => Attended w u ∧
          (u.grouped = true ∨ u.creating w = true) ∧ Calm config w target u.pool ∧
          Near config w target n u.pool) (G := fun u => Saved target u.pool) (k := Event.awaits w)
          ?_ (fun _ _ _ he hu hstep => saved_step he hu hstep) hevents.1
          ⟨hd, hready.group, hcalm, hnear⟩ hevents.2 ?_
        · rintro n u e v he ⟨hu, hgroup, hcalm, hnear⟩ hstep
          rcases near_step hu hgroup hcalm hnear he hstep with hsaved | ⟨m, hgroup, hcalm, hnear, hlt⟩
          · exact Or.inl hsaved
          · exact Or.inr ⟨m, ⟨hu.step he hstep, hgroup, hcalm, hnear⟩, hlt⟩
        · have hcount := iterations_le d w events
          omega
      exact ⟨target, hdelivered, htarget, hsaved.2.1, hsaved.2.2⟩
    · obtain ⟨more, u, hmore, _, hpos⟩ := next_iteration (I := Attended w) attended_next
        (hd.continues hevents)
      exact ⟨more, u, hmore, hpos⟩

end Recovery

section Unreachable

-- What the buffered path publishes for a reading that the table takes is insertable.
theorem insertable_published {s : Pool config.orjson.Text} {id : EntryId} {data : TelemetryCreate}
    {serialize : Datetime → String} (h : Published config serialize s id data)
    (hstorable : storable data = true) {payload : Option config.orjson.Text}
    (hget : s.group.entries[id]? = some payload) : Insertable config.orjson payload := by
  obtain ⟨payload', ts, d, hget', hd, hread⟩ := telemetryDict_published h
  rw [hget] at hget'
  cases hget'
  intro now
  rcases parse_cases config.orjson now payload with ⟨d', hd', hparse⟩ | ⟨hnone, _⟩
  · rw [hd] at hd'
    cases hd'
    refine Or.inr ⟨_, hparse, ?_, ?_⟩
    · rw [hread, columns_read_isSome]
      exact hstorable
    · rw [hread]
      rfl
  · rw [hd] at hnone
    cases hnone

-- One reading is on the stream, and nobody has been given it.
theorem arrival {s : Pool batchConfig.orjson.Text}
    (hentries : s.group.entries = [published (plainReading 7 (.finite 91))])
    (hdelivered : s.group.delivered = 0) :
    (∀ id payload, ¬ s.group.acked id → s.group.entries[id]? = some payload →
      Insertable batchConfig.orjson payload) ∧
      ∃ id, s.group.delivered ≤ id ∧ isTelemetry batchConfig s id = true := by
  have hget : s.group.entries[0]? = some (published (plainReading 7 (.finite 91))) := by rw [hentries]; rfl
  have hpublished : Published batchConfig (fun _ => "") s 0 (plainReading 7 (.finite 91)) :=
    published_spec (by decide) hget
  constructor
  · intro id payload _ hid
    have hzero : id = 0 := by
      have hlt := (List.getElem?_eq_some_iff.mp hid).1
      rw [hentries, List.length_singleton] at hlt
      omega
    rw [hzero] at hid
    exact insertable_published hpublished (by decide) hid
  · obtain ⟨payload, _, d, hpayload, hd, _⟩ := telemetryDict_published hpublished
    refine ⟨0, Nat.le_of_eq hdelivered, ?_⟩
    rw [isTelemetry, hpayload, Option.bind_some, hd]
    rfl

-- Redis cannot be reached when the worker starts, and a reading is published later.
def unreachable : List (Event batchConfig.orjson.Text) :=
  [.pool (.start 0), .pool (.fail 0), .pool (.xadd (published (plainReading 7 (.finite 91))))]

theorem never_recovers : ¬ ∀ (config : Config) (before : List (Event config.orjson.Text))
    (d : Deployment config.orjson.Text) (w : WorkerId), Survives config before d →
    (d.creating w = true ∨ d.pool.workers w ≠ .stopped) →
    (∀ v, v ≠ w → (d.pool.workers v).processing = false) →
    (∀ id payload, ¬ d.pool.group.acked id → d.pool.group.entries[id]? = some payload →
      Insertable config.orjson payload) →
    (∃ id, d.pool.group.delivered ≤ id ∧ isTelemetry config d.pool id = true) →
    Recovers config d w := by
  intro hrecovers
  let d := (exec (Deployment.step batchConfig) Deployment.init unreachable).getD Deployment.init
  have hrun : Survives batchConfig unreachable d := rfl
  have hread : d.pool.workers 0 = .read := rfl
  have halone : ∀ v, v ≠ 0 → (d.pool.workers v).processing = false := by
    intro v hv
    have hstopped : d.pool.workers v = .stopped := Function.update_of_ne hv ..
    rw [hstopped]
    rfl
  have hrunning : d.creating 0 = true ∨ d.pool.workers 0 ≠ .stopped := by
    rw [hread]
    exact Or.inr nofun
  obtain ⟨hinsertable, htelemetry⟩ := arrival (s := d.pool) rfl rfl
  exact not_recovers_ungrouped ⟨sound_of_survives hrun, halone, hrunning⟩ rfl rfl
    (hrecovers batchConfig unreachable d 0 hrun hrunning halone hinsertable htelemetry)

-- Redis comes back empty; the worker is started again and finds it.
def restarted : List (Event batchConfig.orjson.Text) :=
  [.pool (.start 0), .pool (.advance 0 0 fun _ => noonUtc), .restart,
    .pool (.xadd (published (plainReading 7 (.finite 91)))), .pool (.advance 0 0 fun _ => noonUtc),
    .pool (.stop 0), .pool (.start 0), .pool (.advance 0 0 fun _ => noonUtc)]

theorem worker_recovers_restarted : ∃ d : Deployment batchConfig.orjson.Text,
    Survives batchConfig restarted d ∧ Recovers batchConfig d 0 := by
  let d := (exec (Deployment.step batchConfig) Deployment.init restarted).getD Deployment.init
  have hrun : Survives batchConfig restarted d := rfl
  have hread : d.pool.workers 0 = .read := rfl
  have halone : ∀ v, v ≠ 0 → (d.pool.workers v).processing = false := by
    intro v hv
    have hstopped : d.pool.workers v = .stopped :=
      (Function.update_of_ne hv ..).trans ((Function.update_of_ne hv ..).trans
        ((Function.update_of_ne hv ..).trans (Function.update_of_ne hv ..)))
    rw [hstopped]
    rfl
  obtain ⟨hinsertable, htelemetry⟩ := arrival (s := d.pool) rfl rfl
  have hnone : d.pool.group.ids = [] := rfl
  have hready : Ready batchConfig d 0 := ⟨Or.inl rfl, Or.inl (by simp [hnone])⟩
  refine ⟨d, hrun, (worker_recovers hrun (Or.inr (by rw [hread]; nofun)) halone ?_ (by simp [hnone])
    htelemetry).mpr hready⟩
  exact fun id payload hid => hinsertable id payload fun hacked => Nat.not_lt_of_le hid hacked.1

end Unreachable

end FleetOps.Telemetry.Worker
