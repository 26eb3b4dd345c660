import FleetOps.Fleet.Listing
import FleetOps.Platform.Separation
import FleetOps.Telemetry.Provenance

namespace FleetOps.Fleet

open Calendar Dict Runs Telemetry
open Platform (entries xadd messageDict commandFields eventDict telemetryEntry)

section Model

-- The parts that store readings: the services of the API, and the workers that read
-- what these add to the ingest stream.
structure Backend (T : Type) where
  api : Platform.State T
  pool : Worker.Pool T

def Backend.init {T : Type} : Backend T := ⟨.init, .init⟩

inductive Label (T : Type) where
  | api (label : Platform.Label)
  | worker (label : Worker.Label T)

abbrev workerConfig (env : Env) (consumer_name : Worker.WorkerId → String) : Worker.Config :=
  ⟨env.orjson, env.settings.opt_batch_insert, consumer_name⟩

-- The entries of the ingest stream among new ones.
def ingested {T : Type} (new : List (Platform.Entry T)) : List (Platform.Entry T) :=
  new.filter fun entry => decide (entry.stream = .telemetry_stream)

-- Only the API adds to the ingest stream.
def Backend.step (env : Env) (consumer_name : Worker.WorkerId → String)
    (s : Backend env.orjson.Text) : Label env.orjson.Text → Option (Backend env.orjson.Text)
  | .api label => (s.api.step env label).map fun api =>
      { api := api
        pool := { s.pool with
          group := (ingested (api.added.drop s.api.added.length)).foldl
            (fun group entry => group.xadd (some entry.payload)) s.pool.group } }
  | .worker (.xadd _) => none
  | .worker label => (s.pool.step (workerConfig env consumer_name) label).map fun pool =>
      { s with pool := pool }

-- The telemetry table, which the services and the workers share.
def Backend.telemetry {T : Type} (s : Backend T) : List TelemetryRow :=
  s.api.telemetry.db.telemetry.map Prod.snd ++ s.pool.db.telemetry.map Prod.snd

-- The readings that the server receives in a step: the robot, and the server's time.
def Label.receptions {T : Type} : Label T → List (Int × Utc)
  | .api (.telemetry (.call _ now ingestion)) =>
      ingestion.readings.map fun data => (data.robot_id, now)
  | _ => []

end Model

variable {env : Env} {P : Int → Instant → Prop}

section Messages

-- An object without a battery field is no reading to the workers.
theorem entryTells_of_silent {fields : Dict} {text : env.orjson.Text}
    (hdumps : env.orjson.dumps (.obj fields) = some text) (hsilent : fields.lookup "battery" = none) :
    EntryTells P env.orjson (some text) := by
  have hany : (writtenFields fields).any (fun p => p.1 == "battery") = false := by
    rw [any_key_eq, lookup_writtenFields, hsilent]
    rfl
  intro read hread
  simp [Worker.telemetryDict, env.orjson.loads_dumps _ _ hdumps, Json.written, hany] at hread

theorem silent_messageDict {message : Command.Message} {fields : Dict}
    (h : messageDict message = some fields) : fields.lookup "battery" = none := by
  obtain ⟨timestamp, _, h⟩ := Option.bind_eq_some_iff.mp h
  split at h
  · rename_i payload _
    obtain ⟨written, hwritten, rfl⟩ := Option.map_eq_some_iff.mp h
    simp only [commandFields, Option.bind_eq_bind] at hwritten
    split at hwritten
    all_goals
      obtain ⟨_, _, hwritten⟩ := Option.bind_eq_some_iff.mp hwritten
      obtain ⟨_, _, hwritten⟩ := Option.bind_eq_some_iff.mp hwritten
      cases hwritten
      simp [lookup_setItem, List.lookup_cons]
  · cases h
    rfl

theorem entryTells_xadd {stream : Command.StreamName} {origin : Platform.Origin} {data : Option Dict}
    {entry : Platform.Entry env.orjson.Text} (h : xadd env stream origin data = some entry)
    (hsilent : ∀ fields, data = some fields → fields.lookup "battery" = none) :
    EntryTells P env.orjson (some entry.payload) := by
  obtain ⟨fields, hfields, h⟩ := Option.bind_eq_some_iff.mp h
  obtain ⟨text, hdumps, rfl⟩ := Option.map_eq_some_iff.mp h
  exact entryTells_of_silent hdumps (hsilent fields hfields)

theorem entryTells_entries {M : Type} {entry : M → Option (Platform.Entry env.orjson.Text)}
    {sent : List M} {new : List (Platform.Entry env.orjson.Text)} (h : entries env entry sent = some new)
    (hentry : ∀ m e, entry m = some e → EntryTells P env.orjson (some e.payload)) :
    ∀ e ∈ new, EntryTells P env.orjson (some e.payload) := by
  unfold entries at h
  split at h
  · cases h
    exact List.forall_mem_nil _
  · intro e he
    obtain ⟨m, _, hm⟩ := exists_of_mem_mapM h e he
    exact hentry m e hm

end Messages

section Steps

-- What the readings of a step are resolved to meets `P`.
def Label.Brings (P : Int → Instant → Prop) (settings : Settings) :
    Label env.orjson.Text → Prop
  | .api (.telemetry label) => label.Brings P settings
  | _ => True

structure Backend.Stems (P : Int → Instant → Prop) (consumer_name : Worker.WorkerId → String)
    (s : Backend env.orjson.Text) : Prop where
  service : s.api.telemetry.Stems P
  pool : @Worker.Pool.Stems (workerConfig env consumer_name) P s.pool

-- A step of the API adds entries that tell what meets `P`, or no reading at all.
theorem api_stems {s t : Platform.State env.orjson.Text} {label : Platform.Label}
    (hbrings : (Label.api label : Label env.orjson.Text).Brings P env.settings)
    (hs : s.telemetry.Stems P) (h : s.step env label = some t) :
    t.telemetry.Stems P ∧
      ∀ entry ∈ t.added.drop s.added.length, EntryTells P env.orjson (some entry.payload) := by
  cases label with
  | command action =>
      obtain ⟨commands, _, h⟩ := Option.bind_eq_some_iff.mp h
      obtain ⟨new, hnew, rfl⟩ := Option.map_eq_some_iff.mp h
      rw [List.drop_left]
      exact ⟨hs, entryTells_entries hnew fun _ _ he => entryTells_xadd he fun _ => silent_messageDict⟩
  | telemetry label =>
      obtain ⟨telemetry, hstep, rfl⟩ := Option.map_eq_some_iff.mp h
      have hstems := hs.step hbrings hstep
      rw [List.drop_left, List.forall_mem_map]
      exact ⟨hstems, fun entry hentry => hstems.stream entry (List.mem_of_mem_drop hentry)⟩
  | event label =>
      obtain ⟨events, _, h⟩ := Option.bind_eq_some_iff.mp h
      obtain ⟨new, hnew, rfl⟩ := Option.map_eq_some_iff.mp h
      rw [List.drop_left]
      refine ⟨hs, entryTells_entries hnew fun _ _ he => entryTells_xadd he fun _ hfields => ?_⟩
      cases hfields
      rfl

theorem pool_stems {consumer_name : Worker.WorkerId → String}
    {new : List (Platform.Entry env.orjson.Text)} {pool : Worker.Pool env.orjson.Text}
    (hpool : @Worker.Pool.Stems (workerConfig env consumer_name) P pool)
    (hnew : ∀ entry ∈ new, EntryTells P env.orjson (some entry.payload)) :
    @Worker.Pool.Stems (workerConfig env consumer_name) P
      { pool with group := new.foldl (fun group entry => group.xadd (some entry.payload)) pool.group } := by
  induction new generalizing pool with
  | nil => exact hpool
  | cons entry new ih =>
      obtain ⟨hfirst, hrest⟩ := List.forall_mem_cons.mp hnew
      exact ih (hpool.xadd hfirst) hrest

theorem Backend.Stems.step {consumer_name : Worker.WorkerId → String} {s t : Backend env.orjson.Text}
    {l : Label env.orjson.Text} (hbrings : l.Brings P env.settings) (hs : s.Stems P consumer_name)
    (h : s.step env consumer_name l = some t) : t.Stems P consumer_name := by
  cases l with
  | api label =>
      obtain ⟨api, hapi, rfl⟩ := Option.map_eq_some_iff.mp h
      obtain ⟨hservice, hadded⟩ := api_stems hbrings hs.service hapi
      exact ⟨hservice, pool_stems hs.pool fun entry hentry =>
        hadded entry (List.mem_filter.mp hentry).1⟩
  | worker label =>
      cases label with
      | xadd payload => cases h
      | start | advance | fail | lose | stop =>
          simp only [Backend.step, Option.map_eq_some_iff] at h
          obtain ⟨pool, hpool, rfl⟩ := h
          exact ⟨hs.service, hs.pool.step rfl hpool⟩

end Steps

section Ages

-- No device clock dates a reading past the time it is received, but for the skew
-- that is let through.
theorem resolve_timestamp_le {max_clock_skew_seconds : Int} {reported : Option Datetime}
    {received_at ts : Utc} (h : resolve_timestamp max_clock_skew_seconds reported received_at = some ts) :
    (ts.wall : Int) ≤ received_at.wall + max max_clock_skew_seconds 0 * 1000000 := by
  have hzero : 0 ≤ max max_clock_skew_seconds 0 := le_max_right _ _
  have hskew : max_clock_skew_seconds ≤ max max_clock_skew_seconds 0 := le_max_left _ _
  cases reported with
  | none =>
      cases h
      omega
  | some reported =>
      obtain ⟨t, _, rfl⟩ := Option.map_eq_some_iff.mp h
      split <;> omega

-- The last time at which a reading of the robot can be dated.
def Within (max_clock_skew_seconds : Int) (received : List (Int × Utc)) (robot_id : Int)
    (timestamp : Instant) : Prop :=
  ∃ p ∈ received, p.1 = robot_id ∧
    timestamp ≤ p.2.wall + max max_clock_skew_seconds 0 * 1000000

theorem brings_within (l : Label env.orjson.Text) {received : List (Int × Utc)}
    (hreceived : l.receptions ⊆ received) :
    l.Brings (Within env.settings.max_clock_skew_seconds received) env.settings := by
  cases l with
  | worker label => trivial
  | api label =>
      cases label with
      | command action => trivial
      | event label => trivial
      | telemetry label =>
          cases label with
          | call id now ingestion =>
              intro data hdata ts hts
              exact ⟨(data.robot_id, now), hreceived (List.mem_map_of_mem hdata), rfl,
                resolve_timestamp_le hts⟩
          | flush | advance | fail | connect | disconnect => trivial

theorem stems_init (consumer_name : Worker.WorkerId → String) :
    (Backend.init : Backend env.orjson.Text).Stems P consumer_name :=
  ⟨Telemetry.stems_init, Worker.stems_init⟩

variable {consumer_name : Worker.WorkerId → String} {labels : List (Label env.orjson.Text)}
  {s : Backend env.orjson.Text}

abbrev Reaches (env : Env) (consumer_name : Worker.WorkerId → String)
    (labels : List (Label env.orjson.Text)) (s : Backend env.orjson.Text) : Prop :=
  exec (Backend.step env consumer_name) Backend.init labels = some s

-- A row of the table goes back to a reading that the server received.
theorem telemetry_within (hrun : Reaches env consumer_name labels s) :
    ∀ row ∈ s.telemetry, Within env.settings.max_clock_skew_seconds (labels.flatMap Label.receptions)
      row.robot_id.val row.timestamp := by
  have hbrings : ∀ l ∈ labels, l.Brings
      (Within env.settings.max_clock_skew_seconds (labels.flatMap Label.receptions)) env.settings :=
    fun l hl => brings_within l fun p hp => List.mem_flatMap.mpr ⟨l, hl, hp⟩
  have hstems := exec_invariant_of_mem (fun u l v hl hu hstep => Backend.Stems.step hl hu hstep)
    hbrings (stems_init consumer_name) hrun
  intro row hrow
  rcases List.mem_append.mp hrow with hrow | hrow
  · obtain ⟨p, hp, rfl⟩ := List.mem_map.mp hrow
    exact hstems.service.db.of_telemetry hp
  · obtain ⟨p, hp, rfl⟩ := List.mem_map.mp hrow
    exact hstems.pool.db.of_telemetry hp

variable {settings : FleetSettings} {upper : String → String} {roster : Roster}
  {telemetry : List TelemetryRow} {db_now now : Instant}

-- A listed robot is OFFLINE, or has the status of one of its rows.
theorem status_of_mem_robots {listed : List Summary} {summary : Summary}
    (h : robots settings upper roster telemetry db_now now = some listed) (hsummary : summary ∈ listed) :
    summary.status = OFFLINE ∨ ∃ row ∈ telemetry, row.robot_id.val = summary.robot_id ∧
      summary.status = derive_status settings upper row (now - row.timestamp) := by
  rcases mem_robots h hsummary with hheard | ⟨-, robot, -, -, hsilent⟩
  · obtain ⟨row, hlatest, hid, hstatus⟩ := heard_eq_some hheard
    exact Or.inr ⟨row, (latest_robot_id hlatest).1, hid.symm, hstatus⟩
  · rw [hsilent]
    exact Or.inl rfl

-- A robot that the server last heard of longer ago than the offline threshold and the
-- skew is OFFLINE wherever it is listed, whatever its clock said and whichever way its
-- readings were stored.
theorem dead_robot_offline (hrun : Reaches env consumer_name labels s)
    (htable : telemetry ⊆ s.telemetry) {robot_id : Int}
    (hdead : ∀ p ∈ labels.flatMap Label.receptions, p.1 = robot_id →
      p.2.wall + (settings.offline_after_seconds + max env.settings.max_clock_skew_seconds 0) * 1000000 <
        now) (limit skip : Nat) :
    ∀ page, get_fleet_status settings upper none roster telemetry db_now now limit skip = some page →
      ∀ summary ∈ page, summary.robot_id = robot_id → summary.status = OFFLINE := by
  intro page hpage summary hsummary hrobot
  obtain ⟨listed, hlisted, hsub⟩ := mem_of_mem_page hpage
  rcases status_of_mem_robots hlisted (hsub hsummary) with hoffline | ⟨row, hrow, hsame, hstatus⟩
  · exact hoffline
  · obtain ⟨p, hp, hid, hle⟩ := telemetry_within hrun row (htable hrow)
    have hlate := hdead p hp (hid.trans (hsame.trans hrobot))
    have hage : settings.offline_after_seconds * 1000000 < now - row.timestamp := by
      rw [Int.add_mul, ← Int.add_assoc, Int.add_right_comm] at hlate
      exact Int.lt_sub_left_of_add_lt ((Int.add_le_add_right hle _).trans_lt hlate)
    rw [hstatus, derive_status, if_pos hage]

end Ages

section Claims

-- One report at noon, its row committed by the call itself.
def reportedDirectly {T : Type} : List (Label T) :=
  [.api (.telemetry (.call 0 noon (.ingest (plainReading 1 (.finite 91))))),
   .api (.telemetry (.advance 0 [])), .api (.telemetry (.advance 0 []))]

-- The same report by way of the ingest stream, until its row is committed.
def reportedByStream : List (Label redisEnv.orjson.Text) :=
  [.api (.telemetry (.call 0 noon (.ingest (plainReading 1 (.finite 91))))),
   .api (.telemetry (.advance 0 [0])), .worker (.start 0)] ++
    List.replicate 6 (.worker (.advance 0 0 fun _ => noon))

-- Nothing keeps the skew from being negative, which would have the readings dated back.
def backdatedEnv : Env :=
  ⟨{ Telemetry.defaults with opt_redis_buffer := false, max_clock_skew_seconds := -100 }, .values,
    fun _ => ""⟩

def nobody : Roster := ⟨[], by decide⟩

-- A second after its report the robot is ACTIVE, though the skew takes more than the
-- offline threshold off.
theorem reporting_robot_active : ¬ ∀ (env : Env) (consumer_name : Worker.WorkerId → String)
    (labels : List (Label env.orjson.Text)) (s : Backend env.orjson.Text) (settings : FleetSettings)
    (upper : String → String) (roster : Roster) (db_now now : Instant) (robot_id : Int)
    (limit skip : Nat), env.settings.accepted = true → Reaches env consumer_name labels s →
    (∀ p ∈ labels.flatMap Label.receptions, p.1 = robot_id →
      p.2.wall + (settings.offline_after_seconds + env.settings.max_clock_skew_seconds) * 1000000 < now) →
    ∀ page, get_fleet_status settings upper none roster s.telemetry db_now now limit skip = some page →
      ∀ summary ∈ page, summary.robot_id = robot_id → summary.status = OFFLINE := by
  intro hdead
  have hlisted : ((exec (Backend.step backdatedEnv fun _ => "worker") Backend.init
      reportedDirectly).map fun s =>
        (get_fleet_status defaults id none nobody s.telemetry 43201000000 43201000000 1000 0).map
          (List.map fun summary => (summary.robot_id, summary.status))) = some (some [(1, "ACTIVE")]) := by
    decide +kernel
  obtain ⟨s, hrun, hpage⟩ := Option.map_eq_some_iff.mp hlisted
  obtain ⟨page, hpage, hlisted⟩ := Option.map_eq_some_iff.mp hpage
  have hmem : (1, "ACTIVE") ∈ page.map fun summary => (summary.robot_id, summary.status) := by
    rw [hlisted]
    exact List.mem_singleton_self _
  obtain ⟨summary, hsummary, heq⟩ := List.mem_map.mp hmem
  obtain ⟨hid, hstatus⟩ := Prod.mk.inj heq
  have hoffline := hdead backdatedEnv _ reportedDirectly s defaults id nobody 43201000000 43201000000 1
    1000 0 (by decide +kernel) hrun (by decide +kernel) page hpage summary hsummary hid
  rw [hstatus] at hoffline
  exact absurd hoffline (by decide)

-- Six minutes and a second after its report.
theorem dead_robot_offline_streamed : ∃ s, Reaches redisEnv (fun _ => "worker") reportedByStream s ∧
    s.telemetry.length = 1 ∧
    ∃ page, get_fleet_status defaults id none nobody s.telemetry 43561000000 43561000000 1000 0 = some page ∧
      page.map Summary.robot_id = [1] ∧
      ∀ summary ∈ page, summary.robot_id = 1 → summary.status = OFFLINE := by
  have hrun : ((exec (Backend.step redisEnv fun _ => "worker") Backend.init reportedByStream).map fun s =>
      (s.telemetry.length, (get_fleet_status defaults id none nobody s.telemetry 43561000000 43561000000
        1000 0).map (List.map Summary.robot_id))) = some (1, some [1]) := by
    decide +kernel
  obtain ⟨s, hrun, hlisted⟩ := Option.map_eq_some_iff.mp hrun
  obtain ⟨hlength, hpage⟩ := Prod.mk.inj hlisted
  obtain ⟨page, hpage, hids⟩ := Option.map_eq_some_iff.mp hpage
  exact ⟨s, hrun, hlength, page, hpage, hids,
    dead_robot_offline hrun (List.Subset.refl _) (by decide +kernel) 1000 0 page hpage⟩

end Claims

end FleetOps.Fleet
