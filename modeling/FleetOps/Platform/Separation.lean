import FleetOps.Command.Steps
import FleetOps.Telemetry.Acknowledged
import FleetOps.Platform.Streams

namespace FleetOps.Platform

open Runs
open Command (StreamName Message System)
open Telemetry (Env exists_of_mem_mapM mem_of_mapM)

-- A telemetry reading is an object with a battery field.
def hasBattery (fields : Dict) : Bool := fields.any fun field => field.1 == "battery"

def isReading (orjson : Orjson) (payload : orjson.Text) : Bool :=
  match orjson.loads payload with
  | some (.obj fields) => hasBattery fields
  | _ => false

-- Only telemetry is on the ingest stream, and every other message is on the other one.
structure Rightful (orjson : Orjson) (entry : Entry orjson.Text) : Prop where
  telemetry : entry.stream = .telemetry_stream → isReading orjson entry.payload = true
  others : entry.origin.isReading = false → entry.stream = .event_stream

variable {env : Env}

def Separated (s : State env.orjson.Text) : Prop := ∀ entry ∈ s.added, Rightful env.orjson entry

abbrev Reaches (env : Env) (labels : List Label) (s : State env.orjson.Text) : Prop :=
  exec (State.step env) State.init labels = some s

def dispatching : Command.Request → Bool
  | .claim _ (.broadcast _ _ _) => true
  | _ => false

-- The step delivers the COMMAND_UPDATE of a claim.
def dispatches {T : Type} (s : State T) : Label → Bool
  | .command (.advance r _ (.publish true)) => (s.commands.requests r).any dispatching
  | _ => false

section Readings

-- What the telemetry service is about to publish are readings.
def Readied (s : Telemetry.Service env.orjson.Text) : Prop :=
  ∀ id ingestion payloads ack, s.tasks id = some (.call ingestion (.publish payloads ack)) →
    ∀ p ∈ payloads, hasBattery (writtenFields p.2) = true

theorem battery_payloads {serialize : Calendar.Datetime → String} {rows : List Telemetry.Measured}
    {out : List (Telemetry.Source × Dict)} (h : Telemetry.payloads serialize rows = some out) :
    ∀ p ∈ out, hasBattery (writtenFields p.2) = true := by
  intro p hp
  obtain ⟨row, _, heq⟩ := exists_of_mem_mapM h p hp
  obtain ⟨payload, hstamped, rfl⟩ := Option.map_eq_some_iff.mp heq
  exact Telemetry.any_battery_stamped hstamped

theorem battery_broadcastDicts {rows : List Telemetry.Measured}
    {out : List (Telemetry.Source × Dict)} (h : Telemetry.broadcastDicts rows = some out) :
    ∀ p ∈ out, hasBattery (writtenFields p.2) = true := by
  intro p hp
  obtain ⟨row, _, heq⟩ := exists_of_mem_mapM h p hp
  obtain ⟨payload, hdict, rfl⟩ := Option.map_eq_some_iff.mp heq
  rw [hasBattery, Dict.any_key_eq, lookup_writtenFields, (Telemetry.lookup_broadcast_dict hdict).2.1]
  rfl

theorem reading_of_broadcast {payloads : List (Telemetry.Source × Dict)} {added : List Nat}
    (hpayloads : ∀ p ∈ payloads, hasBattery (writtenFields p.2) = true) :
    ∀ entry ∈ Telemetry.broadcast env payloads added,
      isReading env.orjson entry.payload = true := by
  intro entry hentry
  obtain ⟨p, hp, _, hdumps⟩ := Telemetry.exists_of_mem_broadcast hentry
  simp only [isReading, env.orjson.loads_dumps _ _ hdumps, Json.written]
  exact hpayloads p hp

theorem begin_readied {viewers : Nat} {id : Telemetry.TaskId} {now : Calendar.Utc}
    {ingestion : Telemetry.Ingestion} {payloads : List (Telemetry.Source × Dict)}
    {ack : Telemetry.Ack} (h : ingestion.begin env viewers id now = .publish payloads ack) :
    ∀ p ∈ payloads, hasBattery (writtenFields p.2) = true := by
  rcases Telemetry.begin_cases env viewers id now ingestion with
    hraised | ⟨rows, _, ⟨_, out, hout, hpublish⟩ | hinsert | hpending⟩
  · cases hraised.symm.trans h
  · cases hpublish.symm.trans h
    exact battery_payloads hout
  · cases hinsert.symm.trans h
  · cases hpending.symm.trans h

-- A call adds entries in its publish only, and comes to one with readings.
theorem next_publish {s : Telemetry.Service env.orjson.Text} {id : Telemetry.TaskId}
    {added : List Nat} {ingestion : Telemetry.Ingestion} {state state' : Telemetry.CallState}
    {db : Telemetry.Database Telemetry.TaskId Telemetry.Source} {pending : List Telemetry.Measured}
    {entries : List (Telemetry.Entry env.orjson.Text)}
    (h : Telemetry.CallStep env s id added ingestion state db pending state' entries) :
    (entries = [] ∨ ∃ payloads ack, state = .publish payloads ack ∧
      entries = Telemetry.broadcast env payloads added) ∧
    ∀ payloads ack, state' = .publish payloads ack →
      ∀ p ∈ payloads, hasBattery (writtenFields p.2) = true := by
  cases h with
  | commit rows row_id out hout =>
      refine ⟨Or.inl rfl, ?_⟩
      rintro _ _ ⟨⟩
      exact battery_broadcastDicts hout
  | buffer rows out hout =>
      refine ⟨Or.inl rfl, ?_⟩
      rintro _ _ ⟨⟩
      exact battery_payloads hout
  | publish out ack => exact ⟨Or.inr ⟨out, ack, rfl, rfl⟩, by rintro _ _ ⟨⟩⟩
  | refused | insert | commit_one | commit_batch | unconverted_batch | refresh | mark_seen
  | unconverted => exact ⟨Or.inl rfl, by rintro _ _ ⟨⟩⟩

-- Another task of the service, whose publish is ready only if it is a call's.
theorem Readied.update {s : Telemetry.Service env.orjson.Text} (hs : Readied s)
    {id : Telemetry.TaskId} {task : Telemetry.Task}
    (htask : ∀ ingestion payloads ack, task = .call ingestion (.publish payloads ack) →
      ∀ p ∈ payloads, hasBattery (writtenFields p.2) = true)
    {t : Telemetry.Service env.orjson.Text}
    (ht : t.tasks = Function.update s.tasks id (some task)) : Readied t := by
  intro id' ingestion payloads ack hcall
  rw [ht] at hcall
  by_cases hid : id' = id
  · subst hid
    rw [Function.update_self] at hcall
    exact htask ingestion payloads ack (Option.some.inj hcall)
  · rw [Function.update_of_ne hid] at hcall
    exact hs id' ingestion payloads ack hcall

-- Whatever the telemetry service adds to its stream is a reading.
theorem Readied.step {s t : Telemetry.Service env.orjson.Text} {label : Telemetry.Label}
    (hs : Readied s) (h : s.step env label = some t) :
    Readied t ∧ ∃ new, t.stream = s.stream ++ new ∧
      ∀ entry ∈ new, isReading env.orjson entry.payload = true := by
  cases Telemetry.service_step h with
  | call id now ingestion =>
      refine ⟨hs.update ?_ rfl, [], by simp, by simp⟩
      intro ingestion' payloads ack htask
      cases htask_eq : ingestion.begin env s.viewers id now <;> rw [htask_eq] at htask <;> cases htask
      exact begin_readied htask_eq
  | flush id => exact ⟨hs.update (by rintro _ _ _ ⟨⟩) rfl, [], by simp, by simp⟩
  | next id added ingestion state htask db pending state' entries hnext =>
      obtain ⟨hentries, hpublish⟩ := next_publish hnext
      refine ⟨hs.update ?_ rfl, entries, rfl, ?_⟩
      · rintro _ payloads ack ⟨⟩
        exact hpublish payloads ack rfl
      · rcases hentries with rfl | ⟨payloads, ack, rfl, rfl⟩
        · simp
        · exact reading_of_broadcast (hs id ingestion payloads ack htask)
  | flushed => exact ⟨hs.update (by rintro _ _ _ ⟨⟩) rfl, [], by simp, by simp⟩
  | fail id task =>
      refine ⟨hs.update ?_ rfl, [], by simp, by simp⟩
      intro _ _ _ habort
      cases task <;> cases habort
  | connect | disconnect => exact ⟨hs, [], by simp, by simp⟩

end Readings

section Messages

theorem claim_streams {robot_id : Int} {db db' : Command.Table} {r : Command.RequestId}
    {now : Instant} {choice : Command.Choice} {state state' : Command.ClaimState}
    {out : List Message}
    (h : Command.claim_pending_commands robot_id db r now choice state = some (db', state', out)) :
    (∀ message ∈ out, message.stream = .event_stream) ↔
      ¬ (dispatching (.claim robot_id state) = true ∧ choice = .publish true) := by
  cases state with
  | broadcast claimed record stamped =>
      obtain ⟨sent, hsent, heq⟩ := Option.map_eq_some_iff.mp h
      cases heq
      obtain ⟨delivered, rfl, rfl⟩ := Command.published_eq hsent
      cases delivered <;> simp [dispatching, Command.dispatchMessage]
  | _ => cases Command.claim_step h <;> simp [dispatching]

-- Every message of the command service but a claim's goes to the event stream.
theorem next_streams {request request' : Command.Request} {db db' : Command.Table}
    {r : Command.RequestId} {now : Instant} {choice : Command.Choice} {out : List Message}
    (h : request.next db r now choice = some (db', request', out)) :
    (∀ message ∈ out, message.stream = .event_stream) ↔
      ¬ (dispatching request = true ∧ choice = .publish true) := by
  have hothers : dispatching request = false → (∀ message ∈ out, message.stream = .event_stream) →
      ((∀ message ∈ out, message.stream = .event_stream) ↔
        ¬ (dispatching request = true ∧ choice = .publish true)) := by
    intro hnot hout
    simpa [hnot] using hout
  cases request with
  | create robot_id command state =>
      obtain ⟨⟨db₁, state', sent⟩, hstep, heq⟩ := Option.map_eq_some_iff.mp h
      cases heq
      refine hothers rfl ?_
      cases Command.create_command_step hstep with
      | broadcast payload now delivered => cases delivered <;> simp [Command.dictMessage]
      | _ => simp
  | claim robot_id state =>
      obtain ⟨⟨db₁, state', sent⟩, hstep, heq⟩ := Option.map_eq_some_iff.mp h
      cases heq
      exact claim_streams hstep
  | update command_id update_data state =>
      obtain ⟨⟨db₁, state', sent⟩, hstep, heq⟩ := Option.map_eq_some_iff.mp h
      cases heq
      refine hothers rfl ?_
      cases Command.update_step hstep with
      | broadcast payload now delivered => cases delivered <;> simp [Command.dictMessage]
      | _ => simp
  | scan state =>
      obtain ⟨⟨db₁, state', sent⟩, hstep, heq⟩ := Option.map_eq_some_iff.mp h
      cases heq
      refine hothers rfl ?_
      cases Command.scan_step hstep with
      | broadcast now cmd rest delivered => cases delivered <;> simp [Command.timeoutMessage]
      | _ => simp

theorem command_streams {T : Type} {s : State T} {commands : System} {action : Command.Action}
    (h : s.commands.step action = some commands) :
    ∃ out, commands.published = s.commands.published ++ out ∧
      ((∀ p ∈ out, p.2.stream = .event_stream) ↔ dispatches s (.command action) = false) := by
  cases action with
  | start r now call =>
      simp only [System.step] at h
      split at h
      · cases h
      · cases h
        exact ⟨[], by simp, by simp [dispatches]⟩
  | advance r now choice =>
      obtain ⟨request, hrequest, h⟩ := Option.bind_eq_some_iff.mp h
      obtain ⟨⟨db, request', out⟩, hnext, rfl⟩ := Option.map_eq_some_iff.mp h
      refine ⟨_, rfl, ?_⟩
      rw [List.forall_mem_map, next_streams hnext]
      unfold dispatches
      split
      · rename_i heq
        cases heq
        simp [hrequest]
      · rename_i hother
        have hchoice : choice ≠ .publish true := by
          rintro rfl
          exact hother r now rfl
        simp [hchoice]
  | fail r =>
      obtain ⟨request, _, h⟩ := Option.bind_eq_some_iff.mp h
      split at h
      · cases h
      · cases h
        exact ⟨[], by simp, by simp [dispatches]⟩

end Messages

section Runs

variable {M : Type} {entry : M → Option (Entry env.orjson.Text)} {sent : List M}
  {new : List (Entry env.orjson.Text)}

theorem xadd_eq {stream : StreamName} {origin : Origin} {data : Option Dict}
    {added : Entry env.orjson.Text} (h : xadd env stream origin data = some added) :
    added.stream = stream ∧ added.origin = origin := by
  obtain ⟨fields, _, h⟩ := Option.bind_eq_some_iff.mp h
  obtain ⟨payload, _, rfl⟩ := Option.map_eq_some_iff.mp h
  exact ⟨rfl, rfl⟩

-- With Redis every delivered message has its entry. Of a message that is no
-- reading the entry is rightful exactly on the event stream.
theorem rightful_entries (hredis : env.settings.websocket_backend = "redis") (stream : M → StreamName)
    (hentry : ∀ m e, entry m = some e → e.stream = stream m ∧ e.origin.isReading = false)
    (h : entries env entry sent = some new) :
    (∀ e ∈ new, Rightful env.orjson e) ↔ ∀ m ∈ sent, stream m = .event_stream := by
  have hmap : sent.mapM entry = some new := by simpa [entries, hredis] using h
  constructor
  · intro hnew m hm
    obtain ⟨e, he, hme⟩ := mem_of_mapM hmap m hm
    obtain ⟨hstream, horigin⟩ := hentry m e hme
    rw [← hstream]
    exact (hnew e he).others horigin
  · intro hsent e he
    obtain ⟨m, hm, hme⟩ := exists_of_mem_mapM hmap e he
    obtain ⟨hstream, _⟩ := hentry m e hme
    have hevent : e.stream = .event_stream := by rw [hstream, hsent m hm]
    exact ⟨by simp [hevent], fun _ => hevent⟩

theorem separated_append {s t : State env.orjson.Text} (h : t.added = s.added ++ new) :
    Separated t ↔ Separated s ∧ ∀ e ∈ new, Rightful env.orjson e := by
  simp only [Separated, h, List.forall_mem_append]

theorem separated_step (hredis : env.settings.websocket_backend = "redis")
    {s t : State env.orjson.Text} {label : Label} (hs : Readied s.telemetry)
    (h : s.step env label = some t) :
    Readied t.telemetry ∧ (Separated t ↔ Separated s ∧ dispatches s label = false) := by
  cases label with
  | command action =>
      obtain ⟨commands, hstep, h⟩ := Option.bind_eq_some_iff.mp h
      obtain ⟨new, hnew, rfl⟩ := Option.map_eq_some_iff.mp h
      obtain ⟨out, hout, hiff⟩ := command_streams hstep
      rw [hout, List.drop_left] at hnew
      refine ⟨hs, ?_⟩
      rw [separated_append rfl, ← hiff, rightful_entries hredis (fun p => p.2.stream) ?_ hnew]
      intro p e he
      obtain ⟨hstream, horigin⟩ := xadd_eq he
      exact ⟨hstream, by rw [horigin]; rfl⟩
  | telemetry label =>
      obtain ⟨telemetry, hstep, rfl⟩ := Option.map_eq_some_iff.mp h
      obtain ⟨hready, new, hnew, hreading⟩ := hs.step hstep
      refine ⟨hready, ?_⟩
      rw [separated_append rfl]
      have hrightful : ∀ e ∈ (telemetry.stream.drop s.telemetry.stream.length).map telemetryEntry,
          Rightful env.orjson e := by
        rw [hnew, List.drop_left, List.forall_mem_map]
        exact fun entry hentry => ⟨fun _ => hreading entry hentry, by rintro ⟨⟩⟩
      simp only [dispatches, and_true, and_iff_left_iff_imp]
      exact fun _ => hrightful
  | event label =>
      obtain ⟨events, hstep, h⟩ := Option.bind_eq_some_iff.mp h
      obtain ⟨new, hnew, rfl⟩ := Option.map_eq_some_iff.mp h
      refine ⟨hs, ?_⟩
      rw [separated_append rfl, rightful_entries hredis (fun _ => .event_stream) ?_ hnew]
      · simp [dispatches]
      · intro p e he
        obtain ⟨hstream, horigin⟩ := xadd_eq he
        exact ⟨hstream, by rw [horigin]; rfl⟩

-- The streams stay apart exactly as long as no claim's COMMAND_UPDATE is delivered.
theorem streams_separated (hredis : env.settings.websocket_backend = "redis") {labels : List Label}
    {s : State env.orjson.Text} (hrun : Reaches env labels s) :
    Separated s ↔
      Along (State.step env) (fun u label => dispatches u label = false) State.init labels := by
  have hiff := exec_along_iff (P := Separated) (fun u label v hu hstep => separated_step hredis hu hstep)
    (s := State.init) (by simp [Readied, State.init, Telemetry.Service.init]) hrun
  have hinit : Separated (State.init : State env.orjson.Text) := by simp [Separated, State.init]
  simpa [hinit] using hiff

end Runs

section Claims

open Telemetry (redisEnv noon plainReading)

-- A command is created and a robot claims it.
def claimedCommand : List Label :=
  (Command.createRun 0 10 7 1 ⟨"RESUME", none, none, none⟩ ++ Command.claimRun 1 20 1 [7]).map
    Label.command

theorem dispatch_on_ingest_stream : ¬ ∀ (env : Env) (labels : List Label)
    (s : State env.orjson.Text), env.settings.websocket_backend = "redis" → Reaches env labels s →
      Separated s := by
  intro hseparated
  have hadded : ((exec (State.step redisEnv) State.init claimedCommand).map fun s =>
      s.added.map fun e => (e.stream, isReading redisEnv.orjson e.payload)) =
        some [(.event_stream, false), (.telemetry_stream, false)] := by decide +kernel
  obtain ⟨s, hrun, hadded⟩ := Option.map_eq_some_iff.mp hadded
  have hmem : (StreamName.telemetry_stream, false) ∈
      s.added.map fun e => (e.stream, isReading redisEnv.orjson e.payload) := by simp [hadded]
  obtain ⟨e, he, heq⟩ := List.mem_map.mp hmem
  obtain ⟨hstream, hreading⟩ := Prod.mk.inj heq
  have hrightful := hseparated redisEnv claimedCommand s rfl hrun e he
  rw [hrightful.telemetry hstream] at hreading
  cases hreading

-- A reading, a command and an event, and the claim's publish fails.
def separatedRun : List Label :=
  [.telemetry (.call 0 noon (.ingest (plainReading 1 (.finite 50)))), .telemetry (.advance 0 [0])] ++
    (Command.createRun 0 10 7 1 ⟨"RESUME", none, none, none⟩ ++
      Command.Action.start 1 20 (.claim_pending_commands 1) :: (Command.claimTurn 1 20 7).take 4 ++
      [Command.Action.advance 1 20 (.publish false)]).map Label.command ++
    [.event (.post 0 noon ⟨1, "blocked"⟩), .event (.advance 0 true), .event (.advance 0 true),
      .event (.advance 0 true)]

theorem streams_separated_run : ∃ s, Reaches redisEnv separatedRun s ∧
    s.added.map Entry.stream = [.telemetry_stream, .event_stream, .event_stream] ∧ Separated s := by
  have hadded : ((exec (State.step redisEnv) State.init separatedRun).map fun s =>
      s.added.map Entry.stream) = some [.telemetry_stream, .event_stream, .event_stream] := by
    decide +kernel
  obtain ⟨s, hrun, hadded⟩ := Option.map_eq_some_iff.mp hadded
  exact ⟨s, hrun, hadded, (streams_separated rfl hrun).mpr (by decide +kernel)⟩

end Claims

end FleetOps.Platform
