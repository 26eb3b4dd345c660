import FleetOps.Fleet.Analytics
import FleetOps.Library.ReadThrough

namespace FleetOps.Fleet

open Calendar ReadThrough Runs Telemetry

-- The reads that go through the cache.
inductive CachedRead where
  | fleet_status (limit skip : Nat)
  | fleet_analytics
  deriving DecidableEq

def STATUS_KEY : List Char := "fleet_status_summary_".toList

def CACHE_KEY : List Char := "fleet_analytics".toList

def cache_key : CachedRead → List Char
  | .fleet_status limit skip => STATUS_KEY ++ (Nat.toDigits 10 limit ++ '_' :: Nat.toDigits 10 skip)
  | .fleet_analytics => CACHE_KEY

-- What else the program keeps in Redis.
inductive OtherKey where
  | rate_limit (bucket client_ip : List Char)
  | timeout_scanner
  | db_pruner
  | telemetry_stream
  | event_stream

def OtherKey.text : OtherKey → List Char
  | .rate_limit bucket client_ip => "rate_limit:".toList ++ bucket ++ ':' :: client_ip
  | .timeout_scanner => "lock:timeout_scanner".toList
  | .db_pruner => "lock:db_pruner".toList
  | .telemetry_stream => "telemetry_stream".toList
  | .event_stream => "event_stream".toList

structure Tables where
  roster : Roster
  telemetry : List TelemetryRow

inductive Reply where
  | page (robots : List Summary)
  | analytics (result : FleetAnalytics)

section Model

variable (settings : FleetSettings) (upper : String → String) (dumps : Reply → String)
  (loads : String → Option Reply)

-- `get_fleet_analytics`, where each of the three queries sees the table as it is by then. The
-- time of the database is that of the first of them, which begins the transaction.
def analytics_of (trend completions latest : List TelemetryRow) (db_now now : Instant) :
    Option FleetAnalytics := do
  let fleet_health_trend ← get_fleet_health_trend 20 db_now trend
  let rows := latest_rows settings latest db_now now
  some
    { fleet_health_trend := fleet_health_trend
      battery_distribution := battery_distribution rows
      temperature_distribution := temperature_distribution rows
      mission_completion_count := get_mission_completions db_now completions
      robot_status_breakdown := robot_status_breakdown upper rows }

-- What was seen is given with the time of the look, in order.
def compute : CachedRead → List (Instant × Tables) → Instant → Option Reply
  | .fleet_status limit skip, [(db_now, registered), (_, grouped)], now =>
      (get_fleet_status settings upper none registered.roster grouped.telemetry db_now now limit skip).map
        .page
  | .fleet_analytics, [(db_now, trend), (_, completions), (_, latest)], now =>
      (analytics_of settings upper trend.telemetry completions.telemetry latest.telemetry db_now now).map
        .analytics
  | _, _, _ => none

-- `CACHE_TTL`, and `ttl_seconds` of the fleet status.
def CACHE_TTL : Int := 10 * 1000000

def cached_reads : Setup CachedRead (List Char) String Tables Reply where
  name := cache_key
  looks := fun
    | .fleet_status _ _ => 2
    | .fleet_analytics => 3
  compute := compute settings upper
  write := dumps
  read := loads
  ttl := CACHE_TTL
  enabled := settings.opt_read_cache

end Model

-- On one table at one moment it is the service's own computation.
theorem analytics_of_same (settings : FleetSettings) (upper : String → String)
    (telemetry : List TelemetryRow) (db_now now : Instant) :
    analytics_of settings upper telemetry telemetry telemetry db_now now =
      get_fleet_analytics settings upper none telemetry db_now now := by
  rw [get_fleet_analytics]
  cases settings.opt_read_cache <;> rfl

section Keys

theorem underscore_not_mem_toDigits (n : Nat) : '_' ∉ Nat.toDigits 10 n := fun h =>
  absurd (Nat.isDigit_of_mem_toDigits (by omega) (by omega) h) (by decide)

theorem toDigits_injective : Function.Injective (Nat.toDigits 10) := by
  intro m n h
  rw [← Nat.ofDigitChars_ten_toDigits (n := m), h, Nat.ofDigitChars_ten_toDigits]

theorem take_status_key (rest : List Char) : (STATUS_KEY ++ rest).take 7 = "fleet_s".toList := by
  rw [List.take_append_of_le_length (by decide)]
  decide

-- No two pages, and no page and the analytics, have one name.
theorem cache_key_injective : Function.Injective cache_key := by
  have hother : ∀ rest, STATUS_KEY ++ rest ≠ CACHE_KEY := by
    intro rest h
    have htake := take_status_key rest
    rw [h] at htake
    exact absurd htake (by decide)
  intro a b h
  cases a with
  | fleet_analytics =>
      cases b with
      | fleet_analytics => rfl
      | fleet_status limit skip => exact absurd h.symm (hother _)
  | fleet_status limit skip =>
      cases b with
      | fleet_analytics => exact absurd h (hother _)
      | fleet_status limit' skip' =>
          have hsplit := congrArg (List.splitOn '_') (List.append_cancel_left h)
          rw [List.splitOn_append_cons_self_of_not_mem (underscore_not_mem_toDigits limit),
            List.splitOn_append_cons_self_of_not_mem (underscore_not_mem_toDigits limit'),
            List.splitOn_eq_singleton (underscore_not_mem_toDigits skip),
            List.splitOn_eq_singleton (underscore_not_mem_toDigits skip')] at hsplit
          simp only [List.cons.injEq, and_true] at hsplit
          rw [toDigits_injective hsplit.1, toDigits_injective hsplit.2]

theorem head?_rate_limit (rest : List Char) : ("rate_limit:".toList ++ rest).head? = some 'r' := by
  rw [List.head?_append_of_ne_nil _ (by decide)]
  decide

-- Whatever a client's address looks like: the others begin with another letter.
theorem cache_key_ne (key : CachedRead) (other : OtherKey) : cache_key key ≠ other.text := by
  have hkey : (cache_key key).head? = some 'f' := by
    cases key with
    | fleet_status limit skip =>
        rw [cache_key, List.head?_append_of_ne_nil _ (by decide)]
        decide
    | fleet_analytics =>
        rw [cache_key]
        decide
  have hother : other.text.head? ≠ some 'f' := by
    cases other with
    | rate_limit bucket client_ip =>
        have hhead := head?_rate_limit (bucket ++ ':' :: client_ip)
        rw [← List.append_assoc] at hhead
        intro h
        exact absurd (hhead.symm.trans h) (by decide)
    | timeout_scanner | db_pruner | telemetry_stream | event_stream => decide
  intro h
  rw [h] at hkey
  exact hother hkey

end Keys

section Reads

variable {settings : FleetSettings} {upper : String → String} {dumps : Reply → String}
  {loads : String → Option Reply}

abbrev Reads := System Nat CachedRead (List Char) String Tables Reply

abbrev ReadEvent := Event Nat CachedRead (List Char) String Tables

-- No request takes longer than `limit`.
def Timely (limit : Int) (s : Reads) (e : ReadEvent) : Prop :=
  ∀ n, e = .tick n → ∀ r began, (s.phase r).since = some began → s.now + n ≤ began + limit

-- The tables were so at that time of the run.
def Held (settings : FleetSettings) (upper : String → String) (dumps : Reply → String)
    (loads : String → Option Reply) (s : Reads) (es : List ReadEvent) (time : Instant) (tables : Tables) :
    Prop :=
  Was (cached_reads settings upper dumps loads) s es time tables

-- How old an answer can be: as long as a request takes, and the life of an entry where there is
-- a cache.
def age (settings : FleetSettings) (limit : Int) : Int :=
  limit + if settings.opt_read_cache then CACHE_TTL else 0

-- The answer is the service's own, from the tables as they were, not long ago.
def Shows (settings : FleetSettings) (upper : String → String) (Held : Instant → Tables → Prop)
    (oldest : Instant) (a : Answer CachedRead Reply) : Prop :=
  match a.key with
  | .fleet_status limit skip => ∃ db_now registered later grouped now page,
      oldest ≤ db_now ∧ db_now ≤ later ∧ later ≤ now ∧ now ≤ a.now ∧
      Held db_now registered ∧ Held later grouped ∧
      get_fleet_status settings upper none registered.roster grouped.telemetry db_now now limit skip =
        some page ∧ a.value = .page page
  | .fleet_analytics => ∃ db_now trend second completions third latest now result,
      oldest ≤ db_now ∧ db_now ≤ second ∧ second ≤ third ∧ third ≤ now ∧ now ≤ a.now ∧
      Held db_now trend ∧ Held second completions ∧ Held third latest ∧
      analytics_of settings upper trend.telemetry completions.telemetry latest.telemetry db_now now =
        some result ∧ a.value = .analytics result

theorem shows_of_computed {Held : Instant → Tables → Prop} {a : Answer CachedRead Reply} {first : Instant}
    (h : Computed (cached_reads settings upper dumps loads) Held a.key a.value first a.now) :
    Shows settings upper Held first a := by
  obtain ⟨seen, now, hvalue, hlength, hsorted, hnow, hseen⟩ := h
  obtain ⟨key, value, asked⟩ := a
  cases key with
  | fleet_status limit skip =>
      match seen, hlength with
      | [(db_now, registered), (later, grouped)], _ =>
          simp only [List.mem_cons, List.not_mem_nil, or_false, forall_eq_or_imp, forall_eq] at hseen
          simp only [List.map_cons, List.map_nil, List.pairwise_cons, List.mem_cons, List.not_mem_nil,
            or_false, forall_eq] at hsorted
          obtain ⟨⟨hfirst, hoff, -⟩, hsecond, -, hlast⟩ := hseen
          obtain ⟨page, hpage, heq⟩ := Option.map_eq_some_iff.mp hvalue
          exact ⟨db_now, registered, later, grouped, now, page, hoff, hsorted.1, hlast, hnow, hfirst,
            hsecond, hpage, heq.symm⟩
  | fleet_analytics =>
      match seen, hlength with
      | [(db_now, trend), (second, completions), (third, latest)], _ =>
          simp only [List.mem_cons, List.not_mem_nil, or_false, forall_eq_or_imp, forall_eq] at hseen
          simp only [List.map_cons, List.map_nil, List.pairwise_cons, List.mem_cons, List.not_mem_nil,
            or_false, forall_eq_or_imp, forall_eq] at hsorted
          obtain ⟨⟨hfirst, hoff, -⟩, ⟨hmiddle, -, -⟩, hthird, -, hlast⟩ := hseen
          obtain ⟨result, hresult, heq⟩ := Option.map_eq_some_iff.mp hvalue
          exact ⟨db_now, trend, second, completions, third, latest, now, result, hoff, hsorted.1.1,
            hsorted.2.1, hlast, hnow, hfirst, hmiddle, hthird, hresult, heq.symm⟩

-- With the cache or without, every page and every analytics is what the service computes from the
-- tables as they were within the last ten seconds and the time a request takes, whatever the
-- requests of all processes, the tables and Redis do meanwhile.
theorem cached_reads_fresh (hloads : ∀ reply back, loads (dumps reply) = some back → back = reply)
    {limit : Int} (hlimit : 0 ≤ limit) {s t : Reads} {es : List ReadEvent}
    (hs : s.Fresh (cached_reads settings upper dumps loads))
    (htimely : Along (step (cached_reads settings upper dumps loads)) (Timely limit) s es)
    (hforeign : ∀ n entry, .foreign n entry ∈ es → ∃ other : OtherKey, n = other.text)
    (hrun : exec (step (cached_reads settings upper dumps loads)) s es = some t) :
    ∀ a ∈ t.answered,
      Shows settings upper (Held settings upper dumps loads s es) (a.now - age settings limit) a := by
  have hbrisk : Along (step (cached_reads settings upper dumps loads))
      (Brisk (cached_reads settings upper dumps loads) limit) s es := by
    have hown : Along (step (cached_reads settings upper dumps loads)) (fun _ e => e ∈ es) s es :=
      along_of_forall (fun _ _ he => he) s
    refine (htimely.and hown).mono fun u e he => ⟨he.1, ?_⟩
    rintro n entry rfl key
    obtain ⟨other, rfl⟩ := hforeign n entry he.2
    exact cache_key_ne key other
  intro a ha
  obtain ⟨first, hcomputed, hage⟩ := answers_fresh hloads cache_key_injective hlimit
    (show (0 : Int) ≤ CACHE_TTL by decide) hs hbrisk hrun a ha
  obtain ⟨key, value, now⟩ := a
  have holder : now - age settings limit ≤ first := by
    have hsame : (cached_reads settings upper dumps loads).age limit = age settings limit := rfl
    rw [hsame] at hage
    simp only at hage
    omega
  have hshows := shows_of_computed hcomputed
  cases key with
  | fleet_status limit skip =>
      obtain ⟨db_now, registered, later, grouped, moment, page, hoff, hrest⟩ := hshows
      exact ⟨db_now, registered, later, grouped, moment, page, holder.trans hoff, hrest⟩
  | fleet_analytics =>
      obtain ⟨db_now, trend, second, completions, third, latest, moment, result, hoff, hrest⟩ := hshows
      exact ⟨db_now, trend, second, completions, third, latest, moment, result, holder.trans hoff, hrest⟩

def plainSettings : FleetSettings := ⟨60, 60, 50, true⟩

def emptyTables : Tables := ⟨⟨[], .nil⟩, []⟩

-- Texts for pages without a robot.
def plainDumps : Reply → String
  | .page [] => "[]"
  | _ => "?"

def plainLoads (text : String) : Option Reply := if text = "[]" then some (.page []) else none

def startReads : Reads := ⟨0, emptyTables, fun _ => none, fun _ => .idle, []⟩

-- The first request fills the cache, the second finds the page there three seconds later.
def firstRead : List ReadEvent :=
  [.request 0 (.fleet_status 50 0), .get 0 true, .look 0, .look 0, .finish 0, .set 0 true, .tick 3000000,
    .request 1 (.fleet_status 50 0)]

theorem plainLoads_plainDumps (reply back : Reply) (h : plainLoads (plainDumps reply) = some back) :
    back = reply := by
  unfold plainDumps at h
  split at h
  · exact (Option.some.inj h).symm
  · cases h

abbrev plainReads := cached_reads plainSettings id plainDumps plainLoads

theorem firstRead_run : ∃ u, exec (step plainReads) startReads firstRead = some u ∧
    u.phase 1 = .asking (.fleet_status 50 0) 3000000 ∧ u.held (cache_key (.fleet_status 50 0)) = some "[]" ∧
    u.answered = [⟨.fleet_status 50 0, .page [], 0⟩] := by
  refine ⟨_, rfl, rfl, ?_, rfl⟩
  simp only [System.held, cached_reads]
  rfl

theorem secondRead_step {u : Reads} (hphase : u.phase 1 = .asking (.fleet_status 50 0) 3000000)
    (hheld : u.held (cache_key (.fleet_status 50 0)) = some "[]") :
    step plainReads u (.get 1 true) = some (u.answer 1 (.fleet_status 50 0) (.page [])) := by
  have hback : (u.held (plainReads.name (.fleet_status 50 0))).bind plainReads.read = some (.page []) := by
    rw [show u.held (plainReads.name (.fleet_status 50 0)) = some "[]" from hheld]
    rfl
  simp only [step, hphase, if_true, hback]

theorem timely_of_ne_tick {limit : Int} {s : Reads} {e : ReadEvent} (h : ∀ n, e ≠ .tick n) :
    Timely limit s e := fun n he => absurd he (h n)

theorem timely_of_idle {limit : Int} {s : Reads} {e : ReadEvent} (h : ∀ r, s.phase r = .idle) :
    Timely limit s e := by
  intro n he r began hsince
  rw [h r] at hsince
  cases hsince

theorem firstRead_timely :
    Along (step plainReads) (Timely 0) startReads (firstRead ++ [.get 1 true]) := by
  iterate 6 refine along_cons rfl (timely_of_ne_tick (by simp)) ?_
  -- nobody has a request when the clock moves
  refine along_cons rfl (timely_of_idle fun r => ?_) ?_
  · by_cases hr : r = 0
    · subst hr
      rfl
    · simp [System.to, System.answer, startReads]
  · iterate 2 refine along_cons rfl (timely_of_ne_tick (by simp)) ?_
    trivial

-- A page from the cache, three seconds after the one that filled it.
theorem cached_reads_fresh_twice : ∃ t,
    exec (step plainReads) startReads (firstRead ++ [.get 1 true]) = some t ∧ t.answered.length = 2 ∧
    ∀ a ∈ t.answered, Shows plainSettings id
      (Held plainSettings id plainDumps plainLoads startReads (firstRead ++ [.get 1 true]))
      (a.now - age plainSettings 0) a := by
  obtain ⟨u, hfirst, hphase, hheld, hanswered⟩ := firstRead_run
  have hrun : exec (step plainReads) startReads (firstRead ++ [.get 1 true]) =
      some (u.answer 1 (.fleet_status 50 0) (.page [])) :=
    (exec_append_iff _ _ _ _).mpr ⟨u, hfirst, (exec_cons_iff _ _ _ _).mpr
      ⟨_, secondRead_step hphase hheld, rfl⟩⟩
  refine ⟨_, hrun, ?_, cached_reads_fresh plainLoads_plainDumps le_rfl ⟨fun _ => rfl, fun _ => rfl, rfl⟩
    firstRead_timely ?_ hrun⟩
  · simp [System.answer, hanswered]
  · intro n entry h
    simp [firstRead] at h

end Reads

end FleetOps.Fleet
