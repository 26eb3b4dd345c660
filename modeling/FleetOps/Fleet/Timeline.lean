import FleetOps.Fleet.Listing
import FleetOps.Telemetry.Resolved

namespace FleetOps.Fleet

open Calendar Telemetry

section Model

-- The row that a reading comes to, by the path that the configuration chooses. The worker reads
-- the stream at `now`.
def stored_row (env : Env) (received_at now : Utc) (data : TelemetryCreate) : Option TelemetryRow :=
  (if env.settings.opt_redis_buffer then
    buffered_insert env.orjson env.serialize env.settings.max_clock_skew_seconds data received_at now
  else direct_insert env.settings.max_clock_skew_seconds data received_at).map Prod.fst

def stored_rows (env : Env) (received_at now : Utc) (data : List TelemetryCreate) :
    Option (List TelemetryRow) :=
  data.mapM (stored_row env received_at now)

-- The device took the one reading before the other.
def Before (a b : TelemetryCreate) : Prop :=
  ∃ r₁ r₂, a.timestamp = some r₁ ∧ b.timestamp = some r₂ ∧ r₁.instant < r₂.instant

variable (max_clock_skew_seconds : Int) (received_at : Utc)

-- The first time is ahead of the server's by no more than is allowed, the second by more.
def Straddles (r₁ r₂ : Datetime) : Prop :=
  received_at.wall < r₁.instant ∧ r₁.instant ≤ received_at.wall + max_clock_skew_seconds * 1000000 ∧
    received_at.wall + max_clock_skew_seconds * 1000000 < r₂.instant

def Reversed (a b : TelemetryCreate) : Prop :=
  ∃ r₁ r₂, a.timestamp = some r₁ ∧ b.timestamp = some r₂ ∧
    Straddles max_clock_skew_seconds received_at r₁ r₂

-- A time that is earlier than server time and kept.
def Past (r : Datetime) : Prop :=
  r.instant < received_at.wall ∧ r.instant ≤ received_at.wall + max_clock_skew_seconds * 1000000

-- The last reading keeps its time, or takes server time with all the others before that.
def LastStands (early : List TelemetryCreate) (last : TelemetryCreate) : Prop :=
  (∀ r ∈ last.timestamp, r.instant ≤ received_at.wall + max_clock_skew_seconds * 1000000) ∨
    ∀ d ∈ early, ∀ r ∈ d.timestamp, Past max_clock_skew_seconds received_at r

end Model

section Order

variable {max_clock_skew_seconds : Int} {received_at t₁ t₂ : Utc} {r₁ r₂ : Datetime}

theorem resolve_le_iff
    (h₁ : resolve_timestamp max_clock_skew_seconds (some r₁) received_at = some t₁)
    (h₂ : resolve_timestamp max_clock_skew_seconds (some r₂) received_at = some t₂)
    (hle : r₁.instant ≤ r₂.instant) :
    t₁.wall ≤ t₂.wall ↔ ¬ Straddles max_clock_skew_seconds received_at r₁ r₂ := by
  have hfirst := (resolve_timestamp_eq_some.mp h₁).2
  have hsecond := (resolve_timestamp_eq_some.mp h₂).2
  simp only [agreed_time] at hfirst hsecond
  simp only [Straddles]
  split at hfirst <;> split at hsecond <;> omega

theorem resolve_lt_iff
    (h₁ : resolve_timestamp max_clock_skew_seconds (some r₁) received_at = some t₁)
    (h₂ : resolve_timestamp max_clock_skew_seconds (some r₂) received_at = some t₂)
    (hlt : r₁.instant < r₂.instant) :
    t₁.wall < t₂.wall ↔ r₂.instant ≤ received_at.wall + max_clock_skew_seconds * 1000000 ∨
      Past max_clock_skew_seconds received_at r₁ := by
  have hfirst := (resolve_timestamp_eq_some.mp h₁).2
  have hsecond := (resolve_timestamp_eq_some.mp h₂).2
  simp only [agreed_time] at hfirst hsecond
  simp only [Past]
  split at hfirst <;> split at hsecond <;> omega

end Order

section Lists

variable {α β : Type} {R : α → β → Prop} {xs : List α} {ys : List β}

theorem forall_mem_of_forall₂ {p : α → Prop} {q : β → Prop} (h : List.Forall₂ R xs ys)
    (hpq : ∀ x ∈ xs, ∀ y, R x y → (p x ↔ q y)) : (∀ x ∈ xs, p x) ↔ ∀ y ∈ ys, q y := by
  induction h with
  | nil => simp
  | @cons x y xs ys hxy hrest ih =>
      rw [List.forall_mem_cons, List.forall_mem_cons, hpq x (by simp) y hxy,
        ih fun a ha => hpq a (List.mem_cons_of_mem _ ha)]

theorem pairwise_of_forall₂ {B P : α → α → Prop} {Q : β → β → Prop} (h : List.Forall₂ R xs ys)
    (hb : xs.Pairwise B) (hpq : ∀ x x' y y', B x x' → R x y → R x' y' → (P x x' ↔ Q y y')) :
    xs.Pairwise P ↔ ys.Pairwise Q := by
  induction h with
  | nil => simp
  | @cons x y xs ys hxy hrest ih =>
      obtain ⟨hhead, htail⟩ := List.pairwise_cons.mp hb
      rw [List.pairwise_cons, List.pairwise_cons, ih htail,
        forall_mem_of_forall₂ hrest fun x' hx' y' hxy' => hpq x x' y y' (hhead x' hx') hxy hxy']

theorem forall₂_concat {x : α} {zs : List β} (h : List.Forall₂ R (xs ++ [x]) zs) :
    ∃ ys y, zs = ys ++ [y] ∧ List.Forall₂ R xs ys ∧ R x y := by
  induction xs generalizing zs with
  | nil =>
      obtain ⟨y, zs, hxy, hnil, rfl⟩ := List.forall₂_cons_left_iff.mp h
      cases hnil
      exact ⟨[], y, rfl, .nil, hxy⟩
  | cons a xs ih =>
      obtain ⟨b, zs, hab, hrest, rfl⟩ := List.forall₂_cons_left_iff.mp h
      obtain ⟨ys, y, rfl, hys, hxy⟩ := ih hrest
      exact ⟨b :: ys, y, rfl, .cons hab hys, hxy⟩

end Lists

section Batches

variable {env : Env} {received_at now : Utc} {d : TelemetryCreate} {row : TelemetryRow}

-- The row holds the reading's robot and its resolved time.
def Holds (env : Env) (received_at : Utc) (d : TelemetryCreate) (row : TelemetryRow) : Prop :=
  row.robot_id.val = d.robot_id ∧
    ∃ t, resolve_timestamp env.settings.max_clock_skew_seconds d.timestamp received_at = some t ∧
      row.timestamp = t.wall

theorem robot_of_integer {value : Int} {robot_id : Integer} (h : integer (.int value) = some robot_id) :
    robot_id.val = value := by
  simp only [integer] at h
  split at h
  · cases h
    rfl
  · cases h

theorem holds_of_stored_row (h : stored_row env received_at now d = some row) :
    Holds env received_at d row := by
  obtain ⟨⟨stored, seen⟩, hstored, rfl⟩ := Option.map_eq_some_iff.mp h
  split at hstored
  · obtain ⟨text, htext, hinsert⟩ := Option.bind_eq_some_iff.mp hstored
    obtain ⟨t, ht, htext⟩ := Option.bind_eq_some_iff.mp htext
    obtain ⟨payload, hpayload, hdumps⟩ := Option.bind_eq_some_iff.mp htext
    rw [worker_insert, parse_published hpayload hdumps] at hinsert
    obtain ⟨row, hrow, hinsert⟩ := Option.bind_eq_some_iff.mp hinsert
    obtain ⟨latest, -, hinsert⟩ := Option.bind_eq_some_iff.mp hinsert
    cases hinsert
    obtain ⟨hrobot, htime⟩ := columns_robot hrow
    exact ⟨robot_of_integer hrobot, t, ht, htime.trans (instant_utc t)⟩
  · obtain ⟨t, ht, hinsert⟩ := Option.bind_eq_some_iff.mp hstored
    obtain ⟨row, hrow, hinsert⟩ := Option.bind_eq_some_iff.mp hinsert
    cases hinsert
    obtain ⟨hrobot, htime⟩ := columns_robot hrow
    exact ⟨robot_of_integer hrobot, t, ht, htime.trans (instant_utc t)⟩

theorem holds_times {a b : TelemetryCreate} {x y : TelemetryRow} (hab : Before a b)
    (hx : Holds env received_at a x) (hy : Holds env received_at b y) :
    (x.timestamp ≤ y.timestamp ↔
      ¬ Reversed env.settings.max_clock_skew_seconds received_at a b) ∧
    (x.timestamp < y.timestamp ↔
      (∀ r ∈ b.timestamp, r.instant ≤ received_at.wall + env.settings.max_clock_skew_seconds * 1000000) ∨
        ∀ r ∈ a.timestamp, Past env.settings.max_clock_skew_seconds received_at r) := by
  obtain ⟨r₁, r₂, ha, hb, hlt⟩ := hab
  obtain ⟨-, t₁, h₁, hx⟩ := hx
  obtain ⟨-, t₂, h₂, hy⟩ := hy
  rw [ha] at h₁
  rw [hb] at h₂
  have hle := resolve_le_iff h₁ h₂ (le_of_lt hlt)
  have hstrict := resolve_lt_iff h₁ h₂ hlt
  simp only [Reversed, ha, hb, Option.some.injEq, Option.mem_def, forall_eq']
  rw [hx, hy, ← hstrict]
  refine ⟨?_, Int.ofNat_lt⟩
  rw [Int.ofNat_le, hle, not_iff_not]
  exact ⟨fun h => ⟨r₁, r₂, rfl, rfl, h⟩, by rintro ⟨_, _, rfl, rfl, h⟩; exact h⟩

theorem holds_stored_rows {data : List TelemetryCreate} {rows : List TelemetryRow}
    (h : stored_rows env received_at now data = some rows) :
    List.Forall₂ (Holds env received_at) data rows :=
  (forall₂_of_mapM h).imp fun _ _ => holds_of_stored_row

-- The stored times of a batch rise with the device's unless a reading is clamped below one before
-- it, and then only.
theorem stored_order {data : List TelemetryCreate} {rows : List TelemetryRow}
    (hdata : data.Pairwise Before) (h : List.Forall₂ (Holds env received_at) data rows) :
    (rows.map TelemetryRow.timestamp).Pairwise (· ≤ ·) ↔
      data.Pairwise fun a b => ¬ Reversed env.settings.max_clock_skew_seconds received_at a b := by
  rw [List.pairwise_map]
  exact (pairwise_of_forall₂ h hdata fun a b x y hab hx hy => (holds_times hab hx hy).1.symm).symm

theorem stored_last {early : List TelemetryCreate} {last : TelemetryCreate} {earlier : List TelemetryRow}
    (hbefore : ∀ d ∈ early, Before d last) (hearly : List.Forall₂ (Holds env received_at) early earlier)
    (hlast : Holds env received_at last row) :
    (∀ other ∈ earlier, other.timestamp < row.timestamp) ↔
      LastStands env.settings.max_clock_skew_seconds received_at early last := by
  rw [← forall_mem_of_forall₂ hearly fun d hd x hx => (holds_times (hbefore d hd) hx hlast).2.symm]
  by_cases hkept : ∀ r ∈ last.timestamp,
      r.instant ≤ received_at.wall + env.settings.max_clock_skew_seconds * 1000000
  · exact ⟨fun _ => Or.inl hkept, fun _ _ _ => Or.inl hkept⟩
  · exact ⟨fun h => Or.inr fun d hd => (h d hd).resolve_left hkept,
      fun h d hd => Or.inr (h.resolve_left hkept d hd)⟩

end Batches

section Timeline

variable {env : Env} {received_at now : Utc}

-- Clamping keeps the order of two times unless the later one alone is clamped and the earlier is
-- ahead of server time. So a batch in the device's order is stored in it unless it has two such
-- readings, and a robot's last reading is the latest if it is kept or no earlier one has reached
-- server time.
theorem clamping_keeps_order (env : Env) (received_at now : Utc) :
    (∀ r₁ r₂ t₁ t₂,
      resolve_timestamp env.settings.max_clock_skew_seconds (some r₁) received_at = some t₁ →
      resolve_timestamp env.settings.max_clock_skew_seconds (some r₂) received_at = some t₂ →
      r₁.instant ≤ r₂.instant →
      (t₁.wall ≤ t₂.wall ↔ ¬ Straddles env.settings.max_clock_skew_seconds received_at r₁ r₂)) ∧
    ∀ data rows, data.Pairwise Before → stored_rows env received_at now data = some rows →
      ((rows.map TelemetryRow.timestamp).Pairwise (· ≤ ·) ↔
        data.Pairwise fun a b => ¬ Reversed env.settings.max_clock_skew_seconds received_at a b) ∧
      ∀ robot_id early last, (data.filter fun d => d.robot_id = robot_id) = early ++ [last] →
        ∃ earlier row, (rows.filter fun row => row.robot_id.val = robot_id) = earlier ++ [row] ∧
          stored_row env received_at now last = some row ∧
          ((∀ other ∈ earlier, other.timestamp < row.timestamp) ↔
            LastStands env.settings.max_clock_skew_seconds received_at early last) ∧
          (LastStands env.settings.max_clock_skew_seconds received_at early last →
            ∀ settings db_now telemetry, 0 < settings.fleet_history_per_robot → row ∈ telemetry →
            in_window settings db_now row = true →
            (∀ other ∈ telemetry, other.robot_id.val = robot_id →
              other = row ∨ other ∈ earlier ∨ other.timestamp < row.timestamp) →
            latest settings db_now telemetry robot_id = some row) := by
  refine ⟨fun r₁ r₂ t₁ t₂ => resolve_le_iff, fun data rows hdata hrows => ?_⟩
  refine ⟨stored_order hdata (holds_stored_rows hrows), fun robot_id early last hlast => ?_⟩
  have hpairs : (early ++ [last]).Pairwise Before := hlast ▸ hdata.filter _
  have hboth : List.Forall₂ (fun d row => stored_row env received_at now d = some row ∧
      row.robot_id.val = d.robot_id) data rows :=
    (forall₂_of_mapM hrows).imp fun _ _ h => ⟨h, (holds_of_stored_row h).1⟩
  have hown := List.rel_filter (p := fun d : TelemetryCreate => decide (d.robot_id = robot_id))
    (q := fun row : TelemetryRow => decide (row.robot_id.val = robot_id))
    (fun d row h => by simp [h.2]) hboth
  rw [hlast] at hown
  obtain ⟨earlier, row, hsplit, hearly, hrow, hrobot⟩ := forall₂_concat hown
  have hstands : (∀ other ∈ earlier, other.timestamp < row.timestamp) ↔
      LastStands env.settings.max_clock_skew_seconds received_at early last :=
    stored_last (fun d hd => (List.pairwise_append.mp hpairs).2.2 d hd last (by simp))
      (hearly.imp fun _ _ h => holds_of_stored_row h.1) (holds_of_stored_row hrow)
  refine ⟨earlier, row, hsplit, hrow, hstands, fun hstand settings db_now telemetry hhistory hmem
    hwindow hothers => ?_⟩
  have hlastid : last.robot_id = robot_id := by
    have hmem : last ∈ data.filter fun d => d.robot_id = robot_id := by simp [hlast]
    simpa using (List.mem_filter.mp hmem).2
  refine latest_of_newest hhistory hmem hwindow (hrobot.trans hlastid) fun other hother hid => ?_
  rcases hothers other hother hid with heq | hin | hlt
  · exact Or.inl heq
  · exact Or.inr (hstands.mpr hstand other hin)
  · exact Or.inr hlt

def naive (wall : Nat) (hwall : wall < wallLimit) : Datetime := ⟨wall, none, hwall, nofun⟩

-- Received at noon from a device that is fast by five minutes, and by a second more.
theorem clamped_below : ¬ ∀ (max_clock_skew_seconds : Int) (received_at : Utc) (r₁ r₂ : Datetime)
    (t₁ t₂ : Utc), resolve_timestamp max_clock_skew_seconds (some r₁) received_at = some t₁ →
    resolve_timestamp max_clock_skew_seconds (some r₂) received_at = some t₂ →
    r₁.instant ≤ r₂.instant → t₁.wall ≤ t₂.wall := by
  intro horder
  have hle := horder 300 noon (naive 43500000000 (by decide)) (naive 43501000000 (by decide))
    ⟨43500000000, by decide⟩ noon (by decide) (by decide) (by decide)
  exact absurd hle (by decide)

def inlineEnv : Env := ⟨{ Telemetry.defaults with opt_redis_buffer := false }, .values, fun _ => ""⟩

-- A minute before noon, and ten past.
def earlyReading : TelemetryCreate :=
  { plainReading 7 (.finite 80) with timestamp := some (naive 43140000000 (by decide)) }

def lateReading : TelemetryCreate :=
  { plainReading 7 (.finite 79) with timestamp := some (naive 43800000000 (by decide)) }

theorem clamping_keeps_order_fast : ∃ rows row,
    stored_rows inlineEnv noon noon [earlyReading, lateReading] = some rows ∧
    stored_row inlineEnv noon noon lateReading = some row ∧
    latest defaults noon.wall rows 7 = some row := by
  obtain ⟨rows, hrows⟩ := Option.isSome_iff_exists.mp
    (show (stored_rows inlineEnv noon noon [earlyReading, lateReading]).isSome = true by decide +kernel)
  have hbefore : [earlyReading, lateReading].Pairwise Before :=
    List.pairwise_pair.mpr ⟨_, _, rfl, rfl, by decide⟩
  obtain ⟨-, hlast⟩ := (clamping_keeps_order inlineEnv noon noon).2 _ rows hbefore hrows
  obtain ⟨earlier, row, hsplit, hrow, -, hlatest⟩ := hlast 7 [earlyReading] lateReading rfl
  have hstands : LastStands 300 noon [earlyReading] lateReading := by
    refine Or.inr fun d hd r hr => ?_
    rw [List.mem_singleton.mp hd] at hr
    cases hr
    exact ⟨by decide, by decide⟩
  obtain ⟨-, t, ht, htime⟩ := holds_of_stored_row hrow
  have hnoon : t = noon := by
    have hclamped : resolve_timestamp 300 lateReading.timestamp noon = some noon := by decide
    exact Option.some.inj (ht.symm.trans hclamped)
  have hmem : row ∈ rows.filter fun row => row.robot_id.val = 7 := by simp [hsplit]
  refine ⟨rows, row, hrows, hrow, hlatest hstands defaults noon.wall rows (by decide)
    (List.mem_filter.mp hmem).1 ?_ fun other hother hrobot => ?_⟩
  · rw [in_window, htime, hnoon]
    decide
  · have hown : other ∈ rows.filter fun row => row.robot_id.val = 7 :=
      List.mem_filter.mpr ⟨hother, decide_eq_true hrobot⟩
    rw [hsplit, List.mem_append, List.mem_singleton] at hown
    rcases hown with hearlier | heq
    · exact Or.inr (Or.inl hearlier)
    · exact Or.inl heq

end Timeline

end FleetOps.Fleet
