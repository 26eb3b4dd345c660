import Mathlib.Algebra.Order.Group.Int
import FleetOps.Library.Runs

namespace FleetOps.Robot.TelemetryBatcher

open Runs

variable {α : Type*}

def MAX_BATCH : Nat := 50

-- Times are in microseconds.
def MAX_WAIT_S : Int := 1000000

-- A payload in the queue, with the time at which its robot put it there.
structure Item (α : Type*) where
  payload : α
  put_at : Int

-- What comes of one POST, and whether its request has arrived at the API: it may have where the
-- client is told otherwise. None arrives after the client has given up.
inductive Outcome where
  | ok
  -- `aiohttp.ClientError`, which a status of 400 or more raises too, or `asyncio.TimeoutError`
  | client_error (taken : Bool)
  -- any other exception
  | error (taken : Bool)
  deriving DecidableEq

def Outcome.taken : Outcome → Bool
  | .ok => true
  | .client_error taken | .error taken => taken

-- Where the coroutine stands. A post has the time of its start and what came of its attempts.
inductive Phase where
  -- in `asyncio.wait_for`, until its timeout expires
  | waiting (expires : Int)
  | posting (started : Int) (outcomes : List Outcome)
  | sleeping (started : Int) (outcomes : List Outcome) (wake : Int)
  -- `taken`: how often the API has the batch that was in hand
  | stopped (taken : Nat)

-- A call of `flush` that is over.
structure Flush (α : Type*) where
  batch : List (Item α)
  started : Int
  ended : Int
  outcomes : List Outcome

def copies (outcomes : List Outcome) : Nat := outcomes.countP Outcome.taken

-- The batcher and its queue. What the robots have put, the flushes and the requests that have
-- arrived at the API are remembered.
structure Batcher (α : Type*) where
  now : Int
  queue : List (Item α)
  batch : List (Item α)
  deadline : Option Int
  phase : Phase
  put : List (Item α)
  flushes : List (Flush α)
  received : List (List (Item α))

def Batcher.start (now : Int) : Batcher α :=
  ⟨now, [], [], none, .waiting (now + MAX_WAIT_S), [], [], []⟩

inductive Event (α : Type*) where
  | tick (microseconds : Nat)
  -- a robot's `queue.put`
  | put (payload : α)
  | get
  | timeout
  | post (outcome : Outcome)
  | retry
  -- `taken`: of a POST that is cut off, whether the API took it
  | cancel (taken : Bool)

section Model

def Batcher.timeout (s : Batcher α) : Int :=
  match s.deadline with
  | none => MAX_WAIT_S
  | some deadline => max 0 (deadline - s.now)

-- The top of the loop.
def Batcher.wait (s : Batcher α) : Batcher α := { s with phase := .waiting (s.now + s.timeout) }

def Batcher.flush (s : Batcher α) : Batcher α := { s with phase := .posting s.now [] }

-- The rest of `flush`, after its post has returned or raised.
def Batcher.clear (s : Batcher α) (started : Int) (outcomes : List Outcome) : Batcher α :=
  Batcher.wait { s with
    batch := []
    deadline := none
    flushes := s.flushes ++ [⟨s.batch, started, s.now, outcomes⟩] }

-- `0.5 * (2**attempt)`
def backoff (attempt : Nat) : Int := 500000 * 2 ^ attempt

def Batcher.take (s : Batcher α) (taken : Bool) : Batcher α :=
  { s with received := s.received ++ List.replicate taken.toNat s.batch }

-- One attempt of `post_telemetry`.
def Batcher.post_telemetry (s : Batcher α) (started : Int) (outcomes : List Outcome) (outcome : Outcome) :
    Batcher α :=
  let s := s.take outcome.taken
  match outcome with
  | .client_error _ =>
      if outcomes.length = 2 then s.clear started (outcomes ++ [outcome])
      else { s with phase := .sleeping started (outcomes ++ [outcome]) (s.now + backoff outcomes.length) }
  | .ok | .error _ => s.clear started (outcomes ++ [outcome])

-- The batcher among its robots. Its own steps take no time: the clock moves while it waits for
-- something.
def telemetry_batcher (s : Batcher α) : Event α → Option (Batcher α)
  | .tick microseconds =>
      match s.phase with
      | .waiting wake =>
          if s.queue.isEmpty ∧ s.now + microseconds ≤ wake then
            some { s with now := s.now + microseconds }
          else none
      | .sleeping _ _ wake =>
          if s.now + microseconds ≤ wake then some { s with now := s.now + microseconds } else none
      | .posting _ _ | .stopped _ => some { s with now := s.now + microseconds }
  | .put payload =>
      some { s with queue := s.queue ++ [⟨payload, s.now⟩], put := s.put ++ [⟨payload, s.now⟩] }
  | .get =>
      match s.phase, s.queue with
      | .waiting _, item :: queue =>
          let s := { s with
            queue
            batch := s.batch ++ [item]
            deadline := some (s.deadline.getD (s.now + MAX_WAIT_S)) }
          some (if MAX_BATCH ≤ s.batch.length then s.flush else s.wait)
      | _, _ => none
  | .timeout =>
      match s.phase with
      | .waiting expires =>
          if expires ≤ s.now then some (if s.batch.isEmpty then s.wait else s.flush) else none
      | _ => none
  | .post outcome =>
      match s.phase with
      | .posting started outcomes => some (s.post_telemetry started outcomes outcome)
      | _ => none
  | .retry =>
      match s.phase with
      | .sleeping started outcomes wake =>
          if wake ≤ s.now then some { s with phase := .posting started outcomes } else none
      | _ => none
  | .cancel taken =>
      match s.phase with
      | .waiting _ => some { s with phase := .stopped 0 }
      | .posting _ outcomes =>
          some { s.take taken with phase := .stopped (copies outcomes + taken.toNat) }
      | .sleeping _ outcomes _ => some { s with phase := .stopped (copies outcomes) }
      | .stopped _ => none

end Model

section Punctual

-- Since when the batcher has been free: the end of its last flush.
def free (start : Int) (flushes : List (Flush α)) : Int :=
  (flushes.getLast?.map Flush.ended).getD start

-- A flush starts with its fiftieth reading, when that was put or could be taken, or one second after
-- its first was, and so no later than that after any of them.
structure Due (free started : Int) (batch : List (Item α)) : Prop where
  size : batch.length ≤ MAX_BATCH
  first : ∃ first rest, batch = first :: rest ∧
    ((batch.length = MAX_BATCH ∧ ∃ last, batch.getLast? = some last ∧ started = max last.put_at free) ∨
      (batch.length < MAX_BATCH ∧ started = max first.put_at free + MAX_WAIT_S))
  each : ∀ item ∈ batch, item.put_at ≤ started ∧ started ≤ max item.put_at free + MAX_WAIT_S

-- Attempts after which there is another one.
def Failed (outcomes : List Outcome) : Prop :=
  outcomes.length ≤ 2 ∧ ∀ outcome ∈ outcomes, ∃ taken, outcome = .client_error taken

-- The attempts of a post that is over: it is given up after three failures of the client, or at
-- once for any other exception.
def Finished (outcomes : List Outcome) : Prop :=
  ∃ failed last, outcomes = failed ++ [last] ∧ Failed failed ∧
    ∀ taken, last = .client_error taken → failed.length = 2

structure Flush.Punctual (free : Int) (f : Flush α) : Prop where
  due : Due free f.started f.batch
  after : free ≤ f.started
  ended : f.started ≤ f.ended
  finished : Finished f.outcomes

def Flush.copies (f : Flush α) : List (List (Item α)) :=
  List.replicate (TelemetryBatcher.copies f.outcomes) f.batch

-- How often the API has the batch that is in hand.
def Phase.copies : Phase → Nat
  | .waiting _ => 0
  | .posting _ outcomes | .sleeping _ outcomes _ => TelemetryBatcher.copies outcomes
  | .stopped taken => taken

structure Waiting (start : Int) (s : Batcher α) (expires : Int) : Prop where
  now : s.now ≤ expires
  size : s.batch.length < MAX_BATCH
  prompt : ∀ item ∈ s.queue, s.now ≤ max item.put_at (free start s.flushes)
  empty : s.deadline = none → s.batch = []
  first : ∀ deadline, s.deadline = some deadline → expires = deadline ∧ ∃ first rest,
    s.batch = first :: rest ∧ deadline = max first.put_at (free start s.flushes) + MAX_WAIT_S

def Posting (start : Int) (s : Batcher α) (started : Int) (outcomes : List Outcome) : Prop :=
  Due (free start s.flushes) started s.batch ∧ free start s.flushes ≤ started ∧ started ≤ s.now ∧
    Failed outcomes

def Phase.Sound (start : Int) (s : Batcher α) : Phase → Prop
  | .waiting expires => Waiting start s expires
  | .posting started outcomes | .sleeping started outcomes _ => Posting start s started outcomes
  | .stopped taken => taken ≤ 3

structure Inv (start : Int) (s : Batcher α) : Prop where
  order : s.put = s.flushes.flatMap Flush.batch ++ (s.batch ++ s.queue)
  sorted : s.put.Pairwise fun a b => a.put_at ≤ b.put_at
  stamped : ∀ item ∈ s.put, item.put_at ≤ s.now
  since : free start s.flushes ≤ s.now
  flushes : ∀ before f after, s.flushes = before ++ f :: after → f.Punctual (free start before)
  received : s.received = s.flushes.flatMap Flush.copies ++ List.replicate s.phase.copies s.batch
  phase : s.phase.Sound start s

end Punctual

section Steps

variable {start : Int} {s t : Batcher α}

@[simp] theorem free_concat (flushes : List (Flush α)) (f : Flush α) :
    TelemetryBatcher.free start (flushes ++ [f]) = f.ended := by
  simp [TelemetryBatcher.free]

theorem copies_le (outcomes : List Outcome) : copies outcomes ≤ outcomes.length :=
  List.countP_le_length

@[simp] theorem copies_concat (outcomes : List Outcome) (outcome : Outcome) :
    copies (outcomes ++ [outcome]) = copies outcomes + outcome.taken.toNat := by
  cases h : outcome.taken <;> simp [copies, h]

theorem inv_start (now : Int) : Inv now (.start now : Batcher α) where
  order := rfl
  sorted := .nil
  stamped := fun _ h => absurd h List.not_mem_nil
  since := le_refl now
  flushes := fun before f after h => by simp [Batcher.start] at h
  received := rfl
  phase := by
    refine ⟨?_, Nat.zero_lt_succ _, fun _ h => absurd h List.not_mem_nil, fun _ => rfl, fun _ h => by cases h⟩
    show now ≤ now + MAX_WAIT_S
    simp only [MAX_WAIT_S]
    omega

-- What is in hand or next in the queue has its times in order, none of them still to come.
theorem Inv.stamps {taken rest : List (Item α)} (h : Inv start s)
    (hsplit : s.batch ++ s.queue = taken ++ rest) :
    taken.Pairwise (fun a b => a.put_at ≤ b.put_at) ∧ ∀ item ∈ taken, item.put_at ≤ s.now := by
  have hput : s.put = s.flushes.flatMap Flush.batch ++ (taken ++ rest) := by rw [h.order, hsplit]
  refine ⟨?_, fun item hitem => h.stamped item ?_⟩
  · have hsorted := (List.pairwise_append.mp (hput ▸ h.sorted)).2.1
    exact (List.pairwise_append.mp hsorted).1
  · rw [hput]
    exact List.mem_append_right _ (List.mem_append_left _ hitem)

-- What waits for its deadline is due when it is full, or by then.
theorem due_of_deadline {free now deadline : Int} {batch : List (Item α)}
    (hstamps : batch.Pairwise (fun a b => a.put_at ≤ b.put_at) ∧ ∀ item ∈ batch, item.put_at ≤ now)
    (hnow : now ≤ deadline)
    (hfirst : ∃ first rest, batch = first :: rest ∧ deadline = max first.put_at free + MAX_WAIT_S)
    (hwhen : (batch.length = MAX_BATCH ∧ ∃ last, batch.getLast? = some last ∧ now = max last.put_at free) ∨
      (batch.length < MAX_BATCH ∧ now = deadline)) : Due free now batch := by
  obtain ⟨first, rest, hbatch, hdeadline⟩ := hfirst
  refine ⟨?_, ⟨first, rest, hbatch, hwhen.imp_right fun h => ⟨h.1, h.2.trans hdeadline⟩⟩,
    fun item hitem => ?_⟩
  · rcases hwhen with ⟨hsize, -⟩ | ⟨hsize, -⟩ <;> omega
  have hfirst : first.put_at ≤ item.put_at := by
    have hsorted := hstamps.1
    rw [hbatch] at hsorted hitem
    rcases List.mem_cons.mp hitem with rfl | hrest
    · exact le_rfl
    · exact (List.pairwise_cons.mp hsorted).1 item hrest
  refine ⟨hstamps.2 item hitem, ?_⟩
  omega

-- Back at the top of the loop, the timeout is what is left up to the deadline.
theorem waiting_wait (hsize : s.batch.length < MAX_BATCH)
    (hprompt : ∀ item ∈ s.queue, s.now ≤ max item.put_at (free start s.flushes))
    (hempty : s.deadline = none → s.batch = [])
    (hfirst : ∀ deadline, s.deadline = some deadline → s.now ≤ deadline ∧ ∃ first rest,
      s.batch = first :: rest ∧ deadline = max first.put_at (free start s.flushes) + MAX_WAIT_S) :
    s.wait.phase.Sound start s.wait := by
  have htimeout : 0 ≤ s.timeout := by
    rw [Batcher.timeout]
    split
    · decide
    · exact le_max_left _ _
  refine ⟨Int.le_add_of_nonneg_right htimeout, hsize, hprompt, hempty, fun deadline hdeadline => ?_⟩
  obtain ⟨hnow, hbatch⟩ := hfirst deadline hdeadline
  refine ⟨?_, hbatch⟩
  have hd : s.deadline = some deadline := hdeadline
  rw [Batcher.timeout, hd]
  simp only
  omega

theorem tick_eq_some {n : Nat} (h : telemetry_batcher s (.tick n) = some t) :
    t = { s with now := s.now + n } ∧
      ∀ expires, s.phase = .waiting expires → s.queue = [] ∧ s.now + n ≤ expires := by
  simp only [telemetry_batcher] at h
  split at h
  · rename_i wake hs
    split at h
    · rename_i hidle
      refine ⟨(Option.some.inj h).symm, fun expires heq => ?_⟩
      obtain rfl := Phase.waiting.inj (hs.symm.trans heq)
      exact ⟨List.isEmpty_iff.mp hidle.1, hidle.2⟩
    · cases h
  · rename_i hs
    split at h
    · exact ⟨(Option.some.inj h).symm, fun _ heq => by cases hs.symm.trans heq⟩
    · cases h
  all_goals
    rename_i hs
    exact ⟨(Option.some.inj h).symm, fun _ heq => by cases hs.symm.trans heq⟩

theorem Inv.tick {n : Nat} (h : Inv start s) (hstep : telemetry_batcher s (.tick n) = some t) :
    Inv start t := by
  obtain ⟨rfl, hidle⟩ := tick_eq_some hstep
  have hlater : s.now ≤ s.now + n := Int.le_add_of_nonneg_right (Int.natCast_nonneg n)
  have hphase := h.phase
  refine ⟨h.order, h.sorted, fun item hitem => (h.stamped item hitem).trans hlater, h.since.trans hlater,
    h.flushes, h.received, ?_⟩
  show s.phase.Sound start _
  cases hs : s.phase with
  | waiting expires =>
      rw [hs] at hphase
      obtain ⟨hqueue, hexpires⟩ := hidle expires hs
      refine ⟨hexpires, hphase.size, fun item hitem => ?_, hphase.empty, hphase.first⟩
      have hmem : item ∈ s.queue := hitem
      rw [hqueue] at hmem
      exact absurd hmem List.not_mem_nil
  | posting started outcomes | sleeping started outcomes wake =>
      rw [hs] at hphase
      exact ⟨hphase.1, hphase.2.1, hphase.2.2.1.trans hlater, hphase.2.2.2⟩
  | stopped taken =>
      rw [hs] at hphase
      exact hphase

theorem Inv.put {payload : α} (h : Inv start s) (hstep : telemetry_batcher s (.put payload) = some t) :
    Inv start t := by
  cases hstep
  refine ⟨?_, ?_, ?_, h.since, h.flushes, h.received, ?_⟩
  · simp only [h.order, List.append_assoc]
  · refine List.pairwise_append.mpr ⟨h.sorted, List.pairwise_singleton _ _, fun a ha b hb => ?_⟩
    rw [List.mem_singleton.mp hb]
    exact h.stamped a ha
  · intro item hitem
    rcases List.mem_append.mp hitem with hitem | hitem
    · exact h.stamped item hitem
    · rw [List.mem_singleton.mp hitem]
  · have hphase := h.phase
    show s.phase.Sound start _
    cases hs : s.phase with
    | waiting expires =>
        rw [hs] at hphase
        refine ⟨hphase.now, hphase.size, fun item hitem => ?_, hphase.empty, hphase.first⟩
        rcases List.mem_append.mp hitem with hitem | hitem
        · exact hphase.prompt item hitem
        · rw [List.mem_singleton.mp hitem]
          exact le_max_left _ _
    | posting started outcomes | sleeping started outcomes wake | stopped taken =>
        rw [hs] at hphase
        exact hphase

-- A reading that is taken was put just now, or has waited for a flush that is just over.
theorem Inv.get (h : Inv start s) (hstep : telemetry_batcher s .get = some t) : Inv start t := by
  have hphase := h.phase
  simp only [telemetry_batcher] at hstep
  split at hstep
  · rename_i expires item queue hs hqueue
    rw [hs] at hphase
    have hstamps := h.stamps (show s.batch ++ s.queue = (s.batch ++ [item]) ++ queue by simp [hqueue])
    have hlast : s.now = max item.put_at (TelemetryBatcher.free start s.flushes) := by
      have hprompt := hphase.prompt item (by rw [hqueue]; exact List.mem_cons_self)
      have hstamped := hstamps.2 item (List.mem_append_right _ (List.mem_singleton_self item))
      have hsince := h.since
      omega
    let u : Batcher α := { s with
      queue
      batch := s.batch ++ [item]
      deadline := some (s.deadline.getD (s.now + MAX_WAIT_S)) }
    have hdue : s.now ≤ s.deadline.getD (s.now + MAX_WAIT_S) ∧ ∃ first rest, u.batch = first :: rest ∧
        s.deadline.getD (s.now + MAX_WAIT_S) =
          max first.put_at (TelemetryBatcher.free start s.flushes) + MAX_WAIT_S := by
      cases hdeadline : s.deadline with
      | none =>
          refine ⟨Int.le_add_of_nonneg_right (by decide), item, [], ?_, ?_⟩
          · show s.batch ++ [item] = [item]
            rw [hphase.empty hdeadline, List.nil_append]
          · rw [Option.getD_none, ← hlast]
      | some deadline =>
          obtain ⟨hexpires, first, rest, hbatch, heq⟩ := hphase.first deadline hdeadline
          refine ⟨hexpires ▸ hphase.now, first, rest ++ [item], ?_, heq⟩
          show s.batch ++ [item] = _
          rw [hbatch, List.cons_append]
    have hu : ∀ phase : Phase, phase.copies = 0 → phase.Sound start { u with phase } →
        Inv start { u with phase } := by
      intro phase hcopies hsound
      refine ⟨?_, h.sorted, h.stamped, h.since, h.flushes, ?_, hsound⟩
      · show s.put = _ ++ ((s.batch ++ [item]) ++ queue)
        rw [h.order, hqueue, List.append_assoc, List.singleton_append]
      · show s.received = _ ++ List.replicate phase.copies _
        rw [hcopies, h.received, hs]
        rfl
    have hlength : u.batch.length = s.batch.length + 1 := List.length_append
    have hsize := hphase.size
    split at hstep
    · rename_i hfull
      cases hstep
      have hfull' : MAX_BATCH ≤ u.batch.length := hfull
      refine hu _ rfl ⟨due_of_deadline hstamps hdue.1 hdue.2 (.inl ⟨?_, item, ?_, hlast⟩),
        h.since, le_rfl, ?_⟩
      · show u.batch.length = MAX_BATCH
        omega
      · exact List.getLast?_concat
      · exact ⟨Nat.zero_le 2, fun _ hmem => absurd hmem List.not_mem_nil⟩
    · rename_i hfull
      cases hstep
      have hfull' : ¬ MAX_BATCH ≤ u.batch.length := hfull
      refine hu _ rfl (waiting_wait (by omega) (fun item' hitem' => ?_) (fun hnone => by cases hnone)
        (fun deadline hdeadline => ?_))
      · exact hphase.prompt item' (by rw [hqueue]; exact List.mem_cons_of_mem _ hitem')
      · cases hdeadline
        exact hdue
  · cases hstep

theorem Inv.timeout (h : Inv start s) (hstep : telemetry_batcher s .timeout = some t) : Inv start t := by
  have hphase := h.phase
  have hreceived := h.received
  simp only [telemetry_batcher] at hstep
  split at hstep
  · rename_i expires hs
    rw [hs] at hphase hreceived
    split at hstep
    · rename_i hexpired
      split at hstep
      · rename_i hempty
        cases hstep
        refine ⟨h.order, h.sorted, h.stamped, h.since, h.flushes, hreceived,
          waiting_wait hphase.size hphase.prompt hphase.empty fun deadline hdeadline => ?_⟩
        obtain ⟨-, first, rest, hbatch, -⟩ := hphase.first deadline hdeadline
        rw [hbatch] at hempty
        cases hempty
      · rename_i hbatch
        cases hstep
        have hstamps := h.stamps (rfl : s.batch ++ s.queue = _)
        refine ⟨h.order, h.sorted, h.stamped, h.since, h.flushes, hreceived, ?_, h.since, le_rfl,
          Nat.zero_le 2, fun _ hmem => absurd hmem List.not_mem_nil⟩
        cases hdeadline : s.deadline with
        | none =>
            rw [hphase.empty hdeadline] at hbatch
            exact absurd rfl hbatch
        | some deadline =>
            obtain ⟨rfl, hfirst⟩ := hphase.first deadline hdeadline
            exact due_of_deadline hstamps hphase.now hfirst
              (.inr ⟨hphase.size, le_antisymm hphase.now hexpired⟩)
    · cases hstep
  · cases hstep

-- The rest of a flush keeps its batch on record.
theorem Inv.clear {started : Int} {outcomes : List Outcome} (h : Inv start s)
    (hflush : Flush.Punctual (TelemetryBatcher.free start s.flushes) ⟨s.batch, started, s.now, outcomes⟩)
    {received : List (List (Item α))}
    (hreceived : received = s.flushes.flatMap Flush.copies ++ List.replicate (copies outcomes) s.batch) :
    Inv start (Batcher.clear { s with received } started outcomes) where
  order := by
    show s.put = (s.flushes ++ [_]).flatMap Flush.batch ++ ([] ++ s.queue)
    rw [h.order]
    simp
  sorted := h.sorted
  stamped := h.stamped
  since := (free_concat _ _).le
  flushes := by
    intro before f after heq
    have hsplit : s.flushes ++ [⟨s.batch, started, s.now, outcomes⟩] = before ++ f :: after := heq
    rcases List.eq_nil_or_concat after with rfl | ⟨after, last, rfl⟩
    · obtain ⟨rfl, hf⟩ := List.append_inj' hsplit rfl
      obtain rfl := List.singleton_inj.mp hf
      exact hflush
    · rw [List.concat_eq_append, ← List.cons_append, ← List.append_assoc] at hsplit
      exact h.flushes before f after (List.append_inj' hsplit rfl).1
  received := by
    show received = (s.flushes ++ [_]).flatMap Flush.copies ++ _
    rw [hreceived]
    simp [Flush.copies, Phase.copies, Batcher.clear, Batcher.wait]
  phase := by
    refine waiting_wait (Nat.zero_lt_succ _) (fun item _ => ?_) (fun _ => rfl) fun _ h => by cases h
    show s.now ≤ max item.put_at (TelemetryBatcher.free start (s.flushes ++ [_]))
    rw [free_concat]
    exact le_max_right _ _

theorem Failed.concat {outcomes : List Outcome} (h : Failed outcomes) (hlength : outcomes.length ≠ 2)
    (taken : Bool) : Failed (outcomes ++ [.client_error taken]) := by
  refine ⟨?_, fun outcome hmem => ?_⟩
  · have := h.1
    rw [List.length_append, List.length_singleton]
    omega
  · rcases List.mem_append.mp hmem with hmem | hmem
    · exact h.2 outcome hmem
    · exact ⟨taken, List.mem_singleton.mp hmem⟩

theorem Inv.post {outcome : Outcome} (h : Inv start s)
    (hstep : telemetry_batcher s (.post outcome) = some t) : Inv start t := by
  have hphase := h.phase
  have hreceived := h.received
  simp only [telemetry_batcher] at hstep
  split at hstep
  · rename_i started outcomes hs
    cases hstep
    rw [hs] at hphase hreceived
    obtain ⟨hdue, hafter, hstarted, hfailed⟩ := hphase
    have htaken : (s.take outcome.taken).received = s.flushes.flatMap Flush.copies ++
        List.replicate (copies (outcomes ++ [outcome])) s.batch := by
      rw [copies_concat, List.replicate_add, ← List.append_assoc]
      simp only [Batcher.take, hreceived, Phase.copies]
    -- the post is over, unless another attempt follows
    have hclear (hlast : ∀ taken, outcome = .client_error taken → outcomes.length = 2) :
        Inv start ((s.take outcome.taken).clear started (outcomes ++ [outcome])) :=
      h.clear ⟨hdue, hafter, hstarted, outcomes, outcome, rfl, hfailed, hlast⟩ htaken
    cases outcome with
    | ok => exact hclear fun _ heq => by cases heq
    | error taken => exact hclear fun _ heq => by cases heq
    | client_error taken =>
        simp only [Batcher.post_telemetry]
        split
        · rename_i hlength
          exact hclear fun _ _ => hlength
        · rename_i hlength
          exact ⟨h.order, h.sorted, h.stamped, h.since, h.flushes, htaken, hdue, hafter, hstarted,
            hfailed.concat hlength taken⟩
  · cases hstep

theorem Inv.retry (h : Inv start s) (hstep : telemetry_batcher s .retry = some t) : Inv start t := by
  have hphase := h.phase
  have hreceived := h.received
  simp only [telemetry_batcher] at hstep
  split at hstep
  · rename_i started outcomes wake hs
    rw [hs] at hphase hreceived
    split at hstep
    · cases hstep
      exact ⟨h.order, h.sorted, h.stamped, h.since, h.flushes, hreceived, hphase⟩
    · cases hstep
  · cases hstep

theorem Inv.cancel {taken : Bool} (h : Inv start s)
    (hstep : telemetry_batcher s (.cancel taken) = some t) : Inv start t := by
  have hphase := h.phase
  have hreceived := h.received
  simp only [telemetry_batcher] at hstep
  split at hstep
  · rename_i expires hs
    rw [hs] at hreceived
    cases hstep
    exact ⟨h.order, h.sorted, h.stamped, h.since, h.flushes, hreceived, Nat.zero_le 3⟩
  · rename_i started outcomes hs
    rw [hs] at hphase hreceived
    cases hstep
    refine ⟨h.order, h.sorted, h.stamped, h.since, h.flushes, ?_, ?_⟩
    · simp only [Batcher.take, hreceived, Phase.copies, List.replicate_add, List.append_assoc]
    · have hcopies := copies_le outcomes
      have hfailed := hphase.2.2.2.1
      have hone : taken.toNat ≤ 1 := Bool.toNat_le taken
      show _ ≤ 3
      omega
  · rename_i started outcomes wake hs
    rw [hs] at hphase hreceived
    cases hstep
    refine ⟨h.order, h.sorted, h.stamped, h.since, h.flushes, hreceived, ?_⟩
    have hcopies := copies_le outcomes
    have hfailed := hphase.2.2.2.1
    show _ ≤ 3
    omega
  · cases hstep

theorem Inv.step {e : Event α} (h : Inv start s) (hstep : telemetry_batcher s e = some t) :
    Inv start t := by
  cases e with
  | tick n => exact h.tick hstep
  | put payload => exact h.put hstep
  | get => exact h.get hstep
  | timeout => exact h.timeout hstep
  | post outcome => exact h.post hstep
  | retry => exact h.retry hstep
  | cancel taken => exact h.cancel hstep

theorem inv_of_run {events : List (Event α)} (hrun : exec telemetry_batcher (.start start) events = some t) :
    Inv start t :=
  exec_invariant (fun _ _ _ h hstep => h.step hstep) (inv_start start) hrun

end Steps

section Results

variable {start : Int} {t : Batcher α} {events : List (Event α)}

theorem Finished.length_le {outcomes : List Outcome} (h : Finished outcomes) : outcomes.length ≤ 3 := by
  obtain ⟨failed, last, rfl, hfailed, -⟩ := h
  have := hfailed.1
  rw [List.length_append, List.length_singleton]
  omega

-- A flush without a copy at the API ended with an error: the third of the client, or another one.
theorem Finished.lost {outcomes : List Outcome} (h : Finished outcomes) (hcopies : copies outcomes = 0) :
    outcomes = List.replicate 3 (.client_error false) ∨ outcomes.getLast? = some (.error false) := by
  obtain ⟨failed, last, rfl, ⟨-, hfailed⟩, hlast⟩ := h
  have htaken : ∀ outcome ∈ failed ++ [last], outcome.taken = false := fun outcome hmem => by
    simpa using List.countP_eq_zero.mp hcopies outcome hmem
  have hown := htaken last (by simp)
  cases last with
  | ok => cases hown
  | error taken =>
      obtain rfl : taken = false := hown
      exact .inr (by simp)
  | client_error taken =>
      obtain rfl : taken = false := hown
      refine .inl (List.eq_replicate_iff.mpr ⟨?_, fun outcome hmem => ?_⟩)
      · rw [List.length_append, hlast false rfl, List.length_singleton]
      · rcases List.mem_append.mp hmem with hearlier | hmem
        · obtain ⟨taken, rfl⟩ := hfailed outcome hearlier
          obtain rfl : taken = false := htaken _ (List.mem_append_left _ hearlier)
          rfl
        · exact List.mem_singleton.mp hmem

theorem Inv.phase_copies_le (h : Inv start t) : t.phase.copies ≤ 3 := by
  have hphase := h.phase
  cases hs : t.phase with
  | waiting expires => exact Nat.zero_le 3
  | posting started outcomes | sleeping started outcomes wake =>
      rw [hs] at hphase
      have hcopies := copies_le outcomes
      have hfailed := hphase.2.2.2.1
      show copies outcomes ≤ 3
      omega
  | stopped taken =>
      rw [hs] at hphase
      exact hphase

-- Whatever the robots, the API and the clock do: what was put is in the flushes, in hand and in the
-- queue, once and in order. At the API have arrived the flushes' batches in their order, each up to
-- three times and nothing else; none of a batch only where all three attempts failed before one
-- arrived, or some other exception ended them.
theorem readings_accounted (hrun : exec telemetry_batcher (.start start) events = some t) :
    t.put = t.flushes.flatMap Flush.batch ++ (t.batch ++ t.queue) ∧
    (∃ held ≤ 3, t.received = t.flushes.flatMap Flush.copies ++ List.replicate held t.batch) ∧
    ∀ f ∈ t.flushes, f.copies.length ≤ 3 ∧ (f.copies = [] →
      f.outcomes = List.replicate 3 (.client_error false) ∨ f.outcomes.getLast? = some (.error false)) := by
  have hinv := inv_of_run hrun
  refine ⟨hinv.order, ⟨_, hinv.phase_copies_le, hinv.received⟩, fun f hf => ?_⟩
  obtain ⟨before, after, hsplit⟩ := List.append_of_mem hf
  have hfinished := (hinv.flushes before f after hsplit).finished
  have hcopies := copies_le f.outcomes
  have hlength := hfinished.length_le
  rw [Flush.copies, List.length_replicate, List.replicate_eq_nil_iff]
  exact ⟨by omega, fun h => hfinished.lost h⟩

-- Flushes do not overlap. Each starts when its fiftieth reading was put or the batcher was free,
-- whichever is later, or one second after that of its first one, with fewer; so no reading waits longer for
-- its flush, however many others arrive meanwhile. While the batcher waits, none is overdue.
theorem flushes_punctual (hrun : exec telemetry_batcher (.start start) events = some t) :
    (∀ before f after, t.flushes = before ++ f :: after → f.Punctual (free start before)) ∧
    ∀ expires, t.phase = .waiting expires →
      (∀ item ∈ t.batch, t.now ≤ max item.put_at (free start t.flushes) + MAX_WAIT_S) ∧
      ∀ item ∈ t.queue, t.now ≤ max item.put_at (free start t.flushes) := by
  have hinv := inv_of_run hrun
  refine ⟨hinv.flushes, fun expires hs => ?_⟩
  have hphase := hinv.phase
  rw [hs] at hphase
  refine ⟨fun item hitem => ?_, hphase.prompt⟩
  cases hdeadline : t.deadline with
  | none =>
      rw [hphase.empty hdeadline] at hitem
      exact absurd hitem List.not_mem_nil
  | some deadline =>
      obtain ⟨rfl, hfirst⟩ := hphase.first deadline hdeadline
      -- were it to flush at its deadline, it would be due
      have hstamps := hinv.stamps (rfl : t.batch ++ t.queue = _)
      have hdue := due_of_deadline ⟨hstamps.1, fun item h => (hstamps.2 item h).trans hphase.now⟩
        le_rfl hfirst (.inr ⟨hphase.size, rfl⟩)
      exact hphase.now.trans (hdue.each item hitem).2

-- Two readings; the API takes the first POST, but the answer is lost on its way.
def lostAnswer : List (Event Nat) :=
  [.put 7, .get, .tick 400000, .put 8, .get, .tick 600000, .timeout, .tick 3000000,
    .post (.client_error true), .tick 500000, .retry, .tick 20000, .post .ok]

theorem lostAnswer_run : ∃ t, exec telemetry_batcher (.start 0) lostAnswer = some t ∧
    t.received = List.replicate 2 [⟨7, 0⟩, ⟨8, 400000⟩] ∧ t.flushes.map Flush.started = [1000000] :=
  ⟨_, rfl, rfl, rfl⟩

theorem readings_accounted_twice : ∃ t, exec telemetry_batcher (.start 0) lostAnswer = some t ∧
    t.received.length = 2 ∧ t.put = t.flushes.flatMap Flush.batch ++ (t.batch ++ t.queue) := by
  obtain ⟨t, hrun, hreceived, -⟩ := lostAnswer_run
  exact ⟨t, hrun, by rw [hreceived, List.length_replicate], (readings_accounted hrun).1⟩

theorem flushes_punctual_first : ∃ t, exec telemetry_batcher (.start 0) lostAnswer = some t ∧
    t.flushes.map Flush.started = [1000000] ∧
    ∀ before f after, t.flushes = before ++ f :: after → f.Punctual (free 0 before) := by
  obtain ⟨t, hrun, -, hstarted⟩ := lostAnswer_run
  exact ⟨t, hrun, hstarted, (flushes_punctual hrun).1⟩

end Results

end FleetOps.Robot.TelemetryBatcher
