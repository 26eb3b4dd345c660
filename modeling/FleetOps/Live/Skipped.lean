import FleetOps.Library.LossyQueue
import FleetOps.Live.Listener

namespace FleetOps.Live

open Runs LossyQueue
open Command (StreamName)

variable {orjson : Orjson}

section Definitions

-- The messages that decode, in order.
def decoded (entries : List (Option orjson.Text)) : List Json :=
  entries.filterMap fun payload => payload.bind orjson.loads

namespace Listener

variable (t : Listener orjson) (stream : StreamName)

-- The entries added since the first XREAD started.
def added : List (Option orjson.Text) :=
  match t.first with
  | none => []
  | some first => (t.streams stream).drop (first stream)

-- Where the XREAD in progress reads, or the next one would.
def position : Nat :=
  match t.phase with
  | .between => t.next stream
  | .reading start => start stream

def ahead : List (Option orjson.Text) := (t.streams stream).drop (t.position stream)

def behind : List (Option orjson.Text) :=
  match t.first with
  | none => []
  | some first => ((t.streams stream).take (t.position stream)).drop (first stream)

def fanned : List Json := (t.fanned_out.filter (fun p => p.1 = stream)).map Prod.snd

-- What was added and decodes has been fanned out, once and in order, or is still ahead
-- of the listener.
def NoneSkipped : Prop :=
  ∀ stream, decoded (t.added stream) = t.fanned stream ++ decoded (t.ahead stream)

-- The messages a step puts behind the listener without fanning them out: while a stream's
-- cursor is "$", an entry that no XREAD in progress returns is passed over by the next.
def gap : Label orjson → List Json
  | .xadd s payload =>
      match t.first, t.phase, t.last_ids stream with
      | some _, .between, .new => if s = stream then decoded [payload] else []
      | _, _, _ => []
  | .reply included =>
      match t.phase, t.last_ids stream with
      | .reading start, .new => if included stream then [] else decoded (t.waiting start stream)
      | _, _ => []
  | .error =>
      match t.phase, t.last_ids stream with
      | .reading start, .new => decoded (t.waiting start stream)
      | _, _ => []
  | _ => []

def Kept (l : Label orjson) : Prop := ∀ stream, t.gap stream l = []

end Listener

end Definitions

namespace Listener

variable {t : Listener orjson} {stream : StreamName}

section Replies

theorem decoded_append (xs ys : List (Option orjson.Text)) :
    decoded (xs ++ ys) = decoded xs ++ decoded ys :=
  List.filterMap_append

theorem handle_self (t : Listener orjson) (stream : StreamName) (payload : Option orjson.Text)
    (id : Nat) :
    (t.handle stream (payload, id)).last_ids stream = .after id ∧
      (t.handle stream (payload, id)).fanned stream = t.fanned stream ++ decoded [payload] := by
  refine ⟨Function.update_self _ _ _, ?_⟩
  cases h : payload.bind orjson.loads <;> simp [handle, fanned, decoded, h]

theorem handle_other (t : Listener orjson) {s : StreamName} (hs : s ≠ stream)
    (message : Option orjson.Text × Nat) :
    (t.handle s message).last_ids stream = t.last_ids stream ∧
      (t.handle s message).fanned stream = t.fanned stream := by
  refine ⟨Function.update_of_ne hs.symm _ _, ?_⟩
  cases h : message.1.bind orjson.loads <;> simp [handle, fanned, h, hs]

theorem foldl_handle_frame (s : StreamName) (messages : List (Option orjson.Text × Nat))
    (t : Listener orjson) :
    (messages.foldl (handle s) t).streams = t.streams ∧
      (messages.foldl (handle s) t).first = t.first := by
  induction messages generalizing t with
  | nil => exact ⟨rfl, rfl⟩
  | cons message messages ih => exact ih (t.handle s message)

-- The cursor ends at the last message.
theorem foldl_handle_self (entries : List (Option orjson.Text)) (start : Nat)
    (t : Listener orjson) :
    ((entries.zipIdx start).foldl (handle stream) t).last_ids stream =
        (if entries = [] then t.last_ids stream else .after (start + entries.length - 1)) ∧
      ((entries.zipIdx start).foldl (handle stream) t).fanned stream =
        t.fanned stream ++ decoded entries := by
  induction entries generalizing start t with
  | nil => simp [decoded]
  | cons payload entries ih =>
      obtain ⟨hcursor, hfanned⟩ := ih (start + 1) (t.handle stream (payload, start))
      obtain ⟨hcursor', hfanned'⟩ := handle_self t stream payload start
      rw [List.zipIdx_cons, List.foldl_cons, hcursor, hfanned, hcursor', hfanned',
        List.append_assoc, ← decoded_append]
      refine ⟨?_, rfl⟩
      rw [if_neg (List.cons_ne_nil _ _), List.length_cons]
      cases entries with
      | nil => simp
      | cons next entries =>
          simp only [List.cons_ne_nil, if_false, List.length_cons, Cursor.after.injEq]
          omega

theorem foldl_handle_other {s : StreamName} (hs : s ≠ stream)
    (messages : List (Option orjson.Text × Nat)) (t : Listener orjson) :
    (messages.foldl (handle s) t).last_ids stream = t.last_ids stream ∧
      (messages.foldl (handle s) t).fanned stream = t.fanned stream := by
  induction messages generalizing t with
  | nil => exact ⟨rfl, rfl⟩
  | cons message messages ih =>
      obtain ⟨hcursor, hfanned⟩ := ih (t.handle s message)
      obtain ⟨hcursor', hfanned'⟩ := t.handle_other hs message
      exact ⟨hcursor.trans hcursor', hfanned.trans hfanned'⟩

theorem serve_frame (start : StreamName → Nat) (included : StreamName → Bool)
    (t : Listener orjson) (s : StreamName) :
    (t.serve start included s).streams = t.streams ∧
      (t.serve start included s).first = t.first := by
  unfold serve
  split
  · exact foldl_handle_frame s _ t
  · exact ⟨rfl, rfl⟩

theorem serve_other {start : StreamName → Nat} {included : StreamName → Bool}
    (t : Listener orjson) {s : StreamName} (hs : s ≠ stream) :
    (t.serve start included s).last_ids stream = t.last_ids stream ∧
      (t.serve start included s).fanned stream = t.fanned stream := by
  unfold serve
  split
  · exact foldl_handle_other hs _ t
  · exact ⟨rfl, rfl⟩

-- The part of a reply that is the stream's.
def taken (t : Listener orjson) (start : StreamName → Nat) (included : StreamName → Bool)
    (stream : StreamName) : List (Option orjson.Text) :=
  if included stream then (t.waiting start stream).take count else []

theorem serve_self (start : StreamName → Nat) (included : StreamName → Bool)
    (t : Listener orjson) (stream : StreamName) :
    (t.serve start included stream).last_ids stream =
        (if t.taken start included stream = [] then t.last_ids stream
          else .after (start stream + (t.taken start included stream).length - 1)) ∧
      (t.serve start included stream).fanned stream =
        t.fanned stream ++ decoded (t.taken start included stream) := by
  unfold serve taken
  split
  · exact foldl_handle_self _ _ t
  · simp [decoded]

-- A reply is to each stream what its own part of it is.
theorem answer_spec (start : StreamName → Nat) (included : StreamName → Bool)
    (t : Listener orjson) (stream : StreamName) :
    (t.answer start included).last_ids stream =
        (if t.taken start included stream = [] then t.last_ids stream
          else .after (start stream + (t.taken start included stream).length - 1)) ∧
      (t.answer start included).fanned stream =
        t.fanned stream ++ decoded (t.taken start included stream) := by
  obtain ⟨hstreams, _⟩ := t.serve_frame start included .telemetry_stream
  cases stream with
  | telemetry_stream =>
      obtain ⟨hcursor, hfanned⟩ := t.serve_self start included .telemetry_stream
      obtain ⟨hcursor', hfanned'⟩ := (t.serve start included .telemetry_stream).serve_other
        (show StreamName.event_stream ≠ .telemetry_stream by decide)
      exact ⟨hcursor'.trans hcursor, hfanned'.trans hfanned⟩
  | event_stream =>
      have hother : StreamName.telemetry_stream ≠ .event_stream := by decide
      obtain ⟨hcursor, hfanned⟩ :
          (t.serve start included .telemetry_stream).last_ids .event_stream = t.last_ids .event_stream ∧
            (t.serve start included .telemetry_stream).fanned .event_stream = t.fanned .event_stream :=
        t.serve_other hother
      obtain ⟨hcursor', hfanned'⟩ :=
        (t.serve start included .telemetry_stream).serve_self start included .event_stream
      have htaken : (t.serve start included .telemetry_stream).taken start included .event_stream =
          t.taken start included .event_stream := by
        simp only [taken, waiting, hstreams]
      rw [htaken, hcursor] at hcursor'
      rw [htaken, hfanned] at hfanned'
      exact ⟨hcursor', hfanned'⟩

theorem answer_frame (start : StreamName → Nat) (included : StreamName → Bool)
    (t : Listener orjson) :
    (t.answer start included).streams = t.streams ∧
      (t.answer start included).first = t.first := by
  obtain ⟨hstreams, hfirst⟩ := t.serve_frame start included .telemetry_stream
  obtain ⟨hstreams', hfirst'⟩ :=
    (t.serve start included .telemetry_stream).serve_frame start included .event_stream
  exact ⟨hstreams'.trans hstreams, hfirst'.trans hfirst⟩

end Replies

section Accounts

-- Where the cursor stands with regard to the entries.
structure Sound (t : Listener orjson) : Prop where
  start : t.first = none → t.phase = .between ∧ t.fanned_out = [] ∧ ∀ stream, t.last_ids stream = .new
  first : ∀ first, t.first = some first → ∀ stream, first stream ≤ t.position stream
  cursor : ∀ stream id, t.last_ids stream = .after id → id < (t.streams stream).length
  reading : ∀ start, t.phase = .reading start → ∀ stream,
    start stream ≤ (t.streams stream).length ∧
      ∀ id, t.last_ids stream = .after id → start stream = id + 1

theorem sound_init (streams : StreamName → List (Option orjson.Text)) :
    (Listener.init streams).Sound where
  start := fun _ => ⟨rfl, rfl, fun _ => rfl⟩
  first := fun _ h => nomatch h
  cursor := fun _ _ h => nomatch h
  reading := fun _ h => nomatch h

theorem Sound.position_le (ht : t.Sound) (stream : StreamName) :
    t.position stream ≤ (t.streams stream).length := by
  cases hphase : t.phase with
  | reading start =>
      rw [position, hphase]
      exact (ht.reading start hphase stream).1
  | between =>
      rw [position, hphase, Listener.next]
      cases hcursor : t.last_ids stream with
      | new => exact le_refl _
      | after id => exact ht.cursor stream id hcursor

-- The messages behind the listener have been fanned out, but for the skipped ones.
def Account (t : Listener orjson) (stream : StreamName) (skipped : List Json) : Prop :=
  Merge (t.fanned stream) skipped (decoded (t.behind stream))

theorem Sound.added_eq (ht : t.Sound) (stream : StreamName) :
    decoded (t.added stream) = decoded (t.behind stream) ++
      (if t.first = none then [] else decoded (t.ahead stream)) := by
  cases hfirst : t.first with
  | none => simp [added, behind, hfirst, decoded]
  | some first =>
      have hle := ht.first first hfirst stream
      have hpos := ht.position_le stream
      simp only [added, behind, ahead, hfirst, reduceCtorEq, if_false, ← decoded_append]
      congr 1
      conv => lhs; rw [← List.take_append_drop (t.position stream) (t.streams stream)]
      rw [List.drop_append_of_le_length (by rw [List.length_take]; omega)]

-- Nothing is skipped exactly if the account has no such message.
theorem Sound.noneSkipped_iff (ht : t.Sound) {skipped : StreamName → List Json}
    (haccount : ∀ stream, t.Account stream (skipped stream)) :
    t.NoneSkipped ↔ ∀ stream, skipped stream = [] := by
  refine forall_congr' fun stream => ?_
  rw [ht.added_eq stream, ← (haccount stream).eq_iff]
  cases hfirst : t.first with
  | none =>
      obtain ⟨hphase, hfanned, hcursor⟩ := ht.start hfirst
      simp [behind, ahead, fanned, position, Listener.next, Cursor.start, hfirst, hphase, hfanned,
        hcursor, decoded]
  | some first =>
      simp only [reduceCtorEq, if_false]
      rw [List.append_left_inj]
      exact eq_comm

end Accounts

section Steps

variable {t' : Listener orjson} {l : Label orjson}

-- What a step can do.
theorem step_cases (hstep : step t l = some t') :
    (∃ s payload, l = .xadd s payload ∧ t' = t.xadd s payload) ∨
    (l = .xread ∧ t.phase = .between ∧ t' = t.xread) ∨
    (∃ included start, l = .reply included ∧ t.phase = .reading start ∧
      (∃ stream, included stream = true ∧ t.waiting start stream ≠ []) ∧
      t' = (t.answer start included).leave) ∨
    (∃ start, l = .timeout ∧ t.phase = .reading start ∧ (∀ stream, t.waiting start stream = []) ∧
      t' = t.leave) ∨
    (∃ start, l = .error ∧ t.phase = .reading start ∧ t' = t.leave) := by
  cases l with
  | xadd s payload => exact Or.inl ⟨s, payload, rfl, (Option.some.inj hstep).symm⟩
  | xread =>
      simp only [step] at hstep
      split at hstep
      · rename_i hphase
        exact Or.inr (Or.inl ⟨rfl, hphase, (Option.some.inj hstep).symm⟩)
      · cases hstep
  | reply included =>
      simp only [step] at hstep
      split at hstep
      · cases hstep
      · rename_i start hphase
        split at hstep
        · rename_i hany
          obtain ⟨stream, _, hincluded⟩ := List.any_eq_true.mp hany
          simp only [Bool.and_eq_true, Bool.not_eq_true', List.isEmpty_eq_false_iff] at hincluded
          exact Or.inr (Or.inr (Or.inl ⟨included, start, rfl, hphase, ⟨stream, hincluded⟩,
            (Option.some.inj hstep).symm⟩))
        · cases hstep
  | timeout =>
      simp only [step] at hstep
      split at hstep
      · cases hstep
      · rename_i start hphase
        split at hstep
        · rename_i hall
          rw [List.all_eq_true] at hall
          refine Or.inr (Or.inr (Or.inr (Or.inl ⟨start, rfl, hphase, fun stream => ?_,
            (Option.some.inj hstep).symm⟩)))
          exact List.isEmpty_iff.mp (hall stream (by cases stream <;> simp))
        · cases hstep
  | error =>
      simp only [step] at hstep
      split at hstep
      · cases hstep
      · rename_i start hphase
        exact Or.inr (Or.inr (Or.inr (Or.inr ⟨start, rfl, hphase, (Option.some.inj hstep).symm⟩)))

theorem position_reading {start : StreamName → Nat} (h : t.phase = .reading start)
    (stream : StreamName) : t.position stream = start stream := by
  rw [position, h]

theorem position_between (h : t.phase = .between) (stream : StreamName) :
    t.position stream = t.next stream := by
  rw [position, h]

-- A "$" outside an XREAD moves with the end of its stream.
def exposed (t : Listener orjson) (stream : StreamName) : Bool :=
  match t.phase, t.last_ids stream with
  | .between, .new => true
  | _, _ => false

theorem position_xadd_self (t : Listener orjson) (s : StreamName) (payload : Option orjson.Text) :
    (t.xadd s payload).position s = t.position s + (t.exposed s).toNat := by
  cases hphase : t.phase with
  | reading start => simp [xadd, exposed, position, hphase]
  | between =>
      cases hcursor : t.last_ids s <;>
        simp [xadd, exposed, position, Listener.next, hphase, hcursor, Cursor.start]

theorem position_xadd_other (t : Listener orjson) {s : StreamName} (hs : s ≠ stream)
    (payload : Option orjson.Text) :
    (t.xadd s payload).position stream = t.position stream := by
  cases hphase : t.phase <;>
    simp [xadd, position, Listener.next, hphase, Function.update_of_ne hs.symm]

theorem position_xread (h : t.phase = .between) (stream : StreamName) :
    t.xread.position stream = t.position stream := by
  rw [position_between h]
  rfl

-- An XREAD that ends with the stream's cursor as it was: from "$" the listener goes on
-- past all that was waiting.
theorem Sound.position_leave (ht : t.Sound) {start : StreamName → Nat}
    (hphase : t.phase = .reading start) (stream : StreamName) :
    t.leave.position stream = t.position stream +
      (if t.last_ids stream = .new then (t.waiting start stream).length else 0) := by
  obtain ⟨hle, hafter⟩ := ht.reading start hphase stream
  rw [position_reading hphase, position_between rfl]
  cases hcursor : t.last_ids stream with
  | new =>
      simp only [leave, Listener.next, hcursor, Cursor.start, waiting, List.length_drop, if_true]
      omega
  | after id =>
      simp only [leave, Listener.next, hcursor, Cursor.start, hafter id hcursor, reduceCtorEq,
        if_false, Nat.add_zero]

-- A reply moves the cursor of a stream whose entries it has.
theorem Sound.position_answer (ht : t.Sound) {start : StreamName → Nat}
    (hphase : t.phase = .reading start) (included : StreamName → Bool) (stream : StreamName) :
    (t.answer start included).leave.position stream = t.position stream +
      (if t.taken start included stream = [] then
        if t.last_ids stream = .new then (t.waiting start stream).length else 0
      else (t.taken start included stream).length) := by
  obtain ⟨hcursor, _⟩ := answer_spec start included t stream
  obtain ⟨hstreams, _⟩ := answer_frame start included t
  have hnext : (t.answer start included).leave.position stream =
      ((t.answer start included).last_ids stream).start (t.streams stream).length := by
    rw [position_between rfl, ← hstreams]
    rfl
  rw [hnext, hcursor]
  split
  · exact ht.position_leave hphase stream
  · rename_i htaken
    have hlength := List.length_pos_of_ne_nil htaken
    rw [Cursor.start, position_reading hphase]
    omega

theorem length_taken_le (start : StreamName → Nat) (included : StreamName → Bool) :
    (t.taken start included stream).length ≤ (t.waiting start stream).length := by
  unfold taken
  split
  · exact (List.take_sublist _ _).length_le
  · exact Nat.zero_le _

theorem Sound.first_isSome (ht : t.Sound) {start : StreamName → Nat}
    (hphase : t.phase = .reading start) : ∃ first, t.first = some first := by
  cases hfirst : t.first with
  | some first => exact ⟨first, rfl⟩
  | none =>
      have hbetween := (ht.start hfirst).1
      rw [hphase] at hbetween
      cases hbetween

theorem Sound.leave (ht : t.Sound) {start : StreamName → Nat} (hphase : t.phase = .reading start) :
    t.leave.Sound := by
  obtain ⟨first, hfirst⟩ := ht.first_isSome hphase
  refine ⟨fun hnone => absurd (hfirst.symm.trans hnone) (by simp), fun f hf stream => ?_,
    ht.cursor, fun _ h => nomatch h⟩
  rw [ht.position_leave hphase]
  exact (ht.first f hf stream).trans (Nat.le_add_right _ _)

theorem Sound.step (ht : t.Sound) (hstep : Listener.step t l = some t') : t'.Sound := by
  rcases step_cases hstep with ⟨s, payload, rfl, rfl⟩ | ⟨rfl, hphase, rfl⟩ |
    ⟨included, start, rfl, hphase, _, rfl⟩ | ⟨start, rfl, hphase, _, rfl⟩ | ⟨start, rfl, hphase, rfl⟩
  · have hgrows : ∀ stream, (t.streams stream).length ≤
        ((t.xadd s payload).streams stream).length := fun stream => by
      by_cases hs : stream = s
      · subst hs
        simp [xadd]
      · simp [xadd, Function.update_of_ne hs]
    refine ⟨ht.start, fun f hf stream => ?_, fun stream id hid => ?_, fun start hstart stream => ?_⟩
    · have hle := ht.first f hf stream
      by_cases hs : s = stream
      · subst hs
        rw [position_xadd_self]
        exact hle.trans (Nat.le_add_right _ _)
      · rwa [t.position_xadd_other hs]
    · exact (ht.cursor stream id hid).trans_le (hgrows stream)
    · obtain ⟨hle, hafter⟩ := ht.reading start hstart stream
      exact ⟨hle.trans (hgrows stream), hafter⟩
  · refine ⟨fun hnone => absurd hnone (by simp [xread]), fun f hf stream => ?_, ht.cursor,
      fun start hstart stream => ?_⟩
    · rw [position_xread hphase]
      cases hfirst : t.first with
      | none =>
          simp only [xread, hfirst, Option.getD_none, Option.some.injEq] at hf
          rw [← hf, position_between hphase]
      | some first =>
          simp only [xread, hfirst, Option.getD_some, Option.some.injEq] at hf
          exact hf ▸ ht.first first hfirst stream
    · cases hstart
      rw [← position_between hphase]
      refine ⟨ht.position_le stream, fun id hid => ?_⟩
      have hcursor : t.last_ids stream = .after id := hid
      rw [position_between hphase, Listener.next, hcursor, Cursor.start]
  · obtain ⟨first, hfirst⟩ := ht.first_isSome hphase
    obtain ⟨hstreams, hsame⟩ := answer_frame start included t
    refine ⟨fun hnone => absurd ((hsame.trans hfirst).symm.trans hnone) (by simp),
      fun f hf stream => ?_, fun stream id hid => ?_, fun _ h => nomatch h⟩
    · rw [ht.position_answer hphase]
      exact (ht.first f (hsame.symm.trans hf) stream).trans (Nat.le_add_right _ _)
    · have hcursor := (answer_spec start included t stream).1.symm.trans hid
      have hlength : (t.taken start included stream).length ≤ (t.waiting start stream).length :=
        length_taken_le start included
      simp only [waiting, List.length_drop] at hlength
      simp only [Listener.leave, hstreams]
      split at hcursor
      · exact ht.cursor stream id hcursor
      · rename_i htaken
        cases hcursor
        have := List.length_pos_of_ne_nil htaken
        omega
  · exact ht.leave hphase
  · exact ht.leave hphase

-- The entries that a step puts behind the listener.
theorem Sound.behind_eq (ht : t.Sound) {first : StreamName → Nat} (hfirst : t.first = some first)
    {extra : List (Option orjson.Text)} {n : Nat}
    (hposition : t'.position stream = t.position stream + n)
    (hstreams : t'.streams stream = t.streams stream ++ extra) (hsame : t'.first = t.first) :
    t'.behind stream =
      t.behind stream ++ ((t.streams stream ++ extra).drop (t.position stream)).take n := by
  have hf := ht.first first hfirst stream
  have hp := ht.position_le stream
  simp only [behind, hsame, hfirst, hstreams, hposition]
  rw [List.take_add, List.take_append_of_le_length hp,
    List.drop_append_of_le_length (by rw [List.length_take]; omega)]

-- What a step fans out and what it puts behind the listener, to the account.
theorem Account.step {skipped new past : List Json} {passed : List (Option orjson.Text)}
    (h : t.Account stream skipped) (hfanned : t'.fanned stream = t.fanned stream ++ new)
    (hbehind : t'.behind stream = t.behind stream ++ passed)
    (hcase : (new = decoded passed ∧ past = []) ∨ (new = [] ∧ past = decoded passed)) :
    t'.Account stream (skipped ++ past) := by
  rw [Account, hfanned, hbehind, decoded_append]
  rcases hcase with ⟨rfl, rfl⟩ | ⟨rfl, rfl⟩
  · rw [List.append_nil]
    exact h.append _
  · rw [List.append_nil]
    exact h.skip _

theorem Account.same {skipped : List Json} (h : t.Account stream skipped)
    (hfanned : t'.fanned stream = t.fanned stream) (hbehind : t'.behind stream = t.behind stream) :
    t'.Account stream skipped := by
  rw [Account, hfanned, hbehind]
  exact h

theorem account_xadd (ht : t.Sound) (s : StreamName) (payload : Option orjson.Text)
    {skipped : List Json} (h : t.Account stream skipped) :
    (t.xadd s payload).Account stream (skipped ++ t.gap stream (.xadd s payload)) := by
  cases hfirst : t.first with
  | none =>
      have hbehind : ∀ u : Listener orjson, u.first = none → u.behind stream = [] :=
        fun u hu => by rw [behind, hu]
      rw [gap, hfirst, List.append_nil]
      exact h.same rfl ((hbehind (t.xadd s payload) hfirst).trans (hbehind t hfirst).symm)
  | some first =>
      by_cases hs : s = stream
      · subst hs
        have hstreams : (t.xadd s payload).streams s = t.streams s ++ [payload] :=
          Function.update_self _ _ _
        have hbehind := ht.behind_eq hfirst (t.position_xadd_self s payload) hstreams rfl
        have hfanned : (t.xadd s payload).fanned s = t.fanned s ++ [] := (List.append_nil _).symm
        refine h.step hfanned hbehind (Or.inr ⟨rfl, ?_⟩)
        cases hphase : t.phase with
        | reading start => simp [gap, exposed, hfirst, hphase, decoded]
        | between =>
            cases hcursor : t.last_ids s with
            | new =>
                simp [gap, exposed, position, Listener.next, Cursor.start, hfirst, hphase, hcursor]
            | after id => simp [gap, exposed, hfirst, hphase, hcursor, decoded]
      · have hgap : t.gap stream (.xadd s payload) = [] := by
          simp only [gap, hfirst, if_neg hs]
          cases t.phase <;> cases t.last_ids stream <;> rfl
        have hstreams : (t.xadd s payload).streams stream = t.streams stream ++ [] := by
          simp [xadd, Function.update_of_ne (Ne.symm hs)]
        have hbehind := ht.behind_eq (n := 0) hfirst (t.position_xadd_other hs payload) hstreams rfl
        rw [hgap, List.append_nil]
        exact h.same rfl (by simpa using hbehind)

-- Before the first XREAD nothing is behind the listener, and nothing is as it starts.
theorem account_xread (hphase : t.phase = .between) {skipped : List Json}
    (h : t.Account stream skipped) : t.xread.Account stream skipped := by
  refine h.same rfl ?_
  cases hfirst : t.first with
  | none =>
      have hnext : t.xread.position stream = t.next stream := rfl
      simp only [behind, hnext, hfirst]
      simp [xread, hfirst]
  | some first =>
      simp only [behind, position_xread hphase, hfirst]
      simp [xread, hfirst]

-- What was waiting for a stream whose cursor is "$" is skipped by an XREAD that ends
-- without it.
theorem account_leave (ht : t.Sound) {start : StreamName → Nat} (hphase : t.phase = .reading start)
    {skipped : List Json} (h : t.Account stream skipped) :
    t.leave.Account stream
      (skipped ++ if t.last_ids stream = .new then decoded (t.waiting start stream) else []) := by
  obtain ⟨first, hfirst⟩ := ht.first_isSome hphase
  have hbehind := ht.behind_eq hfirst (ht.position_leave hphase stream) (List.append_nil _).symm rfl
  have hfanned : t.leave.fanned stream = t.fanned stream ++ [] := (List.append_nil _).symm
  refine h.step hfanned hbehind (Or.inr ⟨rfl, ?_⟩)
  rw [List.append_nil, position_reading hphase, ← waiting]
  split
  · rw [List.take_length]
  · rfl

theorem account_answer (ht : t.Sound) {start : StreamName → Nat}
    (hphase : t.phase = .reading start) (included : StreamName → Bool) {skipped : List Json}
    (h : t.Account stream skipped) :
    (t.answer start included).leave.Account stream (skipped ++ t.gap stream (.reply included)) := by
  obtain ⟨first, hfirst⟩ := ht.first_isSome hphase
  obtain ⟨hstreams, hsame⟩ := answer_frame start included t
  have hfanned : (t.answer start included).leave.fanned stream = _ :=
    (answer_spec start included t stream).2
  have hbehind := ht.behind_eq hfirst (ht.position_answer hphase included stream)
    ((congrFun hstreams stream).trans (List.append_nil _).symm) hsame
  rw [List.append_nil, position_reading hphase, ← waiting] at hbehind
  refine h.step hfanned hbehind ?_
  by_cases hincluded : included stream = true
  · -- The stream's part of the reply is the first of what was waiting.
    have htaken : t.taken start included stream = (t.waiting start stream).take count := by
      rw [taken, if_pos hincluded]
    refine Or.inl ⟨?_, ?_⟩
    · rw [htaken]
      split
      · rename_i hnil
        have hnone : t.waiting start stream = [] := by
          rcases List.take_eq_nil_iff.mp hnil with hzero | hnone
          · cases hzero
          · exact hnone
        simp [hnone]
      · rw [List.length_take, ← List.take_eq_take_min]
    · simp only [gap, hphase, hincluded, if_true]
      cases t.last_ids stream <;> rfl
  · have htaken : t.taken start included stream = [] := by rw [taken, if_neg hincluded]
    refine Or.inr ⟨by rw [htaken]; rfl, ?_⟩
    rw [if_pos htaken]
    simp only [gap, hphase, if_neg hincluded]
    cases t.last_ids stream with
    | new => simp
    | after id => simp [decoded]

theorem account_step (ht : t.Sound) (hstep : Listener.step t l = some t') {skipped : List Json}
    (h : t.Account stream skipped) : t'.Account stream (skipped ++ t.gap stream l) := by
  rcases step_cases hstep with ⟨s, payload, rfl, rfl⟩ | ⟨rfl, hphase, rfl⟩ |
    ⟨included, start, rfl, hphase, _, rfl⟩ | ⟨start, rfl, hphase, hnone, rfl⟩ |
    ⟨start, rfl, hphase, rfl⟩
  · exact account_xadd ht s payload h
  · have hgap : t.gap stream .xread = [] := rfl
    rw [hgap, List.append_nil]
    exact account_xread hphase h
  · exact account_answer ht hphase included h
  · have hleft := account_leave ht hphase h
    rw [hnone stream] at hleft
    simpa [gap, decoded] using hleft
  · have hleft := account_leave ht hphase h
    have hgap : t.gap stream .error =
        if t.last_ids stream = .new then decoded (t.waiting start stream) else [] := by
      simp only [gap, hphase]
      cases t.last_ids stream <;> simp
    rw [hgap]
    exact hleft

end Steps

section Runs

variable {t u : Listener orjson} {ls : List (Label orjson)}

theorem Sound.run (ht : t.Sound) (hrun : exec Listener.step t ls = some u) : u.Sound :=
  exec_invariant (I := Sound) (fun _ _ _ ht hstep => ht.step hstep) ht hrun

-- Over a run the account grows by the gaps of its steps.
theorem account_run (ht : t.Sound) (hrun : exec Listener.step t ls = some u)
    {skipped : StreamName → List Json} (h : ∀ stream, t.Account stream (skipped stream)) :
    ∃ gaps : StreamName → List Json, (∀ stream, u.Account stream (skipped stream ++ gaps stream)) ∧
      ((∀ stream, gaps stream = []) ↔ Along Listener.step Kept t ls) := by
  induction ls generalizing t skipped with
  | nil =>
      cases hrun
      exact ⟨fun _ => [], by simpa using h, by simp [Along]⟩
  | cons l ls ih =>
      obtain ⟨v, hl, hls⟩ := (exec_cons_iff t u l ls).mp hrun
      obtain ⟨gaps, haccount, hiff⟩ := ih (ht.step hl) hls fun stream => account_step ht hl (h stream)
      refine ⟨fun stream => t.gap stream l ++ gaps stream, fun stream => ?_, ?_⟩
      · rw [← List.append_assoc]
        exact haccount stream
      · simp only [List.append_eq_nil_iff, forall_and, hiff, Along]
        refine and_congr_right fun _ => ⟨fun halong w hw => ?_, fun halong => halong v hl⟩
        rw [hl] at hw
        cases hw
        exact halong

theorem Sound.noneSkipped_run (ht : t.Sound) (hrun : exec Listener.step t ls = some u)
    (hnone : t.NoneSkipped) (haccount : ∀ stream, ∃ skipped, t.Account stream skipped) :
    u.NoneSkipped ↔ Along Listener.step Kept t ls := by
  choose skipped haccount using haccount
  have hnil := (ht.noneSkipped_iff haccount).mp hnone
  obtain ⟨gaps, hgaps, hiff⟩ := account_run ht hrun haccount
  rw [(ht.run hrun).noneSkipped_iff hgaps, ← hiff]
  simp [hnil]

theorem account_init (streams : StreamName → List (Option orjson.Text)) (stream : StreamName) :
    (Listener.init streams).Account stream [] := Merge.nil

theorem noneSkipped_init (streams : StreamName → List (Option orjson.Text)) :
    (Listener.init streams).NoneSkipped :=
  ((sound_init streams).noneSkipped_iff (account_init streams)).mpr fun _ => rfl

end Runs

section Progress

variable {t t' u : Listener orjson} {stream : StreamName} {l : Label orjson} {ls : List (Label orjson)}

-- An XREAD returns with regard to the stream: with entries of it, or with none.
def Label.answers (stream : StreamName) : Label orjson → Bool
  | .reply included => included stream
  | .timeout => true
  | _ => false

-- Streams only grow, and the first XREAD is the first.
theorem frame_step (hstep : Listener.step t l = some t') (stream : StreamName) :
    t.streams stream <+: t'.streams stream ∧ ∀ first, t.first = some first → t'.first = some first := by
  rcases step_cases hstep with ⟨s, payload, rfl, rfl⟩ | ⟨rfl, hphase, rfl⟩ |
    ⟨included, start, rfl, hphase, _, rfl⟩ | ⟨start, rfl, hphase, hnone, rfl⟩ |
    ⟨start, rfl, hphase, rfl⟩
  · refine ⟨?_, fun first hfirst => hfirst⟩
    by_cases hs : stream = s
    · subst hs
      simp [xadd]
    · simp [xadd, Function.update_of_ne hs]
  · exact ⟨List.prefix_refl _, fun first hfirst => by simp [xread, hfirst]⟩
  · obtain ⟨hstreams, hsame⟩ := answer_frame start included t
    exact ⟨(congrFun hstreams stream) ▸ List.prefix_refl _, fun first hfirst => hsame.trans hfirst⟩
  · exact ⟨List.prefix_refl _, fun first hfirst => hfirst⟩
  · exact ⟨List.prefix_refl _, fun first hfirst => hfirst⟩

-- The listener never goes back, and goes on with each answer while there is something ahead.
theorem position_step (ht : t.Sound) (hstep : Listener.step t l = some t') (stream : StreamName) :
    t.position stream ≤ t'.position stream ∧
      (l.answers stream = true → t.position stream < (t.streams stream).length →
        t.position stream < t'.position stream) := by
  rcases step_cases hstep with ⟨s, payload, rfl, rfl⟩ | ⟨rfl, hphase, rfl⟩ |
    ⟨included, start, rfl, hphase, _, rfl⟩ | ⟨start, rfl, hphase, hnone, rfl⟩ |
    ⟨start, rfl, hphase, rfl⟩
  · refine ⟨?_, fun h => nomatch h⟩
    by_cases hs : s = stream
    · subst hs
      rw [position_xadd_self]
      exact Nat.le_add_right _ _
    · rw [t.position_xadd_other hs]
  · exact ⟨(position_xread hphase stream).ge, fun h => nomatch h⟩
  · rw [ht.position_answer hphase]
    refine ⟨Nat.le_add_right _ _, fun hincluded hlt => ?_⟩
    rw [position_reading hphase] at hlt
    have hpart : included stream = true := hincluded
    have htaken : t.taken start included stream ≠ [] := by
      rw [taken, if_pos hpart]
      intro hnil
      rcases List.take_eq_nil_iff.mp hnil with hzero | hnone
      · cases hzero
      · have hlength := congrArg List.length hnone
        simp only [waiting, List.length_drop, List.length_nil] at hlength
        omega
    rw [if_neg htaken]
    have := List.length_pos_of_ne_nil htaken
    omega
  · rw [ht.position_leave hphase]
    refine ⟨Nat.le_add_right _ _, fun _ hlt => ?_⟩
    have hlength := congrArg List.length (hnone stream)
    rw [position_reading hphase] at hlt
    simp only [waiting, List.length_drop, List.length_nil] at hlength
    omega
  · rw [ht.position_leave hphase]
    exact ⟨Nat.le_add_right _ _, fun h => nomatch h⟩

theorem frame_run (hrun : exec Listener.step t ls = some u) (stream : StreamName) :
    t.streams stream <+: u.streams stream ∧ ∀ first, t.first = some first → u.first = some first := by
  induction ls generalizing t with
  | nil =>
      cases hrun
      exact ⟨List.prefix_refl _, fun _ h => h⟩
  | cons l ls ih =>
      obtain ⟨v, hl, hls⟩ := (exec_cons_iff t u l ls).mp hrun
      obtain ⟨hgrows, hfirst⟩ := frame_step hl stream
      obtain ⟨hgrows', hfirst'⟩ := ih hls
      exact ⟨hgrows.trans hgrows', fun first h => hfirst' first (hfirst first h)⟩

-- As many answers as there are entries ahead bring the listener past them.
theorem position_run (ht : t.Sound) (hrun : exec Listener.step t ls = some u)
    (stream : StreamName) {n : Nat} (hn : n ≤ (t.streams stream).length)
    (hanswers : n ≤ t.position stream + ls.countP (Label.answers stream)) :
    n ≤ u.position stream := by
  induction ls generalizing t with
  | nil =>
      cases hrun
      simpa using hanswers
  | cons l ls ih =>
      obtain ⟨v, hl, hls⟩ := (exec_cons_iff t u l ls).mp hrun
      obtain ⟨hle, hlt⟩ := position_step ht hl stream
      have hgrows := (frame_step hl stream).1.length_le
      refine ih (ht.step hl) hls (hn.trans hgrows) ?_
      rw [List.countP_cons] at hanswers
      by_cases hanswer : l.answers stream = true
      · by_cases hahead : t.position stream < (t.streams stream).length
        · have := hlt hanswer hahead
          simp only [hanswer, if_true] at hanswers
          omega
        · omega
      · simp only [hanswer, if_false, Bool.false_eq_true] at hanswers
        omega

-- What the listener is past has been fanned out, if nothing was skipped.
theorem Sound.fanned_eq (ht : t.Sound) (hnone : t.NoneSkipped) (stream : StreamName) :
    t.fanned stream = decoded (t.behind stream) := by
  cases hfirst : t.first with
  | none => simp [behind, fanned, hfirst, (ht.start hfirst).2.1, decoded]
  | some first =>
      have hall := hnone stream
      rw [ht.added_eq stream, hfirst, if_neg (by simp)] at hall
      exact (List.append_cancel_right hall).symm

-- In every run, nothing has been skipped exactly if at each step the messages that came in
-- were kept. What has been added so far has then been fanned out, first and in order, after
-- as many answers as there were entries ahead of the listener.
theorem none_skipped {streams : StreamName → List (Option orjson.Text)}
    (hrun : exec Listener.step (Listener.init streams) ls = some t) :
    (t.NoneSkipped ↔ Along Listener.step Kept (Listener.init streams) ls) ∧
      ∀ ms u, exec Listener.step t ms = some u → Along Listener.step Kept (Listener.init streams) (ls ++ ms) →
        ∀ stream, (t.ahead stream).length ≤ ms.countP (Label.answers stream) →
          decoded (t.added stream) <+: u.fanned stream := by
  have hinit := sound_init streams
  have hiff : ∀ {ls : List (Label orjson)} {u : Listener orjson},
      exec Listener.step (Listener.init streams) ls = some u →
        (u.NoneSkipped ↔ Along Listener.step Kept (Listener.init streams) ls) := fun hrun =>
    hinit.noneSkipped_run hrun (noneSkipped_init streams) fun stream => ⟨[], account_init streams stream⟩
  refine ⟨hiff hrun, fun ms u hms halong stream hanswers => ?_⟩
  have ht := hinit.run hrun
  have hu := ht.run hms
  have hnone : u.NoneSkipped := (hiff ((exec_append_iff _ _ _ _).mpr ⟨t, hrun, hms⟩)).mpr halong
  obtain ⟨⟨extra, hextra⟩, hfirst⟩ := frame_run hms stream
  rw [hu.fanned_eq hnone]
  cases hstarted : t.first with
  | none =>
      rw [added, hstarted]
      exact List.nil_prefix
  | some first =>
      have hle := ht.first first hstarted stream
      have hpast : (t.streams stream).length ≤ u.position stream := by
        refine position_run ht hms stream (le_refl _) ?_
        rw [ahead, List.length_drop] at hanswers
        omega
      -- The listener is past all entries there were, and they come first.
      have hbehind : u.behind stream = t.added stream ++
          extra.take (u.position stream - (t.streams stream).length) := by
        simp only [behind, added, hfirst first hstarted, hstarted, ← hextra]
        rw [List.take_append, List.take_of_length_le hpast,
          List.drop_append_of_le_length (hle.trans (ht.position_le stream))]
      rw [hbehind, decoded_append]
      exact List.prefix_append _ _

end Progress

section Skipped

def noEntries : Listener Orjson.values := .init fun _ => []

def someMessage : Option Orjson.values.Text := some (some (.obj []))

-- A message that comes in during an XREAD, and the reply with it.
theorem none_skipped_reply :
    ∃ t u, exec Listener.step noEntries [.xread, .xadd .event_stream someMessage] = some t ∧
      exec Listener.step t [.reply fun _ => true] = some u ∧ t.NoneSkipped ∧
      decoded (t.added .event_stream) <+: u.fanned .event_stream := by
  let start : StreamName → Nat := fun _ => 0
  let t := noEntries.xread.xadd .event_stream someMessage
  have hrun : exec Listener.step noEntries [.xread, .xadd .event_stream someMessage] = some t := rfl
  have hreply : exec Listener.step t [.reply fun _ => true] =
    some (t.answer start fun _ => true).leave := rfl
  have hkept : Along Listener.step Kept noEntries
      ([.xread, .xadd .event_stream someMessage] ++ [.reply fun _ => true]) := by
    refine ⟨fun _ => rfl, ?_⟩
    rintro _ ⟨⟩
    refine ⟨fun _ => rfl, ?_⟩
    rintro _ ⟨⟩
    exact ⟨fun _ => rfl, fun _ _ => trivial⟩
  obtain ⟨hiff, hall⟩ := none_skipped hrun
  refine ⟨t, _, hrun, hreply, hiff.mpr ?_, hall _ _ hreply hkept .event_stream (le_refl 1)⟩
  refine ⟨hkept.1, fun v hv => ⟨(hkept.2 v hv).1, fun _ _ => trivial⟩⟩

-- The first XREAD times out, a message comes in before the second one starts.
def passedOver : List (Label Orjson.values) :=
  [.xread, .timeout, .xadd .telemetry_stream someMessage, .xread]

-- The listener is blocked in an XREAD that starts past the message, which no client
-- has got and none will.
theorem message_skipped :
    ∃ t, exec Listener.step noEntries passedOver = some t ∧
      decoded (t.added .telemetry_stream) = [.obj []] ∧ t.fanned_out = [] ∧
      t.ahead .telemetry_stream = [] ∧
      ∀ ms u, exec Listener.step t ms = some u → ¬ u.NoneSkipped := by
  let t := noEntries.xread.leave
  have hrun : exec Listener.step noEntries passedOver =
    some (t.xadd .telemetry_stream someMessage).xread := rfl
  refine ⟨_, hrun, rfl, rfl, rfl, fun ms u hms hnone => ?_⟩
  have halong := ((sound_init _).noneSkipped_run ((exec_append_iff _ _ _ _).mpr ⟨_, hrun, hms⟩)
    (noneSkipped_init _) fun stream => ⟨[], account_init _ stream⟩).mp hnone
  have hkept := ((halong.2 _ rfl).2 t rfl).1 .telemetry_stream
  exact absurd hkept (List.cons_ne_nil _ _)

end Skipped

end Listener

end FleetOps.Live
