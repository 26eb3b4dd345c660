import FleetOps.Dashboard.FleetData
import FleetOps.Library.Newest

namespace FleetOps.Dashboard

open Newest

-- A batch from the socket goes before the buffer, a history after it.
inductive Merge where
  | socket (events : List Dict)
  | history (events : List Dict)

def Merge.events : Merge → List Dict
  | .socket events | .history events => events

def Merge.arrange (events : List Dict) : Merge → List Dict
  | .socket batch => batch ++ events
  | .history batch => events ++ batch

-- All that came in, one part beside the other.
def arrangement (merges : List Merge) : List Dict := merges.foldl Merge.arrange []

variable (b : Browser)

def merged (merges : List Merge) : List Dict :=
  merges.foldl (fun buffer merge => dedupeEvents b (merge.arrange buffer)) []

-- What identifies an event.
def identity (event : Dict) : String × String × String :=
  (b.text (event.lookup "robot_id"), b.text (event.lookup "timestamp"), eventText b event)

-- The timestamp is a string or missing, and the key can be taken apart.
structure Plain (event : Dict) : Prop where
  robot_id : '|' ∉ (b.text (event.lookup "robot_id")).toList
  timestamp : ∀ value, event.lookup "timestamp" = some value → ∃ text, value = .str text ∧ '|' ∉ text.toList

variable {b}

section Keys

variable {event other : Dict}

theorem append_bar_inj {xs ys us vs : List Char} (hxs : '|' ∉ xs) (hys : '|' ∉ ys)
    (h : xs ++ '|' :: us = ys ++ '|' :: vs) : xs = ys ∧ us = vs := by
  induction xs generalizing ys with
  | nil =>
      cases ys with
      | nil => exact ⟨rfl, (List.cons.inj h).2⟩
      | cons y ys => exact absurd (List.mem_cons_self ..) ((List.cons.inj h).1 ▸ hys)
  | cons x xs ih =>
      cases ys with
      | nil => exact absurd (List.mem_cons_self ..) ((List.cons.inj h).1 ▸ hxs)
      | cons y ys =>
          obtain ⟨hxy, hrest⟩ := List.cons.inj h
          obtain ⟨hsame, hus⟩ := ih (fun hx => hxs (List.mem_cons_of_mem x hx))
            (fun hy => hys (List.mem_cons_of_mem y hy)) hrest
          exact ⟨by rw [hxy, hsame], hus⟩

theorem undefined_bar_free : '|' ∉ (b.text none).toList := by
  have hundefined : '|' ∉ "undefined".toList := by decide
  exact hundefined

theorem timestamp_bar_free (h : Plain b event) : '|' ∉ (b.text (event.lookup "timestamp")).toList := by
  cases hlookup : event.lookup "timestamp" with
  | none => exact undefined_bar_free
  | some value =>
      obtain ⟨text, rfl, htext⟩ := h.timestamp value hlookup
      rw [Browser.text, Option.map_some, Option.getD_some, b.toText_str]
      exact htext

theorem eventKey_iff (hevent : Plain b event) (hother : Plain b other) :
    eventKey b event = eventKey b other ↔ identity b event = identity b other := by
  constructor
  · intro h
    have hlist := congrArg String.toList h
    simp only [eventKey, String.toList_append, List.append_assoc] at hlist
    obtain ⟨hrobot, hrest⟩ := append_bar_inj hevent.robot_id hother.robot_id hlist
    obtain ⟨htime, htext⟩ := append_bar_inj (timestamp_bar_free hevent) (timestamp_bar_free hother) hrest
    rw [identity, identity, String.toList_inj.mp hrobot, String.toList_inj.mp htime,
      String.toList_inj.mp htext]
  · intro h
    simp only [identity, Prod.mk.injEq] at h
    rw [eventKey, eventKey, h.1, h.2.1, h.2.2]

-- Missing counts as the text "undefined", which is no date.
theorem eventAt_text (h : Plain b event) :
    eventAt b event = (b.getTime (.str (b.text (event.lookup "timestamp")))).getD 0 := by
  cases hlookup : event.lookup "timestamp" with
  | none => simp [eventAt, Browser.text, hlookup, b.getTime_undefined]
  | some value =>
      obtain ⟨text, rfl, -⟩ := h.timestamp value hlookup
      simp [eventAt, Browser.text, hlookup, b.toText_str]

theorem ranked_of_plain {events : List Dict} (h : ∀ event ∈ events, Plain b event) :
    Ranked (eventKey b) (eventAt b) events := by
  intro x hx y hy hkey
  have hidentity := (eventKey_iff (h x hx) (h y hy)).mp hkey
  simp only [identity, Prod.mk.injEq] at hidentity
  rw [eventAt_text (h x hx), eventAt_text (h y hy), hidentity.2.1]

end Keys

section Buffer

variable {events : List Dict} {merges : List Merge}

theorem unseen_eq (seen : List String) (events : List Dict) :
    unseen b seen events = (distinct (eventKey b) events).filter fun event => eventKey b event ∉ seen := by
  induction events generalizing seen with
  | nil => rfl
  | cons event events ih =>
      by_cases hseen : eventKey b event ∈ seen
      · rw [unseen, if_pos hseen, ih, distinct, List.filter_cons_of_neg (by simpa using hseen),
          List.filter_filter]
        refine List.filter_congr fun other _ => ?_
        by_cases hother : eventKey b other = eventKey b event
        · simp [hother, hseen]
        · simp [hother]
      · rw [unseen, if_neg hseen, ih, distinct, List.filter_cons_of_pos (by simpa using hseen),
          List.filter_filter]
        refine congrArg (event :: ·) (List.filter_congr fun other _ => ?_)
        simp only [List.mem_cons, not_or, Bool.decide_and, Bool.and_comm]

theorem dedupeEvents_eq (events : List Dict) :
    dedupeEvents b events = newest (eventKey b) (eventAt b) EVENT_BUFFER_LIMIT events := by
  have hunseen : unseen b [] events = distinct (eventKey b) events := by
    rw [unseen_eq]
    exact List.filter_eq_self.mpr fun event _ => by simp
  have hcompare : ∀ x y : Dict, (eventAt b y - eventAt b x ≤ 0) = (eventAt b y ≤ eventAt b x) :=
    fun x y => propext (by omega)
  simp only [dedupeEvents, hunseen, newest, sorted, hcompare]

theorem mem_arrange {event : Dict} {merge : Merge} :
    event ∈ merge.arrange events ↔ event ∈ events ∨ event ∈ merge.events := by
  cases merge with
  | socket batch => simp [Merge.arrange, Merge.events, or_comm]
  | history batch => simp [Merge.arrange, Merge.events]

-- A merge with the buffer is one with all that the buffer was made of.
theorem dedupeEvents_arrange (merge : Merge) (h : ∀ event ∈ merge.arrange events, Plain b event) :
    dedupeEvents b (merge.arrange (dedupeEvents b events)) = dedupeEvents b (merge.arrange events) := by
  have hranked := ranked_of_plain h
  simp only [dedupeEvents_eq]
  cases merge with
  | socket batch => exact newest_append_newest hranked
  | history batch => exact newest_newest_append hranked

theorem mem_arrangement {event : Dict} :
    event ∈ arrangement merges ↔ ∃ merge ∈ merges, event ∈ merge.events := by
  induction merges using List.reverseRecOn with
  | nil => simp [arrangement]
  | append_singleton merges merge ih =>
      rw [arrangement, List.foldl_append, List.foldl_cons, List.foldl_nil, mem_arrange, ← arrangement, ih]
      constructor
      · rintro (⟨other, hother, hevent⟩ | hevent)
        · exact ⟨other, List.mem_append_left _ hother, hevent⟩
        · exact ⟨merge, by simp, hevent⟩
      · rintro ⟨other, hother, hevent⟩
        rcases List.mem_append.mp hother with hother | hother
        · exact Or.inl ⟨other, hother, hevent⟩
        · exact Or.inr (List.mem_singleton.mp hother ▸ hevent)

theorem merged_eq (h : ∀ event ∈ arrangement merges, Plain b event) :
    merged b merges = dedupeEvents b (arrangement merges) := by
  induction merges using List.reverseRecOn with
  | nil => simp [merged, arrangement, dedupeEvents, unseen]
  | append_singleton merges merge ih =>
      have hsplit : arrangement (merges ++ [merge]) = merge.arrange (arrangement merges) := by
        simp [arrangement]
      rw [hsplit] at h ⊢
      have hbefore : ∀ event ∈ arrangement merges, Plain b event :=
        fun event hevent => h event (mem_arrange.mpr (Or.inl hevent))
      have hlast : merged b (merges ++ [merge]) = dedupeEvents b (merge.arrange (merged b merges)) := by
        simp [merged]
      rw [hlast, ih hbefore, dedupeEvents_arrange merge h]

end Buffer

section Hook

variable {s t : FleetData} {l : DataLabel}

-- What a step merges into the buffer.
def merges (s : FleetData) : DataLabel → List Merge
  | .flush => if s.pendingUpdates.events = [] then [] else [.socket s.pendingUpdates.events]
  | .events data => [.history ((data.getD []).map fun event => Dict.setItem event "type" (.str "EVENT"))]
  | .message _ | .robots _ => []

theorem events_step (h : s.step b l = some t) :
    t.events = (merges s l).foldl (fun buffer merge => dedupeEvents b (merge.arrange buffer)) s.events := by
  cases l with
  | message lastMessage =>
      cases h
      unfold FleetData.handleMessage
      split <;> rfl
  | flush =>
      simp only [FleetData.step] at h
      split at h
      · cases h
        simp only [FleetData.flush, merges]
        split <;> rfl
      · cases h
  | robots data =>
      cases h
      rfl
  | events data =>
      cases h
      rfl

-- The buffer of the hook is made by merging, from an empty one.
theorem events_run {labels : List DataLabel}
    (hrun : Runs.exec (FleetData.step b) FleetData.init labels = some s) :
    s.events = merged b (Runs.trace (FleetData.step b) merges FleetData.init labels) := by
  have hinv : s.events = merged b ([] ++ Runs.trace (FleetData.step b) merges FleetData.init labels) :=
    Runs.exec_trace_invariant (I := fun u parts => FleetData.events u = merged b parts)
      (fun u l v parts hu hstep => ?_) rfl hrun
  · exact hinv
  · rw [events_step hstep, hu, merged, merged, List.foldl_append]

end Hook

section Buffered

variable {merges : List Merge}

theorem identities_eq {events : List Dict} (h : ∀ event ∈ events, Plain b event) :
    (events.map (identity b)).toFinset.card = (events.map (eventKey b)).toFinset.card := by
  induction events with
  | nil => rfl
  | cons event events ih =>
      have hrest : ∀ other ∈ events, Plain b other :=
        fun other hother => h other (List.mem_cons_of_mem _ hother)
      have hmem : identity b event ∈ (events.map (identity b)).toFinset ↔
          eventKey b event ∈ (events.map (eventKey b)).toFinset := by
        simp only [List.mem_toFinset, List.mem_map]
        constructor
        · rintro ⟨other, hother, hsame⟩
          exact ⟨other, hother, (eventKey_iff (hrest other hother) (h event (by simp))).mpr hsame⟩
        · rintro ⟨other, hother, hsame⟩
          exact ⟨other, hother, (eventKey_iff (hrest other hother) (h event (by simp))).mp hsame⟩
      rw [List.map_cons, List.toFinset_cons, List.map_cons, List.toFinset_cons]
      by_cases hin : identity b event ∈ (events.map (identity b)).toFinset
      · rw [Finset.insert_eq_of_mem hin, Finset.insert_eq_of_mem (hmem.mp hin), ih hrest]
      · rw [Finset.card_insert_of_notMem hin, Finset.card_insert_of_notMem (fun hkey => hin (hmem.mpr hkey)),
          ih hrest]

-- The buffer holds the newest events that came in, each once and newest first, whatever the
-- parts they came in and the order of these. So does the hook's, of what its run merges.
theorem event_buffer (parts : List Merge) (h : ∀ merge ∈ parts, ∀ event ∈ merge.events, Plain b event) :
    (∀ labels s, Runs.exec (FleetData.step b) FleetData.init labels = some s →
      Runs.trace (FleetData.step b) Dashboard.merges FleetData.init labels = parts →
        s.events = merged b parts) ∧
    merged b parts = dedupeEvents b (arrangement parts) ∧
    (∀ event ∈ merged b parts, event ∈ arrangement parts) ∧
    ((merged b parts).map (identity b)).Nodup ∧
    (merged b parts).Pairwise (fun x y => eventAt b y ≤ eventAt b x) ∧
    (merged b parts).length = min EVENT_BUFFER_LIMIT ((arrangement parts).map (identity b)).toFinset.card ∧
    ∀ event ∈ arrangement parts, identity b event ∉ (merged b parts).map (identity b) →
      ∀ kept ∈ merged b parts, eventAt b event ≤ eventAt b kept := by
  have hplain : ∀ event ∈ arrangement parts, Plain b event := by
    intro event hevent
    obtain ⟨merge, hmerge, hmem⟩ := mem_arrangement.mp hevent
    exact h merge hmerge event hmem
  have heq := (merged_eq hplain).trans (dedupeEvents_eq _)
  have hsub : ∀ event ∈ merged b parts, event ∈ arrangement parts := by
    intro event hevent
    rw [heq] at hevent
    exact mem_of_mem_newest hevent
  refine ⟨fun labels s hrun hparts => hparts ▸ events_run hrun, merged_eq hplain, hsub, ?_, ?_, ?_,
    fun event hevent hout => ?_⟩
  · rw [List.Nodup, List.pairwise_map]
    have hkeys : ((merged b parts).map (eventKey b)).Nodup := by
      rw [heq]
      exact nodup_keys_newest _ _
    rw [List.Nodup, List.pairwise_map] at hkeys
    refine hkeys.imp_of_mem fun hx hy hne hsame => hne ?_
    exact (eventKey_iff (hplain _ (hsub _ hx)) (hplain _ (hsub _ hy))).mpr hsame
  · rw [heq]
    exact newest_pairwise _ _
  · rw [heq, length_newest, identities_eq hplain]
  · rw [heq]
    refine rank_le_of_left_out (ranked_of_plain hplain) hevent fun hkey => hout ?_
    obtain ⟨kept, hkept, hsame⟩ := List.mem_map.mp hkey
    rw [← heq] at hkept
    exact List.mem_map.mpr ⟨kept, hkept,
      (eventKey_iff (hplain kept (hsub kept hkept)) (hplain event hevent)).mp hsame⟩

-- Texts that no date is made of.
def textOnly : Browser where
  toText
    | .str text => text
    | _ => "value"
  getTime _ := none
  toText_str _ := rfl
  getTime_undefined := rfl

def entered (message : String) : Dict := [("type", .str "EVENT"), ("message", .str message)]

theorem event_buffer_twice :
    merged textOnly [.socket [entered "a"], .history [entered "b"], .socket [entered "a"]] =
      dedupeEvents textOnly [entered "a", entered "a", entered "b"] := by
  refine (event_buffer _ fun merge hmerge event hevent => ?_).2.1
  have hmessage : ∃ message, event = entered message := by
    simp only [List.mem_cons, List.not_mem_nil, or_false] at hmerge
    rcases hmerge with rfl | rfl | rfl
    · exact ⟨"a", List.mem_singleton.mp hevent⟩
    · exact ⟨"b", List.mem_singleton.mp hevent⟩
    · exact ⟨"a", List.mem_singleton.mp hevent⟩
  obtain ⟨message, rfl⟩ := hmessage
  exact ⟨undefined_bar_free, nofun⟩

end Buffered

end FleetOps.Dashboard
