import Mathlib.Data.List.Basic
import Mathlib.Data.List.Range
import Mathlib.Order.Basic

namespace ConsumerGroup

variable {κ α : Type*}

-- An entry that has been delivered and not acknowledged.
structure Pending (κ : Type*) where
  entry : Nat
  consumer : κ
  delivered_at : Int

-- A stream and one consumer group on it. An entry is named by its position; the
-- first `delivered` entries have been handed out.
@[ext]
structure Group (κ α : Type*) where
  entries : List α
  delivered : Nat
  pending : List (Pending κ)

namespace Group

def empty : Group κ α := ⟨[], 0, []⟩

def xadd (g : Group κ α) (entry : α) : Group κ α := { g with entries := g.entries ++ [entry] }

def ids (g : Group κ α) : List Nat := g.pending.map Pending.entry

-- Delivered and no longer pending.
def acked (g : Group κ α) (id : Nat) : Prop := id < g.delivered ∧ id ∉ g.ids

-- XREADGROUP with the id ">": entries that no consumer has been given.
def fresh (g : Group κ α) (consumer : κ) (now : Int) (count : Nat) : Group κ α × List Nat :=
  let ids := List.range' g.delivered (min count (g.entries.length - g.delivered))
  ({ g with
      delivered := g.delivered + ids.length
      pending := g.pending ++ ids.map fun id => ⟨id, consumer, now⟩ }, ids)

-- Hands the chosen pending entries to a consumer.
def deliver (g : Group κ α) (consumer : κ) (now : Int) (ids : List Nat) : Group κ α :=
  { g with pending := g.pending.map fun p =>
      if p.entry ∈ ids then ⟨p.entry, consumer, now⟩ else p }

-- XREADGROUP with the id "0": the consumer's own pending entries, oldest first.
def history [DecidableEq κ] (g : Group κ α) (consumer : κ) (now : Int) (count : Nat) :
    Group κ α × List Nat :=
  let ids := ((g.pending.filter fun p => decide (p.consumer = consumer)).take count).map
    Pending.entry
  (g.deliver consumer now ids, ids)

-- XAUTOCLAIM from the start: it looks at ten times `count` entries at most.
def xautoclaim (g : Group κ α) (consumer : κ) (now min_idle : Int) (count : Nat) :
    Group κ α × List Nat :=
  let ids := (((g.pending.take (10 * count)).filter fun p =>
    decide (min_idle ≤ now - p.delivered_at)).take count).map Pending.entry
  (g.deliver consumer now ids, ids)

-- XACK, whoever owns the entries.
def xack (g : Group κ α) (ids : List Nat) : Group κ α :=
  { g with pending := g.pending.filter fun p => decide (p.entry ∉ ids) }

-- The stream is lost and the group with it. The positions of later entries go on
-- from the lost ones, none of which can be read any more.
def reset (g : Group κ α) : Group κ α := { g with delivered := g.entries.length, pending := [] }

-- The consumer has entries of its own to come back to.
def owns [DecidableEq κ] (g : Group κ α) (consumer : κ) : Bool :=
  g.pending.any fun p => decide (p.consumer = consumer)

-- How many entries are left to acknowledge before the group is past `target`.
def outstanding (g : Group κ α) (target : Nat) : Nat := g.ids.length + (target + 1 - g.delivered)

section Lemmas

variable (g : Group κ α) (consumer : κ) (now : Int)

@[simp] theorem ids_deliver (ids : List Nat) : (g.deliver consumer now ids).ids = g.ids := by
  simp only [Group.ids, deliver, List.map_map]
  apply List.map_congr_left
  intro p _
  simp only [Function.comp]
  split <;> rfl

theorem mem_history [DecidableEq κ] {count id : Nat} (h : id ∈ (g.history consumer now count).2) :
    id ∈ g.ids := by
  obtain ⟨p, hp, rfl⟩ := List.mem_map.mp h
  exact List.mem_map_of_mem (List.mem_filter.mp (List.mem_of_mem_take hp)).1

theorem mem_xautoclaim {min_idle : Int} {count id : Nat}
    (h : id ∈ (g.xautoclaim consumer now min_idle count).2) : id ∈ g.ids := by
  obtain ⟨p, hp, rfl⟩ := List.mem_map.mp h
  exact List.mem_map_of_mem
    (List.mem_of_mem_take (List.mem_filter.mp (List.mem_of_mem_take hp)).1)

theorem mem_fresh {count id : Nat} :
    id ∈ (g.fresh consumer now count).2 ↔
      g.delivered ≤ id ∧ id < (g.fresh consumer now count).1.delivered := by
  simp [fresh, List.mem_range'_1]

@[simp] theorem ids_fresh (count : Nat) :
    (g.fresh consumer now count).1.ids = g.ids ++ (g.fresh consumer now count).2 := by
  have hmap : ∀ ids : List Nat,
      (ids.map fun id => (⟨id, consumer, now⟩ : Pending κ)).map Pending.entry = ids := by
    intro ids
    rw [List.map_map]
    exact List.map_id ids
  simp only [Group.ids, fresh, List.map_append, hmap]

theorem ids_xack (ids : List Nat) :
    (g.xack ids).ids = g.ids.filter fun id => decide (id ∉ ids) := by
  simp only [Group.ids, xack, List.filter_map]
  rfl

-- Reading and claiming acknowledge nothing.
@[simp] theorem acked_deliver (ids : List Nat) (id : Nat) :
    (g.deliver consumer now ids).acked id ↔ g.acked id := by
  rw [acked, ids_deliver]
  rfl

theorem acked_of_fresh {count id : Nat} (h : (g.fresh consumer now count).1.acked id) :
    g.acked id := by
  obtain ⟨hlt, hid⟩ := h
  rw [ids_fresh, List.mem_append, not_or, mem_fresh] at hid
  exact ⟨by omega, hid.1⟩

theorem acked_xack {ids : List Nat} {id : Nat} (h : (g.xack ids).acked id) :
    g.acked id ∨ (id ∈ ids ∧ id ∈ g.ids) := by
  obtain ⟨hlt, hid⟩ := h
  rw [ids_xack, List.mem_filter, decide_eq_true_eq] at hid
  by_cases hpending : id ∈ g.ids
  · exact Or.inr ⟨by_contra fun hnot => hid ⟨hpending, hnot⟩, hpending⟩
  · exact Or.inl ⟨hlt, hpending⟩

theorem acked_fresh_of_acked {count id : Nat} (h : g.acked id) :
    (g.fresh consumer now count).1.acked id := by
  refine ⟨Nat.lt_of_lt_of_le h.1 (Nat.le_add_right _ _), ?_⟩
  rw [ids_fresh, List.mem_append, mem_fresh]
  have hlt := h.1
  rintro (hid | hid)
  · exact h.2 hid
  · omega

theorem acked_xack_of_acked {ids : List Nat} {id : Nat} (h : g.acked id) : (g.xack ids).acked id := by
  refine ⟨h.1, ?_⟩
  rw [ids_xack]
  exact fun hid => h.2 (List.mem_of_mem_filter hid)

theorem history_eq_nil [DecidableEq κ] {count : Nat} (hcount : 0 < count) :
    (g.history consumer now count).2 = [] ↔ g.owns consumer = false := by
  simp [history, owns, List.take_eq_nil_iff, Nat.ne_of_gt hcount, List.filter_eq_nil_iff]

theorem owns_of_deliver [DecidableEq κ] {ids : List Nat} {id : Nat} (hid : id ∈ ids)
    (hpending : id ∈ g.ids) :
    (g.deliver consumer now ids).owns consumer = true := by
  obtain ⟨p, hp, rfl⟩ := List.mem_map.mp hpending
  simp only [owns, deliver, List.any_eq_true, List.mem_map, decide_eq_true_eq]
  exact ⟨_, ⟨p, hp, rfl⟩, by rw [if_pos hid]⟩

theorem owns_of_xautoclaim [DecidableEq κ] {min_idle : Int} {count : Nat}
    (hids : (g.xautoclaim consumer now min_idle count).2 ≠ []) :
    (g.xautoclaim consumer now min_idle count).1.owns consumer = true := by
  obtain ⟨id, hid⟩ := List.exists_mem_of_ne_nil _ hids
  exact owns_of_deliver g consumer now hid (mem_xautoclaim g consumer now hid)

-- Any pending entry can be claimed once it has been idle for long enough.
theorem exists_xautoclaim_ne_nil (min_idle : Int) {count id : Nat} (hcount : 0 < count)
    (hid : id ∈ g.ids) : ∃ now, (g.xautoclaim consumer now min_idle count).2 ≠ [] := by
  obtain ⟨first, rest, hpending⟩ : ∃ first rest, g.pending = first :: rest := by
    obtain ⟨p, hp, _⟩ := List.mem_map.mp hid
    exact List.exists_cons_of_ne_nil (List.ne_nil_of_mem hp)
  refine ⟨first.delivered_at + min_idle, List.ne_nil_of_mem (a := first.entry) ?_⟩
  obtain ⟨m, rfl⟩ := Nat.exists_eq_add_of_lt hcount
  have hidle : min_idle ≤ first.delivered_at + min_idle - first.delivered_at := by omega
  apply List.mem_map_of_mem
  rw [hpending, show 10 * (0 + m + 1) = 10 * m + 9 + 1 by omega, List.take_succ_cons,
    List.filter_cons, if_pos (decide_eq_true hidle), show 0 + m + 1 = m + 1 by omega,
    List.take_succ_cons]
  exact List.mem_cons_self

theorem outstanding_deliver (ids : List Nat) (target : Nat) :
    (g.deliver consumer now ids).outstanding target = g.outstanding target := by
  rw [outstanding, ids_deliver]
  rfl

theorem outstanding_history [DecidableEq κ] (count target : Nat) :
    (g.history consumer now count).1.outstanding target = g.outstanding target :=
  outstanding_deliver ..

theorem outstanding_xautoclaim (min_idle : Int) (count target : Nat) :
    (g.xautoclaim consumer now min_idle count).1.outstanding target = g.outstanding target :=
  outstanding_deliver ..

theorem outstanding_xack_le (ids : List Nat) (target : Nat) :
    (g.xack ids).outstanding target ≤ g.outstanding target := by
  rw [outstanding, ids_xack]
  exact Nat.add_le_add_right (List.length_filter_le _ _) _

-- A batch of pending entries leaves fewer of them once it is acknowledged.
theorem outstanding_xack_lt {ids : List Nat} {id : Nat} (hid : id ∈ ids) (hpending : id ∈ g.ids)
    (target : Nat) : (g.xack ids).outstanding target < g.outstanding target := by
  rw [outstanding, ids_xack]
  refine Nat.add_lt_add_right ?_ _
  exact List.length_filter_lt_length_iff_exists.mpr ⟨id, hpending, by simpa using hid⟩

theorem outstanding_xack_history [DecidableEq κ] {count : Nat} (hcount : 0 < count)
    (howns : g.owns consumer = true) (target : Nat) :
    ((g.history consumer now count).1.xack (g.history consumer now count).2).outstanding target <
      g.outstanding target := by
  have hids : (g.history consumer now count).2 ≠ [] := by
    intro hnil
    rw [history_eq_nil _ _ _ hcount, howns] at hnil
    cases hnil
  obtain ⟨id, hid⟩ := List.exists_mem_of_ne_nil _ hids
  have hpending : id ∈ (g.history consumer now count).1.ids :=
    (g.ids_deliver consumer now _).symm ▸ mem_history g consumer now hid
  rw [← outstanding_history g consumer now count target]
  exact outstanding_xack_lt _ hid hpending target

-- A fresh batch reaches the target, or brings it nearer once it is acknowledged.
theorem outstanding_xack_fresh {count target : Nat} (hcount : 0 < count)
    (hdelivered : g.delivered ≤ target) (htarget : target < g.entries.length) :
    target ∈ (g.fresh consumer now count).2 ∨
      (g.fresh consumer now count).1.delivered ≤ target ∧
        ((g.fresh consumer now count).1.xack (g.fresh consumer now count).2).outstanding target <
          g.outstanding target := by
  by_cases hmem : target ∈ (g.fresh consumer now count).2
  · exact Or.inl hmem
  · rw [mem_fresh] at hmem
    have hnew : g.delivered < (g.fresh consumer now count).1.delivered := by
      simp only [fresh, List.length_range']
      omega
    refine Or.inr ⟨by omega, ?_⟩
    have hids : ((g.fresh consumer now count).1.xack (g.fresh consumer now count).2).ids.length ≤
        g.ids.length := by
      rw [ids_xack, ids_fresh, List.filter_append]
      have hnone : ((g.fresh consumer now count).2.filter
          fun id => decide (id ∉ (g.fresh consumer now count).2)) = [] := by
        rw [List.filter_eq_nil_iff]
        intro id hid
        simpa using hid
      rw [hnone, List.append_nil]
      exact List.length_filter_le _ _
    have hgone : ((g.fresh consumer now count).1.xack (g.fresh consumer now count).2).delivered =
        (g.fresh consumer now count).1.delivered := rfl
    simp only [outstanding]
    omega

end Lemmas

-- Pending entries have been delivered, each is pending once, and the oldest
-- comes first.
structure Sound (g : Group κ α) : Prop where
  sorted : g.ids.Pairwise (· < ·)
  delivered : ∀ id ∈ g.ids, id < g.delivered
  length : g.delivered ≤ g.entries.length

section Soundness

variable {g : Group κ α}

theorem sound_empty : (empty : Group κ α).Sound where
  sorted := List.Pairwise.nil
  delivered := by simp [Group.ids, empty]
  length := by simp [empty]

theorem Sound.xadd (hg : g.Sound) (entry : α) : (g.xadd entry).Sound where
  sorted := hg.sorted
  delivered := hg.delivered
  length := by
    have hlen := hg.length
    simp only [Group.xadd, List.length_append, List.length_singleton]
    omega

theorem Sound.deliver (hg : g.Sound) (consumer : κ) (now : Int) (ids : List Nat) :
    (g.deliver consumer now ids).Sound where
  sorted := by
    rw [ids_deliver]
    exact hg.sorted
  delivered := by
    rw [ids_deliver]
    exact hg.delivered
  length := hg.length

theorem Sound.fresh (hg : g.Sound) (consumer : κ) (now : Int) (count : Nat) :
    (g.fresh consumer now count).1.Sound where
  sorted := by
    rw [ids_fresh, List.pairwise_append]
    refine ⟨hg.sorted, List.pairwise_lt_range' .., ?_⟩
    intro a ha b hb
    have hold := hg.delivered a ha
    have hnew := ((g.mem_fresh consumer now).mp hb).1
    omega
  delivered := by
    intro id hid
    rw [ids_fresh] at hid
    rcases List.mem_append.mp hid with hid | hid
    · have hold := hg.delivered id hid
      simp only [Group.fresh]
      omega
    · exact ((g.mem_fresh consumer now).mp hid).2
  length := by
    have hlen := hg.length
    simp only [Group.fresh, List.length_range']
    omega

theorem Sound.xack (hg : g.Sound) (ids : List Nat) : (g.xack ids).Sound where
  sorted := by
    rw [ids_xack]
    exact hg.sorted.filter _
  delivered := by
    intro id hid
    rw [ids_xack] at hid
    exact hg.delivered id (List.mem_filter.mp hid).1
  length := hg.length

theorem Sound.acked_xack (hg : g.Sound) {ids : List Nat} {id : Nat} (hid : id ∈ ids)
    (hpending : id ∈ g.ids) : (g.xack ids).acked id := by
  refine ⟨hg.delivered id hpending, ?_⟩
  rw [ids_xack, List.mem_filter, decide_eq_true_eq]
  exact fun hkept => hkept.2 hid

theorem sound_reset (g : Group κ α) : g.reset.Sound where
  sorted := List.Pairwise.nil
  delivered := by simp [Group.ids, reset]
  length := le_refl _

end Soundness

-- A stream with a cap on its length. Redis takes its first entries away and leaves
-- what is pending alone: a trimmed entry that is asked for again has no fields.
section Trimming

variable {β : Type*}

def erase (g : Group κ (Option β)) (n : Nat) : Group κ (Option β) :=
  { g with entries := g.entries.mapIdx fun id entry => if id < n then none else entry }

-- The first `n` entries go. One that had not been delivered never is.
def trim (g : Group κ (Option β)) (n : Nat) : Group κ (Option β) :=
  { g.erase n with delivered := max g.delivered (min n g.entries.length) }

-- The group as if no trim had taken an entry away that had been delivered: only
-- the others up to `n` are passed over.
def skip (g : Group κ (Option β)) (n : Nat) : Group κ (Option β) :=
  { g with
    entries := g.entries.mapIdx fun id entry =>
      if g.delivered ≤ id ∧ id < n then none else entry
    delivered := max g.delivered (min n g.entries.length) }

-- What XAUTOCLAIM comes upon when the entries below `trimmed` are gone.
def scanned (g : Group κ α) (trimmed : Nat) (now min_idle : Int) (count : Nat) : List Nat :=
  (((g.pending.take (10 * count)).filter fun p =>
    decide (p.entry < trimmed) || decide (min_idle ≤ now - p.delivered_at)).take count).map
    Pending.entry

-- It takes the trimmed entries off the pending list and claims the others.
def xautoclaim_trimmed (g : Group κ α) (trimmed : Nat) (consumer : κ) (now min_idle : Int)
    (count : Nat) : Group κ α × List Nat :=
  let ids := g.scanned trimmed now min_idle count
  let claimed := ids.filter fun id => decide (trimmed ≤ id)
  ((g.xack (ids.filter fun id => decide (id < trimmed))).deliver consumer now claimed, claimed)

section Lemmas

variable (g : Group κ (Option β)) (n : Nat)

@[simp] theorem delivered_erase : (g.erase n).delivered = g.delivered := rfl

@[simp] theorem pending_erase : (g.erase n).pending = g.pending := rfl

@[simp] theorem ids_erase : (g.erase n).ids = g.ids := rfl

theorem getElem?_erase (id : Nat) :
    (g.erase n).entries[id]? = (g.entries[id]?).map fun entry => if id < n then none else entry := by
  simp only [erase, List.getElem?_mapIdx]

@[simp] theorem length_erase : (g.erase n).entries.length = g.entries.length := by simp [erase]

theorem xadd_erase (hn : n ≤ g.entries.length) (entry : Option β) :
    (g.erase n).xadd entry = (g.xadd entry).erase n := by
  simp [erase, xadd, List.mapIdx_append, Nat.not_lt.mpr hn]

theorem xack_erase (ids : List Nat) : (g.erase n).xack ids = (g.xack ids).erase n := rfl

theorem deliver_erase (consumer : κ) (now : Int) (ids : List Nat) :
    (g.erase n).deliver consumer now ids = (g.deliver consumer now ids).erase n := rfl

@[simp] theorem length_skip : (g.skip n).entries.length = g.entries.length := by simp [skip]

theorem getElem?_skip (id : Nat) : (g.skip n).entries[id]? =
    (g.entries[id]?).map fun entry => if g.delivered ≤ id ∧ id < n then none else entry := by
  simp only [skip, List.getElem?_mapIdx]

theorem getElem?_skip_of_lt {id : Nat} (hid : id < g.delivered) :
    (g.skip n).entries[id]? = g.entries[id]? := by
  simp [getElem?_skip, Nat.not_le.mpr hid]

-- A trim erases what has been delivered and passes over what has not.
theorem trim_erase (m : Nat) :
    (g.erase m).trim n = (g.skip n).erase (max m (min n g.entries.length)) := by
  have hentries : ((g.erase m).trim n).entries =
      ((g.skip n).erase (max m (min n g.entries.length))).entries := by
    apply List.ext_getElem?
    intro id
    simp only [trim, getElem?_erase, getElem?_skip, Option.map_map]
    rcases Nat.lt_or_ge id g.entries.length with hlt | hge
    · simp only [List.getElem?_eq_getElem hlt, Option.map_some, Function.comp]
      congr 1
      split_ifs <;> first | rfl | omega
    · rw [List.getElem?_eq_none hge]
      rfl
  have hdelivered : ((g.erase m).trim n).delivered = (g.skip n).delivered := by simp [trim, skip]
  exact Group.ext hentries hdelivered rfl

theorem Sound.skip {g : Group κ (Option β)} (hg : g.Sound) (n : Nat) : (g.skip n).Sound where
  sorted := hg.sorted
  delivered := fun id hid => Nat.lt_of_lt_of_le (hg.delivered id hid) (Nat.le_max_left _ _)
  length := by
    have hlen := hg.length
    rw [length_skip]
    simp only [Group.skip]
    omega

theorem fresh_erase (consumer : κ) (now : Int) (count : Nat) :
    (g.erase n).fresh consumer now count =
      ((g.fresh consumer now count).1.erase n, (g.fresh consumer now count).2) := by
  simp only [fresh, length_erase, delivered_erase, pending_erase]
  rfl

end Lemmas

-- A filter that lets nothing through for the first reason goes by the second.
theorem take_filter_or {γ : Type*} {a b : γ → Bool} {l : List γ} {count : Nat}
    (h : ∀ x ∈ (l.filter fun x => a x || b x).take count, a x = false) :
    (l.filter fun x => a x || b x).take count = (l.filter b).take count := by
  induction l generalizing count with
  | nil => rfl
  | cons x l ih =>
      cases count with
      | zero => simp
      | succ count =>
          by_cases hb : b x = true
          · simp only [List.filter_cons, hb, Bool.or_true, if_true, List.take_succ_cons] at h ⊢
            rw [ih fun y hy => h y (List.mem_cons_of_mem _ hy)]
          · by_cases ha : a x = true
            · simp [ha] at h
            · simp only [List.filter_cons, ha, hb, Bool.or_self, Bool.false_eq_true, if_false] at h ⊢
              exact ih h

-- Where no trimmed entry is come upon, XAUTOCLAIM does what it always does.
theorem xautoclaim_trimmed_eq (g : Group κ α) {trimmed : Nat} (consumer : κ) {now min_idle : Int}
    {count : Nat} (h : ∀ id ∈ g.scanned trimmed now min_idle count, trimmed ≤ id) :
    g.xautoclaim_trimmed trimmed consumer now min_idle count =
      g.xautoclaim consumer now min_idle count := by
  have hscanned : g.scanned trimmed now min_idle count =
      (g.xautoclaim consumer now min_idle count).2 := by
    rw [scanned, xautoclaim, take_filter_or]
    intro p hp
    have hle := h p.entry (List.mem_map_of_mem hp)
    simpa using hle
  have hgone : (g.scanned trimmed now min_idle count).filter (fun id => decide (id < trimmed)) = [] := by
    rw [List.filter_eq_nil_iff]
    intro id hid
    simpa using h id hid
  have hclaimed : (g.scanned trimmed now min_idle count).filter (fun id => decide (trimmed ≤ id)) =
      g.scanned trimmed now min_idle count := by
    rw [List.filter_eq_self]
    intro id hid
    simpa using h id hid
  simp only [xautoclaim_trimmed, hgone, hclaimed]
  rw [hscanned]
  simp [xack, xautoclaim]

end Trimming

end Group

end ConsumerGroup
