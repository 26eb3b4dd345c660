import Mathlib.Data.Finset.Card
import Mathlib.Data.List.Dedup
import Mathlib.Data.List.Nodup
import Mathlib.Data.List.Sort
import Mathlib.Order.WithBot

namespace Newest

-- Items are told apart by a key, and ranked; the rank of an item depends on its key only.
variable {α κ β : Type*} [DecidableEq κ] (key : α → κ)

-- The first item of each key.
def distinct : List α → List α
  | [] => []
  | a :: items => a :: (distinct items).filter fun b => key b ≠ key a

section Distinct

variable {key} {items other : List α} {a : α}

theorem mem_of_mem_distinct (h : a ∈ distinct key items) : a ∈ items := by
  induction items with
  | nil => exact h
  | cons b items ih =>
      rcases List.mem_cons.mp h with rfl | h
      · exact List.mem_cons_self ..
      · exact List.mem_cons_of_mem _ (ih (List.mem_filter.mp h).1)

theorem mem_keys_distinct (k : κ) : k ∈ (distinct key items).map key ↔ k ∈ items.map key := by
  induction items with
  | nil => rfl
  | cons b items ih =>
      by_cases hk : k = key b
      · simp [distinct, hk]
      · have hfilter : k ∈ ((distinct key items).filter fun c => key c ≠ key b).map key ↔
            k ∈ (distinct key items).map key := by
          simp only [List.mem_map, List.mem_filter, decide_eq_true_eq]
          constructor
          · rintro ⟨c, ⟨hc, -⟩, rfl⟩
            exact ⟨c, hc, rfl⟩
          · rintro ⟨c, hc, rfl⟩
            exact ⟨c, ⟨hc, hk⟩, rfl⟩
        rw [distinct, List.map_cons, List.map_cons, List.mem_cons, List.mem_cons, hfilter, ih]

theorem nodup_keys_distinct (items : List α) : ((distinct key items).map key).Nodup := by
  induction items with
  | nil => exact List.nodup_nil
  | cons b items ih =>
      refine List.nodup_cons.mpr ⟨fun hmem => ?_, ih.sublist (List.filter_sublist.map key)⟩
      obtain ⟨c, hc, hkey⟩ := List.mem_map.mp hmem
      exact of_decide_eq_true (List.mem_filter.mp hc).2 hkey

theorem distinct_of_nodup (h : (items.map key).Nodup) : distinct key items = items := by
  induction items with
  | nil => rfl
  | cons b items ih =>
      obtain ⟨hb, hrest⟩ := List.nodup_cons.mp h
      have hkeep : items.filter (fun c => key c ≠ key b) = items := by
        refine List.filter_eq_self.mpr fun c hc => decide_eq_true fun hkey => hb ?_
        exact hkey ▸ List.mem_map_of_mem hc
      rw [distinct, ih hrest, hkeep]

theorem distinct_distinct (items : List α) :
    distinct key (distinct key items) = distinct key items :=
  distinct_of_nodup (nodup_keys_distinct items)

theorem distinct_append (items other : List α) :
    distinct key (items ++ other) =
      distinct key items ++ (distinct key other).filter fun b => key b ∉ items.map key := by
  induction items with
  | nil => simp [distinct]
  | cons a items ih =>
      rw [List.cons_append, distinct, ih, distinct, List.filter_append, List.filter_filter,
        List.cons_append]
      congr 2
      refine List.filter_congr fun b _ => ?_
      simp only [List.map_cons, List.mem_cons, not_or, Bool.decide_and]

theorem length_distinct (items : List α) :
    (distinct key items).length = (items.map key).toFinset.card := by
  have hset : (items.map key).toFinset = ((distinct key items).map key).toFinset := by
    ext k
    rw [List.mem_toFinset, List.mem_toFinset, mem_keys_distinct]
  rw [hset, List.toFinset_card_of_nodup (nodup_keys_distinct items), List.length_map]

-- What depends on the key only may be looked at before or after.
theorem filter_distinct {p : α → Bool} (hp : ∀ a b, key a = key b → p a = p b) (items : List α) :
    (distinct key items).filter p = distinct key (items.filter p) := by
  induction items with
  | nil => rfl
  | cons a items ih =>
      have hswap : ((distinct key items).filter fun b => key b ≠ key a).filter p =
          (distinct key (items.filter p)).filter fun b => key b ≠ key a := by
        rw [List.filter_filter, ← ih, List.filter_filter]
        simp only [Bool.and_comm]
      by_cases hpa : p a = true
      · rw [distinct, List.filter_cons_of_pos hpa, hswap, List.filter_cons_of_pos hpa, distinct]
      · rw [distinct, List.filter_cons_of_neg hpa, hswap, List.filter_cons_of_neg hpa]
        refine List.filter_eq_self.mpr fun b hb => decide_eq_true fun hkey => hpa ?_
        rw [← hp b a hkey]
        exact (List.mem_filter.mp (mem_of_mem_distinct hb)).2

end Distinct

section Sorting

variable [LinearOrder β] (rank : α → β)

-- Highest rank first, equal ranks in the order they come in.
def sorted (items : List α) : List α := items.mergeSort fun a b => decide (rank b ≤ rank a)

variable {rank} {items other : List α} {a b : α}

theorem mem_sorted : a ∈ sorted rank items ↔ a ∈ items := List.mem_mergeSort

theorem sorted_perm (items : List α) : (sorted rank items).Perm items := List.mergeSort_perm items _

theorem not_below_trans (a b c : α) (hab : decide (rank b ≤ rank a) = true)
    (hbc : decide (rank c ≤ rank b) = true) : decide (rank c ≤ rank a) = true :=
  decide_eq_true ((of_decide_eq_true hbc).trans (of_decide_eq_true hab))

theorem not_below_total (a b : α) : (decide (rank b ≤ rank a) || decide (rank a ≤ rank b)) = true := by
  rcases le_total (rank a) (rank b) with hle | hle <;> simp [hle]

theorem sorted_pairwise (items : List α) : (sorted rank items).Pairwise fun a b => rank b ≤ rank a :=
  (List.pairwise_mergeSort not_below_trans not_below_total items).imp of_decide_eq_true

-- The items of one rank keep their order.
theorem filter_sorted (items : List α) (r : β) :
    (sorted rank items).filter (fun a => rank a = r) = items.filter fun a => rank a = r := by
  have hclass : (items.filter fun a => rank a = r).Pairwise fun a b => decide (rank b ≤ rank a) = true := by
    refine List.pairwise_of_forall_mem_list fun a ha b hb => ?_
    have hra := of_decide_eq_true (List.mem_filter.mp ha).2
    have hrb := of_decide_eq_true (List.mem_filter.mp hb).2
    exact decide_eq_true (hrb.trans hra.symm).le
  have hsub := (List.sublist_mergeSort not_below_trans not_below_total hclass List.filter_sublist).filter
    fun a => decide (rank a = r)
  rw [List.filter_filter] at hsub
  simp only [Bool.and_self] at hsub
  refine (hsub.eq_of_length ?_).symm
  exact ((sorted_perm items).filter _).length_eq.symm

-- A sorted list is told by the items of each rank.
theorem eq_of_ranks (hitems : items.Pairwise fun a b => rank b ≤ rank a)
    (hother : other.Pairwise fun a b => rank b ≤ rank a)
    (h : ∀ r, (items.filter fun a => rank a = r) = other.filter fun a => rank a = r) :
    items = other := by
  induction items generalizing other with
  | nil =>
      cases other with
      | nil => rfl
      | cons b other =>
          have hb := h (rank b)
          simp at hb
  | cons a items ih =>
      cases other with
      | nil =>
          have ha := h (rank a)
          simp at ha
      | cons b other =>
          have hmem : a ∈ b :: other := by
            have ha : a ∈ (a :: items).filter fun c => rank c = rank a := by simp
            rw [h] at ha
            exact (List.mem_filter.mp ha).1
          have hmem' : b ∈ a :: items := by
            have hb : b ∈ (b :: other).filter fun c => rank c = rank b := by simp
            rw [← h] at hb
            exact (List.mem_filter.mp hb).1
          have hle : rank a ≤ rank b := by
            rcases List.mem_cons.mp hmem with rfl | hmem
            · exact le_rfl
            · exact (List.pairwise_cons.mp hother).1 a hmem
          have hle' : rank b ≤ rank a := by
            rcases List.mem_cons.mp hmem' with rfl | hmem'
            · exact le_rfl
            · exact (List.pairwise_cons.mp hitems).1 b hmem'
          have hrank := le_antisymm hle hle'
          have hhead := h (rank a)
          rw [List.filter_cons_of_pos (by simp), List.filter_cons_of_pos (by simp [hrank])] at hhead
          obtain ⟨rfl, -⟩ := List.cons.inj hhead
          refine congrArg (a :: ·) (ih (List.pairwise_cons.mp hitems).2 (List.pairwise_cons.mp hother).2
            fun r => ?_)
          have hr := h r
          by_cases har : rank a = r
          · rw [List.filter_cons_of_pos (by simpa using har),
              List.filter_cons_of_pos (by simpa using har)] at hr
            exact (List.cons.inj hr).2
          · rwa [List.filter_cons_of_neg (by simpa using har),
              List.filter_cons_of_neg (by simpa using har)] at hr

theorem sorted_eq_of_ranks (h : ∀ r, (items.filter fun a => rank a = r) = other.filter fun a => rank a = r) :
    sorted rank items = sorted rank other := by
  refine eq_of_ranks (sorted_pairwise items) (sorted_pairwise other) fun r => ?_
  rw [filter_sorted, filter_sorted, h]

theorem filter_mem_of_sublist [DecidableEq α] (hother : other.Nodup) (h : items.Sublist other) :
    other.filter (· ∈ items) = items := by
  induction h with
  | slnil => rfl
  | cons a h ih =>
      obtain ⟨ha, hrest⟩ := List.nodup_cons.mp hother
      rw [List.filter_cons_of_neg (by simpa using fun hmem => ha (h.subset hmem)), ih hrest]
  | cons_cons a h ih =>
      obtain ⟨ha, hrest⟩ := List.nodup_cons.mp hother
      rw [List.filter_cons_of_pos (by simp)]
      refine congrArg (a :: ·) ((List.filter_congr fun b hb => ?_).trans (ih hrest))
      have hne : b ≠ a := fun heq => ha (heq ▸ hb)
      simp [hne]

theorem sublist_sorted (hother : other.Nodup) (h : items.Sublist other) :
    (sorted rank items).Sublist (sorted rank other) := by
  classical
  have hkeep : (sorted rank other).filter (· ∈ items) = sorted rank items := by
    refine eq_of_ranks ((sorted_pairwise other).filter _) (sorted_pairwise items) fun r => ?_
    rw [List.filter_comm, filter_sorted, List.filter_comm, filter_mem_of_sublist hother h, filter_sorted]
  rw [← hkeep]
  exact List.filter_sublist

theorem take_of_sublist {n : Nat} (hother : other.Nodup) (h : items.Sublist other)
    (hfirst : ∀ a ∈ other.take n, a ∈ items) : items.take n = other.take n := by
  induction h generalizing n with
  | slnil => rfl
  | cons a h ih =>
      cases n with
      | zero => rfl
      | succ n =>
          have ha := hfirst a (by simp)
          exact absurd (h.subset ha) (List.nodup_cons.mp hother).1
  | cons_cons a h ih =>
      cases n with
      | zero => rfl
      | succ n =>
          obtain ⟨ha, hrest⟩ := List.nodup_cons.mp hother
          refine congrArg (a :: ·) (ih hrest fun b hb => ?_)
          have hne : b ≠ a := fun heq => ha (heq ▸ List.mem_of_mem_take hb)
          exact (List.mem_cons.mp (hfirst b (by simp [hb]))).resolve_left hne

theorem mem_of_pair_sublist {first last : List α} (hnodup : (first ++ a :: last).Nodup)
    (h : [b, a].Sublist (first ++ a :: last)) : b ∈ first := by
  have hlast : a ∉ last :=
    (List.nodup_cons.mp (hnodup.sublist (List.sublist_append_right first (a :: last)))).1
  obtain ⟨front, back, hpair, hfront, hback⟩ := List.sublist_append_iff.mp h
  cases front with
  | nil =>
      have htail : a ∈ last := by
        have hsub : [b, a].tail.Sublist (a :: last).tail := by
          rw [hpair]
          exact hback.tail
        exact hsub.subset (by simp)
      exact absurd htail hlast
  | cons c front =>
      obtain ⟨rfl, -⟩ := List.cons.inj hpair
      exact hfront.subset (by simp)

-- Of `n` items before it none of which ranks lower, an item is not among the first `n`.
theorem not_mem_take_sorted {n : Nat} (hnodup : (items ++ other).Nodup) (ha : a ∈ other)
    (hbefore : n ≤ (items.filter fun b => rank a ≤ rank b).length) :
    a ∉ (sorted rank (items ++ other)).take n := by
  intro htake
  have hsorted : (sorted rank (items ++ other)).Nodup := (sorted_perm _).nodup_iff.mpr hnodup
  obtain ⟨first, last, hsplit⟩ :=
    List.append_of_mem (mem_sorted.mpr (List.mem_append_right items ha) : a ∈ sorted rank (items ++ other))
  have hsub : (items.filter fun b => rank a ≤ rank b) ⊆ first := by
    intro b hb
    obtain ⟨hb, hrank⟩ := List.mem_filter.mp hb
    have hpair : [b, a].Sublist (items ++ other) :=
      (List.singleton_sublist.mpr hb).append (List.singleton_sublist.mpr ha)
    have hpair' : [b, a].Sublist (sorted rank (items ++ other)) :=
      List.pair_sublist_mergeSort not_below_trans not_below_total hrank hpair
    rw [hsplit] at hpair' hsorted
    exact mem_of_pair_sublist hsorted hpair'
  have hlength : (items.filter fun b => rank a ≤ rank b).length ≤ first.length :=
    ((hnodup.sublist (List.sublist_append_left _ _)).filter _ |>.subperm hsub).length_le
  rw [hsplit, List.take_append_of_le_length (hbefore.trans hlength)] at htake
  have hfirst : a ∈ first := List.mem_of_mem_take htake
  rw [hsplit, List.nodup_append] at hsorted
  exact hsorted.2.2 a hfirst a (by simp) rfl

end Sorting

section Buffer

variable [LinearOrder β] (rank : α → β)

-- A buffer of the `n` newest of the distinct items.
def newest (n : Nat) (items : List α) : List α := (sorted rank (distinct key items)).take n

variable {key rank} {n : Nat} {items other : List α} {a : α}

theorem nodup_keys_sorted (items : List α) : ((sorted rank (distinct key items)).map key).Nodup :=
  ((sorted_perm _).map key).nodup_iff.mpr (nodup_keys_distinct items)

theorem nodup_keys_newest (n : Nat) (items : List α) : ((newest key rank n items).map key).Nodup :=
  (nodup_keys_sorted items).sublist ((List.take_sublist n _).map key)

theorem newest_pairwise (n : Nat) (items : List α) :
    (newest key rank n items).Pairwise fun a b => rank b ≤ rank a :=
  (sorted_pairwise _).sublist (List.take_sublist n _)

theorem mem_of_mem_newest (h : a ∈ newest key rank n items) : a ∈ items :=
  mem_of_mem_distinct (mem_sorted.mp (List.mem_of_mem_take h))

theorem length_newest (n : Nat) (items : List α) :
    (newest key rank n items).length = min n (items.map key).toFinset.card := by
  rw [newest, List.length_take, (sorted_perm _).length_eq, length_distinct]

-- Items of one key rank alike.
def Ranked (key : α → κ) (rank : α → β) (items : List α) : Prop :=
  ∀ a ∈ items, ∀ b ∈ items, key a = key b → rank a = rank b

-- What is left out is not newer than what is kept.
theorem rank_le_of_left_out (hranked : Ranked key rank items) (ha : a ∈ items)
    (hout : key a ∉ (newest key rank n items).map key) :
    ∀ b ∈ newest key rank n items, rank a ≤ rank b := by
  intro b hb
  obtain ⟨c, hc, hkey⟩ := List.mem_map.mp ((mem_keys_distinct (key a)).mpr (List.mem_map_of_mem ha))
  have hc' : c ∈ sorted rank (distinct key items) := mem_sorted.mpr hc
  rw [← List.take_append_drop n (sorted rank (distinct key items)), List.mem_append] at hc'
  rcases hc' with hkept | hdropped
  · exact absurd (hkey ▸ List.mem_map_of_mem hkept) hout
  · have hpair : (sorted rank (distinct key items)).Pairwise fun a b => rank b ≤ rank a :=
      sorted_pairwise _
    rw [← List.take_append_drop n (sorted rank (distinct key items)), List.pairwise_append] at hpair
    have hsame := hranked a ha c (mem_of_mem_distinct hc) hkey.symm
    exact hsame.le.trans (hpair.2.2 b hb c hdropped)

section Merge

variable (hrank : ∀ a b, key a = key b → rank a = rank b)
include hrank

theorem filter_rank_distinct (items : List α) (r : β) :
    (distinct key items).filter (fun a => rank a = r) = distinct key (items.filter fun a => rank a = r) :=
  filter_distinct (fun a b hkey => by rw [hrank a b hkey]) items

-- Without the cut, a part may be merged first.
theorem sorted_merge_left (items other : List α) :
    sorted rank (distinct key (sorted rank (distinct key items) ++ other)) =
      sorted rank (distinct key (items ++ other)) := by
  refine sorted_eq_of_ranks fun r => ?_
  rw [filter_rank_distinct hrank, List.filter_append, filter_sorted, filter_rank_distinct hrank,
    filter_rank_distinct hrank, List.filter_append, distinct_append, distinct_append, distinct_distinct]
  refine congrArg _ (List.filter_congr fun b _ => ?_)
  simp only [mem_keys_distinct]

theorem sorted_merge_right (items other : List α) :
    sorted rank (distinct key (items ++ sorted rank (distinct key other))) =
      sorted rank (distinct key (items ++ other)) := by
  refine sorted_eq_of_ranks fun r => ?_
  rw [filter_rank_distinct hrank, List.filter_append, filter_sorted, filter_rank_distinct hrank,
    filter_rank_distinct hrank, List.filter_append, distinct_append, distinct_append, distinct_distinct]

section Cut

variable {kept dropped : List α} (hkeys : ((kept ++ dropped).map key).Nodup)
  (hsorted : (kept ++ dropped).Pairwise fun a b => rank b ≤ rank a)
  (hfull : dropped ≠ [] → kept.length = n)
include hkeys hsorted hfull

omit hrank hkeys [DecidableEq κ] in
theorem rank_le_of_dropped (ha : a ∈ dropped) :
    (kept.filter fun b => rank a ≤ rank b) = kept ∧ kept.length = n := by
  refine ⟨List.filter_eq_self.mpr fun b hb => decide_eq_true ?_, hfull (List.ne_nil_of_mem ha)⟩
  exact (List.pairwise_append.mp hsorted).2.2 b hb a ha

-- What a cut has dropped does not come back when items are put in front: each of the kept ones
-- is still there, or another of its key is.
theorem take_cut_right (items : List α) :
    (sorted rank (distinct key (items ++ kept))).take n =
      (sorted rank (distinct key (items ++ (kept ++ dropped)))).take n := by
  have hkept : (kept.map key).Nodup := hkeys.sublist ((List.sublist_append_left _ _).map key)
  rw [distinct_append, distinct_append, distinct_of_nodup hkept, distinct_of_nodup hkeys,
    List.filter_append, ← List.append_assoc]
  generalize hfront : distinct key items ++ kept.filter (fun b => key b ∉ items.map key) = front
  have hnodup : (front ++ dropped.filter fun b => key b ∉ items.map key).Nodup := by
    have hall : ((distinct key (items ++ (kept ++ dropped))).map key).Nodup := nodup_keys_distinct _
    rw [distinct_append, distinct_of_nodup hkeys, List.filter_append, ← List.append_assoc, hfront] at hall
    exact hall.of_map key
  refine take_of_sublist ((sorted_perm _).nodup_iff.mpr hnodup)
    (sublist_sorted hnodup (List.sublist_append_left _ _)) fun a ha => mem_sorted.mpr ?_
  rcases List.mem_append.mp (mem_sorted.mp (List.mem_of_mem_take ha)) with hmem | hmem
  · exact hmem
  · refine absurd ha (not_mem_take_sorted hnodup hmem ?_)
    obtain ⟨hhigh, hlength⟩ := rank_le_of_dropped hsorted hfull (List.mem_filter.mp hmem).1
    -- The keys of the kept items are all among those of the items in front.
    have hcover : kept.map key ⊆ (front.filter fun b => rank a ≤ rank b).map key := by
      intro k hk
      obtain ⟨b, hb, rfl⟩ := List.mem_map.mp hk
      have hrank' : rank a ≤ rank b := by
        rw [← hhigh] at hb
        exact of_decide_eq_true (List.mem_filter.mp hb).2
      by_cases hin : key b ∈ items.map key
      · obtain ⟨c, hc, hkey⟩ := List.mem_map.mp ((mem_keys_distinct (key b)).mpr hin)
        refine List.mem_map.mpr ⟨c, List.mem_filter.mpr ⟨?_, decide_eq_true ?_⟩, hkey⟩
        · rw [← hfront]
          exact List.mem_append_left _ hc
        · rw [hrank c b hkey]
          exact hrank'
      · refine List.mem_map_of_mem (List.mem_filter.mpr ⟨?_, decide_eq_true hrank'⟩)
        rw [← hfront]
        exact List.mem_append_right _ (List.mem_filter.mpr ⟨hb, by simpa using hin⟩)
    have hle := (hkept.subperm hcover).length_le
    rw [List.length_map, List.length_map, hlength] at hle
    exact hle

-- Nor when items are added behind: one of a dropped key comes after all of the kept.
theorem take_cut_left (items : List α) :
    (sorted rank (distinct key (kept ++ items))).take n =
      (sorted rank (distinct key (kept ++ dropped ++ items))).take n := by
  have hkept : (kept.map key).Nodup := hkeys.sublist ((List.sublist_append_left _ _).map key)
  have hlow : ∀ rest : List α, (kept ++ rest).Nodup → ∀ a ∈ rest, key a ∈ dropped.map key →
      a ∉ (sorted rank (kept ++ rest)).take n := by
    intro rest hnodup a ha hin
    obtain ⟨b, hb, hkey⟩ := List.mem_map.mp hin
    obtain ⟨hhigh, hlength⟩ := rank_le_of_dropped hsorted hfull hb
    rw [hrank b a hkey] at hhigh
    refine not_mem_take_sorted hnodup ha ?_
    rw [hhigh, hlength]
  have hnodup : (distinct key (kept ++ items)).Nodup := (nodup_keys_distinct _).of_map key
  have hnodup' : (distinct key (kept ++ dropped ++ items)).Nodup := (nodup_keys_distinct _).of_map key
  rw [distinct_append, distinct_of_nodup hkept] at hnodup ⊢
  rw [distinct_append, distinct_of_nodup hkeys, List.append_assoc] at hnodup' ⊢
  generalize hnew : (distinct key items).filter (fun b => key b ∉ (kept ++ dropped).map key) = new at *
  have hsub : new.Sublist ((distinct key items).filter fun b => key b ∉ kept.map key) := by
    rw [← hnew]
    refine List.monotone_filter_right _ fun b hb => ?_
    simp only [List.map_append, List.mem_append, not_or, decide_eq_true_eq] at hb ⊢
    exact hb.1
  have hmerge : ∀ rest : List α, (kept ++ rest).Nodup → new.Sublist rest →
      (∀ a ∈ rest, a ∉ new → key a ∈ dropped.map key) →
      (sorted rank (kept ++ new)).take n = (sorted rank (kept ++ rest)).take n := by
    intro rest hrest hnewrest hothers
    refine take_of_sublist ((sorted_perm _).nodup_iff.mpr hrest)
      (sublist_sorted hrest (hnewrest.append_left kept)) fun a ha => mem_sorted.mpr ?_
    rcases List.mem_append.mp (mem_sorted.mp (List.mem_of_mem_take ha)) with hmem | hmem
    · exact List.mem_append_left _ hmem
    · by_contra hnot
      refine hlow rest hrest a hmem (hothers a hmem fun hin => hnot ?_) ha
      exact List.mem_append_right _ hin
  rw [← hmerge _ hnodup hsub, ← hmerge _ hnodup' (List.sublist_append_right _ _)]
  · intro a ha hnot
    exact List.mem_map_of_mem ((List.mem_append.mp ha).resolve_right hnot)
  · intro a ha hnot
    obtain ⟨hmem, hkept'⟩ := List.mem_filter.mp ha
    by_contra hdropped
    refine hnot ?_
    rw [← hnew]
    refine List.mem_filter.mpr ⟨hmem, decide_eq_true ?_⟩
    rw [List.map_append, List.mem_append, not_or]
    exact ⟨of_decide_eq_true hkept', hdropped⟩

end Cut

theorem merge_right (items other : List α) :
    newest key rank n (items ++ newest key rank n other) = newest key rank n (items ++ other) := by
  have hsplit := List.take_append_drop n (sorted rank (distinct key other))
  rw [newest, newest, newest, ← sorted_merge_right hrank items other]
  conv_rhs => rw [← hsplit]
  refine take_cut_right hrank (hsplit.symm ▸ nodup_keys_sorted other) (hsplit.symm ▸ sorted_pairwise _)
    (fun hne => ?_) items
  rw [ne_eq, List.drop_eq_nil_iff, not_le] at hne
  exact List.length_take_of_le hne.le

theorem merge_left (items other : List α) :
    newest key rank n (newest key rank n items ++ other) = newest key rank n (items ++ other) := by
  have hsplit := List.take_append_drop n (sorted rank (distinct key items))
  rw [newest, newest, newest, ← sorted_merge_left hrank items other]
  conv_rhs => rw [← hsplit]
  refine take_cut_left hrank (hsplit.symm ▸ nodup_keys_sorted items) (hsplit.symm ▸ sorted_pairwise _)
    (fun hne => ?_) other
  rw [ne_eq, List.drop_eq_nil_iff, not_le] at hne
  exact List.length_take_of_le hne.le

end Merge

section Ranks

variable {γ : Type*} [LinearOrder γ] {rank' : α → γ}

-- Only the order of the ranks matters.
theorem sorted_congr (h : ∀ a ∈ items, ∀ b ∈ items, rank a ≤ rank b ↔ rank' a ≤ rank' b) :
    sorted rank items = sorted rank' items := by
  have hpair : (sorted rank' items).Pairwise fun a b => rank' b ≤ rank' a := sorted_pairwise items
  refine eq_of_ranks (sorted_pairwise items) ?_ fun r => ?_
  · refine hpair.imp_of_mem fun ha hb hle => ?_
    exact (h _ (mem_sorted.mp hb) _ (mem_sorted.mp ha)).mpr hle
  · rw [filter_sorted]
    by_cases hr : ∃ c ∈ items, rank c = r
    · obtain ⟨c, hc, rfl⟩ := hr
      have hclass : ∀ a ∈ items, decide (rank a = rank c) = decide (rank' a = rank' c) := by
        intro a ha
        rw [decide_eq_decide, le_antisymm_iff, le_antisymm_iff, h a ha c hc, h c hc a ha]
      rw [List.filter_congr hclass, List.filter_congr fun a ha => hclass a (mem_sorted.mp ha), filter_sorted]
    · have hnone : ∀ a ∈ items, decide (rank a = r) = false :=
        fun a ha => decide_eq_false fun hra => hr ⟨a, ha, hra⟩
      rw [List.filter_eq_nil_iff.mpr fun a ha => Bool.not_eq_true _ ▸ hnone a ha,
        List.filter_eq_nil_iff.mpr fun a ha => Bool.not_eq_true _ ▸ hnone a (mem_sorted.mp ha)]

theorem newest_congr (h : ∀ a ∈ items, ∀ b ∈ items, rank a ≤ rank b ↔ rank' a ≤ rank' b) :
    newest key rank n items = newest key rank' n items := by
  rw [newest, newest, sorted_congr fun a ha b hb =>
    h a (mem_of_mem_distinct ha) b (mem_of_mem_distinct hb)]

end Ranks

-- The rank of the first item that has the key.
def keyRank (key : α → κ) (rank : α → β) (items : List α) (a : α) : WithBot β :=
  (items.find? fun b => key b = key a).map rank

omit [LinearOrder β] in
theorem keyRank_congr (a b : α) (h : key a = key b) :
    keyRank key rank items a = keyRank key rank items b := by
  rw [keyRank, keyRank, h]

omit [LinearOrder β] in
theorem keyRank_eq (hranked : Ranked key rank items) (ha : a ∈ items) :
    keyRank key rank items a = rank a := by
  cases hfind : items.find? fun b => key b = key a with
  | none => simpa using List.find?_eq_none.mp hfind a ha
  | some b =>
      have hkey : key b = key a := by simpa using List.find?_some hfind
      rw [keyRank, hfind, Option.map_some, hranked b (List.mem_of_find?_eq_some hfind) a ha hkey]
      rfl

theorem newest_keyRank (hranked : Ranked key rank other) (hsub : items ⊆ other) :
    newest key rank n items = newest key (keyRank key rank other) n items := by
  refine newest_congr fun a ha b hb => ?_
  rw [keyRank_eq hranked (hsub ha), keyRank_eq hranked (hsub hb), WithBot.coe_le_coe]

-- A buffer may be merged with what comes before or after it: the cut loses nothing.
theorem newest_append_newest (hranked : Ranked key rank (items ++ other)) :
    newest key rank n (items ++ newest key rank n other) = newest key rank n (items ++ other) := by
  have hsub : items ++ newest key rank n other ⊆ items ++ other :=
    List.append_subset.mpr ⟨List.subset_append_left _ _,
      fun a ha => List.mem_append_right _ (mem_of_mem_newest ha)⟩
  rw [newest_keyRank hranked hsub, newest_keyRank hranked (List.subset_append_right _ _),
    merge_right keyRank_congr, ← newest_keyRank hranked (List.Subset.refl _)]

theorem newest_newest_append (hranked : Ranked key rank (items ++ other)) :
    newest key rank n (newest key rank n items ++ other) = newest key rank n (items ++ other) := by
  have hsub : newest key rank n items ++ other ⊆ items ++ other :=
    List.append_subset.mpr ⟨fun a ha => List.mem_append_left _ (mem_of_mem_newest ha),
      List.subset_append_right _ _⟩
  rw [newest_keyRank hranked hsub, newest_keyRank hranked (List.subset_append_left _ _),
    merge_left keyRank_congr, ← newest_keyRank hranked (List.Subset.refl _)]

end Buffer

section Insertion

variable {r : α → α → Prop} [DecidableRel r]

theorem orderedInsert_of_forall {a : α} {items : List α} (h : ∀ b ∈ items, r a b) :
    items.orderedInsert r a = a :: items := by
  cases items with
  | nil => rfl
  | cons b items => exact List.orderedInsert_cons_of_le r items (h b List.mem_cons_self)

variable [IsTrans α r]

theorem filter_orderedInsert (p : α → Bool) (a : α) {items : List α} (hitems : items.Pairwise r) :
    (items.orderedInsert r a).filter p =
      if p a then (items.filter p).orderedInsert r a else items.filter p := by
  induction items with
  | nil => by_cases ha : p a = true <;> simp [ha]
  | cons b items ih =>
      obtain ⟨hb, hrest⟩ := List.pairwise_cons.mp hitems
      by_cases hab : r a b
      · -- What follows is not before `a` either.
        have hall : ∀ c ∈ (b :: items).filter p, r a c := by
          intro c hc
          rcases List.mem_cons.mp (List.mem_filter.mp hc).1 with rfl | hc
          · exact hab
          · exact IsTrans.trans a b c hab (hb c hc)
        rw [List.orderedInsert_cons_of_le r items hab, orderedInsert_of_forall hall, List.filter_cons]
      · rw [List.orderedInsert_of_not_le r items hab, List.filter_cons, ih hrest]
        by_cases hpa : p a = true <;> by_cases hpb : p b = true <;> simp [hpa, hpb, hab]

variable [Std.Total r]

-- Sorting keeps the order of what is left out or in.
theorem filter_insertionSort (p : α → Bool) (items : List α) :
    (items.insertionSort r).filter p = (items.filter p).insertionSort r := by
  induction items with
  | nil => rfl
  | cons a items ih =>
      rw [List.insertionSort_cons, filter_orderedInsert p a (List.pairwise_insertionSort _ _), ih,
        List.filter_cons]
      split <;> rfl

end Insertion

section Decreasing

variable [LinearOrder α] {n : Nat} {items : List α} {a : α}

-- The first `n` of a decreasing list are those that have fewer than `n` above them.
theorem mem_take_of_decreasing (hitems : items.Pairwise (· > ·)) (ha : a ∈ items) :
    a ∈ items.take n ↔ items.countP (fun b => decide (a < b)) < n := by
  induction items generalizing n with
  | nil => cases ha
  | cons b items ih =>
      obtain ⟨hbelow, hrest⟩ := List.pairwise_cons.mp hitems
      cases n with
      | zero => simp
      | succ n =>
          rw [List.take_succ_cons, List.mem_cons, List.countP_cons]
          rcases List.mem_cons.mp ha with rfl | ha
          · have hnone : items.countP (fun b => decide (a < b)) = 0 :=
              List.countP_eq_zero.mpr fun c hc => by simpa using (hbelow c hc).le
            simp [hnone]
          · have hlt : a < b := hbelow a ha
            simp [ih hrest ha, hlt, hlt.ne]

end Decreasing

end Newest
