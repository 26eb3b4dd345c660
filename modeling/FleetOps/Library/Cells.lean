import Mathlib.Algebra.GroupWithZero.Nat
import Mathlib.Data.List.Dedup
import Mathlib.Data.List.Nodup
import Mathlib.Data.List.Perm.Subperm

namespace Cells

section Counts

variable {α : Type*}

-- How many of the items are in each cell.
def counts (cells : List (α → Bool)) (items : List α) : List Nat :=
  cells.map fun cell => items.countP cell

def covered (cells : List (α → Bool)) (a : α) : Bool := cells.any fun cell => cell a

-- Nothing is in two of the cells.
def Apart (cells : List (α → Bool)) : Prop :=
  cells.Pairwise fun p q => ∀ a, p a = true → q a = false

variable {cells : List (α → Bool)} {items : List α}

theorem countP_or {p q : α → Bool} (h : ∀ a, p a = true → q a = false) (items : List α) :
    items.countP (fun a => p a || q a) = items.countP p + items.countP q := by
  induction items with
  | nil => rfl
  | cons a items ih =>
      rw [List.countP_cons, List.countP_cons, List.countP_cons, ih]
      cases ha : p a with
      | true => simp [h a ha, Nat.add_right_comm]
      | false => simp [Nat.add_assoc]

-- Each item that is in a cell is counted once.
theorem sum_counts (hcells : Apart cells) (items : List α) :
    (counts cells items).sum = items.countP (covered cells) := by
  induction cells with
  | nil => exact (List.countP_eq_zero.mpr fun _ _ => Bool.false_ne_true).symm
  | cons p cells ih =>
      obtain ⟨hp, hrest⟩ := List.pairwise_cons.mp hcells
      have hapart : ∀ a, p a = true → covered cells a = false := by
        intro a ha
        exact List.any_eq_false.mpr fun q hq => by simp [hp q hq a ha]
      calc (counts (p :: cells) items).sum
          = items.countP p + (counts cells items).sum := by simp [counts]
        _ = items.countP p + items.countP (covered cells) := by rw [ih hrest]
        _ = items.countP fun a => p a || covered cells a := (countP_or hapart items).symm
        _ = items.countP (covered (p :: cells)) := rfl

theorem sum_counts_eq_length (hcells : Apart cells) :
    (counts cells items).sum = items.length ↔ ∀ a ∈ items, covered cells a = true := by
  rw [sum_counts hcells, List.countP_eq_length]

-- An item whose key no other has is counted once if it is in a cell, and else not at all.
theorem counted_once_iff {κ : Type*} [DecidableEq κ] {key : α → κ} (hcells : Apart cells)
    (hkeys : (items.map key).Nodup) {k : κ} :
    (counts cells (items.filter fun a => key a = k)).sum = 1 ↔
      ∃ a ∈ items, key a = k ∧ covered cells a = true := by
  have hnodup : ((items.filter (covered cells)).map key).Nodup :=
    hkeys.sublist (List.filter_sublist.map key)
  have hcount : (counts cells (items.filter fun a => key a = k)).sum =
      ((items.filter (covered cells)).map key).count k := by
    rw [sum_counts hcells, List.countP_filter, List.count, List.countP_map, List.countP_filter]
    refine List.countP_congr fun a _ => ?_
    simp [and_comm]
  have hmem : (∃ a ∈ items, key a = k ∧ covered cells a = true) ↔
      k ∈ (items.filter (covered cells)).map key := by
    simp only [List.mem_map, List.mem_filter, and_assoc, and_comm]
  rw [hcount, hmem]
  exact ⟨fun h => List.count_pos_iff.mp (h ▸ Nat.one_pos), List.count_eq_one_of_mem hnodup⟩

end Counts

section Compared

variable {α : Type*} {xs ys : List α} {p : α → Bool}

theorem filter_subset (hsub : ∀ a ∈ xs, p a = true → a ∈ ys) : xs.filter p ⊆ ys.filter p := by
  intro a ha
  obtain ⟨ha, hp⟩ := List.mem_filter.mp ha
  exact List.mem_filter.mpr ⟨hsub a ha hp, hp⟩

theorem countP_le (hxs : xs.Nodup) (hsub : ∀ a ∈ xs, p a = true → a ∈ ys) :
    xs.countP p ≤ ys.countP p := by
  rw [List.countP_eq_length_filter, List.countP_eq_length_filter]
  exact (List.subperm_of_subset (hxs.filter p) (filter_subset hsub)).length_le

-- Of two lists of which the one has all that the other has in a cell, the counts tell whether
-- they have the same in it.
theorem countP_eq_iff (hxs : xs.Nodup) (hys : ys.Nodup) (hsub : ∀ a ∈ xs, p a = true → a ∈ ys) :
    xs.countP p = ys.countP p ↔ ∀ a ∈ ys, p a = true → a ∈ xs := by
  constructor
  · intro hcount a ha hp
    rw [List.countP_eq_length_filter, List.countP_eq_length_filter] at hcount
    have hperm := (List.subperm_of_subset (hxs.filter p) (filter_subset hsub)).perm_of_length_le
      (Nat.le_of_eq hcount.symm)
    exact (List.mem_filter.mp (hperm.mem_iff.mpr (List.mem_filter.mpr ⟨ha, hp⟩))).1
  · intro hback
    exact Nat.le_antisymm (countP_le hxs hsub) (countP_le hys hback)

end Compared

section Labels

variable {κ L : Type*} [DecidableEq L] {xs ys : List (κ × L)} {labels : List L} {bottom : L}

theorem count_label (xs : List (κ × L)) (label : L) :
    (xs.map Prod.snd).count label = xs.countP fun p => p.2 == label := by
  rw [List.count, List.countP_map]
  rfl

theorem count_label_eq_iff (hxs : xs.Nodup) (hys : ys.Nodup) {label : L}
    (hsub : ∀ k, (k, label) ∈ xs → (k, label) ∈ ys) :
    (xs.map Prod.snd).count label = (ys.map Prod.snd).count label ↔
      ∀ k, (k, label) ∈ xs ↔ (k, label) ∈ ys := by
  have hsub' : ∀ p ∈ xs, (p.2 == label) = true → p ∈ ys := by
    rintro ⟨k, l⟩ hp hl
    obtain rfl : l = label := by simpa using hl
    exact hsub k hp
  rw [count_label, count_label, countP_eq_iff hxs hys hsub']
  constructor
  · intro h k
    exact ⟨hsub k, fun hk => h (k, label) hk (by simp)⟩
  · rintro h ⟨k, l⟩ hp hl
    obtain rfl : l = label := by simpa using hl
    exact (h k).mpr hp

-- Of two labellings of which the second keeps a label or puts the bottom one in its place, the
-- numbers tell whether they agree: what one key takes from a number no other can add to it.
theorem labels_agree_iff (hxs : (xs.map Prod.fst).Nodup) (hys : (ys.map Prod.fst).Nodup)
    (hbottom : bottom ∈ labels)
    (hkeep : ∀ label ∈ labels, ∀ k, (k, label) ∈ xs → (k, label) ∈ ys ∨ (k, bottom) ∈ ys) :
    (∀ label ∈ labels, (xs.map Prod.snd).count label = (ys.map Prod.snd).count label) ↔
      ∀ label ∈ labels, ∀ k, (k, label) ∈ xs ↔ (k, label) ∈ ys := by
  have hsub : ∀ k, (k, bottom) ∈ xs → (k, bottom) ∈ ys :=
    fun k hk => (hkeep bottom hbottom k hk).elim id id
  constructor
  · intro hcounts
    have hdown := (count_label_eq_iff hxs.of_map hys.of_map hsub).mp (hcounts bottom hbottom)
    intro label hlabel
    refine (count_label_eq_iff hxs.of_map hys.of_map fun k hk => ?_).mp (hcounts label hlabel)
    rcases hkeep label hlabel k hk with hkept | hlost
    · exact hkept
    · -- The key would have two labels in the first.
      have heq : label = bottom :=
        congrArg Prod.snd (List.inj_on_of_nodup_map hxs hk ((hdown k).mpr hlost) rfl)
      exact heq ▸ hlost
  · intro hagree label hlabel
    exact (count_label_eq_iff hxs.of_map hys.of_map fun k => (hagree label hlabel k).mp).mpr
      (hagree label hlabel)

end Labels

section Distinct

variable {α β ι κ : Type*}

-- The distinct values are as many as the values exactly when none is there twice.
theorem length_dedup_iff [DecidableEq α] (xs : List α) : xs.dedup.length = xs.length ↔ xs.Nodup := by
  rw [← List.dedup_eq_self]
  exact ⟨(List.dedup_sublist xs).eq_of_length, congrArg List.length⟩

theorem length_dedup_eq [DecidableEq α] [DecidableEq β] {f : α → β} (hf : f.Injective) {xs : List α}
    {ys : List β} (h : ∀ b, b ∈ ys ↔ ∃ a ∈ xs, f a = b) : ys.dedup.length = xs.dedup.length := by
  have hperm : ys.dedup.Perm (xs.map f).dedup := by
    refine (List.perm_ext_iff_of_nodup (List.nodup_dedup _) (List.nodup_dedup _)).mpr fun b => ?_
    rw [List.mem_dedup, List.mem_dedup, List.mem_map]
    exact h b
  rw [hperm.length_eq, List.dedup_map_of_injective hf, List.length_map]

-- Where each owner uses a key once, a key is there twice only under two owners.
theorem nodup_keys_iff [DecidableEq ι] {owner : α → ι} {key : α → κ} {items : List α}
    (hown : ∀ i, ((items.filter fun a => owner a = i).map key).Nodup) :
    (items.map key).Nodup ↔ ∀ a ∈ items, ∀ b ∈ items, key a = key b → owner a = owner b := by
  constructor
  · intro hnodup a ha b hb heq
    exact congrArg owner (List.inj_on_of_nodup_map hnodup ha hb heq)
  · intro hone
    induction items with
    | nil => exact List.nodup_nil
    | cons a items ih =>
        have hfirst := hown (owner a)
        rw [List.filter_cons_of_pos (by simp), List.map_cons, List.nodup_cons] at hfirst
        rw [List.map_cons, List.nodup_cons]
        refine ⟨fun hmem => ?_, ih (fun i => (hown i).sublist
          (((List.sublist_cons_self a items).filter _).map key)) fun b hb c hc =>
            hone b (List.mem_cons_of_mem a hb) c (List.mem_cons_of_mem a hc)⟩
        obtain ⟨b, hb, heq⟩ := List.mem_map.mp hmem
        have howner : owner b = owner a := hone b (List.mem_cons_of_mem a hb) a List.mem_cons_self heq
        exact hfirst.1 (List.mem_map.mpr ⟨b, List.mem_filter.mpr ⟨hb, by simp [howner]⟩, heq⟩)

end Distinct

end Cells
