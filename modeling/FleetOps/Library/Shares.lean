import Mathlib

namespace Shares

open Set

section Blocks

variable {α : Type*} [LinearOrder α] {cut : ℕ → α}

-- The blocks between cuts that are in order leave nothing out.
theorem biUnion_blocks (h : Monotone cut) (n : ℕ) :
    ⋃ i ∈ Finset.range n, Ico (cut i) (cut (i + 1)) = Ico (cut 0) (cut n) := by
  refine (Set.iUnion₂_subset fun i hi => ?_).antisymm (Ico_subset_biUnion_Ico n cut)
  have hlt := Finset.mem_range.mp hi
  exact Ico_subset_Ico (h (Nat.zero_le i)) (h hlt)

theorem disjoint_blocks (h : Monotone cut) {i j : ℕ} (hne : i ≠ j) :
    Disjoint (Ico (cut i) (cut (i + 1))) (Ico (cut j) (cut (j + 1))) :=
  h.pairwise_disjoint_on_Ico_succ hne

theorem existsUnique_block (h : Monotone cut) {n : ℕ} {a : α} :
    (∃! i, i < n ∧ a ∈ Ico (cut i) (cut (i + 1))) ↔ a ∈ Ico (cut 0) (cut n) := by
  rw [← biUnion_blocks h n]
  simp only [mem_iUnion, Finset.mem_range, exists_prop]
  constructor
  · rintro ⟨i, hi, -⟩
    exact ⟨i, hi⟩
  · rintro ⟨i, hi⟩
    refine ⟨i, hi, fun j hj => ?_⟩
    by_contra hne
    exact Set.disjoint_left.mp (disjoint_blocks h hne) hj.2 hi.2

end Blocks

section Sizes

variable (first : ℕ) (size : ℕ → ℕ)

-- The blocks of these sizes follow one another from `first` on.
def cut (i : ℕ) : ℕ := ((List.range i).map size).sum + first

@[simp] theorem cut_zero : cut first size 0 = first := by simp [cut]

theorem cut_succ (i : ℕ) : cut first size (i + 1) = cut first size i + size i := by
  rw [cut, cut, List.sum_range_succ]
  omega

theorem monotone_cut : Monotone (cut first size) := by
  refine monotone_nat_of_le_succ fun i => ?_
  rw [cut_succ]
  exact Nat.le_add_right _ _

-- The lists of the blocks make up one list.
theorem flatMap_blocks (n : ℕ) :
    (List.range n).flatMap (fun i => List.range' (cut first size i) (size i)) =
      List.range' first (((List.range n).map size).sum) := by
  induction n with
  | zero => rfl
  | succ n ih =>
      have hcut : cut first size n = first + ((List.range n).map size).sum := Nat.add_comm _ _
      rw [List.range_succ, List.flatMap_append, ih, List.flatMap_singleton, hcut,
        List.range'_append_1, List.map_append, List.sum_append, List.map_singleton, List.sum_singleton]

end Sizes

section Even

variable {total n : ℕ}

-- The share of the `i`-th of `n`: the first ones take one each of what does not divide.
def share (total n i : ℕ) : ℕ := total / n + if i < total % n then 1 else 0

theorem sum_shares (k : ℕ) :
    ((List.range k).map (share total n)).sum = k * (total / n) + min k (total % n) := by
  induction k with
  | zero => simp
  | succ k ih =>
      rw [List.sum_range_succ, ih, share, Nat.succ_mul]
      split <;> omega

theorem sum_all_shares (hn : 0 < n) : ((List.range n).map (share total n)).sum = total := by
  have hrest := Nat.mod_lt total hn
  rw [sum_shares, Nat.min_eq_right hrest.le]
  exact Nat.div_add_mod total n

theorem share_le_succ (i j : ℕ) : share total n i ≤ share total n j + 1 := by
  unfold share
  split <;> omega

theorem cut_shares (first : ℕ) (hn : 0 < n) : cut first (share total n) n = total + first := by
  rw [cut, sum_all_shares hn]

end Even

end Shares
