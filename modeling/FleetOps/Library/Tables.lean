import FleetOps.Library.Dict

namespace Tables

open Dict

variable {α β κ : Type*} [BEq κ] [LawfulBEq κ] (key : α → κ)

section Statements

-- UPDATE .. FROM others WHERE others.key = key. Where the keys of the others are distinct, a row
-- joins at most one of them.
def update_from (set : α → β → α) (others : List (κ × β)) (rows : List α) : List α :=
  rows.map fun a => ((others.lookup (key a)).map (set a)).getD a

-- WHERE NOT EXISTS (SELECT 1 FROM others WHERE others.key = key)
def anti_join (others : List κ) (rows : List α) : List α := rows.filter fun a => decide (key a ∉ others)

-- INSERT under a primary key; `none` is a key that is taken.
def insert_into (rows new : List α) : Option (List α) :=
  new.foldlM (fun rows a => if key a ∈ rows.map key then none else some (rows ++ [a])) rows

end Statements

variable {key}

-- New keys violate nothing.
theorem insert_into_of_nodup {rows new : List α} (h : ((rows ++ new).map key).Nodup) :
    insert_into key rows new = some (rows ++ new) := by
  induction new generalizing rows with
  | nil => rw [List.append_nil]; rfl
  | cons a new ih =>
      have hnew : key a ∉ rows.map key := by
        rw [List.map_append, List.nodup_append] at h
        exact fun hmem => h.2.2 (key a) hmem (key a) (by simp) rfl
      rw [← List.singleton_append, ← List.append_assoc] at h
      have hrest := ih h
      rw [insert_into] at hrest
      rw [insert_into, List.foldlM_cons, if_neg hnew, Option.bind_eq_bind, Option.bind_some, hrest,
        List.append_assoc, List.singleton_append]

section Groups

theorem mem_groupBy {rows : List α} {k : κ} {group : List α} :
    (k, group) ∈ groupBy key rows ↔ group ≠ [] ∧ group = rows.filter fun a => key a == k := by
  rw [← lookup_iff_mem (nodup_keys_groupBy key rows), lookup_groupBy]
  split
  · rename_i hnil
    simp [hnil]
  · rename_i hsome
    rw [Option.some.injEq]
    constructor
    · rintro rfl
      exact ⟨hsome, rfl⟩
    · rintro ⟨-, rfl⟩
      rfl

-- The rows of a key that the others do not have.
theorem filter_anti_join {others : List κ} {k : κ} (hk : k ∉ others) (rows : List α) :
    (anti_join key others rows).filter (fun a => key a == k) = rows.filter fun a => key a == k := by
  rw [anti_join, List.filter_filter]
  refine List.filter_congr fun a _ => ?_
  by_cases ha : key a = k
  · simp [ha, hk]
  · simp [ha]

theorem mem_groupBy_anti_join {others : List κ} {rows : List α} {k : κ} {group : List α} :
    (k, group) ∈ groupBy key (anti_join key others rows) ↔
      k ∉ others ∧ group ≠ [] ∧ group = rows.filter fun a => key a == k := by
  rw [mem_groupBy]
  by_cases hk : k ∈ others
  · have hnone : (anti_join key others rows).filter (fun a => key a == k) = [] := by
      rw [List.filter_eq_nil_iff]
      intro a ha heq
      have hnot := (List.mem_filter.mp ha).2
      rw [eq_of_beq heq] at hnot
      exact of_decide_eq_true hnot hk
    simp [hnone, hk]
  · rw [filter_anti_join hk]
    simp [hk]

end Groups

end Tables
