import Mathlib.Data.List.Induction
import Mathlib.Data.List.Nodup

namespace Dict

variable {κ α : Type*} [BEq κ] [LawfulBEq κ]

def assign (key : κ) (value : α) (p : κ × α) : κ × α := if p.1 == key then (key, value) else p

-- `d[key] = value` on a dict in insertion order: a new key comes last.
def setItem (d : List (κ × α)) (key : κ) (value : α) : List (κ × α) :=
  if d.any (fun p => p.1 == key) then d.map (assign key value) else d ++ [(key, value)]

theorem lookup_map_assign (d : List (κ × α)) {key k : κ} (value : α) (hne : k ≠ key) :
    (d.map (assign key value)).lookup k = d.lookup k := by
  induction d with
  | nil => rfl
  | cons p d ih =>
      obtain ⟨name, old⟩ := p
      by_cases hname : name = key
      · have hk : (k == key) = false := beq_false_of_ne hne
        simp [assign, hname, List.lookup_cons, hk, ih]
      · simp [assign, hname, List.lookup_cons, ih]

theorem lookup_map_assign_self (d : List (κ × α)) {key : κ} (value : α)
    (hany : d.any (fun p => p.1 == key) = true) :
    (d.map (assign key value)).lookup key = some value := by
  induction d with
  | nil => simp at hany
  | cons p d ih =>
      obtain ⟨name, old⟩ := p
      by_cases hname : name = key
      · simp [assign, hname]
      · have hkey : (key == name) = false := beq_false_of_ne (Ne.symm hname)
        have hrest : d.any (fun p => p.1 == key) = true := by simpa [hname] using hany
        simp [assign, hname, List.lookup_cons, hkey, ih hrest]

theorem lookup_setItem (d : List (κ × α)) (key k : κ) (value : α) :
    (setItem d key value).lookup k = if k == key then some value else d.lookup k := by
  unfold setItem
  split
  · rename_i hany
    by_cases hk : k = key
    · rw [hk, if_pos (by simp)]
      exact lookup_map_assign_self d value hany
    · rw [if_neg (by simpa using hk)]
      exact lookup_map_assign d value hk
  · rename_i hany
    rw [List.lookup_append]
    by_cases hk : k = key
    · have hnone : d.lookup key = none := by
        rw [List.lookup_eq_none_iff]
        intro p hp
        simp only [List.any_eq_true, not_exists, not_and] at hany
        simpa [bne, BEq.comm] using hany p hp
      simp [hk, hnone]
    · have hbeq : (k == key) = false := beq_false_of_ne hk
      simp [List.lookup_cons, hbeq]

theorem mem_of_lookup {d : List (κ × α)} {key : κ} {value : α} (h : d.lookup key = some value) :
    (key, value) ∈ d := by
  obtain ⟨xs, ys, rfl, _⟩ := List.lookup_eq_some_iff.mp h
  simp

omit [LawfulBEq κ] in
theorem mem_setItem {d : List (κ × α)} {key : κ} {value : α} {p : κ × α}
    (h : p ∈ setItem d key value) : p = (key, value) ∨ p ∈ d := by
  unfold setItem at h
  split at h
  · obtain ⟨q, hq, rfl⟩ := List.mem_map.mp h
    unfold assign
    split
    · exact Or.inl rfl
    · exact Or.inr hq
  · rcases List.mem_append.mp h with h | h
    · exact Or.inr h
    · exact Or.inl (List.mem_singleton.mp h)

section Keys

theorem mem_keys_iff (d : List (κ × α)) (key : κ) : key ∈ d.map Prod.fst ↔ (d.lookup key).isSome := by
  rw [List.lookup_isSome_iff]
  simp only [List.mem_map, beq_iff_eq]
  constructor
  · rintro ⟨p, hp, rfl⟩
    exact ⟨p, hp, rfl⟩
  · rintro ⟨p, hp, hkey⟩
    exact ⟨p, hp, hkey.symm⟩

theorem any_key_eq (d : List (κ × α)) (key : κ) :
    d.any (fun p => p.1 == key) = (d.lookup key).isSome := by
  rw [Bool.eq_iff_iff, ← mem_keys_iff, List.any_eq_true]
  simp only [List.mem_map, beq_iff_eq]

-- Setting an item adds its key at the end or leaves the keys as they are.
theorem keys_setItem (d : List (κ × α)) (key : κ) (value : α) :
    (setItem d key value).map Prod.fst =
      if d.any (fun p => p.1 == key) then d.map Prod.fst else d.map Prod.fst ++ [key] := by
  unfold setItem
  split
  · rw [List.map_map]
    apply List.map_congr_left
    intro p _
    by_cases hp : p.1 = key <;> simp [assign, hp]
  · simp

theorem nodup_keys_setItem {d : List (κ × α)} (hd : (d.map Prod.fst).Nodup) (key : κ) (value : α) :
    ((setItem d key value).map Prod.fst).Nodup := by
  rw [keys_setItem]
  split
  · exact hd
  · rename_i hnew
    simp only [List.any_eq_true, beq_iff_eq, not_exists, not_and] at hnew
    rw [List.nodup_append]
    refine ⟨hd, List.nodup_singleton _, ?_⟩
    intro a ha b hb
    obtain ⟨p, hp, rfl⟩ := List.mem_map.mp ha
    rw [List.mem_singleton.mp hb]
    exact hnew p hp

end Keys

section Folds

variable {β : Type*}

omit [LawfulBEq κ] in
theorem lookup_map_snd (d : List (κ × α)) (f : α → β) (key : κ) :
    (d.map fun p => (p.1, f p.2)).lookup key = (d.lookup key).map f := by
  induction d with
  | nil => rfl
  | cons p d ih =>
      obtain ⟨k, value⟩ := p
      cases hk : key == k <;> simp [List.lookup_cons, hk, ih]

theorem lookup_eq_none_of_nodup {key : κ} {value : α} {d : List (κ × α)}
    (h : (((key, value) :: d).map Prod.fst).Nodup) : d.lookup key = none := by
  rw [List.map_cons, List.nodup_cons, mem_keys_iff] at h
  exact Option.not_isSome_iff_eq_none.mp h.1

theorem lookup_iff_mem {d : List (κ × α)} (hd : (d.map Prod.fst).Nodup) {key : κ} {value : α} :
    d.lookup key = some value ↔ (key, value) ∈ d := by
  refine ⟨mem_of_lookup, fun hmem => ?_⟩
  induction d with
  | nil => cases hmem
  | cons p d ih =>
      obtain ⟨k, old⟩ := p
      rcases List.mem_cons.mp hmem with heq | hmem
      · cases heq
        exact List.lookup_cons_self
      · have hne : key ≠ k := fun h =>
          (List.nodup_cons.mp hd).1 (List.mem_map.mpr ⟨(key, value), hmem, h⟩)
        have hbeq : (key == k) = false := beq_false_of_ne hne
        rw [List.lookup_cons, hbeq]
        exact ih (List.nodup_cons.mp hd).2 hmem

-- A loop that sets an item for each of a dict's keys.
theorem lookup_foldl_setItem {items : List (κ × β)} (hitems : (items.map Prod.fst).Nodup)
    (f : κ × β → α) (d : List (κ × α)) (key : κ) :
    (items.foldl (fun d p => setItem d p.1 (f p)) d).lookup key =
      ((items.lookup key).map fun value => f (key, value)).or (d.lookup key) := by
  induction items generalizing d with
  | nil => rfl
  | cons p items ih =>
      obtain ⟨k, value⟩ := p
      have hrest : (items.map Prod.fst).Nodup := (List.nodup_cons.mp hitems).2
      rw [List.foldl_cons, ih hrest, lookup_setItem]
      by_cases hk : key = k
      · subst hk
        simp [lookup_eq_none_of_nodup hitems]
      · have hbeq : (key == k) = false := beq_false_of_ne hk
        simp [List.lookup_cons, hbeq]

-- The same of a loop that may raise at an item: how far it gets, and what it sets when it ends.
section Raising

variable {items : List (κ × β)} {f : κ × β → Option α} {d filled : List (κ × α)}

omit [LawfulBEq κ] in
theorem foldlM_cons_eq_some {p : κ × β} (h : (p :: items).foldlM
    (fun d p => (f p).map (setItem d p.1)) d = some filled) :
    ∃ value, f p = some value ∧
      items.foldlM (fun d p => (f p).map (setItem d p.1)) (setItem d p.1 value) = some filled := by
  rw [List.foldlM_cons] at h
  obtain ⟨_, hset, hrest⟩ := Option.bind_eq_some_iff.mp h
  obtain ⟨value, hvalue, rfl⟩ := Option.map_eq_some_iff.mp hset
  exact ⟨value, hvalue, hrest⟩

omit [LawfulBEq κ] in
theorem foldlM_setItem_isSome_iff :
    (items.foldlM (fun d p => (f p).map (setItem d p.1)) d).isSome = true ↔
      ∀ p ∈ items, (f p).isSome = true := by
  induction items generalizing d with
  | nil => simp
  | cons p items ih =>
      rw [List.foldlM_cons, List.forall_mem_cons]
      cases f p with
      | none => simp
      | some value => simpa using ih

theorem lookup_foldlM_setItem (hitems : (items.map Prod.fst).Nodup)
    (h : items.foldlM (fun d p => (f p).map (setItem d p.1)) d = some filled) (key : κ) :
    filled.lookup key = ((items.lookup key).bind fun value => f (key, value)).or (d.lookup key) := by
  induction items generalizing d with
  | nil =>
      cases h
      rfl
  | cons p items ih =>
      obtain ⟨k, item⟩ := p
      obtain ⟨value, hvalue, hrest⟩ := foldlM_cons_eq_some h
      rw [ih (List.nodup_cons.mp hitems).2 hrest, lookup_setItem]
      by_cases hk : key = k
      · subst hk
        simp [lookup_eq_none_of_nodup hitems, hvalue]
      · have hbeq : (key == k) = false := beq_false_of_ne hk
        simp [List.lookup_cons, hbeq]

theorem nodup_foldlM_setItem (h : items.foldlM (fun d p => (f p).map (setItem d p.1)) d = some filled)
    (hd : (d.map Prod.fst).Nodup) : (filled.map Prod.fst).Nodup := by
  induction items generalizing d with
  | nil =>
      cases h
      exact hd
  | cons p items ih =>
      obtain ⟨value, -, hrest⟩ := foldlM_cons_eq_some h
      exact ih hrest (nodup_keys_setItem hd _ _)

end Raising

end Folds

section Group

variable (key : α → κ)

-- The loop `grouped.setdefault(key(row), []).append(row)`.
def groupBy (rows : List α) : List (κ × List α) :=
  rows.foldl (fun d row => setItem d (key row) ((d.lookup (key row)).getD [] ++ [row])) []

omit [LawfulBEq κ] in
theorem groupBy_append_singleton (rows : List α) (row : α) :
    groupBy key (rows ++ [row]) = setItem (groupBy key rows) (key row)
      (((groupBy key rows).lookup (key row)).getD [] ++ [row]) := by
  simp [groupBy]

theorem nodup_keys_groupBy (rows : List α) : ((groupBy key rows).map Prod.fst).Nodup := by
  induction rows using List.reverseRecOn with
  | nil => exact List.nodup_nil
  | append_singleton rows row ih =>
      rw [groupBy_append_singleton]
      exact nodup_keys_setItem ih _ _

-- A group is the rows of its key, in their order; there are no empty groups.
theorem lookup_groupBy (rows : List α) (k : κ) : (groupBy key rows).lookup k =
    if (rows.filter fun row => key row == k) = [] then none
    else some (rows.filter fun row => key row == k) := by
  induction rows using List.reverseRecOn with
  | nil => rfl
  | append_singleton rows row ih =>
      rw [groupBy_append_singleton, lookup_setItem, List.filter_append]
      by_cases hk : k = key row
      · subst hk
        rw [if_pos (by simp), ih]
        split
        · rename_i hnil
          simp [hnil]
        · simp
      · have hrow : [row].filter (fun row => key row == k) = [] := by simp [Ne.symm hk]
        rw [if_neg (by simpa using hk), ih, hrow, List.append_nil]

end Group

end Dict
