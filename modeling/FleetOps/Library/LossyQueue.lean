import Mathlib.Data.List.Basic
import Mathlib.Data.List.Infix

namespace LossyQueue

variable {α : Type*}

section Merges

-- The third list is the first two, each in its order, put together.
inductive Merge : List α → List α → List α → Prop where
  | nil : Merge [] [] []
  | left {xs ys zs : List α} (x : α) (h : Merge xs ys zs) : Merge (xs ++ [x]) ys (zs ++ [x])
  | right {xs ys zs : List α} (y : α) (h : Merge xs ys zs) : Merge xs (ys ++ [y]) (zs ++ [y])

variable {xs ys zs : List α}

theorem Merge.append (h : Merge xs ys zs) (us : List α) : Merge (xs ++ us) ys (zs ++ us) := by
  induction us generalizing xs zs with
  | nil => simpa using h
  | cons u us ih => simpa using ih (h.left u)

theorem Merge.skip (h : Merge xs ys zs) (us : List α) : Merge xs (ys ++ us) (zs ++ us) := by
  induction us generalizing ys zs with
  | nil => simpa using h
  | cons u us ih => simpa using ih (h.right u)

theorem Merge.sublist (h : Merge xs ys zs) : xs.Sublist zs := by
  induction h with
  | nil => exact List.Sublist.slnil
  | left x _ ih => exact ih.append (List.Sublist.refl [x])
  | right y _ ih => exact ih.trans (List.sublist_append_left _ _)

theorem Merge.length (h : Merge xs ys zs) : zs.length = xs.length + ys.length := by
  induction h with
  | nil => rfl
  | left x _ ih =>
      simp only [List.length_append, List.length_singleton, ih]
      omega
  | right y _ ih =>
      simp only [List.length_append, List.length_singleton, ih]
      omega

-- Nothing was left out if the first list is the third one.
theorem Merge.eq_iff (h : Merge xs ys zs) : xs = zs ↔ ys = [] := by
  have hlength := h.length
  constructor
  · rintro rfl
    exact List.length_eq_zero_iff.mp (by omega)
  · rintro rfl
    exact h.sublist.eq_of_length (by simpa using hlength.symm)

end Merges

-- A queue of bounded length whose writer never waits: with the queue full the oldest
-- item makes room. What was sent, taken and dropped is recorded.
structure Channel (α : Type*) where
  sent : List α
  taken : List α
  dropped : List α
  queue : List α

namespace Channel

def empty : Channel α := ⟨[], [], [], []⟩

def push (capacity : Nat) (c : Channel α) (x : α) : Channel α :=
  if c.queue.length < capacity then ⟨c.sent ++ [x], c.taken, c.dropped, c.queue ++ [x]⟩
  else ⟨c.sent ++ [x], c.taken, c.dropped ++ c.queue.take 1, c.queue.drop 1 ++ [x]⟩

def take (c : Channel α) : Channel α :=
  ⟨c.sent, c.taken ++ c.queue.take 1, c.dropped, c.queue.drop 1⟩

-- The newest item is in the queue or was the last one taken.
def Fresh (c : Channel α) : Prop :=
  ∀ before x, c.sent = before ++ [x] → (∃ rest, c.queue = rest ++ [x]) ∨
    (c.queue = [] ∧ ∃ taken, c.taken = taken ++ [x] ∧ Merge taken c.dropped before)

-- Everything before the queue has been taken or dropped.
structure Sound (capacity : Nat) (c : Channel α) : Prop where
  bound : c.queue.length ≤ capacity
  front : ∃ front, c.sent = front ++ c.queue ∧ Merge c.taken c.dropped front
  fresh : c.Fresh

variable {capacity : Nat} {c : Channel α}

theorem sound_empty : (empty : Channel α).Sound capacity where
  bound := Nat.zero_le _
  front := ⟨[], rfl, .nil⟩
  fresh := by
    intro before x h
    simp [empty] at h

theorem Sound.push (hc : c.Sound capacity) (hpos : 0 < capacity) (x : α) :
    (c.push capacity x).Sound capacity := by
  obtain ⟨front, hsent, hmerge⟩ := hc.front
  unfold Channel.push
  split
  · rename_i hroom
    refine ⟨?_, ⟨front, by simp [hsent], hmerge⟩, fun before y hy => Or.inl ⟨c.queue, ?_⟩⟩
    · simp only [List.length_append, List.length_singleton]
      omega
    · rw [(List.append_inj' hy rfl).2]
  · rename_i hfull
    cases hqueue : c.queue with
    | nil =>
        rw [hqueue] at hfull
        exact absurd hpos hfull
    | cons old rest =>
        have hbound := hc.bound
        rw [hqueue] at hbound hsent
        refine ⟨?_, ⟨front ++ [old], by simp [hsent], hmerge.right old⟩,
          fun before y hy => Or.inl ⟨rest, ?_⟩⟩
        · simp only [List.drop_succ_cons, List.drop_zero, List.length_append, List.length_singleton]
          simp only [List.length_cons] at hbound
          omega
        · rw [(List.append_inj' hy rfl).2]
          rfl

theorem Sound.take (hc : c.Sound capacity) : c.take.Sound capacity := by
  obtain ⟨front, hsent, hmerge⟩ := hc.front
  cases hqueue : c.queue with
  | nil =>
      have hsame : c.take = c := by
        cases c
        simp_all [Channel.take]
      rw [hsame]
      exact hc
  | cons x rest =>
      have hbound := hc.bound
      rw [hqueue] at hbound hsent
      refine ⟨?_, ⟨front ++ [x], ?_, ?_⟩, fun before y hy => ?_⟩
      · simp only [Channel.take, hqueue, List.drop_succ_cons, List.drop_zero]
        exact (Nat.le_succ _).trans hbound
      · simp [Channel.take, hqueue, hsent]
      · simp only [Channel.take, hqueue, List.take_succ_cons, List.take_zero]
        exact hmerge.left x
      · simp only [Channel.take, hqueue, List.take_succ_cons, List.take_zero, List.drop_succ_cons,
          List.drop_zero] at hy ⊢
        cases rest with
        | nil =>
            -- The newest item is the one that has just been taken.
            rw [hsent] at hy
            obtain ⟨rfl, hx⟩ := List.append_inj' hy rfl
            cases hx
            exact Or.inr ⟨rfl, c.taken, rfl, hmerge⟩
        | cons z rest =>
            rcases hc.fresh before y hy with ⟨queue, hlast⟩ | ⟨hnil, _⟩
            · rw [hqueue] at hlast
              cases queue with
              | nil => simp at hlast
              | cons w queue => exact Or.inl ⟨queue, (List.cons.inj hlast).2⟩
            · rw [hqueue] at hnil
              cases hnil

-- What is taken and what is queued come from what was sent, in its order; the rest
-- was dropped.
theorem Sound.merge (hc : c.Sound capacity) : Merge (c.taken ++ c.queue) c.dropped c.sent := by
  obtain ⟨front, hsent, hmerge⟩ := hc.front
  rw [hsent]
  exact hmerge.append c.queue

theorem Sound.suffix (hc : c.Sound capacity) : c.queue <:+ c.sent := by
  obtain ⟨front, hsent, _⟩ := hc.front
  exact ⟨front, hsent.symm⟩

end Channel

end LossyQueue
