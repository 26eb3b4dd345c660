import Mathlib.Algebra.Order.Group.Defs
import Mathlib.Algebra.Order.Sub.Basic
import Mathlib.Data.List.MinMax

namespace SlidingWindow

variable {α : Type*} [AddCommGroup α] [LinearOrder α] [IsOrderedAddMonoid α]

-- The entries of a log that are still in the window at a time.
def recent (window now : α) (log : List α) : List α := log.filter fun t => now - window < t

-- From `now` on, a log answers for the whole history, whatever it has dropped of it.
def AnswersFor (window now : α) (log history : List α) : Prop :=
  ∀ later, now ≤ later → recent window later log = recent window later history

-- The two kinds of half-open intervals.
inductive Side where
  | left_open
  | right_open

def Covers (window : α) : Side → α → α → Prop
  | .left_open, a, t => a < t ∧ t ≤ a + window
  | .right_open, a, t => a ≤ t ∧ t < a + window

instance (window : α) : ∀ side a t, Decidable (Covers window side a t)
  | .left_open, a, t => inferInstanceAs (Decidable (a < t ∧ t ≤ a + window))
  | .right_open, a, t => inferInstanceAs (Decidable (a ≤ t ∧ t < a + window))

variable {window now later : α} {log history : List α}

section Recent

omit [IsOrderedAddMonoid α] in
theorem mem_recent {t : α} : t ∈ recent window now log ↔ t ∈ log ∧ now - window < t := by
  simp [recent]

omit [IsOrderedAddMonoid α] in
theorem recent_append (log entries : List α) :
    recent window now (log ++ entries) = recent window now log ++ recent window now entries :=
  List.filter_append log entries

omit [IsOrderedAddMonoid α] in
theorem recent_eq_nil (hold : ∀ t ∈ log, t ≤ now - window) : recent window now log = [] := by
  rw [recent, List.filter_eq_nil_iff]
  intro t ht
  simpa using hold t ht

-- What a window has dropped, a later one drops too.
theorem recent_recent (hle : now ≤ later) (log : List α) :
    recent window later (recent window now log) = recent window later log := by
  rw [recent, recent, List.filter_filter]
  apply List.filter_congr
  intro t _
  have hcut : now - window ≤ later - window := sub_le_sub_right hle window
  by_cases ht : later - window < t
  · simp [ht, hcut.trans_lt ht]
  · simp [ht]

end Recent

namespace AnswersFor

omit [IsOrderedAddMonoid α] in
theorem refl (log : List α) : AnswersFor window now log log := fun _ _ => rfl

omit [IsOrderedAddMonoid α] in
theorem mono (h : AnswersFor window now log history) (hle : now ≤ later) :
    AnswersFor window later log history := fun t ht => h t (hle.trans ht)

theorem dropped (h : AnswersFor window now log history) (hle : now ≤ later) :
    AnswersFor window later (recent window later log) history := by
  intro t ht
  rw [recent_recent ht, h t (hle.trans ht)]

omit [IsOrderedAddMonoid α] in
theorem append (h : AnswersFor window now log history) (t : α) :
    AnswersFor window now (log ++ [t]) (history ++ [t]) := by
  intro u hu
  rw [recent_append, recent_append, h u hu]

-- A history that has left the window needs no log at all.
theorem forgotten (hold : ∀ t ∈ history, t ≤ now - window) : AnswersFor window now [] history := by
  intro t ht
  rw [recent_eq_nil fun u hu => (hold u hu).trans (sub_le_sub_right ht window)]
  rfl

end AnswersFor

section Intervals

variable {side : Side} {a t u : α}

-- Of two times in one interval, neither has left the window of the other.
theorem Covers.within (ht : Covers window side a t) (hu : Covers window side a u) :
    u - window < t := by
  rw [sub_lt_iff_lt_add]
  cases side with
  | left_open => exact hu.2.trans_lt (add_lt_add_left ht.1 window)
  | right_open => exact hu.2.trans_le (add_le_add_left ht.1 window)

-- One interval of either kind holds a time and all that is in its window.
theorem exists_covers (hwindow : 0 < window) (hpast : ∀ t ∈ log, t ≤ now) (side : Side) :
    ∃ a, Covers window side a now ∧ ∀ t ∈ recent window now log, Covers window side a t := by
  cases side with
  | left_open =>
      refine ⟨now - window, ⟨sub_lt_self now hwindow, by rw [sub_add_cancel]⟩, ?_⟩
      intro t ht
      obtain ⟨hmem, hlt⟩ := mem_recent.mp ht
      exact ⟨hlt, by rw [sub_add_cancel]; exact hpast t hmem⟩
  | right_open =>
      -- the interval starts at the earliest of them
      obtain ⟨a, ha, hmin⟩ : ∃ a ∈ now :: recent window now log,
          ∀ t ∈ now :: recent window now log, a ≤ t := by
        have hsome : (now :: recent window now log).minimum ≠ ⊤ := by
          rw [Ne, List.minimum_eq_top]
          exact List.cons_ne_nil _ _
        obtain ⟨a, ha⟩ := WithTop.ne_top_iff_exists.mp hsome
        refine ⟨a, List.minimum_mem ha.symm, fun t ht => ?_⟩
        have hle := List.minimum_le_of_mem' ht
        rw [← ha] at hle
        exact WithTop.coe_le_coe.mp hle
      have hspan : now - window < a := by
        rcases List.mem_cons.mp ha with rfl | ha
        · exact sub_lt_self a hwindow
        · exact (mem_recent.mp ha).2
      have hend : now < a + window := sub_lt_iff_lt_add.mp hspan
      refine ⟨a, ⟨hmin now (by simp), hend⟩, ?_⟩
      intro t ht
      exact ⟨hmin t (List.mem_cons_of_mem _ ht), (hpast t (mem_recent.mp ht).1).trans_lt hend⟩

end Intervals

end SlidingWindow
