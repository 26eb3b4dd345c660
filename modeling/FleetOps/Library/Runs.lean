import Mathlib.Logic.Function.Basic
import Mathlib.Data.List.Basic

namespace Runs

variable {S L : Type*}

-- A run applies a partial step function to a list of labels. A label that
-- the current state does not enable stops it.
def exec (step : S → L → Option S) : S → List L → Option S
  | s, [] => some s
  | s, l :: ls => (step s l).bind fun t => exec step t ls

-- Every step of the run is taken in a state and under a label that satisfy `C`.
def Along (step : S → L → Option S) (C : S → L → Prop) : S → List L → Prop
  | _, [] => True
  | s, l :: ls => C s l ∧ ∀ t, step s l = some t → Along step C t ls

instance decidableAlong {step : S → L → Option S} {C : S → L → Prop} [∀ s l, Decidable (C s l)] :
    ∀ s ls, Decidable (Along step C s ls)
  | _, [] => isTrue trivial
  | s, l :: ls =>
      match hstep : step s l with
      | none => decidable_of_iff (C s l) (by simp [Along, hstep])
      | some t =>
          have : Decidable (Along step C t ls) := decidableAlong t ls
          decidable_of_iff (C s l ∧ Along step C t ls) (by simp [Along, hstep])

-- What the steps of a run put out, in order.
def trace {O : Type*} (step : S → L → Option S) (out : S → L → List O) : S → List L → List O
  | _, [] => []
  | s, l :: ls => out s l ++ ((step s l).map fun t => trace step out t ls).getD []

variable {step : S → L → Option S}

@[simp] theorem exec_nil (s : S) : exec step s [] = some s := rfl

theorem exec_cons_iff (s u : S) (l : L) (ls : List L) :
    exec step s (l :: ls) = some u ↔ ∃ t, step s l = some t ∧ exec step t ls = some u := by
  simp only [exec, Option.bind_eq_some_iff]

theorem exec_append_iff (s u : S) (ls ms : List L) :
    exec step s (ls ++ ms) = some u ↔
      ∃ t, exec step s ls = some t ∧ exec step t ms = some u := by
  induction ls generalizing s with
  | nil => simp
  | cons l ls ih =>
      simp only [List.cons_append, exec_cons_iff, ih]
      constructor
      · rintro ⟨t, hl, v, hls, hms⟩
        exact ⟨v, ⟨t, hl, hls⟩, hms⟩
      · rintro ⟨v, ⟨t, hl, hls⟩, hms⟩
        exact ⟨t, hl, v, hls, hms⟩

-- A run of fixed labels that evaluation has shown to end where `P` holds.
theorem exec_exists {P Q : S → Prop} [DecidablePred P] {s : S} {ls : List L}
    (hrun : ((exec step s ls).any fun t => decide (P t)) = true)
    (hQ : ∀ t, exec step s ls = some t → P t → Q t) : ∃ t, exec step s ls = some t ∧ Q t := by
  obtain ⟨t, ht, hp⟩ := (Option.any_eq_true _ _).mp hrun
  exact ⟨t, ht, hQ t ht (of_decide_eq_true hp)⟩

-- The one induction over runs: what every step keeps, a run keeps.
theorem exec_along_invariant {C : S → L → Prop} {I : S → Prop}
    (hstep : ∀ s l t, C s l → I s → step s l = some t → I t)
    {s t : S} {ls : List L} (hc : Along step C s ls) (hs : I s)
    (hrun : exec step s ls = some t) : I t := by
  induction ls generalizing s with
  | nil =>
      cases hrun
      exact hs
  | cons l ls ih =>
      obtain ⟨u, hu, hrest⟩ := (exec_cons_iff s t l ls).mp hrun
      exact ih (hc.2 u hu) (hstep s l u hc.1 hs hu) hrest

theorem along_cons {C : S → L → Prop} {s t : S} {l : L} {ls : List L} (hstep : step s l = some t)
    (hc : C s l) (hrest : Along step C t ls) : Along step C s (l :: ls) := by
  refine ⟨hc, fun u hu => ?_⟩
  rw [hstep] at hu
  cases hu
  exact hrest

theorem Along.mono {C D : S → L → Prop} (h : ∀ s l, C s l → D s l) {s : S} {ls : List L}
    (hc : Along step C s ls) : Along step D s ls := by
  induction ls generalizing s with
  | nil => trivial
  | cons l ls ih => exact ⟨h s l hc.1, fun t ht => ih (hc.2 t ht)⟩

theorem Along.and {C D : S → L → Prop} {s : S} {ls : List L} (hc : Along step C s ls)
    (hd : Along step D s ls) : Along step (fun s l => C s l ∧ D s l) s ls := by
  induction ls generalizing s with
  | nil => trivial
  | cons l ls ih => exact ⟨⟨hc.1, hd.1⟩, fun t ht => ih (hc.2 t ht) (hd.2 t ht)⟩

theorem Along.left {C : S → L → Prop} {s : S} {ls ms : List L} (h : Along step C s (ls ++ ms)) :
    Along step C s ls := by
  induction ls generalizing s with
  | nil => trivial
  | cons l ls ih => exact ⟨h.1, fun t ht => ih (h.2 t ht)⟩

theorem Along.right {C : S → L → Prop} {s t : S} {ls ms : List L} (h : Along step C s (ls ++ ms))
    (hrun : exec step s ls = some t) : Along step C t ms := by
  induction ls generalizing s with
  | nil =>
      cases hrun
      exact h
  | cons l ls ih =>
      obtain ⟨u, hu, hrest⟩ := (exec_cons_iff s t l ls).mp hrun
      exact ih (h.2 u hu) hrest

theorem along_of_forall {C : S → L → Prop} {ls : List L} (hall : ∀ s, ∀ l ∈ ls, C s l) (s : S) :
    Along step C s ls := by
  induction ls generalizing s with
  | nil => trivial
  | cons l ls ih =>
      exact ⟨hall s l (by simp), fun t _ => ih (fun u m hm => hall u m (List.mem_cons_of_mem _ hm)) t⟩

theorem exec_invariant {I : S → Prop} (hstep : ∀ s l t, I s → step s l = some t → I t)
    {s t : S} {ls : List L} (hs : I s) (hrun : exec step s ls = some t) : I t :=
  exec_along_invariant (C := fun _ _ => True) (fun s l t _ => hstep s l t)
    (along_of_forall (fun _ _ _ => trivial) s) hs hrun

-- What a step gives exactly when it was there before and the step meets `C`, a run
-- gives exactly when it was there before and every step meets `C`.
theorem exec_along_iff {C : S → L → Prop} {I P : S → Prop}
    (hstep : ∀ s l t, I s → step s l = some t → I t ∧ (P t ↔ P s ∧ C s l))
    {s t : S} {ls : List L} (hs : I s) (hrun : exec step s ls = some t) :
    P t ↔ P s ∧ Along step C s ls := by
  induction ls generalizing s with
  | nil =>
      cases hrun
      simp [Along]
  | cons l ls ih =>
      obtain ⟨u, hu, hrest⟩ := (exec_cons_iff s t l ls).mp hrun
      obtain ⟨hinv, hiff⟩ := hstep s l u hs hu
      rw [ih hinv hrest, hiff, and_assoc]
      simp [Along, hu]

theorem exec_invariant_of_mem {A : L → Prop} {I : S → Prop}
    (hstep : ∀ s l t, A l → I s → step s l = some t → I t) {s t : S} {ls : List L}
    (hallowed : ∀ l ∈ ls, A l) (hs : I s) (hrun : exec step s ls = some t) : I t :=
  exec_along_invariant (C := fun _ l => A l) (fun s l t => hstep s l t)
    (along_of_forall (fun _ l hl => hallowed l hl) s) hs hrun

-- A bounded wait. `I n` says that the goal `G` is at most `n` ticks away: a tick brings it
-- nearer, and no other step that is allowed puts it off.
theorem exec_within {A : L → Prop} {k : L → Bool} {I : Nat → S → Prop} {G : S → Prop}
    (hstep : ∀ n s l t, A l → I n s → step s l = some t →
      G t ∨ ∃ m, I m t ∧ if k l then m < n else m ≤ n)
    (hgoal : ∀ s l t, A l → G s → step s l = some t → G t)
    {n : Nat} {s t : S} {ls : List L} (hallowed : ∀ l ∈ ls, A l) (hs : I n s)
    (hrun : exec step s ls = some t) (hlong : n < ls.countP k) : G t := by
  induction ls generalizing n s with
  | nil => simp at hlong
  | cons l ls ih =>
      obtain ⟨u, hu, hrest⟩ := (exec_cons_iff s t l ls).mp hrun
      have hallowed' : ∀ m ∈ ls, A m := fun m hm => hallowed m (List.mem_cons_of_mem _ hm)
      rcases hstep n s l u (hallowed l (by simp)) hs hu with hdone | ⟨m, hm, hle⟩
      · exact exec_invariant_of_mem hgoal hallowed' hdone hrest
      · refine ih hallowed' hm hrest ?_
        by_cases htick : k l = true
        · rw [List.countP_cons_of_pos htick] at hlong
          rw [if_pos htick] at hle
          omega
        · rw [List.countP_cons_of_neg htick] at hlong
          rw [if_neg htick] at hle
          omega

-- A rank that no step raises and that each tick lowers bounds the ticks of a run.
theorem exec_ranked {C : S → L → Prop} {I : S → Prop} {k : L → Bool} (rank : S → Nat)
    (hstep : ∀ s l t, C s l → I s → step s l = some t →
      I t ∧ rank t + (if k l then 1 else 0) ≤ rank s)
    {s t : S} {ls : List L} (hc : Along step C s ls) (hs : I s) (hrun : exec step s ls = some t) :
    rank t + ls.countP k ≤ rank s := by
  induction ls generalizing s with
  | nil =>
      cases hrun
      simp
  | cons l ls ih =>
      obtain ⟨u, hu, hrest⟩ := (exec_cons_iff s t l ls).mp hrun
      obtain ⟨hinv, hrank⟩ := hstep s l u hc.1 hs hu
      have htail := ih (hc.2 u hu) hinv hrest
      rw [List.countP_cons]
      omega

-- A reflexive and transitive relation that every step respects relates the
-- two ends of a run.
theorem exec_relation {I : S → Prop} {R : S → S → Prop} (hrefl : ∀ s, R s s)
    (htrans : ∀ s t u, R s t → R t u → R s u)
    (hstep : ∀ s l t, I s → step s l = some t → I t ∧ R s t)
    {s t : S} {ls : List L} (hs : I s) (hrun : exec step s ls = some t) : R s t := by
  have h : I t ∧ R s t := exec_invariant (I := fun u => I u ∧ R s u)
    (fun u l v hu hv => ⟨(hstep u l v hu.1 hv).1, htrans s u v hu.2 (hstep u l v hu.1 hv).2⟩)
    ⟨hs, hrefl s⟩ hrun
  exact h.2

-- What holds after a run held before it, or one of its steps brought it about.
theorem exec_origin {P : S → Prop} {Q : S → L → Prop}
    (hstep : ∀ s l t, step s l = some t → P t → P s ∨ Q s l) {s t : S} {ls : List L}
    (hrun : exec step s ls = some t) (ht : P t) : P s ∨ ∃ before l after u,
      ls = before ++ l :: after ∧ exec step s before = some u ∧ Q u l := by
  induction ls generalizing s with
  | nil =>
      cases hrun
      exact .inl ht
  | cons l ls ih =>
      obtain ⟨v, hv, hrest⟩ := (exec_cons_iff s t l ls).mp hrun
      rcases ih hrest with hold | ⟨before, m, after, u, rfl, hbefore, hq⟩
      · rcases hstep s l v hv hold with hold | hq
        · exact .inl hold
        · exact .inr ⟨[], l, ls, s, rfl, rfl, hq⟩
      · exact .inr ⟨l :: before, m, after, u, rfl, (exec_cons_iff s u l before).mpr ⟨v, hv, hbefore⟩, hq⟩

-- The state before each step of a run is one the run has come to.
theorem along_reached {s : S} (ls : List L) :
    Along step (fun u l => ∃ before after, ls = before ++ l :: after ∧ exec step s before = some u) s ls := by
  have hgoal : ∀ ms before u, exec step s before = some u → Along step (fun v l => ∃ before' after,
      before ++ ms = before' ++ l :: after ∧ exec step s before' = some v) u ms := by
    intro ms
    induction ms with
    | nil => intros; trivial
    | cons m ms ih =>
        intro before u hu
        refine ⟨⟨before, ms, rfl, hu⟩, fun v hv => ?_⟩
        have hnext : exec step s (before ++ [m]) = some v :=
          (exec_append_iff s v before [m]).mpr ⟨u, hu, (exec_cons_iff u v m []).mpr ⟨v, hv, rfl⟩⟩
        simpa using ih (before ++ [m]) v hnext
  exact hgoal ls [] s rfl

section Simulation

variable {A : Type*} {step' : A → L → Option A}

-- What is matched step by step is matched over runs.
theorem exec_simulates {B : L → Prop} {R : S → A → Prop}
    (hstep : ∀ s l t a, B l → R s a → step s l = some t → ∃ b, step' a l = some b ∧ R t b)
    {s t : S} {a : A} {ls : List L} (hallowed : ∀ l ∈ ls, B l) (h : R s a)
    (hrun : exec step s ls = some t) : ∃ b, exec step' a ls = some b ∧ R t b := by
  induction ls generalizing s a with
  | nil =>
      cases hrun
      exact ⟨a, rfl, h⟩
  | cons l ls ih =>
      obtain ⟨u, hu, hrest⟩ := (exec_cons_iff s t l ls).mp hrun
      obtain ⟨c, hc, hnext⟩ := hstep s l u a (hallowed l (by simp)) h hu
      obtain ⟨b, hb, hend⟩ := ih (fun m hm => hallowed m (List.mem_cons_of_mem _ hm)) hnext hrest
      exact ⟨b, (exec_cons_iff a b l ls).mpr ⟨c, hc, hb⟩, hend⟩

end Simulation

section Parties

-- One of many parties moves on: what holds of every other party's state and of its new one
-- holds of all.
theorem forall_update {ι α : Type*} [DecidableEq ι] {parties : ι → Option α} {i : ι} {a : α}
    {P : ι → α → Prop} (hown : P i a) (hothers : ∀ j b, j ≠ i → parties j = some b → P j b) :
    ∀ j b, Function.update parties i (some a) j = some b → P j b := by
  intro j b hb
  by_cases hj : j = i
  · subst hj
    rw [Function.update_self, Option.some.injEq] at hb
    exact hb ▸ hown
  · rw [Function.update_of_ne hj] at hb
    exact hothers j b hj hb

-- Parties that are matched in their places.
theorem forall₂_getElem? {α β : Type*} {R : α → β → Prop} {xs : List α} {ys : List β}
    (h : List.Forall₂ R xs ys) {i : ℕ} {x : α} (hx : xs[i]? = some x) : ∃ y, ys[i]? = some y ∧ R x y := by
  induction h generalizing i with
  | nil => simp at hx
  | @cons a b xs ys hab _ ih =>
      cases i with
      | zero =>
          obtain rfl : a = x := by simpa using hx
          exact ⟨b, by simp, hab⟩
      | succ i => simpa using ih (by simpa using hx)

theorem forall₂_set {α β : Type*} {R : α → β → Prop} {xs : List α} {ys : List β}
    (h : List.Forall₂ R xs ys) (i : ℕ) {x : α} {y : β} (hxy : R x y) :
    List.Forall₂ R (xs.set i x) (ys.set i y) := by
  induction h generalizing i with
  | nil => exact .nil
  | cons hab hrest ih =>
      cases i with
      | zero => exact .cons hxy hrest
      | succ i => exact .cons hab (ih i)

end Parties

section Traces

variable {O : Type*} {out : S → L → List O} {s t u : S} {ls : List L}

theorem trace_cons {l : L} (h : step s l = some t) :
    trace step out s (l :: ls) = out s l ++ trace step out t ls := by
  rw [trace, h, Option.map_some, Option.getD_some]

theorem trace_append (h : exec step s ls = some t) (ms : List L) :
    trace step out s (ls ++ ms) = trace step out s ls ++ trace step out t ms := by
  induction ls generalizing s with
  | nil =>
      cases h
      rfl
  | cons l ls ih =>
      obtain ⟨v, hl, hls⟩ := (exec_cons_iff s t l ls).mp h
      rw [List.cons_append, trace_cons hl, trace_cons hl, ih hls, List.append_assoc]

-- The induction over runs for a property of the state and of all that was put out so far.
theorem exec_trace_invariant {I : S → List O → Prop}
    (hstep : ∀ s l t os, I s os → step s l = some t → I t (os ++ out s l)) {os : List O}
    (hs : I s os) (hrun : exec step s ls = some t) : I t (os ++ trace step out s ls) := by
  induction ls generalizing s os with
  | nil =>
      cases hrun
      simpa [trace] using hs
  | cons l ls ih =>
      obtain ⟨v, hl, hls⟩ := (exec_cons_iff s t l ls).mp hrun
      rw [trace_cons hl, ← List.append_assoc]
      exact ih (hstep s l v os hs hl) hls

end Traces

end Runs
