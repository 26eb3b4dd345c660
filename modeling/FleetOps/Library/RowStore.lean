import Mathlib.Data.List.Chain
import Mathlib.Data.List.Dedup
import Mathlib.Order.Basic

namespace RowStore

variable {σ κ ρ : Type*}

-- One row version written by a transaction: the version the writer saw and
-- the one it put in its place. An insert saw none.
structure Write (σ κ ρ : Type*) where
  writer : σ
  key : κ
  before : Option ρ
  after : ρ

-- A table under READ COMMITTED. The committed writes stand in commit order;
-- the uncommitted ones are the open transactions' and hold their row's lock.
structure Store (σ κ ρ : Type*) where
  log : List (Write σ κ ρ)
  dirty : List (Write σ κ ρ)

def Store.empty : Store σ κ ρ := ⟨[], []⟩

-- The row version a list of writes ends in, from a given one.
def ending : Option ρ → List (Write σ κ ρ) → Option ρ
  | previous, [] => previous
  | _, w :: ws => ending (some w.after) ws

-- Each version was written over the one before it; the first was an insert.
def Linked : Option ρ → List (Write σ κ ρ) → Prop
  | _, [] => True
  | previous, w :: ws => w.before = previous ∧ Linked (some w.after) ws

section Rows

variable [DecidableEq κ]

def lineage (writes : List (Write σ κ ρ)) (key : κ) : List (Write σ κ ρ) :=
  writes.filter fun w => decide (w.key = key)

def latest (writes : List (Write σ κ ρ)) (key : κ) : Option ρ :=
  ending none (lineage writes key)

def Store.committed (st : Store σ κ ρ) (key : κ) : Option ρ := latest st.log key

def Store.history (st : Store σ κ ρ) (key : κ) : List (Write σ κ ρ) := lineage st.log key

def Store.keys (st : Store σ κ ρ) : List κ := (st.log.map Write.key).dedup

-- What a SELECT without a transaction's own writes returns, in no promised order.
def Store.rows (st : Store σ κ ρ) : List ρ := st.keys.filterMap st.committed

end Rows

section Transactions

variable [DecidableEq σ]

def Store.mine (st : Store σ κ ρ) (s : σ) : List (Write σ κ ρ) :=
  st.dirty.filter fun w => decide (w.writer = s)

def Store.theirs (st : Store σ κ ρ) (s : σ) : List (Write σ κ ρ) :=
  st.dirty.filter fun w => decide (w.writer ≠ s)

def Store.done (st : Store σ κ ρ) (s : σ) : List (Write σ κ ρ) :=
  st.log.filter fun w => decide (w.writer = s)

def Store.commit (st : Store σ κ ρ) (s : σ) : Store σ κ ρ where
  log := st.log ++ st.mine s
  dirty := st.theirs s

def Store.rollback (st : Store σ κ ρ) (s : σ) : Store σ κ ρ where
  log := st.log
  dirty := st.theirs s

variable [DecidableEq κ]

-- A statement sees the committed rows and its own transaction's writes.
def Store.visible (st : Store σ κ ρ) (s : σ) (key : κ) : Option ρ :=
  latest (st.log ++ st.mine s) key

def Store.locked (st : Store σ κ ρ) (s : σ) (key : κ) : Bool :=
  (st.theirs s).any fun w => decide (w.key = key)

def Store.write (st : Store σ κ ρ) (s : σ) (key : κ) (row : ρ) : Store σ κ ρ where
  log := st.log
  dirty := st.dirty ++ [⟨s, key, st.visible s key, row⟩]

end Transactions

section Chains

theorem ending_append (previous : Option ρ) (xs ys : List (Write σ κ ρ)) :
    ending previous (xs ++ ys) = ending (ending previous xs) ys := by
  induction xs generalizing previous with
  | nil => rfl
  | cons x xs ih => exact ih _

theorem mem_of_ending {previous : Option ρ} {ws : List (Write σ κ ρ)} {row : ρ}
    (h : ending previous ws = some row) :
    (ws = [] ∧ previous = some row) ∨ ∃ w ∈ ws, w.after = row := by
  induction ws generalizing previous with
  | nil => exact Or.inl ⟨rfl, h⟩
  | cons w ws ih =>
      rcases ih h with ⟨rfl, hrow⟩ | ⟨v, hv, hrow⟩
      · exact Or.inr ⟨w, by simp, Option.some.inj hrow⟩
      · exact Or.inr ⟨v, List.mem_cons_of_mem _ hv, hrow⟩

theorem ending_eq_none_iff (ws : List (Write σ κ ρ)) : ending none ws = none ↔ ws = [] := by
  constructor
  · intro h
    cases ws with
    | nil => rfl
    | cons w ws =>
        have hsome : ∀ (row : ρ) (vs : List (Write σ κ ρ)), ending (some row) vs ≠ none := by
          intro row vs
          induction vs generalizing row with
          | nil => simp [ending]
          | cons v vs ih => exact ih _
        exact absurd h (hsome w.after ws)
  · rintro rfl
    rfl

theorem ending_of_getLast {ws : List (Write σ κ ρ)} {w : Write σ κ ρ} (previous : Option ρ)
    (h : ws.getLast? = some w) : ending previous ws = some w.after := by
  obtain ⟨vs, rfl⟩ := List.getLast?_eq_some_iff.mp h
  rw [ending_append]
  rfl

theorem linked_append_iff (previous : Option ρ) (xs ys : List (Write σ κ ρ)) :
    Linked previous (xs ++ ys) ↔ Linked previous xs ∧ Linked (ending previous xs) ys := by
  induction xs generalizing previous with
  | nil => simp [Linked, ending]
  | cons x xs ih => simp only [List.cons_append, Linked, ih, ending, and_assoc]

-- Along a linked chain every version follows from the one before it by `R`,
-- so a rank that `R` raises never repeats.
theorem pairwise_rank_of_linked {R : κ → Option ρ → ρ → Prop} (rank : ρ → Nat)
    (hrank : ∀ key before after, R key (some before) after → rank before < rank after)
    {previous : Option ρ} {ws : List (Write σ κ ρ)} (hlinked : Linked previous ws)
    (hguard : ∀ w ∈ ws, R w.key w.before w.after) :
    (ws.map fun w => rank w.after).Pairwise (· < ·) ∧
      ∀ row ∈ previous, ∀ w ∈ ws, rank row < rank w.after := by
  induction ws generalizing previous with
  | nil => simp
  | cons w ws ih =>
      obtain ⟨hbefore, hrest⟩ := hlinked
      obtain ⟨hpair, hlow⟩ := ih hrest (fun v hv => hguard v (List.mem_cons_of_mem _ hv))
      have hall : ∀ v ∈ ws, rank w.after < rank v.after := hlow w.after rfl
      have hw := hguard w (by simp)
      refine ⟨?_, ?_⟩
      · simp only [List.map_cons, List.pairwise_cons, List.mem_map, forall_exists_index, and_imp,
          forall_apply_eq_imp_iff₂]
        exact ⟨hall, hpair⟩
      · intro row hrow v hv
        have hstart : rank row < rank w.after := by
          rw [hbefore, Option.mem_def.mp hrow] at hw
          exact hrank w.key row w.after hw
        rcases List.mem_cons.mp hv with rfl | hv
        · exact hstart
        · exact hstart.trans (hall v hv)

end Chains

section Lineages

variable [DecidableEq κ]

@[simp] theorem lineage_append (xs ys : List (Write σ κ ρ)) (key : κ) :
    lineage (xs ++ ys) key = lineage xs key ++ lineage ys key := by
  simp [lineage]

theorem mem_lineage {writes : List (Write σ κ ρ)} {key : κ} {w : Write σ κ ρ} :
    w ∈ lineage writes key ↔ w ∈ writes ∧ w.key = key := by
  simp [lineage]

theorem lineage_singleton (w : Write σ κ ρ) (key : κ) :
    lineage [w] key = if w.key = key then [w] else [] := by
  by_cases hw : w.key = key <;> simp [lineage, hw]

theorem latest_concat (writes : List (Write σ κ ρ)) (w : Write σ κ ρ) (key : κ) :
    latest (writes ++ [w]) key = if w.key = key then some w.after else latest writes key := by
  simp only [latest, lineage_append, lineage_singleton, ending_append]
  split <;> rfl

theorem latest_append_of_lineage_nil (xs ys : List (Write σ κ ρ)) (key : κ)
    (hys : lineage ys key = []) : latest (xs ++ ys) key = latest xs key := by
  simp [latest, hys]

theorem latest_eq_none_iff (writes : List (Write σ κ ρ)) (key : κ) :
    latest writes key = none ↔ lineage writes key = [] :=
  ending_eq_none_iff _

theorem exists_write_of_latest {writes : List (Write σ κ ρ)} {key : κ} {row : ρ}
    (h : latest writes key = some row) : ∃ w ∈ writes, w.key = key ∧ w.after = row := by
  rcases mem_of_ending h with ⟨_, hnone⟩ | ⟨w, hw, hrow⟩
  · cases hnone
  · exact ⟨w, (mem_lineage.mp hw).1, (mem_lineage.mp hw).2, hrow⟩

theorem mem_keys {st : Store σ κ ρ} {key : κ} {row : ρ} (h : st.committed key = some row) :
    key ∈ st.keys := by
  obtain ⟨w, hw, hkey, _⟩ := exists_write_of_latest h
  exact List.mem_dedup.mpr (List.mem_map.mpr ⟨w, hw, hkey⟩)

theorem mem_rows {st : Store σ κ ρ} {row : ρ} :
    row ∈ st.rows ↔ ∃ key, st.committed key = some row := by
  simp only [Store.rows, List.mem_filterMap]
  constructor
  · rintro ⟨key, _, hrow⟩
    exact ⟨key, hrow⟩
  · rintro ⟨key, hrow⟩
    exact ⟨key, mem_keys hrow, hrow⟩

theorem latest_isSome_of_mem {writes : List (Write σ κ ρ)} {w : Write σ κ ρ} (hw : w ∈ writes) :
    ∃ row, latest writes w.key = some row := by
  rw [← Option.ne_none_iff_exists']
  intro hnone
  have hm : w ∈ lineage writes w.key := mem_lineage.mpr ⟨hw, rfl⟩
  rw [(latest_eq_none_iff writes w.key).mp hnone] at hm
  cases hm

end Lineages

section Sessions

variable [DecidableEq σ]

theorem mem_mine {st : Store σ κ ρ} {s : σ} {w : Write σ κ ρ} :
    w ∈ st.mine s ↔ w ∈ st.dirty ∧ w.writer = s := by
  simp [Store.mine]

theorem mem_theirs {st : Store σ κ ρ} {s : σ} {w : Write σ κ ρ} :
    w ∈ st.theirs s ↔ w ∈ st.dirty ∧ w.writer ≠ s := by
  simp [Store.theirs]

-- No other transaction has written anything.
theorem theirs_eq_nil {st : Store σ κ ρ} {s : σ} (h : ∀ s', s' ≠ s → st.mine s' = []) :
    st.theirs s = [] := by
  rw [Store.theirs, List.filter_eq_nil_iff]
  intro w hw
  rw [decide_eq_true_eq, not_not]
  by_contra hne
  have hmem : w ∈ st.mine w.writer := mem_mine.mpr ⟨hw, rfl⟩
  rw [h w.writer hne] at hmem
  cases hmem

theorem mem_done {st : Store σ κ ρ} {s : σ} {w : Write σ κ ρ} :
    w ∈ st.done s ↔ w ∈ st.log ∧ w.writer = s := by
  simp [Store.done]

@[simp] theorem mine_empty (s : σ) : (Store.empty : Store σ κ ρ).mine s = [] := rfl

@[simp] theorem done_empty (s : σ) : (Store.empty : Store σ κ ρ).done s = [] := rfl

@[simp] theorem mine_commit_self (st : Store σ κ ρ) (s : σ) : (st.commit s).mine s = [] := by
  simp [Store.mine, Store.commit, Store.theirs, List.filter_filter]

@[simp] theorem mine_rollback_self (st : Store σ κ ρ) (s : σ) : (st.rollback s).mine s = [] := by
  simp [Store.mine, Store.rollback, Store.theirs, List.filter_filter]

private theorem mine_theirs (st : Store σ κ ρ) {s s' : σ} (hne : s' ≠ s) :
    (st.theirs s).filter (fun w => decide (w.writer = s')) = st.mine s' := by
  simp only [Store.theirs, Store.mine, List.filter_filter]
  apply List.filter_congr
  intro w _
  by_cases hw : w.writer = s' <;> simp [hw, hne]

theorem mine_commit_of_ne (st : Store σ κ ρ) {s s' : σ} (hne : s' ≠ s) :
    (st.commit s).mine s' = st.mine s' := mine_theirs st hne

theorem mine_rollback_of_ne (st : Store σ κ ρ) {s s' : σ} (hne : s' ≠ s) :
    (st.rollback s).mine s' = st.mine s' := mine_theirs st hne

@[simp] theorem done_commit_self (st : Store σ κ ρ) (s : σ) :
    (st.commit s).done s = st.done s ++ st.mine s := by
  simp [Store.done, Store.commit, Store.mine, List.filter_filter]

theorem done_commit_of_ne (st : Store σ κ ρ) {s s' : σ} (hne : s' ≠ s) :
    (st.commit s).done s' = st.done s' := by
  have hnil : (st.mine s).filter (fun w => decide (w.writer = s')) = [] := by
    simp only [List.filter_eq_nil_iff, mem_mine, decide_eq_true_eq]
    rintro w ⟨_, hs⟩ hs'
    exact hne (hs'.symm.trans hs)
  simp only [Store.done, Store.commit, List.filter_append, hnil, List.append_nil]

-- A commit moves a transaction's writes; it neither adds nor drops one.
theorem mem_own_of_commit {st : Store σ κ ρ} {s : σ} {w : Write σ κ ρ}
    (hw : w ∈ (st.commit s).mine s ++ (st.commit s).done s) : w ∈ st.mine s ++ st.done s := by
  rw [mine_commit_self, done_commit_self, List.nil_append] at hw
  exact (List.mem_append.mp hw).elim (List.mem_append_right _) (List.mem_append_left _)

theorem mem_own_of_rollback {st : Store σ κ ρ} {s : σ} {w : Write σ κ ρ}
    (hw : w ∈ (st.rollback s).mine s ++ (st.rollback s).done s) : w ∈ st.mine s ++ st.done s := by
  rw [mine_rollback_self, List.nil_append] at hw
  exact List.mem_append_right _ hw

@[simp] theorem done_rollback (st : Store σ κ ρ) (s s' : σ) :
    (st.rollback s).done s' = st.done s' := rfl

-- Which writes there are, after a write and at the end of a transaction.
theorem mem_writes_commit {st : Store σ κ ρ} {s : σ} {w : Write σ κ ρ}
    (hw : w ∈ (st.commit s).log ++ (st.commit s).dirty) : w ∈ st.log ++ st.dirty := by
  simp only [Store.commit, List.mem_append, mem_mine, mem_theirs] at hw ⊢
  rcases hw with (hw | hw) | hw
  · exact Or.inl hw
  · exact Or.inr hw.1
  · exact Or.inr hw.1

theorem mem_writes_rollback {st : Store σ κ ρ} {s : σ} {w : Write σ κ ρ}
    (hw : w ∈ (st.rollback s).log ++ (st.rollback s).dirty) : w ∈ st.log ++ st.dirty := by
  simp only [Store.rollback, List.mem_append, mem_theirs] at hw ⊢
  exact hw.imp_right And.left

variable [DecidableEq κ]

theorem mem_writes_write {st : Store σ κ ρ} {s : σ} {key : κ} {row : ρ} {w : Write σ κ ρ}
    (hw : w ∈ (st.write s key row).log ++ (st.write s key row).dirty) :
    w ∈ st.log ++ st.dirty ∨ w = ⟨s, key, st.visible s key, row⟩ := by
  simp only [Store.write, ← List.append_assoc] at hw
  exact (List.mem_append.mp hw).imp_right List.mem_singleton.mp

theorem mine_write_self (st : Store σ κ ρ) (s : σ) (key : κ) (row : ρ) :
    (st.write s key row).mine s = st.mine s ++ [⟨s, key, st.visible s key, row⟩] := by
  simp [Store.mine, Store.write]

theorem mine_write_of_ne (st : Store σ κ ρ) {s s' : σ} (hne : s' ≠ s) (key : κ) (row : ρ) :
    (st.write s key row).mine s' = st.mine s' := by
  simp [Store.mine, Store.write, hne.symm]

@[simp] theorem done_write (st : Store σ κ ρ) (s s' : σ) (key : κ) (row : ρ) :
    (st.write s key row).done s' = st.done s' := rfl

@[simp] theorem committed_write (st : Store σ κ ρ) (s : σ) (key key' : κ) (row : ρ) :
    (st.write s key row).committed key' = st.committed key' := rfl

@[simp] theorem committed_rollback (st : Store σ κ ρ) (s : σ) (key : κ) :
    (st.rollback s).committed key = st.committed key := rfl

theorem committed_commit (st : Store σ κ ρ) (s : σ) (key : κ) :
    (st.commit s).committed key = st.visible s key := rfl

theorem visible_of_mine_nil {st : Store σ κ ρ} {s : σ} (hmine : st.mine s = []) (key : κ) :
    st.visible s key = st.committed key := by
  simp [Store.visible, Store.committed, hmine]

end Sessions

-- What survives every interleaving of transactions when each write respects
-- `R`: a row has one open writer, its versions form one chain, and the chain
-- follows `R`.
structure Sound [DecidableEq κ] (R : κ → Option ρ → ρ → Prop) (st : Store σ κ ρ) : Prop where
  owner : ∀ w ∈ st.dirty, ∀ v ∈ st.dirty, w.key = v.key → w.writer = v.writer
  linked : ∀ key, Linked none (lineage (st.log ++ st.dirty) key)
  guard : ∀ w ∈ st.log ++ st.dirty, R w.key w.before w.after

section Soundness

variable [DecidableEq σ] [DecidableEq κ] {R : κ → Option ρ → ρ → Prop} {st : Store σ κ ρ}

omit [DecidableEq σ] in
theorem sound_empty : Sound R (Store.empty : Store σ κ ρ) where
  owner := by simp [Store.empty]
  linked := by simp [Store.empty, lineage, Linked]
  guard := by simp [Store.empty]

-- The open writes of one row all stand or fall with one transaction.
theorem Sound.lineage_split (hs : Sound R st) (s : σ) (key : κ) :
    (lineage (st.mine s) key = lineage st.dirty key ∧ lineage (st.theirs s) key = []) ∨
    (lineage (st.mine s) key = [] ∧ lineage (st.theirs s) key = lineage st.dirty key) := by
  have hfilter : ∀ p : Write σ κ ρ → Bool, lineage (st.dirty.filter p) key =
      (lineage st.dirty key).filter p := by
    intro p
    simp only [lineage, List.filter_filter, Bool.and_comm]
  simp only [Store.mine, Store.theirs, hfilter]
  by_cases hmine : ∃ w ∈ lineage st.dirty key, w.writer = s
  · obtain ⟨w, hw, hws⟩ := hmine
    have hall : ∀ v ∈ lineage st.dirty key, v.writer = s := by
      intro v hv
      obtain ⟨hv, hvk⟩ := mem_lineage.mp hv
      obtain ⟨hw, hwk⟩ := mem_lineage.mp hw
      rw [hs.owner v hv w hw (hvk.trans hwk.symm), hws]
    exact Or.inl ⟨List.filter_eq_self.mpr (by simpa using hall),
      List.filter_eq_nil_iff.mpr (by simpa using hall)⟩
  · push Not at hmine
    exact Or.inr ⟨List.filter_eq_nil_iff.mpr (by simpa using hmine),
      List.filter_eq_self.mpr (by simpa using hmine)⟩

omit [DecidableEq κ] in
theorem locked_eq_false_iff [DecidableEq κ] (s : σ) (key : κ) :
    st.locked s key = false ↔ ∀ w ∈ st.dirty, w.key = key → w.writer = s := by
  simp only [Store.locked, List.any_eq_false, mem_theirs, decide_eq_true_eq]
  constructor
  · intro h w hw hkey
    by_contra hne
    exact h w ⟨hw, hne⟩ hkey
  · rintro h w ⟨hw, hne⟩ hkey
    exact hne (h w hw hkey)

theorem Sound.visible_eq (hs : Sound R st) {s : σ} {key : κ} (hfree : st.locked s key = false) :
    st.visible s key = latest (st.log ++ st.dirty) key := by
  have htheirs : lineage (st.theirs s) key = [] := by
    simp only [lineage, List.filter_eq_nil_iff, mem_theirs, decide_eq_true_eq]
    rintro w ⟨hw, hne⟩ hkey
    exact hne ((locked_eq_false_iff s key).mp hfree w hw hkey)
  rcases hs.lineage_split s key with ⟨hmine, _⟩ | ⟨hmine, hall⟩
  · simp only [Store.visible, latest, lineage_append, hmine]
  · rw [htheirs] at hall
    simp only [Store.visible, latest, lineage_append, hmine, ← hall]

theorem Sound.write (hs : Sound R st) {s : σ} {key : κ} {row : ρ}
    (hfree : st.locked s key = false) (hrow : R key (st.visible s key) row) :
    Sound R (st.write s key row) where
  owner := by
    have hother := (locked_eq_false_iff s key).mp hfree
    intro w hw v hv hkey
    simp only [Store.write, List.mem_append, List.mem_singleton] at hw hv
    rcases hw with hw | rfl <;> rcases hv with hv | rfl
    · exact hs.owner w hw v hv hkey
    · exact hother w hw hkey
    · exact (hother v hv hkey.symm).symm
    · rfl
  linked := by
    intro k
    simp only [Store.write, ← List.append_assoc]
    rw [lineage_append, linked_append_iff]
    refine ⟨hs.linked k, ?_⟩
    rw [lineage_singleton]
    split
    · rename_i hk
      subst hk
      exact ⟨hs.visible_eq hfree, trivial⟩
    · trivial
  guard := by
    intro w hw
    rcases mem_writes_write hw with hw | rfl
    · exact hs.guard w hw
    · exact hrow

theorem Sound.commit (hs : Sound R st) (s : σ) : Sound R (st.commit s) where
  owner := by
    intro w hw v hv
    exact hs.owner w (mem_theirs.mp hw).1 v (mem_theirs.mp hv).1
  linked := by
    intro key
    have hkey := hs.linked key
    simp only [Store.commit, lineage_append] at hkey ⊢
    rcases hs.lineage_split s key with ⟨hmine, hrest⟩ | ⟨hmine, hrest⟩ <;>
      simpa only [hmine, hrest, List.append_nil] using hkey
  guard := fun w hw => hs.guard w (mem_writes_commit hw)

theorem Sound.rollback (hs : Sound R st) (s : σ) : Sound R (st.rollback s) where
  owner := by
    intro w hw v hv
    exact hs.owner w (mem_theirs.mp hw).1 v (mem_theirs.mp hv).1
  linked := by
    intro key
    have hkey := hs.linked key
    simp only [Store.rollback, lineage_append] at hkey ⊢
    rcases hs.lineage_split s key with ⟨_, hrest⟩ | ⟨_, hrest⟩
    · rw [hrest, List.append_nil]
      exact ((linked_append_iff _ _ _).mp hkey).1
    · rwa [hrest]
  guard := fun w hw => hs.guard w (mem_writes_rollback hw)

omit [DecidableEq σ] in
theorem Sound.history_linked (hs : Sound R st) (key : κ) : Linked none (st.history key) := by
  have hkey := hs.linked key
  rw [lineage_append, linked_append_iff] at hkey
  exact hkey.1

omit [DecidableEq σ] [DecidableEq κ] in
private theorem linked_forall {P : κ → ρ → Prop} {key : κ}
    (hnew : ∀ after, R key none after → P key after)
    (hstep : ∀ before after, P key before → R key (some before) after → P key after)
    {previous : Option ρ} {ws : List (Write σ κ ρ)} (hprevious : ∀ row ∈ previous, P key row)
    (hlinked : Linked previous ws) (hguard : ∀ w ∈ ws, w.key = key ∧ R w.key w.before w.after) :
    ∀ w ∈ ws, P key w.after := by
  induction ws generalizing previous with
  | nil => simp
  | cons w ws ih =>
      obtain ⟨hbefore, hrest⟩ := hlinked
      obtain ⟨hkey, hw⟩ := hguard w (by simp)
      rw [hkey, hbefore] at hw
      have hafter : P key w.after := by
        cases previous with
        | none => exact hnew w.after hw
        | some row => exact hstep row w.after (hprevious row rfl) hw
      intro v hv
      rcases List.mem_cons.mp hv with rfl | hv
      · exact hafter
      · exact ih (by simpa using hafter) hrest
          (fun u hu => hguard u (List.mem_cons_of_mem _ hu)) v hv

-- What an insert establishes and every later write keeps holds of each version.
omit [DecidableEq σ] in
theorem Sound.forall_after {P : κ → ρ → Prop} (hs : Sound R st)
    (hnew : ∀ key after, R key none after → P key after)
    (hstep : ∀ key before after, P key before → R key (some before) after → P key after) :
    ∀ w ∈ st.log ++ st.dirty, P w.key w.after := by
  intro w hw
  refine linked_forall (hnew w.key) (hstep w.key) (by simp) (hs.linked w.key) (fun v hv => ?_) w
    (mem_lineage.mpr ⟨hw, rfl⟩)
  obtain ⟨hv, hkey⟩ := mem_lineage.mp hv
  exact ⟨hkey, hs.guard v hv⟩

omit [DecidableEq σ] in
theorem Sound.history_guard (hs : Sound R st) (key : κ) :
    ∀ w ∈ st.history key, R w.key w.before w.after := fun w hw =>
  hs.guard w (List.mem_append_left _ (mem_lineage.mp hw).1)

-- The first open write of a row was made over its committed version, which
-- nobody else can have replaced since.
omit [DecidableEq σ] in
theorem Sound.before_of_dirty (hs : Sound R st) {key : κ} {w : Write σ κ ρ}
    {ws : List (Write σ κ ρ)} (hdirty : lineage st.dirty key = w :: ws) :
    w.before = st.committed key := by
  have hkey := hs.linked key
  rw [lineage_append, hdirty, linked_append_iff] at hkey
  exact hkey.2.1

end Soundness

-- What one statement of transaction `s` can do to the store.
inductive Effect [DecidableEq σ] [DecidableEq κ] (R : κ → Option ρ → ρ → Prop)
    (st : Store σ κ ρ) (s : σ) : Store σ κ ρ → Prop where
  | same : Effect R st s st
  | write (key : κ) (row : ρ) (hfree : st.locked s key = false)
      (hrow : R key (st.visible s key) row) : Effect R st s (st.write s key row)
  | commit : Effect R st s (st.commit s)
  | rollback : Effect R st s (st.rollback s)

section Effects

variable [DecidableEq σ] [DecidableEq κ] {R : κ → Option ρ → ρ → Prop} {st st' : Store σ κ ρ} {s : σ}

theorem Sound.effect (hs : Sound R st) (he : Effect R st s st') : Sound R st' := by
  cases he with
  | same => exact hs
  | write key row hfree hrow => exact hs.write hfree hrow
  | commit => exact hs.commit s
  | rollback => exact hs.rollback s

theorem Effect.mine_of_ne (he : Effect R st s st') {s' : σ} (hne : s' ≠ s) :
    st'.mine s' = st.mine s' := by
  cases he with
  | same => rfl
  | write key row _ _ => exact mine_write_of_ne st hne key row
  | commit => exact mine_commit_of_ne st hne
  | rollback => exact mine_rollback_of_ne st hne

theorem Effect.done_of_ne (he : Effect R st s st') {s' : σ} (hne : s' ≠ s) :
    st'.done s' = st.done s' := by
  cases he with
  | same => rfl
  | write key row _ _ => rfl
  | commit => exact done_commit_of_ne st hne
  | rollback => rfl

theorem Effect.log_prefix (he : Effect R st s st') : ∃ more, st'.log = st.log ++ more := by
  cases he with
  | same => exact ⟨[], by simp⟩
  | write key row _ _ => exact ⟨[], by simp [Store.write]⟩
  | commit => exact ⟨st.mine s, rfl⟩
  | rollback => exact ⟨[], by simp [Store.rollback]⟩

theorem Effect.log_subset (he : Effect R st s st') : st.log ⊆ st'.log := by
  obtain ⟨more, hmore⟩ := he.log_prefix
  rw [hmore]
  exact List.subset_append_left _ _

omit [DecidableEq σ] [DecidableEq κ] in
private theorem ending_of_linked {Q : ρ → ρ → Prop} (hrefl : ∀ a, Q a a)
    (htrans : ∀ a b c, Q a b → Q b c → Q a c) (hstep : ∀ key a b, R key (some a) b → Q a b)
    {row : ρ} {ws : List (Write σ κ ρ)} (hlinked : Linked (some row) ws)
    (hguard : ∀ w ∈ ws, R w.key w.before w.after) :
    ∃ row', ending (some row) ws = some row' ∧ Q row row' := by
  induction ws generalizing row with
  | nil => exact ⟨row, rfl, hrefl row⟩
  | cons w ws ih =>
      obtain ⟨hbefore, hrest⟩ := hlinked
      have hw := hguard w (by simp)
      rw [hbefore] at hw
      obtain ⟨row', hend, hq⟩ := ih hrest (fun v hv => hguard v (List.mem_cons_of_mem _ hv))
      exact ⟨row', hend, htrans _ _ _ (hstep w.key row w.after hw) hq⟩

-- A committed row is never removed, and a preorder that every write respects
-- relates it to whatever replaces it.
theorem Sound.committed_effect {Q : ρ → ρ → Prop} (hs : Sound R st) (he : Effect R st s st')
    (hrefl : ∀ a, Q a a) (htrans : ∀ a b c, Q a b → Q b c → Q a c)
    (hstep : ∀ key a b, R key (some a) b → Q a b) {key : κ} {row : ρ}
    (hrow : st.committed key = some row) : ∃ row', st'.committed key = some row' ∧ Q row row' := by
  have hs' := hs.effect he
  obtain ⟨more, hmore⟩ := he.log_prefix
  have hlinked := hs'.history_linked key
  have hguard := hs'.history_guard key
  simp only [Store.history, hmore, lineage_append] at hlinked hguard
  rw [linked_append_iff] at hlinked
  have hend : ending none (lineage st.log key) = some row := hrow
  rw [hend] at hlinked
  simp only [Store.committed, latest, hmore, lineage_append, ending_append, hend]
  exact ending_of_linked hrefl htrans hstep hlinked.2
    (fun w hw => hguard w (List.mem_append_right _ hw))

-- Every committed version is still answered for by the row's latest one.
omit [DecidableEq σ] in
theorem Sound.committed_of_mem {Q : ρ → ρ → Prop} (hs : Sound R st) (hrefl : ∀ a, Q a a)
    (htrans : ∀ a b c, Q a b → Q b c → Q a c) (hstep : ∀ key a b, R key (some a) b → Q a b)
    {w : Write σ κ ρ} (hw : w ∈ st.log) :
    ∃ row, st.committed w.key = some row ∧ Q w.after row := by
  have hmem : w ∈ st.history w.key := mem_lineage.mpr ⟨hw, rfl⟩
  obtain ⟨earlier, later, hsplit⟩ := List.append_of_mem hmem
  have hlinked := hs.history_linked w.key
  have hguard := hs.history_guard w.key
  rw [hsplit] at hlinked hguard
  rw [linked_append_iff] at hlinked
  have hend : st.committed w.key = ending (some w.after) later := by
    rw [Store.committed, latest, ← Store.history, hsplit, ending_append]
    rfl
  rw [hend]
  exact ending_of_linked hrefl htrans hstep hlinked.2.2
    fun v hv => hguard v (List.mem_append_right _ (List.mem_cons_of_mem _ hv))

end Effects

-- What a statement that writes several rows does to the store.
inductive Writes [DecidableEq σ] [DecidableEq κ] (R : κ → Option ρ → ρ → Prop) (s : σ) :
    Store σ κ ρ → Store σ κ ρ → Prop where
  | nil (st : Store σ κ ρ) : Writes R s st st
  | cons {st st' : Store σ κ ρ} (key : κ) (row : ρ) (hfree : st.locked s key = false)
      (hrow : R key (st.visible s key) row) (hrest : Writes R s (st.write s key row) st') :
      Writes R s st st'

section Statements

variable [DecidableEq σ] [DecidableEq κ] {R : κ → Option ρ → ρ → Prop} {st st' : Store σ κ ρ} {s : σ}

theorem Sound.writes (hs : Sound R st) (hw : Writes R s st st') : Sound R st' := by
  induction hw with
  | nil => exact hs
  | cons key row hfree hrow _ ih => exact ih (hs.write hfree hrow)

theorem Writes.log_eq (hw : Writes R s st st') : st'.log = st.log := by
  induction hw with
  | nil => rfl
  | cons key row _ _ _ ih => exact ih

theorem Writes.mine_of_ne (hw : Writes R s st st') {s' : σ} (hne : s' ≠ s) :
    st'.mine s' = st.mine s' := by
  induction hw with
  | nil => rfl
  | cons key row _ _ _ ih => exact ih.trans (mine_write_of_ne _ hne key row)

theorem theirs_write_self (st : Store σ κ ρ) (s : σ) (key : κ) (row : ρ) :
    (st.write s key row).theirs s = st.theirs s := by
  simp [Store.theirs, Store.write]

theorem Writes.theirs_eq (hw : Writes R s st st') : st'.theirs s = st.theirs s := by
  induction hw with
  | nil => rfl
  | cons key row _ _ _ ih => exact ih.trans (theirs_write_self _ s key row)

theorem Writes.mine_subset (hw : Writes R s st st') {w : Write σ κ ρ} (h : w ∈ st.mine s) :
    w ∈ st'.mine s := by
  induction hw with
  | nil => exact h
  | cons key row _ _ _ ih =>
      apply ih
      rw [mine_write_self]
      exact List.mem_append_left _ h

@[simp] theorem locked_write_self (st : Store σ κ ρ) (s : σ) (key k : κ) (row : ρ) :
    (st.write s key row).locked s k = st.locked s k := by
  simp [Store.locked, Store.theirs, Store.write]

theorem Writes.trans {st'' : Store σ κ ρ} (hw : Writes R s st st') (hw' : Writes R s st' st'') :
    Writes R s st st'' := by
  induction hw with
  | nil => exact hw'
  | cons key row hfree hrow _ ih => exact .cons key row hfree hrow (ih hw')

omit [DecidableEq κ] in
theorem log_commit (st : Store σ κ ρ) (s : σ) : (st.commit s).log = st.log ++ st.mine s := rfl

end Statements

end RowStore
