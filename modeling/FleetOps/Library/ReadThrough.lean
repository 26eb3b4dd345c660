import Mathlib.Data.List.Sort
import FleetOps.Library.Runs

namespace ReadThrough

open Runs

variable {ρ κ ν ω σ β : Type*}

-- A cache in front of values that are computed from a source: the entry's name for a key, how
-- often the source is looked at for it, the value from what was seen then (`none` if that
-- raises), and the text that stands for a value in the store.
structure Setup (κ ν ω σ β : Type*) where
  name : κ → ν
  looks : κ → Nat
  compute : κ → List (Int × σ) → Int → Option β
  write : β → ω
  read : ω → Option β
  ttl : Int
  enabled : Bool

-- Where a reader stands with its request, and since when it has one.
inductive Phase (κ σ β : Type*) where
  | idle
  | asking (key : κ) (began : Int)
  | computing (key : κ) (began : Int) (seen : List (Int × σ))
  | storing (key : κ) (began : Int) (value : β)

structure Answer (κ β : Type*) where
  key : κ
  value : β
  now : Int

-- The readers around one store and one source. Everyone has the same clock.
structure System (ρ κ ν ω σ β : Type*) where
  now : Int
  source : σ
  store : ν → Option (ω × Int)
  phase : ρ → Phase κ σ β
  answered : List (Answer κ β)

inductive Event (ρ κ ν ω σ : Type*) where
  | tick (n : Nat)
  | change (source : σ)
  | request (r : ρ) (key : κ)
  -- `reached`: the store answers
  | get (r : ρ) (reached : Bool)
  | look (r : ρ)
  | finish (r : ρ)
  | set (r : ρ) (reached : Bool)
  -- the request ends with an error, or its reader does
  | fail (r : ρ)
  -- the store forgets an entry, or someone else writes under another name
  | forget (n : ν)
  | foreign (n : ν) (entry : ω × Int)

section Model

variable [DecidableEq ρ] [DecidableEq ν] (setup : Setup κ ν ω σ β)

def System.to (s : System ρ κ ν ω σ β) (r : ρ) (phase : Phase κ σ β) : System ρ κ ν ω σ β :=
  { s with phase := Function.update s.phase r phase }

def System.answer (s : System ρ κ ν ω σ β) (r : ρ) (key : κ) (value : β) : System ρ κ ν ω σ β :=
  { s.to r .idle with answered := s.answered ++ [⟨key, value, s.now⟩] }

-- What the store has under a name and has not expired.
def System.held (s : System ρ κ ν ω σ β) (n : ν) : Option ω :=
  ((s.store n).filter fun entry => decide (s.now < entry.2)).map Prod.fst

def step (s : System ρ κ ν ω σ β) : Event ρ κ ν ω σ → Option (System ρ κ ν ω σ β)
  | .tick n => some { s with now := s.now + n }
  | .change source => some { s with source }
  | .request r key =>
      match s.phase r with
      | .idle => some (s.to r (if setup.enabled then .asking key s.now else .computing key s.now []))
      | _ => none
  | .get r reached =>
      match s.phase r with
      | .asking key began =>
          match if reached then (s.held (setup.name key)).bind setup.read else none with
          | some value => some (s.answer r key value)
          | none => some (s.to r (.computing key began []))
      | _ => none
  | .look r =>
      match s.phase r with
      | .computing key began seen =>
          if seen.length < setup.looks key then
            some (s.to r (.computing key began (seen ++ [(s.now, s.source)])))
          else none
      | _ => none
  | .finish r =>
      match s.phase r with
      | .computing key began seen =>
          if seen.length = setup.looks key then
            match setup.compute key seen s.now with
            | none => some (s.to r .idle)
            | some value =>
                if setup.enabled then some (s.to r (.storing key began value))
                else some (s.answer r key value)
          else none
      | _ => none
  | .set r reached =>
      match s.phase r with
      | .storing key _ value =>
          let store := if reached then
            Function.update s.store (setup.name key) (some (setup.write value, s.now + setup.ttl))
            else s.store
          some { s.answer r key value with store }
      | _ => none
  | .fail r => some (s.to r .idle)
  | .forget n => some { s with store := Function.update s.store n none }
  | .foreign n entry => some { s with store := Function.update s.store n (some entry) }

end Model

-- Since when a reader has been busy with its request.
def Phase.since : Phase κ σ β → Option Int
  | .idle => none
  | .asking _ began | .computing _ began _ | .storing _ began _ => some began

-- Nobody takes longer than `limit` over a request, and nobody else writes under our names.
def Brisk (setup : Setup κ ν ω σ β) (limit : Int) (s : System ρ κ ν ω σ β) (e : Event ρ κ ν ω σ) : Prop :=
  (∀ n, e = .tick n → ∀ r began, (s.phase r).since = some began → s.now + n ≤ began + limit) ∧
  ∀ n entry, e = .foreign n entry → ∀ key, setup.name key ≠ n

-- The value was computed from the source as it was at moments from `first` on, in their order.
def Computed (setup : Setup κ ν ω σ β) (Seen : Int → σ → Prop) (key : κ) (value : β) (first last : Int) :
    Prop :=
  ∃ seen moment, setup.compute key seen moment = some value ∧ seen.length = setup.looks key ∧
    (seen.map Prod.fst).Pairwise (· ≤ ·) ∧ moment ≤ last ∧
    ∀ x ∈ seen, Seen x.1 x.2 ∧ first ≤ x.1 ∧ x.1 ≤ moment

section Fresh

variable (setup : Setup κ ν ω σ β) (Seen : Int → σ → Prop) (limit : Int)

def Phase.Sound (now : Int) : Phase κ σ β → Prop
  | .idle => True
  | .asking _ began => setup.enabled = true ∧ began ≤ now ∧ now ≤ began + limit
  | .computing _ began seen => began ≤ now ∧ now ≤ began + limit ∧
      (seen.map Prod.fst).Pairwise (· ≤ ·) ∧ ∀ x ∈ seen, Seen x.1 x.2 ∧ began ≤ x.1 ∧ x.1 ≤ now
  | .storing key began value => setup.enabled = true ∧ now ≤ began + limit ∧
      Computed setup Seen key value began now

-- An answer shows the source as it was no longer ago than this.
def Setup.age : Int := limit + if setup.enabled then setup.ttl else 0

structure System.Sound (s : System ρ κ ν ω σ β) : Prop where
  phases : ∀ r, (s.phase r).Sound setup Seen limit s.now
  entries : ∀ key text expires, s.store (setup.name key) = some (text, expires) →
    ∃ value began last, text = setup.write value ∧ Computed setup Seen key value began last ∧
      last ≤ s.now ∧ expires ≤ began + limit + setup.ttl
  answers : ∀ a ∈ s.answered, ∃ first, Computed setup Seen a.key a.value first a.now ∧
    a.now ≤ first + setup.age limit

variable {setup Seen limit} {s t : System ρ κ ν ω σ β}

theorem Computed.mono {key : κ} {value : β} {first last last' : Int} (hle : last ≤ last')
    (h : Computed setup Seen key value first last) : Computed setup Seen key value first last' := by
  obtain ⟨seen, moment, hvalue, hlength, hsorted, hmoment, hseen⟩ := h
  exact ⟨seen, moment, hvalue, hlength, hsorted, hmoment.trans hle, hseen⟩

theorem Phase.Sound.tick {now : Int} {n : Nat} {phase : Phase κ σ β}
    (h : phase.Sound setup Seen limit now)
    (hbrisk : ∀ began, phase.since = some began → now + n ≤ began + limit) :
    phase.Sound setup Seen limit (now + n) := by
  cases phase with
  | idle => trivial
  | asking key began =>
      obtain ⟨henabled, hbegan, -⟩ := h
      exact ⟨henabled, by omega, hbrisk began rfl⟩
  | computing key began seen =>
      obtain ⟨hbegan, -, hsorted, hseen⟩ := h
      refine ⟨by omega, hbrisk began rfl, hsorted, fun x hx => ?_⟩
      obtain ⟨hreal, hfirst, hlast⟩ := hseen x hx
      exact ⟨hreal, hfirst, by omega⟩
  | storing key began value =>
      obtain ⟨henabled, -, hcomputed⟩ := h
      exact ⟨henabled, hbrisk began rfl, hcomputed.mono (by omega)⟩

-- What is held under a key's name was stored for that key, and not long ago.
theorem System.Sound.held (hs : s.Sound setup Seen limit)
    (hread : ∀ value back, setup.read (setup.write value) = some back → back = value) {key : κ} {value : β}
    (h : (s.held (setup.name key)).bind setup.read = some value) :
    ∃ began, Computed setup Seen key value began s.now ∧ s.now < began + limit + setup.ttl := by
  obtain ⟨text, hheld, hvalue⟩ := Option.bind_eq_some_iff.mp h
  obtain ⟨⟨text', expires⟩, hentry, rfl⟩ := Option.map_eq_some_iff.mp hheld
  obtain ⟨hstore, hlive⟩ := Option.filter_eq_some_iff.mp hentry
  obtain ⟨stored, began, last, rfl, hcomputed, hlast, hexpires⟩ := hs.entries key _ _ hstore
  obtain rfl := hread stored value hvalue
  have hnow := of_decide_eq_true hlive
  exact ⟨began, hcomputed.mono hlast, by simp only at hnow; omega⟩

variable [DecidableEq ρ]

theorem phases_to {r : ρ} {phase : Phase κ σ β} (h : ∀ r, (s.phase r).Sound setup Seen limit s.now)
    (hown : phase.Sound setup Seen limit s.now) (r' : ρ) :
    ((s.to r phase).phase r').Sound setup Seen limit s.now := by
  simp only [System.to]
  by_cases hr : r' = r
  · rw [hr, Function.update_self]
    exact hown
  · rw [Function.update_of_ne hr]
    exact h r'

theorem System.Sound.to (hs : s.Sound setup Seen limit) (r : ρ) {phase : Phase κ σ β}
    (hown : phase.Sound setup Seen limit s.now) : (s.to r phase).Sound setup Seen limit where
  phases := phases_to hs.phases hown
  entries := hs.entries
  answers := hs.answers

theorem System.Sound.answer (hs : s.Sound setup Seen limit) (r : ρ) {key : κ} {value : β} {first : Int}
    (hcomputed : Computed setup Seen key value first s.now) (hage : s.now ≤ first + setup.age limit) :
    (s.answer r key value).Sound setup Seen limit where
  phases := phases_to hs.phases trivial
  entries := hs.entries
  answers := by
    intro a ha
    rcases List.mem_append.mp ha with ha | ha
    · exact hs.answers a ha
    · rw [List.mem_singleton.mp ha]
      exact ⟨first, hcomputed, hage⟩

variable [DecidableEq ν]

theorem System.Sound.step (hread : ∀ value back, setup.read (setup.write value) = some back → back = value)
    (hname : Function.Injective setup.name) (hlimit : 0 ≤ limit) (httl : 0 ≤ setup.ttl)
    {e : Event ρ κ ν ω σ} (hs : s.Sound setup Seen limit) (hseen : Seen s.now s.source)
    (hbrisk : Brisk setup limit s e) (hstep : ReadThrough.step setup s e = some t) :
    t.Sound setup Seen limit := by
  cases e with
  | tick n =>
      cases hstep
      refine ⟨fun r => (hs.phases r).tick fun began => hbrisk.1 n rfl r began, ?_, hs.answers⟩
      intro key text expires hstore
      obtain ⟨value, began, last, htext, hcomputed, hlast, hexpires⟩ := hs.entries key text expires hstore
      have hlater : s.now ≤ s.now + n := Int.le_add_of_nonneg_right (Int.natCast_nonneg n)
      exact ⟨value, began, last, htext, hcomputed, hlast.trans hlater, hexpires⟩
  | change source =>
      cases hstep
      exact ⟨hs.phases, hs.entries, hs.answers⟩
  | request r key =>
      simp only [ReadThrough.step] at hstep
      split at hstep
      · cases hstep
        refine hs.to r ?_
        split
        · rename_i henabled
          exact ⟨henabled, le_rfl, by omega⟩
        · exact ⟨le_rfl, by omega, .nil, by simp⟩
      · cases hstep
  | get r reached =>
      simp only [ReadThrough.step] at hstep
      split at hstep
      · rename_i key began hphase
        have hown := hs.phases r
        rw [hphase] at hown
        obtain ⟨henabled, hbegan, hlate⟩ := hown
        split at hstep
        · rename_i value hvalue
          cases hstep
          split at hvalue
          · obtain ⟨first, hcomputed, hnow⟩ := hs.held hread hvalue
            refine hs.answer r hcomputed ?_
            rw [Setup.age, if_pos henabled]
            omega
          · cases hvalue
        · cases hstep
          exact hs.to r ⟨hbegan, hlate, .nil, by simp⟩
      · cases hstep
  | look r =>
      simp only [ReadThrough.step] at hstep
      split at hstep
      · rename_i key began seen hphase
        have hown := hs.phases r
        rw [hphase] at hown
        obtain ⟨hbegan, hlate, hsorted, hreal⟩ := hown
        split at hstep
        · cases hstep
          refine hs.to r ⟨hbegan, hlate, ?_, ?_⟩
          · rw [List.map_append, List.pairwise_append]
            refine ⟨hsorted, List.pairwise_singleton _ _, ?_⟩
            intro time htime now hnow
            obtain ⟨x, hx, rfl⟩ := List.mem_map.mp htime
            rw [List.mem_singleton.mp hnow]
            exact (hreal x hx).2.2
          · intro x hx
            rcases List.mem_append.mp hx with hx | hx
            · exact hreal x hx
            · rw [List.mem_singleton.mp hx]
              exact ⟨hseen, hbegan, le_rfl⟩
        · cases hstep
      · cases hstep
  | finish r =>
      simp only [ReadThrough.step] at hstep
      split at hstep
      · rename_i key began seen hphase
        have hown := hs.phases r
        rw [hphase] at hown
        obtain ⟨hbegan, hlate, hsorted, hreal⟩ := hown
        split at hstep
        · rename_i hlength
          split at hstep
          · cases hstep
            exact hs.to r trivial
          · rename_i value hvalue
            have hcomputed : Computed setup Seen key value began s.now :=
              ⟨seen, s.now, hvalue, hlength, hsorted, le_rfl, hreal⟩
            split at hstep
            · rename_i henabled
              cases hstep
              exact hs.to r ⟨henabled, hlate, hcomputed⟩
            · rename_i hdisabled
              cases hstep
              refine hs.answer r hcomputed ?_
              rw [Setup.age, if_neg hdisabled]
              omega
        · cases hstep
      · cases hstep
  | set r reached =>
      simp only [ReadThrough.step] at hstep
      split at hstep
      · rename_i key began value hphase
        have hown := hs.phases r
        rw [hphase] at hown
        obtain ⟨henabled, hlate, hcomputed⟩ := hown
        have hanswer : (s.answer r key value).Sound setup Seen limit := by
          refine hs.answer r hcomputed ?_
          rw [Setup.age, if_pos henabled]
          omega
        cases hstep
        refine ⟨hanswer.phases, ?_, hanswer.answers⟩
        intro key' text expires hstore
        simp only at hstore
        split at hstore
        · by_cases hkey : key' = key
          · subst hkey
            rw [Function.update_self, Option.some.injEq, Prod.mk.injEq] at hstore
            obtain ⟨rfl, rfl⟩ := hstore
            exact ⟨value, began, s.now, rfl, hcomputed, le_rfl, by omega⟩
          · rw [Function.update_of_ne fun h => hkey (hname h)] at hstore
            exact hs.entries key' text expires hstore
        · exact hs.entries key' text expires hstore
      · cases hstep
  | fail r =>
      cases hstep
      exact hs.to r trivial
  | forget n =>
      cases hstep
      refine ⟨hs.phases, ?_, hs.answers⟩
      intro key text expires hstore
      by_cases hn : setup.name key = n
      · simp only [hn, Function.update_self, reduceCtorEq] at hstore
      · simp only [Function.update_of_ne hn] at hstore
        exact hs.entries key text expires hstore
  | foreign n entry =>
      cases hstep
      refine ⟨hs.phases, ?_, hs.answers⟩
      intro key text expires hstore
      simp only [Function.update_of_ne (hbrisk.2 n entry rfl key)] at hstore
      exact hs.entries key text expires hstore

-- Nothing under our names yet, and nobody at work.
def System.Fresh (setup : Setup κ ν ω σ β) (s : System ρ κ ν ω σ β) : Prop :=
  (∀ key, s.store (setup.name key) = none) ∧ (∀ r, s.phase r = .idle) ∧ s.answered = []

-- The source was so at that time of the run.
def Was (setup : Setup κ ν ω σ β) (s : System ρ κ ν ω σ β) (es : List (Event ρ κ ν ω σ)) (time : Int)
    (source : σ) : Prop :=
  ∃ before after u, es = before ++ after ∧ exec (ReadThrough.step setup) s before = some u ∧
    u.now = time ∧ u.source = source

-- Every answer of a run was computed for its own key, from the source as it really was, no longer
-- ago than a request takes and an entry lives.
theorem answers_fresh (hread : ∀ value back, setup.read (setup.write value) = some back → back = value)
    (hname : Function.Injective setup.name) (hlimit : 0 ≤ limit) (httl : 0 ≤ setup.ttl)
    {es : List (Event ρ κ ν ω σ)} (hs : s.Fresh setup)
    (hbrisk : Along (ReadThrough.step setup) (Brisk setup limit) s es)
    (hrun : exec (ReadThrough.step setup) s es = some t) :
    ∀ a ∈ t.answered, ∃ first, Computed setup (Was setup s es) a.key a.value first a.now ∧
      a.now ≤ first + setup.age limit := by
  obtain ⟨hstore, hidle, hnone⟩ := hs
  have hsound : s.Sound setup (Was setup s es) limit := by
    refine ⟨fun r => ?_, fun key text expires hentry => ?_, fun a ha => ?_⟩
    · rw [hidle r]
      trivial
    · rw [hstore key] at hentry
      cases hentry
    · rw [hnone] at ha
      cases ha
  refine (exec_along_invariant ?_ (hbrisk.and (along_reached es)) hsound hrun).answers
  rintro u e v ⟨hb, before, after, hes, hu⟩ hinv hstep
  exact hinv.step hread hname hlimit httl ⟨before, e :: after, u, hes, hu, rfl, rfl⟩ hb hstep

end Fresh

end ReadThrough
