import Mathlib.Algebra.Order.Ring.Rat
import Mathlib.Tactic.NormNum
import FleetOps.Library.Server
import FleetOps.Library.SlidingWindow
import FleetOps.Middleware.RateLimit

namespace FleetOps.Middleware

open Server SlidingWindow

-- The times of all requests of a key, refused ones too.
def attempts (requests : List Request) (k : List Char) : List ℚ :=
  (requests.filter fun r => r.key = k).map Request.now

-- What a request is answered when every earlier one of its key is remembered.
def within_budget (before : List Request) (r : Request) : Bool :=
  decide (((recent (r.window_seconds : ℚ) r.now (attempts before r.key)).length : Int) <
    r.max_requests)

def Ordered (requests : List Request) : Prop := requests.Pairwise fun q r => q.now ≤ r.now

section Keys

theorem key_inj {b c : Bucket} {ip jp : List Char} : key b ip = key c jp ↔ b = c ∧ ip = jp := by
  constructor
  · intro h
    have hhead : b.text.head? = c.text.head? := by
      have hhead := congrArg List.head? h
      cases b <;> cases c <;> exact hhead
    have hbucket : b = c := by
      cases b <;> cases c <;> first | rfl | cases hhead
    subst hbucket
    exact ⟨rfl, (List.cons.inj (List.append_cancel_left h)).2⟩
  · rintro ⟨rfl, rfl⟩
    rfl

theorem key_eq_iff {r : Request} {bucket : Bucket} {client_ip : List Char} :
    r.key = key bucket client_ip ↔ r.bucket = bucket ∧ r.client_ip = client_ip := key_inj

end Keys

section Attempts

variable {requests : List Request} {r : Request} {k : List Char}

theorem attempts_append_of_eq (h : r.key = k) :
    attempts (requests ++ [r]) k = attempts requests k ++ [r.now] := by
  simp [attempts, List.filter_append, h]

theorem attempts_append_of_ne (h : r.key ≠ k) : attempts (requests ++ [r]) k = attempts requests k := by
  simp [attempts, List.filter_append, h]

theorem mem_attempts {t : ℚ} : t ∈ attempts requests k ↔ ∃ r ∈ requests, r.key = k ∧ r.now = t := by
  simp [attempts, and_assoc]

theorem Ordered.init {rs : List Request} (h : Ordered (rs ++ [r])) :
    Ordered rs ∧ ∀ q ∈ rs, q.now ≤ r.now := by
  obtain ⟨hrs, -, hlast⟩ := List.pairwise_append.mp h
  exact ⟨hrs, fun q hq => hlast q hq r (by simp)⟩

theorem Ordered.before {before rest : List Request} (h : Ordered (before ++ r :: rest)) :
    Ordered (before ++ [r]) := by
  rw [← List.singleton_append, ← List.append_assoc] at h
  exact (List.pairwise_append.mp h).1

end Attempts

section Memory

variable {k : List Char} {window_seconds : Int}

theorem lookup_check_rate_limit_memory (windows : Windows) (r : Request) (k : List Char) :
    (check_rate_limit_memory windows r).1.lookup k =
      if k = r.key then
        some (recent (r.window_seconds : ℚ) r.now ((windows.lookup r.key).getD []) ++ [r.now])
      else windows.lookup k := by
  simp [check_rate_limit_memory, Dict.lookup_setItem, recent]

-- The list kept under a key answers for all requests of the key: what it dropped has left
-- every later window.
theorem memory_answers {requests : List Request} (hordered : Ordered requests)
    (hwindow : ∀ r ∈ requests, r.key = k → r.window_seconds = window_seconds) {now : ℚ}
    (hlate : ∀ r ∈ requests, r.now ≤ now) :
    AnswersFor (window_seconds : ℚ) now
      (((after check_rate_limit_memory [] requests).lookup k).getD []) (attempts requests k) := by
  induction requests using List.reverseRecOn generalizing now with
  | nil => exact AnswersFor.refl []
  | append_singleton requests r ih =>
      obtain ⟨hrest, hlast⟩ := hordered.init
      have hwindow' : ∀ q ∈ requests, q.key = k → q.window_seconds = window_seconds :=
        fun q hq => hwindow q (List.mem_append_left _ hq)
      have hlate' : ∀ q ∈ requests, q.now ≤ now := fun q hq => hlate q (List.mem_append_left _ hq)
      rw [after_append_singleton, lookup_check_rate_limit_memory]
      by_cases hk : r.key = k
      · have hnow : r.now ≤ now := hlate r (by simp)
        rw [if_pos hk.symm, attempts_append_of_eq hk, Option.getD_some,
          hwindow r (by simp) hk, hk]
        exact (((ih hrest hwindow' hlast).dropped le_rfl).append r.now).mono hnow
      · rw [if_neg (Ne.symm hk), attempts_append_of_ne hk]
        exact ih hrest hwindow' hlate'

-- A request is answered as if nothing had ever been dropped.
theorem memory_reply {before : List Request} {r : Request} (hordered : Ordered (before ++ [r]))
    (hwindow : ∀ q ∈ before, q.key = r.key → q.window_seconds = r.window_seconds) :
    (check_rate_limit_memory (after check_rate_limit_memory [] before) r).2 =
      within_budget before r := by
  obtain ⟨hbefore, hlast⟩ := hordered.init
  have hanswers := memory_answers hbefore hwindow hlast r.now le_rfl
  simp only [check_rate_limit_memory, within_budget]
  rw [← hanswers]
  rfl

end Memory

section Bound

variable {k : List Char} {max_requests window_seconds : Int} {requests : List Request}

-- All requests of a key are made with one budget.
def Fixed (requests : List Request) (k : List Char) (max_requests window_seconds : Int) : Prop :=
  ∀ r ∈ requests, r.key = k → r.max_requests = max_requests ∧ r.window_seconds = window_seconds

theorem Fixed.init {r : Request} (h : Fixed (requests ++ [r]) k max_requests window_seconds) :
    Fixed requests k max_requests window_seconds :=
  fun q hq => h q (List.mem_append_left _ hq)

theorem Fixed.reply {before : List Request} {r : Request}
    (h : Fixed (before ++ [r]) k max_requests window_seconds) (hordered : Ordered (before ++ [r]))
    (hk : r.key = k) :
    (check_rate_limit_memory (after check_rate_limit_memory [] before) r).2 = decide
      (((recent (window_seconds : ℚ) r.now (attempts before k)).length : Int) < max_requests) := by
  obtain ⟨hmax, hwindow⟩ := h r (by simp) hk
  rw [memory_reply hordered, within_budget, hmax, hwindow, hk]
  intro q hq hkey
  rw [hwindow]
  exact (h.init q hq (hkey.trans hk)).2

def decisions (requests : List Request) : List (Request × Bool) :=
  answers check_rate_limit_memory [] requests

-- The requests of a key that were let through in an interval, and those that were made.
def allowed (requests : List Request) (k : List Char) (window_seconds : Int) (side : Side) (a : ℚ) : Nat :=
  (decisions requests).countP fun d =>
    decide (d.1.key = k) && d.2 && decide (Covers (window_seconds : ℚ) side a d.1.now)

def made (requests : List Request) (k : List Char) (window_seconds : Int) (side : Side) (a : ℚ) : Nat :=
  requests.countP fun r => decide (r.key = k) && decide (Covers (window_seconds : ℚ) side a r.now)

theorem length_recent_attempts (requests : List Request) (k : List Char) (window now : ℚ) :
    (recent window now (attempts requests k)).length =
      requests.countP fun r => decide (r.key = k) && decide (now - window < r.now) := by
  rw [recent, attempts, List.filter_map, List.length_map, List.filter_filter, List.countP_eq_length_filter]
  congr 1
  apply List.filter_congr
  intro r _
  simp [Bool.and_comm]

theorem allowed_le_made (requests : List Request) (k : List Char) (window_seconds : Int) (side : Side)
    (a : ℚ) : allowed requests k window_seconds side a ≤ made requests k window_seconds side a := by
  have hmade : made requests k window_seconds side a = (decisions requests).countP fun d =>
      decide (d.1.key = k) && decide (Covers (window_seconds : ℚ) side a d.1.now) := by
    conv_lhs => rw [made, ← map_fst_answers check_rate_limit_memory [] requests]
    rw [List.countP_map]
    rfl
  rw [hmade, allowed]
  refine List.countP_mono_left fun d _ hd => ?_
  simp only [Bool.and_eq_true] at hd ⊢
  exact ⟨hd.1.1, hd.2⟩

-- All requests of an interval are still in the window at its last one.
theorem made_le_recent (requests : List Request) (k : List Char) {window_seconds : Int} {side : Side}
    {a now : ℚ} (hin : Covers (window_seconds : ℚ) side a now) :
    made requests k window_seconds side a ≤
      (recent (window_seconds : ℚ) now (attempts requests k)).length := by
  rw [length_recent_attempts, made]
  refine List.countP_mono_left fun r _ hr => ?_
  simp only [Bool.and_eq_true, decide_eq_true_eq] at hr ⊢
  exact ⟨hr.1, hr.2.within hin⟩

theorem allowed_append (requests : List Request) (r : Request) (k : List Char) (window_seconds : Int)
    (side : Side) (a : ℚ) :
    allowed (requests ++ [r]) k window_seconds side a = allowed requests k window_seconds side a +
      if r.key = k ∧ (check_rate_limit_memory (after check_rate_limit_memory [] requests) r).2 = true ∧
        Covers (window_seconds : ℚ) side a r.now then 1 else 0 := by
  rw [allowed, decisions, answers_append_singleton, List.countP_append, List.countP_singleton]
  simp [allowed, decisions, and_assoc]

-- The last request that was let through still saw all the others of its interval.
theorem allowed_le (hordered : Ordered requests)
    (hfixed : Fixed requests k max_requests window_seconds) (side : Side) (a : ℚ) :
    (allowed requests k window_seconds side a : Int) ≤ max max_requests 0 := by
  induction requests using List.reverseRecOn with
  | nil => exact le_max_right _ _
  | append_singleton requests r ih =>
      have hrest := ih hordered.init.1 hfixed.init
      rw [allowed_append]
      split
      · rename_i hcounts
        obtain ⟨hk, hallowed, hin⟩ := hcounts
        have hseen : ((recent (window_seconds : ℚ) r.now (attempts requests k)).length : Int) <
            max_requests := by
          rw [hfixed.reply hordered hk] at hallowed
          exact of_decide_eq_true hallowed
        have hbefore : allowed requests k window_seconds side a ≤
            (recent (window_seconds : ℚ) r.now (attempts requests k)).length :=
          (allowed_le_made requests k window_seconds side a).trans (made_le_recent requests k hin)
        have hmax := le_max_left max_requests 0
        push_cast
        omega
      · simpa using hrest

-- A refused request and those it was counted with are more than its budget in one interval.
theorem allowed_of_made_le (hordered : Ordered requests)
    (hfixed : Fixed requests k max_requests window_seconds) (hpositive : 0 < window_seconds) (side : Side)
    (hmade : ∀ a, (made requests k window_seconds side a : Int) ≤ max_requests) {d : Request × Bool}
    (hd : d ∈ decisions requests) (hk : d.1.key = k) : d.2 = true := by
  obtain ⟨before, rest, rfl, hreply⟩ := mem_answers.mp hd
  obtain ⟨r, answer⟩ := d
  simp only at hk hreply hmade hordered hfixed
  have hpart : Fixed (before ++ [r]) k max_requests window_seconds := by
    intro q hq
    refine hfixed q ?_
    rcases List.mem_append.mp hq with hq | hq
    · exact List.mem_append_left _ hq
    · simp [List.mem_singleton.mp hq]
  have hlast := hordered.before.init.2
  rw [hreply, hpart.reply hordered.before hk, decide_eq_true_eq]
  have hpast : ∀ t ∈ attempts before k, t ≤ r.now := by
    intro t ht
    obtain ⟨q, hq, -, rfl⟩ := mem_attempts.mp ht
    exact hlast q hq
  have hwindow : (0 : ℚ) < window_seconds := by exact_mod_cast hpositive
  obtain ⟨a, hnow, hcovers⟩ := exists_covers hwindow hpast side
  have hseen : (recent (window_seconds : ℚ) r.now (attempts before k)).length ≤
      made before k window_seconds side a := by
    rw [length_recent_attempts, made]
    refine List.countP_mono_left fun q hq hin => ?_
    simp only [Bool.and_eq_true, decide_eq_true_eq] at hin ⊢
    exact ⟨hin.1, hcovers q.now (mem_recent.mpr ⟨mem_attempts.mpr ⟨q, hq, hin.1, rfl⟩, hin.2⟩)⟩
  have hall : made before k window_seconds side a + 1 ≤
      made (before ++ r :: rest) k window_seconds side a := by
    rw [made, made, List.countP_append, List.countP_cons_of_pos (by simp [hk, hnow])]
    omega
  have := hmade a
  omega

-- After a silence of one window nothing is left to count.
theorem allowed_of_silence {before : List Request} {r : Request} (hordered : Ordered (before ++ [r]))
    (hfixed : Fixed (before ++ [r]) k max_requests window_seconds) (hk : r.key = k)
    (hmax : 1 ≤ max_requests)
    (hsilent : ∀ q ∈ before, q.key = k → q.now ≤ r.now - window_seconds) :
    (check_rate_limit_memory (after check_rate_limit_memory [] before) r).2 = true := by
  have hnone : recent (window_seconds : ℚ) r.now (attempts before k) = [] := by
    refine recent_eq_nil fun t ht => ?_
    obtain ⟨q, hq, hkey, rfl⟩ := mem_attempts.mp ht
    exact hsilent q hq hkey
  rw [hfixed.reply hordered hk, hnone, decide_eq_true_eq]
  simp only [List.length_nil, Nat.cast_zero]
  omega

end Bound

section Isolation

-- Requests of other keys leave no trace in the decisions about the keys of a class.
theorem decisions_filter (mine : Request → Bool) (hmine : ∀ q r, q.key = r.key → mine q = mine r)
    (requests : List Request) :
    (decisions requests).filter (fun d => mine d.1) = decisions (requests.filter mine) := by
  refine answers_filter (fun s t : Windows => ∀ r, mine r = true → s.lookup r.key = t.lookup r.key)
    mine ?_ ?_ (fun _ _ => rfl) requests
  · intro s t r hr hrel q hq
    have hne : q.key ≠ r.key := by
      intro hkey
      rw [hmine q r hkey, hr] at hq
      cases hq
    rw [lookup_check_rate_limit_memory, if_neg hne]
    exact hrel q hq
  · intro s t r hr hrel
    have hsame := hrel r hr
    refine ⟨by simp only [check_rate_limit_memory, hsame], ?_⟩
    intro q hq
    rw [lookup_check_rate_limit_memory, lookup_check_rate_limit_memory, hsame]
    split
    · rfl
    · exact hrel q hq

end Isolation

-- The middleware asks with one budget for each bucket, and one window.
theorem RateLimitMiddleware.fixed (self : RateLimitMiddleware) (calls : List (Scope × ℚ))
    (bucket : Bucket) (client_ip : List Char) :
    Fixed (calls.filterMap fun call => self.request call.1 call.2) (key bucket client_ip)
      (self.budget bucket) self.window_seconds := by
  intro r hr hk
  obtain ⟨⟨scope, now⟩, -, hrequest⟩ := List.mem_filterMap.mp hr
  simp only [RateLimitMiddleware.request] at hrequest
  split at hrequest
  · obtain ⟨b, -, rfl⟩ := Option.map_eq_some_iff.mp hrequest
    exact ⟨congrArg self.budget (key_eq_iff.mp hk).1, rfl⟩
  · cases hrequest

-- The budget of a client in a bucket is kept over every stretch of time, is not refused to
-- one that stays within it, comes back after a silence, and is nobody else's.
theorem sliding_window {requests : List Request} (hordered : Ordered requests) (bucket : Bucket)
    (client_ip : List Char) {max_requests window_seconds : Int}
    (hfixed : Fixed requests (key bucket client_ip) max_requests window_seconds) :
    (∀ side a, (allowed requests (key bucket client_ip) window_seconds side a : Int) ≤
      max max_requests 0) ∧
    (0 < window_seconds → ∀ side,
      (∀ a, (made requests (key bucket client_ip) window_seconds side a : Int) ≤ max_requests) →
      ∀ d ∈ decisions requests, d.1.key = key bucket client_ip → d.2 = true) ∧
    (1 ≤ max_requests → ∀ before r rest, requests = before ++ r :: rest →
      r.key = key bucket client_ip →
      (∀ q ∈ before, q.key = key bucket client_ip → q.now ≤ r.now - (window_seconds : ℚ)) →
      (check_rate_limit_memory (after check_rate_limit_memory [] before) r).2 = true) ∧
    (decisions requests).filter (fun d => decide (d.1.key = key bucket client_ip)) =
      decisions (requests.filter fun r => decide (r.key = key bucket client_ip)) ∧
    (decisions requests).filter (fun d => decide (d.1.bucket = bucket)) =
      decisions (requests.filter fun r => decide (r.bucket = bucket)) ∧
    ∀ r : Request, r.key = key bucket client_ip ↔ r.bucket = bucket ∧ r.client_ip = client_ip := by
  refine ⟨allowed_le hordered hfixed, ?_, ?_, ?_, ?_, fun r => key_eq_iff⟩
  · intro hpositive side hmade d hd hk
    exact allowed_of_made_le hordered hfixed hpositive side hmade hd hk
  · rintro hmax before r rest rfl hk hsilent
    refine allowed_of_silence hordered.before ?_ hk hmax hsilent
    intro q hq
    refine hfixed q ?_
    rcases List.mem_append.mp hq with hq | hq
    · exact List.mem_append_left _ hq
    · simp [List.mem_singleton.mp hq]
  · refine decisions_filter (fun r => decide (r.key = key bucket client_ip)) ?_ requests
    intro q r hkey
    rw [hkey]
  · refine decisions_filter (fun r => decide (r.bucket = bucket)) ?_ requests
    intro q r hkey
    rw [(key_eq_iff.mp hkey).1]

def pollAt (bucket : Bucket) (now : ℚ) : Request :=
  { client_ip := [':'], max_requests := 1, window_seconds := 60, bucket, now }

theorem sliding_window_edge :
    (check_rate_limit_memory
      (after check_rate_limit_memory [] [pollAt .ingest 5, pollAt .console 64]) (pollAt .ingest 65)).2 =
        true ∧
      ∀ side a, (allowed [pollAt .ingest 5, pollAt .console 64, pollAt .ingest 65]
        (key .ingest [':']) 60 side a : Int) ≤ max 1 0 := by
  have hordered : Ordered [pollAt .ingest 5, pollAt .console 64, pollAt .ingest 65] := by
    simp only [Ordered, pollAt]
    norm_num
  have hfixed : Fixed [pollAt .ingest 5, pollAt .console 64, pollAt .ingest 65]
      (key .ingest [':']) 1 60 := by
    intro r hr _
    simp only [List.mem_cons, List.not_mem_nil, or_false] at hr
    rcases hr with rfl | rfl | rfl <;> exact ⟨rfl, rfl⟩
  obtain ⟨hbound, -, hback, -⟩ := sliding_window hordered .ingest [':'] hfixed
  refine ⟨?_, hbound⟩
  refine hback (by decide) [pollAt .ingest 5, pollAt .console 64] (pollAt .ingest 65) [] rfl
    (key_eq_iff.mpr ⟨rfl, rfl⟩) ?_
  intro q hq hk
  simp only [List.mem_cons, List.not_mem_nil, or_false] at hq
  rcases hq with hq | hq
  · rw [hq]
    norm_num [pollAt]
  · rw [hq] at hk
    cases (key_eq_iff.mp hk).1

end FleetOps.Middleware
