import FleetOps.Middleware.Window

namespace FleetOps.Middleware

open Server SlidingWindow

variable {Member : Type*} [DecidableEq Member]

section Commands

variable {zset : Option (Zset Member)} {window now : ℚ} {history : List ℚ}

def members (zset : Option (Zset Member)) : List Member :=
  (zset.map fun z => z.scores.map Prod.fst).getD []

def scores (zset : Option (Zset Member)) : List ℚ :=
  (zset.map fun z => z.scores.map Prod.snd).getD []

omit [DecidableEq Member] in
theorem zcard_eq (zset : Option (Zset Member)) : zcard zset = (scores zset).length := by
  cases zset <;> simp [zcard, scores]

omit [DecidableEq Member] in
-- With no score below zero, ZREMRANGEBYSCORE from 0 leaves what is in the window.
theorem scores_zremrangebyscore (hpositive : ∀ t ∈ scores zset, 0 < t) :
    scores (zremrangebyscore 0 (now - window) zset) = recent window now (scores zset) := by
  cases zset with
  | none => rfl
  | some z =>
      have hkept : (z.scores.filter fun p => !(decide (0 ≤ p.2) && decide (p.2 ≤ now - window))).map
          Prod.snd = recent window now (z.scores.map Prod.snd) := by
        rw [recent, List.filter_map]
        congr 1
        apply List.filter_congr
        intro p hp
        have hscore : (0 : ℚ) ≤ p.2 := (hpositive p.2 (List.mem_map_of_mem hp)).le
        rw [decide_eq_true hscore, Bool.true_and, ← decide_not]
        exact decide_eq_decide.mpr not_le
      simp only [zremrangebyscore, Option.bind_some]
      split
      · rename_i hnil
        rw [hnil] at hkept
        exact hkept
      · exact hkept

omit [DecidableEq Member] in
theorem members_zremrangebyscore {low high : ℚ} {member : Member}
    (h : member ∈ members (zremrangebyscore low high zset)) : member ∈ members zset := by
  cases zset with
  | none => exact h
  | some z =>
      simp only [zremrangebyscore, Option.bind_some] at h
      split at h
      · cases h
      · obtain ⟨p, hp, rfl⟩ := List.mem_map.mp h
        exact List.mem_map_of_mem (List.mem_filter.mp hp).1

theorem setItem_of_not_mem {d : List (Member × ℚ)} {member : Member} (h : member ∉ d.map Prod.fst)
    (score : ℚ) : Dict.setItem d member score = d ++ [(member, score)] := by
  refine if_neg fun hany => h ?_
  obtain ⟨p, hp, hkey⟩ := List.any_eq_true.mp hany
  exact List.mem_map.mpr ⟨p, hp, beq_iff_eq.mp hkey⟩

-- A member of its own is counted besides the others.
theorem zadd_of_not_mem {member : Member} (h : member ∉ members zset) (score : ℚ) :
    scores (zadd member score zset) = scores zset ++ [score] ∧
      members (zadd member score zset) = members zset ++ [member] := by
  cases zset with
  | none => exact ⟨rfl, rfl⟩
  | some z =>
      simp only [members, Option.map_some, Option.getD_some] at h
      simp [zadd, scores, members, setItem_of_not_mem h]

omit [DecidableEq Member] in
theorem expire_of_pos {seconds : Int} (h : 1 ≤ seconds) (zset : Option (Zset Member)) :
    expire now seconds zset = zset.map fun z => { z with expires_at := some (now + seconds) } :=
  if_neg (by omega)

end Commands

section Keys

-- What a key holds after the requests before it: scores that answer for all its attempts,
-- members of its own visits, and a deadline at which all of them have left the window.
structure Held (window now : ℚ) (history : List ℚ) (used : List Member) (zset : Option (Zset Member)) :
    Prop where
  answers : AnswersFor window now (scores zset) history
  positive : ∀ t ∈ scores zset, 0 < t
  members : ∀ member ∈ members zset, member ∈ used
  deadline : ∀ z, zset = some z → ∀ t, z.expires_at = some t → ∀ u ∈ history, u ≤ t - window

variable {zset : Option (Zset Member)} {window now later : ℚ} {history : List ℚ} {used : List Member}

namespace Held

omit [DecidableEq Member] in
theorem none (window now : ℚ) (used : List Member) : Held window now [] used none :=
  ⟨AnswersFor.refl [], (fun _ ht => nomatch ht), (fun _ h => nomatch h), (fun _ h => nomatch h)⟩

omit [DecidableEq Member] in
theorem mono (h : Held window now history used zset) (hle : now ≤ later) (member : Member) :
    Held window later history (used ++ [member]) zset :=
  ⟨h.answers.mono hle, h.positive, fun m hm => List.mem_append_left _ (h.members m hm), h.deadline⟩

omit [DecidableEq Member] in
-- A key that has expired had nothing left to say.
theorem unexpired {expired : ℚ → ℚ → Bool}
    (hexpired : ∀ now deadline, expired now deadline = true → deadline ≤ now)
    (h : Held window now history used zset) :
    Held window now history used (Middleware.unexpired expired now zset) := by
  cases zset with
  | none => exact h
  | some z =>
      cases hz : z.expires_at.any (expired now) with
      | false =>
          have hfound : Middleware.unexpired expired now (some z) = some z := by
            simp [Middleware.unexpired, Option.filter, hz]
          rwa [hfound]
      | true =>
          have hgone : Middleware.unexpired expired now (some z) = Option.none := by
            simp [Middleware.unexpired, Option.filter, hz]
          obtain ⟨deadline, hdeadline, hpast⟩ : ∃ t, z.expires_at = some t ∧ expired now t = true := by
            cases ht : z.expires_at with
            | none => simp [ht] at hz
            | some t => exact ⟨t, rfl, by simpa [ht] using hz⟩
          have hle := hexpired now deadline hpast
          rw [hgone]
          refine ⟨AnswersFor.forgotten fun t ht => ?_, (fun _ ht => nomatch ht),
            (fun _ hm => nomatch hm), (fun _ hn => nomatch hn)⟩
          exact (h.deadline z rfl deadline hdeadline t ht).trans (sub_le_sub_right hle window)

-- One visit of the key.
theorem visit {seconds : Int} (hseconds : 1 ≤ seconds) {member : Member} (hnow : 0 < now)
    (hnew : member ∉ used) (hpast : ∀ t ∈ history, t ≤ now)
    (h : Held (seconds : ℚ) now history used zset) :
    Held (seconds : ℚ) now (history ++ [now]) (used ++ [member])
      (expire now seconds (zadd member now (zremrangebyscore 0 (now - seconds) zset))) := by
  have hkept : scores (zremrangebyscore 0 (now - (seconds : ℚ)) zset) =
      recent (seconds : ℚ) now (scores zset) := scores_zremrangebyscore h.positive
  have hfresh : member ∉ Middleware.members (zremrangebyscore 0 (now - (seconds : ℚ)) zset) :=
    fun hm => hnew (h.members member (members_zremrangebyscore hm))
  obtain ⟨hscores, hmembers⟩ := zadd_of_not_mem hfresh now
  have hexpire : scores (expire now seconds (zadd member now
      (zremrangebyscore 0 (now - (seconds : ℚ)) zset))) =
        recent (seconds : ℚ) now (scores zset) ++ [now] := by
    rw [expire_of_pos hseconds, ← hkept, ← hscores]
    cases zadd member now (zremrangebyscore 0 (now - (seconds : ℚ)) zset) <;> rfl
  refine ⟨?_, ?_, ?_, ?_⟩
  · rw [hexpire]
    exact (h.answers.dropped le_rfl).append now
  · intro t ht
    rw [hexpire] at ht
    rcases List.mem_append.mp ht with ht | ht
    · exact h.positive t (mem_recent.mp ht).1
    · rwa [List.mem_singleton.mp ht]
  · intro m hm
    have hm : m ∈ Middleware.members (zadd member now
        (zremrangebyscore 0 (now - (seconds : ℚ)) zset)) := by
      rw [expire_of_pos hseconds] at hm
      cases hz : zadd member now (zremrangebyscore 0 (now - (seconds : ℚ)) zset) with
      | none => rw [hz] at hm; exact hm
      | some z => rw [hz] at hm; exact hm
    rw [hmembers] at hm
    rcases List.mem_append.mp hm with hm | hm
    · exact List.mem_append_left _ (h.members m (members_zremrangebyscore hm))
    · exact List.mem_append_right _ hm
  · intro z hz t ht u hu
    rw [expire_of_pos hseconds] at hz
    obtain ⟨y, -, rfl⟩ := Option.map_eq_some_iff.mp hz
    simp only [Option.some.injEq] at ht
    rw [← ht, add_sub_cancel_right]
    rcases List.mem_append.mp hu with hu | hu
    · exact hpast u hu
    · exact (List.mem_singleton.mp hu).le

end Held

end Keys

section Runs

variable {expired : ℚ → ℚ → Bool} {visits before : List (Visit Member)} {window_seconds : Int}

def requests (visits : List (Visit Member)) : List Request := visits.map Visit.request

theorem memory_windows_after (before : List (Visit Member)) (limiter : Limiter Member) :
    (after (check_rate_limit expired "memory") limiter before).memory_windows =
      after check_rate_limit_memory limiter.memory_windows (requests before) := by
  induction before using List.reverseRecOn with
  | nil => rfl
  | append_singleton before v ih =>
      rw [after_append_singleton, requests, List.map_append, List.map_singleton,
        after_append_singleton, ← requests, ← ih]
      rfl

omit [DecidableEq Member] in
theorem redis_key_inj {q r : Request} : redis_key q = redis_key r ↔ q.key = r.key :=
  ⟨fun h => List.append_cancel_left h, fun h => congrArg ("rate_limit:".toList ++ ·) h⟩

-- What the visits have in common where nothing fails: one window, positive times in order,
-- members of their own, and a Redis that answers.
structure Undisturbed (window_seconds : Int) (visits : List (Visit Member)) : Prop where
  ordered : Ordered (requests visits)
  positive : ∀ v ∈ visits, 0 < v.request.now
  window : ∀ v ∈ visits, v.request.window_seconds = window_seconds
  unique : (visits.map Visit.member).Nodup
  no_failure : ∀ v ∈ visits, v.client = true ∧ v.reply = .results

namespace Undisturbed

omit [DecidableEq Member] in
theorem upto {v : Visit Member} {rest : List (Visit Member)}
    (h : Undisturbed window_seconds (before ++ v :: rest)) :
    Undisturbed window_seconds (before ++ [v]) := by
  have hsub : (before ++ [v]).Sublist (before ++ v :: rest) :=
    List.Sublist.append_left (by simp) before
  have hmem : ∀ u ∈ before ++ [v], u ∈ before ++ v :: rest := fun u hu => hsub.subset hu
  exact ⟨h.ordered.sublist (hsub.map _), fun u hu => h.positive u (hmem u hu),
    fun u hu => h.window u (hmem u hu), h.unique.sublist (hsub.map _),
    fun u hu => h.no_failure u (hmem u hu)⟩

omit [DecidableEq Member] in
theorem init {v : Visit Member} (h : Undisturbed window_seconds (before ++ [v])) :
    Undisturbed window_seconds before := by
  have hsub : before.Sublist (before ++ [v]) := List.sublist_append_left before [v]
  exact ⟨h.ordered.sublist (hsub.map _), fun u hu => h.positive u (hsub.subset hu),
    fun u hu => h.window u (hsub.subset hu), h.unique.sublist (hsub.map _),
    fun u hu => h.no_failure u (hsub.subset hu)⟩

end Undisturbed

theorem check_rate_limit_redis (limiter : Limiter Member) {v : Visit Member} (hclient : v.client = true)
    (hreply : v.reply = .results) :
    check_rate_limit expired "redis" limiter v =
      ({ limiter with redis := (execute expired limiter.redis v.request v.member).1 },
        decide (((execute expired limiter.redis v.request v.member).2 : Int) < v.request.max_requests)) := by
  rw [check_rate_limit, if_neg (by decide), if_neg (by simp [hclient]), hreply]

-- Every key holds what the requests before have left there.
theorem redis_held (hexpired : ∀ now deadline, expired now deadline = true → deadline ≤ now)
    (hseconds : 1 ≤ window_seconds) (h : Undisturbed window_seconds before) {r : Request}
    (hlate : ∀ q ∈ requests before, q.now ≤ r.now) :
    Held (window_seconds : ℚ) r.now (attempts (requests before) r.key) (before.map Visit.member)
      ((after (check_rate_limit expired "redis") ⟨[], fun _ => none⟩ before).redis (redis_key r)) := by
  induction before using List.reverseRecOn generalizing r with
  | nil => exact Held.none _ _ _
  | append_singleton before v ih =>
      obtain ⟨hclient, hreply⟩ := h.no_failure v (by simp)
      have hordered := h.ordered
      rw [requests, List.map_append, List.map_singleton] at hordered hlate ⊢
      have hlast : ∀ q ∈ requests before, q.now ≤ v.request.now := hordered.init.2
      have hnow : v.request.now ≤ r.now := hlate v.request (by simp)
      rw [after_append_singleton, check_rate_limit_redis _ hclient hreply, List.map_append,
        List.map_singleton]
      simp only [execute]
      by_cases hk : v.request.key = r.key
      · have hfresh : v.member ∉ before.map Visit.member := by
          have hunique := h.unique
          rw [List.map_append, List.map_singleton] at hunique
          exact fun hmem => List.disjoint_of_nodup_append hunique hmem (by simp)
        have hpast : ∀ t ∈ attempts (requests before) r.key, t ≤ v.request.now := by
          intro t ht
          obtain ⟨q, hq, -, rfl⟩ := mem_attempts.mp ht
          exact hlast q hq
        have hheld := ih h.init hlast
        rw [redis_key_inj.mpr hk, hk] at hheld
        rw [attempts_append_of_eq hk, redis_key_inj.mpr hk, Function.update_self,
          h.window v (by simp)]
        have hvisit := (hheld.unexpired hexpired).visit hseconds (h.positive v (by simp)) hfresh hpast
        exact ⟨hvisit.answers.mono hnow, hvisit.positive, hvisit.members, hvisit.deadline⟩
      · rw [attempts_append_of_ne hk, Function.update_of_ne fun heq => hk (redis_key_inj.mp heq).symm]
        have hearlier : ∀ q ∈ requests before, q.now ≤ r.now := fun q hq => (hlast q hq).trans hnow
        exact (ih h.init hearlier).mono le_rfl v.member

-- Both backends answer as if they remembered every request.
theorem redis_reply (hexpired : ∀ now deadline, expired now deadline = true → deadline ≤ now)
    (hseconds : 1 ≤ window_seconds) {v : Visit Member} (h : Undisturbed window_seconds (before ++ [v])) :
    (check_rate_limit expired "redis"
      (after (check_rate_limit expired "redis") ⟨[], fun _ => none⟩ before) v).2 =
        within_budget (requests before) v.request := by
  obtain ⟨hclient, hreply⟩ := h.no_failure v (by simp)
  have hordered := h.ordered
  rw [requests, List.map_append, List.map_singleton] at hordered
  have hheld := (redis_held hexpired hseconds h.init hordered.init.2).unexpired hexpired
  rw [check_rate_limit_redis _ hclient hreply, within_budget, execute]
  simp only
  rw [zcard_eq, h.window v (by simp), scores_zremrangebyscore hheld.positive,
    hheld.answers v.request.now le_rfl]

theorem memory_backend_reply {limiter : Limiter Member} (hempty : limiter.memory_windows = [])
    {v : Visit Member} (h : Undisturbed window_seconds (before ++ [v])) :
    (check_rate_limit expired "memory"
      (after (check_rate_limit expired "memory") limiter before) v).2 =
        within_budget (requests before) v.request := by
  have hordered := h.ordered
  rw [requests, List.map_append, List.map_singleton] at hordered
  have hmemory : (check_rate_limit expired "memory"
      (after (check_rate_limit expired "memory") limiter before) v).2 =
        (check_rate_limit_memory (after check_rate_limit_memory [] (requests before)) v.request).2 := by
    rw [← hempty, ← memory_windows_after]
    rfl
  rw [hmemory]
  refine memory_reply hordered fun q hq _ => ?_
  obtain ⟨u, hu, rfl⟩ := List.mem_map.mp hq
  rw [h.window u (List.mem_append_left _ hu), h.window v (by simp)]

theorem backends_agree (hexpired : ∀ now deadline, expired now deadline = true → deadline ≤ now)
    (hseconds : 1 ≤ window_seconds) (h : Undisturbed window_seconds visits) :
    answers (check_rate_limit expired "memory") ⟨[], fun _ => none⟩ visits =
      answers (check_rate_limit expired "redis") ⟨[], fun _ => none⟩ visits := by
  refine answers_congr fun before v rest hsplit => ?_
  rw [hsplit] at h
  rw [memory_backend_reply rfl h.upto, redis_reply hexpired hseconds h.upto]

-- Redis drops a key after its deadline, and the second visit falls on the edge of the window.
theorem backends_agree_edge :
    answers (check_rate_limit (fun now deadline => decide (deadline < now)) "memory")
        ⟨[], fun _ => none⟩
        [⟨pollAt .console 1, 0, true, .results⟩, ⟨pollAt .console 61, 1, true, .results⟩] =
      answers (check_rate_limit (fun now deadline => decide (deadline < now)) "redis")
        ⟨[], fun _ => none⟩
        [⟨pollAt .console 1, 0, true, .results⟩, ⟨pollAt .console 61, 1, true, .results⟩] := by
  have hseconds : (1 : Int) ≤ 60 := by decide
  refine backends_agree (fun now deadline h => (of_decide_eq_true h).le) hseconds
    ⟨?_, ?_, ?_, by decide, ?_⟩
  · simp only [Ordered, requests, pollAt, List.map_cons, List.map_nil]
    norm_num
  · intro v hv
    simp only [List.mem_cons, List.not_mem_nil, or_false] at hv
    rcases hv with rfl | rfl
    · exact one_pos
    · exact (by norm_num : (0 : ℚ) < 61)
  all_goals
    intro v hv
    simp only [List.mem_cons, List.not_mem_nil, or_false] at hv
    rcases hv with rfl | rfl
  · rfl
  · rfl
  · exact ⟨rfl, rfl⟩
  · exact ⟨rfl, rfl⟩

end Runs

end FleetOps.Middleware
