import Mathlib.Data.List.Basic
import Mathlib.Data.Rat.Init
import Mathlib.Algebra.Order.Ring.Rat
import FleetOps.Library.Runs

namespace FleetOps.Dashboard.Ticket

open Runs

structure Session where
  token : String
  -- absent where the login's answer had none
  expiresAt : Option ℚ

-- A subscriber of the session returns or throws.
structure Auth where
  session : Option Session
  listeners : List (Option Session → Bool)

def REFRESH_MARGIN_SECONDS : ℚ := 30

structure Entry where
  ticket : String
  expiresAt : Option ℚ

inductive Failure where
  -- by `authHeaders` or `fetch`, before there is a promise
  | thrown
  | network
  | status (code : Nat)
  | body
  deriving DecidableEq

-- The promise of an attempt: it awaits the response, then its body.
inductive Promise where
  | fetching
  | reading
  | fulfilled (ticket : String)
  | rejected (failure : Failure)
  deriving DecidableEq

-- What a call of `getTicket` has returned: a ticket, or the promise of an attempt.
inductive Caller where
  | returned (ticket : String)
  | awaits (attempt : Nat)
  deriving DecidableEq

-- The two modules and the attempts made so far; a request is the headers `fetch` was given.
structure Page where
  now : ℚ
  auth : Auth
  cached : Option Entry
  inflight : Option Nat
  promises : List Promise
  requests : List (List (String × String))
  callers : List Caller

section Model

-- `!candidate?.expiresAt` is true of 0 as well.
def isExpired (now : ℚ) (candidate : Session) : Bool :=
  match candidate.expiresAt with
  | none => true
  | some expiresAt => decide (expiresAt = 0 ∨ expiresAt ≤ now)

-- Whether the loop gets through; a listener that throws ends it.
def notify (auth : Auth) : Bool := auth.listeners.all fun throws => !throws auth.session

-- `persist(null)`; what the storage throws is caught.
def persist (auth : Auth) (next : Option Session) : Auth × Bool :=
  let auth := { auth with session := next }
  (auth, notify auth)

def getSession (auth : Auth) (now : ℚ) : Auth × Option (Option Session) :=
  if auth.session.any (isExpired now) then
    let (auth, returned) := persist auth none
    (auth, if returned then some auth.session else none)
  else (auth, some auth.session)

-- The headers, or none where it throws.
def authHeaders (auth : Auth) (now : ℚ) : Auth × Option (List (String × String)) :=
  let (auth, current) := getSession auth now
  (auth, current.map fun
    | some session => [("Authorization", "Bearer " ++ session.token)]
    | none => [])

def isFresh (now : ℚ) (entry : Option Entry) : Bool :=
  entry.any fun entry => entry.expiresAt.any fun expiresAt =>
    decide (now < expiresAt - REFRESH_MARGIN_SECONDS)

-- The `finally` block, and the promise settled with what the block leaves.
def Page.settle (s : Page) (attempt : Nat) (promise : Promise) : Page :=
  { s with inflight := none, promises := s.promises.set attempt promise }

-- Neither `authHeaders` nor `fetch` throws.
def Page.reaches (s : Page) (fetchReturns : Bool) : Bool :=
  (authHeaders s.auth s.now).2.isSome && fetchReturns

-- The attempt up to its first `await`; where that is not reached, it has settled already.
def Page.attempt (s : Page) (fetchReturns : Bool) : Page :=
  let (auth, headers) := authHeaders s.auth s.now
  let t := { s with auth, requests := s.requests ++ headers.toList, promises := s.promises ++ [.fetching] }
  if s.reaches fetchReturns then t else t.settle s.promises.length (.rejected .thrown)

def getTicket (s : Page) (fetchReturns : Bool) : Page :=
  match s.cached, isFresh s.now s.cached with
  | some entry, true => { s with callers := s.callers ++ [.returned entry.ticket] }
  | _, _ =>
      match s.inflight with
      | some attempt => { s with callers := s.callers ++ [.awaits attempt] }
      | none =>
          { s.attempt fetchReturns with
            inflight := some s.promises.length
            callers := s.callers ++ [.awaits s.promises.length] }

end Model

-- How a `fetch` ends, and how its body does.
inductive Response where
  | rejected
  | response (ok : Bool) (status : Nat)

inductive Body where
  | unparseable
  | data (ticket : String) (expires_at : Option ℚ)

inductive Event where
  | tick (seconds : ℚ)
  -- the rest of the page signs in or out, subscribes or unsubscribes
  | auth (auth : Auth)
  | call (fetchReturns : Bool)
  | respond (attempt : Nat) (response : Response)
  | read (attempt : Nat) (body : Body)

-- `Date.now` never goes back.
def step (s : Page) : Event → Option Page
  | .tick seconds => if 0 ≤ seconds then some { s with now := s.now + seconds } else none
  | .auth auth => some { s with auth }
  | .call fetchReturns => some (getTicket s fetchReturns)
  | .respond attempt response =>
      if s.promises[attempt]? ≠ some .fetching then none
      else match response with
        | .rejected => some (s.settle attempt (.rejected .network))
        | .response false status => some (s.settle attempt (.rejected (.status status)))
        | .response true _ => some { s with promises := s.promises.set attempt .reading }
  | .read attempt body =>
      if s.promises[attempt]? ≠ some .reading then none
      else match body with
        | .unparseable => some (s.settle attempt (.rejected .body))
        | .data ticket expiresAt =>
            some ({ s with cached := some ⟨ticket, expiresAt⟩ }.settle attempt (.fulfilled ticket))

def Page.start (now : ℚ) (auth : Auth) : Page := ⟨now, auth, none, none, [], [], []⟩

section Calls

variable {s t : Page}

def Page.pending (s : Page) (attempt : Nat) : Prop :=
  s.promises[attempt]? = some .fetching ∨ s.promises[attempt]? = some .reading

theorem attempt_promises (s : Page) (fetchReturns : Bool) : (s.attempt fetchReturns).promises =
    s.promises ++ [if s.reaches fetchReturns then .fetching else .rejected .thrown] := by
  simp only [Page.attempt]
  split
  · rfl
  · simp [Page.settle]

theorem attempt_cached (s : Page) (fetchReturns : Bool) : (s.attempt fetchReturns).cached = s.cached := by
  simp only [Page.attempt]
  split <;> rfl

theorem attempt_now (s : Page) (fetchReturns : Bool) : (s.attempt fetchReturns).now = s.now := by
  simp only [Page.attempt]
  split <;> rfl

theorem getTicket_fresh {entry : Entry} (hcached : s.cached = some entry)
    (hfresh : isFresh s.now s.cached = true) (fetchReturns : Bool) :
    getTicket s fetchReturns = { s with callers := s.callers ++ [.returned entry.ticket] } := by
  rw [hcached] at hfresh
  simp only [getTicket, hcached, hfresh]

theorem getTicket_inflight {attempt : Nat} (hstale : isFresh s.now s.cached = false)
    (hinflight : s.inflight = some attempt) (fetchReturns : Bool) :
    getTicket s fetchReturns = { s with callers := s.callers ++ [.awaits attempt] } := by
  rw [getTicket]
  split
  · rename_i heq
    rw [hstale] at heq
    cases heq
  · rw [hinflight]

theorem getTicket_new (hstale : isFresh s.now s.cached = false) (hinflight : s.inflight = none)
    (fetchReturns : Bool) : getTicket s fetchReturns =
      { s.attempt fetchReturns with
        inflight := some s.promises.length
        callers := s.callers ++ [.awaits s.promises.length] } := by
  rw [getTicket]
  split
  · rename_i heq
    rw [hstale] at heq
    cases heq
  · rw [hinflight]

theorem isFresh_some {entry : Option Entry} {now : ℚ} (h : isFresh now entry = true) :
    ∃ e, entry = some e := by
  cases entry with
  | none => cases h
  | some e => exact ⟨e, rfl⟩

-- A ticket that is not fresh does not become so.
theorem isFresh_mono {entry : Option Entry} {now later : ℚ} (hle : now ≤ later)
    (h : isFresh later entry = true) : isFresh now entry = true := by
  simp only [isFresh, Option.any_eq_true, decide_eq_true_eq] at h ⊢
  obtain ⟨e, he, expiresAt, hexpires, hlater⟩ := h
  exact ⟨e, he, expiresAt, hexpires, hle.trans_lt hlater⟩

end Calls

section Runs

variable {s t : Page}

-- What every run keeps: an attempt that has not settled is the one in flight, and none is in
-- flight while there is a fresh ticket.
structure Inv (s : Page) : Prop where
  one : ∀ attempt, s.pending attempt → s.inflight = some attempt
  stale : ∀ attempt, s.inflight = some attempt → isFresh s.now s.cached = false

-- The promise in flight has settled, and no one is left to clear it.
def Wedged (s : Page) : Prop := ∃ attempt, s.inflight = some attempt ∧ ¬ s.pending attempt

-- An attempt that this event begins gets to its first `await`.
def Awaits (s : Page) (e : Event) : Prop :=
  ∀ fetchReturns, e = .call fetchReturns → isFresh s.now s.cached = false → s.inflight = none →
    s.reaches fetchReturns = true

theorem inv_start (now : ℚ) (auth : Auth) : Inv (.start now auth) where
  one := fun attempt h => by simp [Page.pending, Page.start] at h
  stale := fun _ h => nomatch h

theorem not_wedged_start (now : ℚ) (auth : Auth) : ¬ Wedged (.start now auth) :=
  fun ⟨_, h, _⟩ => nomatch h

theorem pending_settle {attempt other : Nat} {promise : Promise}
    (hpromise : promise ≠ .fetching ∧ promise ≠ .reading)
    (h : (s.settle attempt promise).pending other) : other ≠ attempt ∧ s.pending other := by
  simp only [Page.pending, Page.settle, List.getElem?_set] at h
  by_cases hother : attempt = other
  · subst hother
    exfalso
    rcases h with h | h
    · simp only [ite_true] at h
      split at h
      · exact hpromise.1 (Option.some.inj h)
      · cases h
    · simp only [ite_true] at h
      split at h
      · exact hpromise.2 (Option.some.inj h)
      · cases h
  · rw [if_neg hother] at h
    exact ⟨Ne.symm hother, h⟩

-- The `finally` block of the one attempt that has not settled leaves none, and none in flight.
theorem inv_settle {attempt : Nat} {promise : Promise}
    (hone : ∀ other, s.pending other → s.inflight = some other) (hpending : s.pending attempt)
    (hpromise : promise ≠ .fetching ∧ promise ≠ .reading) :
    Inv (s.settle attempt promise) ∧ ¬ Wedged (s.settle attempt promise) := by
  refine ⟨⟨fun other hother => ?_, fun _ h => nomatch h⟩, fun ⟨_, h, _⟩ => nomatch h⟩
  obtain ⟨hne, hother⟩ := pending_settle hpromise hother
  have hsame := (hone attempt hpending).symm.trans (hone other hother)
  exact absurd (Option.some.inj hsame).symm hne

theorem not_wedged_of_pending {attempt : Nat} (hinv : Inv s) (h : s.pending attempt) : ¬ Wedged s := by
  rintro ⟨other, hinflight, hother⟩
  have hsame := (hinv.one attempt h).symm.trans hinflight
  exact hother (Option.some.inj hsame ▸ h)

theorem awaits_of_ne {e : Event} (h : ∀ fetchReturns, e ≠ .call fetchReturns) : Awaits s e :=
  fun fetchReturns heq => absurd heq (h fetchReturns)

-- Nothing is pending but the new attempt, if it got to its `await`.
theorem pending_new (hinv : Inv s) (fetchReturns : Bool) (hinflight : s.inflight = none) {attempt : Nat} :
    Page.pending { s.attempt fetchReturns with
      inflight := some s.promises.length
      callers := s.callers ++ [.awaits s.promises.length] } attempt ↔
    attempt = s.promises.length ∧ s.reaches fetchReturns = true := by
  simp only [Page.pending, attempt_promises s fetchReturns, List.getElem?_append]
  split
  · rename_i hlt
    constructor
    · intro h
      have hone := hinv.one attempt h
      rw [hinflight] at hone
      cases hone
    · rintro ⟨rfl, -⟩
      exact absurd hlt (Nat.lt_irrefl _)
  · rename_i hge
    rw [List.getElem?_singleton]
    split
    · have heq : attempt = s.promises.length := by omega
      cases hreaches : s.reaches fetchReturns <;> simp [heq]
    · have hne : attempt ≠ s.promises.length := by omega
      simp [hne]

theorem call_step (hinv : Inv s) (fetchReturns : Bool) : Inv (getTicket s fetchReturns) ∧
    (¬ Wedged (getTicket s fetchReturns) ↔ ¬ Wedged s ∧ Awaits s (.call fetchReturns)) := by
  cases hfresh : isFresh s.now s.cached with
  | true =>
      obtain ⟨entry, hcached⟩ := isFresh_some hfresh
      rw [getTicket_fresh hcached hfresh]
      refine ⟨⟨hinv.one, hinv.stale⟩, fun h => ⟨h, fun _ _ hstale => ?_⟩, fun h => h.1⟩
      rw [hfresh] at hstale
      cases hstale
  | false =>
      cases hinflight : s.inflight with
      | some attempt =>
          rw [getTicket_inflight hfresh hinflight]
          refine ⟨⟨hinv.one, hinv.stale⟩, fun h => ⟨h, fun _ _ _ hnone => ?_⟩, fun h => h.1⟩
          rw [hinflight] at hnone
          cases hnone
      | none =>
          rw [getTicket_new hfresh hinflight]
          have hnot : ¬ Wedged s := by
            rintro ⟨attempt, hsome, -⟩
            rw [hinflight] at hsome
            cases hsome
          refine ⟨⟨fun attempt h => ?_, fun _ _ => ?_⟩, fun h => ⟨hnot, fun f heq _ _ => ?_⟩, fun h => ?_⟩
          · rw [((pending_new hinv fetchReturns hinflight).mp h).1]
          · simp only [attempt_now, attempt_cached, hfresh]
          · obtain rfl := Event.call.inj heq
            by_contra hreaches
            exact h ⟨s.promises.length, rfl, fun hp =>
              hreaches ((pending_new hinv fetchReturns hinflight).mp hp).2⟩
          · rintro ⟨attempt, heq, hsettled⟩
            have hreaches := h.2 fetchReturns rfl hfresh hinflight
            obtain rfl := Option.some.inj heq
            exact hsettled ((pending_new hinv fetchReturns hinflight).mpr ⟨rfl, hreaches⟩)

theorem respond_step {attempt : Nat} {response : Response} (hinv : Inv s)
    (h : step s (.respond attempt response) = some t) : s.pending attempt ∧ Inv t ∧ ¬ Wedged t := by
  simp only [step] at h
  split at h
  · cases h
  · rename_i hfetching
    rw [not_not] at hfetching
    have hpending : s.pending attempt := .inl hfetching
    refine ⟨hpending, ?_⟩
    split at h
    · obtain rfl := Option.some.inj h
      exact inv_settle hinv.one hpending (by simp)
    · obtain rfl := Option.some.inj h
      exact inv_settle hinv.one hpending (by simp)
    · obtain rfl := Option.some.inj h
      have hsame : ∀ other, Page.pending { s with promises := s.promises.set attempt .reading } other ↔
          s.pending other := by
        intro other
        by_cases hother : attempt = other
        · subst hother
          have hlt := (List.getElem?_eq_some_iff.mp hfetching).1
          exact ⟨fun _ => hpending, fun _ => .inr (by simp [hlt])⟩
        · simp only [Page.pending, List.getElem?_set, hother, ite_false]
      refine ⟨⟨fun other hother => hinv.one other ((hsame other).mp hother), hinv.stale⟩, ?_⟩
      rintro ⟨other, hinflight, hsettled⟩
      exact not_wedged_of_pending hinv hpending ⟨other, hinflight, fun hp => hsettled ((hsame other).mpr hp)⟩

theorem read_step {attempt : Nat} {body : Body} (hinv : Inv s)
    (h : step s (.read attempt body) = some t) : s.pending attempt ∧ Inv t ∧ ¬ Wedged t := by
  simp only [step] at h
  split at h
  · cases h
  · rename_i hreading
    rw [not_not] at hreading
    have hpending : s.pending attempt := .inr hreading
    refine ⟨hpending, ?_⟩
    split at h
    · obtain rfl := Option.some.inj h
      exact inv_settle hinv.one hpending (by simp)
    · obtain rfl := Option.some.inj h
      exact inv_settle hinv.one hpending (by simp)

-- A run comes to be wedged by the attempts that throw on their way to their first `await`, and
-- by nothing else; once wedged, it stays so.
theorem inv_step {e : Event} (hinv : Inv s) (h : step s e = some t) :
    Inv t ∧ (¬ Wedged t ↔ ¬ Wedged s ∧ Awaits s e) := by
  cases e with
  | tick seconds =>
      have hother : Awaits s (.tick seconds) := awaits_of_ne fun _ => by simp
      simp only [step] at h
      split at h
      · rename_i hseconds
        obtain rfl := Option.some.inj h
        refine ⟨⟨hinv.one, fun attempt hinflight => ?_⟩, fun hw => ⟨hw, hother⟩, fun hw => hw.1⟩
        have hstale := hinv.stale attempt hinflight
        rw [← Bool.not_eq_true] at hstale ⊢
        exact fun hfresh => hstale (isFresh_mono (le_add_of_nonneg_right hseconds) hfresh)
      · cases h
  | auth auth =>
      have hother : Awaits s (.auth auth) := awaits_of_ne fun _ => by simp
      obtain rfl := Option.some.inj h
      exact ⟨⟨hinv.one, hinv.stale⟩, fun hw => ⟨hw, hother⟩, fun hw => hw.1⟩
  | call fetchReturns =>
      obtain rfl := Option.some.inj h
      exact call_step hinv fetchReturns
  | respond attempt response =>
      have hother : Awaits s (.respond attempt response) := awaits_of_ne fun _ => by simp
      obtain ⟨hpending, ht, hw⟩ := respond_step hinv h
      exact ⟨ht, fun _ => ⟨not_wedged_of_pending hinv hpending, hother⟩, fun _ => hw⟩
  | read attempt body =>
      have hother : Awaits s (.read attempt body) := awaits_of_ne fun _ => by simp
      obtain ⟨hpending, ht, hw⟩ := read_step hinv h
      exact ⟨ht, fun _ => ⟨not_wedged_of_pending hinv hpending, hother⟩, fun _ => hw⟩

-- What an attempt or a call has come to.
def Page.result (s : Page) : Caller → Option (Except Failure String)
  | .returned ticket => some (.ok ticket)
  | .awaits attempt => match s.promises[attempt]? with
      | some (.fulfilled ticket) => some (.ok ticket)
      | some (.rejected failure) => some (.error failure)
      | _ => none

def Settled (promises : List Promise) (attempt : Nat) (promise : Promise) : Prop :=
  promises[attempt]? = some promise ∧ promise ≠ .fetching ∧ promise ≠ .reading

theorem settled_set {promises : List Promise} {attempt other : Nat} {promise old new : Promise}
    (hold : promises[other]? = some old) (hpending : old = .fetching ∨ old = .reading)
    (h : Settled promises attempt promise) : Settled (promises.set other new) attempt promise := by
  refine ⟨?_, h.2⟩
  have hne : other ≠ attempt := by
    rintro rfl
    obtain rfl := Option.some.inj (hold.symm.trans h.1)
    rcases hpending with heq | heq
    · exact h.2.1 heq
    · exact h.2.2 heq
  rw [List.getElem?_set_ne hne]
  exact h.1

-- Callers are only added, and what has settled stays as it is.
theorem callers_step {e : Event} (h : step s e = some t) : (∀ caller ∈ s.callers, caller ∈ t.callers) ∧
    ∀ attempt promise, Settled s.promises attempt promise → Settled t.promises attempt promise := by
  cases e with
  | tick seconds =>
      simp only [step] at h
      split at h
      · obtain rfl := Option.some.inj h
        exact ⟨fun _ hc => hc, fun _ _ hp => hp⟩
      · cases h
  | auth auth =>
      obtain rfl := Option.some.inj h
      exact ⟨fun _ hc => hc, fun _ _ hp => hp⟩
  | call fetchReturns =>
      obtain rfl := Option.some.inj h
      cases hfresh : isFresh s.now s.cached with
      | true =>
          obtain ⟨entry, hcached⟩ := isFresh_some hfresh
          rw [getTicket_fresh hcached hfresh]
          exact ⟨fun _ hc => List.mem_append_left _ hc, fun _ _ hp => hp⟩
      | false =>
          cases hinflight : s.inflight with
          | some attempt =>
              rw [getTicket_inflight hfresh hinflight]
              exact ⟨fun _ hc => List.mem_append_left _ hc, fun _ _ hp => hp⟩
          | none =>
              rw [getTicket_new hfresh hinflight]
              refine ⟨fun _ hc => List.mem_append_left _ hc, fun attempt promise hp => ⟨?_, hp.2⟩⟩
              simp only [attempt_promises]
              exact List.getElem?_append_left (List.getElem?_eq_some_iff.mp hp.1).1 ▸ hp.1
  | respond attempt response =>
      simp only [step] at h
      split at h
      · cases h
      · rename_i hfetching
        rw [not_not] at hfetching
        split at h <;> obtain rfl := Option.some.inj h <;>
          exact ⟨fun _ hc => hc, fun _ _ hp => settled_set hfetching (.inl rfl) hp⟩
  | read attempt body =>
      simp only [step] at h
      split at h
      · cases h
      · rename_i hreading
        rw [not_not] at hreading
        split at h <;> obtain rfl := Option.some.inj h <;>
          exact ⟨fun _ hc => hc, fun _ _ hp => settled_set hreading (.inr rfl) hp⟩

theorem result_step {e : Event} (h : step s e = some t) (caller : Caller) {result : Except Failure String}
    (hresult : s.result caller = some result) : t.result caller = some result := by
  cases caller with
  | returned ticket => exact hresult
  | awaits attempt =>
      simp only [Page.result] at hresult
      split at hresult
      · rename_i ticket hpromise
        have hsettled := ((callers_step h).2 attempt _ ⟨hpromise, by simp, by simp⟩).1
        simpa only [Page.result, hsettled] using hresult
      · rename_i failure hpromise
        have hsettled := ((callers_step h).2 attempt _ ⟨hpromise, by simp, by simp⟩).1
        simpa only [Page.result, hsettled] using hresult
      · cases hresult

theorem result_run {events : List Event} (hrun : exec step s events = some t) (caller : Caller)
    (hcaller : caller ∈ s.callers) : caller ∈ t.callers ∧
      ∀ result, s.result caller = some result → t.result caller = some result := by
  have hinv := exec_invariant
    (I := fun u => caller ∈ u.callers ∧
      ∀ result, s.result caller = some result → u.result caller = some result)
    (fun u e v hu hstep => ⟨(callers_step hstep).1 caller hu.1,
      fun result hresult => result_step hstep caller (hu.2 result hresult)⟩)
    ⟨hcaller, fun _ h => h⟩ hrun
  exact hinv

-- A call that finds no fresh ticket and nothing on its way makes an attempt of its own.
def Recovers (s : Page) : Prop :=
  ∀ fetchReturns, isFresh s.now s.cached = false → (∀ attempt, ¬ s.pending attempt) →
    (getTicket s fetchReturns).callers = s.callers ++ [.awaits s.promises.length] ∧
      (getTicket s fetchReturns).promises.length = s.promises.length + 1

theorem recovers_iff (hinv : Inv s) : Recovers s ↔ ¬ Wedged s := by
  constructor
  · rintro hrecovers ⟨attempt, hinflight, hsettled⟩
    have hfresh := hinv.stale attempt hinflight
    have hnone : ∀ other, ¬ s.pending other := by
      intro other hother
      have hsame := (hinv.one other hother).symm.trans hinflight
      exact hsettled (Option.some.inj hsame ▸ hother)
    have hlength := (hrecovers true hfresh hnone).2
    rw [getTicket_inflight hfresh hinflight] at hlength
    exact absurd hlength (by simp)
  · intro hnot fetchReturns hfresh hnone
    cases hinflight : s.inflight with
    | some attempt => exact absurd ⟨attempt, hinflight, hnone attempt⟩ hnot
    | none =>
        rw [getTicket_new hfresh hinflight]
        exact ⟨rfl, by simp only [attempt_promises, List.length_append, List.length_singleton]⟩

-- One attempt at a time, shared by all that come while it is on its way, and none at all while
-- the ticket is fresh; and after a failure the next call tries again exactly as long as no
-- attempt has thrown before its first `await`.
theorem get_ticket_single_flight_iff (now : ℚ) (auth : Auth) {events : List Event}
    (hrun : exec step (.start now auth) events = some s) :
    (∀ attempt other, s.pending attempt → s.pending other → attempt = other) ∧
    (∀ attempt fetchReturns, s.pending attempt →
      getTicket s fetchReturns = { s with callers := s.callers ++ [.awaits attempt] }) ∧
    (∀ entry fetchReturns, s.cached = some entry → isFresh s.now s.cached = true →
      getTicket s fetchReturns = { s with callers := s.callers ++ [.returned entry.ticket] }) ∧
    (∀ more t, exec step s more = some t → ∀ caller ∈ s.callers, caller ∈ t.callers ∧
      ∀ result, s.result caller = some result → t.result caller = some result) ∧
    (Recovers s ↔ Along step Awaits (.start now auth) events) := by
  have hinv : Inv s := exec_invariant (fun _ _ _ hi h => (inv_step hi h).1) (inv_start now auth) hrun
  refine ⟨fun attempt other h h' => ?_, fun attempt fetchReturns h => ?_,
    fun entry fetchReturns hcached hfresh => getTicket_fresh hcached hfresh fetchReturns,
    fun more t hmore caller hcaller => result_run hmore caller hcaller, ?_⟩
  · exact Option.some.inj ((hinv.one attempt h).symm.trans (hinv.one other h'))
  · have hinflight := hinv.one attempt h
    exact getTicket_inflight (hinv.stale attempt hinflight) hinflight fetchReturns
  · rw [recovers_iff hinv, exec_along_iff (fun _ _ _ hi h => inv_step hi h) (inv_start now auth) hrun]
    exact and_iff_right (not_wedged_start now auth)

-- A request that the network loses is made again.
theorem get_ticket_recovers : ∃ s,
    exec step (.start 0 ⟨none, []⟩) [.call true, .call true, .respond 0 .rejected] = some s ∧ Recovers s := by
  have hrun : exec step (.start 0 ⟨none, []⟩) [.call true, .call true, .respond 0 .rejected] = some _ := rfl
  refine ⟨_, hrun, (get_ticket_single_flight_iff 0 ⟨none, []⟩ hrun).2.2.2.2.mpr ?_⟩
  refine ⟨fun _ heq _ _ => ?_, fun t ht => ⟨fun _ heq _ hnone => ?_, fun u _ => ⟨?_, fun _ _ => trivial⟩⟩⟩
  · obtain rfl := Event.call.inj heq
    rfl
  · obtain rfl := Option.some.inj ht
    cases hnone
  · exact awaits_of_ne fun _ => by simp

-- The session expires, its one listener throws, and every later caller gets that rejection.
def listening : Auth := ⟨some ⟨"t", some 100⟩, [fun _ => true]⟩

theorem get_ticket_wedges : ∃ s, exec step (.start 200 listening) [.call true] = some s ∧
    (∀ attempt, ¬ s.pending attempt) ∧ isFresh s.now s.cached = false ∧ s.requests = [] ∧
    ∃ t, exec step s [.auth ⟨none, []⟩, .call true] = some t ∧ t.requests = [] ∧
      t.callers = [.awaits 0, .awaits 0] ∧ t.result (.awaits 0) = some (.error .thrown) := by
  refine ⟨_, rfl, fun attempt => ?_, rfl, rfl, _, rfl, rfl, rfl, rfl⟩
  cases attempt with
  | zero => exact fun h => h.elim nofun nofun
  | succ n => exact fun h => h.elim nofun nofun

end Runs

end FleetOps.Dashboard.Ticket
