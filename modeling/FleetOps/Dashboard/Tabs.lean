import FleetOps.Auth.Vouched
import FleetOps.Dashboard.Ticket

namespace FleetOps.Dashboard.Tabs

open Auth Runs
open Ticket (isExpired)

structure Session extends Ticket.Session where
  username : String
  role : String

-- Which calls of the storage do not throw.
structure Storage where
  reads : Bool
  writes : Bool

-- What becomes of an answer of the backend on its way to the page.
inductive Transfer where
  | intact
  -- its body does not read
  | garbled (message : String)
  -- `fetch` throws
  | lost (message : String)

-- The session of the module, the item in the tab's storage, and what the gate, the sign-in
-- screen and the App keep between renders.
structure Tab where
  session : Option Session
  stored : Option Session
  -- `none` while the gate is "checking"
  loginRequired : Option Bool
  signedIn : Option Session
  -- the sign-in under way, with the answer where the request reached the backend
  submitting : Option (Option (Except Refusal TokenResponse))
  error : String

inductive Screen where
  | blank
  | login
  | console
  deriving DecidableEq

section Model

-- What `JSON.parse` makes of the item is what was written.
def persist (tab : Tab) (next : Option Session) (storage : Storage) : Tab :=
  { tab with session := next, stored := if storage.writes then next else tab.stored }

def restoreSession (tab : Tab) (now : ℚ) (storage : Storage) : Tab :=
  if !storage.reads then tab
  else match tab.stored with
    | none => tab
    | some parsed =>
        if isExpired now parsed.toSession then
          { tab with stored := if storage.writes then none else tab.stored }
        else { tab with session := some parsed }

def getSession (tab : Tab) (now : ℚ) (storage : Storage) : Tab × Option Session :=
  let tab := if tab.session.any fun session => isExpired now session.toSession then
    persist tab none storage else tab
  (tab, tab.session)

def authHeaders (tab : Tab) (now : ℚ) (storage : Storage) : Tab × List (String × String) :=
  let (tab, current) := getSession tab now storage
  (tab, match current with
    | some session => [("Authorization", "Bearer " ++ session.token)]
    | none => [])

def Session.ofResponse (body : TokenResponse) : Session where
  token := String.ofList body.access_token
  expiresAt := some body.expires_at
  username := body.username
  role := body.role

-- `message || "Sign-in failed"`
def messageOr (message : String) : String := if message = "" then "Sign-in failed" else message

-- `login` from the answer on; an error that is not the route's own comes without JSON.
def login (tab : Tab) (now : ℚ) (answer : Option (Except Refusal TokenResponse)) (transfer : Transfer)
    (storage : Storage) : Tab × Except String (Option Session) :=
  match answer, transfer with
  | _, .lost message => (tab, .error message)
  | some (.ok _), .garbled message => (tab, .error message)
  | some (.ok body), .intact =>
      let (tab, session) := getSession (persist tab (some (.ofResponse body)) storage) now storage
      (tab, .ok session)
  | some (.error (.http_exception _ detail)), .intact => (tab, .error (messageOr detail))
  | _, _ => (tab, .error "Sign-in failed")

def logout (tab : Tab) (storage : Storage) : Tab := persist tab none storage

-- `handleSubmit` from the answer on
def submitted (tab : Tab) (now : ℚ) (answer : Option (Except Refusal TokenResponse))
    (transfer : Transfer) (storage : Storage) : Tab :=
  match login tab now answer transfer storage with
  | (tab, .ok session) => { tab with submitting := none, signedIn := session }
  | (tab, .error message) => { tab with submitting := none, error := messageOr message }

-- A page load: the App reads the session as it first renders, and the gate restores it after.
def load (stored : Option Session) (now : ℚ) (storage : Storage) : Tab :=
  let (tab, session) := getSession ⟨none, stored, none, none, none, ""⟩ now storage
  restoreSession { tab with signedIn := session } now storage

def screenOf (loginRequired : Option Bool) (signedIn : Bool) : Screen :=
  match loginRequired with
  | none => .blank
  | some required => if required && !signedIn then .login else .console

def Tab.screen (tab : Tab) : Screen := screenOf tab.loginRequired tab.signedIn.isSome

end Model

-- What happens in a page.
inductive PageEvent where
  -- `fetchAuthConfig` is answered, or fails
  | config (answered : Bool)
  | submit (credentials : LoginRequest) (reached recorded : Bool)
  | settle (transfer : Transfer) (storage : Storage)
  -- a request that takes the headers
  | request (storage : Storage)
  | logout (storage : Storage)

-- What is sent to the backend and changes something there.
def PageEvent.sent : PageEvent → Option Request
  | .submit credentials true recorded => some (.login credentials recorded)
  | _ => none

-- Where the request of a sign-in did not get through, `fetch` throws.
def settles (answer : Option (Except Refusal TokenResponse)) : Transfer → Bool
  | .lost _ => true
  | _ => answer.isSome

def answerTo (d : Deployment) (console : Console) (credentials : LoginRequest) (reached : Bool) :
    Option (Except Refusal TokenResponse) :=
  if reached then some (d.login console.users credentials console.now).answer else none

def Tab.step (d : Deployment) (console : Console) (tab : Tab) : PageEvent → Option Tab
  | .config answered =>
      if tab.loginRequired = none then
        some { tab with loginRequired := some (answered && d.settings.auth_required) }
      else none
  | .submit credentials reached _ =>
      if tab.screen = .login ∧ tab.submitting.isNone then
        some { tab with submitting := some (answerTo d console credentials reached), error := "" }
      else none
  | .settle transfer storage =>
      match tab.submitting with
      | none => none
      | some answer =>
          if settles answer transfer then some (submitted tab console.now answer transfer storage) else none
  | .request storage => some (authHeaders tab console.now storage).1
  | .logout storage => some (logout tab storage)

-- A new tab, or one that takes over the storage of another or its own.
def Tab.opened (now : ℚ) (source : Option Tab) (storage : Storage) : Tab :=
  load (source.bind Tab.stored) now storage

-- The deployment and the tabs of a browser, whose clock is the deployment's.
structure Browser (α : Type) where
  console : Console
  tabs : List α

def Browser.start (α : Type) (now : ℚ) (users : List User) : Browser α := ⟨.start now users, []⟩

inductive Event where
  -- the clock, the accounts and everyone else's requests
  | console (r : Request)
  | visit (storage : Storage)
  | duplicate (tab : Nat) (storage : Storage)
  | reload (tab : Nat) (storage : Storage)
  | page (tab : Nat) (e : PageEvent)

variable {α : Type}

def browse (d : Deployment) (step : Console → α → PageEvent → Option α)
    (opened : ℚ → Option α → Storage → α) (s : Browser α) : Event → Option (Browser α)
  | .console r => (d.step s.console r).map fun console => { s with console }
  | .visit storage => some { s with tabs := s.tabs ++ [opened s.console.now none storage] }
  | .duplicate k storage => s.tabs[k]?.map fun tab =>
      { s with tabs := s.tabs ++ [opened s.console.now (some tab) storage] }
  | .reload k storage => s.tabs[k]?.map fun tab =>
      { s with tabs := s.tabs.set k (opened s.console.now (some tab) storage) }
  | .page k e => s.tabs[k]?.bind fun tab => (step s.console tab e).bind fun next =>
      (e.sent.elim (some s.console) (d.step s.console)).map fun console => ⟨console, s.tabs.set k next⟩

section Sessions

variable {now later : ℚ} {tab : Tab} {storage : Storage}

-- The session, as long as its token lives.
def current (now : ℚ) (session : Option Session) : Option Session :=
  session.filter fun session => !isExpired now session.toSession

theorem isExpired_mono (hle : now ≤ later) {session : Ticket.Session}
    (h : isExpired now session = true) : isExpired later session = true := by
  rw [isExpired] at h ⊢
  cases hexpires : session.expiresAt with
  | none => rfl
  | some expiresAt =>
      simp only [hexpires, decide_eq_true_eq] at h ⊢
      exact h.imp_right fun hpast => hpast.trans hle

theorem current_eq_none_iff {session : Option Session} :
    current now session = none ↔ ∀ x ∈ session, isExpired now x.toSession = true := by
  simp [current, Option.filter_eq_none_iff]

theorem current_eq_some_iff {session : Option Session} {x : Session} :
    current now session = some x ↔ session = some x ∧ isExpired now x.toSession = false := by
  simp [current, Option.filter_eq_some_iff]

theorem current_current (hle : now ≤ later) (session : Option Session) :
    current later (current now session) = current later session := by
  cases session with
  | none => rfl
  | some x =>
      by_cases hexpired : isExpired now x.toSession = true
      · simp [current, Option.filter_some, hexpired, isExpired_mono hle hexpired]
      · simp [current, Option.filter_some, hexpired]

theorem current_congr (hle : now ≤ later) {a b : Option Session} (h : current now a = current now b) :
    current later a = current later b := by
  rw [← current_current hle a, h, current_current hle b]

-- Either the session has not expired, or it is dropped.
theorem getSession_cases (tab : Tab) (now : ℚ) (storage : Storage) :
    (current now tab.session = tab.session ∧ getSession tab now storage = (tab, tab.session)) ∨
      (current now tab.session = none ∧ getSession tab now storage = (persist tab none storage, none)) := by
  cases hsession : tab.session with
  | none => exact .inl ⟨rfl, by simp [getSession, hsession]⟩
  | some x =>
      by_cases hexpired : isExpired now x.toSession = true
      · exact .inr ⟨by simp [current, hexpired], by simp [getSession, hsession, hexpired, persist]⟩
      · exact .inl ⟨by simp [current, hexpired], by simp [getSession, hsession, hexpired]⟩

theorem getSession_snd (tab : Tab) (now : ℚ) (storage : Storage) :
    (getSession tab now storage).2 = current now tab.session := by
  rcases getSession_cases tab now storage with ⟨hlive, h⟩ | ⟨hexpired, h⟩
  · rw [h, hlive]
  · rw [h, hexpired]

-- The headers are those of the module as the tickets use it, where nobody subscribes to it.
theorem authHeaders_ticket (tab : Tab) (now : ℚ) (storage : Storage) :
    (Ticket.authHeaders ⟨tab.session.map Session.toSession, []⟩ now).2 =
      some (authHeaders tab now storage).2 := by
  cases hsession : tab.session with
  | none => simp [Ticket.authHeaders, Ticket.getSession, authHeaders, getSession, hsession]
  | some x =>
      by_cases hexpired : isExpired now x.toSession = true
      · simp [Ticket.authHeaders, Ticket.getSession, Ticket.persist, Ticket.notify, authHeaders, getSession,
          persist, hsession, hexpired]
      · simp [Ticket.authHeaders, Ticket.getSession, authHeaders, getSession, hsession, hexpired]

end Sessions

-- What a tab is for: it keeps who signed in there last, and wants a sign-in of each page load
-- where the deployment wants one.
structure Seat where
  member : Option Session
  loginRequired : Option Bool
  entered : Bool
  submitting : Option (Option (Except Refusal TokenResponse))

def Seat.screen (seat : Seat) : Screen := screenOf seat.loginRequired seat.entered

-- The session that an answer gives.
def granted : Option (Except Refusal TokenResponse) → Transfer → Option Session
  | some (.ok body), .intact => some (.ofResponse body)
  | _, _ => none

def Seat.settled (seat : Seat) (now : ℚ) : Option Session → Seat
  | none => { seat with submitting := none }
  | some session => { seat with
      member := some session
      entered := !isExpired now session.toSession
      submitting := none }

def Seat.step (d : Deployment) (console : Console) (seat : Seat) : PageEvent → Option Seat
  | .config answered =>
      if seat.loginRequired = none then
        some { seat with loginRequired := some (answered && d.settings.auth_required) }
      else none
  | .submit credentials reached _ =>
      if seat.screen = .login ∧ seat.submitting.isNone then
        some { seat with submitting := some (answerTo d console credentials reached) }
      else none
  | .settle transfer _ =>
      match seat.submitting with
      | none => none
      | some answer =>
          if settles answer transfer then some (seat.settled console.now (granted answer transfer)) else none
  | .request _ => some seat
  | .logout _ => some { seat with member := none }

def Seat.opened (_ : ℚ) (source : Option Seat) (_ : Storage) : Seat :=
  ⟨source.bind Seat.member, none, false, none⟩

-- The storage does what it is asked.
def Storage.Healthy (storage : Storage) : Prop := storage.reads = true ∧ storage.writes = true

def PageEvent.Healthy : PageEvent → Prop
  | .settle _ storage | .request storage | .logout storage => storage.Healthy
  | .config _ | .submit _ _ _ => True

def Event.Healthy : Event → Prop
  | .console _ => True
  | .visit storage | .duplicate _ storage | .reload _ storage => storage.Healthy
  | .page _ e => e.Healthy

section Refinement

-- The session of the module and the stored one are the seat's, as far as they still count.
structure Keeps (now : ℚ) (tab : Tab) (seat : Seat) : Prop where
  session : current now tab.session = current now seat.member
  stored : current now tab.stored = current now seat.member
  loginRequired : tab.loginRequired = seat.loginRequired
  entered : tab.signedIn.isSome = seat.entered
  submitting : tab.submitting = seat.submitting

variable {d : Deployment} {console : Console} {now later : ℚ} {tab next : Tab} {seat : Seat}
  {storage : Storage} {e : PageEvent}

theorem Keeps.mono (hle : now ≤ later) (h : Keeps now tab seat) : Keeps later tab seat where
  session := current_congr hle h.session
  stored := current_congr hle h.stored
  loginRequired := h.loginRequired
  entered := h.entered
  submitting := h.submitting

theorem Keeps.screen (h : Keeps now tab seat) : tab.screen = seat.screen := by
  rw [Tab.screen, h.loginRequired, h.entered]
  rfl

theorem Keeps.persist (h : Keeps now tab seat) (hhealthy : storage.Healthy) (member : Option Session)
    {session : Option Session} (hsession : current now session = current now member) :
    Keeps now (persist tab session storage) { seat with member } where
  session := hsession
  stored := by
    rw [Tabs.persist, hhealthy.2, if_pos rfl]
    exact hsession
  loginRequired := h.loginRequired
  entered := h.entered
  submitting := h.submitting

theorem Keeps.getSession (h : Keeps now tab seat) (hhealthy : storage.Healthy) :
    Keeps now (getSession tab now storage).1 seat := by
  rcases getSession_cases tab now storage with ⟨-, heq⟩ | ⟨hexpired, heq⟩
  · rw [heq]
    exact h
  · rw [heq]
    exact h.persist hhealthy seat.member (hexpired.symm.trans h.session)

theorem keeps_load {stored member : Option Session} (hstored : current now stored = current now member)
    (hhealthy : storage.Healthy) : Keeps now (load stored now storage) ⟨member, none, false, none⟩ := by
  have hfirst : Tabs.getSession ⟨none, stored, none, none, none, ""⟩ now storage =
      (⟨none, stored, none, none, none, ""⟩, none) := rfl
  simp only [load, hfirst, restoreSession, hhealthy.1, hhealthy.2, Bool.not_true, Bool.false_eq_true,
    if_false, if_true]
  cases stored with
  | none => exact ⟨hstored, hstored, rfl, rfl, rfl⟩
  | some parsed =>
      simp only
      split
      · rename_i hexpired
        have hnone : current now member = none := by
          rw [← hstored, current_eq_none_iff]
          simpa using hexpired
        exact ⟨hnone.symm, hnone.symm, rfl, rfl, rfl⟩
      · exact ⟨hstored, hstored, rfl, rfl, rfl⟩

-- An answer gives a session, which is written down and read back, or an error.
theorem login_cases (tab : Tab) (now : ℚ) (answer : Option (Except Refusal TokenResponse))
    (transfer : Transfer) (storage : Storage) :
    (∃ session, granted answer transfer = some session ∧ login tab now answer transfer storage =
      ((getSession (persist tab (some session) storage) now storage).1, .ok (current now (some session)))) ∨
    (granted answer transfer = none ∧
      ∃ message, login tab now answer transfer storage = (tab, .error message)) := by
  cases transfer with
  | intact =>
      rcases answer with _ | refusal | body
      · exact .inr ⟨rfl, _, rfl⟩
      · cases refusal with
        | http_exception status_code detail => exact .inr ⟨rfl, _, rfl⟩
        | overflow_error => exact .inr ⟨rfl, _, rfl⟩
      · have hsession := getSession_snd (persist tab (some (.ofResponse body)) storage) now storage
        refine .inl ⟨.ofResponse body, rfl, ?_⟩
        rw [login]
        exact Prod.ext rfl (congrArg Except.ok hsession)
  | garbled message =>
      rcases answer with _ | refusal | body
      · exact .inr ⟨rfl, _, rfl⟩
      · exact .inr ⟨rfl, _, rfl⟩
      · exact .inr ⟨rfl, _, rfl⟩
  | lost message =>
      refine .inr ⟨?_, message, ?_⟩
      · rcases answer with _ | refusal | body <;> rfl
      · rcases answer with _ | refusal | body <;> rfl

theorem submitted_granted {answer : Option (Except Refusal TokenResponse)} {transfer : Transfer}
    {session : Session} (h : granted answer transfer = some session) :
    submitted tab now answer transfer storage =
      { (getSession (persist tab (some session) storage) now storage).1 with
        submitting := none, signedIn := current now (some session) } := by
  rcases login_cases tab now answer transfer storage with ⟨other, hgranted, hlogin⟩ | ⟨hgranted, -⟩
  · rw [h] at hgranted
    cases hgranted
    rw [submitted, hlogin]
  · rw [h] at hgranted
    cases hgranted

theorem submitted_refused (tab : Tab) (now : ℚ) (storage : Storage)
    {answer : Option (Except Refusal TokenResponse)} {transfer : Transfer}
    (h : granted answer transfer = none) : ∃ error,
    submitted tab now answer transfer storage = { tab with submitting := none, error } := by
  rcases login_cases tab now answer transfer storage with ⟨other, hgranted, -⟩ | ⟨-, message, hlogin⟩
  · rw [h] at hgranted
    cases hgranted
  · exact ⟨messageOr message, by rw [submitted, hlogin]⟩

theorem Keeps.submitted (h : Keeps now tab seat) (answer : Option (Except Refusal TokenResponse))
    (transfer : Transfer) (hhealthy : storage.Healthy) :
    Keeps now (submitted tab now answer transfer storage) (seat.settled now (granted answer transfer)) := by
  cases hgranted : granted answer transfer with
  | none =>
      obtain ⟨error, heq⟩ := submitted_refused tab now storage hgranted
      rw [heq]
      exact ⟨h.session, h.stored, h.loginRequired, h.entered, rfl⟩
  | some session =>
      have hkept := (h.persist hhealthy (some session) rfl).getSession hhealthy
      rw [submitted_granted hgranted]
      refine ⟨hkept.session, hkept.stored, hkept.loginRequired, ?_, rfl⟩
      simp only [current, Option.filter_some, Seat.settled]
      cases isExpired now session.toSession <;> rfl

theorem Keeps.step (h : Keeps console.now tab seat) (hhealthy : e.Healthy)
    (hstep : tab.step d console e = some next) :
    ∃ seat', seat.step d console e = some seat' ∧ Keeps console.now next seat' := by
  cases e with
  | config answered =>
      simp only [Tab.step, Option.ite_none_right_eq_some, Option.some.injEq] at hstep
      obtain ⟨hchecking, rfl⟩ := hstep
      rw [h.loginRequired] at hchecking
      exact ⟨_, if_pos hchecking, h.session, h.stored, rfl, h.entered, h.submitting⟩
  | submit credentials reached recorded =>
      simp only [Tab.step, Option.ite_none_right_eq_some, Option.some.injEq] at hstep
      obtain ⟨hidle, rfl⟩ := hstep
      rw [h.screen, h.submitting] at hidle
      exact ⟨_, if_pos hidle, h.session, h.stored, h.loginRequired, h.entered, rfl⟩
  | settle transfer storage =>
      simp only [Tab.step] at hstep
      split at hstep
      · cases hstep
      · rename_i answer hanswer
        simp only [Option.ite_none_right_eq_some, Option.some.injEq] at hstep
        obtain ⟨hsettles, rfl⟩ := hstep
        rw [h.submitting] at hanswer
        refine ⟨_, ?_, h.submitted answer transfer hhealthy⟩
        simp only [Seat.step, hanswer, hsettles, if_true]
  | request storage =>
      cases hstep
      exact ⟨seat, rfl, h.getSession hhealthy⟩
  | logout storage =>
      cases hstep
      exact ⟨_, rfl, h.persist hhealthy none rfl⟩

end Refinement

section Console

variable {d : Deployment} {s t : Console} {r : Request}

-- The clock goes on, and a sign-in stays signed.
theorem console_step (h : d.step s r = some t) : s.now ≤ t.now ∧ s.signed ⊆ t.signed := by
  cases effect_of_step h with
  | tick hpos => exact ⟨by simpa using hpos, fun _ hi => hi⟩
  | signed => exact ⟨le_rfl, List.subset_append_left _ _⟩
  | edit | minted | dispatched | watching | refused => exact ⟨le_rfl, fun _ hi => hi⟩

end Console

section Browsing

variable {d : Deployment} {α : Type} {step : Console → α → PageEvent → Option α}
  {opened : ℚ → Option α → Storage → α}

-- What an event of the browser comes to.
inductive Browsing (d : Deployment) (step : Console → α → PageEvent → Option α)
    (opened : ℚ → Option α → Storage → α) (s : Browser α) : Event → Browser α → Prop where
  | console {r : Request} {console : Console} (hstep : d.step s.console r = some console) :
      Browsing d step opened s (.console r) { s with console }
  | visit (storage : Storage) : Browsing d step opened s (.visit storage)
      { s with tabs := s.tabs ++ [opened s.console.now none storage] }
  | duplicate {k : Nat} {tab : α} (htab : s.tabs[k]? = some tab) (storage : Storage) :
      Browsing d step opened s (.duplicate k storage)
        { s with tabs := s.tabs ++ [opened s.console.now (some tab) storage] }
  | reload {k : Nat} {tab : α} (htab : s.tabs[k]? = some tab) (storage : Storage) :
      Browsing d step opened s (.reload k storage)
        { s with tabs := s.tabs.set k (opened s.console.now (some tab) storage) }
  | page {k : Nat} {tab next : α} {e : PageEvent} {console : Console} (htab : s.tabs[k]? = some tab)
      (hstep : step s.console tab e = some next)
      (hsent : e.sent.elim (some s.console) (d.step s.console) = some console) :
      Browsing d step opened s (.page k e) ⟨console, s.tabs.set k next⟩

theorem browse_iff {s t : Browser α} {e : Event} :
    browse d step opened s e = some t ↔ Browsing d step opened s e t := by
  constructor
  · intro h
    cases e with
    | console r =>
        obtain ⟨console, hstep, rfl⟩ := Option.map_eq_some_iff.mp h
        exact .console hstep
    | visit storage =>
        cases h
        exact .visit storage
    | duplicate k storage =>
        obtain ⟨tab, htab, rfl⟩ := Option.map_eq_some_iff.mp h
        exact .duplicate htab storage
    | reload k storage =>
        obtain ⟨tab, htab, rfl⟩ := Option.map_eq_some_iff.mp h
        exact .reload htab storage
    | page k e =>
        obtain ⟨tab, htab, hnext⟩ := Option.bind_eq_some_iff.mp h
        obtain ⟨next, hstep, hconsole⟩ := Option.bind_eq_some_iff.mp hnext
        obtain ⟨console, hsent, rfl⟩ := Option.map_eq_some_iff.mp hconsole
        exact .page htab hstep hsent
  · intro h
    cases h with
    | console hstep => simp only [browse, hstep, Option.map_some]
    | visit storage => rfl
    | duplicate htab storage => simp only [browse, htab, Option.map_some]
    | reload htab storage => simp only [browse, htab, Option.map_some]
    | page htab hstep hsent => simp only [browse, htab, hstep, hsent, Option.bind_some, Option.map_some]

-- What a page sends leaves the deployment with as much as any request does.
theorem sent_step {s t : Console} {e : PageEvent} (h : e.sent.elim (some s) (d.step s) = some t) :
    s.now ≤ t.now ∧ s.signed ⊆ t.signed := by
  cases hsent : e.sent with
  | none =>
      rw [hsent] at h
      cases h
      exact ⟨le_rfl, fun _ hi => hi⟩
  | some r =>
      rw [hsent] at h
      exact console_step h

end Browsing

section Kept

variable {d : Deployment}

-- The tabs of the browser are the seats, place by place.
structure Matches (s : Browser Tab) (u : Browser Seat) : Prop where
  console : s.console = u.console
  tabs : List.Forall₂ (Keeps s.console.now) s.tabs u.tabs

theorem Matches.step {s t : Browser Tab} {u : Browser Seat} {e : Event} (hhealthy : e.Healthy)
    (h : Matches s u) (hstep : browse d (Tab.step d) Tab.opened s e = some t) :
    ∃ v, browse d (Seat.step d) Seat.opened u e = some v ∧ Matches t v := by
  obtain ⟨console, seats⟩ := u
  obtain rfl := h.console
  cases browse_iff.mp hstep with
  | console hsent =>
      exact ⟨_, browse_iff.mpr (.console hsent), rfl, h.tabs.imp fun _ _ => Keeps.mono (console_step hsent).1⟩
  | visit storage =>
      exact ⟨_, browse_iff.mpr (.visit storage), rfl,
        List.rel_append h.tabs (.cons (keeps_load rfl hhealthy) .nil)⟩
  | duplicate htab storage =>
      obtain ⟨seat, hseat, hkeeps⟩ := forall₂_getElem? h.tabs htab
      exact ⟨_, browse_iff.mpr (.duplicate hseat storage), rfl,
        List.rel_append h.tabs (.cons (keeps_load hkeeps.stored hhealthy) .nil)⟩
  | reload htab storage =>
      obtain ⟨seat, hseat, hkeeps⟩ := forall₂_getElem? h.tabs htab
      exact ⟨_, browse_iff.mpr (.reload hseat storage), rfl,
        forall₂_set h.tabs _ (keeps_load hkeeps.stored hhealthy)⟩
  | page htab hnext hsent =>
      obtain ⟨seat, hseat, hkeeps⟩ := forall₂_getElem? h.tabs htab
      obtain ⟨seat', hmoved, hkept⟩ := hkeeps.step hhealthy hnext
      exact ⟨_, browse_iff.mpr (.page hseat hmoved hsent), rfl,
        (forall₂_set h.tabs _ hkept).imp fun _ _ => Keeps.mono (sent_step hsent).1⟩

-- With a storage that works, a tab is the seat it is for: what it sends is who signed in there
-- last, as long as the token lives and through reloads and copies of the tab; and it asks for
-- a sign-in in every page load again.
theorem sessions_kept {now : ℚ} {users : List User} {es : List Event} {t : Browser Tab}
    (hhealthy : ∀ e ∈ es, e.Healthy)
    (hrun : exec (browse d (Tab.step d) Tab.opened) (.start Tab now users) es = some t) :
    ∃ u, exec (browse d (Seat.step d) Seat.opened) (.start Seat now users) es = some u ∧
      u.console = t.console ∧
      List.Forall₂ (fun tab seat =>
        (∀ storage, (getSession tab t.console.now storage).2 = current t.console.now seat.member) ∧
        tab.screen = seat.screen) t.tabs u.tabs := by
  have hstart : Matches (.start Tab now users) (.start Seat now users) := ⟨rfl, .nil⟩
  obtain ⟨u, hseats, hmatches⟩ := exec_simulates
    (fun _ _ _ _ hhealthy h hstep => h.step hhealthy hstep) hhealthy hstart hrun
  refine ⟨u, hseats, hmatches.console.symm, hmatches.tabs.imp fun tab seat hkeeps => ⟨?_, hkeeps.screen⟩⟩
  intro storage
  rw [getSession_snd, hkeeps.session]

end Kept

section Honoured

variable {d : Deployment} {s t : Console} {tab next : Tab} {storage : Storage}

-- The answer that a sign-in was given.
def response (i : SignIn) : TokenResponse := ⟨i.token, i.expires_at, i.user.username, i.user.role⟩

def Signed (s : Console) (session : Session) : Prop :=
  ∃ i ∈ s.signed, session = .ofResponse (response i)

-- All that a tab has or is about to be given is of sign-ins.
structure Tab.Signed (s : Console) (tab : Tab) : Prop where
  session : ∀ x ∈ tab.session, Tabs.Signed s x
  stored : ∀ x ∈ tab.stored, Tabs.Signed s x
  submitting : ∀ body, tab.submitting = some (some (.ok body)) → ∃ i ∈ s.signed, body = response i

theorem Tab.Signed.mono (hmore : s.signed ⊆ t.signed) (h : tab.Signed s) : tab.Signed t where
  session := by
    intro x hx
    obtain ⟨i, hi, heq⟩ := h.session x hx
    exact ⟨i, hmore hi, heq⟩
  stored := by
    intro x hx
    obtain ⟨i, hi, heq⟩ := h.stored x hx
    exact ⟨i, hmore hi, heq⟩
  submitting := by
    intro body hbody
    obtain ⟨i, hi, heq⟩ := h.submitting body hbody
    exact ⟨i, hmore hi, heq⟩

theorem Tab.Signed.persist (h : tab.Signed s) {session : Option Session}
    (hsession : ∀ x ∈ session, Tabs.Signed s x) : (persist tab session storage).Signed s where
  session := hsession
  stored := by
    rw [Tabs.persist]
    cases storage.writes with
    | true => exact hsession
    | false => exact h.stored
  submitting := h.submitting

theorem Tab.Signed.getSession (h : tab.Signed s) (now : ℚ) : (getSession tab now storage).1.Signed s := by
  rcases getSession_cases tab now storage with ⟨-, heq⟩ | ⟨-, heq⟩
  · rw [heq]
    exact h
  · rw [heq]
    exact h.persist (by simp)

theorem signed_load {stored : Option Session} (hstored : ∀ x ∈ stored, Tabs.Signed s x) (now : ℚ) :
    (load stored now storage).Signed s := by
  have hfirst : Tabs.getSession ⟨none, stored, none, none, none, ""⟩ now storage =
      (⟨none, stored, none, none, none, ""⟩, none) := rfl
  have hnone : ∀ x ∈ (none : Option Session), Tabs.Signed s x := by simp
  have hquiet : ∀ body, (none : Option (Option (Except Refusal TokenResponse))) = some (some (.ok body)) →
      ∃ i ∈ s.signed, body = response i := by simp
  simp only [load, hfirst, restoreSession]
  split
  · exact ⟨hnone, hstored, hquiet⟩
  · cases stored with
    | none => exact ⟨hnone, hnone, hquiet⟩
    | some parsed =>
        simp only
        split
        · refine ⟨hnone, ?_, hquiet⟩
          cases storage.writes with
          | true => exact hnone
          | false => exact hstored
        · exact ⟨hstored, hstored, hquiet⟩

theorem Tab.Signed.submitted (h : tab.Signed s) {answer : Option (Except Refusal TokenResponse)}
    (hanswer : tab.submitting = some answer) (now : ℚ) (transfer : Transfer) :
    (submitted tab now answer transfer storage).Signed s := by
  have hquiet : ∀ body, (none : Option (Option (Except Refusal TokenResponse))) = some (some (.ok body)) →
      ∃ i ∈ s.signed, body = response i := by simp
  cases hgranted : granted answer transfer with
  | none =>
      obtain ⟨error, heq⟩ := submitted_refused tab now storage hgranted
      rw [heq]
      exact ⟨h.session, h.stored, hquiet⟩
  | some session =>
      have hsession : ∀ x ∈ some session, Tabs.Signed s x := by
        rintro x hx
        cases hx
        rw [granted.eq_def] at hgranted
        split at hgranted
        · cases hgranted
          obtain ⟨i, hi, rfl⟩ := h.submitting _ hanswer
          exact ⟨i, hi, rfl⟩
        · cases hgranted
      have hkept : (Tabs.getSession (Tabs.persist tab (some session) storage) now storage).1.Signed s :=
        (h.persist hsession).getSession now
      rw [submitted_granted hgranted]
      exact ⟨hkept.session, hkept.stored, hquiet⟩

-- A sign-in that is answered with a token is on record.
theorem signed_of_answer {credentials : LoginRequest} {recorded : Bool} {body : TokenResponse}
    (hstep : d.step s (.login credentials recorded) = some t)
    (hanswer : (d.login s.users credentials s.now).answer = .ok body) :
    ∃ i ∈ t.signed, body = response i := by
  cases hfound : get_by_username s.users credentials.username with
  | none =>
      simp only [Deployment.login, hfound] at hanswer
      split at hanswer <;> cases hanswer
  | some user =>
      have hbody : body.username = user.username ∧ body.role = user.role := by
        simp only [Deployment.login, hfound] at hanswer
        split at hanswer
        · cases hanswer
        · split at hanswer
          · cases hanswer
          · split at hanswer
            · cases hanswer
            · split at hanswer
              · cases hanswer
              · cases hanswer
                exact ⟨rfl, rfl⟩
      simp only [Deployment.step, hfound, hanswer, Option.some.injEq] at hstep
      subst hstep
      refine ⟨_, List.mem_append_right _ (List.mem_singleton_self _), ?_⟩
      rw [response, ← hbody.1, ← hbody.2]

theorem Tab.Signed.step {e : PageEvent} (h : tab.Signed s) (hstep : tab.step d s e = some next)
    (hsent : e.sent.elim (some s) (d.step s) = some t) : next.Signed t := by
  have hmore := (sent_step hsent).2
  cases e with
  | config answered =>
      simp only [Tab.step, Option.ite_none_right_eq_some, Option.some.injEq] at hstep
      obtain ⟨-, rfl⟩ := hstep
      exact ⟨(h.mono hmore).session, (h.mono hmore).stored, (h.mono hmore).submitting⟩
  | submit credentials reached recorded =>
      simp only [Tab.step, Option.ite_none_right_eq_some, Option.some.injEq] at hstep
      obtain ⟨-, rfl⟩ := hstep
      refine ⟨(h.mono hmore).session, (h.mono hmore).stored, fun body hbody => ?_⟩
      cases reached with
      | true => exact signed_of_answer hsent (Option.some.inj (Option.some.inj hbody))
      | false => cases hbody
  | settle transfer storage =>
      simp only [Tab.step] at hstep
      split at hstep
      · cases hstep
      · rename_i answer hanswer
        simp only [Option.ite_none_right_eq_some, Option.some.injEq] at hstep
        obtain ⟨-, rfl⟩ := hstep
        exact (h.submitted hanswer s.now transfer).mono hmore
  | request storage =>
      cases hstep
      exact (h.getSession s.now).mono hmore
  | logout storage =>
      cases hstep
      exact (h.persist (by simp)).mono hmore

-- The sign-ins on record are of accounts in use, and of the past.
structure Recorded (d : Deployment) (s : Console) : Prop where
  now : 0 ≤ s.now
  signed : ∀ i ∈ s.signed, i.Sound d ∧ 0 ≤ i.now ∧ i.now ≤ s.now

theorem Recorded.step {r : Request} (h : Recorded d s) (hstep : d.step s r = some t) : Recorded d t := by
  have hold : ∀ now, s.now ≤ now → ∀ i ∈ s.signed, i.Sound d ∧ 0 ≤ i.now ∧ i.now ≤ now := by
    intro now hle i hi
    obtain ⟨hsound, hpos, hsince⟩ := h.signed i hi
    exact ⟨hsound, hpos, hsince.trans hle⟩
  have hlater := (console_step hstep).1
  cases effect_of_step hstep with
  | @signed _ _ i _ _ _ hsound hnow =>
      refine ⟨h.now, fun j hj => ?_⟩
      rcases List.mem_append.mp hj with hj | hj
      · exact hold _ le_rfl j hj
      · rw [List.mem_singleton.mp hj, hnow]
        exact ⟨hsound, h.now, le_rfl⟩
  | tick | edit | minted | dispatched | watching | refused => exact ⟨h.now.trans hlater, hold _ hlater⟩

structure Honest (d : Deployment) (s : Browser Tab) : Prop where
  recorded : Recorded d s.console
  tabs : ∀ tab ∈ s.tabs, tab.Signed s.console

theorem Honest.step {s t : Browser Tab} {e : Event} (h : Honest d s)
    (hstep : browse d (Tab.step d) Tab.opened s e = some t) : Honest d t := by
  have hopened : ∀ source : Option Tab, (∀ tab ∈ source, tab ∈ s.tabs) → ∀ storage : Storage,
      (Tab.opened s.console.now source storage).Signed s.console := by
    intro source hsource storage
    refine signed_load (fun x hx => ?_) _
    obtain ⟨tab, htab, hstored⟩ := Option.bind_eq_some_iff.mp hx
    exact (h.tabs tab (hsource tab htab)).stored x hstored
  have hsource : ∀ {k : Nat} {tab : Tab}, s.tabs[k]? = some tab → ∀ other ∈ some tab, other ∈ s.tabs := by
    rintro k tab htab other hother
    cases hother
    exact List.mem_of_getElem? htab
  cases browse_iff.mp hstep with
  | console hsent =>
      exact ⟨h.recorded.step hsent, fun tab htab => (h.tabs tab htab).mono (console_step hsent).2⟩
  | visit storage =>
      refine ⟨h.recorded, fun other hother => ?_⟩
      rcases List.mem_append.mp hother with hother | hother
      · exact h.tabs other hother
      · rw [List.mem_singleton.mp hother]
        exact hopened none (by simp) storage
  | @duplicate k tab htab storage =>
      refine ⟨h.recorded, fun other hother => ?_⟩
      rcases List.mem_append.mp hother with hother | hother
      · exact h.tabs other hother
      · rw [List.mem_singleton.mp hother]
        exact hopened (some tab) (hsource htab) storage
  | @reload k tab htab storage =>
      refine ⟨h.recorded, fun other hother => ?_⟩
      rcases List.mem_or_eq_of_mem_set hother with hother | rfl
      · exact h.tabs other hother
      · exact hopened (some tab) (hsource htab) storage
  | @page k tab next e console htab hnext hsent =>
      constructor
      · cases hrequest : e.sent with
        | none =>
            rw [hrequest] at hsent
            cases hsent
            exact h.recorded
        | some r =>
            rw [hrequest] at hsent
            exact h.recorded.step hsent
      · intro other hother
        rcases List.mem_or_eq_of_mem_set hother with hother | rfl
        · exact (h.tabs other hother).mono (sent_step hsent).2
        · exact (h.tabs tab (List.mem_of_getElem? htab)).step hnext hsent

-- Whatever the storages and the network do to it, a header that a tab sends is of a sign-in of
-- the run, and the deployment takes it for who the tab says is signed in, unless the role of
-- the account is none that it knows.
theorem headers_honoured (hideal : d.jwt.Ideal) {now : ℚ} (hnow : 0 ≤ now) {users : List User}
    {es : List Event} {t : Browser Tab}
    (hrun : exec (browse d (Tab.step d) Tab.opened) (.start Tab now users) es = some t)
    (htab : tab ∈ t.tabs) {name header : String}
    (hheader : (name, header) ∈ (authHeaders tab t.console.now storage).2) :
    ∃ i ∈ t.console.signed, ∃ session, (getSession tab t.console.now storage).2 = some session ∧
      session = .ofResponse (response i) ∧ name = "Authorization" ∧ header = "Bearer " ++ session.token ∧
      d.principal (some header.toList) t.console.now =
        if session.role ∈ ROLES then .ok ⟨session.username, session.role, true⟩
        else .error (.http_exception 401 "Invalid or expired token") := by
  have hstart : Honest d (.start Tab now users) :=
    ⟨⟨hnow, by simp [Browser.start, Console.start]⟩, by simp [Browser.start]⟩
  have hhonest := exec_invariant (fun _ _ _ h hstep => h.step hstep) hstart hrun
  have hsession := getSession_snd tab t.console.now storage
  cases hcurrent : current t.console.now tab.session with
  | none =>
      rw [hcurrent] at hsession
      simp [authHeaders, hsession] at hheader
  | some session =>
      rw [hcurrent] at hsession
      obtain ⟨hown, hlive⟩ := current_eq_some_iff.mp hcurrent
      obtain ⟨i, hi, rfl⟩ := (hhonest.tabs tab htab).session session hown
      simp only [authHeaders, hsession, List.mem_singleton, Prod.mk.injEq] at hheader
      obtain ⟨rfl, rfl⟩ := hheader
      refine ⟨i, hi, _, hsession, rfl, rfl, rfl, ?_⟩
      obtain ⟨hsound, hpos, hsince⟩ := hhonest.recorded.signed i hi
      have hunexpired : i.expires_at ≠ 0 ∧ t.console.now < i.expires_at := by
        simpa [isExpired, Session.ofResponse, response] using hlive
      have hbearer : ("Bearer " ++ (Session.ofResponse (response i)).token).toList =
          "Bearer ".toList ++ i.token := by
        simp [Session.ofResponse, response]
      rw [hbearer, hsound.principal_header hideal hpos hsince]
      by_cases hrole : i.user.role ∈ ROLES
      · rw [if_pos ⟨hunexpired.2, hrole⟩]
        exact (if_pos hrole).symm
      · rw [if_neg fun h => hrole h.2]
        exact (if_neg hrole).symm

end Honoured

section Example

def healthy : Storage := ⟨true, true⟩

-- A tab signs in, and is reloaded.
def signInAndReload : List Event :=
  [.visit healthy, .page 0 (.config true), .page 0 (.submit shortRequest true false),
    .page 0 (.settle .intact healthy), .reload 0 healthy, .page 0 (.config true)]

def signedConsole : Console := { firstStart with signed := [firstSignIn] }

def firstSession : Session := .ofResponse (response firstSignIn)

def visited : Tab := ⟨none, none, none, none, none, ""⟩

def asked : Tab := { visited with loginRequired := some true }

def answered : Tab := { asked with submitting := some (some (.ok (response firstSignIn))) }

def entered : Tab := { asked with
  session := some firstSession, stored := some firstSession, signedIn := some firstSession }

-- It has its session again, and asks for a sign-in all the same.
def reloaded : Tab := { asked with session := some firstSession, stored := some firstSession }

theorem firstSession_live : isExpired 1000 firstSession.toSession = false := by
  have hexpires : firstSession.expiresAt = some 4600 := by
    simp [firstSession, Session.ofResponse, response, firstSignIn]
  simp only [isExpired, hexpires]
  norm_num

theorem page_step {s t : Console} {tab next : Tab} {e : PageEvent}
    (hstep : tab.step plainDeployment s e = some next)
    (hsent : e.sent.elim (some s) (plainDeployment.step s) = some t) :
    browse plainDeployment (Tab.step plainDeployment) Tab.opened ⟨s, [tab]⟩ (.page 0 e) = some ⟨t, [next]⟩ :=
  browse_iff.mpr (.page rfl hstep hsent)

theorem config_step (tab : Tab) (s : Console) (hchecking : tab.loginRequired = none) :
    tab.step plainDeployment s (.config true) = some { tab with loginRequired := some true } := by
  have hmode : plainDeployment.settings.auth_required = true := by decide
  simp only [Tab.step, hchecking, hmode, if_true, Bool.and_true]

theorem submit_step :
    asked.step plainDeployment firstStart (.submit shortRequest true false) = some answered := by
  have hanswer : answerTo plainDeployment firstStart shortRequest true =
      some (.ok (response firstSignIn)) := congrArg some first_login
  have hidle : asked.screen = .login ∧ asked.submitting.isNone := ⟨rfl, rfl⟩
  simp only [Tab.step, hanswer, if_pos hidle]
  rfl

theorem settle_step :
    answered.step plainDeployment signedConsole (.settle .intact healthy) = some entered := by
  have hkept : getSession (persist answered (some firstSession) healthy) 1000 healthy =
      (persist answered (some firstSession) healthy, some firstSession) := by
    simp only [getSession, persist, Option.any_some, firstSession_live, Bool.false_eq_true, if_false]
  have hcurrent : current 1000 (some firstSession) = some firstSession := by
    rw [current_eq_some_iff]
    exact ⟨rfl, firstSession_live⟩
  have hsubmitted :
      submitted answered 1000 (some (.ok (response firstSignIn))) .intact healthy = entered := by
    rw [submitted_granted rfl, ← firstSession, hkept, hcurrent]
    rfl
  exact congrArg some hsubmitted

theorem reload_step : browse plainDeployment (Tab.step plainDeployment) Tab.opened ⟨signedConsole, [entered]⟩
    (.reload 0 healthy) = some ⟨signedConsole, [{ reloaded with loginRequired := none }]⟩ := by
  have hload : load (some firstSession) 1000 healthy = { reloaded with loginRequired := none } := by
    change restoreSession { visited with stored := some firstSession } 1000 healthy = _
    simp only [restoreSession, firstSession_live, Bool.false_eq_true, if_false]
    rfl
  change some (⟨signedConsole, [load (some firstSession) 1000 healthy]⟩ : Browser Tab) = _
  rw [hload]

theorem signInAndReload_run : exec (browse plainDeployment (Tab.step plainDeployment) Tab.opened)
    (.start Tab 1000 [operatorUser]) signInAndReload = some ⟨signedConsole, [reloaded]⟩ := by
  have hvisit : browse plainDeployment (Tab.step plainDeployment) Tab.opened (.start Tab 1000 [operatorUser])
      (.visit healthy) = some ⟨firstStart, [visited]⟩ := rfl
  refine (exec_cons_iff _ _ _ _).mpr ⟨_, hvisit, ?_⟩
  refine (exec_cons_iff _ _ _ _).mpr ⟨_, page_step (config_step visited firstStart rfl) rfl, ?_⟩
  refine (exec_cons_iff _ _ _ _).mpr ⟨_, page_step submit_step login_step, ?_⟩
  refine (exec_cons_iff _ _ _ _).mpr ⟨_, page_step settle_step rfl, ?_⟩
  refine (exec_cons_iff _ _ _ _).mpr ⟨_, reload_step, ?_⟩
  exact (exec_cons_iff _ _ _ _).mpr ⟨_, page_step (config_step _ signedConsole rfl) rfl, rfl⟩

theorem sessions_kept_reloaded : reloaded.screen = .login ∧
    ∃ u, exec (browse plainDeployment (Seat.step plainDeployment) Seat.opened)
        (.start Seat 1000 [operatorUser]) signInAndReload = some u ∧
      u.console = signedConsole ∧
      List.Forall₂ (fun tab seat =>
        (∀ storage, (getSession tab 1000 storage).2 = current 1000 seat.member) ∧
        tab.screen = seat.screen) [reloaded] u.tabs := by
  have hhealthy : ∀ e ∈ signInAndReload, e.Healthy := by
    intro e he
    simp only [signInAndReload, List.mem_cons, List.not_mem_nil, or_false] at he
    rcases he with rfl | rfl | rfl | rfl | rfl | rfl <;> trivial
  exact ⟨rfl, sessions_kept hhealthy signInAndReload_run⟩

theorem headers_honoured_reloaded :
    ∃ i ∈ signedConsole.signed, ∃ session, (getSession reloaded 1000 healthy).2 = some session ∧
      session = .ofResponse (response i) ∧ "Authorization" = "Authorization" ∧
      "Bearer " ++ firstSession.token = "Bearer " ++ session.token ∧
      plainDeployment.principal (some ("Bearer " ++ firstSession.token).toList) 1000 =
        if session.role ∈ ROLES then .ok ⟨session.username, session.role, true⟩
        else .error (.http_exception 401 "Invalid or expired token") := by
  have hheader : ("Authorization", "Bearer " ++ firstSession.token) ∈
      (authHeaders reloaded 1000 healthy).2 := by
    have hkept : getSession reloaded 1000 healthy = (reloaded, some firstSession) := by
      simp only [getSession, reloaded, Option.any_some, firstSession_live, Bool.false_eq_true, if_false]
    simp [authHeaders, hkept]
  exact headers_honoured plainJwt_ideal (by norm_num) signInAndReload_run (List.mem_singleton_self _) hheader

end Example

end FleetOps.Dashboard.Tabs
