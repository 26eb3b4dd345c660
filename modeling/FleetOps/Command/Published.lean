import FleetOps.Command.Invariant

namespace FleetOps.Command

open RowStore

-- The messages a request has put on a stream, oldest first.
def System.sent (s : System) (r : RequestId) : List Message :=
  (s.published.filter fun p => decide (p.1 = r)).map Prod.snd

def Request.publishing : Request → Bool
  | .create _ _ (.broadcast _ _) => true
  | .claim _ (.broadcast _ _ _) => true
  | .update _ _ (.broadcast _ _) => true
  | .scan (.broadcast _ (_ :: _)) => true
  | _ => false

-- A step at which no publish fails: neither swallowed by `manager.broadcast`
-- nor cut short by the end of its request.
def delivers (s : System) : Action → Bool
  | .start _ _ _ => true
  | .advance _ _ (.publish delivered) => delivered
  | .advance _ _ _ => true
  | .fail r => !(s.requests r).any Request.publishing

abbrev AllDelivered (actions : List Action) : Prop :=
  Runs.Along System.step (fun s action => delivers s action = true) System.init actions

def createdMessage (payload : CommandDict) : Message :=
  dictMessage "COMMAND_CREATED" payload payload.created_at

-- What a request has published, as long as nothing it publishes fails.
def Sends : Request → List RowWrite → List Message → Prop
  | .create _ _ (.returned payload), done, sent =>
      (done = [] ∧ sent = []) ∨ ∃ w, done = [w] ∧ sent = [createdMessage payload]
  | .create _ _ (.commit _), _, sent => sent = []
  | .create _ _ (.broadcast _ _), _, sent => sent = []
  | .create _ _ _, done, sent => done = [] ∧ sent = []
  | .update _ _ (.returned payload), done, sent =>
      (done = [] ∧ sent = []) ∨
        ∃ w now, done = [w] ∧ sent = [dictMessage "COMMAND_UPDATE" payload now]
  | .update _ _ _, _, sent => sent = []
  | .claim _ _, _, sent => ∀ m ∈ sent, m.type = "COMMAND_UPDATE"
  | .scan _, _, sent => ∀ m ∈ sent, m.type = "COMMAND_UPDATE"

structure Announced (s : System) : Prop where
  idle : ∀ r, s.requests r = none → s.sent r = []
  active : ∀ r request, s.requests r = some request → Sends request (s.db.done r) (s.sent r)

theorem sent_eq (db : Table) (requests : RequestId → Option Request)
    (before : List (RequestId × Message)) (r r' : RequestId) (out : List Message) :
    (System.mk db requests (before ++ out.map fun message => (r, message))).sent r' =
      (System.mk db requests before).sent r' ++ if r = r' then out else [] := by
  simp only [System.sent, List.filter_append, List.map_append, List.append_cancel_left_eq]
  by_cases hr : r = r'
  · simp [hr, List.filter_map, Function.comp_def]
  · simp [hr, List.filter_map, Function.comp_def]

theorem create_sends {robot_id : Int} {command : CommandCreate} {db db' : Table} {r : RequestId}
    {state state' : CreateState} {sent out : List Message}
    (hlocal : Local db r (.create robot_id command state))
    (hsends : Sends (.create robot_id command state) (db.done r) sent)
    (hstep : CreateStep robot_id command db r state db' state' out)
    (hdelivered : ∀ payload now, state = .broadcast payload now → out ≠ []) :
    Sends (.create robot_id command state') (db'.done r) (sent ++ out) := by
  have hledger := hlocal.ledger
  cases hstep with
  | violation cmd new row hnew hrow hcollides => simpa [Sends] using hsends
  | insert cmd new hnew hrows hdirty => simpa [Sends] using hsends.2
  | commit cmd => simpa [Sends] using hsends
  | rollback => simpa [Sends] using hsends
  | recovered id row hrow hrobot hkey =>
      obtain ⟨hdone, hsent⟩ := hsends
      exact Or.inl ⟨hdone, by simp [hsent]⟩
  | unrecovered hnone => simpa [Sends] using hsends
  | broadcast payload now delivered =>
      obtain ⟨_, w, hdone, _, hnow⟩ := hledger
      cases delivered with
      | false => exact absurd rfl (hdelivered payload now rfl)
      | true =>
          have hsent : sent = [] := hsends
          exact Or.inr ⟨w, hdone, by simp [hsent, createdMessage, hnow]⟩

theorem update_sends {command_id : CommandId} {update_data : CommandStatusUpdate} {db db' : Table}
    {r : RequestId} {state state' : UpdateState} {sent out : List Message}
    (hlocal : Local db r (.update command_id update_data state))
    (hsends : Sends (.update command_id update_data state) (db.done r) sent)
    (hstep : UpdateStep command_id update_data db r state db' state' out)
    (hdelivered : ∀ payload now, state = .broadcast payload now → out ≠ []) :
    Sends (.update command_id update_data state') (db'.done r) (sent ++ out) := by
  have hledger := hlocal.ledger
  cases hstep with
  | missing hnone => simpa [Sends] using hsends
  | select record hrow => simpa [Sends] using hsends
  | check record now =>
      have hsent : sent = [] := hsends
      unfold checkTransition
      split_ifs
      · exact Or.inl ⟨hledger.2, by simp [hsent]⟩
      · simp [Sends, hsent]
      · split <;> simp [Sends, hsent]
  | matched current new now row values hrow hcurrent hfree hvalues => simpa [Sends] using hsends
  | missed current new now hmiss => simpa [Sends] using hsends
  | commit new now matched => simpa [Sends] using hsends
  | vanished new now matched hnone => simpa [Sends] using hsends
  | reread new now matched current hrow =>
      have hsent : sent = [] := hsends
      cases matched with
      | false =>
          simp only [afterReread, Bool.false_eq_true, if_false]
          split_ifs
          · exact Or.inl ⟨hledger.2, by simp [hsent]⟩
          · simp [Sends, hsent]
      | true => simp [Sends, afterReread, hsent]
  | broadcast payload now delivered =>
      obtain ⟨_, w, hdone⟩ := hledger
      have hsent : sent = [] := hsends
      cases delivered with
      | false => exact absurd rfl (hdelivered payload now rfl)
      | true => exact Or.inr ⟨w, now, hdone, by simp [hsent]⟩

theorem claim_sends {robot_id : Int} {db db' : Table} {r : RequestId} {state state' : ClaimState}
    {sent out : List Message} (hsends : ∀ m ∈ sent, m.type = "COMMAND_UPDATE")
    (hstep : ClaimStep robot_id db r state db' state' out) :
    ∀ m ∈ sent ++ out, m.type = "COMMAND_UPDATE" := by
  have hout : ∀ m ∈ out, m.type = "COMMAND_UPDATE" := by
    cases hstep with
    | broadcast claimed record now delivered => cases delivered <;> simp [dispatchMessage]
    | _ => simp
  intro m hm
  exact (List.mem_append.mp hm).elim (hsends m) (hout m)

theorem scan_sends {db db' : Table} {r : RequestId} {clock : Instant} {state state' : ScanState}
    {sent out : List Message} (hsends : ∀ m ∈ sent, m.type = "COMMAND_UPDATE")
    (hstep : ScanStep db r clock state db' state' out) :
    ∀ m ∈ sent ++ out, m.type = "COMMAND_UPDATE" := by
  have hout : ∀ m ∈ out, m.type = "COMMAND_UPDATE" := by
    cases hstep with
    | broadcast now cmd rest delivered => cases delivered <;> simp [timeoutMessage]
    | _ => simp
  intro m hm
  exact (List.mem_append.mp hm).elim (hsends m) (hout m)

-- A call cut short before its publish has published nothing, and a create
-- that is cut short has committed nothing.
theorem abort_sends {db : Table} {r : RequestId} {request : Request} {sent : List Message}
    (hlocal : Local db r request) (hsends : Sends request (db.done r) sent)
    (hopen : request.finished = false) (hquiet : request.publishing = false) :
    Sends request.abort (db.done r) sent := by
  have hledger := hlocal.ledger
  cases request with
  | create robot_id command state =>
      cases state with
      | commit cmd => exact ⟨hledger.1, hsends⟩
      | broadcast payload now => cases hquiet
      | returned payload => cases hopen
      | _ => exact hsends
  | claim robot_id state => exact hsends
  | update command_id update_data state =>
      cases state with
      | broadcast payload now => cases hquiet
      | returned payload => cases hopen
      | _ => exact hsends
  | scan state => exact hsends

theorem published_of_advance {s t : System} {r : RequestId} {now : Instant} {choice : Choice}
    {request : Request} (h : s.step (.advance r now choice) = some t)
    (hrequest : s.requests r = some request) (hpublishing : request.publishing = true)
    (hchoice : choice ≠ .publish false) : t.published ≠ s.published := by
  have hone : ∀ {message : Message} {out : List Message}, published message choice = some out →
      out = [message] := by
    intro message out hout
    obtain ⟨delivered, rfl, rfl⟩ := published_eq hout
    cases delivered with
    | false => exact absurd rfl hchoice
    | true => rfl
  simp only [System.step, hrequest, Option.bind_some, Option.map_eq_some_iff] at h
  obtain ⟨⟨db, request', out⟩, hnext, rfl⟩ := h
  suffices hout : out ≠ [] by simpa using hout
  cases request with
  | create robot_id command state =>
      cases state with
      | broadcast payload now =>
          simp only [Request.next, create_command, Option.map_eq_some_iff] at hnext
          obtain ⟨_, ⟨out', hout', rfl⟩, hnext⟩ := hnext
          cases hnext
          simp [hone hout']
      | _ => cases hpublishing
  | claim robot_id state =>
      cases state with
      | broadcast claimed record now =>
          simp only [Request.next, claim_pending_commands, Option.map_eq_some_iff] at hnext
          obtain ⟨_, ⟨out', hout', rfl⟩, hnext⟩ := hnext
          cases hnext
          simp [hone hout']
      | _ => cases hpublishing
  | update command_id update_data state =>
      cases state with
      | broadcast payload now =>
          simp only [Request.next, update_status, Option.map_eq_some_iff] at hnext
          obtain ⟨_, ⟨out', hout', rfl⟩, hnext⟩ := hnext
          cases hnext
          simp [hone hout']
      | _ => cases hpublishing
  | scan state =>
      cases state with
      | broadcast now timed_out =>
          cases timed_out with
          | nil => cases hpublishing
          | cons cmd rest =>
              simp only [Request.next, scan_for_timeouts, Option.map_eq_some_iff] at hnext
              obtain ⟨_, ⟨out', hout', rfl⟩, hnext⟩ := hnext
              cases hnext
              simp [hone hout']
      | _ => cases hpublishing

theorem begin_sends (now : Instant) (call : Call) : Sends (call.begin now) [] [] := by
  cases call <;> simp [Call.begin, Sends]

-- What the acting request publishes changes nobody else's messages.
theorem Announced.acted {s : System} (hannounced : Announced s) {db' : Table} {r : RequestId}
    {request : Request} {out : List Message} (heffect : Effect Advance s.db r db')
    (hsends : Sends request (db'.done r) (s.sent r ++ out)) :
    Announced ⟨db', Function.update s.requests r (some request),
      s.published ++ out.map fun message => (r, message)⟩ where
  idle := by
    intro r' hidle
    have hne : r ≠ r' := by
      rintro rfl
      simp at hidle
    simp only [Function.update_of_ne hne.symm] at hidle
    rw [sent_eq, if_neg hne, List.append_nil]
    exact hannounced.idle r' hidle
  active := by
    simp only [sent_eq]
    refine Runs.forall_update (by rwa [if_pos rfl]) fun r' request' hr hrequest => ?_
    rw [if_neg (Ne.symm hr), List.append_nil, heffect.done_of_ne hr]
    exact hannounced.active r' request' hrequest

theorem Announced.step {s t : System} {action : Action} (hinv : Inv s) (hannounced : Announced s)
    (hdelivered : delivers s action = true) (h : s.step action = some t) : Announced t := by
  have hout : ∀ {r now choice request db requests} {out : List Message},
      action = .advance r now choice → s.requests r = some request → request.publishing = true →
      t = ⟨db, requests, s.published ++ out.map fun message => (r, message)⟩ → out ≠ [] := by
    rintro r now choice request db requests out rfl hrequest hpublishing rfl rfl
    refine published_of_advance h hrequest hpublishing ?_ (by simp)
    rintro rfl
    cases hdelivered
  cases system_step h with
  | start r now call hidle =>
      obtain ⟨_, hdone⟩ := hinv.idle r hidle
      have hsends := begin_sends now call
      rw [← hdone, ← hannounced.idle r hidle, ← List.append_nil (s.sent r)] at hsends
      simpa using hannounced.acted .same hsends
  | create r now choice robot_id command state state' db' out hrequest hstep =>
      obtain ⟨heffect, _⟩ := create_local hinv.sound (hinv.active r _ hrequest) hstep
      refine hannounced.acted heffect (create_sends (hinv.active r _ hrequest)
        (hannounced.active r _ hrequest) hstep fun payload now' hstate => ?_)
      exact hout rfl hrequest (by rw [hstate]; rfl) rfl
  | claim r now choice robot_id state state' db' out hrequest hstep =>
      obtain ⟨heffect, _⟩ := claim_local hinv.sound (hinv.active r _ hrequest) hstep
      exact hannounced.acted heffect (claim_sends (hannounced.active r _ hrequest) hstep)
  | update r now choice command_id update_data state state' db' out hrequest hstep =>
      obtain ⟨heffect, _⟩ := update_local hinv.sound (hinv.active r _ hrequest) hstep
      refine hannounced.acted heffect (update_sends (hinv.active r _ hrequest)
        (hannounced.active r _ hrequest) hstep fun payload now' hstate => ?_)
      exact hout rfl hrequest (by rw [hstate]; rfl) rfl
  | scan r now choice state state' db' out hrequest hstep =>
      obtain ⟨heffect, _⟩ := scan_local hinv.sound (hinv.active r _ hrequest) hstep
      exact hannounced.acted heffect (scan_sends (hannounced.active r _ hrequest) hstep)
  | fail r request hrequest hopen =>
      have hquiet : request.publishing = false := by simpa [delivers, hrequest] using hdelivered
      have hsends := abort_sends (hinv.active r _ hrequest) (hannounced.active r _ hrequest) hopen
        hquiet
      rw [← List.append_nil (s.sent r)] at hsends
      simpa using hannounced.acted .rollback hsends

theorem announced_init : Announced System.init where
  idle := fun _ _ => rfl
  active := by simp [System.init]

theorem announced_run {actions : List Action} {s : System} (hs : Reaches System.init actions s)
    (hdelivered : AllDelivered actions) : Announced s := by
  have h : Inv s ∧ Announced s := Runs.exec_along_invariant (I := fun u => Inv u ∧ Announced u)
    (fun u action v hc hu hstep => ⟨hu.1.step hstep, hu.2.step hu.1 hc hstep⟩) hdelivered
    ⟨inv_init, announced_init⟩ hs
  exact h.2

end FleetOps.Command
