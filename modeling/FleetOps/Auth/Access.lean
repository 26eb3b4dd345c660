import FleetOps.Auth.Tickets

namespace FleetOps.Auth

open Decimal

-- What leaves a dependency: an `HTTPException`, or an exception no one catches.
inductive Raised where
  | http_exception (status_code : Nat) (detail : String)
  | uncaught (e : TicketError)

inductive Handshake where
  -- `manager.connect(websocket)`
  | connect
  | close (code : Nat) (reason : String)

section Model

variable (sign : List Char → List Char) (decimal : Char → Option Nat) (telemetry_api_key : List Char)

def is_valid_api_key (candidate : Option (List Char)) : Except TicketError Bool :=
  match candidate with
  | none | some [] => .ok false
  | some candidate => compare_digest candidate telemetry_api_key

def verify_api_key (x_api_key : Option (List Char)) : Except Raised Unit := do
  if !(← (is_valid_api_key telemetry_api_key x_api_key).mapError .uncaught) then
    throw (.http_exception 401 "Invalid API Key")

def verify_console_access (x_api_key x_console_ticket : Option (List Char)) (now : ℚ) :
    Except Raised Unit := do
  if ← (is_valid_api_key telemetry_api_key x_api_key).mapError .uncaught then
    return
  if ← (verify_ticket sign decimal x_console_ticket SCOPE_CONSOLE now).mapError .uncaught then
    return
  throw (.http_exception 401 "Invalid API key or console ticket")

-- Up to the handshake's answer; `or` does not look at the key once the ticket holds.
def websocket_endpoint (api_key ticket : Option (List Char)) (now : ℚ) :
    Except TicketError Handshake := do
  let admitted ←
    if ← verify_ticket sign decimal ticket SCOPE_CONSOLE now then pure true
    else is_valid_api_key telemetry_api_key api_key
  if !admitted then return .close 4001 "Invalid or missing credentials"
  return .connect

end Model

-- A dependency's answer: it accepts, or it refuses with 401.
def AcceptsOr401 (answer : Except Raised Unit) : Prop :=
  answer = .ok () ∨ ∃ detail, answer = .error (.http_exception 401 detail)

def AcceptsOr4001 (answer : Except TicketError Handshake) : Prop :=
  answer = .ok .connect ∨ ∃ reason, answer = .ok (.close 4001 reason)

def KeyAscii (candidate : Option (List Char)) : Prop :=
  ∀ key, candidate = some key → isascii key = true

-- The fields that reach `compare_digest`: the signature of a ticket of this version, and the
-- scope under a signature that is right.
def TicketAscii (sign : List Char → List Char) (scope : List Char) (ticket : Option (List Char)) :
    Prop :=
  ∀ t ticket_scope expires_raw nonce signature, ticket = some t →
    t.splitOn FIELD_SEP = [VERSION, ticket_scope, expires_raw, nonce, signature] →
      isascii signature = true ∧
      (signature = sign (join [VERSION, ticket_scope, expires_raw, nonce]) →
        isascii ticket_scope = true ∧ isascii scope = true)

-- Signed, for this scope, and not over.
def Holds (sign : List Char → List Char) (decimal : Char → Option Nat) (scope : List Char) (now : ℚ)
    (ticket : Option (List Char)) : Prop :=
  ∃ t ticket_scope expires_raw nonce expires_at, ticket = some t ∧
    t.splitOn FIELD_SEP = [VERSION, ticket_scope, expires_raw, nonce,
      sign (join [VERSION, ticket_scope, expires_raw, nonce])] ∧
    ticket_scope = scope ∧ int decimal expires_raw = some expires_at ∧ now < expires_at

section Answers

variable {sign : List Char → List Char} {decimal : Char → Option Nat} {telemetry_api_key : List Char}

theorem compare_digest_isOk {a b : List Char} :
    (compare_digest a b).isOk = true ↔ isascii a = true ∧ isascii b = true := by
  rw [compare_digest, ← Bool.and_eq_true]
  split
  · rename_i hascii
    simp [hascii, Except.isOk, Except.toBool]
  · rename_i hascii
    simp [hascii, Except.isOk, Except.toBool]

theorem compare_digest_of_ascii {a b : List Char} (ha : isascii a = true) (hb : isascii b = true) :
    compare_digest a b = .ok (a == b) := by
  simp [compare_digest, ha, hb]

theorem compare_digest_of_not_ascii {a : List Char} (b : List Char) (ha : isascii a = false) :
    compare_digest a b = .error .type_error := by
  simp [compare_digest, ha]

theorem is_valid_api_key_isOk (hkey : isascii telemetry_api_key = true)
    (candidate : Option (List Char)) :
    (is_valid_api_key telemetry_api_key candidate).isOk = true ↔ KeyAscii candidate := by
  cases candidate with
  | none => simp [is_valid_api_key, KeyAscii, Except.isOk, Except.toBool]
  | some key =>
      cases key with
      | nil => simp [is_valid_api_key, KeyAscii, isascii, Except.isOk, Except.toBool]
      | cons c key =>
          simp only [is_valid_api_key, compare_digest_isOk, hkey, and_true, KeyAscii]
          exact ⟨fun h _ heq => Option.some.inj heq ▸ h, fun h => h _ rfl⟩

theorem verify_ticket_of_fields {t ticket_scope expires_raw nonce signature : List Char}
    (hfields : t.splitOn FIELD_SEP = [VERSION, ticket_scope, expires_raw, nonce, signature])
    (scope : List Char) (now : ℚ) :
    verify_ticket sign decimal (some t) scope now =
      compare_digest signature (sign (join [VERSION, ticket_scope, expires_raw, nonce])) >>= fun signed =>
        if signed then compare_digest ticket_scope scope >>= fun same =>
          .ok (same && (int decimal expires_raw).any fun expires_at => decide (now < expires_at))
        else .ok false := by
  cases t with
  | nil => simp at hfields
  | cons c t =>
      simp only [verify_ticket, hfields, ne_eq, not_true, ite_false]
      cases compare_digest signature (sign (join [VERSION, ticket_scope, expires_raw, nonce])) with
      | error e => rfl
      | ok signed =>
          cases signed with
          | false => rfl
          | true =>
              cases compare_digest ticket_scope scope with
              | error e => rfl
              | ok same =>
                  cases same with
                  | false => rfl
                  | true => cases int decimal expires_raw <;> rfl

-- Whatever else is wrong with a ticket is answered with `False`.
theorem verify_ticket_of_not_fields {ticket : Option (List Char)} (scope : List Char) (now : ℚ)
    (hfields : ∀ t ticket_scope expires_raw nonce signature, ticket = some t →
      t.splitOn FIELD_SEP ≠ [VERSION, ticket_scope, expires_raw, nonce, signature]) :
    verify_ticket sign decimal ticket scope now = .ok false := by
  cases ticket with
  | none => rfl
  | some t =>
      cases t with
      | nil => rfl
      | cons c t =>
          simp only [verify_ticket]
          split
          · rename_i version ticket_scope expires_raw nonce signature heq
            rw [if_pos]
            rintro rfl
            exact hfields _ _ _ _ _ rfl heq
          · rfl

theorem verify_ticket_isOk (hsign : ∀ payload, Hex (sign payload)) (ticket : Option (List Char))
    (scope : List Char) (now : ℚ) :
    (verify_ticket sign decimal ticket scope now).isOk = true ↔ TicketAscii sign scope ticket := by
  by_cases hfields : ∀ t ticket_scope expires_raw nonce signature, ticket = some t →
      t.splitOn FIELD_SEP ≠ [VERSION, ticket_scope, expires_raw, nonce, signature]
  · rw [verify_ticket_of_not_fields scope now hfields]
    exact ⟨fun _ _ _ _ _ _ ht heq => absurd heq (hfields _ _ _ _ _ ht), fun _ => rfl⟩
  · push Not at hfields
    obtain ⟨t, ticket_scope, expires_raw, nonce, signature, rfl, heq⟩ := hfields
    have hascii : TicketAscii sign scope (some t) ↔ isascii signature = true ∧
        (signature = sign (join [VERSION, ticket_scope, expires_raw, nonce]) →
          isascii ticket_scope = true ∧ isascii scope = true) := by
      constructor
      · intro h
        exact h _ _ _ _ _ rfl heq
      · intro h t' ticket_scope' expires_raw' nonce' signature' ht heq'
        obtain rfl := Option.some.inj ht
        rw [heq] at heq'
        simp only [List.cons.injEq, and_true, true_and] at heq'
        obtain ⟨rfl, rfl, rfl, rfl⟩ := heq'
        exact h
    rw [hascii, verify_ticket_of_fields heq scope now]
    by_cases hsignature : isascii signature = true
    · rw [compare_digest_of_ascii hsignature (hsign _).isascii]
      by_cases hsigned : signature = sign (join [VERSION, ticket_scope, expires_raw, nonce])
      · subst hsigned
        simp only [hsignature, true_and, forall_const, ← compare_digest_isOk]
        cases compare_digest ticket_scope scope with
        | error e => simp [Except.isOk, Except.toBool, bind, Except.bind]
        | ok same => simp [Except.isOk, Except.toBool, bind, Except.bind]
      · simp [hsigned, hsignature, Except.isOk, Except.toBool, bind, Except.bind]
    · rw [Bool.not_eq_true] at hsignature
      rw [compare_digest_of_not_ascii _ hsignature]
      simp [hsignature, Except.isOk, Except.toBool, bind, Except.bind]

theorem is_valid_api_key_eq_true (hkey : isascii telemetry_api_key = true)
    (candidate : Option (List Char)) : is_valid_api_key telemetry_api_key candidate = .ok true ↔
      candidate = some telemetry_api_key ∧ telemetry_api_key ≠ [] := by
  cases candidate with
  | none => simp [is_valid_api_key]
  | some key =>
      cases key with
      | nil =>
          simp only [is_valid_api_key, Except.ok.injEq, Bool.false_eq_true, Option.some.injEq, false_iff]
          exact fun h => h.2 h.1.symm
      | cons c key =>
          simp only [is_valid_api_key, compare_digest_eq_true, Option.some.injEq]
          constructor
          · rintro ⟨rfl, -⟩
            exact ⟨rfl, List.cons_ne_nil c key⟩
          · rintro ⟨rfl, -⟩
            exact ⟨rfl, hkey⟩

theorem verify_ticket_holds (hsign : ∀ payload, Hex (sign payload)) {scope : List Char}
    (hscope : isascii scope = true) (ticket : Option (List Char)) (now : ℚ) :
    verify_ticket sign decimal ticket scope now = .ok true ↔ Holds sign decimal scope now ticket := by
  cases ticket with
  | none => simp [verify_ticket, Holds]
  | some t =>
      rw [verify_ticket_eq_true]
      constructor
      · rintro ⟨ticket_scope, expires_raw, nonce, signature, expires_at, heq, hsigned, hsame, hint, hnow⟩
        obtain ⟨rfl, -⟩ := compare_digest_eq_true.mp hsigned
        exact ⟨t, ticket_scope, expires_raw, nonce, expires_at, rfl, heq,
          (compare_digest_eq_true.mp hsame).1, hint, hnow⟩
      · rintro ⟨t', ticket_scope, expires_raw, nonce, expires_at, ht, heq, rfl, hint, hnow⟩
        obtain rfl := Option.some.inj ht
        exact ⟨ticket_scope, expires_raw, nonce, _, expires_at, heq,
          compare_digest_eq_true.mpr ⟨rfl, (hsign _).isascii⟩,
          compare_digest_eq_true.mpr ⟨rfl, hscope⟩, hint, hnow⟩

theorem verify_api_key_answers (hkey : isascii telemetry_api_key = true)
    (x_api_key : Option (List Char)) :
    AcceptsOr401 (verify_api_key telemetry_api_key x_api_key) ↔ KeyAscii x_api_key := by
  rw [← is_valid_api_key_isOk hkey, verify_api_key]
  cases is_valid_api_key telemetry_api_key x_api_key with
  | error e => simp [AcceptsOr401, Except.mapError, Except.isOk, Except.toBool, bind, Except.bind]
  | ok valid =>
      cases valid with
      | false => exact ⟨fun _ => rfl, fun _ => .inr ⟨_, rfl⟩⟩
      | true => exact ⟨fun _ => rfl, fun _ => .inl rfl⟩

theorem verify_console_access_answers (hsign : ∀ payload, Hex (sign payload))
    (hkey : isascii telemetry_api_key = true) (x_api_key x_console_ticket : Option (List Char))
    (now : ℚ) :
    AcceptsOr401 (verify_console_access sign decimal telemetry_api_key x_api_key x_console_ticket now) ↔
      KeyAscii x_api_key ∧ ((x_api_key = some telemetry_api_key ∧ telemetry_api_key ≠ []) ∨
        TicketAscii sign SCOPE_CONSOLE x_console_ticket) := by
  rw [← is_valid_api_key_isOk hkey, ← is_valid_api_key_eq_true hkey,
    ← verify_ticket_isOk hsign x_console_ticket SCOPE_CONSOLE now,
    verify_console_access]
  cases is_valid_api_key telemetry_api_key x_api_key with
  | error e => simp [AcceptsOr401, Except.mapError, Except.isOk, Except.toBool, bind, Except.bind]
  | ok valid =>
      cases valid with
      | true => exact ⟨fun _ => ⟨rfl, .inl rfl⟩, fun _ => .inl rfl⟩
      | false =>
          cases verify_ticket sign decimal x_console_ticket SCOPE_CONSOLE now with
          | error e =>
              simp [AcceptsOr401, Except.mapError, Except.isOk, Except.toBool, bind, Except.bind]
          | ok verified =>
              refine ⟨fun _ => ⟨rfl, .inr rfl⟩, fun _ => ?_⟩
              cases verified with
              | false => exact .inr ⟨_, rfl⟩
              | true => exact .inl rfl

theorem websocket_endpoint_answers (hsign : ∀ payload, Hex (sign payload))
    (hkey : isascii telemetry_api_key = true) (api_key ticket : Option (List Char)) (now : ℚ) :
    AcceptsOr4001 (websocket_endpoint sign decimal telemetry_api_key api_key ticket now) ↔
      TicketAscii sign SCOPE_CONSOLE ticket ∧
        (Holds sign decimal SCOPE_CONSOLE now ticket ∨ KeyAscii api_key) := by
  rw [← is_valid_api_key_isOk hkey, ← verify_ticket_isOk hsign ticket SCOPE_CONSOLE now,
    ← verify_ticket_holds hsign (by decide), websocket_endpoint]
  cases verify_ticket sign decimal ticket SCOPE_CONSOLE now with
  | error e => simp [AcceptsOr4001, Except.isOk, Except.toBool, bind, Except.bind]
  | ok verified =>
      cases verified with
      | true => exact ⟨fun _ => ⟨rfl, .inl rfl⟩, fun _ => .inl rfl⟩
      | false =>
          cases is_valid_api_key telemetry_api_key api_key with
          | error e => simp [AcceptsOr4001, Except.isOk, Except.toBool, bind, Except.bind]
          | ok valid =>
              refine ⟨fun _ => ⟨rfl, .inr rfl⟩, fun _ => ?_⟩
              cases valid with
              | false => exact .inr ⟨_, rfl⟩
              | true => exact .inl rfl

-- Hostile text is answered up to the characters `compare_digest` does not take.
theorem credential_checks_answer_iff (hsign : ∀ payload, Hex (sign payload))
    (hkey : isascii telemetry_api_key = true) (key ticket : Option (List Char)) (scope : List Char)
    (now : ℚ) :
    ((verify_ticket sign decimal ticket scope now).isOk = true ↔ TicketAscii sign scope ticket) ∧
    ((is_valid_api_key telemetry_api_key key).isOk = true ↔ KeyAscii key) ∧
    (AcceptsOr401 (verify_api_key telemetry_api_key key) ↔ KeyAscii key) ∧
    (AcceptsOr401 (verify_console_access sign decimal telemetry_api_key key ticket now) ↔
      KeyAscii key ∧ ((key = some telemetry_api_key ∧ telemetry_api_key ≠ []) ∨
        TicketAscii sign SCOPE_CONSOLE ticket)) ∧
    (AcceptsOr4001 (websocket_endpoint sign decimal telemetry_api_key key ticket now) ↔
      TicketAscii sign SCOPE_CONSOLE ticket ∧
        (Holds sign decimal SCOPE_CONSOLE now ticket ∨ KeyAscii key)) :=
  ⟨verify_ticket_isOk hsign ticket scope now, is_valid_api_key_isOk hkey key,
    verify_api_key_answers hkey key, verify_console_access_answers hsign hkey key ticket now,
    websocket_endpoint_answers hsign hkey key ticket now⟩

theorem credential_checks_answer_plain :
    AcceptsOr401 (verify_console_access (fun _ => List.replicate 64 'a') (fun _ => none) ['k', 'e', 'y']
      (some ['k']) (some ['v', '1']) 0) ∧
    AcceptsOr4001 (websocket_endpoint (fun _ => List.replicate 64 'a') (fun _ => none) ['k', 'e', 'y']
      (some ['k']) (some ['v', '1']) 0) := by
  have hsign : ∀ payload : List Char, Hex ((fun _ => List.replicate 64 'a') payload) := by
    intro payload c hc
    rw [List.eq_of_mem_replicate hc]
    decide
  have hkey : KeyAscii (some ['k']) := fun key h => by
    rw [← Option.some.inj h]
    decide
  have hticket : TicketAscii (fun _ => List.replicate 64 'a') SCOPE_CONSOLE (some ['v', '1']) := by
    intro t ticket_scope expires_raw nonce signature ht hfields
    rw [← Option.some.inj ht, List.splitOn_eq_singleton (by decide)] at hfields
    cases hfields
  have hascii : isascii ['k', 'e', 'y'] = true := by decide
  exact ⟨(credential_checks_answer_iff hsign hascii _ _ SCOPE_CONSOLE 0).2.2.2.1.mpr ⟨hkey, .inr hticket⟩,
    (credential_checks_answer_iff hsign hascii _ _ SCOPE_CONSOLE 0).2.2.2.2.mpr ⟨hticket, .inr hkey⟩⟩

-- A credential with one letter outside ASCII ends in an exception on each of the paths.
theorem credential_checks_raise :
    verify_ticket (fun _ => List.replicate 64 'a') (fun _ => none)
      (some (join [VERSION, SCOPE_CONSOLE, ['1'], ['n'], ['é']])) SCOPE_CONSOLE 0 =
        .error .type_error ∧
    is_valid_api_key ['k', 'e', 'y'] (some ['é']) = .error .type_error ∧
    verify_api_key ['k', 'e', 'y'] (some ['é']) = .error (.uncaught .type_error) ∧
    verify_console_access (fun _ => List.replicate 64 'a') (fun _ => none) ['k', 'e', 'y'] none
      (some (join [VERSION, SCOPE_CONSOLE, ['1'], ['n'], ['é']])) 0 = .error (.uncaught .type_error) ∧
    websocket_endpoint (fun _ => List.replicate 64 'a') (fun _ => none) ['k', 'e', 'y'] (some ['é']) none
      0 = .error .type_error := by
  have hfields : (join [VERSION, SCOPE_CONSOLE, ['1'], ['n'], ['é']]).splitOn FIELD_SEP =
      [VERSION, SCOPE_CONSOLE, ['1'], ['n'], ['é']] := by decide
  have hticket : verify_ticket (fun _ => List.replicate 64 'a') (fun _ => none)
      (some (join [VERSION, SCOPE_CONSOLE, ['1'], ['n'], ['é']])) SCOPE_CONSOLE 0 =
        .error .type_error := by
    rw [verify_ticket_of_fields hfields, compare_digest_of_not_ascii _ (by decide)]
    rfl
  refine ⟨hticket, rfl, rfl, ?_, rfl⟩
  have hkey : is_valid_api_key ['k', 'e', 'y'] none = .ok false := rfl
  rw [verify_console_access, hkey, hticket]
  rfl

end Answers

end FleetOps.Auth
