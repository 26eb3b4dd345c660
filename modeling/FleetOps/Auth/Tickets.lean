import Mathlib.Algebra.Order.Floor.Ring
import Mathlib.Data.Rat.Floor
import Mathlib.Tactic.NormNum
import FleetOps.Library.Decimal

namespace FleetOps.Auth

open Decimal

def SCOPE_CONSOLE : List Char := "console".toList

def VERSION : List Char := ['v', '1']

def FIELD_SEP : Char := '.'

inductive TicketError where
  | value_error
  -- `hmac.compare_digest` on a text outside ASCII
  | type_error

-- `int(now)` of a float, which rounds towards zero.
def truncate (now : ℚ) : Int := if 0 ≤ now then ⌊now⌋ else ⌈now⌉

-- What `secrets.token_urlsafe` returns.
structure Nonce where
  text : List Char
  urlsafe : ∀ c ∈ text, c.isAlphanum = true ∨ c = '-' ∨ c = '_'

-- A call of `issue_ticket`: its arguments, `time.time()` and the nonce it draws.
structure Issue where
  scope : List Char
  ttl_seconds : Option Int
  now : ℚ
  nonce : Nonce

def join (fields : List (List Char)) : List Char := [FIELD_SEP].intercalate fields

section Model

variable (sign : List Char → List Char) (ticket_ttl_seconds : Int)

def Issue.expires_at (call : Issue) : Int :=
  truncate call.now + call.ttl_seconds.getD ticket_ttl_seconds

def Issue.payload (call : Issue) : Except TicketError (List Char) :=
  match str (call.expires_at ticket_ttl_seconds) with
  | some expires_at => .ok (join [VERSION, call.scope, expires_at, call.nonce.text])
  | none => .error .value_error

def issue_ticket (call : Issue) : Except TicketError (List Char × Int) :=
  (call.payload ticket_ttl_seconds).map fun payload =>
    (payload ++ FIELD_SEP :: sign payload, call.expires_at ticket_ttl_seconds)

def isascii (s : List Char) : Bool := s.all fun c => c.toNat < 128

def compare_digest (a b : List Char) : Except TicketError Bool :=
  if isascii a && isascii b then .ok (a == b) else .error .type_error

def verify_ticket (decimal : Char → Option Nat) (ticket : Option (List Char)) (scope : List Char)
    (now : ℚ) : Except TicketError Bool :=
  match ticket with
  | none | some [] => .ok false
  | some ticket =>
      match ticket.splitOn FIELD_SEP with
      | [version, ticket_scope, expires_raw, nonce, signature] =>
          if version ≠ VERSION then .ok false
          else do
            let payload := join [version, ticket_scope, expires_raw, nonce]
            if !(← compare_digest signature (sign payload)) then return false
            if !(← compare_digest ticket_scope scope) then return false
            match int decimal expires_raw with
            | none => return false
            | some expires_at => return decide (now < expires_at)
      | _ => .ok false

end Model

section Fields

theorem dot_not_mem_nonce (nonce : Nonce) : FIELD_SEP ∉ nonce.text := by
  intro h
  rcases nonce.urlsafe _ h with h | h | h <;> revert h <;> decide

theorem join_splitOn (s : List Char) : join (s.splitOn FIELD_SEP) = s :=
  List.intercalate_splitOn FIELD_SEP

theorem join_five (a b c d e : List Char) :
    join [a, b, c, d, e] = join [a, b, c, d] ++ FIELD_SEP :: e := by
  simp [join, List.intercalate_cons_cons]

-- A scope may bring separators of its own: they show in the number of fields.
theorem splitOn_payload (scope : List Char) {expires_at : List Char} (hexpires : FIELD_SEP ∉ expires_at)
    (nonce : Nonce) : (join [VERSION, scope, expires_at, nonce.text]).splitOn FIELD_SEP =
      VERSION :: (scope.splitOn FIELD_SEP ++ [expires_at, nonce.text]) := by
  have hversion : FIELD_SEP ∉ VERSION := by decide
  have hpayload : join [VERSION, scope, expires_at, nonce.text] =
      VERSION ++ FIELD_SEP :: (scope ++ FIELD_SEP :: (expires_at ++ FIELD_SEP :: nonce.text)) := by
    simp [join, List.intercalate_cons_cons]
  rw [hpayload, List.splitOn_append_cons_self_of_not_mem hversion, List.splitOn_append_cons_self,
    List.splitOn_append_cons_self_of_not_mem hexpires,
    List.splitOn_eq_singleton (dot_not_mem_nonce nonce)]

theorem not_mem_of_splitOn_singleton {s field : List Char} (h : s.splitOn FIELD_SEP = [field]) :
    FIELD_SEP ∉ s := by
  intro hdot
  obtain ⟨left, right, rfl⟩ := List.append_of_mem hdot
  have hlength := congrArg List.length h
  have hleft := List.length_pos_iff.mpr (List.splitOn_ne_nil FIELD_SEP left)
  have hright := List.length_pos_iff.mpr (List.splitOn_ne_nil FIELD_SEP right)
  rw [List.splitOn_append_cons_self, List.length_append, List.length_singleton] at hlength
  omega

-- Four fields are read back as they were only where the scope has no separator.
theorem scope_of_splitOn {version scope ticket_scope expires_raw expires_at field : List Char}
    {nonce : Nonce} (hexpires : FIELD_SEP ∉ expires_at)
    (h : (join [VERSION, scope, expires_at, nonce.text]).splitOn FIELD_SEP =
      [version, ticket_scope, expires_raw, field]) :
    ticket_scope = scope ∧ FIELD_SEP ∉ scope ∧ expires_raw = expires_at := by
  rw [splitOn_payload scope hexpires nonce] at h
  have hscope := join_splitOn scope
  cases hparts : scope.splitOn FIELD_SEP with
  | nil => exact absurd hparts (List.splitOn_ne_nil FIELD_SEP scope)
  | cons first others =>
      cases others with
      | cons second others =>
          have hlength := congrArg List.length h
          simp [hparts] at hlength
      | nil =>
          rw [hparts] at h hscope
          have hfirst : first = scope := by simpa [join] using hscope
          simp only [List.singleton_append, List.cons.injEq, and_true] at h
          exact ⟨h.2.1.symm.trans hfirst, not_mem_of_splitOn_singleton hparts, h.2.2.1.symm⟩

end Fields

section Verify

variable {sign : List Char → List Char} {ticket_ttl_seconds : Int} {decimal : Char → Option Nat}

-- What `hexdigest` returns.
def Hex (s : List Char) : Prop := ∀ c ∈ s, c ∈ "0123456789abcdef".toList

theorem Hex.isascii {s : List Char} (h : Hex s) : isascii s = true := by
  have hall : ∀ c ∈ "0123456789abcdef".toList, decide (c.toNat < 128) = true := by simp
  exact List.all_eq_true.mpr fun c hc => hall c (h c hc)

theorem Hex.dot_not_mem {s : List Char} (h : Hex s) : FIELD_SEP ∉ s := by
  have hall : FIELD_SEP ∉ "0123456789abcdef".toList := by decide
  exact fun hdot => hall (h _ hdot)

theorem compare_digest_eq_true {a b : List Char} :
    compare_digest a b = .ok true ↔ a = b ∧ isascii a = true := by
  rw [compare_digest]
  split
  · rename_i hascii
    rw [Bool.and_eq_true] at hascii
    simp [hascii.1]
  · rename_i hascii
    simp only [reduceCtorEq, false_iff, not_and]
    rintro rfl ha
    simp [ha] at hascii

theorem bind_ok {α β : Type} {x : Except TicketError α} {f : α → Except TicketError β} {b : β}
    (h : x >>= f = .ok b) : ∃ a, x = .ok a ∧ f a = .ok b := by
  cases x with
  | ok a => exact ⟨a, rfl, h⟩
  | error e => cases h

theorem verify_ticket_eq_true {t scope : List Char} {now : ℚ} :
    verify_ticket sign decimal (some t) scope now = .ok true ↔
      ∃ ticket_scope expires_raw nonce signature expires_at,
        t.splitOn FIELD_SEP = [VERSION, ticket_scope, expires_raw, nonce, signature] ∧
        compare_digest signature (sign (join [VERSION, ticket_scope, expires_raw, nonce])) = .ok true ∧
        compare_digest ticket_scope scope = .ok true ∧
        int decimal expires_raw = some expires_at ∧ now < expires_at := by
  constructor
  · intro h
    simp only [verify_ticket] at h
    split at h
    · cases h
    · cases h
    · rename_i t heq
      cases heq
      split at h
      · rename_i version ticket_scope expires_raw nonce signature hfields
        split at h
        · cases h
        · rename_i hversion
          rw [not_not] at hversion
          subst hversion
          obtain ⟨signed, hsigned, h⟩ := bind_ok h
          cases signed with
          | false => cases h
          | true =>
              obtain ⟨same, hscoped, h⟩ := bind_ok h
              cases same with
              | false => cases h
              | true =>
                  cases hint : int decimal expires_raw with
                  | none =>
                      rw [hint] at h
                      cases h
                  | some expires_at =>
                      rw [hint] at h
                      have hnow : decide (now < (expires_at : ℚ)) = true := Except.ok.inj h
                      exact ⟨ticket_scope, expires_raw, nonce, signature, expires_at, hfields, hsigned,
                        hscoped, hint, of_decide_eq_true hnow⟩
      · cases h
  · rintro ⟨ticket_scope, expires_raw, nonce, signature, expires_at, hfields, hsigned, hscoped, hint,
      hnow⟩
    have hne : t ≠ [] := by
      rintro rfl
      simp at hfields
    cases t with
    | nil => exact absurd rfl hne
    | cons c t =>
        simp only [verify_ticket, hfields, hsigned, hscoped, hint]
        simp [hnow]
        rfl

theorem payload_eq_ok {call : Issue} {payload : List Char}
    (h : call.payload ticket_ttl_seconds = .ok payload) :
    ∃ written, str (call.expires_at ticket_ttl_seconds) = some written ∧
      join [VERSION, call.scope, written, call.nonce.text] = payload := by
  rw [Issue.payload] at h
  split at h
  · rename_i written hwritten
    exact ⟨written, hwritten, Except.ok.inj h⟩
  · cases h

-- A ticket is let in exactly when it was issued for this scope, the scope has no separator,
-- and its time is not over.
theorem verify_ticket_iff (hsign : ∀ payload, Hex (sign payload)) (calls : List Issue) {t : List Char}
    (hideal : ∀ payload, t = payload ++ FIELD_SEP :: sign payload →
      ∃ call ∈ calls, call.payload ticket_ttl_seconds = .ok payload)
    {scope : List Char} (hscope : isascii scope = true) (now : ℚ) :
    verify_ticket sign decimal (some t) scope now = .ok true ↔
      ∃ call ∈ calls, call.scope = scope ∧ FIELD_SEP ∉ scope ∧
        ∃ expires_at, issue_ticket sign ticket_ttl_seconds call = .ok (t, expires_at) ∧
          now < expires_at := by
  rw [verify_ticket_eq_true]
  constructor
  · rintro ⟨ticket_scope, expires_raw, field, signature, expires_at, hfields, hsigned, hscoped, hint,
      hnow⟩
    obtain ⟨hsignature, -⟩ := compare_digest_eq_true.mp hsigned
    obtain ⟨rfl, -⟩ := compare_digest_eq_true.mp hscoped
    have hticket : t = join [VERSION, ticket_scope, expires_raw, field] ++ FIELD_SEP ::
        sign (join [VERSION, ticket_scope, expires_raw, field]) := by
      rw [← hsignature, ← join_five, ← hfields, join_splitOn]
    obtain ⟨call, hcall, hpayload⟩ := hideal _ hticket
    obtain ⟨written, hwritten, hjoin⟩ := payload_eq_ok hpayload
    -- the four fields that were signed are those that were presented
    have hsplit : (join [VERSION, call.scope, written, call.nonce.text]).splitOn FIELD_SEP =
        [VERSION, ticket_scope, expires_raw, field] := by
      have hall := hfields
      rw [hticket, List.splitOn_append_cons_self, List.splitOn_eq_singleton (hsign _).dot_not_mem,
        ← hsignature] at hall
      rw [hjoin]
      have hlast : _ = [VERSION, ticket_scope, expires_raw, field] ++ [signature] := hall
      exact List.append_cancel_right hlast
    obtain ⟨hscope', hdot, hexpires⟩ := scope_of_splitOn (dot_not_mem_str hwritten) hsplit
    refine ⟨call, hcall, hscope'.symm, hscope' ▸ hdot, expires_at, ?_, hnow⟩
    have hread : call.expires_at ticket_ttl_seconds = expires_at := by
      rw [hexpires, int_str hwritten] at hint
      exact Option.some.inj hint
    rw [issue_ticket, hpayload, hread, hticket]
    rfl
  · rintro ⟨call, -, rfl, hdot, expires_at, hissue, hnow⟩
    obtain ⟨payload, hpayload, hissued⟩ : ∃ payload, call.payload ticket_ttl_seconds = .ok payload ∧
        (payload ++ FIELD_SEP :: sign payload, call.expires_at ticket_ttl_seconds) = (t, expires_at) := by
      rw [issue_ticket] at hissue
      cases hpayload : call.payload ticket_ttl_seconds with
      | ok payload =>
          rw [hpayload] at hissue
          exact ⟨payload, rfl, Except.ok.inj hissue⟩
      | error e =>
          rw [hpayload] at hissue
          cases hissue
    obtain ⟨written, hwritten, rfl⟩ := payload_eq_ok hpayload
    obtain ⟨rfl, rfl⟩ := Prod.mk.inj hissued
    refine ⟨call.scope, written, call.nonce.text, _, call.expires_at ticket_ttl_seconds, ?_,
      compare_digest_eq_true.mpr ⟨rfl, (hsign _).isascii⟩,
      compare_digest_eq_true.mpr ⟨rfl, hscope⟩, int_str hwritten, hnow⟩
    rw [List.splitOn_append_cons_self, splitOn_payload call.scope (dot_not_mem_str hwritten),
      List.splitOn_eq_singleton hdot, List.splitOn_eq_singleton (hsign _).dot_not_mem]
    rfl

def firstIssue : Issue where
  scope := SCOPE_CONSOLE
  ttl_seconds := some 300
  now := 1000
  nonce := { text := ['n'], urlsafe := fun c hc => by rw [List.mem_singleton.mp hc]; decide }

-- With the one signature of this run, the one ticket of this run.
theorem verify_ticket_first :
    verify_ticket (fun _ => List.replicate 64 'a') (fun _ => none)
      (some (join [VERSION, SCOPE_CONSOLE, ['1', '3', '0', '0'], ['n']] ++
        FIELD_SEP :: List.replicate 64 'a')) SCOPE_CONSOLE 1299 = .ok true := by
  have hsign : ∀ payload : List Char, Hex ((fun _ => List.replicate 64 'a') payload) := by
    intro payload c hc
    rw [List.eq_of_mem_replicate hc]
    decide
  have hexpires : firstIssue.expires_at 300 = 1300 := by
    norm_num [Issue.expires_at, firstIssue, truncate]
  have hpayload : firstIssue.payload 300 =
      .ok (join [VERSION, SCOPE_CONSOLE, ['1', '3', '0', '0'], ['n']]) := by
    have hstr : str 1300 = some ['1', '3', '0', '0'] := by decide
    rw [Issue.payload, hexpires, hstr]
    rfl
  have hideal : ∀ payload, join [VERSION, SCOPE_CONSOLE, ['1', '3', '0', '0'], ['n']] ++
      FIELD_SEP :: List.replicate 64 'a' = payload ++ FIELD_SEP :: List.replicate 64 'a' →
      ∃ call ∈ [firstIssue], call.payload 300 = .ok payload := by
    intro payload hticket
    exact ⟨firstIssue, by simp, hpayload.trans (congrArg Except.ok (List.append_cancel_right hticket))⟩
  refine (verify_ticket_iff hsign [firstIssue] hideal (by decide) 1299).mpr
    ⟨firstIssue, by simp, rfl, by decide, 1300, ?_, by norm_num⟩
  rw [issue_ticket, hpayload, hexpires]
  rfl

end Verify

end FleetOps.Auth
