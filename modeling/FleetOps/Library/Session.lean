import Mathlib.Logic.Basic

namespace Sessions

-- What a session asks of the store behind it.
structure Engine (D : Type*) where
  commit : D → D
  rollback : D → D

-- Whether the session is in a `begin` block, and whether the block's transaction is
-- still there.
inductive Block where
  | none
  | begun
  | closed
  deriving DecidableEq

structure Session (D : Type*) where
  db : D
  block : Block

inductive Halt (E : Type*) where
  | invalid_request
  | raised (error : E)

variable {D E α β : Type}

-- A program that uses a session and may raise. What it did to the session stays.
def Program (D E α : Type) := Session D → Except (Halt E) α × Session D

namespace Program

def pure (a : α) : Program D E α := fun s => (.ok a, s)

def raise (e : Halt E) : Program D E α := fun s => (.error e, s)

def bind (p : Program D E α) (f : α → Program D E β) : Program D E β := fun s =>
  match p s with
  | (.ok a, t) => f a t
  | (.error e, t) => (.error e, t)

instance : Monad (Program D E) where
  pure := pure
  bind := bind

-- A computation that does not touch the session.
def eval (x : Except E α) : Program D E α :=
  match x with
  | .ok a => pure a
  | .error e => raise (.raised e)

-- A statement. In a block whose transaction is closed no statement is accepted.
def execute (statement : D → Except E D) : Program D E Unit := fun s =>
  if s.block = .closed then (.error .invalid_request, s)
  else match statement s.db with
    | .ok db => (.ok (), { s with db := db })
    | .error e => (.error (.raised e), s)

-- An explicit commit; inside a block it closes the block's transaction.
def commit (engine : Engine D) : Program D E Unit := fun s =>
  match s.block with
  | .none => (.ok (), { s with db := engine.commit s.db })
  | .begun => (.ok (), ⟨engine.commit s.db, .closed⟩)
  | .closed => (.error .invalid_request, s)

-- `async with session.begin()`: the end of the block commits what is still open, an
-- exception rolls it back.
def begin (engine : Engine D) (body : Program D E α) : Program D E α := fun s =>
  match body { s with block := .begun } with
  | (.ok a, t) => (.ok a, ⟨if t.block = .begun then engine.commit t.db else t.db, .none⟩)
  | (.error e, t) => (.error e, ⟨engine.rollback t.db, .none⟩)

-- A session of its own, which rolls back what is left open when it is closed.
def session (engine : Engine D) (p : Program D E α) (db : D) : Except (Halt E) α × D :=
  match p ⟨db, .none⟩ with
  | (result, s) => (result, engine.rollback s.db)

section Rules

variable {engine : Engine D} {p : Program D E α} {f : α → Program D E β} {s t : Session D} {a : α}
  {e : Halt E} {statement : D → Except E D} {db : D}

@[simp] theorem pure_run : (Pure.pure a : Program D E α) s = (.ok a, s) := rfl

@[simp] theorem eval_ok_run : (eval (.ok a) : Program D E α) s = (.ok a, s) := rfl

@[simp] theorem eval_error_run (error : E) :
    (eval (.error error) : Program D E α) s = (.error (.raised error), s) := rfl

theorem bind_ok (h : p s = (.ok a, t)) : (p >>= f) s = f a t := by
  change bind p f s = f a t
  simp only [bind, h]

theorem bind_error (h : p s = (.error e, t)) : (p >>= f) s = (.error e, t) := by
  change bind p f s = (.error e, t)
  simp only [bind, h]

theorem execute_ok (hopen : s.block ≠ .closed) (h : statement s.db = .ok db) :
    execute statement s = (.ok (), { s with db := db }) := by
  simp only [execute, if_neg hopen, h]

-- A block that has committed accepts no further statement.
theorem execute_closed (hclosed : s.block = .closed) :
    execute statement s = (.error .invalid_request, s) := by
  simp only [execute, if_pos hclosed]

@[simp] theorem commit_none : (commit engine : Program D E Unit) ⟨db, .none⟩ =
    (.ok (), ⟨engine.commit db, .none⟩) := rfl

@[simp] theorem commit_begun : (commit engine : Program D E Unit) ⟨db, .begun⟩ =
    (.ok (), ⟨engine.commit db, .closed⟩) := rfl

theorem begin_error (h : p { s with block := .begun } = (.error e, t)) :
    begin engine p s = (.error e, ⟨engine.rollback t.db, .none⟩) := by
  simp only [begin, h]

theorem session_eq {result : Except (Halt E) α} (h : p ⟨db, .none⟩ = (result, t)) :
    session engine p db = (result, engine.rollback t.db) := by
  simp only [session, h]

end Rules

end Program

end Sessions
