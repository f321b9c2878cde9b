namespace Kit

universe u

/-- A statement fails on the server, or on the client before it is sent. -/
inductive SqlFailure where
  | server (message : List Char)
  | client (message : List Char)

/-- What a transaction sees, and whether a statement of it has failed on the server. -/
structure Cursor (δ : Type u) where
  db : δ
  aborted : Bool

/-- Code that runs statements in a transaction and may raise. -/
def Sql (δ α : Type u) := Cursor δ → Except (List Char) α × Cursor δ

namespace Sql

variable {δ α β : Type u}

def result (value : α) : Sql δ α := fun cursor => (.ok value, cursor)

def raise (message : List Char) : Sql δ α := fun cursor => (.error message, cursor)

def andThen (first : Sql δ α) (next : α → Sql δ β) : Sql δ β := fun cursor =>
  match first cursor with
  | (.ok value, after) => next value after
  | (.error message, after) => (.error message, after)

instance : Monad (Sql δ) where
  pure := result
  bind := andThen

/-- `try: body except Exception as exc: handler` -/
def handle (body : Sql δ α) (handler : List Char → Sql δ α) : Sql δ α := fun cursor =>
  match body cursor with
  | (.ok value, after) => (.ok value, after)
  | (.error message, after) => handler message after

def inFailedTransaction : List Char :=
  "current transaction is aborted, commands ignored until end of transaction block".toList

/-- `effect` is what the server does when nothing else is wrong; it refuses what breaks a constraint. -/
def statement (failure : Option SqlFailure) (effect : δ → Except (List Char) (α × δ)) : Sql δ α := fun cursor =>
  match failure with
  | some (.client message) => (.error message, cursor)
  | some (.server message) => (.error (if cursor.aborted then inFailedTransaction else message), ⟨cursor.db, true⟩)
  | none =>
    if cursor.aborted then (.error inFailedTransaction, cursor)
    else
      match effect cursor.db with
      | .ok (value, db) => (.ok value, ⟨db, false⟩)
      | .error message => (.error message, ⟨cursor.db, true⟩)

/-- Commit on success, roll back when the body raises. To commit an aborted transaction rolls it back. -/
def transaction (body : Sql δ α) (db : δ) : Except (List Char) α × δ :=
  match body ⟨db, false⟩ with
  | (.ok value, after) => (.ok value, if after.aborted then db else after.db)
  | (.error message, _) => (.error message, db)

section Rules

variable {first : Sql δ α} {next : α → Sql δ β} {handler : List Char → Sql δ α} {cursor after : Cursor δ} {value : α}
  {message : List Char} {effect : δ → Except (List Char) (α × δ)} {db db' : δ}

theorem bind_assoc {γ : Type u} (first : Sql δ α) (next : α → Sql δ β) (last : β → Sql δ γ) :
    (first >>= next) >>= last = first >>= fun value => next value >>= last := by
  funext cursor
  show andThen (andThen first next) last cursor = andThen first (fun value => andThen (next value) last) cursor
  simp only [andThen]
  rcases first cursor with ⟨ending, after⟩
  cases ending <;> rfl

theorem bind_ok (ends : first cursor = (.ok value, after)) : (first >>= next) cursor = next value after := by
  show andThen first next cursor = next value after
  rw [andThen, ends]

theorem bind_error (ends : first cursor = (.error message, after)) : (first >>= next) cursor = (.error message, after) := by
  show andThen first next cursor = (.error message, after)
  rw [andThen, ends]

theorem handle_ok (ends : first cursor = (.ok value, after)) : handle first handler cursor = (.ok value, after) := by
  rw [handle, ends]

theorem handle_error (ends : first cursor = (.error message, after)) :
    handle first handler cursor = handler message after := by
  rw [handle, ends]

theorem statement_ok {failure : Option SqlFailure} (sent : failure = none) (accepted : effect db = .ok (value, db')) :
    statement failure effect ⟨db, false⟩ = (.ok value, ⟨db', false⟩) := by
  subst sent
  simp only [statement, accepted, Bool.false_eq_true, if_false]

theorem statement_refused (refused : effect db = .error message) :
    statement none effect ⟨db, false⟩ = (.error message, ⟨db, true⟩) := by
  simp only [statement, refused, Bool.false_eq_true, if_false]

theorem statement_aborted (failure : Option SqlFailure) (effect : δ → Except (List Char) (α × δ)) (db : δ) :
    ∃ message, statement failure effect ⟨db, true⟩ = (.error message, ⟨db, true⟩) := by
  cases failure with
  | none => exact ⟨_, rfl⟩
  | some failure => cases failure <;> exact ⟨_, rfl⟩

theorem statement_failed (failure : SqlFailure) (effect : δ → Except (List Char) (α × δ)) (db : δ) :
    ∃ message aborted, statement (some failure) effect ⟨db, false⟩ = (.error message, ⟨db, aborted⟩) := by
  cases failure <;> exact ⟨_, _, rfl⟩

theorem transaction_ok {body : Sql δ α} (ends : body ⟨db, false⟩ = (.ok value, ⟨db', false⟩)) :
    transaction body db = (.ok value, db') := by
  simp only [transaction, ends, Bool.false_eq_true, if_false]

theorem transaction_error {body : Sql δ α} (ends : body ⟨db, false⟩ = (.error message, after)) :
    transaction body db = (.error message, db) := by
  simp only [transaction, ends]

/-- What a body that succeeds has done. -/
theorem bind_inv {db : Cursor δ} {value : β} (ends : (first >>= next) db = (.ok value, after)) :
    ∃ middle between, first db = (.ok middle, between) ∧ next middle between = (.ok value, after) := by
  change andThen first next db = _ at ends
  rw [andThen] at ends
  split at ends
  · rename_i middle between did
    exact ⟨middle, between, did, ends⟩
  · cases ends

theorem statement_inv {failure : Option SqlFailure} (ends : statement failure effect ⟨db, false⟩ = (.ok value, after)) :
    ∃ changed, effect db = .ok (value, changed) ∧ after = ⟨changed, false⟩ := by
  unfold statement at ends
  cases failure with
  | none =>
    simp only [Bool.false_eq_true, if_false] at ends
    cases effected : effect db with
    | ok done =>
      rw [effected] at ends
      cases ends
      exact ⟨_, rfl, rfl⟩
    | error message =>
      rw [effected] at ends
      cases ends
  | some failure => cases failure <;> cases ends

/-- A transaction that raises has changed nothing, and one that succeeds has done what its body did. -/
theorem transaction_cases (body : Sql δ α) (db : δ) :
    (∃ message, transaction body db = (.error message, db)) ∨
    ∃ value after, body ⟨db, false⟩ = (.ok value, after) ∧ transaction body db = (.ok value, if after.aborted then db else after.db) := by
  unfold transaction
  cases ends : body ⟨db, false⟩ with
  | mk ending after =>
    cases ending with
    | ok value => exact .inr ⟨value, after, rfl, rfl⟩
    | error message => exact .inl ⟨message, rfl⟩

end Rules

end Sql

end Kit
