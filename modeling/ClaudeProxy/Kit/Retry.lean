import Mathlib.Data.List.Basic

namespace Kit

universe u v

/-- Statements that take effect one by one; a rejected one ends the script. -/
def runScript {σ : Type u} {α : Type v} (exec : σ → α → Option σ) : σ → List α → σ × Bool
  | s, [] => (s, true)
  | s, statement :: rest =>
    match exec s statement with
    | none => (s, false)
    | some next => runScript exec next rest

inductive ScriptEnd where
  | returned
  | rejected
  | disconnected
deriving DecidableEq

section Scripts

variable {σ : Type u} {α : Type v} (exec : σ → α → Option σ)

/-- A script whose connection is lost, if at all, when a number of its statements has taken effect. -/
def attemptScript (s : σ) (statements : List α) : Option Nat → σ × ScriptEnd
  | none =>
    let (after, accepted) := runScript exec s statements
    (after, if accepted then .returned else .rejected)
  | some lost =>
    let (after, accepted) := runScript exec s (statements.take lost)
    (after, if accepted then .disconnected else .rejected)

/-- Once more from the start, if the connection was lost. -/
def retryOnce (s : σ) (statements : List α) (first second : Option Nat) : σ × ScriptEnd :=
  match attemptScript exec s statements first with
  | (after, .disconnected) => attemptScript exec after statements second
  | ended => ended

/-- The calls of a run in turn, each with the place where its first attempt is cut off, if it is. -/
def runCalls (s : σ) : List (List α × Option Nat) → σ × List ScriptEnd
  | [] => (s, [])
  | (statements, lost) :: rest =>
    let (after, ended) := retryOnce exec s statements lost none
    let (final, others) := runCalls after rest
    (final, ended :: others)

variable {exec}

theorem runScript_append (s : σ) (first second : List α) :
    runScript exec s (first ++ second) =
      if (runScript exec s first).2 then runScript exec (runScript exec s first).1 second else runScript exec s first := by
  induction first generalizing s with
  | nil => rfl
  | cons statement rest ih =>
    rw [List.cons_append, runScript, runScript]
    cases exec s statement with
    | none => rfl
    | some next => exact ih next

/-- What every statement of a script keeps is so wherever the script is cut off. -/
theorem runScript_keeps {inv : σ → Prop} {statements : List α}
    (keeps : ∀ s, inv s → ∀ statement ∈ statements, ∀ next, exec s statement = some next → inv next) {s : σ} (start : inv s)
    (lost : Nat) : inv (runScript exec s (statements.take lost)).1 := by
  induction statements generalizing s lost with
  | nil =>
    rw [List.take_nil]
    exact start
  | cons statement rest ih =>
    cases lost with
    | zero => exact start
    | succ lost =>
      rw [List.take_succ_cons, runScript]
      cases done : exec s statement with
      | none => exact start
      | some next =>
        have later := fun s before other mem => keeps s before other (List.mem_cons_of_mem statement mem)
        exact ih later (keeps s start statement List.mem_cons_self next done) lost

theorem runScript_rejected {s : σ} {statements : List α} {lost : Nat}
    (rejected : (runScript exec s (statements.take lost)).2 = false) :
    runScript exec s statements = runScript exec s (statements.take lost) := by
  conv_lhs => rw [← List.take_append_drop lost statements, runScript_append, rejected]
  rfl

end Scripts

/-- A relation of states that no statement can tell apart. -/
structure Interchangeable {σ : Type u} {α : Type v} (exec : σ → α → Option σ) (alike : σ → σ → Prop) : Prop where
  equivalence : Equivalence alike
  exec : ∀ s t statement, alike s t → Option.Rel alike (exec s statement) (exec t statement)

section Alikeness

variable {σ : Type u} {α : Type v} {exec : σ → α → Option σ} {alike : σ → σ → Prop}

theorem Interchangeable.runScript (same : Interchangeable exec alike) {s t : σ} (start : alike s t) (statements : List α) :
    alike (runScript exec s statements).1 (runScript exec t statements).1 ∧
      (Kit.runScript exec s statements).2 = (Kit.runScript exec t statements).2 := by
  induction statements generalizing s t with
  | nil => exact ⟨start, rfl⟩
  | cons statement rest ih =>
    rw [Kit.runScript, Kit.runScript]
    have both := same.exec s t statement start
    generalize exec s statement = left at both ⊢
    generalize exec t statement = right at both ⊢
    cases both with
    | none => exact ⟨start, rfl⟩
    | some after => exact ih after

/-- From a state of this kind the script ends alike after wherever it has been cut off. -/
def RepeatableFrom (exec : σ → α → Option σ) (alike : σ → σ → Prop) (s : σ) (statements : List α) : Prop :=
  ∀ lost, (runScript exec s (statements.take lost)).2 = true →
    alike (runScript exec (runScript exec s (statements.take lost)).1 statements).1 (runScript exec s statements).1 ∧
      (runScript exec (runScript exec s (statements.take lost)).1 statements).2 = (runScript exec s statements).2

theorem repeatable_of_invariant {statements : List α} {s : σ} (inv : σ → Prop) (start : inv s)
    (keeps : ∀ u, inv u → ∀ statement ∈ statements, ∀ next, exec u statement = some next → inv next)
    (final : ∀ u, inv u → alike (runScript exec u statements).1 (runScript exec s statements).1 ∧
      (runScript exec u statements).2 = (runScript exec s statements).2) : RepeatableFrom exec alike s statements :=
  fun lost _ => final _ (runScript_keeps keeps start lost)

theorem repeatable_nil (same : Interchangeable exec alike) (s : σ) : RepeatableFrom exec alike s [] := by
  intro lost _
  rw [List.take_nil]
  exact ⟨same.equivalence.refl _, rfl⟩

theorem repeatable_single (same : Interchangeable exec alike) {s : σ} {statement : α}
    (again : ∀ next, exec s statement = some next → ∃ after, exec next statement = some after ∧ alike after next) :
    RepeatableFrom exec alike s [statement] := by
  intro lost accepted
  cases lost with
  | zero => exact ⟨same.equivalence.refl _, rfl⟩
  | succ lost =>
    rw [List.take_succ_cons, List.take_nil] at accepted ⊢
    cases done : exec s statement with
    | none =>
      rw [Kit.runScript, done] at accepted
      cases accepted
    | some next =>
      obtain ⟨after, repeated, equal⟩ := again next done
      have once : Kit.runScript exec s [statement] = (next, true) := by
        rw [Kit.runScript, done]
        rfl
      have twice : Kit.runScript exec next [statement] = (after, true) := by
        rw [Kit.runScript, repeated]
        rfl
      rw [once, twice]
      exact ⟨equal, rfl⟩

theorem retryOnce_of_repeatable (same : Interchangeable exec alike) {statements : List α} {s : σ}
    (again : RepeatableFrom exec alike s statements) (lost : Option Nat) :
    alike (retryOnce exec s statements lost none).1 (runScript exec s statements).1 ∧
      (retryOnce exec s statements lost none).2 = if (runScript exec s statements).2 then .returned else .rejected := by
  cases lost with
  | none =>
    have once : retryOnce exec s statements none none =
        ((runScript exec s statements).1, if (runScript exec s statements).2 then .returned else .rejected) := by
      unfold retryOnce attemptScript
      obtain ⟨after, accepted⟩ := Kit.runScript exec s statements
      cases accepted <;> rfl
    rw [once]
    exact ⟨same.equivalence.refl _, rfl⟩
  | some lost =>
    cases accepted : (runScript exec s (statements.take lost)).2 with
    | false =>
      have whole := runScript_rejected accepted
      have once : retryOnce exec s statements (some lost) none =
          ((runScript exec s statements).1, if (runScript exec s statements).2 then .returned else .rejected) := by
        simp only [retryOnce, attemptScript, whole, accepted, Bool.false_eq_true, if_false]
      rw [once]
      exact ⟨same.equivalence.refl _, rfl⟩
    | true =>
      obtain ⟨final, flag⟩ := again lost accepted
      have twice : retryOnce exec s statements (some lost) none =
          attemptScript exec (runScript exec s (statements.take lost)).1 statements none := by
        simp only [retryOnce, attemptScript, accepted, if_true]
      rw [twice]
      refine ⟨final, ?_⟩
      simp only [attemptScript, flag]

/-- Calls that are cut off and retried leave what undisturbed calls leave, and end the same way. What the calls rely on is
    kept by each of them, and so by all. -/
theorem runCalls_of_repeatable (same : Interchangeable exec alike) {good : σ → Prop}
    (good_alike : ∀ s t, alike s t → good s → good t)
    {calls : List (List α × Option Nat)}
    (again : ∀ call ∈ calls, ∀ s, good s → RepeatableFrom exec alike s call.1 ∧ good (runScript exec s call.1).1)
    {s t : σ} (start : alike s t) (sound : good s) :
    alike (runCalls exec s calls).1 (runCalls exec t (calls.map fun call => (call.1, none))).1 ∧
      (runCalls exec s calls).2 = (runCalls exec t (calls.map fun call => (call.1, none))).2 ∧
      good (runCalls exec s calls).1 := by
  induction calls generalizing s t with
  | nil => exact ⟨start, rfl, sound⟩
  | cons call rest ih =>
    obtain ⟨statements, lost⟩ := call
    obtain ⟨here, kept⟩ := again _ List.mem_cons_self s sound
    have there := (again _ List.mem_cons_self t (good_alike s t start sound)).1
    obtain ⟨one, ends⟩ := retryOnce_of_repeatable same here lost
    obtain ⟨other, ends'⟩ := retryOnce_of_repeatable same there none
    obtain ⟨between, flag⟩ := same.runScript start statements
    have after := same.equivalence.trans one (same.equivalence.trans between (same.equivalence.symm other))
    have sound' := good_alike _ _ (same.equivalence.symm one) kept
    obtain ⟨final, tail, still⟩ := ih (fun call mem => again call (List.mem_cons_of_mem _ mem)) after sound'
    have heads : (retryOnce exec s statements lost none).2 = (retryOnce exec t statements none none).2 := by
      rw [ends, ends', flag]
    refine ⟨final, ?_, still⟩
    show (retryOnce exec s statements lost none).2 :: _ = (retryOnce exec t statements none none).2 :: _
    exact congrArg₂ List.cons heads tail

end Alikeness

end Kit
