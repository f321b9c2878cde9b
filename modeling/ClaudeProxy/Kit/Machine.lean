namespace Kit

universe u v

/-- The state after a list of actions, if each of them is enabled in turn. -/
def runSteps {σ : Type u} {α : Type v} (step : σ → α → Option σ) : σ → List α → Option σ
  | s, [] => some s
  | s, a :: rest => (step s a).bind fun next => runSteps step next rest

/-- A labelled transition system with an executable step: `none` where the action is not enabled. -/
structure Machine (σ : Type u) (α : Type v) where
  init : σ
  step : σ → α → Option σ

namespace Machine

variable {σ : Type u} {α : Type v}

def run (m : Machine σ α) : σ → List α → Option σ := runSteps m.step

/-- The states of the runs in which every step meets `ok` in the state before it. -/
inductive ReachableUnder (m : Machine σ α) (ok : σ → α → Prop) : σ → Prop where
  | init : ReachableUnder m ok m.init
  | step {s next : σ} {a : α} (before : ReachableUnder m ok s) (meets : ok s a)
      (taken : m.step s a = some next) : ReachableUnder m ok next

def Reachable (m : Machine σ α) : σ → Prop := m.ReachableUnder fun _ _ => True

/-- What holds at the start and is kept by every step that meets `ok` holds throughout. -/
theorem ReachableUnder.invariant {m : Machine σ α} {ok : σ → α → Prop} {inv : σ → Prop}
    (start : inv m.init)
    (keeps : ∀ s a next, inv s → ok s a → m.step s a = some next → inv next) {s : σ}
    (reached : m.ReachableUnder ok s) : inv s := by
  induction reached with
  | init => exact start
  | step _ meets taken ih => exact keeps _ _ _ ih meets taken

/-- An invariant may lean on one that is already known. -/
theorem ReachableUnder.invariant_with {m : Machine σ α} {ok : σ → α → Prop} {known inv : σ → Prop}
    (holds : ∀ s, m.ReachableUnder ok s → known s) (start : inv m.init)
    (keeps : ∀ s a next, known s → inv s → ok s a → m.step s a = some next → inv next) {s : σ}
    (reached : m.ReachableUnder ok s) : inv s := by
  induction reached with
  | init => exact start
  | step before meets taken ih => exact keeps _ _ _ (holds _ before) ih meets taken

theorem ReachableUnder.run {m : Machine σ α} {ok : σ → α → Prop} {s final : σ} {actions : List α}
    (before : m.ReachableUnder ok s) (ran : m.run s actions = some final)
    (meets : ∀ s a, ok s a) : m.ReachableUnder ok final := by
  induction actions generalizing s with
  | nil => cases ran; exact before
  | cons a rest ih =>
    simp only [Machine.run, runSteps] at ran
    cases taken : m.step s a with
    | none => simp [taken] at ran
    | some next =>
      simp only [taken, Option.bind_some] at ran
      exact ih (.step before (meets s a) taken) ran

theorem reachable_of_run {m : Machine σ α} {final : σ} {actions : List α}
    (ran : m.run m.init actions = some final) : m.Reachable final :=
  ReachableUnder.run .init ran fun _ _ => trivial

theorem eq_some_getD {result : Option σ} (runs : result.isSome = true) (otherwise : σ) :
    result = some (result.getD otherwise) := by
  rcases Option.isSome_iff_exists.mp runs with ⟨s, eq⟩
  rw [eq]
  rfl

def runUnder (m : Machine σ α) (ok : σ → α → Bool) : σ → List α → Option σ
  | s, [] => some s
  | s, a :: rest => if ok s a then (m.step s a).bind fun next => m.runUnder ok next rest else none

theorem reachableUnder_of_runUnder {m : Machine σ α} {ok : σ → α → Bool} {s final : σ} {actions : List α}
    (before : m.ReachableUnder (fun s a => ok s a = true) s)
    (ran : m.runUnder ok s actions = some final) :
    m.ReachableUnder (fun s a => ok s a = true) final := by
  induction actions generalizing s with
  | nil => cases ran; exact before
  | cons a rest ih =>
    simp only [runUnder] at ran
    split at ran
    · rename_i meets
      cases taken : m.step s a with
      | none => simp [taken] at ran
      | some next =>
        simp only [taken, Option.bind_some] at ran
        exact ih (.step before meets taken) ran
    · cases ran

/-- A machine with an observer, who sees every step in the state before it. -/
def watch {ω : Type u} (m : Machine σ α) (start : ω) (note : σ → α → ω → ω) : Machine (σ × ω) α where
  init := (m.init, start)
  step s a := (m.step s.1 a).map fun next => (next, note s.1 a s.2)

theorem watch_step {ω : Type u} {m : Machine σ α} {start : ω} {note : σ → α → ω → ω} {s next : σ × ω} {a : α} :
    (m.watch start note).step s a = some next ↔ m.step s.1 a = some next.1 ∧ next.2 = note s.1 a s.2 := by
  show (m.step s.1 a).map _ = some next ↔ _
  cases m.step s.1 a with
  | none => simp
  | some after =>
    rw [Option.map_some, Option.some.injEq, Option.some.injEq, Prod.ext_iff, eq_comm (a := next.2)]

end Machine

end Kit
