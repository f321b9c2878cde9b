import Mathlib.Data.List.DropRight

namespace Kit

section Padding

universe u v

variable {α : Type u} {σ : Type v} (step : σ → α → σ) (free : σ → Prop) (blank : α → Prop)

/-- The second list is the first one with blank elements put in where the state is free. -/
inductive Padded : σ → List α → List α → Prop
  | nil {s : σ} : Padded s [] []
  | keep {s : σ} {a : α} {xs ys : List α} : Padded (step s a) xs ys → Padded s (a :: xs) (a :: ys)
  | pad {s : σ} {a : α} {xs ys : List α} : blank a → free s → Padded s xs ys → Padded s xs (a :: ys)

variable {step free blank}

namespace Padded

/-- A blank element of the first list may count as put in. -/
theorem drop {s : σ} {a : α} {xs ys : List α} (law : ∀ s a, blank a → free s → step s a = s) (isBlank : blank a)
    (isFree : free s) (padded : Padded step free blank s (a :: xs) ys) : Padded step free blank s xs ys := by
  generalize shape : a :: xs = whole at padded
  induction padded with
  | nil => cases shape
  | keep rest _ =>
    cases shape
    rw [law _ _ isBlank isFree] at rest
    exact .pad isBlank isFree rest
  | pad other isFree' _ ih => exact .pad other isFree' (ih isFree shape)

/-- An element that both lists start with was kept. -/
theorem tail {s : σ} {a : α} {xs ys : List α} (law : ∀ s a, blank a → free s → step s a = s)
    (padded : Padded step free blank s (a :: xs) (a :: ys)) : Padded step free blank (step s a) xs ys := by
  cases padded with
  | keep rest => exact rest
  | pad isBlank isFree rest =>
    rw [law s a isBlank isFree]
    exact drop law isBlank isFree rest

theorem head {s : σ} {a b : α} {xs ys : List α} (differ : a ≠ b) (padded : Padded step free blank s (a :: xs) (b :: ys)) :
    free s ∧ Padded step free blank s (a :: xs) ys := by
  cases padded with
  | keep rest => exact absurd rfl differ
  | pad _ isFree rest => exact ⟨isFree, rest⟩

end Padded

end Padding

/-- The code fence of CommonMark that is open. -/
structure Fence where
  mark : Char
  length : Nat
deriving DecidableEq

namespace Fence

def backtick : Char := Char.ofNat 96

/-- A run of at least three backticks or tildes, indented by at most three spaces, and what follows it. -/
def run? (line : List Char) : Option (Fence × List Char) :=
  let body := line.dropWhile (· = ' ')
  match body with
  | [] => none
  | mark :: _ =>
    let length := (body.takeWhile (· = mark)).length
    if (line.takeWhile (· = ' ')).length ≤ 3 ∧ (mark = backtick ∨ mark = '~') ∧ 3 ≤ length then
      some (⟨mark, length⟩, body.dropWhile (· = mark))
    else none

def step (open' : Option Fence) (line : List Char) : Option Fence :=
  match open', run? line with
  | none, some (fence, info) => if fence.mark = backtick ∧ backtick ∈ info then none else some fence
  | none, none => none
  | some fence, some (other, after) =>
    if other.mark = fence.mark ∧ fence.length ≤ other.length ∧ after.all (fun c => c = ' ' ∨ c = '\t') then none
    else some fence
  | some fence, none => some fence

theorem run?_eq_none {line : List Char} (plain : ∀ c ∈ line, c ≠ backtick ∧ c ≠ '~') : run? line = none := by
  unfold run?
  cases body : line.dropWhile (· = ' ') with
  | nil => rfl
  | cons mark rest =>
    have mem : mark ∈ line := (List.dropWhile_sublist _).subset (body ▸ List.mem_cons_self)
    simp [plain mark mem]

end Fence

end Kit
