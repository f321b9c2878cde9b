import Mathlib.Data.List.Basic

namespace Kit.Lines

universe u

variable {α : Type u} [DecidableEq α]

/-- The lines that end with the mark, without it, and the unfinished rest. -/
def cut (mark : α) : List α → List (List α) × List α
  | [] => ([], [])
  | a :: rest =>
    let (lines, left) := cut mark rest
    if a = mark then ([] :: lines, left)
    else
      match lines with
      | [] => ([], a :: left)
      | line :: more => ((a :: line) :: more, left)

/-- What was left of the first part is continued by the second. -/
theorem cut_append (mark : α) (first second : List α) : cut mark (first ++ second) =
    ((cut mark first).1 ++ (cut mark ((cut mark first).2 ++ second)).1, (cut mark ((cut mark first).2 ++ second)).2) := by
  induction first with
  | nil => rfl
  | cons a rest ih =>
    rw [List.cons_append, cut, ih]
    by_cases ends : a = mark
    · simp [cut, ends]
    · cases lines : (cut mark rest).1 with
      | nil => simp [cut, ends, lines]
      | cons line more => simp [cut, ends, lines]

theorem cut_unfinished {mark : α} {piece : List α} (unfinished : mark ∉ piece) : cut mark piece = ([], piece) := by
  induction piece with
  | nil => rfl
  | cons a rest ih =>
    have different : a ≠ mark := fun same => unfinished (same ▸ List.mem_cons_self)
    rw [cut, ih fun member => unfinished (List.mem_cons_of_mem a member)]
    simp [different]

theorem mark_not_mem_left (mark : α) (piece : List α) : mark ∉ (cut mark piece).2 := by
  induction piece with
  | nil => exact List.not_mem_nil
  | cons a rest ih =>
    by_cases ends : a = mark
    · simpa [cut, ends] using ih
    · cases lines : (cut mark rest).1 with
      | nil => simpa [cut, ends, lines, Ne.symm ends] using ih
      | cons line more => simpa [cut, ends, lines] using ih

section Feed

variable {σ : Type*}

/-- Handle the lines that a piece finishes, and keep the rest. -/
def feed (mark : α) (handle : σ → List α → σ) (reading : σ × List α) (piece : List α) : σ × List α :=
  ((cut mark (reading.2 ++ piece)).1.foldl handle reading.1, (cut mark (reading.2 ++ piece)).2)

/-- However a stream is divided into pieces, its lines are handled in the same way. -/
theorem foldl_feed (mark : α) (handle : σ → List α → σ) (pieces : List (List α)) (s : σ) {left : List α}
    (unfinished : mark ∉ left) : pieces.foldl (feed mark handle) (s, left) = feed mark handle (s, left) pieces.flatten := by
  induction pieces generalizing s left with
  | nil => simp [feed, cut_unfinished unfinished]
  | cons piece pieces ih =>
    have next := ih ((cut mark (left ++ piece)).1.foldl handle s) (mark_not_mem_left mark (left ++ piece))
    rw [List.foldl_cons, List.flatten_cons]
    refine next.trans ?_
    rw [feed, feed, ← List.append_assoc, cut_append mark (left ++ piece), List.foldl_append]

end Feed

end Kit.Lines
