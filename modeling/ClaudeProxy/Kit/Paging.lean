import Mathlib.Data.List.Flatten
import Mathlib.Data.List.Infix

namespace Kit

universe u

/-- The page of a number, of a list that is read from its front. -/
def pageAt {α : Type u} (size : Nat) (rows : List α) (k : Nat) : List α := (rows.drop (k * size)).take size

section Pages

variable {α : Type u} {size n : Nat}

theorem flatMap_pageAt (rows : List α) (n : Nat) : (List.range n).flatMap (pageAt size rows) = rows.take (n * size) := by
  induction n with
  | zero => rw [Nat.zero_mul, List.take_zero]; rfl
  | succ n ih =>
    rw [List.range_succ, List.flatMap_append, ih, List.flatMap_singleton, Nat.succ_mul, List.take_add]
    rfl

theorem length_lt_of_short {rows : List α} (short : (pageAt size rows n).length < size) : rows.length < (n + 1) * size := by
  unfold pageAt at short
  rw [List.length_take, List.length_drop] at short
  rw [Nat.succ_mul]
  omega

/-- Pages up to a short one are the whole list, cut into pieces. -/
theorem flatMap_pageAt_of_short {rows : List α} (short : (pageAt size rows n).length < size) :
    (List.range (n + 1)).flatMap (pageAt size rows) = rows := by
  rw [flatMap_pageAt]
  exact List.take_of_length_le (Nat.le_of_lt (length_lt_of_short short))

theorem mem_drop_of_suffix {first second : List α} (grows : first <:+ second) {a : α} {m : Nat} (mem : a ∈ first.drop m) :
    a ∈ second.drop m := by
  obtain ⟨front, rfl⟩ := grows
  have later : first.drop m <:+ (front ++ first).drop m := by
    rw [List.drop_append]
    exact (List.drop_suffix_drop_left first (Nat.sub_le m front.length)).trans (List.suffix_append _ _)
  exact later.subset mem

/-- What has come in front of a row between two pages only moves it into a later page. -/
theorem seen_of_growing {lists : Nat → List α} (grows : ∀ k, lists k <:+ lists (k + 1))
    (short : (pageAt size (lists n) n).length < size) : ∀ a ∈ lists 0, ∃ k ≤ n, a ∈ pageAt size (lists k) k := by
  intro a mem
  by_contra unseen
  push Not at unseen
  have ahead : ∀ k ≤ n, a ∈ (lists k).drop (k * size) := by
    intro k
    induction k with
    | zero =>
      intro _
      rw [Nat.zero_mul]
      exact mem
    | succ k ih =>
      intro below
      have here := ih (Nat.le_of_succ_le below)
      have missed := unseen k (Nat.le_of_succ_le below)
      rw [← List.take_append_drop size ((lists k).drop (k * size)), List.mem_append] at here
      have later := here.resolve_left missed
      rw [List.drop_drop, ← Nat.succ_mul] at later
      exact mem_drop_of_suffix (grows k) later
  have last := ahead n (Nat.le_refl n)
  have whole : ((lists n).drop (n * size)).length ≤ size := by
    have less := length_lt_of_short short
    rw [Nat.succ_mul] at less
    rw [List.length_drop]
    omega
  rw [← List.take_of_length_le whole] at last
  exact unseen n (Nat.le_refl n) last

end Pages

end Kit
