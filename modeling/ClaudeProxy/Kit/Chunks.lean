import Mathlib.Data.List.Basic

namespace Kit

universe u

variable {α : Type u}

/-- `l[i : i + size]` for `i` in `range(0, len(l), size)` -/
def chunks (size : Nat) (l : List α) : List (List α) :=
  (List.range ((l.length + size - 1) / size)).map fun i => (l.drop (size * i)).take size

theorem length_chunks (size : Nat) (l : List α) : (chunks size l).length = (l.length + size - 1) / size := by
  simp [chunks]

theorem flatten_slices (size : Nat) (l : List α) (n : Nat) :
    ((List.range n).map fun i => (l.drop (size * i)).take size).flatten = l.take (size * n) := by
  induction n with
  | zero => simp
  | succ n ih =>
    rw [List.range_succ, List.map_append, List.flatten_append, ih, Nat.mul_succ, List.take_add]
    simp

theorem flatten_take_chunks (size : Nat) (l : List α) (n : Nat) :
    ((chunks size l).take n).flatten = l.take (size * min n (chunks size l).length) := by
  rw [length_chunks, chunks, ← List.map_take, List.take_range, flatten_slices]

theorem length_flatten_take_chunks (size : Nat) (l : List α) (n : Nat) :
    ((chunks size l).take n).flatten.length ≤ size * n := by
  rw [flatten_take_chunks]
  exact Nat.le_trans (List.length_take_le _ _) (Nat.mul_le_mul_left size (Nat.min_le_left _ _))

theorem lt_length_chunks_iff {size : Nat} (positive : 0 < size) (l : List α) (n : Nat) :
    n < (chunks size l).length ↔ size * n < l.length := by
  have last : n + 1 ≤ (l.length + size - 1) / size ↔ (n + 1) * size ≤ l.length + size - 1 := Nat.le_div_iff_mul_le positive
  have step : (n + 1) * size = size * n + size := by rw [Nat.succ_mul, Nat.mul_comm]
  rw [length_chunks, Nat.lt_iff_add_one_le, last, step]
  omega

theorem flatten_chunks {size : Nat} (positive : 0 < size) (l : List α) : (chunks size l).flatten = l := by
  have all := flatten_take_chunks size l (chunks size l).length
  rw [List.take_length, Nat.min_self] at all
  rw [all, List.take_of_length_le]
  have last := (lt_length_chunks_iff positive l (chunks size l).length).not.mp (Nat.lt_irrefl _)
  omega

theorem length_le_of_mem_chunks {size : Nat} {l chunk : List α} (mem : chunk ∈ chunks size l) : chunk.length ≤ size := by
  obtain ⟨i, -, rfl⟩ := List.mem_map.mp mem
  exact List.length_take_le _ _

end Kit
