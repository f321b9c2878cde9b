import Mathlib.Data.List.Infix
import Mathlib.Data.List.Range

namespace Kit

universe u

variable {α : Type u}

/-- Past the end there is nothing more to find than at the end. -/
theorem prefix_drop_min {sub s : List α} {i : Nat} (here : sub <+: s.drop i) :
    sub <+: s.drop (min i s.length) := by
  rcases Nat.le_total i s.length with inside | outside
  · rwa [Nat.min_eq_left inside]
  · rw [Nat.min_eq_right outside, List.drop_length]
    rwa [List.drop_eq_nil_of_le outside] at here

theorem prefix_of_prefix_append {sub s t : List α} (occurs : sub <+: s ++ t) (fits : sub.length ≤ s.length) :
    sub <+: s :=
  List.prefix_of_prefix_length_le occurs (List.prefix_append ..) fits

theorem prefix_drop_of_append {sub s t : List α} {i : Nat} (occurs : sub <+: (s ++ t).drop i)
    (fits : i + sub.length ≤ s.length) : sub <+: s.drop i := by
  rw [List.drop_append_of_le_length (by omega)] at occurs
  exact prefix_of_prefix_append occurs (by rw [List.length_drop]; omega)

variable [DecidableEq α]

/-- The first position at which `sub` occurs. -/
def find (sub s : List α) : Option Nat := (List.range (s.length + 1)).find? fun i => sub.isPrefixOf (s.drop i)

/-- The last position at which `sub` occurs. -/
def rfind (sub s : List α) : Option Nat :=
  (List.range (s.length + 1)).reverse.find? fun i => sub.isPrefixOf (s.drop i)

/-- The first position at which `sub` occurs that is not before `start`. -/
def findFrom (sub s : List α) (start : Nat) : Option Nat := (find sub (s.drop start)).map (start + ·)

theorem isPrefixOf_iff (sub s : List α) : sub.isPrefixOf s = true ↔ sub <+: s := List.isPrefixOf_iff_prefix

theorem find_eq_some {sub s : List α} {i : Nat} (found : find sub s = some i) :
    i ≤ s.length ∧ sub <+: s.drop i ∧ ∀ j < i, ¬ sub <+: s.drop j := by
  obtain ⟨here, member, before⟩ := List.find?_range_eq_some.mp found
  refine ⟨?_, (isPrefixOf_iff ..).mp here, fun j earlier occurs => ?_⟩
  · have bound := List.mem_range.mp member
    omega
  · have none' := before j earlier
    rw [(isPrefixOf_iff ..).mpr occurs] at none'
    cases none'

theorem find_eq_none {sub s : List α} (missing : find sub s = none) (i : Nat) : ¬ sub <+: s.drop i := by
  intro occurs
  have absent := List.find?_eq_none.mp missing (min i s.length) (List.mem_range.mpr (by omega))
  exact absent ((isPrefixOf_iff ..).mpr (prefix_drop_min occurs))

theorem find_isSome_of_occurs {sub s : List α} {i : Nat} (occurs : sub <+: s.drop i) : (find sub s).isSome = true := by
  cases missing : find sub s with
  | none => exact absurd occurs (find_eq_none missing i)
  | some j => rfl

theorem rfind_eq_some {sub s : List α} {i : Nat} (found : rfind sub s = some i) :
    i ≤ s.length ∧ sub <+: s.drop i ∧ ∀ j, i < j → j ≤ s.length → ¬ sub <+: s.drop j := by
  obtain ⟨here, before, after, split, none'⟩ := List.find?_eq_some_iff_append.mp found
  have member : i ∈ (List.range (s.length + 1)).reverse := by
    rw [split]
    simp
  have bound : i ≤ s.length := by
    have := List.mem_range.mp (List.mem_reverse.mp member)
    omega
  refine ⟨bound, (isPrefixOf_iff ..).mp here, fun j later inside occurs => ?_⟩
  have sorted : (before ++ i :: after).Pairwise (· > ·) := by
    rw [← split, List.pairwise_reverse]
    exact List.pairwise_lt_range
  have memberJ : j ∈ before ++ i :: after := by
    rw [← split]
    exact List.mem_reverse.mpr (List.mem_range.mpr (by omega))
  rcases List.mem_append.mp memberJ with earlier | rest
  · have absent := none' j earlier
    rw [(isPrefixOf_iff ..).mpr occurs] at absent
    cases absent
  · rcases List.mem_cons.mp rest with same | smaller
    · omega
    · have order := (List.pairwise_cons.mp (List.pairwise_append.mp sorted).2.1).1 j smaller
      omega

theorem rfind_eq_none {sub s : List α} (missing : rfind sub s = none) (i : Nat) : ¬ sub <+: s.drop i := by
  intro occurs
  have absent := List.find?_eq_none.mp missing (min i s.length)
    (List.mem_reverse.mpr (List.mem_range.mpr (by omega)))
  exact absent ((isPrefixOf_iff ..).mpr (prefix_drop_min occurs))

theorem rfind_of_last {sub s : List α} {i : Nat} (inside : i ≤ s.length) (occurs : sub <+: s.drop i)
    (last : ∀ j, i < j → j ≤ s.length → ¬ sub <+: s.drop j) : rfind sub s = some i := by
  cases found : rfind sub s with
  | none => exact absurd occurs (rfind_eq_none found i)
  | some j =>
    obtain ⟨bound, here, later⟩ := rfind_eq_some found
    rcases Nat.lt_trichotomy i j with before | same | behind
    · exact absurd here (last j before bound)
    · rw [same]
    · exact absurd occurs (later i behind inside)

/-- A marker that ends with a letter it has only there is found where it was put, unless it occurs before. -/
theorem find_marker {front before : List α} {last : α} (only : last ∉ front) (absent : ¬ front ++ [last] <:+: before)
    (rest : List α) : find (front ++ [last]) (before ++ (front ++ [last]) ++ rest) = some before.length := by
  have here : front ++ [last] <+: (before ++ (front ++ [last]) ++ rest).drop before.length := by
    rw [List.append_assoc, List.drop_left]
    exact List.prefix_append ..
  obtain ⟨i, found⟩ := Option.isSome_iff_exists.mp (find_isSome_of_occurs here)
  obtain ⟨-, occurs, first⟩ := find_eq_some found
  rw [found]
  rcases Nat.lt_trichotomy i before.length with earlier | same | later
  · exfalso
    rcases Nat.lt_or_ge before.length (i + (front ++ [last]).length) with beyond | fits
    · rw [List.length_append, List.length_singleton] at beyond
      obtain ⟨tail, eq⟩ := occurs
      have letter : (front ++ [last] ++ tail)[front.length]? = some last := by
        rw [List.append_assoc, List.getElem?_append_right (Nat.le_refl _)]
        simp
      rw [eq, List.getElem?_drop, List.append_assoc, List.getElem?_append_right (by omega), List.append_assoc,
        List.getElem?_append_left (by omega)] at letter
      exact only (List.mem_of_getElem? letter)
    · rw [List.append_assoc] at occurs
      have inside := prefix_drop_of_append occurs fits
      exact absent (inside.isInfix.trans (List.drop_suffix ..).isInfix)
  · rw [same]
  · exact absurd here (first before.length later)

end Kit
