import Mathlib.Logic.ExistsUnique
import Mathlib.Tactic.Tauto

namespace Kit

universe u

/-- Things are numbered as they are made, and each that is not gone is at one place. -/
structure Placed {P : Type u} (thing : P → Option Nat) (made : Nat) (gone : List Nat) : Prop where
  past : ∀ x ∈ gone, x < made
  kept : ∀ x, (∃ place, thing place = some x) ↔ x < made ∧ x ∉ gone
  once : ∀ left right x, thing left = some x → thing right = some x → left = right

namespace Placed

variable {P : Type u} {thing after : P → Option Nat} {made : Nat} {gone : List Nat}

theorem empty : Placed (fun _ : P => none) 0 [] where
  past _ member := absurd member List.not_mem_nil
  kept x := by simp
  once left right x found := by cases found

theorem made_iff (placed : Placed thing made gone) {place : P} {x : Nat} (found : thing place = some x) :
    x < made ∧ x ∉ gone := (placed.kept x).mp ⟨place, found⟩

theorem unique (placed : Placed thing made gone) {x : Nat} (isMade : x < made) (present : x ∉ gone) :
    ∃! place, thing place = some x := by
  rcases (placed.kept x).mpr ⟨isMade, present⟩ with ⟨place, found⟩
  exact ⟨place, found, fun other foundOther => placed.once other place x foundOther found⟩

section Updates

variable [DecidableEq P]

theorem put (placed : Placed thing made gone) {place : P} (free : thing place = none)
    (added : ∀ other, after other = if other = place then some made else thing other) : Placed after (made + 1) gone where
  past x member := Nat.lt_succ_of_lt (placed.past x member)
  kept x := by
    have before := placed.kept x
    constructor
    · intro somewhere
      rcases somewhere with ⟨other, found⟩
      rw [added] at found
      split at found
      · cases found
        exact ⟨Nat.lt_succ_self _, fun member => Nat.lt_irrefl _ (placed.past _ member)⟩
      · have old := placed.made_iff found
        exact ⟨Nat.lt_succ_of_lt old.1, old.2⟩
    · intro present
      rcases Nat.lt_succ_iff_lt_or_eq.mp present.1 with isMade | isNew
      · rcases before.mpr ⟨isMade, present.2⟩ with ⟨other, found⟩
        have different : other ≠ place := by
          intro same
          rw [same, free] at found
          cases found
        exact ⟨other, by rw [added, if_neg different, found]⟩
      · exact ⟨place, by rw [added, if_pos rfl, isNew]⟩
  once left right x foundLeft foundRight := by
    have old := placed.once left right x
    have fresh (other : P) (found : thing other = some made) : False := Nat.lt_irrefl _ (placed.made_iff found).1
    rw [added] at foundLeft foundRight
    grind

theorem take (placed : Placed thing made gone) {place : P} {taken : Nat} (found : thing place = some taken)
    (removed : ∀ other, after other = if other = place then none else thing other) :
    Placed after made (gone ++ [taken]) where
  past x member := by
    rcases List.mem_append.mp member with old | isTaken
    · exact placed.past x old
    · rw [List.mem_singleton.mp isTaken]
      exact (placed.made_iff found).1
  kept x := by
    have before := placed.kept x
    rw [List.mem_append, List.mem_singleton, not_or]
    constructor
    · intro somewhere
      rcases somewhere with ⟨other, there⟩
      rw [removed] at there
      split at there
      · cases there
      · rename_i different
        have old := placed.made_iff there
        refine ⟨old.1, old.2, fun same => different ?_⟩
        exact placed.once other place taken (same ▸ there) found
    · intro present
      rcases before.mpr ⟨present.1, present.2.1⟩ with ⟨other, there⟩
      have different : other ≠ place := by
        intro same
        rw [same, found] at there
        exact present.2.2 (Option.some.inj there).symm
      exact ⟨other, by rw [removed, if_neg different, there]⟩
  once left right x foundLeft foundRight := by
    have old := placed.once left right x
    rw [removed] at foundLeft foundRight
    grind

theorem move (placed : Placed thing made gone) {source target : P} {moved : Nat} (found : thing source = some moved)
    (free : thing target = none)
    (result : ∀ other, after other = if other = target then some moved else if other = source then none else thing other) :
    Placed after made gone where
  past := placed.past
  kept x := by
    rw [← placed.kept x]
    constructor
    · intro somewhere
      rcases somewhere with ⟨other, there⟩
      rw [result] at there
      split at there
      · exact ⟨source, found.trans there⟩
      · split at there
        · cases there
        · exact ⟨other, there⟩
    · intro somewhere
      rcases somewhere with ⟨other, there⟩
      by_cases isMoved : other = source
      · rw [isMoved, found] at there
        exact ⟨target, by rw [result, if_pos rfl, there]⟩
      · have different : other ≠ target := by
          intro same
          rw [same, free] at there
          cases there
        exact ⟨other, by rw [result, if_neg different, if_neg isMoved, there]⟩
  once left right x foundLeft foundRight := by
    have old := placed.once left right x
    have fromLeft := placed.once left source x
    have fromRight := placed.once right source x
    rw [result] at foundLeft foundRight
    grind

end Updates

/-- Everything that is still somewhere goes at once. -/
theorem clear (placed : Placed thing made gone) {rest : List Nat} (all : ∀ x, x ∈ rest ↔ ∃ place, thing place = some x) :
    Placed (fun _ : P => none) made (gone ++ rest) where
  past x member := by
    rcases List.mem_append.mp member with old | present
    · exact placed.past x old
    · rcases (all x).mp present with ⟨place, found⟩
      exact (placed.made_iff found).1
  kept x := by
    have before := placed.kept x
    have listed := all x
    simp only [reduceCtorEq, exists_false, false_iff, List.mem_append]
    tauto
  once left right x found := by cases found

end Placed

end Kit
