import Mathlib.Data.List.Induction
import Mathlib.Data.List.Pairwise

namespace Kit

variable {α κ ι : Type} {counts : α → Prop} {key : α → κ} {identity : α → ι} {xs : List α}

/-- Some earlier element that counts agrees with this one. -/
def SeenBefore {β : Type} (counts : α → Prop) (f : α → β) (before : List α) (x : α) : Prop :=
  ∃ y ∈ before, counts y ∧ f y = f x

/-- All along the list, whether an element was seen before is the same by key as by identity. -/
def KeyDecides (counts : α → Prop) (key : α → κ) (identity : α → ι) (xs : List α) : Prop :=
  ∀ before x after, xs = before ++ x :: after → counts x →
    (SeenBefore counts key before x ↔ SeenBefore counts identity before x)

/-- No two elements share a key unless they are the same. -/
def Distinguishes (counts : α → Prop) (key : α → κ) (identity : α → ι) (xs : List α) : Prop :=
  xs.Pairwise fun y x => counts y → counts x → key y = key x → identity y = identity x

theorem Distinguishes.of_mem {x y : α} (distinguishes : Distinguishes counts key identity xs)
    (here : x ∈ xs) (there : y ∈ xs) (left : counts x) (right : counts y) (same : key x = key y) :
    identity x = identity y := by
  have symmetric : Std.Symm fun y x => counts y → counts x → key y = key x → identity y = identity x :=
    ⟨fun _ _ agrees second first same => (agrees first second same.symm).symm⟩
  apply List.Pairwise.forall_of_forall ?_ distinguishes here there left right same
  intro _ _ _ _ _
  rfl

theorem keyDecides_of_distinguishes (factors : ∀ x ∈ xs, ∀ y ∈ xs, identity x = identity y → key x = key y)
    (distinguishes : Distinguishes counts key identity xs) : KeyDecides counts key identity xs := by
  rintro before x after rfl counted
  have here : x ∈ before ++ x :: after := List.mem_append_right _ List.mem_cons_self
  constructor
  · rintro ⟨y, member, earlier, same⟩
    exact ⟨y, member, earlier, distinguishes.of_mem (List.mem_append_left _ member) here earlier counted same⟩
  · rintro ⟨y, member, earlier, same⟩
    exact ⟨y, member, earlier, factors y (List.mem_append_left _ member) x here same⟩

theorem distinguishes_of_keyDecides (factors : ∀ x ∈ xs, ∀ y ∈ xs, identity x = identity y → key x = key y)
    (decides : KeyDecides counts key identity xs) : Distinguishes counts key identity xs := by
  induction xs using List.reverseRecOn with
  | nil => exact List.Pairwise.nil
  | append_singleton xs x ih =>
    have distinguishes : Distinguishes counts key identity xs := by
      apply ih
      · intro y there z there'
        exact factors y (List.mem_append_left _ there) z (List.mem_append_left _ there')
      · rintro before y after rfl
        exact decides before y (after ++ [x]) (by simp)
    apply List.pairwise_append.mpr ⟨distinguishes, List.pairwise_singleton .., ?_⟩
    intro y member last final earlier counted same
    rw [List.mem_singleton.mp final] at same counted ⊢
    obtain ⟨z, there, before, equal⟩ := (decides xs x [] rfl counted).mp ⟨y, member, earlier, same⟩
    have keys : key z = key x :=
      factors z (List.mem_append_left _ there) x (List.mem_append_right _ (List.mem_singleton_self x)) equal
    exact (distinguishes.of_mem member there earlier before (same.trans keys.symm)).trans equal

theorem keyDecides_iff (factors : ∀ x ∈ xs, ∀ y ∈ xs, identity x = identity y → key x = key y) :
    KeyDecides counts key identity xs ↔ Distinguishes counts key identity xs :=
  ⟨distinguishes_of_keyDecides factors, keyDecides_of_distinguishes factors⟩

end Kit
