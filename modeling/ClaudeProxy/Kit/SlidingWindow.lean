import Mathlib.Algebra.Order.Group.Basic
import Mathlib.Data.List.TakeWhile

namespace Kit

/-- At most `limit` grants in any half-open interval of the length. -/
structure SlidingWindow (T : Type) [Zero T] [LT T] where
  limit : Nat
  length : T
  positive : 0 < limit
  wide : 0 < length

namespace SlidingWindow

variable {T : Type} [AddCommGroup T] [LinearOrder T]

def evict (w : SlidingWindow T) (now : T) (times : List T) : List T := times.dropWhile fun t => t ≤ now - w.length

def admits (w : SlidingWindow T) (now : T) (times : List T) : Bool := (w.evict now times).length < w.limit

def grant (w : SlidingWindow T) (now : T) (times : List T) : List T := w.evict now times ++ [now]

def within (w : SlidingWindow T) (start : T) (grants : List T) : Nat :=
  grants.countP fun t => start ≤ t ∧ t < start + w.length

def recent (w : SlidingWindow T) (now : T) (grants : List T) : Nat := grants.countP fun t => now - w.length < t ∧ t ≤ now

def Strict (w : SlidingWindow T) (grants : List T) : Prop := ∀ start, w.within start grants ≤ w.limit

/-- `times` is what is left of all the grants up to now. -/
structure Keeps (w : SlidingWindow T) (now : T) (grants times : List T) : Prop where
  split : ∃ old, grants = old ++ times ∧ ∀ t ∈ old, t ≤ now - w.length
  sorted : grants.Pairwise (· ≤ ·)
  past : ∀ t ∈ grants, t ≤ now
  strict : w.Strict grants

theorem keeps_nil (w : SlidingWindow T) (now : T) : w.Keeps now [] [] :=
  ⟨⟨[], rfl, nofun⟩, List.Pairwise.nil, nofun, fun _ => Nat.zero_le _⟩

omit [AddCommGroup T] in
theorem mem_takeWhile_le {cutoff t : T} {times : List T} (member : t ∈ times.takeWhile fun t => t ≤ cutoff) :
    t ≤ cutoff := by
  have holds := List.mem_takeWhile_imp member
  exact of_decide_eq_true holds

omit [AddCommGroup T] in
theorem mem_dropWhile_lt {cutoff t : T} {times : List T} (sorted : times.Pairwise (· ≤ ·))
    (member : t ∈ times.dropWhile fun t => t ≤ cutoff) : cutoff < t := by
  induction times with
  | nil => cases member
  | cons first rest ih =>
    obtain ⟨least, sorted'⟩ := List.pairwise_cons.mp sorted
    by_cases old : first ≤ cutoff
    · rw [List.dropWhile_cons_of_pos (by exact decide_eq_true old)] at member
      exact ih sorted' member
    · have new : cutoff < first := lt_of_not_ge old
      rw [List.dropWhile_cons_of_neg (by simpa using new)] at member
      rcases List.mem_cons.mp member with rfl | later
      · exact new
      · exact lt_of_lt_of_le new (least t later)

variable {w : SlidingWindow T} {now : T} {grants times : List T}

theorem Keeps.evict (keeps : w.Keeps now grants times) : w.Keeps now grants (w.evict now times) := by
  obtain ⟨old, split, before⟩ := keeps.split
  refine ⟨⟨old ++ times.takeWhile fun t => t ≤ now - w.length, ?_, fun t member => ?_⟩, keeps.sorted, keeps.past,
    keeps.strict⟩
  · rw [split, SlidingWindow.evict, List.append_assoc, List.takeWhile_append_dropWhile]
  · rcases List.mem_append.mp member with earlier | forgotten
    · exact before t earlier
    · exact mem_takeWhile_le forgotten

theorem Keeps.recent_eq (keeps : w.Keeps now grants times) : w.recent now grants = (w.evict now times).length := by
  obtain ⟨old, split, before⟩ := keeps.evict.split
  have sorted : times.Pairwise (· ≤ ·) := by
    obtain ⟨front, whole, -⟩ := keeps.split
    have all := keeps.sorted
    rw [whole] at all
    exact (List.pairwise_append.mp all).2.1
  have none' : old.countP (fun t => now - w.length < t ∧ t ≤ now) = 0 := by
    rw [List.countP_eq_zero]
    intro t member inside
    have both := of_decide_eq_true inside
    exact absurd (before t member) (not_le_of_gt both.1)
  have all : (w.evict now times).countP (fun t => now - w.length < t ∧ t ≤ now) = (w.evict now times).length := by
    rw [List.countP_eq_length]
    intro t member
    have late := mem_dropWhile_lt sorted member
    have past := keeps.past t (split ▸ List.mem_append_right _ member)
    exact decide_eq_true ⟨late, past⟩
  rw [recent, split, List.countP_append, none', all, Nat.zero_add]

theorem admits_iff (keeps : w.Keeps now grants times) : w.admits now times = true ↔ w.recent now grants < w.limit := by
  rw [keeps.recent_eq]
  exact decide_eq_true_iff

variable [IsOrderedAddMonoid T]

theorem Keeps.later {after : T} (keeps : w.Keeps now grants times) (later : now ≤ after) : w.Keeps after grants times := by
  obtain ⟨old, split, before⟩ := keeps.split
  refine ⟨⟨old, split, fun t member => ?_⟩, keeps.sorted, fun t member => (keeps.past t member).trans later, keeps.strict⟩
  have earlier := before t member
  exact earlier.trans (sub_le_sub_right later w.length)

/-- A window that holds the new grant holds only grants of the last window besides. -/
theorem strict_grant (keeps : w.Keeps now grants times) (admits : w.admits now times = true) :
    w.Strict (grants ++ [now]) := by
  intro start
  have before := keeps.strict start
  have few := (admits_iff keeps).mp admits
  unfold within at before ⊢
  rw [List.countP_append, List.countP_singleton]
  by_cases inside : start ≤ now ∧ now < start + w.length
  · have most : grants.countP (fun t => start ≤ t ∧ t < start + w.length) ≤ w.recent now grants := by
      apply List.countP_mono_left
      intro t member here
      have both := of_decide_eq_true here
      have past := keeps.past t member
      have late : now - w.length < start := sub_lt_iff_lt_add.mpr inside.2
      exact decide_eq_true ⟨lt_of_lt_of_le late both.1, past⟩
    rw [if_pos (decide_eq_true inside)]
    omega
  · rw [if_neg (by simpa using inside)]
    omega

theorem Keeps.grant (keeps : w.Keeps now grants times) (admits : w.admits now times = true) :
    w.Keeps now (grants ++ [now]) (w.grant now times) := by
  have strict := strict_grant keeps admits
  obtain ⟨old, split, before⟩ := keeps.evict.split
  refine ⟨⟨old, ?_, before⟩, ?_, fun t member => ?_, strict⟩
  · rw [SlidingWindow.grant, split, List.append_assoc]
  · refine List.pairwise_append.mpr ⟨keeps.sorted, List.pairwise_singleton .., fun t member last final => ?_⟩
    rw [List.mem_singleton.mp final]
    exact keeps.past t member
  · rcases List.mem_append.mp member with earlier | final
    · exact keeps.past t earlier
    · exact (List.mem_singleton.mp final).le

end SlidingWindow

end Kit
