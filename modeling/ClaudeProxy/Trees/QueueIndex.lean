import Mathlib.Data.Finset.Basic
import Mathlib.Data.Finset.Dedup
import ClaudeProxy.Trees.SnapshotQueue

namespace ClaudeProxy.Trees

universe u

inductive QueueOp (α : Type u) where
  | put (item : α)
  | putNowait (item : α)
  | getNowait
  | removeIfPresent (item : α)

namespace SnapshotQueue

variable {α : Type u} [DecidableEq α]

/-- A call of `get_nowait` that raises leaves the queue as it is. -/
def perform (q : SnapshotQueue α) : QueueOp α → SnapshotQueue α
  | .put item => q.put item
  | .putNowait item => q.putNowait item
  | .getNowait => (q.getNowait.map Prod.snd).getD q
  | .removeIfPresent item => (q.removeIfPresent item).2

def after (ops : List (QueueOp α)) : SnapshotQueue α := ops.foldl perform empty

/-- The index says what is queued, and removal can trust it. -/
structure Indexed (q : SnapshotQueue α) : Prop where
  agrees : q.set = q.deque.toFinset
  removes : ∀ item, (q.removeIfPresent item).1 = true ↔ item ∈ q.deque
  gone : ∀ item, item ∉ (q.removeIfPresent item).2.deque
  others : ∀ item, (q.removeIfPresent item).2.deque = q.deque.filter (· ≠ item)

/-- A call does not take an item out that is queued once more. -/
def TakesLast (q : SnapshotQueue α) (op : QueueOp α) : Prop :=
  op = .getNowait → ∀ item rest, q.deque = item :: rest → item ∉ rest

variable {q : SnapshotQueue α}

theorem indexed_iff_agrees : q.Indexed ↔ q.set = q.deque.toFinset := by
  constructor
  · exact Indexed.agrees
  · intro agrees
    have member (item : α) : item ∈ q.set ↔ item ∈ q.deque := by rw [agrees, List.mem_toFinset]
    have left (item : α) : (q.removeIfPresent item).2.deque = q.deque.filter (· ≠ item) := by
      unfold removeIfPresent
      split_ifs with queued
      · rfl
      · symm
        apply List.filter_eq_self.mpr
        intro other mem
        rw [member] at queued
        simpa using fun same : other = item => queued (same ▸ mem)
    refine ⟨agrees, fun item => ?_, fun item => ?_, left⟩
    · unfold removeIfPresent
      split_ifs with queued
      · exact iff_of_true rfl ((member item).mp queued)
      · rw [member] at queued
        exact iff_of_false (by simp) queued
    · simp [left]

/-- A call keeps the index right if and only if it does not take out one of two copies. -/
theorem agrees_perform_iff (agrees : q.set = q.deque.toFinset) (op : QueueOp α) :
    (q.perform op).set = (q.perform op).deque.toFinset ↔ q.TakesLast op := by
  cases op with
  | put item =>
    apply iff_of_true
    · ext other
      rw [perform, put]
      simp only [agrees, Finset.mem_insert, List.mem_toFinset, List.mem_append, List.mem_singleton]
      exact or_comm
    · intro same
      cases same
  | putNowait item =>
    apply iff_of_true
    · ext other
      rw [perform, putNowait]
      simp only [agrees, Finset.mem_insert, List.mem_toFinset, List.mem_append, List.mem_singleton]
      exact or_comm
    · intro same
      cases same
  | getNowait =>
    cases items : q.deque with
    | nil =>
      have nothing : q.getNowait = none := (getNowait_eq_none_iff q).mpr items
      have same : q.perform .getNowait = q := by rw [perform, nothing, Option.map_none, Option.getD_none]
      rw [same]
      refine iff_of_true agrees fun _ item rest head => ?_
      rw [items] at head
      cases head
    | cons item rest =>
      have got : q.perform .getNowait = ⟨rest, q.set.erase item⟩ := by
        simp [perform, getNowait, items]
      have index : q.set = insert item rest.toFinset := by rw [agrees, items, List.toFinset_cons]
      rw [got, index]
      show (insert item rest.toFinset).erase item = rest.toFinset ↔ _
      constructor
      · intro same _ first behind head
        rw [items] at head
        cases head
        have absent := Finset.notMem_erase item (insert item rest.toFinset)
        rw [same, List.mem_toFinset] at absent
        exact absent
      · intro takes
        have absent : item ∉ rest.toFinset := by
          rw [List.mem_toFinset]
          exact takes rfl item rest items
        exact Finset.erase_insert absent
  | removeIfPresent item =>
    apply iff_of_true
    · have left := (indexed_iff_agrees.mpr agrees).others item
      have index : (q.removeIfPresent item).2.set = q.set.erase item := by
        unfold removeIfPresent
        split_ifs with queued
        · rfl
        · exact (Finset.erase_eq_of_notMem queued).symm
      show (q.removeIfPresent item).2.set = (q.removeIfPresent item).2.deque.toFinset
      rw [left, index, agrees]
      ext other
      simp [and_comm]
    · intro same
      cases same

theorem after_concat (ops : List (QueueOp α)) (op : QueueOp α) : after (ops ++ [op]) = (after ops).perform op := by
  rw [after, List.foldl_append]
  rfl

/-- The index is right throughout a run if and only if no call of the run takes out one of two copies. -/
theorem indexed_iff (ops : List (QueueOp α)) :
    (∀ done, done <+: ops → (after done).Indexed) ↔ ∀ done op, done ++ [op] <+: ops → (after done).TakesLast op := by
  constructor
  · intro indexed done op run
    have before := indexed done ((List.prefix_append done [op]).trans run)
    have next := indexed (done ++ [op]) run
    rw [indexed_iff_agrees, after_concat] at next
    exact (agrees_perform_iff before.agrees op).mp next
  · intro takes done run
    induction done using List.reverseRecOn with
    | nil => exact indexed_iff_agrees.mpr rfl
    | append_singleton done op ih =>
      have before := ih ((List.prefix_append done [op]).trans run)
      rw [indexed_iff_agrees, after_concat]
      exact (agrees_perform_iff before.agrees op).mpr (takes done op run)

/-- An item that was put twice and taken once is queued, and `remove_if_present` does not find it. -/
theorem not_indexed :
    ¬ ∀ ops : List (QueueOp (List Char)), (after ops).Indexed := by
  intro indexed
  have removes := (indexed [.put "n1".toList, .put "n1".toList, .getNowait]).removes "n1".toList
  revert removes
  decide

end SnapshotQueue

end ClaudeProxy.Trees
