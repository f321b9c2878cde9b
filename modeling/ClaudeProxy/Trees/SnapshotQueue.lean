import Mathlib.Data.Finset.Insert
import Mathlib.Data.Finset.Erase

namespace ClaudeProxy.Trees

universe u

/-- A FIFO queue backed by a deque and a set index. The two agree only while no item is queued
    twice, so their agreement is not part of the type. -/
structure SnapshotQueue (α : Type u) where
  deque : List α
  set : Finset α
deriving DecidableEq

namespace SnapshotQueue

variable {α : Type u}

def empty : SnapshotQueue α := ⟨[], ∅⟩

variable [DecidableEq α]

def put (q : SnapshotQueue α) (item : α) : SnapshotQueue α :=
  ⟨q.deque ++ [item], insert item q.set⟩

def putNowait (q : SnapshotQueue α) (item : α) : SnapshotQueue α :=
  ⟨q.deque ++ [item], insert item q.set⟩

/-- `none` stands for `asyncio.QueueEmpty`. -/
def getNowait (q : SnapshotQueue α) : Option (α × SnapshotQueue α) :=
  match q.deque with
  | [] => none
  | item :: rest => some (item, ⟨rest, q.set.erase item⟩)

def qsize (q : SnapshotQueue α) : Nat := q.deque.length

def removeIfPresent (q : SnapshotQueue α) (item : α) : Bool × SnapshotQueue α :=
  if item ∉ q.set then (false, q)
  else (true, ⟨q.deque.filter (· ≠ item), q.set.erase item⟩)

@[simp] theorem deque_putNowait (q : SnapshotQueue α) (item : α) :
    (q.putNowait item).deque = q.deque ++ [item] := rfl

theorem getNowait_eq_none_iff (q : SnapshotQueue α) : q.getNowait = none ↔ q.deque = [] := by
  unfold getNowait
  split <;> simp_all

theorem getNowait_eq_some {q next : SnapshotQueue α} {item : α} (got : q.getNowait = some (item, next)) :
    q.deque = item :: next.deque := by
  unfold getNowait at got
  split at got
  · cases got
  · rename_i first rest items
    cases got
    exact items

theorem deque_removeIfPresent (q : SnapshotQueue α) (item : α) :
    (q.removeIfPresent item).2.deque = q.deque ∨
      (q.removeIfPresent item).2.deque = q.deque.filter (· ≠ item) := by
  unfold removeIfPresent
  split
  · exact .inl rfl
  · exact .inr rfl

theorem removeIfPresent_sublist (q : SnapshotQueue α) (item : α) :
    List.Sublist (q.removeIfPresent item).2.deque q.deque := by
  rcases deque_removeIfPresent q item with kept | filtered
  · rw [kept]
  · rw [filtered]
    exact List.filter_sublist

/-- Whatever the index says, only the item itself can leave the deque. -/
theorem mem_removeIfPresent_of_ne {q : SnapshotQueue α} {item other : α} (ne : other ≠ item)
    (queued : other ∈ q.deque) : other ∈ (q.removeIfPresent item).2.deque := by
  rcases deque_removeIfPresent q item with kept | filtered
  · rw [kept]
    exact queued
  · rw [filtered, List.mem_filter]
    exact ⟨queued, by simpa using ne⟩

end SnapshotQueue

end ClaudeProxy.Trees
