import Mathlib.Data.List.Basic

namespace Kit

universe u

/-- A queue that drops its oldest element when it is full, told by its history. What left it stands with its number. -/
structure Backlog (α : Type u) where
  offered : List α
  taken : List (Nat × α)
  dropped : List (Nat × α)

namespace Backlog

variable {α : Type u}

def empty : Backlog α := ⟨[], [], []⟩

def gone (b : Backlog α) : Nat := b.taken.length + b.dropped.length

def queue (b : Backlog α) : List α := b.offered.drop b.gone

def take (b : Backlog α) : Backlog α :=
  match b.queue with
  | [] => b
  | a :: _ => { b with taken := b.taken ++ [(b.gone, a)] }

def dropOldest (b : Backlog α) : Backlog α :=
  match b.queue with
  | [] => b
  | a :: _ => { b with dropped := b.dropped ++ [(b.gone, a)] }

def push (b : Backlog α) (a : α) : Backlog α := { b with offered := b.offered ++ [a] }

def offer (capacity : Nat) (b : Backlog α) (a : α) : Backlog α :=
  if b.queue.length < capacity then b.push a else b.dropOldest.push a

/-- One is dropped only for the one that comes as many places later as the queue holds. -/
structure Kept (capacity : Nat) (b : Backlog α) : Prop where
  within : b.gone ≤ b.offered.length
  short : b.queue.length ≤ capacity
  numbered : ∀ entry ∈ b.taken, entry.1 < b.gone ∧ b.offered[entry.1]? = some entry.2
  increasing : b.taken.Pairwise fun first second => first.1 < second.1
  accounted : ∀ i < b.gone, i ∈ b.taken.map Prod.fst ∨ i ∈ b.dropped.map Prod.fst
  late : ∀ entry ∈ b.dropped, entry.1 + capacity < b.offered.length

variable {b : Backlog α} {capacity : Nat}

theorem kept_empty : Kept capacity (empty : Backlog α) where
  within := Nat.le_refl 0
  short := Nat.zero_le capacity
  numbered _ mem := absurd mem List.not_mem_nil
  increasing := .nil
  accounted i less := absurd less (Nat.not_lt_zero i)
  late _ mem := absurd mem List.not_mem_nil

/-- The oldest element of the queue is the one whose turn it is. -/
theorem head_queue {a : α} {rest : List α} (items : b.queue = a :: rest) :
    b.offered[b.gone]? = some a ∧ b.gone < b.offered.length := by
  have head : b.queue[0]? = some a := by rw [items]; rfl
  rw [queue, List.getElem?_drop, Nat.add_zero] at head
  exact ⟨head, (List.getElem?_eq_some_iff.mp head).1⟩

theorem queue_next {a : α} {rest : List α} (items : b.queue = a :: rest) : b.offered.drop (b.gone + 1) = rest := by
  rw [← List.drop_drop]
  show List.drop 1 b.queue = rest
  rw [items]
  rfl

theorem queue_take (b : Backlog α) : b.take.queue = b.queue.tail := by
  unfold take
  cases items : b.queue with
  | nil => exact items
  | cons a rest =>
    show b.offered.drop ((b.taken ++ [(b.gone, a)]).length + b.dropped.length) = rest
    rw [List.length_append, List.length_singleton, Nat.add_right_comm]
    exact queue_next items

theorem queue_dropOldest (b : Backlog α) : b.dropOldest.queue = b.queue.tail := by
  unfold dropOldest
  cases items : b.queue with
  | nil => exact items
  | cons a rest =>
    show b.offered.drop (b.taken.length + (b.dropped ++ [(b.gone, a)]).length) = rest
    rw [List.length_append, List.length_singleton, ← Nat.add_assoc]
    exact queue_next items

theorem queue_push (within : b.gone ≤ b.offered.length) (a : α) : (b.push a).queue = b.queue ++ [a] :=
  List.drop_append_of_le_length within

theorem offered_offer (a : α) : (b.offer capacity a).offered = b.offered ++ [a] := by
  unfold offer
  split_ifs
  · rfl
  · show b.dropOldest.offered ++ [a] = b.offered ++ [a]
    unfold dropOldest
    cases b.queue <;> rfl

theorem taken_offer (a : α) : (b.offer capacity a).taken = b.taken := by
  unfold offer
  split_ifs
  · rfl
  · show b.dropOldest.taken = b.taken
    unfold dropOldest
    cases b.queue <;> rfl

theorem taken_take {a : α} {rest : List α} (items : b.queue = a :: rest) : b.take.taken = b.taken ++ [(b.gone, a)] := by
  rw [take, items]

theorem offered_take (b : Backlog α) : b.take.offered = b.offered := by
  unfold take
  cases b.queue <;> rfl

theorem Kept.named_push (kept : Kept capacity b) (a : α) {entry : Nat × α} (mem : entry ∈ b.taken) :
    (b.offered ++ [a])[entry.1]? = some entry.2 := by
  have less : entry.1 < b.offered.length := Nat.lt_of_lt_of_le (kept.numbered entry mem).1 kept.within
  rw [List.getElem?_append_left less]
  exact (kept.numbered entry mem).2

theorem kept_take (kept : Kept capacity b) : Kept capacity b.take := by
  cases items : b.queue with
  | nil =>
    rw [take, items]
    exact kept
  | cons a rest =>
    have shorter : b.take.queue.length ≤ b.queue.length := by
      rw [queue_take, List.length_tail]
      exact Nat.sub_le ..
    have more : b.take.gone = b.gone + 1 := by
      rw [gone, taken_take items, take, items, gone, List.length_append, List.length_singleton]
      exact Nat.add_right_comm ..
    rcases head_queue items with ⟨named, less⟩
    constructor
    · rw [more, offered_take]
      exact less
    · exact Nat.le_trans shorter kept.short
    · intro entry mem
      rw [taken_take items] at mem
      rw [more, offered_take]
      rcases List.mem_append.mp mem with old | new
      · rcases kept.numbered entry old with ⟨before, found⟩
        exact ⟨Nat.lt_succ_of_lt before, found⟩
      · rw [List.mem_singleton.mp new]
        exact ⟨Nat.lt_succ_self _, named⟩
    · rw [taken_take items, List.pairwise_append]
      refine ⟨kept.increasing, List.pairwise_singleton .., ?_⟩
      intro first mem second last
      rw [List.mem_singleton.mp last]
      exact (kept.numbered first mem).1
    · intro i before
      rw [more] at before
      rw [taken_take items, List.map_append, List.mem_append, take, items]
      rcases Nat.lt_succ_iff_lt_or_eq.mp before with old | rfl
      · rcases kept.accounted i old with there | lost
        · exact .inl (.inl there)
        · exact .inr lost
      · exact .inl (.inr List.mem_cons_self)
    · intro entry mem
      rw [take, items] at mem ⊢
      exact kept.late entry mem

theorem kept_push (kept : Kept capacity b) (room : b.queue.length < capacity) (a : α) : Kept capacity (b.push a) := by
  have longer : (b.push a).offered.length = b.offered.length + 1 := List.length_append
  constructor
  · rw [longer]
    exact Nat.le_succ_of_le kept.within
  · rw [queue_push kept.within, List.length_append]
    exact room
  · intro entry mem
    exact ⟨(kept.numbered entry mem).1, kept.named_push a mem⟩
  · exact kept.increasing
  · exact kept.accounted
  · intro entry mem
    rw [longer]
    exact Nat.lt_succ_of_lt (kept.late entry mem)

/-- The element that makes room has as many after it as the queue holds, the new one among them. -/
theorem kept_drop_push (kept : Kept capacity b) (full : capacity ≤ b.queue.length) (positive : 0 < capacity) (a : α) :
    Kept capacity (b.dropOldest.push a) := by
  cases items : b.queue with
  | nil =>
    rw [items] at full
    exact absurd positive (Nat.not_lt.mpr full)
  | cons first rest =>
    have left : b.dropOldest = { b with dropped := b.dropped ++ [(b.gone, first)] } := by rw [dropOldest, items]
    have more : (b.dropOldest.push a).gone = b.gone + 1 := by
      rw [left, gone, push, List.length_append, gone]
      exact (Nat.add_assoc ..).symm
    have longer : (b.dropOldest.push a).offered.length = b.offered.length + 1 := by
      rw [left]
      exact List.length_append
    have places : b.offered.length = b.gone + capacity := by
      have holds : b.queue.length = b.offered.length - b.gone := List.length_drop
      have within := kept.within
      have short := kept.short
      omega
    have taken : (b.dropOldest.push a).taken = b.taken := by rw [left]; rfl
    have offered : (b.dropOldest.push a).offered = b.offered ++ [a] := by rw [left]; rfl
    have dropped : (b.dropOldest.push a).dropped = b.dropped ++ [(b.gone, first)] := by rw [left]; rfl
    constructor
    · rw [more, longer]
      exact Nat.succ_le_succ kept.within
    · have holds : (b.dropOldest.push a).queue.length = (b.dropOldest.push a).offered.length - (b.dropOldest.push a).gone :=
        List.length_drop
      omega
    · intro entry mem
      rw [taken] at mem
      rw [more, offered]
      exact ⟨Nat.lt_succ_of_lt (kept.numbered entry mem).1, kept.named_push a mem⟩
    · rw [taken]
      exact kept.increasing
    · intro i before
      rw [more] at before
      rw [taken, dropped, List.map_append, List.mem_append]
      rcases Nat.lt_succ_iff_lt_or_eq.mp before with old | rfl
      · rcases kept.accounted i old with there | lost
        · exact .inl there
        · exact .inr (.inl lost)
      · exact .inr (.inr List.mem_cons_self)
    · intro entry mem
      rw [dropped, List.mem_append] at mem
      rw [longer]
      rcases mem with old | new
      · exact Nat.lt_succ_of_lt (kept.late entry old)
      · rw [List.mem_singleton.mp new]
        show b.gone + capacity < b.offered.length + 1
        omega

theorem kept_offer (kept : Kept capacity b) (positive : 0 < capacity) (a : α) : Kept capacity (b.offer capacity a) := by
  unfold offer
  split_ifs with room
  · exact kept_push kept room a
  · exact kept_drop_push kept (Nat.not_lt.mp room) positive a

theorem queue_offer (kept : Kept capacity b) (a : α) :
    (b.offer capacity a).queue = if b.queue.length < capacity then b.queue ++ [a] else b.queue.tail ++ [a] := by
  unfold offer
  split_ifs with room
  · exact queue_push kept.within a
  · have within : b.dropOldest.gone ≤ b.dropOldest.offered.length := by
      unfold dropOldest
      cases items : b.queue with
      | nil => exact kept.within
      | cons first rest =>
        show b.taken.length + (b.dropped ++ [(b.gone, first)]).length ≤ b.offered.length
        rw [List.length_append, ← Nat.add_assoc]
        exact (head_queue items).2
    rw [queue_push within, queue_dropOldest]

theorem sublist_of_numbered {items : List α} {entries : List (Nat × α)} {n : Nat}
    (from_n : ∀ entry ∈ entries, n ≤ entry.1) (named : ∀ entry ∈ entries, items[entry.1]? = some entry.2)
    (rising : entries.Pairwise fun first second => first.1 < second.1) :
    (entries.map Prod.snd).Sublist (items.drop n) := by
  induction entries generalizing n with
  | nil => exact List.nil_sublist _
  | cons entry rest ih =>
    rcases List.pairwise_cons.mp rising with ⟨below, later⟩
    rcases List.getElem?_eq_some_iff.mp (named entry List.mem_cons_self) with ⟨less, found⟩
    have others := ih below (fun other mem => named other (List.mem_cons_of_mem entry mem)) later
    have head : items.drop entry.1 = entry.2 :: items.drop (entry.1 + 1) := by
      rw [List.drop_eq_getElem_cons less, found]
    have first : ((entry :: rest).map Prod.snd).Sublist (items.drop entry.1) := by
      rw [head]
      exact others.cons_cons entry.2
    exact first.trans (List.drop_sublist_drop_left items (from_n entry List.mem_cons_self))

theorem Kept.taken_sublist (kept : Kept capacity b) : (b.taken.map Prod.snd).Sublist b.offered :=
  sublist_of_numbered (fun entry _ => Nat.zero_le entry.1) (fun entry mem => (kept.numbered entry mem).2) kept.increasing

/-- As long as nothing is dropped, all that came is taken or waits. -/
theorem Kept.whole (kept : Kept capacity b) (none : b.dropped = []) : b.taken.map Prod.snd ++ b.queue = b.offered := by
  have gone : b.gone = b.taken.length := by rw [Backlog.gone, none]; rfl
  have inside : ∀ entry ∈ b.taken, (b.offered.take b.gone)[entry.1]? = some entry.2 := fun entry mem => by
    rw [List.getElem?_take_of_lt (kept.numbered entry mem).1]
    exact (kept.numbered entry mem).2
  have part := sublist_of_numbered (fun entry _ => Nat.zero_le entry.1) inside kept.increasing
  have all : b.taken.map Prod.snd = b.offered.take b.gone := by
    refine part.eq_of_length ?_
    rw [List.length_map, List.drop_zero, List.length_take_of_le kept.within, gone]
  rw [all]
  exact List.take_append_drop _ _

/-- What is neither taken nor waiting has been dropped for a later element. -/
theorem Kept.late_of_lost (kept : Kept capacity b) {i : Nat} (before : i < b.gone) (lost : i ∉ b.taken.map Prod.fst) :
    i + capacity < b.offered.length := by
  rcases (kept.accounted i before).resolve_left lost |> List.mem_map.mp with ⟨entry, mem, rfl⟩
  exact kept.late entry mem

end Backlog

end Kit
