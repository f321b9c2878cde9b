import Mathlib.Data.List.Nodup

namespace Kit

universe u v

variable {α : Type u} {β : Type v}

/-- A task among others, and the list after it has run on. -/
theorem split_set {tasks : List α} {number : Nat} {task : α} (found : tasks[number]? = some task) (next : α) :
    ∃ front back, tasks = front ++ task :: back ∧ tasks.set number next = front ++ next :: back := by
  obtain ⟨bound, rfl⟩ := List.getElem?_eq_some_iff.mp found
  refine ⟨tasks.take number, tasks.drop (number + 1), ?_, ?_⟩
  · rw [List.getElem_cons_drop, List.take_append_drop]
  · rw [List.set_eq_take_append_cons_drop, if_pos bound]

theorem mem_set {tasks : List α} {number : Nat} {task next other : α} (found : tasks[number]? = some task)
    (mem : other ∈ tasks.set number next) : other = next ∨ other ∈ tasks := by
  obtain ⟨front, back, rfl, after⟩ := split_set found next
  rw [after] at mem
  simp only [List.mem_append, List.mem_cons] at mem ⊢
  tauto

/-- What is read off each task stays if it stays for the one that runs on. -/
theorem filterMap_set {f : α → Option β} {tasks : List α} {number : Nat} {task next : α}
    (found : tasks[number]? = some task) (same : f next = f task) : (tasks.set number next).filterMap f = tasks.filterMap f := by
  obtain ⟨front, back, before, after⟩ := split_set found next
  rw [before] at after ⊢
  rw [after, List.filterMap_append, List.filterMap_append, List.filterMap_cons, List.filterMap_cons, same]

theorem flatMap_set {f : α → List β} {tasks : List α} {number : Nat} {task next : α}
    (found : tasks[number]? = some task) (same : f next = f task) : (tasks.set number next).flatMap f = tasks.flatMap f := by
  obtain ⟨front, back, before, after⟩ := split_set found next
  rw [before] at after ⊢
  rw [after, List.flatMap_append, List.flatMap_append, List.flatMap_cons, List.flatMap_cons, same]

/-- One task gives something that it did not give before. -/
theorem mem_filterMap_set {f : α → Option β} {tasks : List α} {number : Nat} {task next : α} {fresh : β}
    (found : tasks[number]? = some task) (silent : f task = none) (gives : f next = some fresh) (b : β) :
    b ∈ (tasks.set number next).filterMap f ↔ b = fresh ∨ b ∈ tasks.filterMap f := by
  obtain ⟨front, back, before, after⟩ := split_set found next
  rw [before] at after ⊢
  rw [after, List.filterMap_append, List.filterMap_append, List.filterMap_cons, List.filterMap_cons, silent, gives]
  simp only [List.mem_append, List.mem_cons]
  tauto

/-- One task has got something new. -/
theorem flatMap_set_perm {f : α → List β} {tasks : List α} {number : Nat} {task next : α} {fresh : List β}
    (found : tasks[number]? = some task) (grown : f next = f task ++ fresh) :
    ((tasks.set number next).flatMap f).Perm (fresh ++ tasks.flatMap f) := by
  obtain ⟨front, back, before, after⟩ := split_set found next
  rw [before] at after ⊢
  rw [after, List.flatMap_append, List.flatMap_append, List.flatMap_cons, List.flatMap_cons, grown]
  have moved : (f task ++ fresh ++ back.flatMap f).Perm (fresh ++ (f task ++ back.flatMap f)) := by
    rw [← List.append_assoc fresh]
    exact (List.perm_append_comm).append_right _
  have inner := moved.append_left (front.flatMap f)
  refine inner.trans ?_
  rw [← List.append_assoc, ← List.append_assoc fresh]
  exact (List.perm_append_comm).append_right _

end Kit
