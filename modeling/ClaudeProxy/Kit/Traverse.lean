namespace Kit

variable {α β : Type}

theorem mapM_isSome (f : α → Option β) (items : List α) : (items.mapM f).isSome ↔ ∀ item ∈ items, (f item).isSome := by
  induction items with
  | nil => simp
  | cons item rest ih =>
    rw [List.forall_mem_cons, ← ih, List.mapM_cons]
    cases f item with
    | none => simp
    | some first => cases rest.mapM f <;> simp

theorem mapM_cons_some {f : α → Option β} {item : α} {items : List α} {results : List β}
    (all : (item :: items).mapM f = some results) :
    ∃ first more, f item = some first ∧ items.mapM f = some more ∧ results = first :: more := by
  rw [List.mapM_cons] at all
  cases one : f item with
  | none =>
    rw [one] at all
    cases all
  | some first =>
    rw [one] at all
    cases rest : items.mapM f with
    | none =>
      rw [rest] at all
      cases all
    | some more =>
      rw [rest] at all
      cases all
      exact ⟨first, more, rfl, rfl, rfl⟩

theorem filterMap_of_mapM {f : α → Option β} {items : List α} {results : List β} (all : items.mapM f = some results) :
    items.filterMap f = results := by
  induction items generalizing results with
  | nil =>
    cases all
    rfl
  | cons item items ih =>
    rcases mapM_cons_some all with ⟨first, more, one, rest, rfl⟩
    rw [List.filterMap_cons_some one, ih rest]

theorem mapM_append_some {f : α → Option β} {before after : List α} {results : List β}
    (all : (before ++ after).mapM f = some results) :
    ∃ one two, before.mapM f = some one ∧ after.mapM f = some two ∧ results = one ++ two := by
  induction before generalizing results with
  | nil => exact ⟨[], results, rfl, all, rfl⟩
  | cons item before ih =>
    rcases mapM_cons_some all with ⟨first, more, here, rest, rfl⟩
    rcases ih rest with ⟨one, two, left, right, rfl⟩
    refine ⟨first :: one, two, ?_, right, rfl⟩
    rw [List.mapM_cons, here, left]
    rfl

end Kit
