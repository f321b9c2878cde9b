import Mathlib.Data.List.Perm.Basic

namespace Kit

/-- What an item of a log means: it makes calls, it answers one call, or it is neither. -/
inductive Exchange (ι : Type) where
  | call (ids : List ι)
  | answer (id : ι)
  | other

namespace Exchange

variable {α ι : Type} [DecidableEq ι]

/-- Calls are answered at once, each exactly once, and nothing else is answered. -/
def Settled (kind : α → Exchange ι) : List ι → List α → Prop
  | pending, [] => pending = []
  | pending, item :: rest =>
    match kind item with
    | .answer id => id ∈ pending ∧ Settled kind (pending.erase id) rest
    | .call ids => pending = [] ∧ ids.Nodup ∧ Settled kind ids rest
    | .other => pending = [] ∧ Settled kind [] rest

variable {kind : α → Exchange ι} {pending : List ι} {item : α} {log : List α}

theorem settled_answer {id : ι} (is : kind item = .answer id) :
    Settled kind pending (item :: log) ↔ id ∈ pending ∧ Settled kind (pending.erase id) log := by
  rw [Settled, is]

theorem settled_call {ids : List ι} (is : kind item = .call ids) :
    Settled kind pending (item :: log) ↔ pending = [] ∧ ids.Nodup ∧ Settled kind ids log := by
  rw [Settled, is]

theorem settled_other (is : kind item = .other) :
    Settled kind pending (item :: log) ↔ pending = [] ∧ Settled kind [] log := by
  rw [Settled, is]

theorem settled_answers {ids : List ι} {answers : List α} (are : answers.map kind = ids.map .answer)
    (perm : ids.Perm pending) (log : List α) : Settled kind [] log → Settled kind pending (answers ++ log) := by
  intro settled
  induction ids generalizing answers pending with
  | nil =>
    rw [List.map_nil, List.map_eq_nil_iff] at are
    rw [are, List.nil_perm.mp perm]
    exact settled
  | cons id ids ih =>
    cases answers with
    | nil => cases are
    | cons answer answers =>
      rw [List.map_cons, List.map_cons, List.cons.injEq] at are
      have member : id ∈ pending := perm.mem_iff.mp List.mem_cons_self
      have rest : ids.Perm (pending.erase id) := by
        have erased := perm.erase id
        rwa [List.erase_cons_head] at erased
      exact (settled_answer are.1).mpr ⟨member, ih are.2 rest⟩

theorem settled_others {others : List α} (are : ∀ item ∈ others, kind item = .other) (settled : Settled kind [] log) :
    Settled kind [] (others ++ log) := by
  induction others with
  | nil => exact settled
  | cons item others ih =>
    have rest := ih fun other member => are other (List.mem_cons_of_mem _ member)
    exact (settled_other (are item List.mem_cons_self)).mpr ⟨rfl, rest⟩

theorem Settled.suffix {before : List α} (settled : Settled kind pending (before ++ log)) :
    ∃ pending', Settled kind pending' log := by
  induction before generalizing pending with
  | nil => exact ⟨pending, settled⟩
  | cons item before ih =>
    cases is : kind item with
    | call ids => exact ih ((settled_call is).mp settled).2.2
    | answer id => exact ih ((settled_answer is).mp settled).2
    | other => exact ih ((settled_other is).mp settled).2

theorem Settled.answers (settled : Settled kind pending log) : ∃ (answers rest : List α) (ids : List ι),
    log = answers ++ rest ∧ answers.map kind = ids.map .answer ∧ ids.Perm pending ∧ Settled kind [] rest := by
  induction log generalizing pending with
  | nil => exact ⟨[], [], [], rfl, rfl, by rw [show pending = [] from settled], rfl⟩
  | cons item log ih =>
    cases is : kind item with
    | answer id =>
      have step := (settled_answer is).mp settled
      rcases ih step.2 with ⟨answers, rest, ids, rfl, are, perm, after⟩
      refine ⟨item :: answers, rest, id :: ids, rfl, ?_, ?_, after⟩
      · rw [List.map_cons, List.map_cons, is, are]
      · exact (perm.cons id).trans (List.perm_cons_erase step.1).symm
    | call ids =>
      have none' := ((settled_call is).mp settled).1
      subst none'
      exact ⟨[], item :: log, [], rfl, rfl, List.Perm.nil, settled⟩
    | other =>
      have none' := ((settled_other is).mp settled).1
      subst none'
      exact ⟨[], item :: log, [], rfl, rfl, List.Perm.nil, settled⟩

/-- Calls are followed by their answers, one for each, and by no further answer. -/
theorem Settled.after {before after : List α} {ids : List ι} (settled : Settled kind pending (before ++ item :: after))
    (is : kind item = .call ids) : ids.Nodup ∧ ∃ (answers rest : List α) (answered : List ι), after = answers ++ rest ∧
      answers.map kind = answered.map .answer ∧ answered.Perm ids ∧ ∀ next ∈ rest.head?, ∀ id, kind next ≠ .answer id := by
  rcases settled.suffix with ⟨pending', here⟩
  have step := (settled_call is).mp here
  rcases step.2.2.answers with ⟨answers, rest, answered, split, are, perm, quiet⟩
  refine ⟨step.2.1, answers, rest, answered, split, are, perm, ?_⟩
  intro next first id answer
  cases rest with
  | nil => cases first
  | cons head rest =>
    cases first
    exact List.not_mem_nil ((settled_answer answer).mp quiet).1

/-- An answer belongs to what was pending at the start or to a call with nothing but answers in between. -/
theorem Settled.caller {before after : List α} {id : ι} (settled : Settled kind pending (before ++ item :: after))
    (is : kind item = .answer id) :
    (id ∈ pending ∧ ∀ other ∈ before, ∃ i, kind other = .answer i) ∨
    ∃ earlier caller ids between, before = earlier ++ caller :: between ∧ kind caller = .call ids ∧ id ∈ ids ∧
      ∀ other ∈ between, ∃ i, kind other = .answer i := by
  induction before generalizing pending with
  | nil => exact Or.inl ⟨((settled_answer is).mp settled).1, by simp⟩
  | cons head before ih =>
    have extend {left : List ι} (found : ∃ earlier caller ids between, before = earlier ++ caller :: between ∧
        kind caller = .call ids ∧ id ∈ ids ∧ ∀ other ∈ between, ∃ i, kind other = .answer i) :
        (id ∈ left ∧ ∀ other ∈ head :: before, ∃ i, kind other = .answer i) ∨
        ∃ earlier caller ids between, head :: before = earlier ++ caller :: between ∧
          kind caller = .call ids ∧ id ∈ ids ∧ ∀ other ∈ between, ∃ i, kind other = .answer i := by
      rcases found with ⟨earlier, caller, ids, between, rfl, called, member, answers⟩
      exact Or.inr ⟨head :: earlier, caller, ids, between, rfl, called, member, answers⟩
    cases kindOf : kind head with
    | answer j =>
      rcases ih ((settled_answer kindOf).mp settled).2 with here | earlier
      · refine Or.inl ⟨List.mem_of_mem_erase here.1, ?_⟩
        intro other member
        rcases List.mem_cons.mp member with rfl | later
        · exact ⟨j, kindOf⟩
        · exact here.2 other later
      · exact extend earlier
    | call ids =>
      rcases ih ((settled_call kindOf).mp settled).2.2 with here | earlier
      · exact Or.inr ⟨[], head, ids, before, rfl, kindOf, here.1, here.2⟩
      · exact extend earlier
    | other =>
      rcases ih ((settled_other kindOf).mp settled).2 with here | earlier
      · exact absurd here.1 List.not_mem_nil
      · exact extend earlier

end Exchange

end Kit
