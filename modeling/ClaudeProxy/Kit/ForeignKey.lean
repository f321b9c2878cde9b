import ClaudeProxy.Kit.Dict

namespace Kit

universe u v w

/-- A table and one that references it with `ON DELETE CASCADE`, by primary key. No row of the second
    dangles. -/
structure Tables (κ : Type u) (ι : Type v) (ν : Type w) [DecidableEq κ] [DecidableEq ι] where
  parents : Dict κ ν
  children : Dict ι κ
  references : ∀ i k, children.get? i = some k → (parents.get? k).isSome = true

/-- The statements for the two tables; an upsert is `INSERT ... ON CONFLICT DO UPDATE`. -/
inductive Statement (κ : Type u) (ι : Type v) (ν : Type w) where
  | insertParent (k : κ) (row : ν)
  | upsertParent (k : κ) (row : ν)
  | upsertChild (i : ι) (k : κ)
  | deleteParent (k : κ)
  | deleteChildrenOf (k : κ)
  | deleteChildren (is : List ι)
  | truncateChildren
  | truncateParents

namespace Tables

variable {κ : Type u} {ι : Type v} {ν : Type w} [DecidableEq κ] [DecidableEq ι]

def empty : Tables κ ι ν := ⟨.empty, .empty, fun i _ refers => nomatch (Dict.get?_empty i).symm.trans refers⟩

def upsertParent (t : Tables κ ι ν) (k : κ) (row : ν) : Tables κ ι ν where
  parents := t.parents.set k row
  children := t.children
  references i key refers := by
    rw [Dict.get?_set]
    split
    · rfl
    · exact t.references i key refers

def upsertChild (t : Tables κ ι ν) (i : ι) (k : κ) (there : (t.parents.get? k).isSome = true) : Tables κ ι ν where
  parents := t.parents
  children := t.children.set i k
  references child key refers := by
    rw [Dict.get?_set] at refers
    split at refers
    · cases refers
      exact there
    · exact t.references child key refers

/-- Keep the children that the test accepts. -/
def keepChildren (t : Tables κ ι ν) (keep : ι → κ → Bool) : Tables κ ι ν where
  parents := t.parents
  children := t.children.filter keep
  references i k refers := by
    rw [Dict.get?_filter] at refers
    exact t.references i k (Option.filter_eq_some_iff.mp refers).1

def deleteParent (t : Tables κ ι ν) (k : κ) : Tables κ ι ν where
  parents := t.parents.erase k
  children := t.children.filter fun _ key => key ≠ k
  references i key refers := by
    rw [Dict.get?_filter] at refers
    obtain ⟨found, other⟩ := Option.filter_eq_some_iff.mp refers
    rw [Dict.get?_erase, if_neg (of_decide_eq_true other)]
    exact t.references i key found

/-- `none` where the statement is rejected: a duplicate key, a missing parent, or `TRUNCATE` of the
    referenced table alone. -/
def exec (t : Tables κ ι ν) : Statement κ ι ν → Option (Tables κ ι ν)
  | .insertParent k row => if t.parents.contains k then none else some (t.upsertParent k row)
  | .upsertParent k row => some (t.upsertParent k row)
  | .upsertChild i k => if there : (t.parents.get? k).isSome = true then some (t.upsertChild i k there) else none
  | .deleteParent k => some (t.deleteParent k)
  | .deleteChildrenOf k => some (t.keepChildren fun _ key => key ≠ k)
  | .deleteChildren is => some (t.keepChildren fun i _ => i ∉ is)
  | .truncateChildren => some (t.keepChildren fun _ _ => false)
  | .truncateParents => none

/-- The statements one by one with autocommit: what was done before a rejected one stays done. The
    second component tells whether all of them were accepted. -/
def script (t : Tables κ ι ν) : List (Statement κ ι ν) → Tables κ ι ν × Bool
  | [] => (t, true)
  | statement :: rest =>
    match t.exec statement with
    | none => (t, false)
    | some next => next.script rest

theorem script_cons {t next : Tables κ ι ν} {statement : Statement κ ι ν} (accepted : t.exec statement = some next)
    (rest : List (Statement κ ι ν)) : t.script (statement :: rest) = next.script rest := by
  rw [script, accepted]

theorem script_rejected {t : Tables κ ι ν} {statement : Statement κ ι ν} (rejected : t.exec statement = none)
    (rest : List (Statement κ ι ν)) : t.script (statement :: rest) = (t, false) := by
  rw [script, rejected]

theorem script_upsertChildren (t : Tables κ ι ν) (is : List ι) {k : κ} (there : (t.parents.get? k).isSome = true) :
    (t.script (is.map fun i => .upsertChild i k)).2 = true ∧
      (t.script (is.map fun i => .upsertChild i k)).1.parents = t.parents ∧
      ∀ i, (t.script (is.map fun i => .upsertChild i k)).1.children.get? i =
        if i ∈ is then some k else t.children.get? i := by
  induction is generalizing t with
  | nil => simp [script]
  | cons i rest ih =>
    have accepted : t.exec (.upsertChild i k) = some (t.upsertChild i k there) := by rw [exec, dif_pos there]
    rw [List.map_cons, script_cons accepted]
    obtain ⟨ok, parents, children⟩ := ih (t.upsertChild i k there) there
    refine ⟨ok, parents, fun other => ?_⟩
    rw [children]
    by_cases later : other ∈ rest
    · simp [later]
    · by_cases here : other = i
      · simp [here, upsertChild]
      · simp [later, here, upsertChild, Dict.get?_set]

end Tables

end Kit
