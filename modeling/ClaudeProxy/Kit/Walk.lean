import Mathlib.Algebra.GroupWithZero.Nat
import Mathlib.Logic.Relation
import Mathlib.Data.List.Nodup

namespace Kit.Walk

universe u

variable {κ : Type u}

/-- A depth-first loop that keeps its stack with the top first. `none`: the rounds are used up before the stack is empty. -/
def visit (children : κ → List κ) : Nat → List κ → Option (List κ)
  | _, [] => some []
  | 0, _ :: _ => none
  | rounds + 1, node :: stack => (visit children rounds ((children node).reverse ++ stack)).map (node :: ·)

abbrev Child (children : κ → List κ) (node child : κ) : Prop := child ∈ children node

abbrev Below (children : κ → List κ) : κ → κ → Prop := Relation.ReflTransGen (Child children)

variable {children : κ → List κ}

theorem visit_eq_some {rounds : Nat} {node : κ} {stack visited : List κ}
    (ended : visit children (rounds + 1) (node :: stack) = some visited) :
    ∃ rest, visit children rounds ((children node).reverse ++ stack) = some rest ∧ visited = node :: rest := by
  rcases Option.map_eq_some_iff.mp ended with ⟨rest, ended, same⟩
  exact ⟨rest, ended, same.symm⟩

theorem mem_visit {rounds : Nat} {stack visited : List κ} (ended : visit children rounds stack = some visited) (x : κ) :
    x ∈ visited ↔ ∃ node ∈ stack, Below children node x := by
  induction rounds generalizing stack visited with
  | zero =>
    cases stack with
    | nil =>
      cases ended
      simp
    | cons node stack => cases ended
  | succ rounds ih =>
    cases stack with
    | nil =>
      cases ended
      simp
    | cons node stack =>
      rcases visit_eq_some ended with ⟨rest, ended', rfl⟩
      rw [List.mem_cons, ih ended']
      constructor
      · intro either
        rcases either with rfl | ⟨other, member, below⟩
        · exact ⟨x, List.mem_cons_self, .refl⟩
        · rcases List.mem_append.mp member with child | later
          · exact ⟨node, List.mem_cons_self, .head (List.mem_reverse.mp child) below⟩
          · exact ⟨other, List.mem_cons_of_mem _ later, below⟩
      · intro found
        rcases found with ⟨other, member, below⟩
        rcases List.mem_cons.mp member with rfl | later
        · rcases Relation.ReflTransGen.cases_head below with rfl | ⟨child, first, below⟩
          · exact .inl rfl
          · exact .inr ⟨child, List.mem_append_left _ (List.mem_reverse.mpr first), below⟩
        · exact .inr ⟨other, List.mem_append_right _ later, below⟩

/-- Every node below the start has one parent, lists its children once, and is not above the start. -/
structure Forked (children : κ → List κ) (start : κ) : Prop where
  once : ∀ node, Below children start node → (children node).Nodup
  parent : ∀ left right child, Below children start left → Below children start right →
    child ∈ children left → child ∈ children right → left = right
  acyclic : ∀ node, Below children start node → start ∉ children node

structure Progress (children : κ → List κ) (start : κ) (visited stack : List κ) : Prop where
  distinct : (visited ++ stack).Nodup
  below : ∀ x ∈ visited ++ stack, Below children start x
  pushed : ∀ x ∈ visited ++ stack, x = start ∨ ∃ node ∈ visited, x ∈ children node

theorem progress_start (start : κ) : Progress children start [] [start] where
  distinct := List.nodup_singleton start
  below x member := by
    rw [List.mem_singleton.mp member]
  pushed x member := .inl (List.mem_singleton.mp member)

theorem Progress.next {start node : κ} {visited stack : List κ} (forked : Forked children start)
    (progress : Progress children start visited (node :: stack)) :
    Progress children start (node :: visited) ((children node).reverse ++ stack) := by
  have here : Below children start node := progress.below node (List.mem_append_right _ List.mem_cons_self)
  have known (x : κ) : x ∈ (node :: visited) ++ ((children node).reverse ++ stack) ↔
      x ∈ children node ∨ x ∈ visited ++ node :: stack := by
    simp only [List.cons_append, List.mem_cons, List.mem_append, List.mem_reverse]
    tauto
  have moved : (node :: (visited ++ stack)).Nodup := (List.perm_middle.nodup_iff).mp progress.distinct
  have fresh : ∀ x ∈ children node, x ∉ node :: (visited ++ stack) := by
    intro x child member
    have before : x ∈ visited ++ node :: stack := List.perm_middle.mem_iff.mpr member
    rcases progress.pushed x before with rfl | ⟨other, seen, also⟩
    · exact forked.acyclic node here child
    · have other' : Below children start other := progress.below other (List.mem_append_left _ seen)
      have same := forked.parent node other x here other' child also
      subst same
      exact (List.nodup_cons.mp moved).1 (List.mem_append_left _ seen)
  constructor
  · have shuffled : List.Perm ((node :: visited) ++ ((children node).reverse ++ stack))
        ((children node).reverse ++ node :: (visited ++ stack)) := by
      rw [← List.append_assoc, ← List.cons_append, ← List.append_assoc]
      exact List.Perm.append_right stack List.perm_append_comm
    apply shuffled.nodup_iff.mpr
    apply List.nodup_append.mpr
    refine ⟨List.nodup_reverse.mpr (forked.once node here), moved, ?_⟩
    intro x child y member same
    subst same
    exact fresh x (List.mem_reverse.mp child) member
  · intro x member
    rcases (known x).mp member with child | before
    · exact here.tail child
    · exact progress.below x before
  · intro x member
    rcases (known x).mp member with child | before
    · exact .inr ⟨node, List.mem_cons_self, child⟩
    · rcases progress.pushed x before with first | ⟨other, seen, child⟩
      · exact .inl first
      · exact .inr ⟨other, List.mem_cons_of_mem _ seen, child⟩

/-- The ids that the stack has and that the nodes not visited yet can still push are rounds enough. -/
theorem visit_progress [DecidableEq κ] {start : κ} (forked : Forked children start) {rounds : Nat}
    {visited stack pending : List κ} (progress : Progress children start visited stack)
    (rest : ∀ x, Below children start x → x ∈ visited ∨ x ∈ pending)
    (enough : stack.length + (pending.map fun node => (children node).length).sum ≤ rounds) :
    ∃ out, visit children rounds stack = some out ∧ (visited ++ out).Nodup := by
  induction rounds generalizing visited stack pending with
  | zero =>
    have empty : stack = [] := List.eq_nil_of_length_eq_zero (by omega)
    subst empty
    exact ⟨[], rfl, progress.distinct⟩
  | succ rounds ih =>
    cases stack with
    | nil => exact ⟨[], rfl, progress.distinct⟩
    | cons node stack =>
      have here : Below children start node := progress.below node (List.mem_append_right _ List.mem_cons_self)
      have unseen : node ∉ visited := by
        intro seen
        exact List.disjoint_of_nodup_append progress.distinct seen List.mem_cons_self
      have member : node ∈ pending := (rest node here).resolve_left unseen
      have sum : (pending.map fun node => (children node).length).sum =
          (children node).length + ((pending.erase node).map fun node => (children node).length).sum := by
        have permuted := (List.perm_cons_erase member).map fun node => (children node).length
        rw [permuted.sum_nat, List.map_cons, List.sum_cons]
      have rest' : ∀ x, Below children start x → x ∈ node :: visited ∨ x ∈ pending.erase node := by
        intro x below
        by_cases same : x = node
        · exact .inl (same ▸ List.mem_cons_self)
        · rcases rest x below with seen | later
          · exact .inl (List.mem_cons_of_mem _ seen)
          · exact .inr ((List.mem_erase_of_ne same).mpr later)
      have fewer : ((children node).reverse ++ stack).length +
          ((pending.erase node).map fun node => (children node).length).sum ≤ rounds := by
        rw [List.length_append, List.length_reverse]
        rw [List.length_cons] at enough
        omega
      rcases ih (progress.next forked) rest' fewer with ⟨out, ended, distinct⟩
      refine ⟨node :: out, ?_, ?_⟩
      · rw [visit, ended]
        rfl
      · exact List.perm_middle.nodup_iff.mpr distinct

/-- The walk from one node ends and visits what is below it, each node once. -/
theorem visit_start [DecidableEq κ] {start : κ} (forked : Forked children start) {pending : List κ}
    (all : ∀ x, Below children start x → x ∈ pending) {rounds : Nat}
    (enough : 1 + (pending.map fun node => (children node).length).sum ≤ rounds) :
    ∃ out, visit children rounds [start] = some out ∧ out.Nodup ∧ ∀ x, x ∈ out ↔ Below children start x := by
  have rest : ∀ x, Below children start x → x ∈ [] ∨ x ∈ pending := fun x below => .inr (all x below)
  rcases visit_progress forked (progress_start start) rest enough with ⟨out, ended, distinct⟩
  refine ⟨out, ended, distinct, fun x => ?_⟩
  rw [mem_visit ended x]
  simp

/-- The same loop when it notes the children that it pushes instead of the node that it pops. -/
def discover (children : κ → List κ) : Nat → List κ → List κ
  | 0, _ => []
  | _, [] => []
  | rounds + 1, node :: stack => children node ++ discover children rounds ((children node).reverse ++ stack)

theorem discover_perm {rounds : Nat} {stack visited : List κ} (ended : visit children rounds stack = some visited) :
    List.Perm (stack ++ discover children rounds stack) visited := by
  induction rounds generalizing stack visited with
  | zero =>
    cases stack with
    | nil =>
      cases ended
      exact List.Perm.refl _
    | cons node stack => cases ended
  | succ rounds ih =>
    cases stack with
    | nil =>
      cases ended
      exact List.Perm.refl _
    | cons node stack =>
      rcases visit_eq_some ended with ⟨rest, ended', rfl⟩
      rw [discover, List.cons_append]
      apply List.Perm.cons
      apply List.Perm.trans _ (ih ended')
      rw [← List.append_assoc]
      apply List.Perm.append_right
      exact List.perm_append_comm.trans ((List.reverse_perm _).symm.append_right stack)

theorem Forked.sub {fewer : κ → List κ} {start : κ} (forked : Forked children start)
    (sub : ∀ node, List.Sublist (fewer node) (children node)) : Forked fewer start := by
  have below : ∀ node, Below fewer start node → Below children start node := by
    intro node down
    exact Relation.ReflTransGen.mono (fun left right child => (sub left).subset child) _ _ down
  constructor
  · intro node down
    exact (forked.once node (below node down)).sublist (sub node)
  · intro left right child downLeft downRight inLeft inRight
    exact forked.parent left right child (below left downLeft) (below right downRight) ((sub left).subset inLeft)
      ((sub right).subset inRight)
  · intro node down child
    exact forked.acyclic node (below node down) ((sub node).subset child)

/-- The walk from one node discovers what is strictly below it, each node once. -/
theorem discover_start [DecidableEq κ] {start : κ} (forked : Forked children start) {pending : List κ}
    (all : ∀ x, Below children start x → x ∈ pending) {rounds : Nat}
    (enough : 1 + (pending.map fun node => (children node).length).sum ≤ rounds) :
    (discover children rounds [start]).Nodup ∧
      ∀ x, x ∈ discover children rounds [start] ↔ Relation.TransGen (Child children) start x := by
  rcases visit_start forked all enough with ⟨out, ended, distinct, same⟩
  have permuted := discover_perm ended
  have once : (start :: discover children rounds [start]).Nodup := permuted.nodup_iff.mpr distinct
  rcases List.nodup_cons.mp once with ⟨apart, nodup⟩
  refine ⟨nodup, fun x => ?_⟩
  have either : x = start ∨ x ∈ discover children rounds [start] ↔ Below children start x := by
    rw [← same x, ← permuted.mem_iff]
    exact List.mem_cons.symm
  constructor
  · intro found
    rcases Relation.reflTransGen_iff_eq_or_transGen.mp (either.mp (.inr found)) with here | down
    · subst here
      exact absurd found apart
    · exact down
  · intro down
    rcases either.mpr down.to_reflTransGen with here | found
    · subst here
      rcases Relation.TransGen.tail'_iff.mp down with ⟨above, under, child⟩
      exact absurd child (forked.acyclic above under)
    · exact found

end Kit.Walk
