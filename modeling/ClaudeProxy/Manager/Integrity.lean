import ClaudeProxy.Manager.Mapping
import ClaudeProxy.Manager.Statuses

namespace ClaudeProxy.Manager.Mapping

open Kit Sessions Trees

def view (s : Mapping) (ref : Ref) (nodeId : MessageId) : Option MessageId :=
  s.heap[ref]?.bind fun tree => statusIn tree nodeId

def rootAt (s : Mapping) (ref : Ref) : Option MessageId := s.heap[ref]?.map (·.rootId)

/-- The invariant of the runs whose steps all meet the condition. While a node is being added it is in no tree, and until
it is registered it may be missing from the map. -/
structure Kept (s : Mapping) : Prop where
  placed : ∀ rootId ref, s.repository.getTree rootId = some ref → s.rootAt ref = some rootId
  sound : ∀ (ref : Ref) tree, s.heap[ref]? = some tree → Restorable tree.rootId tree
  distinct : ∀ one ∈ s.issued, ∀ two ∈ s.issued, (one.1 = two.1 ∨ one.2 = two.2 → one = two) ∧ one.1 ≠ two.2
  known : ∀ ref nodeId status, s.view ref nodeId = some status → (nodeId, status) ∈ s.issued
  once : ∀ ref other nodeId status more, s.view ref nodeId = some status → s.view other nodeId = some more → ref = other
  adding : ∀ nodeId a, s.adding.get? nodeId = some a →
    (nodeId, a.statusMessageId) ∈ s.issued ∧ ∀ ref, s.view ref nodeId = none
  registering : ∀ nodeId a, s.registering.get? nodeId = some a →
    (nodeId, a.statusMessageId) ∈ s.issued ∧ s.adding.get? nodeId = none
  returned : ∀ pair ∈ s.returned, ∃ nodeId, (nodeId, pair.1) ∈ s.issued ∧ s.adding.get? nodeId = none
  registered : ∀ status ∈ s.registered, ∃ rootId, (status, rootId) ∈ s.returned
  mapped : ∀ key rootId, s.repository.nodeToTree.get? key = some rootId → ∃ ref nodeId status,
    s.repository.getTree rootId = some ref ∧ s.view ref nodeId = some status ∧ (key = nodeId ∨ key = status)
  listed : ∀ rootId ref nodeId status, s.repository.getTree rootId = some ref → s.view ref nodeId = some status →
    (s.repository.nodeToTree.get? nodeId = some rootId ∨ (s.registering.get? nodeId).isSome) ∧
      (status ∈ s.registered → s.repository.nodeToTree.get? status = some rootId)

section View

variable {s : Mapping} {ref : Ref} {tree : MessageTree}

theorem view_of_tree (found : s.heap[ref]? = some tree) (nodeId : MessageId) : s.view ref nodeId = statusIn tree nodeId := by
  rw [view, found]
  rfl

theorem tree_of_view {nodeId status : MessageId} (seen : s.view ref nodeId = some status) :
    ∃ tree, s.heap[ref]? = some tree ∧ statusIn tree nodeId = some status := Option.bind_eq_some_iff.mp seen

theorem tree_of_root {rootId : MessageId} (root : s.rootAt ref = some rootId) :
    ∃ tree, s.heap[ref]? = some tree ∧ tree.rootId = rootId := Option.map_eq_some_iff.mp root

theorem rootAt_of_tree (found : s.heap[ref]? = some tree) : s.rootAt ref = some tree.rootId := by
  rw [rootAt, found]
  rfl

theorem liveTree_eq_some {rootId : MessageId} :
    s.liveTree rootId = some tree ↔ ∃ ref, s.repository.getTree rootId = some ref ∧ s.heap[ref]? = some tree :=
  Option.bind_eq_some_iff

theorem heap_set {heap : List MessageTree} (found : heap[ref]? = some tree) (after : MessageTree) (key : Ref) :
    (heap.set ref after)[key]? = if key = ref then some after else heap[key]? := by
  rcases List.getElem?_eq_some_iff.mp found with ⟨bound, _⟩
  rw [List.getElem?_set]
  by_cases here : key = ref
  · simp [here, bound]
  · simp [here, Ne.symm here]

theorem heap_append (heap : List MessageTree) (key : Ref) :
    (heap ++ [tree])[key]? = if key = heap.length then some tree else heap[key]? := by
  by_cases here : key = heap.length
  · simp [here]
  · rw [if_neg here]
    rcases Nat.lt_or_gt_of_ne here with before | beyond
    · exact List.getElem?_append_left before
    · rw [List.getElem?_eq_none (by simp; omega), List.getElem?_eq_none (by omega)]

end View

namespace Kept

variable {s : Mapping}

theorem initial : Kept initial := by
  constructor
  · intro _ _ found
    cases found
  · intro _ _ found
    cases found
  · intro _ member
    cases member
  · intro _ _ _ seen
    cases seen
  · intro _ _ _ _ _ seen
    cases seen
  · intro _ _ found
    cases found
  · intro _ _ found
    cases found
  · intro _ member
    cases member
  · intro _ member
    cases member
  · intro _ _ found
    cases found
  · intro _ _ _ _ found
    cases found

section Ids

variable {ref other : Ref} {nodeId status key more : MessageId}

theorem node_ne_status (kept : Kept s) (one : (nodeId, status) ∈ s.issued) (two : (key, more) ∈ s.issued) :
    nodeId ≠ more := (kept.distinct _ one _ two).2

theorem same_node (kept : Kept s) (one : (nodeId, status) ∈ s.issued) (two : (key, status) ∈ s.issued) :
    nodeId = key := congrArg Prod.fst ((kept.distinct _ one _ two).1 (Or.inr rfl))

theorem root_issued (kept : Kept s) {rootId : MessageId} (root : s.rootAt ref = some rootId) :
    ∃ status, (rootId, status) ∈ s.issued := by
  rcases tree_of_root root with ⟨tree, found, rfl⟩
  rcases (hasNode_iff_statusIn ..).mp (kept.sound ref tree found).found with ⟨status, here⟩
  refine ⟨status, kept.known ref tree.rootId status ?_⟩
  rw [view_of_tree found]
  exact here

theorem unused_ne (unused : s.Unused nodeId status) (pair : (key, more) ∈ s.issued) :
    key ≠ nodeId ∧ more ≠ nodeId ∧ key ≠ status ∧ more ≠ status := by
  have one := unused.2 _ pair nodeId List.mem_cons_self
  have two := unused.2 _ pair status (List.mem_cons_of_mem _ List.mem_cons_self)
  exact ⟨one.1.symm, one.2.symm, two.1.symm, two.2.symm⟩

theorem distinct_cons (kept : Kept s) (unused : s.Unused nodeId status) :
    ∀ one ∈ (nodeId, status) :: s.issued, ∀ two ∈ (nodeId, status) :: s.issued,
      (one.1 = two.1 ∨ one.2 = two.2 → one = two) ∧ one.1 ≠ two.2 := by
  intro one first two second
  rcases List.mem_cons.mp first with rfl | before
  · rcases List.mem_cons.mp second with rfl | earlier
    · exact ⟨fun _ => rfl, unused.1⟩
    · rcases unused_ne unused earlier with ⟨a, b, _, d⟩
      exact ⟨fun same => same.elim (fun eq => absurd eq.symm a) fun eq => absurd eq.symm d, b.symm⟩
  · rcases List.mem_cons.mp second with rfl | earlier
    · rcases unused_ne unused before with ⟨a, _, c, d⟩
      exact ⟨fun same => same.elim (fun eq => absurd eq a) fun eq => absurd eq d, c⟩
    · exact kept.distinct one before two earlier

theorem not_adding (kept : Kept s) (unused : s.Unused nodeId status) : s.adding.get? nodeId = none := by
  cases found : s.adding.get? nodeId with
  | none => rfl
  | some a => exact absurd rfl (unused_ne unused (kept.adding nodeId a found).1).1

theorem not_seen (kept : Kept s) (unused : s.Unused nodeId status) (ref : Ref) : s.view ref nodeId = none := by
  cases seen : s.view ref nodeId with
  | none => rfl
  | some more => exact absurd rfl (unused_ne unused (kept.known ref nodeId more seen)).1

/-- A status message that is registered belongs to a node that is no longer being added. -/
theorem settled_status (kept : Kept s) (member : status ∈ s.registered) :
    ∃ nodeId, (nodeId, status) ∈ s.issued ∧ s.adding.get? nodeId = none := by
  rcases kept.registered status member with ⟨rootId, pair⟩
  exact kept.returned _ pair

end Ids

theorem createTree {nodeId status : MessageId} (kept : Kept s) (unused : s.Unused nodeId status)
    (incoming : IncomingMessage) (now : Timestamp) : Kept (s.createTree nodeId incoming status now) := by
  let tree : MessageTree := .new (.new nodeId incoming status none now)
  have heap (ref : Ref) : (s.createTree nodeId incoming status now).heap[ref]? =
      if ref = s.heap.length then some tree else s.heap[ref]? := heap_append s.heap ref
  have fresh (key : MessageId) : statusIn tree key = if key = nodeId then some status else none := statusIn_new _ key
  have view (ref : Ref) (key : MessageId) : (s.createTree nodeId incoming status now).view ref key =
      if ref = s.heap.length then (if key = nodeId then some status else none) else s.view ref key := by
    rw [Mapping.view, heap]
    split
    · exact fresh key
    · rfl
  have old {ref : Ref} {key more : MessageId} (seen : s.view ref key = some more) : ref ≠ s.heap.length := by
    rintro rfl
    rcases tree_of_view seen with ⟨_, found, _⟩
    rw [List.getElem?_eq_none (Nat.le_refl _)] at found
    cases found
  have other {rootId : MessageId} {ref : Ref} (found : s.repository.getTree rootId = some ref) : rootId ≠ nodeId := by
    rcases kept.root_issued (kept.placed rootId ref found) with ⟨more, pair⟩
    exact (unused_ne unused pair).1
  have idle := kept.not_adding unused
  constructor
  · intro rootId ref found
    rw [rootAt, heap]
    rcases Dict.get?_set_cases found with ⟨here, same⟩ | ⟨_, there⟩
    · rw [if_pos same, here]
      rfl
    · rcases tree_of_root (kept.placed rootId ref there) with ⟨before, at_ref, root⟩
      have length : ref ≠ s.heap.length := by
        rintro rfl
        rw [List.getElem?_eq_none (Nat.le_refl _)] at at_ref
        cases at_ref
      rw [if_neg length, at_ref, Option.map_some, root]
  · intro ref found there
    rw [heap] at there
    split at there
    · cases there
      exact Restorable.new (.new nodeId incoming status none now) rfl
    · exact kept.sound ref found there
  · exact kept.distinct_cons unused
  · intro ref key more seen
    rw [view] at seen
    split at seen
    · split at seen
      · rename_i here
        cases seen
        rw [here]
        exact List.mem_cons_self
      · cases seen
    · exact List.mem_cons_of_mem _ (kept.known ref key more seen)
  · intro ref ref' key more more' seen seen'
    rw [view] at seen seen'
    have unseen := kept.not_seen unused
    by_cases one : ref = s.heap.length
    · by_cases two : ref' = s.heap.length
      · rw [one, two]
      · rw [if_pos one] at seen
        rw [if_neg two] at seen'
        split at seen
        · rename_i here
          rw [here, unseen] at seen'
          cases seen'
        · cases seen
    · by_cases two : ref' = s.heap.length
      · rw [if_neg one] at seen
        rw [if_pos two] at seen'
        split at seen'
        · rename_i here
          rw [here, unseen] at seen
          cases seen
        · cases seen'
      · rw [if_neg one] at seen
        rw [if_neg two] at seen'
        exact kept.once ref ref' key more more' seen seen'
  · intro key a found
    rcases kept.adding key a found with ⟨pair, unseen⟩
    refine ⟨List.mem_cons_of_mem _ pair, fun ref => ?_⟩
    rw [view, unseen ref, if_neg (unused_ne unused pair).1]
    split <;> rfl
  · intro key a found
    rcases kept.registering key a found with ⟨pair, absent⟩
    exact ⟨List.mem_cons_of_mem _ pair, absent⟩
  · intro pair member
    rcases List.mem_cons.mp member with rfl | before
    · exact ⟨nodeId, List.mem_cons_self, idle⟩
    · rcases kept.returned pair before with ⟨key, issued, absent⟩
      exact ⟨key, List.mem_cons_of_mem _ issued, absent⟩
  · intro more member
    rcases kept.registered more member with ⟨rootId, pair⟩
    exact ⟨rootId, List.mem_cons_of_mem _ pair⟩
  · intro key rootId found
    rcases Dict.get?_set_cases found with ⟨here, same⟩ | ⟨_, there⟩
    · refine ⟨s.heap.length, nodeId, status, ?_, ?_, Or.inl here⟩
      · rw [same]
        exact Dict.get?_set_self ..
      · rw [view, if_pos rfl, if_pos rfl]
    · rcases kept.mapped key rootId there with ⟨ref, node, more, live, seen, names⟩
      refine ⟨ref, node, more, ?_, ?_, names⟩
      · exact (Dict.get?_set_ne _ _ (other live)).trans live
      · rw [view, if_neg (old seen)]
        exact seen
  · intro rootId ref node more live seen
    rw [view] at seen
    rcases Dict.get?_set_cases live with ⟨here, same⟩ | ⟨_, there⟩
    · rw [if_pos same] at seen
      split at seen
      · rename_i own
        cases seen
        refine ⟨Or.inl ?_, ?_⟩
        · rw [here, own]
          exact Dict.get?_set_self ..
        · intro member
          rcases kept.settled_status member with ⟨key, pair, _⟩
          exact absurd rfl (unused_ne unused pair).2.2.2
      · cases seen
    · rcases tree_of_root (kept.placed rootId ref there) with ⟨before, at_ref, _⟩
      have length : ref ≠ s.heap.length := by
        rintro rfl
        rw [List.getElem?_eq_none (Nat.le_refl _)] at at_ref
        cases at_ref
      rw [if_neg length] at seen
      rcases unused_ne unused (kept.known ref node more seen) with ⟨one, two, _, _⟩
      rcases kept.listed rootId ref node more there seen with ⟨first, second⟩
      refine ⟨first.imp_left fun listed => ?_, fun member => ?_⟩
      · exact (Dict.get?_set_ne _ _ one).trans listed
      · exact (Dict.get?_set_ne _ _ two).trans (second member)

theorem addToTree {parentNodeId nodeId status : MessageId} {incoming : IncomingMessage} (kept : Kept s)
    (unused : s.Unused nodeId status) : Kept (s.addToTree parentNodeId nodeId incoming status) := by
  have unseen := kept.not_seen unused
  have absent {key more : MessageId} (pair : (key, more) ∈ s.issued) (a : Addition) :
      (s.adding.set nodeId a).get? key = s.adding.get? key := Dict.get?_set_ne _ a (unused_ne unused pair).1
  have known : Kept { s with issued := (nodeId, status) :: s.issued } := by
    constructor
    · exact kept.placed
    · exact kept.sound
    · exact kept.distinct_cons unused
    · exact fun ref key more seen => List.mem_cons_of_mem _ (kept.known ref key more seen)
    · exact kept.once
    · intro key a found
      rcases kept.adding key a found with ⟨pair, nowhere⟩
      exact ⟨List.mem_cons_of_mem _ pair, nowhere⟩
    · intro key a found
      rcases kept.registering key a found with ⟨pair, idle⟩
      exact ⟨List.mem_cons_of_mem _ pair, idle⟩
    · intro pair member
      rcases kept.returned pair member with ⟨key, issued, idle⟩
      exact ⟨key, List.mem_cons_of_mem _ issued, idle⟩
    · exact kept.registered
    · exact kept.mapped
    · exact kept.listed
  unfold Mapping.addToTree
  dsimp only
  split
  · exact known
  · constructor
    · exact kept.placed
    · exact kept.sound
    · exact known.distinct
    · exact known.known
    · exact kept.once
    · intro key a found
      rcases Dict.get?_set_cases found with ⟨here, same⟩ | ⟨_, there⟩
      · rw [here, same]
        exact ⟨List.mem_cons_self, unseen⟩
      · exact known.adding key a there
    · intro key a found
      rcases kept.registering key a found with ⟨pair, idle⟩
      exact ⟨List.mem_cons_of_mem _ pair, (absent pair _).trans idle⟩
    · intro pair member
      rcases kept.returned pair member with ⟨key, issued, idle⟩
      exact ⟨key, List.mem_cons_of_mem _ issued, (absent issued _).trans idle⟩
    · exact kept.registered
    · exact kept.mapped
    · exact kept.listed

theorem stopAdding (kept : Kept s) (nodeId : MessageId) : Kept { s with adding := s.adding.erase nodeId } := by
  have idle {key : MessageId} (absent : s.adding.get? key = none) : (s.adding.erase nodeId).get? key = none := by
    rw [Dict.get?_erase, absent]
    split <;> rfl
  constructor
  · exact kept.placed
  · exact kept.sound
  · exact kept.distinct
  · exact kept.known
  · exact kept.once
  · intro key a found
    rw [Dict.get?_erase] at found
    split at found
    · cases found
    · exact kept.adding key a found
  · intro key a found
    rcases kept.registering key a found with ⟨pair, absent⟩
    exact ⟨pair, idle absent⟩
  · intro pair member
    rcases kept.returned pair member with ⟨key, issued, absent⟩
    exact ⟨key, issued, idle absent⟩
  · exact kept.registered
  · exact kept.mapped
  · exact kept.listed

theorem addNode {nodeId : MessageId} {a : Addition} (kept : Kept s) (found : s.adding.get? nodeId = some a)
    (now : Timestamp) : Kept (s.addNode nodeId a now) := by
  have stopped := kept.stopAdding nodeId
  rcases kept.adding nodeId a found with ⟨pair, nowhere⟩
  unfold Mapping.addNode
  dsimp only
  split
  · exact stopped
  · rename_i after result
    rcases Option.bind_eq_some_iff.mp result with ⟨tree, at_ref, added⟩
    have root : after.rootId = tree.rootId := addNode_rootId added
    have heap (ref : Ref) : (s.heap.set a.ref after)[ref]? = if ref = a.ref then some after else s.heap[ref]? :=
      heap_set at_ref after ref
    let next : Mapping := { s with
      heap := s.heap.set a.ref after
      adding := s.adding.erase nodeId
      registering := s.registering.set nodeId a }
    have view (ref : Ref) (key : MessageId) : next.view ref key =
        if ref = a.ref ∧ key = nodeId then some a.statusMessageId else s.view ref key := by
      show ((s.heap.set a.ref after)[ref]?.bind fun tree => statusIn tree key) = _
      rw [heap]
      by_cases here : ref = a.ref
      · rw [if_pos here, Option.bind_some, statusIn_addNode added, here, view_of_tree at_ref]
        simp
      · simp [here, Mapping.view]
    have seen_of {ref : Ref} {key more : MessageId} (seen : s.view ref key = some more) : next.view ref key = some more := by
      rw [view, if_neg, seen]
      rintro ⟨_, rfl⟩
      rw [nowhere] at seen
      cases seen
    show Kept next
    constructor
    · intro rootId ref live
      have before := kept.placed rootId ref live
      show (s.heap.set a.ref after)[ref]?.map (·.rootId) = some rootId
      rw [heap]
      split
      · rename_i here
        rw [here, rootAt_of_tree at_ref] at before
        rw [Option.map_some, root]
        exact before
      · exact before
    · intro ref other there
      rw [heap] at there
      split at there
      · cases there
        have sound := kept.sound a.ref tree at_ref
        have fresh : tree.hasNode nodeId = false := by
          apply Bool.eq_false_iff.mpr
          intro has
          rcases (hasNode_iff_statusIn ..).mp has with ⟨more, here⟩
          rw [← view_of_tree at_ref, nowhere] at here
          cases here
        have freshStatus : tree.statusToNode.contains a.statusMessageId = false := by
          apply Bool.eq_false_iff.mpr
          intro has
          rcases Option.isSome_iff_exists.mp has with ⟨key, points⟩
          have here := statusIn_eq_some.mpr ((sound.indexed a.statusMessageId key).mp points)
          rw [← view_of_tree at_ref] at here
          have same := kept.same_node (kept.known a.ref key _ here) pair
          rw [same, nowhere] at here
          cases here
        rw [root]
        exact sound.addNode added fresh freshStatus
      · exact kept.sound ref other there
    · exact kept.distinct
    · intro ref key more seen
      rw [view] at seen
      split at seen
      · rename_i here
        cases seen
        rw [here.2]
        exact pair
      · exact kept.known ref key more seen
    · intro ref ref' key more more' seen seen'
      rw [view] at seen seen'
      by_cases here : key = nodeId
      · rw [here, nowhere] at seen seen'
        split at seen
        · split at seen'
          · rename_i one two
            rw [one.1, two.1]
          · cases seen'
        · cases seen
      · rw [if_neg (fun both => here both.2)] at seen seen'
        exact kept.once ref ref' key more more' seen seen'
    · intro key b there
      rcases stopped.adding key b there with ⟨issued, unseen⟩
      refine ⟨issued, fun ref => ?_⟩
      rw [view, if_neg]
      · exact unseen ref
      · rintro ⟨_, rfl⟩
        change (s.adding.erase key).get? key = some b at there
        rw [Dict.get?_erase_self] at there
        cases there
    · intro key b there
      rcases Dict.get?_set_cases there with ⟨here, same⟩ | ⟨_, before⟩
      · rw [here, same]
        exact ⟨pair, Dict.get?_erase_self ..⟩
      · exact stopped.registering key b before
    · exact stopped.returned
    · exact kept.registered
    · intro key rootId there
      rcases kept.mapped key rootId there with ⟨ref, node, more, live, seen, names⟩
      exact ⟨ref, node, more, live, seen_of seen, names⟩
    · intro rootId ref node more live seen
      rw [view] at seen
      split at seen
      · rename_i here
        cases seen
        refine ⟨Or.inr ?_, fun member => ?_⟩
        · show ((s.registering.set nodeId a).get? node).isSome
          rw [here.2, Dict.get?_set_self]
          rfl
        · rcases kept.settled_status member with ⟨key, issued, idle⟩
          rw [kept.same_node issued pair, found] at idle
          cases idle
      · rcases kept.listed rootId ref node more live seen with ⟨first, second⟩
        refine ⟨first.imp_right fun waiting => ?_, second⟩
        show ((s.registering.set nodeId a).get? node).isSome
        rw [Dict.get?_set]
        split
        · rfl
        · exact waiting

theorem added {nodeId : MessageId} {a : Addition} {rootId : MessageId} {ref : Ref} {status : MessageId} (kept : Kept s)
    (found : s.registering.get? nodeId = some a) (live : s.repository.getTree rootId = some ref)
    (seen : s.view ref nodeId = some status) : Kept (s.added nodeId a rootId) := by
  rcases kept.registering nodeId a found with ⟨pair, idle⟩
  constructor
  · exact kept.placed
  · exact kept.sound
  · exact kept.distinct
  · exact kept.known
  · exact kept.once
  · exact kept.adding
  · intro key b there
    change (s.registering.erase nodeId).get? key = some b at there
    rw [Dict.get?_erase] at there
    split at there
    · cases there
    · exact kept.registering key b there
  · intro one member
    rcases List.mem_cons.mp member with rfl | before
    · exact ⟨nodeId, pair, idle⟩
    · exact kept.returned one before
  · intro more member
    rcases kept.registered more member with ⟨root, before⟩
    exact ⟨root, List.mem_cons_of_mem _ before⟩
  · intro key root there
    rcases Dict.get?_set_cases there with ⟨here, same⟩ | ⟨_, before⟩
    · exact ⟨ref, nodeId, status, same ▸ live, seen, Or.inl here⟩
    · exact kept.mapped key root before
  · intro root other node more living here
    rcases kept.listed root other node more living here with ⟨first, second⟩
    refine ⟨?_, fun member => ?_⟩
    · by_cases own : node = nodeId
      · left
        rw [own] at here ⊢
        have same := kept.once ref other nodeId status more seen here
        have roots := kept.placed root other living
        rw [← same, kept.placed rootId ref live] at roots
        rw [← Option.some.inj roots]
        exact Dict.get?_set_self ..
      · apply first.imp
        · exact fun listed => (Dict.get?_set_ne _ _ own).trans listed
        · intro waiting
          show ((s.registering.erase nodeId).get? node).isSome
          rw [Dict.get?_erase, if_neg own]
          exact waiting
    · have apart := kept.node_ne_status pair (kept.known other node more here)
      exact (Dict.get?_set_ne _ _ (Ne.symm apart)).trans (second member)

theorem registerNode {rootId status nodeId : MessageId} {ref : Ref} (kept : Kept s)
    (pair : (status, rootId) ∈ s.returned) (live : s.repository.getTree rootId = some ref)
    (seen : s.view ref nodeId = some status) : Kept (s.registerNode status rootId) := by
  constructor
  · exact kept.placed
  · exact kept.sound
  · exact kept.distinct
  · exact kept.known
  · exact kept.once
  · exact kept.adding
  · exact kept.registering
  · exact kept.returned
  · intro more member
    rcases List.mem_cons.mp member with rfl | before
    · exact ⟨rootId, pair⟩
    · exact kept.registered more before
  · intro key root there
    rcases Dict.get?_set_cases there with ⟨here, same⟩ | ⟨_, before⟩
    · exact ⟨ref, nodeId, status, same ▸ live, seen, Or.inr here⟩
    · exact kept.mapped key root before
  · intro root other node more living here
    rcases kept.listed root other node more living here with ⟨first, second⟩
    refine ⟨first.imp_left fun listed => ?_, fun member => ?_⟩
    · have apart := kept.node_ne_status (kept.known other node more here) (kept.known ref nodeId status seen)
      exact (Dict.get?_set_ne _ _ apart).trans listed
    · by_cases own : more = status
      · rw [own] at here ⊢
        have node_eq := kept.same_node (kept.known other node status here) (kept.known ref nodeId status seen)
        rw [node_eq] at here
        have same := kept.once ref other nodeId status status seen here
        have roots := kept.placed root other living
        rw [← same, kept.placed rootId ref live] at roots
        rw [← Option.some.inj roots]
        exact Dict.get?_set_self ..
      · have before : more ∈ s.registered := by
          rcases List.mem_cons.mp member with same | before
          · exact absurd same own
          · exact before
        exact (Dict.get?_set_ne _ _ own).trans (second before)

/-- Nodes of one tree go, with their mappings; their status messages have none. -/
theorem forget (kept : Kept s) (next : Mapping) (ref : Ref) (gone : List MessageId)
    (lookup : ∀ key, next.repository.nodeToTree.get? key =
      if key ∈ gone then none else s.repository.nodeToTree.get? key)
    (present : ∀ node ∈ gone, ∃ status, s.view ref node = some status ∧ s.repository.nodeToTree.get? status = none)
    (held : ∀ rootId other node status, next.repository.getTree rootId = some other ∧ next.view other node = some status ↔
      (s.repository.getTree rootId = some other ∧ s.view other node = some status) ∧ ¬ (other = ref ∧ node ∈ gone)) :
    (∀ key rootId, next.repository.nodeToTree.get? key = some rootId → ∃ other node status,
      next.repository.getTree rootId = some other ∧ next.view other node = some status ∧ (key = node ∨ key = status)) ∧
    (∀ rootId other node status, next.repository.getTree rootId = some other → next.view other node = some status →
      (next.repository.nodeToTree.get? node = some rootId ∨ (s.registering.get? node).isSome) ∧
        (status ∈ s.registered → next.repository.nodeToTree.get? status = some rootId)) := by
  constructor
  · intro key rootId found
    rw [lookup] at found
    split at found
    · cases found
    · rename_i stays
      rcases kept.mapped key rootId found with ⟨other, node, status, live, seen, names⟩
      have apart : ¬ (other = ref ∧ node ∈ gone) := by
        rintro ⟨rfl, inside⟩
        rcases present node inside with ⟨own, here, absent⟩
        rcases names with same | same
        · exact stays (same ▸ inside)
        · rw [same, Option.some.inj (seen.symm.trans here), absent] at found
          cases found
      have both := (held rootId other node status).mpr ⟨⟨live, seen⟩, apart⟩
      exact ⟨other, node, status, both.1, both.2, names⟩
  · intro rootId other node status live seen
    rcases (held rootId other node status).mp ⟨live, seen⟩ with ⟨⟨before, here⟩, apart⟩
    rcases kept.listed rootId other node status before here with ⟨first, second⟩
    have issued := kept.known other node status here
    have outside : node ∉ gone := by
      intro inside
      rcases present node inside with ⟨own, there, _⟩
      exact apart ⟨kept.once other ref node status own here there, inside⟩
    have outside' : status ∉ gone := by
      intro inside
      rcases present status inside with ⟨own, there, _⟩
      exact kept.node_ne_status (kept.known ref status own there) issued rfl
    rw [lookup, lookup, if_neg outside, if_neg outside']
    exact ⟨first, second⟩

theorem get?_unregisterNodes (repo : TreeRepository Ref) (nodeIds : List MessageId) (key : MessageId) :
    (repo.unregisterNodes nodeIds).nodeToTree.get? key = if key ∈ nodeIds then none else repo.nodeToTree.get? key := by
  have popped := get?_popAll nodeIds repo.nodeToTree key
  by_cases inside : key ∈ nodeIds
  · rw [if_pos inside] at popped ⊢
    exact popped
  · rw [if_neg inside] at popped ⊢
    exact popped

theorem absent_of_unregistered {tree : MessageTree} {nodeIds : List MessageId} (meets : s.unregistered tree nodeIds = true)
    {node status : MessageId} (inside : node ∈ nodeIds) (here : statusIn tree node = some status) :
    s.repository.nodeToTree.get? status = none := by
  rcases statusIn_eq_some.mp here with ⟨value, found, rfl⟩
  have absent := List.all_eq_true.mp meets node inside
  rw [found, Option.all_some] at absent
  rw [← Option.not_isSome_iff_eq_none]
  exact of_decide_eq_true absent

theorem prune {ref : Ref} {tree : MessageTree} {branchRootId : MessageId} (kept : Kept s)
    (at_ref : s.heap[ref]? = some tree) (below : branchRootId ≠ tree.rootId)
    (meets : s.unregistered tree (tree.getDescendants branchRootId) = true) : Kept (s.prune ref tree branchRootId) := by
  have sound := kept.sound ref tree at_ref
  have done := (sound.indexed.removeNodes (tree.getDescendants branchRootId)).1
  have heap (key : Ref) : (s.heap.set ref (tree.removeBranch branchRootId).2)[key]? =
      if key = ref then some (tree.removeBranch branchRootId).2 else s.heap[key]? := heap_set at_ref _ key
  let gone := (tree.removeBranch branchRootId).1.map fun node => node.nodeId
  have removed (key : MessageId) : key ∈ gone ↔ key ∈ tree.getDescendants branchRootId ∧ tree.hasNode key = true :=
    mem_removeBranch sound.keyed sound.indexed key
  let next : Mapping := { s with
    heap := s.heap.set ref (tree.removeBranch branchRootId).2
    repository := s.repository.unregisterNodes gone }
  have pruned : s.prune ref tree branchRootId = next := if_neg (by rw [done]; exact Bool.noConfusion)
  have view (other : Ref) (key : MessageId) : next.view other key =
      if other = ref ∧ key ∈ tree.getDescendants branchRootId then none else s.view other key := by
    show ((s.heap.set ref _)[other]?.bind fun tree => statusIn tree key) = _
    rw [heap]
    by_cases here : other = ref
    · rw [if_pos here, Option.bind_some, statusIn_removeBranch sound.indexed, here, view_of_tree at_ref]
      simp
    · simp [here, Mapping.view]
  have seen (other : Ref) (key status : MessageId) : next.view other key = some status ↔
      s.view other key = some status ∧ ¬ (other = ref ∧ key ∈ gone) := by
    rw [view, removed]
    by_cases here : other = ref
    · rw [here, view_of_tree at_ref]
      by_cases inside : key ∈ tree.getDescendants branchRootId
      · simp only [inside, and_self, if_true, reduceCtorEq, true_and, false_iff, not_and, not_not]
        exact fun found => (hasNode_iff_statusIn ..).mpr ⟨status, found⟩
      · simp [inside]
    · simp [here]
  have maps := kept.forget next ref gone (get?_unregisterNodes _ gone)
    (fun node inside => by
      rcases (removed node).mp inside with ⟨below, has⟩
      rcases (hasNode_iff_statusIn ..).mp has with ⟨status, here⟩
      exact ⟨status, (view_of_tree at_ref node).trans here, absent_of_unregistered meets below here⟩)
    (fun rootId other node status => by rw [seen, and_assoc]; rfl)
  rw [pruned]
  constructor
  · intro rootId other live
    have before := kept.placed rootId other live
    show (s.heap.set ref _)[other]?.map (·.rootId) = some rootId
    rw [heap]
    split
    · rename_i here
      rw [here, rootAt_of_tree at_ref] at before
      rw [Option.map_some, removeBranch_rootId]
      exact before
    · exact before
  · intro other after there
    rw [heap] at there
    split at there
    · cases there
      rw [removeBranch_rootId]
      exact sound.removeBranch below
    · exact kept.sound other after there
  · exact kept.distinct
  · exact fun other key status found => kept.known other key status ((seen ..).mp found).1
  · exact fun one two key status more found found' =>
      kept.once one two key status more ((seen ..).mp found).1 ((seen ..).mp found').1
  · intro key a found
    rcases kept.adding key a found with ⟨pair, nowhere⟩
    refine ⟨pair, fun other => ?_⟩
    rw [view, nowhere]
    split <;> rfl
  · exact kept.registering
  · exact kept.returned
  · exact kept.registered
  · exact maps.1
  · exact maps.2

theorem mem_allNodes {tree : MessageTree} (keyed : Keyed tree) (key : MessageId) :
    key ∈ tree.allNodes.map (fun node => node.nodeId) ↔ tree.hasNode key = true := by
  rw [MessageTree.allNodes, Dict.values, List.map_map, List.mem_map, hasNode_iff]
  constructor
  · intro member
    rcases member with ⟨entry, inside, rfl⟩
    have found : tree.getNode entry.1 = some entry.2 := (Dict.get?_eq_some_iff ..).mpr inside
    refine ⟨entry.2, ?_⟩
    rw [Function.comp_apply, keyed entry.1 entry.2 found]
    exact found
  · intro known
    rcases known with ⟨node, found⟩
    exact ⟨(key, node), (Dict.get?_eq_some_iff ..).mp found, keyed key node found⟩

theorem removeTree {rootId : MessageId} (kept : Kept s) (meets : s.removable rootId = true) :
    Kept (s.removeTree rootId) := by
  unfold Mapping.removeTree
  split
  · exact kept
  · rename_i tree live
    rcases liveTree_eq_some.mp live with ⟨ref, present, at_ref⟩
    have keyed := (kept.sound ref tree at_ref).keyed
    let gone := tree.allNodes.map fun node => node.nodeId
    have erased : s.repository.removeTree rootId gone =
        { s.repository with trees := s.repository.trees.erase rootId }.unregisterNodes gone :=
      if_pos (Option.isSome_iff_exists.mpr ⟨ref, present⟩)
    let next : Mapping := { s with
      repository := { s.repository with trees := s.repository.trees.erase rootId }.unregisterNodes gone }
    have trees (root : MessageId) : next.repository.getTree root =
        if root = rootId then none else s.repository.getTree root := Dict.get?_erase ..
    have known {node status : MessageId} (here : s.view ref node = some status) : node ∈ gone := by
      rw [view_of_tree at_ref] at here
      exact (mem_allNodes keyed node).mpr ((hasNode_iff_statusIn ..).mpr ⟨status, here⟩)
    have held (root : MessageId) (other : Ref) (node status : MessageId) :
        next.repository.getTree root = some other ∧ next.view other node = some status ↔
          (s.repository.getTree root = some other ∧ s.view other node = some status) ∧ ¬ (other = ref ∧ node ∈ gone) := by
      rw [trees]
      by_cases here : root = rootId
      · rw [if_pos here, here]
        constructor
        · intro both
          cases both.1
        · intro both
          have same : other = ref := Option.some.inj (both.1.1.symm.trans present)
          exact absurd ⟨same, known (same ▸ both.1.2)⟩ both.2
      · rw [if_neg here]
        constructor
        · intro both
          refine ⟨both, fun away => here ?_⟩
          have root_eq := kept.placed root other both.1
          rw [away.1, kept.placed rootId ref present] at root_eq
          exact (Option.some.inj root_eq).symm
        · exact And.left
    have maps := kept.forget next ref gone (get?_unregisterNodes _ gone)
      (fun node inside => by
        rcases (hasNode_iff_statusIn ..).mp ((mem_allNodes keyed node).mp inside) with ⟨status, here⟩
        rcases statusIn_eq_some.mp here with ⟨value, found, _⟩
        have listed : node ∈ tree.nodes.keys := (Dict.mem_keys_iff ..).mpr ⟨value, found⟩
        rw [removable, live] at meets
        exact ⟨status, (view_of_tree at_ref node).trans here, absent_of_unregistered meets listed here⟩)
      held
    have live_before {root : MessageId} {other : Ref} (there : next.repository.getTree root = some other) :
        s.repository.getTree root = some other := by
      rw [trees] at there
      split at there
      · cases there
      · exact there
    rw [erased]
    constructor
    · exact fun root other there => kept.placed root other (live_before there)
    · exact kept.sound
    · exact kept.distinct
    · exact kept.known
    · exact kept.once
    · exact kept.adding
    · exact kept.registering
    · exact kept.returned
    · exact kept.registered
    · exact maps.1
    · exact maps.2

theorem onTree (kept : Kept s) (ref : Ref) (nodeId : MessageId) {change : MessageNode → MessageNode}
    (ids : ∀ node, (change node).nodeId = node.nodeId)
    (statuses : ∀ node, (change node).statusMessageId = node.statusMessageId)
    (children : ∀ node, (change node).childrenIds = node.childrenIds) :
    Kept (s.onTree ref fun tree => tree.modifyNode nodeId change) := by
  let next := s.onTree ref fun tree => tree.modifyNode nodeId change
  have heap (key : Ref) : next.heap[key]? =
      s.heap[key]?.map fun tree => if ref = key then tree.modifyNode nodeId change else tree := List.getElem?_modify ..
  have view (key : Ref) (node : MessageId) : next.view key node = s.view key node := by
    rw [Mapping.view, heap, Mapping.view]
    cases s.heap[key]? with
    | none => rfl
    | some tree =>
      simp only [Option.map_some, Option.bind_some]
      split
      · exact statusIn_modifyNode tree nodeId statuses node
      · rfl
  have root (key : Ref) : next.rootAt key = s.rootAt key := by
    rw [rootAt, heap, rootAt]
    cases s.heap[key]? with
    | none => rfl
    | some tree =>
      simp only [Option.map_some, Option.some.injEq]
      split
      · exact rootId_modifyNode ..
      · rfl
  show Kept next
  constructor
  · intro rootId key live
    rw [root]
    exact kept.placed rootId key live
  · intro key after there
    rw [heap] at there
    rcases Option.map_eq_some_iff.mp there with ⟨tree, found, rfl⟩
    have sound := kept.sound key tree found
    split
    · rw [rootId_modifyNode]
      apply sound.modifyNode nodeId ids statuses
      intro node orphan
      rw [children]
      exact orphan
    · exact sound
  · exact kept.distinct
  · simp only [view]
    exact kept.known
  · simp only [view]
    exact kept.once
  · simp only [view]
    exact kept.adding
  · exact kept.registering
  · exact kept.returned
  · exact kept.registered
  · simp only [view]
    exact kept.mapped
  · simp only [view]
    exact kept.listed

theorem remove {ref : Ref} {branchRootId : MessageId} (kept : Kept s)
    (meets : (s.heap[ref]?.all fun tree =>
      if branchRootId = tree.rootId then s.removable tree.rootId
      else s.unregistered tree (tree.getDescendants branchRootId)) = true) : Kept (s.remove ref branchRootId) := by
  unfold Mapping.remove
  split
  · exact kept
  · rename_i tree found
    rw [found, Option.all_some] at meets
    split
    · rename_i whole
      rw [if_pos whole] at meets
      exact kept.removeTree meets
    · rename_i below
      rw [if_neg below] at meets
      exact kept.prune found below meets

theorem step {next : Mapping} {a : MappingStep} (kept : Kept s) (meets : s.meets a = true)
    (taken : s.step a = some next) : Kept next := by
  cases a with
  | createTree nodeId incoming status now =>
    rcases Option.ite_none_right_eq_some.mp taken with ⟨unused, eq⟩
    cases eq
    exact kept.createTree unused incoming now
  | addToTree parentNodeId nodeId incoming status =>
    rcases Option.ite_none_right_eq_some.mp taken with ⟨unused, eq⟩
    cases eq
    exact kept.addToTree unused
  | addNode nodeId now =>
    rcases Option.map_eq_some_iff.mp taken with ⟨a, found, rfl⟩
    exact kept.addNode found now
  | added nodeId =>
    rcases Option.bind_eq_some_iff.mp taken with ⟨a, found, more⟩
    rcases Option.bind_eq_some_iff.mp more with ⟨tree, at_ref, eq⟩
    cases eq
    rw [Mapping.meets, found, Option.all_some, at_ref, Option.all_some] at meets
    rcases (Option.any_eq_true ..).mp meets with ⟨tree, alive, has⟩
    rcases liveTree_eq_some.mp alive with ⟨ref, live, here⟩
    rcases (hasNode_iff_statusIn ..).mp has with ⟨status, seen⟩
    exact kept.added found live ((view_of_tree here nodeId).trans seen)
  | registerNode status rootId =>
    rcases Option.ite_none_right_eq_some.mp taken with ⟨pair, eq⟩
    cases eq
    rcases (Option.any_eq_true ..).mp meets with ⟨tree, alive, has⟩
    rcases liveTree_eq_some.mp alive with ⟨ref, live, here⟩
    rcases Option.isSome_iff_exists.mp has with ⟨node, found⟩
    rcases Option.bind_eq_some_iff.mp found with ⟨nodeId, points, _⟩
    have seen := statusIn_eq_some.mpr (((kept.sound ref _ here).indexed status nodeId).mp points)
    exact kept.registerNode pair live ((view_of_tree here nodeId).trans seen)
  | removeBranch branchRootId =>
    cases taken
    exact ⟨kept.placed, kept.sound, kept.distinct, kept.known, kept.once, kept.adding, kept.registering, kept.returned,
      kept.registered, kept.mapped, kept.listed⟩
  | remove index =>
    rcases Option.map_eq_some_iff.mp taken with ⟨call, found, rfl⟩
    rw [Mapping.meets, found, Option.all_some] at meets
    have waiting : Kept { s with removing := s.removing.eraseIdx index } :=
      ⟨kept.placed, kept.sound, kept.distinct, kept.known, kept.once, kept.adding, kept.registering, kept.returned,
        kept.registered, kept.mapped, kept.listed⟩
    exact waiting.remove meets
  | removeTree rootId =>
    cases taken
    exact kept.removeTree meets
  | updateState ref nodeId state sessionId errorMessage now =>
    cases taken
    exact kept.onTree ref nodeId (fun _ => rfl) (fun _ => rfl) fun _ => rfl
  | setNodeError ref nodeId errorMessage now =>
    cases taken
    exact kept.onTree ref nodeId (fun _ => rfl) (fun _ => rfl) fun _ => rfl

end Kept

theorem kept_of_reachable {s : Mapping} (reached : machine.ReachableUnder (fun s a => s.meets a = true) s) : Kept s :=
  Machine.ReachableUnder.invariant Kept.initial (fun _ _ _ kept meets taken => kept.step meets taken) reached

/-- As long as nothing goes whose status message is in the map, and nothing is registered that has gone, the map is that
of the live trees whenever no operation is half done. -/
theorem intact_of_reachable (s : Mapping) (reached : machine.ReachableUnder (fun s a => s.meets a = true) s)
    (settled : s.Settled) : s.Intact := by
  have kept := kept_of_reachable reached
  constructor
  · intro key rootId found
    rcases kept.mapped key rootId found with ⟨ref, nodeId, status, live, seen, names⟩
    rcases tree_of_view seen with ⟨tree, here, own⟩
    rcases statusIn_eq_some.mp own with ⟨node, there, rfl⟩
    exact ⟨tree, nodeId, node, liveTree_eq_some.mpr ⟨ref, live, here⟩, there, names⟩
  · intro rootId tree nodeId node live found
    rcases liveTree_eq_some.mp live with ⟨ref, there, here⟩
    have seen := (view_of_tree here nodeId).trans (statusIn_eq_some.mpr ⟨node, found, rfl⟩)
    rcases kept.listed rootId ref nodeId node.statusMessageId there seen with ⟨first, second⟩
    refine ⟨?_, second⟩
    rcases first with listed | waiting
    · exact listed
    · rw [Dict.get?, settled.2.1] at waiting
      cases waiting

/-- A tree gets a reply, one of them with its status message registered, and is removed. -/
def replyAndClear : List MappingStep :=
  [.createTree (numberedId 1) (greeting (numberedId 1)) (numberedId 2) 0, .registerNode (numberedId 2) (numberedId 1),
    .addToTree (numberedId 1) (numberedId 3) (greeting (numberedId 3)) (numberedId 4), .addNode (numberedId 3) 1,
    .added (numberedId 3), .removeBranch (numberedId 3), .remove 0]

def cleared : Mapping := (machine.runUnder meets machine.init replyAndClear).getD .initial

theorem intact_cleared : cleared.Intact := by
  have runs : (machine.runUnder meets machine.init replyAndClear).isSome = true := by decide +kernel
  have ran : machine.runUnder meets machine.init replyAndClear = some cleared :=
    Machine.eq_some_getD runs _
  have settled : cleared.Settled := by
    have done : (cleared.adding.entries.isEmpty && (cleared.registering.entries.isEmpty && cleared.removing.isEmpty)) =
        true := by decide +kernel
    simpa [Settled] using done
  exact intact_of_reachable cleared (Machine.reachableUnder_of_runUnder .init ran) settled

/-- A new tree, its status message, and `remove_branch` of the root. -/
def createAndClear : List MappingStep :=
  [.createTree (numberedId 1) (greeting (numberedId 1)) (numberedId 2) 0, .registerNode (numberedId 2) (numberedId 1),
    .removeBranch (numberedId 1), .remove 0]

def stranded : Mapping := (machine.run machine.init createAndClear).getD .initial

/-- The status message of a removed tree still leads to it. -/
theorem not_intact : ¬ ∀ s, machine.Reachable s → s.Settled → s.Intact := by
  intro all
  have runs : (machine.run machine.init createAndClear).isSome = true := by decide +kernel
  have ran : machine.run machine.init createAndClear = some stranded :=
    Machine.eq_some_getD runs _
  have settled : stranded.Settled := by
    have done : (stranded.adding.entries.isEmpty && (stranded.registering.entries.isEmpty && stranded.removing.isEmpty)) =
        true := by decide +kernel
    simpa [Settled] using done
  have mapped : stranded.repository.nodeToTree.get? (numberedId 2) = some (numberedId 1) := by decide +kernel
  have gone : stranded.repository.getTree (numberedId 1) = none := by decide +kernel
  rcases (all stranded (Machine.reachable_of_run ran) settled).mapped _ _ mapped with ⟨tree, _, _, live, _⟩
  rw [liveTree, gone] at live
  cases live

end ClaudeProxy.Manager.Mapping
