import Mathlib.Data.Char
import Mathlib.Data.List.Lex
import Mathlib.Data.List.Sort
import Mathlib.Data.Prod.Lex
import ClaudeProxy.Kit.Retry
import ClaudeProxy.Sessions.Store

namespace ClaudeProxy.Sessions

open Kit

abbrev PgText := List Char

/-- A row of `fcc_session_message_log` beside its primary key. -/
structure LogRow where
  ts : PgText
  direction : PgText
  kind : PgText

/-- `(platform, chat_id, message_id)` -/
abbrev LogKey := PgText × PgText × PgText

/-- `ORDER BY ts DESC`, where the server breaks ties in some way of its own. -/
structure RowOrder where
  time : PgText → Int
  before : LogKey × LogRow → LogKey × LogRow → Bool
  newest_first : ∀ a b, before a b = true → time b.2.ts ≤ time a.2.ts
  total : ∀ a b, before a b = true ∨ before b a = true
  transitive : ∀ a b c, before a b = true → before b c = true → before a c = true
  antisymmetric : ∀ a b, before a b = true → before b a = true → a = b

abbrev RowRank := Int ×ₗ (List Char ×ₗ List Char ×ₗ List Char) ×ₗ List Char ×ₗ List Char ×ₗ List Char

def rowRank (time : PgText → Int) (entry : LogKey × LogRow) : RowRank :=
  toLex (-time entry.2.ts, toLex (toLex (entry.1.1, toLex (entry.1.2.1, entry.1.2.2)),
    toLex (entry.2.ts, toLex (entry.2.direction, entry.2.kind))))

/-- Ties broken by the primary key. -/
def RowOrder.ofTime (time : PgText → Int) : RowOrder where
  time := time
  before a b := decide (rowRank time a ≤ rowRank time b)
  newest_first a b first := by
    have times : -time a.2.ts ≤ -time b.2.ts := Prod.Lex.monotone_fst _ _ (of_decide_eq_true first)
    omega
  total a b := by simpa using le_total (rowRank time a) (rowRank time b)
  transitive a b c first second := decide_eq_true ((of_decide_eq_true first).trans (of_decide_eq_true second))
  antisymmetric a b first second := by
    have same := le_antisymm (of_decide_eq_true first) (of_decide_eq_true second)
    obtain ⟨⟨p, c, m⟩, ⟨t, d, k⟩⟩ := a
    obtain ⟨⟨p', c', m'⟩, ⟨t', d', k'⟩⟩ := b
    simp only [rowRank, EmbeddingLike.apply_eq_iff_eq, Prod.mk.injEq] at same
    obtain ⟨_, ⟨rfl, rfl, rfl⟩, rfl, rfl, rfl⟩ := same
    rfl

/-- The three tables of the store. -/
structure PgState (Id Node : Type) [DecidableEq Id] where
  tables : PostgresSessionStore Id Node
  log : Dict LogKey LogRow

inductive PgStatement (Id Node : Type) where
  | tables (statement : Statement Id Id (TreeData Id Node))
  | insertLog (key : LogKey) (row : LogRow)
  | capLog (platform chatId : PgText) (cap : Nat)
  | truncateLog

inductive PgCall (Id Node : Type) where
  | store (op : StoreOp Id Node)
  | recordMessageId (platform chatId : PgText) (messageId : Option PgText) (direction kind now : PgText)

section Statements

variable {Id Node : Type} [DecidableEq Id] (order : RowOrder)

def chatRows (log : Dict LogKey LogRow) (platform chatId : PgText) : List (LogKey × LogRow) :=
  log.entries.filter fun entry => entry.1.1 = platform ∧ entry.1.2.1 = chatId

def RowOrder.sorted (rows : List (LogKey × LogRow)) : List (LogKey × LogRow) :=
  rows.insertionSort fun a b => order.before a b = true

/-- The keys of a chat's rows with `rn > cap`. -/
def surplus (log : Dict LogKey LogRow) (platform chatId : PgText) (cap : Nat) : List LogKey :=
  ((order.sorted (chatRows log platform chatId)).drop cap).map Prod.fst

def PgState.exec (s : PgState Id Node) : PgStatement Id Node → Option (PgState Id Node)
  | .tables statement => (s.tables.exec statement).map fun tables => { s with tables := tables }
  | .insertLog key row => some { s with log := if s.log.contains key then s.log else s.log.set key row }
  | .capLog platform chatId cap =>
    some { s with log := s.log.filter fun key _ => key ∉ surplus order s.log platform chatId cap }
  | .truncateLog => some { s with log := .empty }

/-- What a call executes, one statement after the other with autocommit. -/
def PgCall.statements (cap : Option Int) : PgCall Id Node → List (PgStatement Id Node)
  | .store .clearAll => .truncateLog :: (PostgresSessionStore.statements .clearAll).map .tables
  | .store op => (PostgresSessionStore.statements op).map .tables
  | .recordMessageId _ _ none _ _ _ => []
  | .recordMessageId platform chatId (some mid) direction kind now =>
    .insertLog (platform, chatId, mid) ⟨now, direction, kind⟩ ::
      (match cap with
      | some cap => if 0 < cap then [.capLog platform chatId cap.toNat] else []
      | none => [])

/-- The same rows, in whatever order the server keeps them. -/
def TablesAlike (left right : PostgresSessionStore Id Node) : Prop :=
  Dict.Same left.parents right.parents ∧ Dict.Same left.children right.children

def PgAlike (left right : PgState Id Node) : Prop := TablesAlike left.tables right.tables ∧ Dict.Same left.log right.log

end Statements

section Likeness

variable {Id Node : Type} [DecidableEq Id] {order : RowOrder}

theorem tablesAlike_equivalence : Equivalence (TablesAlike : PostgresSessionStore Id Node → _ → Prop) where
  refl _ := ⟨fun _ => rfl, fun _ => rfl⟩
  symm same := ⟨fun k => (same.1 k).symm, fun k => (same.2 k).symm⟩
  trans first second := ⟨fun k => (first.1 k).trans (second.1 k), fun k => (first.2 k).trans (second.2 k)⟩

theorem pgAlike_equivalence : Equivalence (PgAlike : PgState Id Node → _ → Prop) where
  refl s := ⟨tablesAlike_equivalence.refl s.tables, fun _ => rfl⟩
  symm same := ⟨tablesAlike_equivalence.symm same.1, fun k => (same.2 k).symm⟩
  trans first second := ⟨tablesAlike_equivalence.trans first.1 second.1, fun k => (first.2 k).trans (second.2 k)⟩

theorem same_filter {κ ν : Type} [DecidableEq κ] {left right : Dict κ ν} (same : Dict.Same left right) {keep keep' : κ → ν → Bool}
    (agree : ∀ k v, keep k v = keep' k v) : Dict.Same (left.filter keep) (right.filter keep') := by
  intro k
  rw [Dict.get?_filter, Dict.get?_filter, same k]
  exact congrArg (Option.filter · (right.get? k)) (funext (agree k))

theorem contains_of_same {κ ν : Type} [DecidableEq κ] {left right : Dict κ ν} (same : Dict.Same left right) (k : κ) :
    left.contains k = right.contains k := by
  rw [Dict.contains, Dict.contains, same k]

theorem exec_alike {left right : PostgresSessionStore Id Node} (same : TablesAlike left right)
    (statement : Statement Id Id (TreeData Id Node)) : Option.Rel TablesAlike (left.exec statement) (right.exec statement) := by
  obtain ⟨parents, children⟩ := same
  cases statement with
  | insertParent k row =>
    simp only [Tables.exec, contains_of_same parents k]
    split_ifs
    · exact .none
    · exact .some ⟨parents.set k row, children⟩
  | upsertParent k row => exact .some ⟨parents.set k row, children⟩
  | upsertChild i k =>
    by_cases there : (left.parents.get? k).isSome = true
    · have there' : (right.parents.get? k).isSome = true := parents k ▸ there
      rw [Tables.exec, dif_pos there, Tables.exec, dif_pos there']
      exact .some ⟨parents, children.set i k⟩
    · have absent : ¬(right.parents.get? k).isSome = true := parents k ▸ there
      rw [Tables.exec, dif_neg there, Tables.exec, dif_neg absent]
      exact .none
  | deleteParent k =>
    refine .some ⟨fun key => ?_, same_filter children fun _ _ => rfl⟩
    show (left.parents.erase k).get? key = (right.parents.erase k).get? key
    rw [Dict.get?_erase, Dict.get?_erase, parents key]
  | deleteChildrenOf k => exact .some ⟨parents, same_filter children fun _ _ => rfl⟩
  | deleteChildren is => exact .some ⟨parents, same_filter children fun _ _ => rfl⟩
  | truncateChildren => exact .some ⟨parents, same_filter children fun _ _ => rfl⟩
  | truncateParents => exact .none

theorem entries_perm_of_same {κ ν : Type} [DecidableEq κ] {left right : Dict κ ν} (same : Dict.Same left right) :
    left.entries.Perm right.entries := by
  refine (List.perm_ext_iff_of_nodup (List.Nodup.of_map _ left.nodup) (List.Nodup.of_map _ right.nodup)).mpr fun entry => ?_
  obtain ⟨k, v⟩ := entry
  rw [← Dict.get?_eq_some_iff, ← Dict.get?_eq_some_iff, same k]

theorem sorted_perm (order : RowOrder) (rows : List (LogKey × LogRow)) : (order.sorted rows).Perm rows :=
  List.perm_insertionSort _ rows

theorem sorted_eq_of_perm {left right : List (LogKey × LogRow)} (same : left.Perm right) :
    order.sorted left = order.sorted right := by
  have total : Std.Total fun a b => order.before a b = true := ⟨order.total⟩
  have transitive : IsTrans (LogKey × LogRow) fun a b => order.before a b = true := ⟨order.transitive⟩
  have ascending : ∀ rows, (order.sorted rows).Pairwise fun a b => order.before a b = true :=
    fun rows => List.pairwise_insertionSort _ rows
  refine List.Perm.eq_of_pairwise (fun a b _ _ => order.antisymmetric a b) (ascending left) (ascending right) ?_
  exact (sorted_perm order left).trans (same.trans (sorted_perm order right).symm)

theorem surplus_eq_of_same {left right : Dict LogKey LogRow} (same : Dict.Same left right) (platform chatId : PgText)
    (cap : Nat) : surplus order left platform chatId cap = surplus order right platform chatId cap := by
  unfold surplus chatRows
  rw [sorted_eq_of_perm ((entries_perm_of_same same).filter _)]

def inserted (log : Dict LogKey LogRow) (key : LogKey) (row : LogRow) : Dict LogKey LogRow :=
  if log.contains key then log else log.set key row

def capped (order : RowOrder) (log : Dict LogKey LogRow) (platform chatId : PgText) (cap : Nat) : Dict LogKey LogRow :=
  log.filter fun key _ => key ∉ surplus order log platform chatId cap

theorem inserted_alike {left right : Dict LogKey LogRow} (same : Dict.Same left right) (key : LogKey) (row : LogRow) :
    Dict.Same (inserted left key row) (inserted right key row) := by
  unfold inserted
  rw [contains_of_same same key]
  split_ifs
  · exact same
  · exact same.set key row

theorem capped_alike {left right : Dict LogKey LogRow} (same : Dict.Same left right) (platform chatId : PgText) (cap : Nat) :
    Dict.Same (capped order left platform chatId cap) (capped order right platform chatId cap) :=
  same_filter same fun k _ => by rw [surplus_eq_of_same same]

theorem pg_alike : Interchangeable (@PgState.exec Id Node _ order) PgAlike where
  equivalence := pgAlike_equivalence
  exec left right statement same := by
    obtain ⟨tables, log⟩ := same
    cases statement with
    | tables statement =>
      show Option.Rel PgAlike ((left.tables.exec statement).map _) ((right.tables.exec statement).map _)
      have both := exec_alike tables statement
      generalize left.tables.exec statement = one at both ⊢
      generalize right.tables.exec statement = other at both ⊢
      cases both with
      | none => exact .none
      | some after => exact .some ⟨after, log⟩
    | insertLog key row => exact .some ⟨tables, inserted_alike log key row⟩
    | capLog platform chatId cap => exact .some ⟨tables, capped_alike log platform chatId cap⟩
    | truncateLog => exact .some ⟨tables, fun _ => rfl⟩

end Likeness

section Statements

variable {Id Node : Type} {cap : Option Int}

theorem statements_store {op : StoreOp Id Node} (other : op ≠ .clearAll) :
    PgCall.statements cap (.store op) = (PostgresSessionStore.statements op).map .tables := by
  cases op with
  | clearAll => exact absurd rfl other
  | _ => rfl

theorem statements_uncapped (unlimited : ¬ ∃ limit ∈ cap, 0 < limit) (platform chatId mid direction kind now : PgText) :
    PgCall.statements cap (.recordMessageId platform chatId (some mid) direction kind now) =
      ([.insertLog (platform, chatId, mid) ⟨now, direction, kind⟩] : List (PgStatement Id Node)) := by
  cases cap with
  | none => rfl
  | some limit => simp only [PgCall.statements, if_neg fun positive => unlimited ⟨limit, rfl, positive⟩]

theorem statements_capped {limit : Int} (positive : 0 < limit) (platform chatId mid direction kind now : PgText) :
    PgCall.statements (some limit) (.recordMessageId platform chatId (some mid) direction kind now) =
      ([.insertLog (platform, chatId, mid) ⟨now, direction, kind⟩, .capLog platform chatId limit.toNat] :
        List (PgStatement Id Node)) := by
  simp only [PgCall.statements, if_pos positive]

end Statements

section Calls

variable {Id Node : Type} [DecidableEq Id] {order : RowOrder}

abbrev TableScript (Id Node : Type) := List (Statement Id Id (TreeData Id Node))

/-- The tables of trees and mappings by themselves. -/
def execTables (tables : PostgresSessionStore Id Node) (statement : Statement Id Id (TreeData Id Node)) :
    Option (PostgresSessionStore Id Node) := tables.exec statement

theorem script_eq_runScript (tables : PostgresSessionStore Id Node) (statements : TableScript Id Node) :
    tables.script statements = runScript execTables tables statements := by
  induction statements generalizing tables with
  | nil => rfl
  | cons statement rest ih =>
    rw [Tables.script, runScript, execTables]
    cases tables.exec statement with
    | none => rfl
    | some next => exact ih next

theorem exec_tables (s : PgState Id Node) (statement : Statement Id Id (TreeData Id Node)) :
    s.exec order (.tables statement) = (execTables s.tables statement).map fun tables => { s with tables := tables } := rfl

theorem runScript_tables (s : PgState Id Node) (statements : TableScript Id Node) :
    runScript (PgState.exec order) s (statements.map .tables) =
      ({ s with tables := (runScript execTables s.tables statements).1 }, (runScript execTables s.tables statements).2) := by
  induction statements generalizing s with
  | nil => rfl
  | cons statement rest ih =>
    rw [List.map_cons, runScript, runScript, exec_tables]
    cases execTables s.tables statement with
    | none => rfl
    | some next => exact ih _

theorem repeatable_of_tables {s : PgState Id Node} {statements : TableScript Id Node}
    (again : RepeatableFrom execTables TablesAlike s.tables statements) :
    RepeatableFrom (PgState.exec order) PgAlike s (statements.map .tables) := by
  intro lost accepted
  rw [← List.map_take, runScript_tables] at accepted ⊢
  obtain ⟨same, flag⟩ := again lost accepted
  rw [runScript_tables, runScript_tables]
  exact ⟨⟨same, fun _ => rfl⟩, flag⟩

section Tables

variable {tables : PostgresSessionStore Id Node}

theorem tables_alike : Interchangeable (@execTables Id Node _) TablesAlike where
  equivalence := tablesAlike_equivalence
  exec _ _ statement same := exec_alike same statement

theorem repeatable_registerNode (nodeId rootId : Id) :
    RepeatableFrom execTables TablesAlike tables
      (PostgresSessionStore.statements (.registerNode nodeId rootId : StoreOp Id Node)) := by
  refine repeatable_single tables_alike fun next done => ?_
  by_cases there : (tables.parents.get? rootId).isSome = true
  · have once : execTables tables (.upsertChild nodeId rootId) = some (tables.upsertChild nodeId rootId there) := dif_pos there
    cases once.symm.trans done
    refine ⟨_, dif_pos there, fun _ => rfl, fun i => ?_⟩
    show ((tables.children.set nodeId rootId).set nodeId rootId).get? i = (tables.children.set nodeId rootId).get? i
    rw [Dict.set_set]
  · have refused : execTables tables (.upsertChild nodeId rootId) = none := dif_neg there
    cases refused.symm.trans done

theorem get?_filter_twice {κ ν : Type} [DecidableEq κ] (d : Dict κ ν) (keep : κ → ν → Bool) (k : κ) :
    ((d.filter keep).filter keep).get? k = (d.filter keep).get? k := by
  rw [Dict.get?_filter, Dict.get?_filter, Option.filter_filter]
  simp

theorem repeatable_removeNodeMappings (nodeIds : List Id) :
    RepeatableFrom execTables TablesAlike tables
      (PostgresSessionStore.statements (.removeNodeMappings nodeIds : StoreOp Id Node)) := by
  show RepeatableFrom execTables TablesAlike tables (if nodeIds = [] then [] else [.deleteChildren nodeIds])
  split_ifs
  · exact repeatable_nil tables_alike tables
  · refine repeatable_single tables_alike fun next done => ?_
    cases done
    exact ⟨_, rfl, fun _ => rfl, get?_filter_twice _ _⟩

theorem repeatable_removeTree (rootId : Id) :
    RepeatableFrom execTables TablesAlike tables
      (PostgresSessionStore.statements (.removeTree rootId : StoreOp Id Node)) := by
  refine repeatable_single tables_alike fun next done => ?_
  cases done
  refine ⟨_, rfl, fun k => ?_, get?_filter_twice _ _⟩
  show ((tables.parents.erase rootId).erase rootId).get? k = (tables.parents.erase rootId).get? k
  rw [Dict.get?_erase, Dict.get?_erase]
  split_ifs <;> rfl

/-- The second statement is always rejected, so the rest is never reached. -/
theorem repeatable_syncFromTreeData (trees : Dict Id (TreeData Id Node)) (nodeToTree : Dict Id Id) :
    RepeatableFrom execTables TablesAlike tables
      (PostgresSessionStore.statements (.syncFromTreeData trees nodeToTree)) := by
  intro lost accepted
  unfold PostgresSessionStore.statements at accepted ⊢
  match lost with
  | 0 => exact ⟨tablesAlike_equivalence.refl _, rfl⟩
  | 1 => exact ⟨⟨fun _ => rfl, get?_filter_twice _ _⟩, rfl⟩
  | lost + 2 => cases accepted

/-- What a saved tree leaves, whatever of it was there before. -/
theorem runScript_saveTree (tables : PostgresSessionStore Id Node) (rootId : Id) (treeData : TreeData Id Node) :
    let after := runScript execTables tables (PostgresSessionStore.statements (.saveTree rootId treeData))
    after.2 = true ∧ Dict.Same after.1.parents (tables.parents.set rootId treeData) ∧
      ∀ i, after.1.children.get? i =
        if i ∈ treeData.nodes.keys then some rootId else (tables.children.get? i).filter fun key => key ≠ rootId := by
  intro after
  let cleared := (tables.upsertParent rootId treeData).keepChildren fun _ key => key ≠ rootId
  have there : (cleared.parents.get? rootId).isSome = true := by simp [cleared, Tables.keepChildren, Tables.upsertParent]
  have shape : after = cleared.script (treeData.nodes.keys.map fun nodeId => .upsertChild nodeId rootId) := by
    show runScript execTables cleared _ = _
    rw [script_eq_runScript]
  obtain ⟨ok, parents, children⟩ := cleared.script_upsertChildren treeData.nodes.keys there
  rw [shape, parents]
  refine ⟨ok, fun _ => rfl, fun i => ?_⟩
  rw [children]
  exact congrArg (if i ∈ treeData.nodes.keys then some rootId else ·) (Dict.get?_filter ..)

theorem repeatable_saveTree (rootId : Id) (treeData : TreeData Id Node) :
    RepeatableFrom execTables TablesAlike tables (PostgresSessionStore.statements (.saveTree rootId treeData)) := by
  refine repeatable_of_invariant (fun u => (∀ k, k ≠ rootId → u.parents.get? k = tables.parents.get? k) ∧
    ∀ i, i ∉ treeData.nodes.keys → (u.children.get? i).filter (fun key => key ≠ rootId) =
      (tables.children.get? i).filter fun key => key ≠ rootId) ⟨fun _ _ => rfl, fun _ _ => rfl⟩ ?_ ?_
  · rintro u ⟨parents, children⟩ statement mem next done
    unfold PostgresSessionStore.statements at mem
    rcases List.mem_cons.mp mem with rfl | mem
    · cases done
      refine ⟨fun k other => ?_, children⟩
      exact (Dict.get?_set_ne u.parents treeData other).trans (parents k other)
    rcases List.mem_cons.mp mem with rfl | mem
    · cases done
      refine ⟨parents, fun i outside => ?_⟩
      show Option.filter _ ((u.children.filter fun _ key => key ≠ rootId).get? i) = _
      rw [Dict.get?_filter, Option.filter_filter, ← children i outside]
      simp
    · obtain ⟨nodeId, inside, rfl⟩ := List.mem_map.mp mem
      by_cases there : (u.parents.get? rootId).isSome = true
      · have once : execTables u (.upsertChild nodeId rootId) = some (u.upsertChild nodeId rootId there) := dif_pos there
        cases once.symm.trans done
        refine ⟨parents, fun i outside => ?_⟩
        have other : i ≠ nodeId := fun same => outside (same ▸ inside)
        show Option.filter _ ((u.children.set nodeId rootId).get? i) = _
        rw [Dict.get?_set_ne _ _ other]
        exact children i outside
      · have refused : execTables u (.upsertChild nodeId rootId) = none := dif_neg there
        cases refused.symm.trans done
  · rintro u ⟨parents, children⟩
    obtain ⟨ok, left, left'⟩ := runScript_saveTree u rootId treeData
    obtain ⟨ok', right, right'⟩ := runScript_saveTree tables rootId treeData
    refine ⟨⟨fun k => ?_, fun i => ?_⟩, ok.trans ok'.symm⟩
    · rw [left k, right k, Dict.get?_set, Dict.get?_set]
      split_ifs with here
      · rfl
      · exact parents k here
    · rw [left' i, right' i]
      split_ifs with inside
      · rfl
      · exact children i inside

end Tables

section Log

variable {log : Dict LogKey LogRow} {platform chatId : PgText} {cap : Nat}

theorem length_surplus (order : RowOrder) (log : Dict LogKey LogRow) (platform chatId : PgText) (cap : Nat) :
    (surplus order log platform chatId cap).length = (chatRows log platform chatId).length - cap := by
  rw [surplus, List.length_map, List.length_drop, (sorted_perm order _).length_eq]

/-- Within the cap there is nothing to delete. -/
theorem surplus_of_short (short : (chatRows log platform chatId).length ≤ cap) :
    surplus order log platform chatId cap = [] := by
  apply List.eq_nil_of_length_eq_zero
  rw [length_surplus]
  omega

theorem chatRows_filter (keep : LogKey → LogRow → Bool) :
    chatRows (log.filter keep) platform chatId = (chatRows log platform chatId).filter fun entry => keep entry.1 entry.2 := by
  unfold chatRows Dict.filter
  rw [List.filter_filter, List.filter_filter]
  refine List.filter_congr fun entry _ => ?_
  rw [Bool.and_comm]

/-- A capped chat has no more rows than the cap. -/
theorem length_capped (order : RowOrder) (log : Dict LogKey LogRow) (platform chatId : PgText) (cap : Nat) :
    (chatRows (log.filter fun key _ => key ∉ surplus order log platform chatId cap) platform chatId).length ≤ cap := by
  rw [chatRows_filter]
  have reordered := (sorted_perm order (chatRows log platform chatId)).filter
    fun entry => decide (entry.1 ∉ surplus order log platform chatId cap)
  rw [← reordered.length_eq]
  rw [← List.take_append_drop cap (order.sorted (chatRows log platform chatId)), List.filter_append, List.length_append]
  have dropped : ((order.sorted (chatRows log platform chatId)).drop cap).filter
      (fun entry => decide (entry.1 ∉ surplus order log platform chatId cap)) = [] := by
    refine List.filter_eq_nil_iff.mpr fun entry mem kept => ?_
    exact of_decide_eq_true kept (List.mem_map_of_mem mem)
  rw [dropped, List.length_nil, Nat.add_zero]
  exact Nat.le_trans (List.length_filter_le _ _) (List.length_take_le _ _)

/-- Every chat is within the cap, if there is one. -/
def WithinCap (cap : Option Int) (log : Dict LogKey LogRow) : Prop :=
  ∀ limit ∈ cap, 0 < limit → ∀ platform chatId, (chatRows log platform chatId).length ≤ limit.toNat

theorem chatRows_insert {key : LogKey} {row : LogRow} (absent : key ∉ log.keys) (platform chatId : PgText) :
    chatRows (log.set key row) platform chatId =
      if key.1 = platform ∧ key.2.1 = chatId then chatRows log platform chatId ++ [(key, row)] else chatRows log platform chatId := by
  unfold chatRows
  rw [Dict.entries_set_of_absent absent, List.filter_append, List.filter_singleton]
  by_cases here : key.1 = platform ∧ key.2.1 = chatId
  · rw [if_pos here, decide_eq_true here]
    rfl
  · rw [if_neg here, decide_eq_false here]
    exact List.append_nil _

theorem capped_of_short (short : (chatRows log platform chatId).length ≤ cap) :
    Dict.Same (capped order log platform chatId cap) log := by
  intro k
  unfold capped
  rw [surplus_of_short short, Dict.get?_filter]
  cases log.get? k with
  | none => rfl
  | some row => simp

theorem inserted_twice (log : Dict LogKey LogRow) (key : LogKey) (row : LogRow) :
    inserted (inserted log key row) key row = inserted log key row := by
  unfold inserted
  split_ifs with here again
  · rfl
  · rfl
  · rw [Dict.contains, Dict.get?_set_self] at again
    exact absurd rfl again

theorem capped_inserted_lost {mid : PgText} {row : LogRow} (within : (chatRows log platform chatId).length ≤ cap)
    (lost : ¬(capped order (inserted log (platform, chatId, mid) row) platform chatId cap).contains (platform, chatId, mid) = true) :
    Dict.Same (capped order (inserted log (platform, chatId, mid) row) platform chatId cap) log := by
  by_cases there : log.contains (platform, chatId, mid) = true
  · have same : inserted log (platform, chatId, mid) row = log := if_pos there
    rw [same] at lost ⊢
    exact capped_of_short within
  · have absent : (platform, chatId, mid) ∉ log.keys := fun mem => there ((Dict.contains_iff log _).mpr mem)
    have new : inserted log (platform, chatId, mid) row = log.set (platform, chatId, mid) row := if_neg there
    rw [new] at lost ⊢
    have rows : (chatRows (log.set (platform, chatId, mid) row) platform chatId).length ≤ cap + 1 := by
      rw [chatRows_insert absent, if_pos ⟨rfl, rfl⟩, List.length_append]
      exact Nat.succ_le_succ within
    have few := length_surplus order (log.set (platform, chatId, mid) row) platform chatId cap
    have gone : (platform, chatId, mid) ∈ surplus order (log.set (platform, chatId, mid) row) platform chatId cap := by
      by_contra kept
      refine lost ?_
      rw [Dict.contains, capped, Dict.get?_filter, Dict.get?_set_self]
      simp [kept]
    have only : ∀ key ∈ surplus order (log.set (platform, chatId, mid) row) platform chatId cap,
        key = (platform, chatId, mid) := by
      generalize surplus order (log.set (platform, chatId, mid) row) platform chatId cap = keys at few gone
      have one : keys.length = 1 := by
        have some := List.length_pos_of_mem gone
        omega
      obtain ⟨key, rfl⟩ := List.length_eq_one_iff.mp one
      intro other mem
      exact (List.mem_singleton.mp mem).trans (List.mem_singleton.mp gone).symm
    intro k
    rw [capped, Dict.get?_filter, Dict.get?_set]
    by_cases here : k = (platform, chatId, mid)
    · subst here
      rw [if_pos rfl, Option.filter_some, (Dict.get?_eq_none_iff log _).mpr absent]
      simp [gone]
    · rw [if_neg here]
      have kept : k ∉ surplus order (log.set (platform, chatId, mid) row) platform chatId cap := fun mem => here (only k mem)
      cases log.get? k with
      | none => rfl
      | some _ => simp [kept]

/-- To insert and cap once more changes nothing in a chat that was within its cap. -/
theorem capped_inserted_again {mid : PgText} {row : LogRow} (within : (chatRows log platform chatId).length ≤ cap) :
    let once := capped order (inserted log (platform, chatId, mid) row) platform chatId cap
    Dict.Same (capped order (inserted once (platform, chatId, mid) row) platform chatId cap) once := by
  intro once
  have short : (chatRows once platform chatId).length ≤ cap := length_capped order _ platform chatId cap
  by_cases still : once.contains (platform, chatId, mid) = true
  · -- the row is there, or was there all along
    have same : inserted once (platform, chatId, mid) row = once := if_pos still
    rw [same]
    exact capped_of_short short
  · -- the new row was the one too many, so the first attempt has left the log as it was
    have back : Dict.Same once log := capped_inserted_lost within still
    intro k
    exact capped_alike (inserted_alike back _ row) platform chatId cap k

end Log

section Repeated

variable {s : PgState Id Node} {cap : Option Int}

theorem exec_insertLog (key : LogKey) (row : LogRow) :
    s.exec order (.insertLog key row) = some { s with log := inserted s.log key row } := rfl

theorem repeatable_insertLog (key : LogKey) (row : LogRow) :
    RepeatableFrom (PgState.exec order) PgAlike s [.insertLog key row] := by
  refine repeatable_single pg_alike fun next done => ?_
  cases (exec_insertLog key row).symm.trans done
  refine ⟨_, exec_insertLog key row, ?_⟩
  show PgAlike { s with log := inserted (inserted s.log key row) key row } { s with log := inserted s.log key row }
  rw [inserted_twice]
  exact pgAlike_equivalence.refl _

theorem runScript_insertCap (s : PgState Id Node) (key : LogKey) (row : LogRow) (platform chatId : PgText) (limit : Nat) :
    runScript (PgState.exec order) s [.insertLog key row, .capLog platform chatId limit] =
      ({ s with log := capped order (inserted s.log key row) platform chatId limit }, true) := rfl

theorem repeatable_insertCap {platform chatId mid : PgText} {row : LogRow} {limit : Nat}
    (within : (chatRows s.log platform chatId).length ≤ limit) :
    RepeatableFrom (PgState.exec order) PgAlike s
      [.insertLog (platform, chatId, mid) row, .capLog platform chatId limit] := by
  intro lost _
  match lost with
  | 0 => exact ⟨pgAlike_equivalence.refl _, rfl⟩
  | 1 =>
    have once : runScript (PgState.exec order) s [.insertLog (platform, chatId, mid) row] =
        ({ s with log := inserted s.log (platform, chatId, mid) row }, true) := rfl
    rw [List.take_succ_cons, List.take_zero, once, runScript_insertCap, runScript_insertCap, inserted_twice]
    exact ⟨pgAlike_equivalence.refl _, rfl⟩
  | lost + 2 =>
    rw [List.take_succ_cons, List.take_succ_cons, List.take_nil, runScript_insertCap, runScript_insertCap]
    exact ⟨⟨tablesAlike_equivalence.refl _, capped_inserted_again within⟩, rfl⟩

/-- The truncation of the trees is refused every time, because of the reference to them. -/
theorem repeatable_clearAll :
    RepeatableFrom (PgState.exec order) PgAlike s (PgCall.statements cap (.store .clearAll)) := by
  intro lost accepted
  unfold PgCall.statements PostgresSessionStore.statements at accepted ⊢
  match lost with
  | 0 => exact ⟨pgAlike_equivalence.refl _, rfl⟩
  | 1 => exact ⟨⟨⟨fun _ => rfl, fun _ => rfl⟩, fun _ => rfl⟩, rfl⟩
  | 2 => exact ⟨⟨⟨fun _ => rfl, get?_filter_twice _ _⟩, fun _ => rfl⟩, rfl⟩
  | lost + 3 => cases accepted

theorem repeatable_call (within : WithinCap cap s.log) (call : PgCall Id Node) :
    RepeatableFrom (PgState.exec order) PgAlike s (call.statements cap) := by
  cases call with
  | store op =>
    cases op with
    | registerNode nodeId rootId => exact repeatable_of_tables (repeatable_registerNode nodeId rootId)
    | saveTree rootId treeData => exact repeatable_of_tables (repeatable_saveTree rootId treeData)
    | removeNodeMappings nodeIds => exact repeatable_of_tables (repeatable_removeNodeMappings nodeIds)
    | removeTree rootId => exact repeatable_of_tables (repeatable_removeTree rootId)
    | clearAll => exact repeatable_clearAll
    | syncFromTreeData trees nodeToTree => exact repeatable_of_tables (repeatable_syncFromTreeData trees nodeToTree)
    | payloadChanged rootId treeData => exact repeatable_nil pg_alike s
  | recordMessageId platform chatId messageId direction kind now =>
    cases messageId with
    | none => exact repeatable_nil pg_alike s
    | some mid =>
      by_cases limited : ∃ limit ∈ cap, 0 < limit
      · obtain ⟨limit, rfl, positive⟩ := limited
        rw [statements_capped positive]
        exact repeatable_insertCap (within limit rfl positive platform chatId)
      · rw [statements_uncapped limited]
        exact repeatable_insertLog _ _

theorem within_of_same {left right : Dict LogKey LogRow} (same : Dict.Same left right) (within : WithinCap cap left) :
    WithinCap cap right := by
  intro limit mem positive platform chatId
  have perm := (entries_perm_of_same same).filter fun entry => entry.1.1 = platform ∧ entry.1.2.1 = chatId
  exact perm.length_eq ▸ within limit mem positive platform chatId

theorem within_empty : WithinCap cap (.empty : Dict LogKey LogRow) := fun _ _ _ _ _ => Nat.zero_le _

theorem within_capped {log : Dict LogKey LogRow} {key : LogKey} {row : LogRow} {limit : Int}
    (within : WithinCap (some limit) log) :
    WithinCap (some limit) (capped order (inserted log key row) key.1 key.2.1 limit.toNat) := by
  intro other mem positive platform chatId
  cases mem
  by_cases here : key.1 = platform ∧ key.2.1 = chatId
  · obtain ⟨rfl, rfl⟩ := here
    exact length_capped order _ _ _ _
  · have fewer : (chatRows (capped order (inserted log key row) key.1 key.2.1 limit.toNat) platform chatId).length ≤
        (chatRows (inserted log key row) platform chatId).length := by
      unfold capped
      rw [chatRows_filter]
      exact List.length_filter_le _ _
    have elsewhere : chatRows (inserted log key row) platform chatId = chatRows log platform chatId := by
      unfold inserted
      split_ifs with there
      · rfl
      · rw [chatRows_insert fun mem => there ((Dict.contains_iff log key).mpr mem), if_neg here]
    rw [elsewhere] at fewer
    exact fewer.trans (within limit rfl positive platform chatId)

theorem within_call (within : WithinCap cap s.log) (call : PgCall Id Node) :
    WithinCap cap (runScript (PgState.exec order) s (call.statements cap)).1.log := by
  cases call with
  | store op =>
    by_cases clear : op = .clearAll
    · subst clear
      exact within_empty
    · rw [statements_store clear, runScript_tables]
      exact within
  | recordMessageId platform chatId messageId direction kind now =>
    cases messageId with
    | none => exact within
    | some mid =>
      by_cases limited : ∃ limit ∈ cap, 0 < limit
      · obtain ⟨limit, rfl, positive⟩ := limited
        rw [statements_capped positive]
        exact within_capped within
      · exact fun limit mem positive => absurd ⟨limit, mem, positive⟩ limited

/-- Whatever attempts are cut off, and wherever: the rows at the end are those of the same calls undisturbed, each call
    returns or raises as it does there, and the log is within the cap again. -/
theorem retried_once_exact (order : RowOrder) (cap : Option Int) (s : PgState Id Node) (within : WithinCap cap s.log)
    (calls : List (PgCall Id Node × Option Nat)) :
    let cut := runCalls (PgState.exec order) s (calls.map fun call => (call.1.statements cap, call.2))
    let undisturbed := runCalls (PgState.exec order) s (calls.map fun call => (call.1.statements cap, none))
    PgAlike cut.1 undisturbed.1 ∧ cut.2 = undisturbed.2 ∧ WithinCap cap cut.1.log := by
  have again : ∀ call ∈ calls.map fun call => (call.1.statements cap, call.2), ∀ s : PgState Id Node, WithinCap cap s.log →
      RepeatableFrom (PgState.exec order) PgAlike s call.1 ∧ WithinCap cap (runScript (PgState.exec order) s call.1).1.log := by
    intro call mem s within
    obtain ⟨⟨pgCall, lost⟩, _, rfl⟩ := List.mem_map.mp mem
    exact ⟨repeatable_call within pgCall, within_call within pgCall⟩
  have both := runCalls_of_repeatable pg_alike (fun _ _ same sound => within_of_same same.2 sound) again
    (pgAlike_equivalence.refl s) within
  rw [List.map_map] at both
  exact both

/-- The digits of a UTC time of `isoformat`, which is of one width, order as the times do. -/
def digitsOf (ts : PgText) : Int := ts.foldl (fun n c => if c.isDigit then 10 * n + (c.toNat - '0'.toNat) else n) 0

def sampleCalls : List (PgCall Nat Nat × Option Nat) :=
  [(.recordMessageId "telegram".toList "7".toList (some "41".toList) "in".toList "prompt".toList
      "2025-01-01T00:00:00.000001+00:00".toList, some 1),
    (.recordMessageId "telegram".toList "7".toList (some "42".toList) "out".toList "status".toList
      "2025-01-01T00:00:00.000002+00:00".toList, some 2),
    (.store (.saveTree 0 ⟨1, .empty⟩), some 1), (.store .clearAll, some 2)]

theorem retried_once_exact_sample :
    let cut := runCalls (PgState.exec (RowOrder.ofTime digitsOf)) ⟨⟨.empty, .empty, fun _ _ mem => nomatch mem⟩, .empty⟩
      (sampleCalls.map fun call => (call.1.statements (some 1), call.2))
    let undisturbed := runCalls (PgState.exec (RowOrder.ofTime digitsOf)) ⟨⟨.empty, .empty, fun _ _ mem => nomatch mem⟩, .empty⟩
      (sampleCalls.map fun call => (call.1.statements (some 1), none))
    PgAlike cut.1 undisturbed.1 ∧ cut.2 = undisturbed.2 ∧ WithinCap (some 1) cut.1.log :=
  retried_once_exact _ (some 1) _ within_empty sampleCalls

end Repeated

end Calls

end ClaudeProxy.Sessions
