import Mathlib.Data.List.DropRight
import Mathlib.Data.List.Forall2
import ClaudeProxy.Transcript.Buffer

namespace ClaudeProxy.Transcript

open Kit TranscriptBuffer

/-- A tool use without its result so far. -/
structure OpenCall where
  id : Str
  task : Bool
  heading : Str
deriving DecidableEq

namespace Event

def call? [PyText] : Event → Option OpenCall
  | .toolUseStart _ id name input | .toolUse id name input =>
    some ⟨id, toolName name = taskName, taskHeadingFromInput input⟩
  | _ => none

def answered? : Event → Option Str
  | .toolResult id _ _ => some id
  | _ => none

end Event

def openTasks (calls : List OpenCall) : List OpenCall := calls.filter OpenCall.task

/-- A `Task` gets its result while no later one is open; other tools are answered in any order. -/
def settle (calls : List OpenCall) (id : Str) : Option (List OpenCall) :=
  match calls.find? fun call => call.id = id with
  | none => none
  | some call => if call.task ∧ (openTasks calls).getLast? ≠ some call then none else some (calls.erase call)

def follow [PyText] (calls : List OpenCall) (event : Event) : Option (List OpenCall) :=
  match event.call? with
  | some call => some (calls ++ [call])
  | none =>
    match event.answered? with
    | some id => settle calls id
    | none => some calls

def openCalls [PyText] (events : List Event) : Option (List OpenCall) := events.foldlM follow []

def madeCalls [PyText] (events : List Event) : List OpenCall := events.filterMap Event.call?

structure Nested [PyText] (events : List Event) : Prop where
  named : ∀ call ∈ madeCalls events, call.id ≠ []
  distinct : ((madeCalls events).map OpenCall.id).Nodup
  answered : (openCalls events).isSome

def Heads (segments : List Segment) (place : Nat) (heading : Str) : Prop :=
  ∃ seg, segments[place]? = some (.subagent seg) ∧ seg.description = heading

structure ExactDepth (calls : List OpenCall) (b : TranscriptBuffer) : Prop where
  inSubagent : b.inSubagent ↔ ∃ call ∈ calls, call.task
  stack : b.subagentStack = (openTasks calls).map OpenCall.id
  segments : List.Forall₂ (Heads b.segments) b.subagentSegments ((openTasks calls).map OpenCall.heading)
  order : b.subagentSegments.Pairwise (· < ·)

/-- Whether a result with this id leaves a sub-agent, by rough matching or as the result of a `Task` without an id. -/
def closes (b : TranscriptBuffer) (toolUseId : Str) : Bool :=
  let toolId := Providers.strip toolUseId
  let top := b.subagentStack.getLast?.getD []
  b.subagentStack.any (fun id => idsRoughlyMatch id toolId) ||
    syntheticMark.isPrefixOf top && (toolId = [] || reconciles toolId (b.toolNameById.get? toolId) top)

/-- A `Task` has no white space around its id, and the result of another tool leaves no sub-agent. -/
def Separate [PyText] (calls : List OpenCall) (b : TranscriptBuffer) : Event → Prop
  | .toolUseStart _ id name _ | .toolUse id name _ => toolName name = taskName → Providers.strip id = id
  | .toolResult id _ _ => (∃ call ∈ openTasks calls, call.id = id) ∨ closes b id = false
  | _ => True

section Strip

open Providers (strip isSpace)

theorem strip_eq_rdropWhile (s : Str) : strip s = (s.dropWhile isSpace).rdropWhile isSpace := rfl

theorem dropWhile_rdropWhile {s : Str} (trimmed : s.dropWhile isSpace = s) :
    (s.rdropWhile isSpace).dropWhile isSpace = s.rdropWhile isSpace := by
  cases shape : s.rdropWhile isSpace with
  | nil => rfl
  | cons c rest =>
    obtain ⟨behind, rfl⟩ : (c :: rest) <+: s := shape ▸ List.rdropWhile_prefix isSpace s
    have head := List.dropWhile_eq_self_iff.mp trimmed (by simp)
    exact List.dropWhile_eq_self_iff.mpr fun _ => head

theorem strip_strip (s : Str) : strip (strip s) = strip s := by
  have trimmed := dropWhile_rdropWhile (List.dropWhile_idempotent isSpace s)
  rw [strip_eq_rdropWhile, strip_eq_rdropWhile, trimmed, List.rdropWhile_idempotent]

theorem strip_cons_ne_nil {c : Char} {rest : Str} (visible : isSpace c = false) : strip (c :: rest) ≠ [] := by
  intro blank
  rw [strip_eq_rdropWhile, List.dropWhile_cons_of_neg (by simp [visible])] at blank
  have space := List.rdropWhile_eq_nil_iff.mp blank c (by simp)
  simp [visible] at space

end Strip

/-- A step that neither opens nor leaves a sub-agent. -/
structure Kept (b b' : TranscriptBuffer) : Prop where
  stack : b'.subagentStack = b.subagentStack
  places : b'.subagentSegments = b.subagentSegments
  heads : ∀ place heading, Heads b.segments place heading → Heads b'.segments place heading

section Frame

variable {b b' b'' : TranscriptBuffer}

theorem Kept.refl (b : TranscriptBuffer) : Kept b b := ⟨rfl, rfl, fun _ _ head => head⟩

theorem Kept.trans (first : Kept b b') (second : Kept b' b'') : Kept b b'' where
  stack := second.stack.trans first.stack
  places := second.places.trans first.places
  heads := fun place heading head => second.heads place heading (first.heads place heading head)

theorem Kept.unless (kept : Kept b b') (c : Prop) [Decidable c] : Kept b (if c then b else b') := by
  split_ifs
  · exact Kept.refl b
  · exact kept

theorem Heads.append {segments : List Segment} {place : Nat} {heading : Str} (head : Heads segments place heading)
    (more : List Segment) : Heads (segments ++ more) place heading := by
  obtain ⟨seg, found, described⟩ := head
  have bound := (List.getElem?_eq_some_iff.mp found).1
  exact ⟨seg, by rw [List.getElem?_append_left bound, found], described⟩

theorem kept_push (seg : Segment) (b : TranscriptBuffer) : Kept b (b.push seg) :=
  ⟨rfl, rfl, fun _ _ head => head.append [seg]⟩

theorem Heads.modify {segments : List Segment} {place : Nat} {heading : Str} (head : Heads segments place heading)
    (changed : Nat) (f : Segment → Segment)
    (subagent : ∀ seg, ∃ seg', f (.subagent seg) = .subagent seg' ∧ seg'.description = seg.description) :
    Heads (segments.modify changed f) place heading := by
  obtain ⟨seg, found, described⟩ := head
  rw [Heads, List.getElem?_modify]
  by_cases same : changed = place
  · obtain ⟨seg', eq, keeps⟩ := subagent seg
    exact ⟨seg', by simp [same, found, eq], keeps.trans described⟩
  · exact ⟨seg, by simp [same, found], described⟩

theorem append_subagent (text : Str) (seg : SubagentSegment) :
    ∃ seg', Segment.append text (.subagent seg) = .subagent seg' ∧ seg'.description = seg.description :=
  ⟨seg, rfl, rfl⟩

theorem setCurrentToolCall_subagent (toolUseId name : Str) (seg : SubagentSegment) :
    ∃ seg', Segment.setCurrentToolCall toolUseId name (.subagent seg) = .subagent seg' ∧
      seg'.description = seg.description := ⟨_, rfl, rfl⟩

theorem kept_appendAt (place : Nat) (text : Str) (b : TranscriptBuffer) : Kept b (b.appendAt place text) :=
  ⟨rfl, rfl, fun _ _ head => head.modify place _ (append_subagent text)⟩

theorem kept_stopBlock (idx : Int) (b : TranscriptBuffer) : Kept b (b.stopBlock idx) := by
  unfold stopBlock
  split_ifs <;> exact ⟨rfl, rfl, fun _ _ head => head⟩

theorem kept_stopStale (idx : Int) (b : TranscriptBuffer) : Kept b (b.stopStale idx) := by
  unfold stopStale
  split_ifs
  · exact kept_stopBlock idx b
  · exact Kept.refl b

theorem kept_openThinking (idx : Int) (b : TranscriptBuffer) : Kept b (b.openThinking idx) := by
  have pushed := kept_push (.thinking []) b
  unfold openThinking
  split_ifs <;> exact ⟨rfl, rfl, pushed.heads⟩

theorem kept_openText (idx : Int) (b : TranscriptBuffer) : Kept b (b.openText idx) := by
  have pushed := kept_push (.text []) b
  unfold openText
  split_ifs <;> exact ⟨rfl, rfl, pushed.heads⟩

theorem kept_thinkingDelta (idx : Int) (text : Str) (b : TranscriptBuffer) : Kept b (b.thinkingDelta idx text) := by
  unfold thinkingDelta
  split
  · exact kept_appendAt _ text b
  · exact (kept_openThinking idx b).trans (kept_appendAt _ text _)

theorem kept_textDelta (idx : Int) (text : Str) (b : TranscriptBuffer) : Kept b (b.textDelta idx text) := by
  unfold textDelta
  split
  · exact kept_appendAt _ text b
  · exact (kept_openText idx b).trans (kept_appendAt _ text _)

theorem kept_registerName (toolId name : Str) (b : TranscriptBuffer) : Kept b (b.registerName toolId name) := by
  unfold registerName
  split_ifs <;> exact ⟨rfl, rfl, fun _ _ head => head⟩

theorem kept_addToolCall (toolId name : Str) (b : TranscriptBuffer) : Kept b (b.addToolCall toolId name) := by
  unfold addToolCall
  split
  · exact ⟨rfl, rfl, fun _ _ head => head.modify _ _ (setCurrentToolCall_subagent toolId name)⟩
  · exact kept_push _ b

theorem kept_toolUse [PyText] {name : Json} (plain : toolName name ≠ taskName) (id : Str) (input : Json) (b : TranscriptBuffer) :
    Kept b (b.toolUse id name input) := by
  unfold toolUse
  rw [if_neg plain]
  exact (kept_registerName _ _ b).trans (kept_addToolCall _ _ _)

theorem kept_toolUseStart [PyText] {name : Json} (plain : toolName name ≠ taskName) (idx : Int) (id : Str) (input : Json)
    (b : TranscriptBuffer) : Kept b (b.toolUseStart idx id name input) := by
  have used := (kept_stopStale idx b).trans (kept_toolUse plain id input _)
  unfold toolUseStart
  split_ifs
  · exact ⟨used.stack, used.places, used.heads⟩
  · exact used

theorem apply_kept [PyText] {event : Event} (plain : ∀ call, event.call? = some call → call.task = false)
    (unanswered : event.answered? = none) (b : TranscriptBuffer) : Kept b (b.apply event) := by
  cases event with
  | thinkingStart idx => exact ((kept_stopStale idx b).trans (kept_openThinking idx _)).unless _
  | thinkingDelta idx text => exact (kept_thinkingDelta idx _ b).unless _
  | textStart idx => exact ((kept_stopStale idx b).trans (kept_openText idx _)).unless _
  | textDelta idx text => exact (kept_textDelta idx _ b).unless _
  | thinkingStop idx =>
    rw [apply]
    split_ifs <;> exact ⟨rfl, rfl, fun _ _ head => head⟩
  | textStop idx =>
    rw [apply]
    split_ifs <;> exact ⟨rfl, rfl, fun _ _ head => head⟩
  | toolUseStart idx id name input => exact kept_toolUseStart (of_decide_eq_false (plain _ rfl)) idx id input b
  | toolUse id name input => exact kept_toolUse (of_decide_eq_false (plain _ rfl)) id input b
  | toolUseStop idx => exact ⟨rfl, rfl, fun _ _ head => head⟩
  | blockStop idx => exact kept_stopBlock idx b
  | toolResult id content isError => cases unanswered
  | error message => exact kept_push _ b
  | toolUseDelta => exact Kept.refl b
  | other => exact Kept.refl b

end Frame

section Closing

variable {b : TranscriptBuffer} {toolId : Str}

theorem idsRoughlyMatch_nil (id : Str) : idsRoughlyMatch id [] = false := by simp [idsRoughlyMatch]

theorem idsRoughlyMatch_self {id : Str} (named : id ≠ []) : idsRoughlyMatch id id = true := by
  simp [idsRoughlyMatch, named]

theorem lastMatch_none {stack : List Str} (unmatched : ∀ id ∈ stack, idsRoughlyMatch id toolId = false) :
    lastMatch stack toolId = none := by
  apply List.find?_eq_none.mpr
  intro i mem
  have bound : i < stack.length := by simpa using mem
  rw [List.getD_eq_getElem?_getD, List.getElem?_eq_getElem bound, Option.getD_some, unmatched _ (List.getElem_mem bound)]
  exact Bool.false_ne_true

theorem lastMatch_some {stack : List Str} {id : Str} (mem : id ∈ stack) (matched : idsRoughlyMatch id toolId = true) :
    ∃ idx < stack.length, lastMatch stack toolId = some idx := by
  cases found : lastMatch stack toolId with
  | some idx =>
    have bound := List.mem_of_find?_eq_some found
    exact ⟨idx, by simpa using bound, rfl⟩
  | none =>
    obtain ⟨i, bound, rfl⟩ := List.getElem_of_mem mem
    have unmatched := List.find?_eq_none.mp found i (by simpa using bound)
    rw [List.getD_eq_getElem?_getD, List.getElem?_eq_getElem bound] at unmatched
    exact absurd matched unmatched

theorem pops_length (n : Nat) (b : TranscriptBuffer) :
    (pops n b).subagentStack.length = b.subagentStack.length - n := by
  induction n generalizing b with
  | zero => rfl
  | succ n ih =>
    rw [pops, ih, popTop, List.length_dropLast]
    omega

theorem subagentPop_top {top : Str} (last : b.subagentStack.getLast? = some top) (stripped : Providers.strip toolId = toolId)
    (named : toolId ≠ []) (matched : idsRoughlyMatch top toolId = true) : b.subagentPop toolId = (true, b.popTop) := by
  simp [subagentPop, last, stripped, named, matched]

theorem subagentPop_none {top : Str} (last : b.subagentStack.getLast? = some top)
    (stripped : Providers.strip toolId = toolId) (named : toolId ≠ [])
    (unmatched : ∀ id ∈ b.subagentStack, idsRoughlyMatch id toolId = false) :
    b.subagentPop toolId = (false, b) := by
  have other := unmatched top (List.mem_of_getLast? last)
  simp [subagentPop, last, stripped, named, other, lastMatch_none unmatched]

theorem subagentPop_inner {top id : Str} (last : b.subagentStack.getLast? = some top)
    (stripped : Providers.strip toolId = toolId) (named : toolId ≠ [])
    (mem : id ∈ b.subagentStack) (matched : idsRoughlyMatch id toolId = true) :
    (b.subagentPop toolId).1 = true ∧ (b.subagentPop toolId).2.subagentStack.length < b.subagentStack.length := by
  have nonempty := List.length_pos_of_mem mem
  cases same : idsRoughlyMatch top toolId with
  | true =>
    rw [subagentPop_top last stripped named same, popTop, List.length_dropLast]
    exact ⟨rfl, by omega⟩
  | false =>
    obtain ⟨idx, bound, found⟩ := lastMatch_some mem matched
    have shape : b.subagentPop toolId = (true, pops (b.subagentStack.length - idx) b) := by
      simp [subagentPop, last, stripped, named, same, found]
    rw [shape, pops_length]
    exact ⟨rfl, by omega⟩

theorem strip_nil : Providers.strip [] = [] := rfl

theorem subagentPop_nil {top : Str} (last : b.subagentStack.getLast? = some top) :
    b.subagentPop [] = if syntheticMark.isPrefixOf top then (true, b.popTop) else (false, b) := by
  simp [subagentPop, last, strip_nil]

theorem stack_ne_nil {top : Str} (last : b.subagentStack.getLast? = some top) : b.subagentStack ≠ [] :=
  List.ne_nil_of_mem (List.mem_of_getLast? last)

theorem closeSubagent_popped {name : Option Str} (nonempty : b.subagentStack ≠ [])
    (popped : (b.subagentPop toolId).1 = true) :
    b.closeSubagent toolId name = (b.subagentPop toolId).2 := by
  rw [closeSubagent, if_neg nonempty]
  exact if_neg fun missed => missed.1 popped

theorem closeSubagent_missed {top : Str} {name : Option Str} (last : b.subagentStack.getLast? = some top)
    (missed : b.subagentPop toolId = (false, b)) :
    b.closeSubagent toolId name = if reconciles toolId name top then (b.subagentPop []).2 else b := by
  simp only [closeSubagent, if_neg (stack_ne_nil last), missed, last, Option.getD_some]
  cases reconciles toolId name top <;> rfl

theorem reconciles_named {top : Str} {name : Option Str} (reconciled : reconciles toolId name top = true) : toolId ≠ [] :=
  (of_decide_eq_true reconciled).1

theorem reconciles_synthetic {top : Str} {name : Option Str} (reconciled : reconciles toolId name top = true) :
    syntheticMark.isPrefixOf top = true := (of_decide_eq_true reconciled).2.1

theorem closes_eq {top : Str} (last : b.subagentStack.getLast? = some top) :
    closes b toolId = (b.subagentStack.any (fun id => idsRoughlyMatch id (Providers.strip toolId)) ||
      syntheticMark.isPrefixOf top && (Providers.strip toolId = [] ||
        reconciles (Providers.strip toolId) (b.toolNameById.get? (Providers.strip toolId)) top)) := by
  rw [closes, last, Option.getD_some]

theorem closes_empty (empty : b.subagentStack = []) : closes b toolId = false := by
  rw [closes, empty]
  rfl

theorem closeSubagent_stays (unclosed : closes b toolId = false) :
    b.closeSubagent (Providers.strip toolId) (b.toolNameById.get? (Providers.strip toolId)) = b := by
  cases last : b.subagentStack.getLast? with
  | none => rw [closeSubagent, if_pos (List.getLast?_eq_none_iff.mp last)]
  | some top =>
    rw [closes_eq last, Bool.or_eq_false_iff] at unclosed
    obtain ⟨unmatched, real⟩ := unclosed
    have apart : ∀ id ∈ b.subagentStack, idsRoughlyMatch id (Providers.strip toolId) = false := by
      intro id mem
      exact eq_false_of_ne_true (List.any_eq_false.mp unmatched id mem)
    have unreconciled : reconciles (Providers.strip toolId) (b.toolNameById.get? (Providers.strip toolId)) top = false := by
      by_contra reconciled
      have reconciled := eq_true_of_ne_false reconciled
      rw [reconciles_synthetic reconciled, reconciled, Bool.or_true] at real
      cases real
    have missed : b.subagentPop (Providers.strip toolId) = (false, b) := by
      by_cases blank : Providers.strip toolId = []
      · have unmarked : syntheticMark.isPrefixOf top = false := by simpa [blank] using real
        rw [blank, subagentPop_nil last, unmarked]
        rfl
      · exact subagentPop_none last (strip_strip toolId) blank apart
    rw [closeSubagent_missed last missed, unreconciled]
    rfl

theorem popTop_shorter (nonempty : b.subagentStack ≠ []) : b.popTop.subagentStack.length < b.subagentStack.length := by
  have long := List.length_pos_iff.mpr nonempty
  rw [popTop, List.length_dropLast]
  omega

theorem closeSubagent_shrinks (closed : closes b toolId = true) :
    (b.closeSubagent (Providers.strip toolId) (b.toolNameById.get? (Providers.strip toolId))).subagentStack.length <
      b.subagentStack.length := by
  cases last : b.subagentStack.getLast? with
  | none =>
    rw [closes_empty (List.getLast?_eq_none_iff.mp last)] at closed
    cases closed
  | some top =>
    have nonempty := stack_ne_nil last
    rw [closes_eq last] at closed
    by_cases matched : ∃ id ∈ b.subagentStack, idsRoughlyMatch id (Providers.strip toolId) = true
    · obtain ⟨id, mem, matched⟩ := matched
      have named : Providers.strip toolId ≠ [] := by
        intro blank
        rw [blank, idsRoughlyMatch_nil] at matched
        cases matched
      obtain ⟨done, shorter⟩ := subagentPop_inner last (strip_strip toolId) named mem matched
      rw [closeSubagent_popped nonempty done]
      exact shorter
    · have unmatched : b.subagentStack.any (fun id => idsRoughlyMatch id (Providers.strip toolId)) = false :=
        List.any_eq_false.mpr fun id mem same => matched ⟨id, mem, same⟩
      rw [unmatched, Bool.false_or, Bool.and_eq_true, Bool.or_eq_true, decide_eq_true_eq] at closed
      obtain ⟨marked, blank | reconciled⟩ := closed
      · have popped : b.subagentPop (Providers.strip toolId) = (true, b.popTop) := by
          rw [blank, subagentPop_nil last, if_pos marked]
        rw [closeSubagent_popped nonempty (by rw [popped]), popped]
        exact popTop_shorter nonempty
      · have missed := subagentPop_none last (strip_strip toolId) (reconciles_named reconciled)
          fun id mem => eq_false_of_ne_true fun same => matched ⟨id, mem, same⟩
        rw [closeSubagent_missed last missed, if_pos reconciled, subagentPop_nil last, if_pos marked]
        exact popTop_shorter nonempty

theorem closeSubagent_top {id : Str} (last : b.subagentStack.getLast? = some id) (stripped : Providers.strip id = id)
    (named : id ≠ []) (name : Option Str) : b.closeSubagent id name = b.popTop := by
  have popped := subagentPop_top last stripped named (idsRoughlyMatch_self named)
  rw [closeSubagent_popped (stack_ne_nil last) (by rw [popped]), popped]

end Closing

structure Tracks (tasks : List OpenCall) (b : TranscriptBuffer) : Prop where
  stack : b.subagentStack = tasks.map OpenCall.id
  segments : List.Forall₂ (Heads b.segments) b.subagentSegments (tasks.map OpenCall.heading)
  order : b.subagentSegments.Pairwise (· < ·)
  stripped : ∀ call ∈ tasks, Providers.strip call.id = call.id

section Tracks

variable {tasks calls calls' : List OpenCall} {call : OpenCall} {b b' : TranscriptBuffer} {event : Event}

theorem Tracks.exact (tracks : Tracks (openTasks calls) b) : ExactDepth calls b where
  inSubagent := by
    rw [inSubagent, tracks.stack, decide_eq_true_eq, ne_eq, List.map_eq_nil_iff, openTasks, List.filter_eq_nil_iff]
    simp
  stack := tracks.stack
  segments := tracks.segments
  order := tracks.order

theorem Tracks.kept (tracks : Tracks tasks b) (kept : Kept b b') : Tracks tasks b' where
  stack := kept.stack.trans tracks.stack
  segments := by
    rw [kept.places]
    exact tracks.segments.imp kept.heads
  order := kept.places ▸ tracks.order
  stripped := tracks.stripped

theorem Heads.bound {segments : List Segment} {place : Nat} {heading : Str} (head : Heads segments place heading) :
    place < segments.length := by
  obtain ⟨seg, found, -⟩ := head
  exact (List.getElem?_eq_some_iff.mp found).1

theorem taskHeadingFromInput_ne_nil [PyText] (input : Json) : taskHeadingFromInput input ≠ [] := by
  cases input with
  | object members => exact orDefault_ne_nil (orDefault_ne_nil (orDefault_ne_nil (by decide) _) _) _
  | _ => exact List.cons_ne_nil _ _

theorem Tracks.opened [PyText] (tracks : Tracks tasks b) {id : Str} (named : id ≠ []) (stripped : Providers.strip id = id)
    (input : Json) :
    Tracks (tasks ++ [⟨id, true, taskHeadingFromInput input⟩]) (b.openTask (Providers.strip id) input) where
  stack := by
    rw [openTask, subagentPush, push, tracks.stack, stripped, stripped, orDefault, if_neg named]
    simp
  segments := by
    have earlier := tracks.segments.imp fun place heading head =>
      head.append [.subagent (.new (taskHeadingFromInput input))]
    have last : Heads (b.segments ++ [.subagent (.new (taskHeadingFromInput input))]) b.segments.length
        (taskHeadingFromInput input) := by
      refine ⟨_, List.getElem?_concat_length, ?_⟩
      exact if_neg (taskHeadingFromInput_ne_nil input)
    have both := List.rel_append earlier (List.Forall₂.cons last List.Forall₂.nil)
    simpa [openTask, subagentPush, push] using both
  order := by
    have places : (b.openTask (Providers.strip id) input).subagentSegments = b.subagentSegments ++ [b.segments.length] := by
      simp [openTask, subagentPush, push]
    rw [places, List.pairwise_append]
    refine ⟨tracks.order, List.pairwise_singleton .., ?_⟩
    intro place mem new last
    rw [List.mem_singleton.mp last]
    obtain ⟨i, bound, rfl⟩ := List.getElem_of_mem mem
    exact (tracks.segments.get bound (tracks.segments.length_eq ▸ bound)).bound
  stripped := by
    intro call mem
    rcases List.mem_append.mp mem with earlier | last
    · exact tracks.stripped call earlier
    · rw [List.mem_singleton.mp last]
      exact stripped

theorem Tracks.popped (tracks : Tracks tasks b) : Tracks tasks.dropLast b.popTop where
  stack := by rw [popTop, tracks.stack, List.map_dropLast]
  segments := by
    have both := List.forall₂_take (b.subagentSegments.length - 1) tracks.segments
    rw [← List.dropLast_eq_take, tracks.segments.length_eq, ← List.dropLast_eq_take, ← List.map_dropLast] at both
    exact both
  order := by
    rw [popTop]
    exact tracks.order.sublist (List.dropLast_sublist _)
  stripped := fun call mem => tracks.stripped call (List.mem_of_mem_dropLast mem)

theorem openTasks_append (call : OpenCall) (calls : List OpenCall) :
    openTasks (calls ++ [call]) = openTasks calls ++ if call.task then [call] else [] := by
  cases task : call.task <;> simp [openTasks, task]

theorem openTasks_erase (plain : call.task = false) : openTasks (calls.erase call) = openTasks calls := by
  rw [openTasks, ← List.erase_filter, List.erase_of_not_mem]
  · rfl
  · simp [plain]

theorem openTasks_erase_last (distinct : calls.Nodup) (last : (openTasks calls).getLast? = some call) :
    openTasks (calls.erase call) = (openTasks calls).dropLast := by
  obtain ⟨earlier, shape⟩ := List.getLast?_eq_some_iff.mp last
  have tasks : (openTasks calls).Nodup := distinct.filter _
  rw [shape] at tasks
  have fresh : call ∉ earlier := fun mem => (List.nodup_append.mp tasks).2.2 call mem call (by simp) rfl
  rw [openTasks, ← List.erase_filter, ← openTasks, shape, List.erase_append_right _ fresh]
  simp

theorem settle_cases {id : Str} (settled : settle calls id = some calls') :
    ∃ call ∈ calls, call.id = id ∧ calls' = calls.erase call ∧
      (call.task = false ∨ call.task = true ∧ (openTasks calls).getLast? = some call) := by
  unfold settle at settled
  split at settled
  · cases settled
  · rename_i call found
    have mem := List.mem_of_find?_eq_some found
    have same : call.id = id := by simpa using List.find?_some found
    split_ifs at settled with early
    cases settled
    refine ⟨call, mem, same, rfl, ?_⟩
    cases task : call.task with
    | false => exact .inl rfl
    | true => exact .inr ⟨rfl, not_not.mp fun other => early ⟨task, other⟩⟩

theorem kept_toolResult (id : Str) (content : Json) (isError : Bool) (b : TranscriptBuffer) :
    Kept (b.closeSubagent (Providers.strip id) (b.toolNameById.get? (Providers.strip id)))
      (b.toolResult id content isError) := by
  rw [toolResult]
  split_ifs
  · exact kept_push _ _
  · exact Kept.refl _

/-- The sub-agent is opened after the call is registered and stale blocks are closed. -/
theorem apply_task [PyText] (made : event.call? = some call) (task : call.task = true) (b : TranscriptBuffer) :
    ∃ b₀ input, Kept b b₀ ∧ b.apply event = b₀.openTask (Providers.strip call.id) input ∧
      call = ⟨call.id, true, taskHeadingFromInput input⟩ := by
  cases event with
  | toolUseStart idx id name input =>
    cases made
    have isTask : toolName name = taskName := of_decide_eq_true task
    refine ⟨_, input, (kept_stopStale idx b).trans (kept_registerName (Providers.strip id) (toolName name) _), ?_, ?_⟩
    · simp [apply, toolUseStart, toolUse, isTask]
    · simp [isTask]
  | toolUse id name input =>
    cases made
    have isTask : toolName name = taskName := of_decide_eq_true task
    refine ⟨_, input, kept_registerName (Providers.strip id) (toolName name) b, ?_, ?_⟩
    · simp [apply, toolUse, isTask]
    · simp [isTask]
  | _ => cases made

theorem separate_task [PyText] (made : event.call? = some call) (task : call.task = true) :
    Separate calls b event ↔ Providers.strip call.id = call.id := by
  cases event with
  | toolUseStart idx id name input =>
    cases made
    exact ⟨fun separate => separate (of_decide_eq_true task), fun stripped _ => stripped⟩
  | toolUse id name input =>
    cases made
    exact ⟨fun separate => separate (of_decide_eq_true task), fun stripped _ => stripped⟩
  | _ => cases made

theorem separate_plain [PyText] (made : event.call? = some call) (plain : call.task = false) : Separate calls b event := by
  cases event with
  | toolUseStart idx id name input =>
    cases made
    exact fun task => absurd task (of_decide_eq_false plain)
  | toolUse id name input =>
    cases made
    exact fun task => absurd task (of_decide_eq_false plain)
  | _ => cases made

theorem answered_none [PyText] (made : event.call? = some call) : event.answered? = none := by
  cases event with
  | toolResult => cases made
  | _ => rfl

theorem eq_of_id {other : OpenCall} (distinct : (calls.map OpenCall.id).Nodup) (mem : call ∈ calls)
    (also : other ∈ calls) (same : call.id = other.id) : call = other := List.inj_on_of_nodup_map distinct mem also same

theorem Tracks.step [PyText] (tracks : Tracks (openTasks calls) b) (distinct : (calls.map OpenCall.id).Nodup)
    (names : ∀ call ∈ calls, call.id ≠ []) (named : ∀ call, event.call? = some call → call.id ≠ [])
    (next : follow calls event = some calls')
    (separate : Separate calls b event) : Tracks (openTasks calls') (b.apply event) := by
  unfold follow at next
  cases made : event.call? with
  | some call =>
    simp only [made] at next
    cases next
    rw [openTasks_append]
    cases task : call.task with
    | false =>
      have plain : ∀ other, event.call? = some other → other.task = false := by
        intro other same
        rw [made] at same
        cases same
        exact task
      have kept := apply_kept plain (answered_none made) b
      simpa using tracks.kept kept
    | true =>
      obtain ⟨b₀, input, kept, opened, shape⟩ := apply_task made task b
      rw [opened, if_pos rfl, shape]
      exact (tracks.kept kept).opened (named call made) ((separate_task made task).mp separate) input
  | none =>
    simp only [made] at next
    cases answered : event.answered? with
    | none =>
      simp only [answered] at next
      cases next
      exact tracks.kept (apply_kept (fun call same => by rw [made] at same; cases same) answered b)
    | some id =>
      simp only [answered] at next
      cases event with
      | toolResult toolUseId content isError =>
        cases answered
        obtain ⟨call, mem, rfl, rfl, plain | ⟨task, last⟩⟩ := settle_cases next
        · have other : closes b call.id = false := by
            rcases separate with ⟨other, isTask, same⟩ | other
            · obtain ⟨among, isTask⟩ := List.mem_filter.mp isTask
              rw [eq_of_id distinct among mem same, plain] at isTask
              cases isTask
            · exact other
          have kept := kept_toolResult call.id content isError b
          rw [closeSubagent_stays other] at kept
          rw [openTasks_erase plain]
          exact tracks.kept kept
        · have stripped := tracks.stripped call (List.mem_of_getLast? last)
          have top : b.subagentStack.getLast? = some call.id := by
            rw [tracks.stack, List.getLast?_map, last, Option.map_some]
          have kept := kept_toolResult call.id content isError b
          rw [stripped, closeSubagent_top top stripped (names call mem)] at kept
          rw [openTasks_erase_last (List.Nodup.of_map _ distinct) last]
          exact tracks.popped.kept kept
      | _ => cases answered

theorem separate_other [PyText] (made : event.call? = none) (answered : event.answered? = none) : Separate calls b event := by
  cases event with
  | toolUseStart => cases made
  | toolUse => cases made
  | toolResult => cases answered
  | _ => exact trivial

theorem Tracks.separate [PyText] (tracks : Tracks (openTasks calls) b) (next : follow calls event = some calls')
    (stack : (b.apply event).subagentStack = (openTasks calls').map OpenCall.id) : Separate calls b event := by
  unfold follow at next
  cases made : event.call? with
  | some call =>
    simp only [made] at next
    cases next
    cases task : call.task with
    | false => exact separate_plain made task
    | true =>
      obtain ⟨b₀, input, kept, opened, -⟩ := apply_task made task b
      rw [openTasks_append, if_pos task, List.map_append, ← tracks.stack, opened, openTask, subagentPush, push] at stack
      have pushed := List.append_inj_right' stack rfl
      have last := List.cons.inj pushed |>.1
      rw [strip_strip, orDefault] at last
      apply (separate_task made task).mpr
      split_ifs at last with blank
      · have visible : Providers.strip call.id ≠ [] := by
          rw [← last]
          exact strip_cons_ne_nil (by decide)
        exact absurd blank visible
      · exact last
  | none =>
    simp only [made] at next
    cases answered : event.answered? with
    | none => exact separate_other made answered
    | some id =>
      simp only [answered] at next
      cases event with
      | toolResult toolUseId content isError =>
        cases answered
        obtain ⟨call, mem, rfl, rfl, plain | ⟨task, -⟩⟩ := settle_cases next
        · right
          by_contra closed
          have shorter := closeSubagent_shrinks (eq_true_of_ne_false closed)
          have kept := kept_toolResult call.id content isError b
          rw [openTasks_erase plain, ← tracks.stack] at stack
          have same : (b.toolResult call.id content isError).subagentStack = b.subagentStack := stack
          rw [← kept.stack, same] at shorter
          omega
        · left
          exact ⟨call, List.mem_filter.mpr ⟨mem, task⟩, rfl⟩
      | _ => cases answered

end Tracks

section Run

variable [PyText] {prior events : List Event} {event : Event} {calls calls' : List OpenCall}

theorem openCalls_concat (prior : List Event) (event : Event) :
    openCalls (prior ++ [event]) = (openCalls prior).bind fun calls => follow calls event := by
  rw [openCalls, List.foldlM_append]
  cases run : prior.foldlM follow [] <;> simp [openCalls, run]

theorem openCalls_of_concat (run : openCalls (prior ++ [event]) = some calls') :
    ∃ calls, openCalls prior = some calls ∧ follow calls event = some calls' := by
  rw [openCalls_concat] at run
  exact Option.bind_eq_some_iff.mp run

theorem follow_sublist {made : List OpenCall} (open_ : calls.Sublist made) (next : follow calls event = some calls') :
    calls'.Sublist (made ++ event.call?.toList) := by
  unfold follow at next
  cases call : event.call? with
  | some call' =>
    simp only [call] at next
    cases next
    exact open_.append (List.Sublist.refl _)
  | none =>
    simp only [call] at next
    simp only [Option.toList_none, List.append_nil]
    split at next
    · obtain ⟨call, -, -, rfl, -⟩ := settle_cases next
      exact List.erase_sublist.trans open_
    · cases next
      exact open_

theorem madeCalls_concat (prior : List Event) (event : Event) :
    madeCalls (prior ++ [event]) = madeCalls prior ++ event.call?.toList := by
  cases call : event.call? <;> simp [madeCalls, call]

theorem openCalls_sublist (run : openCalls events = some calls) : calls.Sublist (madeCalls events) := by
  induction events using List.reverseRecOn generalizing calls with
  | nil =>
    cases run
    exact List.Sublist.refl _
  | append_singleton prior event ih =>
    obtain ⟨before, earlier, next⟩ := openCalls_of_concat run
    rw [madeCalls_concat]
    exact follow_sublist (ih earlier) next

theorem madeCalls_sublist (start : prior <+: events) : (madeCalls prior).Sublist (madeCalls events) :=
  start.sublist.filterMap _

theorem Nested.named_next (nested : Nested events) (start : prior ++ [event] <+: events) :
    ∀ call, event.call? = some call → call.id ≠ [] := by
  intro call made
  apply nested.named call ((madeCalls_sublist start).subset _)
  rw [madeCalls_concat, made]
  simp

theorem Nested.distinct_open (nested : Nested events) (start : prior <+: events) (run : openCalls prior = some calls) :
    (calls.map OpenCall.id).Nodup :=
  nested.distinct.sublist (((openCalls_sublist run).trans (madeCalls_sublist start)).map _)

theorem Nested.named_open (nested : Nested events) (start : prior <+: events) (run : openCalls prior = some calls) :
    ∀ call ∈ calls, call.id ≠ [] := fun call mem =>
  nested.named call (((openCalls_sublist run).trans (madeCalls_sublist start)).subset mem)

theorem applyAll_concat (b : TranscriptBuffer) (prior : List Event) (event : Event) :
    b.applyAll (prior ++ [event]) = (b.applyAll prior).apply event := by
  simp [applyAll]

omit [PyText] in
theorem tracks_new (showToolResults : Bool) : Tracks [] (.new showToolResults) :=
  ⟨rfl, List.Forall₂.nil, List.Pairwise.nil, by simp⟩

/-- A run tracks the open `Task` calls as long as each of its steps is separate. -/
theorem Nested.tracks (nested : Nested events) (showToolResults : Bool)
    (separate : ∀ before event calls, before ++ [event] <+: prior → openCalls before = some calls →
      Tracks (openTasks calls) ((TranscriptBuffer.new showToolResults).applyAll before) →
      Separate calls ((TranscriptBuffer.new showToolResults).applyAll before) event)
    (start : prior <+: events) (run : openCalls prior = some calls) :
    Tracks (openTasks calls) ((TranscriptBuffer.new showToolResults).applyAll prior) := by
  induction prior using List.reverseRecOn generalizing calls with
  | nil =>
    cases run
    exact tracks_new showToolResults
  | append_singleton before event ih =>
    obtain ⟨earlier, ran, next⟩ := openCalls_of_concat run
    have start' : before <+: events := (List.prefix_append before [event]).trans start
    have tracks := ih (fun first event calls here => separate first event calls (here.trans (List.prefix_append _ _)))
      start' ran
    rw [applyAll_concat]
    exact tracks.step (nested.distinct_open start' ran) (nested.named_open start' ran) (nested.named_next start) next
      (separate before event earlier List.prefix_rfl ran tracks)

theorem Nested.openCalls_prefix (nested : Nested events) (start : prior <+: events) :
    ∃ calls, openCalls prior = some calls := by
  obtain ⟨rest, rfl⟩ := start
  have answered := nested.answered
  rw [openCalls, List.foldlM_append] at answered
  cases ran : openCalls prior with
  | some calls => exact ⟨calls, rfl⟩
  | none =>
    rw [openCalls] at ran
    simp [ran] at answered

/-- Once the state after a step is exact, the step was separate. -/
theorem Nested.separate_of_exact (nested : Nested events) (showToolResults : Bool)
    (exact : ∀ prior calls, prior <+: events → openCalls prior = some calls →
      ExactDepth calls ((TranscriptBuffer.new showToolResults).applyAll prior))
    (start : prior ++ [event] <+: events) (run : openCalls prior = some calls)
    (tracks : Tracks (openTasks calls) ((TranscriptBuffer.new showToolResults).applyAll prior)) :
    Separate calls ((TranscriptBuffer.new showToolResults).applyAll prior) event := by
  obtain ⟨calls', ran⟩ := nested.openCalls_prefix start
  obtain ⟨before, earlier, next⟩ := openCalls_of_concat ran
  rw [run] at earlier
  cases earlier
  have stack := (exact _ calls' start ran).stack
  rw [applyAll_concat] at stack
  exact tracks.separate next stack

theorem exactDepth_iff (showToolResults : Bool) (events : List Event) (nested : Nested events) :
    (∀ prior calls, prior <+: events → openCalls prior = some calls →
        ExactDepth calls ((TranscriptBuffer.new showToolResults).applyAll prior)) ↔
      ∀ prior event calls, prior ++ [event] <+: events → openCalls prior = some calls →
        Separate calls ((TranscriptBuffer.new showToolResults).applyAll prior) event := by
  constructor
  · intro exact prior event calls start run
    have start' : prior <+: events := (List.prefix_append prior [event]).trans start
    apply nested.separate_of_exact showToolResults exact start run
    apply nested.tracks showToolResults _ start' run
    intro before event calls here ran tracks
    exact nested.separate_of_exact showToolResults exact (here.trans start') ran tracks
  · intro separate prior calls start run
    apply Tracks.exact
    apply nested.tracks showToolResults _ start run
    intro before event calls here ran tracks
    exact separate before event calls (here.trans start) ran

end Run

section Samples

attribute [local instance] PyText.ascii

def sampleCall (id name : String) : Event := .toolUse id.toList (.string name.toList) .null

def sampleResult (id : String) : Event := .toolResult id.toList (.string "done".toList) false

def readInTask (id : String) : List Event :=
  [sampleCall "call_1" "Task", sampleCall id "Read", sampleResult id, sampleResult "call_1"]

theorem exactDepth_iff_readInTask :
    (∀ prior calls, prior <+: readInTask "call_2" → openCalls prior = some calls →
        ExactDepth calls ((TranscriptBuffer.new true).applyAll prior)) ↔
      ∀ prior event calls, prior ++ [event] <+: readInTask "call_2" → openCalls prior = some calls →
        Separate calls ((TranscriptBuffer.new true).applyAll prior) event :=
  exactDepth_iff true _ ⟨by decide, by decide, by decide⟩

/-- The result of the inner call closes the `Task`, whose id is the beginning of the inner one. -/
theorem not_exactDepth : ¬ ∀ showToolResults events, Nested events → ∀ prior calls, prior <+: events →
    openCalls prior = some calls → ExactDepth calls ((TranscriptBuffer.new showToolResults).applyAll prior) := by
  intro exact
  have nested : Nested (readInTask "call_10") := ⟨by decide, by decide, by decide⟩
  have depth := exact true _ nested ((readInTask "call_10").take 3)
    [⟨"call_1".toList, true, "Subagent".toList⟩] (List.take_prefix _ _) (by decide)
  have stack := depth.stack
  revert stack
  decide

end Samples

end ClaudeProxy.Transcript
