import ClaudeProxy.Providers.TaskCalls

namespace ClaudeProxy.Providers

open Kit Kit.Generator ContentBlockManager

def toolStart (index : Int) : Event → Option (Str × Str)
  | .contentBlockStart i (.toolUse id name) => if i = index then some (id, name) else none
  | _ => none

def toolStarts (index : Int) (events : List Event) : List (Str × Str) := events.filterMap (toolStart index)

section Starts

theorem toolStarts_append (index : Int) (sent more : List Event) :
    toolStarts index (sent ++ more) = toolStarts index sent ++ toolStarts index more := List.filterMap_append

variable {sent : List Event} {b : ContentBlockManager}

theorem Recorded.other (recorded : Recorded sent b) {more : List Event} {after : ContentBlockManager}
    (states : after.toolStates = b.toolStates) (next : b.nextIndex ≤ after.nextIndex)
    (nothing : ∀ index, jsonDeltas index more = []) : Recorded (sent ++ more) after := by
  have same (index : Int) : jsonDeltas index (sent ++ more) = jsonDeltas index sent := by
    rw [jsonDeltas_append, nothing, List.append_nil]
  constructor
  · intro i state found started
    rw [states] at found
    rcases recorded.filled i state found started with ⟨all, bound⟩
    exact ⟨(same _).trans all, Int.lt_of_lt_of_le bound next⟩
  · rw [states]
    exact recorded.empty
  · rw [states]
    exact recorded.distinct
  · intro index bound
    rw [same]
    exact recorded.unused index (Int.le_trans next bound)

def openings (sent : List Event) : Option ToolCallState → List (Str × Str)
  | none => []
  | some state => if state.started then toolStarts state.blockIndex sent else []

theorem openings_started {state : ToolCallState} (started : state.started = true) :
    openings sent (some state) = toolStarts state.blockIndex sent := if_pos started

theorem openings_idle {state : Option ToolCallState} (idle : state.any (·.started) = false) : openings sent state = [] := by
  cases state with
  | none => rfl
  | some state => exact if_neg (Bool.eq_false_iff.mp idle)

theorem openings_same {state after : ToolCallState} (same : SameBlock state after) :
    openings sent (some after) = openings sent (some state) := by
  rw [openings, openings, same.started, same.blockIndex]

theorem openings_append {more : List Event} {state : Option ToolCallState}
    (nothing : ∀ here, state = some here → here.started = true → toolStarts here.blockIndex more = []) :
    openings (sent ++ more) state = openings sent state := by
  cases state with
  | none => rfl
  | some state =>
    rw [openings, openings]
    split
    · rename_i started
      rw [toolStarts_append, nothing state rfl started, List.append_nil]
    · rfl

end Starts

/-- What may be known of a tool: its state, and how its block was started. -/
abbrev Knowledge := Option ToolCallState → List (Str × Str) → Prop

/-- Each tool is as described, and blocks are started with ids. -/
structure Describes (holds : Int → Knowledge) (sent : List Event) (s : Stream) : Prop where
  recorded : Recorded sent s.sse.blocks
  unused : ∀ index, s.sse.blocks.nextIndex ≤ index → toolStarts index sent = []
  identified : ∀ index, ∀ opening ∈ toolStarts index sent, opening.1 ≠ []
  buffering : ∀ i state, s.sse.blocks.toolStates.get? i = some state → state.taskArgBuffer ≠ [] → state.started = true
  each : ∀ i, holds i (s.sse.blocks.toolStates.get? i) (openings sent (s.sse.blocks.toolStates.get? i))

namespace Describes

variable {holds : Int → Knowledge} {post : Knowledge} {sent : List Event} {s s' : Stream} {i : Int}
    {state after : ToolCallState}

theorem of_sse (known : Describes holds sent s) (same : s'.sse = s.sse) : Describes holds sent s' := by
  constructor
  · rw [same]
    exact known.recorded
  · rw [same]
    exact known.unused
  · exact known.identified
  · rw [same]
    exact known.buffering
  · rw [same]
    exact known.each

theorem buffering_set (known : Describes holds sent s) (own : after.taskArgBuffer ≠ [] → after.started = true) (j : Int)
    (other : ToolCallState) (found : (s.sse.blocks.toolStates.set i after).get? j = some other)
    (busy : other.taskArgBuffer ≠ []) :
    other.started = true := by
  rcases Dict.get?_set_cases found with ⟨_, rfl⟩ | ⟨_, old⟩
  · exact own busy
  · exact known.buffering j other old busy

theorem put (known : Describes holds sent s) (same : s'.sse.blocks = { s.sse.blocks with
    toolStates := s.sse.blocks.toolStates.set i after }) (recorded : Recorded sent s'.sse.blocks)
    (own : after.taskArgBuffer ≠ [] → after.started = true) (here : post (some after) (openings sent (some after))) :
    Describes (Function.update holds i post) sent s' := by
  constructor
  · exact recorded
  · rw [same]
    exact known.unused
  · exact known.identified
  · rw [same]
    exact known.buffering_set own
  · intro j
    rw [same]
    by_cases own' : j = i
    · rw [own', Dict.get?_set_self, Function.update_self]
      exact here
    · rw [Dict.get?_set_ne _ _ own', Function.update_of_ne own']
      exact known.each j

theorem start (known : Describes holds sent s) {id name : Str} (same : s'.sse.blocks = { s.sse.blocks with
    nextIndex := s.sse.blocks.nextIndex + 1, toolStates := s.sse.blocks.toolStates.set i after })
    (index : after.blockIndex = s.sse.blocks.nextIndex) (contents : after.contents = []) (started : after.started = true)
    (identity : id ≠ []) (here : post (some after) [(id, name)]) :
    Describes (Function.update holds i post)
      (sent ++ [.contentBlockStart s.sse.blocks.nextIndex (.toolUse id name)]) s' := by
  have own (j : Int) : toolStarts j [.contentBlockStart s.sse.blocks.nextIndex (.toolUse id name)] =
      if s.sse.blocks.nextIndex = j then [(id, name)] else [] := by
    unfold toolStarts
    split <;> simp [toolStart, *]
  constructor
  · rw [same]
    exact known.recorded.start i after index contents (.toolUse id name)
  · rw [same]
    intro j bound
    change s.sse.blocks.nextIndex + 1 ≤ j at bound
    rw [toolStarts_append, known.unused j (by omega), own, if_neg (by omega)]
    rfl
  · intro j opening member
    rw [toolStarts_append, own] at member
    rcases List.mem_append.mp member with old | new
    · exact known.identified j opening old
    · split at new
      · rw [List.mem_singleton.mp new]
        exact identity
      · cases new
  · rw [same]
    exact known.buffering_set fun _ => started
  · intro j
    rw [same]
    by_cases own' : j = i
    · rw [own', Dict.get?_set_self, Function.update_self, openings_started started, toolStarts_append, index,
        known.unused _ (Int.le_refl _), own, if_pos rfl]
      exact here
    · dsimp only
      rw [Dict.get?_set_ne _ _ own', Function.update_of_ne own', openings_append]
      · exact known.each j
      · intro other found running
        rw [own, if_neg]
        exact Int.ne_of_gt (known.recorded.filled j other found running).2

theorem delta (known : Describes holds sent s) (found : s.sse.blocks.toolStates.get? i = some state)
    (started : state.started = true)
    (text : Str) (same : s'.sse.blocks = { s.sse.blocks with
      toolStates := s.sse.blocks.toolStates.set i { state with contents := state.contents ++ [text] } })
    (here : post (some { state with contents := state.contents ++ [text] }) (openings sent (some state))) :
    Describes (Function.update holds i post) (sent ++ [.contentBlockDelta state.blockIndex (.inputJsonDelta text)]) s' := by
  have nothing (j : Int) : toolStarts j [.contentBlockDelta state.blockIndex (.inputJsonDelta text)] = [] := rfl
  constructor
  · rw [same]
    exact known.recorded.delta found started text
  · rw [same]
    intro j bound
    rw [toolStarts_append, nothing, List.append_nil]
    exact known.unused j bound
  · intro j
    rw [toolStarts_append, nothing, List.append_nil]
    exact known.identified j
  · rw [same]
    exact known.buffering_set fun _ => started
  · intro j
    rw [same, openings_append fun _ _ _ => nothing _]
    by_cases own : j = i
    · rw [own, Dict.get?_set_self, Function.update_self]
      exact here
    · dsimp only
      rw [Dict.get?_set_ne _ _ own, Function.update_of_ne own]
      exact known.each j

theorem other (known : Describes holds sent s) {more : List Event}
    (states : s'.sse.blocks.toolStates = s.sse.blocks.toolStates)
    (next : s.sse.blocks.nextIndex ≤ s'.sse.blocks.nextIndex)
    (nothing : ∀ index, toolStarts index more = [] ∧ jsonDeltas index more = []) : Describes holds (sent ++ more) s' := by
  have same (index : Int) : toolStarts index (sent ++ more) = toolStarts index sent := by
    rw [toolStarts_append, (nothing index).1, List.append_nil]
  constructor
  · exact known.recorded.other states next fun index => (nothing index).2
  · intro index bound
    rw [same]
    exact known.unused index (Int.le_trans next bound)
  · intro index
    rw [same]
    exact known.identified index
  · rw [states]
    exact known.buffering
  · intro i
    rw [states, openings_append fun _ _ _ => (nothing _).1]
    exact known.each i

end Describes

section Steps

variable {rt : Runtime} {holds : Int → Knowledge} {post : Knowledge} {fail : List Event → Stream → Prop} {i : Int}

theorem describes_keep {sent : List Event} {s : Stream} {state : Option ToolCallState}
    (both : Describes holds sent s ∧ state = s.sse.blocks.toolStates.get? i)
    (kept : ∀ openings, holds i state openings → post state openings) : Describes (Function.update holds i post) sent s := by
  rcases both with ⟨known, rfl⟩
  constructor
  · exact known.recorded
  · exact known.unused
  · exact known.identified
  · exact known.buffering
  · intro j
    by_cases own : j = i
    · rw [own, Function.update_self]
      exact kept _ (known.each i)
    · rw [Function.update_of_ne own]
      exact known.each j

def renamed (state : Option ToolCallState) : Option Str → Option ToolCallState
  | none => state
  | some name => match state with
    | none => some ⟨-1, [], name, [], false, [], false⟩
    | some state => some { state with name := Call.mergeName (some state.name) name }

theorem registerName_describes (name : Option Str)
    (named : ∀ state openings, holds i state openings → post (renamed state name) openings) :
    Triple (Describes holds) (registerName i name) (fun _ => Describes (Function.update holds i post)) fail := by
  cases name with
  | none =>
    apply Triple.pure
    intro sent s known
    exact describes_keep ⟨known, rfl⟩ fun openings => named _ openings
  | some name =>
    apply Triple.modify
    intro sent s known
    have next := named _ _ (known.each i)
    cases found : s.sse.blocks.toolStates.get? i with
    | none =>
      rw [found] at next
      have registered : s.sse.blocks.registerToolName i name = { s.sse.blocks with
          toolStates := s.sse.blocks.toolStates.set i ⟨-1, [], name, [], false, [], false⟩ } := by
        rw [registerToolName, found]
      refine known.put registered ?_ (fun busy => absurd rfl busy) next
      dsimp only
      rw [registered]
      exact known.recorded.register i name
    | some state =>
      rw [found] at next
      let after : ToolCallState := { state with name := Call.mergeName (some state.name) name }
      have registered : s.sse.blocks.registerToolName i name =
          { s.sse.blocks with toolStates := s.sse.blocks.toolStates.set i after } := by
        rw [registerToolName, found]
        rfl
      have same : SameBlock state after := ⟨rfl, rfl, rfl⟩
      refine known.put registered ?_ (known.buffering i state found) ?_
      · dsimp only
        rw [registered]
        exact known.recorded.modify found same
      · rw [openings_same same]
        exact next

def begun (state : Option ToolCallState) (blockIndex : Int) (toolId name : Str) : ToolCallState :=
  match state with
  | none => ⟨blockIndex, toolId, name, [], true, [], false⟩
  | some state => { state with blockIndex := blockIndex, toolId := toolId, started := true }

theorem startToolBlock_run {s : Stream} (toolId name : Str) : onSse (SSEBuilder.startToolBlock i toolId name) s =
    ⟨[.contentBlockStart s.sse.blocks.nextIndex (.toolUse toolId name)], { s with sse := { s.sse with blocks :=
      { s.sse.blocks with
        nextIndex := s.sse.blocks.nextIndex + 1
        toolStates := s.sse.blocks.toolStates.set i
          (begun (s.sse.blocks.toolStates.get? i) s.sse.blocks.nextIndex toolId name) } } }, .ok ()⟩ := by
  simp only [onSse, Generator.emit, SSEBuilder.startToolBlock, allocateIndex, begun]
  cases s.sse.blocks.toolStates.get? i <;> rfl

theorem toolIdOf_describes (id : Option Str) {pre : List Event → Stream → Prop}
    (draws : ∀ sent s s', pre sent s → s'.sse = s.sse → pre sent s') : Triple pre (toolIdOf rt id)
    (fun toolId sent s => (toolId ≠ [] ∧ (given id = true → toolId = id.getD [])) ∧ pre sent s) fail := by
  apply Triple.ite
  · intro identified
    apply Triple.pure
    intro sent s before
    refine ⟨⟨?_, fun _ => rfl⟩, before⟩
    exact (given_iff id).mp identified
  · intro anonymous
    refine Triple.bind Triple.current fun s => ?_
    have counts : Triple (fun sent s' => s = s' ∧ pre sent s') (modify fun s => { s with drawn := s.drawn + 1 } : Gen Unit)
        (fun _ => pre) fail := Triple.modify fun sent s' both => draws sent s' _ both.2 rfl
    refine Triple.bind counts fun _ => Triple.pure ?_
    intro sent s' before
    refine ⟨⟨?_, fun identified => absurd identified anonymous⟩, before⟩
    simp

theorem startTool_describes (id : Option Str) (name : Str) (state : Option ToolCallState)
    (idle : state.any (·.started) = false)
    (starts : ∀ blockIndex toolId, holds i state [] → (given id = true → toolId = id.getD []) →
      post (some (begun state blockIndex toolId name)) [(toolId, name)]) :
    Triple (fun sent s => Describes holds sent s ∧ state = s.sse.blocks.toolStates.get? i)
      (do let toolId ← toolIdOf rt id; onSse (SSEBuilder.startToolBlock i toolId name) : Gen Unit)
      (fun _ => Describes (Function.update holds i post)) fail := by
  refine Triple.bind (toolIdOf_describes id ?_) fun toolId => Triple.given (fun _ _ both => both.1) fun identity => ?_
  · intro sent s s' both same
    rw [same]
    exact ⟨both.1.of_sse same, both.2⟩
  · intro sent s both
    rcases both with ⟨_, known, found⟩
    have here := known.each i
    rw [← found, openings_idle idle] at here
    have next := starts s.sse.blocks.nextIndex toolId here identity.2
    have contents : (begun state s.sse.blocks.nextIndex toolId name).contents = [] := by
      cases state with
      | none => rfl
      | some state => exact known.recorded.empty i state found.symm idle
    rw [startToolBlock_run, ← found]
    exact known.start rfl (by cases state <;> rfl) contents (by cases state <;> rfl) identity.1 next

/-- What a delta's id does to what is known of a tool. -/
structure Identifies (before after : Knowledge) (id : Option Str) : Prop where
  busy : ∀ state openings, before (some state) openings → state.started = true → after (some state) openings
  starts : ∀ state blockIndex toolId, before state [] → state.any (·.started) = false →
    (given id = true → toolId = id.getD []) →
    after (some (begun state blockIndex toolId ((state.map (·.name)).getD []))) [(toolId, (state.map (·.name)).getD [])]
  silent : ∀ state openings, before state openings → given id = false → after state openings

theorem startNamedTool_describes (id : Option Str) (identifies : Identifies (holds i) post id) :
    Triple (Describes holds) (startNamedTool rt i id) (fun _ => Describes (Function.update holds i post)) fail := by
  refine Triple.bind (toolState_follows i) fun state => ?_
  apply Triple.ite
  · intro test
    apply startTool_describes id _ state test.1
    intro blockIndex toolId here identity
    exact identifies.starts state blockIndex toolId here test.1 identity
  · intro test
    apply Triple.pure
    intro sent s both
    apply describes_keep both
    intro openings here
    by_cases idle : state.any (·.started) = false
    · apply identifies.silent state openings here
      by_contra identified
      exact test ⟨idle, .inr (eq_true_of_ne_false identified)⟩
    · cases state with
      | none => exact absurd rfl idle
      | some state => exact identifies.busy state openings here (eq_true_of_ne_false idle)

theorem startUnnamedTool_describes (id : Option Str)
    (busy : ∀ state openings, holds i (some state) openings → state.started = true → post (some state) openings)
    (free : ∀ state, holds i state [] → ∀ after openings, post after openings) :
    Triple (Describes holds) (startUnnamedTool rt i id)
      (fun _ sent s => Describes (Function.update holds i post) sent s ∧ Running i s) fail := by
  refine Triple.bind (toolState_follows i) fun state => ?_
  apply Triple.ite
  · intro idle
    have begins := @startTool_describes rt holds post fail i id
      (if (state.map (·.name)).getD [] = [] then "tool_call".toList else (state.map (·.name)).getD []) state idle
      fun _ _ here _ => free state here _ _
    have runs : Triple (fun _ _ => True)
        (do let toolId ← toolIdOf rt id
            onSse (SSEBuilder.startToolBlock i toolId
              (if (state.map (·.name)).getD [] = [] then "tool_call".toList else (state.map (·.name)).getD [])) : Gen Unit)
        (fun _ _ s => Running i s) fun _ _ => True := by
      refine Triple.bind (toolIdOf_describes id fun _ _ _ _ _ => trivial) fun toolId sent s _ => ?_
      rw [startToolBlock_run]
      refine ⟨_, Dict.get?_set_self .., ?_⟩
      cases s.sse.blocks.toolStates.get? i <;> rfl
    exact (begins.both runs).weaken (fun _ _ before => ⟨before, trivial⟩) (fun _ _ _ after => after) fun _ _ failed =>
      failed.1
  · intro running
    apply Triple.pure
    intro sent s both
    cases state with
    | none => exact absurd rfl running
    | some state =>
      have started : state.started = true := eq_true_of_ne_false running
      refine ⟨describes_keep both fun openings here => busy state openings here started, state, both.2.symm, started⟩

/-- What the arguments of a delta do to what is known of a tool. -/
structure Fills (before after : Knowledge) (args : Str) : Prop where
  direct : ∀ state openings, before (some state) openings → state.name ≠ taskName →
    after (some { state with contents := state.contents ++ [args] }) openings
  intercepted : ∀ state next openings, before (some state) openings → state.name = taskName → next.started = state.started →
    after (some next) openings

theorem passTaskArguments_describes (args : Str) (fills : Fills (holds i) post args) : Triple
    (fun sent s => Describes holds sent s ∧ ∃ state, s.sse.blocks.toolStates.get? i = some state ∧ state.started = true ∧
      state.name = taskName)
    (passTaskArguments rt i args) (fun _ => Describes (Function.update holds i post))
    (Describes (Function.update holds i post)) := by
  intro sent s both
  rcases both with ⟨known, state, found, started, task⟩
  have here := known.each i
  rw [found] at here
  have buffered (after : ToolCallState) (same : SameBlock state after) (s' : Stream)
      (next : s'.sse.blocks = { s.sse.blocks with toolStates := s.sse.blocks.toolStates.set i after }) :
      Describes (Function.update holds i post) sent s' := by
    refine known.put next ?_ (fun _ => same.started.trans started) ?_
    · rw [next]
      exact known.recorded.modify found same
    · rw [openings_same same]
      exact fills.intercepted state after _ here task same.started
  rw [passTaskArguments_run]
  by_cases emitted : state.taskArgsEmitted = true
  · rw [bufferTaskArgs_emitted found emitted]
    dsimp only
    rw [List.append_nil]
    apply describes_keep ⟨known, found.symm⟩
    intro openings here
    exact fills.intercepted state state openings here task rfl
  · have waiting : state.taskArgsEmitted = false := Bool.eq_false_iff.mpr emitted
    cases loaded : rt.loads (state.taskArgBuffer ++ args) with
    | none =>
      rw [bufferTaskArgs_waiting found waiting loaded]
      dsimp only
      rw [List.append_nil]
      exact buffered { state with taskArgBuffer := state.taskArgBuffer ++ args } ⟨rfl, rfl, rfl⟩ _ rfl
    | some value =>
      cases object : value.isObject with
      | false =>
        rw [bufferTaskArgs_refused found waiting loaded object]
        dsimp only
        rw [List.append_nil]
        exact buffered { state with taskArgBuffer := state.taskArgBuffer ++ args } ⟨rfl, rfl, rfl⟩ _ rfl
      | true =>
        cases value with
        | object members =>
          rw [bufferTaskArgs_object found waiting loaded]
          dsimp only
          let emptied : ToolCallState := { state with taskArgsEmitted := true, taskArgBuffer := [] }
          have same : SameBlock state emptied := ⟨rfl, rfl, rfl⟩
          have middle := buffered emptied same { s with sse := { s.sse with blocks :=
            { s.sse.blocks with toolStates := s.sse.blocks.toolStates.set i emptied } } } rfl
          rw [onToolDelta_run (Dict.get?_set_self ..)]
          dsimp only
          have idem : Function.update (Function.update holds i post) i post = Function.update holds i post :=
            Function.update_idem ..
          have there : (s.sse.blocks.toolStates.set i emptied).get? i = some emptied := Dict.get?_set_self ..
          rw [← idem]
          refine middle.delta there started (rt.dumps (inForeground members)) rfl ?_
          rw [openings_same same]
          exact fills.intercepted state _ _ here task rfl
        | _ => cases object

theorem passArguments_describes (args : Str) (fills : Fills (holds i) post args) :
    Triple (fun sent s => Describes holds sent s ∧ Running i s) (passArguments rt i args)
      (fun _ => Describes (Function.update holds i post)) (Describes (Function.update holds i post)) := by
  refine Triple.bind (toolState_follows i) fun state => ?_
  apply Triple.ite
  · intro task
    apply (passTaskArguments_describes args fills).before
    intro sent s both
    rcases both with ⟨⟨known, other, found, started⟩, rfl⟩
    rw [found] at task
    exact ⟨known, other, found, started, task⟩
  · intro named sent s both
    rcases both with ⟨⟨known, other, found, started⟩, rfl⟩
    rw [found] at named
    have here := known.each i
    rw [found] at here
    rw [onToolDelta_run found]
    exact known.delta found started args rfl (fills.direct other _ here named)

end Steps

section Acts

/-- An act that neither starts nor fills a tool block. -/
structure Quiet (act : SSEBuilder → List Event × SSEBuilder) : Prop where
  states : ∀ sse, (act sse).2.blocks.toolStates = sse.blocks.toolStates
  next : ∀ sse, sse.blocks.nextIndex ≤ (act sse).2.blocks.nextIndex
  nothing : ∀ sse index, toolStarts index (act sse).1 = [] ∧ jsonDeltas index (act sse).1 = []

theorem Quiet.andThen {one other : SSEBuilder → List Event × SSEBuilder} (first : Quiet one) (second : Quiet other) :
    Quiet (SSEBuilder.andThen one other) := by
  constructor
  · intro sse
    exact (second.states _).trans (first.states sse)
  · intro sse
    exact Int.le_trans (first.next sse) (second.next _)
  · intro sse index
    rcases first.nothing sse index with ⟨noStart, noDelta⟩
    rcases second.nothing (one sse).2 index with ⟨noStart', noDelta'⟩
    constructor
    · exact (toolStarts_append ..).trans (by rw [noStart, noStart', List.append_nil])
    · exact (jsonDeltas_append ..).trans (by rw [noDelta, noDelta', List.append_nil])

theorem quiet_ite {test : SSEBuilder → Bool} {act : SSEBuilder → List Event × SSEBuilder} (quiet : Quiet act) :
    Quiet fun sse => if test sse then act sse else sse.nothing := by
  constructor
  · intro sse
    split
    · exact quiet.states sse
    · rfl
  · intro sse
    split
    · exact quiet.next sse
    · exact Int.le_refl _
  · intro sse index
    split
    · exact quiet.nothing sse index
    · exact ⟨rfl, rfl⟩

theorem closeContentBlocks_quiet : Quiet SSEBuilder.closeContentBlocks := by
  have thinking : Quiet SSEBuilder.stopThinkingBlock := ⟨fun _ => rfl, fun _ => Int.le_refl _, fun _ _ => ⟨rfl, rfl⟩⟩
  have text : Quiet SSEBuilder.stopTextBlock := ⟨fun _ => rfl, fun _ => Int.le_refl _, fun _ _ => ⟨rfl, rfl⟩⟩
  exact Quiet.andThen (quiet_ite thinking) (quiet_ite text)

theorem emitError_quiet (message : Str) : Quiet (SSEBuilder.emitError message) :=
  ⟨fun _ => rfl, fun _ => Int.le_of_lt (Int.lt_succ _), fun _ _ => ⟨rfl, rfl⟩⟩

theorem Quiet.describes {act : SSEBuilder → List Event × SSEBuilder} (quiet : Quiet act) {holds : Int → Knowledge}
    {fail : List Event → Stream → Prop} : Triple (Describes holds) (onSse act) (fun _ => Describes holds) fail := by
  apply Triple.emit
  intro sent s known
  exact known.other (quiet.states s.sse) (quiet.next s.sse) (quiet.nothing s.sse)

theorem reportError_describes {provider : Provider} {requestId : Option Str} {holds : Int → Knowledge}
    {fail : List Event → Stream → Prop} (e : PyException) :
    Triple (Describes holds) (reportError provider requestId e) (fun _ => Describes holds) fail := by
  have marks : Triple (Describes holds) (modify fun s => { s with errorOccurred := true } : Gen Unit)
      (fun _ => Describes holds) fail := Triple.modify fun _ _ known => known.of_sse rfl
  exact Triple.bind marks fun _ => Triple.bind closeContentBlocks_quiet.describes fun _ => (emitError_quiet _).describes

end Acts

end ClaudeProxy.Providers
