import ClaudeProxy.Providers.OpenAICompat

namespace ClaudeProxy.Providers

open Kit Kit.Generator ContentBlockManager

/-- A native tool call delta, with its function taken apart. -/
structure Fragment where
  id : Option Str
  name : Option Str
  arguments : Option Str

structure CallDelta where
  index : Int
  fragment : Fragment

def processDelta (rt : Runtime) (delta : CallDelta) : Gen Unit :=
  let fn : FunctionDelta := ⟨delta.fragment.name, delta.fragment.arguments⟩
  processToolCall rt ⟨some delta.index, delta.fragment.id, some fn⟩ fn

def processDeltas (rt : Runtime) (deltas : List CallDelta) : Gen Unit := forEach deltas (processDelta rt)

/-- The fragments of all calls, and then the buffers. -/
def interceptTasks (rt : Runtime) (deltas : List CallDelta) : Gen Unit := do
  processDeltas rt deltas
  flushTaskArgBuffers rt

/-- A fragment that names, identifies or fills a call makes it known. -/
def Fragment.opens (fragment : Fragment) : Bool :=
  fragment.name.isSome || given fragment.id || given fragment.arguments

/-- A negative index stands for a call after the known ones. -/
def indexOf (known : List Int) (index : Int) : Int := if index < 0 then known.length else index

def withIndex (known : List Int) (index : Int) : List Int := if index ∈ known then known else known ++ [index]

def knownAfter (known : List Int) (index : Int) (fragment : Fragment) : List Int :=
  if fragment.opens then withIndex known index else known

/-- The deltas with the index of the call that each belongs to. -/
def indexed : List Int → List CallDelta → List (Int × Fragment)
  | _, [] => []
  | known, delta :: rest =>
    let index := indexOf known delta.index
    (index, delta.fragment) :: indexed (knownAfter known index delta.fragment) rest

def fragmentsOf (index : Int) (fragments : List (Int × Fragment)) : List Fragment :=
  (fragments.filter fun entry => entry.1 = index).map Prod.snd

def taskName : Str := "Task".toList

/-- The call is named `Task` by its first fragment, and no later one changes the name. -/
def IsTask : List Fragment → Prop
  | [] => False
  | first :: rest => first.name = some taskName ∧ ∀ fragment ∈ rest, ∀ name, fragment.name = some name → name <+: taskName

def argumentsOf (fragments : List Fragment) : Str := fragments.flatMap fun fragment => fragment.arguments.getD []

/-- The first JSON value among what has been received after each of the texts. -/
def firstAccepted (rt : Runtime) : Str → List Str → Option Json
  | _, [] => none
  | received, args :: rest =>
    match rt.loads (received ++ args) with
    | some value => some value
    | none => firstAccepted rt (received ++ args) rest

def backgroundKey : Str := "run_in_background".toList

def inForeground (members : List (Str × Json)) : Json := .object (Json.setMember backgroundKey (.bool false) members)

/-- What the input of the block is to be. -/
def expectedInput (rt : Runtime) (arguments : Str) : Json :=
  match rt.loads arguments with
  | some (.object members) => inForeground members
  | _ => .object []

def jsonDelta (index : Int) : Event → Option Str
  | .contentBlockDelta i (.inputJsonDelta text) => if i = index then some text else none
  | _ => none

def jsonDeltas (index : Int) (events : List Event) : List Str := events.filterMap (jsonDelta index)

/-- No exception, and one whole input for each `Task` call. -/
structure Intercepted (rt : Runtime) (s : Stream) (deltas : List CallDelta) : Prop where
  completes : (interceptTasks rt deltas s).result.toOption = some ()
  inputs : ∀ index, IsTask (fragmentsOf index (indexed [] deltas)) →
    argumentsOf (fragmentsOf index (indexed [] deltas)) ≠ [] →
    ∃ state text, (interceptTasks rt deltas s).state.sse.blocks.toolStates.get? index = some state ∧
      jsonDeltas state.blockIndex (interceptTasks rt deltas s).yielded = [text] ∧
      rt.loads text = some (expectedInput rt (argumentsOf (fragmentsOf index (indexed [] deltas))))

/-- What the fragments of a call amount to: its name, the arguments that came while the name was `Task`, and
    whether others came. -/
structure Call where
  name : Option Str
  buffered : List Str
  passedOn : Bool

namespace Call

def start : Call := ⟨none, [], false⟩

def mergeName : Option Str → Str → Str
  | none, name => name
  | some prev, name =>
    if prev = [] ∨ prev.isPrefixOf name then name else if ¬ name.isPrefixOf prev then prev ++ name else prev

def rename (call : Call) : Option Str → Call
  | none => call
  | some name => { call with name := some (mergeName call.name name) }

def orNamed (call : Call) (name : Str) : Call := if call.name = none then { call with name := some name } else call

def identify (call : Call) (id : Option Str) : Call := if given id then call.orNamed [] else call

def assume (call : Call) : Call := call.orNamed "tool_call".toList

def take (call : Call) (args : Str) : Call :=
  if call.name = some taskName then { call with buffered := call.buffered ++ [args] } else { call with passedOn := true }

def add (call : Call) (fragment : Fragment) : Call :=
  let call := (call.rename fragment.name).identify fragment.id
  if given fragment.arguments then call.assume.take (fragment.arguments.getD []) else call

def of (fragments : List Fragment) : Call := fragments.foldl add start

end Call

section Blocks

theorem jsonDeltas_append (index : Int) (sent more : List Event) :
    jsonDeltas index (sent ++ more) = jsonDeltas index sent ++ jsonDeltas index more := List.filterMap_append

/-- The manager records what was sent for each tool block. -/
structure Recorded (sent : List Event) (b : ContentBlockManager) : Prop where
  filled : ∀ i state, b.toolStates.get? i = some state → state.started = true →
    jsonDeltas state.blockIndex sent = state.contents ∧ state.blockIndex < b.nextIndex
  empty : ∀ i state, b.toolStates.get? i = some state → state.started = false → state.contents = []
  distinct : ∀ i j state other, b.toolStates.get? i = some state → b.toolStates.get? j = some other →
    state.started = true → other.started = true → state.blockIndex = other.blockIndex → i = j
  unused : ∀ index, b.nextIndex ≤ index → jsonDeltas index sent = []

structure SameBlock (state after : ToolCallState) : Prop where
  started : after.started = state.started
  blockIndex : after.blockIndex = state.blockIndex
  contents : after.contents = state.contents

variable {sent : List Event} {b : ContentBlockManager} {i : Int} {state after : ToolCallState}

theorem Recorded.modify (recorded : Recorded sent b) (found : b.toolStates.get? i = some state)
    (same : SameBlock state after) :
    Recorded sent { b with toolStates := b.toolStates.set i after } := by
  have old (j : Int) (other : ToolCallState) (there : (b.toolStates.set i after).get? j = some other) :
      ∃ before, b.toolStates.get? j = some before ∧ SameBlock before other := by
    rcases Dict.get?_set_cases there with ⟨rfl, rfl⟩ | ⟨_, old⟩
    · exact ⟨state, found, same⟩
    · exact ⟨other, old, rfl, rfl, rfl⟩
  constructor
  · intro j other there started
    rcases old j other there with ⟨before, found', equal⟩
    rw [equal.blockIndex, equal.contents]
    exact recorded.filled j before found' (equal.started ▸ started)
  · intro j other there idle
    rcases old j other there with ⟨before, found', equal⟩
    rw [equal.contents]
    exact recorded.empty j before found' (equal.started ▸ idle)
  · intro j k one two foundOne foundTwo startedOne startedTwo sameIndex
    rcases old j one foundOne with ⟨before, found', equal⟩
    rcases old k two foundTwo with ⟨before', found'', equal'⟩
    rw [equal.blockIndex, equal'.blockIndex] at sameIndex
    exact recorded.distinct j k before before' found' found'' (equal.started ▸ startedOne)
      (equal'.started ▸ startedTwo) sameIndex
  · exact recorded.unused

theorem Recorded.register (recorded : Recorded sent b) (i : Int) (name : Str) :
    Recorded sent { b with toolStates := b.toolStates.set i ⟨-1, [], name, [], false, [], false⟩ } := by
  have old (j : Int) (other : ToolCallState)
      (there : (b.toolStates.set i ⟨-1, [], name, [], false, [], false⟩).get? j = some other) :
      b.toolStates.get? j = some other ∨ other.started = false ∧ other.contents = [] := by
    rcases Dict.get?_set_cases there with ⟨_, rfl⟩ | ⟨_, found⟩
    · exact .inr ⟨rfl, rfl⟩
    · exact .inl found
  constructor
  · intro j other there started
    rcases old j other there with found | new
    · exact recorded.filled j other found started
    · rw [new.1] at started
      cases started
  · intro j other there idle
    rcases old j other there with found | new
    · exact recorded.empty j other found idle
    · exact new.2
  · intro j k one two foundOne foundTwo startedOne startedTwo sameIndex
    rcases old j one foundOne with found | new
    · rcases old k two foundTwo with found' | new'
      · exact recorded.distinct j k one two found found' startedOne startedTwo sameIndex
      · rw [new'.1] at startedTwo
        cases startedTwo
    · rw [new.1] at startedOne
      cases startedOne
  · exact recorded.unused

theorem Recorded.start (recorded : Recorded sent b) (i : Int) (after : ToolCallState)
    (index : after.blockIndex = b.nextIndex)
    (contents : after.contents = []) (block : ContentBlock) :
    Recorded (sent ++ [.contentBlockStart b.nextIndex block])
      { b with nextIndex := b.nextIndex + 1, toolStates := b.toolStates.set i after } := by
  have sentSame (j : Int) : jsonDeltas j (sent ++ [.contentBlockStart b.nextIndex block]) = jsonDeltas j sent := by
    rw [jsonDeltas_append]
    exact List.append_nil _
  have below (j : Int) (other : ToolCallState) (found : b.toolStates.get? j = some other) (started : other.started = true) :
      other.blockIndex ≠ b.nextIndex := Int.ne_of_lt (recorded.filled j other found started).2
  constructor
  · intro j other there started
    rw [sentSame]
    rcases Dict.get?_set_cases there with ⟨_, rfl⟩ | ⟨_, found⟩
    · rw [index, contents]
      exact ⟨recorded.unused _ (Int.le_refl _), Int.lt_succ _⟩
    · rcases recorded.filled j other found started with ⟨all, bound⟩
      exact ⟨all, Int.lt_trans bound (Int.lt_succ _)⟩
  · intro j other there stopped
    rcases Dict.get?_set_cases there with ⟨_, rfl⟩ | ⟨_, found⟩
    · exact contents
    · exact recorded.empty j other found stopped
  · intro j k one two foundOne foundTwo startedOne startedTwo sameIndex
    rcases Dict.get?_set_cases foundOne with ⟨isI, rfl⟩ | ⟨_, found⟩
    · rcases Dict.get?_set_cases foundTwo with ⟨isI', rfl⟩ | ⟨_, found'⟩
      · rw [isI, isI']
      · rw [index] at sameIndex
        exact absurd sameIndex.symm (below k two found' startedTwo)
    · rcases Dict.get?_set_cases foundTwo with ⟨_, rfl⟩ | ⟨_, found'⟩
      · rw [index] at sameIndex
        exact absurd sameIndex (below j one found startedOne)
      · exact recorded.distinct j k one two found found' startedOne startedTwo sameIndex
  · intro j bound
    rw [sentSame]
    change b.nextIndex + 1 ≤ j at bound
    exact recorded.unused j (by omega)

theorem Recorded.delta (recorded : Recorded sent b) (found : b.toolStates.get? i = some state)
    (started : state.started = true)
    (text : Str) : Recorded (sent ++ [.contentBlockDelta state.blockIndex (.inputJsonDelta text)])
      { b with toolStates := b.toolStates.set i { state with contents := state.contents ++ [text] } } := by
  have sentHere : jsonDeltas state.blockIndex (sent ++ [.contentBlockDelta state.blockIndex (.inputJsonDelta text)]) =
      jsonDeltas state.blockIndex sent ++ [text] := by
    rw [jsonDeltas_append]
    simp [jsonDeltas, jsonDelta]
  have sentElse (j : Int) (different : state.blockIndex ≠ j) :
      jsonDeltas j (sent ++ [.contentBlockDelta state.blockIndex (.inputJsonDelta text)]) = jsonDeltas j sent := by
    rw [jsonDeltas_append]
    simp [jsonDeltas, jsonDelta, different]
  rcases recorded.filled i state found started with ⟨all, bound⟩
  constructor
  · intro j other there startedOther
    rcases Dict.get?_set_cases there with ⟨_, rfl⟩ | ⟨different, foundOther⟩
    · exact ⟨sentHere.trans (congrArg (· ++ [text]) all), bound⟩
    · rw [sentElse]
      · exact recorded.filled j other foundOther startedOther
      · exact fun same => different (recorded.distinct i j state other found foundOther started startedOther same).symm
  · intro j other there idle
    rcases Dict.get?_set_cases there with ⟨_, rfl⟩ | ⟨_, foundOther⟩
    · rw [show state.started = false from idle] at started
      cases started
    · exact recorded.empty j other foundOther idle
  · intro j k one two foundOne foundTwo startedOne startedTwo sameIndex
    rcases Dict.get?_set_cases foundOne with ⟨isI, rfl⟩ | ⟨_, there⟩
    · rcases Dict.get?_set_cases foundTwo with ⟨isI', rfl⟩ | ⟨_, there'⟩
      · rw [isI, isI']
      · rw [isI]
        exact recorded.distinct i k state two found there' started startedTwo sameIndex
    · rcases Dict.get?_set_cases foundTwo with ⟨isI', rfl⟩ | ⟨_, there'⟩
      · rw [isI']
        exact recorded.distinct j i one state there found startedOne started sameIndex
      · exact recorded.distinct j k one two there there' startedOne startedTwo sameIndex
  · intro j unused
    rw [sentElse]
    · exact recorded.unused j unused
    · exact Int.ne_of_lt (Int.lt_of_lt_of_le bound unused)

end Blocks

/-- The input that is emitted for a decoded value. -/
def sentInput (rt : Runtime) : Json → Str
  | .object members => rt.dumps (inForeground members)
  | _ => []

/-- A tool's state is what the fragments of its call amount to. -/
structure Kept (rt : Runtime) (call : Call) (state : ToolCallState) : Prop where
  name : call.name = some state.name
  waiting : firstAccepted rt [] call.buffered = none →
    state.taskArgsEmitted = false ∧ state.taskArgBuffer = call.buffered.flatten
  done : ∀ value, firstAccepted rt [] call.buffered = some value →
    value.isObject = true ∧ state.taskArgsEmitted = true ∧ state.taskArgBuffer = []
  contents : call.passedOn = false → state.contents = ((firstAccepted rt [] call.buffered).map (sentInput rt)).toList
  running : call.buffered ≠ [] → state.started = true

def Mirrors (rt : Runtime) (call : Call) : Option ToolCallState → Prop
  | none => call = .start
  | some state => Kept rt call state

/-- The tool states after the known calls, and what was sent for them. -/
structure Follows (rt : Runtime) (view : Int → Call) (known : List Int) (sent : List Event) (s : Stream) : Prop where
  shows : ∀ i, Mirrors rt (view i) (s.sse.blocks.toolStates.get? i)
  recorded : Recorded sent s.sse.blocks
  keys : s.sse.blocks.toolStates.keys = known

section Phases

variable {rt : Runtime} {view : Int → Call} {known : List Int} {fail : List Event → Stream → Prop} {i : Int}

theorem Follows.name {sent : List Event} {s : Stream} (follows : Follows rt view known sent s) (i : Int) :
    (view i).name = (s.sse.blocks.toolStates.get? i).map (·.name) := by
  have here := follows.shows i
  cases found : s.sse.blocks.toolStates.get? i with
  | none =>
    rw [found] at here
    rw [show view i = .start from here]
    rfl
  | some state =>
    rw [found] at here
    exact here.name

theorem Follows.mem_known {sent : List Event} {s : Stream} (follows : Follows rt view known sent s) (i : Int) :
    i ∈ known ↔ ∃ state, s.sse.blocks.toolStates.get? i = some state := by
  rw [← follows.keys, Dict.mem_keys_iff]

theorem Follows.put {sent sent' : List Event} {s s' : Stream} (follows : Follows rt view known sent s) {call : Call}
    {state : ToolCallState} (states : s'.sse.blocks.toolStates = s.sse.blocks.toolStates.set i state)
    (recorded : Recorded sent' s'.sse.blocks) (kept : Kept rt call state) :
    Follows rt (Function.update view i call) (withIndex known i) sent' s' := by
  constructor
  · intro j
    rw [states]
    by_cases here : j = i
    · rw [here, Dict.get?_set_self, Function.update_self]
      exact kept
    · rw [Dict.get?_set_ne _ _ here, Function.update_of_ne here]
      exact follows.shows j
  · exact recorded
  · rw [states, Dict.keys_set, follows.keys]
    rfl

theorem Follows.revise {sent : List Event} {s : Stream} (follows : Follows rt view known sent s) {call : Call}
    {state : ToolCallState} (found : s.sse.blocks.toolStates.get? i = some state) (kept : Kept rt call state) :
    Follows rt (Function.update view i call) known sent s := by
  constructor
  · intro j
    by_cases here : j = i
    · rw [here, found, Function.update_self]
      exact kept
    · rw [Function.update_of_ne here]
      exact follows.shows j
  · exact follows.recorded
  · exact follows.keys

theorem withIndex_of_mem (member : i ∈ known) : withIndex known i = known := if_pos member

theorem registerName_follows (name : Option Str) : Triple (Follows rt view known) (registerName i name)
    (fun _ => Follows rt (Function.update view i ((view i).rename name)) (if name.isSome then withIndex known i else known))
    fail := by
  cases name with
  | none =>
    apply Triple.pure
    intro sent s follows
    simpa [Call.rename] using follows
  | some name =>
    apply Triple.modify
    intro sent s follows
    have here := follows.shows i
    cases found : s.sse.blocks.toolStates.get? i with
    | none =>
      rw [found] at here
      have start : view i = .start := here
      have registered : s.sse.blocks.registerToolName i name = { s.sse.blocks with
          toolStates := s.sse.blocks.toolStates.set i ⟨-1, [], name, [], false, [], false⟩ } := by
        rw [registerToolName, found]
      rw [registered]
      refine follows.put rfl (follows.recorded.register i name) ?_
      rw [start]
      constructor
      · rfl
      · exact fun _ => ⟨rfl, rfl⟩
      · intro value accepted
        cases accepted
      · exact fun _ => rfl
      · exact fun filled => absurd rfl filled
    | some state =>
      rw [found] at here
      have kept : Kept rt (view i) state := here
      have registered : s.sse.blocks.registerToolName i name = { s.sse.blocks with
          toolStates := s.sse.blocks.toolStates.set i { state with name := Call.mergeName (some state.name) name } } := by
        rw [registerToolName, found]
        rfl
      rw [registered]
      refine follows.put rfl (follows.recorded.modify found ⟨rfl, rfl, rfl⟩) ?_
      constructor
      · rw [← kept.name]
        rfl
      · exact kept.waiting
      · exact kept.done
      · exact kept.contents
      · exact kept.running

theorem Follows.of_sse {sent : List Event} {s s' : Stream} (follows : Follows rt view known sent s) (same : s'.sse = s.sse) :
    Follows rt view known sent s' := by
  constructor
  · rw [same]
    exact follows.shows
  · rw [same]
    exact follows.recorded
  · rw [same]
    exact follows.keys

def Idle (i : Int) (s : Stream) : Prop := ∀ state, s.sse.blocks.toolStates.get? i = some state → state.started = false

def Running (i : Int) (s : Stream) : Prop := ∃ state, s.sse.blocks.toolStates.get? i = some state ∧ state.started = true

theorem toolState_follows {pre : List Event → Stream → Prop} (i : Int) : Triple pre (toolState i)
    (fun state sent s => pre sent s ∧ state = s.sse.blocks.toolStates.get? i) fail := by
  refine Triple.bind Triple.current fun s => Triple.pure ?_
  intro sent s' both
  rcases both with ⟨rfl, before⟩
  exact ⟨before, rfl⟩

theorem toolIdOf_follows (id : Option Str) : Triple (fun sent s => Follows rt view known sent s ∧ Idle i s) (toolIdOf rt id)
    (fun _ sent s => Follows rt view known sent s ∧ Idle i s) fail := by
  apply Triple.ite
  · exact fun _ => Triple.pure fun _ _ before => before
  · intro _
    refine Triple.bind Triple.current fun s => ?_
    refine Triple.bind (Triple.modify ?_) fun _ => Triple.pure fun _ _ before => before
    intro sent s' both
    exact ⟨both.2.1.of_sse rfl, both.2.2⟩

theorem startTool_follows (id : Option Str) (name : Str) : Triple (fun sent s => Follows rt view known sent s ∧ Idle i s)
    (do let toolId ← toolIdOf rt id; onSse (SSEBuilder.startToolBlock i toolId name) : Gen Unit)
    (fun _ sent s => Follows rt (Function.update view i ((view i).orNamed name)) (withIndex known i) sent s ∧ Running i s)
    fail := by
  refine Triple.bind (toolIdOf_follows id) fun toolId => Triple.emit ?_
  intro sent s before
  rcases before with ⟨follows, idle⟩
  have here := follows.shows i
  have named := follows.name i
  cases found : s.sse.blocks.toolStates.get? i with
  | none =>
    rw [found] at here named
    have start : view i = .start := here
    have started : (SSEBuilder.startToolBlock i toolId name s.sse).2.blocks = { s.sse.blocks with
        nextIndex := s.sse.blocks.nextIndex + 1
        toolStates := s.sse.blocks.toolStates.set i ⟨s.sse.blocks.nextIndex, toolId, name, [], true, [], false⟩ } := by
      simp [SSEBuilder.startToolBlock, allocateIndex, found]
    have recorded := follows.recorded.start i ⟨s.sse.blocks.nextIndex, toolId, name, [], true, [], false⟩ rfl rfl
      (.toolUse toolId name)
    rw [← started] at recorded
    refine ⟨follows.put (by rw [started]) recorded ?_, ?_⟩
    · rw [start]
      constructor
      · rfl
      · exact fun _ => ⟨rfl, rfl⟩
      · intro value accepted
        cases accepted
      · exact fun _ => rfl
      · exact fun filled => absurd rfl filled
    · exact ⟨_, (congrArg (fun b => b.toolStates.get? i) started).trans (Dict.get?_set_self ..), rfl⟩
  | some state =>
    rw [found] at here named
    have kept : Kept rt (view i) state := here
    let after : ToolCallState := { state with blockIndex := s.sse.blocks.nextIndex, toolId := toolId, started := true }
    have started : (SSEBuilder.startToolBlock i toolId name s.sse).2.blocks = { s.sse.blocks with
        nextIndex := s.sse.blocks.nextIndex + 1, toolStates := s.sse.blocks.toolStates.set i after } := by
      simp [SSEBuilder.startToolBlock, allocateIndex, found, after]
    have recorded := follows.recorded.start i after rfl (follows.recorded.empty i state found (idle state found))
      (.toolUse toolId name)
    rw [← started] at recorded
    have same : (view i).orNamed name = view i := by
      rw [Call.orNamed, named]
      rfl
    refine ⟨follows.put (by rw [started]) recorded ?_, ?_⟩
    · rw [same]
      exact ⟨kept.name, kept.waiting, kept.done, kept.contents, fun _ => rfl⟩
    · exact ⟨after, (congrArg (fun b => b.toolStates.get? i) started).trans (Dict.get?_set_self ..), rfl⟩

structure Agrees (call : Call) (member : Prop) (state : Option ToolCallState) : Prop where
  name : call.name = state.map (·.name)
  known : member ↔ state.isSome = true

theorem Follows.agrees {sent : List Event} {s : Stream} {state : Option ToolCallState}
    (both : Follows rt view known sent s ∧ state = s.sse.blocks.toolStates.get? i) : Agrees (view i) (i ∈ known) state := by
  rcases both with ⟨follows, rfl⟩
  exact ⟨follows.name i, (follows.mem_known i).trans Option.isSome_iff_exists.symm⟩

theorem idle_of_tracked {sent : List Event} {s : Stream} {state : Option ToolCallState}
    (idle : state.any (·.started) = false) (both : Follows rt view known sent s ∧ state = s.sse.blocks.toolStates.get? i) :
    Follows rt view known sent s ∧ Idle i s := by
  rcases both with ⟨follows, rfl⟩
  refine ⟨follows, fun other found => ?_⟩
  rw [found] at idle
  exact idle

theorem startNamedTool_follows (id : Option Str) : Triple (Follows rt view known) (startNamedTool rt i id)
    (fun _ => Follows rt (Function.update view i ((view i).identify id)) (if given id then withIndex known i else known))
    fail := by
  refine Triple.bind (toolState_follows i) fun state => ?_
  refine Triple.given (fun _ _ => Follows.agrees) fun agrees => ?_
  apply Triple.ite
  · intro test
    have call : (view i).orNamed ((state.map (·.name)).getD []) = (view i).identify id := by
      cases state with
      | none =>
        have identified : given id = true := by simpa using test.2
        rw [Call.identify, if_pos identified]
        rfl
      | some state => simp [Call.identify, Call.orNamed, agrees.name]
    have keys : withIndex known i = if given id then withIndex known i else known := by
      cases state with
      | none =>
        have identified : given id = true := by simpa using test.2
        rw [if_pos identified]
      | some state => rw [withIndex_of_mem (agrees.known.mpr rfl), ite_self]
    rw [← call, ← keys]
    exact ((@startTool_follows rt view known fail i id _).before fun _ _ =>
      idle_of_tracked test.1).after fun _ _ _ both => both.1
  · intro test
    apply Triple.pure
    intro sent s both
    have call : (view i).identify id = view i := by
      cases state with
      | none =>
        have anonymous : ¬ given id = true := by simpa using test
        rw [Call.identify, if_neg anonymous]
      | some state => simp [Call.identify, Call.orNamed, agrees.name]
    have keys : (if given id then withIndex known i else known) = known := by
      cases state with
      | none =>
        have anonymous : ¬ given id = true := by simpa using test
        rw [if_neg anonymous]
      | some state => rw [withIndex_of_mem (agrees.known.mpr rfl), ite_self]
    rw [call, keys, Function.update_eq_self]
    exact both.1

theorem startUnnamedTool_follows (id : Option Str) : Triple (Follows rt view known) (startUnnamedTool rt i id)
    (fun _ sent s => Follows rt (Function.update view i (view i).assume) (withIndex known i) sent s ∧ Running i s) fail := by
  refine Triple.bind (toolState_follows i) fun state => ?_
  refine Triple.given (fun _ _ => Follows.agrees) fun agrees => ?_
  apply Triple.ite
  · intro idle
    have call : (view i).orNamed
      (if (state.map (·.name)).getD [] = [] then "tool_call".toList else (state.map (·.name)).getD []) =
        (view i).assume := by
      cases state with
      | none => rfl
      | some state => simp [Call.assume, Call.orNamed, agrees.name]
    rw [← call]
    exact (@startTool_follows rt view known fail i id _).before fun _ _ => idle_of_tracked idle
  · intro busy
    apply Triple.pure
    intro sent s both
    cases state with
    | none => exact absurd rfl busy
    | some state =>
      have call : (view i).assume = view i := by simp [Call.assume, Call.orNamed, agrees.name]
      rw [call, withIndex_of_mem (agrees.known.mpr rfl), Function.update_eq_self]
      exact ⟨both.1, state, both.2.symm, by simpa using busy⟩

theorem firstAccepted_append (rt : Runtime) (received : Str) (texts more : List Str) :
    firstAccepted rt received (texts ++ more) =
      match firstAccepted rt received texts with
      | some value => some value
      | none => firstAccepted rt (received ++ texts.flatten) more := by
  induction texts generalizing received with
  | nil => simp [firstAccepted]
  | cons text rest ih =>
    rw [List.cons_append, firstAccepted, firstAccepted]
    cases rt.loads (received ++ text) with
    | some value => rfl
    | none =>
      rw [ih, List.flatten_cons, ← List.append_assoc]

theorem firstAccepted_concat (rt : Runtime) (texts : List Str) (args : Str) (waiting : firstAccepted rt [] texts = none) :
    firstAccepted rt [] (texts ++ [args]) = rt.loads (texts.flatten ++ args) := by
  rw [firstAccepted_append, waiting, List.nil_append, firstAccepted]
  cases rt.loads (texts.flatten ++ args) <;> rfl

theorem forceForeground_object (members : List (Str × Json)) :
    forceForeground (.object members) = some (inForeground members) := by
  have keep (members : List (Str × Json)) (same : Json.getMember backgroundKey members = some (.bool false)) :
      Json.setMember backgroundKey (.bool false) members = members := by
    induction members with
    | nil => cases same
    | cons member rest ih =>
      rcases member with ⟨key, value⟩
      rw [Json.getMember, List.find?_cons] at same
      rw [Json.setMember]
      by_cases here : key = backgroundKey
      · simp only [here, decide_true, Option.map_some, Option.some.injEq] at same
        rw [if_pos here, here, same]
      · simp only [here, decide_false] at same
        rw [if_neg here, ih same]
  rw [forceForeground, inForeground]
  split
  · rename_i same
    rw [keep members same]
  · rfl

theorem onToolDelta_run {s : Stream} {state : ToolCallState} (found : s.sse.blocks.toolStates.get? i = some state)
    (text : Str) :
    onToolDelta i text s = ⟨[.contentBlockDelta state.blockIndex (.inputJsonDelta text)], { s with sse := { s.sse with
      blocks := { s.sse.blocks with
        toolStates := s.sse.blocks.toolStates.set i { state with contents := state.contents ++ [text] } } } }, .ok ()⟩ := by
  simp [onToolDelta, emitOr, SSEBuilder.emitToolDelta, found]

theorem passTaskArguments_run (args : Str) (s : Stream) : passTaskArguments rt i args s =
    let buffered := s.sse.blocks.bufferTaskArgs rt i args
    let next : Stream := { s with sse := { s.sse with blocks := buffered.2 } }
    match buffered.1 with
    | .error () => ⟨[], next, .error attributeError⟩
    | .ok none => ⟨[], next, .ok ()⟩
    | .ok (some parsed) => onToolDelta i (rt.dumps parsed) next := by
  simp only [passTaskArguments, Bind.bind, Generator.current, Generator.modify, List.nil_append]
  cases (s.sse.blocks.bufferTaskArgs rt i args).1 with
  | error e => rfl
  | ok parsed =>
    cases parsed with
    | none => rfl
    | some parsed => rfl

/-- Some of the texts received so far make up a JSON value that is not an object. -/
def Refused (rt : Runtime) (call : Call) : Prop :=
  ∃ value, firstAccepted rt [] call.buffered = some value ∧ value.isObject = false

section Buffer

variable {b : ContentBlockManager} {state : ToolCallState} {args : Str}

theorem bufferTaskArgs_emitted (found : b.toolStates.get? i = some state) (emitted : state.taskArgsEmitted = true) :
    b.bufferTaskArgs rt i args = (.ok none, b) := by
  simp [bufferTaskArgs, found, emitted]

theorem bufferTaskArgs_waiting (found : b.toolStates.get? i = some state) (waiting : state.taskArgsEmitted = false)
    (loaded : rt.loads (state.taskArgBuffer ++ args) = none) : b.bufferTaskArgs rt i args = (.ok none, { b with
      toolStates := b.toolStates.set i { state with taskArgBuffer := state.taskArgBuffer ++ args } }) := by
  simp [bufferTaskArgs, found, waiting, loaded]

theorem bufferTaskArgs_object (found : b.toolStates.get? i = some state) (waiting : state.taskArgsEmitted = false)
    {members : List (Str × Json)} (loaded : rt.loads (state.taskArgBuffer ++ args) = some (.object members)) :
    b.bufferTaskArgs rt i args = (.ok (some (inForeground members)), { b with
      toolStates := b.toolStates.set i { state with taskArgsEmitted := true, taskArgBuffer := [] } }) := by
  simp [bufferTaskArgs, found, waiting, loaded, forceForeground_object, Dict.set_set]

theorem bufferTaskArgs_refused (found : b.toolStates.get? i = some state) (waiting : state.taskArgsEmitted = false)
    {value : Json} (loaded : rt.loads (state.taskArgBuffer ++ args) = some value) (other : value.isObject = false) :
    b.bufferTaskArgs rt i args = (.error (), { b with
      toolStates := b.toolStates.set i { state with taskArgBuffer := state.taskArgBuffer ++ args } }) := by
  have refused : forceForeground value = none := by
    cases value with
    | object members => cases other
    | _ => rfl
  simp [bufferTaskArgs, found, waiting, loaded, refused]

end Buffer

theorem Kept.late {call : Call} {state : ToolCallState} (kept : Kept rt call state) {value : Json}
    (accepted : firstAccepted rt [] call.buffered = some value) (started : state.started = true) (args : Str) :
    Kept rt { call with buffered := call.buffered ++ [args] } state := by
  have again : firstAccepted rt [] (call.buffered ++ [args]) = firstAccepted rt [] call.buffered := by
    rw [firstAccepted_append, accepted]
  constructor
  · exact kept.name
  · intro waiting
    exact absurd (accepted.symm.trans (again.symm.trans waiting)) (Option.some_ne_none value)
  · intro other same
    exact kept.done other (again.symm.trans same)
  · intro whole
    exact (kept.contents whole).trans (congrArg (fun first => (first.map (sentInput rt)).toList) again.symm)
  · exact fun _ => started

theorem Kept.wait {call : Call} {state : ToolCallState} (kept : Kept rt call state) {args : Str}
    (waiting : firstAccepted rt [] call.buffered = none) (started : state.started = true)
    (loaded : rt.loads (state.taskArgBuffer ++ args) = none) :
    Kept rt { call with buffered := call.buffered ++ [args] }
      { state with taskArgBuffer := state.taskArgBuffer ++ args } := by
  rcases kept.waiting waiting with ⟨emitted, buffer⟩
  have next := firstAccepted_concat rt call.buffered args waiting
  rw [← buffer, loaded] at next
  constructor
  · exact kept.name
  · intro _
    refine ⟨emitted, ?_⟩
    show state.taskArgBuffer ++ args = (call.buffered ++ [args]).flatten
    rw [buffer]
    simp
  · intro value same
    exact absurd (same.symm.trans next) (Option.some_ne_none value)
  · intro whole
    exact (kept.contents whole).trans
      (congrArg (fun first => (first.map (sentInput rt)).toList) (waiting.trans next.symm))
  · exact fun _ => started

/-- The text that completes an object, which is emitted. -/
theorem Kept.complete {call : Call} {state : ToolCallState} (kept : Kept rt call state) {args : Str}
    (waiting : firstAccepted rt [] call.buffered = none) (started : state.started = true) {members : List (Str × Json)}
    (loaded : rt.loads (state.taskArgBuffer ++ args) = some (.object members)) :
    Kept rt { call with buffered := call.buffered ++ [args] } { state with
      taskArgsEmitted := true, taskArgBuffer := [], contents := state.contents ++ [rt.dumps (inForeground members)] } := by
  rcases kept.waiting waiting with ⟨_, buffer⟩
  have next := firstAccepted_concat rt call.buffered args waiting
  rw [← buffer, loaded] at next
  constructor
  · exact kept.name
  · intro missing
    exact absurd (next.symm.trans missing) (Option.some_ne_none _)
  · intro value same
    cases next.symm.trans same
    exact ⟨rfl, rfl, rfl⟩
  · intro whole
    show state.contents ++ _ = ((firstAccepted rt [] (call.buffered ++ [args])).map (sentInput rt)).toList
    rw [kept.contents whole, waiting, next]
    rfl
  · exact fun _ => started

theorem passTaskArguments_follows (args : Str) (task : (view i).name = some taskName) :
    Triple (fun sent s => Follows rt view known sent s ∧ Running i s) (passTaskArguments rt i args)
      (fun _ => Follows rt (Function.update view i ((view i).take args)) known)
      fun _ _ => Refused rt ((view i).take args) := by
  intro sent s both
  rcases both with ⟨follows, state, found, started⟩
  have shows := follows.shows i
  rw [found] at shows
  have kept : Kept rt (view i) state := shows
  have taken : (view i).take args = { view i with buffered := (view i).buffered ++ [args] } := if_pos task
  have member : withIndex known i = known := withIndex_of_mem ((follows.mem_known i).mpr ⟨state, found⟩)
  rw [passTaskArguments_run, taken]
  cases accepted : firstAccepted rt [] (view i).buffered with
  | some value =>
    rw [bufferTaskArgs_emitted found (kept.done value accepted).2.1]
    dsimp only
    rw [List.append_nil]
    exact follows.revise found (kept.late accepted started args)
  | none =>
    have waiting := (kept.waiting accepted).1
    cases loaded : rt.loads (state.taskArgBuffer ++ args) with
    | none =>
      rw [bufferTaskArgs_waiting found waiting loaded]
      dsimp only
      rw [List.append_nil, ← member]
      exact follows.put rfl (follows.recorded.modify found ⟨rfl, rfl, rfl⟩) (kept.wait accepted started loaded)
    | some value =>
      cases object : value.isObject with
      | false =>
        rw [bufferTaskArgs_refused found waiting loaded object]
        refine ⟨value, ?_, object⟩
        rw [firstAccepted_concat rt _ args accepted, ← (kept.waiting accepted).2, loaded]
      | true =>
        cases value with
        | object members =>
          rw [bufferTaskArgs_object found waiting loaded]
          dsimp only
          rw [onToolDelta_run (Dict.get?_set_self ..)]
          dsimp only
          rw [← member]
          have same : SameBlock state { state with taskArgsEmitted := true, taskArgBuffer := [] } := ⟨rfl, rfl, rfl⟩
          have emptied := follows.recorded.modify found same
          have filled := emptied.delta (Dict.get?_set_self ..) started (rt.dumps (inForeground members))
          refine follows.put ?_ filled (kept.complete accepted started loaded)
          exact Dict.set_set ..
        | _ => cases object

/-- Arguments of a call that is not named `Task` go straight into its block. -/
theorem Kept.passOn {call : Call} {state : ToolCallState} (kept : Kept rt call state) (text : Str) :
    Kept rt { call with passedOn := true } { state with contents := state.contents ++ [text] } := by
  constructor
  · exact kept.name
  · exact kept.waiting
  · exact kept.done
  · intro whole
    cases whole
  · exact kept.running

theorem passArguments_follows (args : Str) : Triple (fun sent s => Follows rt view known sent s ∧ Running i s)
    (passArguments rt i args) (fun _ => Follows rt (Function.update view i ((view i).take args)) known)
      fun _ _ => Refused rt ((view i).take args) := by
  refine Triple.bind (toolState_follows i) fun state => ?_
  have agrees {sent : List Event} {s : Stream}
      (both : (Follows rt view known sent s ∧ Running i s) ∧ state = s.sse.blocks.toolStates.get? i) :
      ∃ name, state.map (·.name) = some name ∧ (view i).name = some name := by
    rcases both with ⟨⟨follows, other, found, _⟩, rfl⟩
    have named := follows.name i
    rw [found] at named ⊢
    exact ⟨other.name, rfl, named⟩
  refine Triple.given (fun _ _ => agrees) fun both => ?_
  rcases both with ⟨name, stateName, callName⟩
  rw [stateName]
  apply Triple.ite
  · intro task
    have isTask : (view i).name = some taskName := callName.trans (congrArg some task)
    exact (passTaskArguments_follows args isTask).before fun _ _ before => before.1
  · intro other sent s before
    rcases before with ⟨⟨follows, state, found, started⟩, _⟩
    have isOther : (view i).name ≠ some taskName := fun same => other (Option.some.inj (callName.symm.trans same))
    have taken : (view i).take args = { view i with passedOn := true } := if_neg isOther
    have shows := follows.shows i
    rw [found] at shows
    have kept : Kept rt (view i) state := shows
    have member : withIndex known i = known := withIndex_of_mem ((follows.mem_known i).mpr ⟨state, found⟩)
    rw [onToolDelta_run found, taken]
    dsimp only
    rw [← member]
    exact follows.put rfl (follows.recorded.delta found started args) (kept.passOn args)

theorem withIndex_idem (known : List Int) (i : Int) : withIndex (withIndex known i) i = withIndex known i := by
  apply withIndex_of_mem
  unfold withIndex
  split
  · assumption
  · simp

theorem processDelta_follows (delta : CallDelta) : Triple (Follows rt view known) (processDelta rt delta)
    (fun _ => Follows rt (Function.update view (indexOf known delta.index)
      ((view (indexOf known delta.index)).add delta.fragment))
      (knownAfter known (indexOf known delta.index) delta.fragment))
    fun _ _ => Refused rt ((view (indexOf known delta.index)).add delta.fragment) := by
  have index : Triple (Follows rt view known) (toolIndex (some delta.index))
      (fun i sent s => i = indexOf known delta.index ∧ Follows rt view known sent s)
      fun _ _ => Refused rt ((view (indexOf known delta.index)).add delta.fragment) := by
    refine Triple.bind Triple.current fun s => Triple.pure ?_
    intro sent s' both
    rcases both with ⟨rfl, follows⟩
    refine ⟨?_, follows⟩
    rw [indexOf, ← follows.keys, Dict.keys, List.length_map]
  refine Triple.bind index fun i => ?_
  refine Triple.given (fun _ _ => And.left) fun same => ?_
  rw [← same]
  let fragment := delta.fragment
  let named := (view i).rename fragment.name
  let identified := named.identify fragment.id
  let knownNamed := if fragment.name.isSome then withIndex known i else known
  let knownIdentified := if given fragment.id then withIndex knownNamed i else knownNamed
  have register := @registerName_follows rt view known
    (fun _ _ => Refused rt ((view i).add fragment)) i fragment.name
  have start := @startNamedTool_follows rt (Function.update view i named) knownNamed
    (fun _ _ => Refused rt ((view i).add fragment)) i fragment.id
  rw [Function.update_self, Function.update_idem] at start
  refine (Triple.bind register fun _ => Triple.bind start fun _ => ?_).before fun _ _ both => both.2
  apply Triple.ite
  · intro filled
    have known' : withIndex knownIdentified i = knownAfter known i fragment := by
      have opens : fragment.opens = true := by rw [Fragment.opens, filled, Bool.or_true]
      rw [knownAfter, if_pos opens]
      dsimp only [knownIdentified, knownNamed]
      split <;> split <;> simp only [withIndex_idem]
    have call : (view i).add fragment = identified.assume.take (fragment.arguments.getD []) := by
      rw [Call.add, if_pos filled]
    have startUnnamed := @startUnnamedTool_follows rt (Function.update view i identified) knownIdentified
      (fun _ _ => Refused rt ((view i).add fragment)) i fragment.id
    have pass := @passArguments_follows rt (Function.update view i identified.assume) (withIndex knownIdentified i) i
      (fragment.arguments.getD [])
    rw [Function.update_self, Function.update_idem] at startUnnamed pass
    rw [call] at startUnnamed ⊢
    rw [← known']
    exact Triple.bind startUnnamed fun _ => pass
  · intro blank
    apply Triple.pure
    intro sent s follows
    have known' : knownIdentified = knownAfter known i fragment := by
      rw [knownAfter, Fragment.opens, Bool.eq_false_iff.mpr blank, Bool.or_false]
      dsimp only [knownIdentified, knownNamed]
      cases fragment.name.isSome <;> cases given fragment.id <;> simp [withIndex_idem]
    have call : (view i).add fragment = identified := if_neg blank
    rw [call, ← known']
    exact follows

def viewAfter (view : Int → Call) (fragments : List (Int × Fragment)) (i : Int) : Call :=
  (fragmentsOf i fragments).foldl Call.add (view i)

theorem viewAfter_cons (view : Int → Call) (i : Int) (fragment : Fragment) (rest : List (Int × Fragment)) :
    viewAfter view ((i, fragment) :: rest) = viewAfter (Function.update view i ((view i).add fragment)) rest := by
  funext j
  by_cases here : i = j
  · simp [viewAfter, fragmentsOf, here]
  · simp [viewAfter, fragmentsOf, here, Function.update_of_ne (Ne.symm here)]

theorem add_buffered (call : Call) (fragment : Fragment) : ∃ more, (call.add fragment).buffered = call.buffered ++ more := by
  have named : ((call.rename fragment.name).identify fragment.id).buffered = call.buffered := by
    have renamed : (call.rename fragment.name).buffered = call.buffered := by
      cases fragment.name <;> rfl
    rw [Call.identify, Call.orNamed]
    split
    · split <;> exact renamed
    · exact renamed
  rw [Call.add]
  split
  · rw [Call.take]
    have assumed : ((call.rename fragment.name).identify fragment.id).assume.buffered = call.buffered := by
      rw [Call.assume, Call.orNamed]
      split <;> exact named
    split
    · exact ⟨_, congrArg (· ++ _) assumed⟩
    · exact ⟨[], assumed.trans (List.append_nil _).symm⟩
  · exact ⟨[], named.trans (List.append_nil _).symm⟩

theorem Refused.add {call : Call} (refused : Refused rt call) (fragment : Fragment) : Refused rt (call.add fragment) := by
  rcases refused with ⟨value, accepted, other⟩
  rcases add_buffered call fragment with ⟨more, extended⟩
  refine ⟨value, ?_, other⟩
  rw [extended, firstAccepted_append, accepted]

theorem Refused.foldl {call : Call} (refused : Refused rt call) (fragments : List Fragment) :
    Refused rt (fragments.foldl Call.add call) := by
  induction fragments generalizing call with
  | nil => exact refused
  | cons fragment rest ih => exact ih (refused.add fragment)

theorem processDeltas_follows (deltas : List CallDelta) : Triple (Follows rt view known) (processDeltas rt deltas)
    (fun _ sent s => ∃ after, Follows rt (viewAfter view (indexed known deltas)) after sent s)
    fun _ _ => ∃ i, Refused rt (viewAfter view (indexed known deltas) i) := by
  induction deltas generalizing view known with
  | nil => exact Triple.pure fun _ _ follows => ⟨known, follows⟩
  | cons delta rest ih =>
    rw [indexed, viewAfter_cons]
    refine Triple.bind ?_ fun _ => ih
    refine (processDelta_follows delta).otherwise ?_
    intro _ _ refused
    refine ⟨indexOf known delta.index, Refused.foldl ?_ _⟩
    rw [Function.update_self]
    exact refused

/-- A call that does not pass its arguments on has emitted all of its input. -/
def inputOf (rt : Runtime) (call : Call) : List Str :=
  match firstAccepted rt [] call.buffered with
  | some value => [sentInput rt value]
  | none => if call.buffered.flatten = [] then [] else ["{}".toList]

end Phases

section Flush

variable {rt : Runtime} {view : Int → Call} {fail : List Event → Stream → Prop}

/-- The inputs that are still to be emitted for a tool. -/
def owedTo (i : Int) (results : List (Int × Str)) : List Str := (results.filter fun result => result.1 = i).map Prod.snd

theorem owedTo_cons_self (i : Int) (text : Str) (results : List (Int × Str)) :
    owedTo i ((i, text) :: results) = text :: owedTo i results := by
  simp [owedTo]

theorem owedTo_cons_ne {i j : Int} (text : Str) (results : List (Int × Str)) (other : j ≠ i) :
    owedTo j ((i, text) :: results) = owedTo j results := by
  simp [owedTo, Ne.symm other]

/-- The buffers are emptied, and what was in them is still to be sent. -/
structure Owes (rt : Runtime) (view : Int → Call) (results : List (Int × Str)) (sent : List Event) (s : Stream) : Prop where
  recorded : Recorded sent s.sse.blocks
  known : ∀ i, (view i).name ≠ none → ∃ state, s.sse.blocks.toolStates.get? i = some state ∧
    ((view i).buffered ≠ [] → state.started = true) ∧
    ((view i).passedOn = false → state.contents ++ owedTo i results = inputOf rt (view i))
  running : ∀ result ∈ results, ∃ state, s.sse.blocks.toolStates.get? result.1 = some state ∧ state.started = true

theorem sendOwed_owes (i : Int) (text : Str) (results : List (Int × Str)) :
    Triple (Owes rt view ((i, text) :: results)) (onToolDelta i text) (fun _ => Owes rt view results) fail := by
  intro sent s owes
  rcases owes.running _ List.mem_cons_self with ⟨state, found, started⟩
  rw [onToolDelta_run found]
  constructor
  · exact owes.recorded.delta found started text
  · intro j named
    rcases owes.known j named with ⟨other, foundOther, running, contents⟩
    by_cases here : j = i
    · subst here
      cases found.symm.trans foundOther
      refine ⟨_, Dict.get?_set_self .., running, fun whole => ?_⟩
      rw [← contents whole, owedTo_cons_self]
      exact List.append_cons .. |>.symm
    · refine ⟨other, ?_, running, fun whole => ?_⟩
      · exact (Dict.get?_set_ne _ _ here).trans foundOther
      · rw [← contents whole, owedTo_cons_ne _ _ here]
  · intro result member
    rcases owes.running result (List.mem_cons_of_mem _ member) with ⟨other, foundOther, running⟩
    by_cases here : result.1 = i
    · rw [here]
      exact ⟨_, Dict.get?_set_self .., started⟩
    · exact ⟨other, (Dict.get?_set_ne _ _ here).trans foundOther, running⟩

theorem sendAll_owes (results : List (Int × Str)) : Triple (Owes rt view results)
    (forEach results fun result => onToolDelta result.1 result.2) (fun _ => Owes rt view []) fail := by
  induction results with
  | nil => exact Triple.pure fun _ _ owes => owes
  | cons result rest ih => exact Triple.bind (sendOwed_owes result.1 result.2 rest) fun _ => ih

def pendingOf (rt : Runtime) (state : ToolCallState) : List Str :=
  if state.taskArgBuffer = [] ∨ state.taskArgsEmitted = true then [] else [flushedArgs rt state.taskArgBuffer]

/-- The loop over some of the tools, each of which is stored as it is listed. -/
structure Flushed (rt : Runtime) (items : List (Int × ToolCallState)) (sent : List Event) (b : ContentBlockManager)
    (results : List (Int × Str)) (after : ContentBlockManager) : Prop where
  recorded : Recorded sent after
  same : ∀ j state, b.toolStates.get? j = some state → ∃ emptied, after.toolStates.get? j = some emptied ∧
    SameBlock state emptied
  listed : ∀ item ∈ items, owedTo item.1 results = pendingOf rt item.2
  only : ∀ result ∈ results, ∃ item ∈ items, item.1 = result.1 ∧ item.2.taskArgBuffer ≠ []

theorem owedTo_nil {i : Int} {results : List (Int × Str)} (other : ∀ result ∈ results, result.1 ≠ i) :
    owedTo i results = [] := by
  rw [owedTo, List.map_eq_nil_iff, List.filter_eq_nil_iff]
  intro result member
  simpa using other result member

theorem flushLoop_flushed (rt : Runtime) {items : List (Int × ToolCallState)} (distinct : (items.map Prod.fst).Nodup)
    {sent : List Event} {b : ContentBlockManager} (recorded : Recorded sent b)
    (stored : ∀ item ∈ items, b.toolStates.get? item.1 = some item.2) :
    Flushed rt items sent b (flushLoop rt items b).1 (flushLoop rt items b).2 := by
  induction items generalizing b with
  | nil =>
    constructor
    · exact recorded
    · exact fun _ state found => ⟨state, found, rfl, rfl, rfl⟩
    · intro item member
      cases member
    · intro result member
      cases member
  | cons item rest ih =>
    rcases item with ⟨i, state⟩
    rw [List.map_cons, List.nodup_cons] at distinct
    have elsewhere (item : Int × ToolCallState) (member : item ∈ rest) : item.1 ≠ i := by
      intro same
      exact distinct.1 (List.mem_map.mpr ⟨item, member, same⟩)
    rcases List.forall_mem_cons.mp stored with ⟨here, others⟩
    by_cases quiet : state.taskArgBuffer = [] ∨ state.taskArgsEmitted = true
    · have next := ih distinct.2 recorded others
      have skip : flushLoop rt ((i, state) :: rest) b = flushLoop rt rest b := if_pos quiet
      rw [skip]
      constructor
      · exact next.recorded
      · exact next.same
      · intro item member
        rcases List.mem_cons.mp member with rfl | later
        · rw [pendingOf, if_pos quiet]
          apply owedTo_nil
          intro result listed same
          rcases next.only result listed with ⟨other, member', key, _⟩
          exact elsewhere other member' (key.trans same)
        · exact next.listed item later
      · intro result listed
        rcases next.only result listed with ⟨other, member', both⟩
        exact ⟨other, List.mem_cons_of_mem _ member', both⟩
    · let emptied : ToolCallState := { state with taskArgsEmitted := true, taskArgBuffer := [] }
      let between : ContentBlockManager := { b with toolStates := b.toolStates.set i emptied }
      have same : SameBlock state emptied := ⟨rfl, rfl, rfl⟩
      have othersStored : ∀ item ∈ rest, between.toolStates.get? item.1 = some item.2 := by
        intro item member
        exact (Dict.get?_set_ne _ _ (elsewhere item member)).trans (others item member)
      have next := ih distinct.2 (recorded.modify here same) othersStored
      have step : flushLoop rt ((i, state) :: rest) b =
          ((i, flushedArgs rt state.taskArgBuffer) :: (flushLoop rt rest between).1, (flushLoop rt rest between).2) :=
        if_neg quiet
      have nothingElse : owedTo i (flushLoop rt rest between).1 = [] := by
        apply owedTo_nil
        intro result listed same
        rcases next.only result listed with ⟨other, member', key, _⟩
        exact elsewhere other member' (key.trans same)
      rw [step]
      constructor
      · exact next.recorded
      · intro j old found
        by_cases own : j = i
        · subst own
          cases here.symm.trans found
          rcases next.same j emptied (Dict.get?_set_self ..) with ⟨last, foundLast, sameLast⟩
          exact ⟨last, foundLast, sameLast.started, sameLast.blockIndex, sameLast.contents⟩
        · exact next.same j old ((Dict.get?_set_ne _ _ own).trans found)
      · intro item member
        rcases List.mem_cons.mp member with rfl | later
        · rw [owedTo_cons_self, nothingElse, pendingOf, if_neg quiet]
        · rw [owedTo_cons_ne _ _ (elsewhere item later)]
          exact next.listed item later
      · intro result listed
        rcases List.mem_cons.mp listed with rfl | later
        · exact ⟨(i, state), List.mem_cons_self, rfl, fun empty => quiet (.inl empty)⟩
        · rcases next.only result later with ⟨other, member', both⟩
          exact ⟨other, List.mem_cons_of_mem _ member', both⟩

theorem loads_of_waiting {received : Str} {texts : List Str} (waiting : firstAccepted rt received texts = none)
    (some' : texts ≠ []) : rt.loads (received ++ texts.flatten) = none := by
  induction texts generalizing received with
  | nil => exact absurd rfl some'
  | cons text rest ih =>
    rw [firstAccepted] at waiting
    cases loaded : rt.loads (received ++ text) with
    | some value =>
      rw [loaded] at waiting
      cases waiting
    | none =>
      rw [loaded] at waiting
      rw [List.flatten_cons, ← List.append_assoc]
      cases rest with
      | nil => simpa using loaded
      | cons next more => exact ih waiting (List.cons_ne_nil _ _)

theorem Kept.pending {call : Call} {state : ToolCallState} (kept : Kept rt call state) (whole : call.passedOn = false) :
    state.contents ++ pendingOf rt state = inputOf rt call := by
  rw [kept.contents whole, inputOf, pendingOf]
  cases accepted : firstAccepted rt [] call.buffered with
  | some value => rw [if_pos (.inl (kept.done value accepted).2.2)]; rfl
  | none =>
    rcases kept.waiting accepted with ⟨emitted, buffer⟩
    rw [emitted, buffer]
    by_cases empty : call.buffered.flatten = []
    · simp [empty]
    · have filled : call.buffered ≠ [] := by
        intro none'
        rw [none'] at empty
        exact empty rfl
      have invalid := loads_of_waiting accepted filled
      rw [List.nil_append] at invalid
      simp [empty, flushedArgs, invalid]

theorem Follows.owes {known : List Int} {sent : List Event} {s : Stream} (follows : Follows rt view known sent s) :
    Owes rt view (s.sse.blocks.flushTaskArgBuffers rt).1 sent
      { s with sse := { s.sse with blocks := (s.sse.blocks.flushTaskArgBuffers rt).2 } } := by
  have listed (item : Int × ToolCallState) (member : item ∈ s.sse.blocks.toolStates.entries) :
      s.sse.blocks.toolStates.get? item.1 = some item.2 := (Dict.get?_eq_some_iff ..).mpr member
  have flushed := flushLoop_flushed rt s.sse.blocks.toolStates.nodup follows.recorded listed
  have kept {i : Int} {state : ToolCallState} (found : s.sse.blocks.toolStates.get? i = some state) :
    Kept rt (view i) state := by
    have shows := follows.shows i
    rw [found] at shows
    exact shows
  constructor
  · exact flushed.recorded
  · intro i named
    cases found : s.sse.blocks.toolStates.get? i with
    | none =>
      have missing := follows.name i
      rw [found] at missing
      exact absurd missing named
    | some state =>
      rcases flushed.same i state found with ⟨emptied, foundAfter, same⟩
      refine ⟨emptied, foundAfter, fun filled => ?_, fun whole => ?_⟩
      · exact same.started.trans ((kept found).running filled)
      · rw [same.contents]
        have owed := flushed.listed (i, state) ((Dict.get?_eq_some_iff ..).mp found)
        exact (congrArg (state.contents ++ ·) owed).trans ((kept found).pending whole)
  · intro result member
    rcases flushed.only result member with ⟨item, inside, key, filled⟩
    have found := listed item inside
    have buffered : (view item.1).buffered ≠ [] := by
      intro empty
      have waiting : firstAccepted rt [] (view item.1).buffered = none := by
        rw [empty]
        rfl
      rw [((kept found).waiting waiting).2, empty] at filled
      exact filled rfl
    rcases flushed.same item.1 item.2 found with ⟨emptied, foundAfter, same⟩
    exact ⟨emptied, key ▸ foundAfter, same.started.trans ((kept found).running buffered)⟩

theorem flush_owes : Triple (fun sent s => ∃ known, Follows rt view known sent s) (flushTaskArgBuffers rt)
    (fun _ => Owes rt view []) fail := by
  refine Triple.bind Triple.current fun s => ?_
  refine Triple.bind ?_ fun _ => sendAll_owes (s.sse.blocks.flushTaskArgBuffers rt).1
  apply Triple.modify
  intro sent s' both
  rcases both with ⟨rfl, known, follows⟩
  exact follows.owes

end Flush

theorem Follows.accepts {rt : Runtime} {view : Int → Call} {known : List Int} {sent : List Event} {s : Stream}
    (follows : Follows rt view known sent s) (i : Int) : ¬ Refused rt (view i) := by
  intro refused
  rcases refused with ⟨value, accepted, other⟩
  have shows := follows.shows i
  cases found : s.sse.blocks.toolStates.get? i with
  | none =>
    rw [found] at shows
    rw [show view i = .start from shows] at accepted
    cases accepted
  | some state =>
    rw [found] at shows
    have object := (show Kept rt (view i) state from shows).done value accepted
    rw [object.1] at other
    cases other

def calls (deltas : List CallDelta) (i : Int) : Call := .of (fragmentsOf i (indexed [] deltas))

theorem recorded_fresh {s : Stream} (fresh : s.sse.blocks.toolStates = .empty) : Recorded [] s.sse.blocks := by
  have missing (i : Int) : s.sse.blocks.toolStates.get? i = none := by
    rw [fresh]
    rfl
  constructor
  · intro i state found
    cases (missing i).symm.trans found
  · intro i state found
    cases (missing i).symm.trans found
  · intro i j state other found
    cases (missing i).symm.trans found
  · exact fun _ _ => rfl

theorem follows_fresh {rt : Runtime} {s : Stream} (fresh : s.sse.blocks.toolStates = .empty) :
    Follows rt (fun _ => .start) [] [] s := by
  constructor
  · intro i
    rw [fresh]
    rfl
  · exact recorded_fresh fresh
  · rw [fresh]
    rfl

theorem interceptTasks_triple (rt : Runtime) (deltas : List CallDelta) :
    Triple (fun sent s => sent = [] ∧ s.sse.blocks.toolStates = .empty) (interceptTasks rt deltas)
      (fun _ sent s => Owes rt (calls deltas) [] sent s ∧ ∀ i, ¬ Refused rt (calls deltas i))
      fun _ _ => ∃ i, Refused rt (calls deltas i) := by
  have process := @processDeltas_follows rt (fun _ => .start) [] deltas
  have start (sent : List Event) (s : Stream) (before : sent = [] ∧ s.sse.blocks.toolStates = .empty) :
      Follows rt (fun _ => .start) [] sent s := by
    rw [before.1]
    exact follows_fresh before.2
  refine Triple.bind (process.before start) fun _ => ?_
  refine Triple.given (fun _ _ follows => ?_) fun accepted => flush_owes.after fun _ _ _ owes => ⟨owes, accepted⟩
  rcases follows with ⟨known, follows⟩
  exact follows.accepts

section Task

theorem mergeName_task {name : Str} (start : name <+: taskName) : Call.mergeName (some taskName) name = taskName := by
  rw [Call.mergeName]
  split
  · rename_i grown
    rcases grown with empty | longer
    · exact absurd empty (by decide)
    · exact start.eq_of_length (Nat.le_antisymm start.length_le (List.isPrefixOf_iff_prefix.mp longer).length_le)
  · rw [if_neg (not_not.mpr (List.isPrefixOf_iff_prefix.mpr start))]

theorem add_task {call : Call} (task : call.name = some taskName) (fragment : Fragment)
    (keeps : ∀ name, fragment.name = some name → name <+: taskName) : call.add fragment =
      if given fragment.arguments then { call with buffered := call.buffered ++ [fragment.arguments.getD []] }
        else call := by
  have renamed : call.rename fragment.name = call := by
    cases found : fragment.name with
    | none => rfl
    | some name => rw [Call.rename, task, mergeName_task (keeps name found), ← task]
  have known (name : Str) : call.orNamed name = call := by
    rw [Call.orNamed, task]
    rfl
  have identified : call.identify fragment.id = call := by
    rw [Call.identify, known, ite_self]
  rw [Call.add, renamed, identified, Call.assume, known, Call.take, if_pos task]

structure Buffers (call : Call) (arguments : Str) : Prop where
  name : call.name = some taskName
  whole : call.passedOn = false
  flatten : call.buffered.flatten = arguments
  filled : ∀ text ∈ call.buffered, text ≠ []

theorem given_iff (arguments : Option Str) : given arguments = true ↔ arguments.getD [] ≠ [] := by
  cases arguments <;> simp [given]

theorem Buffers.add {call : Call} {arguments : Str} (buffers : Buffers call arguments) (fragment : Fragment)
    (keeps : ∀ name, fragment.name = some name → name <+: taskName) :
    Buffers (call.add fragment) (arguments ++ fragment.arguments.getD []) := by
  rw [add_task buffers.name fragment keeps]
  split
  · rename_i filled
    constructor
    · exact buffers.name
    · exact buffers.whole
    · simp [buffers.flatten]
    · intro text member
      rcases List.mem_append.mp member with old | new
      · exact buffers.filled text old
      · rw [List.mem_singleton.mp new]
        exact (given_iff _).mp filled
  · rename_i blank
    have empty : fragment.arguments.getD [] = [] := not_not.mp fun filled => blank ((given_iff _).mpr filled)
    rw [empty, List.append_nil]
    exact buffers

theorem Buffers.foldl {call : Call} {arguments : Str} (buffers : Buffers call arguments) {rest : List Fragment}
    (keeps : ∀ fragment ∈ rest, ∀ name, fragment.name = some name → name <+: taskName) :
    Buffers (rest.foldl Call.add call) (arguments ++ argumentsOf rest) := by
  induction rest generalizing call arguments with
  | nil =>
    rw [argumentsOf, List.flatMap_nil, List.append_nil]
    exact buffers
  | cons fragment rest ih =>
    rcases List.forall_mem_cons.mp keeps with ⟨first, later⟩
    have next := ih (buffers.add fragment first) later
    rw [List.append_assoc] at next
    exact next

theorem buffers_of_isTask {fragments : List Fragment} (task : IsTask fragments) :
    Buffers (.of fragments) (argumentsOf fragments) := by
  cases fragments with
  | nil => exact absurd task id
  | cons first rest =>
    rcases task with ⟨named, later⟩
    -- a nameless call takes the first name as it is
    have started : Call.start.add first = ({ Call.start with name := some taskName } : Call).add
      { first with name := none } := by
      simp [Call.add, Call.rename, named, Call.mergeName, Call.start]
    have first' : Buffers ({ Call.start with name := some taskName } : Call) [] := ⟨rfl, rfl, rfl, by
      intro text member
      cases member⟩
    have next := (first'.add { first with name := none } fun name same => by cases same).foldl later
    rw [← started, List.nil_append] at next
    exact next

theorem loads_of_accepted {rt : Runtime} {received : Str} {texts : List Str} {value : Json}
    (accepted : firstAccepted rt received texts = some value) : ∃ text, rt.loads text = some value := by
  induction texts generalizing received with
  | nil => cases accepted
  | cons text rest ih =>
    rw [firstAccepted] at accepted
    cases loaded : rt.loads (received ++ text) with
    | some other =>
      rw [loaded] at accepted
      exact ⟨_, loaded.trans accepted⟩
    | none =>
      rw [loaded] at accepted
      exact ih accepted

end Task

/-- What `json` is relied on for. -/
structure JsonRoundTrip (rt : Runtime) : Prop where
  empty : rt.loads "{}".toList = some (.object [])
  foreground : ∀ text members, rt.loads text = some (.object members) →
    rt.loads (rt.dumps (inForeground members)) = some (inForeground members)

/-- The first JSON value that the fragments make up is an object, and for a `Task` call the whole arguments are the
    same object, whatever its `run_in_background`. -/
def Acceptable (rt : Runtime) (fragments : List Fragment) : Prop :=
  ∀ value, firstAccepted rt [] (Call.of fragments).buffered = some value → value.isObject = true ∧
    (IsTask fragments → ∃ members whole, value = .object members ∧
      rt.loads (argumentsOf fragments) = some (.object whole) ∧ inForeground members = inForeground whole)

section Interception

variable {rt : Runtime} {deltas : List CallDelta} {s : Stream}

theorem inForeground_ne (members : List (Str × Json)) : inForeground members ≠ .object [] := by
  intro same
  have empty : Json.setMember backgroundKey (.bool false) members = [] := Json.object.inj same
  cases members with
  | nil => cases empty
  | cons member rest =>
    rw [Json.setMember] at empty
    split at empty <;> cases empty

theorem Owes.task {sent : List Event} (owes : Owes rt (calls deltas) [] sent s) {i : Int}
    (task : IsTask (fragmentsOf i (indexed [] deltas))) (arguments : argumentsOf (fragmentsOf i (indexed [] deltas)) ≠ []) :
    ∃ state, s.sse.blocks.toolStates.get? i = some state ∧
      jsonDeltas state.blockIndex sent = inputOf rt (calls deltas i) := by
  have buffers := buffers_of_isTask task
  have named : (calls deltas i).name ≠ none := by
    rw [show (calls deltas i).name = some taskName from buffers.name]
    exact Option.some_ne_none _
  have filled : (calls deltas i).buffered ≠ [] := by
    intro empty
    apply arguments
    rw [← buffers.flatten, show (Call.of _).buffered = [] from empty]
    rfl
  rcases owes.known i named with ⟨state, found, running, contents⟩
  refine ⟨state, found, ?_⟩
  rw [(owes.recorded.filled i state found (running filled)).1, ← contents buffers.whole]
  exact (List.append_nil _).symm

theorem acceptable_of_intercepted (json : JsonRoundTrip rt) (fresh : s.sse.blocks.toolStates = .empty)
    (intercepted : Intercepted rt s deltas) (i : Int) : Acceptable rt (fragmentsOf i (indexed [] deltas)) := by
  have outcome := interceptTasks_triple rt deltas [] s ⟨rfl, fresh⟩
  have completes := intercepted.completes
  cases ended : (interceptTasks rt deltas s).result with
  | error e =>
    rw [ended] at completes
    cases completes
  | ok done =>
    rw [ended] at outcome
    rcases outcome with ⟨owes, accepts⟩
    intro value accepted
    have object : value.isObject = true := by
      by_contra other
      exact accepts i ⟨value, accepted, Bool.eq_false_iff.mpr other⟩
    refine ⟨object, fun task => ?_⟩
    have buffers := buffers_of_isTask task
    have arguments : argumentsOf (fragmentsOf i (indexed [] deltas)) ≠ [] := by
      intro empty
      rw [← buffers.flatten] at empty
      cases texts : (Call.of (fragmentsOf i (indexed [] deltas))).buffered with
      | nil =>
        rw [texts] at accepted
        cases accepted
      | cons text rest =>
        have filled := buffers.filled text (by rw [texts]; exact List.mem_cons_self)
        rw [texts, List.flatten_cons] at empty
        exact filled (List.append_eq_nil_iff.mp empty).1
    rcases owes.task task arguments with ⟨state, found, sent⟩
    rcases intercepted.inputs i task arguments with ⟨state', text, found', one, loaded⟩
    cases found.symm.trans found'
    cases value with
    | object members =>
      have input : inputOf rt (calls deltas i) = [rt.dumps (inForeground members)] := by
        rw [inputOf, show firstAccepted rt [] (calls deltas i).buffered = some _ from accepted]
        rfl
      have same : text = rt.dumps (inForeground members) := by
        have both := one.symm.trans (sent.trans input)
        exact (List.singleton_inj.mp both)
      rcases loads_of_accepted accepted with ⟨source, sourceLoaded⟩
      rw [same, json.foreground source members sourceLoaded, Option.some.injEq] at loaded
      rw [expectedInput] at loaded
      split at loaded
      · rename_i whole wholeLoaded
        exact ⟨members, whole, rfl, wholeLoaded, loaded⟩
      · exact absurd loaded (inForeground_ne members)
    | _ => cases object

theorem intercepted_of_acceptable (json : JsonRoundTrip rt) (fresh : s.sse.blocks.toolStates = .empty)
    (acceptable : ∀ i, Acceptable rt (fragmentsOf i (indexed [] deltas))) : Intercepted rt s deltas := by
  have outcome := interceptTasks_triple rt deltas [] s ⟨rfl, fresh⟩
  cases ended : (interceptTasks rt deltas s).result with
  | error e =>
    rw [ended] at outcome
    rcases outcome with ⟨i, value, accepted, other⟩
    rw [(acceptable i value accepted).1] at other
    cases other
  | ok done =>
    rw [ended] at outcome
    rcases outcome with ⟨owes, _⟩
    constructor
    · rw [ended]
      rfl
    · intro i task arguments
      rcases owes.task task arguments with ⟨state, found, sent⟩
      have buffers := buffers_of_isTask task
      cases accepted : firstAccepted rt [] (calls deltas i).buffered with
      | some value =>
        rcases (acceptable i value accepted).2 task with ⟨members, whole, rfl, wholeLoaded, same⟩
        rcases loads_of_accepted accepted with ⟨source, sourceLoaded⟩
        refine ⟨state, rt.dumps (inForeground members), found, ?_, ?_⟩
        · rw [inputOf, accepted] at sent
          exact sent
        · rw [json.foreground source members sourceLoaded, expectedInput, wholeLoaded, same]
      | none =>
        have notEmpty : (calls deltas i).buffered.flatten ≠ [] := by
          rw [show (calls deltas i).buffered.flatten = _ from buffers.flatten]
          exact arguments
        have invalid : rt.loads (argumentsOf (fragmentsOf i (indexed [] deltas))) = none := by
          rw [← buffers.flatten]
          refine loads_of_waiting accepted fun empty => ?_
          rw [empty] at notEmpty
          exact notEmpty rfl
        refine ⟨state, "{}".toList, found, ?_, ?_⟩
        · rw [inputOf, accepted] at sent
          exact sent.trans (if_neg notEmpty)
        · rw [json.empty, expectedInput, invalid]

theorem intercepted_iff (rt : Runtime) (json : JsonRoundTrip rt) (s : Stream) (fresh : s.sse.blocks.toolStates = .empty)
    (deltas : List CallDelta) : Intercepted rt s deltas ↔ ∀ i, Acceptable rt (fragmentsOf i (indexed [] deltas)) := by
  constructor
  · exact acceptable_of_intercepted json fresh
  · exact intercepted_of_acceptable json fresh

end Interception

def sampleRuntime : Runtime where
  uuid4 n := (toString n).toList
  toolParserHex n := (toString n).toList
  loads text :=
    if text = "{}".toList then some (.object [])
    else if text = (inForeground []).dumps then some (inForeground [])
    else if text = "\x7b\"a\": 1\x7d".toList then some (.object [(['a'], .integer 1)])
    else if text = (inForeground [(['a'], .integer 1)]).dumps then some (inForeground [(['a'], .integer 1)])
    else if text = "[1]".toList then some (.array [.integer 1])
    else none
  dumps := Json.dumps
  encoder := none

def sampleStream : Stream := startStream sampleRuntime "model".toList 0

theorem sampleRuntime_roundTrip : JsonRoundTrip sampleRuntime := by
  constructor
  · rfl
  · intro text members loaded
    simp only [sampleRuntime] at loaded
    split at loaded
    · cases loaded
      rfl
    split at loaded
    · cases loaded
      rfl
    split at loaded
    · cases loaded
      rfl
    split at loaded
    · cases loaded
      rfl
    split at loaded
    · cases loaded
    · cases loaded

/-- A `Task` call in two fragments, with another call between them. -/
def splitTask : List CallDelta :=
  [⟨0, some "call_1".toList, some taskName, some "\x7b\"a\"".toList⟩,
    ⟨1, some "call_2".toList, some "Read".toList, some "{}".toList⟩,
    ⟨0, none, none, some ": 1\x7d".toList⟩]

theorem intercepted_splitTask : Intercepted sampleRuntime sampleStream splitTask := by
  apply (intercepted_iff sampleRuntime sampleRuntime_roundTrip sampleStream rfl splitTask).mpr
  intro i value accepted
  by_cases task : i = 0
  · subst task
    cases accepted
    exact ⟨rfl, fun _ => ⟨_, _, rfl, rfl, rfl⟩⟩
  · by_cases other : i = 1
    · subst other
      cases accepted
    · have none' : fragmentsOf i (indexed [] splitTask) = [] := by
        simp [fragmentsOf, indexed, splitTask, indexOf, Ne.symm task, Ne.symm other]
      rw [none'] at accepted
      cases accepted

/-- Arguments that are JSON but no object, and arguments that are not JSON but start with an object. -/
theorem not_intercepted :
    ¬ Intercepted sampleRuntime sampleStream [⟨0, some "call_1".toList, some taskName, some "[1]".toList⟩] ∧
    ¬ Intercepted sampleRuntime sampleStream
      [⟨0, some "call_1".toList, some taskName, some "{}".toList⟩, ⟨0, none, none, some "x".toList⟩] := by
  constructor
  · intro intercepted
    cases intercepted.completes
  · intro intercepted
    rcases intercepted.inputs 0 ⟨rfl, by decide⟩ (by decide) with ⟨state, text, found, sent, loaded⟩
    cases found
    cases sent
    cases loaded

end ClaudeProxy.Providers
