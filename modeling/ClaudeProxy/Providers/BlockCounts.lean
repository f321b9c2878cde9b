import ClaudeProxy.Providers.StreamText
import ClaudeProxy.Providers.ToolKnowledge

namespace ClaudeProxy.Providers

open Kit Kit.Generator

def Event.startsText : Event → Bool
  | .contentBlockStart _ (.text _) => true
  | _ => false

def Event.startsTool : Event → Bool
  | .contentBlockStart _ (.toolUse _ _) => true
  | _ => false

/-- A text block and a tool block have been started, or not. -/
structure Counts (text tool : Prop) (sent : List Event) (b : ContentBlockManager) : Prop where
  told : text ↔ b.textIndex ≠ -1
  textBlock : text ↔ ∃ event ∈ sent, event.startsText = true
  toolBlock : tool ↔ ∃ event ∈ sent, event.startsTool = true
  started : b.textStarted = true → b.textIndex ≠ -1
  next : 0 ≤ b.nextIndex

/-- What an act adds to the counts; it leaves the native tools alone. -/
structure Adds (act : SSEBuilder → List Event × SSEBuilder) (text tool : Prop) : Prop where
  counts : ∀ {text' tool' : Prop} {sent : List Event} (sse : SSEBuilder), Counts text' tool' sent sse.blocks →
    Counts (text' ∨ text) (tool' ∨ tool) (sent ++ (act sse).1) (act sse).2.blocks
  states : ∀ sse, (act sse).2.blocks.toolStates = sse.blocks.toolStates

theorem exists_append (holds : Event → Bool) (sent more : List Event) : (∃ event ∈ sent ++ more, holds event = true) ↔
    (∃ event ∈ sent, holds event = true) ∨ ∃ event ∈ more, holds event = true := by
  constructor
  · intro found
    rcases found with ⟨event, member, starts⟩
    rcases List.mem_append.mp member with old | new
    · exact .inl ⟨event, old, starts⟩
    · exact .inr ⟨event, new, starts⟩
  · intro found
    rcases found with ⟨event, member, starts⟩ | ⟨event, member, starts⟩
    · exact ⟨event, List.mem_append_left _ member, starts⟩
    · exact ⟨event, List.mem_append_right _ member, starts⟩

section Acts

variable {first second : SSEBuilder → List Event × SSEBuilder} {text tool text' tool' : Prop}

theorem Adds.andThen (one : Adds first text tool) (two : Adds second text' tool') :
    Adds (SSEBuilder.andThen first second) (text ∨ text') (tool ∨ tool') := by
  constructor
  · intro before before' sent sse counts
    have next := two.counts (first sse).2 (one.counts sse counts)
    rw [or_assoc, or_assoc, List.append_assoc] at next
    exact next
  · intro sse
    exact (two.states _).trans (one.states sse)

theorem adds_quiet {act : SSEBuilder → List Event × SSEBuilder}
    (events : ∀ sse, ∀ event ∈ (act sse).1, event.startsText = false ∧ event.startsTool = false)
    (states : ∀ sse, (act sse).2.blocks.toolStates = sse.blocks.toolStates)
    (index : ∀ sse, (act sse).2.blocks.textIndex = sse.blocks.textIndex)
    (started : ∀ sse, (act sse).2.blocks.textStarted = true → sse.blocks.textStarted = true)
    (next : ∀ sse, sse.blocks.nextIndex ≤ (act sse).2.blocks.nextIndex) : Adds act False False := by
  constructor
  · intro before before' sent sse counts
    have noText : ¬ ∃ event ∈ (act sse).1, event.startsText = true := by
      intro found
      rcases found with ⟨event, member, starts⟩
      rw [(events sse event member).1] at starts
      cases starts
    have noTool : ¬ ∃ event ∈ (act sse).1, event.startsTool = true := by
      intro found
      rcases found with ⟨event, member, starts⟩
      rw [(events sse event member).2] at starts
      cases starts
    rw [or_false, or_false]
    constructor
    · rw [index]
      exact counts.told
    · rw [exists_append, or_iff_left noText]
      exact counts.textBlock
    · rw [exists_append, or_iff_left noTool]
      exact counts.toolBlock
    · intro open'
      rw [index]
      exact counts.started (started sse open')
    · exact Int.le_trans counts.next (next sse)
  · exact states

theorem adds_nothing : Adds SSEBuilder.nothing False False :=
  adds_quiet (fun _ _ member => absurd member List.not_mem_nil) (fun _ => rfl) (fun _ => rfl) (fun _ => id) fun _ =>
    Int.le_refl _

theorem adds_ite (test : SSEBuilder → Prop) [DecidablePred test] (yes : Adds first text tool) (no : Adds second text tool) :
    Adds (fun sse => if test sse then first sse else second sse) text tool := by
  constructor
  · intro before before' sent sse counts
    split
    · exact yes.counts sse counts
    · exact no.counts sse counts
  · intro sse
    split
    · exact yes.states sse
    · exact no.states sse

theorem stopThinkingBlock_adds : Adds SSEBuilder.stopThinkingBlock False False := by
  refine adds_quiet ?_ (fun _ => rfl) (fun _ => rfl) (fun _ => id) fun _ => Int.le_refl _
  intro sse event member
  rw [List.mem_singleton.mp member]
  exact ⟨rfl, rfl⟩

theorem stopTextBlock_adds : Adds SSEBuilder.stopTextBlock False False := by
  refine adds_quiet ?_ (fun _ => rfl) (fun _ => rfl) (fun _ closed => ?_) fun _ => Int.le_refl _
  · intro sse event member
    rw [List.mem_singleton.mp member]
    exact ⟨rfl, rfl⟩
  · cases closed

theorem startThinkingBlock_adds : Adds SSEBuilder.startThinkingBlock False False := by
  refine adds_quiet ?_ (fun _ => rfl) (fun _ => rfl) (fun _ => id) fun _ => Int.le_of_lt (Int.lt_succ _)
  intro sse event member
  rw [List.mem_singleton.mp member]
  exact ⟨rfl, rfl⟩

theorem emitThinkingDelta_adds (content : Str) : Adds (SSEBuilder.emitThinkingDelta content) False False := by
  refine adds_quiet ?_ (fun _ => rfl) (fun _ => rfl) (fun _ => id) fun _ => Int.le_refl _
  intro sse event member
  rw [List.mem_singleton.mp member]
  exact ⟨rfl, rfl⟩

theorem emitTextDelta_adds (content : Str) : Adds (SSEBuilder.emitTextDelta content) False False := by
  refine adds_quiet ?_ (fun _ => rfl) (fun _ => rfl) (fun _ => id) fun _ => Int.le_refl _
  intro sse event member
  rw [List.mem_singleton.mp member]
  exact ⟨rfl, rfl⟩

theorem closeContentBlocks_adds : Adds SSEBuilder.closeContentBlocks False False := by
  have both := (adds_ite (fun sse => sse.blocks.thinkingStarted = true) stopThinkingBlock_adds adds_nothing).andThen
    (adds_ite (fun sse => sse.blocks.textStarted = true) stopTextBlock_adds adds_nothing)
  rw [or_false] at both
  exact both

theorem ensureThinkingBlock_adds : Adds SSEBuilder.ensureThinkingBlock False False := by
  have both := (adds_ite (fun sse => sse.blocks.textStarted = true) stopTextBlock_adds adds_nothing).andThen
    (adds_ite (fun sse => ¬ sse.blocks.thinkingStarted = true) startThinkingBlock_adds adds_nothing)
  rw [or_false] at both
  exact both

theorem openTextBlock_adds :
    Adds (fun sse => if ¬ sse.blocks.textStarted = true then sse.startTextBlock else sse.nothing) True False := by
  constructor
  · intro before before' sent sse counts
    split
    · have index : sse.startTextBlock.2.blocks.textIndex ≠ -1 := by
        have next := counts.next
        show sse.blocks.nextIndex ≠ -1
        omega
      have noTool : ¬ ∃ event ∈ sse.startTextBlock.1, event.startsTool = true := by
        intro found
        rcases found with ⟨event, member, starts⟩
        rw [List.mem_singleton.mp member] at starts
        cases starts
      rw [or_true, or_false]
      constructor
      · exact iff_of_true trivial index
      · exact iff_of_true trivial ⟨_, List.mem_append_right _ List.mem_cons_self, rfl⟩
      · rw [exists_append, or_iff_left noTool]
        exact counts.toolBlock
      · exact fun _ => index
      · have next := counts.next
        show 0 ≤ sse.blocks.nextIndex + 1
        omega
    · rename_i open'
      have index := counts.started (not_not.mp open')
      have told : before ↔ (before ∨ True) := by
        rw [or_true]
        exact iff_true_intro (counts.told.mpr index)
      rw [← told, or_false]
      show Counts before before' (sent ++ []) sse.blocks
      rw [List.append_nil]
      exact counts
  · intro sse
    split <;> rfl

theorem ensureTextBlock_adds : Adds SSEBuilder.ensureTextBlock True False := by
  have both := (adds_ite (fun sse => sse.blocks.thinkingStarted = true) stopThinkingBlock_adds adds_nothing).andThen
    openTextBlock_adds
  rw [or_true, or_false] at both
  exact both

theorem toolBlock_adds (rt : Runtime) (tool : ToolUse) : Adds (toolBlock rt tool) False True := by
  constructor
  · intro before before' sent sse counts
    have noText : ¬ ∃ event ∈ (toolBlock rt tool sse).1, event.startsText = true := by
      intro found
      rcases found with ⟨event, member, starts⟩
      simp only [toolBlock, List.mem_cons, List.not_mem_nil, or_false] at member
      rcases member with rfl | rfl | rfl <;> cases starts
    rw [or_true, or_false]
    constructor
    · exact counts.told
    · rw [exists_append, or_iff_left noText]
      exact counts.textBlock
    · exact iff_of_true trivial ⟨_, List.mem_append_right _ List.mem_cons_self, rfl⟩
    · exact counts.started
    · have next := counts.next
      show 0 ≤ sse.blocks.nextIndex + 1
      omega
  · exact fun _ => rfl

end Acts

/-- What is known of the native tools: whether one is registered, and whether one was opened. -/
structure Native (registered opened : Prop) (tools : Dict Int ToolCallState) : Prop where
  states : registered ↔ ∃ i state, tools.get? i = some state
  named : ∀ i state, tools.get? i = some state → state.name ≠ [] → state.started = true
  running : ∀ i state, tools.get? i = some state → state.started = true → opened

structure Naming (i : Int) (name : Option Str) (registered opened : Prop) (tools : Dict Int ToolCallState) : Prop where
  states : registered ↔ ∃ j state, tools.get? j = some state
  named : ∀ j state, tools.get? j = some state → state.name ≠ [] → state.started = true ∨ j = i ∧ given name = true
  running : ∀ j state, tools.get? j = some state → state.started = true → opened
  kept : given name = true → ∃ state, tools.get? i = some state ∧ state.name ≠ []

/-- Where the parsers are, which blocks were started, and the native tools. -/
structure Account (parser : ThinkTagParser) (heuristic : HeuristicToolParser) (text tool : Prop)
    (holds : Dict Int ToolCallState → Prop) (sent : List Event) (s : Stream) : Prop where
  parser : s.thinkParser = parser
  heuristic : s.heuristicParser = heuristic
  calm : s.errorOccurred = false
  counts : Counts text tool sent s.sse.blocks
  tools : holds s.sse.blocks.toolStates

section Account

variable {parser : ThinkTagParser} {heuristic : HeuristicToolParser} {text tool text' tool' registered opened found : Prop}
  {holds : Dict Int ToolCallState → Prop} {fail : List Event → Stream → Prop} {act : SSEBuilder → List Event × SSEBuilder}

theorem onSse_account (adds : Adds act text' tool') : Triple (Account parser heuristic text tool holds) (onSse act)
    (fun _ => Account parser heuristic (text ∨ text') (tool ∨ tool') holds) fail := by
  apply Triple.emit
  intro sent s account
  refine ⟨account.parser, account.heuristic, account.calm, adds.counts s.sse account.counts, ?_⟩
  rw [show (act s.sse).2.blocks.toolStates = s.sse.blocks.toolStates from adds.states s.sse]
  exact account.tools

theorem quietly_account (adds : Adds act False False) : Triple (Account parser heuristic text tool holds) (onSse act)
    (fun _ => Account parser heuristic text tool holds) fail := by
  have counted := @onSse_account parser heuristic text tool False False holds fail act adds
  rw [or_false, or_false] at counted
  exact counted

theorem emitThinking_account (content : Str) : Triple (Account parser heuristic text tool holds) (emitThinking content)
    (fun _ => Account parser heuristic text tool holds) fail :=
  Triple.bind (quietly_account ensureThinkingBlock_adds) fun _ => quietly_account (emitThinkingDelta_adds content)

theorem emitText_account (content : Str) : Triple (Account parser heuristic text tool holds) (emitText content)
    (fun _ => Account parser heuristic True tool holds) fail := by
  have opens := @onSse_account parser heuristic text tool True False holds fail _ ensureTextBlock_adds
  rw [or_true, or_false] at opens
  exact Triple.bind opens fun _ => quietly_account (emitTextDelta_adds content)

theorem emitTool_account (rt : Runtime) (use : ToolUse) : Triple (Account parser heuristic text tool holds) (emitTool rt use)
    (fun _ => Account parser heuristic text True holds) fail := by
  have opens := @onSse_account parser heuristic text tool False True holds fail _ (toolBlock_adds rt use)
  rw [or_true, or_false] at opens
  exact Triple.bind (quietly_account closeContentBlocks_adds) fun _ => opens

theorem emitTools_account (rt : Runtime) (tools : List ToolUse) : Triple (Account parser heuristic text tool holds)
    (forEach tools (emitTool rt)) (fun _ => Account parser heuristic text (tool ∨ tools ≠ []) holds) fail := by
  induction tools generalizing tool with
  | nil =>
    apply Triple.pure
    intro sent s account
    have none' : (tool ∨ ([] : List ToolUse) ≠ []) = tool := by simp
    rw [none']
    exact account
  | cons use rest ih =>
    have last := @ih True
    rw [true_or] at last
    have all : (tool ∨ use :: rest ≠ []) = True := eq_true (.inr (List.cons_ne_nil _ _))
    rw [all]
    exact Triple.bind (emitTool_account rt use) fun _ => last

end Account

section NativeCalls

variable {parser : ThinkTagParser} {heuristic : HeuristicToolParser} {text registered opened found : Prop}
  {fail : List Event → Stream → Prop} {i : Int} {b : ContentBlockManager}

theorem exists_set (tools : Dict Int ToolCallState) (i : Int) (state : ToolCallState) :
    ∃ j after, (tools.set i state).get? j = some after := ⟨i, state, Dict.get?_set_self ..⟩

theorem Native.registerToolName (native : Native registered opened b.toolStates) (name : Str) :
    Naming i (some name) True opened (b.registerToolName i name).toolStates := by
  cases found : b.toolStates.get? i with
  | none =>
    have set : (b.registerToolName i name).toolStates = b.toolStates.set i ⟨-1, [], name, [], false, [], false⟩ := by
      rw [ContentBlockManager.registerToolName, found]
    rw [set]
    constructor
    · exact iff_of_true trivial (exists_set ..)
    · intro j state there full
      rcases Dict.get?_set_cases there with ⟨own, rfl⟩ | ⟨_, old⟩
      · exact .inr ⟨own, (given_iff _).mpr full⟩
      · exact .inl (native.named j state old full)
    · intro j state there started
      rcases Dict.get?_set_cases there with ⟨_, rfl⟩ | ⟨_, old⟩
      · cases started
      · exact native.running j state old started
    · intro full
      exact ⟨_, Dict.get?_set_self .., (given_iff _).mp full⟩
  | some state =>
    have set : (b.registerToolName i name).toolStates =
        b.toolStates.set i { state with name := Call.mergeName (some state.name) name } := by
      rw [ContentBlockManager.registerToolName, found]
      rfl
    have merged (empty : name = []) : Call.mergeName (some state.name) name = state.name := by
      rw [empty, Call.mergeName]
      split
      · rename_i grown
        rcases grown with same | shorter
        · exact same.symm
        · exact (List.prefix_nil.mp (List.isPrefixOf_iff_prefix.mp shorter)).symm
      · simp
    rw [set]
    constructor
    · exact iff_of_true trivial (exists_set ..)
    · intro j other there full
      rcases Dict.get?_set_cases there with ⟨own, rfl⟩ | ⟨_, old⟩
      · by_cases empty : name = []
        · exact .inl (native.named i state found (merged empty ▸ full))
        · exact .inr ⟨own, (given_iff _).mpr empty⟩
      · exact .inl (native.named j other old full)
    · intro j other there started
      rcases Dict.get?_set_cases there with ⟨_, rfl⟩ | ⟨_, old⟩
      · exact native.running i state found started
      · exact native.running j other old started
    · intro full
      refine ⟨_, Dict.get?_set_self .., ?_⟩
      have nonempty : name ≠ [] := (given_iff _).mp full
      show Call.mergeName (some state.name) name ≠ []
      rw [Call.mergeName]
      split
      · exact nonempty
      · rename_i different
        split
        · exact List.append_ne_nil_of_right_ne_nil _ nonempty
        · exact fun empty => different (.inl empty)

theorem registerName_account (name : Option Str) : Triple (Account parser heuristic text found (Native registered opened))
    (registerName i name)
    (fun _ => Account parser heuristic text found (Naming i name (registered ∨ name.isSome = true) opened))
    fail := by
  cases name with
  | none =>
    apply Triple.pure
    intro sent s account
    have native := account.tools
    refine ⟨account.parser, account.heuristic, account.calm, account.counts, ?_, ?_, native.running, ?_⟩
    · rw [or_iff_left (by simp)]
      exact native.states
    · exact fun j state there full => .inl (native.named j state there full)
    · intro full
      cases full
  | some name =>
    apply Triple.modify
    intro sent s account
    rw [eq_true (.inr rfl : registered ∨ (some name).isSome = true)]
    have blocks : (s.sse.blocks.registerToolName i name).textIndex = s.sse.blocks.textIndex ∧
        (s.sse.blocks.registerToolName i name).textStarted = s.sse.blocks.textStarted ∧
        (s.sse.blocks.registerToolName i name).nextIndex = s.sse.blocks.nextIndex := by
      rw [ContentBlockManager.registerToolName]
      split <;> exact ⟨rfl, rfl, rfl⟩
    rcases blocks with ⟨index, started, next⟩
    refine ⟨account.parser, account.heuristic, account.calm, ?_, account.tools.registerToolName name⟩
    constructor
    · dsimp only
      rw [index]
      exact account.counts.told
    · exact account.counts.textBlock
    · exact account.counts.toolBlock
    · dsimp only
      rw [index, started]
      exact account.counts.started
    · dsimp only
      rw [next]
      exact account.counts.next

theorem toolIdOf_account {tool : Prop} {holds : Dict Int ToolCallState → Prop} (rt : Runtime) (id : Option Str) :
    Triple (Account parser heuristic text tool holds) (toolIdOf rt id) (fun _ => Account parser heuristic text tool holds)
      fail := by
  apply Triple.ite
  · exact fun _ => Triple.pure fun _ _ account => account
  · intro _
    have counts : Triple (Account parser heuristic text tool holds)
      (modify fun s => { s with drawn := s.drawn + 1 } : Gen Unit)
        (fun _ => Account parser heuristic text tool holds) fail :=
      Triple.modify fun _ _ account => ⟨account.parser, account.heuristic, account.calm, account.counts, account.tools⟩
    refine Triple.bind Triple.current fun s => ?_
    exact (Triple.bind counts fun _ => Triple.pure fun _ _ account => account).before fun _ _ both => both.2

theorem startTool_account {tool : Prop} {holds : Dict Int ToolCallState → Prop} (rt : Runtime) (id : Option Str) (name : Str)
    {post : Dict Int ToolCallState → Prop} (state : Option ToolCallState)
    (starts : ∀ tools index toolId, holds tools → state = tools.get? i →
      post (tools.set i (begun state index toolId name))) :
    Triple (fun sent s => Account parser heuristic text tool holds sent s ∧ state = s.sse.blocks.toolStates.get? i)
      (do let toolId ← toolIdOf rt id; onSse (SSEBuilder.startToolBlock i toolId name) : Gen Unit)
      (fun _ => Account parser heuristic text True post) fail := by
  have draws := @toolIdOf_account parser heuristic text fail tool (fun tools => holds tools ∧ state = tools.get? i) rt id
  refine Triple.bind (draws.before ?_) fun toolId => ?_
  · intro sent s both
    rcases both with ⟨account, here⟩
    exact ⟨account.parser, account.heuristic, account.calm, account.counts, account.tools, here⟩
  · intro sent s account
    have noText : ¬ ∃ event ∈ [Event.contentBlockStart s.sse.blocks.nextIndex (.toolUse toolId name)],
      event.startsText = true := by
      intro found
      rcases found with ⟨event, member, starts⟩
      rw [List.mem_singleton.mp member] at starts
      cases starts
    rw [startToolBlock_run, ← account.tools.2]
    refine ⟨account.parser, account.heuristic, account.calm, ?_, starts _ _ _ account.tools.1 account.tools.2⟩
    constructor
    · exact account.counts.told
    · rw [exists_append, or_iff_left noText]
      exact account.counts.textBlock
    · exact iff_of_true trivial ⟨_, List.mem_append_right _ List.mem_cons_self, rfl⟩
    · exact account.counts.started
    · have next := account.counts.next
      show 0 ≤ s.sse.blocks.nextIndex + 1
      omega

theorem Account.congr {tool tool' : Prop} {holds post : Dict Int ToolCallState → Prop} {sent : List Event} {s : Stream}
    (account : Account parser heuristic text tool holds sent s) (same : tool ↔ tool')
    (implies : holds s.sse.blocks.toolStates → post s.sse.blocks.toolStates) :
    Account parser heuristic text tool' post sent s := by
  have equal : tool = tool' := propext same
  subst equal
  exact ⟨account.parser, account.heuristic, account.calm, account.counts, implies account.tools⟩

theorem toolState_account {pre : List Event → Stream → Prop} (i : Int) : Triple pre (toolState i)
    (fun state sent s => pre sent s ∧ state = s.sse.blocks.toolStates.get? i) fail := toolState_follows i

theorem native_begun {tools : Dict Int ToolCallState} {state : Option ToolCallState} {index : Int} {toolId name : Str}
    (named : ∀ j other, tools.get? j = some other → j ≠ i → other.name ≠ [] → other.started = true) :
    Native True True (tools.set i (begun state index toolId name)) := by
  constructor
  · exact iff_of_true trivial (exists_set ..)
  · intro j other there full
    rcases Dict.get?_set_cases there with ⟨_, rfl⟩ | ⟨different, old⟩
    · cases state <;> rfl
    · exact named j other old different full
  · exact fun _ _ _ _ => trivial

theorem startNamedTool_account (rt : Runtime) (id name : Option Str) :
    Triple (Account parser heuristic text (found ∨ opened) (Naming i name registered opened)) (startNamedTool rt i id)
      (fun _ => Account parser heuristic text (found ∨ opened ∨ given name = true ∨ given id = true)
        (Native (registered ∨ given id = true) (opened ∨ given name = true ∨ given id = true))) fail := by
  refine Triple.bind (toolState_account i) fun state => ?_
  apply Triple.ite
  · intro test
    have facts (sent : List Event) (s : Stream)
        (both : Account parser heuristic text (found ∨ opened) (Naming i name registered opened) sent s ∧
          state = s.sse.blocks.toolStates.get? i) :
        (given name = true ∨ given id = true) ∧ (registered ∨ given id = true) := by
      rcases both with ⟨account, here⟩
      rcases test with ⟨idle, named | identified⟩
      · cases state with
        | none => exact absurd rfl named
        | some state =>
          rcases account.tools.named i state here.symm named with started | ⟨_, full⟩
          · rw [show (some state).any (·.started) = state.started from rfl, started] at idle
            cases idle
          · exact ⟨.inl full, .inl (account.tools.states.mpr ⟨i, state, here.symm⟩)⟩
      · exact ⟨.inr identified, .inr identified⟩
    refine Triple.given facts fun known => ?_
    rw [eq_true (.inr (.inr known.1) : found ∨ opened ∨ given name = true ∨ given id = true), eq_true known.2,
      eq_true (.inr known.1 : opened ∨ given name = true ∨ given id = true)]
    refine startTool_account rt id _ state fun tools index toolId naming here => native_begun ?_
    intro j other there different full
    rcases naming.named j other there full with started | ⟨own, _⟩
    · exact started
    · exact absurd own different
  · intro test
    apply Triple.pure
    intro sent s both
    rcases both with ⟨account, here⟩
    have naming := account.tools
    by_cases busy : state.any (·.started) = true
    · -- the tool is open, so one was opened before
      cases state with
      | none => cases busy
      | some state =>
        have before : opened := naming.running i state here.symm busy
        have one : registered := naming.states.mpr ⟨i, state, here.symm⟩
        apply account.congr (iff_of_true (.inr before) (.inr (.inl before)))
        intro _
        rw [eq_true (.inl one : registered ∨ given id = true),
          eq_true (.inl before : opened ∨ given name = true ∨ given id = true)]
        refine ⟨iff_of_true trivial ⟨i, state, here.symm⟩, ?_, fun _ _ _ _ => trivial⟩
        intro j other there full
        rcases naming.named j other there full with started | ⟨rfl, _⟩
        · exact started
        · cases here.trans there
          exact busy
    · have idle : state.any (·.started) = false := Bool.eq_false_iff.mpr busy
      have anonymous : ¬ given id = true := fun identified => test ⟨idle, .inr identified⟩
      have nameless : ¬ given name = true := by
        intro full
        rcases naming.kept full with ⟨other, there, nonempty⟩
        apply test
        rw [here, there]
        rw [here, there] at idle
        exact ⟨idle, .inl nonempty⟩
      rw [eq_false (not_or.mpr ⟨nameless, anonymous⟩), or_false, eq_false anonymous, or_false]
      apply account.congr Iff.rfl
      intro _
      refine ⟨naming.states, ?_, naming.running⟩
      intro j other there full
      rcases naming.named j other there full with started | ⟨_, full'⟩
      · exact started
      · exact absurd full' nameless

theorem startUnnamedTool_account (rt : Runtime) (id : Option Str) :
    Triple (Account parser heuristic text (found ∨ opened) (Native registered opened)) (startUnnamedTool rt i id)
      (fun _ => Account parser heuristic text True (Native True True)) fail := by
  refine Triple.bind (toolState_account i) fun state => ?_
  apply Triple.ite
  · intro _
    refine startTool_account rt id _ state fun tools index toolId native here => native_begun ?_
    exact fun j other there _ full => native.named j other there full
  · intro busy
    apply Triple.pure
    intro sent s both
    rcases both with ⟨account, here⟩
    cases state with
    | none => exact absurd rfl busy
    | some state =>
      have before : opened := account.tools.running i state here.symm (eq_true_of_ne_false busy)
      apply account.congr (iff_of_true (.inr before) trivial)
      intro native
      exact ⟨iff_of_true trivial ⟨i, state, here.symm⟩, native.named, fun _ _ _ _ => trivial⟩

theorem Native.modify {tools : Dict Int ToolCallState} (native : Native registered opened tools)
    {state after : ToolCallState}
    (there : tools.get? i = some state) (name : after.name = state.name) (started : after.started = state.started) :
    Native registered opened (tools.set i after) := by
  have one : registered := native.states.mpr ⟨i, state, there⟩
  constructor
  · exact iff_of_true one (exists_set ..)
  · intro j other there' full
    rcases Dict.get?_set_cases there' with ⟨_, rfl⟩ | ⟨_, old⟩
    · rw [name] at full
      exact started.trans (native.named i state there full)
    · exact native.named j other old full
  · intro j other there' open'
    rcases Dict.get?_set_cases there' with ⟨_, rfl⟩ | ⟨_, old⟩
    · exact native.running i state there (started.symm.trans open')
    · exact native.running j other old open'

/-- Buffering changes one state at most, and neither its name nor its block. -/
theorem bufferTaskArgs_shape (rt : Runtime) (b : ContentBlockManager) (i : Int) (args : Str) :
    (b.bufferTaskArgs rt i args).2 = b ∨ ∃ state after, b.toolStates.get? i = some state ∧ after.name = state.name ∧
      after.started = state.started ∧
        (b.bufferTaskArgs rt i args).2 = { b with toolStates := b.toolStates.set i after } := by
  cases there : b.toolStates.get? i with
  | none =>
    rw [ContentBlockManager.bufferTaskArgs, there]
    exact .inl rfl
  | some state =>
    by_cases emitted : state.taskArgsEmitted = true
    · rw [bufferTaskArgs_emitted there emitted]
      exact .inl rfl
    · have waiting : state.taskArgsEmitted = false := Bool.eq_false_iff.mpr emitted
      cases loaded : rt.loads (state.taskArgBuffer ++ args) with
      | none =>
        rw [bufferTaskArgs_waiting there waiting loaded]
        exact .inr ⟨state, { state with taskArgBuffer := state.taskArgBuffer ++ args }, rfl, rfl, rfl, rfl⟩
      | some value =>
        cases object : value.isObject with
        | false =>
          rw [bufferTaskArgs_refused there waiting loaded object]
          exact .inr ⟨state, { state with taskArgBuffer := state.taskArgBuffer ++ args }, rfl, rfl, rfl, rfl⟩
        | true =>
          cases value with
          | object members =>
            rw [bufferTaskArgs_object there waiting loaded]
            exact .inr ⟨state, { state with taskArgsEmitted := true, taskArgBuffer := [] }, rfl, rfl, rfl, rfl⟩
          | _ => cases object

theorem Counts.of_tools {tool : Prop} {sent : List Event} (counts : Counts text tool sent b)
    (tools : Dict Int ToolCallState) :
    Counts text tool sent { b with toolStates := tools } :=
  ⟨counts.told, counts.textBlock, counts.toolBlock, counts.started, counts.next⟩

theorem onToolDelta_account {tool : Prop} (args : Str) :
    Triple (Account parser heuristic text tool (Native registered opened)) (onToolDelta i args)
      (fun _ => Account parser heuristic text tool (Native registered opened)) fun _ _ => True := by
  apply Triple.emitOr
  · exact fun _ _ _ _ => trivial
  · intro sent s yielded s' account acted
    rcases Option.map_eq_some_iff.mp acted with ⟨result, emitted, same⟩
    rcases Option.map_eq_some_iff.mp emitted with ⟨state, there, built⟩
    cases built
    cases same
    have noText : ¬ ∃ event ∈ [Event.contentBlockDelta state.blockIndex (.inputJsonDelta args)],
      event.startsText = true := by
      intro found
      rcases found with ⟨event, member, starts⟩
      rw [List.mem_singleton.mp member] at starts
      cases starts
    have noTool : ¬ ∃ event ∈ [Event.contentBlockDelta state.blockIndex (.inputJsonDelta args)],
      event.startsTool = true := by
      intro found
      rcases found with ⟨event, member, starts⟩
      rw [List.mem_singleton.mp member] at starts
      cases starts
    refine ⟨account.parser, account.heuristic, account.calm, ?_, account.tools.modify there rfl rfl⟩
    constructor
    · exact account.counts.told
    · rw [exists_append, or_iff_left noText]
      exact account.counts.textBlock
    · rw [exists_append, or_iff_left noTool]
      exact account.counts.toolBlock
    · exact account.counts.started
    · exact account.counts.next

theorem passArguments_account {tool : Prop} (rt : Runtime) (args : Str) :
    Triple (Account parser heuristic text tool (Native registered opened)) (passArguments rt i args)
      (fun _ => Account parser heuristic text tool (Native registered opened)) fun _ _ => True := by
  refine Triple.bind (toolState_account i) fun state => ?_
  refine Triple.before ?_ fun _ _ both => both.1
  apply Triple.ite
  · intro _
    refine Triple.bind Triple.current fun s => ?_
    have buffers : Triple (fun sent s' => s = s' ∧ Account parser heuristic text tool (Native registered opened) sent s')
        (modify fun s => { s with sse := { s.sse with blocks := (s.sse.blocks.bufferTaskArgs rt i args).2 } } : Gen Unit)
        (fun _ => Account parser heuristic text tool (Native registered opened)) fun _ _ => True := by
      apply Triple.modify
      intro sent s' both
      rcases both with ⟨_, account⟩
      rcases bufferTaskArgs_shape rt s'.sse.blocks i args with same | ⟨state, after, there, name, started, same⟩
      · rw [same]
        exact ⟨account.parser, account.heuristic, account.calm, account.counts, account.tools⟩
      · rw [same]
        exact ⟨account.parser, account.heuristic, account.calm, account.counts.of_tools _,
          account.tools.modify there name started⟩
    refine Triple.bind buffers fun _ => ?_
    split
    · exact Triple.raise fun _ _ _ => trivial
    · exact Triple.pure fun _ _ account => account
    · exact onToolDelta_account _
  · intro _
    exact onToolDelta_account args

def ToolCallDelta.fills (tc : ToolCallDelta) : Prop :=
  given (tc.function.bind (·.name)) = true ∨ given tc.id = true ∨ given (tc.function.bind (·.arguments)) = true

/-- The delta names the call, if only by an empty name, or some part of it is not empty. -/
def ToolCallDelta.registers (tc : ToolCallDelta) : Prop :=
  (tc.function.bind (·.name)).isSome = true ∨ given tc.id = true ∨ given (tc.function.bind (·.arguments)) = true

theorem processToolCall_account (rt : Runtime) (tc : ToolCallDelta) (fn : FunctionDelta) (function : tc.function = some fn) :
    Triple (Account parser heuristic text (found ∨ opened) (Native registered opened)) (processToolCall rt tc fn)
      (fun _ => Account parser heuristic text (found ∨ opened ∨ tc.fills)
        (Native (registered ∨ tc.registers) (opened ∨ tc.fills)))
      fun _ _ => True := by
  have index : Triple (Account parser heuristic text (found ∨ opened) (Native registered opened)) (toolIndex tc.index)
      (fun _ => Account parser heuristic text (found ∨ opened) (Native registered opened)) fun _ _ => True := by
    unfold toolIndex
    split
    · exact Triple.raise fun _ _ _ => trivial
    · exact Triple.bind Triple.current fun s => Triple.pure fun _ _ both => both.2
  refine Triple.bind index fun i => Triple.bind (registerName_account fn.name) fun _ => ?_
  refine Triple.bind (startNamedTool_account rt tc.id fn.name) fun _ => ?_
  rw [ToolCallDelta.fills, ToolCallDelta.registers, function]
  apply Triple.ite
  · intro filled
    refine Triple.bind (startUnnamedTool_account rt tc.id) fun _ => (passArguments_account rt _).after ?_
    intro _ sent s account
    have all : given fn.name = true ∨ given tc.id = true ∨ given fn.arguments = true := .inr (.inr filled)
    have all' : fn.name.isSome = true ∨ given tc.id = true ∨ given fn.arguments = true := .inr (.inr filled)
    apply account.congr (iff_of_true trivial (.inr (.inr all)))
    intro native
    exact ⟨iff_of_true (.inr all') (native.states.mp trivial), native.named, fun _ _ _ _ => .inr all⟩
  · intro blank
    apply Triple.pure
    intro sent s account
    simp only [Option.bind_some, eq_false blank, or_false]
    rw [or_assoc] at account
    exact account

end NativeCalls

end ClaudeProxy.Providers
