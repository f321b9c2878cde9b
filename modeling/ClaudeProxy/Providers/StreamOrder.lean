import ClaudeProxy.Kit.Traverse
import ClaudeProxy.Providers.BlockOrder
import ClaudeProxy.Providers.OpenAICompat

namespace ClaudeProxy.Providers

open Kit Kit.Generator ContentBlockManager

/-- The message has been started and nothing but block events followed. -/
def Framed (events : List Event) : Prop :=
  ∃ id model input blocks, events = .messageStart id model input :: blocks ∧ ∀ event ∈ blocks, event.ofBlock = true

/-- What was sent so far is in order, and the block manager knows which blocks are open. -/
structure Sound (holds : ContentBlockManager → Prop) (sent : List Event) (s : Stream) : Prop where
  framed : Framed sent
  tracked : ∃ l, Ledger.empty.run sent = some l ∧ s.sse.blocks.Tracks l
  meets : holds s.sse.blocks

abbrev InOrder : List Event → Stream → Prop := Sound fun _ => True

theorem Framed.append {events more : List Event} (framed : Framed events) (blocks : ∀ event ∈ more, event.ofBlock = true) :
    Framed (events ++ more) := by
  obtain ⟨id, model, input, sent, rfl, before⟩ := framed
  refine ⟨id, model, input, sent ++ more, rfl, fun event member => ?_⟩
  rcases List.mem_append.mp member with early | late
  · exact before event early
  · exact blocks event late

variable {pre post : ContentBlockManager → Prop} {fail : List Event → Stream → Prop}

theorem Sound.forget {sent : List Event} {s : Stream} (sound : Sound pre sent s) : InOrder sent s :=
  ⟨sound.framed, sound.tracked, trivial⟩

theorem onSse_triple {act : SSEBuilder → List Event × SSEBuilder} (advances : Advances pre act post) :
    Triple (Sound pre) (onSse act) (fun _ => Sound post) fail := by
  apply Triple.emit
  rintro sent s ⟨framed, ⟨l, ran, tracks⟩, before⟩
  obtain ⟨l', ran', tracks', after, blocks⟩ := advances s.sse l tracks before
  exact ⟨framed.append blocks, ⟨l', Ledger.run_trans ran ran', tracks'⟩, after⟩

theorem modify_triple {change : Stream → Stream} (same : ∀ s, (change s).sse = s.sse) :
    Triple (Sound pre) (modify change : Gen Unit) (fun _ => Sound pre) fail := by
  apply Triple.modify
  intro sent s sound
  exact ⟨sound.framed, by rw [same]; exact sound.tracked, by rw [same]; exact sound.meets⟩

theorem modifyBlocks_triple (change : ContentBlockManager → ContentBlockManager)
    (alike : ∀ b, b.Sane → pre b → Alike b (change b) ∧ post (change b)) :
    Triple (Sound pre) (modify fun s => { s with sse := { s.sse with blocks := change s.sse.blocks } } : Gen Unit)
      (fun _ => Sound post) fail := by
  apply Triple.modify
  rintro sent s ⟨framed, ⟨l, ran, tracks⟩, before⟩
  obtain ⟨same, after⟩ := alike s.sse.blocks tracks.sane before
  exact ⟨framed, ⟨l, ran, tracks.alike same⟩, after⟩

theorem pure_triple {α : Type} (a : α) :
    Triple (Sound pre) (pure a : Gen α) (fun _ => Sound pre) fail := Triple.pure fun _ _ => id

theorem raise_triple {α : Type} (e : PyException) {after : α → List Event → Stream → Prop} :
    Triple (Sound pre) (raise e : Gen α) after InOrder := Triple.raise fun _ _ => Sound.forget

/-- A delta for an open tool, never the `KeyError`. -/
theorem onToolDelta_triple (toolIndex : Int) (partialJson : Str)
    (stable : ∀ b b', Alike b b' → pre b → pre b') (running : ∀ b, pre b → b.Running toolIndex) :
    Triple (Sound pre) (onToolDelta toolIndex partialJson) (fun _ => Sound pre) fail := by
  apply Triple.emitOr
  · intro sent s sound missing
    have there := SSEBuilder.emitToolDelta_isSome partialJson (running _ sound.meets)
    rw [Option.map_eq_none_iff.mp missing] at there
    cases there
  · rintro sent s events s' ⟨framed, ⟨l, ran, tracks⟩, before⟩ emitted
    obtain ⟨result, acted, eq⟩ := Option.map_eq_some_iff.mp emitted
    obtain ⟨rfl, rfl⟩ := Prod.mk.injEq .. ▸ eq
    obtain ⟨ran', alike, blocks⟩ := SSEBuilder.emitToolDelta_alike tracks (running _ before) acted
    exact ⟨framed.append blocks, ⟨l, Ledger.run_trans ran ran', tracks.alike alike⟩, stable _ _ alike before⟩

theorem toolState_triple (tcIndex : Int) : Triple (Sound pre) (toolState tcIndex)
    (fun state sent s => Sound pre sent s ∧ state = s.sse.blocks.toolStates.get? tcIndex) fail := by
  refine Triple.bind Triple.current fun s => Triple.pure ?_
  rintro sent s' ⟨rfl, sound⟩
  exact ⟨sound, rfl⟩

theorem toolIdOf_triple (rt : Runtime) (id : Option Str) :
    Triple (Sound pre) (toolIdOf rt id) (fun _ => Sound pre) fail := by
  refine Triple.ite (fun _ => pure_triple _) fun _ => ?_
  refine Triple.bind Triple.current fun s => ?_
  have drawn : Triple (Sound pre) (modify fun s => { s with drawn := s.drawn + 1 } : Gen Unit) (fun _ => Sound pre) fail :=
    modify_triple fun _ => rfl
  exact Triple.bind (drawn.before fun _ _ before => before.2) fun _ => pure_triple _

theorem startTool_triple (rt : Runtime) (tcIndex : Int) (id : Option Str) (name : Str) :
    Triple (Sound fun b => ¬ b.Running tcIndex)
      (do let toolId ← toolIdOf rt id; onSse (SSEBuilder.startToolBlock tcIndex toolId name) : Gen Unit)
      (fun _ => Sound fun b => b.Running tcIndex) fail :=
  Triple.bind (toolIdOf_triple rt id) fun toolId =>
    onSse_triple (SSEBuilder.startToolBlock_advances tcIndex toolId name)

theorem idle_of_state {b : ContentBlockManager} {tcIndex : Int}
    (idle : (b.toolStates.get? tcIndex).any (·.started) = false) : ¬ b.Running tcIndex := by
  rintro ⟨state, found, started⟩
  rw [found] at idle
  simp [started] at idle

theorem running_of_state {b : ContentBlockManager} {tcIndex : Int}
    (busy : ¬ (b.toolStates.get? tcIndex).any (·.started) = false) : b.Running tcIndex := by
  cases found : b.toolStates.get? tcIndex with
  | none => simp [found] at busy
  | some state => exact ⟨state, found, by simpa [found] using busy⟩

theorem startNamedTool_triple (rt : Runtime) (tcIndex : Int) (id : Option Str) :
    Triple InOrder (startNamedTool rt tcIndex id) (fun _ => InOrder) fail := by
  refine Triple.bind (toolState_triple tcIndex) fun state => ?_
  refine Triple.ite (fun idle => ?_) fun _ => Triple.pure fun _ _ before => before.1
  refine ((startTool_triple rt tcIndex id _).after fun _ _ _ => Sound.forget).before ?_
  rintro sent s ⟨sound, rfl⟩
  exact ⟨sound.framed, sound.tracked, idle_of_state idle.1⟩

theorem startUnnamedTool_triple (rt : Runtime) (tcIndex : Int) (id : Option Str) :
    Triple InOrder (startUnnamedTool rt tcIndex id) (fun _ => Sound fun b => b.Running tcIndex) fail := by
  refine Triple.bind (toolState_triple tcIndex) fun state => ?_
  refine Triple.ite (fun idle => ?_) fun busy => Triple.pure ?_
  · refine (startTool_triple rt tcIndex id _).before ?_
    rintro sent s ⟨sound, rfl⟩
    exact ⟨sound.framed, sound.tracked, idle_of_state idle⟩
  · rintro sent s ⟨sound, rfl⟩
    exact ⟨sound.framed, sound.tracked, running_of_state busy⟩

theorem runningDelta_triple (toolIndex : Int) (partialJson : Str) :
    Triple (Sound fun b => b.Running toolIndex) (onToolDelta toolIndex partialJson) (fun _ => InOrder) fail :=
  (onToolDelta_triple toolIndex partialJson (fun _ _ alike => alike.running) fun _ => id).after
    fun _ _ _ => Sound.forget

theorem passTaskArguments_triple (rt : Runtime) (tcIndex : Int) (args : Str) :
    Triple (Sound fun b => b.Running tcIndex) (passTaskArguments rt tcIndex args) (fun _ => InOrder) InOrder := by
  refine Triple.bind Triple.current fun s => ?_
  have buffered : Triple (Sound fun b => b.Running tcIndex)
      (modify fun s => { s with sse := { s.sse with blocks := (s.sse.blocks.bufferTaskArgs rt tcIndex args).2 } } :
        Gen Unit) (fun _ => Sound fun b => b.Running tcIndex) InOrder := by
    refine modifyBlocks_triple (fun b => (b.bufferTaskArgs rt tcIndex args).2) fun b sane running => ?_
    have alike := bufferTaskArgs_alike sane rt args running
    exact ⟨alike, alike.running running⟩
  refine Triple.bind (buffered.before fun _ _ before => before.2) fun _ => ?_
  split
  · exact raise_triple _
  · exact Triple.pure fun _ _ => Sound.forget
  · exact runningDelta_triple tcIndex _

theorem passArguments_triple (rt : Runtime) (tcIndex : Int) (args : Str) :
    Triple (Sound fun b => b.Running tcIndex) (passArguments rt tcIndex args) (fun _ => InOrder) InOrder := by
  refine Triple.bind (toolState_triple tcIndex) fun state => ?_
  refine Triple.before ?_ fun _ _ before => before.1
  exact Triple.ite (fun _ => passTaskArguments_triple rt tcIndex args) fun _ => runningDelta_triple tcIndex args

theorem processToolCall_keeps (rt : Runtime) (tc : ToolCallDelta) (fn : FunctionDelta) :
    Keeps InOrder (processToolCall rt tc fn) := by
  have index : Triple InOrder (toolIndex tc.index) (fun _ => InOrder) InOrder := by
    unfold toolIndex
    split
    · exact raise_triple _
    · exact Triple.bind Triple.current fun s => Triple.pure fun _ _ before => before.2
  have named (tcIndex : Int) : Keeps InOrder (registerName tcIndex fn.name) := by
    unfold registerName
    split
    · exact pure_triple _
    · rename_i name _
      exact modifyBlocks_triple (fun b => b.registerToolName tcIndex name) fun b sane _ =>
        ⟨registerToolName_alike sane tcIndex name, trivial⟩
  refine Triple.bind index fun tcIndex => Triple.bind (named tcIndex) fun _ => ?_
  refine Triple.bind (startNamedTool_triple rt tcIndex tc.id) fun _ => Triple.whenever ?_
  exact Triple.bind (startUnnamedTool_triple rt tcIndex tc.id) fun _ => passArguments_triple rt tcIndex _

theorem emitThinking_triple (content : Str) : Triple InOrder (emitThinking content) (fun _ => InOrder) fail :=
  Triple.bind (onSse_triple SSEBuilder.ensureThinkingBlock_advances) fun _ =>
    (onSse_triple (SSEBuilder.emitThinkingDelta_advances content)).after fun _ _ _ => Sound.forget

theorem emitText_triple (content : Str) : Triple InOrder (emitText content) (fun _ => InOrder) fail :=
  Triple.bind (onSse_triple SSEBuilder.ensureTextBlock_advances) fun _ =>
    (onSse_triple (SSEBuilder.emitTextDelta_advances content)).after fun _ _ _ => Sound.forget

theorem toolBlock_advances (rt : Runtime) (tool : ToolUse) : Advances Closed (toolBlock rt tool) Closed := by
  intro sse l tracks closed
  obtain ⟨l', ran, after⟩ := SSEBuilder.whole_block tracks
    (.toolUse ("toolu_heuristic_".toList ++ (rt.toolParserHex tool.id).take 8) tool.name)
    (.inputJsonDelta (rt.dumps (toolInput tool))) rfl fun content => absurd rfl content
  exact ⟨l', ran, after, closed, by simp [toolBlock, Event.ofBlock]⟩

theorem emitTool_triple (rt : Runtime) (tool : ToolUse) : Triple InOrder (emitTool rt tool) (fun _ => InOrder) fail :=
  Triple.bind (onSse_triple SSEBuilder.closeContentBlocks_advances) fun _ =>
    (onSse_triple (toolBlock_advances rt tool)).after fun _ _ _ => Sound.forget

theorem emitTools_triple (rt : Runtime) (tools : List ToolUse) :
    Triple InOrder (forEach tools (emitTool rt)) (fun _ => InOrder) fail :=
  Triple.forEach fun tool _ => emitTool_triple rt tool

theorem read_triple {α : Type} {body : Stream → Gen α} {after : α → List Event → Stream → Prop}
    (keeps : ∀ s, Triple InOrder (body s) after fail) : Triple InOrder (current >>= body) after fail :=
  Triple.bind Triple.current fun s => (keeps s).before fun _ _ before => before.2

theorem handlePart_keeps (rt : Runtime) (part : ContentChunk) : Keeps InOrder (handlePart rt part) := by
  unfold handlePart
  split
  · exact emitThinking_triple _
  · refine read_triple fun s => ?_
    refine Triple.bind (modify_triple fun _ => rfl) fun _ => ?_
    exact Triple.bind (Triple.whenever (emitText_triple _)) fun _ => emitTools_triple rt _

theorem handleContent_keeps (rt : Runtime) (content : Str) : Keeps InOrder (handleContent rt content) :=
  read_triple fun _ => Triple.bind (modify_triple fun _ => rfl) fun _ =>
    Triple.forEach fun part _ => handlePart_keeps rt part

theorem handleToolCalls_keeps (rt : Runtime) (toolCalls : List ToolCallDelta) :
    Keeps InOrder (handleToolCalls rt toolCalls) := by
  have closed : Keeps InOrder (onSse SSEBuilder.closeContentBlocks) :=
    (onSse_triple SSEBuilder.closeContentBlocks_advances).after fun _ _ _ => Sound.forget
  refine Triple.bind closed fun _ => Triple.forEach fun tc _ => ?_
  split
  · exact raise_triple _
  · exact processToolCall_keeps rt tc _

theorem handleDelta_keeps (provider : Provider) (rt : Runtime) (delta : ChoiceDelta) :
    Keeps InOrder (handleDelta provider rt delta) := by
  have extra : Keeps InOrder (handleExtraReasoning provider delta) :=
    Triple.whenever (Triple.forEach fun text _ => Triple.whenever (emitThinking_triple text))
  refine Triple.bind (Triple.whenever (emitThinking_triple _)) fun _ => Triple.bind extra fun _ => ?_
  refine Triple.bind (Triple.whenever (handleContent_keeps rt _)) fun _ => ?_
  exact Triple.ite (fun _ => pure_triple _) fun _ => handleToolCalls_keeps rt _

theorem handleChunk_keeps (provider : Provider) (rt : Runtime) (chunk : Chunk) :
    Keeps InOrder (handleChunk provider rt chunk) := by
  refine Triple.bind (modify_triple fun s => by split <;> rfl) fun _ => ?_
  split
  · exact pure_triple _
  · split
    · exact pure_triple _
    · exact Triple.bind (modify_triple fun s => by split <;> rfl) fun _ => handleDelta_keeps provider rt _

theorem consume_keeps (provider : Provider) (rt : Runtime) (upstream : Upstream) :
    Keeps InOrder (consume provider rt upstream) := by
  refine Triple.bind (Triple.forEach fun chunk _ => handleChunk_keeps provider rt chunk) fun _ => ?_
  split
  · exact pure_triple _
  · exact raise_triple _

theorem reportError_triple (provider : Provider) (requestId : Option Str) (e : PyException) :
    Triple InOrder (reportError provider requestId e) (fun _ => InOrder) fail := by
  refine Triple.bind (modify_triple fun _ => rfl) fun _ => ?_
  refine Triple.bind (onSse_triple SSEBuilder.closeContentBlocks_advances) fun _ => ?_
  exact (onSse_triple (SSEBuilder.emitError_advances _)).after fun _ _ _ => Sound.forget

theorem flushThinkParser_triple : Triple InOrder flushThinkParser (fun _ => InOrder) fail := by
  have remaining (left : Option ContentChunk) : Triple InOrder (emitRemaining left) (fun _ => InOrder) fail := by
    unfold emitRemaining
    split
    · exact pure_triple _
    · exact emitThinking_triple _
    · exact emitText_triple _
  exact read_triple fun s => Triple.bind (modify_triple fun _ => rfl) fun _ => remaining _

theorem flushHeuristicParser_triple (rt : Runtime) :
    Triple InOrder (flushHeuristicParser rt) (fun _ => InOrder) fail :=
  read_triple fun _ => Triple.bind (modify_triple fun _ => rfl) fun _ => emitTools_triple rt _

theorem fillEmptyAnswer_triple : Triple InOrder fillEmptyAnswer (fun _ => InOrder) fail :=
  read_triple fun _ => Triple.whenever (emitText_triple _)

theorem flushTaskArgBuffers_triple (rt : Runtime) :
    Triple InOrder (flushTaskArgBuffers rt) (fun _ => InOrder) fail := by
  refine Triple.bind Triple.current fun s => ?_
  have flushed : Triple (Sound fun b => b = s.sse.blocks)
      (modify fun s' => { s' with sse := { s'.sse with blocks := (s.sse.blocks.flushTaskArgBuffers rt).2 } } : Gen Unit)
      (fun _ => Sound fun b => ∀ result ∈ (s.sse.blocks.flushTaskArgBuffers rt).1, b.Running result.1) fail := by
    refine modifyBlocks_triple (fun _ => (s.sse.blocks.flushTaskArgBuffers rt).2) fun b sane same => ?_
    subst same
    obtain ⟨alike, running⟩ := flushTaskArgBuffers_alike sane rt
    exact ⟨alike, fun result member => alike.running (running result member)⟩
  refine Triple.bind (flushed.before ?_) fun _ => ?_
  · rintro sent s' ⟨rfl, sound⟩
    exact ⟨sound.framed, sound.tracked, rfl⟩
  · refine Triple.after (Triple.forEach fun result member => ?_) fun _ _ _ => Sound.forget
    exact onToolDelta_triple result.1 result.2
      (fun _ _ alike running other listed => alike.running (running other listed)) fun _ running => running result member

def Settled (sent : List Event) (_ : Stream) : Prop :=
  Framed sent ∧ ∃ l, Ledger.empty.run sent = some l ∧ l.opened = []

theorem closeAllBlocks_triple : Triple InOrder (onSse SSEBuilder.closeAllBlocks) (fun _ => Settled) fail := by
  apply Triple.emit
  rintro sent s ⟨framed, ⟨l, ran, tracks⟩, _⟩
  obtain ⟨middle, closing, tracks', closed, blocks⟩ := SSEBuilder.closeContentBlocks_advances s.sse l tracks trivial
  obtain ⟨last, stopping, none', blocks'⟩ := SSEBuilder.stopToolBlocks_closes tracks' closed
  refine ⟨framed.append fun event member => ?_, last, Ledger.run_trans ran (Ledger.run_trans closing stopping), none'⟩
  rcases List.mem_append.mp member with early | late
  · exact blocks event early
  · exact blocks' event late

theorem streamBody_triple (provider : Provider) (rt : Runtime) (requestId : Option Str) (upstream : Upstream) :
    Triple InOrder (streamBody provider rt requestId upstream) (fun _ => Settled) fail := by
  refine Triple.bind (Triple.attempt (consume_keeps provider rt upstream) (reportError_triple provider requestId))
    fun _ => ?_
  refine Triple.bind flushThinkParser_triple fun _ => Triple.bind (flushHeuristicParser_triple rt) fun _ => ?_
  refine Triple.bind fillEmptyAnswer_triple fun _ => Triple.bind (flushTaskArgBuffers_triple rt) fun _ => ?_
  exact closeAllBlocks_triple

theorem wellFormed_of_settled {sent : List Event} {s : Stream} (settled : Settled sent s) (stopReason : Str)
    (input output : Int) : WellFormed (sent ++ [.messageDelta stopReason input output, .messageStop]) := by
  obtain ⟨⟨id, model, tokens, blocks, rfl, ofBlock⟩, l, ran, closed⟩ := settled
  refine wellFormed_of_run ⟨id, model, tokens, stopReason, input, output, blocks, rfl, ofBlock⟩ ?_ closed
  exact Ledger.run_trans ran rfl

theorem toolTokens_isSome (encode : Str → Option Nat) (state : ToolCallState) :
    (SSEBuilder.toolTokens encode state).isSome ↔
      (encode state.name).isSome ∧ (encode state.contents.flatten).isSome := by
  unfold SSEBuilder.toolTokens
  cases encode state.name <;> cases encode state.contents.flatten <;> simp

theorem estimateOutputTokens_isSome_iff {rt : Runtime} {encode : Str → Option Nat} (encoder : rt.encoder = some encode)
    (sse : SSEBuilder) : (sse.estimateOutputTokens rt).isSome ↔
      (encode sse.accumulatedText).isSome ∧ (encode sse.accumulatedReasoning).isSome ∧
        ∀ state ∈ sse.blocks.toolStates.values, (encode state.name).isSome ∧ (encode state.contents.flatten).isSome := by
  simp only [← toolTokens_isSome]
  rw [← mapM_isSome]
  unfold SSEBuilder.estimateOutputTokens
  simp only [encoder]
  cases encode sse.accumulatedText with
  | none => simp
  | some text =>
    cases encode sse.accumulatedReasoning with
    | none => simp
    | some reasoning => cases sse.blocks.toolStates.values.mapM (SSEBuilder.toolTokens encode) <;> simp

theorem estimateOutputTokens_isSome {rt : Runtime}
    (counts : ∀ encode, rt.encoder = some encode → ∀ text, (encode text).isSome = true) (sse : SSEBuilder) :
    (sse.estimateOutputTokens rt).isSome = true := by
  cases encoder : rt.encoder with
  | none =>
    unfold SSEBuilder.estimateOutputTokens
    simp [encoder]
  | some encode =>
    have total (text : Str) : (encode text).isSome = true := counts encode encoder text
    exact (estimateOutputTokens_isSome_iff encoder sse).mpr ⟨total _, total _, fun state _ => ⟨total _, total _⟩⟩

theorem startStream_inOrder (rt : Runtime) (model : Str) (inputTokens : Int) :
    InOrder [(startStream rt model inputTokens).sse.messageStart] (startStream rt model inputTokens) := by
  refine ⟨⟨_, _, _, [], rfl, by simp⟩, ⟨⟨0, []⟩, rfl, rfl, ?_, ?_⟩, trivial⟩
  · intro index type
    cases type <;> simp [startStream, SSEBuilder.new, ContentBlockManager.new, Holds, Dict.get?_empty]
  · refine ⟨?_, ?_, by simp [startStream, SSEBuilder.new, ContentBlockManager.new], ?_, ?_⟩
    · intro index type held
      cases type <;> simp [startStream, SSEBuilder.new, ContentBlockManager.new, Holds, Dict.get?_empty] at held
    · intro index type type' held
      cases type <;> simp [startStream, SSEBuilder.new, ContentBlockManager.new, Holds, Dict.get?_empty] at held
    · intro i j one two found
      simp [startStream, SSEBuilder.new, ContentBlockManager.new, Dict.get?_empty] at found
    · intro i state found
      simp [startStream, SSEBuilder.new, ContentBlockManager.new, Dict.get?_empty] at found

/-- However the upstream mixes its chunks and wherever it fails, the stream ends normally and its events
    are in order, provided the token counter returns a number. -/
theorem stream_wellFormed (provider : Provider) (rt : Runtime) (model : Str) (inputTokens : Int)
    (requestId : Option Str) (upstream : Upstream)
    (counts : ∀ encode, rt.encoder = some encode → ∀ text, (encode text).isSome = true) :
    let outcome := streamResponseImpl provider rt model inputTokens requestId upstream
    outcome.result = .ok () ∧ WellFormed outcome.yielded := by
  have started : Triple (fun sent s => sent = [] ∧ s = startStream rt model inputTokens)
      (emit fun s => ([s.sse.messageStart], s) : Gen Unit) (fun _ => InOrder) (fun _ _ => False) := by
    apply Triple.emit
    rintro sent s ⟨rfl, rfl⟩
    exact startStream_inOrder rt model inputTokens
  have ended : Triple Settled (endMessage rt) (fun _ sent _ => WellFormed sent) (fun _ _ => False) := by
    apply Triple.emitOr
    · intro sent s _ missing
      have there : (outputTokens rt s).isSome = true := by
        unfold outputTokens
        split
        · rfl
        · exact estimateOutputTokens_isSome counts s.sse
      rw [Option.map_eq_none_iff.mp missing] at there
      cases there
    · intro sent s events s' settled emitted
      obtain ⟨tokens, _, eq⟩ := Option.map_eq_some_iff.mp emitted
      obtain ⟨rfl, rfl⟩ := Prod.mk.injEq .. ▸ eq
      exact wellFormed_of_settled settled _ _ _
  have whole := Triple.bind started fun _ =>
    Triple.bind (streamBody_triple provider rt requestId upstream) fun _ => ended
  obtain ⟨done, ended', ordered⟩ := whole.ends [] (startStream rt model inputTokens) ⟨rfl, rfl⟩
  exact ⟨ended', ordered⟩

/-- Part of an answer, then a lost connection. -/
theorem stream_wellFormed_lost :
    let outcome := streamResponseImpl ⟨false, none⟩
      ⟨fun _ => "uuid".toList, fun _ => "0123456789".toList, fun _ => none, fun _ => [], some fun text => some text.length⟩
      "model".toList 10 none
      ⟨[⟨none, [⟨some ⟨none, [], some "Hello ".toList, []⟩, none⟩]⟩], some ⟨.other, "Connection lost".toList⟩⟩
    outcome.result = .ok () ∧ WellFormed outcome.yielded := by
  refine stream_wellFormed _ _ _ _ _ _ fun encode found text => ?_
  cases found
  rfl

end ClaudeProxy.Providers
