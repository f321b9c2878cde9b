import ClaudeProxy.Kit.Generator
import ClaudeProxy.Providers.ErrorMapping
import ClaudeProxy.Providers.SSEBuilder

namespace ClaudeProxy.Providers

open Kit Kit.Generator

structure FunctionDelta where
  name : Option Str
  arguments : Option Str

structure ToolCallDelta where
  index : Option Int
  id : Option Str
  function : Option FunctionDelta

structure ChoiceDelta where
  reasoningContent : Option Str
  /-- The `text` of each of OpenRouter's `reasoning_details`, empty where an item has none. -/
  reasoningDetails : List Str
  content : Option Str
  toolCalls : List ToolCallDelta

structure Choice where
  delta : Option ChoiceDelta
  finishReason : Option Str

/-- `none` where the usage object lacks the attribute. -/
structure Usage where
  completionTokens : Option Int

structure Chunk where
  usage : Option Usage
  choices : List Choice

/-- A provider as far as it changes the events of a stream. -/
structure Provider where
  /-- OpenRouter's `_handle_extra_reasoning`; the base class yields nothing. -/
  readsReasoningDetails : Bool
  httpReadTimeout : Option Str

structure Stream where
  sse : SSEBuilder
  thinkParser : ThinkTagParser
  heuristicParser : HeuristicToolParser
  finishReason : Option Str
  usageInfo : Option Usage
  errorOccurred : Bool
  /-- How many uuids were drawn. -/
  drawn : Nat

abbrev Gen : Type → Type := Generator Event Stream PyException

def attributeError : PyException := ⟨.other, "object has no such attribute".toList⟩

def typeError : PyException := ⟨.other, "'<' not supported between 'NoneType' and 'int'".toList⟩

def keyError : PyException := ⟨.other, "no such tool".toList⟩

def encoderError : PyException := ⟨.other, "disallowed special token".toList⟩

def onSse (act : SSEBuilder → List Event × SSEBuilder) : Gen Unit :=
  emit fun s =>
    let (events, sse) := act s.sse
    (events, { s with sse := sse })

def onToolDelta (toolIndex : Int) (partialJson : Str) : Gen Unit :=
  emitOr keyError fun s =>
    (s.sse.emitToolDelta toolIndex partialJson).map fun (events, sse) => (events, { s with sse := sse })

/-- `id or f"tool_{uuid.uuid4()}"` -/
def toolIdOf (rt : Runtime) (id : Option Str) : Gen Str :=
  if given id then pure (id.getD [])
  else do
    let s ← current
    modify fun s => { s with drawn := s.drawn + 1 }
    pure ("tool_".toList ++ rt.uuid4 s.drawn)

def toolState (tcIndex : Int) : Gen (Option ToolCallState) := do
  let s ← current
  pure (s.sse.blocks.toolStates.get? tcIndex)

/-- A negative index stands for a new tool; a missing one cannot be compared with zero. -/
def toolIndex (index : Option Int) : Gen Int :=
  match index with
  | none => raise typeError
  | some index => do
    let s ← current
    pure (if index < 0 then (s.sse.blocks.toolStates.entries.length : Int) else index)

def startNamedTool (rt : Runtime) (tcIndex : Int) (id : Option Str) : Gen Unit := do
  let state ← toolState tcIndex
  let name := (state.map (·.name)).getD []
  whenever (state.any (·.started) = false ∧ (name ≠ [] ∨ given id)) do
    let toolId ← toolIdOf rt id
    onSse (SSEBuilder.startToolBlock tcIndex toolId name)

def startUnnamedTool (rt : Runtime) (tcIndex : Int) (id : Option Str) : Gen Unit := do
  let state ← toolState tcIndex
  let name := (state.map (·.name)).getD []
  whenever (state.any (·.started) = false) do
    let toolId ← toolIdOf rt id
    onSse (SSEBuilder.startToolBlock tcIndex toolId (if name = [] then "tool_call".toList else name))

def passTaskArguments (rt : Runtime) (tcIndex : Int) (args : Str) : Gen Unit := do
  let s ← current
  modify fun s => { s with sse := { s.sse with blocks := (s.sse.blocks.bufferTaskArgs rt tcIndex args).2 } }
  match (s.sse.blocks.bufferTaskArgs rt tcIndex args).1 with
  | .error () => raise attributeError
  | .ok none => pure ()
  | .ok (some parsed) => onToolDelta tcIndex (rt.dumps parsed)

def passArguments (rt : Runtime) (tcIndex : Int) (args : Str) : Gen Unit := do
  let state ← toolState tcIndex
  if (state.map (·.name)).getD [] = "Task".toList then passTaskArguments rt tcIndex args
  else onToolDelta tcIndex args

def registerName (tcIndex : Int) : Option Str → Gen Unit
  | none => pure ()
  | some name => modify fun s => { s with sse := { s.sse with blocks := s.sse.blocks.registerToolName tcIndex name } }

/-- `_process_tool_call`, after the caller has taken `tc.function` apart. -/
def processToolCall (rt : Runtime) (tc : ToolCallDelta) (fn : FunctionDelta) : Gen Unit := do
  let tcIndex ← toolIndex tc.index
  registerName tcIndex fn.name
  startNamedTool rt tcIndex tc.id
  whenever (given fn.arguments) do
    startUnnamedTool rt tcIndex tc.id
    passArguments rt tcIndex (fn.arguments.getD [])

def emitThinking (content : Str) : Gen Unit := do
  onSse SSEBuilder.ensureThinkingBlock
  onSse (SSEBuilder.emitThinkingDelta content)

def emitText (content : Str) : Gen Unit := do
  onSse SSEBuilder.ensureTextBlock
  onSse (SSEBuilder.emitTextDelta content)

def handleExtraReasoning (provider : Provider) (delta : ChoiceDelta) : Gen Unit :=
  whenever provider.readsReasoningDetails
    (forEach delta.reasoningDetails fun text => whenever (text ≠ []) (emitThinking text))

/-- `tool_use["input"]`, where a `Task` is kept in the foreground. -/
def toolInput (tool : ToolUse) : Json :=
  let members := tool.input.entries.map fun (key, value) => (key, Json.string value)
  .object (if tool.name = "Task".toList then Json.setMember "run_in_background".toList (.bool false) members else members)

/-- The whole block of a tool call that was found in the text. -/
def toolBlock (rt : Runtime) (tool : ToolUse) (sse : SSEBuilder) : List Event × SSEBuilder :=
  let (blockIdx, blocks) := sse.blocks.allocateIndex
  ([.contentBlockStart blockIdx
      (.toolUse ("toolu_heuristic_".toList ++ (rt.toolParserHex tool.id).take 8) tool.name),
    .contentBlockDelta blockIdx (.inputJsonDelta (rt.dumps (toolInput tool))), .contentBlockStop blockIdx],
    { sse with blocks := blocks })

def emitTool (rt : Runtime) (tool : ToolUse) : Gen Unit := do
  onSse SSEBuilder.closeContentBlocks
  onSse (toolBlock rt tool)

def handlePart (rt : Runtime) (part : ContentChunk) : Gen Unit :=
  match part.type with
  | .thinking => emitThinking part.content
  | .text => do
    let s ← current
    let (filteredText, detectedTools, parser) := s.heuristicParser.feed part.content
    modify fun s => { s with heuristicParser := parser }
    whenever (filteredText ≠ []) (emitText filteredText)
    forEach detectedTools (emitTool rt)

def handleContent (rt : Runtime) (content : Str) : Gen Unit := do
  let s ← current
  let (parts, parser) := s.thinkParser.feed content
  modify fun s => { s with thinkParser := parser }
  forEach parts (handlePart rt)

def handleToolCalls (rt : Runtime) (toolCalls : List ToolCallDelta) : Gen Unit := do
  onSse SSEBuilder.closeContentBlocks
  forEach toolCalls fun tc =>
    match tc.function with
    | none => raise attributeError
    | some fn => processToolCall rt tc fn

def handleDelta (provider : Provider) (rt : Runtime) (delta : ChoiceDelta) : Gen Unit := do
  whenever (given delta.reasoningContent) (emitThinking (delta.reasoningContent.getD []))
  handleExtraReasoning provider delta
  whenever (given delta.content) (handleContent rt (delta.content.getD []))
  if delta.toolCalls = [] then pure () else handleToolCalls rt delta.toolCalls

/-- The body of `async for chunk in stream`. -/
def handleChunk (provider : Provider) (rt : Runtime) (chunk : Chunk) : Gen Unit := do
  modify fun s => if chunk.usage.isSome then { s with usageInfo := chunk.usage } else s
  match chunk.choices with
  | [] => pure ()
  | choice :: _ =>
    match choice.delta with
    | none => pure ()
    | some delta => do
      modify fun s => if given choice.finishReason then { s with finishReason := choice.finishReason } else s
      handleDelta provider rt delta

/-- What the upstream sends: chunks, then its regular end or an exception. -/
structure Upstream where
  chunks : List Chunk
  failure : Option PyException

def consume (provider : Provider) (rt : Runtime) (upstream : Upstream) : Gen Unit := do
  forEach upstream.chunks (handleChunk provider rt)
  match upstream.failure with
  | none => pure ()
  | some e => raise e

def reportError (provider : Provider) (requestId : Option Str) (e : PyException) : Gen Unit := do
  let errorMessage :=
    appendRequestId (getUserFacingErrorMessage (mapError e) provider.httpReadTimeout) requestId
  modify fun s => { s with errorOccurred := true }
  onSse SSEBuilder.closeContentBlocks
  onSse (SSEBuilder.emitError errorMessage)

def emitRemaining : Option ContentChunk → Gen Unit
  | none => pure ()
  | some ⟨.thinking, content⟩ => emitThinking content
  | some ⟨.text, content⟩ => emitText content

def flushThinkParser : Gen Unit := do
  let s ← current
  let (remaining, parser) := s.thinkParser.flush
  modify fun s => { s with thinkParser := parser }
  emitRemaining remaining

def flushHeuristicParser (rt : Runtime) : Gen Unit := do
  let s ← current
  let (tools, parser) := s.heuristicParser.flush
  modify fun s => { s with heuristicParser := parser }
  forEach tools (emitTool rt)

def fillEmptyAnswer : Gen Unit := do
  let s ← current
  whenever (s.errorOccurred = false ∧ s.sse.blocks.textIndex = -1 ∧ s.sse.blocks.toolStates.entries = [])
    (emitText [' '])

def flushTaskArgBuffers (rt : Runtime) : Gen Unit := do
  let s ← current
  let (results, blocks) := s.sse.blocks.flushTaskArgBuffers rt
  modify fun s => { s with sse := { s.sse with blocks := blocks } }
  forEach results fun (toolIndex, out) => onToolDelta toolIndex out

def outputTokens (rt : Runtime) (s : Stream) : Option Int :=
  match s.usageInfo.bind (·.completionTokens) with
  | some tokens => some tokens
  | none => s.sse.estimateOutputTokens rt

def endMessage (rt : Runtime) : Gen Unit :=
  emitOr encoderError fun s => (outputTokens rt s).map fun tokens =>
    ([s.sse.messageDelta (mapStopReason s.finishReason) tokens, .messageStop], s)

/-- Everything after `yield sse.message_start()`. -/
def streamBody (provider : Provider) (rt : Runtime) (requestId : Option Str) (upstream : Upstream) : Gen Unit := do
  attempt (consume provider rt upstream) (reportError provider requestId)
  flushThinkParser
  flushHeuristicParser rt
  fillEmptyAnswer
  flushTaskArgBuffers rt
  onSse SSEBuilder.closeAllBlocks

def startStream (rt : Runtime) (model : Str) (inputTokens : Int) : Stream where
  sse := .new ("msg_".toList ++ rt.uuid4 0) model inputTokens
  thinkParser := .new
  heuristicParser := .new
  finishReason := none
  usageInfo := none
  errorOccurred := false
  drawn := 1

/-- `_stream_response_impl`, once the request body is built. -/
def streamResponseImpl (provider : Provider) (rt : Runtime) (model : Str) (inputTokens : Int)
    (requestId : Option Str) (upstream : Upstream) : Outcome Event Stream PyException Unit :=
  (do
    emit fun s => ([s.sse.messageStart], s)
    streamBody provider rt requestId upstream
    endMessage rt : Gen Unit) (startStream rt model inputTokens)

end ClaudeProxy.Providers
