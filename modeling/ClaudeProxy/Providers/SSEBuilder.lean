import Mathlib.Algebra.GroupWithZero.Nat
import ClaudeProxy.Kit.Dict
import ClaudeProxy.Kit.Json
import ClaudeProxy.Providers.ThinkTagParser

namespace ClaudeProxy.Providers

open Kit

/-- What the code takes from its surroundings: fresh uuids in the order in which they are drawn, apart
    from those of the tool parser, `json`, and the token counter, absent without `tiktoken`, which may raise. -/
structure Runtime where
  uuid4 : Nat → Str
  toolParserHex : Nat → Str
  loads : Str → Option Json
  dumps : Json → Str
  encoder : Option (Str → Option Nat)

inductive ContentBlock where
  | thinking (thinking : Str)
  | text (text : Str)
  | toolUse (id name : Str)
deriving DecidableEq

inductive Delta where
  | thinkingDelta (thinking : Str)
  | textDelta (text : Str)
  | inputJsonDelta (partialJson : Str)
deriving DecidableEq

inductive Event where
  | messageStart (id model : Str) (inputTokens : Int)
  | messageDelta (stopReason : Str) (inputTokens outputTokens : Int)
  | messageStop
  | contentBlockStart (index : Int) (contentBlock : ContentBlock)
  | contentBlockDelta (index : Int) (delta : Delta)
  | contentBlockStop (index : Int)
deriving DecidableEq

/-- The truth value of an optional string, as in `if name or tc.get("id")`. -/
def given : Option Str → Bool
  | none => false
  | some s => s ≠ []

/-- `STOP_REASON_MAP.get(openai_reason, "end_turn") if openai_reason else "end_turn"` -/
def mapStopReason (openaiReason : Option Str) : Str :=
  if openaiReason = some "length".toList then "max_tokens".toList
  else if openaiReason = some "tool_calls".toList then "tool_use".toList
  else "end_turn".toList

structure ToolCallState where
  blockIndex : Int
  toolId : Str
  name : Str
  contents : List Str
  started : Bool
  taskArgBuffer : Str
  taskArgsEmitted : Bool
deriving DecidableEq

structure ContentBlockManager where
  nextIndex : Int
  thinkingIndex : Int
  textIndex : Int
  thinkingStarted : Bool
  textStarted : Bool
  toolStates : Dict Int ToolCallState
deriving DecidableEq

namespace ContentBlockManager

def new : ContentBlockManager := ⟨0, -1, -1, false, false, .empty⟩

def allocateIndex (b : ContentBlockManager) : Int × ContentBlockManager :=
  (b.nextIndex, { b with nextIndex := b.nextIndex + 1 })

def registerToolName (b : ContentBlockManager) (index : Int) (name : Str) : ContentBlockManager :=
  match b.toolStates.get? index with
  | none => { b with toolStates := b.toolStates.set index ⟨-1, [], name, [], false, [], false⟩ }
  | some state =>
    let prev := state.name
    let merged := if prev = [] ∨ prev.isPrefixOf name then name
      else if ¬ name.isPrefixOf prev then prev ++ name
      else prev
    { b with toolStates := b.toolStates.set index { state with name := merged } }

/-- `args_json["run_in_background"] = False` unless it is `False` already; `none` for the `AttributeError`
    of a value that is not an object. -/
def forceForeground : Json → Option Json
  | .object members =>
    match Json.getMember "run_in_background".toList members with
    | some (.bool false) => some (.object members)
    | _ => some (.object (Json.setMember "run_in_background".toList (.bool false) members))
  | _ => none

/-- `error` is the `AttributeError` that leaves `buffer_task_args`; the buffer keeps the new arguments. -/
def bufferTaskArgs (rt : Runtime) (b : ContentBlockManager) (index : Int) (args : Str) :
    Except Unit (Option Json) × ContentBlockManager :=
  match b.toolStates.get? index with
  | none => (.ok none, b)
  | some state =>
    if state.taskArgsEmitted then (.ok none, b)
    else
      let state := { state with taskArgBuffer := state.taskArgBuffer ++ args }
      let b := { b with toolStates := b.toolStates.set index state }
      match rt.loads state.taskArgBuffer with
      | none => (.ok none, b)
      | some argsJson =>
        match forceForeground argsJson with
        | none => (.error (), b)
        | some argsJson => (.ok (some argsJson),
          { b with toolStates := b.toolStates.set index { state with taskArgsEmitted := true, taskArgBuffer := [] } })

/-- The text that replaces an unfinished buffer, `"{}"` where it is no JSON object. -/
def flushedArgs (rt : Runtime) (buffer : Str) : Str :=
  match (rt.loads buffer).bind forceForeground with
  | none => "{}".toList
  | some argsJson => rt.dumps argsJson

/-- The loop over `list(self.tool_states.items())`; one pass touches the state of its own index only. -/
def flushLoop (rt : Runtime) : List (Int × ToolCallState) → ContentBlockManager →
    List (Int × Str) × ContentBlockManager
  | [], b => ([], b)
  | (toolIndex, state) :: rest, b =>
    if state.taskArgBuffer = [] ∨ state.taskArgsEmitted then flushLoop rt rest b
    else
      let b := { b with
        toolStates := b.toolStates.set toolIndex { state with taskArgsEmitted := true, taskArgBuffer := [] } }
      let (results, b) := flushLoop rt rest b
      ((toolIndex, flushedArgs rt state.taskArgBuffer) :: results, b)

def flushTaskArgBuffers (rt : Runtime) (b : ContentBlockManager) : List (Int × Str) × ContentBlockManager :=
  flushLoop rt b.toolStates.entries b

end ContentBlockManager

structure SSEBuilder where
  messageId : Str
  model : Str
  inputTokens : Int
  blocks : ContentBlockManager
  accumulatedTextParts : List Str
  accumulatedReasoningParts : List Str
deriving DecidableEq

namespace SSEBuilder

def new (messageId model : Str) (inputTokens : Int) : SSEBuilder := ⟨messageId, model, inputTokens, .new, [], []⟩

def messageStart (sse : SSEBuilder) : Event := .messageStart sse.messageId sse.model sse.inputTokens

def messageDelta (sse : SSEBuilder) (stopReason : Str) (outputTokens : Int) : Event :=
  .messageDelta stopReason sse.inputTokens outputTokens

def startThinkingBlock (sse : SSEBuilder) : List Event × SSEBuilder :=
  let (index, blocks) := sse.blocks.allocateIndex
  ([.contentBlockStart index (.thinking [])],
    { sse with blocks := { blocks with thinkingIndex := index, thinkingStarted := true } })

def emitThinkingDelta (content : Str) (sse : SSEBuilder) : List Event × SSEBuilder :=
  ([.contentBlockDelta sse.blocks.thinkingIndex (.thinkingDelta content)],
    { sse with accumulatedReasoningParts := sse.accumulatedReasoningParts ++ [content] })

def stopThinkingBlock (sse : SSEBuilder) : List Event × SSEBuilder :=
  ([.contentBlockStop sse.blocks.thinkingIndex], { sse with blocks := { sse.blocks with thinkingStarted := false } })

def startTextBlock (sse : SSEBuilder) : List Event × SSEBuilder :=
  let (index, blocks) := sse.blocks.allocateIndex
  ([.contentBlockStart index (.text [])],
    { sse with blocks := { blocks with textIndex := index, textStarted := true } })

def emitTextDelta (content : Str) (sse : SSEBuilder) : List Event × SSEBuilder :=
  ([.contentBlockDelta sse.blocks.textIndex (.textDelta content)],
    { sse with accumulatedTextParts := sse.accumulatedTextParts ++ [content] })

def stopTextBlock (sse : SSEBuilder) : List Event × SSEBuilder :=
  ([.contentBlockStop sse.blocks.textIndex], { sse with blocks := { sse.blocks with textStarted := false } })

def startToolBlock (toolIndex : Int) (toolId name : Str) (sse : SSEBuilder) : List Event × SSEBuilder :=
  let (blockIdx, blocks) := sse.blocks.allocateIndex
  let state : ToolCallState := match blocks.toolStates.get? toolIndex with
    | some state => { state with blockIndex := blockIdx, toolId := toolId, started := true }
    | none => ⟨blockIdx, toolId, name, [], true, [], false⟩
  ([.contentBlockStart blockIdx (.toolUse toolId name)],
    { sse with blocks := { blocks with toolStates := blocks.toolStates.set toolIndex state } })

/-- `none` stands for the `KeyError` of an unknown tool. -/
def emitToolDelta (toolIndex : Int) (partialJson : Str) (sse : SSEBuilder) : Option (List Event × SSEBuilder) :=
  (sse.blocks.toolStates.get? toolIndex).map fun state =>
    ([.contentBlockDelta state.blockIndex (.inputJsonDelta partialJson)],
      { sse with blocks := { sse.blocks with
          toolStates := sse.blocks.toolStates.set toolIndex { state with contents := state.contents ++ [partialJson] } } })

def andThen (first second : SSEBuilder → List Event × SSEBuilder) (sse : SSEBuilder) : List Event × SSEBuilder :=
  let (events, sse) := first sse
  let (more, sse) := second sse
  (events ++ more, sse)

def nothing (sse : SSEBuilder) : List Event × SSEBuilder := ([], sse)

def ensureThinkingBlock : SSEBuilder → List Event × SSEBuilder :=
  andThen (fun sse => if sse.blocks.textStarted then sse.stopTextBlock else sse.nothing)
    (fun sse => if ¬ sse.blocks.thinkingStarted then sse.startThinkingBlock else sse.nothing)

def ensureTextBlock : SSEBuilder → List Event × SSEBuilder :=
  andThen (fun sse => if sse.blocks.thinkingStarted then sse.stopThinkingBlock else sse.nothing)
    (fun sse => if ¬ sse.blocks.textStarted then sse.startTextBlock else sse.nothing)

def closeContentBlocks : SSEBuilder → List Event × SSEBuilder :=
  andThen (fun sse => if sse.blocks.thinkingStarted then sse.stopThinkingBlock else sse.nothing)
    (fun sse => if sse.blocks.textStarted then sse.stopTextBlock else sse.nothing)

/-- The tool blocks keep their `started` flag when they are stopped. -/
def stopToolBlocks (sse : SSEBuilder) : List Event × SSEBuilder :=
  ((sse.blocks.toolStates.values.filter (·.started)).map fun state => .contentBlockStop state.blockIndex, sse)

def closeAllBlocks : SSEBuilder → List Event × SSEBuilder := andThen closeContentBlocks stopToolBlocks

def emitError (errorMessage : Str) (sse : SSEBuilder) : List Event × SSEBuilder :=
  let (errorIndex, blocks) := sse.blocks.allocateIndex
  ([.contentBlockStart errorIndex (.text []), .contentBlockDelta errorIndex (.textDelta errorMessage),
    .contentBlockStop errorIndex], { sse with blocks := blocks })

def accumulatedText (sse : SSEBuilder) : Str := sse.accumulatedTextParts.flatten

def accumulatedReasoning (sse : SSEBuilder) : Str := sse.accumulatedReasoningParts.flatten

/-- The tokens of one tool call; `none` where the encoder raises. -/
def toolTokens (encode : Str → Option Nat) (state : ToolCallState) : Option Nat := do
  let name ← encode state.name
  let contents ← encode state.contents.flatten
  return name + contents + 15

/-- `none` where the encoder raises. -/
def estimateOutputTokens (rt : Runtime) (sse : SSEBuilder) : Option Int :=
  let tools := sse.blocks.toolStates.values
  let startedToolCount : Int := (tools.filter (·.started)).length
  match rt.encoder with
  | some encode => do
    let textTokens ← encode sse.accumulatedText
    let reasoningTokens ← encode sse.accumulatedReasoning
    let toolTokens ← tools.mapM (toolTokens encode)
    let blockCount : Int := (if sse.accumulatedReasoning = [] then 0 else 1) +
      (if sse.accumulatedText = [] then 0 else 1) + startedToolCount
    return (textTokens : Int) + reasoningTokens + toolTokens.sum + blockCount * 4
  | none => some ((sse.accumulatedText.length / 4 : Nat) + (sse.accumulatedReasoning.length / 4 : Nat) +
      startedToolCount * 50)

end SSEBuilder

end ClaudeProxy.Providers
