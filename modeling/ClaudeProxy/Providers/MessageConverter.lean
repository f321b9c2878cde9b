import ClaudeProxy.Api.AnthropicModels
import ClaudeProxy.Kit.PyRepr

namespace ClaudeProxy.Providers

open Kit Api

structure ToolCall where
  id : Str
  name : Str
  arguments : Str

/-- A message of the OpenAI format. No `tool_calls` key is set where the list of calls is empty. -/
inductive OpenAIMessage where
  | system (content : Str)
  | user (content : Str)
  | assistant (content : Str) (toolCalls : List ToolCall) (reasoningContent : Option Str)
  | tool (toolCallId content : Str)

/-- `separator.join(parts)` -/
def joinWith (separator : String) (parts : List Str) : Str := separator.toList.intercalate parts

def thinkBlock (thinking : Str) : Str := "<think>\n".toList ++ thinking ++ "\n</think>".toList

/-- What a block adds to `content_parts`. -/
def contentPart : MessageBlock → Option Str
  | .text text => some text
  | .thinking thinking => some (thinkBlock thinking)
  | _ => none

def thinkingPart : MessageBlock → Option Str
  | .thinking thinking => some thinking
  | _ => none

def toolCall : MessageBlock → Option ToolCall
  | .toolUse id name input => some ⟨id, name, (Json.object input).dumps⟩
  | _ => none

/-- `_convert_assistant_message`. Only a message without tool calls must have a content. -/
def convertAssistantMessage (includeReasoning : Bool) (content : List MessageBlock) : OpenAIMessage :=
  let toolCalls := content.filterMap toolCall
  let joined := joinWith "\n\n" (content.filterMap contentPart)
  let thinkingParts := if includeReasoning then content.filterMap thinkingPart else []
  .assistant (if joined = [] ∧ toolCalls.length = 0 then [' '] else joined) toolCalls
    (if thinkingParts = [] then none else some (joinWith "\n" thinkingParts))

variable [PyText]

/-- `item.get("text", str(item)) if isinstance(item, dict) else str(item)`, where it can be joined to a text. -/
def itemText : Json → Option Str
  | .object members =>
    match Json.getMember "text".toList members with
    | none => some (Json.object members).str
    | some (.string text) => some text
    | some _ => none
  | item => some item.str

/-- The content of the tool message; `none` is the `TypeError` of joining what is no text. -/
def toolContent : ResultContent → Option Str
  | .text text => some text
  | .items items => (items.mapM itemText).map (joinWith "\n")
  | .members members => some (if members.isEmpty then [] else (Json.object members).str)

def flushText (textParts : List Str) : List OpenAIMessage :=
  if textParts = [] then [] else [.user (joinWith "\n" textParts)]

/-- The loop of `_convert_user_message` and its final flush. -/
def convertUserBlocks : List Str → List MessageBlock → Option (List OpenAIMessage)
  | textParts, [] => some (flushText textParts)
  | textParts, block :: rest =>
    match block with
    | .text text => convertUserBlocks (textParts ++ [text]) rest
    | .toolResult toolUseId content => do
      let content ← toolContent content
      let more ← convertUserBlocks [] rest
      return flushText textParts ++ .tool toolUseId content :: more
    | _ => convertUserBlocks textParts rest

def convertUserMessage (content : List MessageBlock) : Option (List OpenAIMessage) := convertUserBlocks [] content

def convertMessage (includeReasoning : Bool) (msg : Message) : Option (List OpenAIMessage) :=
  match msg.role, msg.content with
  | .user, .text text => some [.user text]
  | .assistant, .text text => some [.assistant text [] none]
  | .assistant, .blocks blocks => some [convertAssistantMessage includeReasoning blocks]
  | .user, .blocks blocks => convertUserMessage blocks

def convertMessages (includeReasoning : Bool) (messages : List Message) : Option (List OpenAIMessage) :=
  (messages.mapM (convertMessage includeReasoning)).map List.flatten

structure OpenAITool where
  name : Str
  description : Str
  parameters : Members

def convertTools (tools : List Tool) : List OpenAITool :=
  tools.map fun tool => ⟨tool.name, tool.description.getD [], tool.inputSchema⟩

def convertSystemPrompt : SystemPrompt → Option OpenAIMessage
  | .text text => some (.system text)
  | .blocks texts => if texts = [] then none else some (.system (strip (joinWith "\n\n" texts)))

structure MessagesRequest where
  model : Str
  maxTokens : Option Int
  messages : List Message
  system : Option SystemPrompt
  stopSequences : Option (List Str)
  temperature : Option Json
  topP : Option Json
  tools : Option (List Tool)
  toolChoice : Option Members

/-- The keys of the body; one that is `none` or empty here is not set. -/
structure RequestBody where
  model : Str
  messages : List OpenAIMessage
  maxTokens : Option Int
  temperature : Option Json
  topP : Option Json
  stop : List Str
  tools : List OpenAITool
  toolChoice : Members

/-- `if system` -/
def givenSystem : SystemPrompt → Bool
  | .text value => value ≠ []
  | .blocks values => values ≠ []

def buildBaseRequestBody (request : MessagesRequest) (defaultMaxTokens : Option Int) (includeReasoning : Bool) :
    Option RequestBody := do
  let messages ← convertMessages includeReasoning request.messages
  let system := (request.system.filter givenSystem).bind convertSystemPrompt
  return {
    model := request.model
    messages := system.toList ++ messages
    maxTokens := (request.maxTokens.filter (· ≠ 0)).or defaultMaxTokens
    temperature := request.temperature
    topP := request.topP
    stop := request.stopSequences.getD []
    tools := convertTools (request.tools.getD [])
    toolChoice := request.toolChoice.getD [] }

end ClaudeProxy.Providers
