import ClaudeProxy.Kit.PyRepr
import ClaudeProxy.Providers.HeuristicToolParser

namespace ClaudeProxy.Handler

open Kit

abbrev Str := List Char

inductive ParsedEvent where
  | textChunk (text : Json)
  | thinkingChunk (text : Json)
  | toolUse (id : Str) (name input : Json)
  | toolResult (toolUseId : Str) (content : Json) (isError : Bool)
  | textDelta (index text : Json)
  | thinkingDelta (index text : Json)
  | toolUseDelta (index partialJson : Json)
  | thinkingStart (index : Json)
  | textStart (index : Json)
  | toolUseStart (index : Json) (id : Str) (name input : Json)
  | blockStop (index : Json)
  | error (message : Json)
  | complete (status : String)

abbrev Members := List (Str × Json)

def text (value : String) : Json := .string value.toList

variable [PyText]

/-- `str(members.get(key, "") or "").strip()`. -/
def idText (members : Members) (key : String) : Str :=
  let value := Json.get members key (text "")
  Providers.strip (if value.isTruthy then value.str else [])

/-- `{"content": members.get("content")}` where that is a list. -/
def contentMessage (members : Members) : Json :=
  match Json.get members "content" .null with
  | .array items => .object [("content".toList, .array items)]
  | _ => .null

/-- `first`, or `second` where `not first`. -/
def orElse (first second : Json) : Json := if first.isTruthy then first else second

def messageObject (etype : Json) (event : Members) : Json :=
  if etype.isString "assistant" ∨ etype.isString "user" then Json.get event "message" .null
  else if etype.isString "result" then
    let inResult := match Json.get event "result" .null with
      | .object result => orElse (Json.get result "message" .null) (contentMessage result)
      | _ => .null
    orElse (orElse inResult (Json.get event "message" .null)) (contentMessage event)
  else .null

def contentEvent : Json → Option ParsedEvent
  | .object block =>
    let ctype := Json.get block "type" .null
    if ctype.isString "text" then some (.textChunk (Json.get block "text" (text "")))
    else if ctype.isString "thinking" then some (.thinkingChunk (Json.get block "thinking" (text "")))
    else if ctype.isString "tool_use" then
      some (.toolUse (idText block "id") (Json.get block "name" (text "")) (Json.get block "input" .null))
    else if ctype.isString "tool_result" then
      some (.toolResult (idText block "tool_use_id") (Json.get block "content" .null)
        (Json.get block "is_error" (.bool false)).isTruthy)
    else none
  | _ => none

def contentEvents : Json → List ParsedEvent
  | .object message =>
    match Json.get message "content" (.array []) with
    | .array content => content.filterMap contentEvent
    | _ => []
  | _ => []

def eventIndex (event : Members) : Json := Json.get event "index" (.integer (-1))

def deltaEvents (event : Members) : List ParsedEvent :=
  match Json.get event "delta" (.object []) with
  | .object delta =>
    let dtype := Json.get delta "type" .null
    if dtype.isString "text_delta" then [.textDelta (eventIndex event) (Json.get delta "text" (text ""))]
    else if dtype.isString "thinking_delta" then
      [.thinkingDelta (eventIndex event) (Json.get delta "thinking" (text ""))]
    else if dtype.isString "input_json_delta" then
      [.toolUseDelta (eventIndex event) (Json.get delta "partial_json" (text ""))]
    else []
  | _ => []

def startEvents (event : Members) : List ParsedEvent :=
  match Json.get event "content_block" (.object []) with
  | .object block =>
    let btype := Json.get block "type" .null
    if btype.isString "thinking" then [.thinkingStart (eventIndex event)]
    else if btype.isString "text" then [.textStart (eventIndex event)]
    else if btype.isString "tool_use" then
      [.toolUseStart (eventIndex event) (idText block "id") (Json.get block "name" (text ""))
        (Json.get block "input" .null)]
    else []
  | _ => []

def errorMessage (event : Members) : Json :=
  match Json.get event "error" .null with
  | .object err => Json.get err "message" .null
  | err => .string err.str

def exitEvents (event : Members) : List ParsedEvent :=
  let code := Json.get event "code" (.integer 0)
  let stderr := Json.get event "stderr" .null
  if code.isZero then [.complete "success"]
  else [.error (orElse stderr (.string ("Process exited with code ".toList ++ code.str))), .complete "failed"]

def parseCliEvent : Json → List ParsedEvent
  | .object event =>
    let etype := Json.get event "type" .null
    if etype.isString "system" then []
    else
      let results := contentEvents (messageObject etype event)
      if ¬ results.isEmpty then results
      else if etype.isString "content_block_delta" then deltaEvents event
      else if etype.isString "content_block_start" then startEvents event
      else if etype.isString "content_block_stop" then [.blockStop (eventIndex event)]
      else if etype.isString "error" then [.error (errorMessage event)]
      else if etype.isString "exit" then exitEvents event
      else []
  | _ => []

/-- The last event that `CLISession.start_task` yields. -/
def exitEvent (code : Int) (stderr : Option Str) : Json :=
  .object [("type".toList, text "exit"), ("code".toList, .integer code),
    ("stderr".toList, (stderr.map Json.string).getD .null)]

omit [PyText] in
theorem get_type_exitEvent (code : Int) (stderr : Option Str) (members : Members)
    (same : exitEvent code stderr = .object members) : Json.get members "type" .null = text "exit" := by
  cases same
  rfl

omit [PyText] in
theorem exitEvent_noSession (code : Int) (stderr : Option Str) (members : Members)
    (same : exitEvent code stderr = .object members) :
    (Json.get members "type" .null).isString "session_info" = false := by
  rw [get_type_exitEvent code stderr members same]
  decide

theorem parse_exitEvent (code : Int) (stderr : Option Str) :
    parseCliEvent (exitEvent code stderr) = if code = 0 then [.complete "success"] else
      [.error (orElse ((stderr.map Json.string).getD .null)
        (.string ("Process exited with code ".toList ++ (Json.integer code).str))), .complete "failed"] := by
  by_cases zero : code = 0
  · subst zero
    rfl
  · simp [parseCliEvent, exitEvent, exitEvents, messageObject, contentEvents, Json.get, Json.getMember, text,
      Json.isString, Json.isZero, zero]

end ClaudeProxy.Handler
