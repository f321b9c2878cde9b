import ClaudeProxy.Kit.Dict
import ClaudeProxy.Handler.EventParser

namespace ClaudeProxy.Transcript

open Kit

abbrev Str := List Char

/-- The events that `apply` tells apart. A delta without an index has the index -1, as has a chunk. -/
inductive Event where
  | thinkingStart (index : Int)
  | thinkingDelta (index : Int) (text : Json)
  | thinkingStop (index : Int)
  | textStart (index : Int)
  | textDelta (index : Int) (text : Json)
  | textStop (index : Int)
  | toolUseStart (index : Int) (id : Str) (name input : Json)
  | toolUseDelta
  | toolUseStop (index : Int)
  | blockStop (index : Int)
  | toolUse (id : Str) (name input : Json)
  | toolResult (toolUseId : Str) (content : Json) (isError : Bool)
  | error (message : Json)
  | other

/-- `value or fallback` for a string. -/
def orDefault (value fallback : Str) : Str := if value = [] then fallback else value

theorem orDefault_ne_nil {fallback : Str} (nonempty : fallback ≠ []) (value : Str) : orDefault value fallback ≠ [] := by
  unfold orDefault
  split_ifs with empty
  · exact nonempty
  · exact empty

/-- Whether the one text comes before the other by code points. -/
def before : Str → Str → Bool
  | [], _ => true
  | _ :: _, [] => false
  | c :: rest, d :: more => c.toNat < d.toNat || c = d && before rest more

/-- A character in a string literal of `json.dumps` with `ensure_ascii=False`. -/
def escapeUnicode (c : Char) : Str :=
  if c = Json.quotationMark ∨ c = Json.backslash ∨ c.toNat < 32 then Json.escapeAscii c else [c]

def literal (value : Str) : Str := [Json.quotationMark] ++ value.flatMap escapeUnicode ++ [Json.quotationMark]

def newline (level : Nat) : Str := '\n' :: List.replicate (2 * level) ' '

/-- The items of an array or object between its brackets, each on a line of its own. -/
def bracketed (level : Nat) (opening closing : Str) (items : List Str) : Str :=
  if items = [] then opening ++ closing
  else opening ++ newline (level + 1) ++ List.intercalate (',' :: newline (level + 1)) items ++ newline level ++ closing

mutual

/-- `json.dumps(obj, indent=2, ensure_ascii=False, sort_keys=True)`, which does not fail on decoded JSON. -/
def safeJsonDumps (level : Nat) : Json → Str
  | .null => "null".toList
  | .bool value => if value then "true".toList else "false".toList
  | .integer value => (toString value).toList
  | .number text => text
  | .string value => literal value
  | .array items => bracketed level "[".toList "]".toList (dumpItems (level + 1) items)
  | .object members => bracketed level [Char.ofNat 123] [Char.ofNat 125]
      (((dumpMembers (level + 1) members).mergeSort fun left right => before left.1 right.1).map fun member =>
        literal member.1 ++ ": ".toList ++ member.2)

def dumpItems (level : Nat) : List Json → List Str
  | [] => []
  | item :: rest => safeJsonDumps level item :: dumpItems level rest

def dumpMembers (level : Nat) : List (List Char × Json) → List (Str × Str)
  | [] => []
  | (key, value) :: rest => (key, safeJsonDumps level value) :: dumpMembers level rest

end

/-- Its `closed` flag is written and never read. -/
structure ToolCallSegment where
  toolUseId : Str
  name : Str
  indentLevel : Nat
  named : name ≠ []

def ToolCallSegment.new (toolUseId name : Str) (indentLevel : Nat) : ToolCallSegment :=
  ⟨toolUseId, orDefault name "tool".toList, indentLevel, orDefault_ne_nil (by decide) name⟩

structure ToolResultSegment where
  toolUseId : Str
  name : Option Str
  contentText : Str
  isError : Bool

def ToolResultSegment.new (toolUseId : Str) (content : Json) (name : Option Str) (isError : Bool) : ToolResultSegment where
  toolUseId := toolUseId
  name := name
  contentText := match content with
    | .string text => text
    | content => safeJsonDumps 0 content
  isError := isError

structure SubagentSegment where
  description : Str
  toolCalls : Nat
  /-- A set, without repetitions. -/
  toolsUsed : List Str
  currentTool : Option ToolCallSegment
  described : description ≠ []

namespace SubagentSegment

def new (description : Str) : SubagentSegment :=
  ⟨orDefault description "Subagent".toList, 0, [], none, orDefault_ne_nil (by decide) description⟩

def setCurrentToolCall (toolUseId name : Str) (seg : SubagentSegment) : SubagentSegment :=
  let name := orDefault name "tool".toList
  { seg with
    toolsUsed := if name ∈ seg.toolsUsed then seg.toolsUsed else seg.toolsUsed ++ [name]
    toolCalls := seg.toolCalls + 1
    currentTool := some (.new toolUseId name 1) }

end SubagentSegment

structure ErrorSegment where
  message : Str
  worded : message ≠ []

def ErrorSegment.new (message : Str) : ErrorSegment :=
  ⟨orDefault message "Unknown error".toList, orDefault_ne_nil (by decide) message⟩

inductive Segment where
  | thinking (parts : List Str)
  | text (parts : List Str)
  | toolCall (call : ToolCallSegment)
  | toolResult (result : ToolResultSegment)
  | subagent (seg : SubagentSegment)
  | error (failure : ErrorSegment)

/-- `append` of the thinking and text segments. -/
def Segment.append (text : Str) : Segment → Segment
  | .thinking parts => .thinking (if text = [] then parts else parts ++ [text])
  | .text parts => .text (if text = [] then parts else parts ++ [text])
  | seg => seg

def Segment.setCurrentToolCall (toolUseId name : Str) : Segment → Segment
  | .subagent seg => .subagent (seg.setCurrentToolCall toolUseId name)
  | seg => seg

/-- An open segment is given by its place in `segments`, to which segments are only ever added. -/
structure TranscriptBuffer where
  segments : List Segment
  openThinkingByIndex : Dict Int Nat
  openTextByIndex : Dict Int Nat
  openToolsByIndex : Dict Int ToolCallSegment
  toolNameById : Dict Str Str
  showToolResults : Bool
  subagentStack : List Str
  subagentSegments : List Nat

namespace TranscriptBuffer

def new (showToolResults : Bool) : TranscriptBuffer := ⟨[], .empty, .empty, .empty, .empty, showToolResults, [], []⟩

def inSubagent (b : TranscriptBuffer) : Bool := b.subagentStack ≠ []

def push (seg : Segment) (b : TranscriptBuffer) : TranscriptBuffer := { b with segments := b.segments ++ [seg] }

variable [PyText]

def taskHeadingFromInput : Json → Str
  | .object members =>
    orDefault (Handler.idText members "description") (orDefault (Handler.idText members "subagent_type")
      (orDefault (Handler.idText members "type") "Subagent".toList))
  | _ => "Subagent".toList

def syntheticMark : Str := "__task_".toList

/-- The segment is the last one. -/
def subagentPush (toolId : Str) (b : TranscriptBuffer) : TranscriptBuffer :=
  { b with
    subagentStack := b.subagentStack ++
      [orDefault (Providers.strip toolId) (syntheticMark ++ (toString (b.subagentStack.length + 1)).toList)]
    subagentSegments := b.subagentSegments ++ [b.segments.length - 1] }

def idsRoughlyMatch (stackId resultId : Str) : Bool :=
  if stackId = [] ∨ resultId = [] then false
  else if stackId = resultId then true
  else resultId.isPrefixOf stackId || stackId.isPrefixOf resultId

def popTop (b : TranscriptBuffer) : TranscriptBuffer :=
  { b with subagentStack := b.subagentStack.dropLast, subagentSegments := b.subagentSegments.dropLast }

def pops : Nat → TranscriptBuffer → TranscriptBuffer
  | 0, b => b
  | n + 1, b => pops n b.popTop

def lastMatch (stack : List Str) (toolId : Str) : Option Nat :=
  (List.range stack.length).reverse.find? fun i => idsRoughlyMatch (stack.getD i []) toolId

def subagentPop (toolId : Str) (b : TranscriptBuffer) : Bool × TranscriptBuffer :=
  let toolId := Providers.strip toolId
  match b.subagentStack.getLast? with
  | none => (false, b)
  | some top =>
    if toolId ≠ [] then
      if idsRoughlyMatch top toolId then (true, b.popTop)
      else
        match lastMatch b.subagentStack toolId with
        | none => (false, b)
        | some idx => (true, pops (b.subagentStack.length - idx) b)
    else if syntheticMark.isPrefixOf top then (true, b.popTop)
    else (false, b)

/-- `apply({"type": "block_stop", "index": idx})` -/
def stopBlock (idx : Int) (b : TranscriptBuffer) : TranscriptBuffer :=
  if b.openToolsByIndex.contains idx then { b with openToolsByIndex := b.openToolsByIndex.erase idx }
  else if b.openThinkingByIndex.contains idx then { b with openThinkingByIndex := b.openThinkingByIndex.erase idx }
  else if b.openTextByIndex.contains idx then { b with openTextByIndex := b.openTextByIndex.erase idx }
  else b

/-- A block that was left open under the index of a new one. -/
def stopStale (idx : Int) (b : TranscriptBuffer) : TranscriptBuffer := if 0 ≤ idx then b.stopBlock idx else b

def openThinking (idx : Int) (b : TranscriptBuffer) : TranscriptBuffer :=
  let place := b.segments.length
  let b := b.push (.thinking [])
  if 0 ≤ idx then { b with openThinkingByIndex := b.openThinkingByIndex.set idx place } else b

def openText (idx : Int) (b : TranscriptBuffer) : TranscriptBuffer :=
  let place := b.segments.length
  let b := b.push (.text [])
  if 0 ≤ idx then { b with openTextByIndex := b.openTextByIndex.set idx place } else b

def appendAt (place : Nat) (text : Str) (b : TranscriptBuffer) : TranscriptBuffer :=
  { b with segments := b.segments.modify place (.append text) }

def thinkingDelta (idx : Int) (text : Str) (b : TranscriptBuffer) : TranscriptBuffer :=
  match b.openThinkingByIndex.get? idx with
  | some place => b.appendAt place text
  | none => (b.openThinking idx).appendAt b.segments.length text

def textDelta (idx : Int) (text : Str) (b : TranscriptBuffer) : TranscriptBuffer :=
  match b.openTextByIndex.get? idx with
  | some place => b.appendAt place text
  | none => (b.openText idx).appendAt b.segments.length text

def taskName : Str := "Task".toList

/-- `str(ev.get("name", "") or "tool")` -/
def toolName (name : Json) : Str := if name.isTruthy then name.str else "tool".toList

def registerName (toolId name : Str) (b : TranscriptBuffer) : TranscriptBuffer :=
  if toolId = [] then b else { b with toolNameById := b.toolNameById.set toolId name }

def openTask (toolId : Str) (input : Json) (b : TranscriptBuffer) : TranscriptBuffer :=
  (b.push (.subagent (.new (taskHeadingFromInput input)))).subagentPush toolId

/-- A call of another tool, shown by the current sub-agent if there is one. -/
def addToolCall (toolId name : Str) (b : TranscriptBuffer) : TranscriptBuffer :=
  match b.inSubagent, b.subagentSegments.getLast? with
  | true, some parent => { b with segments := b.segments.modify parent (.setCurrentToolCall toolId name) }
  | _, _ => b.push (.toolCall (.new toolId name 0))

def toolUse (id : Str) (name input : Json) (b : TranscriptBuffer) : TranscriptBuffer :=
  let toolId := Providers.strip id
  let b := b.registerName toolId (toolName name)
  if toolName name = taskName then b.openTask toolId input else b.addToolCall toolId (toolName name)

/-- The call stays open under its index, except for a `Task`. -/
def toolUseStart (idx : Int) (id : Str) (name input : Json) (b : TranscriptBuffer) : TranscriptBuffer :=
  let b := (b.stopStale idx).toolUse id name input
  if toolName name ≠ taskName ∧ 0 ≤ idx then
    { b with openToolsByIndex := b.openToolsByIndex.set idx (.new (Providers.strip id) (toolName name) 0) }
  else b

/-- `str.lower` as far as it decides on the letters of "task". -/
def lower (s : Str) : Str := s.map fun c => if c.toNat = 0x212A then 'k' else c.toLower

def looksLikeTaskId (toolId : Str) : Bool := (find "task".toList (lower toolId)).isSome

/-- A stream may omit the id of a `Task` and give one with its result. -/
def reconciles (toolId : Str) (name : Option Str) (top : Str) : Bool :=
  toolId ≠ [] ∧ syntheticMark.isPrefixOf top ∧ (name = none ∨ name = some taskName) ∧ looksLikeTaskId toolId

def closeSubagent (toolId : Str) (name : Option Str) (b : TranscriptBuffer) : TranscriptBuffer :=
  if b.subagentStack = [] then b
  else
    let (popped, b) := b.subagentPop toolId
    if ¬ popped ∧ reconciles toolId name (b.subagentStack.getLast?.getD []) then (b.subagentPop []).2 else b

def toolResult (toolUseId : Str) (content : Json) (isError : Bool) (b : TranscriptBuffer) : TranscriptBuffer :=
  let toolId := Providers.strip toolUseId
  let name := b.toolNameById.get? toolId
  let b := b.closeSubagent toolId name
  if b.showToolResults then b.push (.toolResult (.new toolId content name isError)) else b

def apply (b : TranscriptBuffer) : Event → TranscriptBuffer
  | .thinkingStart idx => if b.inSubagent then b else (b.stopStale idx).openThinking idx
  | .thinkingDelta idx text => if b.inSubagent then b else b.thinkingDelta idx text.str
  | .thinkingStop idx => if 0 ≤ idx then { b with openThinkingByIndex := b.openThinkingByIndex.erase idx } else b
  | .textStart idx => if b.inSubagent then b else (b.stopStale idx).openText idx
  | .textDelta idx text => if b.inSubagent then b else b.textDelta idx text.str
  | .textStop idx => if 0 ≤ idx then { b with openTextByIndex := b.openTextByIndex.erase idx } else b
  | .toolUseStart idx id name input => b.toolUseStart idx id name input
  | .toolUseDelta => b
  | .toolUseStop idx => { b with openToolsByIndex := b.openToolsByIndex.erase idx }
  | .blockStop idx => b.stopBlock idx
  | .toolUse id name input => b.toolUse id name input
  | .toolResult id content isError => b.toolResult id content isError
  | .error message => b.push (.error (.new message.str))
  | .other => b

def applyAll (b : TranscriptBuffer) (events : List Event) : TranscriptBuffer := events.foldl apply b

end TranscriptBuffer

end ClaudeProxy.Transcript
