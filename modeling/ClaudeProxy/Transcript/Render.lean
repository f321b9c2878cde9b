import ClaudeProxy.Transcript.Buffer

namespace ClaudeProxy.Transcript

open Kit

/-- `render_markdown` is given `none` where it raises. -/
structure RenderCtx where
  bold : Str → Str
  codeInline : Str → Str
  escapeCode : Str → Str
  escapeText : Str → Str
  renderMarkdown : Str → Option Str
  thinkingTailMax : Option Int
  toolOutputTailMax : Option Int
  textTailMax : Option Int

/-- `s[start:]` -/
def sliceFrom (start : Int) (s : Str) : Str := s.drop (if start < 0 then s.length + start else start).toNat

/-- `"..." + raw[-(max - 3):]` where the text is longer than the maximum. -/
def shorten (tailMax : Option Int) (raw : Str) : Str :=
  match tailMax with
  | some max => if max < raw.length then "...".toList ++ sliceFrom (-(max - 3)) raw else raw
  | none => raw

def fence : Str := "```".toList

def block (ctx : RenderCtx) (raw : Str) : Str := fence ++ '\n' :: (ctx.escapeCode raw ++ '\n' :: fence)

def ToolCallSegment.render (ctx : RenderCtx) (seg : ToolCallSegment) : Str :=
  List.replicate (2 * seg.indentLevel) ' ' ++ "🛠 ".toList ++ ctx.bold "Tool call:".toList ++
    ' ' :: ctx.codeInline seg.name

def ToolResultSegment.render (ctx : RenderCtx) (seg : ToolResultSegment) : Str :=
  let inner := shorten ctx.toolOutputTailMax seg.contentText
  let label := if seg.isError then "Tool error:".toList else "Tool result:".toList
  let maybeName := match seg.name with
    | some name => if name = [] then [] else ' ' :: ctx.codeInline name
    | none => []
  "📤 ".toList ++ ctx.bold label ++ maybeName ++ '\n' :: block ctx inner

/-- The names in braces, sorted. -/
def toolsSet (toolsUsed : List Str) : Str :=
  Char.ofNat 123 :: (List.intercalate ", ".toList (toolsUsed.mergeSort before) ++ [Char.ofNat 125])

def SubagentSegment.render (ctx : RenderCtx) (seg : SubagentSegment) : Str :=
  List.intercalate ['\n'] <|
    ["🤖 ".toList ++ ctx.bold "Subagent:".toList ++ ' ' :: ctx.codeInline seg.description] ++
    (seg.currentTool.map (ToolCallSegment.render ctx)).toList ++
    ["  ".toList ++ ctx.bold "Tools used:".toList ++ ' ' :: ctx.codeInline (toolsSet seg.toolsUsed),
      "  ".toList ++ ctx.bold "Tool calls:".toList ++ ' ' :: ctx.codeInline (toString seg.toolCalls).toList]

def Segment.render (ctx : RenderCtx) : Segment → Option Str
  | .thinking parts =>
    some ("💭 ".toList ++ ctx.bold "Thinking".toList ++ '\n' :: block ctx (shorten ctx.thinkingTailMax parts.flatten))
  | .text parts => ctx.renderMarkdown (shorten ctx.textTailMax parts.flatten)
  | .toolCall seg => some (seg.render ctx)
  | .toolResult seg => some (seg.render ctx)
  | .subagent seg => some (seg.render ctx)
  | .error seg => some ("⚠️ ".toList ++ ctx.bold "Error:".toList ++ ' ' :: ctx.codeInline seg.message)

/-- The filling of `render` around the parts: the marker goes in front of what is not empty. -/
def joinParts (marker statusText : Str) (parts : List Str) (addMarker : Bool) : Str :=
  let body := List.intercalate ['\n'] parts
  (if addMarker ∧ body ≠ [] then marker ++ body else body) ++ statusText

/-- The oldest parts are dropped until the others fit with the marker. -/
def keepTail (limitChars : Int) (marker statusText : Str) : List Str → Option Str
  | [] => none
  | part :: parts =>
    let candidate := joinParts marker statusText (part :: parts) true
    if candidate.length ≤ limitChars then some candidate else keepTail limitChars marker statusText parts

/-- The end of the last part, where there is room for it. -/
def cutLast (limitChars : Int) (marker statusText lastPart : Str) : Option Str :=
  let budget := limitChars - marker.length - statusText.length
  let tail := if budget < lastPart.length then "...".toList ++ sliceFrom (-(budget - 3)) lastPart else lastPart
  let candidate := marker ++ tail ++ statusText
  if 20 < budget ∧ candidate.length ≤ limitChars then some candidate else none

def statusText (status : Str) : Str := if status = [] then [] else "\n\n".toList ++ status

def minimal (limitChars : Int) (marker status : Str) : Str :=
  let minimal := marker ++ (statusText status).dropWhile (· = '\n')
  if minimal.length ≤ limitChars then minimal else status

/-- `render` from its rendered parts on. -/
def assemble (limitChars : Int) (marker status : Str) (parts : List Str) : Str :=
  let candidate := joinParts marker (statusText status) parts false
  if candidate.length ≤ limitChars then candidate
  else
    match keepTail limitChars marker (statusText status) parts with
    | some candidate => candidate
    | none =>
      match parts.getLast? with
      | none => status
      | some lastPart =>
        match cutLast limitChars marker (statusText status) lastPart with
        | some candidate => candidate
        | none => minimal limitChars marker status

namespace TranscriptBuffer

/-- Segments whose rendering fails or is empty are left out. -/
def rendered (ctx : RenderCtx) (b : TranscriptBuffer) : List Str :=
  (b.segments.filterMap (Segment.render ctx)).filter fun out => out ≠ []

def prefixMarker (ctx : RenderCtx) : Str := ctx.escapeText "... (truncated)\n".toList

def render (ctx : RenderCtx) (limitChars : Int) (status : Option Str) (b : TranscriptBuffer) : Str :=
  assemble limitChars (prefixMarker ctx) (status.getD []) (b.rendered ctx)

end TranscriptBuffer

end ClaudeProxy.Transcript
