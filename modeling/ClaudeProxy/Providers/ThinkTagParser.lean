import ClaudeProxy.Kit.Search

namespace ClaudeProxy.Providers

open Kit

/-- A `str` is the list of its code points. -/
abbrev Str := List Char

inductive ContentType where
  | text
  | thinking
deriving DecidableEq

structure ContentChunk where
  type : ContentType
  content : Str
deriving DecidableEq

structure ThinkTagParser where
  buffer : Str
  inThinkTag : Bool
deriving DecidableEq

namespace ThinkTagParser

def openTag : Str := "<think>".toList

def closeTag : Str := "</think>".toList

def openTagLen : Nat := 7

def closeTagLen : Nat := 8

def new : ThinkTagParser := ⟨[], false⟩

/-- `if emit: return ContentChunk(type, emit)`, else `return None`. -/
def chunkOf (type : ContentType) (emit : Str) : Option ContentChunk :=
  if emit = [] then none else some ⟨type, emit⟩

/-- The rest of the buffer from its last bracket on, if it could be a partial tag. -/
def partialOutside (buffer : Str) : Option Nat :=
  match rfind ['<'] buffer with
  | none => none
  | some lastBracket =>
    let potentialTag := buffer.drop lastBracket
    let tagLen := potentialTag.length
    if (tagLen < openTagLen ∧ potentialTag.isPrefixOf openTag) ∨
      (tagLen < closeTagLen ∧ potentialTag.isPrefixOf closeTag)
    then some lastBracket else none

def partialInside (buffer : Str) : Option Nat :=
  match rfind ['<'] buffer with
  | none => none
  | some lastBracket =>
    if buffer.length - lastBracket < closeTagLen ∧ (buffer.drop lastBracket).isPrefixOf closeTag
    then some lastBracket else none

/-- An orphan close tag that no open tag precedes. -/
def orphanFirst : Option Nat → Option Nat → Bool
  | none, some _ => true
  | some thinkStart, some orphanClose => orphanClose < thinkStart
  | _, none => false

def parseOutsideThink (p : ThinkTagParser) : Option ContentChunk × ThinkTagParser :=
  let thinkStart := find openTag p.buffer
  let orphanClose := find closeTag p.buffer
  if orphanFirst thinkStart orphanClose then
    let orphanClose := orphanClose.getD 0
    (chunkOf .text (p.buffer.take orphanClose), { p with buffer := p.buffer.drop (orphanClose + closeTagLen) })
  else
    match thinkStart with
    | none =>
      match partialOutside p.buffer with
      | some lastBracket =>
        (chunkOf .text (p.buffer.take lastBracket), { p with buffer := p.buffer.drop lastBracket })
      | none => (chunkOf .text p.buffer, { p with buffer := [] })
    | some thinkStart =>
      (chunkOf .text (p.buffer.take thinkStart), ⟨p.buffer.drop (thinkStart + openTagLen), true⟩)

def parseInsideThink (p : ThinkTagParser) : Option ContentChunk × ThinkTagParser :=
  match find closeTag p.buffer with
  | none =>
    match partialInside p.buffer with
    | some lastBracket =>
      (chunkOf .thinking (p.buffer.take lastBracket), { p with buffer := p.buffer.drop lastBracket })
    | none => (chunkOf .thinking p.buffer, { p with buffer := [] })
  | some thinkEnd =>
    (chunkOf .thinking (p.buffer.take thinkEnd), ⟨p.buffer.drop (thinkEnd + closeTagLen), false⟩)

def parse (p : ThinkTagParser) : Option ContentChunk × ThinkTagParser :=
  if p.inThinkTag then p.parseInsideThink else p.parseOutsideThink

/-- The loop of `feed`, for at most the given number of rounds. -/
def feedLoop : Nat → ThinkTagParser → List ContentChunk × ThinkTagParser
  | 0, p => ([], p)
  | rounds + 1, p =>
    if p.buffer = [] then ([], p)
    else
      match p.parse with
      | (some chunk, next) =>
        let (chunks, last) := feedLoop rounds next
        (chunk :: chunks, last)
      | (none, next) => if next.buffer.length = p.buffer.length then ([], next) else feedLoop rounds next

def feed (p : ThinkTagParser) (content : Str) : List ContentChunk × ThinkTagParser :=
  let p := { p with buffer := p.buffer ++ content }
  feedLoop (p.buffer.length + 1) p

def flush (p : ThinkTagParser) : Option ContentChunk × ThinkTagParser :=
  if p.buffer = [] then (none, p)
  else (some ⟨if p.inThinkTag then .thinking else .text, p.buffer⟩, { p with buffer := [] })

def feedAll : ThinkTagParser → List Str → List ContentChunk × ThinkTagParser
  | p, [] => ([], p)
  | p, content :: rest =>
    let (chunks, next) := p.feed content
    let (more, last) := next.feedAll rest
    (chunks ++ more, last)

def feedThenFlush (p : ThinkTagParser) (contents : List Str) : List ContentChunk :=
  let (chunks, last) := p.feedAll contents
  chunks ++ last.flush.1.toList

/-- The loop of `feed` has left by its condition or its `break`. -/
def Halted (p : ThinkTagParser) : Prop := p.buffer = [] ∨ p.parse = (none, p)

end ThinkTagParser

/-- The tag that the state recognises at the head of the text, and the state it leads to. -/
def tagAt (inThink : Bool) (s : Str) : Option (Nat × Bool) :=
  if inThink = false ∧ ThinkTagParser.openTag.isPrefixOf s then some (ThinkTagParser.openTagLen, true)
  else if ThinkTagParser.closeTag.isPrefixOf s then some (ThinkTagParser.closeTagLen, false)
  else none

def contentType (inThink : Bool) : ContentType := if inThink then .thinking else .text

/-- The two-state reference scan of a whole text; `skip` characters of a recognised tag are still to be
    passed over. Every other character is a piece of its own. -/
def scan : Bool → Nat → Str → List ContentChunk
  | _, _, [] => []
  | inThink, skip + 1, _ :: rest => scan inThink skip rest
  | inThink, 0, c :: rest =>
    match tagAt inThink (c :: rest) with
    | some (len, next) => scan next (len - 1) rest
    | none => ⟨contentType inThink, [c]⟩ :: scan inThink 0 rest

/-- Adjacent pieces of one type become one piece. -/
def mergeChunks : List ContentChunk → List ContentChunk
  | [] => []
  | chunk :: rest =>
    match mergeChunks rest with
    | [] => [chunk]
    | next :: more =>
      if chunk.type = next.type then ⟨chunk.type, chunk.content ++ next.content⟩ :: more
      else chunk :: next :: more

end ClaudeProxy.Providers
