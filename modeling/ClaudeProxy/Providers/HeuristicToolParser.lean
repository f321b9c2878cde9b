import ClaudeProxy.Kit.Dict
import ClaudeProxy.Providers.ThinkTagParser

namespace ClaudeProxy.Providers

open Kit

/-- White space for `str.strip` and for `\\s` in a pattern. -/
def isSpace (c : Char) : Bool :=
  let n := c.toNat
  (9 ≤ n ∧ n ≤ 13) ∨ (28 ≤ n ∧ n ≤ 32) ∨ n = 0x85 ∨ n = 0xA0 ∨ n = 0x1680 ∨ (0x2000 ≤ n ∧ n ≤ 0x200A) ∨
    n = 0x2028 ∨ n = 0x2029 ∨ n = 0x202F ∨ n = 0x205F ∨ n = 0x3000

def strip (s : Str) : Str := ((s.dropWhile isSpace).reverse.dropWhile isSpace).reverse

/-- The first position at which a pattern matches, with its match there. -/
def search {α : Type} (matchAt : Str → Option α) : Str → Option (Nat × α)
  | [] => (matchAt []).map fun found => (0, found)
  | c :: rest =>
    match matchAt (c :: rest) with
    | some found => some (0, found)
    | none => (search matchAt rest).map fun (start, found) => (start + 1, found)

/-- `<\|[^|>]{1,80}\|>` at the head of the text: the length of the match. The run of inner characters
    ends only at `|` or `>`, so there is nothing to backtrack to. -/
def controlTokenAt : Str → Option Nat
  | '<' :: '|' :: rest =>
    let inner := rest.takeWhile fun c => c ≠ '|' ∧ c ≠ '>'
    if 1 ≤ inner.length ∧ inner.length ≤ 80 ∧ ['|', '>'].isPrefixOf (rest.drop inner.length)
    then some (inner.length + 4) else none
  | _ => none

/-- `re.sub` with the empty string; `skip` characters of a match are still to be passed over. -/
def stripControlTokens : Nat → Str → Str
  | _, [] => []
  | skip + 1, _ :: rest => stripControlTokens skip rest
  | 0, c :: rest =>
    match controlTokenAt (c :: rest) with
    | some len => stripControlTokens (len - 1) rest
    | none => c :: stripControlTokens 0 rest

/-- `([^>]+)>` at the head of the text: the group, and what follows the bracket. -/
def groupUpToBracket (s : Str) : Option (Str × Str) :=
  let group := s.takeWhile fun c => c ≠ '>'
  match s.drop group.length with
  | [] => none
  | _ :: rest => if group = [] then none else some (group, rest)

/-- `●\s*<function=([^>]+)>` at the head of the text: the group, and what follows the match. -/
def functionAt : Str → Option (Str × Str)
  | '●' :: rest =>
    let rest := rest.dropWhile isSpace
    if "<function=".toList.isPrefixOf rest then groupUpToBracket (rest.drop 10) else none
  | _ => none

def parameterTag : Str := "<parameter=".toList

def parameterEnd : Str := "</parameter>".toList

/-- `<parameter=([^>]+)>` at the head of the text. -/
def parameterStartAt (s : Str) : Option (Str × Str) :=
  if parameterTag.isPrefixOf s then groupUpToBracket (s.drop 11) else none

/-- `(.*?)(?:</parameter>|$)`: the lazy group, the closing tag if it is there, and what follows. The
    dollar also matches before a last newline. -/
def lazyBody : Str → Str × Str × Str
  | [] => ([], [], [])
  | c :: rest =>
    if parameterEnd.isPrefixOf (c :: rest) then ([], parameterEnd, (c :: rest).drop 12)
    else if c = '\n' ∧ rest = [] then ([], [], c :: rest)
    else
      let (body, close, after) := lazyBody rest
      (c :: body, close, after)

structure ParamMatch where
  key : Str
  value : Str
  /-- `group(0)` -/
  whole : Str
  after : Str

def parameterAt (s : Str) : Option ParamMatch :=
  (parameterStartAt s).map fun (key, rest) =>
    let (body, close, after) := lazyBody rest
    ⟨key, body, parameterTag ++ key ++ ['>'] ++ body ++ close, after⟩

inductive ParserState where
  | text
  | matchingFunction
  | parsingParameters
deriving DecidableEq

/-- An id stands for the number of ids that were generated before it. -/
structure ToolUse where
  id : Nat
  name : Str
  input : Dict Str Str
deriving DecidableEq

structure HeuristicToolParser where
  state : ParserState
  buffer : Str
  currentToolId : Nat
  currentFunctionName : Str
  currentParameters : Dict Str Str
  /-- How many ids were generated. -/
  generated : Nat
deriving DecidableEq

namespace HeuristicToolParser

def new : HeuristicToolParser := ⟨.text, [], 0, [], .empty, 0⟩

def bullet : Str := ['●']

def controlTokenStart : Str := ['<', '|']

def controlTokenEnd : Str := ['|', '>']

def splitIncompleteControlTokenTail (p : HeuristicToolParser) : Str × HeuristicToolParser :=
  match rfind controlTokenStart p.buffer with
  | none => ([], p)
  | some start =>
    match findFrom controlTokenEnd p.buffer start with
    | some _ => ([], p)
    | none => (p.buffer.take start, { p with buffer := p.buffer.drop start })

def currentTool (p : HeuristicToolParser) : ToolUse := ⟨p.currentToolId, p.currentFunctionName, p.currentParameters⟩

/-- What one of the three blocks of the loop does: the text and the tool calls it appends, and whether
    the loop is left. -/
structure Turn where
  filtered : Str
  tools : List ToolUse
  leaves : Bool
  parser : HeuristicToolParser

def textBlock (p : HeuristicToolParser) : Turn :=
  match find bullet p.buffer with
  | some idx => ⟨p.buffer.take idx, [], false, { p with buffer := p.buffer.drop idx, state := .matchingFunction }⟩
  | none =>
    let (safePrefix, next) := p.splitIncompleteControlTokenTail
    if safePrefix ≠ [] then ⟨safePrefix, [], true, next⟩
    else ⟨next.buffer, [], true, { next with buffer := [] }⟩

def matchingBlock (p : HeuristicToolParser) : Turn :=
  match search functionAt p.buffer with
  | some (_, name, rest) => ⟨[], [], false, { p with
      currentFunctionName := strip name
      currentToolId := p.generated
      generated := p.generated + 1
      currentParameters := .empty
      buffer := rest
      state := .parsingParameters }⟩
  | none =>
    if 100 < p.buffer.length then
      ⟨p.buffer.take 1, [], false, { p with buffer := p.buffer.drop 1, state := .text }⟩
    else ⟨[], [], true, p⟩

/-- The inner loop that takes up the complete parameters, for at most the given number of rounds. -/
def parameterLoop : Nat → HeuristicToolParser → Str × HeuristicToolParser
  | 0, p => ([], p)
  | rounds + 1, p =>
    match search parameterAt p.buffer with
    | none => ([], p)
    | some (start, found) =>
      if (find parameterEnd found.whole).isSome then
        let (more, last) := parameterLoop rounds { p with
          currentParameters := p.currentParameters.set (strip found.key) (strip found.value)
          buffer := found.after }
        (p.buffer.take start ++ more, last)
      else ([], p)

def parametersBlock (p : HeuristicToolParser) : Turn :=
  let (before, p) := parameterLoop (p.buffer.length + 1) p
  match find bullet p.buffer with
  | some idx =>
    ⟨before ++ p.buffer.take idx, [p.currentTool], false, { p with buffer := p.buffer.drop idx, state := .text }⟩
  | none =>
    if p.buffer ≠ [] ∧ ¬ ['<'].isPrefixOf (strip p.buffer) ∧ find parameterTag p.buffer = none then
      ⟨before ++ p.buffer, [p.currentTool], false, { p with buffer := [], state := .text }⟩
    else ⟨before, [], true, p⟩

def block (p : HeuristicToolParser) : Turn :=
  match p.state with
  | .text => p.textBlock
  | .matchingFunction => p.matchingBlock
  | .parsingParameters => p.parametersBlock

/-- The loop of `feed`, block by block, for at most the given number of blocks. -/
def feedLoop : Nat → HeuristicToolParser → Str × List ToolUse × HeuristicToolParser
  | 0, p => ([], [], p)
  | rounds + 1, p =>
    let turn := p.block
    if turn.leaves then (turn.filtered, turn.tools, turn.parser)
    else
      let (filtered, tools, last) := feedLoop rounds turn.parser
      (turn.filtered ++ filtered, turn.tools ++ tools, last)

def feed (p : HeuristicToolParser) (text : Str) : Str × List ToolUse × HeuristicToolParser :=
  let p := { p with buffer := stripControlTokens 0 (p.buffer ++ text) }
  feedLoop (3 * p.buffer.length + 3) p

/-- `.*` runs to the end, so the pattern of `flush` matches at most once. -/
def flush (p : HeuristicToolParser) : List ToolUse × HeuristicToolParser :=
  let p := { p with buffer := stripControlTokens 0 p.buffer }
  if p.state = .parsingParameters then
    let p := match search parameterStartAt p.buffer with
      | none => p
      | some (_, key, value) => { p with currentParameters := p.currentParameters.set (strip key) (strip value) }
    ([p.currentTool], { p with state := .text, buffer := [] })
  else ([], p)

def feedAll : HeuristicToolParser → List Str → Str × List ToolUse × HeuristicToolParser
  | p, [] => ([], [], p)
  | p, text :: rest =>
    let (filtered, tools, next) := p.feed text
    let (filtered', tools', last) := next.feedAll rest
    (filtered ++ filtered', tools ++ tools', last)

def feedThenFlush (p : HeuristicToolParser) (texts : List Str) : Str × List ToolUse :=
  let (filtered, tools, last) := p.feedAll texts
  (filtered, tools ++ last.flush.1)

end HeuristicToolParser

end ClaudeProxy.Providers
