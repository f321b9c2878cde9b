import ClaudeProxy.Api.CommandUtils
import ClaudeProxy.Api.Settings
import ClaudeProxy.Providers.MessageConverter

namespace ClaudeProxy.Api

open Kit Providers

/-- Of the five kinds of blocks only a text block has a `text`. -/
def blockText : MessageBlock → Str
  | .text text => text
  | _ => []

/-- `extract_text_from_content` -/
def MessageContent.extractText : MessageContent → Str
  | .text value => value
  | .blocks values => values.flatMap blockText

def SystemPrompt.extractText : SystemPrompt → Str
  | .text value => value
  | .blocks values => values.flatten

/-- The text of the message, where there is just one and it is a user's. -/
def soleUserText (request : MessagesRequest) : Option Str :=
  match request.messages with
  | [msg] => if msg.role = .user then some msg.content.extractText else none
  | _ => none

/-- `extract_text_from_content(request_data.system) if request_data.system else ""` -/
def systemText (request : MessagesRequest) : Str := ((request.system.filter givenSystem).map SystemPrompt.extractText).getD []

def hasTools (request : MessagesRequest) : Bool := !(request.tools.getD []).isEmpty

section Detection

variable (lower : Str → Str) (request : MessagesRequest)

def isQuotaCheckRequest : Bool :=
  request.maxTokens = some 1 && (soleUserText request).any fun text => mentions "quota" (lower text)

def isTitleGenerationRequest : Bool :=
  if (request.system.filter givenSystem).isNone || hasTools request then false
  else
    mentions "new conversation topic" (lower (systemText request)) && mentions "title" (lower (systemText request))

/-- The command, if it is such a request. -/
def isPrefixDetectionRequest : Option Str :=
  (soleUserText request).bind fun content =>
    if mentions "<policy_spec>" content then
      (rfind "Command:".toList content).map fun start => strip (content.drop (start + "Command:".length))
    else none

def isSuggestionModeRequest : Bool :=
  request.messages.any fun msg => msg.role = .user && mentions "[SUGGESTION MODE:" msg.content.extractText

/-- `output.split(marker)[0].strip()`, if the marker is in the output -/
def cutAt (marker output : Str) : Str :=
  match find marker output with
  | some i => strip (output.take i)
  | none => output

/-- The command and its output in the text of a request. -/
def commandAndOutput (content : Str) : Option (Str × Str) := do
  let start ← find "Command:".toList content
  let cmdStart := start + "Command:".length
  let outputMarker ← findFrom "Output:".toList content cmdStart
  let command := strip ((content.take outputMarker).drop cmdStart)
  let output := strip (content.drop (outputMarker + "Output:".length))
  return (command, cutAt "\n\n".toList (cutAt "<".toList output))

/-- The user's text or the system prompt asks for the paths. -/
def asksForFilepaths (content : Str) : Bool :=
  let userHasFilepaths := mentions "filepaths" (lower content) || mentions "<filepaths>" (lower content)
  let systemHasExtract := mentions "extract any file paths" (lower (systemText request)) ||
    mentions "file paths that this command" (lower (systemText request))
  userHasFilepaths || systemHasExtract

def isFilepathExtractionRequest : Option (Str × Str) :=
  (soleUserText request).bind fun content =>
    if hasTools request then none
    else if !mentions "Command:" content || !mentions "Output:" content then none
    else if !asksForFilepaths lower request content then none
    else commandAndOutput content

end Detection

def listingCommands : List Str :=
  ["ls", "dir", "find", "tree", "pwd", "cd", "mkdir", "rmdir", "rm"].map String.toList

def readingCommands : List Str := ["cat", "head", "tail", "less", "more", "bat", "type"].map String.toList

def grepFlagsWithArgs : List Str := ["-e", "-f", "-m", "-A", "-B", "-C"].map String.toList

def isOption (part : Str) : Bool := part.head? = some '-'

/-- `text.split(c)[-1]` -/
def afterLast (c : Char) (text : Str) : Str := (text.reverse.takeWhile (· ≠ c)).reverse

def baseCommand (lower : Str → Str) (part : Str) : Str := lower (afterLast Json.backslash (afterLast '/' part))

/-- The loop over the arguments of `grep`: whether a flag gave the pattern, and the arguments that are no flags. -/
def grepLoop (skipNext patternProvidedViaFlag : Bool) (positional : List Str) : List Str → Bool × List Str
  | [] => (patternProvidedViaFlag, positional)
  | part :: rest =>
    if skipNext then grepLoop false patternProvidedViaFlag positional rest
    else if isOption part then
      if part ∈ grepFlagsWithArgs then
        grepLoop true (patternProvidedViaFlag || part ∈ ["-e".toList, "-f".toList]) positional rest
      else grepLoop false patternProvidedViaFlag positional rest
    else grepLoop false patternProvidedViaFlag (positional ++ [part]) rest

def grepFilepaths (arguments : List Str) : List Str :=
  let (patternProvidedViaFlag, positional) := grepLoop false false [] arguments
  if patternProvidedViaFlag then positional else positional.tail

def filepathsBlock (filepaths : List Str) : Str :=
  if filepaths = [] then "<filepaths>\n</filepaths>".toList
  else "<filepaths>\n".toList ++ ['\n'].intercalate filepaths ++ "\n</filepaths>".toList

/-- The paths among the words of a command. -/
def filepathsOf (lower : Str → Str) : List Str → List Str
  | [] => []
  | command :: arguments =>
    let baseCmd := baseCommand lower command
    if baseCmd ∈ listingCommands then []
    else if baseCmd ∈ readingCommands then arguments.filter fun part => !isOption part
    else if baseCmd = "grep".toList then grepFilepaths arguments
    else []

/-- A quote that is left open is an exception, and so no paths. What the command wrote is not looked at. -/
def extractFilepathsFromCommand (lower : Str → Str) (command _output : Str) : Str :=
  filepathsBlock (((Shlex.split command).map (filepathsOf lower)).getD [])

/-- What the fast paths set in a response. -/
structure MessagesResponse where
  id : Str
  model : Str
  text : Str
  stopReason : Str
  inputTokens : Nat
  outputTokens : Nat

def mocked (uuid model text : Str) (inputTokens outputTokens : Nat) : MessagesResponse :=
  ⟨"msg_".toList ++ uuid, model, text, "end_turn".toList, inputTokens, outputTokens⟩

section Handlers

variable (lower : Str → Str) (settings : SettingsValues) (request : MessagesRequest) (uuid : Str)

def tryPrefixDetection : Option MessagesResponse :=
  if settings.fastPrefixDetection then
    (isPrefixDetectionRequest request).map fun command => mocked uuid request.model (extractCommandPrefix command) 100 5
  else none

def tryQuotaMock : Option MessagesResponse :=
  if settings.enableNetworkProbeMock && isQuotaCheckRequest lower request then
    some (mocked uuid request.model "Quota check passed.".toList 10 5)
  else none

def tryTitleSkip : Option MessagesResponse :=
  if settings.enableTitleGenerationSkip && isTitleGenerationRequest lower request then
    some (mocked uuid request.model "Conversation".toList 100 5)
  else none

def trySuggestionSkip : Option MessagesResponse :=
  if settings.enableSuggestionModeSkip && isSuggestionModeRequest request then some (mocked uuid request.model [] 100 1)
  else none

def tryFilepathMock : Option MessagesResponse :=
  if settings.enableFilepathExtractionMock then
    (isFilepathExtractionRequest lower request).map fun (cmd, output) =>
      mocked uuid request.model (extractFilepathsFromCommand lower cmd output) 100 10
  else none

def tryOptimizations : Option MessagesResponse :=
  (((tryQuotaMock lower settings request uuid).or (tryPrefixDetection settings request uuid)).or
    ((tryTitleSkip lower settings request uuid).or (trySuggestionSkip settings request uuid))).or
    (tryFilepathMock lower settings request uuid)

end Handlers

end ClaudeProxy.Api
