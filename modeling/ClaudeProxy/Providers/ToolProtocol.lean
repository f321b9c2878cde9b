import ClaudeProxy.Kit.Exchange
import ClaudeProxy.Kit.JsonText
import ClaudeProxy.Kit.Traverse
import ClaudeProxy.Providers.MessageConverter

namespace ClaudeProxy.Providers

open Kit Kit.Exchange Api

/-- The texts stand in the string one after the other, whatever is between them. -/
def Appear : List Str → Str → Prop
  | [], _ => True
  | text :: texts, whole => ∃ gap rest, whole = gap ++ (text ++ rest) ∧ Appear texts rest

def blocksOf : MessageContent → List MessageBlock
  | .text _ => []
  | .blocks blocks => blocks

def toolUseId : MessageBlock → Option Str
  | .toolUse id _ _ => some id
  | _ => none

def toolResultId : MessageBlock → Option Str
  | .toolResult id _ => some id
  | _ => none

def callIds (msg : Message) : List Str := (blocksOf msg.content).filterMap toolUseId

def resultIds (msg : Message) : List Str := (blocksOf msg.content).filterMap toolResultId

/-- No tool result comes after a block of another kind. -/
def ResultsFirst (msg : Message) : Prop :=
  ∃ results others, blocksOf msg.content = results ++ others ∧ (∀ block ∈ results, (toolResultId block).isSome) ∧
    ∀ block ∈ others, toolResultId block = none

/-- Every call is answered by exactly one of the first blocks of the next user message; `pending` are the calls that
wait for one. -/
def Answered : List Str → List Message → Prop
  | pending, [] => pending = []
  | pending, msg :: rest =>
    match msg.role with
    | .assistant => Answered (pending ++ callIds msg) rest
    | .user => ResultsFirst msg ∧ (resultIds msg).Perm pending ∧ pending.Nodup ∧ Answered [] rest

/-- A conversation that the Anthropic API takes. -/
structure Valid (messages : List Message) : Prop where
  answered : Answered [] messages
  decoded : ∀ msg ∈ messages, ∀ id name input, .toolUse id name input ∈ blocksOf msg.content → (Json.object input).Decoded

def OpenAIMessage.IsTool : OpenAIMessage → Prop
  | .tool _ _ => True
  | _ => False

def toolMessageId : OpenAIMessage → Option Str
  | .tool id _ => some id
  | _ => none

/-- The OpenAI tool protocol. -/
structure Protocol (out : List OpenAIMessage) : Prop where
  answered : ∀ before content calls reasoning after, out = before ++ .assistant content calls reasoning :: after →
    calls ≠ [] → (calls.map ToolCall.id).Nodup ∧ ∃ answers rest, after = answers ++ rest ∧ (∀ msg ∈ answers, msg.IsTool) ∧
      (answers.filterMap toolMessageId).Perm (calls.map ToolCall.id) ∧ ∀ next ∈ rest.head?, ¬ next.IsTool
  answers : ∀ before id content after, out = before ++ .tool id content :: after →
    ∃ earlier text calls reasoning between, before = earlier ++ .assistant text calls reasoning :: between ∧
      id ∈ calls.map ToolCall.id ∧ ∀ msg ∈ between, msg.IsTool

/-- The texts of a block of an assistant message, a thought among them. -/
def said : MessageBlock → Option Str
  | .text text => some text
  | .thinking thinking => some thinking
  | _ => none

def textOf : MessageBlock → Option Str
  | .text text => some text
  | _ => none

def callOf : MessageBlock → Option (Str × Str × Option Json)
  | .toolUse id name input => some (id, name, some (.object input))
  | _ => none

/-- A call as its receiver reads it. -/
def readCall (call : ToolCall) : Str × Str × Option Json := (call.id, call.name, Json.loads call.arguments)

def resultOf : MessageBlock → Option (Str × ResultContent)
  | .toolResult id content => some (id, content)
  | _ => none

def answerOf : OpenAIMessage → Option (Str × Str)
  | .tool id content => some (id, content)
  | _ => none

def userText : OpenAIMessage → Str
  | .user content => content
  | _ => []

def memberText : Json → Option Str
  | .object members =>
    match Json.getMember "text".toList members with
    | some (.string text) => some text
    | _ => none
  | _ => none

def resultTexts : ResultContent → List Str
  | .text text => [text]
  | .items items => items.filterMap memberText
  | .members _ => []

def Answers (result : Str × ResultContent) (answer : Str × Str) : Prop :=
  result.1 = answer.1 ∧ Appear (resultTexts result.2) answer.2

/-- The part of the converted list that stands for a message keeps its texts, calls and results in their order. -/
def Renders (msg : Message) (part : List OpenAIMessage) : Prop :=
  match msg.role, msg.content with
  | .user, .text text => part = [.user text]
  | .assistant, .text text => part = [.assistant text [] none]
  | .assistant, .blocks blocks => ∃ content calls reasoning, part = [.assistant content calls reasoning] ∧
      Appear (blocks.filterMap said) content ∧ calls.map readCall = blocks.filterMap callOf
  | .user, .blocks blocks => part ≠ [] ∧ Appear (blocks.filterMap textOf) (part.flatMap userText) ∧
      List.Forall₂ Answers (blocks.filterMap resultOf) (part.filterMap answerOf)

/-- The conversion succeeds and keeps the protocol and the content. -/
def Converts [PyText] (includeReasoning : Bool) (messages : List Message) : Prop :=
  ∃ parts, messages.mapM (convertMessage includeReasoning) = some parts ∧
    convertMessages includeReasoning messages = some parts.flatten ∧
    Protocol parts.flatten ∧ List.Forall₂ Renders messages parts

/-- Something of a user message can be converted. -/
def Substantial (msg : Message) : Prop :=
  msg.role = .user → ∀ blocks, msg.content = .blocks blocks →
    ∃ block ∈ blocks, (textOf block).isSome ∨ (toolResultId block).isSome

/-- The results of a user message can be joined to texts. -/
def Readable [PyText] (msg : Message) : Prop :=
  msg.role = .user → ∀ id items, .toolResult id (.items items) ∈ blocksOf msg.content →
    ∀ item ∈ items, (itemText item).isSome

structure Convertible [PyText] (messages : List Message) : Prop where
  substantial : ∀ msg ∈ messages, Substantial msg
  readable : ∀ msg ∈ messages, Readable msg
  direct : ∀ before caller next after, messages = before ++ caller :: next :: after → caller.role = .assistant →
    callIds caller ≠ [] → next.role = .user

theorem appear_behind {texts : List Str} {whole : Str} (gap : Str) (appear : Appear texts whole) :
    Appear texts (gap ++ whole) := by
  cases texts with
  | nil => trivial
  | cons text texts =>
    rcases appear with ⟨first, rest, rfl, more⟩
    exact ⟨gap ++ first, rest, by rw [List.append_assoc], more⟩

theorem appear_append {texts more : List Str} {whole after : Str} (one : Appear texts whole) (two : Appear more after) :
    Appear (texts ++ more) (whole ++ after) := by
  induction texts generalizing whole with
  | nil => exact appear_behind whole two
  | cons text texts ih =>
    rcases one with ⟨gap, rest, rfl, appear⟩
    exact ⟨gap, rest ++ after, by simp, ih appear⟩

theorem appear_within {text whole : Str} (infixed : text <:+: whole) : Appear [text] whole := by
  rcases infixed with ⟨gap, rest, rfl⟩
  exact ⟨gap, rest, by simp, trivial⟩

/-- Texts that stand in the parts stand in what the parts are joined to. -/
theorem appear_joinWith {β : Type} (separator : String) (part text : β → Option Str)
    (within : ∀ b t, text b = some t → ∃ p, part b = some p ∧ t <:+: p) (items : List β) :
    Appear (items.filterMap text) (joinWith separator (items.filterMap part)) := by
  have join (first : Str) (rest : List Str) : ∃ glue, joinWith separator (first :: rest) =
      first ++ (glue ++ joinWith separator rest) := by
    cases rest with
    | nil => exact ⟨[], by simp [joinWith, List.intercalate]⟩
    | cons next rest => exact ⟨separator.toList, by simp [joinWith, List.intercalate]⟩
  induction items with
  | nil => trivial
  | cons item items ih =>
    cases parted : part item with
    | none =>
      have none' : text item = none := by
        cases given : text item with
        | none => rfl
        | some t =>
          rcases within item t given with ⟨p, found, _⟩
          rw [parted] at found
          cases found
      rw [List.filterMap_cons_none none', List.filterMap_cons_none parted]
      exact ih
    | some p =>
      rw [List.filterMap_cons_some parted]
      rcases join p (items.filterMap part) with ⟨glue, eq⟩
      rw [eq]
      cases given : text item with
      | none =>
        rw [List.filterMap_cons_none given]
        exact appear_behind p (appear_behind glue ih)
      | some t =>
        rw [List.filterMap_cons_some given]
        rcases within item t given with ⟨q, found, infixed⟩
        rw [parted] at found
        cases found
        exact appear_append (appear_within infixed) (appear_behind glue ih)

theorem thinkBlock_around (thinking : Str) : thinking <:+: thinkBlock thinking :=
  ⟨"<think>\n".toList, "\n</think>".toList, rfl⟩

theorem appear_contentParts (blocks : List MessageBlock) :
    Appear (blocks.filterMap said) (joinWith "\n\n" (blocks.filterMap contentPart)) := by
  apply appear_joinWith
  intro block text spoken
  cases block with
  | text value =>
    cases spoken
    exact ⟨text, rfl, List.infix_rfl⟩
  | thinking value =>
    cases spoken
    exact ⟨thinkBlock text, rfl, thinkBlock_around text⟩
  | image source => cases spoken
  | toolUse id name input => cases spoken
  | toolResult id content => cases spoken

theorem readCall_toolCalls {blocks : List MessageBlock}
    (decoded : ∀ id name input, .toolUse id name input ∈ blocks → (Json.object input).Decoded) :
    (blocks.filterMap toolCall).map readCall = blocks.filterMap callOf := by
  rw [List.map_filterMap]
  apply List.filterMap_congr
  intro block member
  cases block with
  | toolUse id name input =>
    have read := Json.loads_dumps (decoded id name input member)
    simp [toolCall, readCall, callOf, read]
  | text value => rfl
  | thinking value => rfl
  | image source => rfl
  | toolResult id content => rfl

theorem convertAssistantMessage_spec (includeReasoning : Bool) {blocks : List MessageBlock}
    (decoded : ∀ id name input, .toolUse id name input ∈ blocks → (Json.object input).Decoded) :
    ∃ content calls reasoning, convertAssistantMessage includeReasoning blocks = .assistant content calls reasoning ∧
      Appear (blocks.filterMap said) content ∧ calls.map readCall = blocks.filterMap callOf := by
  refine ⟨_, _, _, rfl, ?_, readCall_toolCalls decoded⟩
  have appear := appear_contentParts blocks
  split
  · rename_i empty
    rw [empty.1] at appear
    have padded := appear_append appear (show Appear [] [' '] from trivial)
    rwa [List.append_nil] at padded
  · exact appear

theorem toolContent_isSome [PyText] (content : ResultContent) :
    (toolContent content).isSome ↔ ∀ items, content = .items items → ∀ item ∈ items, (itemText item).isSome := by
  cases content with
  | text text => simp [toolContent]
  | members members => simp [toolContent]
  | items items =>
    rw [toolContent, Option.isSome_map, mapM_isSome]
    simp

theorem appear_toolContent [PyText] {content : ResultContent} {text : Str} (joined : toolContent content = some text) :
    Appear (resultTexts content) text := by
  cases content with
  | text value =>
    cases joined
    exact appear_within List.infix_rfl
  | members members => trivial
  | items items =>
    rcases Option.map_eq_some_iff.mp joined with ⟨texts, all, rfl⟩
    rw [← filterMap_of_mapM all]
    apply appear_joinWith
    intro item text found
    cases item with
    | object members =>
      refine ⟨text, ?_, List.infix_rfl⟩
      simp only [memberText] at found
      simp only [itemText]
      split at found
      · rename_i value member
        cases found
        rw [member]
      · cases found
    | null => cases found
    | bool value => cases found
    | integer value => cases found
    | number literal => cases found
    | string value => cases found
    | array items => cases found

theorem convertUserBlocks_text [PyText] (textParts : List Str) (text : Str) (rest : List MessageBlock) :
    convertUserBlocks textParts (.text text :: rest) = convertUserBlocks (textParts ++ [text]) rest := rfl

theorem convertUserBlocks_skip [PyText] {block : MessageBlock} (noText : textOf block = none) (noResult : toolResultId block = none)
    (textParts : List Str) (rest : List MessageBlock) :
    convertUserBlocks textParts (block :: rest) = convertUserBlocks textParts rest := by
  cases block with
  | text text => cases noText
  | toolResult id content => cases noResult
  | thinking thinking => rfl
  | image source => rfl
  | toolUse id name input => rfl

theorem convertUserBlocks_result [PyText] {textParts : List Str} {id : Str} {content : ResultContent} {rest : List MessageBlock}
    {out : List OpenAIMessage} (converted : convertUserBlocks textParts (.toolResult id content :: rest) = some out) :
    ∃ text more, toolContent content = some text ∧ convertUserBlocks [] rest = some more ∧
      out = flushText textParts ++ .tool id text :: more := by
  simp only [convertUserBlocks] at converted
  cases joined : toolContent content with
  | none =>
    rw [joined] at converted
    cases converted
  | some text =>
    rw [joined] at converted
    cases later : convertUserBlocks [] rest with
    | none =>
      rw [later] at converted
      cases converted
    | some more =>
      rw [later] at converted
      cases converted
      exact ⟨text, more, rfl, rfl, rfl⟩

theorem resultOf_none {block : MessageBlock} (none' : toolResultId block = none) : resultOf block = none := by
  cases block with
  | toolResult id content => cases none'
  | text text => rfl
  | thinking thinking => rfl
  | image source => rfl
  | toolUse id name input => rfl

theorem appear_flushText (textParts : List Str) : Appear textParts ((flushText textParts).flatMap userText) := by
  cases textParts with
  | nil => trivial
  | cons text rest =>
    have appear := @appear_joinWith Str "\n" some some (fun b t given => ⟨t, given, List.infix_rfl⟩) (text :: rest)
    simpa [flushText, userText] using appear

theorem answerOf_flushText (textParts : List Str) : (flushText textParts).filterMap answerOf = [] := by
  unfold flushText
  split <;> rfl

theorem flushText_ne_nil (textParts : List Str) : flushText textParts ≠ [] ↔ textParts ≠ [] := by
  unfold flushText
  split <;> simp_all

/-- Texts and results are passed on in their order, and something is passed on unless there is neither. -/
theorem convertUserBlocks_spec [PyText] {blocks : List MessageBlock} : ∀ {textParts : List Str} {out : List OpenAIMessage},
    convertUserBlocks textParts blocks = some out →
    Appear (textParts ++ blocks.filterMap textOf) (out.flatMap userText) ∧
    List.Forall₂ Answers (blocks.filterMap resultOf) (out.filterMap answerOf) ∧
    (out ≠ [] ↔ textParts ≠ [] ∨ ∃ block ∈ blocks, (textOf block).isSome ∨ (toolResultId block).isSome) := by
  induction blocks with
  | nil =>
    intro textParts out converted
    cases converted
    refine ⟨?_, ?_, ?_⟩
    · rw [List.filterMap_nil, List.append_nil]
      exact appear_flushText textParts
    · rw [answerOf_flushText]
      exact List.Forall₂.nil
    · simpa using flushText_ne_nil textParts
  | cons block rest ih =>
    intro textParts out converted
    have skip (noText : textOf block = none) (noResult : toolResultId block = none) :
        Appear (textParts ++ (block :: rest).filterMap textOf) (out.flatMap userText) ∧
        List.Forall₂ Answers ((block :: rest).filterMap resultOf) (out.filterMap answerOf) ∧
        (out ≠ [] ↔ textParts ≠ [] ∨
          ∃ other ∈ block :: rest, (textOf other).isSome ∨ (toolResultId other).isSome) := by
      rw [convertUserBlocks_skip noText noResult] at converted
      rw [List.filterMap_cons_none noText, List.filterMap_cons_none (resultOf_none noResult)]
      simpa [noText, noResult] using ih converted
    cases block with
    | text text =>
      rw [convertUserBlocks_text] at converted
      have later := ih converted
      refine ⟨?_, later.2.1, ?_⟩
      · simpa [textOf] using later.1
      · simpa [textOf] using later.2.2
    | toolResult id content =>
      rcases convertUserBlocks_result converted with ⟨text, more, joined, after, rfl⟩
      have later := ih after
      refine ⟨?_, ?_, ?_⟩
      · have noText : textOf (.toolResult id content) = none := rfl
        rw [List.filterMap_cons_none noText]
        simpa [userText] using appear_append (appear_flushText textParts) later.1
      · have answers : Answers (id, content) (id, text) := ⟨rfl, appear_toolContent joined⟩
        simpa [resultOf, answerOf, answerOf_flushText, List.filterMap_append] using ⟨answers, later.2.1⟩
      · simp [toolResultId]
    | thinking thinking => exact skip rfl rfl
    | image source => exact skip rfl rfl
    | toolUse id name input => exact skip rfl rfl

theorem convertUserBlocks_isSome [PyText] (textParts : List Str) (blocks : List MessageBlock) :
    (convertUserBlocks textParts blocks).isSome ↔
      ∀ id content, .toolResult id content ∈ blocks → (toolContent content).isSome := by
  induction blocks generalizing textParts with
  | nil => simp [convertUserBlocks]
  | cons block rest ih =>
    cases block with
    | toolResult id content =>
      have both : (convertUserBlocks textParts (.toolResult id content :: rest)).isSome ↔
          (toolContent content).isSome ∧ (convertUserBlocks [] rest).isSome := by
        simp only [convertUserBlocks]
        cases toolContent content <;> cases convertUserBlocks [] rest <;> simp
      rw [both, ih]
      constructor
      · intro all other value member
        rcases List.mem_cons.mp member with same | later
        · cases same
          exact all.1
        · exact all.2 other value later
      · intro all
        exact ⟨all id content List.mem_cons_self, fun other value later => all other value (List.mem_cons_of_mem _ later)⟩
    | text text => simpa [convertUserBlocks] using ih (textParts ++ [text])
    | thinking thinking => simpa [convertUserBlocks] using ih textParts
    | image source => simpa [convertUserBlocks] using ih textParts
    | toolUse id name input => simpa [convertUserBlocks] using ih textParts

/-- A message of the converted list in terms of calls and answers. -/
def exchange : OpenAIMessage → Exchange Str
  | .tool id _ => .answer id
  | .assistant _ calls _ => if calls = [] then .other else .call (calls.map ToolCall.id)
  | _ => .other

theorem exchange_of_isTool {msg : OpenAIMessage} : msg.IsTool ↔ ∃ id, exchange msg = .answer id := by
  cases msg with
  | tool id content => exact ⟨fun _ => ⟨id, rfl⟩, fun _ => trivial⟩
  | system content => simp [OpenAIMessage.IsTool, exchange]
  | user content => simp [OpenAIMessage.IsTool, exchange]
  | assistant content calls reasoning =>
    simp only [OpenAIMessage.IsTool, exchange, false_iff]
    split <;> simp

theorem exchange_eq_call {msg : OpenAIMessage} {ids : List Str} (is : exchange msg = .call ids) :
    ∃ content calls reasoning, msg = .assistant content calls reasoning ∧ ids = calls.map ToolCall.id := by
  cases msg with
  | tool id content => cases is
  | system content => cases is
  | user content => cases is
  | assistant content calls reasoning =>
    simp only [exchange] at is
    split at is
    · cases is
    · cases is
      exact ⟨content, calls, reasoning, rfl, rfl⟩

theorem toolMessageIds_of_answers {answers : List OpenAIMessage} {ids : List Str}
    (are : answers.map exchange = ids.map .answer) : answers.filterMap toolMessageId = ids := by
  induction answers generalizing ids with
  | nil =>
    cases ids with
    | nil => rfl
    | cons id ids => cases are
  | cons msg answers ih =>
    cases ids with
    | nil => cases are
    | cons id ids =>
      rw [List.map_cons, List.map_cons, List.cons.injEq] at are
      cases msg with
      | tool other content =>
        cases are.1
        have own : toolMessageId (.tool id content) = some id := rfl
        rw [List.filterMap_cons_some own, ih are.2]
      | system content => cases are.1
      | user content => cases are.1
      | assistant content calls reasoning =>
        rcases exchange_of_isTool.mpr ⟨id, are.1⟩

theorem isTool_of_answers {answers : List OpenAIMessage} {ids : List Str}
    (are : answers.map exchange = ids.map .answer) : ∀ msg ∈ answers, msg.IsTool := by
  intro msg member
  have image : exchange msg ∈ answers.map exchange := List.mem_map.mpr ⟨msg, member, rfl⟩
  rw [are] at image
  rcases List.mem_map.mp image with ⟨id, _, same⟩
  exact exchange_of_isTool.mpr ⟨id, same.symm⟩

theorem protocol_of_settled {out : List OpenAIMessage} (settled : Exchange.Settled exchange [] out) : Protocol out := by
  constructor
  · rintro before content calls reasoning after rfl some'
    have is : exchange (.assistant content calls reasoning) = .call (calls.map ToolCall.id) := by
      simp [exchange, some']
    rcases settled.after is with ⟨nodup, answers, rest, answered, split, are, perm, quiet⟩
    refine ⟨nodup, answers, rest, split, isTool_of_answers are, ?_, ?_⟩
    · rw [toolMessageIds_of_answers are]
      exact perm
    · intro next first tool
      rcases exchange_of_isTool.mp tool with ⟨id, answer⟩
      exact quiet next first id answer
  · rintro before id content after rfl
    have is : exchange (.tool id content) = .answer id := rfl
    rcases settled.caller is with absurd' | ⟨earlier, caller, ids, between, split, called, member, answers⟩
    · exact absurd absurd'.1 List.not_mem_nil
    · rcases exchange_eq_call called with ⟨text, calls, reasoning, rfl, rfl⟩
      refine ⟨earlier, text, calls, reasoning, between, split, member, ?_⟩
      intro msg between'
      exact exchange_of_isTool.mpr (answers msg between')

theorem exchange_flushText (textParts : List Str) : ∀ msg ∈ flushText textParts, exchange msg = .other := by
  intro msg member
  unfold flushText at member
  split at member
  · cases member
  · rw [List.mem_singleton.mp member]
    rfl

theorem exchange_of_noResults [PyText] {blocks : List MessageBlock} (none' : ∀ block ∈ blocks, toolResultId block = none) :
    ∀ {textParts : List Str} {out : List OpenAIMessage}, convertUserBlocks textParts blocks = some out →
    ∀ msg ∈ out, exchange msg = .other := by
  induction blocks with
  | nil =>
    intro textParts out converted
    cases converted
    exact exchange_flushText textParts
  | cons block rest ih =>
    intro textParts out converted
    have later := @ih fun other member => none' other (List.mem_cons_of_mem _ member)
    cases block with
    | text text =>
      rw [convertUserBlocks_text] at converted
      exact later converted
    | toolResult id content => cases none' _ List.mem_cons_self
    | thinking thinking => exact later converted
    | image source => exact later converted
    | toolUse id name input => exact later converted

theorem convertUserBlocks_resultsFirst [PyText] {results others : List MessageBlock}
    (first : ∀ block ∈ results, (toolResultId block).isSome) (none' : ∀ block ∈ others, toolResultId block = none)
    {out : List OpenAIMessage} (converted : convertUserBlocks [] (results ++ others) = some out) :
    ∃ answers texts, out = answers ++ texts ∧
      answers.map exchange = (results.filterMap toolResultId).map .answer ∧ ∀ msg ∈ texts, exchange msg = .other := by
  induction results generalizing out with
  | nil => exact ⟨[], out, rfl, rfl, exchange_of_noResults none' converted⟩
  | cons block results ih =>
    cases block with
    | toolResult id content =>
      rcases convertUserBlocks_result converted with ⟨text, more, _, after, rfl⟩
      rcases ih (fun other member => first other (List.mem_cons_of_mem _ member)) after with
        ⟨answers, texts, rfl, are, quiet⟩
      refine ⟨.tool id text :: answers, texts, rfl, ?_, quiet⟩
      have own : toolResultId (.toolResult id content) = some id := rfl
      rw [List.filterMap_cons_some own, List.map_cons, List.map_cons, are]
      rfl
    | text text => cases first _ List.mem_cons_self
    | thinking thinking => cases first _ List.mem_cons_self
    | image source => cases first _ List.mem_cons_self
    | toolUse id name input => cases first _ List.mem_cons_self

theorem filterMap_toolResultId {results others : List MessageBlock} (none' : ∀ block ∈ others, toolResultId block = none) :
    (results ++ others).filterMap toolResultId = results.filterMap toolResultId := by
  rw [List.filterMap_append, List.filterMap_eq_nil_iff.mpr none', List.append_nil]

/-- What a user message adds settles the calls that its results answer. -/
theorem settled_user [PyText] {includeReasoning : Bool} {msg : Message} {part : List OpenAIMessage} {pending : List Str}
    (user : msg.role = .user) (resultsFirst : ResultsFirst msg) (perm : (resultIds msg).Perm pending)
    (converted : convertMessage includeReasoning msg = some part) {out : List OpenAIMessage}
    (settled : Exchange.Settled exchange [] out) : Exchange.Settled exchange pending (part ++ out) := by
  rcases msg with ⟨role, content⟩
  subst user
  cases content with
  | text text =>
    cases converted
    have none' : pending = [] := List.nil_perm.mp perm
    subst none'
    exact (settled_other rfl).mpr ⟨rfl, settled⟩
  | blocks blocks =>
    rcases resultsFirst with ⟨results, others, split, first, none'⟩
    have same : blocks = results ++ others := split
    subst same
    rcases convertUserBlocks_resultsFirst first none' converted with ⟨answers, texts, rfl, are, quiet⟩
    rw [List.append_assoc]
    have ids : resultIds ⟨.user, .blocks (results ++ others)⟩ = results.filterMap toolResultId :=
      filterMap_toolResultId none'
    rw [ids] at perm
    exact settled_answers are perm _ (settled_others quiet settled)

theorem callIds_toolCalls (blocks : List MessageBlock) :
    (blocks.filterMap toolCall).map ToolCall.id = blocks.filterMap toolUseId := by
  rw [List.map_filterMap]
  apply List.filterMap_congr
  intro block _
  cases block <;> rfl

/-- What an assistant message adds makes its calls. -/
theorem convert_assistant [PyText] {includeReasoning : Bool} {msg : Message} {part : List OpenAIMessage}
    (assistant : msg.role = .assistant) (converted : convertMessage includeReasoning msg = some part) :
    ∃ content calls reasoning, part = [.assistant content calls reasoning] ∧ calls.map ToolCall.id = callIds msg := by
  rcases msg with ⟨role, content⟩
  subst assistant
  cases content with
  | text text =>
    cases converted
    exact ⟨text, [], none, rfl, rfl⟩
  | blocks blocks =>
    cases converted
    exact ⟨_, _, _, rfl, callIds_toolCalls blocks⟩

theorem settled_assistant {content : Str} {calls : List ToolCall} {reasoning : Option Str} {out : List OpenAIMessage}
    (nodup : (calls.map ToolCall.id).Nodup) (settled : Exchange.Settled exchange (calls.map ToolCall.id) out) :
    Exchange.Settled exchange [] (.assistant content calls reasoning :: out) := by
  by_cases none' : calls = []
  · subst none'
    exact (settled_other rfl).mpr ⟨rfl, settled⟩
  · have is : exchange (.assistant content calls reasoning) = .call (calls.map ToolCall.id) := by
      simp [exchange, none']
    exact (settled_call is).mpr ⟨rfl, nodup, settled⟩

theorem answered_nodup {messages : List Message} {pending : List Str} (answered : Answered pending messages) :
    pending.Nodup := by
  induction messages generalizing pending with
  | nil =>
    rw [show pending = [] from answered]
    exact List.nodup_nil
  | cons msg rest ih =>
    cases role : msg.role with
    | user =>
      rw [Answered, role] at answered
      exact answered.2.2.1
    | assistant =>
      rw [Answered, role] at answered
      exact (List.nodup_append.mp (ih answered)).1

/-- Calls that are followed by the user's message at once are settled in the converted list. -/
theorem settled_of_answered [PyText] {includeReasoning : Bool} {messages : List Message} :
    ∀ {pending : List Str} {parts : List (List OpenAIMessage)}, Answered pending messages →
    (∀ first ∈ messages.head?, pending ≠ [] → first.role = .user) →
    (∀ before caller next after, messages = before ++ caller :: next :: after → caller.role = .assistant →
      callIds caller ≠ [] → next.role = .user) →
    messages.mapM (convertMessage includeReasoning) = some parts → Exchange.Settled exchange pending parts.flatten := by
  induction messages with
  | nil =>
    intro pending parts answered _ _ converted
    cases converted
    exact answered
  | cons msg rest ih =>
    intro pending parts answered waits direct converted
    rcases mapM_cons_some converted with ⟨part, more, here, later, rfl⟩
    have directLater : ∀ before caller next after, rest = before ++ caller :: next :: after →
        caller.role = .assistant → callIds caller ≠ [] → next.role = .user := by
      rintro before caller next after rfl
      exact direct (msg :: before) caller next after rfl
    rw [List.flatten_cons]
    cases role : msg.role with
    | user =>
      rw [Answered, role] at answered
      have after := ih answered.2.2.2 (fun _ _ some' => absurd rfl some') directLater later
      exact settled_user role answered.1 answered.2.1 here after
    | assistant =>
      have none' : pending = [] := by
        by_cases some' : pending = []
        · exact some'
        · have user := waits msg rfl some'
          rw [role] at user
          cases user
      subst none'
      rw [Answered, role] at answered
      rcases convert_assistant role here with ⟨content, calls, reasoning, rfl, ids⟩
      have waitsLater : ∀ first ∈ rest.head?, callIds msg ≠ [] → first.role = .user := by
        intro first member some'
        cases rest with
        | nil => cases member
        | cons next after =>
          cases member
          exact direct [] msg first after rfl role some'
      have after := ih answered waitsLater directLater later
      have nodup := answered_nodup answered
      rw [List.nil_append, ← ids] at after nodup
      exact settled_assistant nodup after

theorem renders_of_convert [PyText] {includeReasoning : Bool} {msg : Message} {part : List OpenAIMessage}
    (decoded : ∀ id name input, .toolUse id name input ∈ blocksOf msg.content → (Json.object input).Decoded)
    (substantial : Substantial msg) (converted : convertMessage includeReasoning msg = some part) : Renders msg part := by
  rcases msg with ⟨role, content⟩
  cases role with
  | user =>
    cases content with
    | text text =>
      cases converted
      exact rfl
    | blocks blocks =>
      have spec := convertUserBlocks_spec converted
      exact ⟨spec.2.2.mpr (Or.inr (substantial rfl blocks rfl)), spec.1, spec.2.1⟩
  | assistant =>
    cases content with
    | text text =>
      cases converted
      exact rfl
    | blocks blocks =>
      cases converted
      rcases convertAssistantMessage_spec includeReasoning decoded with ⟨content, calls, reasoning, eq, kept⟩
      exact ⟨content, calls, reasoning, congrArg (fun msg => [msg]) eq, kept⟩

theorem substantial_of_renders [PyText] {includeReasoning : Bool} {msg : Message} {part : List OpenAIMessage}
    (converted : convertMessage includeReasoning msg = some part) (renders : Renders msg part) : Substantial msg := by
  intro user blocks has
  rcases msg with ⟨role, content⟩
  subst user has
  have spec := convertUserBlocks_spec converted
  rcases spec.2.2.mp renders.1 with none' | found
  · exact absurd rfl none'
  · exact found

theorem convertMessage_isSome [PyText] (includeReasoning : Bool) (msg : Message) :
    (convertMessage includeReasoning msg).isSome ↔ Readable msg := by
  rcases msg with ⟨role, content⟩
  cases role with
  | assistant => cases content <;> simp [convertMessage, Readable]
  | user =>
    cases content with
    | text text => simp [convertMessage, Readable, blocksOf]
    | blocks blocks =>
      have read := convertUserBlocks_isSome [] blocks
      simp only [toolContent_isSome] at read
      refine read.trans ⟨?_, ?_⟩
      · intro all _ id items member
        exact all id (.items items) member items rfl
      · rintro all id content member items rfl
        exact all rfl id items member

theorem forall₂_renders [PyText] {includeReasoning : Bool} {messages : List Message} {parts : List (List OpenAIMessage)}
    (decoded : ∀ msg ∈ messages, ∀ id name input, .toolUse id name input ∈ blocksOf msg.content →
      (Json.object input).Decoded)
    (converted : messages.mapM (convertMessage includeReasoning) = some parts) :
    List.Forall₂ Renders messages parts ↔ ∀ msg ∈ messages, Substantial msg := by
  induction messages generalizing parts with
  | nil =>
    cases converted
    simp
  | cons msg rest ih =>
    rcases mapM_cons_some converted with ⟨part, more, here, later, rfl⟩
    have rest' := ih (fun other member => decoded other (List.mem_cons_of_mem _ member)) later
    rw [List.forall₂_cons, List.forall_mem_cons, rest']
    constructor
    · intro both
      exact ⟨substantial_of_renders here both.1, both.2⟩
    · intro both
      exact ⟨renders_of_convert (decoded msg List.mem_cons_self) both.1 here, both.2⟩

/-- A call that is not followed by the user's message is not followed by its answer. -/
theorem direct_of_protocol [PyText] {includeReasoning : Bool} {messages : List Message} {parts : List (List OpenAIMessage)}
    (converted : messages.mapM (convertMessage includeReasoning) = some parts) (protocol : Protocol parts.flatten)
    (before : List Message) (caller next : Message) (after : List Message)
    (split : messages = before ++ caller :: next :: after) (assistant : caller.role = .assistant)
    (calls : callIds caller ≠ []) : next.role = .user := by
  subst split
  rcases mapM_append_some converted with ⟨early, late, _, tail, rfl⟩
  rcases mapM_cons_some tail with ⟨first, more, here, tail', rfl⟩
  rcases mapM_cons_some tail' with ⟨second, last, there, _, rfl⟩
  cases role : next.role with
  | user => rfl
  | assistant =>
    rcases convert_assistant assistant here with ⟨content, toolCalls, reasoning, rfl, ids⟩
    rcases convert_assistant role there with ⟨content', toolCalls', reasoning', rfl, _⟩
    have some' : toolCalls ≠ [] := by
      rintro rfl
      exact calls ids.symm
    rcases protocol.answered early.flatten content toolCalls reasoning
      (.assistant content' toolCalls' reasoning' :: last.flatten) (by simp) some' with
      ⟨_, answers, rest, split, tools, perm, _⟩
    cases answers with
    | nil =>
      have empty := List.nil_perm.mp perm
      rw [ids] at empty
      exact absurd empty calls
    | cons answer answers =>
      rw [List.cons_append, List.cons.injEq] at split
      have tool := tools answer List.mem_cons_self
      rw [← split.1] at tool
      cases tool

/-- A valid conversation is converted as it should be if and only if every user message has a text or a result, the
items of its results give texts, and every message with calls is followed by the user's message at once. -/
theorem converts_iff [PyText] (includeReasoning : Bool) (messages : List Message) (valid : Valid messages) :
    Converts includeReasoning messages ↔ Convertible messages := by
  constructor
  · rintro ⟨parts, converted, _, protocol, renders⟩
    refine ⟨(forall₂_renders valid.decoded converted).mp renders, ?_, direct_of_protocol converted protocol⟩
    have all : (messages.mapM (convertMessage includeReasoning)).isSome := by
      rw [converted]
      rfl
    intro msg member
    exact (convertMessage_isSome includeReasoning msg).mp ((mapM_isSome _ messages).mp all msg member)
  · intro convertible
    have all : (messages.mapM (convertMessage includeReasoning)).isSome :=
      (mapM_isSome _ messages).mpr fun msg member =>
        (convertMessage_isSome includeReasoning msg).mpr (convertible.readable msg member)
    rcases Option.isSome_iff_exists.mp all with ⟨parts, converted⟩
    have settled := settled_of_answered valid.answered (fun _ _ some' => absurd rfl some') convertible.direct converted
    refine ⟨parts, converted, ?_, protocol_of_settled settled,
      (forall₂_renders valid.decoded converted).mpr convertible.substantial⟩
    rw [convertMessages, converted]
    rfl

section Samples

attribute [local instance] PyText.ascii

def lookedUp : List Message :=
  [⟨.user, .text "Read a.txt".toList⟩,
    ⟨.assistant, .blocks [.thinking "One file.".toList, .text "Reading.".toList,
      .toolUse "call_1".toList "Read".toList [("path".toList, .string "a.txt".toList)]]⟩,
    ⟨.user, .blocks [.toolResult "call_1".toList (.text "content".toList), .text "Go on.".toList]⟩]

theorem valid_lookedUp : Valid lookedUp := by
  constructor
  · refine ⟨⟨[], [], rfl, by simp, by simp⟩, List.Perm.refl _, List.nodup_nil, ?_⟩
    refine ⟨⟨[.toolResult "call_1".toList (.text "content".toList)], [.text "Go on.".toList], rfl, ?_, ?_⟩, ?_, ?_, rfl⟩
    · simp [toolResultId]
    · simp [toolResultId]
    · exact List.Perm.refl _
    · exact List.nodup_singleton _
  · intro msg member id name input used
    simp only [lookedUp, List.mem_cons, List.not_mem_nil, or_false] at member
    rcases member with rfl | rfl | rfl
    · cases used
    · simp only [blocksOf, List.mem_cons, List.not_mem_nil, or_false, reduceCtorEq, false_or] at used
      cases used
      exact ⟨List.nodup_singleton _, trivial, trivial⟩
    · simp [blocksOf] at used

theorem converts_lookedUp : Converts true lookedUp := by
  apply (converts_iff true lookedUp valid_lookedUp).mpr
  refine ⟨?_, ?_, ?_⟩
  · intro msg member user blocks has
    simp only [lookedUp, List.mem_cons, List.not_mem_nil, or_false] at member
    rcases member with rfl | rfl | rfl
    · cases has
    · cases user
    · cases has
      exact ⟨_, List.mem_cons_self, Or.inr rfl⟩
  · intro msg member user id items result
    simp only [lookedUp, List.mem_cons, List.not_mem_nil, or_false] at member
    rcases member with rfl | rfl | rfl
    · cases result
    · cases user
    · simp [blocksOf] at result
  · intro before caller next after split assistant calls
    rcases before with _ | ⟨first, _ | ⟨second, before⟩⟩
    · cases split
      cases assistant
    · cases split
      rfl
    · have length := congrArg List.length split
      simp [lookedUp] at length
      omega

/-- A user message that shows an image and says nothing is left out. -/
theorem not_converts :
    Valid [⟨.user, .blocks [.image [("type".toList, .string "url".toList)]]⟩] ∧
    convertMessages false [⟨.user, .blocks [.image [("type".toList, .string "url".toList)]]⟩] = some [] ∧
    ¬ Converts false [⟨.user, .blocks [.image [("type".toList, .string "url".toList)]]⟩] := by
  refine ⟨⟨?_, ?_⟩, rfl, ?_⟩
  · exact ⟨⟨[], _, rfl, by simp, by simp [toolResultId]⟩, List.Perm.refl _, List.nodup_nil, rfl⟩
  · intro msg member id name input used
    rw [List.mem_singleton.mp member] at used
    simp [blocksOf] at used
  · rintro ⟨parts, converted, _, _, renders⟩
    cases converted
    rcases renders with _ | ⟨renders, _⟩
    exact renders.1 rfl

end Samples

/-- A system prompt in front does not change what the calls are followed by. -/
theorem Protocol.system {out : List OpenAIMessage} (protocol : Protocol out) (content : Str) :
    Protocol (.system content :: out) := by
  constructor
  · intro before text calls reasoning after split some'
    cases before with
    | nil => cases split
    | cons first before =>
      rw [List.cons_append, List.cons.injEq] at split
      exact protocol.answered before text calls reasoning after split.2 some'
  · intro before id text after split
    cases before with
    | nil => cases split
    | cons first before =>
      rw [List.cons_append, List.cons.injEq] at split
      rcases protocol.answers before id text after split.2 with
        ⟨earlier, said, calls, reasoning, between, rfl, member, tools⟩
      exact ⟨first :: earlier, said, calls, reasoning, between, rfl, member, tools⟩

/-- The body of a request holds the converted conversation behind the system prompt. -/
theorem buildBaseRequestBody_protocol [PyText] {includeReasoning : Bool} {request : MessagesRequest}
    (converts : Converts includeReasoning request.messages) (defaultMaxTokens : Option Int) :
    ∃ body, buildBaseRequestBody request defaultMaxTokens includeReasoning = some body ∧ Protocol body.messages := by
  rcases converts with ⟨parts, _, converted, protocol, _⟩
  rw [buildBaseRequestBody, converted]
  refine ⟨_, rfl, ?_⟩
  cases prompt : (request.system.filter givenSystem).bind convertSystemPrompt with
  | none => exact protocol
  | some msg =>
    rcases Option.bind_eq_some_iff.mp prompt with ⟨system, _, eq⟩
    cases system with
    | text text =>
      cases eq
      exact protocol.system text
    | blocks texts =>
      simp only [convertSystemPrompt] at eq
      split at eq
      · cases eq
      · cases eq
        exact protocol.system _

end ClaudeProxy.Providers
