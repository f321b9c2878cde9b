import ClaudeProxy.Api.AnthropicModels
import ClaudeProxy.Providers.StreamOrder

namespace ClaudeProxy.Api

open Kit Kit.Generator Providers

/-- The special tokens of `cl100k_base`. -/
def specialTokens : List Str :=
  ["<|endoftext|>", "<|fim_prefix|>", "<|fim_middle|>", "<|fim_suffix|>", "<|endofprompt|>"].map String.toList

def HasSpecial (text : Str) : Prop := ∃ token ∈ specialTokens, token <:+: text

instance (text : Str) : Decidable (HasSpecial text) := inferInstanceAs (Decidable (∃ token ∈ specialTokens, token <:+: text))

/-- `len(ENCODER.encode(text))`, which raises for the spelling of a special token and for nothing else. -/
structure Tokenizer where
  count : Str → Option Nat
  raises : ∀ text, count text = none ↔ HasSpecial text

/-- `total_tokens += cost(item)` over a list; `none` where one of them raises. -/
def sumTokens {α : Type} (cost : α → Option Nat) : List α → Option Nat
  | [] => some 0
  | item :: rest => do
    let first ← cost item
    let more ← sumTokens cost rest
    return first + more

/-- `source.get("data") or source.get("base64") or ""` -/
def imageData (source : Members) : Json :=
  let data := Json.get source "data" .null
  let base64 := Json.get source "base64" .null
  if data.isTruthy then data else if base64.isTruthy then base64 else .string []

/-- `len` of a decoded value; `none` is the `TypeError` of a value that has no length. -/
def sizeOf : Json → Option Nat
  | .string value => some value.length
  | .array items => some items.length
  | .object members => some members.length
  | _ => none

def imageTokens (source : Members) : Option Nat :=
  let data := imageData source
  if data.isTruthy then do
    let size ← sizeOf data
    return max 85 (size / 3000)
  else some 765

def ResultContent.encoded : ResultContent → Str
  | .text value => value
  | .items values => (Json.array values).dumps
  | .members values => (Json.object values).dumps

def blockTokens (encode : Str → Option Nat) : MessageBlock → Option Nat
  | .text text => encode text
  | .thinking thinking => encode thinking
  | .toolUse id name input => do
    let nameTokens ← encode name
    let inputTokens ← encode (Json.object input).dumps
    let idTokens ← encode id
    return nameTokens + inputTokens + idTokens + 15
  | .image source => imageTokens source
  | .toolResult toolUseId content => do
    let contentTokens ← encode content.encoded
    let idTokens ← encode toolUseId
    return contentTokens + idTokens + 8

def contentTokens (encode : Str → Option Nat) : MessageContent → Option Nat
  | .text text => encode text
  | .blocks blocks => sumTokens (blockTokens encode) blocks

/-- Nothing is added for an empty prompt, nor for an empty text of one. -/
def systemTokens (encode : Str → Option Nat) : Option SystemPrompt → Option Nat
  | none => some 0
  | some (.text []) => some 0
  | some (.text text) => (encode text).map (· + 4)
  | some (.blocks []) => some 0
  | some (.blocks texts) => (sumTokens encode (texts.filter (· ≠ []))).map (· + 4)

def toolText (tool : Tool) : Str := tool.name ++ tool.description.getD [] ++ (Json.object tool.inputSchema).dumps

def getTokenCount (encode : Str → Option Nat) (messages : List Message) (system : Option SystemPrompt)
    (tools : Option (List Tool)) : Option Nat := do
  let system ← systemTokens encode system
  let contents ← sumTokens (fun msg : Message => contentTokens encode msg.content) messages
  let schemas ← sumTokens (fun tool => encode (toolText tool)) (tools.getD [])
  return max 1 (system + contents + schemas + messages.length * 4 + (tools.getD []).length * 5)

/-- What a block has to meet to be counted: its texts are free of special tokens, its image data has a length. -/
def MessageBlock.Countable : MessageBlock → Prop
  | .text value => ¬ HasSpecial value
  | .thinking value => ¬ HasSpecial value
  | .toolUse id name input => ¬ HasSpecial name ∧ ¬ HasSpecial (Json.object input).dumps ∧ ¬ HasSpecial id
  | .image source => (imageData source).isTruthy → (sizeOf (imageData source)).isSome
  | .toolResult toolUseId content => ¬ HasSpecial content.encoded ∧ ¬ HasSpecial toolUseId

def MessageContent.Countable : MessageContent → Prop
  | .text value => ¬ HasSpecial value
  | .blocks values => ∀ block ∈ values, block.Countable

def SystemPrompt.Countable : SystemPrompt → Prop
  | .text value => ¬ HasSpecial value
  | .blocks values => ∀ text ∈ values, ¬ HasSpecial text

/-- A condition on a request alone. -/
structure Countable (messages : List Message) (system : Option SystemPrompt) (tools : Option (List Tool)) : Prop where
  system : ∀ prompt, system = some prompt → prompt.Countable
  messages : ∀ msg ∈ messages, msg.content.Countable
  tools : ∀ tool ∈ tools.getD [], ¬ HasSpecial (toolText tool)

theorem not_hasSpecial_nil : ¬ HasSpecial [] := by decide

theorem sumTokens_isSome {α : Type} (cost : α → Option Nat) (items : List α) :
    (sumTokens cost items).isSome ↔ ∀ item ∈ items, (cost item).isSome := by
  induction items with
  | nil => simp [sumTokens]
  | cons item rest ih =>
    rw [List.forall_mem_cons, ← ih]
    cases first : cost item with
    | none => simp [sumTokens, first]
    | some n => cases more : sumTokens cost rest <;> simp [sumTokens, first, more]

variable (tokenizer : Tokenizer)

theorem Tokenizer.count_isSome (text : Str) : (tokenizer.count text).isSome ↔ ¬ HasSpecial text := by
  rw [← tokenizer.raises, Option.isSome_iff_ne_none]

theorem blockTokens_isSome (block : MessageBlock) :
    (blockTokens tokenizer.count block).isSome ↔ block.Countable := by
  cases block with
  | text text => exact tokenizer.count_isSome text
  | thinking thinking => exact tokenizer.count_isSome thinking
  | image source =>
    simp only [blockTokens, imageTokens, MessageBlock.Countable]
    split
    · rename_i truthy
      cases sizeOf (imageData source) <;> simp [truthy]
    · rename_i falsy
      simp [falsy]
  | toolUse id name input =>
    simp only [MessageBlock.Countable, ← tokenizer.count_isSome, blockTokens]
    cases tokenizer.count name <;> cases tokenizer.count (Json.object input).dumps <;> cases tokenizer.count id <;> simp
  | toolResult toolUseId content =>
    simp only [MessageBlock.Countable, ← tokenizer.count_isSome, blockTokens]
    cases tokenizer.count content.encoded <;> cases tokenizer.count toolUseId <;> simp

theorem contentTokens_isSome (content : MessageContent) :
    (contentTokens tokenizer.count content).isSome ↔ content.Countable := by
  cases content with
  | text text => exact tokenizer.count_isSome text
  | blocks blocks =>
    rw [contentTokens, sumTokens_isSome]
    simp only [blockTokens_isSome]
    rfl

theorem systemTokens_isSome (system : Option SystemPrompt) :
    (systemTokens tokenizer.count system).isSome ↔ ∀ prompt, system = some prompt → prompt.Countable := by
  cases system with
  | none => simp [systemTokens]
  | some prompt =>
    have only : (∀ p, some prompt = some p → p.Countable) ↔ prompt.Countable := by simp
    rw [only]
    rcases prompt with (_ | ⟨c, rest⟩) | (_ | ⟨text, rest⟩)
    · simp [systemTokens, SystemPrompt.Countable, not_hasSpecial_nil]
    · rw [systemTokens, Option.isSome_map]
      · exact tokenizer.count_isSome _
      · simp
    · simp [systemTokens, SystemPrompt.Countable]
    · rw [systemTokens, Option.isSome_map, sumTokens_isSome]
      · simp only [tokenizer.count_isSome, SystemPrompt.Countable]
        constructor
        · intro nonempty text member special
          by_cases empty : text = []
          · rw [empty] at special
            exact not_hasSpecial_nil special
          · exact nonempty text (List.mem_filter.mpr ⟨member, by simpa using empty⟩) special
        · intro all text member
          exact all text (List.mem_filter.mp member).1
      · simp

theorem getTokenCount_isSome (messages : List Message) (system : Option SystemPrompt) (tools : Option (List Tool)) :
    (getTokenCount tokenizer.count messages system tools).isSome ↔ Countable messages system tools := by
  have parts : (getTokenCount tokenizer.count messages system tools).isSome ↔
      (systemTokens tokenizer.count system).isSome ∧
      (sumTokens (fun msg : Message => contentTokens tokenizer.count msg.content) messages).isSome ∧
      (sumTokens (fun tool => tokenizer.count (toolText tool)) (tools.getD [])).isSome := by
    unfold getTokenCount
    cases systemTokens tokenizer.count system with
    | none => simp
    | some n =>
      cases sumTokens (fun msg : Message => contentTokens tokenizer.count msg.content) messages with
      | none => simp
      | some m => cases sumTokens (fun tool => tokenizer.count (toolText tool)) (tools.getD []) <;> simp
  rw [parts, systemTokens_isSome, sumTokens_isSome, sumTokens_isSome]
  simp only [contentTokens_isSome, tokenizer.count_isSome]
  constructor
  · intro all
    exact ⟨all.1, all.2.1, all.2.2⟩
  · intro all
    exact ⟨all.system, all.messages, all.tools⟩

structure Plain (sse : SSEBuilder) : Prop where
  text : ¬ HasSpecial sse.accumulatedText
  reasoning : ¬ HasSpecial sse.accumulatedReasoning
  tools : ∀ state ∈ sse.blocks.toolStates.values, ¬ HasSpecial state.name ∧ ¬ HasSpecial state.contents.flatten

/-- The surroundings of a stream with the token counter of `tiktoken`, where that is installed. -/
def withTokenizer (rt : Providers.Runtime) (tokenizer : Option Tokenizer) : Providers.Runtime :=
  { rt with encoder := tokenizer.map Tokenizer.count }

/-- The stream as it stands when the usage is to be reported. -/
def beforeEnd (provider : Provider) (rt : Providers.Runtime) (model : Str) (inputTokens : Int) (requestId : Option Str)
    (upstream : Upstream) : Stream :=
  (streamBody provider rt requestId upstream (startStream rt model inputTokens)).state

def Completes (outcome : Kit.Outcome Event Stream PyException Unit) : Prop :=
  outcome.result = .ok () ∧ ∃ sent stopReason input output,
    outcome.yielded = sent ++ [.messageDelta stopReason input output, .messageStop]

theorem estimateOutputTokens_isSome_iff (rt : Providers.Runtime) (tokenizer : Option Tokenizer) (sse : SSEBuilder) :
    (sse.estimateOutputTokens (withTokenizer rt tokenizer)).isSome ↔ tokenizer = none ∨ Plain sse := by
  cases tokenizer with
  | none => simp [SSEBuilder.estimateOutputTokens, withTokenizer]
  | some tokenizer =>
    rw [Providers.estimateOutputTokens_isSome_iff rfl sse]
    simp only [tokenizer.count_isSome, reduceCtorEq, false_or]
    constructor
    · intro all
      exact ⟨all.1, all.2.1, all.2.2⟩
    · intro plain
      exact ⟨plain.text, plain.reasoning, plain.tools⟩

/-- Nothing before the final count can end the stream. -/
theorem streamResponseImpl_eq (provider : Provider) (rt : Providers.Runtime) (model : Str) (inputTokens : Int)
    (requestId : Option Str) (upstream : Upstream) :
    let s := beforeEnd provider rt model inputTokens requestId upstream
    ∃ sent, streamResponseImpl provider rt model inputTokens requestId upstream =
      match outputTokens rt s with
      | none => ⟨sent, s, .error encoderError⟩
      | some tokens =>
        ⟨sent ++ [s.sse.messageDelta (mapStopReason s.finishReason) tokens, .messageStop], s, .ok ()⟩ := by
  intro s
  have body : Triple InOrder (streamBody provider rt requestId upstream) (fun _ => Settled) (fun _ _ => False) :=
    streamBody_triple provider rt requestId upstream
  obtain ⟨done, ended, _⟩ := body.ends _ _ (startStream_inOrder rt model inputTokens)
  refine ⟨(startStream rt model inputTokens).sse.messageStart ::
    (streamBody provider rt requestId upstream (startStream rt model inputTokens)).yielded, ?_⟩
  have state : (streamBody provider rt requestId upstream (startStream rt model inputTokens)).state = s := rfl
  unfold streamResponseImpl
  simp only [Bind.bind, emit]
  revert ended state
  rcases streamBody provider rt requestId upstream (startStream rt model inputTokens) with ⟨yielded, last, result⟩
  intro ended state
  dsimp only at ended state
  subst ended state
  simp only [endMessage, emitOr]
  cases outputTokens rt s <;> simp

theorem completes_iff (rt : Providers.Runtime) (tokenizer : Option Tokenizer) (provider : Provider) (model : Str)
    (inputTokens : Int) (requestId : Option Str) (upstream : Upstream) :
    let last := beforeEnd provider (withTokenizer rt tokenizer) model inputTokens requestId upstream
    Completes (streamResponseImpl provider (withTokenizer rt tokenizer) model inputTokens requestId upstream) ↔
      (last.usageInfo.bind (·.completionTokens)).isSome ∨ tokenizer = none ∨ Plain last.sse := by
  intro last
  obtain ⟨sent, eq⟩ := streamResponseImpl_eq provider (withTokenizer rt tokenizer) model inputTokens requestId upstream
  have counted : (outputTokens (withTokenizer rt tokenizer) last).isSome ↔
      (last.usageInfo.bind (·.completionTokens)).isSome ∨ tokenizer = none ∨ Plain last.sse := by
    unfold outputTokens
    cases reported : last.usageInfo.bind (·.completionTokens) with
    | some tokens => simp
    | none => simpa using estimateOutputTokens_isSome_iff rt tokenizer last.sse
  rw [← counted, eq]
  change Completes (match outputTokens (withTokenizer rt tokenizer) last with
    | none => _
    | some tokens => _) ↔ _
  cases outputTokens (withTokenizer rt tokenizer) last with
  | none => simp [Completes]
  | some tokens => simpa [Completes] using ⟨sent, _, _, _, rfl⟩

/-- Requests are counted, answers are estimated and streams run to their end unless a text spells a special token. -/
theorem counted_iff (rt : Providers.Runtime) (tokenizer : Tokenizer) :
    (∀ messages system tools,
      (getTokenCount tokenizer.count messages system tools).isSome ↔ Countable messages system tools) ∧
    (∀ (estimator : Option Tokenizer) sse,
      (sse.estimateOutputTokens (withTokenizer rt estimator)).isSome ↔ estimator = none ∨ Plain sse) ∧
    ∀ (estimator : Option Tokenizer) provider model inputTokens requestId upstream,
      let last := beforeEnd provider (withTokenizer rt estimator) model inputTokens requestId upstream
      Completes (streamResponseImpl provider (withTokenizer rt estimator) model inputTokens requestId upstream) ↔
        (last.usageInfo.bind (·.completionTokens)).isSome ∨ estimator = none ∨ Plain last.sse := by
  refine ⟨getTokenCount_isSome tokenizer, estimateOutputTokens_isSome_iff rt, ?_⟩
  intro estimator provider model inputTokens requestId upstream
  exact completes_iff rt estimator provider model inputTokens requestId upstream

def perCharacter : Tokenizer where
  count text := if HasSpecial text then none else some text.length
  raises text := by
    by_cases special : HasSpecial text <;> simp [special]

/-- A user's text and a model's reasoning that write out the end-of-text token: the answer is sent and left without an
    end. -/
theorem not_counted :
    getTokenCount perCharacter.count [⟨.user, .text "Explain <|endoftext|>".toList⟩] none none = none ∧
    let rt : Providers.Runtime := withTokenizer
      ⟨fun _ => "uuid".toList, fun _ => "0123456789".toList, fun _ => none, fun _ => [], none⟩ (some perCharacter)
    let upstream : Upstream := ⟨[⟨none, [⟨some ⟨some "<|endoftext|>".toList, [], some "Done.".toList, []⟩, none⟩]⟩], none⟩
    let outcome := streamResponseImpl ⟨false, none⟩ rt "model".toList 10 none upstream
    outcome.result.toBool = false ∧ .messageStop ∉ outcome.yielded ∧
      .contentBlockDelta 1 (.textDelta "Done.".toList) ∈ outcome.yielded := by
  refine ⟨by decide, ?_⟩
  decide

end ClaudeProxy.Api
