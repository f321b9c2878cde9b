import ClaudeProxy.Providers.OpenAICompat
import ClaudeProxy.Providers.TextHold
import ClaudeProxy.Providers.ThinkScan

namespace ClaudeProxy.Providers

open Kit Kit.Generator

def textDelta : Event → Str
  | .contentBlockDelta _ (.textDelta text) => text
  | _ => []

def thinkingDelta : Event → Str
  | .contentBlockDelta _ (.thinkingDelta thinking) => thinking
  | _ => []

def textDeltas (events : List Event) : Str := events.flatMap textDelta

def thinkingDeltas (events : List Event) : Str := events.flatMap thinkingDelta

def ofType (type : ContentType) (chunks : List ContentChunk) : Str :=
  (chunks.filter fun chunk => chunk.type = type).flatMap (·.content)

/-- The text of a split model output, with a space in place of an empty answer. -/
def Delivered (contents : List Str) (events : List Event) : Prop :=
  let scanned := scan false 0 contents.flatten
  let text := ofType .text scanned
  thinkingDeltas events = ofType .thinking scanned ∧ textDeltas events = if text = [] then [' '] else text

instance (contents : List Str) (events : List Event) : Decidable (Delivered contents events) :=
  inferInstanceAs (Decidable (_ ∧ _))

def Chunk.delta (chunk : Chunk) : Option ChoiceDelta := chunk.choices.head?.bind (·.delta)

def Chunk.content (chunk : Chunk) : Str := (chunk.delta.bind (·.content)).getD []

def Chunk.ContentOnly (chunk : Chunk) : Prop :=
  ∀ delta ∈ chunk.delta, given delta.reasoningContent = false ∧ delta.reasoningDetails = [] ∧ delta.toolCalls = []

def textsOf (chunks : List ContentChunk) : List Str :=
  (chunks.filter fun chunk => chunk.type = .text).map (·.content)

/-- What the think parser passes on as text before its own flush. -/
def textPieces (contents : List Str) : List Str := textsOf (ThinkTagParser.new.feedAll contents).1

theorem textDeltas_append (events more : List Event) : textDeltas (events ++ more) = textDeltas events ++ textDeltas more :=
  List.flatMap_append

theorem thinkingDeltas_append (events more : List Event) :
    thinkingDeltas (events ++ more) = thinkingDeltas events ++ thinkingDeltas more :=
  List.flatMap_append

theorem ofType_append (type : ContentType) (chunks more : List ContentChunk) :
    ofType type (chunks ++ more) = ofType type chunks ++ ofType type more := by
  rw [ofType, List.filter_append, List.flatMap_append]
  rfl

theorem textsOf_append (chunks more : List ContentChunk) : textsOf (chunks ++ more) = textsOf chunks ++ textsOf more := by
  rw [textsOf, List.filter_append, List.map_append]
  rfl

theorem ofType_plain (type kind : ContentType) (s : Str) : ofType type (plain kind s) = if kind = type then s else [] := by
  induction s with
  | nil => split <;> rfl
  | cons c rest ih =>
    have split : plain kind (c :: rest) = [⟨kind, [c]⟩] ++ plain kind rest := rfl
    rw [split, ofType_append, ih]
    by_cases same : kind = type <;> simp [ofType, same]

theorem ofType_pieces (type : ContentType) (chunks : List ContentChunk) :
    ofType type (pieces chunks) = ofType type chunks := by
  induction chunks with
  | nil => rfl
  | cons chunk rest ih =>
    have split : pieces (chunk :: rest) = plain chunk.type chunk.content ++ pieces rest := rfl
    have split' : chunk :: rest = [chunk] ++ rest := rfl
    rw [split, split', ofType_append, ofType_append, ih, ofType_plain]
    by_cases same : chunk.type = type <;> simp [ofType, same]

theorem ThinkTagParser.feed_nil {p : ThinkTagParser} (halted : p.Halted) : p.feed [] = ([], p) := by
  obtain ⟨buffer, inThink⟩ := p
  cases buffer with
  | nil => rfl
  | cons c rest =>
    have stuck := halted.resolve_left (List.cons_ne_nil c rest)
    simp [feed, feedLoop, stuck]

theorem HeuristicToolParser.feedAll_append (p : HeuristicToolParser) (texts more : List Str) :
    (p.feedAll (texts ++ more)).1 = (p.feedAll texts).1 ++ ((p.feedAll texts).2.2.feedAll more).1 ∧
      (p.feedAll (texts ++ more)).2.2 = ((p.feedAll texts).2.2.feedAll more).2.2 := by
  induction texts generalizing p with
  | nil => exact ⟨rfl, rfl⟩
  | cons text rest ih =>
    obtain ⟨filtered, last⟩ := ih (p.feed text).2.2
    refine ⟨?_, last⟩
    change (p.feed text).1 ++ ((p.feed text).2.2.feedAll (rest ++ more)).1 = _
    rw [filtered, ← List.append_assoc]
    rfl

/-- The block manager of a stream without native tool calls that has shown this text. -/
structure Ready (text : Str) (blocks : ContentBlockManager) : Prop where
  tools : blocks.toolStates.entries = []
  began : text = [] ↔ blocks.textIndex = -1
  started : blocks.textStarted = true → blocks.textIndex ≠ -1
  next : 0 ≤ blocks.nextIndex

/-- What was shown so far, and where the two parsers are. -/
structure Shown (thinking text : Str) (parser : ThinkTagParser) (heuristic : HeuristicToolParser) (sent : List Event)
    (s : Stream) : Prop where
  thought : thinkingDeltas sent = thinking
  told : textDeltas sent = text
  parser : s.thinkParser = parser
  heuristic : s.heuristicParser = heuristic
  calm : s.errorOccurred = false
  ready : Ready text s.sse.blocks

/-- An act on the builder that shows the given thinking and text. -/
def Shows (text : Str) (act : SSEBuilder → List Event × SSEBuilder) (thinking' text' : Str) : Prop :=
  ∀ sse, Ready text sse.blocks →
    thinkingDeltas (act sse).1 = thinking' ∧ textDeltas (act sse).1 = text' ∧ Ready (text ++ text') (act sse).2.blocks

variable {text thinking' text' more more' : Str} {first second : SSEBuilder → List Event × SSEBuilder}

theorem Shows.andThen (one : Shows text first thinking' text') (two : Shows (text ++ text') second more more') :
    Shows text (SSEBuilder.andThen first second) (thinking' ++ more) (text' ++ more') := by
  intro sse ready
  obtain ⟨thought, told, ready'⟩ := one sse ready
  obtain ⟨thought', told', ready''⟩ := two (first sse).2 ready'
  refine ⟨?_, ?_, ?_⟩
  · rw [SSEBuilder.andThen, thinkingDeltas_append, thought, thought']
  · rw [SSEBuilder.andThen, textDeltas_append, told, told']
  · rw [← List.append_assoc]
    exact ready''

theorem Shows.ite {test : SSEBuilder → Prop} [DecidablePred test] (yes : Shows text first thinking' text')
    (no : Shows text second thinking' text') :
    Shows text (fun sse => if test sse then first sse else second sse) thinking' text' := by
  intro sse ready
  dsimp only
  split
  · exact yes sse ready
  · exact no sse ready

theorem nothing_shows : Shows text SSEBuilder.nothing [] [] := by
  intro sse ready
  rw [List.append_nil]
  exact ⟨rfl, rfl, ready⟩

theorem stopThinkingBlock_shows : Shows text SSEBuilder.stopThinkingBlock [] [] := by
  intro sse ready
  rw [List.append_nil]
  exact ⟨rfl, rfl, ready.tools, ready.began, ready.started, ready.next⟩

theorem stopTextBlock_shows : Shows text SSEBuilder.stopTextBlock [] [] := by
  intro sse ready
  rw [List.append_nil]
  exact ⟨rfl, rfl, ready.tools, ready.began, nofun, ready.next⟩

theorem startThinkingBlock_shows : Shows text SSEBuilder.startThinkingBlock [] [] := by
  intro sse ready
  rw [List.append_nil]
  exact ⟨rfl, rfl, ready.tools, ready.began, ready.started, Int.le_trans ready.next (Int.le_add_one (Int.le_refl _))⟩

theorem emitThinkingDelta_shows (content : Str) : Shows text (SSEBuilder.emitThinkingDelta content) content [] := by
  intro sse ready
  rw [List.append_nil]
  exact ⟨List.append_nil _, rfl, ready.tools, ready.began, ready.started, ready.next⟩

theorem closeContentBlocks_shows : Shows text SSEBuilder.closeContentBlocks [] [] :=
  Shows.andThen (Shows.ite stopThinkingBlock_shows nothing_shows)
    (by rw [List.append_nil]; exact Shows.ite stopTextBlock_shows nothing_shows)

theorem ensureThinkingBlock_shows : Shows text SSEBuilder.ensureThinkingBlock [] [] :=
  Shows.andThen (Shows.ite stopTextBlock_shows nothing_shows)
    (by rw [List.append_nil]; exact Shows.ite startThinkingBlock_shows nothing_shows)

theorem toolBlock_shows (rt : Runtime) (tool : ToolUse) : Shows text (toolBlock rt tool) [] [] := by
  intro sse ready
  rw [List.append_nil]
  exact ⟨rfl, rfl, ready.tools, ready.began, ready.started, Int.le_trans ready.next (Int.le_add_one (Int.le_refl _))⟩

theorem textBlock_shows {content : Str} (full : content ≠ []) :
    Shows text (SSEBuilder.andThen SSEBuilder.ensureTextBlock (SSEBuilder.emitTextDelta content)) [] content := by
  have opened (sse : SSEBuilder) (ready : Ready text sse.blocks) :
      let opening : List Event × SSEBuilder := if ¬ sse.blocks.textStarted then sse.startTextBlock else sse.nothing
      thinkingDeltas opening.1 = [] ∧ textDeltas opening.1 = [] ∧ opening.2.blocks.toolStates.entries = [] ∧
        opening.2.blocks.textIndex ≠ -1 ∧ 0 ≤ opening.2.blocks.nextIndex := by
    have next := ready.next
    by_cases started : sse.blocks.textStarted = true
    · simp only [started, not_true, if_false]
      exact ⟨rfl, rfl, ready.tools, ready.started started, next⟩
    · simp only [started]
      refine ⟨rfl, rfl, ready.tools, ?_, ?_⟩
      · change sse.blocks.nextIndex ≠ -1
        omega
      · change 0 ≤ sse.blocks.nextIndex + 1
        omega
  intro sse ready
  have closing : Shows text (fun sse => if sse.blocks.thinkingStarted then sse.stopThinkingBlock else sse.nothing) [] [] :=
    Shows.ite stopThinkingBlock_shows nothing_shows
  obtain ⟨thought, told, ready'⟩ := closing sse ready
  rw [List.append_nil] at ready'
  obtain ⟨thought', told', tools, index, next⟩ := opened _ ready'
  have some' : text ++ content ≠ [] := by simp [full]
  refine ⟨?_, ?_, tools, iff_of_false some' index, fun _ => index, next⟩
  · simp only [SSEBuilder.andThen, SSEBuilder.ensureTextBlock, thinkingDeltas_append]
    rw [thought, thought']
    rfl
  · simp only [SSEBuilder.andThen, SSEBuilder.ensureTextBlock, textDeltas_append]
    rw [told, told']
    exact List.append_nil _

variable {parser parser' : ThinkTagParser} {heuristic heuristic' : HeuristicToolParser} {thinking : Str}
  {fail : List Event → Stream → Prop}

theorem onSse_shown (shows : Shows text first thinking' text') : Triple (Shown thinking text parser heuristic) (onSse first)
    (fun _ => Shown (thinking ++ thinking') (text ++ text') parser heuristic) fail := by
  apply Triple.emit
  intro sent s shown
  obtain ⟨thought, told, ready⟩ := shows s.sse shown.ready
  refine ⟨?_, ?_, shown.parser, shown.heuristic, shown.calm, ready⟩
  · rw [thinkingDeltas_append, shown.thought]
    exact congrArg _ thought
  · rw [textDeltas_append, shown.told]
    exact congrArg _ told

theorem onSse_quiet (shows : Shows text first [] []) : Triple (Shown thinking text parser heuristic) (onSse first)
    (fun _ => Shown thinking text parser heuristic) fail := by
  have quiet : Triple (Shown thinking text parser heuristic) (onSse first)
      (fun _ => Shown (thinking ++ []) (text ++ []) parser heuristic) fail := onSse_shown shows
  rwa [List.append_nil, List.append_nil] at quiet

theorem modify_shown {change : Stream → Stream}
    (same : ∀ s, (change s).sse = s.sse ∧ (change s).errorOccurred = s.errorOccurred ∧
    (change s).thinkParser = s.thinkParser ∧ (change s).heuristicParser = s.heuristicParser) :
    Triple (Shown thinking text parser heuristic) (modify change : Gen Unit) (fun _ => Shown thinking text parser heuristic)
      fail := by
  apply Triple.modify
  intro sent s shown
  obtain ⟨sse, calm, think, tool⟩ := same s
  exact ⟨shown.thought, shown.told, think.trans shown.parser, tool.trans shown.heuristic, calm.trans shown.calm,
    sse ▸ shown.ready⟩

theorem setThinkParser_shown (parser' : ThinkTagParser) : Triple (Shown thinking text parser heuristic)
    (modify fun s => { s with thinkParser := parser' } : Gen Unit) (fun _ => Shown thinking text parser' heuristic) fail :=
  Triple.modify fun _ _ shown => ⟨shown.thought, shown.told, rfl, shown.heuristic, shown.calm, shown.ready⟩

theorem setHeuristicParser_shown (heuristic' : HeuristicToolParser) : Triple (Shown thinking text parser heuristic)
    (modify fun s => { s with heuristicParser := heuristic' } : Gen Unit)
    (fun _ => Shown thinking text parser heuristic') fail :=
  Triple.modify fun _ _ shown => ⟨shown.thought, shown.told, shown.parser, rfl, shown.calm, shown.ready⟩

theorem read_shown {α : Type} {body : Stream → Gen α} {post : α → List Event → Stream → Prop}
    (shows : ∀ s, s.thinkParser = parser → s.heuristicParser = heuristic → s.errorOccurred = false →
      Ready text s.sse.blocks →
      Triple (Shown thinking text parser heuristic) (body s) post fail) :
    Triple (Shown thinking text parser heuristic) (current >>= body) post fail := by
  refine Triple.bind Triple.current fun s => ?_
  have known (sent : List Event) (s' : Stream) (both : s = s' ∧ Shown thinking text parser heuristic sent s') :
      s.thinkParser = parser ∧ s.heuristicParser = heuristic ∧ s.errorOccurred = false ∧ Ready text s.sse.blocks := by
    obtain ⟨rfl, shown⟩ := both
    exact ⟨shown.parser, shown.heuristic, shown.calm, shown.ready⟩
  refine Triple.given known fun ⟨think, tool, calm, ready⟩ => ?_
  exact (shows s think tool calm ready).before fun _ _ both => both.2

theorem emitThinking_shown (content : Str) : Triple (Shown thinking text parser heuristic) (emitThinking content)
    (fun _ => Shown (thinking ++ content) text parser heuristic) fail := by
  refine Triple.bind (onSse_quiet ensureThinkingBlock_shows) fun _ => ?_
  have shows : Triple (Shown thinking text parser heuristic) (onSse (SSEBuilder.emitThinkingDelta content))
      (fun _ => Shown (thinking ++ content) (text ++ []) parser heuristic) fail :=
    onSse_shown (emitThinkingDelta_shows content)
  rwa [List.append_nil] at shows

theorem emitText_shown {content : Str} (full : content ≠ []) : Triple (Shown thinking text parser heuristic)
    (emitText content) (fun _ => Shown thinking (text ++ content) parser heuristic) fail := by
  have joined : emitText content =
      onSse (SSEBuilder.andThen SSEBuilder.ensureTextBlock (SSEBuilder.emitTextDelta content)) := rfl
  have shows : Triple (Shown thinking text parser heuristic)
      (onSse (SSEBuilder.andThen SSEBuilder.ensureTextBlock (SSEBuilder.emitTextDelta content)))
      (fun _ => Shown (thinking ++ []) (text ++ content) parser heuristic) fail := onSse_shown (textBlock_shows full)
  rw [List.append_nil] at shows
  rw [joined]
  exact shows

theorem emitTools_shown (rt : Runtime) (tools : List ToolUse) : Triple (Shown thinking text parser heuristic)
    (forEach tools (emitTool rt)) (fun _ => Shown thinking text parser heuristic) fail :=
  Triple.forEach fun tool _ =>
    Triple.bind (onSse_quiet closeContentBlocks_shows) fun _ => onSse_quiet (toolBlock_shows rt tool)

theorem handleText_shown (rt : Runtime) (content : Str) : Triple (Shown thinking text parser heuristic)
    (handlePart rt ⟨.text, content⟩)
    (fun _ => Shown thinking (text ++ (heuristic.feed content).1) parser (heuristic.feed content).2.2) fail := by
  refine read_shown fun s _ tool _ _ => ?_
  rw [tool]
  have filtered : Triple (Shown thinking text parser (heuristic.feed content).2.2)
      (whenever ((heuristic.feed content).1 ≠ []) (emitText (heuristic.feed content).1))
      (fun _ => Shown thinking (text ++ (heuristic.feed content).1) parser (heuristic.feed content).2.2) fail := by
    refine Triple.ite (fun full => emitText_shown full) fun empty => Triple.pure fun _ _ shown => ?_
    rwa [not_not.mp empty, List.append_nil]
  refine Triple.bind (setHeuristicParser_shown (heuristic.feed content).2.2) fun _ => ?_
  exact Triple.bind filtered fun _ => emitTools_shown rt _

theorem handlePart_shown (rt : Runtime) (part : ContentChunk) : Triple (Shown thinking text parser heuristic)
    (handlePart rt part)
    (fun _ => Shown (thinking ++ ofType .thinking [part]) (text ++ (heuristic.feedAll (textsOf [part])).1) parser
      (heuristic.feedAll (textsOf [part])).2.2) fail := by
  obtain ⟨type, content⟩ := part
  cases type with
  | thinking =>
    have shows : ofType .thinking [⟨.thinking, content⟩] = content := by simp [ofType]
    have none' : textsOf [⟨.thinking, content⟩] = [] := rfl
    rw [shows, none']
    simp only [HeuristicToolParser.feedAll, List.append_nil]
    exact emitThinking_shown content
  | text =>
    have none' : ofType .thinking [⟨.text, content⟩] = [] := rfl
    have shows : textsOf [⟨.text, content⟩] = [content] := rfl
    rw [shows, none']
    simp only [HeuristicToolParser.feedAll, List.append_nil]
    exact handleText_shown rt content

theorem handleParts_shown (rt : Runtime) (parts : List ContentChunk) : Triple (Shown thinking text parser heuristic)
    (forEach parts (handlePart rt))
    (fun _ => Shown (thinking ++ ofType .thinking parts) (text ++ (heuristic.feedAll (textsOf parts)).1) parser
      (heuristic.feedAll (textsOf parts)).2.2) fail := by
  induction parts generalizing thinking text heuristic with
  | nil =>
    refine Triple.pure fun _ _ shown => ?_
    have empty : ofType .thinking [] = [] := rfl
    rw [empty, List.append_nil]
    simpa [textsOf, HeuristicToolParser.feedAll] using shown
  | cons part rest ih =>
    refine Triple.bind (handlePart_shown rt part) fun _ => ?_
    have split : part :: rest = [part] ++ rest := rfl
    rw [split, ofType_append, textsOf_append, (heuristic.feedAll_append _ _).1, (heuristic.feedAll_append _ _).2,
      ← List.append_assoc, ← List.append_assoc]
    exact ih

def afterContents (parser : ThinkTagParser) (heuristic : HeuristicToolParser) (contents : List Str) (thinking text : Str) :
    List Event → Stream → Prop :=
  Shown (thinking ++ ofType .thinking (parser.feedAll contents).1)
    (text ++ (heuristic.feedAll (textsOf (parser.feedAll contents).1)).1) (parser.feedAll contents).2
    (heuristic.feedAll (textsOf (parser.feedAll contents).1)).2.2

theorem handleContent_shown (rt : Runtime) (content : Str) : Triple (Shown thinking text parser heuristic)
    (handleContent rt content) (fun _ => afterContents parser heuristic [content] thinking text) fail := by
  refine read_shown fun s think _ _ _ => ?_
  rw [think]
  refine Triple.bind (setThinkParser_shown (parser.feed content).2) fun _ => ?_
  have fed : (parser.feedAll [content]).1 = (parser.feed content).1 := List.append_nil _
  rw [afterContents, fed]
  exact handleParts_shown rt (parser.feed content).1

theorem afterContents_empty (halted : parser.Halted) :
    afterContents parser heuristic [[]] thinking text = Shown thinking text parser heuristic := by
  have fed : parser.feedAll [[]] = ([], parser) := by
    rw [ThinkTagParser.feedAll, ThinkTagParser.feed_nil halted]
    rfl
  rw [afterContents, fed]
  simp [ofType, textsOf, HeuristicToolParser.feedAll]

theorem handleDelta_shown (provider : Provider) (rt : Runtime) {delta : ChoiceDelta} (halted : parser.Halted)
    (only : given delta.reasoningContent = false ∧ delta.reasoningDetails = [] ∧ delta.toolCalls = []) :
    Triple (Shown thinking text parser heuristic) (handleDelta provider rt delta)
      (fun _ => afterContents parser heuristic [delta.content.getD []] thinking text) fail := by
  obtain ⟨silent, details, native⟩ := only
  have reasoning : Triple (Shown thinking text parser heuristic)
      (whenever (given delta.reasoningContent = true) (emitThinking (delta.reasoningContent.getD [])))
      (fun _ => Shown thinking text parser heuristic) fail := by
    rw [silent]
    exact Triple.pure fun _ _ => id
  have extra : Triple (Shown thinking text parser heuristic) (handleExtraReasoning provider delta)
      (fun _ => Shown thinking text parser heuristic) fail := by
    rw [handleExtraReasoning, details]
    exact Triple.whenever (Triple.pure fun _ _ => id)
  have handled : Triple (Shown thinking text parser heuristic)
      (whenever (given delta.content = true) (handleContent rt (delta.content.getD [])))
      (fun _ => afterContents parser heuristic [delta.content.getD []] thinking text) fail := by
    refine Triple.ite (fun _ => handleContent_shown rt _) fun missing => Triple.pure fun _ _ shown => ?_
    have empty : delta.content.getD [] = [] := by
      cases content : delta.content with
      | none => rfl
      | some content' => simpa [given, content] using missing
    rw [empty, afterContents_empty halted]
    exact shown
  unfold handleDelta
  rw [if_pos native]
  refine Triple.bind reasoning fun _ => Triple.bind extra fun _ => ?_
  exact Triple.bind handled fun _ => Triple.pure fun _ _ => id

theorem handleChunk_shown (provider : Provider) (rt : Runtime) {chunk : Chunk} (halted : parser.Halted)
    (only : chunk.ContentOnly) : Triple (Shown thinking text parser heuristic) (handleChunk provider rt chunk)
      (fun _ => afterContents parser heuristic [chunk.content] thinking text) fail := by
  unfold handleChunk
  refine Triple.bind (modify_shown fun s => by split <;> exact ⟨rfl, rfl, rfl, rfl⟩) fun _ => ?_
  have none' (missing : chunk.delta = none) : Triple (Shown thinking text parser heuristic) (pure () : Gen Unit)
      (fun _ => afterContents parser heuristic [chunk.content] thinking text) fail := by
    have empty : chunk.content = [] := by rw [Chunk.content, missing]; rfl
    rw [empty, afterContents_empty halted]
    exact Triple.pure fun _ _ => id
  split
  · rename_i choices
    exact none' (by rw [Chunk.delta, choices]; rfl)
  · rename_i choice rest choices
    split
    · rename_i missing
      exact none' (by rw [Chunk.delta, choices]; exact missing)
    · rename_i delta found
      have here : chunk.delta = some delta := by
        rw [Chunk.delta, choices]
        exact found
      refine Triple.bind (modify_shown fun s => by split <;> exact ⟨rfl, rfl, rfl, rfl⟩) fun _ => ?_
      rw [Chunk.content, here]
      exact handleDelta_shown provider rt halted (only delta here)

theorem ThinkTagParser.feedAll_cons (p : ThinkTagParser) (content : Str) (rest : List Str) :
    (p.feedAll (content :: rest)).1 = (p.feedAll [content]).1 ++ ((p.feedAll [content]).2.feedAll rest).1 ∧
      (p.feedAll (content :: rest)).2 = ((p.feedAll [content]).2.feedAll rest).2 := by
  simp [ThinkTagParser.feedAll]

theorem handleChunks_shown (provider : Provider) (rt : Runtime) {chunks : List Chunk} (halted : parser.Halted)
    (only : ∀ chunk ∈ chunks, chunk.ContentOnly) : Triple (Shown thinking text parser heuristic)
      (forEach chunks (handleChunk provider rt))
      (fun _ => afterContents parser heuristic (chunks.map Chunk.content) thinking text) fail := by
  induction chunks generalizing thinking text parser heuristic with
  | nil =>
    refine Triple.pure fun _ _ shown => ?_
    simpa [afterContents, ThinkTagParser.feedAll, ofType, textsOf, HeuristicToolParser.feedAll] using shown
  | cons chunk rest ih =>
    refine Triple.bind (handleChunk_shown provider rt halted (only chunk List.mem_cons_self)) fun _ => ?_
    have joined : afterContents parser heuristic ((chunk :: rest).map Chunk.content) thinking text =
        afterContents (parser.feedAll [chunk.content]).2
          (heuristic.feedAll (textsOf (parser.feedAll [chunk.content]).1)).2.2 (rest.map Chunk.content)
          (thinking ++ ofType .thinking (parser.feedAll [chunk.content]).1)
          (text ++ (heuristic.feedAll (textsOf (parser.feedAll [chunk.content]).1)).1) := by
      obtain ⟨chunks, last⟩ := parser.feedAll_cons chunk.content (rest.map Chunk.content)
      rw [List.map_cons, afterContents, chunks, last, ofType_append, textsOf_append, (heuristic.feedAll_append _ _).1,
        (heuristic.feedAll_append _ _).2, ← List.append_assoc, ← List.append_assoc]
      rfl
    rw [joined]
    exact ih (ThinkTagParser.feedAll_halted halted _) fun other member => only other (List.mem_cons_of_mem _ member)

theorem consume_shown (provider : Provider) (rt : Runtime) {upstream : Upstream} (halted : parser.Halted)
    (ends : upstream.failure = none) (only : ∀ chunk ∈ upstream.chunks, chunk.ContentOnly) :
    Triple (Shown thinking text parser heuristic) (consume provider rt upstream)
      (fun _ => afterContents parser heuristic (upstream.chunks.map Chunk.content) thinking text) fail := by
  unfold consume
  rw [ends]
  exact Triple.bind (handleChunks_shown provider rt halted only) fun _ => Triple.pure fun _ _ => id

theorem emitRemaining_shown {remaining : Option ContentChunk} (full : ∀ chunk ∈ remaining, chunk.content ≠ []) :
    Triple (Shown thinking text parser heuristic) (emitRemaining remaining)
      (fun _ => Shown (thinking ++ ofType .thinking remaining.toList) (text ++ ofType .text remaining.toList) parser
        heuristic) fail := by
  cases remaining with
  | none =>
    refine Triple.pure fun _ _ shown => ?_
    simpa [ofType] using shown
  | some chunk =>
    obtain ⟨type, content⟩ := chunk
    cases type with
    | thinking =>
      have shows : ofType .thinking [⟨.thinking, content⟩] = content := by simp [ofType]
      have none' : ofType .text [⟨.thinking, content⟩] = [] := rfl
      rw [Option.toList_some, shows, none', List.append_nil]
      exact emitThinking_shown content
    | text =>
      have shows : ofType .text [⟨.text, content⟩] = content := by simp [ofType]
      have none' : ofType .thinking [⟨.text, content⟩] = [] := rfl
      rw [Option.toList_some, shows, none', List.append_nil]
      exact emitText_shown (full _ rfl)

theorem flushThinkParser_shown : Triple (Shown thinking text parser heuristic) flushThinkParser
    (fun _ => Shown (thinking ++ ofType .thinking parser.flush.1.toList) (text ++ ofType .text parser.flush.1.toList)
      parser.flush.2 heuristic) fail := by
  refine read_shown fun s think _ _ _ => ?_
  rw [think]
  exact Triple.bind (setThinkParser_shown parser.flush.2) fun _ => emitRemaining_shown parser.flush_nonempty

theorem flushHeuristicParser_shown (rt : Runtime) : Triple (Shown thinking text parser heuristic)
    (flushHeuristicParser rt) (fun _ => Shown thinking text parser heuristic.flush.2) fail := by
  refine read_shown fun s _ tool _ _ => ?_
  rw [tool]
  exact Triple.bind (setHeuristicParser_shown heuristic.flush.2) fun _ => emitTools_shown rt _

theorem fillEmptyAnswer_shown : Triple (Shown thinking text parser heuristic) fillEmptyAnswer
    (fun _ => Shown thinking (if text = [] then [' '] else text) parser heuristic) fail := by
  refine read_shown fun s _ _ calm ready => ?_
  by_cases empty : text = []
  · have index := ready.began.mp empty
    rw [if_pos empty, whenever, if_pos ⟨calm, index, ready.tools⟩]
    subst empty
    exact emitText_shown (List.cons_ne_nil ' ' [])
  · have index : s.sse.blocks.textIndex ≠ -1 := fun none' => empty (ready.began.mpr none')
    rw [if_neg empty, whenever, if_neg fun all => index all.2.1]
    exact Triple.pure fun _ _ => id

theorem flushTaskArgBuffers_shown (rt : Runtime) : Triple (Shown thinking text parser heuristic)
    (flushTaskArgBuffers rt) (fun _ => Shown thinking text parser heuristic) fail := by
  refine Triple.bind Triple.current fun s => ?_
  have none' (ready : Ready text s.sse.blocks) : s.sse.blocks.flushTaskArgBuffers rt = ([], s.sse.blocks) := by
    rw [ContentBlockManager.flushTaskArgBuffers, ready.tools]
    rfl
  refine Triple.given (fun sent s' both => both.1 ▸ both.2.ready) fun ready => ?_
  rw [none' ready]
  refine Triple.bind (Triple.modify ?_) fun _ => Triple.pure fun _ _ => id
  rintro sent s' ⟨rfl, shown⟩
  exact ⟨shown.thought, shown.told, shown.parser, shown.heuristic, shown.calm, shown.ready⟩

theorem closeAllBlocks_shows : Shows text SSEBuilder.closeAllBlocks [] [] := by
  have stops : Shows (text ++ []) SSEBuilder.stopToolBlocks [] [] := by
    intro sse ready
    have none' : sse.blocks.toolStates.values = [] := by rw [Dict.values, ready.tools]; rfl
    rw [List.append_nil]
    simp only [SSEBuilder.stopToolBlocks, none']
    exact ⟨rfl, rfl, ready⟩
  exact Shows.andThen closeContentBlocks_shows stops

theorem stream_shown (provider : Provider) (rt : Runtime) (model : Str) (inputTokens : Int) (requestId : Option Str)
    {upstream : Upstream} (ends : upstream.failure = none) (only : ∀ chunk ∈ upstream.chunks, chunk.ContentOnly) :
    let contents := upstream.chunks.map Chunk.content
    let events := (streamResponseImpl provider rt model inputTokens requestId upstream).yielded
    let text := (HeuristicToolParser.new.feedAll (textPieces contents)).1 ++
      ofType .text (ThinkTagParser.new.feedAll contents).2.flush.1.toList
    thinkingDeltas events = ofType .thinking (scan false 0 contents.flatten) ∧
      textDeltas events = if text = [] then [' '] else text := by
  intro contents events text
  let fed := ThinkTagParser.new.feedAll contents
  let thinking := ofType .thinking fed.1 ++ ofType .thinking fed.2.flush.1.toList
  let shown : List Event → Stream → Prop := fun sent _ =>
    thinkingDeltas sent = thinking ∧ textDeltas sent = if text = [] then [' '] else text
  have started : Triple (fun sent s => sent = [] ∧ s = startStream rt model inputTokens)
      (emit fun s => ([s.sse.messageStart], s) : Gen Unit)
      (fun _ => Shown [] [] ThinkTagParser.new HeuristicToolParser.new) shown := by
    apply Triple.emit
    rintro sent s ⟨rfl, rfl⟩
    exact ⟨rfl, rfl, rfl, rfl, rfl, rfl, iff_of_true rfl rfl, nofun, Int.le_refl _⟩
  have tried : Triple (Shown [] [] ThinkTagParser.new HeuristicToolParser.new)
      (attempt (consume provider rt upstream) (reportError provider requestId))
      (fun _ => afterContents ThinkTagParser.new HeuristicToolParser.new contents [] []) shown :=
    Triple.attempt (consume_shown provider rt (.inl rfl) ends only) fun _ _ _ impossible => False.elim impossible
  have ended {parser : ThinkTagParser} {heuristic : HeuristicToolParser} {told : Str} :
      Triple (Shown thinking told parser heuristic) (endMessage rt)
        (fun _ sent _ => thinkingDeltas sent = thinking ∧ textDeltas sent = told)
        (fun sent _ => thinkingDeltas sent = thinking ∧ textDeltas sent = told) := by
    apply Triple.emitOr
    · intro sent s shown _
      exact ⟨shown.thought, shown.told⟩
    · intro sent s events s' shown emitted
      obtain ⟨tokens, _, eq⟩ := Option.map_eq_some_iff.mp emitted
      obtain ⟨rfl, rfl⟩ := Prod.mk.injEq .. ▸ eq
      rw [thinkingDeltas_append, textDeltas_append, shown.thought, shown.told]
      exact ⟨List.append_nil _, List.append_nil _⟩
  have body := Triple.bind tried fun _ => Triple.bind flushThinkParser_shown fun _ =>
    Triple.bind (flushHeuristicParser_shown rt) fun _ => Triple.bind fillEmptyAnswer_shown fun _ =>
      Triple.bind (flushTaskArgBuffers_shown rt) fun _ => onSse_quiet closeAllBlocks_shows
  have whole : Triple (fun sent s => sent = [] ∧ s = startStream rt model inputTokens) _ (fun _ => shown) shown :=
    Triple.bind started fun _ => Triple.bind body fun _ => ended
  obtain ⟨thought, told⟩ := whole.always [] (startStream rt model inputTokens) ⟨rfl, rfl⟩
  refine ⟨?_, told⟩
  rw [← ThinkTagParser.feedThenFlush_pieces, ofType_pieces, ThinkTagParser.feedThenFlush, ofType_append]
  exact thought

theorem drained_clear {texts : List Str} (clear : ∀ text ∈ texts, '●' ∉ text ∧ '<' ∉ text) : Drained [] texts := by
  induction texts with
  | nil => rfl
  | cons text rest ih =>
    obtain ⟨bullet, bracket⟩ := clear text List.mem_cons_self
    have token : search controlTokenAt text = none := by
      refine search_eq_none.mpr fun t tail => ?_
      unfold controlTokenAt
      split
      · exact absurd (tail.subset List.mem_cons_self) bracket
      · rfl
    have call : search functionAt text = none := by
      refine search_eq_none.mpr fun t tail => ?_
      unfold functionAt
      split
      · exact absurd (tail.subset List.mem_cons_self) bullet
      · rfl
    have held : heldBack text = [] := by
      rw [heldBack_clear bullet, unclosedTail]
      cases last : rfind HeuristicToolParser.controlTokenStart text with
      | none => rfl
      | some start =>
        obtain ⟨_, ⟨rest, occurs⟩, _⟩ := rfind_eq_some last
        have member : '<' ∈ text.drop start := by
          rw [← occurs]
          exact List.mem_cons_self
        exact absurd (List.mem_of_mem_drop member) bracket
    refine ⟨token, call, ?_⟩
    rw [List.nil_append, held]
    exact ih fun other member => clear other (List.mem_cons_of_mem _ member)

/-- The text of a model output arrives in full exactly when its pieces drain. -/
theorem delivered_iff_drained (provider : Provider) (rt : Runtime) (model : Str) (inputTokens : Int)
    (requestId : Option Str) (upstream : Upstream) (ends : upstream.failure = none)
    (only : ∀ chunk ∈ upstream.chunks, chunk.ContentOnly) :
    let contents := upstream.chunks.map Chunk.content
    Delivered contents (streamResponseImpl provider rt model inputTokens requestId upstream).yielded ↔
      Drained [] (textPieces contents) := by
  obtain ⟨thought, told⟩ := stream_shown provider rt model inputTokens requestId ends only
  dsimp only
  generalize upstream.chunks.map Chunk.content = contents at thought told ⊢
  have scanned : ofType .text (scan false 0 contents.flatten) =
      (textPieces contents).flatten ++ ofType .text (ThinkTagParser.new.feedAll contents).2.flush.1.toList := by
    rw [← ThinkTagParser.feedThenFlush_pieces, ofType_pieces, ThinkTagParser.feedThenFlush, ofType_append]
    rfl
  have delivered : Delivered contents (streamResponseImpl provider rt model inputTokens requestId upstream).yielded ↔
      textDeltas (streamResponseImpl provider rt model inputTokens requestId upstream).yielded =
        if ofType .text (scan false 0 contents.flatten) = [] then [' '] else ofType .text (scan false 0 contents.flatten) :=
    and_iff_right thought
  rw [delivered, told, scanned]
  generalize ofType .text (ThinkTagParser.new.feedAll contents).2.flush.1.toList = flushed
  have idle : HeuristicToolParser.new.Idle := .inl rfl
  constructor
  · intro same
    by_contra lossy
    have shorter := HeuristicToolParser.feedAll_lossy idle lossy
    rw [show HeuristicToolParser.new.buffer = [] from rfl, List.length_nil, Nat.zero_add] at shorter
    have some' : (textPieces contents).flatten ++ flushed ≠ [] := by
      intro empty
      rw [(List.append_eq_nil_iff.mp empty).1] at shorter
      cases shorter
    rw [if_neg some'] at same
    split at same
    · -- Only the space was shown, so the text would be a space, which drains.
      rename_i empty
      rw [(List.append_eq_nil_iff.mp empty).2, List.append_nil] at same
      apply lossy
      refine drained_clear fun text member => ?_
      have inside : ∀ c ∈ text, c = ' ' := by
        intro c listed
        have joined := List.mem_flatten.mpr ⟨text, member, listed⟩
        rw [← same] at joined
        exact List.mem_singleton.mp joined
      exact ⟨fun bullet => absurd (inside _ bullet) (by decide), fun bracket => absurd (inside _ bracket) (by decide)⟩
    · have length := congrArg List.length same
      rw [List.length_append, List.length_append] at length
      omega
  · intro drained
    rw [HeuristicToolParser.feedAll_drained idle drained]
    rfl

/-- A bullet far enough from the end, and an end of the stream that carries the usage only. -/
theorem delivered_iff_drained_list :
    Delivered ["<think>so</think>Two:\n● one".toList, List.replicate 100 '.', []]
      (streamResponseImpl ⟨true, none⟩ ⟨fun _ => [], fun _ => [], fun _ => none, fun _ => [], none⟩ [] 0 none
        ⟨[⟨none, [⟨some ⟨none, [], some "<think>so</think>Two:\n● one".toList, []⟩, none⟩]⟩,
          ⟨none, [⟨some ⟨none, [], some (List.replicate 100 '.'), []⟩, some "stop".toList⟩]⟩, ⟨some ⟨some 7⟩, []⟩],
          none⟩).yielded := by
  refine (delivered_iff_drained _ _ _ _ _ ⟨_, none⟩ rfl ?_).mpr (by decide)
  intro chunk member
  simp only [List.mem_cons, List.not_mem_nil, or_false] at member
  rcases member with rfl | rfl | rfl <;> simp [Chunk.ContentOnly, Chunk.delta, given]

/-- A last line that begins with a bullet, and a start of a control token that is never closed. -/
theorem held_text_lost :
    let rt : Runtime := ⟨fun _ => [], fun _ => [], fun _ => none, fun _ => [], none⟩
    let answer (content : Str) : List Event := (streamResponseImpl ⟨false, none⟩ rt [] 0 none
      ⟨[⟨none, [⟨some ⟨none, [], some content, []⟩, some "stop".toList⟩]⟩], none⟩).yielded
    let list := "Two:\n● one\n● two".toList
    let comparison := "a <|b".toList
    (find "<function=".toList list = none ∧ search controlTokenAt list = none ∧ ¬ Delivered [list] (answer list)) ∧
      (find "<function=".toList comparison = none ∧ search controlTokenAt comparison = none ∧
        ¬ Delivered [comparison] (answer comparison)) := by
  decide

end ClaudeProxy.Providers
