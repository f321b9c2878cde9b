import ClaudeProxy.Providers.BlockCounts

namespace ClaudeProxy.Providers

open Kit Kit.Generator

/-- `_stream_response_impl` up to the filler. -/
def untilFiller (provider : Provider) (rt : Runtime) (requestId : Option Str) (upstream : Upstream) : Gen Unit := do
  emit fun s => ([s.sse.messageStart], s)
  attempt (consume provider rt upstream) (reportError provider requestId)
  flushThinkParser
  flushHeuristicParser rt

def afterFiller (rt : Runtime) : Gen Unit := do
  flushTaskArgBuffers rt
  onSse SSEBuilder.closeAllBlocks
  endMessage rt

/-- `_stream_response_impl` with the given step in place of the filler. -/
def streamWith (filler : Gen Unit) (provider : Provider) (rt : Runtime) (model : Str) (inputTokens : Int)
    (requestId : Option Str) (upstream : Upstream) : Outcome Event Stream PyException Unit :=
  (do
    untilFiller provider rt requestId upstream
    filler
    afterFiller rt : Gen Unit) (startStream rt model inputTokens)

def Event.answers (event : Event) : Bool := event.startsText || event.startsTool

/-- The stream has an answer, and is padded exactly where it would have none. -/
structure Padded (provider : Provider) (rt : Runtime) (model : Str) (inputTokens : Int) (requestId : Option Str)
    (upstream : Upstream) : Prop where
  answered : ∃ event ∈ (streamResponseImpl provider rt model inputTokens requestId upstream).yielded, event.answers = true
  padded : (fillEmptyAnswer
    (untilFiller provider rt requestId upstream (startStream rt model inputTokens)).state).yielded ≠ [] ↔
    ∀ event ∈ (streamWith (pure ()) provider rt model inputTokens requestId upstream).yielded, event.answers = false

instance (provider : Provider) (rt : Runtime) (model : Str) (inputTokens : Int) (requestId : Option Str)
    (upstream : Upstream) :
    Decidable (Padded provider rt model inputTokens requestId upstream) :=
  decidable_of_iff
    ((∃ event ∈ (streamResponseImpl provider rt model inputTokens requestId upstream).yielded, event.answers = true) ∧
      ((fillEmptyAnswer (untilFiller provider rt requestId upstream (startStream rt model inputTokens)).state).yielded ≠ [] ↔
        ∀ event ∈ (streamWith (pure ()) provider rt model inputTokens requestId upstream).yielded, event.answers = false))
    ⟨fun both => ⟨both.1, both.2⟩, fun padding => ⟨padding.answered, padding.padded⟩⟩

def shownText (contents : List Str) : Str :=
  (HeuristicToolParser.new.feedAll (textPieces contents)).1 ++ ofType .text
    (ThinkTagParser.new.feedAll contents).2.flush.1.toList

def foundTools (contents : List Str) : List ToolUse := (HeuristicToolParser.new.feedThenFlush (textPieces contents)).2

def Chunk.toolCalls (chunk : Chunk) : List ToolCallDelta := (chunk.delta.map (·.toolCalls)).getD []

def Upstream.contents (upstream : Upstream) : List Str := upstream.chunks.map Chunk.content

def Upstream.toolCalls (upstream : Upstream) : List ToolCallDelta := upstream.chunks.flatMap Chunk.toolCalls

def ToolCallDelta.emptyName (tc : ToolCallDelta) : Prop := tc.function.bind (·.name) = some []

/-- Something counts as an answer, or the tool states tell whether a tool was found. -/
def Accounted (upstream : Upstream) : Prop :=
  shownText upstream.contents ≠ [] ∨ (∃ tc ∈ upstream.toolCalls, tc.fills) ∨
    (foundTools upstream.contents ≠ [] ↔ ∃ tc ∈ upstream.toolCalls, tc.emptyName)

/-- What the texts and the native tool calls so far amount to. -/
abbrev Reached (parser : ThinkTagParser) (heuristic : HeuristicToolParser) (text : Str) (tools : List ToolUse)
    (deltas : List ToolCallDelta) : List Event → Stream → Prop :=
  Account parser heuristic (text ≠ []) (tools ≠ [] ∨ ∃ tc ∈ deltas, tc.fills)
    (Native (∃ tc ∈ deltas, tc.registers) (∃ tc ∈ deltas, tc.fills))

section Consume

variable {parser : ThinkTagParser} {heuristic : HeuristicToolParser} {text : Str} {tools : List ToolUse}
  {deltas : List ToolCallDelta} {fail : List Event → Stream → Prop}

theorem modify_reached {change : Stream → Stream}
    (same : ∀ s, (change s).sse = s.sse ∧ (change s).errorOccurred = s.errorOccurred ∧
    (change s).thinkParser = s.thinkParser ∧ (change s).heuristicParser = s.heuristicParser) :
    Triple (Reached parser heuristic text tools deltas) (modify change : Gen Unit)
      (fun _ => Reached parser heuristic text tools deltas) fail := by
  apply Triple.modify
  intro sent s account
  rcases same s with ⟨sse, calm, think, tool⟩
  refine ⟨think.trans account.parser, tool.trans account.heuristic, calm.trans account.calm, ?_, ?_⟩
  · rw [sse]
    exact account.counts
  · rw [sse]
    exact account.tools

theorem setThinkParser_reached (next : ThinkTagParser) : Triple (Reached parser heuristic text tools deltas)
    (modify fun s => { s with thinkParser := next } : Gen Unit) (fun _ => Reached next heuristic text tools deltas) fail :=
  Triple.modify fun _ _ account => ⟨rfl, account.heuristic, account.calm, account.counts, account.tools⟩

theorem setHeuristicParser_reached (next : HeuristicToolParser) : Triple (Reached parser heuristic text tools deltas)
    (modify fun s => { s with heuristicParser := next } : Gen Unit) (fun _ => Reached parser next text tools deltas) fail :=
  Triple.modify fun _ _ account => ⟨account.parser, rfl, account.calm, account.counts, account.tools⟩

theorem read_reached {body : Stream → Gen Unit} {post : Unit → List Event → Stream → Prop}
    (reads : ∀ s, s.thinkParser = parser → s.heuristicParser = heuristic →
      Triple (Reached parser heuristic text tools deltas) (body s) post fail) :
    Triple (Reached parser heuristic text tools deltas) (current >>= body) post fail := by
  refine Triple.bind Triple.current fun s => ?_
  have facts (sent : List Event) (s' : Stream) (both : s = s' ∧ Reached parser heuristic text tools deltas sent s') :
      s.thinkParser = parser ∧ s.heuristicParser = heuristic := by
    rw [both.1]
    exact ⟨both.2.parser, both.2.heuristic⟩
  refine Triple.given facts fun known => ?_
  exact (reads s known.1 known.2).before fun _ _ both => both.2

theorem emitFiltered_reached (content : Str) : Triple (Reached parser heuristic text tools deltas)
    (whenever (content ≠ []) (emitText content))
    (fun _ => Reached parser heuristic (text ++ content) tools deltas) fail := by
  apply Triple.ite
  · intro full
    unfold Reached
    rw [eq_true (List.append_ne_nil_of_right_ne_nil text full)]
    exact emitText_account content
  · intro empty
    apply Triple.pure
    intro sent s account
    rw [not_not.mp empty, List.append_nil]
    exact account

theorem emitFound_reached (rt : Runtime) (found : List ToolUse) : Triple (Reached parser heuristic text tools deltas)
    (forEach found (emitTool rt)) (fun _ => Reached parser heuristic text (tools ++ found) deltas) fail := by
  have all : (tools ++ found ≠ [] ∨ ∃ tc ∈ deltas, tc.fills) =
      ((tools ≠ [] ∨ ∃ tc ∈ deltas, tc.fills) ∨ found ≠ []) := by
    rw [ne_eq, List.append_eq_nil_iff, not_and_or, or_right_comm]
  unfold Reached
  rw [all]
  exact emitTools_account rt found

theorem handleText_reached (rt : Runtime) (content : Str) : Triple (Reached parser heuristic text tools deltas)
    (handlePart rt ⟨.text, content⟩)
    (fun _ => Reached parser (heuristic.feed content).2.2 (text ++ (heuristic.feed content).1)
      (tools ++ (heuristic.feed content).2.1) deltas) fail := by
  apply read_reached
  intro s _ tool
  rw [tool]
  refine Triple.bind (setHeuristicParser_reached (heuristic.feed content).2.2) fun _ => ?_
  exact Triple.bind (emitFiltered_reached (heuristic.feed content).1) fun _ => emitFound_reached rt _

abbrev readTexts (parser : ThinkTagParser) (heuristic : HeuristicToolParser) (texts : List Str) (text : Str)
    (tools : List ToolUse) (deltas : List ToolCallDelta) : List Event → Stream → Prop :=
  Reached parser (heuristic.feedAll texts).2.2 (text ++ (heuristic.feedAll texts).1)
    (tools ++ (heuristic.feedAll texts).2.1) deltas

theorem handlePart_reached (rt : Runtime) (part : ContentChunk) : Triple (Reached parser heuristic text tools deltas)
    (handlePart rt part) (fun _ => readTexts parser heuristic (textsOf [part]) text tools deltas) fail := by
  rcases part with ⟨type, content⟩
  cases type with
  | thinking =>
    have none' : textsOf [⟨.thinking, content⟩] = [] := rfl
    rw [none']
    simp only [readTexts, HeuristicToolParser.feedAll, List.append_nil]
    exact emitThinking_account content
  | text =>
    have one : textsOf [⟨.text, content⟩] = [content] := rfl
    rw [one]
    simp only [readTexts, HeuristicToolParser.feedAll, List.append_nil]
    exact handleText_reached rt content

theorem feedAll_tools (p : HeuristicToolParser) (texts more : List Str) :
    (p.feedAll (texts ++ more)).2.1 = (p.feedAll texts).2.1 ++ ((p.feedAll texts).2.2.feedAll more).2.1 := by
  induction texts generalizing p with
  | nil => rfl
  | cons first rest ih =>
    show (p.feed first).2.1 ++ ((p.feed first).2.2.feedAll (rest ++ more)).2.1 = _
    rw [ih, ← List.append_assoc]
    rfl

theorem readTexts_append (texts more : List Str) : readTexts parser heuristic (texts ++ more) text tools deltas =
    readTexts parser (heuristic.feedAll texts).2.2 more (text ++ (heuristic.feedAll texts).1)
      (tools ++ (heuristic.feedAll texts).2.1) deltas := by
  rw [readTexts, (heuristic.feedAll_append _ _).1, (heuristic.feedAll_append _ _).2, feedAll_tools, ← List.append_assoc,
    ← List.append_assoc]

theorem handleParts_reached (rt : Runtime) (parts : List ContentChunk) : Triple (Reached parser heuristic text tools deltas)
    (forEach parts (handlePart rt)) (fun _ => readTexts parser heuristic (textsOf parts) text tools deltas) fail := by
  induction parts generalizing text tools heuristic with
  | nil =>
    apply Triple.pure
    intro sent s account
    simpa [textsOf, readTexts, HeuristicToolParser.feedAll] using account
  | cons part rest ih =>
    have split : part :: rest = [part] ++ rest := rfl
    rw [split, textsOf_append, readTexts_append]
    exact Triple.bind (handlePart_reached rt part) fun _ => ih

abbrev readContents (parser : ThinkTagParser) (heuristic : HeuristicToolParser) (contents : List Str) (text : Str)
    (tools : List ToolUse) (deltas : List ToolCallDelta) : List Event → Stream → Prop :=
  readTexts (parser.feedAll contents).2 heuristic (textsOf (parser.feedAll contents).1) text tools deltas

theorem handleContent_reached (rt : Runtime) (content : Str) : Triple (Reached parser heuristic text tools deltas)
    (handleContent rt content) (fun _ => readContents parser heuristic [content] text tools deltas) fail := by
  apply read_reached
  intro s think _
  rw [think]
  refine Triple.bind (setThinkParser_reached (parser.feed content).2) fun _ => ?_
  have fed : (parser.feedAll [content]).1 = (parser.feed content).1 := List.append_nil _
  rw [readContents, fed]
  exact handleParts_reached rt (parser.feed content).1

theorem readContents_empty (halted : parser.Halted) :
    readContents parser heuristic [[]] text tools deltas = Reached parser heuristic text tools deltas := by
  have fed : parser.feedAll [[]] = ([], parser) := by
    rw [ThinkTagParser.feedAll, ThinkTagParser.feed_nil halted]
    rfl
  rw [readContents, fed]
  simp [readTexts, textsOf, HeuristicToolParser.feedAll]

theorem handleToolCalls_reached (rt : Runtime) (toolCalls : List ToolCallDelta) :
    Triple (Reached parser heuristic text tools deltas) (handleToolCalls rt toolCalls)
      (fun _ => Reached parser heuristic text tools (deltas ++ toolCalls)) fun _ _ => True := by
  refine Triple.bind (quietly_account closeContentBlocks_adds) fun _ => ?_
  induction toolCalls generalizing deltas with
  | nil =>
    rw [List.append_nil]
    exact Triple.pure fun _ _ account => account
  | cons tc rest ih =>
    rw [List.append_cons]
    refine Triple.bind ?_ fun _ => ih
    dsimp only
    split
    · exact Triple.raise fun _ _ _ => trivial
    · rename_i fn function
      have fills : (∃ other ∈ deltas ++ [tc], other.fills) = ((∃ other ∈ deltas, other.fills) ∨ tc.fills) := by
        simp [or_and_right, exists_or]
      have registers : (∃ other ∈ deltas ++ [tc], other.registers) =
          ((∃ other ∈ deltas, other.registers) ∨ tc.registers) := by
        simp [or_and_right, exists_or]
      rw [fills, registers]
      exact processToolCall_account rt tc fn function

theorem handleDelta_reached (provider : Provider) (rt : Runtime) (delta : ChoiceDelta) (halted : parser.Halted) :
    Triple (Reached parser heuristic text tools deltas) (handleDelta provider rt delta)
      (fun _ => readContents parser heuristic [delta.content.getD []] text tools (deltas ++ delta.toolCalls)) fun _ _ =>
        True := by
  have extra : Triple (Reached parser heuristic text tools deltas) (handleExtraReasoning provider delta)
      (fun _ => Reached parser heuristic text tools deltas) fun _ _ => True :=
    Triple.whenever (Triple.forEach fun thought _ => Triple.whenever (emitThinking_account thought))
  have handled : Triple (Reached parser heuristic text tools deltas)
      (whenever (given delta.content = true) (handleContent rt (delta.content.getD [])))
      (fun _ => readContents parser heuristic [delta.content.getD []] text tools deltas) fun _ _ => True := by
    apply Triple.ite
    · exact fun _ => handleContent_reached rt _
    · intro missing
      have empty : delta.content.getD [] = [] := not_not.mp fun full => missing ((given_iff _).mpr full)
      rw [empty, readContents_empty halted]
      exact Triple.pure fun _ _ account => account
  refine Triple.bind (Triple.whenever (emitThinking_account _)) fun _ => Triple.bind extra fun _ => ?_
  refine Triple.bind handled fun _ => ?_
  apply Triple.ite
  · intro none'
    rw [none', List.append_nil]
    exact Triple.pure fun _ _ account => account
  · exact fun _ => handleToolCalls_reached rt delta.toolCalls

theorem handleChunk_reached (provider : Provider) (rt : Runtime) (chunk : Chunk) (halted : parser.Halted) :
    Triple (Reached parser heuristic text tools deltas) (handleChunk provider rt chunk)
      (fun _ => readContents parser heuristic [chunk.content] text tools (deltas ++ chunk.toolCalls)) fun _ _ => True := by
  have silent (missing : chunk.delta = none) : Triple (Reached parser heuristic text tools deltas) (pure () : Gen Unit)
      (fun _ => readContents parser heuristic [chunk.content] text tools (deltas ++ chunk.toolCalls)) fun _ _ => True := by
    have noContent : chunk.content = [] := by rw [Chunk.content, missing]; rfl
    have noCalls : chunk.toolCalls = [] := by rw [Chunk.toolCalls, missing]; rfl
    rw [noContent, noCalls, List.append_nil, readContents_empty halted]
    exact Triple.pure fun _ _ account => account
  unfold handleChunk
  refine Triple.bind (modify_reached fun s => by split <;> exact ⟨rfl, rfl, rfl, rfl⟩) fun _ => ?_
  split
  · rename_i choices
    exact silent (by rw [Chunk.delta, choices]; rfl)
  · rename_i choice rest choices
    split
    · rename_i missing
      exact silent (by rw [Chunk.delta, choices]; exact missing)
    · rename_i delta found
      have here : chunk.delta = some delta := by
        rw [Chunk.delta, choices]
        exact found
      refine Triple.bind (modify_reached fun s => by split <;> exact ⟨rfl, rfl, rfl, rfl⟩) fun _ => ?_
      rw [Chunk.content, Chunk.toolCalls, here]
      exact handleDelta_reached provider rt delta halted

theorem handleChunks_reached (provider : Provider) (rt : Runtime) (chunks : List Chunk) (halted : parser.Halted) :
    Triple (Reached parser heuristic text tools deltas) (forEach chunks (handleChunk provider rt))
      (fun _ => readContents parser heuristic (chunks.map Chunk.content) text tools
        (deltas ++ chunks.flatMap Chunk.toolCalls))
      fun _ _ => True := by
  induction chunks generalizing text tools deltas parser heuristic with
  | nil =>
    apply Triple.pure
    intro sent s account
    simpa [readContents, readTexts, textsOf, ThinkTagParser.feedAll, HeuristicToolParser.feedAll] using account
  | cons chunk rest ih =>
    have joined : readContents parser heuristic ((chunk :: rest).map Chunk.content) text tools
        (deltas ++ (chunk :: rest).flatMap Chunk.toolCalls) =
        readContents (parser.feedAll [chunk.content]).2
          (heuristic.feedAll (textsOf (parser.feedAll [chunk.content]).1)).2.2 (rest.map Chunk.content)
          (text ++ (heuristic.feedAll (textsOf (parser.feedAll [chunk.content]).1)).1)
          (tools ++ (heuristic.feedAll (textsOf (parser.feedAll [chunk.content]).1)).2.1)
          (deltas ++ chunk.toolCalls ++ rest.flatMap Chunk.toolCalls) := by
      rcases parser.feedAll_cons chunk.content (rest.map Chunk.content) with ⟨chunks, last⟩
      rw [List.map_cons, List.flatMap_cons, readContents, chunks, last, textsOf_append, readTexts_append,
        ← List.append_assoc]
    rw [joined]
    refine Triple.bind (handleChunk_reached provider rt chunk halted) fun _ => ?_
    exact ih (ThinkTagParser.feedAll_halted halted _)

theorem consume_reached (provider : Provider) (rt : Runtime) (upstream : Upstream) (halted : parser.Halted) :
    Triple (Reached parser heuristic text tools deltas) (consume provider rt upstream)
      (fun _ => readContents parser heuristic upstream.contents text tools (deltas ++ upstream.toolCalls)) fun _ _ =>
        True := by
  refine Triple.bind (handleChunks_reached provider rt upstream.chunks halted) fun _ => ?_
  split
  · exact Triple.pure fun _ _ account => account
  · exact Triple.raise fun _ _ _ => trivial

theorem emitRemaining_reached {remaining : Option ContentChunk} (full : ∀ chunk ∈ remaining, chunk.content ≠ []) :
    Triple (Reached parser heuristic text tools deltas) (emitRemaining remaining)
      (fun _ => Reached parser heuristic (text ++ ofType .text remaining.toList) tools deltas) fail := by
  cases remaining with
  | none =>
    apply Triple.pure
    intro sent s account
    simpa [ofType] using account
  | some chunk =>
    rcases chunk with ⟨type, content⟩
    cases type with
    | thinking =>
      have none' : ofType .text [⟨.thinking, content⟩] = [] := rfl
      rw [Option.toList_some, none', List.append_nil]
      exact emitThinking_account content
    | text =>
      have all : ofType .text [⟨.text, content⟩] = content := by simp [ofType]
      have some' : text ++ content ≠ [] := List.append_ne_nil_of_right_ne_nil text (full _ rfl)
      rw [Option.toList_some, all]
      unfold Reached
      rw [eq_true some']
      exact emitText_account content

theorem flushThinkParser_reached : Triple (Reached parser heuristic text tools deltas) flushThinkParser
    (fun _ => Reached parser.flush.2 heuristic (text ++ ofType .text parser.flush.1.toList) tools deltas) fail := by
  apply read_reached
  intro s think _
  rw [think]
  exact Triple.bind (setThinkParser_reached parser.flush.2) fun _ => emitRemaining_reached parser.flush_nonempty

theorem flushHeuristicParser_reached (rt : Runtime) : Triple (Reached parser heuristic text tools deltas)
    (flushHeuristicParser rt) (fun _ => Reached parser heuristic.flush.2 text (tools ++ heuristic.flush.1) deltas) fail := by
  apply read_reached
  intro s _ tool
  rw [tool]
  exact Triple.bind (setHeuristicParser_reached heuristic.flush.2) fun _ => emitFound_reached rt _

end Consume

section Run

variable {fail : List Event → Stream → Prop}

def Erred (_ : List Event) (s : Stream) : Prop := s.errorOccurred = true

theorem onSse_erred (act : SSEBuilder → List Event × SSEBuilder) : Triple Erred (onSse act) (fun _ => Erred) fail :=
  Triple.emit fun _ _ erred => erred

theorem modify_erred {change : Stream → Stream} (same : ∀ s, (change s).errorOccurred = s.errorOccurred) :
    Triple Erred (modify change : Gen Unit) (fun _ => Erred) fail :=
  Triple.modify fun _ s erred => (same s).trans erred

theorem read_erred {body : Stream → Gen Unit} (reads : ∀ s, Triple Erred (body s) (fun _ => Erred) fail) :
    Triple Erred (current >>= body) (fun _ => Erred) fail :=
  Triple.bind Triple.current fun s => (reads s).before fun _ _ both => both.2

theorem emitText_erred (content : Str) : Triple Erred (emitText content) (fun _ => Erred) fail :=
  Triple.bind (onSse_erred _) fun _ => onSse_erred _

theorem emitTools_erred (rt : Runtime) (tools : List ToolUse) :
    Triple Erred (forEach tools (emitTool rt)) (fun _ => Erred) fail :=
  Triple.forEach fun _ _ => Triple.bind (onSse_erred _) fun _ => onSse_erred _

theorem flushes_erred (rt : Runtime) : Triple Erred (flushThinkParser >>= fun _ => flushHeuristicParser rt)
    (fun _ => Erred) fail := by
  have remaining (left : Option ContentChunk) : Triple Erred (emitRemaining left) (fun _ => Erred) fail := by
    unfold emitRemaining
    split
    · exact Triple.pure fun _ _ erred => erred
    · exact Triple.bind (onSse_erred _) fun _ => onSse_erred _
    · exact emitText_erred _
  refine Triple.bind (read_erred fun s => Triple.bind (modify_erred fun _ => rfl) fun _ => remaining _) fun _ => ?_
  exact read_erred fun s => Triple.bind (modify_erred fun _ => rfl) fun _ => emitTools_erred rt _

theorem onToolDelta_erred (i : Int) (text : Str) : Triple Erred (onToolDelta i text) (fun _ => Erred) Erred := by
  apply Triple.emitOr
  · exact fun _ _ erred _ => erred
  · intro sent s yielded s' erred acted
    rcases Option.map_eq_some_iff.mp acted with ⟨result, _, same⟩
    cases same
    exact erred

theorem afterFiller_erred (rt : Runtime) : Triple Erred (afterFiller rt) (fun _ => Erred) Erred := by
  have flushes : Triple Erred (flushTaskArgBuffers rt) (fun _ => Erred) Erred :=
    read_erred fun s => Triple.bind (modify_erred fun _ => rfl) fun _ => Triple.forEach fun _ _ => onToolDelta_erred _ _
  refine Triple.bind flushes fun _ => Triple.bind (onSse_erred _) fun _ => ?_
  apply Triple.emitOr
  · exact fun _ _ erred _ => erred
  · intro sent s yielded s' erred acted
    rcases Option.map_eq_some_iff.mp acted with ⟨tokens, _, same⟩
    cases same
    exact erred

theorem reportError_erred (provider : Provider) (requestId : Option Str) (e : PyException) :
    Triple (fun _ _ => True) (reportError provider requestId e) (fun _ => Erred) fail := by
  have marks : Triple (fun _ _ => True) (modify fun s => { s with errorOccurred := true } : Gen Unit)
    (fun _ => Erred) fail :=
    Triple.modify fun _ _ _ => rfl
  exact Triple.bind marks fun _ => Triple.bind (onSse_erred _) fun _ => onSse_erred _

def AtFiller (upstream : Upstream) (sent : List Event) (s : Stream) : Prop :=
  ∃ parser heuristic, Reached parser heuristic (shownText upstream.contents)
    (foundTools upstream.contents) upstream.toolCalls sent s

theorem untilFiller_triple (provider : Provider) (rt : Runtime) (model : Str) (inputTokens : Int) (requestId : Option Str)
    (upstream : Upstream) : Triple (fun sent s => sent = [] ∧ s = startStream rt model inputTokens)
      (untilFiller provider rt requestId upstream) (fun _ sent s => AtFiller upstream sent s ∨ Erred sent s)
      fun _ _ => False := by
  have started : Triple (fun sent s => sent = [] ∧ s = startStream rt model inputTokens)
      (emit fun s => ([s.sse.messageStart], s) : Gen Unit) (fun _ => Reached .new .new [] [] []) fun _ _ => False := by
    apply Triple.emit
    intro sent s both
    rcases both with ⟨rfl, rfl⟩
    refine ⟨rfl, rfl, rfl, ?_, ?_⟩
    · constructor
      · exact iff_of_false (not_not.mpr rfl) (not_not.mpr rfl)
      · apply iff_of_false (not_not.mpr rfl)
        intro found
        rcases found with ⟨event, member, starts⟩
        rw [List.mem_singleton.mp member] at starts
        cases starts
      · apply iff_of_false (by simp)
        intro found
        rcases found with ⟨event, member, starts⟩
        rw [List.mem_singleton.mp member] at starts
        cases starts
      · intro open'
        cases open'
      · exact Int.le_refl _
    · refine ⟨iff_of_false (by simp) ?_, ?_, ?_⟩
      · intro found
        rcases found with ⟨i, state, there⟩
        cases there
      · intro i state there
        cases there
      · intro i state there
        cases there
  let contents := upstream.contents
  let parser := (ThinkTagParser.new.feedAll contents).2
  let heuristic := (HeuristicToolParser.new.feedAll (textPieces contents)).2.2
  let consumed : List Event → Stream → Prop := Reached parser heuristic
    (HeuristicToolParser.new.feedAll (textPieces contents)).1 (HeuristicToolParser.new.feedAll (textPieces contents)).2.1
    upstream.toolCalls
  have consumes : Triple (Reached .new .new [] [] []) (consume provider rt upstream)
    (fun _ sent s => consumed sent s ∨ Erred sent s)
      fun _ _ => True := by
    apply (consume_reached provider rt upstream (.inl rfl)).after
    exact fun _ _ _ account => .inl account
  have reports (e : PyException) : Triple (fun _ _ => True) (reportError provider requestId e)
      (fun _ sent s => consumed sent s ∨ Erred sent s) fun _ _ => False :=
    (reportError_erred provider requestId e).after fun _ _ _ erred => .inr erred
  have flushes : Triple consumed (flushThinkParser >>= fun _ => flushHeuristicParser rt) (fun _ => AtFiller upstream)
      fun _ _ => False := by
    refine Triple.bind flushThinkParser_reached fun _ => (flushHeuristicParser_reached rt).after ?_
    exact fun _ _ _ account => ⟨_, _, account⟩
  refine Triple.bind started fun _ => Triple.bind (Triple.attempt consumes reports) fun _ => ?_
  exact (flushes.or (flushes_erred rt)).otherwise fun _ _ failed => failed.elim id id

theorem Native.iff_of_tools {tools : Dict Int ToolCallState} {registered opened : Prop}
    (native : Native registered opened tools) :
    registered ↔ tools.entries ≠ [] := by
  rw [native.states]
  constructor
  · intro found empty
    rcases found with ⟨i, state, there⟩
    have member := (Dict.get?_eq_some_iff ..).mp there
    rw [empty] at member
    cases member
  · intro some'
    rcases List.exists_mem_of_ne_nil _ some' with ⟨entry, member⟩
    exact ⟨entry.1, entry.2, (Dict.get?_eq_some_iff ..).mpr member⟩

theorem fillEmptyAnswer_eq (s : Stream) : fillEmptyAnswer s =
    if s.errorOccurred = false ∧ s.sse.blocks.textIndex = -1 ∧ s.sse.blocks.toolStates.entries = [] then emitText [' '] s
    else ⟨[], s, .ok ()⟩ := by
  unfold fillEmptyAnswer whenever
  simp only [Bind.bind, Generator.current, List.nil_append]
  split <;> rfl

theorem emitText_some (content : Str) (s : Stream) : (emitText content s).yielded ≠ [] := by
  intro empty
  have joined : (emitText content s).yielded =
      (s.sse.ensureTextBlock).1 ++ (SSEBuilder.emitTextDelta content s.sse.ensureTextBlock.2).1 := rfl
  rw [joined] at empty
  cases (List.append_eq_nil_iff.mp empty).2

/-- The events are those of a quiet end of the stream. -/
def Quietly (sent : List Event) (_ : Stream) : Prop := ∀ event ∈ sent, event.answers = false

theorem Quietly.append {sent more : List Event} {s : Stream} (quiet : Quietly sent s)
    (events : ∀ event ∈ more, event.answers = false) (s' : Stream) : Quietly (sent ++ more) s' := by
  intro event member
  rcases List.mem_append.mp member with old | new
  · exact quiet event old
  · exact events event new

theorem onToolDelta_quietly (i : Int) (text : Str) : Triple Quietly (onToolDelta i text) (fun _ => Quietly) Quietly := by
  apply Triple.emitOr
  · exact fun _ _ quiet _ => quiet
  · intro sent s yielded s' quiet acted
    rcases Option.map_eq_some_iff.mp acted with ⟨result, emitted, same⟩
    rcases Option.map_eq_some_iff.mp emitted with ⟨state, _, built⟩
    cases built
    cases same
    apply quiet.append
    intro event member
    rw [List.mem_singleton.mp member]
    rfl

theorem closeContentBlocks_stops {sse : SSEBuilder} {event : Event} (member : event ∈ sse.closeContentBlocks.1) :
    ∃ index, event = .contentBlockStop index := by
  simp only [SSEBuilder.closeContentBlocks, SSEBuilder.andThen] at member
  rcases List.mem_append.mp member with thinking | text
  · split at thinking
    · exact ⟨_, List.mem_singleton.mp thinking⟩
    · cases thinking
  · generalize (if sse.blocks.thinkingStarted = true then sse.stopThinkingBlock else sse.nothing).2 = middle at text
    split at text
    · exact ⟨_, List.mem_singleton.mp text⟩
    · cases text

theorem closeAllBlocks_quietly : Triple Quietly (onSse SSEBuilder.closeAllBlocks) (fun _ => Quietly) fail := by
  apply Triple.emit
  intro sent s quiet
  apply quiet.append
  intro event member
  have stops : ∃ index, event = .contentBlockStop index := by
    rcases List.mem_append.mp member with content | tool
    · exact closeContentBlocks_stops content
    · rcases List.mem_map.mp tool with ⟨state, _, same⟩
      exact ⟨_, same.symm⟩
  rcases stops with ⟨index, rfl⟩
  rfl

theorem afterFiller_quietly (rt : Runtime) : Triple Quietly (afterFiller rt) (fun _ => Quietly) Quietly := by
  have flushes : Triple Quietly (flushTaskArgBuffers rt) (fun _ => Quietly) Quietly := by
    refine Triple.bind Triple.current fun s => ?_
    have empties : Triple (fun sent s' => s = s' ∧ Quietly sent s') (modify fun s' => { s' with sse := { s'.sse with
        blocks := (s.sse.blocks.flushTaskArgBuffers rt).2 } } : Gen Unit) (fun _ => Quietly) Quietly :=
      Triple.modify fun _ _ both => both.2
    exact Triple.bind empties fun _ => Triple.forEach fun _ _ => onToolDelta_quietly _ _
  refine Triple.bind flushes fun _ => Triple.bind closeAllBlocks_quietly fun _ => ?_
  apply Triple.emitOr
  · exact fun _ _ quiet _ => quiet
  · intro sent s yielded s' quiet acted
    rcases Option.map_eq_some_iff.mp acted with ⟨tokens, _, same⟩
    cases same
    apply quiet.append
    intro event member
    rcases List.mem_cons.mp member with rfl | last
    · rfl
    · rw [List.mem_singleton.mp last]
      rfl

theorem afterFiller_no_answers (rt : Runtime) (s : Stream) : ∀ event ∈ (afterFiller rt s).yielded,
    event.answers = false := by
  have quiet := (afterFiller_quietly rt).always [] s fun event member => absurd member List.not_mem_nil
  rw [List.nil_append] at quiet
  exact quiet

theorem streamResponseImpl_eq (provider : Provider) (rt : Runtime) (model : Str) (inputTokens : Int) (requestId : Option Str)
    (upstream : Upstream) : streamResponseImpl provider rt model inputTokens requestId upstream =
      streamWith fillEmptyAnswer provider rt model inputTokens requestId upstream := by
  unfold streamResponseImpl streamWith streamBody untilFiller afterFiller
  simp only [bind_assoc]

end Run

section Padding

variable {upstream : Upstream} {sent : List Event} {s : Stream}

theorem AtFiller.answers (reached : AtFiller upstream sent s) : (∃ event ∈ sent, event.answers = true) ↔
    shownText upstream.contents ≠ [] ∨ foundTools upstream.contents ≠ [] ∨ ∃ tc ∈ upstream.toolCalls, tc.fills := by
  rcases reached with ⟨parser, heuristic, account⟩
  rw [account.counts.textBlock, account.counts.toolBlock, ← exists_or]
  apply exists_congr
  intro event
  rw [← and_or_left, Event.answers, Bool.or_eq_true]

theorem ToolCallDelta.registers_iff (tc : ToolCallDelta) : tc.registers ↔ tc.fills ∨ tc.emptyName := by
  rw [registers, fills, emptyName]
  cases tc.function.bind (·.name) with
  | none => simp [given]
  | some name => cases name <;> simp [given]

theorem AtFiller.tools (reached : AtFiller upstream sent s) : s.sse.blocks.toolStates.entries = [] ↔
    ¬ ((∃ tc ∈ upstream.toolCalls, tc.fills) ∨ ∃ tc ∈ upstream.toolCalls, tc.emptyName) := by
  rcases reached with ⟨parser, heuristic, account⟩
  have registered := account.tools.iff_of_tools
  simp only [ToolCallDelta.registers_iff, and_or_left, exists_or] at registered
  rw [registered, not_not]

theorem AtFiller.text (reached : AtFiller upstream sent s) :
    s.sse.blocks.textIndex = -1 ↔ ¬ shownText upstream.contents ≠ [] := by
  rcases reached with ⟨parser, heuristic, account⟩
  rw [account.counts.told, not_not]

theorem AtFiller.calm (reached : AtFiller upstream sent s) : s.errorOccurred = false := by
  rcases reached with ⟨parser, heuristic, account⟩
  exact account.calm

/-- The filler is a text block where no text has been shown. -/
theorem AtFiller.filled (reached : AtFiller upstream sent s) (fills : (fillEmptyAnswer s).yielded ≠ []) :
    ∃ event ∈ sent ++ (fillEmptyAnswer s).yielded, event.answers = true := by
  rcases reached with ⟨parser, heuristic, account⟩
  have filler := fillEmptyAnswer_eq s
  split at filler
  · have opened : Triple (Account parser heuristic (shownText upstream.contents ≠ [])
        (foundTools upstream.contents ≠ [] ∨ ∃ tc ∈ upstream.toolCalls, tc.fills)
          (Native (∃ tc ∈ upstream.toolCalls, tc.registers)
          (∃ tc ∈ upstream.toolCalls, tc.fills))) (emitText [' '])
        (fun _ sent _ => ∃ event ∈ sent, event.answers = true) fun sent _ => ∃ event ∈ sent, event.answers = true := by
      apply (emitText_account [' ']).after
      intro _ sent s account
      rcases account.counts.textBlock.mp trivial with ⟨event, member, starts⟩
      exact ⟨event, member, by rw [Event.answers, starts, Bool.true_or]⟩
    rw [filler]
    exact opened.always sent s account
  · rw [filler] at fills
    exact absurd rfl fills

theorem fillEmptyAnswer_ends (s : Stream) : (fillEmptyAnswer s).result = .ok () := by
  rw [fillEmptyAnswer_eq]
  split <;> rfl

theorem fillEmptyAnswer_fills (s : Stream) : (fillEmptyAnswer s).yielded ≠ [] ↔
    s.errorOccurred = false ∧ s.sse.blocks.textIndex = -1 ∧ s.sse.blocks.toolStates.entries = [] := by
  rw [fillEmptyAnswer_eq]
  split
  · rename_i test
    exact iff_of_true (emitText_some _ s) test
  · rename_i test
    exact iff_of_false (not_not.mpr rfl) test

theorem fillEmptyAnswer_erred : Triple Erred fillEmptyAnswer (fun _ => Erred) Erred :=
  read_erred fun _ => Triple.whenever (emitText_erred _)

theorem no_answers_append (events more : List Event) (quiet : ∀ event ∈ more, event.answers = false) :
    (∃ event ∈ events ++ more, event.answers = true) ↔ ∃ event ∈ events, event.answers = true := by
  rw [exists_append]
  apply or_iff_left
  intro found
  rcases found with ⟨event, member, answers⟩
  rw [quiet event member] at answers
  cases answers

theorem balanced_iff {shown found filled nameless : Prop} :
    (¬ shown ∧ ¬ (filled ∨ nameless) ↔ ¬ (shown ∨ found ∨ filled)) ↔ shown ∨ filled ∨ (found ↔ nameless) := by
  tauto

theorem padded_iff (provider : Provider) (rt : Runtime) (model : Str) (inputTokens : Int) (requestId : Option Str)
    (upstream : Upstream)
    (calm : (streamResponseImpl provider rt model inputTokens requestId upstream).state.errorOccurred = false) :
    Padded provider rt model inputTokens requestId upstream ↔ Accounted upstream := by
  let start := startStream rt model inputTokens
  let before := untilFiller provider rt requestId upstream start
  rcases (untilFiller_triple provider rt model inputTokens requestId upstream).ends [] start ⟨rfl, rfl⟩
    with ⟨_, ended, reached⟩
  have answer : streamResponseImpl provider rt model inputTokens requestId upstream = _ :=
    (streamResponseImpl_eq provider rt model inputTokens requestId upstream).trans (bind_of_ok ended)
  have filled := fun f : Unit → Gen Unit => @bind_of_ok _ _ _ _ _ fillEmptyAnswer f before.state () (fillEmptyAnswer_ends _)
  have unpadded : (streamWith (pure ()) provider rt model inputTokens requestId upstream).yielded =
      before.yielded ++ (afterFiller rt before.state).yielded := by
    unfold streamWith
    rw [bind_of_ok ended]
    rfl
  have padded : (streamResponseImpl provider rt model inputTokens requestId upstream).yielded =
      before.yielded ++ (fillEmptyAnswer before.state).yielded ++
        (afterFiller rt (fillEmptyAnswer before.state).state).yielded := by
    rw [answer]
    dsimp only
    rw [filled, List.append_assoc]
  have reached : AtFiller upstream before.yielded before.state := by
    rcases reached with here | erred
    · exact here
    · have last := (Triple.bind fillEmptyAnswer_erred fun _ => afterFiller_erred rt).always [] before.state erred
      have state : (streamResponseImpl provider rt model inputTokens requestId upstream).state.errorOccurred = true := by
        rw [answer]
        exact last
      rw [calm] at state
      cases state
  have tail := afterFiller_no_answers rt
  have fills := fillEmptyAnswer_fills before.state
  rw [reached.text, reached.tools] at fills
  have answers := reached.answers
  have none' : (∀ event ∈ before.yielded ++ (afterFiller rt before.state).yielded, event.answers = false) ↔
      ¬ ∃ event ∈ before.yielded, event.answers = true := by
    rw [← no_answers_append before.yielded _ (tail before.state)]
    simp
  have some' : (∃ event ∈ (streamResponseImpl provider rt model inputTokens requestId upstream).yielded,
    event.answers = true) ↔
      ∃ event ∈ before.yielded ++ (fillEmptyAnswer before.state).yielded, event.answers = true := by
    rw [padded]
    exact no_answers_append _ _ (tail _)
  have balanced : ((fillEmptyAnswer before.state).yielded ≠ [] ↔ ¬ ∃ event ∈ before.yielded, event.answers = true) ↔
      Accounted upstream := by
    rw [fills, answers, and_iff_right reached.calm]
    exact balanced_iff
  constructor
  · intro padding
    have padded' := padding.padded
    rw [unpadded, none'] at padded'
    exact balanced.mp padded'
  · intro accounted
    have same := balanced.mpr accounted
    constructor
    · rw [some']
      by_cases filler : (fillEmptyAnswer before.state).yielded ≠ []
      · exact reached.filled filler
      · have early : ∃ event ∈ before.yielded, event.answers = true := not_not.mp fun missing => filler (same.mpr missing)
        rcases early with ⟨event, member, answers⟩
        exact ⟨event, List.mem_append_left _ member, answers⟩
    · rw [unpadded, none']
      exact same

end Padding

def silentAnswer : Upstream :=
  ⟨[⟨none, [⟨some ⟨some "so".toList, [], some "<think>then</think>".toList, []⟩, some "stop".toList⟩]⟩], none⟩

theorem padded_silentAnswer : Padded ⟨false, none⟩ sampleRuntime "model".toList 0 none silentAnswer := by
  apply (padded_iff ⟨false, none⟩ sampleRuntime "model".toList 0 none silentAnswer (by decide)).mpr
  have nothing : silentAnswer.toolCalls = [] := rfl
  have none' : foundTools silentAnswer.contents = [] := by decide
  refine .inr (.inr (iff_of_false (not_not.mpr none') ?_))
  rw [nothing]
  intro found
  rcases found with ⟨tc, member, _⟩
  cases member

/-- A tool call in the text, which is padded all the same, and a native one without a name, which is not. -/
theorem not_padded :
    let rt : Runtime := ⟨fun _ => [], fun _ => [], fun _ => none, fun _ => [], none⟩
    let called : Upstream := ⟨[⟨none, [⟨some ⟨none, [], some "●<function=Read>".toList, []⟩, some "stop".toList⟩]⟩], none⟩
    let nameless : Upstream :=
      ⟨[⟨none, [⟨some ⟨none, [], none, [⟨some 0, none, some ⟨some [], none⟩⟩]⟩, some "stop".toList⟩]⟩], none⟩
    ((streamResponseImpl ⟨false, none⟩ rt [] 0 none called).state.errorOccurred = false ∧
      ¬ Padded ⟨false, none⟩ rt [] 0 none called) ∧
    (streamResponseImpl ⟨false, none⟩ rt [] 0 none nameless).state.errorOccurred = false ∧
      ¬ Padded ⟨false, none⟩ rt [] 0 none nameless := by
  decide +kernel

end ClaudeProxy.Providers
