import ClaudeProxy.Providers.PatternCut

namespace ClaudeProxy.Providers

open Kit

namespace HeuristicToolParser

section Loop

/-- The loop of `feed` with rounds enough. -/
def settle (p : HeuristicToolParser) : Str × List ToolUse × HeuristicToolParser := feedLoop (3 * p.buffer.length + 3) p

def rank : ParserState → Nat
  | .matchingFunction => 0
  | .text => 1
  | .parsingParameters => 2

theorem rank_le (state : ParserState) : rank state ≤ 2 := by cases state <;> decide

/-- A block that does not leave the loop takes text away or goes on to a later block. -/
theorem block_rank {p : HeuristicToolParser} (stays : p.block.leaves = false) :
    3 * p.block.parser.buffer.length + rank p.block.parser.state < 3 * p.buffer.length + rank p.state := by
  unfold block at stays ⊢
  cases state : p.state with
  | text =>
    simp only [state, textBlock] at stays ⊢
    split at stays
    · rename_i i found
      simp only [List.length_drop, rank]
      omega
    · split at stays <;> cases stays
  | matchingFunction =>
    simp only [state, matchingBlock] at stays ⊢
    split at stays
    · rename_i start name rest searched
      obtain ⟨inside, here⟩ := search_eq_some searched
      have shorter := (functionAt_shorter here).1
      rw [List.length_drop] at shorter
      simp only [rank]
      omega
    · rename_i missing
      split at stays
      · rename_i long
        simp only [if_pos long, List.length_drop, rank]
        omega
      · cases stays
  | parsingParameters =>
    have taken := parameterLoop_length (p.buffer.length + 1) p
    simp only [state, parametersBlock] at stays ⊢
    split at stays
    · rename_i i found
      simp only [List.length_drop, rank]
      omega
    · rename_i missing
      split at stays
      · rename_i ends
        simp only [if_pos ends, List.length_nil, rank]
        omega
      · cases stays

theorem feedLoop_fuel {p : HeuristicToolParser} {first second : Nat}
    (enough : 3 * p.buffer.length + rank p.state < first) (enough' : 3 * p.buffer.length + rank p.state < second) :
    feedLoop first p = feedLoop second p := by
  induction first generalizing p second with
  | zero => omega
  | succ first ih =>
    obtain ⟨second, rfl⟩ : ∃ more, second = more + 1 := ⟨second - 1, by omega⟩
    cases leaves : p.block.leaves with
    | true => simp only [feedLoop, leaves, if_true]
    | false =>
      have smaller := block_rank leaves
      have smaller' : 3 * p.block.parser.buffer.length + rank p.block.parser.state < first := by omega
      have smaller'' : 3 * p.block.parser.buffer.length + rank p.block.parser.state < second := by omega
      rw [feedLoop_next _ leaves, feedLoop_next _ leaves, ih smaller' smaller'']

theorem settle_leaves {p : HeuristicToolParser} (leaves : p.block.leaves = true) :
    p.settle = (p.block.filtered, p.block.tools, p.block.parser) := by
  simp only [settle, feedLoop, leaves, if_true]

theorem settle_next {p : HeuristicToolParser} (stays : p.block.leaves = false) :
    p.settle = (p.block.filtered ++ p.block.parser.settle.1, p.block.tools ++ p.block.parser.settle.2.1,
      p.block.parser.settle.2.2) := by
  have smaller := block_rank stays
  have bound := rank_le p.block.parser.state
  have rounds : feedLoop (3 * p.buffer.length + 2) p.block.parser = p.block.parser.settle := by
    apply feedLoop_fuel
    · have full := rank_le p.state
      omega
    · omega
  rw [settle, feedLoop_next _ stays, rounds]

theorem feed_eq (p : HeuristicToolParser) (text : Str) :
    p.feed text = settle { p with buffer := stripControlTokens 0 (p.buffer ++ text) } := rfl

/-- What comes of a settled loop and of the rest of the text fed to it. -/
def andFeed (first : Str × List ToolUse × HeuristicToolParser) (rest : Str) : Str × List ToolUse × HeuristicToolParser :=
  (first.1 ++ (first.2.2.feed rest).1, first.2.1 ++ (first.2.2.feed rest).2.1, (first.2.2.feed rest).2.2)

/-- Both the chunk's loop and the loop over the whole text take the same block. -/
theorem andFeed_next {p q : HeuristicToolParser} {filtered : Str} {tools : List ToolUse} {next next' : HeuristicToolParser}
    {rest : Str} (chunk : p.block = ⟨filtered, tools, false, next⟩) (whole : q.block = ⟨filtered, tools, false, next'⟩)
    (later : next'.settle = andFeed next.settle rest) : q.settle = andFeed p.settle rest := by
  rw [settle_next (by rw [whole]), settle_next (p := p) (by rw [chunk]), chunk, whole, later]
  simp only [andFeed, List.append_assoc]

theorem andFeed_wait {p : HeuristicToolParser} {rest : Str} (chunk : p.block = ⟨[], [], true, p⟩) :
    settle { p with buffer := stripControlTokens 0 (p.buffer ++ rest) } = andFeed p.settle rest := by
  rw [settle_leaves (p := p) (by rw [chunk]), chunk, ← feed_eq]
  rfl

end Loop

section Blocks

theorem find_bullet {before : Str} (after : Str) (clear : '●' ∉ before) :
    find bullet (before ++ '●' :: after) = some before.length := by
  cases found : find bullet (before ++ '●' :: after) with
  | none => exact absurd (List.mem_append_right _ List.mem_cons_self) (bullet_missing found)
  | some i =>
    obtain ⟨inside, ⟨rest, here⟩, earlier⟩ := find_eq_some found
    obtain ⟨none', -, -⟩ := bullet_at found
    rcases Nat.lt_trichotomy i before.length with early | same | late
    · exfalso
      apply clear
      rw [List.drop_append_of_le_length early.le, List.drop_eq_getElem_cons early] at here
      rw [(List.cons.inj here).1]
      exact List.getElem_mem early
    · rw [same]
    · refine absurd ?_ (earlier before.length late)
      rw [List.drop_left]
      exact ⟨after, rfl⟩

theorem find_bullet_none {s : Str} (clear : '●' ∉ s) : find bullet s = none := by
  cases found : find bullet s with
  | none => rfl
  | some i =>
    obtain ⟨-, head, -⟩ := bullet_at found
    exact absurd (List.mem_of_mem_drop (List.mem_of_mem_head? head)) clear

theorem block_bullet {p : HeuristicToolParser} {before after : Str} (state : p.state = .text) (clear : '●' ∉ before)
    (buffer : p.buffer = before ++ '●' :: after) :
    p.block = ⟨before, [], false, { p with buffer := '●' :: after, state := .matchingFunction }⟩ := by
  simp only [block, state, textBlock, buffer, find_bullet after clear, List.take_left, List.drop_left]

theorem block_clear {p : HeuristicToolParser} {sent : Str} (state : p.state = .text) (clear : '●' ∉ p.buffer)
    (buffer : p.buffer = sent ++ unclosedTail p.buffer) :
    p.block = ⟨sent, [], true, { p with buffer := unclosedTail p.buffer }⟩ := by
  have missing := find_bullet_none clear
  obtain ⟨leaves, tools, state', buffer', whole⟩ := textBlock_clear state missing
  have here : p.block = p.textBlock := by rw [block, state]
  have same : p.textBlock.filtered = sent := List.append_cancel_right (whole.trans buffer)
  have parser : p.textBlock.parser = { p with buffer := p.textBlock.parser.buffer } := by
    unfold textBlock splitIncompleteControlTokenTail
    rw [missing]
    dsimp only
    split
    · split <;> rfl
    · split
      · split <;> rfl
      · split <;> rfl
  rw [here]
  rw [buffer'] at parser
  rw [← same, ← parser, ← leaves, ← tools]

/-- The parser once a call has been recognised and `after` is left of the text. -/
def called (p : HeuristicToolParser) (name after : Str) : HeuristicToolParser := { p with
  currentFunctionName := strip name
  currentToolId := p.generated
  generated := p.generated + 1
  currentParameters := .empty
  buffer := after
  state := .parsingParameters }

theorem block_call {p : HeuristicToolParser} {start : Nat} {name after : Str} (state : p.state = .matchingFunction)
    (searched : search functionAt p.buffer = some (start, name, after)) :
    p.block = ⟨[], [], false, p.called name after⟩ := by
  simp only [block, state, matchingBlock, searched, called]

theorem block_giveUp {p : HeuristicToolParser} {c : Char} {after : Str} (state : p.state = .matchingFunction)
    (buffer : p.buffer = c :: after) (missing : search functionAt p.buffer = none) (long : 100 < p.buffer.length) :
    p.block = ⟨[c], [], false, { p with buffer := after, state := .text }⟩ := by
  simp only [block, state, matchingBlock, missing, if_pos long]
  rw [buffer]
  rfl

theorem block_waitCall {p : HeuristicToolParser} (state : p.state = .matchingFunction)
    (missing : search functionAt p.buffer = none) (short : ¬ 100 < p.buffer.length) : p.block = ⟨[], [], true, p⟩ := by
  simp only [block, state, matchingBlock, missing, if_neg short]

/-- The text holds a parameter that the inner loop takes up. -/
def Completes (s : Str) : Prop :=
  ∃ start found, search parameterAt s = some (start, found) ∧ (find parameterEnd found.whole).isSome

/-- The parser once a parameter has been taken up. -/
def took (p : HeuristicToolParser) (found : ParamMatch) : HeuristicToolParser := { p with
  currentParameters := p.currentParameters.set (strip found.key) (strip found.value)
  buffer := found.after }

instance (s : Str) : Decidable (Completes s) :=
  match searched : search parameterAt s with
  | none => isFalse fun ⟨_, _, here, _⟩ => by
      rw [searched] at here
      cases here
  | some (start, found) =>
    if closed : (find parameterEnd found.whole).isSome then isTrue ⟨start, found, searched, closed⟩
    else isFalse fun ⟨_, _, here, closed'⟩ => by
      rw [searched, Option.some.injEq, Prod.mk.injEq] at here
      rw [← here.2] at closed'
      exact closed closed'

theorem parameterLoop_incomplete {p : HeuristicToolParser} (rounds : Nat) (incomplete : ¬ Completes p.buffer) :
    parameterLoop rounds p = ([], p) := by
  cases rounds with
  | zero => rfl
  | succ rounds =>
    cases searched : search parameterAt p.buffer with
    | none => simp only [parameterLoop, searched]
    | some found =>
      have open' : ¬ (find parameterEnd found.2.whole).isSome = true :=
        fun closed => incomplete ⟨found.1, found.2, searched, closed⟩
      simp only [parameterLoop, searched, if_neg open']

theorem parameterLoop_took {p : HeuristicToolParser} (rounds : Nat) {start : Nat} {found : ParamMatch}
    (searched : search parameterAt p.buffer = some (start, found)) (complete : (find parameterEnd found.whole).isSome) :
    parameterLoop (rounds + 1) p =
      (p.buffer.take start ++ (parameterLoop rounds (p.took found)).1, (parameterLoop rounds (p.took found)).2) := by
  simp only [parameterLoop, searched, if_pos complete]
  rfl

theorem took_from {s : Str} {start : Nat} {found : ParamMatch} (searched : search parameterAt s = some (start, found)) :
    start + found.after.length < s.length := by
  obtain ⟨inside, here⟩ := search_eq_some searched
  obtain ⟨⟨key, rest⟩, started, rfl⟩ := Option.map_eq_some_iff.mp here
  have body := lazyBody_length rest
  unfold parameterStartAt at started
  split at started
  · have shorter := groupUpToBracket_shorter started
    rw [List.length_drop, List.length_drop] at shorter
    have far : start + (lazyBody rest).2.2.length < s.length := by omega
    exact far
  · cases started

theorem took_shorter {p : HeuristicToolParser} {start : Nat} {found : ParamMatch}
    (searched : search parameterAt p.buffer = some (start, found)) : found.after.length < p.buffer.length := by
  have far := took_from searched
  omega

theorem parameterLoop_fuel {p : HeuristicToolParser} {first second : Nat} (enough : p.buffer.length < first)
    (enough' : p.buffer.length < second) : parameterLoop first p = parameterLoop second p := by
  induction first generalizing p second with
  | zero => omega
  | succ first ih =>
    obtain ⟨second, rfl⟩ : ∃ more, second = more + 1 := ⟨second - 1, by omega⟩
    by_cases complete : Completes p.buffer
    · obtain ⟨start, found, searched, closed⟩ := complete
      have shorter := took_shorter searched
      have inner : (p.took found).buffer.length < first := by
        show found.after.length < first
        omega
      have inner' : (p.took found).buffer.length < second := by
        show found.after.length < second
        omega
      rw [parameterLoop_took _ searched closed, parameterLoop_took _ searched closed, ih inner inner']
    · rw [parameterLoop_incomplete _ complete, parameterLoop_incomplete _ complete]

theorem block_took {p : HeuristicToolParser} {start : Nat} {found : ParamMatch} (state : p.state = .parsingParameters)
    (searched : search parameterAt p.buffer = some (start, found)) (complete : (find parameterEnd found.whole).isSome) :
    p.block = ⟨p.buffer.take start ++ (p.took found).block.filtered, (p.took found).block.tools,
      (p.took found).block.leaves, (p.took found).block.parser⟩ := by
  have state' : (p.took found).state = .parsingParameters := state
  have shorter := took_shorter searched
  have rounds : parameterLoop p.buffer.length (p.took found) =
      parameterLoop ((p.took found).buffer.length + 1) (p.took found) :=
    parameterLoop_fuel shorter (Nat.lt_succ_self _)
  simp only [block, state, state', parametersBlock]
  rw [parameterLoop_took _ searched complete, rounds]
  dsimp only
  split
  · simp only [List.append_assoc]
  · split
    · simp only [List.append_assoc]
    · rfl

/-- The rest of the text ends the call: it is no tag and holds no parameter. -/
def EndsCall (s : Str) : Prop := s ≠ [] ∧ ¬ ['<'].isPrefixOf (strip s) ∧ find parameterTag s = none

instance (s : Str) : Decidable (EndsCall s) := inferInstanceAs (Decidable (_ ∧ _))

theorem block_finishAtBullet {p : HeuristicToolParser} {before after : Str} (state : p.state = .parsingParameters)
    (incomplete : ¬ Completes p.buffer) (clear : '●' ∉ before) (buffer : p.buffer = before ++ '●' :: after) :
    p.block = ⟨before, [p.currentTool], false, { p with buffer := '●' :: after, state := .text }⟩ := by
  simp only [block, state, parametersBlock]
  rw [parameterLoop_incomplete _ incomplete]
  simp only [buffer, find_bullet after clear, List.take_left, List.drop_left, List.nil_append]

theorem block_finish {p : HeuristicToolParser} (state : p.state = .parsingParameters)
    (incomplete : ¬ Completes p.buffer) (clear : '●' ∉ p.buffer) (ends : EndsCall p.buffer) :
    p.block = ⟨p.buffer, [p.currentTool], false, { p with buffer := [], state := .text }⟩ := by
  simp only [block, state, parametersBlock]
  rw [parameterLoop_incomplete _ incomplete]
  dsimp only
  rw [find_bullet_none clear]
  dsimp only
  rw [List.nil_append]
  exact if_pos ends

theorem block_waitParameter {p : HeuristicToolParser} (state : p.state = .parsingParameters)
    (incomplete : ¬ Completes p.buffer) (clear : '●' ∉ p.buffer) (goesOn : ¬ EndsCall p.buffer) :
    p.block = ⟨[], [], true, p⟩ := by
  simp only [block, state, parametersBlock]
  rw [parameterLoop_incomplete _ incomplete]
  dsimp only
  rw [find_bullet_none clear]
  dsimp only
  exact if_neg goesOn

end Blocks

/-- The loop on a chunk, with `rest` still to come, decides what the loop on `whole` decides in its place. Each
    case is a decision of the parser, with what makes it the right one for the whole text. -/
inductive Agrees (rest : Str) : HeuristicToolParser → Str → Prop where
  | bullet {p : HeuristicToolParser} {before after later : Str} (state : p.state = .text) (clear : '●' ∉ before)
      (buffer : p.buffer = before ++ '●' :: after)
      (next : Agrees rest { p with buffer := '●' :: after, state := .matchingFunction } ('●' :: later)) :
      Agrees rest p (before ++ '●' :: later)
  | text {p : HeuristicToolParser} {sent later : Str} (state : p.state = .text) (clear : '●' ∉ p.buffer)
      (buffer : p.buffer = sent ++ unclosedTail p.buffer)
      (held : stripControlTokens 0 (unclosedTail p.buffer ++ rest) = later)
      (same : '●' ∈ later ∨ unclosedTail (sent ++ later) = unclosedTail later) : Agrees rest p (sent ++ later)
  | call {p : HeuristicToolParser} {consumed name after later : Str} {start : Nat} (state : p.state = .matchingFunction)
      (buffer : p.buffer = consumed ++ after) (searched : search functionAt p.buffer = some (start, name, after))
      (next : Agrees rest (p.called name after) later) : Agrees rest p (consumed ++ later)
  | giveUp {p : HeuristicToolParser} {c : Char} {after later : Str} (state : p.state = .matchingFunction)
      (buffer : p.buffer = c :: after) (missing : search functionAt p.buffer = none) (long : 100 < p.buffer.length)
      (never : search functionAt (c :: later) = none) (long' : 100 < (c :: later).length)
      (next : Agrees rest { p with buffer := after, state := .text } later) : Agrees rest p (c :: later)
  | waitCall {p : HeuristicToolParser} (state : p.state = .matchingFunction)
      (missing : search functionAt p.buffer = none) (short : ¬ 100 < p.buffer.length) :
      Agrees rest p (stripControlTokens 0 (p.buffer ++ rest))
  | parameter {p : HeuristicToolParser} {consumed later : Str} {start : Nat} {found : ParamMatch}
      (state : p.state = .parsingParameters) (buffer : p.buffer = consumed ++ found.after)
      (searched : search parameterAt p.buffer = some (start, found)) (closed : found.Closed)
      (next : Agrees rest (p.took found) later) : Agrees rest p (consumed ++ later)
  | finishAtBullet {p : HeuristicToolParser} {before after later : Str} (state : p.state = .parsingParameters)
      (incomplete : ¬ Completes p.buffer) (clear : '●' ∉ before) (buffer : p.buffer = before ++ '●' :: after)
      (never : ¬ Completes (before ++ '●' :: later))
      (next : Agrees rest { p with buffer := '●' :: after, state := .text } ('●' :: later)) :
      Agrees rest p (before ++ '●' :: later)
  | finish {p : HeuristicToolParser} {later : Str} (state : p.state = .parsingParameters)
      (incomplete : ¬ Completes p.buffer) (clear : '●' ∉ p.buffer) (ends : EndsCall p.buffer)
      (held : stripControlTokens 0 rest = later) (never : ¬ Completes (p.buffer ++ later))
      (same : '●' ∈ later ∨ EndsCall (p.buffer ++ later) ∧ unclosedTail later = []) : Agrees rest p (p.buffer ++ later)
  | waitParameter {p : HeuristicToolParser} (state : p.state = .parsingParameters)
      (incomplete : ¬ Completes p.buffer) (clear : '●' ∉ p.buffer) (goesOn : ¬ EndsCall p.buffer) :
      Agrees rest p (stripControlTokens 0 (p.buffer ++ rest))

section Follows

variable {p : HeuristicToolParser} {rest later : Str}

/-- Text that has been passed on early changes nothing for what follows. -/
theorem settle_text {sent : Str} (state : p.state = .text) (clear : '●' ∉ sent)
    (same : '●' ∈ later ∨ unclosedTail (sent ++ later) = unclosedTail later) :
    settle { p with buffer := sent ++ later } =
      (sent ++ (settle { p with buffer := later }).1, (settle { p with buffer := later }).2) := by
  by_cases bullet : '●' ∈ later
  · obtain ⟨before, after, rfl, none'⟩ := List.eq_append_cons_of_mem bullet
    have clear' : '●' ∉ sent ++ before := fun member => (List.mem_append.mp member).elim clear none'
    have whole := block_bullet (p := { p with buffer := sent ++ (before ++ '●' :: after) }) state clear'
      (List.append_assoc ..).symm
    have part := block_bullet (p := { p with buffer := before ++ '●' :: after }) state none' rfl
    have first := settle_next (p := { p with buffer := sent ++ (before ++ '●' :: after) }) (by rw [whole])
    have second := settle_next (p := { p with buffer := before ++ '●' :: after }) (by rw [part])
    rw [first, second, whole, part]
    simp only [List.append_assoc]
  · have clear' : '●' ∉ sent ++ later := fun member => (List.mem_append.mp member).elim clear bullet
    have tails := same.resolve_left bullet
    obtain ⟨sent', split⟩ : ∃ sent', later = sent' ++ unclosedTail later := by
      have missing := find_bullet_none bullet
      obtain ⟨-, -, -, -, whole⟩ := textBlock_clear (p := { p with buffer := later }) state missing
      exact ⟨_, whole.symm⟩
    have split' : sent ++ later = (sent ++ sent') ++ unclosedTail (sent ++ later) := by
      rw [tails, List.append_assoc, ← split]
    have whole := block_clear (p := { p with buffer := sent ++ later }) state clear' split'
    have part := block_clear (p := { p with buffer := later }) state bullet split
    have first := settle_leaves (p := { p with buffer := sent ++ later }) (by rw [whole])
    have second := settle_leaves (p := { p with buffer := later }) (by rw [part])
    rw [first, second, whole, part]
    simp only [tails]

theorem closed_isSome {found : ParamMatch} (closed : found.Closed) : (find parameterEnd found.whole).isSome := by
  have occurs : parameterEnd <+: found.whole.drop (parameterTag ++ found.key ++ ['>'] ++ found.value).length := by
    rw [closed, List.drop_left]
  exact find_isSome_of_occurs occurs

theorem settle_took {start : Nat} {found : ParamMatch} (state : p.state = .parsingParameters)
    (searched : search parameterAt p.buffer = some (start, found)) (complete : (find parameterEnd found.whole).isSome) :
    p.settle = (p.buffer.take start ++ (p.took found).settle.1, (p.took found).settle.2) := by
  have block := block_took state searched complete
  cases leaves : (p.took found).block.leaves with
  | true => rw [settle_leaves (by rw [block, leaves]), settle_leaves leaves, block]
  | false =>
    rw [settle_next (by rw [block, leaves]), settle_next leaves, block]
    simp only [List.append_assoc]

theorem found_within {consumed : Str} {start : Nat} {found : ParamMatch}
    (searched : search parameterAt (consumed ++ found.after) = some (start, found)) : start ≤ consumed.length := by
  have shorter := took_from searched
  rw [List.length_append] at shorter
  omega

theorem settle_empty (state : p.state = .text) (buffer : p.buffer = []) : p.settle = ([], [], p) := by
  have clear : '●' ∉ p.buffer := by
    rw [buffer]
    exact List.not_mem_nil
  have tail : unclosedTail p.buffer = [] := by
    rw [buffer]
    rfl
  have nothing : p.buffer = [] ++ unclosedTail p.buffer := by
    rw [tail, buffer]
    rfl
  have block := block_clear state clear nothing
  rw [settle_leaves (by rw [block]), block, tail, ← buffer]

/-- A call that the chunk has ended is ended at the same place by the whole text. -/
theorem settle_finish (state : p.state = .parsingParameters) (clear : '●' ∉ p.buffer)
    (never : ¬ Completes (p.buffer ++ later))
    (same : '●' ∈ later ∨ EndsCall (p.buffer ++ later) ∧ unclosedTail later = []) :
    settle { p with buffer := p.buffer ++ later } =
      (p.buffer ++ (settle { p with buffer := later, state := .text }).1,
        p.currentTool :: (settle { p with buffer := later, state := .text }).2.1,
        (settle { p with buffer := later, state := .text }).2.2) := by
  by_cases bullet : '●' ∈ later
  · obtain ⟨before, after, rfl, none'⟩ := List.eq_append_cons_of_mem bullet
    have clear' : '●' ∉ p.buffer ++ before := fun member => (List.mem_append.mp member).elim clear none'
    have whole := block_finishAtBullet (p := { p with buffer := p.buffer ++ (before ++ '●' :: after) }) state never clear'
      (List.append_assoc ..).symm
    have part := block_bullet (p := { p with buffer := before ++ '●' :: after, state := .text }) rfl none' rfl
    have first := settle_next (p := { p with buffer := p.buffer ++ (before ++ '●' :: after) }) (by rw [whole])
    have next := block_bullet (p := { p with buffer := '●' :: after, state := .text }) rfl List.not_mem_nil rfl
    have second := settle_next (p := { p with buffer := before ++ '●' :: after, state := .text }) (by rw [part])
    have third := settle_next (p := { p with buffer := '●' :: after, state := .text }) (by rw [next])
    rw [first, whole, third, next, second, part]
    simp only [List.append_assoc, List.nil_append]
    rfl
  · obtain ⟨ends, tail⟩ := same.resolve_left bullet
    have clear' : '●' ∉ p.buffer ++ later := fun member => (List.mem_append.mp member).elim clear bullet
    have whole := block_finish (p := { p with buffer := p.buffer ++ later }) state never clear' ends
    have all : later = later ++ unclosedTail later := by rw [tail, List.append_nil]
    have part := block_clear (p := { p with buffer := later, state := .text }) rfl bullet all
    have first := settle_next (p := { p with buffer := p.buffer ++ later }) (by rw [whole])
    have empty := settle_empty (p := { p with buffer := [], state := .text }) rfl rfl
    have second := settle_leaves (p := { p with buffer := later, state := .text }) (by rw [part])
    rw [first, whole, empty, second, part, tail]
    simp only [List.append_nil]
    rfl

/-- One loop over the whole text does what the chunk's loop does and then the loop on the rest. -/
theorem Agrees.settle {whole : Str} (agrees : Agrees rest p whole) :
    HeuristicToolParser.settle { p with buffer := whole } = andFeed p.settle rest := by
  induction agrees with
  | bullet state clear buffer next ih =>
    exact andFeed_next (block_bullet state clear buffer) (block_bullet state clear rfl) ih
  | @text p sent later state clear buffer held same =>
    have chunk := block_clear state clear buffer
    have clear' : '●' ∉ sent := by
      intro member
      rw [buffer] at clear
      exact clear (List.mem_append_left _ member)
    have first := settle_leaves (p := p) (by rw [chunk])
    rw [first, chunk, settle_text state clear' same]
    simp only [andFeed, feed_eq, held, List.nil_append]
  | @call p consumed name after later start state buffer searched next ih =>
    have chunk := block_call state searched
    rw [buffer] at searched
    have moved := functionAt_bracket.search_cut rfl searched later
    exact andFeed_next chunk (block_call (p := { p with buffer := consumed ++ later }) state moved) ih
  | giveUp state buffer missing long never long' next ih =>
    exact andFeed_next (block_giveUp state buffer missing long) (block_giveUp state rfl never long') ih
  | waitCall state missing short => exact andFeed_wait (block_waitCall state missing short)
  | @parameter p consumed later start found state buffer searched closed next ih =>
    have complete := closed_isSome closed
    have chunk := settle_took state searched complete
    rw [buffer] at searched chunk
    have moved := parameterAt_cut searched closed later
    have whole := settle_took (p := { p with buffer := consumed ++ later }) state moved complete
    have within := found_within searched
    rw [whole, chunk, List.take_append_of_le_length within, List.take_append_of_le_length within]
    have same : ({ p with buffer := consumed ++ later } : HeuristicToolParser).took { found with after := later } =
        { p.took found with buffer := later } := rfl
    rw [same, ih]
    simp only [andFeed, List.append_assoc]
  | finishAtBullet state incomplete clear buffer never next ih =>
    exact andFeed_next (block_finishAtBullet state incomplete clear buffer) (block_finishAtBullet state never clear rfl) ih
  | @finish p later state incomplete clear ends held never same =>
    have chunk := block_finish state incomplete clear ends
    have empty := settle_empty (p := { p with buffer := [], state := .text }) rfl rfl
    have first := settle_next (p := p) (by rw [chunk])
    rw [first, chunk, empty]
    simp only [andFeed, feed_eq, List.nil_append, held, List.append_nil]
    rw [settle_finish state clear never same]
    rfl
  | waitParameter state incomplete clear goesOn =>
    exact andFeed_wait (block_waitParameter state incomplete clear goesOn)

end Follows

/-- No chunk but the last decides anything that the whole text decides otherwise. -/
def Unhurried (p : HeuristicToolParser) : List Str → Prop
  | [] => True
  | [_] => True
  | text :: next :: rest =>
    Agrees (next :: rest).flatten { p with buffer := stripControlTokens 0 (p.buffer ++ text) }
      (stripControlTokens 0 (p.buffer ++ text ++ (next :: rest).flatten)) ∧ Unhurried (p.feed text).2.2 (next :: rest)

/-- The filtered text and the tool calls do not depend on where the text was cut. -/
def ChunkInvariant (texts : List Str) : Prop :=
  let split := new.feedThenFlush texts
  let whole := new.feedThenFlush [texts.flatten]
  split.1 = whole.1 ∧ (split.2.map fun tool => (tool.name, tool.input)) = whole.2.map fun tool => (tool.name, tool.input)

instance (texts : List Str) : Decidable (ChunkInvariant texts) := inferInstanceAs (Decidable (_ ∧ _))

theorem feed_agrees {p : HeuristicToolParser} {text rest : Str}
    (agrees : Agrees rest { p with buffer := stripControlTokens 0 (p.buffer ++ text) }
      (stripControlTokens 0 (p.buffer ++ text ++ rest))) : p.feed (text ++ rest) = andFeed (p.feed text) rest := by
  have loop := agrees.settle
  rw [feed_eq, feed_eq, ← List.append_assoc]
  exact loop

theorem feedAll_unhurried {p : HeuristicToolParser} {text : Str} {rest : List Str} (unhurried : p.Unhurried (text :: rest)) :
    p.feedAll (text :: rest) = p.feed (text :: rest).flatten := by
  induction rest generalizing p text with
  | nil => simp only [feedAll, List.flatten_cons, List.flatten_nil, List.append_nil]
  | cons next rest ih =>
    obtain ⟨agrees, later⟩ := unhurried
    have tail := ih later
    rw [List.flatten_cons, feed_agrees agrees, feedAll]
    dsimp only
    rw [tail]
    rfl

theorem feed_nothing : new.feed [] = ([], [], new) := by
  have empty := settle_empty (p := new) rfl rfl
  rw [feed_eq]
  exact empty

theorem feedThenFlush_unhurried {texts : List Str} (unhurried : new.Unhurried texts) :
    new.feedThenFlush texts = new.feedThenFlush [texts.flatten] := by
  cases texts with
  | nil =>
    simp only [feedThenFlush, feedAll, List.flatten_nil, feed_nothing]
    rfl
  | cons text rest =>
    have whole : new.feedAll [(text :: rest).flatten] = new.feed (text :: rest).flatten := by
      simp only [feedAll, List.append_nil]
    simp only [feedThenFlush]
    rw [whole, feedAll_unhurried unhurried]

theorem chunk_invariant {texts : List Str} (unhurried : new.Unhurried texts) : ChunkInvariant texts := by
  have same := feedThenFlush_unhurried unhurried
  unfold ChunkInvariant
  rw [same]
  exact ⟨rfl, rfl⟩

/-- A parameter cut in the middle of its closing tag. -/
theorem chunk_invariant_split :
    ChunkInvariant ["hi ●<function=f>".toList, "<parameter=a>1</par".toList, "ameter>".toList] := by
  have first : ∃ p : HeuristicToolParser, (new.feed "hi ●<function=f>".toList).2.2 = p ∧ p.state = .parsingParameters ∧
      p.buffer = [] := ⟨_, rfl, by decide, by decide⟩
  obtain ⟨p, fed, state, buffer⟩ := first
  apply chunk_invariant
  refine ⟨?_, ?_, trivial⟩
  · have rest : ["<parameter=a>1</par".toList, "ameter>".toList].flatten = "<parameter=a>1</parameter>".toList := by decide
    have chunk : stripControlTokens 0 (new.buffer ++ "hi ●<function=f>".toList) =
        "hi ".toList ++ '●' :: "<function=f>".toList := by decide
    have whole : stripControlTokens 0 (new.buffer ++ "hi ●<function=f>".toList ++ "<parameter=a>1</parameter>".toList) =
        "hi ".toList ++ '●' :: "<function=f><parameter=a>1</parameter>".toList := by decide
    have call : '●' :: "<function=f><parameter=a>1</parameter>".toList =
        "●<function=f>".toList ++ stripControlTokens 0 ([] ++ "<parameter=a>1</parameter>".toList) := by decide
    have searched : search functionAt ('●' :: "<function=f>".toList) = some (0, "f".toList, []) := by decide
    rw [rest, chunk, whole]
    apply Agrees.bullet rfl (by decide) rfl
    rw [call]
    apply Agrees.call rfl (by decide) searched
    exact .waitParameter rfl (by decide) (by decide) (by decide)
  · have rest : ["ameter>".toList].flatten = "ameter>".toList := by decide
    have chunk : stripControlTokens 0 "<parameter=a>1</par".toList = "<parameter=a>1</par".toList := by decide
    have incomplete : ¬ Completes "<parameter=a>1</par".toList := by decide
    have clear : '●' ∉ "<parameter=a>1</par".toList := by decide
    have goesOn : ¬ EndsCall "<parameter=a>1</par".toList := by decide
    rw [rest, fed, buffer, List.nil_append, chunk]
    exact .waitParameter state incomplete clear goesOn

/-- White space after the tag of a function ends the call when the chunk ends there. -/
theorem early_finish_cut : ¬ ChunkInvariant ["● <function=f>\n".toList, "<parameter=a>1</parameter>".toList] := by decide

end HeuristicToolParser

end ClaudeProxy.Providers
