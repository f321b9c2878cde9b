import ClaudeProxy.Providers.HeuristicToolParser

namespace ClaudeProxy.Providers

open Kit

/-- The rest from the first bullet among the last hundred characters. -/
def bulletTail : Str → Option Str
  | [] => none
  | c :: rest => if c = '●' ∧ rest.length < 100 then some (c :: rest) else bulletTail rest

def afterBullet : Str → Str
  | [] => []
  | c :: rest => if '●' ∈ c :: rest then afterBullet rest else c :: rest

/-- The rest from the last start of a control token, unless its end follows or nothing stands before it. -/
def unclosedTail (s : Str) : Str :=
  match rfind HeuristicToolParser.controlTokenStart s with
  | none => []
  | some start =>
    if 0 < start ∧ findFrom HeuristicToolParser.controlTokenEnd s start = none then s.drop start else []

/-- What a text is held back of until more of it comes. -/
def heldBack (s : Str) : Str := (bulletTail s).getD (unclosedTail (afterBullet s))

/-- The pieces of a text pass one by one, each behind what was held back before it: no control token and
    no start of a call ever shows up, and in the end nothing is held back. -/
def Drained : Str → List Str → Prop
  | held, [] => held = []
  | held, text :: rest => search controlTokenAt (held ++ text) = none ∧ search functionAt (held ++ text) = none ∧
      Drained (heldBack (held ++ text)) rest

instance decidableDrained : (held : Str) → (texts : List Str) → Decidable (Drained held texts)
  | held, [] => inferInstanceAs (Decidable (held = []))
  | held, text :: rest =>
    have := decidableDrained (heldBack (held ++ text)) rest
    inferInstanceAs (Decidable (_ ∧ _ ∧ _))

theorem search_eq_some {α : Type} {matchAt : Str → Option α} {s : Str} {i : Nat} {a : α}
    (found : search matchAt s = some (i, a)) : i ≤ s.length ∧ matchAt (s.drop i) = some a := by
  induction s generalizing i with
  | nil =>
    obtain ⟨b, here, eq⟩ := Option.map_eq_some_iff.mp found
    cases eq
    exact ⟨Nat.zero_le _, here⟩
  | cons c rest ih =>
    simp only [search] at found
    split at found
    · rename_i b here
      cases found
      exact ⟨Nat.zero_le _, here⟩
    · obtain ⟨⟨j, b⟩, later, eq⟩ := Option.map_eq_some_iff.mp found
      cases eq
      obtain ⟨inside, here⟩ := ih later
      exact ⟨Nat.succ_le_succ inside, here⟩

theorem search_eq_none {α : Type} {matchAt : Str → Option α} {s : Str} :
    search matchAt s = none ↔ ∀ t, t <:+ s → matchAt t = none := by
  induction s with
  | nil => simp [search, List.suffix_nil]
  | cons c rest ih =>
    have split : search matchAt (c :: rest) = none ↔ matchAt (c :: rest) = none ∧ search matchAt rest = none := by
      cases here : matchAt (c :: rest) <;> simp [search, here]
    rw [split, ih]
    constructor
    · rintro ⟨here, later⟩ t tail
      rcases List.suffix_cons_iff.mp tail with rfl | inner
      · exact here
      · exact later t inner
    · intro all
      exact ⟨all _ List.suffix_rfl, fun t inner => all t (List.suffix_cons_iff.mpr (.inr inner))⟩

theorem search_suffix {α : Type} {matchAt : Str → Option α} {s t : Str} (missing : search matchAt s = none)
    (tail : t <:+ s) : search matchAt t = none :=
  search_eq_none.mpr fun u inner => search_eq_none.mp missing u (inner.trans tail)

theorem stripControlTokens_length (skip : Nat) (s : Str) : (stripControlTokens skip s).length ≤ s.length - skip := by
  induction s generalizing skip with
  | nil => simp [stripControlTokens]
  | cons c rest ih =>
    cases skip with
    | succ skip =>
      have shorter := ih skip
      simp only [stripControlTokens, List.length_cons]
      omega
    | zero =>
      simp only [stripControlTokens, List.length_cons]
      split
      · rename_i len token
        have shorter := ih (len - 1)
        omega
      · have shorter := ih 0
        simp only [List.length_cons]
        omega

theorem stripControlTokens_none {s : Str} (missing : search controlTokenAt s = none) : stripControlTokens 0 s = s := by
  induction s with
  | nil => rfl
  | cons c rest ih =>
    have here := search_eq_none.mp missing _ List.suffix_rfl
    simp only [stripControlTokens, here]
    rw [ih (search_suffix missing (List.suffix_cons ..))]

theorem stripControlTokens_shorter {s : Str} (found : search controlTokenAt s ≠ none) :
    (stripControlTokens 0 s).length < s.length := by
  induction s with
  | nil => exact absurd rfl found
  | cons c rest ih =>
    simp only [stripControlTokens, List.length_cons]
    split
    · have shorter := stripControlTokens_length
      exact Nat.lt_succ_of_le ((shorter _ rest).trans (Nat.sub_le ..))
    · rename_i here
      have later : search controlTokenAt rest ≠ none := by
        intro missing
        apply found
        simp [search, here, missing]
      exact Nat.succ_lt_succ (ih later)

theorem groupUpToBracket_shorter {s group rest : Str} (found : groupUpToBracket s = some (group, rest)) :
    rest.length < s.length := by
  unfold groupUpToBracket at found
  dsimp only at found
  split at found
  · cases found
  · rename_i c tail dropped
    split at found
    · cases found
    · cases found
      have shorter := congrArg List.length dropped
      rw [List.length_drop, List.length_cons] at shorter
      omega

theorem dropWhile_length (test : Char → Bool) (s : Str) : (s.dropWhile test).length ≤ s.length :=
  (List.dropWhile_suffix test).length_le

theorem functionAt_shorter {s name rest : Str} (found : functionAt s = some (name, rest)) :
    rest.length < s.length ∧ s.head? = some '●' := by
  unfold functionAt at found
  split at found
  · rename_i tail
    dsimp only at found
    split at found
    · have shorter := groupUpToBracket_shorter found
      have spaces := dropWhile_length isSpace tail
      rw [List.length_drop] at shorter
      rw [List.length_cons]
      exact ⟨by omega, rfl⟩
    · cases found
  · cases found

theorem lazyBody_length (s : Str) : (lazyBody s).2.2.length ≤ s.length := by
  induction s with
  | nil => simp [lazyBody]
  | cons c rest ih =>
    simp only [lazyBody]
    split
    · simp only [List.length_drop]
      omega
    · split
      · exact Nat.le_refl _
      · exact ih.trans (Nat.le_succ _)

theorem parameterAt_length {s : Str} {found : ParamMatch} (here : parameterAt s = some found) :
    found.after.length ≤ s.length := by
  obtain ⟨⟨key, rest⟩, start, rfl⟩ := Option.map_eq_some_iff.mp here
  have body := lazyBody_length rest
  unfold parameterStartAt at start
  split at start
  · have shorter := groupUpToBracket_shorter start
    rw [List.length_drop] at shorter
    exact body.trans (by omega)
  · cases start

theorem bulletTail_none {s : Str} (clear : '●' ∉ s) : bulletTail s = none := by
  induction s with
  | nil => rfl
  | cons c rest ih =>
    obtain ⟨here, later⟩ := not_or.mp fun either => clear (List.mem_cons.mpr either)
    rw [bulletTail, if_neg fun both => here both.1.symm]
    exact ih later

theorem afterBullet_clear {s : Str} (clear : '●' ∉ s) : afterBullet s = s := by
  cases s with
  | nil => rfl
  | cons c rest => rw [afterBullet, if_neg clear]

/-- Text before a bullet that is still to come is never held back. -/
theorem heldBack_append {s t : Str} (clear : '●' ∉ s) (bullet : '●' ∈ t) : heldBack (s ++ t) = heldBack t := by
  induction s with
  | nil => rfl
  | cons c rest ih =>
    obtain ⟨here, later⟩ := not_or.mp fun either => clear (List.mem_cons.mpr either)
    have inside : '●' ∈ c :: (rest ++ t) := List.mem_cons_of_mem _ (List.mem_append_right _ bullet)
    have tail : bulletTail (c :: (rest ++ t)) = bulletTail (rest ++ t) := by
      rw [bulletTail, if_neg fun both => here both.1.symm]
    have after : afterBullet (c :: (rest ++ t)) = afterBullet (rest ++ t) := by rw [afterBullet, if_pos inside]
    rw [List.cons_append, heldBack, tail, after]
    exact ih later

theorem heldBack_early {rest : Str} (long : 100 ≤ rest.length) : heldBack ('●' :: rest) = heldBack rest := by
  have tail : bulletTail ('●' :: rest) = bulletTail rest := by
    rw [bulletTail, if_neg fun both => absurd both.2 (Nat.not_lt.mpr long)]
  have after : afterBullet ('●' :: rest) = afterBullet rest := by rw [afterBullet, if_pos List.mem_cons_self]
  rw [heldBack, tail, after]
  rfl

theorem heldBack_late {rest : Str} (short : rest.length < 100) : heldBack ('●' :: rest) = '●' :: rest := by
  rw [heldBack, bulletTail, if_pos ⟨rfl, short⟩]
  rfl

theorem heldBack_clear {s : Str} (clear : '●' ∉ s) : heldBack s = unclosedTail s := by
  rw [heldBack, bulletTail_none clear, afterBullet_clear clear]
  rfl

namespace HeuristicToolParser

theorem parameterLoop_length (rounds : Nat) (p : HeuristicToolParser) :
    (parameterLoop rounds p).1.length + (parameterLoop rounds p).2.buffer.length ≤ p.buffer.length := by
  induction rounds generalizing p with
  | zero => simp [parameterLoop]
  | succ rounds ih =>
    simp only [parameterLoop]
    split
    · simp
    · rename_i start found searched
      split
      · have rest := ih { p with
          currentParameters := p.currentParameters.set (strip found.key) (strip found.value)
          buffer := found.after }
        obtain ⟨inside, here⟩ := search_eq_some searched
        have after := parameterAt_length here
        rw [List.length_drop] at after
        rw [List.length_append, List.length_take]
        dsimp only at rest ⊢
        omega
      · simp

theorem split_length (p : HeuristicToolParser) :
    p.splitIncompleteControlTokenTail.1 ++ p.splitIncompleteControlTokenTail.2.buffer = p.buffer := by
  unfold splitIncompleteControlTokenTail
  split
  · rfl
  · split
    · rfl
    · exact List.take_append_drop ..

theorem block_length (p : HeuristicToolParser) :
    p.block.filtered.length + p.block.parser.buffer.length ≤ p.buffer.length := by
  unfold block
  split
  · unfold textBlock
    split
    · simp only [List.length_take, List.length_drop]
      omega
    · have whole := congrArg List.length p.split_length
      rw [List.length_append] at whole
      dsimp only
      split
      · exact whole.le
      · dsimp only [List.length_nil]
        omega
  · unfold matchingBlock
    split
    · rename_i start name rest searched
      obtain ⟨inside, here⟩ := search_eq_some searched
      have shorter := (functionAt_shorter here).1
      rw [List.length_drop] at shorter
      simp only [List.length_nil]
      omega
    · split
      · simp only [List.length_take, List.length_drop]
        omega
      · simp
  · have taken := parameterLoop_length (p.buffer.length + 1) p
    unfold parametersBlock
    dsimp only
    split
    · simp only [List.length_append, List.length_take, List.length_drop]
      omega
    · split
      · simp only [List.length_append, List.length_nil]
        omega
      · exact taken

theorem feedLoop_next {p : HeuristicToolParser} (rounds : Nat) (stays : p.block.leaves = false) :
    feedLoop (rounds + 1) p = (p.block.filtered ++ (feedLoop rounds p.block.parser).1,
      p.block.tools ++ (feedLoop rounds p.block.parser).2.1, (feedLoop rounds p.block.parser).2.2) := by
  simp only [feedLoop, stays]
  rfl

theorem feedLoop_length (rounds : Nat) (p : HeuristicToolParser) :
    (feedLoop rounds p).1.length + (feedLoop rounds p).2.2.buffer.length ≤ p.buffer.length := by
  induction rounds generalizing p with
  | zero => simp [feedLoop]
  | succ rounds ih =>
    have first := block_length p
    simp only [feedLoop]
    split
    · exact first
    · have rest := ih p.block.parser
      rw [List.length_append, Nat.add_assoc]
      exact (Nat.add_le_add_left rest _).trans first

theorem feed_length (p : HeuristicToolParser) (text : Str) :
    (p.feed text).1.length + (p.feed text).2.2.buffer.length ≤ p.buffer.length + text.length := by
  have stripped := stripControlTokens_length 0 (p.buffer ++ text)
  have looped := feedLoop_length (3 * (stripControlTokens 0 (p.buffer ++ text)).length + 3)
    { p with buffer := stripControlTokens 0 (p.buffer ++ text) }
  rw [List.length_append] at stripped
  exact looped.trans stripped

theorem feedAll_length (p : HeuristicToolParser) (texts : List Str) :
    (p.feedAll texts).1.length ≤ p.buffer.length + texts.flatten.length := by
  induction texts generalizing p with
  | nil => simp [feedAll]
  | cons text rest ih =>
    have first := feed_length p text
    have later := ih (p.feed text).2.2
    have both : (p.feed text).1.length + ((p.feed text).2.2.feedAll rest).1.length ≤
        p.buffer.length + (text.length + rest.flatten.length) := by omega
    rw [List.flatten_cons, List.length_append]
    exact (List.length_append ..).le.trans both

/-- No call has been recognised; what may become one starts at a bullet. -/
def Idle (p : HeuristicToolParser) : Prop := p.state = .text ∨ p.state = .matchingFunction ∧ p.buffer.head? = some '●'

theorem bullet_at {s : Str} {i : Nat} (found : find bullet s = some i) :
    '●' ∉ s.take i ∧ (s.drop i).head? = some '●' ∧ i ≤ s.length := by
  obtain ⟨inside, ⟨rest, here⟩, before⟩ := find_eq_some found
  refine ⟨fun member => ?_, by rw [← here]; rfl, inside⟩
  obtain ⟨j, bound, at_⟩ := List.mem_iff_getElem.mp member
  rw [List.length_take] at bound
  apply before j (by omega)
  rw [List.drop_eq_getElem_cons (by omega), ← List.getElem_take (h := by rw [List.length_take]; omega), at_]
  exact ⟨_, rfl⟩

theorem bullet_missing {s : Str} (missing : find bullet s = none) : '●' ∉ s := by
  intro member
  obtain ⟨j, bound, at_⟩ := List.mem_iff_getElem.mp member
  apply find_eq_none missing j
  rw [List.drop_eq_getElem_cons bound, at_]
  exact ⟨_, rfl⟩

/-- Without a bullet all but the unclosed tail is passed on. -/
theorem textBlock_clear {p : HeuristicToolParser} (idle : p.state = .text) (missing : find bullet p.buffer = none) :
    p.textBlock.leaves = true ∧ p.textBlock.tools = [] ∧ p.textBlock.parser.state = .text ∧
      p.textBlock.parser.buffer = unclosedTail p.buffer ∧ p.textBlock.filtered ++ unclosedTail p.buffer = p.buffer := by
  unfold textBlock unclosedTail splitIncompleteControlTokenTail
  simp only [missing]
  cases last : rfind controlTokenStart p.buffer with
  | none => simp [idle]
  | some start =>
    cases closed : findFrom controlTokenEnd p.buffer start with
    | some stop => simp [idle, closed]
    | none =>
      have some' : p.buffer ≠ [] := by
        rintro empty
        obtain ⟨_, occurs, _⟩ := rfind_eq_some last
        rw [empty, List.drop_nil] at occurs
        exact absurd (List.prefix_nil.mp occurs) (by decide)
      by_cases first : start = 0
      · subst first
        simp [idle, closed]
      · have before : p.buffer.take start ≠ [] := by simp [List.take_eq_nil_iff, first, some']
        simp [idle, closed, before, Nat.pos_of_ne_zero first]

/-- With enough rounds the loop holds back what `heldBack` says and passes on the rest. -/
theorem feedLoop_idle (rounds : Nat) {p : HeuristicToolParser} (idle : p.Idle)
    (missing : search functionAt p.buffer = none)
    (enough : 2 * p.buffer.length + (if p.state = .text then 2 else 1) ≤ rounds) :
    (feedLoop rounds p).2.1 = [] ∧ (feedLoop rounds p).2.2.Idle ∧
      (feedLoop rounds p).2.2.buffer = heldBack p.buffer ∧
      (feedLoop rounds p).1 ++ heldBack p.buffer = p.buffer := by
  induction rounds generalizing p with
  | zero => split at enough <;> omega
  | succ rounds ih =>
    simp only [feedLoop]
    rcases idle with state | ⟨state, head⟩
    · have here : p.block = p.textBlock := by rw [block, state]
      rw [here]
      rw [if_pos state] at enough
      cases found : find bullet p.buffer with
      | none =>
        have clear := bullet_missing found
        obtain ⟨leaves, tools, text, buffer, whole⟩ := textBlock_clear state found
        rw [if_pos leaves, heldBack_clear clear]
        exact ⟨tools, .inl text, buffer, whole⟩
      | some i =>
        obtain ⟨clear, head, inside⟩ := bullet_at found
        have turn : p.textBlock = ⟨p.buffer.take i, [], false,
            { p with buffer := p.buffer.drop i, state := .matchingFunction }⟩ := by rw [textBlock, found]
        have held : heldBack p.buffer = heldBack (p.buffer.drop i) := by
          have member : '●' ∈ p.buffer.drop i := List.mem_of_mem_head? head
          rw [← heldBack_append clear member, List.take_append_drop]
        obtain ⟨tools, idle', buffer, whole⟩ := ih
          (p := { p with buffer := p.buffer.drop i, state := .matchingFunction }) (.inr ⟨rfl, head⟩)
          (search_suffix missing (List.drop_suffix ..)) (by simp only [List.length_drop]; simp; omega)
        rw [turn, held]
        refine ⟨tools, idle', buffer, ?_⟩
        simp only [Bool.false_eq_true, if_false, List.append_assoc]
        rw [whole, List.take_append_drop]
    · have here : p.block = p.matchingBlock := by rw [block, state]
      obtain ⟨rest, split⟩ : ∃ rest, p.buffer = '●' :: rest := List.head?_eq_some_iff.mp head
      rw [here]
      by_cases long : 100 < p.buffer.length
      · have turn : p.matchingBlock = ⟨['●'], [], false, { p with buffer := rest, state := .text }⟩ := by
          rw [matchingBlock, missing, split]
          rw [split] at long
          simp only [if_pos long]
          rfl
        have length := congrArg List.length split
        rw [List.length_cons] at length
        have tail : rest <:+ p.buffer := split ▸ List.suffix_cons ..
        rw [if_neg (by rw [state]; nofun)] at enough
        obtain ⟨tools, idle', buffer, whole⟩ := ih (p := { p with buffer := rest, state := .text }) (.inl rfl)
          (search_suffix missing tail) (by simp; omega)
        rw [turn, split, heldBack_early (by omega)]
        refine ⟨tools, idle', buffer, ?_⟩
        simp only [Bool.false_eq_true, if_false, List.cons_append, List.nil_append]
        exact congrArg (List.cons '●') whole
      · have turn : p.matchingBlock = ⟨[], [], true, p⟩ := by
          rw [matchingBlock, missing]
          simp only [if_neg long]
        have held : heldBack p.buffer = p.buffer := by
          rw [split, List.length_cons] at long
          rw [split]
          exact heldBack_late (by omega)
        rw [turn, held]
        exact ⟨rfl, .inr ⟨state, head⟩, rfl, rfl⟩

theorem feedLoop_call (rounds : Nat) {p : HeuristicToolParser} (idle : p.Idle)
    (found : search functionAt p.buffer ≠ none) (enough : 2 ≤ rounds) :
    (feedLoop rounds p).1.length + (feedLoop rounds p).2.2.buffer.length < p.buffer.length := by
  have matching (rounds : Nat) (p : HeuristicToolParser) (state : p.state = .matchingFunction)
      (found : search functionAt p.buffer ≠ none) :
      (feedLoop (rounds + 1) p).1.length + (feedLoop (rounds + 1) p).2.2.buffer.length < p.buffer.length := by
    obtain ⟨⟨i, name, rest⟩, searched⟩ := Option.ne_none_iff_exists'.mp found
    obtain ⟨inside, here⟩ := search_eq_some searched
    have shorter := (functionAt_shorter here).1
    rw [List.length_drop] at shorter
    have first : p.block = p.matchingBlock := by rw [block, state]
    simp only [feedLoop, first, matchingBlock, searched, Bool.false_eq_true, if_false, List.nil_append]
    refine Nat.lt_of_le_of_lt (feedLoop_length _ _) ?_
    dsimp only
    omega
  obtain ⟨rounds, rfl⟩ := Nat.exists_eq_add_of_le' enough
  rcases idle with state | ⟨state, _⟩
  · obtain ⟨⟨i, name, rest⟩, searched⟩ := Option.ne_none_iff_exists'.mp found
    obtain ⟨inside, here⟩ := search_eq_some searched
    have head := (functionAt_shorter here).2
    cases first : find bullet p.buffer with
    | none => exact absurd (List.mem_of_mem_drop (List.mem_of_mem_head? head)) (bullet_missing first)
    | some j =>
      have early : j ≤ i := by
        obtain ⟨_, _, before⟩ := find_eq_some first
        by_contra late
        apply before i (by omega)
        obtain ⟨tail, split⟩ := List.head?_eq_some_iff.mp head
        rw [split]
        exact ⟨_, rfl⟩
      have still : search functionAt (p.buffer.drop j) ≠ none := by
        intro missing
        have tail : p.buffer.drop i <:+ p.buffer.drop j := by
          obtain ⟨k, rfl⟩ := Nat.exists_eq_add_of_le early
          rw [← List.drop_drop]
          exact List.drop_suffix ..
        rw [search_eq_none.mp missing _ tail] at here
        cases here
      have turn : p.block = ⟨p.buffer.take j, [], false,
          { p with buffer := p.buffer.drop j, state := .matchingFunction }⟩ := by rw [block, state, textBlock, first]
      have inner := matching rounds { p with buffer := p.buffer.drop j, state := .matchingFunction } rfl still
      rw [feedLoop_next _ (by rw [turn]), turn]
      simp only [List.length_append, List.length_take]
      rw [List.length_drop] at inner
      have bound := (bullet_at first).2.2
      omega
  · exact matching (rounds + 1) p state found

theorem feed_idle {p : HeuristicToolParser} (idle : p.Idle) {text : Str}
    (token : search controlTokenAt (p.buffer ++ text) = none) (call : search functionAt (p.buffer ++ text) = none) :
    (p.feed text).2.1 = [] ∧ (p.feed text).2.2.Idle ∧ (p.feed text).2.2.buffer = heldBack (p.buffer ++ text) ∧
      (p.feed text).1 ++ heldBack (p.buffer ++ text) = p.buffer ++ text := by
  have still : Idle { p with buffer := p.buffer ++ text } := by
    rcases idle with state | ⟨state, head⟩
    · exact .inl state
    · exact .inr ⟨state, List.mem_head?_append_of_mem_head? head⟩
  unfold feed
  rw [stripControlTokens_none token]
  refine feedLoop_idle _ still call ?_
  dsimp only
  split <;> omega

theorem feed_lossy {p : HeuristicToolParser} (idle : p.Idle) {text : Str}
    (meets : search controlTokenAt (p.buffer ++ text) ≠ none ∨ search functionAt (p.buffer ++ text) ≠ none) :
    (p.feed text).1.length + (p.feed text).2.2.buffer.length < p.buffer.length + text.length := by
  by_cases token : search controlTokenAt (p.buffer ++ text) = none
  · have still : Idle { p with buffer := p.buffer ++ text } := by
      rcases idle with state | ⟨state, head⟩
      · exact .inl state
      · exact .inr ⟨state, List.mem_head?_append_of_mem_head? head⟩
    have whole : (p.buffer ++ text).length = p.buffer.length + text.length := List.length_append ..
    rw [← whole]
    unfold feed
    rw [stripControlTokens_none token]
    exact feedLoop_call _ still (meets.resolve_left fun found => found token) (Nat.le_add_left 2 _)
  · have shorter := stripControlTokens_shorter token
    rw [List.length_append] at shorter
    exact Nat.lt_of_le_of_lt (feedLoop_length _ _) shorter

/-- All text is passed on if and only if it drains. -/
theorem feedAll_drained {p : HeuristicToolParser} (idle : p.Idle) {texts : List Str} (drained : Drained p.buffer texts) :
    (p.feedAll texts).1 = p.buffer ++ texts.flatten := by
  induction texts generalizing p with
  | nil => simp [feedAll, show p.buffer = [] from drained]
  | cons text rest ih =>
    obtain ⟨token, call, later⟩ := drained
    obtain ⟨_, idle', buffer, whole⟩ := feed_idle idle token call
    rw [← buffer] at later whole
    have all := ih idle' later
    rw [List.flatten_cons, ← List.append_assoc, ← whole, List.append_assoc, ← all]
    rfl

theorem feedAll_lossy {p : HeuristicToolParser} (idle : p.Idle) {texts : List Str} (lossy : ¬ Drained p.buffer texts) :
    (p.feedAll texts).1.length < p.buffer.length + texts.flatten.length := by
  induction texts generalizing p with
  | nil =>
    have some' : p.buffer ≠ [] := lossy
    exact List.length_pos_iff.mpr some'
  | cons text rest ih =>
    have both (bound : (p.feed text).1.length + ((p.feed text).2.2.feedAll rest).1.length <
        p.buffer.length + (text.length + rest.flatten.length)) :
        (p.feedAll (text :: rest)).1.length < p.buffer.length + (text :: rest).flatten.length := by
      rw [List.flatten_cons, List.length_append]
      exact Nat.lt_of_le_of_lt (List.length_append ..).le bound
    apply both
    by_cases meets : search controlTokenAt (p.buffer ++ text) ≠ none ∨ search functionAt (p.buffer ++ text) ≠ none
    · have first := feed_lossy idle meets
      have later := feedAll_length (p.feed text).2.2 rest
      omega
    · obtain ⟨token, call⟩ := not_or.mp meets
      obtain ⟨_, idle', buffer, whole⟩ := feed_idle idle (not_not.mp token) (not_not.mp call)
      have later : ¬ Drained (p.feed text).2.2.buffer rest := by
        rw [buffer]
        exact fun drained => lossy ⟨not_not.mp token, not_not.mp call, drained⟩
      have shorter := ih idle' later
      have length := congrArg List.length whole
      rw [← buffer, List.length_append, List.length_append] at length
      omega

end HeuristicToolParser

end ClaudeProxy.Providers
