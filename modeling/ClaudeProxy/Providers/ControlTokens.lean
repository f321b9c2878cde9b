import ClaudeProxy.Providers.TextHold

namespace ClaudeProxy.Providers

open Kit HeuristicToolParser

def controlToken (inner : Str) : Str := '<' :: '|' :: (inner ++ ['|', '>'])

def IsInner (inner : Str) : Prop := 1 ≤ inner.length ∧ inner.length ≤ 80 ∧ '|' ∉ inner ∧ '>' ∉ inner

def IsPlain (c : Char) : Prop := c ≠ '<' ∧ c ≠ '|' ∧ c ≠ '>' ∧ c ≠ '●'

instance (c : Char) : Decidable (IsPlain c) := inferInstanceAs (Decidable (_ ∧ _))

/-- A text of plain characters and complete control tokens, with what is left of it without the tokens. -/
inductive Marked : Str → Str → Prop where
  | nil : Marked [] []
  | plain {c : Char} {text rest : Str} (isPlain : IsPlain c) (marked : Marked text rest) : Marked (c :: text) (c :: rest)
  | token {inner text rest : Str} (isInner : IsInner inner) (marked : Marked text rest) :
      Marked (controlToken inner ++ text) rest

/-- What a boundary has cut off a token. -/
def IsFragment (fragment : Str) : Prop :=
  fragment ≠ [] ∧ ∃ inner rest, IsInner inner ∧ rest ≠ [] ∧ controlToken inner = fragment ++ rest

/-- The rest from the first bracket of a text without complete tokens. -/
def unfinished (text : Str) : Str := text.dropWhile (· ≠ '<')

/-- A text that ends in no unfinished token, or in one that has its bar, no second start and no bullet, with
something before it. -/
def SafeCut (text : Str) : Prop :=
  unfinished text = [] ∨
    text.takeWhile (· ≠ '<') ≠ [] ∧ '●' ∉ unfinished text ∧ rfind controlTokenStart (unfinished text) = some 0

instance (text : Str) : Decidable (SafeCut text) := inferInstanceAs (Decidable (_ ∨ _))

/-- Every chunk, behind the unfinished token before it and without complete tokens, is cut safely. -/
def CutSafely : Str → List Str → Prop
  | _, [] => True
  | held, chunk :: rest =>
    SafeCut (stripControlTokens 0 (held ++ chunk)) ∧
      CutSafely (unfinished (stripControlTokens 0 (held ++ chunk))) rest

section Marked

variable {text rest : Str}

theorem Marked.all_plain (marked : Marked text rest) : ∀ c ∈ rest, IsPlain c := by
  induction marked with
  | nil => simp
  | plain isPlain _ ih => exact List.forall_mem_cons.mpr ⟨isPlain, ih⟩
  | token _ _ ih => exact ih

theorem controlTokenAt_plain {c : Char} (other : c ≠ '<') (s : Str) : controlTokenAt (c :: s) = none := by
  unfold controlTokenAt
  split
  · rename_i same
    exact absurd (List.cons.inj same).1 other
  · rfl

theorem takeWhile_inner {inner : Str} (isInner : IsInner inner) (s : Str) :
    (inner ++ '|' :: s).takeWhile (fun c => c ≠ '|' ∧ c ≠ '>') = inner := by
  obtain ⟨-, -, bar, bracket⟩ := isInner
  rw [List.takeWhile_append_of_pos]
  · simp
  · intro c member
    have notBar : c ≠ '|' := fun same => bar (same ▸ member)
    have notBracket : c ≠ '>' := fun same => bracket (same ▸ member)
    simp [notBar, notBracket]

theorem controlTokenAt_token {inner : Str} (isInner : IsInner inner) (s : Str) :
    controlTokenAt (controlToken inner ++ s) = some (controlToken inner).length := by
  have shape : controlToken inner ++ s = '<' :: '|' :: (inner ++ '|' :: '>' :: s) := by simp [controlToken]
  have length : (controlToken inner).length = inner.length + 4 := by simp [controlToken]
  rw [shape, length]
  unfold controlTokenAt
  simp only [takeWhile_inner isInner, List.drop_left']
  rw [if_pos ⟨isInner.1, isInner.2.1, rfl⟩]

theorem stripControlTokens_skip (skipped s : Str) :
    stripControlTokens skipped.length (skipped ++ s) = stripControlTokens 0 s := by
  induction skipped with
  | nil => rfl
  | cons c skipped ih =>
    rw [List.length_cons, List.cons_append, stripControlTokens, ih]

theorem Marked.strip_append (marked : Marked text rest) (s : Str) :
    stripControlTokens 0 (text ++ s) = rest ++ stripControlTokens 0 s := by
  induction marked with
  | nil => rfl
  | plain isPlain _ ih =>
    rw [List.cons_append, stripControlTokens, controlTokenAt_plain isPlain.1]
    simp only
    rw [ih, List.cons_append]
  | @token inner text rest isInner _ ih =>
    have first := controlTokenAt_token isInner (text ++ s)
    have shape : controlToken inner ++ (text ++ s) = '<' :: (('|' :: (inner ++ ['|', '>'])) ++ (text ++ s)) := rfl
    rw [List.append_assoc, shape, stripControlTokens, ← shape, first]
    have skip : (controlToken inner).length - 1 = ('|' :: (inner ++ ['|', '>'])).length := rfl
    simp only [skip]
    rw [stripControlTokens_skip, ih]

theorem bracket_of_controlTokenAt {s : Str} {len : Nat} (found : controlTokenAt s = some len) : '>' ∈ s := by
  unfold controlTokenAt at found
  split at found
  · rename_i rest
    simp only at found
    split at found
    · rename_i closed
      obtain ⟨tail, eq⟩ := (isPrefixOf_iff ..).mp closed.2.2
      have inside : '>' ∈ rest.drop (rest.takeWhile fun c => c ≠ '|' ∧ c ≠ '>').length := by
        rw [← eq]
        simp
      exact List.mem_cons_of_mem _ (List.mem_cons_of_mem _ (List.mem_of_mem_drop inside))
    · cases found
  · cases found

theorem IsFragment.no_bracket {fragment : Str} (cut : IsFragment fragment) : '>' ∉ fragment := by
  obtain ⟨-, inner, rest, isInner, some', whole⟩ := cut
  have shape : controlToken inner = ('<' :: '|' :: (inner ++ ['|'])) ++ ['>'] := by simp [controlToken]
  obtain ⟨front, last, split⟩ := List.eq_nil_or_concat rest |>.resolve_left some'
  rw [shape, split, List.concat_eq_append, ← List.append_assoc] at whole
  have same := (List.append_inj_left' whole rfl)
  intro member
  have inside : '>' ∈ '<' :: '|' :: (inner ++ ['|']) := by
    rw [same]
    exact List.mem_append_left _ member
  have absent := isInner.2.2.2
  simp at inside
  exact absent inside

theorem IsFragment.head {fragment : Str} (cut : IsFragment fragment) : ∃ tail, fragment = '<' :: tail := by
  obtain ⟨some', inner, rest, -, -, whole⟩ := cut
  cases fragment with
  | nil => exact absurd rfl some'
  | cons c tail =>
    rw [controlToken, List.cons_append] at whole
    exact ⟨tail, by rw [(List.cons.inj whole).1]⟩

theorem IsFragment.strip {fragment : Str} (cut : IsFragment fragment) : stripControlTokens 0 fragment = fragment := by
  apply stripControlTokens_none
  apply search_eq_none.mpr
  intro tail suffix
  cases found : controlTokenAt tail with
  | none => rfl
  | some len => exact absurd (suffix.subset (bracket_of_controlTokenAt found)) cut.no_bracket

/-- A boundary anywhere in the text leaves complete tokens before it and at most one that it cuts. -/
theorem Marked.cut {front back : Str} (marked : Marked text rest) (split : text = front ++ back) :
    ∃ done fragment before after, front = done ++ fragment ∧ Marked done before ∧ Marked (fragment ++ back) after ∧
      rest = before ++ after ∧ (fragment = [] ∨ IsFragment fragment) := by
  induction marked generalizing front with
  | nil =>
    obtain ⟨none_front, none_back⟩ := List.append_eq_nil_iff.mp split.symm
    subst none_front
    subst none_back
    exact ⟨[], [], [], [], rfl, .nil, .nil, rfl, .inl rfl⟩
  | @plain c text rest isPlain marked ih =>
    cases front with
    | nil =>
      rw [List.nil_append] at split
      exact ⟨[], [], [], c :: rest, rfl, .nil, split ▸ .plain isPlain marked, rfl, .inl rfl⟩
    | cons d front =>
      obtain ⟨same, later⟩ := List.cons.inj split
      subst same
      obtain ⟨done, fragment, before, after, eq, first, second, whole, cut⟩ := ih later
      exact ⟨c :: done, fragment, c :: before, after, by rw [eq]; rfl, .plain isPlain first, second, by rw [whole]; rfl, cut⟩
  | @token inner text rest isInner marked ih =>
    by_cases short : front.length < (controlToken inner).length
    · -- The boundary is inside this token.
      cases empty : front with
      | nil =>
        rw [empty, List.nil_append] at split
        exact ⟨[], [], [], rest, rfl, .nil, split ▸ .token isInner marked, rfl, .inl rfl⟩
      | cons c tail =>
        obtain ⟨remainder, eq⟩ : front <+: controlToken inner :=
          List.prefix_of_prefix_length_le ⟨back, split.symm⟩ (List.prefix_append ..) (Nat.le_of_lt short)
        have left : remainder ≠ [] := by
          intro none_left
          rw [none_left, List.append_nil] at eq
          rw [eq] at short
          exact Nat.lt_irrefl _ short
        rw [← empty]
        refine ⟨[], front, [], rest, rfl, .nil, split ▸ .token isInner marked, rfl,
          .inr ⟨?_, inner, remainder, isInner, left,
          eq.symm⟩⟩
        rw [empty]
        exact List.cons_ne_nil c tail
    · obtain ⟨tail, eq⟩ : controlToken inner <+: front :=
        List.prefix_of_prefix_length_le (List.prefix_append ..) ⟨back, split.symm⟩ (Nat.le_of_not_lt short)
      rw [← eq, List.append_assoc] at split
      obtain ⟨done, fragment, before, after, same, first, second, whole, cut⟩ := ih (List.append_cancel_left split)
      refine ⟨controlToken inner ++ done, fragment, before, after, ?_, .token isInner first, second, whole, cut⟩
      rw [← eq, same, List.append_assoc]

end Marked

section Buffer

variable {before fragment : Str}

theorem takeWhile_plain (plain : ∀ c ∈ before, IsPlain c) (cut : fragment = [] ∨ IsFragment fragment) :
    (before ++ fragment).takeWhile (· ≠ '<') = before ∧ unfinished (before ++ fragment) = fragment := by
  have pass : ∀ c ∈ before, decide (c ≠ '<') = true := fun c member => decide_eq_true (plain c member).1
  unfold unfinished
  rw [List.takeWhile_append_of_pos pass, List.dropWhile_append_of_pos pass]
  rcases cut with rfl | cut
  · simp
  · obtain ⟨tail, rfl⟩ := cut.head
    simp

theorem plain_no_bullet (plain : ∀ c ∈ before, IsPlain c) : '●' ∉ before := fun member => (plain _ member).2.2.2 rfl

theorem plain_no_start (plain : ∀ c ∈ before, IsPlain c) {i : Nat} (inside : i < before.length) :
    ¬ controlTokenStart <+: (before ++ fragment).drop i := by
  intro occurs
  rw [List.drop_append_of_le_length (Nat.le_of_lt inside), List.drop_eq_getElem_cons inside, List.cons_append] at occurs
  obtain ⟨rest, eq⟩ := occurs
  have first := (List.cons.inj eq).1
  exact (plain _ (List.getElem_mem inside)).1 first.symm

theorem rfind_append {start : Nat} :
    rfind controlTokenStart (before ++ fragment) = some (before.length + start) ↔
      rfind controlTokenStart fragment = some start := by
  have shift : ∀ i, (before ++ fragment).drop (before.length + i) = fragment.drop i := by
    intro i
    rw [List.drop_append, List.drop_eq_nil_of_le (Nat.le_add_right _ _), List.nil_append, Nat.add_sub_cancel_left]
  constructor
  · intro found
    obtain ⟨inside, here, later⟩ := rfind_eq_some found
    rw [List.length_append] at inside later
    rw [shift] at here
    apply rfind_of_last (by omega) here
    intro j behind bound occurs
    apply later (before.length + j) (by omega) (by omega)
    rw [shift]
    exact occurs
  · intro found
    obtain ⟨inside, here, later⟩ := rfind_eq_some found
    apply rfind_of_last
    · rw [List.length_append]
      omega
    · rw [shift]
      exact here
    · intro j behind bound occurs
      rw [List.length_append] at bound
      have split : j = before.length + (j - before.length) := by omega
      rw [split, shift] at occurs
      exact later (j - before.length) (by omega) (by omega) occurs

theorem no_end (clear : '>' ∉ fragment) (start : Nat) : findFrom controlTokenEnd fragment start = none := by
  unfold findFrom
  cases found : find controlTokenEnd (fragment.drop start) with
  | none => rfl
  | some i =>
    obtain ⟨-, occurs, -⟩ := find_eq_some found
    have inside : '>' ∈ (fragment.drop start).drop i := occurs.subset (by decide)
    exact absurd (List.mem_of_mem_drop (List.mem_of_mem_drop inside)) clear

theorem plain_no_bracket (plain : ∀ c ∈ before, IsPlain c) (cut : fragment = [] ∨ IsFragment fragment) :
    '>' ∉ before ++ fragment := by
  intro member
  rcases List.mem_append.mp member with inside | inside
  · exact (plain _ inside).2.2.1 rfl
  · rcases cut with rfl | cut
    · cases inside
    · exact cut.no_bracket inside

/-- A safe cut holds back just the unfinished token. -/
theorem unclosedTail_of_safe (plain : ∀ c ∈ before, IsPlain c) (cut : fragment = [] ∨ IsFragment fragment)
    (safe : SafeCut (before ++ fragment)) : '●' ∉ before ++ fragment ∧ unclosedTail (before ++ fragment) = fragment := by
  unfold SafeCut at safe
  rw [(takeWhile_plain plain cut).1, (takeWhile_plain plain cut).2] at safe
  have clear := plain_no_bracket plain cut
  rcases safe with rfl | ⟨some', no_bullet, start⟩
  · rw [List.append_nil]
    refine ⟨plain_no_bullet plain, ?_⟩
    have none_found : rfind controlTokenStart before = none := by
      cases found : rfind controlTokenStart before with
      | none => rfl
      | some i =>
        obtain ⟨-, occurs, -⟩ := rfind_eq_some found
        have member : '<' ∈ before := List.mem_of_mem_drop (occurs.subset (by decide))
        exact absurd rfl (plain _ member).1
    unfold unclosedTail
    rw [none_found]
  · refine ⟨?_, ?_⟩
    · intro member
      rcases List.mem_append.mp member with inside | inside
      · exact plain_no_bullet plain inside
      · exact no_bullet inside
    · have found : rfind controlTokenStart (before ++ fragment) = some (before.length + 0) := rfind_append.mpr start
      have pos : 0 < before.length := List.length_pos_iff.mpr some'
      unfold unclosedTail
      rw [found]
      simp only [Nat.add_zero]
      rw [if_pos ⟨pos, no_end clear _⟩, List.drop_left']
      rfl

/-- A cut that is not safe passes on the bracket of the unfinished token. -/
theorem leak_of_unsafe (plain : ∀ c ∈ before, IsPlain c) (cut : fragment = [] ∨ IsFragment fragment)
    (unsafe_cut : ¬ SafeCut (before ++ fragment)) {passed : Str} (no_bullet : '●' ∉ before ++ fragment)
    (whole : passed ++ unclosedTail (before ++ fragment) = before ++ fragment) : '<' ∈ passed := by
  unfold SafeCut at unsafe_cut
  rw [(takeWhile_plain plain cut).1, (takeWhile_plain plain cut).2, not_or] at unsafe_cut
  obtain ⟨some', leaks⟩ := unsafe_cut
  obtain ⟨tail, shape⟩ := (cut.resolve_left some').head
  have bracket : '<' ∈ before ++ fragment := by
    rw [shape]
    exact List.mem_append_right _ List.mem_cons_self
  unfold unclosedTail at whole
  cases found : rfind controlTokenStart (before ++ fragment) with
  | none =>
    rw [found] at whole
    simp only [List.append_nil] at whole
    rw [whole]
    exact bracket
  | some start =>
    rw [found] at whole
    simp only at whole
    by_cases held : 0 < start ∧ findFrom controlTokenEnd (before ++ fragment) start = none
    · rw [if_pos held] at whole
      have passed_eq : passed = (before ++ fragment).take start := by
        have both : passed ++ (before ++ fragment).drop start =
            (before ++ fragment).take start ++ (before ++ fragment).drop start := by
          rw [whole, List.take_append_drop]
        exact List.append_cancel_right both
      have late : before.length < start := by
        obtain ⟨-, occurs, -⟩ := rfind_eq_some found
        rcases Nat.lt_trichotomy start before.length with early | same | late
        · exact absurd occurs (plain_no_start plain early)
        · exfalso
          rw [same] at found held
          have inner := (rfind_append.mp found : rfind controlTokenStart fragment = some 0)
          refine leaks ⟨List.length_pos_iff.mp held.1, fun member => ?_, inner⟩
          exact no_bullet (List.mem_append_right _ member)
        · exact late
      rw [passed_eq, List.take_append, List.take_of_length_le (Nat.le_of_lt late), shape]
      obtain ⟨more, eq⟩ : ∃ more, start - before.length = more + 1 := ⟨start - before.length - 1, by omega⟩
      rw [eq, List.take_succ_cons]
      exact List.mem_append_right _ List.mem_cons_self
    · rw [if_neg held, List.append_nil] at whole
      rw [whole]
      exact bracket

end Buffer

section Feed

variable {p : HeuristicToolParser} {chunk before fragment : Str}

theorem feed_safe (idle : p.state = .text) (stripped : stripControlTokens 0 (p.buffer ++ chunk) = before ++ fragment)
    (plain : ∀ c ∈ before, IsPlain c) (cut : fragment = [] ∨ IsFragment fragment) (safe : SafeCut (before ++ fragment)) :
    (p.feed chunk).1 = before ∧ (p.feed chunk).2.1 = [] ∧ (p.feed chunk).2.2.state = .text ∧
      (p.feed chunk).2.2.buffer = fragment := by
  obtain ⟨no_bullet, tail⟩ := unclosedTail_of_safe plain cut safe
  have missing : find bullet (before ++ fragment) = none := by
    cases found : find bullet (before ++ fragment) with
    | none => rfl
    | some i => exact absurd (List.mem_of_mem_drop (List.mem_of_mem_head? (bullet_at found).2.1)) no_bullet
  let loaded : HeuristicToolParser := { p with buffer := before ++ fragment }
  obtain ⟨leaves, tools, state, buffer, whole⟩ := textBlock_clear (p := loaded) idle missing
  have turn : loaded.block = loaded.textBlock := by
    rw [block, show loaded.state = .text from idle]
  have result : p.feed chunk = (loaded.textBlock.filtered, loaded.textBlock.tools, loaded.textBlock.parser) := by
    unfold feed
    rw [stripped]
    show feedLoop (3 * loaded.buffer.length + 2 + 1) loaded = _
    rw [feedLoop, turn, if_pos leaves]
  rw [tail] at buffer whole
  rw [result]
  exact ⟨List.append_cancel_right whole, tools, state, buffer⟩

theorem feed_unsafe (idle : p.state = .text) (stripped : stripControlTokens 0 (p.buffer ++ chunk) = before ++ fragment)
    (plain : ∀ c ∈ before, IsPlain c) (cut : fragment = [] ∨ IsFragment fragment)
    (unsafe_cut : ¬ SafeCut (before ++ fragment)) :
    '<' ∈ (p.feed chunk).1 := by
  let loaded : HeuristicToolParser := { p with buffer := before ++ fragment }
  have turn : loaded.block = loaded.textBlock := by
    rw [block, show loaded.state = .text from idle]
  have unfolded : p.feed chunk = feedLoop (3 * loaded.buffer.length + 2 + 1) loaded := by
    unfold feed
    rw [stripped]
  rw [unfolded]
  cases found : find bullet loaded.buffer with
  | none =>
    have no_bullet := bullet_missing found
    obtain ⟨leaves, -, -, -, whole⟩ := textBlock_clear (p := loaded) idle found
    rw [feedLoop, turn, if_pos leaves]
    exact leak_of_unsafe plain cut unsafe_cut no_bullet whole
  | some i =>
    -- The bullet is behind the bracket of the fragment, which is passed on with what is before the bullet.
    obtain ⟨-, head, inside⟩ := bullet_at found
    have step : loaded.textBlock = ⟨loaded.buffer.take i, [], false,
        { loaded with buffer := loaded.buffer.drop i, state := .matchingFunction }⟩ := by rw [textBlock, found]
    have bulleted : (before ++ fragment).drop i ≠ [] := by
      intro empty
      change ((before ++ fragment).drop i).head? = some '●' at head
      rw [empty] at head
      cases head
    have bracket : '<' ∈ (before ++ fragment).take i := by
      obtain ⟨tail, shape⟩ : ∃ tail, fragment = '<' :: tail := by
        rcases cut with rfl | cut
        · exact absurd (.inl ((takeWhile_plain plain (.inl rfl)).2)) unsafe_cut
        · exact cut.head
      have late : before.length < i := by
        rcases Nat.lt_trichotomy i before.length with early | same | late
        · change ((before ++ fragment).drop i).head? = some '●' at head
          rw [List.drop_append_of_le_length (Nat.le_of_lt early), List.drop_eq_getElem_cons early, List.cons_append,
            List.head?_cons, Option.some.injEq] at head
          exact absurd head (plain _ (List.getElem_mem early)).2.2.2
        · change ((before ++ fragment).drop i).head? = some '●' at head
          rw [same, List.drop_left' rfl, shape, List.head?_cons, Option.some.injEq] at head
          exact absurd head (by decide)
        · exact late
      obtain ⟨more, eq⟩ : ∃ more, i - before.length = more + 1 := ⟨i - before.length - 1, by omega⟩
      rw [List.take_append, List.take_of_length_le (Nat.le_of_lt late), shape, eq, List.take_succ_cons]
      exact List.mem_append_right _ List.mem_cons_self
    rw [feedLoop_next _ (by rw [turn, step]), turn, step]
    exact List.mem_append_left _ bracket

theorem IsFragment.not_marked (cut : IsFragment fragment) {rest : Str} : ¬ Marked fragment rest := by
  intro marked
  have same := marked.strip_append []
  rw [List.append_nil, cut.strip] at same
  obtain ⟨tail, shape⟩ := cut.head
  have member : '<' ∈ rest := by
    rw [shape] at same
    have empty : rest = '<' :: tail := by
      rw [same]
      exact (List.append_nil rest).symm
    rw [empty]
    exact List.mem_cons_self
  exact (marked.all_plain _ member).1 rfl

theorem feedAll_iff {texts : List Str} (idle : p.state = .text) {rest : Str}
    (marked : Marked (p.buffer ++ texts.flatten) rest)
    (start : p.buffer = [] ∨ IsFragment p.buffer) :
    (p.feedAll texts).1 = rest ∧ (p.feedAll texts).2.1 = [] ↔ CutSafely p.buffer texts := by
  induction texts generalizing p rest with
  | nil =>
    rw [List.flatten_nil, List.append_nil] at marked
    have empty : p.buffer = [] := start.resolve_right fun cut => cut.not_marked marked
    rw [empty] at marked
    have nothing : [] = rest ++ [] := marked.strip_append []
    rw [(List.append_eq_nil_iff.mp nothing.symm).1]
    exact iff_of_true ⟨rfl, rfl⟩ trivial
  | cons chunk texts ih =>
    rw [List.flatten_cons, ← List.append_assoc] at marked
    obtain ⟨done, fragment, before, after, front, first, second, whole, cut⟩ := marked.cut rfl
    have plain := first.all_plain
    have stripped : stripControlTokens 0 (p.buffer ++ chunk) = before ++ fragment := by
      rw [front, first.strip_append]
      rcases cut with rfl | cut
      · rfl
      · rw [cut.strip]
    have output : p.feedAll (chunk :: texts) = ((p.feed chunk).1 ++ ((p.feed chunk).2.2.feedAll texts).1,
        (p.feed chunk).2.1 ++ ((p.feed chunk).2.2.feedAll texts).2.1, ((p.feed chunk).2.2.feedAll texts).2.2) := rfl
    rw [CutSafely, stripped, (takeWhile_plain plain cut).2, output, whole]
    by_cases safe : SafeCut (before ++ fragment)
    · obtain ⟨text, tools, state, buffer⟩ := feed_safe idle stripped plain cut safe
      have later := ih (p := (p.feed chunk).2.2) state (buffer ▸ second) (buffer ▸ cut)
      rw [buffer] at later
      rw [text, tools, List.nil_append, List.append_right_inj, later, and_iff_right safe]
    · have leak := feed_unsafe idle stripped plain cut safe
      apply iff_of_false
      · intro same
        have member : '<' ∈ before ++ after := by
          rw [← same.1]
          exact List.mem_append_left _ leak
        rw [← whole] at member
        exact (marked.all_plain _ member).1 rfl
      · exact fun both => safe both.1

end Feed

/-- Control tokens leave no trace of themselves exactly if every chunk boundary inside a token is safe: it is behind the bar,
the token has neither a bullet nor a second start before it, other text stands before the token in what the call of feed
looks at, and the next chunk completes the token. -/
theorem no_leak_iff (text rest : Str) (marked : Marked text rest) (chunks : List Str) (split : chunks.flatten = text) :
    (new.feedAll chunks).1 = rest ∧ (new.feedAll chunks).2.1 = [] ↔ CutSafely [] chunks := by
  subst split
  exact feedAll_iff rfl marked (.inl rfl)

theorem inner_xy : IsInner ['x', 'y'] := by
  refine ⟨?_, ?_, ?_, ?_⟩ <;> decide

theorem no_leak_behind_text :
    (new.feedAll [['a', '<', '|', 'x'], ['y', '|', '>', 'b']]).1 = ['a', 'b'] ∧
      (new.feedAll [['a', '<', '|', 'x'], ['y', '|', '>', 'b']]).2.1 = [] := by
  have plain_a : IsPlain 'a' := by decide
  have plain_b : IsPlain 'b' := by decide
  have marked : Marked ('a' :: (controlToken ['x', 'y'] ++ ['b'])) ['a', 'b'] :=
    .plain plain_a (.token inner_xy (.plain plain_b .nil))
  apply (no_leak_iff _ _ marked [['a', '<', '|', 'x'], ['y', '|', '>', 'b']] rfl).mpr
  exact ⟨by decide, by decide, trivial⟩

/-- A chunk that begins with a token which the next one completes: there is nothing to release before it. -/
theorem leak_at_chunk_start : ∃ text rest chunks, Marked text rest ∧ chunks.flatten = text ∧
    ¬ ((new.feedAll chunks).1 = rest ∧ (new.feedAll chunks).2.1 = []) := by
  refine ⟨controlToken ['x', 'y'] ++ [], [], [['<', '|', 'x'], ['y', '|', '>']], .token inner_xy .nil, rfl, ?_⟩
  decide

end ClaudeProxy.Providers
