import ClaudeProxy.Kit.FencedLines
import ClaudeProxy.Kit.Lines
import ClaudeProxy.Providers.NativeStream

namespace ClaudeProxy.Rendering

open Kit Providers

/-- `line.split("|")` -/
def splitBar (line : Str) : List Str := (Lines.cut '|' line).1 ++ [(Lines.cut '|' line).2]

/-- `\s*:?-{3,}:?\s*` -/
def isDashCell (cell : Str) : Bool :=
  let inner := strip cell
  let inner := if inner.head? = some ':' then inner.tail else inner
  let dashes := if inner.getLast? = some ':' then inner.dropLast else inner
  3 ≤ dashes.length ∧ dashes.all (· = '-')

/-- `_TABLE_SEP_RE`, cell by cell: at least two cells of dashes, and a bar before and after them that may be missing. -/
def isTableSeparator (line : Str) : Bool :=
  let cells := splitBar line
  let cells := if (cells.head?.map strip) = some [] then cells.tail else cells
  let cells := if (cells.getLast?.map strip) = some [] then cells.dropLast else cells
  2 ≤ cells.length ∧ cells.all isDashCell

/-- `_FENCE_RE` -/
def isFenceLine (line : Str) : Bool := "```".toList.isPrefixOf (line.dropWhile isSpace)

def isGfmTableHeaderLine (line : Str) : Bool :=
  let inner := ((strip line).dropWhile (· = '|')).rdropWhile (· = '|')
  '|' ∈ line ∧ !isTableSeparator line ∧ 2 ≤ (((splitBar inner).map strip).filter (· ≠ [])).length

/-- The condition for a blank line before a line, after what has been written last. -/
def startsTable (inFence : Bool) (last : Option Str) (line : Str) (rest : List Str) : Bool :=
  !isFenceLine line ∧ !inFence ∧ isGfmTableHeaderLine line ∧ rest.head?.any isTableSeparator ∧ last.any (strip · ≠ [])

/-- The loop over the lines. -/
def normalizeFrom : Bool → Option Str → List Str → List Str
  | _, _, [] => []
  | inFence, last, line :: rest =>
    if isFenceLine line then line :: normalizeFrom (!inFence) (some line) rest
    else if startsTable inFence last line rest then
      line.takeWhile isSpace :: line :: normalizeFrom inFence (some line) rest
    else line :: normalizeFrom inFence (some line) rest

/-- `_normalize_gfm_tables` -/
def normalizeGfmTables (text : Str) : Str :=
  let lines := splitlines text
  if lines.length < 2 then text else EventStream.joinData (normalizeFrom false none lines)

/-- The lines of a text without the empty lines at its end. -/
def linesOf (text : Str) : List Str := (splitlines text).rdropWhile (· = [])

def Blank (line : Str) : Prop := ∀ c ∈ line, isSpace c = true

/-- Only blank lines are put in, none of them inside a fenced code block, and doing it again changes nothing. -/
structure SafeNormalization (text : Str) : Prop where
  padded : Padded Fence.step (· = none) Blank none (linesOf text) (linesOf (normalizeGfmTables text))
  idempotent : linesOf (normalizeGfmTables (normalizeGfmTables text)) = linesOf (normalizeGfmTables text)

/-- After an even number of lines that start with three backticks, the head of a table inside a fenced code block. -/
def MisplacedTable (lines : List Str) : Prop :=
  ∃ before header rest, lines = before ++ header :: rest ∧
    startsTable (before.countP isFenceLine % 2 = 1) before.getLast? header rest = true ∧ before.foldl Fence.step none ≠ none

section Blanks

variable {line : Str}

theorem blank_takeWhile (line : Str) : Blank (line.takeWhile isSpace) := fun _ mem => List.mem_takeWhile_imp mem

theorem strip_blank (blank : Blank line) : strip line = [] := by
  have none : line.dropWhile isSpace = [] := List.dropWhile_eq_nil_iff.mpr blank
  rw [strip, none]
  rfl

theorem isSpace_bar : isSpace '|' = false := by decide

theorem bar_not_mem (blank : Blank line) : '|' ∉ line := by
  intro mem
  have space := blank _ mem
  rw [isSpace_bar] at space
  cases space

theorem not_isFenceLine_blank (blank : Blank line) : isFenceLine line = false := by
  have none : line.dropWhile isSpace = [] := List.dropWhile_eq_nil_iff.mpr blank
  rw [isFenceLine, none]
  rfl

theorem not_header_blank (blank : Blank line) : isGfmTableHeaderLine line = false := by
  rw [isGfmTableHeaderLine, decide_eq_false_iff_not]
  exact fun header => bar_not_mem blank header.1

theorem not_separator_blank (blank : Blank line) : isTableSeparator line = false := by
  simp [isTableSeparator, splitBar, Lines.cut_unfinished (bar_not_mem blank), strip_blank blank]

theorem step_blank (fence : Option Fence) (line : Str) (blank : Blank line) (closed : fence = none) :
    Fence.step fence line = fence := by
  have plain : Fence.run? line = none := by
    apply Fence.run?_eq_none
    intro c mem
    have space := blank c mem
    constructor
    · rintro rfl
      cases space
    · rintro rfl
      cases space
  subst closed
  simp only [Fence.step, plain]

end Blanks

section Scan

variable {inFence : Bool} {last : Option Str} {line : Str} {rest : List Str}

theorem startsTable_header (starts : startsTable inFence last line rest = true) : isGfmTableHeaderLine line = true :=
  (of_decide_eq_true starts).2.2.1

theorem normalizeFrom_table (starts : startsTable inFence last line rest = true) :
    normalizeFrom inFence last (line :: rest) =
      line.takeWhile isSpace :: line :: normalizeFrom inFence (some line) rest := by
  have plain : ¬ isFenceLine line = true := by simpa using (of_decide_eq_true starts).1
  rw [normalizeFrom, if_neg plain, if_pos starts]

theorem normalizeFrom_copy (starts : startsTable inFence last line rest = false) :
    normalizeFrom inFence last (line :: rest) = line :: normalizeFrom (inFence ^^ isFenceLine line) (some line) rest := by
  rw [normalizeFrom]
  cases isFenceLine line <;> simp [starts]

theorem head_normalizeFrom (inFence : Bool) (last : Option Str) (lines : List Str)
    (separator : (normalizeFrom inFence last lines).head?.any isTableSeparator = true) :
    lines.head?.any isTableSeparator = true := by
  cases lines with
  | nil => cases separator
  | cons line rest =>
    cases starts : startsTable inFence last line rest with
    | true =>
      rw [normalizeFrom_table starts] at separator
      have indent := not_separator_blank (blank_takeWhile line)
      simp [indent] at separator
    | false =>
      rw [normalizeFrom_copy starts] at separator
      exact separator

theorem startsTable_blank (blank : Blank line) : startsTable inFence last line rest = false := by
  simp [startsTable, not_header_blank blank]

theorem startsTable_after_blank {before : Str} (blank : Blank before) :
    startsTable inFence (some before) line rest = false := by
  simp [startsTable, strip_blank blank]

theorem normalizeFrom_idempotent (inFence : Bool) (last : Option Str) (lines : List Str) :
    normalizeFrom inFence last (normalizeFrom inFence last lines) = normalizeFrom inFence last lines := by
  induction lines generalizing inFence last with
  | nil => rfl
  | cons line rest ih =>
    cases starts : startsTable inFence last line rest with
    | true =>
      have plain : isFenceLine line = false := by simpa using (of_decide_eq_true starts).1
      have indent := blank_takeWhile line
      rw [normalizeFrom_table starts, normalizeFrom_copy (startsTable_blank indent), not_isFenceLine_blank indent,
        Bool.xor_false, normalizeFrom_copy (startsTable_after_blank indent), plain, Bool.xor_false, ih]
    | false =>
      have again : startsTable inFence last line (normalizeFrom (inFence ^^ isFenceLine line) (some line) rest) = false := by
        by_contra other
        rw [Bool.not_eq_false, startsTable, decide_eq_true_eq] at other
        obtain ⟨plain, outside, header, separator, follows⟩ := other
        have starts' : startsTable inFence last line rest = true :=
          decide_eq_true ⟨plain, outside, header, head_normalizeFrom _ _ _ separator, follows⟩
        rw [starts] at starts'
        cases starts'
      rw [normalizeFrom_copy starts, normalizeFrom_copy again, ih]

theorem normalizeFrom_append_empty (inFence : Bool) (last : Option Str) (lines : List Str) (k : Nat) :
    normalizeFrom inFence last (lines ++ List.replicate k []) = normalizeFrom inFence last lines ++ List.replicate k [] := by
  have empty : Blank [] := fun _ mem => absurd mem List.not_mem_nil
  have single : isTableSeparator [] = false := not_separator_blank empty
  induction lines generalizing inFence last with
  | nil =>
    induction k generalizing inFence last with
    | zero => rfl
    | succ k ih =>
      rw [List.nil_append, List.replicate_succ, normalizeFrom_copy (startsTable_blank empty), not_isFenceLine_blank empty,
        Bool.xor_false]
      exact congrArg ([] :: ·) (ih inFence (some []))
  | cons line rest ih =>
    have next : (rest ++ List.replicate k []).head?.any isTableSeparator = rest.head?.any isTableSeparator := by
      cases rest with
      | nil => cases k <;> simp [List.replicate_succ, single]
      | cons => rfl
    have same : startsTable inFence last line (rest ++ List.replicate k []) = startsTable inFence last line rest := by
      rw [startsTable, startsTable, next]
    cases starts : startsTable inFence last line rest with
    | true =>
      rw [List.cons_append, normalizeFrom_table (same.trans starts), normalizeFrom_table starts, ih]
      rfl
    | false =>
      rw [List.cons_append, normalizeFrom_copy (same.trans starts), normalizeFrom_copy starts, ih]
      rfl

theorem getLast?_normalizeFrom (inFence : Bool) (last : Option Str) (lines : List Str) :
    (normalizeFrom inFence last lines).getLast? = lines.getLast? := by
  induction lines generalizing inFence last with
  | nil => rfl
  | cons line rest ih =>
    cases starts : startsTable inFence last line rest with
    | true =>
      rw [normalizeFrom_table starts, List.getLast?_cons, List.getLast?_cons, ih, List.getLast?_cons]
      rfl
    | false => rw [normalizeFrom_copy starts, List.getLast?_cons, ih, List.getLast?_cons]

end Scan

section Fences

/-- The head of a table inside a fenced code block, in a run from any state of both. -/
def Misplaced (inFence : Bool) (fence : Option Fence) (last : Option Str) (lines : List Str) : Prop :=
  ∃ before header rest, lines = before ++ header :: rest ∧
    startsTable (inFence ^^ (before.countP isFenceLine % 2 = 1)) (before.getLast?.or last) header rest = true ∧
    before.foldl Fence.step fence ≠ none

theorem misplaced_iff (lines : List Str) : Misplaced false none none lines ↔ MisplacedTable lines := by
  unfold Misplaced MisplacedTable
  simp only [Bool.false_xor, Option.or_none]

theorem odd_succ (n : Nat) : decide ((n + 1) % 2 = 1) = !decide (n % 2 = 1) := by
  rw [← decide_not, decide_eq_decide]
  omega

theorem misplaced_cons (inFence : Bool) (fence : Option Fence) (last : Option Str) (line : Str) (rest : List Str) :
    Misplaced inFence fence last (line :: rest) ↔
      startsTable inFence last line rest = true ∧ fence ≠ none ∨
        Misplaced (inFence ^^ isFenceLine line) (Fence.step fence line) (some line) rest := by
  have parity (before : List Str) : (inFence ^^ decide ((line :: before).countP isFenceLine % 2 = 1)) =
      (inFence ^^ isFenceLine line ^^ decide (before.countP isFenceLine % 2 = 1)) := by
    rw [List.countP_cons]
    cases isFenceLine line
    · rw [if_neg Bool.false_ne_true, Nat.add_zero, Bool.xor_false]
    · rw [if_pos rfl, odd_succ]
      cases inFence <;> cases decide (before.countP isFenceLine % 2 = 1) <;> rfl
  have latest (before : List Str) : (line :: before).getLast?.or last = before.getLast?.or (some line) := by
    rw [List.getLast?_cons]
    cases before.getLast? <;> rfl
  constructor
  · rintro ⟨before, header, after, shape, starts, inside⟩
    cases before with
    | nil =>
      obtain ⟨rfl, rfl⟩ := List.cons.inj shape
      left
      exact ⟨by simpa using starts, inside⟩
    | cons first before =>
      obtain ⟨rfl, rfl⟩ := List.cons.inj shape
      right
      rw [parity, latest] at starts
      exact ⟨before, header, after, rfl, starts, inside⟩
  · rintro (⟨starts, inside⟩ | ⟨before, header, after, shape, starts, inside⟩)
    · exact ⟨[], line, rest, rfl, by simpa using starts, inside⟩
    · refine ⟨line :: before, header, after, congrArg (line :: ·) shape, ?_, inside⟩
      rw [parity, latest]
      exact starts

/-- Without a misplaced table the lines are padded outside the code blocks only, and no other way round. -/
theorem padded_normalizeFrom_iff (inFence : Bool) (fence : Option Fence) (last : Option Str) (lines : List Str) :
    Padded Fence.step (· = none) Blank fence lines (normalizeFrom inFence last lines) ↔
      ¬ Misplaced inFence fence last lines := by
  induction lines generalizing inFence fence last with
  | nil =>
    have none : ¬ Misplaced inFence fence last [] := by
      rintro ⟨before, header, rest, shape, -⟩
      cases before <;> cases shape
    exact iff_of_true .nil none
  | cons line rest ih =>
    rw [misplaced_cons, not_or, ← ih]
    cases starts : startsTable inFence last line rest with
    | true =>
      have plain : isFenceLine line = false := by simpa using (of_decide_eq_true starts).1
      have differ : line ≠ line.takeWhile isSpace := by
        intro same
        have header := startsTable_header starts
        rw [same, not_header_blank (blank_takeWhile line)] at header
        cases header
      rw [normalizeFrom_table starts, plain, Bool.xor_false]
      constructor
      · intro padded
        obtain ⟨outside, rest⟩ := padded.head differ
        exact ⟨fun misplaced => misplaced.2 outside, rest.tail step_blank⟩
      · rintro ⟨outside, rest⟩
        have free : fence = none := by simpa using outside
        exact .pad (blank_takeWhile line) free (.keep rest)
    | false =>
      rw [normalizeFrom_copy starts]
      constructor
      · intro padded
        exact ⟨fun misplaced => Bool.noConfusion misplaced.1, padded.tail step_blank⟩
      · rintro ⟨-, rest⟩
        exact .keep rest

end Fences

section Texts

theorem unbroken_splitlines (text : Str) : ∀ line ∈ splitlines text, ∀ c ∈ line, isPythonBreak c = false := by
  have inside := @EventStream.breakLines_inside isPythonBreak text
  intro line mem
  rcases List.mem_append.mp mem with ended | left
  · exact inside.1 line ended
  · split_ifs at left with empty
    · cases left
    · rw [List.mem_singleton.mp left]
      exact inside.2

theorem unbroken_normalizeFrom {inFence : Bool} {last : Option Str} {lines : List Str}
    (unbroken : ∀ line ∈ lines, ∀ c ∈ line, isPythonBreak c = false) :
    ∀ line ∈ normalizeFrom inFence last lines, ∀ c ∈ line, isPythonBreak c = false := by
  induction lines generalizing inFence last with
  | nil => exact unbroken
  | cons line rest ih =>
    obtain ⟨here, later⟩ := List.forall_mem_cons.mp unbroken
    cases starts : startsTable inFence last line rest with
    | true =>
      rw [normalizeFrom_table starts]
      have indent : ∀ c ∈ line.takeWhile isSpace, isPythonBreak c = false :=
        fun c mem => here c ((List.takeWhile_sublist _).subset mem)
      exact List.forall_mem_cons.mpr ⟨indent, List.forall_mem_cons.mpr ⟨here, ih later⟩⟩
    | false =>
      rw [normalizeFrom_copy starts]
      exact List.forall_mem_cons.mpr ⟨here, ih later⟩

theorem linesOf_joinData {lines : List Str} (unbroken : ∀ line ∈ lines, ∀ c ∈ line, isPythonBreak c = false) :
    linesOf (EventStream.joinData lines) = lines.rdropWhile (· = []) := by
  rcases List.eq_nil_or_concat lines with rfl | ⟨init, final, rfl⟩
  · rfl
  · rw [List.concat_eq_append] at unbroken ⊢
    have inside := fun line (mem : line ∈ init) => unbroken line (List.mem_append_left _ mem)
    have unfinished := EventStream.breakLines_unfinished (by decide) (unbroken final (by simp))
    have broken := EventStream.breakLines_join (by decide) (by decide) inside final
    rw [unfinished, List.append_nil] at broken
    rw [EventStream.joinData_concat, linesOf, splitlines, broken]
    by_cases empty : final = []
    · simp [empty, List.rdropWhile_concat_pos]
    · simp [empty]

theorem eq_append_replicate (lines : List Str) : ∃ k, lines = lines.rdropWhile (· = []) ++ List.replicate k [] := by
  refine ⟨(lines.rtakeWhile (· = [])).length, ?_⟩
  have empty : lines.rtakeWhile (· = []) = List.replicate (lines.rtakeWhile (· = [])).length [] := by
    apply List.eq_replicate_of_mem
    intro line mem
    have here := List.mem_rtakeWhile_imp mem
    simpa using here
  rw [← empty, List.rdropWhile_append_rtakeWhile]

theorem rdropWhile_append_replicate (lines : List Str) (k : Nat) :
    (lines ++ List.replicate k []).rdropWhile (· = []) = lines.rdropWhile (· = []) := by
  induction k with
  | zero => rw [List.replicate_zero, List.append_nil]
  | succ k ih =>
    rw [List.replicate_succ', ← List.append_assoc, List.rdropWhile_concat_pos _ _ _ (by decide), ih]

/-- The last line stays, so that the empty lines at the end may be left out before or after. -/
theorem rdropWhile_normalizeFrom (inFence : Bool) (last : Option Str) (lines : List Str) :
    (normalizeFrom inFence last lines).rdropWhile (· = []) = normalizeFrom inFence last (lines.rdropWhile (· = [])) := by
  obtain ⟨k, whole⟩ := eq_append_replicate lines
  conv_lhs => rw [whole]
  rw [normalizeFrom_append_empty, rdropWhile_append_replicate, List.rdropWhile_eq_self_iff]
  intro some
  have final := getLast?_normalizeFrom inFence last (lines.rdropWhile (· = []))
  rw [List.getLast?_eq_some_getLast some] at final
  have kept : lines.rdropWhile (· = []) ≠ [] := by
    intro none
    apply some
    rw [none]
    rfl
  rw [List.getLast?_eq_some_getLast kept] at final
  rw [Option.some.inj final]
  exact List.rdropWhile_last_not _ _ kept

theorem normalizeFrom_short {lines : List Str} (short : lines.length < 2) : normalizeFrom false none lines = lines := by
  match lines with
  | [] => rfl
  | [line] =>
    have alone : startsTable false none line [] = false := by simp [startsTable]
    rw [normalizeFrom_copy alone]
    rfl

theorem linesOf_normalizeGfmTables (text : Str) :
    linesOf (normalizeGfmTables text) = normalizeFrom false none (linesOf text) := by
  rw [normalizeGfmTables]
  split_ifs with short
  · rw [normalizeFrom_short]
    exact Nat.lt_of_le_of_lt (List.rdropWhile_prefix _ _).length_le short
  · rw [linesOf_joinData (unbroken_normalizeFrom (unbroken_splitlines text)), rdropWhile_normalizeFrom]
    rfl

/-- The normalisation is safe for a text if and only if no table is misplaced in it. -/
theorem safeNormalization_iff (text : Str) : SafeNormalization text ↔ ¬ MisplacedTable (linesOf text) := by
  have padded := padded_normalizeFrom_iff false none none (linesOf text)
  rw [misplaced_iff, ← linesOf_normalizeGfmTables] at padded
  constructor
  · exact fun safe => padded.mp safe.padded
  · intro placed
    refine ⟨padded.mpr placed, ?_⟩
    rw [linesOf_normalizeGfmTables, linesOf_normalizeGfmTables, normalizeFrom_idempotent]

end Texts

def tildeFence : Str := "~~~\ncode\na | b\n--- | ---\n~~~".toList

/-- A blank line is put into a code block with tildes. -/
theorem not_safeNormalization : ¬ SafeNormalization tildeFence := by
  intro safe
  have padded := safe.padded
  rw [linesOf_normalizeGfmTables, padded_normalizeFrom_iff, misplaced_iff] at padded
  apply padded
  have lines : linesOf tildeFence = ["~~~".toList, "code".toList] ++
    "a | b".toList :: ["--- | ---".toList, "~~~".toList] := by
    decide
  refine ⟨_, _, _, lines, ?_, ?_⟩
  · decide
  · decide

end ClaudeProxy.Rendering
