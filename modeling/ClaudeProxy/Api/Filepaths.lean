import ClaudeProxy.Api.Detection
import ClaudeProxy.Providers.ErrorMapping

namespace ClaudeProxy.Api

open Kit Providers

/-- The arguments of a `grep` command as they are meant. -/
inductive GrepArgument where
  | operand (word : Str)
  | flag (word : Str)
  /-- A flag with the argument behind it. -/
  | valued (word value : Str)

namespace GrepArgument

def WellFormed : GrepArgument → Prop
  | .operand word => isOption word = false
  | .flag word => isOption word = true ∧ word ∉ grepFlagsWithArgs
  | .valued word _ => word ∈ grepFlagsWithArgs

def words : GrepArgument → List Str
  | .operand word => [word]
  | .flag word => [word]
  | .valued word value => [word, value]

def operand? : GrepArgument → Option Str
  | .operand word => some word
  | _ => none

def givesPattern : GrepArgument → Bool
  | .valued word _ => word ∈ ["-e".toList, "-f".toList]
  | _ => false

end GrepArgument

/-- All arguments; the last flag may lack the argument that it takes. -/
structure GrepLine where
  arguments : List GrepArgument
  unfinished : Option Str
  well_formed : ∀ argument ∈ arguments, argument.WellFormed
  takes_argument : ∀ flag ∈ unfinished, flag ∈ grepFlagsWithArgs

namespace GrepLine

def words (line : GrepLine) : List Str := line.arguments.flatMap GrepArgument.words ++ line.unfinished.toList

def givesPattern (line : GrepLine) : Bool :=
  line.arguments.any GrepArgument.givesPattern || line.unfinished.any (· ∈ ["-e".toList, "-f".toList])

/-- The operands without the pattern, which is the first of them unless a flag gave it. -/
def files (line : GrepLine) : List Str :=
  let operands := line.arguments.filterMap GrepArgument.operand?
  if line.givesPattern then operands else operands.tail

end GrepLine

theorem isOption_of_takes_argument {flag : Str} (takes : flag ∈ grepFlagsWithArgs) : isOption flag = true :=
  (by decide : ∀ flag ∈ grepFlagsWithArgs, isOption flag = true) flag takes

theorem grepLoop_argument {argument : GrepArgument} (formed : argument.WellFormed) (provided : Bool) (positional rest : List Str) :
    grepLoop false provided positional (argument.words ++ rest) =
      grepLoop false (provided || argument.givesPattern) (positional ++ argument.operand?.toList) rest := by
  cases argument with
  | operand word =>
    have plain : isOption word = false := formed
    simp [GrepArgument.words, GrepArgument.givesPattern, GrepArgument.operand?, grepLoop, plain]
  | flag word =>
    obtain ⟨option, alone⟩ := formed
    simp [GrepArgument.words, GrepArgument.givesPattern, GrepArgument.operand?, grepLoop, option, alone]
  | valued word value =>
    have takes : word ∈ grepFlagsWithArgs := formed
    simp [GrepArgument.words, GrepArgument.givesPattern, GrepArgument.operand?, grepLoop, takes,
      isOption_of_takes_argument takes]

theorem grepLoop_arguments {arguments : List GrepArgument} (formed : ∀ argument ∈ arguments, argument.WellFormed)
    (provided : Bool) (positional rest : List Str) :
    grepLoop false provided positional (arguments.flatMap GrepArgument.words ++ rest) =
      grepLoop false (provided || arguments.any GrepArgument.givesPattern)
        (positional ++ arguments.filterMap GrepArgument.operand?) rest := by
  induction arguments generalizing provided positional with
  | nil => simp
  | cons argument arguments ih =>
    have head := formed argument (List.mem_cons_self ..)
    have tail : ∀ other ∈ arguments, other.WellFormed := fun other mem => formed other (List.mem_cons_of_mem _ mem)
    rw [List.flatMap_cons, List.append_assoc, grepLoop_argument head, ih tail, List.any_cons, Bool.or_assoc,
      List.append_assoc]
    congr 2
    cases shape : argument.operand? <;> simp [shape]

theorem grepFilepaths_words (line : GrepLine) : grepFilepaths line.words = line.files := by
  unfold grepFilepaths GrepLine.words GrepLine.files GrepLine.givesPattern
  rw [grepLoop_arguments line.well_formed]
  cases last : line.unfinished with
  | none => simp [grepLoop]
  | some flag =>
    have takes := line.takes_argument flag last
    simp [grepLoop, takes, isOption_of_takes_argument takes]

/-- Whatever stands behind `grep` can be read so. -/
theorem exists_grepLine (arguments : List Str) : ∃ line : GrepLine, line.words = arguments := by
  induction size : arguments.length using Nat.strong_induction_on generalizing arguments with | _ n ih => ?_
  have extend : ∀ (argument : GrepArgument) (rest : List Str), argument.WellFormed → arguments = argument.words ++ rest →
      rest.length < n → ∃ line : GrepLine, line.words = arguments := by
    intro argument rest formed eq shorter
    obtain ⟨line, words⟩ := ih rest.length shorter rest rfl
    refine ⟨⟨argument :: line.arguments, line.unfinished, List.forall_mem_cons.mpr ⟨formed, line.well_formed⟩,
      line.takes_argument⟩, ?_⟩
    rw [eq, ← words, GrepLine.words, List.flatMap_cons, List.append_assoc]
    rfl
  subst size
  cases arguments with
  | nil => exact ⟨⟨[], none, List.forall_mem_nil _, by simp⟩, rfl⟩
  | cons part rest =>
    by_cases takes : part ∈ grepFlagsWithArgs
    · cases rest with
      | nil => exact ⟨⟨[], some part, List.forall_mem_nil _, by simp [takes]⟩, rfl⟩
      | cons value rest =>
        refine extend (.valued part value) rest takes rfl ?_
        simp only [List.length_cons]
        omega
    · cases option : isOption part with
      | true => exact extend (.flag part) rest ⟨option, takes⟩ rfl (Nat.lt_succ_self _)
      | false => exact extend (.operand part) rest option rfl (Nat.lt_succ_self _)

/-- The lines of an answer between its first and its last. -/
def blockPaths (text : Str) : List Str := (text.splitOn '\n').tail.dropLast

theorem filepathsBlock_eq (filepaths : List Str) : filepathsBlock filepaths =
    ['\n'].intercalate ("<filepaths>".toList :: (filepaths ++ ["</filepaths>".toList])) := by
  cases filepaths with
  | nil => rfl
  | cons first rest =>
    have append : ∀ (paths : List Str) (last : Str), paths ≠ [] →
        ['\n'].intercalate (paths ++ [last]) = ['\n'].intercalate paths ++ '\n' :: last := by
      intro paths last some
      induction paths with
      | nil => exact absurd rfl some
      | cons path paths ih =>
        cases paths with
        | nil => simp [List.intercalate, List.intersperse]
        | cons other paths =>
          have later := ih (List.cons_ne_nil _ _)
          simp only [List.cons_append, List.intercalate, List.intersperse, List.flatten_cons, List.append_assoc] at later ⊢
          rw [later]
    rw [filepathsBlock, if_neg (List.cons_ne_nil _ _), ← List.cons_append, append _ _ (List.cons_ne_nil _ _)]
    simp [List.intercalate, List.intersperse]

/-- The answer reads back as the paths that were put into it. -/
theorem blockPaths_filepathsBlock {filepaths : List Str} (oneLine : ∀ path ∈ filepaths, '\n' ∉ path) :
    blockPaths (filepathsBlock filepaths) = filepaths := by
  have clean : ∀ line ∈ "<filepaths>".toList :: (filepaths ++ ["</filepaths>".toList]), '\n' ∉ line := by
    refine List.forall_mem_cons.mpr ⟨by decide, List.forall_mem_append.mpr ⟨oneLine, ?_⟩⟩
    exact List.forall_mem_singleton.mpr (by decide)
  rw [blockPaths, filepathsBlock_eq, List.splitOn_intercalate _ clean (List.cons_ne_nil _ _), List.tail_cons,
    List.dropLast_concat]

theorem commandAndOutput_marked {before line : Str} (absent : ¬ "Command:".toList <:+: before)
    (absent' : ¬ "Output:".toList <:+: line) (output : Str) :
    ∃ shown, commandAndOutput (before ++ "Command:".toList ++ (line ++ "Output:".toList ++ output)) =
      some (strip line, shown) := by
  have start : find "Command:".toList (before ++ "Command:".toList ++ (line ++ "Output:".toList ++ output)) =
      some before.length := by
    have only : ':' ∉ "Command".toList := by decide
    exact find_marker only absent _
  have marker : find "Output:".toList (line ++ "Output:".toList ++ output) = some line.length := by
    have only : ':' ∉ "Output".toList := by decide
    exact find_marker only absent' output
  have length : before.length + "Command:".length = (before ++ "Command:".toList).length := by
    rw [List.length_append]
    rfl
  have cut : ((before ++ "Command:".toList ++ (line ++ "Output:".toList ++ output)).take
      (before.length + "Command:".length + line.length)).drop (before.length + "Command:".length) = line := by
    rw [length, List.take_append, List.take_of_length_le (Nat.le_add_right _ _), Nat.add_sub_cancel_left, List.drop_left,
      List.append_assoc, List.take_left]
  unfold commandAndOutput findFrom
  rw [start]
  simp only [Option.bind_eq_bind, Option.bind_some]
  have rest : (before ++ "Command:".toList ++ (line ++ "Output:".toList ++ output)).drop (before.length + "Command:".length) =
      line ++ "Output:".toList ++ output := by rw [length, List.drop_left]
  rw [rest, marker]
  simp only [Option.map_some, Option.bind_some, cut]
  exact ⟨_, rfl⟩

/-- A request for the paths of a command, which stands between its marker and that of what it wrote. -/
structure FilepathRequest (lower : Str → Str) (request : MessagesRequest) (before line output : Str) : Prop where
  content : soleUserText request = some (before ++ "Command:".toList ++ (line ++ "Output:".toList ++ output))
  first : ¬ "Command:".toList <:+: before
  next : ¬ "Output:".toList <:+: line
  no_tools : hasTools request = false
  asks : asksForFilepaths lower request (before ++ "Command:".toList ++ (line ++ "Output:".toList ++ output)) = true

/-- The paths that are reported of a command's words. -/
inductive Reported (lower : Str → Str) : List Str → List Str → Prop where
  | nothing : Reported lower [] []
  | listing {command : Str} (words : List Str) (lists : baseCommand lower command ∈ listingCommands) :
      Reported lower (command :: words) []
  | reading {command : Str} (words : List Str) (reads : baseCommand lower command ∈ readingCommands) :
      Reported lower (command :: words) (words.filter fun word => !isOption word)
  | grep {command : Str} (line : GrepLine) (searches : baseCommand lower command = "grep".toList) :
      Reported lower (command :: line.words) line.files
  | other {command : Str} (words : List Str) (listing : baseCommand lower command ∉ listingCommands)
      (reading : baseCommand lower command ∉ readingCommands) (grep : baseCommand lower command ≠ "grep".toList) :
      Reported lower (command :: words) []

theorem reported_filepathsOf (lower : Str → Str) (words : List Str) : Reported lower words (filepathsOf lower words) := by
  cases words with
  | nil => exact .nothing
  | cons command words =>
    unfold filepathsOf
    dsimp only
    split_ifs with lists reads searches
    · exact .listing words lists
    · exact .reading words reads
    · obtain ⟨line, rfl⟩ := exists_grepLine words
      rw [grepFilepaths_words]
      exact .grep line searches
    · exact .other words lists reads searches

theorem Reported.paths_eq {lower : Str → Str} {words paths : List Str} (reported : Reported lower words paths) :
    paths = filepathsOf lower words := by
  cases reported with
  | nothing => rfl
  | listing words lists => rw [filepathsOf, if_pos lists]
  | reading words reads =>
    have apart : (readingCommands.all fun command => !listingCommands.contains command) = true := by decide
    have unlisted := List.all_eq_true.mp apart _ reads
    rw [Bool.not_eq_true', List.contains_eq_mem, decide_eq_false_iff_not] at unlisted
    rw [filepathsOf, if_neg unlisted, if_pos reads]
  | grep line searches =>
    rw [filepathsOf, searches, if_neg (by decide), if_neg (by decide), if_pos rfl, grepFilepaths_words]
  | other words listing reading grep => rw [filepathsOf, if_neg listing, if_neg reading, if_neg grep]

theorem reported_iff {lower : Str → Str} {words paths : List Str} :
    Reported lower words paths ↔ paths = filepathsOf lower words :=
  ⟨Reported.paths_eq, fun same => same ▸ reported_filepathsOf lower words⟩

theorem isFilepathExtractionRequest_of {lower : Str → Str} {request : MessagesRequest} {before line output : Str}
    (asked : FilepathRequest lower request before line output) :
    ∃ shown, isFilepathExtractionRequest lower request = some (strip line, shown) := by
  obtain ⟨shown, cut⟩ := commandAndOutput_marked asked.first asked.next output
  have command : mentions "Command:" (before ++ "Command:".toList ++ (line ++ "Output:".toList ++ output)) = true := by
    have occurs : "Command:".toList <+:
        (before ++ "Command:".toList ++ (line ++ "Output:".toList ++ output)).drop before.length := by
      rw [List.append_assoc, List.drop_left]
      exact List.prefix_append ..
    exact find_isSome_of_occurs occurs
  have written : mentions "Output:" (before ++ "Command:".toList ++ (line ++ "Output:".toList ++ output)) = true := by
    have occurs : "Output:".toList <+: (before ++ "Command:".toList ++ (line ++ "Output:".toList ++ output)).drop
        (before ++ "Command:".toList ++ line).length := by
      rw [List.append_assoc line, ← List.append_assoc, List.drop_left]
      exact List.prefix_append ..
    exact find_isSome_of_occurs occurs
  refine ⟨shown, ?_⟩
  unfold isFilepathExtractionRequest
  rw [asked.content, Option.bind_some, asked.no_tools, command, written, asked.asks]
  exact cut

def grepLine : Str := " grep -n -e 'to\ndo' -A 2 src/app.py 'my notes' \n".toList

def grepRequest : MessagesRequest :=
  ⟨"claude".toList, none, [⟨.user, .text ("Find the filepaths.\nCommand:".toList ++ (grepLine ++ "Output:".toList ++ " 3".toList))⟩],
    none, none, none, none, none, none⟩

theorem grepRequest_asks :
    FilepathRequest lower grepRequest "Find the filepaths.\n".toList grepLine " 3".toList where
  content := rfl
  first := by decide +kernel
  next := by decide +kernel
  no_tools := rfl
  asks := by decide +kernel

end ClaudeProxy.Api
