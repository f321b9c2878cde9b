import ClaudeProxy.Kit.Search
import ClaudeProxy.Kit.Words
import ClaudeProxy.Providers.HeuristicToolParser

namespace ClaudeProxy.Api

open Kit Providers

def twoWordCommands : List Str :=
  ["git", "npm", "docker", "kubectl", "cargo", "go", "pip", "yarn"].map String.toList

def noPrefix : Str := "none".toList

def injectionDetected : Str := "command_injection_detected".toList

def isAssignment (part : Str) : Bool := '=' ∈ part ∧ part.head? ≠ some '-'

def substitutes (command : Str) : Bool := Char.ofNat 96 ∈ command ∨ (find "$(".toList command).isSome

/-- `" ".join(parts)` -/
def joinWords (parts : List Str) : Str := List.intercalate [' '] parts

def prefixOfParts (parts : List Str) : Str :=
  let envPrefix := parts.takeWhile isAssignment
  match parts.drop envPrefix.length with
  | [] => noPrefix
  | firstWord :: others =>
    if firstWord ∈ twoWordCommands ∧ others ≠ [] then
      let secondWord := others.headD []
      if secondWord.head? ≠ some '-' then firstWord ++ ' ' :: secondWord else firstWord
    else if envPrefix = [] then firstWord
    else joinWords envPrefix ++ ' ' :: firstWord

def extractCommandPrefix (command : Str) : Str :=
  if substitutes command then injectionDetected
  else
    match Shlex.split command with
    | some parts => prefixOfParts parts
    | none => (splitRuns isSpace [] command).headD noPrefix

/-- The words of a command; those of `str.split` where a quote is left open. -/
def commandWords (command : Str) : List Str := (Shlex.split command).getD (splitRuns isSpace [] command)

/-- The result reports a non-empty beginning of the words, if it reports a prefix. -/
def ReportsPrefix (command result : Str) : Prop :=
  result = noPrefix ∨ result = injectionDetected ∨
    ∃ k, 0 < k ∧ k ≤ (commandWords command).length ∧ result = joinWords ((commandWords command).take k)

/-- Environment assignments stand before one of the two-word commands and its next word. -/
def AssignsBeforeTwoWords (parts : List Str) : Prop :=
  ∃ first second rest, parts.takeWhile isAssignment ≠ [] ∧ parts.dropWhile isAssignment = first :: second :: rest ∧
    first ∈ twoWordCommands

section Parts

variable {parts : List Str} {first second : Str} {rest : List Str}

theorem drop_takeWhile_length (parts : List Str) :
    parts.drop (parts.takeWhile isAssignment).length = parts.dropWhile isAssignment := by
  have split : parts.takeWhile isAssignment ++ parts.dropWhile isAssignment = parts := List.takeWhile_append_dropWhile
  exact (congrArg (List.drop _) split.symm).trans List.drop_left

theorem joinWords_cons (first : Str) (rest : List Str) :
    joinWords (first :: rest) = first ++ if rest = [] then [] else ' ' :: joinWords rest := by
  cases rest with
  | nil => simp [joinWords, List.intercalate]
  | cons second rest => simp [joinWords, List.intercalate, List.intersperse]

theorem joinWords_concat (env : List Str) (some : env ≠ []) (last : Str) :
    joinWords (env ++ [last]) = joinWords env ++ ' ' :: last := by
  induction env with
  | nil => exact absurd rfl some
  | cons first rest ih =>
    cases rest with
    | nil => simp [joinWords, List.intercalate, List.intersperse]
    | cons second rest =>
      have later := ih (List.cons_ne_nil _ _)
      rw [List.cons_append, joinWords_cons, joinWords_cons, later]
      simp

theorem parts_split (parts : List Str) : parts = parts.takeWhile isAssignment ++ parts.dropWhile isAssignment :=
  List.takeWhile_append_dropWhile.symm

def IsBeginning (parts : List Str) (result : Str) : Prop :=
  ∃ k, 0 < k ∧ k ≤ parts.length ∧ result = joinWords (parts.take k)

theorem isBeginning_of_append (begun more : List Str) (some : begun ≠ []) : IsBeginning (begun ++ more) (joinWords begun) :=
  ⟨begun.length, List.length_pos_iff.mpr some, by simp, by simp⟩

theorem joinWords_singleton (word : Str) : joinWords [word] = word := by simp [joinWords, List.intercalate]

theorem prefixOfParts_eq (shape : parts.dropWhile isAssignment = first :: rest) :
    prefixOfParts parts =
      if first ∈ twoWordCommands ∧ rest ≠ [] then
        if (rest.headD []).head? ≠ some '-' then first ++ ' ' :: rest.headD [] else first
      else if parts.takeWhile isAssignment = [] then first
      else joinWords (parts.takeWhile isAssignment) ++ ' ' :: first := by
  unfold prefixOfParts
  simp only [drop_takeWhile_length, shape]

theorem prefixOfParts_unassigned (none : parts.takeWhile isAssignment = []) :
    prefixOfParts parts = noPrefix ∨ IsBeginning parts (prefixOfParts parts) := by
  unfold prefixOfParts
  simp only [none, List.length_nil, List.drop_zero]
  cases parts with
  | nil => exact .inl rfl
  | cons first others =>
    right
    have one : IsBeginning (first :: others) first := by
      have begun := isBeginning_of_append [first] others (List.cons_ne_nil _ _)
      rwa [joinWords_singleton] at begun
    dsimp only
    split_ifs with two option
    · cases others with
      | nil => exact absurd rfl two.2
      | cons second rest =>
        have begun := isBeginning_of_append [first, second] rest (List.cons_ne_nil _ _)
        rwa [joinWords_cons, if_neg (List.cons_ne_nil _ _), joinWords_singleton] at begun
    · exact one
    · exact one

theorem prefixOfParts_assigned {env : List Str} (some : env ≠ []) (env_eq : parts.takeWhile isAssignment = env)
    (shape : parts.dropWhile isAssignment = first :: rest) (free : ¬ AssignsBeforeTwoWords parts) :
    IsBeginning parts (prefixOfParts parts) := by
  have two : ¬ (first ∈ twoWordCommands ∧ rest ≠ []) := by
    rintro ⟨known, more⟩
    obtain ⟨second, rest, rfl⟩ := List.exists_cons_of_ne_nil more
    exact free ⟨first, second, rest, env_eq ▸ some, shape, known⟩
  have reported : prefixOfParts parts = joinWords (env ++ [first]) := by
    rw [prefixOfParts_eq shape, if_neg two, env_eq, if_neg some, joinWords_concat env some]
  have split := parts_split parts
  rw [env_eq, shape, ← List.singleton_append, ← List.append_assoc] at split
  rw [reported, split]
  exact isBeginning_of_append _ _ (by simp)

theorem takeWhile_word {word tail : Str} (plain : ' ' ∉ word) (apart : tail = [] ∨ ∃ more, tail = ' ' :: more) :
    (word ++ tail).takeWhile (· ≠ ' ') = word := by
  have all : ∀ c ∈ word, decide (c ≠ ' ') = true := fun c mem => decide_eq_true fun same => plain (same ▸ mem)
  rw [List.takeWhile_append_of_pos all]
  rcases apart with rfl | ⟨more, rfl⟩
  · simp
  · simp

theorem known_command {command : Str} (known : command ∈ twoWordCommands) :
    ' ' ∉ command ∧ '=' ∉ command ∧ ∃ c rest, command = c :: rest ∧ c ∉ Shlex.quotes := by
  have plain : twoWordCommands.all fun command => ' ' ∉ command ∧ '=' ∉ command := by decide
  have both := of_decide_eq_true (List.all_eq_true.mp plain command known)
  have heads : twoWordCommands.all fun command => command ≠ [] ∧ command.headD ' ' ∉ Shlex.quotes := by decide
  obtain ⟨nonempty, unquoted⟩ := of_decide_eq_true (List.all_eq_true.mp heads command known)
  obtain ⟨c, rest, rfl⟩ := List.exists_cons_of_ne_nil nonempty
  exact ⟨both.1, both.2, c, rest, rfl, unquoted⟩

theorem not_known_of_word {word tail : Str} (plain : ' ' ∉ word) (unknown : word ∉ twoWordCommands)
    (known : first ∈ twoWordCommands) (apart : tail = [] ∨ ∃ more, tail = ' ' :: more) : first ++ tail ≠ word := by
  intro same
  have words := congrArg (List.takeWhile (· ≠ ' ')) (same.trans (List.append_nil word).symm)
  rw [takeWhile_word (known_command known).1 apart, takeWhile_word plain (.inl rfl)] at words
  exact unknown (words ▸ known)

theorem joinWords_take_cons (first : Str) (rest : List Str) {k : Nat} (positive : 0 < k) :
    ∃ tail, joinWords ((first :: rest).take k) = first ++ tail ∧ (tail = [] ∨ ∃ more, tail = ' ' :: more) := by
  obtain ⟨n, rfl⟩ := Nat.exists_eq_add_of_lt positive
  rw [Nat.zero_add, List.take_succ_cons, joinWords_cons]
  refine ⟨_, rfl, ?_⟩
  split_ifs
  · exact .inl rfl
  · exact .inr ⟨_, rfl⟩

theorem not_isBeginning_of_assigned {env : Str} {more : List Str} (word : Shlex.IsWord env)
    (assigns : isAssignment env = true)
    (known : first ∈ twoWordCommands) {tail : Str} (apart : tail = [] ∨ ∃ second, tail = ' ' :: second) :
    ¬ IsBeginning (env :: more) (first ++ tail) := by
  rintro ⟨k, positive, -, same⟩
  obtain ⟨plain, unassigned, c, rest, shape, unquoted⟩ := known_command known
  obtain ⟨others, begun, apart'⟩ := joinWords_take_cons env more positive
  obtain ⟨c', rest', shape', spaceless⟩ := word
  have heads : c = c' := by
    rw [begun, shape, shape'] at same
    exact (List.cons.inj same).1
  have plain' : ' ' ∉ env := fun mem => spaceless (heads ▸ unquoted) ' ' mem (by decide)
  have words := congrArg (List.takeWhile (· ≠ ' ')) (same.trans begun)
  rw [takeWhile_word plain apart, takeWhile_word plain' apart'] at words
  exact unassigned (words ▸ (of_decide_eq_true assigns).1)

theorem prefixOfParts_two (assigned : AssignsBeforeTwoWords parts) :
    ∃ first tail, first ∈ twoWordCommands ∧ prefixOfParts parts = first ++ tail ∧
      (tail = [] ∨ ∃ second, tail = ' ' :: second) := by
  obtain ⟨first, second, rest, -, shape, known⟩ := assigned
  rw [prefixOfParts_eq shape, if_pos ⟨known, List.cons_ne_nil _ _⟩]
  split_ifs
  · exact ⟨first, ' ' :: second, known, rfl, .inr ⟨second, rfl⟩⟩
  · exact ⟨first, [], known, (List.append_nil _).symm, .inl rfl⟩

end Parts

/-- The condition under which the prefix leaves out the environment. -/
def LosesAssignments (command : Str) : Prop :=
  substitutes command = false ∧ ∃ parts, Shlex.split command = some parts ∧ AssignsBeforeTwoWords parts

theorem head_takeWhile_assigned {parts : List Str} (some : parts.takeWhile isAssignment ≠ []) :
    ∃ env more, parts = env :: more ∧ isAssignment env = true := by
  cases parts with
  | nil => exact absurd rfl some
  | cons env more =>
    refine ⟨env, more, rfl, ?_⟩
    by_contra plain
    exact some (List.takeWhile_cons_of_neg plain)

theorem reportsPrefix_parts {command : Str} {parts : List Str} (split : Shlex.split command = some parts)
    (free : ¬ AssignsBeforeTwoWords parts) : ReportsPrefix command (prefixOfParts parts) := by
  have words : commandWords command = parts := by rw [commandWords, split, Option.getD_some]
  have begun : prefixOfParts parts = noPrefix ∨ IsBeginning parts (prefixOfParts parts) := by
    by_cases none : parts.takeWhile isAssignment = []
    · exact prefixOfParts_unassigned none
    · cases shape : parts.dropWhile isAssignment with
      | nil =>
        left
        unfold prefixOfParts
        simp only [drop_takeWhile_length, shape]
      | cons first rest => exact .inr (prefixOfParts_assigned none rfl shape free)
  rcases begun with empty | begun
  · exact .inl empty
  · rw [← words] at begun ⊢
    exact .inr (.inr begun)

theorem reportsPrefix_runs {command : Str} (unclosed : Shlex.split command = none) :
    ReportsPrefix command ((splitRuns isSpace [] command).headD noPrefix) := by
  have words : commandWords command = splitRuns isSpace [] command := by rw [commandWords, unclosed, Option.getD_none]
  cases shape : splitRuns isSpace [] command with
  | nil => exact .inl rfl
  | cons first rest =>
    refine .inr (.inr ⟨1, Nat.one_pos, ?_, ?_⟩)
    · simp [words, shape]
    · simp [words, shape, joinWords_singleton]

theorem reportsPrefix_iff (command : Str) :
    ReportsPrefix command (extractCommandPrefix command) ↔ ¬ LosesAssignments command := by
  unfold extractCommandPrefix
  cases substituted : substitutes command with
  | true =>
    apply iff_of_true
    · exact .inr (.inl rfl)
    · rintro ⟨plain, -⟩
      rw [substituted] at plain
      cases plain
  | false =>
    cases split : Shlex.split command with
    | none =>
      apply iff_of_true
      · exact reportsPrefix_runs split
      · rintro ⟨-, parts, found, -⟩
        rw [split] at found
        cases found
    | some parts =>
      by_cases assigned : AssignsBeforeTwoWords parts
      · apply iff_of_false
        · obtain ⟨first, tail, known, reported, apart⟩ := prefixOfParts_two assigned
          obtain ⟨env, more, shape, assigns⟩ := head_takeWhile_assigned assigned.choose_spec.choose_spec.choose_spec.1
          have word := Shlex.isWord_split split env (by rw [shape]; exact List.mem_cons_self ..)
          have words : commandWords command = parts := by rw [commandWords, split, Option.getD_some]
          show ¬ ReportsPrefix command (prefixOfParts parts)
          rw [reported]
          rintro (empty | injection | begun)
          · exact not_known_of_word (by decide) (by decide) known apart empty
          · exact not_known_of_word (by decide) (by decide) known apart injection
          · rw [words, shape] at begun
            exact not_isBeginning_of_assigned word assigns known apart begun
        · exact fun free => free ⟨substituted, parts, split, assigned⟩
      · apply iff_of_true
        · exact reportsPrefix_parts split assigned
        · rintro ⟨-, other, found, loses⟩
          rw [split] at found
          cases found
          exact assigned loses

/-- Only the command is reported, which may be allowed for every environment. -/
theorem not_reportsPrefix : ¬ ∀ command, ReportsPrefix command (extractCommandPrefix command) := by
  intro claimed
  rcases claimed "GIT_SSH=x git push".toList with empty | injection | ⟨k, positive, within, same⟩
  · revert empty
    decide
  · revert injection
    decide
  · have words : commandWords "GIT_SSH=x git push".toList = ["GIT_SSH=x".toList, "git".toList, "push".toList] := by decide
    obtain ⟨tail, begun, -⟩ := joinWords_take_cons "GIT_SSH=x".toList ["git".toList, "push".toList] positive
    rw [words, begun] at same
    have heads := congrArg List.head? same
    revert heads
    simp only [show extractCommandPrefix "GIT_SSH=x git push".toList = "git push".toList from by decide]
    exact fun heads => by cases heads

end ClaudeProxy.Api
