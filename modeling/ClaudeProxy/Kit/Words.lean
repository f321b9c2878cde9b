import Mathlib.Data.List.TakeWhile

namespace Kit

/-- `str.split()`: the longest runs without separators, `token` being the run so far. -/
def splitRuns (separator : Char → Bool) (token : List Char) : List Char → List (List Char)
  | [] => if token = [] then [] else [token]
  | c :: rest =>
    if separator c then (if token = [] then splitRuns separator [] rest else token :: splitRuns separator [] rest)
    else splitRuns separator (token ++ [c]) rest

namespace Shlex

def whitespace : List Char := " \t\r\n".toList

def quotes : List Char := "'\"".toList

inductive State where
  | space
  | word (token : List Char)
  | quoted (quote : Char) (token : List Char)

/-- `shlex.split(s, posix=False)`: quotes stay, they begin a word only after white space or a closing quote, and an open
    one at the end is a `ValueError`. -/
def tokens : State → List Char → Option (List (List Char))
  | .space, [] => some []
  | .space, c :: rest =>
    if c ∈ whitespace then tokens .space rest
    else if c ∈ quotes then tokens (.quoted c [c]) rest
    else tokens (.word [c]) rest
  | .word token, [] => some [token]
  | .word token, c :: rest =>
    if c ∈ whitespace then (tokens .space rest).map fun more => token :: more
    else tokens (.word (token ++ [c])) rest
  | .quoted _ _, [] => none
  | .quoted quote token, c :: rest =>
    if c = quote then (tokens .space rest).map fun more => (token ++ [c]) :: more
    else tokens (.quoted quote (token ++ [c])) rest

def split (s : List Char) : Option (List (List Char)) := tokens .space s

/-- A word that begins without a quote has no white space in it. -/
def IsWord (token : List Char) : Prop := ∃ c rest, token = c :: rest ∧ (c ∉ quotes → ∀ d ∈ token, d ∉ whitespace)

/-- What has been read of a word already satisfies what is asked of it. -/
def State.Sound : State → Prop
  | .space => True
  | .word token => IsWord token ∧ ∀ d ∈ token, d ∉ whitespace
  | .quoted _ token => ∃ c rest, token = c :: rest ∧ c ∈ quotes

theorem sound_space : State.Sound .space := trivial

theorem isWord_of_quote {c : Char} (quote : c ∈ quotes) (rest : List Char) : IsWord (c :: rest) :=
  ⟨c, rest, rfl, fun plain => absurd quote plain⟩

theorem isWord_tokens {state : State} {s : List Char} {found : List (List Char)} (sound : state.Sound)
    (split : tokens state s = some found) : ∀ token ∈ found, IsWord token := by
  induction s generalizing state found with
  | nil =>
    cases state with
    | space => cases split; simp
    | word token =>
      cases split
      intro other mem
      rw [List.mem_singleton.mp mem]
      exact sound.1
    | quoted quote token => cases split
  | cons c s ih =>
    cases state with
    | space =>
      rw [tokens] at split
      split_ifs at split with space quote
      · exact ih sound split
      · have next : State.Sound (.quoted c [c]) := ⟨c, [], rfl, quote⟩
        exact ih next split
      · have plain : ∀ d ∈ [c], d ∉ whitespace := by
          intro d mem
          rw [List.mem_singleton.mp mem]
          exact space
        have next : State.Sound (.word [c]) := ⟨⟨c, [], rfl, fun _ => plain⟩, plain⟩
        exact ih next split
    | word token =>
      obtain ⟨⟨first, rest, rfl, -⟩, plain⟩ := sound
      rw [tokens] at split
      split_ifs at split with space
      · obtain ⟨more, later, rfl⟩ := Option.map_eq_some_iff.mp split
        intro other mem
        rcases List.mem_cons.mp mem with rfl | among
        · exact ⟨first, rest, rfl, fun _ => plain⟩
        · exact ih sound_space later other among
      · have longer : ∀ d ∈ first :: rest ++ [c], d ∉ whitespace := by
          intro d mem
          rcases List.mem_append.mp mem with before | last
          · exact plain d before
          · rw [List.mem_singleton.mp last]
            exact space
        have next : State.Sound (.word (first :: rest ++ [c])) := ⟨⟨first, rest ++ [c], rfl, fun _ => longer⟩, longer⟩
        exact ih next split
    | quoted quote token =>
      obtain ⟨first, rest, rfl, opened⟩ := sound
      rw [tokens] at split
      split_ifs at split with closed
      · obtain ⟨more, later, rfl⟩ := Option.map_eq_some_iff.mp split
        intro other mem
        rcases List.mem_cons.mp mem with rfl | among
        · exact isWord_of_quote opened _
        · exact ih sound_space later other among
      · have next : State.Sound (.quoted quote (first :: rest ++ [c])) := ⟨first, rest ++ [c], rfl, opened⟩
        exact ih next split

theorem isWord_split {s : List Char} {found : List (List Char)} (split : split s = some found) :
    ∀ token ∈ found, IsWord token := isWord_tokens sound_space split

/-- The text spells the words, with any white space around them and none needed behind a closing quote. -/
inductive Renders : List (List Char) → List Char → Prop where
  | blank {s : List Char} (blank : ∀ c ∈ s, c ∈ whitespace) : Renders [] s
  | word {lead token s : List Char} {words : List (List Char)} (blank : ∀ c ∈ lead, c ∈ whitespace)
      (some : token ≠ []) (unquoted : ∀ c ∈ token.head?, c ∉ quotes) (whole : ∀ c ∈ token, c ∉ whitespace)
      (apart : ∀ c ∈ s.head?, c ∈ whitespace) (later : Renders words s) : Renders (token :: words) (lead ++ token ++ s)
  | quoted {lead inside s : List Char} {words : List (List Char)} {quote : Char} (blank : ∀ c ∈ lead, c ∈ whitespace)
      (opens : quote ∈ quotes) (inner : quote ∉ inside) (later : Renders words s) :
      Renders ((quote :: inside ++ [quote]) :: words) (lead ++ (quote :: inside ++ [quote]) ++ s)

theorem tokens_blank {lead : List Char} (blank : ∀ c ∈ lead, c ∈ whitespace) (s : List Char) :
    tokens .space (lead ++ s) = tokens .space s := by
  induction lead with
  | nil => rfl
  | cons c lead ih =>
    rw [List.cons_append, tokens, if_pos (blank c (List.mem_cons_self ..))]
    exact ih fun d mem => blank d (List.mem_cons_of_mem _ mem)

theorem tokens_word {more : List Char} (whole : ∀ c ∈ more, c ∉ whitespace) (token s : List Char) :
    tokens (.word token) (more ++ s) = tokens (.word (token ++ more)) s := by
  induction more generalizing token with
  | nil => rw [List.append_nil, List.nil_append]
  | cons c more ih =>
    rw [List.cons_append, tokens, if_neg (whole c (List.mem_cons_self ..)),
      ih (fun d mem => whole d (List.mem_cons_of_mem _ mem)), List.append_assoc, List.singleton_append]

theorem tokens_quoted {quote : Char} {more : List Char} (inner : quote ∉ more) (token s : List Char) :
    tokens (.quoted quote token) (more ++ quote :: s) = (tokens .space s).map fun words => (token ++ more ++ [quote]) :: words := by
  induction more generalizing token with
  | nil => rw [List.nil_append, tokens, if_pos rfl, List.append_nil]
  | cons c more ih =>
    have other : c ≠ quote := fun same => inner (same ▸ List.mem_cons_self ..)
    rw [List.cons_append, tokens, if_neg other, ih fun mem => inner (List.mem_cons_of_mem _ mem), List.append_assoc token,
      List.singleton_append]

/-- Behind a word comes the end or white space. -/
theorem tokens_word_end (token : List Char) {s : List Char} (apart : ∀ c ∈ s.head?, c ∈ whitespace) :
    tokens (.word token) s = (tokens .space s).map fun words => token :: words := by
  cases s with
  | nil => rfl
  | cons c s =>
    have space : c ∈ whitespace := apart c rfl
    rw [tokens, if_pos space, tokens, if_pos space]

theorem Renders.split {words : List (List Char)} {s : List Char} (renders : Renders words s) : split s = some words := by
  unfold Shlex.split
  induction renders with
  | @blank s blank =>
    have all := tokens_blank blank []
    rw [List.append_nil] at all
    rw [all, tokens]
  | @word lead token s words blank some unquoted whole apart later ih =>
    obtain ⟨c, more, rfl⟩ := List.exists_cons_of_ne_nil some
    have space : c ∉ whitespace := whole c (List.mem_cons_self ..)
    have plain : c ∉ quotes := unquoted c rfl
    rw [List.append_assoc, tokens_blank blank, List.cons_append, tokens, if_neg space, if_neg plain,
      tokens_word fun d mem => whole d (List.mem_cons_of_mem _ mem), tokens_word_end _ apart, ih]
    rfl
  | @quoted lead inside s words quote blank opens inner later ih =>
    have apart : (quotes.all fun c => c ∉ whitespace) = true := by decide
    have space : quote ∉ whitespace := of_decide_eq_true (List.all_eq_true.mp apart quote opens)
    rw [List.append_assoc, tokens_blank blank, List.append_assoc, List.cons_append, tokens, if_neg space, if_pos opens,
      List.singleton_append, tokens_quoted inner, ih]
    rfl

/-- What is left to be read spells the words that are left, the one begun included. -/
def State.Remains : State → List (List Char) → List Char → Prop
  | .space, words, s => Renders words s
  | .word token, words, s => ∃ more rest later, s = more ++ rest ∧ words = (token ++ more) :: later ∧
      (∀ c ∈ more, c ∉ whitespace) ∧ (∀ c ∈ rest.head?, c ∈ whitespace) ∧ Renders later rest
  | .quoted quote token, words, s => ∃ more rest later, s = more ++ quote :: rest ∧
      words = (token ++ more ++ [quote]) :: later ∧ quote ∉ more ∧ Renders later rest

theorem Renders.lead {c : Char} (space : c ∈ whitespace) {words : List (List Char)} {s : List Char}
    (renders : Renders words s) : Renders words (c :: s) := by
  have longer : ∀ {lead : List Char}, (∀ d ∈ lead, d ∈ whitespace) → ∀ d ∈ c :: lead, d ∈ whitespace := fun blank =>
    List.forall_mem_cons.mpr ⟨space, blank⟩
  cases renders with
  | blank blank => exact .blank (longer blank)
  | word blank some unquoted whole apart later => exact .word (longer blank) some unquoted whole apart later
  | quoted blank opens inner later => exact .quoted (longer blank) opens inner later

theorem remains_of_tokens {state : State} {s : List Char} {words : List (List Char)}
    (split : tokens state s = some words) : state.Remains words s := by
  induction s generalizing state words with
  | nil =>
    cases state with
    | space =>
      cases split
      exact .blank (List.forall_mem_nil _)
    | word token =>
      cases split
      exact ⟨[], [], [], rfl, by rw [List.append_nil], List.forall_mem_nil _, by simp, .blank (List.forall_mem_nil _)⟩
    | quoted quote token => cases split
  | cons c s ih =>
    cases state with
    | space =>
      rw [tokens] at split
      split_ifs at split with space opens
      · exact (show Renders words s from ih split).lead space
      · obtain ⟨more, rest, later, rfl, rfl, inner, renders⟩ := ih split
        have written := Renders.quoted (List.forall_mem_nil _) opens inner renders
        show Renders _ _
        simpa using written
      · obtain ⟨more, rest, later, rfl, rfl, whole, apart, renders⟩ := ih split
        have unquoted : ∀ d ∈ (c :: more).head?, d ∉ quotes := fun d head => Option.some.inj head ▸ opens
        have written := Renders.word (List.forall_mem_nil _) (List.cons_ne_nil _ _) unquoted
          (List.forall_mem_cons.mpr ⟨space, whole⟩) apart renders
        show Renders _ _
        simpa using written
    | word token =>
      rw [tokens] at split
      split_ifs at split with space
      · obtain ⟨more, later, rfl⟩ := Option.map_eq_some_iff.mp split
        refine ⟨[], c :: s, more, rfl, by rw [List.append_nil], List.forall_mem_nil _, ?_, ?_⟩
        · exact fun d head => Option.some.inj head ▸ space
        · exact (show Renders more s from ih later).lead space
      · obtain ⟨more, rest, later, rfl, rfl, whole, apart, renders⟩ := ih split
        refine ⟨c :: more, rest, later, rfl, ?_, List.forall_mem_cons.mpr ⟨space, whole⟩, apart, renders⟩
        rw [List.append_assoc, List.singleton_append]
    | quoted quote token =>
      rw [tokens] at split
      split_ifs at split with closed
      · obtain ⟨more, later, rfl⟩ := Option.map_eq_some_iff.mp split
        refine ⟨[], s, more, by rw [closed, List.nil_append], ?_, List.not_mem_nil, ih later⟩
        rw [closed, List.append_nil]
      · obtain ⟨more, rest, later, rfl, rfl, inner, renders⟩ := ih split
        refine ⟨c :: more, rest, later, rfl, ?_, ?_, renders⟩
        · rw [List.append_assoc token, List.singleton_append]
        · exact fun mem => (List.mem_cons.mp mem).elim (fun same => closed same.symm) inner

/-- The words that a text is split into are those that it spells. -/
theorem split_eq_some_iff {words : List (List Char)} {s : List Char} : split s = some words ↔ Renders words s :=
  ⟨remains_of_tokens, Renders.split⟩

example : split "A='x y' ls 'a b'c \"d".toList = none := by decide

example : split "A='x y' ls 'a b'c".toList =
    some ["A='x".toList, "y'".toList, "ls".toList, "'a b'".toList, "c".toList] := by decide

end Shlex

end Kit
