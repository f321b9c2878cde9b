import Mathlib.Data.List.Basic
import Mathlib.Tactic.SplitIfs

namespace Kit.MarkdownV2

/-- Where a reader of the text stands: outside code, in inline code or in a `pre` block, and what it has begun there
    (an escape, one or two back quotes). -/
inductive Place where
  | text
  | escape
  | tick
  | ticks
  | code
  | codeEscape
  | pre
  | preEscape
  | preTick
  | preTicks
deriving DecidableEq

structure State where
  place : Place
  bold : Bool
deriving DecidableEq

def backquote : Char := Char.ofNat 96

def backslash : Char := Char.ofNat 92

def reserved : List Char := "\\_*[]()~`>#+-=|\x7b\x7d.!".toList

/-- A backslash escapes the characters with a code between 1 and 126. -/
def escapable (c : Char) : Bool := 1 ≤ c.toNat && c.toNat ≤ 126

def textStep (bold : Bool) (c : Char) : Option State :=
  if c = backslash then some ⟨.escape, bold⟩
  else if c = backquote then some ⟨.tick, bold⟩
  else if c = '*' then some ⟨.text, !bold⟩
  else if c ∈ reserved then none
  else some ⟨.text, bold⟩

def codeStep (bold : Bool) (c : Char) : Option State :=
  if c = backslash then some ⟨.codeEscape, bold⟩
  else if c = backquote then some ⟨.text, bold⟩
  else some ⟨.code, bold⟩

def preStep (bold : Bool) (c : Char) : Option State :=
  if c = backslash then some ⟨.preEscape, bold⟩
  else if c = backquote then some ⟨.preTick, bold⟩
  else some ⟨.pre, bold⟩

/-- One character is read; `none` where it must have been escaped. A back quote opens inline code unless two more
    follow. -/
def step : State → Char → Option State
  | ⟨.text, bold⟩, c => textStep bold c
  | ⟨.escape, bold⟩, c => if escapable c then some ⟨.text, bold⟩ else none
  | ⟨.tick, bold⟩, c => if c = backquote then some ⟨.ticks, bold⟩ else codeStep bold c
  | ⟨.ticks, bold⟩, c => if c = backquote then some ⟨.pre, bold⟩ else textStep bold c
  | ⟨.code, bold⟩, c => codeStep bold c
  | ⟨.codeEscape, bold⟩, c => if escapable c then some ⟨.code, bold⟩ else none
  | ⟨.pre, bold⟩, c => preStep bold c
  | ⟨.preEscape, bold⟩, c => if escapable c then some ⟨.pre, bold⟩ else none
  | ⟨.preTick, bold⟩, c => if c = backquote then some ⟨.preTicks, bold⟩ else none
  | ⟨.preTicks, bold⟩, c => if c = backquote then some ⟨.text, bold⟩ else none

def scan (state : State) (s : List Char) : Option State := s.foldlM step state

def outside : State := ⟨.text, false⟩

/-- Every reserved character is escaped and every entity is closed. Two back quotes alone are an empty code entity. -/
def Valid (s : List Char) : Prop := scan outside s = some outside ∨ scan outside s = some ⟨.ticks, false⟩

instance (s : List Char) : Decidable (Valid s) := inferInstanceAs (Decidable (_ ∨ _))

theorem scan_cons (state : State) (c : Char) (s : List Char) :
    scan state (c :: s) = (step state c).bind fun next => scan next s := by
  rw [scan, List.foldlM_cons]
  rfl

theorem scan_append (state : State) (s t : List Char) :
    scan state (s ++ t) = (scan state s).bind fun next => scan next t := by
  rw [scan, List.foldlM_append]
  rfl

theorem scan_append_of {state next : State} {s : List Char} (read : scan state s = some next) (t : List Char) :
    scan state (s ++ t) = scan next t := by
  rw [scan_append, read, Option.bind_some]

theorem scan_flatMap {α : Type} {state : State} {f : α → List Char} (items : List α)
    (each : ∀ item ∈ items, scan state (f item) = some state) : scan state (items.flatMap f) = some state := by
  induction items with
  | nil => rfl
  | cons item items ih =>
    rw [List.flatMap_cons, scan_append_of (each item (by simp))]
    exact ih fun other mem => each other (by simp [mem])

/-- Texts that each come back to a state are joined by a separator that does. -/
theorem scan_intercalate {state : State} {separator : List Char} (between : scan state separator = some state)
    (texts : List (List Char)) (each : ∀ text ∈ texts, scan state text = some state) :
    scan state (List.intercalate separator texts) = some state := by
  induction texts with
  | nil => rfl
  | cons text texts ih =>
    have first := each text (by simp)
    have others := ih fun other mem => each other (by simp [mem])
    cases texts with
    | nil => simpa [List.intercalate] using first
    | cons next rest =>
      have shape : List.intercalate separator (text :: next :: rest) =
          text ++ (separator ++ List.intercalate separator (next :: rest)) := by
        simp [List.intercalate, List.intersperse]
      rw [shape, scan_append_of first, scan_append_of between, others]

theorem scan_plain {s : List Char} (plain : ∀ c ∈ s, c ∉ reserved) (bold : Bool) :
    scan ⟨.text, bold⟩ s = some ⟨.text, bold⟩ := by
  induction s with
  | nil => rfl
  | cons c s ih =>
    have free := plain c (by simp)
    have notBackslash : c ≠ backslash := fun same => free (same ▸ by decide)
    have notBackquote : c ≠ backquote := fun same => free (same ▸ by decide)
    have notStar : c ≠ '*' := fun same => free (same ▸ by decide)
    rw [scan_cons, step, textStep, if_neg notBackslash, if_neg notBackquote, if_neg notStar, if_neg free, Option.bind_some]
    exact ih fun other mem => plain other (by simp [mem])

theorem scan_dropNewlines (s : List Char) : scan outside (s.dropWhile (· = '\n')) = scan outside s := by
  induction s with
  | nil => rfl
  | cons c s ih =>
    by_cases newline : c = '\n'
    · rw [List.dropWhile_cons_of_pos (by simp [newline]), ih, scan_cons, newline]
      rfl
    · rw [List.dropWhile_cons_of_neg (by simp [newline])]

theorem Valid.append_of {s t : List Char} (read : scan outside s = some outside) (valid : Valid t) : Valid (s ++ t) := by
  unfold Valid
  rw [scan_append_of read]
  exact valid

theorem not_valid_of_none {s : List Char} (stuck : scan outside s = none) : ¬ Valid s := by
  simp [Valid, stuck]

end Kit.MarkdownV2
