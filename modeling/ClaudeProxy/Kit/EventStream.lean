import Mathlib.Data.List.Basic

namespace Kit.EventStream

abbrev Text := List Char

section Lines

variable (isBreak : Char → Bool)

/-- One more character in front of some lines and the rest of a text. -/
def putChar (c : Char) (broken : List Text × Text) : List Text × Text :=
  if isBreak c then ([] :: broken.1, broken.2)
  else
    match broken.1 with
    | [] => ([], c :: broken.2)
    | line :: more => ((c :: line) :: more, broken.2)

/-- The lines that have ended, and the rest of the text. CR and LF together are one break. -/
def breakLines : Text → List Text × Text
  | [] => ([], [])
  | '\r' :: '\n' :: rest => ([] :: (breakLines rest).1, (breakLines rest).2)
  | c :: rest => putChar isBreak c (breakLines rest)

variable {isBreak}

theorem breakLines_cons {c : Char} (other : c ≠ '\r') (rest : Text) :
    breakLines isBreak (c :: rest) = putChar isBreak c (breakLines isBreak rest) := by
  apply breakLines.eq_3
  intro tail isReturn _
  exact other isReturn

theorem breakLines_line (carriage : isBreak '\r' = true) (feed : isBreak '\n' = true) {line : Text}
    (inside : ∀ c ∈ line, isBreak c = false) (rest : Text) : breakLines isBreak (line ++ '\n' :: rest) =
      (line :: (breakLines isBreak rest).1, (breakLines isBreak rest).2) := by
  induction line with
  | nil =>
    rw [List.nil_append, breakLines_cons (by decide), putChar, if_pos feed]
  | cons c line ih =>
    rcases List.forall_mem_cons.mp inside with ⟨first, later⟩
    have other : c ≠ '\r' := by
      intro isReturn
      rw [isReturn, carriage] at first
      cases first
    rw [List.cons_append, breakLines_cons other, ih later, putChar, if_neg (by simp [first])]

theorem breakLines_unfinished (carriage : isBreak '\r' = true) {text : Text} (inside : ∀ c ∈ text, isBreak c = false) :
    breakLines isBreak text = ([], text) := by
  induction text with
  | nil => rfl
  | cons c text ih =>
    rcases List.forall_mem_cons.mp inside with ⟨first, later⟩
    have other : c ≠ '\r' := by
      intro isReturn
      rw [isReturn, carriage] at first
      cases first
    rw [breakLines_cons other, ih later, putChar, if_neg (by simp [first])]

theorem breakLines_join (carriage : isBreak '\r' = true) (feed : isBreak '\n' = true) {lines : List Text}
    (inside : ∀ line ∈ lines, ∀ c ∈ line, isBreak c = false) (rest : Text) :
    breakLines isBreak (lines.flatMap (· ++ ['\n']) ++ rest) =
      (lines ++ (breakLines isBreak rest).1, (breakLines isBreak rest).2) := by
  induction lines with
  | nil => rfl
  | cons line lines ih =>
    rcases List.forall_mem_cons.mp inside with ⟨first, later⟩
    rw [List.flatMap_cons, List.append_assoc, List.append_assoc, List.singleton_append,
      breakLines_line carriage feed first, ih later]
    rfl

theorem breakLines_inside (text : Text) : (∀ line ∈ (breakLines isBreak text).1, ∀ c ∈ line, isBreak c = false) ∧
    ∀ c ∈ (breakLines isBreak text).2, isBreak c = false := by
  induction text using breakLines.induct with
  | case1 => simp [breakLines]
  | case2 rest ih => simpa [breakLines] using ih
  | case3 c rest single ih =>
    rw [breakLines.eq_3 isBreak c rest single, putChar]
    split
    · simpa using ih
    · rename_i inside
      have here : isBreak c = false := Bool.eq_false_iff.mpr inside
      cases lines : (breakLines isBreak rest).1 with
      | nil =>
        rw [lines] at ih
        simpa [here] using ih
      | cons line more =>
        rw [lines] at ih
        simpa [here] using ih

theorem breakLines_congr {other : Char → Bool} {text : Text} (same : ∀ c ∈ text, isBreak c = other c) :
    breakLines isBreak text = breakLines other text := by
  induction text using breakLines.induct with
  | case1 => rfl
  | case2 rest ih =>
    rw [breakLines, breakLines, ih fun c member => same c (by simp [member])]
  | case3 c rest single ih =>
    rcases List.forall_mem_cons.mp same with ⟨first, later⟩
    rw [breakLines.eq_3 isBreak c rest single, breakLines.eq_3 other c rest single, ih later, putChar, putChar, first]

end Lines

structure Event where
  name : Text
  data : Text
deriving DecidableEq

/-- What was read since the last blank line. -/
structure Pending where
  eventType : Text
  data : List Text
deriving DecidableEq

def isLineEnd (c : Char) : Bool := c = '\n' ∨ c = '\r'

def joinData : List Text → Text
  | [] => []
  | [value] => value
  | value :: next :: rest => value ++ '\n' :: joinData (next :: rest)

/-- The name and the value of a field; one blank after the colon does not count. -/
def fieldOf (line : Text) : Text × Text :=
  match line.dropWhile (· ≠ ':') with
  | [] => (line, [])
  | _ :: ' ' :: value => (line.takeWhile (· ≠ ':'), value)
  | _ :: value => (line.takeWhile (· ≠ ':'), value)

/-- A line that starts with a colon is a comment: its field has no name. -/
def readField (pending : Pending) (line : Text) : Pending :=
  let (name, value) := fieldOf line
  if name = "event".toList then { pending with eventType := value }
  else if name = "data".toList then { pending with data := pending.data ++ [value] }
  else pending

/-- A blank line dispatches an event, if there is data. -/
def dispatch (pending : Pending) : List Event :=
  if pending.data = [] then []
  else [⟨if pending.eventType = [] then "message".toList else pending.eventType, joinData pending.data⟩]

def readLines : Pending → List Text → List Event × Pending
  | pending, [] => ([], pending)
  | pending, line :: rest =>
    if line = [] then
      let (events, last) := readLines ⟨[], []⟩ rest
      (dispatch pending ++ events, last)
    else readLines (readField pending line) rest

def byteOrderMark : Char := Char.ofNat 0xFEFF

/-- One mark at the start of the stream is left out. -/
def unmarked : List Text → List Text
  | (c :: line) :: rest => if c = byteOrderMark then line :: rest else (c :: line) :: rest
  | lines => lines

def readStream (lines : List Text) : List Event × Pending := readLines ⟨[], []⟩ (unmarked lines)

/-- The events of a text; what follows its last line end counts for nothing. -/
def eventsOf (text : Text) : List Event := (readStream (breakLines isLineEnd text).1).1

theorem readLines_append (pending : Pending) (first second : List Text) : readLines pending (first ++ second) =
    ((readLines pending first).1 ++ (readLines (readLines pending first).2 second).1,
      (readLines (readLines pending first).2 second).2) := by
  induction first generalizing pending with
  | nil => rfl
  | cons line rest ih =>
    rw [List.cons_append, readLines, readLines]
    split
    · simp [ih]
    · rw [ih]

theorem joinData_concat (values : List Text) (value : Text) :
    joinData (values ++ [value]) = values.flatMap (· ++ ['\n']) ++ value := by
  induction values with
  | nil => rfl
  | cons first rest ih =>
    cases rest with
    | nil => simp [joinData]
    | cons next more =>
      rw [List.cons_append, List.cons_append, joinData, ← List.cons_append, ih]
      simp

end Kit.EventStream
