import ClaudeProxy.Kit.EventStream
import ClaudeProxy.Kit.Json
import ClaudeProxy.Providers.ErrorMapping

namespace ClaudeProxy.Providers

open Kit Kit.EventStream

/-- The characters at which `str.splitlines` breaks; CR and LF together are one break. -/
def isPythonBreak (c : Char) : Bool := c.toNat ∈ [10, 11, 12, 13, 28, 29, 30, 0x85, 0x2028, 0x2029]

def splitlines (text : Str) : List Str :=
  let (lines, left) := breakLines isPythonBreak text
  lines ++ if left = [] then [] else [left]

/-- The lines that have ended for certain: a LF may still follow a CR at the end. -/
def endedLines (text : Str) : List Str :=
  let lines := (breakLines isPythonBreak text).1
  if text.getLast? = some '\r' then lines.dropLast else lines

/-- What has arrived of an answer, the exception that ended it, and the lines that `aiter_lines` makes of it. -/
structure UpstreamBody where
  text : Str
  failure : Option PyException
  lines : List Str
  complete : failure.isSome = false → lines = splitlines text
  cutOff : failure.isSome = true → lines = endedLines text

def errorMessageOf (httpReadTimeout requestId : Option Str) (e : PyException) : Str :=
  let errorMessage := getUserFacingErrorMessage (mapError e) httpReadTimeout
  match requestId with
  | none | some [] => errorMessage
  | some id => errorMessage ++ "\nRequest ID: ".toList ++ id

def errorData (httpReadTimeout requestId : Option Str) (e : PyException) : Str :=
  (Json.object [("type".toList, .string "error".toList),
    ("error".toList, .object [("type".toList, .string "api_error".toList),
    ("message".toList, .string (errorMessageOf httpReadTimeout requestId e))])]).dumps

/-- The texts that `stream_response` yields, from the first line of the answer on. -/
def passThrough (httpReadTimeout requestId : Option Str) (body : UpstreamBody) : List Str :=
  (body.lines.map fun line => if line ≠ [] then line ++ ['\n'] else ['\n']) ++
    match body.failure with
    | none => []
    | some e => ["event: error\ndata: ".toList ++ errorData httpReadTimeout requestId e ++ "\n\n".toList]

namespace LMStudioProvider

def streamResponse : Option Str → Option Str → UpstreamBody → List Str := passThrough

end LMStudioProvider

namespace LlamaCppProvider

def streamResponse : Option Str → Option Str → UpstreamBody → List Str := passThrough

end LlamaCppProvider

section PassThrough

variable (httpReadTimeout requestId : Option Str)

/-- The events of what is emitted are those of the upstream text, and one for a failure. -/
def FramesEvents (body : UpstreamBody) (emitted : Str) : Prop :=
  eventsOf emitted = eventsOf body.text ++
    (body.failure.map fun e => ⟨"error".toList, errorData httpReadTimeout requestId e⟩).toList

theorem lineEnd_isPythonBreak {c : Char} (other : isPythonBreak c = false) : isLineEnd c = false := by
  unfold isPythonBreak at other
  unfold isLineEnd
  simp only [decide_eq_false_iff_not, not_or]
  constructor
  · intro same
    rw [same] at other
    cases other
  · intro same
    rw [same] at other
    cases other

theorem lines_inside (body : UpstreamBody) : ∀ line ∈ body.lines, ∀ c ∈ line, isLineEnd c = false := by
  have inside := @breakLines_inside isPythonBreak body.text
  intro line member c there
  apply lineEnd_isPythonBreak
  cases failed : body.failure.isSome with
  | false =>
    rw [body.complete failed, splitlines] at member
    rcases List.mem_append.mp member with ended | rest
    · exact inside.1 line ended c there
    · split at rest
      · cases rest
      · rw [List.mem_singleton.mp rest] at there
        exact inside.2 c there
  | true =>
    rw [body.cutOff failed] at member
    dsimp only [endedLines] at member
    split at member
    · exact inside.1 line (List.mem_of_mem_dropLast member) c there
    · exact inside.1 line member c there

theorem errorData_inside (e : PyException) : ∀ c ∈ errorData httpReadTimeout requestId e, isLineEnd c = false := by
  have printable : ∀ c ∈ errorData httpReadTimeout requestId e, 32 ≤ c.toNat := by
    simp only [errorData, Json.dumps, Json.dumpsMembers, List.forall_mem_append]
    have large (text : Str) (all : (text.all fun c => 32 ≤ c.toNat) = true) : ∀ c ∈ text, 32 ≤ c.toNat :=
      fun c member => of_decide_eq_true (List.all_eq_true.mp all c member)
    have brackets : (∀ c ∈ [Char.ofNat 123], 32 ≤ c.toNat) ∧ ∀ c ∈ [Char.ofNat 125], 32 ≤ c.toNat :=
      ⟨large _ rfl, large _ rfl⟩
    have separators : (∀ c ∈ ": ".toList, 32 ≤ c.toNat) ∧ ∀ c ∈ ", ".toList, 32 ≤ c.toNat :=
      ⟨large _ rfl, large _ rfl⟩
    have text := Json.le_dumpsString
    and_intros
    all_goals first
      | exact text _
      | exact brackets.1
      | exact brackets.2
      | exact separators.1
      | exact separators.2
  intro c member
  have large := printable c member
  unfold isLineEnd
  simp only [decide_eq_false_iff_not, not_or]
  constructor
  · intro same
    rw [same] at large
    exact absurd large (by decide)
  · intro same
    rw [same] at large
    exact absurd large (by decide)

def errorLines (e : PyException) : List Str :=
  ["event: error".toList, "data: ".toList ++ errorData httpReadTimeout requestId e, []]

theorem passThrough_flatten (body : UpstreamBody) : (passThrough httpReadTimeout requestId body).flatten =
    (body.lines ++ (body.failure.map (errorLines httpReadTimeout requestId)).toList.flatten).flatMap (· ++ ['\n']) := by
  have blank (lines : List Str) : (lines.map fun line => if line ≠ [] then line ++ ['\n'] else ['\n']).flatten =
      lines.flatMap (· ++ ['\n']) := by
    rw [List.flatMap]
    congr 1
    apply List.map_congr_left
    intro line _
    by_cases empty : line = [] <;> simp [empty]
  rw [passThrough, List.flatten_append, blank, List.flatMap_append]
  cases body.failure with
  | none => rfl
  | some e => simp [errorLines]

theorem emitted_lines (body : UpstreamBody) :
    (breakLines isLineEnd (passThrough httpReadTimeout requestId body).flatten).1 =
      body.lines ++ (body.failure.map (errorLines httpReadTimeout requestId)).toList.flatten := by
  have inside : ∀ line ∈ body.lines ++ (body.failure.map (errorLines httpReadTimeout requestId)).toList.flatten,
      ∀ c ∈ line, isLineEnd c = false := by
    rw [List.forall_mem_append]
    refine ⟨lines_inside body, ?_⟩
    cases body.failure with
    | none =>
      intro line member
      cases member
    | some e =>
      have data := errorData_inside httpReadTimeout requestId e
      have inner (text : Str) (all : (text.all fun c => ! isLineEnd c) = true) : ∀ c ∈ text, isLineEnd c = false :=
        fun c member => by simpa using List.all_eq_true.mp all c member
      have name : ∀ c ∈ "event: error".toList, isLineEnd c = false := inner _ rfl
      have field : ∀ c ∈ "data: ".toList, isLineEnd c = false := inner _ rfl
      simp only [Option.map_some, Option.toList_some, List.flatten_singleton, errorLines, List.forall_mem_cons,
        List.forall_mem_append]
      exact ⟨name, ⟨field, data⟩, by simp, by simp⟩
  have joined := breakLines_join (by decide) (by decide) inside []
  rw [List.append_nil, breakLines, List.append_nil] at joined
  rw [passThrough_flatten, joined]

theorem unmarked_append (lines : List Str) (e : PyException) :
    unmarked (lines ++ errorLines httpReadTimeout requestId e) = unmarked lines ++
      errorLines httpReadTimeout requestId e := by
  have plain : unmarked (errorLines httpReadTimeout requestId e) = errorLines httpReadTimeout requestId e := by
    have first : 'e' ≠ byteOrderMark := by decide
    simp [errorLines, unmarked, first]
  cases lines with
  | nil => exact plain
  | cons line rest =>
    cases line with
    | nil => rfl
    | cons c line =>
      by_cases marked : c = byteOrderMark <;> simp [unmarked, marked]

theorem readLines_errorLines (pending : Pending) (e : PyException) :
    (readLines pending (errorLines httpReadTimeout requestId e)).1 =
      [⟨"error".toList, joinData (pending.data ++ [errorData httpReadTimeout requestId e])⟩] := by
  have name : readField pending "event: error".toList = { pending with eventType := "error".toList } := by
    rfl
  have data (between : Pending) (json : Str) :
      readField between ("data: ".toList ++ json) = { between with data := between.data ++ [json] } := by
    rfl
  have notBlank (json : Str) : "data: ".toList ++ json ≠ [] := by simp
  rw [errorLines, readLines, if_neg (by decide), name, readLines, if_neg (notBlank _), data, readLines, if_pos rfl]
  simp [readLines, dispatch]

/-- The error event shows the pending data too. -/
theorem joinData_eq_iff (pending : List Str) (json : Str) : joinData (pending ++ [json]) = json ↔ pending = [] := by
  rw [joinData_concat, List.append_left_eq_self, List.flatMap_eq_nil_iff]
  constructor
  · intro blank
    cases pending with
    | nil => rfl
    | cons value rest =>
      have first := blank value List.mem_cons_self
      simp at first
  · intro empty value member
    rw [empty] at member
    cases member

theorem framesEvents_passThrough (body : UpstreamBody) :
    FramesEvents httpReadTimeout requestId body (passThrough httpReadTimeout requestId body).flatten ↔
      (readStream body.lines).1 = eventsOf body.text ∧
        (body.failure.isSome = true → (readStream body.lines).2.data = []) := by
  rw [FramesEvents]
  cases failed : body.failure with
  | none =>
    have lines := emitted_lines httpReadTimeout requestId body
    rw [failed] at lines
    rw [eventsOf, lines]
    simp
  | some e =>
    have lines := emitted_lines httpReadTimeout requestId body
    rw [failed] at lines
    simp only [Option.map_some, Option.toList_some, List.flatten_singleton] at lines
    rw [eventsOf, lines, readStream, unmarked_append, readLines_append, readLines_errorLines]
    change (readStream body.lines).1 ++ [_] = _ ++ [_] ↔ _
    constructor
    · intro same
      rcases List.append_inj' same rfl with ⟨events, last⟩
      have data := congrArg Event.data (List.singleton_inj.mp last)
      exact ⟨events, fun _ => (joinData_eq_iff ..).mp data⟩
    · intro both
      have data := (joinData_eq_iff _ (errorData httpReadTimeout requestId e)).mpr (both.2 rfl)
      rw [both.1]
      exact congrArg (fun data => eventsOf body.text ++ [Event.mk "error".toList data]) data

theorem readStream_rest (lines : List Str) {rest : Str} (unfinished : rest ≠ []) :
    (readStream (lines ++ [rest])).1 = (readStream lines).1 := by
  have silent (pending : Pending) : (readLines pending [rest]).1 = [] := by
    rw [readLines, if_neg unfinished]
    rfl
  rw [readStream, readStream]
  cases lines with
  | nil =>
    cases rest with
    | nil => exact absurd rfl unfinished
    | cons c rest =>
      rw [List.nil_append, unmarked]
      split
      · cases rest <;> simp [readLines, dispatch, unmarked]
      · rw [silent]
        rfl
  | cons line lines =>
    have apart : unmarked (line :: lines ++ [rest]) = unmarked (line :: lines) ++ [rest] := by
      cases line with
      | nil => rfl
      | cons c line =>
        by_cases marked : c = byteOrderMark <;> simp [unmarked, marked]
    rw [apart, readLines_append, silent, List.append_nil]

/-- Without the breaks that only Python knows the lines hold the events of the text. -/
theorem readStream_plain (body : UpstreamBody) (plain : ∀ c ∈ body.text, isPythonBreak c = isLineEnd c)
    (settled : body.failure.isSome = true → body.text.getLast? ≠ some '\r') :
    (readStream body.lines).1 = eventsOf body.text := by
  have same := breakLines_congr plain
  cases failed : body.failure.isSome with
  | true =>
    rw [body.cutOff failed, eventsOf]
    dsimp only [endedLines]
    rw [same, if_neg (settled failed)]
  | false =>
    rw [body.complete failed, splitlines, eventsOf, same]
    dsimp only
    split
    · rw [List.append_nil]
    · rename_i unfinished
      exact readStream_rest _ unfinished

end PassThrough

/-- Both providers frame the events right if and only if the lines that httpx delivers hold the events of the text,
    and no failure comes after a data line of an unfinished event. -/
theorem framesEvents_iff (httpReadTimeout requestId : Option Str) (body : UpstreamBody) :
    (FramesEvents httpReadTimeout requestId body (LMStudioProvider.streamResponse httpReadTimeout requestId body).flatten ↔
      (readStream body.lines).1 = eventsOf body.text ∧
        (body.failure.isSome = true → (readStream body.lines).2.data = [])) ∧
    (FramesEvents httpReadTimeout requestId body (LlamaCppProvider.streamResponse httpReadTimeout requestId body).flatten ↔
      (readStream body.lines).1 = eventsOf body.text ∧
        (body.failure.isSome = true → (readStream body.lines).2.data = [])) := by
  constructor
  · exact framesEvents_passThrough httpReadTimeout requestId body
  · exact framesEvents_passThrough httpReadTimeout requestId body

/-- The connection breaks after the first line of an event. -/
def brokenAfterData : UpstreamBody where
  text := "data: a\n".toList
  failure := some ⟨.other, "broken".toList⟩
  lines := ["data: a".toList]
  complete ended := by cases ended
  cutOff _ := by decide

/-- A line separator within the data of a complete event. -/
def separatorInData : UpstreamBody where
  text := "data: a".toList ++ [Char.ofNat 0x2028] ++ "b\n\n".toList
  failure := none
  lines := ["data: a".toList, "b".toList, []]
  complete _ := by decide
  cutOff failed := by cases failed

theorem not_framesEvents :
    ¬ FramesEvents none none brokenAfterData (LMStudioProvider.streamResponse none none brokenAfterData).flatten ∧
    ¬ FramesEvents none none separatorInData (LlamaCppProvider.streamResponse none none separatorInData).flatten := by
  constructor
  · unfold FramesEvents
    decide +kernel
  · unfold FramesEvents
    decide +kernel

end ClaudeProxy.Providers
