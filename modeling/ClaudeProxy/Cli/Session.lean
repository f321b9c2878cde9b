import ClaudeProxy.Kit.Json
import ClaudeProxy.Kit.Lines

namespace ClaudeProxy.Cli

open Kit

abbrev Str := List Char

/-- `read` gives at least one byte until the stream ends. -/
abbrev ReadChunk := {bytes : List UInt8 // bytes ≠ []}

/-- What `json.loads` does: a too long integer, say, raises no `JSONDecodeError`. -/
inductive Loaded where
  | value (event : Json)
  | decodeError
  | otherError

/-- `decode("utf-8", errors="replace")`, `strip` and `json.loads`. -/
structure Library where
  decode : List UInt8 → Str
  strip : Str → Str
  loads : Str → Loaded

def typeKey : Str := "type".toList

def sessionInfo (sessionId : Json) : Json :=
  .object [(typeKey, .string "session_info".toList), ("session_id".toList, sessionId)]

def rawEvent (line : Str) : Json := .object [(typeKey, .string "raw".toList), ("content".toList, .string line)]

def errorEvent (message : Str) : Json :=
  .object [(typeKey, .string "error".toList), ("error".toList, .object [("message".toList, .string message)])]

def exitEvent (code : Int) (stderr : Json) : Json :=
  .object [(typeKey, .string "exit".toList), ("code".toList, .integer code), ("stderr".toList, stderr)]

def idIn (members : List (Str × Json)) : Option Json :=
  match Json.getMember "session_id".toList members with
  | some id => some id
  | none => Json.getMember "sessionId".toList members

def nestedId (members : List (Str × Json)) (key : String) : Option Json :=
  match Json.getMember key.toList members with
  | some (.object nested) => idIn nested
  | _ => none

/-- `null` stands for `None`. -/
def extractSessionId : Json → Json
  | .object members =>
    match idIn members with
    | some id => id
    | none =>
      match ["init", "system", "result", "metadata"].findSome? (nestedId members) with
      | some id => id
      | none =>
        match Json.getMember "conversation".toList members with
        | some (.object conversation) => (Json.getMember "id".toList conversation).getD .null
        | _ => .null
  | _ => .null

/-- `event.get("type") == "session_info"` -/
def isSessionInfo : Json → Bool
  | .object members => ((Json.getMember typeKey members).getD .null).isString "session_info"
  | _ => false

/-- The events yielded so far; `aborted` once an exception has left the generator. -/
structure Reading where
  events : List Json
  sessionIdExtracted : Bool
  currentSessionId : Json
  aborted : Bool

/-- The read loop asks each event for its type before it passes it on; only a dict has `get`. -/
def Reading.pass (r : Reading) (event : Json) : Reading :=
  if r.aborted then r
  else if event.isObject then { r with
    events := r.events ++ [event], sessionIdExtracted := r.sessionIdExtracted || isSessionInfo event }
  else { r with aborted := true }

/-- `_handle_line_gen` and the loop over its events, for a line that is not blank. -/
def Reading.handleLine (lib : Library) (r : Reading) (line : Str) : Reading :=
  if r.aborted then r
  else
    match lib.loads line with
    | .otherError => { r with aborted := true }
    | .decodeError => r.pass (rawEvent line)
    | .value event =>
      if ¬ r.sessionIdExtracted ∧ (extractSessionId event).isTruthy then
        let r := { r with currentSessionId := extractSessionId event }
        (r.pass (sessionInfo (extractSessionId event))).pass event
      else r.pass event

def Reading.handleBytes (lib : Library) (r : Reading) (line : List UInt8) : Reading :=
  let text := lib.strip (lib.decode line)
  if text = [] then r else r.handleLine lib text

def newline : UInt8 := 10

def readLoop (lib : Library) : List ReadChunk → Reading × List UInt8 → Reading
  | [], (r, buffer) => if buffer = [] then r else r.handleBytes lib buffer
  | chunk :: rest, (r, buffer) => readLoop lib rest (Lines.feed newline (Reading.handleBytes lib) (r, buffer) chunk.1)

/-- What follows the end of the output: an event for a message on `stderr`, and the exit event. -/
def exitEvents (lib : Library) (stderrOutput : List UInt8) (returnCode : Int) : List Json :=
  if stderrOutput = [] then [exitEvent returnCode .null]
  else
    let stderrText := lib.strip (lib.decode stderrOutput)
    (if stderrText = [] then [] else [errorEvent stderrText]) ++ [exitEvent returnCode (.string stderrText)]

def startTask (lib : Library) (currentSessionId : Json) (chunks : List ReadChunk) (stderrOutput : List UInt8)
    (returnCode : Int) : Reading :=
  let r := readLoop lib chunks (⟨[], false, currentSessionId, false⟩, [])
  if r.aborted then r else { r with events := r.events ++ exitEvents lib stderrOutput returnCode }

section Division

variable (lib : Library)

def bytesOf (chunks : List ReadChunk) : List UInt8 := (chunks.map Subtype.val).flatten

def outputLines (bytes : List UInt8) : List Str :=
  let (lines, left) := Lines.cut newline bytes
  ((lines ++ if left = [] then [] else [left]).map fun line => lib.strip (lib.decode line)).filter (· ≠ [])

theorem readLoop_eq (chunks : List ReadChunk) (reading : Reading × List UInt8) : readLoop lib chunks reading =
    readLoop lib [] ((chunks.map Subtype.val).foldl (Lines.feed newline (Reading.handleBytes lib)) reading) := by
  induction chunks generalizing reading with
  | nil => rfl
  | cons chunk rest ih =>
    exact ih _

theorem foldl_handleBytes (r : Reading) (lines : List (List UInt8)) : lines.foldl (Reading.handleBytes lib) r =
    ((lines.map fun line => lib.strip (lib.decode line)).filter (· ≠ [])).foldl (Reading.handleLine lib) r := by
  induction lines generalizing r with
  | nil => rfl
  | cons line rest ih =>
    rw [List.foldl_cons, ih]
    by_cases blank : lib.strip (lib.decode line) = []
    · simp [Reading.handleBytes, blank]
    · simp [Reading.handleBytes, blank]

/-- The chunks do not count, only their bytes. -/
theorem readLoop_lines (chunks : List ReadChunk) (r : Reading) :
    readLoop lib chunks (r, []) = (outputLines lib (bytesOf chunks)).foldl (Reading.handleLine lib) r := by
  rw [readLoop_eq, Lines.foldl_feed newline _ _ r List.not_mem_nil, outputLines, ← foldl_handleBytes, bytesOf]
  cases whole : Lines.cut newline (chunks.map Subtype.val).flatten with
  | mk lines left =>
    have fed : Lines.feed newline (Reading.handleBytes lib) (r, []) (chunks.map Subtype.val).flatten =
        (lines.foldl (Reading.handleBytes lib) r, left) := by
      simp only [Lines.feed, List.nil_append, whole]
    rw [fed]
    cases left with
    | nil => simp [readLoop]
    | cons first rest => simp [readLoop]

theorem startTask_bytes {first second : List ReadChunk} (same : bytesOf first = bytesOf second) (currentSessionId : Json)
    (stderrOutput : List UInt8) (returnCode : Int) : startTask lib currentSessionId first stderrOutput returnCode =
      startTask lib currentSessionId second stderrOutput returnCode := by
  simp only [startTask, readLoop_lines, same]

end Division

/-- The event of a line; what is not JSON is passed on as it is. -/
def lineEvent (lib : Library) (line : Str) : Json :=
  match lib.loads line with
  | .value event => event
  | _ => rawEvent line

def Readable (lib : Library) (line : Str) : Prop :=
  match lib.loads line with
  | .value event => event.isObject = true
  | .decodeError => True
  | .otherError => False

def idOf (event : Json) : Option Json :=
  if (extractSessionId event).isTruthy then some (extractSessionId event) else none

/-- The events with a `session_info` before the first that has a session id. -/
def withSessionInfo : List Json → List Json
  | [] => []
  | event :: rest =>
    match idOf event with
    | some id => sessionInfo id :: event :: rest
    | none => event :: withSessionInfo rest

section Framing

variable (lib : Library)

def infosBefore (extracted : Bool) (event : Json) : List Json :=
  if extracted then [] else ((idOf event).map sessionInfo).toList

/-- The events that the read loop passes on; any event of type `session_info` ends the extraction. -/
def passed : Bool → List Json → List Json
  | _, [] => []
  | extracted, event :: rest =>
    infosBefore extracted event ++ event :: passed (extracted || (idOf event).isSome || isSessionInfo event) rest

theorem isSessionInfo_sessionInfo (id : Json) : isSessionInfo (sessionInfo id) = true := by
  simp [isSessionInfo, sessionInfo, Json.getMember, Json.isString]

theorem filter_infosBefore (extracted : Bool) (event : Json) :
    (infosBefore extracted event).filter isSessionInfo = infosBefore extracted event := by
  cases extracted with
  | true => rfl
  | false => cases found : idOf event <;> simp [infosBefore, found, isSessionInfo_sessionInfo]

theorem pass_object {r : Reading} (running : r.aborted = false) {event : Json} (object : event.isObject = true) :
    r.pass event = { r with
      events := r.events ++ [event], sessionIdExtracted := r.sessionIdExtracted || isSessionInfo event } := by
  simp [Reading.pass, running, object]

theorem pass_other {r : Reading} (running : r.aborted = false) {event : Json} (other : event.isObject = false) :
    r.pass event = { r with aborted := true } := by
  simp [Reading.pass, running, other]

theorem idOf_rawEvent (line : Str) : idOf (rawEvent line) = none := by
  have none : extractSessionId (rawEvent line) = .null := rfl
  rw [idOf, none]
  rfl

theorem isObject_of_idOf {event id : Json} (found : idOf event = some id) : event.isObject = true := by
  cases event with
  | object members => rfl
  | _ => cases found

theorem handleLine_abort {r : Reading} {line : Str} (running : r.aborted = false) (unreadable : ¬ Readable lib line) :
    (r.handleLine lib line).aborted = true := by
  unfold Readable at unreadable
  unfold Reading.handleLine
  rw [if_neg (by simp [running])]
  split at unreadable
  · rename_i event loaded
    have other : event.isObject = false := Bool.eq_false_iff.mpr unreadable
    have without : ¬ (¬ r.sessionIdExtracted ∧ (extractSessionId event).isTruthy) := by
      intro both
      have found : idOf event = some (extractSessionId event) := if_pos both.2
      rw [isObject_of_idOf found] at other
      cases other
    simp only [loaded, if_neg without, pass_other running other]
  · exact absurd trivial unreadable
  · rename_i loaded
    simp only [loaded]

theorem handleLine_readable {r : Reading} {line : Str} (running : r.aborted = false) (readable : Readable lib line) :
    (r.handleLine lib line).aborted = false ∧
      (r.handleLine lib line).events =
        r.events ++ infosBefore r.sessionIdExtracted (lineEvent lib line) ++ [lineEvent lib line] ∧
      (r.handleLine lib line).sessionIdExtracted =
        (r.sessionIdExtracted || (idOf (lineEvent lib line)).isSome || isSessionInfo (lineEvent lib line)) := by
  unfold Readable at readable
  unfold Reading.handleLine lineEvent infosBefore
  rw [if_neg (by simp [running])]
  cases loaded : lib.loads line with
  | otherError =>
    rw [loaded] at readable
    exact absurd readable id
  | decodeError =>
    have object : (rawEvent line).isObject = true := rfl
    simp [pass_object running object, idOf_rawEvent, running]
  | value event =>
    rw [loaded] at readable
    by_cases extracted : r.sessionIdExtracted = true
    · simp [extracted, pass_object running readable, running]
    · have fresh : r.sessionIdExtracted = false := Bool.eq_false_iff.mpr extracted
      by_cases found : (extractSessionId event).isTruthy = true
      · have info : (sessionInfo (extractSessionId event)).isObject = true := rfl
        simp [fresh, found, idOf, pass_object, running, readable, info, isSessionInfo_sessionInfo]
      · simp [fresh, found, idOf, pass_object running readable, running]

theorem handleLine_aborted (r : Reading) (line : Str) (aborted : r.aborted = true) : r.handleLine lib line = r := by
  rw [Reading.handleLine, if_pos aborted]

theorem foldl_aborted {r : Reading} (aborted : r.aborted = true) (lines : List Str) :
    lines.foldl (Reading.handleLine lib) r = r := by
  induction lines with
  | nil => rfl
  | cons line rest ih =>
    rw [List.foldl_cons, handleLine_aborted lib r line aborted]
    exact ih

theorem foldl_handleLine {r : Reading} (running : r.aborted = false) (lines : List Str) :
    ((lines.foldl (Reading.handleLine lib) r).aborted = false ↔ ∀ line ∈ lines, Readable lib line) ∧
      ((∀ line ∈ lines, Readable lib line) → (lines.foldl (Reading.handleLine lib) r).events =
        r.events ++ passed r.sessionIdExtracted (lines.map (lineEvent lib))) := by
  induction lines generalizing r with
  | nil => simp [running, passed]
  | cons line rest ih =>
    rw [List.foldl_cons, List.forall_mem_cons]
    by_cases readable : Readable lib line
    · rcases handleLine_readable lib running readable with ⟨still, events, extracted⟩
      rcases ih still with ⟨all, later⟩
      refine ⟨all.trans (by simp [readable]), fun both => ?_⟩
      rw [later both.2, events, extracted, List.map_cons, passed]
      simp
    · have aborted := handleLine_abort lib running readable
      rw [foldl_aborted lib aborted]
      simp [aborted, readable]

theorem passed_true (events : List Json) : passed true events = events := by
  induction events with
  | nil => rfl
  | cons event rest ih => simp [passed, infosBefore, ih]

/-- As many events of type `session_info` are added as events in all. -/
theorem passed_counts (extracted : Bool) (events : List Json) : ∃ added,
    (passed extracted events).length = events.length + added ∧
      ((passed extracted events).filter isSessionInfo).length = (events.filter isSessionInfo).length + added := by
  induction events generalizing extracted with
  | nil => exact ⟨0, rfl, rfl⟩
  | cons event rest ih =>
    rcases ih (extracted || (idOf event).isSome || isSessionInfo event) with ⟨added, length, infos⟩
    refine ⟨(infosBefore extracted event).length + added, ?_, ?_⟩
    · rw [passed, List.length_append, List.length_cons, length, List.length_cons]
      omega
    · rw [passed, List.filter_append, filter_infosBefore, List.filter_cons, List.filter_cons]
      split <;> simp only [List.length_append, List.length_cons, infos] <;> omega

theorem length_withSessionInfo (events : List Json) :
    (withSessionInfo events).length = events.length + (events.findSome? idOf).toList.length := by
  induction events with
  | nil => rfl
  | cons event rest ih =>
    rw [withSessionInfo, List.findSome?_cons]
    cases found : idOf event with
    | some id => simp
    | none =>
      simp only [List.length_cons, ih]
      omega

theorem passed_iff (events : List Json) :
    (passed false events = withSessionInfo events ∧
      (passed false events).filter isSessionInfo = ((events.findSome? idOf).map sessionInfo).toList) ↔
      ∀ event ∈ events, isSessionInfo event = false := by
  constructor
  · intro both
    rcases passed_counts false events with ⟨added, length, infos⟩
    have total := congrArg List.length both.1
    have named := congrArg List.length both.2
    rw [length_withSessionInfo] at total
    have single : ((events.findSome? idOf).map sessionInfo).toList.length = (events.findSome? idOf).toList.length := by
      cases events.findSome? idOf <;> rfl
    have none' : (events.filter isSessionInfo).length = 0 := by omega
    intro event member
    have absent := List.filter_eq_nil_iff.mp (List.eq_nil_of_length_eq_zero none') event member
    exact Bool.eq_false_iff.mpr absent
  · intro plain
    induction events with
    | nil => exact ⟨rfl, rfl⟩
    | cons event rest ih =>
      rcases List.forall_mem_cons.mp plain with ⟨plainFirst, plainRest⟩
      have restInfos : rest.filter isSessionInfo = [] := by
        rw [List.filter_eq_nil_iff]
        intro other member
        rw [plainRest other member]
        exact Bool.false_ne_true
      rcases ih plainRest with ⟨same, infos⟩
      cases found : idOf event with
      | some id =>
        simp [passed, infosBefore, withSessionInfo, found, passed_true, plainFirst, restInfos, isSessionInfo_sessionInfo]
      | none =>
        have later : passed false (event :: rest) = event :: passed false rest := by
          simp [passed, infosBefore, found, plainFirst]
        rw [later, withSessionInfo, found, List.findSome?_cons, found, List.filter_cons, plainFirst]
        exact ⟨congrArg _ same, infos⟩

theorem isObject_lineEvent {line : Str} (readable : Readable lib line) : (lineEvent lib line).isObject = true := by
  unfold Readable at readable
  unfold lineEvent
  cases loaded : lib.loads line with
  | value event =>
    rw [loaded] at readable
    exact readable
  | _ => rfl

theorem isObject_passed (extracted : Bool) {events : List Json} (objects : ∀ event ∈ events, event.isObject = true) :
    ∀ event ∈ passed extracted events, event.isObject = true := by
  induction events generalizing extracted with
  | nil =>
    intro event member
    cases member
  | cons first rest ih =>
    rcases List.forall_mem_cons.mp objects with ⟨object, others⟩
    intro event member
    rw [passed] at member
    rcases List.mem_append.mp member with info | here
    · unfold infosBefore at info
      split at info
      · cases info
      · rcases Option.map_eq_some_iff.mp (Option.mem_toList.mp info) with ⟨id, _, rfl⟩
        rfl
    · rcases List.mem_cons.mp here with rfl | later
      · exact object
      · exact ih _ others event later

theorem exitEvents_plain (stderrOutput : List UInt8) (returnCode : Int) :
    ∀ event ∈ exitEvents lib stderrOutput returnCode, event.isObject = true ∧ isSessionInfo event = false := by
  have exit (stderr : Json) : isSessionInfo (exitEvent returnCode stderr) = false := by
    simp [isSessionInfo, exitEvent, Json.getMember, Json.isString]
  have error (message : Str) : isSessionInfo (errorEvent message) = false := by
    simp [isSessionInfo, errorEvent, Json.getMember, Json.isString]
  intro event member
  unfold exitEvents at member
  split at member
  · rw [List.mem_singleton.mp member]
    exact ⟨rfl, exit _⟩
  · rcases List.mem_append.mp member with reported | last
    · split at reported
      · cases reported
      · rw [List.mem_singleton.mp reported]
        exact ⟨rfl, error _⟩
    · rw [List.mem_singleton.mp last]
      exact ⟨rfl, exit _⟩

theorem exitEvents_last (stderrOutput : List UInt8) (returnCode : Int) (before : List Json) :
    ∃ stderr, (before ++ exitEvents lib stderrOutput returnCode).getLast? = some (exitEvent returnCode stderr) := by
  unfold exitEvents
  split
  · exact ⟨_, List.getLast?_concat⟩
  · dsimp only
    rw [← List.append_assoc]
    exact ⟨_, List.getLast?_concat⟩

end Framing

/-- What is promised of the events that a task yields, for the lines that the process has written. -/
structure Framed (lib : Library) (lines : List Str) (stderrOutput : List UInt8) (returnCode : Int) (task : Reading) :
    Prop where
  completed : task.aborted = false
  events : task.events = withSessionInfo (lines.map (lineEvent lib)) ++ exitEvents lib stderrOutput returnCode
  dicts : ∀ event ∈ task.events, event.isObject = true
  infos : task.events.filter isSessionInfo = (((lines.map (lineEvent lib)).findSome? idOf).map sessionInfo).toList
  exit : ∃ stderr, task.events.getLast? = some (exitEvent returnCode stderr)

theorem framed_of_lines (lib : Library) (currentSessionId : Json) (chunks : List ReadChunk) (stderrOutput : List UInt8)
    (returnCode : Int) : Framed lib (outputLines lib (bytesOf chunks)) stderrOutput returnCode
        (startTask lib currentSessionId chunks stderrOutput returnCode) ↔
      ∀ line ∈ outputLines lib (bytesOf chunks), Readable lib line ∧ isSessionInfo (lineEvent lib line) = false := by
  generalize allLines : outputLines lib (bytesOf chunks) = lines
  let start : Reading := ⟨[], false, currentSessionId, false⟩
  have running : start.aborted = false := rfl
  rcases foldl_handleLine lib running lines with ⟨completed, passedOn⟩
  have task : startTask lib currentSessionId chunks stderrOutput returnCode =
      let r := lines.foldl (Reading.handleLine lib) start
      if r.aborted then r else { r with events := r.events ++ exitEvents lib stderrOutput returnCode } := by
    rw [startTask, readLoop_lines, allLines]
  by_cases readable : ∀ line ∈ lines, Readable lib line
  · have events := passedOn readable
    have done := completed.mpr readable
    have objects : ∀ event ∈ lines.map (lineEvent lib), event.isObject = true := by
      intro event member
      rcases List.mem_map.mp member with ⟨line, listed, rfl⟩
      exact isObject_lineEvent lib (readable line listed)
    have exits := exitEvents_plain lib stderrOutput returnCode
    have noInfos : (exitEvents lib stderrOutput returnCode).filter isSessionInfo = [] := by
      rw [List.filter_eq_nil_iff]
      intro event member
      rw [(exits event member).2]
      exact Bool.false_ne_true
    have yielded : (startTask lib currentSessionId chunks stderrOutput returnCode).events =
        passed false (lines.map (lineEvent lib)) ++ exitEvents lib stderrOutput returnCode := by
      rw [task]
      dsimp only
      rw [if_neg (by simp [done])]
      exact congrArg (· ++ _) events
    have plain := passed_iff (lines.map (lineEvent lib))
    rw [List.forall_mem_map] at plain
    constructor
    · intro framed line member
      refine ⟨readable line member, plain.mp ⟨?_, ?_⟩ line member⟩
      · exact List.append_cancel_right (yielded.symm.trans framed.events)
      · have infos := framed.infos
        rw [yielded, List.filter_append, noInfos, List.append_nil] at infos
        exact infos
    · intro all
      rcases plain.mpr fun line member => (all line member).2 with ⟨same, infos⟩
      constructor
      · rw [task]
        dsimp only
        rw [if_neg (by simp [done])]
        exact done
      · rw [yielded, same]
      · rw [yielded]
        intro event member
        rcases List.mem_append.mp member with inside | last
        · exact isObject_passed false objects event inside
        · exact (exits event last).1
      · rw [yielded, List.filter_append, noInfos, List.append_nil]
        exact infos
      · rw [yielded]
        exact exitEvents_last lib stderrOutput returnCode _
  · have aborted : (lines.foldl (Reading.handleLine lib) start).aborted = true :=
      Bool.not_eq_false _ ▸ fun done => readable (completed.mp done)
    constructor
    · intro framed
      have done := framed.completed
      rw [task] at done
      dsimp only at done
      rw [if_pos aborted, aborted] at done
      cases done
    · exact fun all => absurd (fun line member => (all line member).1) readable

/-- The division into chunks never counts, and the events are framed as they should be exactly when every line is
    an object that does not call itself `session_info`, or no JSON at all. -/
theorem framed_iff (lib : Library) (currentSessionId : Json) (chunks : List ReadChunk) (stderrOutput : List UInt8)
    (returnCode : Int) :
    (∀ other, bytesOf other = bytesOf chunks → startTask lib currentSessionId other stderrOutput returnCode =
      startTask lib currentSessionId chunks stderrOutput returnCode) ∧
      (Framed lib (outputLines lib (bytesOf chunks)) stderrOutput returnCode
        (startTask lib currentSessionId chunks stderrOutput returnCode) ↔
        ∀ line ∈ outputLines lib (bytesOf chunks), Readable lib line ∧ isSessionInfo (lineEvent lib line) = false) := by
  constructor
  · intro other same
    exact startTask_bytes lib same currentSessionId stderrOutput returnCode
  · exact framed_of_lines lib currentSessionId chunks stderrOutput returnCode

def plainLibrary : Library where
  decode bytes := bytes.map fun byte => Char.ofNat byte.toNat
  strip line := (line.dropWhile Char.isWhitespace).reverse.dropWhile Char.isWhitespace |>.reverse
  loads line :=
    if line = "[1]".toList then .value (.array [.integer 1])
    else if line = [Char.ofNat 123, Char.ofNat 125] then .value (.object [])
    else .decodeError

def arrayFirst : List ReadChunk := [⟨[91, 49, 93, 10, 123, 125, 10], List.cons_ne_nil _ _⟩]

/-- The array ends the stream: the event of the second line and the exit event are lost. -/
theorem arrayFirst_aborts : (startTask plainLibrary .null arrayFirst [] 0).aborted = true ∧
    (startTask plainLibrary .null arrayFirst [] 0).events = [] ∧
    ¬ Framed plainLibrary (outputLines plainLibrary (bytesOf arrayFirst)) [] 0
      (startTask plainLibrary .null arrayFirst [] 0) := by
  have aborted : (startTask plainLibrary .null arrayFirst [] 0).aborted = true := by decide
  refine ⟨aborted, rfl, fun framed => ?_⟩
  rw [framed.completed] at aborted
  cases aborted

end ClaudeProxy.Cli
