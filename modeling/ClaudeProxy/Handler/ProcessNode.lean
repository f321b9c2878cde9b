import ClaudeProxy.Handler.EventParser
import ClaudeProxy.Kit.Generator
import ClaudeProxy.Providers.ErrorMapping
import ClaudeProxy.Trees.Data

namespace ClaudeProxy.Handler

open Kit Trees Providers

structure TreeOf (nodeId : MessageId) where
  tree : MessageTree
  has : (tree.getNode nodeId).isSome

/-- The exceptions that come to the task from outside: its cancellation, and what a call raises. -/
inductive Interruption where
  | cancelled
  | failed (exception : PyException)

/-- Where an interruption may come: whatever is awaited, and the calls that may raise. -/
inductive Place where
  /-- The lock of the tree before the first write -/
  | start
  /-- `get_or_create_session`, or `__anext__` of the session -/
  | next
  | register
  | infoLock
  | infoSave
  | apply
  | display
  | showError
  | errorLock
  | childLock
  | showComplete
  | completeLock
  | completeSave
  | remove
deriving DecidableEq

/-- Nothing is awaited there. -/
def Place.isCall : Place → Bool
  | .infoSave | .apply | .completeSave => true
  | _ => false

/-- `update_ui` and the end of the session let only the cancellation through, and so do the locks. -/
def Place.admits (place : Place) : Interruption → Bool
  | .cancelled => !place.isCall
  | .failed _ => place.isCall || place = .next || place = .register

/-- The run is interrupted when it comes to the place after having passed it `skip` times. -/
structure Cut where
  place : Place
  skip : Nat
  why : Interruption
  admitted : place.admits why = true

/-- A cancellation that has outlived the loop over the children comes at the next `await`. -/
def Cut.hits (cut : Cut) (place : Place) : Bool :=
  cut.place = place ∧ cut.skip = 0 ∨ cut.place = .childLock ∧ place = .showComplete

def Cut.pass (cut : Cut) (place : Place) : Cut := if cut.place = place then { cut with skip := cut.skip - 1 } else cut

/-- What other tasks make of the tree, `await` by `await`. -/
abbrev Others (nodeId : MessageId) := List (Option (TreeOf nodeId))

structure Status where
  emoji : String
  label : String
  suffix : Option String
deriving DecidableEq

/-- What the handler does apart from its writes to the node. -/
inductive Effect where
  | transcript (event : ParsedEvent)
  | display (status : Option Status) (force : Bool)
  | saveTree (tree : MessageTree)
  | marked (child : MessageId)
  | editChild (child : MessageId) (status : Status)

/-- The tree and the variables of `_process_node_impl`. -/
structure Run (nodeId : MessageId) where
  tree : TreeOf nodeId
  capturedSessionId : Json
  tempSessionId : Json
  lastStatus : Option Status
  hadTranscriptEvents : Bool
  cut : Option Cut
  others : Others nodeId

def Run.start {nodeId : MessageId} (tree : TreeOf nodeId) : Run nodeId := ⟨tree, .null, .null, none, false, none, []⟩

abbrev Handling (nodeId : MessageId) := Generator Effect (Run nodeId) Interruption

namespace TreeOf

variable {nodeId : MessageId}

def node (t : TreeOf nodeId) : MessageNode := (t.tree.getNode nodeId).get t.has

def state (t : TreeOf nodeId) : MessageState := t.node.state

theorem getNode_modifyNode_isSome {tree : MessageTree} (has : (tree.getNode nodeId).isSome) (key : MessageId)
    (change : MessageNode → MessageNode) : ((tree.modifyNode key change).getNode nodeId).isSome := by
  unfold MessageTree.modifyNode
  split
  · exact has
  · rw [MessageTree.getNode, Dict.get?_set]
    split
    · rfl
    · exact has

def modifyNode (t : TreeOf nodeId) (key : MessageId) (change : MessageNode → MessageNode) : TreeOf nodeId :=
  ⟨t.tree.modifyNode key change, getNode_modifyNode_isSome t.has key change⟩

def updateState (t : TreeOf nodeId) (key : MessageId) (state : MessageState) (sessionId errorMessage : Option String)
    (now : Timestamp) : TreeOf nodeId :=
  ⟨t.tree.updateState key state sessionId errorMessage now, getNode_modifyNode_isSome t.has key _⟩

/-- Other tasks have made `other` of the tree. To the node itself they write `ERROR` alone, and only while it is open, as
    the cancellations and the propagation from a parent do. -/
def meanwhile (t other : TreeOf nodeId) : TreeOf nodeId :=
  other.modifyNode nodeId fun node =>
    { node with state := if t.state.isOpen ∧ other.state = .error then .error else t.state }

def meanwhiles (t : TreeOf nodeId) (others : Others nodeId) : TreeOf nodeId :=
  others.foldl (fun t other => other.elim t t.meanwhile) t

end TreeOf

namespace Run

variable {nodeId : MessageId}

def wait (run : Run nodeId) : Run nodeId :=
  { run with tree := run.tree.meanwhiles (run.others.take 1), others := run.others.drop 1 }

/-- An `await` that lasts until the others have written all that they are to write. -/
def settle (run : Run nodeId) : Run nodeId := { run with tree := run.tree.meanwhiles run.others, others := [] }

end Run

/-- What the task meets at `__anext__` of the session: an event with what the others write until the next, or other tasks
    have written to the tree. -/
inductive Arrival (nodeId : MessageId) where
  | event (value : Json) (others : Others nodeId)
  | elsewhere (tree : TreeOf nodeId)

inductive Ending (nodeId : MessageId) where
  | exited (code : Int) (stderr : Option Str) (others : Others nodeId)
  /-- The interruption comes while the event is handled, or else at the next `__anext__`. Without an event it comes at
      `__anext__` itself. -/
  | interrupted (event : Option Json) (cut : Cut) (others : Others nodeId)

/-- What comes of `get_or_create_session` and of the session's `start_task`. -/
inductive Opening (nodeId : MessageId) where
  | interrupted (why : Interruption) (others : Others nodeId)
  /-- A `RuntimeError`, whose `except` clause may be cancelled. -/
  | limited (exception : PyException) (cut : Option Cut) (others : Others nodeId)
  | opened (isNew : Bool) (sessionId : Str) (arrivals : List (Arrival nodeId)) (ending : Ending nodeId)

/-- What comes in an `except` clause that handles an interruption. -/
structure Clause (nodeId : MessageId) where
  cut : Option Cut
  others : Others nodeId

structure Script (nodeId : MessageId) where
  /-- What the first write finds when it has waited for the lock, and whether the task is cancelled there. -/
  found : Option (TreeOf nodeId)
  entry : Bool
  opening : Opening nodeId
  handler : Clause nodeId
  /-- What others write while `remove_session` is awaited, and whether the task is cancelled there. -/
  left : Option (TreeOf nodeId)
  cleanup : Bool

section Statuses

def plain (emoji label : String) : Status := ⟨emoji, label, none⟩

def thinking : Status := plain "🧠" "Claude is thinking..."

def working : Status := plain "🧠" "Claude is working..."

def executing : Status := plain "⏳" "Executing tools..."

def toolStatus (name : Json) : Status :=
  if name.isString "Task" then plain "🤖" "Subagent working..." else executing

def getStatusForEvent : ParsedEvent → Option Status
  | .thinkingStart _ | .thinkingDelta .. | .thinkingChunk _ => some thinking
  | .textStart _ | .textDelta .. | .textChunk _ => some working
  | .toolResult .. => some executing
  | .toolUseStart _ _ name _ | .toolUse _ name _ => some (toolStatus name)
  | .toolUseDelta .. => some (toolStatus .null)
  | .blockStop _ | .error _ | .complete _ => none

def isTranscriptEvent : ParsedEvent → Bool
  | .complete _ => false
  | _ => true

end Statuses

section Handling

variable {nodeId : MessageId}

def setCut (cut : Option Cut) : Handling nodeId Unit := .modify fun run => { run with cut := cut }

def setOthers (others : Others nodeId) : Handling nodeId Unit := .modify fun run => { run with others := others }

def settle : Handling nodeId Unit := .modify Run.settle

def pass (place : Place) : Handling nodeId Unit := fun run =>
  let waited := if place.isCall then run else run.wait
  match run.cut with
  | none => ⟨[], waited, .ok ()⟩
  | some cut =>
    if cut.hits place then ⟨[], { if place.isCall then run else run.settle with cut := none }, .error cut.why⟩
    else ⟨[], { waited with cut := some (cut.pass place) }, .ok ()⟩

def output (effect : Effect) : Handling nodeId Unit := .emit fun run => ([effect], run)

/-- `TranscriptBuffer.apply` converts indices with `int` and may raise. -/
def applyTranscript (event : ParsedEvent) : Handling nodeId Unit := do
  pass .apply
  output (.transcript event)

/-- Whether the edit is throttled or changes nothing is left to the environment. -/
def updateUi (place : Place) (status : Option Status) (force : Bool) : Handling nodeId Unit := do
  output (.display status force)
  pass place

/-- One reading of the clock stands for all of them. -/
def updateState (place : Place) (now : Timestamp) (key : MessageId) (state : MessageState)
    (sessionId errorMessage : Option String) : Handling nodeId Unit := do
  pass place
  .modify fun run => { run with tree := run.tree.updateState key state sessionId errorMessage now }

def saveTree (place : Place) : Handling nodeId Unit := do
  pass place
  .emit fun run => ([.saveTree run.tree.tree], run)

variable [PyText]

/-- A decoded value as an argument of type `str | None`; an object that is no string is kept as its text. -/
def argument (value : Json) : Option String := if value.isTruthy then some (String.ofList value.str) else none

/-- `TreeQueueManager.mark_node_error` with `propagate_to_children`; the children marked are returned. -/
def markNodeError (now : Timestamp) (message : Json) : Handling nodeId (List MessageId) := do
  updateState .errorLock now nodeId .error none (argument message)
  let run ← .current
  let pendingChildren := run.tree.tree.getPendingChildren nodeId
  .forEach pendingChildren fun child => do
    updateState .childLock now child .error none (some ("Parent failed: " ++ String.ofList message.str))
    output (.marked child)
  pure pendingChildren

/-- `fire_and_forget` starts a task and does not raise. -/
def propagateErrorToChildren (now : Timestamp) (message : Json) (childStatusText : String) : Handling nodeId Unit := do
  let children ← markNodeError now message
  .forEach children fun child => output (.editChild child ⟨"❌", "Cancelled:", some childStatusText⟩)

def handleSessionInfoEvent (now : Timestamp) (event : Members) : Handling nodeId Unit := do
  let run ← .current
  let realSessionId := Json.get event "session_id" .null
  .whenever ((Json.get event "type" .null).isString "session_info" ∧ realSessionId.isTruthy ∧ run.tempSessionId.isTruthy) do
    pass .register
    updateState .infoLock now nodeId .inProgress (argument realSessionId) none
    saveTree .infoSave
    .modify fun run => { run with capturedSessionId := realSessionId, tempSessionId := .null }

def handleComplete (now : Timestamp) : Handling nodeId Unit := do
  let run ← .current
  .whenever (¬ run.hadTranscriptEvents) (output (.transcript (.textChunk (text "Done."))))
  updateUi .showComplete (some (plain "✅" "Complete")) true
  .whenever run.capturedSessionId.isTruthy do
    updateState .completeLock now nodeId .completed (argument run.capturedSessionId) none
    saveTree .completeSave

def processParsedEvent (now : Timestamp) (parsed : ParsedEvent) : Handling nodeId Unit := do
  .whenever (isTranscriptEvent parsed) do
    applyTranscript parsed
    .modify fun run => { run with hadTranscriptEvents := true }
  let run ← .current
  match getStatusForEvent parsed, parsed with
  | some status, _ => do
    updateUi .display (some status) false
    .modify fun run => { run with lastStatus := some status }
  | none, .blockStop _ => updateUi .display run.lastStatus true
  | none, .complete _ => handleComplete now
  | none, .error message => do
    updateUi .showError (some (plain "❌" "Error")) true
    propagateErrorToChildren now message "Parent task failed"
  | none, _ => pure ()

def handleEvent (now : Timestamp) (event : Json) : Handling nodeId Unit :=
  match event with
  | .object members => do
    handleSessionInfoEvent now members
    .whenever (¬ (Json.get members "type" .null).isString "session_info")
      (.forEach (parseCliEvent event) (processParsedEvent now))
  | _ => pure ()

def handleArrival (now : Timestamp) : Arrival nodeId → Handling nodeId Unit
  | .event value others => do
    setOthers others
    handleEvent now value
    settle
  | .elsewhere tree => .modify fun run => { run with tree := run.tree.meanwhile tree }

def handleLast (now : Timestamp) : Option Json → Handling nodeId Unit
  | none => pure ()
  | some event => handleEvent now event

def handleEnding (now : Timestamp) : Ending nodeId → Handling nodeId Unit
  | .exited code stderr others => handleArrival now (.event (exitEvent code stderr) others)
  | .interrupted event cut others => do
    setOthers others
    setCut (some cut)
    handleLast now event
    settle
    .raise cut.why

def tryBody (now : Timestamp) : Opening nodeId → Handling nodeId Unit
  | .interrupted why others => do
    setOthers others
    settle
    .raise why
  | .limited exception cut others => do
    let message := getUserFacingErrorMessage exception none
    setOthers others
    pass .next
    setCut cut
    output (.transcript (.error (.string message)))
    updateUi .showError (some (plain "⏳" "Session limit reached")) true
    updateState .errorLock now nodeId .error none (argument (.string message))
  | .opened isNew sessionId arrivals ending => do
    .modify fun run =>
      if isNew then { run with tempSessionId := .string sessionId }
      else { run with capturedSessionId := .string sessionId }
    .forEach arrivals (handleArrival now)
    handleEnding now ending

def enterClause (clause : Clause nodeId) : Handling nodeId Unit :=
  .modify fun run => { run with cut := clause.cut, others := run.others ++ clause.others }

/-- `stopped` says that the node's context names `stop` as the reason of the cancellation. -/
def exceptClause (now : Timestamp) (stopped : Bool) (clause : Clause nodeId) : Interruption → Handling nodeId Unit
  | .cancelled => do
    enterClause clause
    .whenever (¬ stopped) (output (.transcript (.error (text "Task was cancelled"))))
    updateUi .showError (some (if stopped then plain "⏹" "Stopped." else plain "❌" "Cancelled")) true
    updateState .errorLock now nodeId .error none (some "Cancelled by user")
  | .failed exception => do
    let message : Json := .string ((getUserFacingErrorMessage exception none).take 200)
    enterClause clause
    output (.transcript (.error message))
    updateUi .showError (some (plain "💥" "Task Failed")) true
    propagateErrorToChildren now message "Parent task failed"

def removalCut (cancelled : Bool) : Option Cut := if cancelled then some ⟨.remove, 0, .cancelled, rfl⟩ else none

/-- What `remove_session` raises is swallowed, except for the cancellation. -/
def finallyClause (left : Option (TreeOf nodeId)) (cancelled : Bool) : Handling nodeId Unit := do
  let run ← .current
  .whenever (run.capturedSessionId.isTruthy ∨ run.tempSessionId.isTruthy) do
    setOthers [left]
    setCut (removalCut cancelled)
    pass .remove

def entryCut (cancelled : Bool) : Option Cut := if cancelled then some ⟨.start, 0, .cancelled, rfl⟩ else none

def processNodeImpl (now : Timestamp) (stopped : Bool) (script : Script nodeId) : Handling nodeId Unit := do
  setOthers [script.found]
  setCut (entryCut script.entry)
  updateState .start now nodeId .inProgress none none
  .ensure (.attempt (tryBody now script.opening) (exceptClause now stopped script.handler))
    (finallyClause script.left script.cleanup)

end Handling

end ClaudeProxy.Handler
