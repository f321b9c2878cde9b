import ClaudeProxy.Handler.Interruptions

namespace ClaudeProxy.Handler

open Kit Trees Providers Generator

variable {nodeId : MessageId}

section Events

def isError : ParsedEvent → Bool
  | .error _ => true
  | _ => false

def isComplete : ParsedEvent → Bool
  | .complete _ => true
  | _ => false

def carriesSession : Json → Bool
  | .object members => (Json.get members "type" .null).isString "session_info" &&
      (Json.get members "session_id" .null).isTruthy
  | _ => false

variable [PyText]

def isErrorEvent (event : Json) : Bool := (parseCliEvent event).any isError

def completes (event : Json) : Bool := (parseCliEvent event).any isComplete

def Errored (arrivals : List (Arrival nodeId)) : Prop := ∃ event others, .event event others ∈ arrivals ∧ isErrorEvent event

/-- An error event comes while the node has a pending child. It finds the tree as the others leave it at the edit and at
    the lock. -/
def FailsPending : TreeOf nodeId → List (Arrival nodeId) → Prop
  | _, [] => False
  | tree, .event event others :: rest =>
    isErrorEvent event ∧ (tree.meanwhiles (others.take 2)).HasPendingChild ∨ FailsPending (tree.meanwhiles others) rest
  | tree, .elsewhere other :: rest => FailsPending (tree.meanwhile other) rest

/-- The session counts as captured from the start, or one of the events names it. -/
def Captures (isNew : Bool) (sessionId : Str) (arrivals : List (Arrival nodeId)) : Prop :=
  sessionId ≠ [] ∧ (isNew = false ∨ ∃ event others, .event event others ∈ arrivals ∧ carriesSession event)

/-- What the events and the others make of a node: whether its session has been captured, and its state. -/
structure Standing where
  captured : Bool
  state : MessageState

namespace Standing

/-- `awaits` says that a session which has not been captured is one to be named by an event. -/
def after (awaits : Bool) (standing : Standing) : Arrival nodeId → Standing
  | .elsewhere tree => { standing with state := stateAfter standing.state [some tree] }
  | .event event others =>
    if carriesSession event ∧ awaits ∧ ¬ standing.captured then ⟨true, stateAfter .inProgress (others.drop 2)⟩
    else if completes event ∧ standing.captured then { standing with state := .completed }
    else if isErrorEvent event then { standing with state := .error }
    else { standing with state := stateAfter standing.state others }

end Standing

def infoPlaces : List Place := [.register, .infoLock]

def errorPlaces : List Place := [.apply, .showError, .errorLock]

def completePlaces : List Place := [.showComplete, .completeLock]

/-- The interruption comes at one of the places. -/
def Cut.stops (cut : Cut) (places : List Place) : Bool := places.any cut.hits

/-- The state of the node when an event has been interrupted: its write counts if it came before. -/
def Standing.reached (awaits : Bool) (standing : Standing) (cut : Cut) (others : Others nodeId) : Option Json → MessageState
  | none => stateAfter standing.state others
  | some event =>
    if carriesSession event ∧ awaits ∧ ¬ standing.captured then
      if cut.stops infoPlaces then stateAfter standing.state others else stateAfter .inProgress (others.drop 2)
    else if isErrorEvent event ∧ cut.stops errorPlaces then stateAfter standing.state others
    else if completes event ∧ standing.captured ∧ ¬ cut.stops completePlaces then .completed
    else if isErrorEvent event then .error
    else stateAfter standing.state others

end Events

section Facts

/-- The run stands where the events have brought it: `others` are still to write, and `marked` says whether children have
    been marked. -/
structure Here (awaits : Bool) (epoch : TreeOf nodeId) (standing : Standing) (others : Others nodeId) (marked : Prop)
    (history : List Effect) (run : Run nodeId) : Prop where
  captured : run.capturedSessionId.isTruthy = standing.captured
  temp : run.tempSessionId.isTruthy = (awaits && !standing.captured)
  others : run.others = others
  state : run.tree.state = standing.state
  marks : HasMark history ↔ marked
  same : ¬ marked → run.tree.SameOthers epoch

/-- It will stand there when the others have written what is left of theirs. -/
def Bound (awaits : Bool) (epoch : TreeOf nodeId) (standing : Standing) (marked : Prop) (history : List Effect)
    (run : Run nodeId) : Prop :=
  Here awaits epoch standing [] marked history run.settle

/-- What is known of an interrupted run: whether it has a session to remove, and what will become of the node's state. -/
structure Left (named : Bool) (state : MessageState) (run : Run nodeId) : Prop where
  named : (run.capturedSessionId.isTruthy || run.tempSessionId.isTruthy) = named
  state : stateAfter run.tree.state run.others = state

/-- A standing before that many of the others' writes, and after them. -/
def Waited (awaits : Bool) (epoch : TreeOf nodeId) (standing : Standing) (others : Others nodeId) (marked : Prop) (n : Nat) :
    List Effect → Run nodeId → Prop :=
  Here awaits (epoch.meanwhiles (others.take n)) { standing with state := stateAfter standing.state (others.take n) }
    (others.drop n) marked

variable {awaits : Bool} {epoch : TreeOf nodeId} {standing : Standing} {others : Others nodeId} {marked : Prop}
  {history : List Effect} {run : Run nodeId} {now : Timestamp}

theorem Here.local : Local (Here awaits epoch standing others marked : List Effect → Run nodeId → Prop) where
  cut _ _ _ here := ⟨here.captured, here.temp, here.others, here.state, here.marks, here.same⟩
  effect h _ _ other here := { here with marks := (hasMark_append h other).trans here.marks }
  locals _ _ _ _ here := ⟨here.captured, here.temp, here.others, here.state, here.marks, here.same⟩

theorem Bound.steady : Steady (Bound awaits epoch standing marked : List Effect → Run nodeId → Prop) where
  cut h run next bound := Here.local.cut h run.settle next bound
  effect h run effect other bound := Here.local.effect h run.settle effect other bound
  locals h run status noted bound := Here.local.locals h run.settle status noted bound
  wait h run bound := by
    rw [Bound, Run.settle_wait]
    exact bound
  settle _ _ bound := bound

theorem Left.steady (named : Bool) (state : MessageState) :
    Steady fun (_ : List Effect) (run : Run nodeId) => Left named state run where
  cut _ _ _ left := ⟨left.named, left.state⟩
  effect _ _ _ _ left := left
  locals _ _ _ _ left := ⟨left.named, left.state⟩
  wait _ run left := by
    refine ⟨left.named, ?_⟩
    rw [Run.wait, state_meanwhiles, stateAfter_take_drop]
    exact left.state
  settle _ run left := by
    refine ⟨left.named, ?_⟩
    rw [Run.settle, state_meanwhiles, stateAfter_nil]
    exact left.state

theorem Here.left (here : Here awaits epoch standing others marked history run) :
    Left (standing.captured || awaits) (stateAfter standing.state others) run := by
  constructor
  · rw [here.captured, here.temp]
    cases standing.captured <;> simp
  · rw [here.others, here.state]

theorem Bound.left (bound : Bound awaits epoch standing marked history run) :
    Left (standing.captured || awaits) standing.state run := by
  have after := Here.left bound
  rw [stateAfter_nil] at after
  refine ⟨after.named, ?_⟩
  rw [← after.state, Run.settle, state_meanwhiles, stateAfter_nil]

theorem Here.bound (here : Here awaits epoch standing others marked history run) :
    Bound awaits (epoch.meanwhiles others) { standing with state := stateAfter standing.state others } marked history run := by
  refine ⟨here.captured, here.temp, rfl, ?_, here.marks, fun unmarked => ?_⟩
  · rw [Run.settle, state_meanwhiles, here.others, here.state]
  · rw [Run.settle, here.others]
    exact (here.same unmarked).meanwhiles others

theorem Here.wait (here : Here awaits epoch standing others marked history run) :
    Waited awaits epoch standing others marked 1 history run.wait := by
  refine ⟨here.captured, here.temp, ?_, ?_, here.marks, fun unmarked => ?_⟩
  · rw [Run.wait, here.others]
  · rw [Run.wait, state_meanwhiles, here.others, here.state]
  · rw [Run.wait, here.others]
    exact (here.same unmarked).meanwhiles _

theorem Waited.zero : Waited awaits epoch standing others marked 0 history run ↔
    Here awaits epoch standing others marked history run := by
  rw [Waited, List.take_zero, List.drop_zero, stateAfter_nil]
  rfl

theorem Waited.succ {n : Nat} (waited : Waited awaits epoch standing others marked n history run) :
    Waited awaits epoch standing others marked (n + 1) history run.wait := by
  have later := Here.wait waited
  rw [Waited, ← TreeOf.meanwhiles_append, ← stateAfter_append, List.drop_drop, ← List.take_add] at later
  exact later

theorem meets_ne_none {cut : Option Cut} {place : Place} (met : meets cut place) : cut ≠ none := by
  obtain ⟨c, is, -⟩ := met
  rw [is]
  exact Option.some_ne_none c

theorem cutoff_of_meets {cut : Option Cut} {place : Place} {pre : List Effect → Run nodeId → Prop} {α : Type}
    {g : Handling nodeId α} {post : α → List Effect → Run nodeId → Prop}
    (triple : Triple pre g post fun h run => meets cut place ∧ Bound awaits epoch standing marked h run) :
    Triple pre g post fun _ run => cut ≠ none ∧ Left (standing.captured || awaits) standing.state run :=
  triple.otherwise fun _ _ both => ⟨meets_ne_none both.1, both.2.left⟩

theorem Bound.congr {marked' : Prop} (bound : Bound awaits epoch standing marked history run) (marks : marked ↔ marked') :
    Bound awaits epoch standing marked' history run := by
  rw [← propext marks]
  exact bound

end Facts

section Writes

variable {cut : Option Cut} {awaits : Bool} {epoch : TreeOf nodeId} {standing : Standing} {others : Others nodeId}
  {marked : Prop} {now : Timestamp} {keeps : List Effect → Run nodeId → Prop} {places : List Place}

def Stopped (cut : Option Cut) (places : List Place) : Prop := ∃ place ∈ places, hits cut place

theorem call_missed {place : Place} {fail : List Effect → Run nodeId → Prop} (less : List Place) (call : place.isCall = true)
    (loc : Local keeps) (missed : ¬ hits cut place) (here : place ∈ places)
    (fewer : ∀ other ∈ less, other ∈ places ∧ other ≠ place) :
    Triple (Under cut places keeps) (pass place) (fun _ => Under cut less keeps) fail := by
  refine pass_missed missed here fewer fun h run next holds => ?_
  rw [Place.waited, if_pos call]
  exact loc.cut h run next holds

theorem waited_missed {place : Place} {fail : List Effect → Run nodeId → Prop} {n : Nat} (less : List Place)
    (awaited : place.isCall = false) (missed : ¬ hits cut place) (here : place ∈ places)
    (fewer : ∀ other ∈ less, other ∈ places ∧ other ≠ place) :
    Triple (Under cut places (Waited awaits epoch standing others marked n)) (pass place)
      (fun _ => Under cut less (Waited awaits epoch standing others marked (n + 1))) fail := by
  refine pass_missed missed here fewer fun h run next waited => ?_
  rw [Place.waited, awaited, if_neg Bool.false_ne_true]
  exact Here.local.cut h run.wait next waited.succ

/-- The node is written to when the edit and the lock, or what comes before the write, have been waited for. -/
theorem write_here {state : MessageState} {sessionId errorMessage : Option String} {n : Nat}
    {fail : List Effect → Run nodeId → Prop} :
    Triple (Under cut places (Waited awaits epoch standing others marked n))
      (.modify fun run => { run with tree := run.tree.updateState nodeId state sessionId errorMessage now } :
        Handling nodeId Unit)
      (fun _ => Under cut places
        (Here awaits (epoch.meanwhiles (others.take n)) { standing with state := state } (others.drop n) marked)) fail := by
  refine write_under fun h run here => ?_
  exact ⟨here.captured, here.temp, here.others, TreeOf.state_updateState_self .., here.marks,
    fun unmarked => (TreeOf.updateState_sameOthers ..).trans (here.same unmarked)⟩

variable [PyText]

theorem sessionInfo_stopped (steady : Steady keeps) (members : Members)
    (stopped : Stopped cut infoPlaces) (type : (Json.get members "type" .null).isString "session_info" = true)
    (real : (Json.get members "session_id" .null).isTruthy = true)
    (temp : ∀ h run, keeps h run → run.tempSessionId.isTruthy = true) :
    Triple (Under cut infoPlaces keeps) (handleSessionInfoEvent now members : Handling nodeId Unit)
      (fun _ _ _ => False) fun h run => cut ≠ none ∧ keeps h run := by
  refine Triple.bind Triple.current fun before => Triple.ite (fun _ => ?_) fun other => ?_
  · refine Triple.before ?_ fun _ _ both => both.2
    refine Triple.bind (steady.pass_stops [.infoLock] (by decide) (by decide)) fun _ => Triple.known fun first => ?_
    refine Triple.bind_raises <| Triple.bind (steady.pass_stops [] (by decide) (by decide)) fun _ =>
      Triple.known fun second => ?_
    simp [Stopped, infoPlaces, first, second] at stopped
  · rintro h run ⟨rfl, holds, -⟩
    exact absurd ⟨type, real, temp h before holds⟩ other

/-- The event that names the session, with its write. -/
theorem sessionInfo_written (members : Members) (missed : ¬ Stopped cut infoPlaces)
    (type : (Json.get members "type" .null).isString "session_info" = true)
    (real : (Json.get members "session_id" .null).isTruthy = true) (waiting : awaits = true)
    (uncaptured : standing.captured = false) :
    Triple (Under cut infoPlaces (Here awaits epoch standing others marked))
      (handleSessionInfoEvent now members : Handling nodeId Unit)
      (fun _ => Under cut []
        (Bound awaits (epoch.meanwhiles others) ⟨true, stateAfter .inProgress (others.drop 2)⟩ marked))
      fun _ run => cut ≠ none ∧ Left true (stateAfter .inProgress (others.drop 2)) run := by
  have first : ¬ hits cut .register := fun hit => missed ⟨_, by decide, hit⟩
  have second : ¬ hits cut .infoLock := fun hit => missed ⟨_, by decide, hit⟩
  refine Triple.bind Triple.current fun before => Triple.ite (fun _ => ?_) fun other => ?_
  · refine Triple.before ?_ fun h run both => And.intro (Waited.zero.mpr both.2.1) both.2.2
    refine Triple.bind (waited_missed [.infoLock] rfl first (by decide) (by decide)) fun _ => ?_
    refine Triple.bind (Triple.bind (waited_missed [] rfl second (by decide) (by decide)) fun _ => write_here) fun _ => ?_
    refine Triple.before ?_ fun h run both => And.intro both.1.bound both.2
    rw [TreeOf.meanwhiles_take_drop, uncaptured, waiting]
    refine Triple.bind (cutoff_of_meets (Bound.steady.saveTree List.not_mem_nil)) fun _ => Triple.modify fun h run both => ?_
    exact ⟨⟨real, rfl, both.1.others, both.1.state, both.1.marks, both.1.same⟩, both.2⟩
  · rintro h run ⟨rfl, here, -⟩
    have temp : before.tempSessionId.isTruthy = true := by rw [here.temp, waiting, uncaptured]; rfl
    exact absurd ⟨type, real, temp⟩ other

omit [PyText] in
theorem noted_stops (steady : Steady keeps) (parsed : ParsedEvent) (transcribed : isTranscriptEvent parsed = true) :
    Triple (Under cut errorPlaces keeps)
      (whenever (isTranscriptEvent parsed) do
        applyTranscript parsed
        modify fun run => { run with hadTranscriptEvents := true } : Handling nodeId Unit)
      (fun _ h run => ¬ hits cut .apply ∧ Under cut [.showError, .errorLock] keeps h run)
      fun h run => cut ≠ none ∧ keeps h run := by
  refine Triple.ite (fun _ => ?_) fun no => absurd transcribed no
  have applied : Triple (Under cut errorPlaces keeps) (applyTranscript parsed)
      (fun _ h run => ¬ hits cut .apply ∧ Under cut [.showError, .errorLock] keeps h run)
      fun h run => cut ≠ none ∧ keeps h run :=
    Triple.bind (steady.pass_stops [.showError, .errorLock] (by decide) (by decide)) fun _ => Triple.known fun missed =>
      (steady.toLocal.output fun _ => Effect.noConfusion).after fun _ _ _ under => ⟨missed, under⟩
  exact Triple.bind applied fun _ => Triple.modify fun h run both =>
    ⟨both.1, steady.locals h run run.lastStatus true both.2.1, both.2.2⟩

/-- An error that is interrupted before it is written to the node. -/
theorem error_stopped (steady : Steady keeps) (stopped : Stopped cut errorPlaces) (message : Json) :
    Triple (Under cut errorPlaces keeps) (processParsedEvent now (.error message) : Handling nodeId Unit)
      (fun _ _ _ => False) fun h run => cut ≠ none ∧ keeps h run := by
  refine Triple.bind (noted_stops steady _ rfl) fun _ => Triple.known fun first => ?_
  refine Triple.bind Triple.current fun _ => Triple.before ?_ fun _ _ both => both.2
  have shown : Triple (Under cut [.showError, .errorLock] keeps)
      (updateUi .showError (some (plain "❌" "Error")) true : Handling nodeId Unit)
      (fun _ h run => ¬ hits cut .showError ∧ Under cut [.errorLock] keeps h run) fun h run => cut ≠ none ∧ keeps h run :=
    Triple.bind (steady.toLocal.output fun _ => Effect.noConfusion) fun _ =>
      steady.pass_stops [.errorLock] (by decide) (by decide)
  refine Triple.bind shown fun _ => Triple.known fun second => ?_
  refine Triple.bind_raises <| Triple.bind_raises <| Triple.bind_raises <|
    (steady.pass_stops [] (by decide) (by decide)).after fun _ h run both => ?_
  have third := both.1
  simp [Stopped, errorPlaces, first, second, third] at stopped

/-- What is left of the error once the node has been failed, while its children are being marked. -/
structure Failing (awaits known : Bool) (run : Run nodeId) : Prop where
  captured : run.capturedSessionId.isTruthy = known
  temp : run.tempSessionId.isTruthy = (awaits && !known)
  failed : run.tree.state = .error

section Failing

variable {known : Bool}

omit [PyText] in
theorem Failing.steady : Steady fun (_ : List Effect) (run : Run nodeId) => Failing awaits known run where
  cut _ _ _ failing := ⟨failing.captured, failing.temp, failing.failed⟩
  effect _ _ _ _ failing := failing
  locals _ _ _ _ failing := ⟨failing.captured, failing.temp, failing.failed⟩
  wait _ run failing := by
    refine ⟨failing.captured, failing.temp, ?_⟩
    rw [Run.wait, state_meanwhiles, failing.failed, stateAfter_error]
  settle _ run failing := by
    refine ⟨failing.captured, failing.temp, ?_⟩
    rw [Run.settle, state_meanwhiles, failing.failed, stateAfter_error]

omit [PyText] in
theorem Failing.bound {history : List Effect} {run : Run nodeId} (failing : Failing awaits known run)
    (mark : HasMark history) (holds : marked) : Bound awaits epoch ⟨known, .error⟩ marked history run := by
  have settled := Failing.steady.settle history run failing
  exact ⟨settled.captured, settled.temp, rfl, settled.failed, iff_of_true mark holds, fun no => absurd holds no⟩

omit [PyText] in
theorem Failing.left {run : Run nodeId} (failing : Failing awaits known run) : Left (known || awaits) .error run := by
  constructor
  · rw [failing.captured, failing.temp]
    cases known <;> simp
  · rw [failing.failed, stateAfter_error]

omit [PyText] in
theorem markChildren_failing (first : MessageId) (rest : List MessageId) (message : Option String) :
    Triple (Under cut completePlaces fun _ run => Failing awaits known run)
      (forEach (first :: rest) fun child => do
        updateState .childLock now child .error none message
        output (.marked child) : Handling nodeId Unit)
      (fun _ h run => Under cut completePlaces (fun _ run => Failing awaits known run) h run ∧ HasMark h)
      fun _ run => meets cut .childLock ∧ Failing awaits known run := by
  have fails (run : Run nodeId) (key : MessageId) (message : Option String) (failing : Failing awaits known run) :
      Failing awaits known { run with tree := run.tree.updateState key .error none message now } :=
    ⟨failing.captured, failing.temp, TreeOf.state_updateState_error failing.failed ..⟩
  refine Triple.bind (Failing.steady.markChild fails (by decide) first message) fun _ => Triple.forEach fun child _ => ?_
  exact (Failing.steady.markChild fails (by decide) child message).before fun _ _ both => both.1

/-- The children that are pending at the write are marked after it. -/
theorem markChildren_bound {last : TreeOf nodeId} (reaches : epoch.meanwhiles others = last) (message : Json) :
    Triple (Under cut completePlaces (Here awaits epoch ⟨known, .error⟩ others marked))
      (do
        let run ← Generator.current
        let pendingChildren := run.tree.tree.getPendingChildren nodeId
        forEach pendingChildren fun child => do
          updateState .childLock now child .error none (some ("Parent failed: " ++ String.ofList message.str))
          output (.marked child)
        pure pendingChildren : Handling nodeId (List MessageId))
      (fun _ => Under cut completePlaces
        (Bound awaits last ⟨known, .error⟩ (marked ∨ epoch.HasPendingChild)))
      fun _ run => meets cut .childLock ∧ Left (known || awaits) .error run := by
  subst reaches
  refine Triple.bind Triple.current fun before => ?_
  dsimp only
  cases children : before.tree.tree.getPendingChildren nodeId with
  | nil =>
    refine Triple.pure ?_
    rintro h run ⟨rfl, here, aims⟩
    have childless := (TreeOf.getPendingChildren_eq_nil here.state).mp children
    have bound := here.bound
    rw [stateAfter_error] at bound
    refine ⟨bound.congr ?_, aims⟩
    constructor
    · exact .inl
    · rintro (holds | pending)
      · exact holds
      · by_contra unmarked
        exact childless ((here.same unmarked).hasPendingChild.mpr pending)
  | cons first rest =>
    have pending : ∀ (h : List Effect) (run : Run nodeId),
        before = run ∧ Under cut completePlaces (Here awaits epoch ⟨known, .error⟩ others marked) h run →
          marked ∨ epoch.HasPendingChild := by
      rintro h run ⟨rfl, here, -⟩
      by_contra neither
      have childless : ¬ before.tree.HasPendingChild := fun pending =>
        neither (.inr ((here.same fun holds => neither (.inl holds)).hasPendingChild.mp pending))
      rw [(TreeOf.getPendingChildren_eq_nil here.state).mpr childless] at children
      cases children
    refine Triple.given pending fun holds => Triple.bind ((markChildren_failing first rest _).weaken ?_
      (fun _ _ _ after => after) fun _ _ both => ⟨both.1, both.2.left⟩) fun _ =>
        Triple.pure fun h run both => ⟨both.1.1.bound both.2 holds, both.1.2⟩
    rintro h run ⟨rfl, here, aims⟩
    exact ⟨⟨here.captured, here.temp, here.state⟩, aims⟩

end Failing

/-- An error that is written to the node, and to its pending children. -/
theorem error_written (missed : ¬ Stopped cut errorPlaces) (message : Json) :
    Triple (Under cut (errorPlaces ++ completePlaces) (Here awaits epoch standing others marked))
      (processParsedEvent now (.error message) : Handling nodeId Unit)
      (fun _ => Under cut completePlaces (Bound awaits (epoch.meanwhiles others) { standing with state := .error }
        (marked ∨ (epoch.meanwhiles (others.take 2)).HasPendingChild)))
      fun _ run => meets cut .childLock ∧ Left (standing.captured || awaits) .error run := by
  have first : ¬ hits cut .apply := fun hit => missed ⟨_, by decide, hit⟩
  have second : ¬ hits cut .showError := fun hit => missed ⟨_, by decide, hit⟩
  have third : ¬ hits cut .errorLock := fun hit => missed ⟨_, by decide, hit⟩
  have noted : Triple (Under cut (errorPlaces ++ completePlaces) (Here awaits epoch standing others marked))
      (whenever (isTranscriptEvent (.error message)) do
        applyTranscript (.error message)
        modify fun run => { run with hadTranscriptEvents := true } : Handling nodeId Unit)
      (fun _ => Under cut (.showError :: .errorLock :: completePlaces) (Waited awaits epoch standing others marked 0))
      fun _ run => meets cut .childLock ∧ Left (standing.captured || awaits) .error run := by
    refine Triple.ite (fun _ => ?_) fun no => absurd rfl no
    refine Triple.bind (Triple.bind
      (call_missed (.showError :: .errorLock :: completePlaces) rfl Here.local first (by decide) (by decide)) fun _ =>
      Here.local.output fun _ => Effect.noConfusion) fun _ => Triple.modify fun h run both => ?_
    exact ⟨Waited.zero.mpr (Here.local.locals h run run.lastStatus true both.1), both.2⟩
  refine Triple.bind noted fun _ => Triple.bind Triple.current fun _ => Triple.before ?_ fun _ _ both => both.2
  have shown : Triple (Under cut (.showError :: .errorLock :: completePlaces) (Waited awaits epoch standing others marked 0))
      (updateUi .showError (some (plain "❌" "Error")) true : Handling nodeId Unit)
      (fun _ => Under cut (.errorLock :: completePlaces) (Waited awaits epoch standing others marked 1))
      fun _ run => meets cut .childLock ∧ Left (standing.captured || awaits) .error run :=
    Triple.bind (Here.local.output fun _ => Effect.noConfusion) fun _ =>
      waited_missed _ rfl second (by decide) (by decide)
  have failed : Triple (Under cut (.errorLock :: completePlaces) (Waited awaits epoch standing others marked 1))
      (updateState .errorLock now nodeId .error none (argument message) : Handling nodeId Unit)
      (fun _ => Under cut completePlaces (Here awaits (epoch.meanwhiles (others.take 2)) ⟨standing.captured, .error⟩
        (others.drop 2) marked))
      fun _ run => meets cut .childLock ∧ Left (standing.captured || awaits) .error run :=
    Triple.bind (waited_missed _ rfl third (by decide) (by decide)) fun _ => write_here
  refine Triple.bind shown fun _ => Triple.bind (Triple.bind failed fun _ =>
    markChildren_bound (TreeOf.meanwhiles_take_drop epoch others 2) message) fun children => ?_
  exact Triple.forEach fun child _ => Bound.steady.toLocal.output fun _ => Effect.noConfusion

/-- A `complete` event shows itself first, and goes on with the captured session. -/
theorem complete_shown {post : Unit → List Effect → Run nodeId → Prop} {fail shown : List Effect → Run nodeId → Prop}
    (loc : Local keeps) (status : String)
    (edited : Triple (Under cut completePlaces keeps) (pass .showComplete) (fun _ => shown) fail)
    (ends : ∀ before : Run nodeId, (∃ h run, keeps h run ∧ before.capturedSessionId = run.capturedSessionId) →
      Triple shown
        (whenever before.capturedSessionId.isTruthy do
          updateState .completeLock now nodeId .completed (argument before.capturedSessionId) none
          saveTree .completeSave : Handling nodeId Unit) post fail) :
    Triple (Under cut completePlaces keeps) (processParsedEvent now (.complete status) : Handling nodeId Unit) post fail := by
  have untranscribed : Triple (Under cut completePlaces keeps)
      (whenever (isTranscriptEvent (.complete status)) do
        applyTranscript (.complete status)
        modify fun run => { run with hadTranscriptEvents := true } : Handling nodeId Unit)
      (fun _ => Under cut completePlaces keeps) fail :=
    Triple.ite (fun no => absurd no Bool.false_ne_true) fun _ => Triple.pure fun _ _ under => under
  refine Triple.bind untranscribed fun _ => Triple.bind Triple.current fun _ => Triple.before ?_ fun _ _ both => both.2
  refine Triple.bind Triple.current fun before => ?_
  have found : ∀ (h : List Effect) (run : Run nodeId), before = run ∧ Under cut completePlaces keeps h run →
      ∃ h run, keeps h run ∧ before.capturedSessionId = run.capturedSessionId := by
    rintro h run ⟨rfl, holds, -⟩
    exact ⟨h, before, holds, rfl⟩
  refine Triple.given found fun found => Triple.before ?_ fun _ _ both => both.2
  refine Triple.bind (Triple.whenever (loc.output fun _ => Effect.noConfusion)) fun _ => ?_
  exact Triple.bind (Triple.bind (loc.output fun _ => Effect.noConfusion) fun _ => edited) fun _ => ends before found

theorem complete_uncaptured (uncaptured : standing.captured = false) (status : String) :
    Triple (Under cut completePlaces (Bound awaits epoch standing marked))
      (processParsedEvent now (.complete status) : Handling nodeId Unit)
      (fun _ => Under cut [] (Bound awaits epoch standing marked))
      fun _ run => cut ≠ none ∧ Left (standing.captured || awaits) standing.state run := by
  have edited : Triple (Under cut completePlaces (Bound awaits epoch standing marked)) (pass .showComplete)
      (fun _ h run => ¬ hits cut .showComplete ∧ Under cut [] (Bound awaits epoch standing marked) h run)
      fun _ run => cut ≠ none ∧ Left (standing.captured || awaits) standing.state run :=
    (Bound.steady.pass_stops [] (by decide) (by decide)).otherwise fun _ _ both => ⟨both.1, both.2.left⟩
  refine complete_shown Bound.steady.toLocal status edited ?_
  rintro before ⟨h, run, bound, same⟩
  refine Triple.ite (fun captured => ?_) fun _ => Triple.pure fun _ _ both => both.2
  rw [same, show run.capturedSessionId.isTruthy = standing.captured from bound.captured, uncaptured] at captured
  cases captured

theorem complete_stopped (steady : Steady keeps) (stopped : Stopped cut completePlaces)
    (captured : ∀ h run, keeps h run → run.capturedSessionId.isTruthy = true) (status : String) :
    Triple (Under cut completePlaces keeps) (processParsedEvent now (.complete status) : Handling nodeId Unit)
      (fun _ _ _ => False) fun h run => cut ≠ none ∧ keeps h run := by
  refine complete_shown steady.toLocal status (steady.pass_stops [.completeLock] (by decide) (by decide)) ?_
  rintro before ⟨h, run, holds, same⟩
  refine Triple.known fun first => Triple.ite (fun _ => ?_) fun no => absurd (same ▸ captured h run holds) no
  refine Triple.bind_raises <| Triple.bind_raises <|
    (steady.pass_stops [] (by decide) (by decide)).after fun _ h run both => ?_
  have second := both.1
  simp [Stopped, completePlaces, first, second] at stopped

theorem complete_written (captured : standing.captured = true) (missed : ¬ Stopped cut completePlaces) (status : String) :
    Triple (Under cut completePlaces (Bound awaits epoch standing marked))
      (processParsedEvent now (.complete status) : Handling nodeId Unit)
      (fun _ => Under cut [] (Bound awaits epoch { standing with state := .completed } marked))
      fun _ run => cut ≠ none ∧ Left (standing.captured || awaits) .completed run := by
  have first : ¬ hits cut .showComplete := fun hit => missed ⟨_, by decide, hit⟩
  have second : ¬ hits cut .completeLock := fun hit => missed ⟨_, by decide, hit⟩
  have waits (place : Place) (h : List Effect) (run : Run nodeId) (next : Option Cut)
      (bound : Bound awaits epoch standing marked h run) :
      Bound awaits epoch standing marked h { place.waited run with cut := next } :=
    Bound.steady.cut h _ next (Bound.steady.waited bound place)
  refine complete_shown Bound.steady.toLocal status
    (pass_missed first (by decide) (show ∀ other ∈ [Place.completeLock], _ by decide) (waits _)) ?_
  rintro before ⟨h, run, bound, same⟩
  refine Triple.ite (fun _ => ?_) fun no => ?_
  · have written : Triple (Under cut [.completeLock] (Bound awaits epoch standing marked))
        (updateState .completeLock now nodeId .completed (argument before.capturedSessionId) none : Handling nodeId Unit)
        (fun _ => Under cut [] (Bound awaits epoch { standing with state := .completed } marked))
        fun _ run => cut ≠ none ∧ Left (standing.captured || awaits) .completed run := by
      refine Triple.bind (pass_missed second (by decide) (by simp) (waits _)) fun _ => write_under fun h run bound => ?_
      refine ⟨bound.captured, bound.temp, rfl, ?_, bound.marks, fun unmarked => ?_⟩
      · rw [Run.settle, state_meanwhiles, TreeOf.state_updateState_self, stateAfter_completed]
      · exact ((TreeOf.updateState_sameOthers ..).meanwhiles run.others).trans (bound.same unmarked)
    exact Triple.bind written fun _ => cutoff_of_meets (Bound.steady.saveTree List.not_mem_nil)
  · rw [same, show run.capturedSessionId.isTruthy = standing.captured from bound.captured] at no
    exact absurd captured no

end Writes

end ClaudeProxy.Handler
