import ClaudeProxy.Handler.FinalState

namespace ClaudeProxy.Handler

open Kit Trees Providers Generator

variable {nodeId : MessageId}

/-- The task is cancelled before the exit event has been handled, or the session raises. -/
def Script.Interrupted (script : Script nodeId) : Prop :=
  script.entry = true ∨ match script.opening with
    | .interrupted .. | .limited .. | .opened _ _ _ (.interrupted ..) => True
    | .opened _ _ _ (.exited ..) => False

def Script.ExitsWith (script : Script nodeId) (code : Int) : Prop :=
  script.entry = false ∧ match script.opening with
    | .opened _ _ _ (.exited exitCode ..) => exitCode = code
    | _ => False

section Conditions

variable [PyText]

def Script.Errored (script : Script nodeId) : Prop :=
  match script.opening with
  | .opened _ _ arrivals _ => Handler.Errored arrivals
  | _ => False

/-- What the handler owes to the node: its state when the run is over. -/
structure Settled (script : Script nodeId) (outcome : Outcome Effect (Run nodeId) Interruption Unit) : Prop where
  failed : script.Interrupted ∨ (∃ code, code ≠ 0 ∧ script.ExitsWith code) ∨ (∃ why, outcome.result = .error why) →
    outcome.state.tree.state = .error
  completed : script.ExitsWith 0 → ¬ script.Errored → outcome.result = .ok () → outcome.state.tree.state = .completed
  left : outcome.state.tree.state ≠ .pending ∧ outcome.state.tree.state ≠ .inProgress
  marked : HasMark outcome.yielded → outcome.state.tree.state = .error

def clausePlaces : List Place := [.showError, .errorLock]

/-- The clause is cancelled before it has written to the node. -/
def Early (cut : Option Cut) : Bool := cut.any fun c => c.stops clausePlaces

def awaitsSession (isNew : Bool) (sessionId : Str) : Bool := isNew && !sessionId.isEmpty

/-- The node as the session is opened. -/
def Standing.opened (isNew : Bool) (sessionId : Str) : Standing := ⟨!isNew && !sessionId.isEmpty, .inProgress⟩

/-- What the others write while the session is removed, if there is one. -/
def removal (sessionId : Str) (left : Option (TreeOf nodeId)) : Others nodeId := if sessionId ≠ [] then [left] else []

/-- The process exits, with or without a session that has been captured. -/
def HoldsAtExit (script : Script nodeId) (start : TreeOf nodeId) (isNew : Bool) (sessionId : Str)
    (arrivals : List (Arrival nodeId)) (code : Int) (others : Others nodeId) : Prop :=
  let standing := (Standing.opened isNew sessionId).afterAll (awaitsSession isNew sessionId) arrivals
  Captures isNew sessionId arrivals ∧ code = 0 ∧ ¬ FailsPending (start.meanwhiles [script.found]) arrivals ∧
      script.cleanup = false ∨
    ¬ Captures isNew sessionId arrivals ∧ (code ≠ 0 ∨ Errored arrivals ∨
      script.cleanup = true ∧ sessionId ≠ [] ∧ stateAfter standing.state (others ++ [script.left]) = .error)

/-- In an `except` clause that is cancelled early, it takes another task to fail the node, or an error event with no write
    after it. -/
def HoldsWhen (script : Script nodeId) (start : TreeOf nodeId) : Prop :=
  if script.entry then stateAfter start.state [script.found] = .error
  else match script.opening with
    | .interrupted _ others => Early script.handler.cut → failedBy (others ++ script.handler.others)
    | .limited _ cut others => Early cut → Early script.handler.cut → failedBy (others ++ script.handler.others)
    | .opened isNew sessionId arrivals (.exited code _ others) =>
      HoldsAtExit script start isNew sessionId arrivals code others
    | .opened isNew sessionId arrivals (.interrupted event cut others) =>
      let awaits := awaitsSession isNew sessionId
      let standing := (Standing.opened isNew sessionId).afterAll awaits arrivals
      Early script.handler.cut → stateAfter (standing.reached awaits cut others event)
        (script.handler.others ++ removal sessionId script.left) = .error

end Conditions

section Clauses

variable {now : Timestamp} {stopped : Bool} {why : Interruption} {cut : Option Cut} {named : Bool} {state : MessageState}
  {clause : Clause nodeId}

/-- What is known of a run that waits for nobody. -/
structure Ends (named : Bool) (state : MessageState) (run : Run nodeId) : Prop where
  named : (run.capturedSessionId.isTruthy || run.tempSessionId.isTruthy) = named
  state : run.tree.state = state

theorem Ends.failed_steady (named : Bool) : Steady fun (_ : List Effect) (run : Run nodeId) => Ends named .error run where
  cut _ _ _ ends := ⟨ends.named, ends.state⟩
  effect _ _ _ _ ends := ends
  locals _ _ _ _ ends := ⟨ends.named, ends.state⟩
  wait _ run ends := by
    refine ⟨ends.named, ?_⟩
    rw [Run.wait, state_meanwhiles, ends.state, stateAfter_error]
  settle _ run ends := by
    refine ⟨ends.named, ?_⟩
    rw [Run.settle, state_meanwhiles, ends.state, stateAfter_error]

theorem early_iff (cut : Option Cut) : Early cut = true ↔ Stopped cut clausePlaces := by
  cases cut with
  | none => simp [Early, Stopped, hits]
  | some c => exact (stopped_some c clausePlaces).symm

theorem early_of_hits {place : Place} (mem : place ∈ clausePlaces) (hit : hits cut place) : Early cut = true :=
  (early_iff cut).mpr ⟨place, mem, hit⟩

/-- Where a clause that is interrupted leaves the node. -/
def Broke (cut : Option Cut) (named : Bool) (state : MessageState) (run : Run nodeId) : Prop :=
  Early cut = true ∧ Left named state run ∨ Early cut = false ∧ Ends named .error run

theorem editError_spec (status : Status) :
    Triple (Under cut clausePlaces fun _ run => Left named state run)
      (updateUi .showError (some status) true : Handling nodeId Unit)
      (fun _ h run => ¬ hits cut .showError ∧ Under cut [.errorLock] (fun _ run => Left named state run) h run)
      fun _ run => Broke cut named state run :=
  Triple.bind ((Left.steady named state).toLocal.output fun _ => Effect.noConfusion) fun _ =>
    ((Left.steady named state).pass_hits [.errorLock] (by decide) (by decide)).otherwise fun _ _ both =>
      .inl ⟨early_of_hits (by decide) both.1, both.2⟩

theorem writeError_spec (message : Option String) :
    Triple (fun h run => ¬ hits cut .showError ∧ Under cut [.errorLock] (fun _ run => Left named state run) h run)
      (updateState .errorLock now nodeId .error none message : Handling nodeId Unit)
      (fun _ h run => Early cut = false ∧ Under cut [] (fun _ run => Ends named .error run) h run)
      fun _ run => Broke cut named state run := by
  refine Triple.known fun first => Triple.bind (((Left.steady named state).pass_hits [] (by decide) (by decide)).otherwise
    fun _ _ both => .inl ⟨early_of_hits (by decide) both.1, both.2⟩) fun _ => Triple.known fun second => ?_
  refine Triple.modify fun h run under => ⟨?_, ⟨under.1.named, TreeOf.state_updateState_self ..⟩, under.2⟩
  rw [← Bool.not_eq_true, early_iff]
  simp [Stopped, clausePlaces, first, second]

theorem aims_of_armed {places : List Place} {run : Run nodeId} (armed : run.cut = cut) : Aims cut places run := by
  cases cut with
  | none => exact armed
  | some c => exact ⟨c.skip, armed, fun _ => rfl⟩

theorem enterClause_spec (clause : Clause nodeId) (places : List Place) {fail : List Effect → Run nodeId → Prop} :
    Triple (fun _ run => Left named state run) (enterClause clause)
      (fun _ => Under clause.cut places fun _ run => Left named (stateAfter state clause.others) run) fail := by
  refine Triple.modify fun h run left => ⟨⟨left.named, ?_⟩, aims_of_armed rfl⟩
  rw [stateAfter_append, left.state]

/-- What becomes of the node in an `except` clause. -/
def clauseState (clause : Clause nodeId) (state : MessageState) : MessageState :=
  if Early clause.cut then stateAfter state clause.others else .error

theorem clauseState_failed (clause : Clause nodeId) : clauseState clause .error = .error := by
  unfold clauseState
  split_ifs
  · exact stateAfter_error clause.others
  · rfl

/-- The node is failed at the end of a run that the clause has handled, unless the clause is cancelled early and nobody
    else has failed it. -/
theorem clauseState_left (clause : Clause nodeId) (reached : MessageState) (named : Bool) (left : Option (TreeOf nodeId)) :
    (if named then stateAfter (clauseState clause reached) [left] else clauseState clause reached) = .error ↔
      (Early clause.cut = true → stateAfter reached (clause.others ++ if named then [left] else []) = .error) := by
  unfold clauseState
  cases Early clause.cut with
  | false =>
    refine iff_of_true ?_ fun no => absurd no Bool.false_ne_true
    cases named with
    | false => rfl
    | true => exact stateAfter_error [left]
  | true =>
    rw [stateAfter_append, if_pos rfl, imp_iff_right rfl]
    cases named with
    | false => exact iff_of_eq (congrArg (· = _) (stateAfter_nil _).symm)
    | true => rfl

variable [PyText]

theorem propagate_spec (message : Json) (childStatusText : String) :
    Triple (fun h run => ¬ hits cut .showError ∧ Under cut [.errorLock] (fun _ run => Left named state run) h run)
      (propagateErrorToChildren now message childStatusText : Handling nodeId Unit)
      (fun _ _ run => Early cut = false ∧ Ends named .error run) fun _ run => Broke cut named state run := by
  have fails (run : Run nodeId) (key : MessageId) (message : Option String) (ends : Ends named .error run) :
      Ends named .error { run with tree := run.tree.updateState key .error none message now } :=
    ⟨ends.named, TreeOf.state_updateState_error ends.state ..⟩
  have marked : Triple
      (fun h run => ¬ hits cut .showError ∧ Under cut [.errorLock] (fun _ run => Left named state run) h run)
      (markNodeError now message : Handling nodeId (List MessageId))
      (fun _ _ run => Early cut = false ∧ Ends named .error run) fun _ run => Broke cut named state run := by
    refine Triple.bind (writeError_spec _) fun _ => Triple.known fun late => Triple.bind Triple.current fun before => ?_
    refine Triple.before ?_ fun _ _ both => both.2
    refine Triple.bind (Triple.forEach fun child _ => ?_) fun _ => Triple.pure fun _ _ under => ⟨late, under.1⟩
    exact ((Ends.failed_steady named).markChild fails List.not_mem_nil child _).weaken (fun _ _ before => before)
      (fun _ _ _ both => both.1) fun _ _ both => .inr ⟨late, both.2⟩
  exact Triple.bind marked fun children => Triple.forEach fun child _ => Triple.emit fun _ _ both => both

/-- An `except` clause writes `ERROR`, or is cancelled before it. -/
theorem exceptClause_spec (clause : Clause nodeId) (why : Interruption) :
    Triple (fun _ run => Left named state run) (exceptClause now stopped clause why)
      (fun _ _ run => Early clause.cut = false ∧ Ends named .error run)
      fun _ run => Broke clause.cut named (stateAfter state clause.others) run := by
  have noted (effect : Effect) (other : ∀ child, effect ≠ .marked child) :
      Triple (Under clause.cut clausePlaces fun _ run => Left named (stateAfter state clause.others) run)
        (output effect : Handling nodeId Unit)
        (fun _ => Under clause.cut clausePlaces fun _ run => Left named (stateAfter state clause.others) run)
        fun _ run => Broke clause.cut named (stateAfter state clause.others) run :=
    (Left.steady named _).toLocal.output other
  cases why with
  | cancelled =>
    refine Triple.bind (enterClause_spec clause clausePlaces) fun _ => ?_
    refine Triple.bind (Triple.whenever (noted _ fun _ => Effect.noConfusion)) fun _ => ?_
    exact Triple.bind (editError_spec _) fun _ => (writeError_spec _).after fun _ _ _ both => ⟨both.1, both.2.1⟩
  | failed exception =>
    refine Triple.bind (enterClause_spec clause clausePlaces) fun _ => ?_
    refine Triple.bind (noted _ fun _ => Effect.noConfusion) fun _ => ?_
    exact Triple.bind (editError_spec _) fun _ => propagate_spec _ _

/-- What raises in a clause is awaited, so the others have written by then. -/
theorem exceptClause_settled (clause : Clause nodeId) (why : Interruption) :
    Triple (fun _ _ => True) (exceptClause now stopped clause why : Handling nodeId Unit) (fun _ _ _ => True)
      fun _ run => run.others = [] := by
  have written (place : Place) (awaited : place.isCall = false) (key : MessageId) (message : Option String) :
      Triple (fun _ _ => True) (updateState place now key .error none message : Handling nodeId Unit) (fun _ _ _ => True)
        fun _ run => run.others = [] :=
    Triple.bind (pass_settled awaited) fun _ => Triple.modify fun _ _ _ => trivial
  have noted (effect : Effect) : Triple (fun _ _ => True) (output effect : Handling nodeId Unit) (fun _ _ _ => True)
      fun _ run => run.others = [] := Triple.emit fun _ _ _ => trivial
  have shown (status : Status) : Triple (fun _ _ => True) (updateUi .showError (some status) true : Handling nodeId Unit)
      (fun _ _ _ => True) fun _ run => run.others = [] := Triple.bind (noted _) fun _ => pass_settled rfl
  have marked (message : Json) : Triple (fun _ _ => True) (markNodeError now message : Handling nodeId (List MessageId))
      (fun _ _ _ => True) fun _ run => run.others = [] := by
    refine Triple.bind (written .errorLock rfl nodeId _) fun _ => Triple.bind Triple.current fun _ => ?_
    refine Triple.before ?_ fun _ _ _ => trivial
    refine Triple.bind (Triple.forEach fun child _ => ?_) fun _ => Triple.pure fun _ _ _ => trivial
    exact Triple.bind (written .childLock rfl child _) fun _ => noted _
  cases why with
  | cancelled =>
    refine Triple.bind (Triple.modify fun _ _ _ => trivial) fun _ => Triple.bind (Triple.whenever (noted _)) fun _ => ?_
    exact Triple.bind (shown _) fun _ => written .errorLock rfl nodeId _
  | failed exception =>
    refine Triple.bind (Triple.modify fun _ _ _ => trivial) fun _ => Triple.bind (noted _) fun _ => ?_
    exact Triple.bind (shown _) fun _ => Triple.bind (marked _) fun _ => Triple.forEach fun child _ => noted _

theorem exceptClause_ends (clause : Clause nodeId) (why : Interruption) (run : Run nodeId) (left : Left named state run) :
    Ends named (clauseState clause state) (exceptClause now stopped clause why run).state := by
  have both : Triple (fun _ run => Left named state run ∧ True) (exceptClause now stopped clause why)
      (fun _ _ run => Ends named (clauseState clause state) run) fun _ run => Ends named (clauseState clause state) run := by
    refine ((exceptClause_spec clause why).both (exceptClause_settled clause why)).weaken (fun _ _ both => both)
      (fun _ _ run after => ?_) fun _ run after => ?_
    · rw [clauseState, after.1.1]
      exact after.1.2
    · rcases after.1 with ⟨early, left⟩ | ⟨late, ends⟩
      · have here := left.state
        rw [after.2, stateAfter_nil] at here
        rw [clauseState, early]
        exact ⟨left.named, here⟩
      · rw [clauseState, late]
        exact ends
  exact both.always [] run ⟨left, trivial⟩

omit [PyText] in
theorem finallyClause_spec (left : Option (TreeOf nodeId)) (cancelled : Bool) {run : Run nodeId}
    (ends : Ends named state run) :
    let last := finallyClause left cancelled run
    last.yielded = [] ∧ last.state.tree.state = (if named then stateAfter state [left] else state) ∧
      last.result = if cancelled ∧ named then .error .cancelled else .ok () := by
  obtain ⟨rfl, rfl⟩ := ends
  have waited := state_meanwhiles run.tree [left]
  by_cases open' : run.capturedSessionId.isTruthy ∨ run.tempSessionId.isTruthy
  · have either : (run.capturedSessionId.isTruthy || run.tempSessionId.isTruthy) = true := Bool.or_eq_true_iff.mpr open'
    cases cancelled <;>
      simp [finallyClause, bind, Generator.current, whenever, open', either, setOthers, setCut, removalCut,
        Generator.modify, pass, Place.isCall, Cut.hits, Run.wait, Run.settle, waited]
  · have neither : (run.capturedSessionId.isTruthy || run.tempSessionId.isTruthy) = false := by
      rw [← Bool.not_eq_true, Bool.or_eq_true_iff]
      exact open'
    simp [finallyClause, bind, Generator.current, whenever, open', neither, pure]

end Clauses

section Bodies

variable [PyText] {now : Timestamp} {stopped : Bool} {start : TreeOf nodeId} {isNew : Bool} {sessionId : Str}
  {arrivals : List (Arrival nodeId)}

/-- The task has made its first write. -/
def entered (now : Timestamp) (start : TreeOf nodeId) : Run nodeId :=
  Run.start (start.updateState nodeId .inProgress none none now)

def Entered (now : Timestamp) (start : TreeOf nodeId) (history : List Effect) (run : Run nodeId) : Prop :=
  history = [] ∧ run = entered now start

omit [PyText] in
theorem Entered.left {history : List Effect} {run : Run nodeId} (new : Entered now start history run) :
    Left false .inProgress run := by
  obtain ⟨-, rfl⟩ := new
  refine ⟨rfl, ?_⟩
  rw [entered, Run.start, stateAfter_nil, TreeOf.state_updateState_self]

omit [PyText] in
theorem opened_spec {fail : List Effect → Run nodeId → Prop} :
    Triple (Entered now start)
      (modify fun run =>
        if isNew then { run with tempSessionId := .string sessionId }
        else { run with capturedSessionId := .string sessionId } : Handling nodeId Unit)
      (fun _ => Between (awaitsSession isNew sessionId) start (Standing.opened isNew sessionId) False) fail := by
  refine Triple.modify ?_
  rintro _ _ ⟨rfl, rfl⟩
  have running : (entered now start).tree.state = .inProgress := TreeOf.state_updateState_self ..
  have others : (entered now start).tree.SameOthers start := TreeOf.updateState_sameOthers ..
  cases isNew with
  | false => exact ⟨⟨by simp [Standing.opened, Json.isTruthy], by simp [entered, Run.start, awaitsSession, Json.isTruthy],
      rfl, running, by simp [HasMark], fun _ => others⟩, rfl⟩
  | true => exact ⟨⟨by simp [entered, Run.start, Standing.opened, Json.isTruthy],
      by simp [awaitsSession, Standing.opened, Json.isTruthy], rfl, running, by simp [HasMark], fun _ => others⟩, rfl⟩

theorem tryBody_exited (code : Int) (stderr : Option Str) (others : Others nodeId) :
    let awaits := awaitsSession isNew sessionId
    let standing := (Standing.opened isNew sessionId).afterAll awaits arrivals
    Triple (Entered now start) (tryBody now (.opened isNew sessionId arrivals (.exited code stderr others)))
      (fun _ h run => ∃ last marked, Between awaits last (standing.after awaits (.event (exitEvent code stderr) others))
        marked h run ∧ (code = 0 → (marked ↔ FailsPending start arrivals))) fun _ _ => False := by
  intro awaits standing
  refine Triple.bind opened_spec fun _ => Triple.bind (arrivals_spec arrivals) fun _ => Triple.exists fun last => ?_
  refine (event_spec (exitEvent code stderr) others).after fun _ h run both => ⟨_, _, both, fun zero => ?_⟩
  have clean : ¬ isErrorEvent (exitEvent code stderr) = true := fun error =>
    (isErrorEvent_exitEvent code stderr).mp error zero
  rw [false_or]
  exact or_iff_left fun error => clean error.1

/-- The event in which the interruption comes leaves the node as it has been reached. -/
theorem handleEnding_interrupted {awaits : Bool} {epoch : TreeOf nodeId} {standing : Standing} {marked : Prop}
    (event : Option Json) (cut : Cut) (others : Others nodeId) :
    Triple (Between awaits epoch standing marked) (handleEnding now (.interrupted event cut others) : Handling nodeId Unit)
      (fun _ _ _ => False) fun _ run => Left (standing.captured || awaits) (standing.reached awaits cut others event) run := by
  have settled (reached : MessageState) : Triple (fun _ run => Left (standing.captured || awaits) reached run)
      (do settle; raise cut.why : Handling nodeId Unit) (fun _ _ _ => False)
      fun _ run => Left (standing.captured || awaits) reached run :=
    Triple.bind (Triple.modify fun h run left => (Left.steady _ _).settle h run left) fun _ =>
      Triple.raise fun _ _ left => left
  let broken : List Effect → Run nodeId → Prop := fun _ run =>
    Left (standing.captured || awaits) (standing.reached awaits cut others event) run
  have known : Triple (Between awaits epoch standing marked) (setOthers others : Handling nodeId Unit)
      (fun _ => Here awaits epoch standing others marked) broken :=
    Triple.modify fun h run both => ⟨both.1.captured, both.1.temp, rfl, both.1.state, both.1.marks, both.1.same⟩
  have armed : Triple (Here awaits epoch standing others marked) (setCut (some cut) : Handling nodeId Unit)
      (fun _ => Under (some cut) writePlaces (Here awaits epoch standing others marked)) broken :=
    Triple.modify fun h run here => ⟨Here.local.cut h run _ here, aims_of_armed rfl⟩
  refine Triple.bind known fun _ => Triple.bind armed fun _ => ?_
  have handled : Triple (Under (some cut) writePlaces (Here awaits epoch standing others marked))
      (handleLast now event : Handling nodeId Unit) (fun _ => broken) broken := by
    cases event with
    | none => exact Triple.pure fun _ _ under => under.1.left
    | some event =>
      exact (handleEvent_spec event).weaken (fun _ _ before => before) (fun _ _ _ after => after.broken cut rfl)
        fun _ _ both => both.2 cut rfl
  exact Triple.bind handled fun _ => settled _

theorem tryBody_interrupted (event : Option Json) (cut : Cut) (others : Others nodeId) :
    let awaits := awaitsSession isNew sessionId
    let standing := (Standing.opened isNew sessionId).afterAll awaits arrivals
    Triple (Entered now start) (tryBody now (.opened isNew sessionId arrivals (.interrupted event cut others)))
      (fun _ _ _ => False) fun _ run => Left (standing.captured || awaits) (standing.reached awaits cut others event) run := by
  intro awaits standing
  refine Triple.bind opened_spec fun _ => Triple.bind ((arrivals_spec arrivals).otherwise fun _ _ no => no.elim) fun _ =>
    Triple.exists fun last => ?_
  exact handleEnding_interrupted event cut others

omit [PyText] in
theorem others_left {named : Bool} {state : MessageState} {run : Run nodeId} (left : Left named state run)
    (waiting : run.others = []) (others : Others nodeId) :
    Left named (stateAfter state others) { run with others := others } := by
  refine ⟨left.named, ?_⟩
  rw [← left.state, waiting, stateAfter_nil]

theorem tryBody_unopened (why : Interruption) (others : Others nodeId) :
    Triple (Entered now start) (tryBody now (.interrupted why others)) (fun _ _ _ => False)
      fun _ run => Left false (stateAfter .inProgress others) run := by
  refine Triple.bind (Triple.modify fun h run new => ?_) fun _ =>
    Triple.bind (Triple.modify fun h run left => (Left.steady _ _).settle h run left) fun _ =>
      Triple.raise fun _ _ left => left
  have idle : run.others = [] := new.2 ▸ rfl
  exact others_left new.left idle others

theorem tryBody_limited (exception : PyException) (cut : Option Cut) (others : Others nodeId) :
    Triple (Entered now start) (tryBody now (.limited exception cut others))
      (fun _ _ run => Early cut = false ∧ Ends false .error run)
      fun _ run => Broke cut false (stateAfter .inProgress others) run := by
  let reached := stateAfter .inProgress others
  have opened : Triple (Entered now start) (setOthers others : Handling nodeId Unit)
      (fun _ => Under none [] fun _ run => Left false reached run) fun _ run => Broke cut false reached run := by
    refine Triple.modify fun h run new => ⟨others_left new.left (new.2 ▸ rfl) others, ?_⟩
    exact new.2 ▸ rfl
  have awaited : Triple (Under none [] fun _ (run : Run nodeId) => Left false reached run) (pass .next)
      (fun _ => Under none [] fun _ run => Left false reached run) fun _ run => Broke cut false reached run :=
    ((Left.steady false reached).pass List.not_mem_nil).otherwise fun _ _ both => absurd rfl (meets_ne_none both.1)
  have armed : Triple (Under none [] fun _ (run : Run nodeId) => Left false reached run) (setCut cut)
      (fun _ => Under cut clausePlaces fun _ run => Left false reached run) fun _ run => Broke cut false reached run :=
    Triple.modify fun h run under => ⟨(Left.steady false reached).cut h run cut under.1, aims_of_armed rfl⟩
  refine Triple.bind opened fun _ => Triple.bind awaited fun _ => Triple.bind armed fun _ => ?_
  refine Triple.bind ((Left.steady false reached).toLocal.output fun _ => Effect.noConfusion) fun _ => ?_
  exact Triple.bind (editError_spec _) fun _ => (writeError_spec _).after fun _ _ _ both => ⟨both.1, both.2.1⟩

end Bodies

section Whole

variable [PyText] {now : Timestamp} {stopped : Bool} {script : Script nodeId} {start : TreeOf nodeId}

theorem processNodeImpl_entry (now : Timestamp) (stopped : Bool) (start : TreeOf nodeId) (cancelled : script.entry = true) :
    (processNodeImpl now stopped script (Run.start start)).state.tree = start.meanwhiles [script.found] := by
  unfold processNodeImpl
  rw [cancelled]
  rfl

theorem processNodeImpl_entered (entered' : script.entry = false) :
    processNodeImpl now stopped script (Run.start start) =
      ensure (attempt (tryBody now script.opening) (exceptClause now stopped script.handler))
        (finallyClause script.left script.cleanup) (entered now (start.meanwhiles [script.found])) := by
  unfold processNodeImpl
  rw [entered']
  rfl

/-- A `try` statement that leaves the node in `state` leaves it to what is written while the session is removed. -/
theorem processNodeImpl_parts {named : Bool} {state : MessageState} (entered' : script.entry = false)
    (ends : Ends named state (attempt (tryBody now script.opening) (exceptClause now stopped script.handler)
      (entered now (start.meanwhiles [script.found]))).state) :
    let outcome := processNodeImpl now stopped script (Run.start start)
    let first := attempt (tryBody now script.opening) (exceptClause now stopped script.handler)
      (entered now (start.meanwhiles [script.found]))
    outcome.yielded = first.yielded ∧
      outcome.state.tree.state = (if named then stateAfter state [script.left] else state) ∧
      outcome.result = if script.cleanup ∧ named then .error .cancelled else first.result := by
  dsimp only
  rw [processNodeImpl_entered entered']
  obtain ⟨nothing, left, result⟩ := finallyClause_spec script.left script.cleanup ends
  refine ⟨?_, left, ?_⟩
  · rw [ensure, nothing, List.append_nil]
  · simp only [ensure, result]
    split_ifs <;> rfl

theorem attempt_ends {body : Handling nodeId Unit} {clause : Clause nodeId} {named : Bool} {state : MessageState}
    {caught : Run nodeId → Prop} (tried : Triple (Entered now start) body (fun _ _ run => Ends named state run)
      fun _ run => caught run)
    (handled : ∀ why run, caught run → Ends named state (exceptClause now stopped clause why run).state) :
    Ends named state (attempt body (exceptClause now stopped clause) (entered now start)).state := by
  have here := tried [] (entered now start) ⟨rfl, rfl⟩
  unfold attempt
  revert here
  rcases body (entered now start) with ⟨yielded, after, why | ⟨⟩⟩
  · exact fun before => handled why after before
  · exact id

theorem settled_iff_failed {outcome : Outcome Effect (Run nodeId) Interruption Unit} (interrupted : script.Interrupted)
    (unfinished : ¬ script.ExitsWith 0) : Settled script outcome ↔ outcome.state.tree.state = .error := by
  constructor
  · exact fun settled => settled.failed (.inl interrupted)
  · intro failed
    exact ⟨fun _ => failed, fun exits => absurd exits unfinished, by rw [failed]; exact ⟨nofun, nofun⟩, fun _ => failed⟩

/-- The `try` body has raised, with the node as it was `reached`. -/
theorem settled_raised {named : Bool} {reached : MessageState} (entered' : script.entry = false)
    (interrupted : script.Interrupted) (unfinished : ¬ script.ExitsWith 0)
    (raised : Triple (Entered now (start.meanwhiles [script.found])) (tryBody now script.opening) (fun _ _ _ => False)
      fun _ run => Left named reached run) :
    Settled script (processNodeImpl now stopped script (Run.start start)) ↔
      (Early script.handler.cut = true →
        stateAfter reached (script.handler.others ++ if named then [script.left] else []) = .error) := by
  have ends : Ends named (clauseState script.handler reached) (attempt (tryBody now script.opening)
      (exceptClause now stopped script.handler) (entered now (start.meanwhiles [script.found]))).state :=
    attempt_ends (raised.after fun _ _ _ no => no.elim) fun why run left => exceptClause_ends script.handler why run left
  obtain ⟨-, state, -⟩ := processNodeImpl_parts entered' ends
  rw [settled_iff_failed interrupted unfinished, state, clauseState_left]

theorem settled_limited {exception : PyException} {cut : Option Cut} {others : Others nodeId}
    (entered' : script.entry = false) (opening : script.opening = .limited exception cut others) :
    Settled script (processNodeImpl now stopped script (Run.start start)) ↔
      (Early cut = true → Early script.handler.cut = true → failedBy (others ++ script.handler.others) = true) := by
  let reached := if Early cut then clauseState script.handler (stateAfter .inProgress others) else .error
  have ends : Ends false reached (attempt (tryBody now script.opening) (exceptClause now stopped script.handler)
      (entered now (start.meanwhiles [script.found]))).state := by
    rw [opening]
    refine attempt_ends ((tryBody_limited exception cut others).after fun _ _ run both => ?_) fun why run broke => ?_
    · rw [show reached = .error from if_neg (Bool.eq_false_iff.mp both.1)]
      exact both.2
    · rcases broke with ⟨early, left⟩ | ⟨late, failed⟩
      · rw [show reached = _ from if_pos early]
        exact exceptClause_ends script.handler why run left
      · rw [show reached = .error from if_neg (Bool.eq_false_iff.mp late), ← clauseState_failed script.handler]
        refine exceptClause_ends script.handler why run ⟨failed.named, ?_⟩
        rw [failed.state, stateAfter_error]
  obtain ⟨-, state, -⟩ := processNodeImpl_parts entered' ends
  rw [settled_iff_failed (by simp [Script.Interrupted, opening]) (by simp [Script.ExitsWith, opening]), state,
    if_neg Bool.false_ne_true]
  cases early : Early cut with
  | false => exact iff_of_true (if_neg (by simp [early])) fun no => absurd no Bool.false_ne_true
  | true =>
    have left := clauseState_left script.handler (stateAfter .inProgress others) false (none : Option (TreeOf nodeId))
    rw [if_neg Bool.false_ne_true, if_neg Bool.false_ne_true, List.append_nil, ← stateAfter_append,
      stateAfter_inProgress] at left
    rw [show reached = _ from if_pos early, left, imp_iff_right rfl]

section Exited

variable {isNew : Bool} {sessionId : Str} {arrivals : List (Arrival nodeId)} {code : Int} {stderr : Option Str}
  {others : Others nodeId}

omit [PyText] in
theorem exitsWith_iff (entered' : script.entry = false)
    (opening : script.opening = .opened isNew sessionId arrivals (.exited code stderr others)) (other : Int) :
    script.ExitsWith other ↔ other = code := by
  unfold Script.ExitsWith
  rw [opening]
  exact ⟨fun exits => exits.2.symm, fun same => ⟨entered', same.symm⟩⟩

omit [PyText] in
theorem not_interrupted (entered' : script.entry = false)
    (opening : script.opening = .opened isNew sessionId arrivals (.exited code stderr others)) : ¬ script.Interrupted := by
  unfold Script.Interrupted
  rw [entered', opening]
  exact fun either => either.elim Bool.false_ne_true id

theorem settled_of_completed {outcome : Outcome Effect (Run nodeId) Interruption Unit}
    (completed : outcome.state.tree.state = .completed) (finished : ¬ script.Interrupted)
    (zero : ∀ code, script.ExitsWith code → code = 0) (returned : outcome.result = .ok ())
    (unmarked : ¬ HasMark outcome.yielded) : Settled script outcome := by
  refine ⟨?_, fun _ _ _ => completed, by rw [completed]; exact ⟨nofun, nofun⟩, fun marked => absurd marked unmarked⟩
  rintro (interrupted | ⟨code, nonzero, exits⟩ | ⟨why, raised⟩)
  · exact absurd interrupted finished
  · exact absurd (zero code exits) nonzero
  · rw [returned] at raised
    cases raised

theorem Settled.unfailed {outcome : Outcome Effect (Run nodeId) Interruption Unit} (settled : Settled script outcome)
    (completed : outcome.state.tree.state = .completed) : ¬ (∃ code, code ≠ 0 ∧ script.ExitsWith code) ∧
      (∀ why, outcome.result ≠ .error why) ∧ ¬ HasMark outcome.yielded := by
  refine ⟨fun exits => ?_, fun why raised => ?_, fun marked => ?_⟩
  · have failed := settled.failed (.inr (.inl exits))
    rw [completed] at failed
    cases failed
  · have failed := settled.failed (.inr (.inr ⟨why, raised⟩))
    rw [completed] at failed
    cases failed
  · have failed := settled.marked marked
    rw [completed] at failed
    cases failed

theorem captured_iff : ((Standing.opened isNew sessionId).afterAll (awaitsSession isNew sessionId) arrivals).captured = true ↔
    Captures isNew sessionId arrivals := by
  rw [Standing.captured_afterAll]
  unfold Standing.opened awaitsSession Captures
  cases isNew <;> simp

theorem named_iff : ((Standing.opened isNew sessionId).afterAll (awaitsSession isNew sessionId) arrivals).captured = true ∨
    awaitsSession isNew sessionId = true ↔ sessionId ≠ [] := by
  rw [captured_iff]
  unfold awaitsSession Captures
  cases isNew with
  | false => simp
  | true =>
    simp only [Bool.true_and, Bool.not_eq_true', List.isEmpty_eq_false_iff]
    exact ⟨fun either => either.elim And.left id, .inr⟩

theorem named_removal (left : Option (TreeOf nodeId)) :
    (if (((Standing.opened isNew sessionId).afterAll (awaitsSession isNew sessionId) arrivals).captured ||
      awaitsSession isNew sessionId) = true then [left] else []) = removal sessionId left := by
  unfold removal
  simp only [Bool.or_eq_true, named_iff]

/-- How the `try` body has left the node when the process exits. -/
structure Exited (script : Script nodeId) (start : TreeOf nodeId) (isNew : Bool) (sessionId : Str)
    (arrivals : List (Arrival nodeId)) (code : Int) (others : Others nodeId)
    (outcome : Outcome Effect (Run nodeId) Interruption Unit) : Prop where
  marks : code = 0 → (HasMark outcome.yielded ↔ FailsPending (start.meanwhiles [script.found]) arrivals)
  result : outcome.result = if script.cleanup ∧ sessionId ≠ [] then .error .cancelled else .ok ()
  completed : Captures isNew sessionId arrivals → outcome.state.tree.state = .completed
  failed : ¬ Captures isNew sessionId arrivals → code ≠ 0 → outcome.state.tree.state = .error
  left : ¬ Captures isNew sessionId arrivals → code = 0 → outcome.state.tree.state =
    stateAfter ((Standing.opened isNew sessionId).afterAll (awaitsSession isNew sessionId) arrivals).state
      (others ++ removal sessionId script.left)

omit [PyText] in
theorem stateAfter_removal (state : MessageState) (left : Option (TreeOf nodeId)) :
    (if decide (sessionId ≠ []) then stateAfter state [left] else state) = stateAfter state (removal sessionId left) := by
  unfold removal
  by_cases empty : sessionId = []
  · simp [empty]
  · simp [empty]

omit [PyText] in
theorem attempt_ok {body : Handling nodeId Unit} {handler : Interruption → Handling nodeId Unit} {run : Run nodeId}
    (ended : (body run).result = .ok ()) : attempt body handler run = body run := by
  unfold attempt
  revert ended
  rcases body run with ⟨yielded, after, _ | ⟨⟩⟩
  · exact nofun
  · exact fun _ => rfl

theorem processNodeImpl_exited (entered' : script.entry = false)
    (opening : script.opening = .opened isNew sessionId arrivals (.exited code stderr others)) :
    Exited script start isNew sessionId arrivals code others (processNodeImpl now stopped script (Run.start start)) := by
  let awaits := awaitsSession isNew sessionId
  let standing := (Standing.opened isNew sessionId).afterAll awaits arrivals
  let after := standing.after awaits (.event (exitEvent code stderr) others)
  let epoch := start.meanwhiles [script.found]
  obtain ⟨⟨⟩, ended, last, marked, between, marks⟩ : ∃ a, _ = Except.ok a ∧ ∃ last marked, Between awaits last after marked _ _ ∧
      (code = 0 → (marked ↔ FailsPending epoch arrivals)) :=
    (tryBody_exited code stderr others).ends [] (entered now epoch) ⟨rfl, rfl⟩
  rw [← opening] at ended between
  have same : attempt (tryBody now script.opening) (exceptClause now stopped script.handler) (entered now epoch) =
      tryBody now script.opening (entered now epoch) := attempt_ok ended
  have named : (after.captured || awaits) = decide (sessionId ≠ []) := by
    rw [Standing.after_named, Bool.eq_iff_iff, Bool.or_eq_true, named_iff, decide_eq_true_iff]
  have ends : Ends (decide (sessionId ≠ [])) after.state (attempt (tryBody now script.opening)
      (exceptClause now stopped script.handler) (entered now epoch)).state := by
    rw [same, ← named]
    exact ⟨between.1.left.named, between.1.state⟩
  obtain ⟨yields, state, result⟩ := processNodeImpl_parts entered' ends
  rw [stateAfter_removal] at state
  rw [same] at yields result
  have exit := Standing.after_exit awaits standing code stderr others
  refine ⟨fun zero => ?_, ?_, fun captures => ?_, fun uncaptured nonzero => ?_, fun uncaptured zero => ?_⟩
  · rw [yields, ← marks zero]
    exact between.1.marks
  · rw [result, ended]
    simp
  · rw [state, show after.state = .completed from ?_, stateAfter_completed]
    rw [show after = _ from exit, if_pos (captured_iff.mpr captures)]
  · rw [state, show after.state = .error from ?_, stateAfter_error]
    rw [show after = _ from exit, if_neg fun captured => uncaptured (captured_iff.mp captured), if_neg nonzero]
  · rw [state, stateAfter_append, show after.state = stateAfter standing.state others from ?_]
    rw [show after = _ from exit, if_neg fun captured => uncaptured (captured_iff.mp captured), if_pos zero]

theorem settled_captured (entered' : script.entry = false)
    (opening : script.opening = .opened isNew sessionId arrivals (.exited code stderr others))
    (captures : Captures isNew sessionId arrivals) :
    Settled script (processNodeImpl now stopped script (Run.start start)) ↔
      code = 0 ∧ ¬ FailsPending (start.meanwhiles [script.found]) arrivals ∧ script.cleanup = false := by
  have exited : Exited script start isNew sessionId arrivals code others (processNodeImpl now stopped script (Run.start start)) :=
    processNodeImpl_exited entered' opening
  have exits := exitsWith_iff entered' opening
  have done := exited.completed captures
  have result := exited.result
  simp only [ne_eq, captures.1, not_false_eq_true, and_true] at result
  constructor
  · intro settled
    obtain ⟨noFailure, noRaise, noMark⟩ := settled.unfailed done
    have zero : code = 0 := by
      by_contra other
      exact noFailure ⟨code, other, (exits code).mpr rfl⟩
    refine ⟨zero, fun fails => noMark ((exited.marks zero).mpr fails), ?_⟩
    rw [← Bool.not_eq_true]
    intro cancelled
    rw [if_pos cancelled] at result
    exact noRaise _ result
  · rintro ⟨zero, unmarked, kept⟩
    rw [kept, if_neg Bool.false_ne_true] at result
    refine settled_of_completed done (not_interrupted entered' opening) (fun other exits' => ?_) result ?_
    · exact ((exits other).mp exits').trans zero
    · rw [exited.marks zero]
      exact unmarked

theorem settled_uncaptured (entered' : script.entry = false)
    (opening : script.opening = .opened isNew sessionId arrivals (.exited code stderr others))
    (uncaptured : ¬ Captures isNew sessionId arrivals) :
    Settled script (processNodeImpl now stopped script (Run.start start)) ↔ code ≠ 0 ∨ Handler.Errored arrivals ∨
      script.cleanup = true ∧ sessionId ≠ [] ∧
        stateAfter ((Standing.opened isNew sessionId).afterAll (awaitsSession isNew sessionId) arrivals).state
          (others ++ [script.left]) = .error := by
  have exited : Exited script start isNew sessionId arrivals code others (processNodeImpl now stopped script (Run.start start)) :=
    processNodeImpl_exited entered' opening
  have exits := exitsWith_iff entered' opening
  have unknown : ((Standing.opened isNew sessionId).afterAll (awaitsSession isNew sessionId) arrivals).captured = false := by
    rw [← Bool.not_eq_true, captured_iff]
    exact uncaptured
  have errored : script.Errored ↔ Handler.Errored arrivals := by
    unfold Script.Errored
    rw [opening]
  by_cases zero : code = 0
  · rw [or_iff_right (not_not.mpr zero)]
    have left := exited.left uncaptured zero
    have running := stateAfter_running (Standing.running_afterAll unknown (.inl rfl)) (others ++ removal sessionId script.left)
    rw [← left] at running
    constructor
    · intro settled
      have failed := running.resolve_left settled.left.2
      by_cases error : Handler.Errored arrivals
      · exact .inl error
      · right
        have raised : (processNodeImpl now stopped script (Run.start start)).result ≠ .ok () := by
          intro returned
          have completed := settled.completed ((exits 0).mpr zero.symm) (fun has => error (errored.mp has)) returned
          rw [failed] at completed
          cases completed
        rw [exited.result] at raised
        have both : script.cleanup = true ∧ sessionId ≠ [] := by
          by_contra neither
          exact raised (if_neg neither)
        rw [left, removal, if_pos both.2] at failed
        exact ⟨both.1, both.2, failed⟩
    · intro either
      have failed : (processNodeImpl now stopped script (Run.start start)).state.tree.state = .error := by
        rw [left]
        rcases either with error | ⟨-, named, failed⟩
        · rw [Standing.failed_afterAll unknown (.inr error), stateAfter_error]
        · rw [removal, if_pos named]
          exact failed
      refine ⟨fun _ => failed, fun _ clean returned => ?_, by rw [failed]; exact ⟨nofun, nofun⟩, fun _ => failed⟩
      rcases either with error | ⟨cancelled, named, -⟩
      · exact absurd (errored.mpr error) clean
      · rw [exited.result, if_pos ⟨cancelled, named⟩] at returned
        cases returned
  · rw [iff_true_right (.inl zero)]
    have failed := exited.failed uncaptured zero
    exact ⟨fun _ => failed, fun ended => absurd ((exits 0).mp ended).symm zero, by rw [failed]; exact ⟨nofun, nofun⟩,
      fun _ => failed⟩

theorem settled_exited (entered' : script.entry = false)
    (opening : script.opening = .opened isNew sessionId arrivals (.exited code stderr others)) :
    Settled script (processNodeImpl now stopped script (Run.start start)) ↔
      HoldsAtExit script start isNew sessionId arrivals code others := by
  unfold HoldsAtExit
  dsimp only
  by_cases captures : Captures isNew sessionId arrivals
  · rw [settled_captured entered' opening captures, and_iff_right captures]
    exact (or_iff_left fun both => both.1 captures).symm
  · rw [settled_uncaptured entered' opening captures, and_iff_right captures]
    exact (or_iff_right fun both => captures both.1).symm

end Exited

/-- The node is settled at the end of exactly these runs. -/
theorem settled_iff (now : Timestamp) (stopped : Bool) (script : Script nodeId) (start : TreeOf nodeId) :
    Settled script (processNodeImpl now stopped script (Run.start start)) ↔ HoldsWhen script start := by
  unfold HoldsWhen
  cases cancelled : script.entry with
  | true =>
    have interrupted : script.Interrupted := .inl cancelled
    have unfinished : ¬ script.ExitsWith 0 := fun exits => by
      rw [exits.1] at cancelled
      cases cancelled
    rw [if_pos rfl, settled_iff_failed interrupted unfinished, processNodeImpl_entry now stopped start cancelled,
      state_meanwhiles]
  | false =>
    rw [if_neg Bool.false_ne_true]
    cases opening : script.opening with
    | interrupted why others =>
      have raised : Triple (Entered now (start.meanwhiles [script.found])) (tryBody now script.opening) (fun _ _ _ => False)
          fun _ run => Left false (stateAfter .inProgress others) run := opening ▸ tryBody_unopened why others
      rw [settled_raised cancelled (by simp [Script.Interrupted, opening]) (by simp [Script.ExitsWith, opening]) raised,
        if_neg Bool.false_ne_true, List.append_nil, ← stateAfter_append, stateAfter_inProgress]
    | limited exception cut others => exact settled_limited cancelled opening
    | opened isNew sessionId arrivals ending =>
      cases ending with
      | exited code stderr others => exact settled_exited cancelled opening
      | interrupted event cut others =>
        let awaits := awaitsSession isNew sessionId
        let standing := (Standing.opened isNew sessionId).afterAll awaits arrivals
        have raised : Triple (Entered now (start.meanwhiles [script.found])) (tryBody now script.opening) (fun _ _ _ => False)
            fun _ run => Left (standing.captured || awaits) (standing.reached awaits cut others event) run :=
          opening ▸ tryBody_interrupted event cut others
        rw [settled_raised cancelled (by simp [Script.Interrupted, opening]) (by simp [Script.ExitsWith, opening]) raised,
          named_removal]

end Whole

section Example

attribute [local instance] PyText.ascii

def root : MessageId := ⟨"m1", by decide⟩

def message : IncomingMessage := ⟨"hello", "c", "u", root, "telegram", none, none, none, none⟩

def tree : TreeOf root := ⟨MessageTree.new (MessageNode.new root message ⟨"s1", by decide⟩ none 0), by decide⟩

def sessionInfo : Json :=
  .object [("type".toList, text "session_info"), ("session_id".toList, text "real")]

/-- The process names its session and exits with code 1. -/
def failing : Script root :=
  ⟨none, false, .opened true "pending_1".toList [.event sessionInfo []] (.exited 1 none []), ⟨none, []⟩, none, false⟩

/-- The run ends with the failed node in `COMPLETED`. -/
theorem failed_run_completed : ¬ Settled failing (processNodeImpl 0 false failing (Run.start tree)) := by
  intro settled
  have failed := settled.failed (.inr (.inl ⟨1, by decide, rfl, rfl⟩))
  have completed : (processNodeImpl 0 false failing (Run.start tree)).state.tree.state = .completed := by decide
  rw [completed] at failed
  cases failed

end Example

end ClaudeProxy.Handler
