import ClaudeProxy.Handler.Standing

namespace ClaudeProxy.Handler

open Kit Trees Providers Generator

variable {nodeId : MessageId}

section Parsed

def IsPlain (parsed : ParsedEvent) : Prop := isError parsed = false ∧ isComplete parsed = false

variable [PyText]

theorem contentEvents_plain (message : Json) : ∀ parsed ∈ contentEvents message, IsPlain parsed := by
  have each (block : Json) (parsed : ParsedEvent) (made : contentEvent block = some parsed) : IsPlain parsed := by
    unfold contentEvent at made
    split at made
    · dsimp only at made
      split_ifs at made
      all_goals exact Option.some.inj made ▸ ⟨rfl, rfl⟩
    · cases made
  unfold contentEvents
  intro parsed mem
  split at mem
  · split at mem
    · obtain ⟨block, -, made⟩ := List.mem_filterMap.mp mem
      exact each block parsed made
    · cases mem
  · cases mem

omit [PyText] in
theorem deltaEvents_plain (event : Members) : ∀ parsed ∈ deltaEvents event, IsPlain parsed := by
  unfold deltaEvents
  intro parsed mem
  split at mem
  · dsimp only at mem
    split_ifs at mem
    all_goals first | exact List.mem_singleton.mp mem ▸ ⟨rfl, rfl⟩ | cases mem
  · cases mem

theorem startEvents_plain (event : Members) : ∀ parsed ∈ startEvents event, IsPlain parsed := by
  unfold startEvents
  intro parsed mem
  split at mem
  · dsimp only at mem
    split_ifs at mem
    all_goals first | exact List.mem_singleton.mp mem ▸ ⟨rfl, rfl⟩ | cases mem
  · cases mem

/-- An error and a `complete` come from no event with anything else. -/
theorem parse_cases (event : Json) :
    (∀ parsed ∈ parseCliEvent event, IsPlain parsed) ∨ (∃ message, parseCliEvent event = [.error message]) ∨
      (∃ status, parseCliEvent event = [.complete status]) ∨
        ∃ message status, parseCliEvent event = [.error message, .complete status] := by
  unfold parseCliEvent
  split
  · rename_i members
    dsimp only
    split_ifs
    · exact .inl fun _ mem => nomatch mem
    · exact .inl (deltaEvents_plain members)
    · exact .inl (startEvents_plain members)
    · exact .inl fun _ mem => List.mem_singleton.mp mem ▸ ⟨rfl, rfl⟩
    · exact .inr (.inl ⟨_, rfl⟩)
    · unfold exitEvents
      dsimp only
      split_ifs
      · exact .inr (.inr (.inl ⟨_, rfl⟩))
      · exact .inr (.inr (.inr ⟨_, _, rfl⟩))
    · exact .inl fun _ mem => nomatch mem
    · exact .inl (contentEvents_plain _)
  · exact .inl fun _ mem => nomatch mem

/-- The other types of events are no `session_info`, so nothing is parsed from one. -/
theorem parse_sessionInfo {members : Members}
    (type : (Json.get members "type" .null).isString "session_info" = true) : parseCliEvent (.object members) = [] := by
  have named : Json.get members "type" .null = text "session_info" := by
    revert type
    cases Json.get members "type" .null with
    | string value =>
      intro same
      exact congrArg Json.string (of_decide_eq_true same)
    | _ => exact fun no => nomatch no
  simp [parseCliEvent, named, text, Json.isString, messageObject, contentEvents]

variable {cut : Option Cut} {now : Timestamp} {keeps : List Effect → Run nodeId → Prop}

theorem Steady.plain (steady : Steady keeps) {parsed : ParsedEvent} (plain : IsPlain parsed) :
    Triple (Under cut [] keeps) (processParsedEvent now parsed : Handling nodeId Unit) (fun _ => Under cut [] keeps)
      fun h run => cut ≠ none ∧ keeps h run := by
  have cutoff {place : Place} (h : List Effect) (run : Run nodeId) (both : meets cut place ∧ keeps h run) :
      cut ≠ none ∧ keeps h run := ⟨meets_ne_none both.1, both.2⟩
  have noted : Triple (Under cut [] keeps)
      (whenever (isTranscriptEvent parsed) do
        Handler.applyTranscript parsed
        modify fun run => { run with hadTranscriptEvents := true } : Handling nodeId Unit)
      (fun _ => Under cut [] keeps) fun h run => cut ≠ none ∧ keeps h run := by
    refine Triple.whenever <| Triple.bind ((steady.applyTranscript List.not_mem_nil parsed).otherwise cutoff) fun _ =>
      Triple.modify fun h run both => ?_
    exact ⟨steady.locals h run run.lastStatus true both.1, both.2⟩
  have edited (status : Option Status) (force : Bool) : Triple (Under cut [] keeps)
      (Handler.updateUi .display status force : Handling nodeId Unit) (fun _ => Under cut [] keeps)
      fun h run => cut ≠ none ∧ keeps h run :=
    (steady.updateUi List.not_mem_nil status force).otherwise cutoff
  have shown (status : Status) : Triple (Under cut [] keeps)
      (do Handler.updateUi .display (some status) false; modify fun run => { run with lastStatus := some status } :
        Handling nodeId Unit) (fun _ => Under cut [] keeps) fun h run => cut ≠ none ∧ keeps h run :=
    Triple.bind (edited _ _) fun _ => Triple.modify fun h run both =>
      ⟨steady.locals h run (some status) run.hadTranscriptEvents both.1, both.2⟩
  refine Triple.bind noted fun _ => Triple.bind Triple.current fun before => Triple.before ?_ fun _ _ both => both.2
  cases parsed with
  | error message => cases plain.1
  | complete status => cases plain.2
  | blockStop index => exact edited _ _
  | _ => exact shown _

theorem Steady.plainAll (steady : Steady keeps) {parsed : List ParsedEvent} (plain : ∀ each ∈ parsed, IsPlain each) :
    Triple (Under cut [] keeps) (forEach parsed (processParsedEvent now) : Handling nodeId Unit)
      (fun _ => Under cut [] keeps) fun h run => cut ≠ none ∧ keeps h run :=
  Triple.forEach fun each mem => steady.plain (plain each mem)

/-- Nothing is parsed from an event that names a session, and one that names none leaves the session as it is. -/
theorem handleEvent_parsed {pre fail : List Effect → Run nodeId → Prop} {post : Unit → List Effect → Run nodeId → Prop}
    {event : Json} (known : ∀ h run, pre h run → carriesSession event = true → run.tempSessionId.isTruthy = false)
    (triple : Triple pre (forEach (parseCliEvent event) (processParsedEvent now)) post fail) :
    Triple pre (handleEvent now event : Handling nodeId Unit) post fail := by
  cases event with
  | object members =>
    have passed : Triple pre (handleSessionInfoEvent now members : Handling nodeId Unit) (fun _ => pre) fail := by
      refine Triple.bind Triple.current fun before => Triple.ite (fun named => ?_) fun _ =>
        Triple.pure fun _ _ both => both.2
      rintro h run ⟨rfl, holds⟩
      have carries : carriesSession (.object members) = true := by
        rw [carriesSession, named.1, named.2.1, Bool.and_true]
      exact absurd named.2.2 (by rw [known h before holds carries]; exact Bool.false_ne_true)
    refine Triple.bind passed fun _ => Triple.ite (fun _ => triple) fun info => ?_
    rw [parse_sessionInfo (not_not.mp info)] at triple
    exact triple
  | _ => exact triple

omit [PyText] in
theorem carriesSession_object {event : Json} (carries : carriesSession event = true) :
    ∃ members, event = .object members ∧ (Json.get members "type" .null).isString "session_info" = true ∧
      (Json.get members "session_id" .null).isTruthy = true := by
  cases event with
  | object members =>
    have both := Bool.and_eq_true_iff.mp carries
    exact ⟨members, rfl, both.1, both.2⟩
  | _ => cases carries

/-- An event that names the session to come is nothing else. -/
theorem handleEvent_named {pre fail : List Effect → Run nodeId → Prop} {post : Unit → List Effect → Run nodeId → Prop}
    {members : Members} (type : (Json.get members "type" .null).isString "session_info" = true)
    (triple : Triple pre (handleSessionInfoEvent now members) post fail) :
    Triple pre (handleEvent now (.object members) : Handling nodeId Unit) post fail :=
  Triple.bind triple fun _ => Triple.ite (fun no => absurd type no) fun _ => Triple.pure fun _ _ after => after

end Parsed

section Spec

variable [PyText] {cut : Option Cut} {awaits : Bool} {epoch : TreeOf nodeId} {standing : Standing}
  {others : Others nodeId} {marked : Prop} {now : Timestamp} {event : Json}

def writePlaces : List Place := infoPlaces ++ errorPlaces ++ completePlaces

/-- Where an interruption at one of these places leaves the node. -/
def Broken (cut : Option Cut) (awaits : Bool) (standing : Standing) (others : Others nodeId) (event : Json)
    (run : Run nodeId) : Prop :=
  ∀ c, cut = some c → Left (standing.captured || awaits) (standing.reached awaits c others (some event)) run

/-- The event has been handled, whether an interruption is still to come or not. -/
structure Handled (cut : Option Cut) (awaits : Bool) (epoch : TreeOf nodeId) (standing : Standing) (others : Others nodeId)
    (marked : Prop) (event : Json) (history : List Effect) (run : Run nodeId) : Prop where
  aims : Aims cut [] run
  bound : Bound awaits (epoch.meanwhiles others) (standing.after awaits (.event event others))
    (marked ∨ isErrorEvent event ∧ (epoch.meanwhiles (others.take 2)).HasPendingChild) history run
  broken : Broken cut awaits standing others event run

omit [PyText] in
theorem stopped_some (c : Cut) (places : List Place) : Stopped (some c) places ↔ c.stops places = true := by
  unfold Stopped Cut.stops hits
  rw [List.any_eq_true]
  refine exists_congr fun place => and_congr_right fun _ => ?_
  exact ⟨fun ⟨_, same, struck⟩ => Option.some.inj same ▸ struck, fun struck => ⟨c, rfl, struck⟩⟩

theorem Standing.after_named (awaits : Bool) (standing : Standing) (arrival : Arrival nodeId) :
    ((standing.after awaits arrival).captured || awaits) = (standing.captured || awaits) := by
  cases arrival with
  | elsewhere tree => rfl
  | event event others =>
    unfold Standing.after
    dsimp only
    split_ifs with named
    · rw [named.2.1, Bool.or_true, Bool.or_true]
    all_goals rfl

/-- The event is handled from where the run stands, or interrupted on the way. -/
def Handles (cut : Option Cut) (awaits : Bool) (epoch : TreeOf nodeId) (standing : Standing) (others : Others nodeId)
    (marked : Prop) (event : Json) (handling : Handling nodeId Unit) : Prop :=
  Triple (Under cut writePlaces (Here awaits epoch standing others marked)) handling
    (fun _ => Handled cut awaits epoch standing others marked event)
    fun _ run => cut ≠ none ∧ Broken cut awaits standing others event run

/-- An event whose write does not miss its place. -/
theorem handled_of_written {pre : List Effect → Run nodeId → Prop} {g : Handling nodeId Unit} (after : Standing)
    (children : Prop) (agrees : ∀ c, cut = some c → standing.reached awaits c others (some event) = after.state)
    (same : standing.after awaits (.event event others) = after)
    (marks : children ↔ isErrorEvent event ∧ (epoch.meanwhiles (others.take 2)).HasPendingChild)
    (triple : Triple pre g (fun _ => Under cut [] (Bound awaits (epoch.meanwhiles others) after (marked ∨ children)))
      fun _ run => cut ≠ none ∧ Left (standing.captured || awaits) after.state run) :
    Triple pre g (fun _ => Handled cut awaits epoch standing others marked event)
      fun _ run => cut ≠ none ∧ Broken cut awaits standing others event run := by
  subst same
  refine triple.weaken (fun _ _ before => before) (fun _ h run under => ?_) fun h run both => ⟨both.1, fun c is => ?_⟩
  · refine ⟨under.2, under.1.congr (or_congr Iff.rfl marks), fun c is => ?_⟩
    rw [agrees c is, ← Standing.after_named awaits standing (.event event others)]
    exact under.1.left
  · rw [agrees c is]
    exact both.2

/-- An event that is interrupted before its write, or before the second of two. -/
theorem handled_of_stopped {pre : List Effect → Run nodeId → Prop} {g : Handling nodeId Unit} (state : MessageState)
    (agrees : ∀ c, cut = some c → standing.reached awaits c others (some event) = state)
    (triple : Triple pre g (fun _ _ _ => False) fun _ run => cut ≠ none ∧ Left (standing.captured || awaits) state run) :
    Triple pre g (fun _ => Handled cut awaits epoch standing others marked event)
      fun _ run => cut ≠ none ∧ Broken cut awaits standing others event run := by
  refine triple.weaken (fun _ _ before => before) (fun _ _ _ no => no.elim) fun h run both => ⟨both.1, fun c is => ?_⟩
  rw [agrees c is]
  exact both.2

/-- The event does not name the session that is awaited. -/
def Unnamed (awaits : Bool) (standing : Standing) (event : Json) : Prop :=
  ¬ (carriesSession event = true ∧ awaits = true ∧ ¬ standing.captured = true)

theorem Standing.after_unnamed (unnamed : Unnamed awaits standing event) (others : Others nodeId) :
    standing.after awaits (.event event others) =
      if completes event ∧ standing.captured then { standing with state := .completed }
      else if isErrorEvent event then { standing with state := .error }
      else { standing with state := stateAfter standing.state others } := if_neg unnamed

theorem Standing.reached_unnamed (unnamed : Unnamed awaits standing event) (c : Cut) (others : Others nodeId) :
    standing.reached awaits c others (some event) =
      if isErrorEvent event ∧ c.stops errorPlaces then stateAfter standing.state others
      else if completes event ∧ standing.captured ∧ ¬ c.stops completePlaces then .completed
      else if isErrorEvent event then .error
      else stateAfter standing.state others := if_neg unnamed

omit [PyText] in
theorem under_less {keeps : List Effect → Run nodeId → Prop} {places less : List Place} {history : List Effect}
    {run : Run nodeId} (under : Under cut places keeps history run) (fewer : less ⊆ places) :
    Under cut less keeps history run :=
  ⟨under.1, under.2.mono fewer⟩

theorem plain_handled (unnamed : Unnamed awaits standing event)
    (plain : ∀ parsed ∈ parseCliEvent event, IsPlain parsed) :
    Handles cut awaits epoch standing others marked event (forEach (parseCliEvent event) (processParsedEvent now)) := by
  have noError : isErrorEvent event = false := List.any_eq_false.mpr fun parsed mem => by simp [(plain parsed mem).1]
  have noComplete : completes event = false := List.any_eq_false.mpr fun parsed mem => by simp [(plain parsed mem).2]
  let waited : Standing := { standing with state := stateAfter standing.state others }
  have handled : Triple (Under cut [] (Bound awaits (epoch.meanwhiles others) waited marked))
      (forEach (parseCliEvent event) (processParsedEvent now) : Handling nodeId Unit)
      (fun _ => Under cut [] (Bound awaits (epoch.meanwhiles others) waited marked))
      fun h run => cut ≠ none ∧ Bound awaits (epoch.meanwhiles others) waited marked h run := Bound.steady.plainAll plain
  refine handled_of_written waited False (fun c _ => ?_) ?_ ?_ ?_
  · rw [Standing.reached_unnamed unnamed]
    simp [noError, noComplete, waited]
  · rw [Standing.after_unnamed unnamed]
    simp [noError, noComplete, waited]
  · simp [noError]
  · refine handled.weaken (fun h run under => ?_) (fun _ h run under => ?_) fun _ run both => ⟨both.1, both.2.left⟩
    · exact ⟨under.1.bound, under.2.mono (List.nil_subset _)⟩
    · exact ⟨under.1.congr (or_iff_left not_false).symm, under.2⟩

/-- Before its error has been written, an event is interrupted as one that writes nothing. -/
theorem error_handled_stopped (unnamed : Unnamed awaits standing event) {message : Json} {rest : List ParsedEvent}
    (parsed : parseCliEvent event = .error message :: rest) (stopped : Stopped cut errorPlaces) :
    Handles cut awaits epoch standing others marked event (forEach (parseCliEvent event) (processParsedEvent now)) := by
  have error : isErrorEvent event = true := by rw [isErrorEvent, parsed]; rfl
  refine handled_of_stopped (stateAfter standing.state others) (fun c is => ?_) ?_
  · subst is
    rw [Standing.reached_unnamed unnamed, if_pos ⟨error, (stopped_some c _).mp stopped⟩]
  · rw [parsed]
    refine Triple.bind_raises <| (error_stopped (Left.steady (standing.captured || awaits) _) stopped message).before
      fun h run under => ?_
    exact ⟨under.1.left, under.2.mono (by decide)⟩

theorem error_handled (unnamed : Unnamed awaits standing event) {message : Json}
    (parsed : parseCliEvent event = [.error message]) :
    Handles cut awaits epoch standing others marked event (forEach (parseCliEvent event) (processParsedEvent now)) := by
  by_cases stopped : Stopped cut errorPlaces
  · exact error_handled_stopped unnamed parsed stopped
  · have error : isErrorEvent event = true := by rw [isErrorEvent, parsed]; rfl
    have noComplete : completes event = false := by rw [completes, parsed]; rfl
    refine handled_of_written { standing with state := .error } (epoch.meanwhiles (others.take 2)).HasPendingChild
      (fun c is => ?_) ?_ (by simp [error]) ?_
    · subst is
      rw [stopped_some] at stopped
      rw [Standing.reached_unnamed unnamed]
      simp [error, noComplete, stopped]
    · rw [Standing.after_unnamed unnamed]
      simp [error, noComplete]
    · rw [parsed]
      refine Triple.bind ((error_written stopped message).weaken (fun h run under => under_less under (by decide))
        (fun _ _ _ after => after) fun _ run both => ⟨meets_ne_none both.1, both.2⟩) fun _ => ?_
      exact Triple.pure fun h run under => under_less under (List.nil_subset _)

theorem complete_handled (unnamed : Unnamed awaits standing event) {status : String}
    (parsed : parseCliEvent event = [.complete status]) :
    Handles cut awaits epoch standing others marked event (forEach (parseCliEvent event) (processParsedEvent now)) := by
  have noError : isErrorEvent event = false := by rw [isErrorEvent, parsed]; rfl
  have done : completes event = true := by rw [completes, parsed]; rfl
  let waited : Standing := { standing with state := stateAfter standing.state others }
  have enter (h : List Effect) (run : Run nodeId)
      (under : Under cut writePlaces (Here awaits epoch standing others marked) h run) :
      Under cut completePlaces (Bound awaits (epoch.meanwhiles others) waited marked) h run :=
    ⟨under.1.bound, under.2.mono (by decide)⟩
  have last {after : Standing} (h : List Effect) (run : Run nodeId)
      (under : Under cut [] (Bound awaits (epoch.meanwhiles others) after marked) h run) :
      Under cut [] (Bound awaits (epoch.meanwhiles others) after (marked ∨ False)) h run :=
    ⟨under.1.congr (or_iff_left not_false).symm, under.2⟩
  cases captured : waited.captured with
  | false =>
    have uncaptured : standing.captured = false := captured
    refine handled_of_written waited False (fun c _ => ?_) ?_ (by simp [noError]) ?_
    · rw [Standing.reached_unnamed unnamed]
      simp [noError, uncaptured, waited]
    · rw [Standing.after_unnamed unnamed]
      simp [noError, uncaptured, waited]
    · rw [parsed]
      exact Triple.bind ((complete_uncaptured captured status).before enter) fun _ => Triple.pure last
  | true =>
    have known : standing.captured = true := captured
    by_cases stopped : Stopped cut completePlaces
    · refine handled_of_stopped (stateAfter standing.state others) (fun c is => ?_) ?_
      · subst is
        rw [stopped_some] at stopped
        rw [Standing.reached_unnamed unnamed]
        simp [noError, stopped]
      · rw [parsed]
        refine Triple.bind_raises <| (complete_stopped Bound.steady stopped
          (fun _ run bound => bound.captured.trans captured) status).weaken enter (fun _ _ _ no => no) fun _ run both => ?_
        exact ⟨both.1, both.2.left⟩
    · refine handled_of_written { standing with state := .completed } False (fun c is => ?_) ?_ (by simp [noError]) ?_
      · subst is
        rw [stopped_some] at stopped
        rw [Standing.reached_unnamed unnamed]
        simp [noError, done, known, stopped]
      · rw [Standing.after_unnamed unnamed]
        simp [done, known]
      · rw [parsed]
        exact Triple.bind ((complete_written captured stopped status).before enter) fun _ => Triple.pure last

omit [PyText] in
theorem stopped_of_childLock (met : meets cut .childLock) : Stopped cut completePlaces := by
  obtain ⟨c, rfl, either⟩ := met
  refine ⟨.showComplete, by decide, c, rfl, (cut_hits_iff c _).mpr (.inr ⟨?_, rfl⟩)⟩
  rcases either with place | both
  · exact place
  · exact both.1

/-- The exit event of a process that failed: the error first, and then a `complete` that may overwrite it. -/
theorem errorComplete_handled (unnamed : Unnamed awaits standing event) {message : Json} {status : String}
    (parsed : parseCliEvent event = [.error message, .complete status]) :
    Handles cut awaits epoch standing others marked event (forEach (parseCliEvent event) (processParsedEvent now)) := by
  by_cases early : Stopped cut errorPlaces
  · exact error_handled_stopped unnamed parsed early
  have error : isErrorEvent event = true := by rw [isErrorEvent, parsed]; rfl
  have done : completes event = true := by rw [completes, parsed]; rfl
  have missed (c : Cut) (is : cut = some c) : c.stops errorPlaces = false := by
    subst is
    rw [stopped_some] at early
    exact Bool.eq_false_iff.mpr early
  let failed : Standing := { standing with state := .error }
  have written : Triple (Under cut writePlaces (Here awaits epoch standing others marked))
      (processParsedEvent now (.error message) : Handling nodeId Unit)
      (fun _ => Under cut completePlaces (Bound awaits (epoch.meanwhiles others) failed
        (marked ∨ (epoch.meanwhiles (others.take 2)).HasPendingChild)))
      fun _ run => meets cut .childLock ∧ Left (standing.captured || awaits) .error run :=
    (error_written early message).before fun h run under => under_less under (by decide)
  cases captured : failed.captured with
  | false =>
    have uncaptured : standing.captured = false := captured
    refine handled_of_written failed (epoch.meanwhiles (others.take 2)).HasPendingChild (fun c is => ?_) ?_
      (by simp [error]) ?_
    · rw [Standing.reached_unnamed unnamed]
      simp [error, missed c is, uncaptured, failed]
    · rw [Standing.after_unnamed unnamed]
      simp [error, uncaptured, failed]
    · rw [parsed]
      refine Triple.bind (written.otherwise fun _ run both => ⟨meets_ne_none both.1, both.2⟩) fun _ => ?_
      exact Triple.bind (complete_uncaptured captured status) fun _ => Triple.pure fun _ _ under => under
  | true =>
    have known : standing.captured = true := captured
    by_cases late : Stopped cut completePlaces
    · refine handled_of_stopped .error (fun c is => ?_) ?_
      · subst is
        rw [stopped_some] at late
        rw [Standing.reached_unnamed unnamed]
        simp [error, missed c rfl, late]
      · rw [parsed]
        refine Triple.bind (written.otherwise fun _ run both => ⟨meets_ne_none both.1, both.2⟩) fun _ =>
          Triple.bind_raises ?_
        exact (complete_stopped Bound.steady late (fun _ run bound => bound.captured.trans captured) status).otherwise
          fun _ run both => ⟨both.1, both.2.left⟩
    · refine handled_of_written { standing with state := .completed } (epoch.meanwhiles (others.take 2)).HasPendingChild
        (fun c is => ?_) ?_ (by simp [error]) ?_
      · subst is
        rw [stopped_some] at late
        rw [Standing.reached_unnamed unnamed]
        simp [done, known, missed c rfl, late]
      · rw [Standing.after_unnamed unnamed]
        simp [done, known]
      · rw [parsed]
        refine Triple.bind (written.otherwise fun _ run both => absurd (stopped_of_childLock both.1) late) fun _ => ?_
        exact Triple.bind (complete_written captured late status) fun _ => Triple.pure fun _ _ under => under

/-- The event that names the session, whose write makes the node `IN_PROGRESS` again. -/
theorem named_handled {members : Members} (type : (Json.get members "type" .null).isString "session_info" = true)
    (real : (Json.get members "session_id" .null).isTruthy = true) (waiting : awaits = true)
    (uncaptured : standing.captured = false) :
    Handles cut awaits epoch standing others marked (.object members) (handleSessionInfoEvent now members) := by
  have named : carriesSession (.object members) = true ∧ awaits = true ∧ ¬ standing.captured = true := by
    refine ⟨?_, waiting, Bool.eq_false_iff.mp uncaptured⟩
    rw [carriesSession, type, real, Bool.and_true]
  have noError : isErrorEvent (.object members) = false := by rw [isErrorEvent, parse_sessionInfo type]; rfl
  by_cases stopped : Stopped cut infoPlaces
  · let waited : Standing := { standing with state := stateAfter standing.state others }
    have broken : Triple (Under cut infoPlaces (Bound awaits (epoch.meanwhiles others) waited marked))
        (handleSessionInfoEvent now members : Handling nodeId Unit) (fun _ _ _ => False)
        fun h run => cut ≠ none ∧ Bound awaits (epoch.meanwhiles others) waited marked h run := by
      refine sessionInfo_stopped Bound.steady members stopped type real fun h run bound => ?_
      rw [show run.tempSessionId.isTruthy = (awaits && !standing.captured) from bound.temp, waiting, uncaptured]
      rfl
    refine handled_of_stopped waited.state (fun c is => ?_) (broken.weaken (fun h run under => ?_) (fun _ _ _ no => no)
      fun _ run both => ⟨both.1, both.2.left⟩)
    · subst is
      rw [Standing.reached, if_pos named, if_pos ((stopped_some c _).mp stopped)]
    · exact ⟨under.1.bound, under.2.mono (by decide)⟩
  · refine handled_of_written ⟨true, stateAfter .inProgress (others.drop 2)⟩ False (fun c is => ?_) ?_ (by simp [noError]) ?_
    · subst is
      rw [stopped_some] at stopped
      rw [Standing.reached, if_pos named, if_neg stopped]
    · rw [Standing.after, if_pos named]
    · have written : Triple (Under cut infoPlaces (Here awaits epoch standing others marked))
          (handleSessionInfoEvent now members) _ _ := sessionInfo_written members stopped type real waiting uncaptured
      refine written.weaken (fun h run under => ?_) (fun _ h run under => ?_) fun _ run both => ?_
      · exact under_less under (by decide)
      · exact ⟨under.1.congr (or_iff_left not_false).symm, under.2⟩
      · rw [waiting, Bool.or_true]
        exact both

/-- What one event makes of the node, wherever an interruption comes. -/
theorem handleEvent_spec (event : Json) :
    Handles cut awaits epoch standing others marked event (handleEvent now event) := by
  by_cases named : carriesSession event = true ∧ awaits = true ∧ ¬ standing.captured = true
  · obtain ⟨members, rfl, type, real⟩ := carriesSession_object named.1
    exact handleEvent_named type (named_handled type real named.2.1 (Bool.eq_false_iff.mpr named.2.2))
  · refine handleEvent_parsed (fun h run under carries => ?_) ?_
    · rw [under.1.temp]
      have known : awaits = true → standing.captured = true := fun waiting => by
        by_contra uncaptured
        exact named ⟨carries, waiting, uncaptured⟩
      cases waiting : awaits with
      | false => rfl
      | true =>
        rw [known waiting]
        rfl
    · rcases parse_cases event with plain | ⟨message, parsed⟩ | ⟨status, parsed⟩ | ⟨message, status, parsed⟩
      · exact plain_handled named plain
      · exact error_handled named parsed
      · exact complete_handled named parsed
      · exact errorComplete_handled named parsed

end Spec

section Runs

variable [PyText] {awaits : Bool} {epoch : TreeOf nodeId} {standing : Standing} {marked : Prop} {now : Timestamp}
  {event : Json} {others : Others nodeId}

/-- The run has come to a session's `__anext__`, with no interruption ahead. -/
def Between (awaits : Bool) (epoch : TreeOf nodeId) (standing : Standing) (marked : Prop) (history : List Effect)
    (run : Run nodeId) : Prop :=
  Here awaits epoch standing [] marked history run ∧ run.cut = none

omit [PyText] in
theorem Between.congr {marked' : Prop} {history : List Effect} {run : Run nodeId}
    (between : Between awaits epoch standing marked history run) (marks : marked ↔ marked') :
    Between awaits epoch standing marked' history run := by
  rw [← propext marks]
  exact between

theorem event_spec (event : Json) (others : Others nodeId) :
    Triple (Between awaits epoch standing marked) (handleArrival now (.event event others) : Handling nodeId Unit)
      (fun _ => Between awaits (epoch.meanwhiles others) (standing.after awaits (.event event others))
        (marked ∨ isErrorEvent event ∧ (epoch.meanwhiles (others.take 2)).HasPendingChild)) fun _ _ => False := by
  have opened : Triple (Between awaits epoch standing marked) (setOthers others : Handling nodeId Unit)
      (fun _ => Under none writePlaces (Here awaits epoch standing others marked)) fun _ _ => False :=
    Triple.modify fun h run both => ⟨⟨both.1.captured, both.1.temp, rfl, both.1.state, both.1.marks, both.1.same⟩, both.2⟩
  have handled : Triple (Under none writePlaces (Here awaits epoch standing others marked))
      (handleEvent now event : Handling nodeId Unit) (fun _ => Handled none awaits epoch standing others marked event)
      fun _ _ => False :=
    (handleEvent_spec event).otherwise fun _ _ both => both.1 rfl
  exact Triple.bind opened fun _ => Triple.bind handled fun _ => Triple.modify fun h run after => ⟨after.bound, after.aims⟩

theorem elsewhere_spec (tree : TreeOf nodeId) :
    Triple (Between awaits epoch standing marked) (handleArrival now (.elsewhere tree) : Handling nodeId Unit)
      (fun _ => Between awaits (epoch.meanwhile tree) (standing.after awaits (.elsewhere tree)) marked)
      fun _ _ => False := by
  refine Triple.modify fun h run both => ⟨⟨both.1.captured, both.1.temp, both.1.others, ?_, both.1.marks, fun _ => ?_⟩, both.2⟩
  · rw [state_meanwhile, both.1.state]
    rfl
  · exact (TreeOf.meanwhile_sameOthers ..).trans (TreeOf.meanwhile_sameOthers ..).symm

/-- What the events and the others have made of the node when the arrivals are over. -/
def Standing.afterAll (awaits : Bool) (standing : Standing) (arrivals : List (Arrival nodeId)) : Standing :=
  arrivals.foldl (Standing.after awaits) standing

theorem arrivals_spec (arrivals : List (Arrival nodeId)) :
    Triple (Between awaits epoch standing marked) (forEach arrivals (handleArrival now) : Handling nodeId Unit)
      (fun _ h run => ∃ last, Between awaits last (standing.afterAll awaits arrivals)
        (marked ∨ FailsPending epoch arrivals) h run) fun _ _ => False := by
  induction arrivals generalizing epoch standing marked with
  | nil => exact Triple.pure fun h run both => ⟨epoch, both.congr (or_iff_left id).symm⟩
  | cons first rest ih =>
    cases first with
    | event event others =>
      refine Triple.bind (event_spec event others) fun _ => ih.after fun _ h run later => ?_
      obtain ⟨last, both⟩ := later
      exact ⟨last, both.congr or_assoc⟩
    | elsewhere tree => exact Triple.bind (elsewhere_spec tree) fun _ => ih

theorem isErrorEvent_exitEvent (code : Int) (stderr : Option Str) :
    isErrorEvent (exitEvent code stderr) = true ↔ code ≠ 0 := by
  unfold isErrorEvent
  rw [parse_exitEvent]
  split_ifs with zero <;> simp [isError, zero]

theorem completes_exitEvent (code : Int) (stderr : Option Str) : completes (exitEvent code stderr) = true := by
  unfold completes
  rw [parse_exitEvent]
  split_ifs <;> simp [isComplete]

omit [PyText] in
theorem carriesSession_exitEvent (code : Int) (stderr : Option Str) : carriesSession (exitEvent code stderr) = false := by
  unfold carriesSession exitEvent
  dsimp only
  rw [exitEvent_noSession code stderr _ rfl, Bool.false_and]

/-- The exit of the process completes the node once the session has been captured. -/
theorem Standing.after_exit (awaits : Bool) (standing : Standing) (code : Int) (stderr : Option Str)
    (others : Others nodeId) :
    standing.after awaits (.event (exitEvent code stderr) others) =
      if standing.captured then { standing with state := .completed }
      else if code = 0 then { standing with state := stateAfter standing.state others }
      else { standing with state := .error } := by
  have unnamed : Unnamed awaits standing (exitEvent code stderr) := by
    rintro ⟨carries, -⟩
    rw [carriesSession_exitEvent] at carries
    cases carries
  rw [Standing.after_unnamed unnamed, completes_exitEvent]
  simp only [true_and, isErrorEvent_exitEvent, ite_not]

theorem Standing.captured_after (awaits : Bool) (standing : Standing) (event : Json) (others : Others nodeId) :
    (standing.after awaits (.event event others)).captured =
      (standing.captured || awaits && carriesSession event) := by
  unfold Standing.after
  dsimp only
  split_ifs with named done error
  · rw [named.1, named.2.1]
    exact (Bool.or_true _).symm
  all_goals
    cases known : standing.captured with
    | true => rfl
    | false =>
      have other : ¬ (awaits && carriesSession event) = true := fun both =>
        named ⟨(Bool.and_eq_true_iff.mp both).2, (Bool.and_eq_true_iff.mp both).1, by simp [known]⟩
      rw [Bool.eq_false_iff.mpr other]
      rfl

theorem Standing.captured_afterAll (awaits : Bool) (standing : Standing) (arrivals : List (Arrival nodeId)) :
    (standing.afterAll awaits arrivals).captured = true ↔ standing.captured = true ∨
      awaits = true ∧ ∃ event others, .event event others ∈ arrivals ∧ carriesSession event = true := by
  induction arrivals generalizing standing with
  | nil => simp [Standing.afterAll]
  | cons first rest ih =>
    have step := ih (standing.after awaits first)
    rw [Standing.afterAll, List.foldl_cons]
    refine step.trans ?_
    cases first with
    | elsewhere tree =>
      show standing.captured = true ∨ _ ↔ _
      simp
    | event event others =>
      rw [Standing.captured_after, Bool.or_eq_true, Bool.and_eq_true_iff, or_assoc, ← and_or_left]
      refine or_congr Iff.rfl (and_congr_right fun _ => ?_)
      constructor
      · rintro (carries | ⟨other, written, mem, carries⟩)
        · exact ⟨event, others, List.mem_cons_self, carries⟩
        · exact ⟨other, written, List.mem_cons_of_mem _ mem, carries⟩
      · rintro ⟨other, written, mem, carries⟩
        rcases List.mem_cons.mp mem with same | mem
        · cases same
          exact .inl carries
        · exact .inr ⟨other, written, mem, carries⟩

/-- While the session has not been captured, the node is written to by errors and by the others only. -/
theorem Standing.state_after (uncaptured : (standing.after awaits (.event event others)).captured = false) :
    (standing.after awaits (.event event others)).state =
      if isErrorEvent event then .error else stateAfter standing.state others := by
  rw [Standing.captured_after, Bool.or_eq_false_iff, Bool.and_eq_false_iff] at uncaptured
  have unnamed : Unnamed awaits standing event := by
    rintro ⟨carries, waiting, -⟩
    rw [carries, waiting] at uncaptured
    exact uncaptured.2.elim Bool.noConfusion Bool.noConfusion
  rw [Standing.after_unnamed unnamed, uncaptured.1, if_neg fun both => Bool.false_ne_true both.2]
  split_ifs <;> rfl

theorem Standing.uncaptured_of_afterAll {first : Arrival nodeId} {rest : List (Arrival nodeId)}
    (uncaptured : (standing.afterAll awaits (first :: rest)).captured = false) :
    (standing.after awaits first).captured = false := by
  rw [← Bool.not_eq_true] at uncaptured ⊢
  exact fun captured => uncaptured ((Standing.captured_afterAll awaits (standing.after awaits first) rest).mpr (.inl captured))

theorem Standing.running_afterAll {arrivals : List (Arrival nodeId)}
    (uncaptured : (standing.afterAll awaits arrivals).captured = false)
    (running : standing.state = .inProgress ∨ standing.state = .error) :
    (standing.afterAll awaits arrivals).state = .inProgress ∨ (standing.afterAll awaits arrivals).state = .error := by
  induction arrivals generalizing standing with
  | nil => exact running
  | cons first rest ih =>
    refine ih uncaptured ?_
    cases first with
    | elsewhere tree => exact stateAfter_running running _
    | event event others =>
      rw [Standing.state_after (Standing.uncaptured_of_afterAll uncaptured)]
      split_ifs
      · exact .inr rfl
      · exact stateAfter_running running others

theorem Standing.failed_afterAll {arrivals : List (Arrival nodeId)}
    (uncaptured : (standing.afterAll awaits arrivals).captured = false)
    (errored : standing.state = .error ∨ Errored arrivals) : (standing.afterAll awaits arrivals).state = .error := by
  induction arrivals generalizing standing with
  | nil =>
    rcases errored with failed | ⟨_, _, mem, -⟩
    · exact failed
    · cases mem
  | cons first rest ih =>
    refine ih uncaptured ?_
    cases first with
    | elsewhere tree =>
      rcases errored with failed | ⟨event, others, mem, error⟩
      · exact .inl ((congrArg (stateAfter · [some tree]) failed).trans (stateAfter_error _))
      · exact .inr ⟨event, others, List.mem_of_ne_of_mem (by simp) mem, error⟩
    | event event others =>
      rw [Standing.state_after (Standing.uncaptured_of_afterAll uncaptured)]
      by_cases error : isErrorEvent event = true
      · exact .inl (if_pos error)
      · rw [if_neg error]
        rcases errored with failed | ⟨other, written, mem, error'⟩
        · rw [failed]
          exact .inl (stateAfter_error others)
        · rcases List.mem_cons.mp mem with same | mem
          · cases same
            exact absurd error' error
          · exact .inr ⟨other, written, mem, error'⟩

end Runs


end ClaudeProxy.Handler
