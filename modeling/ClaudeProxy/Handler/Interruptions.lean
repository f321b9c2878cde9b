import ClaudeProxy.Handler.NodeTree

namespace ClaudeProxy.Handler

open Kit Trees Providers Generator

variable {nodeId : MessageId}

def HasMark (history : List Effect) : Prop := ∃ child, Effect.marked child ∈ history

theorem hasMark_append (history : List Effect) {effect : Effect} (other : ∀ child, effect ≠ .marked child) :
    HasMark (history ++ [effect]) ↔ HasMark history := by
  unfold HasMark
  constructor
  · rintro ⟨child, member⟩
    rcases List.mem_append.mp member with member | member
    · exact ⟨child, member⟩
    · exact absurd (List.mem_singleton.mp member).symm (other child)
  · rintro ⟨child, member⟩
    exact ⟨child, List.mem_append_left _ member⟩

namespace Run

theorem settle_wait (run : Run nodeId) : run.wait.settle = run.settle := by
  unfold settle wait
  rw [TreeOf.meanwhiles_take_drop]

end Run

section Passing

/-- The interruption is still to come, if there is one, and has not been brought nearer at these places. -/
def Aims (cut : Option Cut) (places : List Place) (run : Run nodeId) : Prop :=
  match cut with
  | none => run.cut = none
  | some cut => ∃ skip, run.cut = some { cut with skip := skip } ∧ (cut.place ∈ places → skip = cut.skip)

def hits (cut : Option Cut) (place : Place) : Prop := ∃ c, cut = some c ∧ c.hits place = true

/-- At its place, whether or not it has been passed often enough. -/
def meets (cut : Option Cut) (place : Place) : Prop :=
  ∃ c, cut = some c ∧ (c.place = place ∨ c.place = .childLock ∧ place = .showComplete)

def Place.waited (place : Place) (run : Run nodeId) : Run nodeId := if place.isCall then run else run.wait

def Place.stopped (place : Place) (run : Run nodeId) : Run nodeId := if place.isCall then run else run.settle

variable {cut : Option Cut} {places less : List Place} {place : Place} {run : Run nodeId}

theorem Aims.mono (aims : Aims cut places run) (fewer : less ⊆ places) : Aims cut less run := by
  cases cut with
  | none => exact aims
  | some c =>
    obtain ⟨skip, same, near⟩ := aims
    exact ⟨skip, same, fun mem => near (fewer mem)⟩

theorem cut_hits_iff (c : Cut) (place : Place) :
    c.hits place = true ↔ c.place = place ∧ c.skip = 0 ∨ c.place = .childLock ∧ place = .showComplete :=
  decide_eq_true_iff

/-- A point is passed, or it is where the interruption comes. -/
theorem pass_cases (aims : Aims cut places run) (fewer : ∀ other ∈ less, other ∈ places ∧ other ≠ place) :
    (∃ next, pass place run = ⟨[], { place.waited run with cut := next }, .ok ()⟩ ∧
        Aims cut less { place.waited run with cut := next } ∧ (place ∈ places → ¬ hits cut place)) ∨
      ∃ why, pass place run = ⟨[], { place.stopped run with cut := none }, .error why⟩ ∧ meets cut place ∧
        (place ∈ places → hits cut place) := by
  have waited : (place.waited run).cut = run.cut := by
    unfold Place.waited
    split <;> rfl
  cases cut with
  | none =>
    have quiet : run.cut = none := aims
    refine .inl ⟨none, ?_, rfl, ?_⟩
    · rw [pass, quiet]
      rw [← waited] at quiet
      have same : { place.waited run with cut := none } = place.waited run := by
        rw [← quiet]
      rw [same]
      rfl
    · rintro - ⟨c, none', -⟩
      cases none'
  | some c =>
    obtain ⟨skip, armed, near⟩ := aims
    by_cases hit : ({ c with skip := skip } : Cut).hits place = true
    · refine .inr ⟨c.why, ?_, ⟨c, rfl, ?_⟩, fun here => ⟨c, rfl, ?_⟩⟩
      · simp only [pass, armed, hit, if_true]
        rfl
      · exact ((cut_hits_iff _ _).mp hit).imp And.left id
      · rw [cut_hits_iff] at hit ⊢
        refine hit.imp (fun both => ⟨both.1, ?_⟩) id
        rw [← near (both.1 ▸ here)]
        exact both.2
    · refine .inl ⟨some (({ c with skip := skip } : Cut).pass place), ?_, ?_, ?_⟩
      · simp only [pass, armed, hit, if_false, Bool.false_eq_true]
        rfl
      · refine ⟨if c.place = place then skip - 1 else skip, ?_, fun mem => ?_⟩
        · unfold Cut.pass
          split <;> rfl
        · rw [if_neg (fewer _ mem).2]
          exact near (fewer _ mem).1
      · rintro here ⟨_, same, struck⟩
        cases same
        apply hit
        rw [cut_hits_iff] at struck ⊢
        refine struck.imp (fun both => ⟨both.1, ?_⟩) id
        rw [near (both.1 ▸ here)]
        exact both.2

end Passing

section Steady

/-- What holds while the interruption is still to come. -/
def Under (cut : Option Cut) (places : List Place) (keeps : List Effect → Run nodeId → Prop) (history : List Effect)
    (run : Run nodeId) : Prop :=
  keeps history run ∧ Aims cut places run

/-- What survives whatever is not written to the tree. -/
structure Local (keeps : List Effect → Run nodeId → Prop) : Prop where
  cut : ∀ h run next, keeps h run → keeps h { run with cut := next }
  effect : ∀ h run effect, (∀ child, effect ≠ .marked child) → keeps h run → keeps (h ++ [effect]) run
  locals : ∀ h (run : Run nodeId) status noted, keeps h run →
    keeps h { run with lastStatus := status, hadTranscriptEvents := noted }

/-- What survives the writes of others, too. -/
structure Steady (keeps : List Effect → Run nodeId → Prop) : Prop extends Local keeps where
  wait : ∀ h run, keeps h run → keeps h run.wait
  settle : ∀ h run, keeps h run → keeps h run.settle

variable {cut : Option Cut} {places less : List Place} {place : Place} {keeps post fail : List Effect → Run nodeId → Prop}
  {now : Timestamp}

theorem Steady.waited (steady : Steady keeps) {h : List Effect} {run : Run nodeId} (holds : keeps h run) (place : Place) :
    keeps h (place.waited run) := by
  unfold Place.waited
  split
  · exact holds
  · exact steady.wait h run holds

theorem Steady.stopped (steady : Steady keeps) {h : List Effect} {run : Run nodeId} (holds : keeps h run) (place : Place) :
    keeps h (place.stopped run) := by
  unfold Place.stopped
  split
  · exact holds
  · exact steady.settle h run holds

/-- The interruption does not come at the place. -/
theorem pass_missed (missed : ¬ hits cut place) (here : place ∈ places)
    (fewer : ∀ other ∈ less, other ∈ places ∧ other ≠ place)
    (passed : ∀ h run next, keeps h run → post h { place.waited run with cut := next }) :
    Triple (Under cut places keeps) (pass place) (fun _ => Under cut less post) fail := by
  rintro history run ⟨holds, aims⟩
  rcases pass_cases aims fewer with ⟨next, same, later, -⟩ | ⟨why, -, -, hit⟩
  · rw [same]
    simpa [Under] using And.intro (passed history run next holds) later
  · exact absurd (hit here) missed

/-- The interruption comes at the place, if not at one of the later ones. -/
theorem Steady.pass_hits (steady : Steady keeps) (less : List Place) (here : place ∈ places)
    (fewer : ∀ other ∈ less, other ∈ places ∧ other ≠ place) :
    Triple (Under cut places keeps) (pass place) (fun _ h run => ¬ hits cut place ∧ Under cut less keeps h run)
      fun h run => hits cut place ∧ keeps h run := by
  rintro history run ⟨holds, aims⟩
  rcases pass_cases aims fewer with ⟨next, same, later, missed⟩ | ⟨why, same, -, hit⟩
  · rw [same]
    simpa [Under] using And.intro (missed here) ⟨steady.cut _ _ next (steady.waited holds place), later⟩
  · rw [same]
    simpa using And.intro (hit here) (steady.cut _ _ none (steady.stopped holds place))

theorem hits_ne_none (hit : hits cut place) : cut ≠ none := by
  obtain ⟨c, is, -⟩ := hit
  rw [is]
  exact Option.some_ne_none c

theorem Steady.pass_stops (steady : Steady keeps) (less : List Place) (here : place ∈ places)
    (fewer : ∀ other ∈ less, other ∈ places ∧ other ≠ place) :
    Triple (Under cut places keeps) (pass place) (fun _ h run => ¬ hits cut place ∧ Under cut less keeps h run)
      fun h run => cut ≠ none ∧ keeps h run :=
  (steady.pass_hits less here fewer).otherwise fun _ _ both => ⟨hits_ne_none both.1, both.2⟩

theorem Steady.pass (steady : Steady keeps) (elsewhere : place ∉ places) :
    Triple (Under cut places keeps) (pass place) (fun _ => Under cut places keeps)
      fun h run => meets cut place ∧ keeps h run := by
  rintro history run ⟨holds, aims⟩
  have fewer : ∀ other ∈ places, other ∈ places ∧ other ≠ place :=
    fun other mem => ⟨mem, fun same => elsewhere (same ▸ mem)⟩
  rcases pass_cases aims fewer with ⟨next, same, later, -⟩ | ⟨why, same, met, -⟩
  · rw [same]
    simpa [Under] using And.intro (steady.cut _ _ next (steady.waited holds place)) later
  · rw [same]
    simpa using And.intro met (steady.cut _ _ none (steady.stopped holds place))

theorem Local.output (loc : Local keeps) {effect : Effect} (other : ∀ child, effect ≠ .marked child) :
    Triple (Under cut places keeps) (output effect) (fun _ => Under cut places keeps) fail :=
  Triple.emit fun h run both => ⟨loc.effect h run effect other both.1, both.2⟩

theorem write_under {key : MessageId} {state : MessageState} {sessionId errorMessage : Option String}
    (holds : ∀ h run, keeps h run →
      post h { run with tree := run.tree.updateState key state sessionId errorMessage now }) :
    Triple (Under cut places keeps)
      (.modify fun run => { run with tree := run.tree.updateState key state sessionId errorMessage now } :
        Handling nodeId Unit)
      (fun _ => Under cut places post) fail :=
  Triple.modify fun h run both => ⟨holds h run both.1, both.2⟩

theorem Steady.updateUi (steady : Steady keeps) (elsewhere : place ∉ places) (status : Option Status) (force : Bool) :
    Triple (Under cut places keeps) (updateUi place status force) (fun _ => Under cut places keeps)
      fun h run => meets cut place ∧ keeps h run :=
  Triple.bind (steady.toLocal.output fun _ => Effect.noConfusion) fun _ => steady.pass elsewhere

theorem Steady.applyTranscript (steady : Steady keeps) (elsewhere : .apply ∉ places) (event : ParsedEvent) :
    Triple (Under cut places keeps) (applyTranscript event) (fun _ => Under cut places keeps)
      fun h run => meets cut .apply ∧ keeps h run :=
  Triple.bind (steady.pass elsewhere) fun _ => steady.toLocal.output fun _ => Effect.noConfusion

theorem Steady.saveTree (steady : Steady keeps) (elsewhere : place ∉ places) :
    Triple (Under cut places keeps) (saveTree place) (fun _ => Under cut places keeps)
      fun h run => meets cut place ∧ keeps h run :=
  Triple.bind (steady.pass elsewhere) fun _ =>
    Triple.emit fun h run both => ⟨steady.effect h run _ (fun _ => Effect.noConfusion) both.1, both.2⟩

/-- Marking children keeps what is known of the run alone and what another failed node does not undo. -/
theorem Steady.markChild {holds : Run nodeId → Prop} (steady : Steady fun _ run => holds run)
    (fails : ∀ run (key : MessageId) message, holds run →
      holds { run with tree := run.tree.updateState key .error none message now })
    (elsewhere : .childLock ∉ places) (child : MessageId) (message : Option String) :
    Triple (Under cut places fun _ run => holds run)
      (do Handler.updateState .childLock now child .error none message; Handler.output (.marked child) :
        Handling nodeId Unit)
      (fun _ h run => Under cut places (fun _ run => holds run) h run ∧ HasMark h)
      fun _ run => meets cut .childLock ∧ holds run := by
  have written : Triple (Under cut places fun _ run => holds run)
      (Handler.updateState .childLock now child .error none message : Handling nodeId Unit)
      (fun _ => Under cut places fun _ run => holds run) fun _ run => meets cut .childLock ∧ holds run :=
    Triple.bind (steady.pass elsewhere) fun _ => write_under fun _ run before => fails run child message before
  refine Triple.bind written fun _ => Triple.emit fun h run under => ⟨under, child, ?_⟩
  exact List.mem_append_right _ List.mem_cons_self

/-- What is awaited is interrupted when the others have written. -/
theorem pass_settled {pre : List Effect → Run nodeId → Prop} (awaited : place.isCall = false) :
    Triple pre (Handler.pass place : Handling nodeId Unit) (fun _ _ _ => True) fun _ run => run.others = [] := by
  intro history run _
  unfold Handler.pass
  rw [awaited]
  cases run.cut with
  | none => trivial
  | some c => by_cases hit : c.hits place = true <;> simp [hit, Run.settle]

end Steady

end ClaudeProxy.Handler
