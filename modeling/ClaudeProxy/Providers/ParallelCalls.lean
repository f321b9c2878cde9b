import ClaudeProxy.Providers.ToolKnowledge

namespace ClaudeProxy.Providers

open Kit Kit.Generator ContentBlockManager

structure NativeCall where
  index : Int
  id : Str
  name : Str
  arguments : Str

def sentFor (index : Int) (deltas : List CallDelta) : List Fragment :=
  (deltas.filter fun delta => delta.index = index).map CallDelta.fragment

/-- The name comes in pieces, or in full each time. -/
def NamedBy (name : Str) (fragments : List Fragment) : Prop :=
  fragments.flatMap (fun fragment => fragment.name.getD []) = name ∨
    (∃ fragment ∈ fragments, fragment.name = some name) ∧
      ∀ fragment ∈ fragments, ∀ sent, fragment.name = some sent → sent = name

structure NativeCall.SplitInto (call : NativeCall) (fragments : List Fragment) : Prop where
  identified : fragments.head?.map Fragment.id = some (some call.id)
  named : NamedBy call.name fragments
  arguments : argumentsOf fragments = call.arguments

/-- The deltas of several calls, in any order among the calls. -/
structure Interleaved (calls : List NativeCall) (deltas : List CallDelta) : Prop where
  distinct : (calls.map NativeCall.index).Nodup
  nonnegative : ∀ call ∈ calls, 0 ≤ call.index
  covered : ∀ delta ∈ deltas, ∃ call ∈ calls, call.index = delta.index
  split : ∀ call ∈ calls, call.SplitInto (sentFor call.index deltas)

/-- The tool calls of a stream: an exception ends them and is reported, and the buffers are flushed in any case. -/
def nativeToolCalls (provider : Provider) (rt : Runtime) (requestId : Option Str) (deltas : List CallDelta) : Gen Unit := do
  attempt (processDeltas rt deltas) (reportError provider requestId)
  flushTaskArgBuffers rt

/-- The block of the call is started once, with its id and name, and receives its arguments. -/
def Reassembled (outcome : Outcome Event Stream PyException Unit) (call : NativeCall) : Prop :=
  ∃ state, outcome.state.sse.blocks.toolStates.get? call.index = some state ∧ state.started = true ∧
    toolStarts state.blockIndex outcome.yielded = [(call.id, call.name)] ∧
    (jsonDeltas state.blockIndex outcome.yielded).flatten = call.arguments

instance (rt : Runtime) (call : Call) : Decidable (Refused rt call) :=
  decidable_of_iff ((firstAccepted rt [] call.buffered).any (fun value => !value.isObject) = true) (by
    rw [Option.any_eq_true]
    constructor
    · intro found
      rcases found with ⟨value, accepted, other⟩
      exact ⟨value, accepted, by simpa using other⟩
    · intro refused
      rcases refused with ⟨value, accepted, other⟩
      exact ⟨value, accepted, by simpa using other⟩)

/-- The deltas up to the one that the interception of `Task` calls refuses. -/
def heeded (rt : Runtime) (seen : List CallDelta) : List CallDelta → List CallDelta
  | [] => []
  | delta :: rest =>
    if Refused rt (.of (sentFor delta.index (seen ++ [delta]))) then [delta]
    else delta :: heeded rt (seen ++ [delta]) rest

/-- The first delta has the id and the whole name, and no argument comes too late. -/
structure Announced (rt : Runtime) (deltas : List CallDelta) (call : NativeCall) : Prop where
  identified : call.id ≠ []
  named : (sentFor call.index (heeded rt [] deltas)).head?.map (fun first => first.name.getD []) = some call.name
  whole : argumentsOf (sentFor call.index (heeded rt [] deltas)) = call.arguments

/-- A name that is not `Task` and that no later fragment changes. -/
def FinalName (name : Str) (rest : List Fragment) : Prop :=
  name ≠ taskName ∧ ∀ fragment ∈ rest, ∀ sent, fragment.name = some sent → sent <+: name

structure Gathers (first : Fragment) (rest : List Fragment) (state : ToolCallState) : Prop where
  name : state.name = first.name.getD []
  contents : state.contents.flatten = argumentsOf (first :: rest)
  buffer : state.taskArgBuffer = []

/-- After the fragments of a call whose id comes first. -/
def Piece : List Fragment → Knowledge
  | [], state, openings => state = none ∧ openings = []
  | first :: rest, state, openings => given first.id = true → ∃ here, state = some here ∧ here.started = true ∧
      openings = [(first.id.getD [], first.name.getD [])] ∧ (FinalName (first.name.getD []) rest → Gathers first rest here)

section Fragments

variable {first fragment : Fragment} {rest : List Fragment} {args : Str}

theorem FinalName.init (settled : FinalName args (rest ++ [fragment])) : FinalName args rest :=
  ⟨settled.1, fun other member => settled.2 other (List.mem_append_left _ member)⟩

theorem FinalName.merge (settled : FinalName args (rest ++ [fragment])) {name : Str} (named : fragment.name = some name) :
    Call.mergeName (some args) name = args := by
  have shorter := settled.2 fragment (List.mem_append_right _ List.mem_cons_self) name named
  rw [Call.mergeName]
  split
  · rename_i grown
    rcases grown with empty | longer
    · rw [empty] at shorter ⊢
      exact List.prefix_nil.mp shorter
    · exact shorter.eq_of_length (Nat.le_antisymm shorter.length_le (List.isPrefixOf_iff_prefix.mp longer).length_le)
  · rw [if_neg (not_not.mpr (List.isPrefixOf_iff_prefix.mpr shorter))]

theorem argumentsOf_append (fragments more : List Fragment) :
    argumentsOf (fragments ++ more) = argumentsOf fragments ++ argumentsOf more := List.flatMap_append ..

/-- What is known after the name of one more fragment. -/
def Named (seen : List Fragment) (fragment : Fragment) : Knowledge :=
  match seen with
  | [] => fun state openings => state = renamed none fragment.name ∧ openings = []
  | first :: rest => Piece (first :: (rest ++ [⟨none, fragment.name, none⟩]))

theorem named_of_piece {seen : List Fragment} (state : Option ToolCallState) (openings : List (Str × Str))
    (piece : Piece seen state openings) :
    Named seen fragment (renamed state fragment.name) openings := by
  cases seen with
  | nil =>
    rw [piece.1]
    exact ⟨rfl, piece.2⟩
  | cons first rest =>
    intro identified
    rcases piece identified with ⟨here, rfl, started, opened, gathers⟩
    cases named : fragment.name with
    | none =>
      refine ⟨here, rfl, started, opened, fun settled => ?_⟩
      rcases gathers settled.init with ⟨name, contents, buffer⟩
      refine ⟨name, ?_, buffer⟩
      rw [← List.cons_append, argumentsOf_append, ← contents]
      exact (List.append_nil _).symm
    | some name =>
      refine ⟨{ here with name := Call.mergeName (some here.name) name }, rfl, started, opened, fun settled => ?_⟩
      rcases gathers settled.init with ⟨own, contents, buffer⟩
      refine ⟨?_, ?_, buffer⟩
      · rw [own]
        exact settled.merge rfl
      · rw [← List.cons_append, argumentsOf_append, ← contents]
        exact (List.append_nil _).symm

def Fragment.bare (fragment : Fragment) : Fragment := { fragment with arguments := none }

theorem named_identifies (seen : List Fragment) (fragment : Fragment) :
    Identifies (Named seen fragment) (Piece (seen ++ [fragment.bare])) fragment.id := by
  cases seen with
  | nil =>
    constructor
    · intro state openings named started
      rcases named with ⟨fresh, _⟩
      cases name : fragment.name with
      | none =>
        rw [name] at fresh
        cases fresh
      | some sent =>
        rw [name] at fresh
        cases fresh
        cases started
    · intro state blockIndex toolId named idle identity identified
      rcases named with ⟨rfl, _⟩
      refine ⟨_, rfl, ?_, ?_, fun _ => ?_⟩
      · cases fragment.name <;> rfl
      · rw [identity identified]
        cases name : fragment.name <;> simp [renamed, Fragment.bare, name]
      · constructor
        · cases name : fragment.name <;> simp [renamed, begun, Fragment.bare, name]
        · cases fragment.name <;> rfl
        · cases fragment.name <;> rfl
    · intro state openings named anonymous identified
      rw [Fragment.bare, anonymous] at identified
      cases identified
  | cons first rest =>
    have same (state : Option ToolCallState) (openings : List (Str × Str))
        (piece : Piece (first :: (rest ++ [⟨none, fragment.name, none⟩])) state openings) :
        Piece (first :: (rest ++ [fragment.bare])) state openings := by
      intro identified
      rcases piece identified with ⟨here, found, started, opened, gathers⟩
      refine ⟨here, found, started, opened, fun settled => ?_⟩
      have before : FinalName (first.name.getD []) (rest ++ [⟨none, fragment.name, none⟩]) := by
        refine ⟨settled.1, fun other member => ?_⟩
        rcases List.mem_append.mp member with old | new
        · exact settled.2 other (List.mem_append_left _ old)
        · rw [List.mem_singleton.mp new]
          exact settled.2 fragment.bare (List.mem_append_right _ List.mem_cons_self)
      rcases gathers before with ⟨name, contents, buffer⟩
      refine ⟨name, ?_, buffer⟩
      rw [contents, ← List.cons_append, ← List.cons_append, argumentsOf_append, argumentsOf_append]
      rfl
    constructor
    · exact fun state openings piece _ => same _ _ piece
    · intro state blockIndex toolId piece idle _ identified
      rcases piece identified with ⟨here, rfl, started, _⟩
      rw [show (some here).any (·.started) = here.started from rfl, started] at idle
      cases idle
    · exact fun state openings piece _ => same _ _ piece

theorem piece_concat {seen : List Fragment} {state after : ToolCallState} {openings : List (Str × Str)}
    (piece : Piece (seen ++ [fragment.bare]) (some state) openings) (running : after.started = state.started)
    (fills : state.name ≠ taskName → after.name = state.name ∧
      after.contents.flatten = state.contents.flatten ++ fragment.arguments.getD [] ∧
        after.taskArgBuffer = state.taskArgBuffer) :
    Piece (seen ++ [fragment]) (some after) openings := by
  cases seen with
  | nil =>
    intro identified
    rcases piece identified with ⟨here, same, started, opened, gathers⟩
    cases same
    refine ⟨after, rfl, running.trans started, opened, fun settled => ?_⟩
    rcases gathers settled with ⟨name, contents, buffer⟩
    have other : state.name ≠ taskName := by
      rw [name]
      exact settled.1
    rcases fills other with ⟨sameName, more, sameBuffer⟩
    refine ⟨sameName.trans name, ?_, sameBuffer.trans buffer⟩
    rw [more, contents]
    simp [argumentsOf, Fragment.bare]
  | cons first rest =>
    intro identified
    rcases piece identified with ⟨here, same, started, opened, gathers⟩
    cases same
    refine ⟨after, rfl, running.trans started, opened, fun settled => ?_⟩
    have before : FinalName (first.name.getD []) (rest ++ [fragment.bare]) := by
      refine ⟨settled.1, fun other member => ?_⟩
      rcases List.mem_append.mp member with old | new
      · exact settled.2 other (List.mem_append_left _ old)
      · rw [List.mem_singleton.mp new]
        exact settled.2 fragment (List.mem_append_right _ List.mem_cons_self)
    rcases gathers before with ⟨name, contents, buffer⟩
    have other : state.name ≠ taskName := by
      rw [name]
      exact settled.1
    rcases fills other with ⟨sameName, more, sameBuffer⟩
    refine ⟨sameName.trans name, ?_, sameBuffer.trans buffer⟩
    change state.contents.flatten = argumentsOf ((first :: rest) ++ [fragment.bare]) at contents
    change _ = argumentsOf ((first :: rest) ++ [fragment])
    rw [more, contents, argumentsOf_append, argumentsOf_append]
    simp [argumentsOf, Fragment.bare]

theorem piece_fills (seen : List Fragment) (fragment : Fragment) :
    Fills (Piece (seen ++ [fragment.bare])) (Piece (seen ++ [fragment])) (fragment.arguments.getD []) := by
  constructor
  · intro state openings piece other
    refine piece_concat piece ?_ fun _ => ⟨rfl, ?_, rfl⟩
    · rfl
    · simp
  · intro state next openings piece task running
    apply piece_concat piece running
    intro other
    exact absurd task other

theorem piece_blank {seen : List Fragment} (blank : fragment.arguments.getD [] = []) (state : Option ToolCallState)
    (openings : List (Str × Str)) (piece : Piece (seen ++ [fragment.bare]) state openings) :
    Piece (seen ++ [fragment]) state openings := by
  cases state with
  | none =>
    cases seen with
    | nil =>
      intro identified
      rcases piece identified with ⟨here, absent, _⟩
      cases absent
    | cons first rest =>
      intro identified
      rcases piece identified with ⟨here, absent, _⟩
      cases absent
  | some state =>
    apply piece_concat piece rfl
    intro _
    rw [blank, List.append_nil]
    exact ⟨rfl, rfl, rfl⟩

theorem piece_free {seen : List Fragment} {state : Option ToolCallState} (piece : Piece (seen ++ [fragment]) state [])
    (after : Option ToolCallState) (openings : List (Str × Str)) : Piece (seen ++ [fragment]) after openings := by
  cases seen with
  | nil =>
    intro identified
    rcases piece identified with ⟨here, _, _, opened, _⟩
    cases opened
  | cons first rest =>
    intro identified
    rcases piece identified with ⟨here, _, _, opened, _⟩
    cases opened

end Fragments

def piecesOf (seen : List CallDelta) (i : Int) : Knowledge := Piece (sentFor i seen)

def callsOf (seen : List CallDelta) (i : Int) : Call := .of (sentFor i seen)

section Run

variable {rt : Runtime} {seen : List CallDelta} {delta : CallDelta}

theorem sentFor_append (i : Int) (deltas more : List CallDelta) :
    sentFor i (deltas ++ more) = sentFor i deltas ++ sentFor i more := by
  rw [sentFor, List.filter_append, List.map_append]
  rfl

theorem sentFor_self (delta : CallDelta) : sentFor delta.index [delta] = [delta.fragment] := by
  simp [sentFor]

theorem sentFor_ne {i : Int} (other : i ≠ delta.index) : sentFor i [delta] = [] := by
  simp [sentFor, Ne.symm other]

theorem piecesOf_concat (seen : List CallDelta) (delta : CallDelta) : piecesOf (seen ++ [delta]) =
    Function.update (piecesOf seen) delta.index (Piece (sentFor delta.index seen ++ [delta.fragment])) := by
  funext i
  rw [piecesOf, sentFor_append]
  by_cases own : i = delta.index
  · rw [own, Function.update_self, sentFor_self]
  · rw [Function.update_of_ne own, sentFor_ne own, List.append_nil]
    rfl

theorem callsOf_concat (seen : List CallDelta) (delta : CallDelta) : callsOf (seen ++ [delta]) =
    Function.update (callsOf seen) delta.index ((callsOf seen delta.index).add delta.fragment) := by
  funext i
  rw [callsOf, sentFor_append]
  by_cases own : i = delta.index
  · rw [own, Function.update_self, sentFor_self, Call.of, List.foldl_append]
    rfl
  · rw [Function.update_of_ne own, sentFor_ne own, List.append_nil]
    rfl

theorem processDelta_describes (nonnegative : 0 ≤ delta.index) :
    Triple (Describes (piecesOf seen)) (processDelta rt delta) (fun _ => Describes (piecesOf (seen ++ [delta])))
      (Describes (piecesOf (seen ++ [delta]))) := by
  rw [piecesOf_concat]
  let fragment := delta.fragment
  let before := sentFor delta.index seen
  let fail := Describes (Function.update (piecesOf seen) delta.index (Piece (before ++ [fragment])))
  have index : Triple (Describes (piecesOf seen)) (toolIndex (some delta.index))
      (fun i sent s => i = delta.index ∧ Describes (piecesOf seen) sent s) fail := by
    refine Triple.bind Triple.current fun s => Triple.pure ?_
    intro sent s' both
    exact ⟨if_neg (Int.not_lt.mpr nonnegative), both.2⟩
  refine Triple.bind index fun i => ?_
  refine Triple.given (fun _ _ => And.left) fun same => ?_
  subst same
  have register := @registerName_describes (piecesOf seen) (Named before fragment) fail delta.index fragment.name
    fun state openings piece => named_of_piece state openings piece
  have start := @startNamedTool_describes rt (Function.update (piecesOf seen) delta.index (Named before fragment))
    (Piece (before ++ [fragment.bare])) fail delta.index fragment.id (by
      rw [Function.update_self]
      exact named_identifies before fragment)
  rw [Function.update_idem] at start
  refine (Triple.bind register fun _ => Triple.bind start fun _ => ?_).before fun _ _ both => both.2
  apply Triple.ite
  · intro filled
    have unnamed := @startUnnamedTool_describes rt
      (Function.update (piecesOf seen) delta.index (Piece (before ++ [fragment.bare])))
        (Piece (before ++ [fragment.bare])) fail
      delta.index fragment.id
    rw [Function.update_self, Function.update_idem] at unnamed
    have pass := @passArguments_describes rt
      (Function.update (piecesOf seen) delta.index (Piece (before ++ [fragment.bare])))
      (Piece (before ++ [fragment])) delta.index (fragment.arguments.getD []) (by
        rw [Function.update_self]
        exact piece_fills before fragment)
    rw [Function.update_idem] at pass
    refine Triple.bind (unnamed (fun _ _ piece _ => piece) ?_) fun _ => pass
    intro state piece after openings
    exact piece_free piece after openings
  · intro blank
    apply Triple.pure
    intro sent s known
    have empty : fragment.arguments.getD [] = [] := not_not.mp fun filled => blank ((given_iff _).mpr filled)
    have kept := @describes_keep (Function.update (piecesOf seen) delta.index (Piece (before ++ [fragment.bare])))
      (Piece (before ++ [fragment])) delta.index sent s _ ⟨known, rfl⟩ fun openings piece => by
        rw [Function.update_self] at piece
        exact piece_blank empty _ openings piece
    rw [Function.update_idem] at kept
    exact kept

theorem processDelta_both (nonnegative : 0 ≤ delta.index) {known : List Int} : Triple
    (fun sent s => Describes (piecesOf seen) sent s ∧ Follows rt (callsOf seen) known sent s) (processDelta rt delta)
    (fun _ sent s => Describes (piecesOf (seen ++ [delta])) sent s ∧
      ∃ known, Follows rt (callsOf (seen ++ [delta])) known sent s)
    fun sent s => Describes (piecesOf (seen ++ [delta])) sent s ∧ Refused rt (callsOf (seen ++ [delta]) delta.index) := by
  have follows := @processDelta_follows rt (callsOf seen) known delta
  have index : indexOf known delta.index = delta.index := if_neg (Int.not_lt.mpr nonnegative)
  rw [index, ← callsOf_concat] at follows
  refine ((processDelta_describes nonnegative).both follows).weaken (fun _ _ before => before) ?_ ?_
  · intro _ sent s both
    exact ⟨both.1, _, both.2⟩
  · intro sent s both
    refine ⟨both.1, ?_⟩
    rw [callsOf_concat, Function.update_self]
    exact both.2

theorem processDeltas_describes {deltas : List CallDelta} (nonnegative : ∀ delta ∈ deltas, 0 ≤ delta.index) : Triple
    (fun sent s => Describes (piecesOf seen) sent s ∧ ∃ known, Follows rt (callsOf seen) known sent s)
    (processDeltas rt deltas)
    (fun _ => Describes (piecesOf (seen ++ heeded rt seen deltas)))
    (Describes (piecesOf (seen ++ heeded rt seen deltas))) := by
  induction deltas generalizing seen with
  | nil =>
    apply Triple.pure
    intro sent s both
    rw [heeded, List.append_nil]
    exact both.1
  | cons delta rest ih =>
    rcases List.forall_mem_cons.mp nonnegative with ⟨first, later⟩
    have step : Triple (fun sent s => Describes (piecesOf seen) sent s ∧ ∃ known, Follows rt (callsOf seen) known sent s)
        (processDelta rt delta) (fun _ sent s => Describes (piecesOf (seen ++ [delta])) sent s ∧
          ∃ known, Follows rt (callsOf (seen ++ [delta])) known sent s)
        fun sent s => Describes (piecesOf (seen ++ [delta])) sent s ∧
          Refused rt (callsOf (seen ++ [delta]) delta.index) := by
      intro sent s both
      rcases both with ⟨known, indices, follows⟩
      exact processDelta_both first sent s ⟨known, follows⟩
    rw [heeded]
    by_cases refused : Refused rt (.of (sentFor delta.index (seen ++ [delta])))
    · rw [if_pos refused]
      have stops : Triple (fun sent s => Describes (piecesOf seen) sent s ∧ ∃ known, Follows rt (callsOf seen) known sent s)
          (processDelta rt delta) (fun _ _ _ => False) (Describes (piecesOf (seen ++ [delta]))) := by
        refine step.weaken (fun _ _ before => before) ?_ fun _ _ failed => failed.1
        intro _ sent s after
        rcases after with ⟨_, known, follows⟩
        exact follows.accepts delta.index refused
      exact Triple.bind stops fun _ _ _ impossible => impossible.elim
    · rw [if_neg refused, List.append_cons]
      refine Triple.bind (step.otherwise ?_) fun _ => ih later
      intro sent s failed
      exact absurd failed.2 refused

/-- What is left of the description when the buffers are flushed. -/
def Assembled : List Fragment → Knowledge
  | [], state, openings => state = none ∧ openings = []
  | first :: rest, state, openings => given first.id = true → ∃ here, state = some here ∧ here.started = true ∧
      openings = [(first.id.getD [], first.name.getD [])] ∧
      (FinalName (first.name.getD []) rest → here.contents.flatten = argumentsOf (first :: rest))

def assembledOf (seen : List CallDelta) (i : Int) : Knowledge := Assembled (sentFor i seen)

/-- A tool that the flush may still send something to. -/
def Loose (fragments : List Fragment) : Prop :=
  ∀ first rest, fragments = first :: rest → given first.id = true → ¬ FinalName (first.name.getD []) rest

def emptied (state : ToolCallState) : ToolCallState := { state with taskArgsEmitted := true, taskArgBuffer := [] }

theorem flushLoop_states {items : List (Int × ToolCallState)} (distinct : (items.map Prod.fst).Nodup)
    {b : ContentBlockManager} (stored : ∀ item ∈ items, b.toolStates.get? item.1 = some item.2) :
    (flushLoop rt items b).2.nextIndex = b.nextIndex ∧ ∀ j,
      (flushLoop rt items b).2.toolStates.get? j = b.toolStates.get? j ∨
        ∃ state, b.toolStates.get? j = some state ∧ (flushLoop rt items b).2.toolStates.get? j = some (emptied state) := by
  induction items generalizing b with
  | nil => exact ⟨rfl, fun _ => .inl rfl⟩
  | cons item rest ih =>
    rcases item with ⟨i, state⟩
    rw [List.map_cons, List.nodup_cons] at distinct
    rcases List.forall_mem_cons.mp stored with ⟨here, others⟩
    by_cases quiet : state.taskArgBuffer = [] ∨ state.taskArgsEmitted = true
    · have skip : flushLoop rt ((i, state) :: rest) b = flushLoop rt rest b := if_pos quiet
      rw [skip]
      exact ih distinct.2 others
    · let between : ContentBlockManager := { b with toolStates := b.toolStates.set i (emptied state) }
      have step : (flushLoop rt ((i, state) :: rest) b).2 = (flushLoop rt rest between).2 := by
        rw [flushLoop, if_neg quiet]
        rfl
      have later : ∀ item ∈ rest, between.toolStates.get? item.1 = some item.2 := by
        intro item member
        have other : item.1 ≠ i := by
          intro same
          exact distinct.1 (List.mem_map.mpr ⟨item, member, same⟩)
        exact (Dict.get?_set_ne _ _ other).trans (others item member)
      rcases ih distinct.2 later with ⟨next, states⟩
      rw [step]
      refine ⟨next, fun j => ?_⟩
      by_cases own : j = i
      · subst own
        have set : between.toolStates.get? j = some (emptied state) := Dict.get?_set_self ..
        refine .inr ⟨state, here, ?_⟩
        rcases states j with same | ⟨middle, found, last⟩
        · exact same.trans set
        · cases set.symm.trans found
          exact last
      · have same : between.toolStates.get? j = b.toolStates.get? j := Dict.get?_set_ne _ _ own
        rw [← same]
        exact states j

theorem assembled_of_piece {fragments : List Fragment} {state : Option ToolCallState} {openings : List (Str × Str)}
    (piece : Piece fragments state openings) : Assembled fragments state openings := by
  cases fragments with
  | nil => exact piece
  | cons first rest =>
    intro identified
    rcases piece identified with ⟨here, found, started, opened, gathers⟩
    exact ⟨here, found, started, opened, fun settled => (gathers settled).contents⟩

theorem Assembled.with {fragments : List Fragment} {state after : ToolCallState} {openings : List (Str × Str)}
    (assembled : Assembled fragments (some state) openings) (running : after.started = state.started)
    (contents : after.contents = state.contents ∨ Loose fragments) : Assembled fragments (some after) openings := by
  cases fragments with
  | nil => cases assembled.1
  | cons first rest =>
    intro identified
    rcases assembled identified with ⟨here, same, started, opened, gathers⟩
    cases same
    refine ⟨after, rfl, running.trans started, opened, fun settled => ?_⟩
    rcases contents with same | loose
    · rw [same]
      exact gathers settled
    · exact absurd settled (loose first rest rfl identified)

/-- The description for the rest of the flush. -/
structure Flushing (seen : List CallDelta) (results : List (Int × Str)) (sent : List Event) (s : Stream) : Prop where
  describes : Describes (assembledOf seen) sent s
  running : ∀ result ∈ results, Running result.1 s

theorem Describes.flush {sent : List Event} {s : Stream} (known : Describes (piecesOf seen) sent s) :
    Flushing seen (s.sse.blocks.flushTaskArgBuffers rt).1 sent
      { s with sse := { s.sse with blocks := (s.sse.blocks.flushTaskArgBuffers rt).2 } } ∧
      ∀ result ∈ (s.sse.blocks.flushTaskArgBuffers rt).1, Loose (sentFor result.1 seen) := by
  have listed (item : Int × ToolCallState) (member : item ∈ s.sse.blocks.toolStates.entries) :
      s.sse.blocks.toolStates.get? item.1 = some item.2 := (Dict.get?_eq_some_iff ..).mpr member
  have flushed := flushLoop_flushed rt s.sse.blocks.toolStates.nodup known.recorded listed
  rcases @flushLoop_states rt _ s.sse.blocks.toolStates.nodup _ listed with ⟨next, states⟩
  refine ⟨⟨⟨flushed.recorded, ?_, known.identified, ?_, ?_⟩, ?_⟩, ?_⟩
  · intro index bound
    exact known.unused index (next ▸ bound)
  · intro i state found busy
    rcases states i with same | ⟨before, _, last⟩
    · exact known.buffering i state (same.symm.trans found) busy
    · cases last.symm.trans found
      exact absurd rfl busy
  · intro i
    have here := assembled_of_piece (known.each i)
    rcases states i with same | ⟨before, found, last⟩
    · rw [← same] at here
      exact here
    · have same : SameBlock before (emptied before) := ⟨rfl, rfl, rfl⟩
      rw [found, ← openings_same same] at here
      have after : Assembled (sentFor i seen) (some (emptied before)) _ := here.with rfl (.inl rfl)
      rw [← last] at after
      exact after
  · intro result member
    rcases flushed.only result member with ⟨item, inside, key, filled⟩
    have found := listed item inside
    rcases flushed.same item.1 item.2 found with ⟨after, foundAfter, same⟩
    exact ⟨after, key ▸ foundAfter, same.started.trans (known.buffering item.1 item.2 found filled)⟩
  · intro result member first rest fragments identified settled
    rcases flushed.only result member with ⟨item, inside, key, filled⟩
    have piece := known.each result.1
    rw [← key, listed item inside, piecesOf, key, fragments] at piece
    rcases piece identified with ⟨here, same, _, _, gathers⟩
    cases same
    exact filled (gathers settled).buffer

theorem sendLoose_flushing {results : List (Int × Str)} {fail : List Event → Stream → Prop} (i : Int) (text : Str)
    (member : (i, text) ∈ results) (loose : Loose (sentFor i seen)) :
    Triple (Flushing seen results) (onToolDelta i text) (fun _ => Flushing seen results) fail := by
  intro sent s flushing
  rcases flushing.running _ member with ⟨state, found, started⟩
  have here := flushing.describes.each i
  rw [found] at here
  rw [onToolDelta_run found]
  constructor
  · have same : Function.update (assembledOf seen) i (Assembled (sentFor i seen)) = assembledOf seen :=
      Function.update_eq_self i (assembledOf seen)
    rw [← same]
    exact flushing.describes.delta found started text rfl (here.with rfl (.inr loose))
  · intro result listed
    rcases flushing.running result listed with ⟨other, foundOther, running⟩
    by_cases own : result.1 = i
    · rw [own]
      exact ⟨_, Dict.get?_set_self .., started⟩
    · exact ⟨other, (Dict.get?_set_ne _ _ own).trans foundOther, running⟩

theorem flushTaskArgBuffers_describes {fail : List Event → Stream → Prop} :
    Triple (Describes (piecesOf seen)) (flushTaskArgBuffers rt) (fun _ => Describes (assembledOf seen)) fail := by
  refine Triple.bind Triple.current fun s => ?_
  let results := (s.sse.blocks.flushTaskArgBuffers rt).1
  have empties : Triple (fun sent s' => s = s' ∧ Describes (piecesOf seen) sent s')
      (modify fun s' => { s' with sse := { s'.sse with blocks := (s.sse.blocks.flushTaskArgBuffers rt).2 } } : Gen Unit)
      (fun _ sent s' => Flushing seen results sent s' ∧ ∀ result ∈ results, Loose (sentFor result.1 seen)) fail := by
    apply Triple.modify
    intro sent s' both
    rcases both with ⟨rfl, known⟩
    exact known.flush
  refine Triple.bind empties fun _ => Triple.given (fun _ _ both => both.2) fun loose => ?_
  have sends : Triple (Flushing seen results) (forEach results fun result => onToolDelta result.1 result.2)
      (fun _ => Flushing seen results) fail := by
    apply Triple.forEach
    intro result member
    exact sendLoose_flushing result.1 result.2 member (loose result member)
  exact sends.weaken (fun _ _ both => both.1) (fun _ _ _ flushing => flushing.describes) fun _ _ failed => failed

theorem nativeToolCalls_describes {provider : Provider} {requestId : Option Str} {deltas : List CallDelta}
    (nonnegative : ∀ delta ∈ deltas, 0 ≤ delta.index) :
    Triple (fun sent s => sent = [] ∧ s.sse.blocks.toolStates = .empty) (nativeToolCalls provider rt requestId deltas)
      (fun _ => Describes (assembledOf (heeded rt [] deltas))) fun _ _ => False := by
  have start (sent : List Event) (s : Stream) (before : sent = [] ∧ s.sse.blocks.toolStates = .empty) :
      Describes (piecesOf []) sent s ∧ ∃ known, Follows rt (callsOf []) known sent s := by
    rcases before with ⟨rfl, fresh⟩
    refine ⟨⟨recorded_fresh fresh, fun _ _ => rfl, ?_, ?_, ?_⟩, [], follows_fresh fresh⟩
    · intro index opening member
      cases member
    · intro i state found
      rw [fresh] at found
      cases found
    · intro i
      rw [fresh]
      exact ⟨rfl, rfl⟩
  have process := (@processDeltas_describes rt [] deltas nonnegative).before start
  rw [List.nil_append] at process
  refine Triple.bind (Triple.attempt process fun e => reportError_describes e) fun _ => ?_
  exact flushTaskArgBuffers_describes

theorem heeded_front (rt : Runtime) (seen deltas : List CallDelta) : heeded rt seen deltas <+: deltas := by
  induction deltas generalizing seen with
  | nil => exact List.prefix_refl _
  | cons delta rest ih =>
    rw [heeded]
    split
    · exact ⟨rest, rfl⟩
    · exact List.cons_prefix_cons.mpr ⟨rfl, ih _⟩

theorem sentFor_front {i : Int} {deltas whole : List CallDelta} (front : deltas <+: whole) :
    sentFor i deltas <+: sentFor i whole := (front.filter _).map _

end Run

theorem finalName_of_named {name : Str} {first : Fragment} {rest : List Fragment} (named : NamedBy name (first :: rest))
    (whole : first.name.getD [] = name) (other : name ≠ taskName) : FinalName (first.name.getD []) rest := by
  rw [whole]
  refine ⟨other, fun fragment member sent sentName => ?_⟩
  rcases named with pieces | ⟨_, repeated⟩
  · rw [List.flatMap_cons, whole, List.append_right_eq_self, List.flatMap_eq_nil_iff] at pieces
    have empty := pieces fragment member
    rw [sentName] at empty
    rw [show sent = [] from empty]
    exact List.nil_prefix
  · rw [repeated fragment (List.mem_cons_of_mem _ member) sent sentName]

section Calls

variable {rt : Runtime} {deltas : List CallDelta} {call : NativeCall} {sent : List Event} {s : Stream}

theorem NativeCall.SplitInto.first (split : call.SplitInto (sentFor call.index deltas)) {first : Fragment}
    {rest : List Fragment}
    (fragments : sentFor call.index (heeded rt [] deltas) = first :: rest) :
    first.id = some call.id ∧
      (first.name.getD [] = call.name → call.name ≠ taskName → FinalName (first.name.getD []) rest) := by
  have front := @sentFor_front call.index _ _ (heeded_front rt [] deltas)
  rw [fragments] at front
  rcases front with ⟨later, whole⟩
  have identified := split.identified
  have named := split.named
  rw [← whole] at identified named
  refine ⟨Option.some.inj identified, fun complete other => ?_⟩
  have settled := finalName_of_named named complete other
  exact ⟨settled.1, fun fragment member => settled.2 fragment (List.mem_append_left _ member)⟩

theorem announced_of_reassembled (known : Describes (assembledOf (heeded rt [] deltas)) sent s)
    (split : call.SplitInto (sentFor call.index deltas)) (other : call.name ≠ taskName) {state : ToolCallState}
    (found : s.sse.blocks.toolStates.get? call.index = some state) (started : state.started = true)
    (opened : toolStarts state.blockIndex sent = [(call.id, call.name)])
    (filled : (jsonDeltas state.blockIndex sent).flatten = call.arguments) : Announced rt deltas call := by
  have identity : call.id ≠ [] := by
    apply known.identified state.blockIndex (call.id, call.name)
    rw [opened]
    exact List.mem_cons_self
  have assembled := known.each call.index
  rw [found, openings_started started, assembledOf] at assembled
  cases fragments : sentFor call.index (heeded rt [] deltas) with
  | nil =>
    rw [fragments] at assembled
    cases assembled.1
  | cons first rest =>
    rw [fragments] at assembled
    rcases split.first fragments with ⟨id, settles⟩
    have identified : given first.id = true := by
      rw [id]
      exact (given_iff _).mpr identity
    rcases assembled identified with ⟨here, same, _, announced, gathers⟩
    cases same
    have complete : first.name.getD [] = call.name := by
      have both := List.singleton_inj.mp (announced.symm.trans opened)
      exact (Prod.mk.inj both).2
    refine ⟨identity, ?_, ?_⟩
    · rw [fragments]
      exact congrArg some complete
    · rw [fragments, ← gathers (settles complete other), ← (known.recorded.filled call.index state found started).1]
      exact filled

theorem reassembled_of_announced (known : Describes (assembledOf (heeded rt [] deltas)) sent s)
    (split : call.SplitInto (sentFor call.index deltas)) (other : call.name ≠ taskName)
    (announced : Announced rt deltas call) :
    ∃ state, s.sse.blocks.toolStates.get? call.index = some state ∧ state.started = true ∧
      toolStarts state.blockIndex sent = [(call.id, call.name)] ∧
      (jsonDeltas state.blockIndex sent).flatten = call.arguments := by
  have assembled := known.each call.index
  have complete := announced.named
  have whole := announced.whole
  rw [assembledOf] at assembled
  cases fragments : sentFor call.index (heeded rt [] deltas) with
  | nil =>
    rw [fragments] at complete
    cases complete
  | cons first rest =>
    rw [fragments] at assembled complete whole
    rcases split.first fragments with ⟨id, settles⟩
    have name : first.name.getD [] = call.name := Option.some.inj complete
    have identified : given first.id = true := by
      rw [id]
      exact (given_iff _).mpr announced.identified
    rcases assembled identified with ⟨here, found, started, opened, gathers⟩
    rw [found, openings_started started, id, name] at opened
    refine ⟨here, found, started, opened, ?_⟩
    rw [(known.recorded.filled call.index here found started).1, gathers (settles name other)]
    exact whole

theorem reassembled_iff (provider : Provider) (rt : Runtime) (requestId : Option Str) (s : Stream)
    (fresh : s.sse.blocks.toolStates = .empty) {calls : List NativeCall} {deltas : List CallDelta}
    (interleaved : Interleaved calls deltas) :
    (∀ call ∈ calls, call.name ≠ taskName → Reassembled (nativeToolCalls provider rt requestId deltas s) call) ↔
      ∀ call ∈ calls, call.name ≠ taskName → Announced rt deltas call := by
  have nonnegative : ∀ delta ∈ deltas, 0 ≤ delta.index := by
    intro delta member
    rcases interleaved.covered delta member with ⟨call, listed, same⟩
    rw [← same]
    exact interleaved.nonnegative call listed
  rcases (@nativeToolCalls_describes rt provider requestId deltas nonnegative).ends [] s ⟨rfl, fresh⟩ with ⟨_, _, known⟩
  rw [List.nil_append] at known
  constructor
  · intro reassembled call member other
    rcases reassembled call member other with ⟨state, found, started, opened, filled⟩
    exact announced_of_reassembled known (interleaved.split call member) other found started opened filled
  · intro announced call member other
    exact reassembled_of_announced known (interleaved.split call member) other (announced call member other)

end Calls

def sampleProvider : Provider := ⟨false, none⟩

/-- A name that is sent again, and arguments that come later than the name. -/
def readAndWrite : List CallDelta :=
  [⟨0, some "call_1".toList, some "Read".toList, some "\x7b\"a\"".toList⟩,
    ⟨1, some "call_2".toList, some "Write".toList, none⟩,
    ⟨0, none, some "Read".toList, some ": 1\x7d".toList⟩,
    ⟨1, none, none, some "\x7b\x7d".toList⟩]

def readingCall : NativeCall := ⟨0, "call_1".toList, "Read".toList, "\x7b\"a\": 1\x7d".toList⟩

def writingCall : NativeCall := ⟨1, "call_2".toList, "Write".toList, "\x7b\x7d".toList⟩

theorem interleaved_readAndWrite : Interleaved [readingCall, writingCall] readAndWrite := by
  have whole : readingCall.SplitInto (sentFor readingCall.index readAndWrite) := by
    refine ⟨rfl, .inr ⟨⟨_, List.mem_cons_self, rfl⟩, ?_⟩, rfl⟩
    intro fragment member sent named
    rcases List.mem_cons.mp member with rfl | later
    · exact (Option.some.inj named).symm
    · rw [List.mem_singleton.mp later] at named
      exact (Option.some.inj named).symm
  have pieces : writingCall.SplitInto (sentFor writingCall.index readAndWrite) := ⟨rfl, .inl rfl, rfl⟩
  constructor
  · decide
  · simp [readingCall, writingCall]
  · simp [readAndWrite, readingCall, writingCall]
  · intro call member
    rcases List.mem_cons.mp member with rfl | later
    · exact whole
    · rw [List.mem_singleton.mp later]
      exact pieces

theorem reassembled_readAndWrite :
    Reassembled (nativeToolCalls sampleProvider sampleRuntime none readAndWrite sampleStream) readingCall ∧
    Reassembled (nativeToolCalls sampleProvider sampleRuntime none readAndWrite sampleStream) writingCall := by
  have announced : ∀ call ∈ [readingCall, writingCall], call.name ≠ taskName →
    Announced sampleRuntime readAndWrite call := by
    intro call member other
    rcases List.mem_cons.mp member with rfl | later
    · exact ⟨by decide, rfl, rfl⟩
    · rw [List.mem_singleton.mp later]
      exact ⟨by decide, rfl, rfl⟩
  have both := (reassembled_iff sampleProvider sampleRuntime none sampleStream rfl interleaved_readAndWrite).mpr announced
  exact ⟨both readingCall List.mem_cons_self (by decide),
    both writingCall (List.mem_cons_of_mem _ List.mem_cons_self) (by decide)⟩

/-- A name in two pieces. -/
def splitName : List CallDelta :=
  [⟨0, some "call_1".toList, some "Read".toList, none⟩, ⟨0, none, some "File".toList, some "\x7b\x7d".toList⟩]

def readFileCall : NativeCall := ⟨0, "call_1".toList, "ReadFile".toList, "\x7b\x7d".toList⟩

theorem not_reassembled_splitName : Interleaved [readFileCall] splitName ∧ readFileCall.name ≠ taskName ∧
    ¬ Reassembled (nativeToolCalls sampleProvider sampleRuntime none splitName sampleStream) readFileCall := by
  refine ⟨⟨by decide, by simp [readFileCall], by simp [splitName, readFileCall], ?_⟩, by decide, ?_⟩
  · intro call member
    rw [List.mem_singleton.mp member]
    exact ⟨rfl, .inl rfl, rfl⟩
  · intro reassembled
    rcases reassembled with ⟨state, found, _, opened, _⟩
    cases found
    cases opened

end ClaudeProxy.Providers
